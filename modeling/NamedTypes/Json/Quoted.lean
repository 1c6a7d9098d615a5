/-! # Strings written as JSON
`quoted` writes a string between quotes. Quotes, backslashes and control characters are escaped, the
control characters above the ASCII range among them; every other character stands as it is. -/

namespace NamedTypes.Json

/-- The control characters, those above the ASCII range among them. -/
def isControl (c : Char) : Bool := c.toNat < 0x20 || (0x7f ≤ c.toNat && c.toNat < 0xa0)

/-- A digit of a number to the base sixteen. -/
def hexDigit (n : Nat) : Char :=
  if n < 10 then Char.ofNat ('0'.toNat + n) else Char.ofNat ('a'.toNat + (n - 10))

/-- The four digits of a code unit. -/
def hexDigits (unit : Nat) : List Char :=
  [hexDigit (unit / 4096 % 16), hexDigit (unit / 256 % 16), hexDigit (unit / 16 % 16),
    hexDigit (unit % 16)]

/-- How a character stands inside a string. -/
def escapeChar (c : Char) : List Char :=
  if c = '"' then ['\\', '"']
  else if c = '\\' then ['\\', '\\']
  else if c = '\n' then ['\\', 'n']
  else if c = '\r' then ['\\', 'r']
  else if c = '\t' then ['\\', 't']
  else if isControl c then '\\' :: 'u' :: hexDigits c.toNat
  else [c]

/-- How characters stand inside a string. -/
def escape (cs : List Char) : List Char := cs.flatMap escapeChar

/-- A string with its quotes. -/
def quoted (s : String) : List Char := '"' :: (escape s.toList ++ ['"'])

end NamedTypes.Json
