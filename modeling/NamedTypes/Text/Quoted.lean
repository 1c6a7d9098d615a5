import NamedTypes.Text.Extender
import NamedTypes.Text.Unprintable

/-! # Quoted text in diagnostics
How a string stands in a diagnostic: between quotes, with quotes and backslashes escaped. A
character that cannot be seen on its own is written by its number, unless it has an escape of its
own. -/

namespace NamedTypes.Text

/-- The letters without a shape, which only fill the place of a missing one. -/
def fillers : CharSet := ⟨[(0x115F, 0x1160), (0x3164, 0x3164), (0xFFA0, 0xFFA0)]⟩

/-- The extending characters that are as wide as a letter and stand beside the one before them. -/
def halfwidthMarks : CharSet := ⟨[(0xFF9E, 0xFF9F)]⟩

/-- Whether a character cannot be seen on its own: it has no shape, or it combines with the
character before it. -/
def isInvisible (c : Char) : Bool :=
  unprintable.contains c || fillers.contains c ||
    (extenders.contains c && !halfwidthMarks.contains c)

/-- The escape of a character that has one of its own. -/
def namedEscape? : Char → Option (List Char)
  | '"' => some ['\\', '"']
  | '\\' => some ['\\', '\\']
  | '\n' => some ['\\', 'n']
  | '\r' => some ['\\', 'r']
  | '\t' => some ['\\', 't']
  | '\x00' => some ['\\', '0']
  | _ => none

/-- How a character stands between quotes. -/
def escapeChar (c : Char) : List Char :=
  match namedEscape? c with
  | some escaped => escaped
  | none =>
    if isInvisible c then ['\\', 'u', '\x7b'] ++ Nat.toDigits 16 c.toNat ++ ['\x7d'] else [c]

/-- A string between quotes. -/
def quoted (s : String) : String :=
  String.ofList ('"' :: (s.toList.flatMap escapeChar ++ ['"']))

end NamedTypes.Text
