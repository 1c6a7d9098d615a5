import NamedTypes.Log.Line
import NamedTypes.Proofs.Entries
import NamedTypes.Proofs.Quoting

/-! # Reading log lines back
A log line is one line that holds one object, whatever the event text, the keys and the values are:
the strict reader finds the members in the order in which they were written, and of members with
distinct keys the object keeps all (`Log.line_read_back`). -/

namespace NamedTypes.Log

open Json

/-! ## Reading members -/

/-- A member whose value is a string. -/
def member (m : String × String) : String × Value := (m.1, .string m.2)

theorem renderField_append (m : String × String) (rest : List Char) :
    renderField m ++ rest = quoted m.1 ++ ':' :: (quoted m.2 ++ rest) := by
  simp [renderField]

theorem readColon_cons (rest : List Char) : readColon (':' :: rest) = .ok ((), rest) := rfl

/-- A member is read back, its key first and then, after the colon, its value. -/
theorem readMembers_of_key {nesting bound : Nat} {isFirst : Bool} {m : String × String}
    {text after rest : List Char} {members : Entries Value}
    (hkey : nextKey? isFirst text = .ok (some m.1, ':' :: (quoted m.2 ++ after)))
    (h : readMembers (readValue nesting) bound false after = .ok (members, rest)) :
    readMembers (readValue nesting) (bound + 1) isFirst text =
      .ok (member m :: members, rest) := by
  simp only [readMembers, hkey, readColon_cons, readValue_quoted, h, Bind.bind, Except.bind, pure,
    Except.pure, member]

/-- The first key of an object. -/
theorem nextKey?_first (key : String) (rest : List Char) :
    nextKey? true (quoted key ++ rest) = .ok (some key, rest) := by
  have hread := readKey_quoted key rest
  rw [quoted_append] at hread ⊢
  rw [nextKey?, skipBlank, List.dropWhile_cons_of_neg (by decide)]
  simp only [hread]
  rfl

/-- A further key of an object. -/
theorem nextKey?_next (key : String) (rest : List Char) :
    nextKey? false (',' :: (quoted key ++ rest)) = .ok (some key, rest) := by
  have hread := readKey_quoted key rest
  rw [quoted_append] at hread ⊢
  rw [nextKey?, skipBlank, List.dropWhile_cons_of_neg (by decide)]
  simp only [skipBlank, List.dropWhile_cons_of_neg (show ¬ isBlank '"' = true by decide), hread]
  rfl

/-- Members after the first are read back up to the closing brace. -/
theorem readMembers_of_further (nesting : Nat) (ms : Entries String) (rest : List Char)
    {bound : Nat} (hbound : ms.length < bound) :
    readMembers (readValue nesting) bound false
        ((ms.flatMap fun m => ',' :: renderField m) ++ '\x7d' :: rest) =
      .ok (ms.map member, rest) := by
  induction ms generalizing bound with
  | nil =>
    obtain ⟨bound, rfl⟩ := Nat.exists_eq_add_of_lt hbound
    rfl
  | cons m ms ih =>
    obtain ⟨bound, rfl⟩ : ∃ n, bound = n + 1 := ⟨bound - 1, by simp at hbound; omega⟩
    rw [List.flatMap_cons, List.append_assoc, List.cons_append, renderField_append]
    exact readMembers_of_key (nextKey?_next ..) (ih (by simpa using hbound))

/-- The members of an object are read back in the order of the text. -/
theorem readMembers_of_strings (nesting : Nat) (ms : Entries String) (rest : List Char)
    {bound : Nat} (hbound : ms.length < bound) :
    readMembers (readValue nesting) bound true
        ([','].intercalate (ms.map renderField) ++ '\x7d' :: rest) =
      .ok (ms.map member, rest) := by
  obtain ⟨bound, rfl⟩ : ∃ n, bound = n + 1 := ⟨bound - 1, by omega⟩
  cases ms with
  | nil => rfl
  | cons m ms =>
    rw [List.map_cons, intercalate_cons, List.flatMap_map, List.append_assoc, renderField_append]
    exact readMembers_of_key (nextKey?_first ..)
      (readMembers_of_further nesting ms rest (by simpa using hbound))

/-! ## Objects with distinct keys -/

/-- Of members with distinct keys an object keeps all, by ascending key. -/
theorem ofMembers_of_nodup {ms : Entries Value} (h : ms.keys.Nodup) :
    Value.ofMembers ms = .object ms.sort := by
  rw [Value.ofMembers, Entries.foldl_insert_eq_sort h]

theorem keys_map_member (ms : Entries String) :
    Entries.keys (ms.map member) = Entries.keys ms := by
  simp [Entries.keys, member]

theorem length_le_length_flatMap (ms : Entries String) :
    ms.length ≤ (ms.flatMap fun m => ',' :: renderField m).length := by
  induction ms with
  | nil => exact Nat.le_refl 0
  | cons m ms ih =>
    rw [List.flatMap_cons, List.length_append, List.length_cons, List.length_cons]
    omega

/-- There are no more members than characters, so the bound of the reader is never met. -/
theorem length_le_length_intercalate (ms : Entries String) :
    ms.length ≤ ([','].intercalate (ms.map renderField)).length := by
  cases ms with
  | nil => exact Nat.le_refl 0
  | cons m ms =>
    have hfurther := length_le_length_flatMap ms
    rw [List.map_cons, intercalate_cons, List.flatMap_map, List.length_append, List.length_cons]
    simp only [List.cons_append, List.nil_append]
    have hfirst : 0 < (renderField m).length := by simp [renderField, quoted]
    omega

/-- The text of an object whose members are strings. -/
def objectText (ms : Entries String) : List Char :=
  '\x7b' :: ([','].intercalate (ms.map renderField) ++ ['\x7d'])

/-- An object of strings under distinct keys is read back. -/
theorem read_objectText {ms : Entries String} (h : ms.keys.Nodup) :
    Json.read (String.ofList (objectText ms)) = .ok (.object (Entries.sort (ms.map member))) := by
  have hbound : ms.length < ([','].intercalate (ms.map renderField) ++ ['\x7d']).length + 1 := by
    have := length_le_length_intercalate ms
    simp only [List.length_append, List.length_cons, List.length_nil]
    omega
  have hmembers := readMembers_of_strings 126 ms [] hbound
  have hobject : Value.ofMembers (ms.map member) = .object (Entries.sort (ms.map member)) :=
    ofMembers_of_nodup (by rwa [keys_map_member])
  rw [Json.read, String.toList_ofList, objectText, maxNesting, readValue, skipBlank,
    List.dropWhile_cons_of_neg (by decide)]
  simp only [hmembers]
  -- nothing is left behind the closing brace
  exact congrArg Except.ok hobject

/-! ## Lines -/

/-- The members of the object on a line, in the order in which they are written. -/
def members (severity : Severity) (event : String) (fields : Entries String) : Entries String :=
  ("event", event) :: ("severity", severity.name) :: fields.sort

theorem toList_render (severity : Severity) (event : String) (fields : Entries String) :
    (render severity event fields).toList = objectText (members severity event fields) ++ ['\n'] := by
  rw [render, String.toList_ofList]
  simp [objectText, members]

theorem nodup_keys_members {fields : Entries String} (hnodup : fields.keys.Nodup)
    (hevent : "event" ∉ fields.keys) (hseverity : "severity" ∉ fields.keys) (severity : Severity)
    (event : String) : (members severity event fields).keys.Nodup := by
  have hperm : fields.sort.keys.Perm fields.keys := (Entries.perm_sort fields).map Prod.fst
  rw [members, Entries.keys_cons, Entries.keys_cons, List.nodup_cons, List.nodup_cons,
    List.mem_cons, hperm.mem_iff, hperm.mem_iff, hperm.nodup_iff]
  exact ⟨not_or_intro (by simp) hevent, hseverity, hnodup⟩

/-- No character of an object's text is a control character. -/
theorem isControl_of_mem_objectText {ms : Entries String} {c : Char} (h : c ∈ objectText ms) :
    isControl c = false := by
  have hfield {m : String × String} {d : Char} (hd : d ∈ renderField m) : isControl d = false := by
    rcases List.mem_append.1 hd with hd | hd
    · exact isControl_of_mem_quoted hd
    · rcases List.mem_cons.1 hd with rfl | hd
      · rfl
      · exact isControl_of_mem_quoted hd
  have hfields : c ∈ [','].intercalate (ms.map renderField) → isControl c = false := by
    cases ms with
    | nil => exact fun hc => absurd hc List.not_mem_nil
    | cons m ms =>
      rw [List.map_cons, intercalate_cons, List.flatMap_map, List.mem_append, List.mem_flatMap]
      rintro (hc | ⟨other, -, hc⟩)
      · exact hfield hc
      · rcases List.mem_cons.1 hc with rfl | hc
        · rfl
        · exact hfield hc
  rcases List.mem_cons.1 h with rfl | h
  · rfl
  · rcases List.mem_append.1 h with h | h
    · exact hfields h
    · obtain rfl := List.mem_singleton.1 h
      rfl

/-- **Log lines can be read and not be forged.** A line consists of the text of one object, free of
control characters, and a line break. The strict reader takes that text for exactly the event, the
severity and the given fields; in the text they stand in this order, the fields by ascending key; and
the order in which the fields were given shows nowhere. -/
theorem line_read_back (severity : Severity) (event : String) {fields : Entries String}
    (hnodup : fields.keys.Nodup) (hevent : "event" ∉ fields.keys)
    (hseverity : "severity" ∉ fields.keys) :
    ∃ (text : List Char) (sorted : Entries String) (object : Entries Value),
      (render severity event fields).toList = '\x7b' :: text ++ ['\n'] ∧
      (∀ c ∈ '\x7b' :: text, isControl c = false) ∧
      Json.read (String.ofList ('\x7b' :: text)) = .ok (.object object) ∧
      object.Perm ((("event", event) :: ("severity", severity.name) :: fields).map member) ∧
      (∀ nesting, readMembers (readValue nesting) (text.length + 1) true text =
        .ok ((("event", event) :: ("severity", severity.name) :: sorted).map member, [])) ∧
      sorted.Perm fields ∧ sorted.Ascending ∧
      ∀ others, others.Perm fields →
        render severity event others = render severity event fields := by
  have hkeys := nodup_keys_members hnodup hevent hseverity severity event
  have hnone : fields.sort.repeatedKey? = none := Entries.repeatedKey?_sort_eq_none_iff.2 hnodup
  have hperm := Entries.perm_sort fields
  refine ⟨_, fields.sort, _, toList_render severity event fields,
    fun c => isControl_of_mem_objectText, read_objectText hkeys, ?_, fun nesting => ?_, hperm,
    Entries.ascending_sort hnone, fun others hothers => ?_⟩
  · exact (Entries.perm_sort _).trans (((hperm.cons _).cons _).map member)
  · refine readMembers_of_strings nesting _ [] ?_
    have := length_le_length_intercalate (members severity event fields)
    simp only [List.length_append, List.length_cons, List.length_nil]
    omega
  · rw [render, render, Entries.sort_of_perm hothers.symm hnone]

/-- A value that tries to close its string and its object, a key with a control character above the
ASCII range, and a character outside the BMP. -/
theorem hostile_value_read_back :
    let value : String := "\",\"severity\":\"INFO\"\x7d\n\\"
    let fields : Entries String := [("z\x85", value), ("a", "\x01𝄞")]
    fields.keys.Nodup ∧ "event" ∉ fields.keys ∧ "severity" ∉ fields.keys ∧
      ∃ (text : List Char) (object : Entries Value),
        (render .error "\"" fields).toList = '\x7b' :: text ++ ['\n'] ∧
        (∀ c ∈ '\x7b' :: text, isControl c = false) ∧
        Json.read (String.ofList ('\x7b' :: text)) = .ok (.object object) ∧
        object.Perm [("event", .string "\""), ("severity", .string "ERROR"),
          ("z\x85", .string value), ("a", .string "\x01𝄞")] := by
  intro value fields
  have hnodup : fields.keys.Nodup := by simp [fields]
  have hevent : "event" ∉ fields.keys := by simp [fields]
  have hseverity : "severity" ∉ fields.keys := by simp [fields]
  obtain ⟨text, -, object, hline, hplain, hread, hmembers, -⟩ :=
    line_read_back .error "\"" hnodup hevent hseverity
  exact ⟨hnodup, hevent, hseverity, text, object, hline, hplain, hread, hmembers⟩

end NamedTypes.Log
