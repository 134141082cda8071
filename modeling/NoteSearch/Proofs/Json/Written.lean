import NoteSearch.Json.Reader
import NoteSearch.Json.Writer

/-!
# Reading what was written

A value without numbers is read back from its compact text, and what follows the text is left
alone.
-/
namespace NoteSearch.Json

/-! ## Strings -/

/-- A character in quotes: one with a letter of its own, another control character, or any other. -/
theorem escaped_cases (c : Char) :
    (∃ letter, letter ≠ 'u' ∧ plainEscape? letter = some c ∧ escaped c = ['\\', letter]) ∨
      (c.toNat < 0x20 ∧ escaped c =
        ['\\', 'u', '0', '0', hexDigit (c.toNat / 16), hexDigit (c.toNat % 16)]) ∨
      (c ≠ '"' ∧ c ≠ '\\' ∧ ¬c.toNat < 0x20 ∧ escaped c = [c]) := by
  by_cases hletter : c ∈ ['"', '\\', '\n', '\r', '\t', '\x08', '\x0c']
  · left
    simp only [List.mem_cons, List.not_mem_nil, or_false] at hletter
    rcases hletter with rfl | rfl | rfl | rfl | rfl | rfl | rfl
    · exact ⟨'"', by decide, rfl, rfl⟩
    · exact ⟨'\\', by decide, rfl, rfl⟩
    · exact ⟨'n', by decide, rfl, rfl⟩
    · exact ⟨'r', by decide, rfl, rfl⟩
    · exact ⟨'t', by decide, rfl, rfl⟩
    · exact ⟨'b', by decide, rfl, rfl⟩
    · exact ⟨'f', by decide, rfl, rfl⟩
  · right
    simp only [List.mem_cons, List.not_mem_nil, or_false, not_or] at hletter
    obtain ⟨hquote, hslash, hrest⟩ := hletter
    by_cases hcontrol : c.toNat < 0x20
    · exact .inl ⟨hcontrol, by simp [escaped, hquote, hslash, hrest, hcontrol]⟩
    · exact .inr ⟨hquote, hslash, hcontrol, by simp [escaped, hquote, hslash, hrest, hcontrol]⟩

theorem hexValue?_escaped : ∀ n < 0x20,
    hexValue? ['0', '0', hexDigit (n / 16), hexDigit (n % 16)] = some n := by decide

/-- A unit that is no surrogate is a character, whatever follows it. -/
theorem textOf?_unit_cons {n : Nat} (h : n < 0xD800) (pieces : List Piece) :
    textOf? (.unit n :: pieces) = (textOf? pieces).map (Char.ofNat n :: ·) := by
  have hlow : ¬0xD800 ≤ n := by omega
  have hhigh : ¬0xDC00 ≤ n := by omega
  match pieces with
  | [] => simp [textOf?, hlow]
  | .char c :: rest => simp [textOf?, hlow]
  | .unit m :: rest => simp [textOf?, hlow, hhigh]

/-- A character is read back from quotes as one piece that stands for it. -/
theorem exists_piece (c : Char) {cs rest : List Char} {pieces : List Piece}
    (hread : stringPieces cs = some (pieces, rest)) :
    ∃ piece, stringPieces (escaped c ++ cs) = some (piece :: pieces, rest) ∧
      textOf? (piece :: pieces) = (textOf? pieces).map (c :: ·) := by
  obtain ⟨letter, hu, hplain, hc⟩ | ⟨hcontrol, hc⟩ | ⟨hquote, hslash, hcontrol, hc⟩ :=
    escaped_cases c
  · refine ⟨.char c, ?_, rfl⟩
    rw [hc]
    simp [stringPieces, hu, hplain, hread]
  · refine ⟨.unit c.toNat, ?_, ?_⟩
    · rw [hc]
      simp [stringPieces, hexValue?_escaped c.toNat hcontrol, hread]
    · rw [textOf?_unit_cons (by omega), Char.ofNat_toNat]
  · refine ⟨.char c, ?_, rfl⟩
    rw [hc]
    simp [stringPieces, hslash, hcontrol, hread]

/-- A text is read back from its pieces. -/
theorem exists_pieces (cs rest : List Char) :
    ∃ pieces, stringPieces (cs.flatMap escaped ++ '"' :: rest) = some (pieces, rest) ∧
      textOf? pieces = some cs := by
  induction cs with
  | nil => exact ⟨[], by simp [stringPieces], rfl⟩
  | cons c cs ih =>
    obtain ⟨pieces, hread, htext⟩ := ih
    obtain ⟨piece, hmore, hcons⟩ := exists_piece c hread
    rw [← List.append_assoc, ← List.flatMap_cons] at hmore
    exact ⟨piece :: pieces, hmore, by rw [hcons, htext]; rfl⟩

theorem stringRest_flatMap (cs rest : List Char) :
    stringRest (cs.flatMap escaped ++ '"' :: rest) = some (.string (String.ofList cs), rest) := by
  obtain ⟨pieces, hread, htext⟩ := exists_pieces cs rest
  rw [stringRest, hread]
  simp only [Option.map_some, htext]

/-! ## Values -/

/-- A value without numbers, and all of whose strings are text. -/
inductive IsPlain : Json → Prop
  | null : IsPlain .null
  | bool (b : Bool) : IsPlain (.bool b)
  | string (s : String) : IsPlain (.string s)
  | array {items : List Json} (h : ∀ item ∈ items, IsPlain item) : IsPlain (.array items)
  | object {fields : List (String × Json)} (h : ∀ field ∈ fields, IsPlain field.2) :
    IsPlain (.object fields)

/-- A field of an object, as it is written. -/
def writeField (field : String × Json) : List Char := quoted field.1 ++ ':' :: write field.2

theorem writeItems_eq (items : List Json) : writeItems items = items.map write := by
  induction items with
  | nil => rfl
  | cons item items ih => rw [writeItems, ih, List.map_cons]

theorem writeFields_eq (fields : List (String × Json)) :
    writeFields fields = fields.map writeField := by
  induction fields with
  | nil => rfl
  | cons field fields ih =>
    rw [writeFields, ih, List.map_cons]
    rfl

/-- What is written starts neither with a blank nor with the end of an array. -/
theorem IsPlain.write_eq_cons {v : Json} (h : v.IsPlain) :
    ∃ c cs, v.write = c :: cs ∧ isSpace c = false ∧ c ≠ ']' := by
  cases h with
  | null => exact ⟨'n', _, rfl, rfl, by decide⟩
  | bool b =>
    cases b with
    | false => exact ⟨'f', _, rfl, rfl, by decide⟩
    | true => exact ⟨'t', _, rfl, rfl, by decide⟩
  | string s => exact ⟨'"', _, rfl, rfl, by decide⟩
  | array _ => exact ⟨'[', _, by rw [write]; rfl, rfl, by decide⟩
  | object _ => exact ⟨'{', _, by rw [write]; rfl, rfl, by decide⟩

/-! ## Lists of parts -/

variable {item : List Char → Option (Json × List Char)}

/-- The text of some parts is at least as long as there are parts to read. -/
theorem length_le_of_parts (parts : List (List Char)) (closing : Char) (rest : List Char) :
    parts.length ≤ ([','].intercalate parts ++ closing :: rest).length := by
  induction parts with
  | nil => exact Nat.zero_le _
  | cons part parts ih =>
    cases parts with
    | nil =>
      rw [List.length_append, List.length_cons]
      exact Nat.le_add_left_of_le (Nat.le_add_left 1 _)
    | cons next parts =>
      rw [List.intercalate_cons_cons]
      simp only [List.length_append, List.length_cons] at ih ⊢
      omega

/-- No part is longer than all of them. -/
theorem length_part_le {part : List Char} {parts : List (List Char)} (h : part ∈ parts) :
    part.length ≤ ([','].intercalate parts).length := by
  induction parts with
  | nil => cases h
  | cons first parts ih =>
    cases parts with
    | nil =>
      obtain rfl := List.mem_singleton.1 h
      exact Nat.le_of_eq (congrArg List.length List.intercalate_singleton.symm)
    | cons next parts =>
      rw [List.intercalate_cons_cons, List.length_append, List.length_append]
      obtain rfl | hlater := List.mem_cons.1 h
      · omega
      · have hpart := ih hlater
        omega

/-- The text of some parts starts with the first of them. -/
theorem exists_intercalate_cons (part : List Char) (parts : List (List Char)) :
    ∃ rest, [','].intercalate (part :: parts) = part ++ rest := by
  cases parts with
  | nil => exact ⟨[], by rw [List.intercalate_singleton, List.append_nil]⟩
  | cons next parts => exact ⟨_, by rw [List.intercalate_cons_cons, List.append_assoc]⟩

/-- Items with commas between them are read back, if each of them is. -/
theorem itemsFrom_intercalate {items : List Json} (hne : items ≠ [])
    (hread : ∀ v ∈ items, ∀ rest, item (v.write ++ rest) = some (v, rest)) {fuel : Nat}
    (hfuel : items.length ≤ fuel) (rest : List Char) :
    itemsFrom item fuel ([','].intercalate (items.map write) ++ ']' :: rest) =
      some (items, rest) := by
  induction items generalizing fuel with
  | nil => exact absurd rfl hne
  | cons v items ih =>
    obtain ⟨fuel, rfl⟩ := Nat.exists_eq_add_of_le' (Nat.le_of_add_left_le hfuel)
    have hv : ∀ rest, item (v.write ++ rest) = some (v, rest) := hread v (by simp)
    cases items with
    | nil =>
      rw [List.map_singleton, List.intercalate_singleton, itemsFrom, hv]
      rfl
    | cons w items =>
      have hmore := ih (by simp) (fun u hu => hread u (List.mem_cons_of_mem v hu))
        (Nat.le_of_succ_le_succ hfuel)
      rw [List.map_cons] at hmore ⊢
      rw [List.map_cons, List.intercalate_cons_cons, List.append_assoc, List.append_assoc,
        List.singleton_append, itemsFrom, hv]
      change (itemsFrom item fuel _).bind _ = _
      rw [hmore]
      rfl

/-- The name of a field is read back, and then its value. -/
theorem fieldsFrom_writeField {field : String × Json}
    (hread : ∀ rest, item (field.2.write ++ rest) = some (field.2, rest)) (fuel : Nat)
    (cs : List Char) :
    fieldsFrom item (fuel + 1) (writeField field ++ cs) =
      match skipSpace cs with
      | ',' :: cs =>
        (fieldsFrom item fuel cs).bind fun (fields, cs) =>
          some ((some field.1, field.2) :: fields, cs)
      | '}' :: cs => some ([(some field.1, field.2)], cs)
      | _ => none := by
  have hname := stringRest_flatMap field.1.toList (':' :: (field.2.write ++ cs))
  rw [String.ofList_toList] at hname
  have hfield : writeField field ++ cs = '"' :: (field.1.toList.flatMap escaped ++
      '"' :: ':' :: (field.2.write ++ cs)) := by simp [writeField, quoted]
  rw [hfield, fieldsFrom]
  change (stringRest _).bind _ = _
  rw [hname]
  change (item _).bind _ = _
  rw [hread]
  rfl

/-- Fields with commas between them are read back, if the value of each of them is. -/
theorem fieldsFrom_intercalate {fields : List (String × Json)} (hne : fields ≠ [])
    (hread : ∀ field ∈ fields, ∀ rest, item (field.2.write ++ rest) = some (field.2, rest))
    {fuel : Nat} (hfuel : fields.length ≤ fuel) (rest : List Char) :
    fieldsFrom item fuel ([','].intercalate (fields.map writeField) ++ '}' :: rest) =
      some (fields.map fun field => (some field.1, field.2), rest) := by
  induction fields generalizing fuel with
  | nil => exact absurd rfl hne
  | cons field fields ih =>
    obtain ⟨fuel, rfl⟩ := Nat.exists_eq_add_of_le' (Nat.le_of_add_left_le hfuel)
    have hfield : ∀ rest, item (field.2.write ++ rest) = some (field.2, rest) :=
      hread field (by simp)
    cases fields with
    | nil =>
      rw [List.map_singleton, List.intercalate_singleton, fieldsFrom_writeField hfield]
      rfl
    | cons next fields =>
      have hmore := ih (by simp) (fun other hmem => hread other (List.mem_cons_of_mem field hmem))
        (Nat.le_of_succ_le_succ hfuel)
      rw [List.map_cons] at hmore ⊢
      rw [List.map_cons, List.intercalate_cons_cons, List.append_assoc, List.append_assoc,
        List.singleton_append, fieldsFrom_writeField hfield]
      change (fieldsFrom item fuel _).bind _ = _
      rw [hmore]
      rfl

/-- What is undone item by item is undone as a list. -/
theorem mapM_map_eq_some {α β : Type} {f : α → β} {g : β → Option α}
    (h : ∀ a, g (f a) = some a) (l : List α) : (l.map f).mapM g = some l := by
  induction l with
  | nil => rfl
  | cons a l ih =>
    rw [List.map_cons, List.mapM_cons, h, ih]
    rfl

theorem ofFields_map (fields : List (String × Json)) :
    ofFields (fields.map fun field => (some field.1, field.2)) = .object fields := by
  rw [ofFields, mapM_map_eq_some]
  exact fun _ => rfl

/-! ## Texts -/

theorem write_array (items : List Json) :
    (Json.array items).write = '[' :: ([','].intercalate (items.map write) ++ [']']) := by
  rw [write, writeItems_eq]
  rfl

theorem write_object (fields : List (String × Json)) :
    (Json.object fields).write = '{' :: ([','].intercalate (fields.map writeField) ++ ['}']) := by
  rw [write, writeFields_eq]
  rfl

/-- What is nested in a value has a shorter text. -/
theorem length_item_lt {v : Json} {items : List Json} (h : v ∈ items) :
    v.write.length < (Json.array items).write.length := by
  have hpart := length_part_le (List.mem_map_of_mem (f := write) h)
  rw [write_array, List.length_cons, List.length_append]
  omega

theorem length_field_lt {field : String × Json} {fields : List (String × Json)}
    (h : field ∈ fields) : field.2.write.length < (Json.object fields).write.length := by
  have hpart := length_part_le (List.mem_map_of_mem (f := writeField) h)
  rw [writeField, List.length_append, List.length_cons] at hpart
  rw [write_object, List.length_cons, List.length_append]
  omega

theorem valueAt_quoted (fuel : Nat) (s : String) (rest : List Char) :
    valueAt (fuel + 1) (quoted s ++ rest) = some (.string s, rest) := by
  have hread := stringRest_flatMap s.toList rest
  rw [String.ofList_toList] at hread
  have hquoted : quoted s ++ rest = '"' :: (s.toList.flatMap escaped ++ '"' :: rest) := by
    simp [quoted]
  rw [hquoted, ← hread]
  rfl

/-- An array whose items follow, the first of them without blanks before it. -/
theorem valueAt_bracket {fuel : Nat} {c : Char} {cs : List Char} (hspace : isSpace c = false)
    (hclose : c ≠ ']') :
    valueAt (fuel + 1) ('[' :: c :: cs) =
      (itemsFrom (valueAt fuel) (c :: cs).length (c :: cs)).map fun (items, cs) =>
        (.array items, cs) := by
  have hkept : skipSpace (c :: cs) = c :: cs := List.dropWhile_cons_of_neg (by simp [hspace])
  have hopened : skipSpace ('[' :: c :: cs) = '[' :: c :: cs := rfl
  simp [valueAt, hopened, hkept, hclose]

/-- An object whose fields follow, the first of them without blanks before it. -/
theorem valueAt_brace (fuel : Nat) (cs : List Char) :
    valueAt (fuel + 1) ('{' :: '"' :: cs) =
      (fieldsFrom (valueAt fuel) ('"' :: cs).length ('"' :: cs)).map fun (fields, cs) =>
        (ofFields fields, cs) := rfl

/-- An array is read back, if its items are. -/
theorem valueAt_array {items : List Json} (hplain : ∀ v ∈ items, v.IsPlain) {fuel : Nat}
    (hread : ∀ v ∈ items, ∀ rest, valueAt fuel (v.write ++ rest) = some (v, rest))
    (rest : List Char) :
    valueAt (fuel + 1) ((Json.array items).write ++ rest) = some (.array items, rest) := by
  rw [write_array, List.cons_append, List.append_assoc, List.singleton_append]
  cases items with
  | nil => rfl
  | cons v items =>
    have hparts := length_le_of_parts ((v :: items).map write) ']' rest
    rw [List.length_map] at hparts
    have hitems := itemsFrom_intercalate (List.cons_ne_nil v items) hread hparts rest
    obtain ⟨c, cs, hv, hspace, hclose⟩ := (hplain v List.mem_cons_self).write_eq_cons
    obtain ⟨tail, htail⟩ := exists_intercalate_cons v.write (items.map write)
    rw [List.map_cons, htail, hv, List.cons_append, List.cons_append] at hitems ⊢
    rw [valueAt_bracket hspace hclose, hitems, Option.map_some]

/-- An object is read back, if the values of its fields are. -/
theorem valueAt_object {fields : List (String × Json)} {fuel : Nat}
    (hread : ∀ field ∈ fields, ∀ rest,
      valueAt fuel (field.2.write ++ rest) = some (field.2, rest))
    (rest : List Char) :
    valueAt (fuel + 1) ((Json.object fields).write ++ rest) = some (.object fields, rest) := by
  rw [write_object, List.cons_append, List.append_assoc, List.singleton_append]
  cases fields with
  | nil => rfl
  | cons field fields =>
    have hparts := length_le_of_parts ((field :: fields).map writeField) '}' rest
    rw [List.length_map] at hparts
    have hfields := fieldsFrom_intercalate (List.cons_ne_nil field fields) hread hparts rest
    obtain ⟨tail, htail⟩ := exists_intercalate_cons (writeField field) (fields.map writeField)
    rw [List.map_cons, htail, writeField, quoted] at hfields ⊢
    simp only [List.cons_append] at hfields ⊢
    rw [valueAt_brace, hfields]
    exact congrArg (fun v => some (v, rest)) (ofFields_map (field :: fields))

/-- A value is read back from its text, with as much fuel as the text is long. -/
theorem IsPlain.valueAt_write {v : Json} (h : v.IsPlain) {fuel : Nat}
    (hfuel : v.write.length ≤ fuel) (rest : List Char) :
    valueAt fuel (v.write ++ rest) = some (v, rest) := by
  induction fuel generalizing v rest with
  | zero =>
    obtain ⟨c, cs, hv, -⟩ := h.write_eq_cons
    rw [hv] at hfuel
    cases hfuel
  | succ fuel ih =>
    cases h with
    | null => rfl
    | bool b => cases b <;> rfl
    | string s => exact valueAt_quoted fuel s rest
    | @array items hitems =>
      refine valueAt_array hitems (fun v hv => ih (hitems v hv) ?_) rest
      have hshorter := length_item_lt hv
      omega
    | @object fields hfields =>
      refine valueAt_object (fun field hfield => ih (hfields field hfield) ?_) rest
      have hshorter := length_field_lt hfield
      omega

/-- A value without numbers is what its compact text is read as. -/
theorem IsPlain.parse_compact {v : Json} (h : v.IsPlain) : parse v.compact = some v := by
  have hread := h.valueAt_write (Nat.le_succ _) []
  rw [List.append_nil] at hread
  simp only [parse, compact, String.toList_ofList, hread]
  rfl

end NoteSearch.Json
