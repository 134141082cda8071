import Mathlib.Data.List.Nodup
import NoteSearch.Proofs.Toml.Plain
import NoteSearch.Proofs.Toml.Quoted
import NoteSearch.Toml.Reader

/-!
# Documents are read line by line

A line that sets a bare name to a value adds the value to the table that is open, and a header
opens a further table. So a document of such lines is read as the values that it sets, in their
order.
-/
namespace NoteSearch.Toml
open Outline (Fields)

variable {c : Char} {p p' p'' : Progress} {text more rest : List Char} {name : String} {v : Value}
  {fields inner : Fields}

/-! ## Blanks and names -/

/-- Here neither a blank nor a line end nor a comment begins. -/
def IsStart (c : Char) : Prop := isGap c = false ∧ c ≠ '#' ∧ c ≠ '\n' ∧ c ≠ '\r'

theorem skipLines_of_isStart (h : IsStart c) (fuel : Nat) (cs : List Char) :
    skipLines (fuel + 1) (c :: cs) = some (c :: cs) := by
  obtain ⟨hgap, hcomment, hnewline, hreturn⟩ := h
  have hskip : skipGap (c :: cs) = c :: cs := List.dropWhile_cons_of_neg (by simp [hgap])
  have hnone : skipComment (c :: cs) = some (c :: cs) := by
    unfold skipComment
    split
    · next heq => exact absurd (List.cons.inj heq).1 hcomment
    · rfl
  have hend : lineEnd? (c :: cs) = none := by
    unfold lineEnd?
    split
    · next heq => exact absurd (List.cons.inj heq).1 hnewline
    · next heq => exact absurd (List.cons.inj heq).1 hreturn
    · rfl
  simp [skipLines, hskip, hnone, hend]

theorem skipSpace_of_isStart (h : IsStart c) (cs : List Char) :
    skipSpace (c :: cs) = some (c :: cs) :=
  skipLines_of_isStart h _ cs

/-- An empty line is passed over. -/
theorem skipSpace_newline (h : IsStart c) (cs : List Char) :
    skipSpace ('\n' :: c :: cs) = some (c :: cs) := by
  change skipLines ((c :: cs).length + 1) (c :: cs) = _
  exact skipLines_of_isStart h _ cs

theorem endLine_newline (rest : List Char) : endLine ('\n' :: rest) = some rest := rfl

/-- A name that needs no quotes as a key. -/
structure IsBare (name : String) : Prop where
  notEmpty : name.toList ≠ []
  bare : ∀ c ∈ name.toList, isBareKey c = true

instance (name : String) : Decidable (IsBare name) :=
  decidable_of_iff (name.toList ≠ [] ∧ name.toList.all isBareKey = true)
    ⟨fun ⟨hne, hall⟩ => ⟨hne, List.all_eq_true.1 hall⟩,
      fun ⟨hne, hall⟩ => ⟨hne, List.all_eq_true.2 hall⟩⟩

theorem IsBare.exists_cons (h : IsBare name) :
    ∃ c cs, name.toList = c :: cs ∧ isBareKey c = true := by
  obtain ⟨c, cs, hname⟩ := List.exists_cons_of_ne_nil h.notEmpty
  exact ⟨c, cs, hname, h.bare c (by rw [hname]; exact List.mem_cons_self)⟩

theorem isStart_of_isBareKey (h : isBareKey c = true) : IsStart c := by
  refine ⟨?_, ?_, ?_, ?_⟩
  · rw [isGap, Bool.or_eq_false_iff, beq_eq_false_iff_ne, beq_eq_false_iff_ne]
    constructor <;>
    · rintro rfl
      cases h
  all_goals
    rintro rfl
    cases h

theorem span_of_isBare (h : IsBare name) (hend : ∀ c ∈ rest.head?, isBareKey c = false) :
    (name.toList ++ rest).span isBareKey = (name.toList, rest) := by
  rw [List.span_eq_takeWhile_dropWhile, List.takeWhile_append_of_pos h.bare,
    List.dropWhile_append_of_pos h.bare]
  cases rest with
  | nil => simp
  | cons c rest => simp [hend c rfl]

/-- A bare name is a key of one part. -/
theorem dottedKey_of_isBare (h : IsBare name) (hend : ∀ c ∈ rest.head?, isBareKey c = false)
    (hdot : (skipGap rest).head? ≠ some '.') :
    dottedKey (name.toList ++ rest) = some (([], name), skipGap rest) := by
  obtain ⟨first, others, hname, hfirst⟩ := h.exists_cons
  have hskip : skipGap (name.toList ++ rest) = name.toList ++ rest := by
    rw [hname]
    exact List.dropWhile_cons_of_neg (by simp [(isStart_of_isBareKey hfirst).1])
  have hpart : keyPart (name.toList ++ rest) = some (name, rest) := by
    rw [keyPart, span_of_isBare h hend, hname]
    simp [← hname]
  have hlimit : keyLimit = 79 + 1 := rfl
  rw [dottedKey, hlimit, keyUpTo, hskip, hpart]
  simp only [Option.bind_eq_bind, Option.bind_some]
  split
  · next heq => simp [heq] at hdot
  · rfl

/-! ## Values -/

/-- A text that is read as a value where a line ends behind it. -/
structure IsRead (text : List Char) (v : Value) : Prop where
  noGap : ∀ c ∈ text.head?, isGap c = false
  read : ∀ rest, valueAt nestingLimit (text ++ '\n' :: rest) = some (v, '\n' :: rest)

theorem head?_quoted (cs : List Char) :
    (quoted cs).head? = some '"' ∨ (quoted cs).head? = some '\'' := by
  unfold quoted between
  dsimp only
  split_ifs <;> simp [List.replicate]

/-- A string is read as it was written. -/
theorem isRead_quoted (cs : List Char) : IsRead (quoted cs) (.string (String.ofList cs)) := by
  have hhead := head?_quoted cs
  refine ⟨fun c hc => ?_, fun rest => ?_⟩
  · rcases hhead with h | h <;>
    · rw [h] at hc
      cases hc
      rfl
  · -- the text starts with a mark, so that it is read as a string
    have hread : anyString (quoted cs ++ '\n' :: rest) = some (String.ofList cs, '\n' :: rest) :=
      anyString_quoted cs ⟨by simp, by simp⟩
    cases htext : quoted cs with
    | nil => simp [htext] at hhead
    | cons mark text =>
      rw [htext] at hread hhead
      obtain rfl | rfl : mark = '"' ∨ mark = '\'' := by simpa using hhead
      · rw [List.cons_append, valueAt, ← List.cons_append, hread]
        rfl
      · rw [List.cons_append, valueAt, ← List.cons_append, hread]
        rfl

/-- A plain value is read as such if nothing in it ends one. -/
theorem isRead_plain {plain : List Char} (hne : plain ≠ [])
    (hplain : ∀ c ∈ plain, endsPlain c = false)
    (hmark : ∀ c ∈ plain.head?, c ≠ '[' ∧ c ≠ '{' ∧ c ≠ '"' ∧ c ≠ '\'')
    (hread : readPlain plain = some v) : IsRead plain v := by
  obtain ⟨c, cs, rfl⟩ := List.exists_cons_of_ne_nil hne
  obtain ⟨hbracket, hbrace, hquote, hapostrophe⟩ := hmark c rfl
  refine ⟨fun c' hc' => ?_, fun rest => ?_⟩
  · have hends := hplain c' (List.mem_of_mem_head? hc')
    simp only [endsPlain, Bool.or_eq_false_iff] at hends
    rw [isGap, Bool.or_eq_false_iff]
    exact ⟨hends.1.1.1.1.1.1.1, hends.1.1.1.1.1.1.2⟩
  · rw [List.cons_append, valueAt]
    · exact plainAt_line hplain hread rest
    all_goals simp_all

theorem isRead_digits {n : Nat} (h : n < Decimal.signedLimit) :
    IsRead (Decimal.digits n) (.integer n) := by
  have hdigit : ∀ c ∈ Decimal.digits n, Decimal.isDigit c = true :=
    fun c => Decimal.isDigit_of_mem_digits
  refine isRead_plain (Decimal.digits_ne_nil n) (fun c hc => not_endsPlain_of_isDigit (hdigit c hc))
    (fun c hc => ?_) (readPlain_digits h)
  have hc := hdigit c (List.mem_of_mem_head? hc)
  refine ⟨?_, ?_, ?_, ?_⟩ <;>
  · rintro rfl
    cases hc

/-! ## Lines -/

/-- A line that sets a name to a value. -/
structure Assignment where
  name : String
  text : List Char
  value : Value
  isBare : IsBare name
  isRead : IsRead text value

namespace Assignment

def line (a : Assignment) : List Char := a.name.toList ++ " = ".toList ++ a.text ++ ['\n']

def field (a : Assignment) : String × Outline := (a.name, .value a.value)

end Assignment

/-- However a document goes on behind this text, it is read as from this progress on. -/
def Leads (text : List Char) (p p' : Progress) : Prop :=
  ∃ steps ≤ text.length, ∀ fuel rest, linesFrom (steps + fuel) p (text ++ rest) =
    linesFrom fuel p' rest

theorem Leads.nil (p : Progress) : Leads [] p p :=
  ⟨0, Nat.le_refl 0, fun fuel rest => by rw [Nat.zero_add, List.nil_append]⟩

theorem Leads.append (h : Leads text p p') (h' : Leads more p' p'') :
    Leads (text ++ more) p p'' := by
  obtain ⟨steps, hle, hgoes⟩ := h
  obtain ⟨steps', hle', hgoes'⟩ := h'
  refine ⟨steps + steps', by rw [List.length_append]; omega, fun fuel rest => ?_⟩
  rw [Nat.add_assoc, List.append_assoc, hgoes, hgoes']

/-- What is read when a text has led to its end. -/
theorem parse_of_leads (hmark : text.head? ≠ some byteOrderMark) (h : Leads text {} p) :
    parse text = some (Outline.finishFields p.fields) := by
  obtain ⟨steps, hle, hgoes⟩ := h
  -- each step has read a character, so that fuel is left for the end
  obtain ⟨fuel, hfuel⟩ : ∃ fuel, text.length + 1 = steps + (fuel + 1) :=
    ⟨text.length - steps, by omega⟩
  have hlines := hgoes (fuel + 1) []
  rw [List.append_nil, ← hfuel] at hlines
  rw [parse, withoutMark, if_neg hmark, hlines]
  rfl

theorem skipGap_of_head? (h : ∀ c ∈ text.head?, isGap c = false) (rest : List Char) :
    skipGap (text ++ '\n' :: rest) = text ++ '\n' :: rest := by
  cases text with
  | nil => rfl
  | cons c text => exact List.dropWhile_cons_of_neg (by simp [h c rfl])

/-- A line adds its value to the open table. -/
theorem pairLine_assignment (a : Assignment) (rest : List Char)
    (hadd : Outline.change false (Outline.addValue [] a.name a.value) .header p.fields p.path =
      some fields) :
    pairLine p (a.line ++ rest) = some ({ p with fields }, '\n' :: rest) := by
  have hline : a.line ++ rest =
      a.name.toList ++ (' ' :: '=' :: ' ' :: (a.text ++ '\n' :: rest)) := by
    simp [Assignment.line]
  have hkey : dottedKey (a.name.toList ++ (' ' :: '=' :: ' ' :: (a.text ++ '\n' :: rest))) =
      some (([], a.name), '=' :: ' ' :: (a.text ++ '\n' :: rest)) :=
    dottedKey_of_isBare a.isBare (by rintro c ⟨⟩; rfl) (by simp [skipGap, isGap])
  have hvalue : skipGap (' ' :: (a.text ++ '\n' :: rest)) = a.text ++ '\n' :: rest :=
    skipGap_of_head? a.isRead.noGap rest
  rw [pairLine, hline, hkey]
  simp only [Option.bind_eq_bind, Option.bind_some, hvalue, a.isRead.read, hadd]

theorem leads_assignment (a : Assignment)
    (hadd : Outline.change false (Outline.addValue [] a.name a.value) .header p.fields p.path =
      some fields) :
    Leads a.line p { p with fields } := by
  refine ⟨1, ?_, fun fuel rest => ?_⟩
  · simp only [Assignment.line, List.length_append, List.length_singleton]
    omega
  · have hpair := pairLine_assignment a rest hadd
    obtain ⟨c, cs, hname, hbare⟩ := a.isBare.exists_cons
    have hbracket : c ≠ '[' := by
      rintro rfl
      cases hbare
    obtain ⟨more, hmore⟩ : ∃ more, a.line ++ rest = c :: more :=
      ⟨_, by rw [Assignment.line, hname]; rfl⟩
    rw [hmore] at hpair ⊢
    rw [Nat.add_comm, linesFrom, skipSpace_of_isStart (isStart_of_isBareKey hbare)]
    simp only [Option.bind_eq_bind, Option.bind_some]
    split
    · next heq => cases heq
    · next heq => exact absurd (List.cons.inj heq).1 hbracket
    · next heq => exact absurd (List.cons.inj heq).1 hbracket
    · rw [hpair]
      simp only [Option.bind_some, endLine_newline]

/-! ## Tables -/

/-- With these fields in it, the table that is open makes up such a document. -/
structure IsOpen (document : Fields → Progress) : Prop where
  path : ∀ inner inner', (document inner).path = (document inner').path
  add : ∀ inner name v, inner.lookup name = none →
    Outline.change false (Outline.addValue [] name v) .header (document inner).fields
      (document inner).path = some (document (inner ++ [(name, .value v)])).fields

theorem addValue_new (h : inner.lookup name = none) (v : Value) :
    Outline.addValue [] name v .header inner = some (inner ++ [(name, .value v)]) := by
  simp [Outline.addValue, Outline.change, Keyed.put_of_new, h]

/-- The top of the document is a table. -/
theorem isOpen_top : IsOpen fun fields => ⟨fields, []⟩ where
  path _ _ := rfl
  add inner name v h := by rw [Outline.change, addValue_new h]

/-- A table that follows on other fields. -/
def following (fields : Fields) (name : String) (inner : Fields) : Progress :=
  ⟨fields ++ [(name, .table .header inner)], [name]⟩

theorem isOpen_following (h : fields.lookup name = none) : IsOpen (following fields name) where
  path _ _ := rfl
  add inner inName v hnew := by
    simp only [following, Outline.change, Keyed.lookup_last h, Bool.false_and]
    simp [addValue_new hnew, Keyed.put_last h]

/-- A header behind an empty line opens a table. -/
theorem leads_header (hbare : IsBare name) (h : fields.lookup name = none) :
    Leads ("\n[".toList ++ name.toList ++ "]\n".toList) ⟨fields, []⟩
      (following fields name []) := by
  refine ⟨1, ?_, fun fuel rest => ?_⟩
  · simp
  · have htext : "\n[".toList ++ name.toList ++ "]\n".toList ++ rest =
        '\n' :: '[' :: (name.toList ++ ']' :: '\n' :: rest) := by simp
    have hkey : dottedKey (name.toList ++ ']' :: '\n' :: rest) =
        some (([], name), ']' :: '\n' :: rest) :=
      dottedKey_of_isBare hbare (by rintro c ⟨⟩; rfl) (by simp [skipGap, isGap])
    have hopens : Outline.openTable [] name fields =
        some (fields ++ [(name, .table .header [])]) := by
      simp [Outline.openTable, Outline.change, Keyed.put_of_new, h]
    have hheader : headerLine ⟨fields, []⟩ (name.toList ++ ']' :: '\n' :: rest) =
        some (following fields name [], '\n' :: rest) := by
      rw [headerLine, hkey]
      simp [hopens, following]
    -- the name does not start with a bracket, so that it is no header of an element
    obtain ⟨c, cs, hname, hfirst⟩ := hbare.exists_cons
    have hbracket : c ≠ '[' := by
      rintro rfl
      cases hfirst
    rw [htext, Nat.add_comm, linesFrom, skipSpace_newline ⟨rfl, by decide, by decide, by decide⟩]
    simp only [Option.bind_eq_bind, Option.bind_some]
    split
    · next heq => cases heq
    · next heq =>
      rw [hname] at heq
      exact absurd (List.cons.inj (List.cons.inj heq).2).1 hbracket
    · next heq =>
      obtain rfl := (List.cons.inj heq).2
      rw [hheader]
      simp only [Option.bind_some, endLine_newline]
    · next heq hno => exact absurd rfl (hno _)

/-- Lines that set different new names add their values in their order. -/
theorem leads_assignments {document : Fields → Progress} (hopen : IsOpen document)
    (inner : Fields) (assignments : List Assignment) (hnames : (assignments.map (·.name)).Nodup)
    (hnew : ∀ a ∈ assignments, inner.lookup a.name = none) :
    Leads (assignments.flatMap Assignment.line) (document inner)
      (document (inner ++ assignments.map Assignment.field)) := by
  -- the fields of the table grow line by line, and none of them has a name still to come
  induction assignments generalizing inner with
  | nil => simpa using Leads.nil (document inner)
  | cons a assignments ih =>
    rw [List.map_cons, List.nodup_cons] at hnames
    have hadd := hopen.add inner a.name a.value (hnew a List.mem_cons_self)
    have hline : Leads a.line (document inner) (document (inner ++ [a.field])) := by
      have hleads := leads_assignment a hadd
      rwa [hopen.path inner (inner ++ [a.field])] at hleads
    have hrest := ih (inner ++ [a.field]) hnames.2 (fun b hb => by
      have hne : b.name ≠ a.name := fun heq => hnames.1 (heq ▸ List.mem_map_of_mem hb)
      rw [List.lookup_append, hnew b (List.mem_cons_of_mem a hb), Assignment.field,
        List.lookup_cons, beq_eq_false_iff_ne.2 hne]
      rfl)
    rw [List.flatMap_cons, List.map_cons, List.append_cons]
    exact hline.append hrest

/-! ## Documents -/

theorem finishFields_append (fields fields' : Fields) : Outline.finishFields (fields ++ fields') =
    Outline.finishFields fields ++ Outline.finishFields fields' := by
  induction fields with
  | nil => rfl
  | cons field fields ih => simp [Outline.finishFields, ih]

theorem finishFields_assignments (assignments : List Assignment) :
    Outline.finishFields (assignments.map Assignment.field) =
      assignments.map fun a => (a.name, a.value) := by
  induction assignments with
  | nil => rfl
  | cons a assignments ih =>
    simp [Outline.finishFields, Outline.finish, Assignment.field, ih]

theorem lookup_assignments {assignments : List Assignment}
    (h : name ∉ assignments.map (·.name)) :
    (assignments.map Assignment.field).lookup name = none := by
  rw [List.lookup_eq_none_iff]
  intro field hmem
  obtain ⟨a, ha, rfl⟩ := List.mem_map.1 hmem
  have hne : name ≠ a.name := fun heq => h (heq ▸ List.mem_map_of_mem ha)
  simpa [Assignment.field] using hne

/-- No mark stands before a document of assignments. -/
theorem head?_assignments (assignments : List Assignment)
    (h : text.head? ≠ some byteOrderMark) :
    (assignments.flatMap Assignment.line ++ text).head? ≠ some byteOrderMark := by
  cases assignments with
  | nil => exact h
  | cons a assignments =>
    obtain ⟨c, cs, hname, hbare⟩ := a.isBare.exists_cons
    rw [List.flatMap_cons, Assignment.line, hname]
    rintro ⟨⟩
    cases hbare

/-- A document of assignments is read as what they set. -/
theorem parse_assignments (assignments : List Assignment)
    (hnames : (assignments.map (·.name)).Nodup) :
    parse (assignments.flatMap Assignment.line) =
      some (assignments.map fun a => (a.name, a.value)) := by
  have hmark : (assignments.flatMap Assignment.line ++ []).head? ≠ some byteOrderMark :=
    head?_assignments assignments (by simp)
  rw [List.append_nil] at hmark
  have hleads := leads_assignments isOpen_top [] assignments hnames (fun _ _ => rfl)
  rw [parse_of_leads hmark hleads, List.nil_append, finishFields_assignments]

/-- What a table sets that follows on assignments is read as well. -/
theorem parse_following (assignments inside : List Assignment)
    (hnames : (assignments.map (·.name)).Nodup) (hinside : (inside.map (·.name)).Nodup)
    (hbare : IsBare name) (hnew : name ∉ assignments.map (·.name)) :
    parse (assignments.flatMap Assignment.line ++ ("\n[".toList ++ name.toList ++ "]\n".toList ++
        inside.flatMap Assignment.line)) =
      some ((assignments.map fun a => (a.name, a.value)) ++
        [(name, .table (inside.map fun a => (a.name, a.value)))]) := by
  have hlookup := lookup_assignments hnew
  have hfront := leads_assignments isOpen_top [] assignments hnames (fun _ _ => rfl)
  have hback := leads_assignments (isOpen_following hlookup) [] inside hinside (fun _ _ => rfl)
  rw [List.nil_append] at hfront hback
  rw [parse_of_leads (head?_assignments assignments (by simp [byteOrderMark]))
    (hfront.append ((leads_header hbare hlookup).append hback)), following, finishFields_append,
    finishFields_assignments]
  simp [Outline.finishFields, Outline.finish, finishFields_assignments]

end NoteSearch.Toml
