/-!
# Finding and cutting pieces of text

Texts are lists of characters here. A piece is looked for at the start, at the end, or at
its first place anywhere; cutting there gives what stands before and after it. Lengths in
bytes are those of the text's UTF-8 form.
-/
namespace NoteSearch.Text

/-- What follows `piece` at the start of the text, if the text starts with it. -/
def after? : (piece text : List Char) → Option (List Char)
  | [], text => some text
  | _ :: _, [] => none
  | p :: piece, c :: text => if p = c then after? piece text else none

theorem after?_eq_some_iff {piece text rest : List Char} :
    after? piece text = some rest ↔ text = piece ++ rest := by
  induction piece generalizing text with
  | nil => simp [after?, eq_comm]
  | cons p piece ih =>
    cases text with
    | nil => simp [after?]
    | cons c text =>
      by_cases h : p = c
      · simp [after?, h, ih]
      · simp [after?, h, Ne.symm h]

@[simp] theorem after?_append (piece rest : List Char) :
    after? piece (piece ++ rest) = some rest := after?_eq_some_iff.2 rfl

/-- What stands before `piece` at the end of the text, if the text ends with it. -/
def before? (piece text : List Char) : Option (List Char) :=
  (after? piece.reverse text.reverse).map List.reverse

theorem before?_eq_some_iff {piece text rest : List Char} :
    before? piece text = some rest ↔ text = rest ++ piece := by
  simp only [before?, Option.map_eq_some_iff, after?_eq_some_iff]
  constructor
  · rintro ⟨r, h, rfl⟩
    simpa using congrArg List.reverse h
  · rintro rfl
    exact ⟨rest.reverse, by simp, by simp⟩

/-- The text before and after the first place where `piece` stands. -/
def cut? (piece : List Char) : (text : List Char) → Option (List Char × List Char)
  | [] => (after? piece []).map fun rest => ([], rest)
  | c :: text =>
    match after? piece (c :: text) with
    | some rest => some ([], rest)
    | none => (cut? piece text).map fun (front, rest) => (c :: front, rest)

theorem eq_append_of_cut? {piece text front rest : List Char}
    (h : cut? piece text = some (front, rest)) : text = front ++ piece ++ rest := by
  induction text generalizing front with
  | nil =>
    simp only [cut?, Option.map_eq_some_iff] at h
    obtain ⟨r, h, he⟩ := h
    cases he
    simpa using after?_eq_some_iff.1 h
  | cons c text ih =>
    simp only [cut?] at h
    split at h
    · next r hr =>
      cases h
      simpa using after?_eq_some_iff.1 hr
    · simp only [Option.map_eq_some_iff] at h
      obtain ⟨⟨f, r⟩, h, he⟩ := h
      cases he
      simp [ih h]

/-- Whether `piece` stands somewhere in the text. -/
def occurs (piece : List Char) : (text : List Char) → Bool
  | [] => piece.isEmpty
  | c :: text => piece.isPrefixOf (c :: text) || occurs piece text

theorem occurs_iff {piece text : List Char} : occurs piece text = true ↔ piece <:+: text := by
  induction text with
  | nil => simp [occurs]
  | cons c text ih =>
    simp only [occurs, Bool.or_eq_true, List.isPrefixOf_iff_prefix, ih, List.infix_cons_iff]

/-- The pieces between the places where `mark` stands; one more than there are marks. -/
def pieces (mark : Char) (text : List Char) : List (List Char) :=
  text.foldr (fun c acc => if c = mark then [] :: acc else
    match acc with
    | [] => [[c]]
    | p :: ps => (c :: p) :: ps) [[]]

/-- The texts one after the other, with `mark` between neighbours. -/
def join (mark : List Char) : List (List Char) → List Char
  | [] => []
  | [text] => text
  | text :: texts => text ++ mark ++ join mark texts

/-- The number of bytes of the text's UTF-8 form. -/
def byteCount : (text : List Char) → Nat
  | [] => 0
  | c :: text => c.utf8Size + byteCount text

@[simp] theorem byteCount_nil : byteCount [] = 0 := rfl

@[simp] theorem byteCount_append (a b : List Char) :
    byteCount (a ++ b) = byteCount a + byteCount b := by
  induction a with
  | nil => simp
  | cons c a ih => simp [byteCount, ih, Nat.add_assoc]

theorem utf8ByteSize_ofList (cs : List Char) : (String.ofList cs).utf8ByteSize = byteCount cs := by
  induction cs with
  | nil => simp
  | cons c cs ih =>
    rw [String.ofList_cons, String.utf8ByteSize_append, String.utf8ByteSize_singleton, ih,
      byteCount]

end NoteSearch.Text
