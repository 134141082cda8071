import NoteSearch.Query.Term
import NoteSearch.Text.Blank
import NoteSearch.Text.Pieces

/-!
# Reading a query

A query that is empty or all white space has no terms. Any other query is one or more terms with
the separator between them, and nothing else. A fault is reported at the byte where the
term begins, or where the separator should.
-/
namespace NoteSearch.Query
open Text

/-- The message about a term that has no closing mark. -/
def unterminated (what : String) : String := "unterminated " ++ what

/-- The message about a term without a target. -/
def emptyTarget (what : String) : String := "empty target in " ++ what

/-- The message about a text that starts no term. -/
def noTerm (found : List Char) : String :=
  "expected a tag, \"folder\", [[link]] or outgoing([[link]]), found '" ++
    String.ofList found ++ "'"

/-- The message about two terms without a separator. -/
def noSeparator : String := "expected ' and ' between terms"

/-- How a kind of term is called in messages. -/
def TermKind.form : TermKind → String
  | .tag => "tag"
  | .folder => "quoted folder"
  | .link => "[[...]]"
  | .outgoing => "outgoing([[...]])"

/-- The target of a term that has been opened, and what follows its closing mark. -/
def readTarget (kind : TermKind) (cs : List Char) : Except String (List Char × List Char) :=
  match cut? kind.frame.2 cs with
  | none => .error (unterminated kind.form)
  | some ([], _) => .error (emptyTarget kind.form)
  | some (target, rest) => .ok (target, rest)

/-- The kinds of terms that are opened by a mark, in the order in which they are tried. -/
def framedKinds : List TermKind := [.outgoing, .link, .folder]

/-- A tag, which goes up to the separator or the end. -/
def readTag (cs : List Char) : Except String (List Char × List Char) :=
  let (tag, rest) := match cut? between cs with
    | some (tag, rest) => (tag, between ++ rest)
    | none => (cs, [])
  if tag.isEmpty || tag.any isBlank then .error (noTerm tag) else .ok (tag, rest)

/-- The kind and target of a term without its negation, tried as each of the kinds and then as a
tag. -/
def readBody (kinds : List TermKind) (cs : List Char) :
    Except String (TermKind × List Char × List Char) :=
  match kinds with
  | [] => (readTag cs).map fun (tag, rest) => (.tag, tag, rest)
  | kind :: kinds =>
    match after? kind.frame.1 cs with
    | some opened => (readTarget kind opened).map fun (target, rest) => (kind, target, rest)
    | none => readBody kinds cs

/-- A leading negation, and what follows. -/
def readNegation : List Char → Bool × List Char
  | '!' :: rest => (true, rest)
  | cs => (false, cs)

/-- The term at the start of a text, and what follows it. -/
def readTerm (cs : List Char) : Except String (Term × List Char) :=
  let (negated, body) := readNegation cs
  (readBody framedKinds body).map fun (kind, target, rest) =>
    (⟨kind, String.ofList target, negated⟩, rest)

theorem map_eq_ok_iff {ε α β : Type} {f : α → β} {x : Except ε α} {b : β} :
    x.map f = .ok b ↔ ∃ a, x = .ok a ∧ f a = b := by
  cases x <;> simp [Except.map]

theorem readTarget_append {kind : TermKind} {cs target rest : List Char}
    (h : readTarget kind cs = .ok (target, rest)) : cs = target ++ kind.frame.2 ++ rest := by
  unfold readTarget at h
  split at h
  · cases h
  · cases h
  · next hcut =>
    cases h
    exact eq_append_of_cut? hcut

theorem readTag_append {cs tag rest : List Char} (h : readTag cs = .ok (tag, rest)) :
    cs = tag ++ rest := by
  unfold readTag at h
  cases hcut : cut? between cs with
  | none =>
    simp only [hcut] at h
    split at h
    · cases h
    · cases h
      simp
  | some piece =>
    simp only [hcut] at h
    split at h
    · cases h
    · cases h
      simpa using eq_append_of_cut? hcut

theorem readBody_append {kinds : List TermKind} {cs target rest : List Char} {kind : TermKind}
    (h : readBody kinds cs = .ok (kind, target, rest)) :
    cs = kind.frame.1 ++ target ++ kind.frame.2 ++ rest := by
  induction kinds with
  | nil =>
    rw [readBody, map_eq_ok_iff] at h
    obtain ⟨⟨tag, rest'⟩, htag, he⟩ := h
    simp only [Prod.mk.injEq] at he
    obtain ⟨rfl, rfl, rfl⟩ := he
    simpa using readTag_append htag
  | cons first kinds ih =>
    simp only [readBody] at h
    split at h
    · next opened hopened =>
      rw [map_eq_ok_iff] at h
      obtain ⟨⟨target', rest'⟩, htarget, he⟩ := h
      simp only [Prod.mk.injEq] at he
      obtain ⟨rfl, rfl, rfl⟩ := he
      rw [after?_eq_some_iff.1 hopened, readTarget_append htarget]
      simp
    · exact ih h

theorem readNegation_append (cs : List Char) :
    (if (readNegation cs).1 then ['!'] else []) ++ (readNegation cs).2 = cs := by
  unfold readNegation
  split <;> rfl

/-- A term is read as it is written, and nothing is skipped. -/
theorem readTerm_append {cs rest : List Char} {term : Term}
    (h : readTerm cs = .ok (term, rest)) : cs = term.written ++ rest := by
  rw [readTerm, map_eq_ok_iff] at h
  obtain ⟨⟨kind, target, rest'⟩, hbody, he⟩ := h
  simp only [Prod.mk.injEq] at he
  obtain ⟨rfl, rfl⟩ := he
  calc
    cs = _ := (readNegation_append cs).symm
    _ = _ := by rw [readBody_append hbody]; simp [Term.written]

/-- Every separator takes characters. -/
theorem length_lt_of_readTerm {cs rest next : List Char} {term : Term}
    (hterm : readTerm cs = .ok (term, rest)) (hnext : after? between rest = some next) :
    next.length < cs.length := by
  rw [readTerm_append hterm, after?_eq_some_iff.1 hnext]
  have hbetween : between.length = 5 := rfl
  simp only [List.length_append, hbetween]
  omega

/-- The terms of a text that starts with a term, which lies at the given byte of the query. -/
def readTerms (position : Nat) (cs : List Char) : Except Fault (List Term) :=
  match _ : readTerm cs with
  | .error message => .error (.malformed position message)
  | .ok (term, rest) =>
    if rest.isEmpty then .ok [term]
    else
      let reached := position + (byteCount cs - byteCount rest)
      match _ : after? between rest with
      | none => .error (.malformed reached noSeparator)
      | some next => do
        let terms ← readTerms (reached + byteCount between) next
        .ok (term :: terms)
termination_by cs.length
decreasing_by exact length_lt_of_readTerm ‹_› ‹_›

/-- The terms of a query. -/
def read (query : String) : Except Fault (List Term) :=
  let cs := query.toList
  if allBlank cs then .ok [] else readTerms 0 cs

end NoteSearch.Query
