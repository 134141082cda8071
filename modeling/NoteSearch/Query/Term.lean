import NoteSearch.Filter.Basic

/-!
# Terms of a query

A query is a conjunction of terms. A term names a tag, a folder, a note that is linked to, or a
note that links, and may be negated. Terms are written one after the other with the word `and`
between them; there are no escapes, so a term is written as it is read only if its target
does not hold what closes it.
-/
namespace NoteSearch.Query

/-- What a term asks for. -/
inductive TermKind where
  | tag
  | folder
  /-- Notes that link to the target. -/
  | link
  /-- Notes that the target links to. -/
  | outgoing
  deriving Repr, DecidableEq

/-- One condition of a query. -/
structure Term where
  kind : TermKind
  target : String
  negated : Bool
  deriving Repr, DecidableEq

/-- What opens a term of a kind, and what closes it. -/
def TermKind.frame : TermKind → List Char × List Char
  | .tag => ([], [])
  | .folder => (['"'], ['"'])
  | .link => ("[[".toList, "]]".toList)
  | .outgoing => ("outgoing([[".toList, "]])".toList)

@[simp] theorem TermKind.frame_tag : tag.frame = ([], []) := rfl

@[simp] theorem TermKind.frame_folder : folder.frame = (['"'], ['"']) := rfl

@[simp] theorem TermKind.frame_link : link.frame = (['[', '['], [']', ']']) := rfl

@[simp] theorem TermKind.frame_outgoing : outgoing.frame =
    (['o', 'u', 't', 'g', 'o', 'i', 'n', 'g', '(', '[', '['], [']', ']', ')']) := rfl

/-- The term as it is written. -/
def Term.written (t : Term) : List Char :=
  (if t.negated then ['!'] else []) ++ t.kind.frame.1 ++ t.target.toList ++ t.kind.frame.2

/-- What stands between two terms. -/
def between : List Char := " and ".toList

/-- The kind of term that a facet is asked for by; text has none. -/
def TermKind.ofFacet? : Facet → Option TermKind
  | .tag => some .tag
  | .folder => some .folder
  | .link => some .link
  | .backlink => some .outgoing
  | .text => none

/-- The term that a filter becomes. -/
def Term.ofFilter? (f : Filter) : Option Term :=
  (TermKind.ofFacet? f.facet).map fun kind => ⟨kind, f.value, f.reversed⟩

/-- Why there is no query. -/
inductive Fault where
  /-- The facet cannot be asked for in a query. -/
  | unsupported (facet : Facet)
  /-- The text breaks the rules of queries at a byte. -/
  | malformed (position : Nat) (message : String)
  deriving Repr, DecidableEq

/-- The fault in words. -/
def Fault.message : Fault → String
  | .unsupported facet =>
    "Filter kind '" ++ facet.name ++ "' cannot be compiled into a backend query"
  | .malformed position message =>
    "Query syntax error at byte " ++ toString position ++ ": " ++ message

end NoteSearch.Query
