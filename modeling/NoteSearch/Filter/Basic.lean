/-!
# Filters

A filter is one condition on a note, which holds of the note or, when the filter is reversed, does
not. Five facets of a note can be asked for: a tag that it carries, the folder that holds
it, a note that it links to, a note that links to it, and text in its body. Only a filter on a
link has more to say than its value: whether the target is a note, and a label for it.
-/
namespace NoteSearch

/-- The facets of a note that a filter can ask for. -/
inductive Facet where
  | tag
  | folder
  | link
  | backlink
  | text
  deriving Repr, DecidableEq

namespace Facet

/-- All facets, in the order in which they are offered. -/
def all : List Facet := [tag, folder, link, backlink, text]

/-- The name of a facet. -/
def name : Facet → String
  | tag => "tag"
  | folder => "folder"
  | link => "link"
  | backlink => "backlink"
  | text => "text"

/-- The facet of that name. -/
def ofName? (name : String) : Option Facet := all.find? (·.name == name)

/-- Text is looked for in bodies; all other facets are known to the index of a vault. -/
def isIndexed : Facet → Bool
  | text => false
  | _ => true

end Facet

/-- What a filter asks for, with what only its facet has. -/
inductive Probe where
  | tag
  | folder
  /-- A link: whether its target is a note, which is only shown, and a label for the target. -/
  | link (present : Bool) (label : Option String)
  | backlink
  | text
  deriving Repr, DecidableEq

/-- The facet that is asked for. -/
def Probe.facet : Probe → Facet
  | tag => .tag
  | folder => .folder
  | link .. => .link
  | backlink => .backlink
  | text => .text

/-- One condition on a note. -/
structure Filter where
  probe : Probe
  value : String
  reversed : Bool := false
  deriving Repr, DecidableEq

namespace Filter

/-- The facet that the filter asks for. -/
def facet (f : Filter) : Facet := f.probe.facet

/-- The filter asks for text in the body. -/
def isText (f : Filter) : Bool := f.probe == .text

/-- The filter, reversed in any case. -/
def negated (f : Filter) : Filter := { f with reversed := true }

/-- The filter with its reversal turned round. -/
def toggled (f : Filter) : Filter := { f with reversed := !f.reversed }

@[simp] theorem toggled_toggled (f : Filter) : f.toggled.toggled = f := by
  simp [toggled]

/-- Both filters ask for the same facet and value. Reversal, and what is known about a
link's target, do not matter. -/
def sameTarget (f g : Filter) : Bool := f.facet == g.facet && f.value == g.value

/-- What stands before the value in a filter's key: the facet, and for a link its label and
whether the target is missing. -/
def keyHead : Probe → String
  | .link present label =>
    "link:" ++ (match label with
      | some label => "alias:" ++ label ++ ":"
      | none => "") ++ (if present then "" else "nofile:")
  | probe => probe.facet.name ++ ":"

/-- The text by which a filter is told apart in lists. -/
def key (f : Filter) : String :=
  (if f.reversed then "!" else "") ++ keyHead f.probe ++ f.value

/-- The words for a facet and its reversal. -/
def phrase : Facet → Bool → String
  | .tag, false => "Has tag"
  | .tag, true => "Does not have tag"
  | .folder, false => "Is inside folder"
  | .folder, true => "Is not inside folder"
  | .link, false => "Links to"
  | .link, true => "Does not link to"
  | .backlink, false => "Is linked by"
  | .backlink, true => "Is not linked by"
  | .text, false => "Contains text"
  | .text, true => "Does not contain text"

/-- The filter in words, such as `Has tag #project`. -/
def describe (f : Filter) : String :=
  let object := match f.probe with
    | .link present label =>
      (match label with
        | some label => label ++ " (" ++ f.value ++ ")"
        | none => f.value) ++ (if present then "" else " (missing)")
    | _ => f.value
  phrase f.facet f.reversed ++ " " ++ object

end Filter
end NoteSearch
