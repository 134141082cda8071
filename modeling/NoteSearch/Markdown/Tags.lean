import NoteSearch.Text.Alphabet
import NoteSearch.Text.Blank

/-!
# Tags in a body

A tag is a number sign and a run of letters, numbers, underscores, slashes and hyphens. It stands
at the start of the body or after white space, an opening bracket, a comma or a semicolon. Slashes
at its end do not belong to it, and a tag of ASCII digits alone is none.
-/
namespace NoteSearch.Markdown
open Text

/-- A character that a tag may hold after its number sign. -/
def isTagChar (c : Char) : Bool :=
  isLetter c || isNumber c || c == '_' || c == '/' || c == '-'

/-- A character that a tag may directly follow. -/
def precedesTag (c : Char) : Bool :=
  isBlank c || c == '(' || c == '[' || c == ',' || c == ';'

theorem length_dropWhile_lt_cons (c : Char) (p : Char → Bool) (cs : List Char) :
    (cs.dropWhile p).length < (c :: cs).length :=
  Nat.lt_succ_of_le (List.dropWhile_sublist p).length_le

/-- The runs that follow the number signs of tags. `free` says whether a tag may start where
the text begins. -/
def tagRuns (free : Bool) : List Char → List (List Char)
  | [] => []
  | c :: rest =>
    if free && c == '#' && !(rest.takeWhile isTagChar).isEmpty then
      rest.takeWhile isTagChar :: tagRuns false (rest.dropWhile isTagChar)
    else tagRuns (precedesTag c) rest
termination_by cs => cs.length
decreasing_by
  · exact length_dropWhile_lt_cons c isTagChar rest
  · exact Nat.lt_succ_self _

/-- A run without the slashes at its end. -/
def withoutSlashes (run : List Char) : List Char :=
  (run.reverse.dropWhile (· == '/')).reverse

/-- Something other than ASCII digits is left of the run. -/
def isWorded (run : List Char) : Bool := run.any fun c => !('0' ≤ c && c ≤ '9')

/-- The list without later repetitions. -/
def firsts {α : Type} [BEq α] : List α → List α
  | [] => []
  | a :: as => a :: (firsts as).filter (!· == a)

/-- The tags of a body, each with its number sign, in the order of their first occurrences. -/
def tags (body : String) : List String :=
  firsts ((((tagRuns true body.toList).map withoutSlashes).filter isWorded).map fun run =>
    String.ofList ('#' :: run))

end NoteSearch.Markdown
