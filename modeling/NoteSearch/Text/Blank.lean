import NoteSearch.Text.Ranges

/-!
# White space

The characters of the property White_Space, and the removal of white space at the ends of
a text. The class is wider than the ASCII blanks: it holds the next-line control, the
no-break space, the typographic spaces, and the line and paragraph separators.
-/
namespace NoteSearch.Text

/-- The characters of the property White_Space. -/
def blanks : Ranges := [
  (0x9, 0xD), (0x20, 0x20), (0x85, 0x85), (0xA0, 0xA0), (0x1680, 0x1680), (0x2000, 0x200A),
  (0x2028, 0x2029), (0x202F, 0x202F), (0x205F, 0x205F), (0x3000, 0x3000)]

/-- White space. -/
def isBlank (c : Char) : Bool := blanks.has c

/-- The text without leading white space. -/
def trimStart (cs : List Char) : List Char := cs.dropWhile isBlank

/-- The text without trailing white space. -/
def trimEnd (cs : List Char) : List Char := (cs.reverse.dropWhile isBlank).reverse

/-- The text without white space at either end. -/
def trim (cs : List Char) : List Char := trimEnd (trimStart cs)

/-- Every character is white space; so is every character of the empty text. -/
def allBlank (cs : List Char) : Bool := cs.all isBlank

@[simp] theorem trim_nil : trim [] = [] := rfl

end NoteSearch.Text

/-- The string without white space at either end. -/
def NoteSearch.Text.trimmed (s : String) : String := String.ofList (trim s.toList)

@[simp] theorem NoteSearch.Text.toList_trimmed (s : String) :
    (trimmed s).toList = trim s.toList := by simp [trimmed]
