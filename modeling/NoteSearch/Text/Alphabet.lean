import NoteSearch.Text.Alphabet.Letters
import NoteSearch.Text.Alphabet.Numbers

/-!
# Letters and numbers

The general categories Letter and Number. Marks, punctuation, symbols and separators are
in neither.
-/
namespace NoteSearch.Text

/-- A character of general category Letter. -/
def isLetter (c : Char) : Bool := letters.has c

/-- A character of general category Number. -/
def isNumber (c : Char) : Bool := numbers.has c

end NoteSearch.Text
