import NoteSearch.Text.Pieces

/-!
# Styled text

On a terminal, text is set between a code that turns a style on and one that resets it. A reset
inside the text is followed by the code again, so that the style lasts to the end.
-/
namespace NoteSearch.Display

/-- The colours of text. -/
inductive Colour where
  | green
  | yellow
  | blue
  | magenta
  | cyan
  deriving Repr, DecidableEq

/-- How text is set. -/
structure Style where
  bold : Bool := false
  dimmed : Bool := false
  struck : Bool := false
  colour : Option Colour := none
  deriving Repr, DecidableEq

/-- The code of a colour. -/
def Colour.code : Colour → String
  | green => "32"
  | yellow => "33"
  | blue => "34"
  | magenta => "35"
  | cyan => "36"

/-- The codes of a style, in order. -/
def Style.codes (s : Style) : List String :=
  (if s.bold then ["1"] else []) ++ (if s.dimmed then ["2"] else [])
    ++ (if s.struck then ["9"] else []) ++ (s.colour.map (·.code)).toList

/-- The character that every code begins with. -/
def escape : Char := '\x1b'

/-- What turns the codes on. -/
def turnOn (codes : List String) : List Char :=
  escape :: ("[" ++ ";".intercalate codes ++ "m").toList

/-- What follows the first character of the code that turns all styles off. -/
def resetRest : List Char := "[0m".toList

/-- The text with a code after each reset. -/
def resumed (start text : List Char) : List Char :=
  match Text.pieces escape text with
  | [] => []
  | first :: rest =>
    first ++ rest.flatMap fun piece =>
      match Text.after? resetRest piece with
      | some after => escape :: resetRest ++ start ++ after
      | none => escape :: piece

/-- Text in a style, if styles are shown at all and there is one. -/
def Style.apply (s : Style) (shown : Bool) (text : String) : String :=
  if !shown || s.codes.isEmpty then text
  else
    let start := turnOn s.codes
    String.ofList (start ++ resumed start text.toList ++ escape :: resetRest)

/-- Whether an environment variable says yes: any value but a zero does. -/
def saysYes (value : String) : Bool := value != "0"

/-- Whether styles are shown, by what the environment forces, forbids and allows, and by whether a
terminal shows the text. -/
def stylesShown (forced forbidden allowed : Option String) (terminal : Bool) : Bool :=
  if forced.any saysYes then true
  else if forbidden.isSome then false
  else allowed.all saysYes && terminal

end NoteSearch.Display
