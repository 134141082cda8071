import NoteSearch.Decimal.Binary64

/-!
# TOML values
-/
namespace NoteSearch.Toml

/-- A value. Dates and times are kept as text in their plainest form. -/
inductive Value where
  | string (s : String)
  | integer (n : Int)
  | float (x : Decimal.Binary64)
  | bool (b : Bool)
  | date (text : String)
  | array (items : List Value)
  | table (fields : List (String × Value))
  deriving Repr, Inhabited

end NoteSearch.Toml
