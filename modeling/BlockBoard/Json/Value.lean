/-!
# JSON values

JSON values as far as project files need them. The members of an object keep their order, and a key
may occur more than once. Of a number that is not written as an integer, or is too large for one,
only its presence is kept.
-/

namespace BlockBoard

/-- A JSON value. -/
inductive Json where
  | null
  | bool (value : Bool)
  /-- A number written as an integer. -/
  | int (value : Int)
  /-- Any other number. -/
  | real
  | text (value : String)
  | array (items : List Json)
  | object (members : List (String × Json))
deriving Repr

end BlockBoard
