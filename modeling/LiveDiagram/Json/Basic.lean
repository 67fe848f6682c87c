import LiveDiagram.Number.Scalar

namespace LiveDiagram

/-- A JSON value with numbers of the given type. An object keeps its members in
    order; of several members with one key, the first is the one that is
    found. -/
inductive Json (α : Type) where
  | null
  | bool (b : Bool)
  | num (x : α)
  | str (s : String)
  | arr (items : List (Json α))
  | obj (members : List (String × Json α))
  deriving Inhabited

namespace Json

variable {α : Type}

/-- The members of an object. -/
def entries? : Json α → Option (List (String × Json α))
  | obj members => some members
  | _ => none

/-- The member of an object under that key; any other value has none. -/
def field? (j : Json α) (key : String) : Option (Json α) :=
  j.entries?.bind fun members => members.lookup key

def bool? : Json α → Option Bool
  | bool b => some b
  | _ => none

def num? : Json α → Option α
  | num x => some x
  | _ => none

def str? : Json α → Option String
  | str s => some s
  | _ => none

section Reread

variable [Scalar α]

mutual

/-- The value that is read back from the text of a value. A number that has no
    digits is written as nothing. -/
def reread : Json α → Json α
  | null => null
  | bool b => bool b
  | num x => if Scalar.isFinite x then num x else null
  | str s => str s
  | arr items => arr (rereadItems items)
  | obj members => obj (rereadMembers members)

/-- The items that are read back from the text of an array. -/
def rereadItems : List (Json α) → List (Json α)
  | [] => []
  | item :: items => item.reread :: rereadItems items

/-- The members that are read back from the text of an object. -/
def rereadMembers : List (String × Json α) → List (String × Json α)
  | [] => []
  | (key, value) :: members => (key, value.reread) :: rereadMembers members

end

end Reread

end Json

end LiveDiagram
