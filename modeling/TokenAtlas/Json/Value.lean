/-! JSON values as they are read and written. Objects keep their fields in order, equal
names included. -/

namespace TokenAtlas.Json

/-- A value. `real n e` is the number `n * 10 ^ e` where it is not given as a whole one.
`unreadable` stands for a value of correct form that cannot be taken as one: a number
out of range, a string with half a surrogate pair, or too deep a nesting. -/
inductive Value
  | null
  | bool (b : Bool)
  | int (n : Int)
  | real (n e : Int)
  | string (s : String)
  | array (items : List Value)
  | object (fields : List (String × Value))
  | unreadable
deriving Repr, Inhabited

namespace Value

def ofNat (n : Nat) : Value := .int n

/-- The value of something that may be missing. -/
def ofOption {α : Type} (f : α → Value) : Option α → Value
  | none => .null
  | some a => f a

def ofString? (s : Option String) : Value := ofOption .string s

def ofStrings (ss : List String) : Value := .array (ss.map .string)

mutual

/-- Whether no part of a value is unreadable. -/
def isReadable : Value → Bool
  | .unreadable => false
  | .array items => allReadable items
  | .object fields => allFieldsReadable fields
  | _ => true

def allReadable : List Value → Bool
  | [] => true
  | v :: rest => isReadable v && allReadable rest

def allFieldsReadable : List (String × Value) → Bool
  | [] => true
  | (_, v) :: rest => isReadable v && allFieldsReadable rest

end

end Value

end TokenAtlas.Json
