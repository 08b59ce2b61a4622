import TokenAtlas.Json.Value

/-! Taking JSON values apart. A record is given by an object or by an array of exactly
its fields in order. In an object a known field must not come twice, and unknown fields
do not count. -/

namespace TokenAtlas.Json.Value

def string? : Value → Option String
  | .string s => some s
  | _ => none

def bool? : Value → Option Bool
  | .bool b => some b
  | _ => none

/-- A whole number between two bounds. -/
def intBetween? (low high : Int) : Value → Option Int
  | .int n => if low ≤ n && n ≤ high then some n else none
  | _ => none

/-- A natural number that fits a number of bits. -/
def natOfBits? (bits : Nat) : Value → Option Nat
  | .int n => if 0 ≤ n && n < Nat.pow 2 bits then some n.toNat else none
  | _ => none

/-- A whole number that fits 32 bits with a sign. -/
def int32? : Value → Option Int := intBetween? (-2147483648) 2147483647

/-- A number of a line. -/
def line? : Value → Option Nat := natOfBits? 32

/-- An offset or a count. -/
def count? : Value → Option Nat := natOfBits? 64

/-- `null` or a value. -/
def nullable? {α : Type} (f : Value → Option α) : Value → Option (Option α)
  | .null => some none
  | v => (f v).map some

/-- The results of `f`, in order, if it has one for every element. -/
def mapAll? {α β : Type} (f : α → Option β) (as : List α) : Option (List β) := go [] as
where
  go (done : List β) : List α → Option (List β)
    | [] => some done.reverse
    | a :: rest =>
      match f a with
      | some b => go (b :: done) rest
      | none => none

private theorem mapAll?_go_eq {α β : Type} (f : α → Option β) (done : List β) (as : List α) :
    mapAll?.go f done as = (mapAll?.go f [] as).map (done.reverse ++ ·) := by
  induction as generalizing done with
  | nil => simp [mapAll?.go]
  | cons a rest ih =>
    simp only [mapAll?.go]
    split
    · rw [ih, ih [_]]
      simp [Option.map_map, Function.comp_def]
    · rfl

@[simp] theorem mapAll?_nil {α β : Type} (f : α → Option β) : mapAll? f [] = some [] := rfl

theorem mapAll?_cons {α β : Type} (f : α → Option β) (a : α) (rest : List α) :
    mapAll? f (a :: rest) = (f a).bind fun b => (mapAll? f rest).map (b :: ·) := by
  simp only [mapAll?, mapAll?.go]
  split
  · next hb =>
    rw [mapAll?_go_eq, hb]
    rfl
  · next hb => rw [hb, Option.bind_none]

def list? {α : Type} (f : Value → Option α) : Value → Option (List α)
  | .array items => mapAll? f items
  | _ => none

/-- The value of a field, if the field comes exactly once, `some none` if it is not
there, and `none` if it comes again. -/
def field? (fields : List (String × Value)) (name : String) : Option (Option Value) :=
  match fields.filter (·.1 = name) with
  | [] => some none
  | [field] => some (some field.2)
  | _ => none

/-- The values of the named fields of an object. -/
def objectParts? (names : List String) : Value → Option (List (Option Value))
  | .object fields => mapAll? (field? fields) names
  | _ => none

/-- The values of the named fields of a record. -/
def parts? (names : List String) : Value → Option (List (Option Value))
  | .array items => if items.length = names.length then some (items.map some) else none
  | v => v.objectParts? names

/-- A field that must be there. -/
def required {α : Type} (f : Value → Option α) : Option Value → Option α
  | some v => f v
  | none => none

/-- A field that may be missing or `null`. -/
def optional {α : Type} (f : Value → Option α) : Option Value → Option (Option α)
  | some v => nullable? f v
  | none => some none

/-- A name out of a fixed set, alone or as the only field of an object whose value is
`null`. -/
def choice? {α : Type} (choices : List (String × α)) : Value → Option α
  | .string s => choices.lookup s
  | .object [(s, .null)] => choices.lookup s
  | _ => none

/-- As `choice?`, for parts of a value that carries a tag. There the one field may hold
an empty object as well. -/
def innerChoice? {α : Type} (choices : List (String × α)) : Value → Option α
  | .object [(s, .object [])] => choices.lookup s
  | v => v.choice? choices

/-- The tag of a value and the rest of the value. The tag is a field of an object or the
first item of an array. -/
def tagged? (tag : String) : Value → Option (Value × Value)
  | .object fields =>
    match field? fields tag with
    | some (some v) => some (v, .object (fields.filter (·.1 ≠ tag)))
    | _ => none
  | .array (v :: rest) => some (v, .array rest)
  | _ => none

/-- The value itself, if all of it is readable. -/
def readable? (v : Value) : Option Value := if v.isReadable then some v else none

end TokenAtlas.Json.Value
