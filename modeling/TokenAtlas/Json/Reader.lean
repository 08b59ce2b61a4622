import TokenAtlas.Json.Lexeme

/-! Reading a JSON value from its lexemes. The containers that are part way through are
held in a list of frames, the innermost first. -/

namespace TokenAtlas.Json

/-- A container part way through, its parts in reverse. An object with an unreadable
name is unreadable as a whole. -/
inductive Frame
  | array (items : List Value)
  | object (fields : List (String × Value)) (name : String) (readable : Bool)
deriving Repr

/-- What may come next. -/
inductive Expected
  | value
  | itemOrEnd
  | nameOrEnd
  | name
  | colon
  | commaOrEnd
  | nothing
deriving Repr, DecidableEq

structure ReadState where
  frames : List Frame
  depth : Nat
  expected : Expected
  /-- The value, once it is complete. -/
  result : Value
deriving Repr

namespace ReadState

def start : ReadState := ⟨[], 0, .value, .null⟩

/-- The deepest nesting of containers that is readable. -/
def maxDepth : Nat := 127

/-- Give a complete value to the innermost container. -/
def put (s : ReadState) (v : Value) : ReadState :=
  match s.frames with
  | [] => { s with expected := .nothing, result := v }
  | .array items :: outer =>
    { s with frames := .array (v :: items) :: outer, expected := .commaOrEnd }
  | .object fields name readable :: outer =>
    { s with
      frames := .object ((name, v) :: fields) name readable :: outer
      expected := .commaOrEnd }

def openFrame (s : ReadState) (f : Frame) (e : Expected) : ReadState :=
  { s with frames := f :: s.frames, depth := s.depth + 1, expected := e }

def openArray (s : ReadState) : ReadState := s.openFrame (.array []) .itemOrEnd

def openObject (s : ReadState) : ReadState := s.openFrame (.object [] "" true) .nameOrEnd

/-- The value of a complete container. -/
def completed (s : ReadState) (v : Value) (readable : Bool) : Value :=
  if readable && s.depth ≤ maxDepth then v else .unreadable

def close? (s : ReadState) (bracket : Char) : Option ReadState :=
  match s.frames with
  | .array items :: outer =>
    if bracket = ']' then
      some (put { s with frames := outer, depth := s.depth - 1 }
        (s.completed (.array items.reverse) true))
    else none
  | .object fields _ readable :: outer =>
    if bracket = '\x7d' then
      some (put { s with frames := outer, depth := s.depth - 1 }
        (s.completed (.object fields.reverse) readable))
    else none
  | [] => none

/-- Take the name of a field. -/
def name? (s : ReadState) (v : Value) : Option ReadState :=
  match s.frames, v with
  | .object fields _ readable :: outer, .string name =>
    some { s with frames := .object fields name readable :: outer, expected := .colon }
  | .object fields _ _ :: outer, .unreadable =>
    some { s with frames := .object fields "" false :: outer, expected := .colon }
  | _, _ => none

/-- Go on behind a comma. -/
def comma? (s : ReadState) : Option ReadState :=
  match s.frames with
  | .array _ :: _ => some { s with expected := .value }
  | .object _ _ _ :: _ => some { s with expected := .name }
  | [] => none

/-- Begin a value. -/
def value? (s : ReadState) : Lexeme → Option ReadState
  | .scalar v => some (s.put v)
  | .punctuation c =>
    if c = '[' then some s.openArray else if c = '\x7b' then some s.openObject else none

/-- Take one lexeme. -/
def step? (s : ReadState) (l : Lexeme) : Option ReadState :=
  match s.expected, l with
  | .value, l => s.value? l
  | .itemOrEnd, .punctuation ']' => s.close? ']'
  | .itemOrEnd, l => s.value? l
  | .nameOrEnd, .punctuation c => s.close? c
  | .nameOrEnd, .scalar v => s.name? v
  | .name, .scalar v => s.name? v
  | .colon, .punctuation ':' => some { s with expected := .value }
  | .commaOrEnd, .punctuation ',' => s.comma?
  | .commaOrEnd, .punctuation c => s.close? c
  | _, _ => none

end ReadState

/-- The value of a list of lexemes, `none` if they do not form exactly one. -/
def readLexemes (s : ReadState) : List Lexeme → Option Value
  | [] => if s.expected = .nothing then some s.result else none
  | l :: rest =>
    match s.step? l with
    | some s => readLexemes s rest
    | none => none

/-- The value that a text stands for. -/
def read? (text : String) : Option Value := do
  readLexemes .start (← lexemes [] text.toList)

end TokenAtlas.Json
