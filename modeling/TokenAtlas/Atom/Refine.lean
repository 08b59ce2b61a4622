import TokenAtlas.Atom.Splitter
import TokenAtlas.Log.Code

/-! Refining tokens: a composite token is replaced by its atoms, an atomic one passes
through. A token that cannot be split is refused with its position. -/

namespace TokenAtlas.Atom

/-- Why a token is refused. -/
inductive Refusal
  | wrongKind (splitter : Splitter) (found : Kind) (position : Position)
  | malformed (splitter : Splitter) (text : String) (defect : Defect) (position : Position)
  | tooLong (length line : Nat)
deriving Repr, DecidableEq

namespace Refusal

def message : Refusal → String
  | .wrongKind s found p =>
    s!"{s.name} expects {s.expected}, got {found.name} at line {p.line} (offset {p.offset})"
  | .malformed s text defect p =>
    s!"{s.name} cannot split {Text.quoted text} at line {p.line} (offset {p.offset}): " ++
      defect.reason
  | .tooLong length line =>
    s!"Token too long: {length} bytes at line {line} (max {Limits.tokenLength})"

def code : Refusal → Log.Code
  | .wrongKind .. | .malformed .. => .badSplit
  | .tooLong .. => .tokenTooLong

/-- The refusal spelled out field by field, for displays of a stream's state. -/
def describe : Refusal → String
  | .wrongKind s found p =>
    s!"PreconditionViolation \x7b operation: {Text.quoted s.name}, " ++
      s!"expected: {Text.quoted s.expected}, found: {found.label}, line: {p.line}, " ++
      s!"offset: {p.offset} \x7d"
  | .malformed s text defect p =>
    s!"MalformedComposite \x7b operation: {Text.quoted s.name}, text: {Text.quoted text}, " ++
      s!"reason: {Text.quoted defect.reason}, line: {p.line}, offset: {p.offset} \x7d"
  | .tooLong length line => s!"TokenTooLong \x7b length: {length}, line: {line} \x7d"

end Refusal

/-- Split a token by a given splitter. -/
def Splitter.split (s : Splitter) (t : Token) : Except Refusal (List Token) :=
  if s.accepts t.kind then
    match s.pieces t.kind t.text.toList with
    | .ok ps => .ok (place t.position ps)
    | .error defect => .error (.malformed s t.text defect t.position)
  else .error (.wrongKind s t.kind t.position)

/-- The atoms of a token, or `none` for a token that passes through: an atomic one and
one that is its own only atom. Too long a token is refused whatever its kind. -/
def atomize (apart : Bool) (t : Token) : Except Refusal (Option (List Token)) :=
  if Limits.tokenLength < t.text.utf8ByteSize then
    .error (.tooLong t.text.utf8ByteSize t.line)
  else
    match Splitter.ofKind apart t.kind with
    | none => .ok none
    | some s =>
      match s.split t with
      | .error e => .error e
      | .ok atoms => .ok (if atoms = [t] then none else some atoms)

/-- What a token contributes to the refined stream. -/
def refine (apart : Bool) (t : Token) : Except Refusal (List Token) :=
  (atomize apart t).map (·.getD [t])

/-- The refined stream, up to the first refusal. -/
def atomizeAll (apart : Bool) (ts : List Token) : Except Refusal (List Token) := go [] ts
where
  go (done : List Token) : List Token → Except Refusal (List Token)
    | [] => .ok done.reverse
    | t :: rest =>
      match refine apart t with
      | .ok atoms => go (atoms.reverse ++ done) rest
      | .error e => .error e

private theorem atomizeAll_go_eq (apart : Bool) (done ts : List Token) :
    atomizeAll.go apart done ts = (atomizeAll.go apart [] ts).map (done.reverse ++ ·) := by
  induction ts generalizing done with
  | nil => simp [atomizeAll.go, Except.map]
  | cons t rest ih =>
    simp only [atomizeAll.go]
    split
    · rw [ih, ih (_ ++ [])]
      cases atomizeAll.go apart [] rest <;> simp [Except.map]
    · rfl

@[simp] theorem atomizeAll_nil (apart : Bool) : atomizeAll apart [] = .ok [] := rfl

theorem atomizeAll_cons (apart : Bool) (t : Token) (rest : List Token) :
    atomizeAll apart (t :: rest) =
      match refine apart t with
      | .ok atoms => (atomizeAll apart rest).map (atoms ++ ·)
      | .error e => .error e := by
  simp only [atomizeAll, atomizeAll.go]
  split
  · rw [atomizeAll_go_eq]
    simp
  · rfl

end TokenAtlas.Atom
