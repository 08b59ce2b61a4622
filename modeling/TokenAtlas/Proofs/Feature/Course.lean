import TokenAtlas.Feature.Stack

/-! Levels and open features driven together over a token stream: for every token the
levels move first, and the stack takes the token at the levels it then has. -/

namespace TokenAtlas

/-- The nesting and the open features between two tokens. -/
structure Course where
  tracker : LevelTracker
  stack : Stack
deriving Repr, DecidableEq

namespace Course

def start : Course := ⟨.start, .empty⟩

/-- Take one token. `mayOpen` is false where an opening word is only a name. -/
def next (c : Course) (t : Token) (mayOpen : Bool) : StackStep × Course :=
  let tracker := c.tracker.advance t.kind
  let (step, stack) := c.stack.step t tracker.levels mayOpen
  (step, ⟨tracker, stack⟩)

/-- Take some tokens, each with its permission to open a feature. -/
def after (c : Course) : List (Token × Bool) → Course
  | [] => c
  | (t, mayOpen) :: rest => (c.next t mayOpen).2.after rest

/-- All that was done on the way, token by token. -/
def steps (c : Course) : List (Token × Bool) → List StackStep
  | [] => []
  | (t, mayOpen) :: rest => (c.next t mayOpen).1 :: (c.next t mayOpen).2.steps rest

@[simp] theorem after_nil (c : Course) : c.after [] = c := rfl

@[simp] theorem after_cons (c : Course) (t : Token) (mayOpen : Bool) (rest : List (Token × Bool)) :
    c.after ((t, mayOpen) :: rest) = (c.next t mayOpen).2.after rest := rfl

@[simp] theorem steps_nil (c : Course) : c.steps [] = [] := rfl

@[simp] theorem steps_cons (c : Course) (t : Token) (mayOpen : Bool) (rest : List (Token × Bool)) :
    c.steps ((t, mayOpen) :: rest) = (c.next t mayOpen).1 :: (c.next t mayOpen).2.steps rest := rfl

theorem after_append (c : Course) (a b : List (Token × Bool)) :
    c.after (a ++ b) = (c.after a).after b := by
  induction a generalizing c with
  | nil => rfl
  | cons x a ih => exact ih _

theorem steps_append (c : Course) (a b : List (Token × Bool)) :
    c.steps (a ++ b) = c.steps a ++ (c.after a).steps b := by
  induction a generalizing c with
  | nil => rfl
  | cons x a ih => exact congrArg (_ :: ·) (ih _)

end Course

end TokenAtlas
