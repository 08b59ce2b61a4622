import TokenAtlas.Token.Basic

/-! Nesting levels. An opening bracket is counted when it becomes the current token, a
closing one is uncounted only after it was the current token, so that a bracket and
its partner see the same depth. Unbalanced brackets may drive a level below zero. -/

namespace TokenAtlas

/-- The nesting depth in each family of brackets and in all of them together. -/
structure Levels where
  parens : Int
  curly : Int
  square : Int
  unified : Int
deriving Repr, DecidableEq

namespace Levels

def zero : Levels := ⟨0, 0, 0, 0⟩

def depth (l : Levels) : Family → Int
  | .paren => l.parens
  | .curly => l.curly
  | .square => l.square

/-- Move the level of one family, and with it the unified level. -/
def shift (l : Levels) (d : Int) : Family → Levels
  | .paren => { l with parens := l.parens + d, unified := l.unified + d }
  | .curly => { l with curly := l.curly + d, unified := l.unified + d }
  | .square => { l with square := l.square + d, unified := l.unified + d }

def isBalanced (l : Levels) : Bool := l = zero

theorem unified_shift (l : Levels) (d : Int) (f : Family) :
    (l.shift d f).unified - ((l.shift d f).parens + (l.shift d f).curly + (l.shift d f).square) =
      l.unified - (l.parens + l.curly + l.square) := by
  cases f <;> simp only [shift] <;> omega

end Levels

/-- Levels with the family of a closing bracket that is not uncounted yet. -/
structure LevelTracker where
  levels : Levels
  due : Option Family
deriving Repr, DecidableEq

namespace LevelTracker

def start : LevelTracker := ⟨.zero, none⟩

/-- Count the token if it opens a bracket. -/
def increment (l : LevelTracker) (k : Kind) : LevelTracker :=
  match k.bracket with
  | some (family, .opening) => { l with levels := l.levels.shift 1 family }
  | _ => l

/-- Uncount the token if it closes a bracket. -/
def decrement (l : LevelTracker) (k : Kind) : LevelTracker :=
  match k.bracket with
  | some (family, .closing) => { l with levels := l.levels.shift (-1) family }
  | _ => l

/-- Uncount a closing bracket that lies behind. -/
def settle (l : LevelTracker) : LevelTracker :=
  match l.due with
  | some family => ⟨l.levels.shift (-1) family, none⟩
  | none => l

/-- Move on to a token. -/
def advance (l : LevelTracker) (k : Kind) : LevelTracker :=
  let settled := l.settle
  match k.bracket with
  | some (family, .opening) => { settled with levels := settled.levels.shift 1 family }
  | some (family, .closing) => { settled with due := some family }
  | none => settled

/-- The levels at each of some tokens in turn. -/
def along (l : LevelTracker) (ts : List Token) : List Levels := go l [] ts
where
  go (l : LevelTracker) (seen : List Levels) : List Token → List Levels
    | [] => seen.reverse
    | t :: rest => go (l.advance t.kind) ((l.advance t.kind).levels :: seen) rest

private theorem along_go_eq (l : LevelTracker) (seen : List Levels) (ts : List Token) :
    along.go l seen ts = seen.reverse ++ along.go l [] ts := by
  induction ts generalizing l seen with
  | nil => simp [along.go]
  | cons t rest ih =>
    simp only [along.go]
    rw [ih, ih _ [_]]
    simp

@[simp] theorem along_nil (l : LevelTracker) : l.along [] = [] := rfl

@[simp] theorem along_cons (l : LevelTracker) (t : Token) (rest : List Token) :
    l.along (t :: rest) = (l.advance t.kind).levels :: (l.advance t.kind).along rest := by
  simp only [along, along.go]
  rw [along_go_eq]
  rfl

end LevelTracker

end TokenAtlas
