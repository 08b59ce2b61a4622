import TokenAtlas.Proofs.Feature.Site

/-! Levels as counts of brackets. A tracker owes the closing bracket that it stands at, so that
what it shows lags behind the brackets it has met. Main statement: at a token the level of a
family is the number of brackets opened up to there, that token among them, less the number of
those closed in front of it. Giving up each token before the next one is taken shows the same
levels, and the unified level is the sum of the three whatever is done. -/

namespace TokenAtlas

/-- How many of some tokens stand on this side of a pair of brackets of the family. -/
def Family.count (f : Family) (side : Side) (ts : List Token) : Nat :=
  ts.countP fun t => t.kind.bracket = some (f, side)

theorem Family.count_append (f : Family) (side : Side) (as bs : List Token) :
    f.count side (as ++ bs) = f.count side as + f.count side bs := List.countP_append

namespace Levels

/-- Coming to a token counts it if it opens a bracket of the family. -/
theorem depth_onto (l : Levels) (t : Token) (f : Family) :
    (l.onto t.kind).depth f = l.depth f + f.count .opening [t] := by
  rcases hk : t.kind.bracket with _ | ⟨g, _ | _⟩
  · simp [onto, Family.count, hk]
  · by_cases hg : g = f
    · subst hg
      simp [l.onto_opening hk, depth_shift_self, Family.count, hk]
    · simp [l.onto_opening hk, depth_shift_of_ne _ _ hg, Family.count, hk, hg]
  · simp [onto_closing hk, Family.count, hk]

/-- Passing a token counts it if it opens a bracket of the family, and uncounts it if it closes
one. -/
theorem depth_past (l : Levels) (t : Token) (f : Family) :
    (l.past t.kind).depth f = l.depth f + f.count .opening [t] - f.count .closing [t] := by
  rcases hk : t.kind.bracket with _ | ⟨g, _ | _⟩
  · simp [past_of_bracket_none hk, Family.count, hk]
  · by_cases hg : g = f
    · subst hg
      simp [l.past_opening hk, depth_shift_self, Family.count, hk]
    · simp [l.past_opening hk, depth_shift_of_ne _ _ hg, Family.count, hk, hg]
  · by_cases hg : g = f
    · subst hg
      simp [depth_past_closing hk, Family.count, hk]
    · have hother : ∀ side, t.kind.bracket ≠ some (f, side) := by simp [hk, hg]
      simp [depth_past_of_ne hother, Family.count, hk, hg]

theorem depth_behind (l : Levels) (ts : List Token) (f : Family) :
    (l.behind ts).depth f = l.depth f + f.count .opening ts - f.count .closing ts := by
  induction ts generalizing l with
  | nil => simp [Family.count]
  | cons t ts ih =>
    have hopening := f.count_append .opening [t] ts
    have hclosing := f.count_append .closing [t] ts
    rw [behind_cons, ih, depth_past]
    rw [List.singleton_append] at hopening hclosing
    omega

/-- The unified level is the sum of the others. -/
def IsSum (l : Levels) : Prop := l.unified = l.parens + l.curly + l.square

theorem IsSum.shift {l : Levels} (h : l.IsSum) (d : Int) (f : Family) : (l.shift d f).IsSum := by
  have hshift := l.unified_shift d f
  unfold IsSum at h ⊢
  omega

end Levels

namespace LevelTracker

/-- The tracker at the last of some tokens. -/
def after (l : LevelTracker) (ts : List Token) : LevelTracker :=
  ts.foldl (fun l t => l.advance t.kind) l

/-- What is owed for the last token apart, the levels are those behind the tokens. -/
theorem settle_after (l : LevelTracker) (ts : List Token) :
    (l.after ts).settle.levels = l.settle.levels.behind ts := by
  induction ts generalizing l with
  | nil => rfl
  | cons t ts ih =>
    rw [Levels.behind_cons, ← settle_advance]
    exact ih (l.advance t.kind)

theorem length_along (l : LevelTracker) (ts : List Token) : (l.along ts).length = ts.length := by
  induction ts generalizing l with
  | nil => rfl
  | cons t ts ih => rw [along_cons, List.length_cons, ih, List.length_cons]

theorem along_append (l : LevelTracker) (as bs : List Token) :
    l.along (as ++ bs) = l.along as ++ (l.after as).along bs := by
  induction as generalizing l with
  | nil => rfl
  | cons t as ih =>
    rw [List.cons_append, along_cons, along_cons, ih]
    rfl

theorem getElem?_along (l : LevelTracker) (before : List Token) (t : Token) (rest : List Token) :
    (l.along (before ++ t :: rest))[before.length]? =
      some ((l.settle.levels.behind before).onto t.kind) := by
  rw [along_append, List.getElem?_append_right (Nat.le_of_eq (length_along _ _)), length_along,
    Nat.sub_self, along_cons, List.getElem?_cons_zero, levels_advance, settle_after]

/-! ### Giving up and taking -/

theorem levels_increment (l : LevelTracker) (k : Kind) :
    (l.increment k).levels = l.levels.onto k := by
  rcases hk : k.bracket with _ | ⟨f, _ | _⟩ <;> simp [increment, Levels.onto, hk]

/-- A bracket that is taken and given up again has been passed. -/
theorem levels_decrement_increment (l : LevelTracker) (k : Kind) :
    ((l.increment k).decrement k).levels = l.levels.past k := by
  rcases hk : k.bracket with _ | ⟨f, _ | _⟩ <;> simp [increment, decrement, Levels.past, hk]

/-- Give up the token in front, if there is one. -/
def release (l : LevelTracker) : Option Token → LevelTracker
  | none => l
  | some t => l.decrement t.kind

/-- The levels at each of some tokens when the token in front is given up and then the token
itself is taken. -/
def alternating (l : LevelTracker) (front : Option Token) : List Token → List Levels
  | [] => []
  | t :: rest =>
    ((l.release front).increment t.kind).levels ::
      ((l.release front).increment t.kind).alternating (some t) rest

/-- Owing a closing bracket and giving it up come to the same. -/
theorem along_eq_alternating {l e : LevelTracker} {front : Option Token}
    (h : l.settle.levels = (e.release front).levels) (ts : List Token) :
    l.along ts = e.alternating front ts := by
  induction ts generalizing l e front with
  | nil => rfl
  | cons t ts ih =>
    rw [along_cons, alternating, levels_advance, levels_increment, h]
    refine congrArg _ (ih ?_)
    rw [settle_advance, h]
    exact (levels_decrement_increment (e.release front) t.kind).symm

/-! ### Any calls -/

/-- What can be done with a tracker. -/
inductive Call
  | advance (t : Token)
  | increment (t : Token)
  | decrement (t : Token)
  | settle

def perform (l : LevelTracker) : Call → LevelTracker
  | .advance t => l.advance t.kind
  | .increment t => l.increment t.kind
  | .decrement t => l.decrement t.kind
  | .settle => l.settle

theorem isSum_settle {l : LevelTracker} (h : l.levels.IsSum) : l.settle.levels.IsSum := by
  unfold settle
  split
  · exact h.shift (-1) _
  · exact h

theorem isSum_perform {l : LevelTracker} (h : l.levels.IsSum) (call : Call) :
    (l.perform call).levels.IsSum := by
  cases call with
  | advance t =>
    have hsettled := isSum_settle h
    simp only [perform, advance]
    split
    · exact hsettled.shift 1 _
    · exact hsettled
    · exact hsettled
  | increment t =>
    simp only [perform, increment]
    split
    · exact h.shift 1 _
    · exact h
  | decrement t =>
    simp only [perform, decrement]
    split
    · exact h.shift (-1) _
    · exact h
  | settle => exact isSum_settle h

theorem isSum_foldl_perform {l : LevelTracker} (h : l.levels.IsSum) (calls : List Call) :
    (calls.foldl perform l).levels.IsSum := by
  induction calls generalizing l with
  | nil => exact h
  | cons call calls ih => exact ih (isSum_perform h call)

/-- At a token a new tracker shows for each family the brackets opened so far less those closed
in front, and settled less all that are closed. It shows the same when each token is given up
before the next one is taken, and the unified level is the sum of the others after any calls. -/
theorem levels_count_brackets :
    (∀ (before : List Token) (t : Token) (rest : List Token) (f : Family),
      ((start.along (before ++ t :: rest))[before.length]?).map (·.depth f) =
          some (f.count .opening (before ++ [t]) - f.count .closing before : Int) ∧
      (start.after (before ++ [t])).settle.levels.depth f =
          f.count .opening (before ++ [t]) - f.count .closing (before ++ [t])) ∧
    (∀ ts : List Token, start.along ts = start.alternating none ts) ∧
    ∀ calls : List Call,
      (calls.foldl perform start).levels.unified =
        (calls.foldl perform start).levels.parens + (calls.foldl perform start).levels.curly +
          (calls.foldl perform start).levels.square := by
  have hzero : ∀ f : Family, start.settle.levels.depth f = 0 := by
    rintro (_ | _ | _) <;> rfl
  refine ⟨fun before t rest f => ⟨?_, ?_⟩, along_eq_alternating rfl,
    isSum_foldl_perform rfl⟩
  · have hcount := f.count_append .opening before [t]
    rw [getElem?_along, Option.map_some, Levels.depth_onto, Levels.depth_behind, hzero, hcount]
    congr 1
    omega
  · rw [settle_after, Levels.depth_behind, hzero]
    omega

/-- A closing bracket that closes nothing drives its level below zero once it is passed. -/
example :
    (start.along [⟨.closeParen, ")", 1, 0⟩, ⟨.openCurly, "\x7b", 1, 1⟩]).map (·.depth .paren) =
      [0, -1] := by
  decide

end LevelTracker

end TokenAtlas
