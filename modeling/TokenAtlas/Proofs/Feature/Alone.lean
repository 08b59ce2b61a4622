import TokenAtlas.Proofs.Feature.Signature
import TokenAtlas.Proofs.Feature.Site

/-! A signature builder on its own, fed the tokens of one signature at the levels counted
along them. Main statement: the levels that hold before a signature make no difference to it,
as brackets are matched by comparing depths. -/

namespace TokenAtlas

namespace Levels

/-- Some tokens, each with the levels at it. -/
def track (l : Levels) : List Token → List (Token × Levels)
  | [] => []
  | t :: rest => (t, l.onto t.kind) :: (l.past t.kind).track rest

@[simp] theorem track_nil (l : Levels) : l.track [] = [] := rfl

@[simp] theorem track_cons (l : Levels) (t : Token) (rest : List Token) :
    l.track (t :: rest) = (t, l.onto t.kind) :: (l.past t.kind).track rest := rfl

/-- Levels counted on top of others. -/
def above (l base : Levels) : Levels :=
  ⟨l.parens + base.parens, l.curly + base.curly, l.square + base.square,
    l.unified + base.unified⟩

@[simp] theorem zero_above (base : Levels) : zero.above base = base := by
  simp [above, zero]

theorem shift_above (l base : Levels) (d : Int) (f : Family) :
    (l.above base).shift d f = (l.shift d f).above base := by
  cases f <;> simp [above, shift, Int.add_right_comm]

theorem onto_above (l base : Levels) (k : Kind) :
    (l.above base).onto k = (l.onto k).above base := by
  unfold onto
  split
  · exact shift_above l base 1 _
  · rfl

theorem past_above (l base : Levels) (k : Kind) :
    (l.above base).past k = (l.past k).above base := by
  unfold past
  split
  · exact shift_above l base 1 _
  · exact shift_above l base (-1) _
  · rfl

theorem behind_above (l base : Levels) (ts : List Token) :
    (l.above base).behind ts = (l.behind ts).above base := by
  induction ts generalizing l with
  | nil => rfl
  | cons t ts ih => rw [behind_cons, past_above, ih, behind_cons]

end Levels

/-- A tracker shows the levels that are counted from its own on. -/
theorem LevelTracker.zip_along (l : LevelTracker) (ts : List Token) :
    ts.zip (l.along ts) = l.settle.levels.track ts := by
  induction ts generalizing l with
  | nil => rfl
  | cons t ts ih =>
    rw [along_cons, List.zip_cons_cons, ih, Levels.track_cons, levels_advance, settle_advance]

namespace SignatureBuilder

/-- The builder behind some tokens that it is fed at their levels. -/
def after (b : SignatureBuilder) (xs : List (Token × Levels)) : SignatureBuilder :=
  xs.foldl (fun b x => (b.feed x.1 x.2).2) b

/-- The answers to some tokens, one by one. -/
def answers (b : SignatureBuilder) : List (Token × Levels) → List Feed
  | [] => []
  | x :: xs => (b.feed x.1 x.2).1 :: (b.feed x.1 x.2).2.answers xs

@[simp] theorem after_nil (b : SignatureBuilder) : b.after [] = b := rfl

@[simp] theorem after_cons (b : SignatureBuilder) (x : Token × Levels)
    (xs : List (Token × Levels)) : b.after (x :: xs) = (b.feed x.1 x.2).2.after xs := rfl

@[simp] theorem answers_nil (b : SignatureBuilder) : b.answers [] = [] := rfl

@[simp] theorem answers_cons (b : SignatureBuilder) (x : Token × Levels)
    (xs : List (Token × Levels)) :
    b.answers (x :: xs) = (b.feed x.1 x.2).1 :: (b.feed x.1 x.2).2.answers xs := rfl

/-- A builder that was fed nothing but this opening word. -/
def opened (word : Token) : SignatureBuilder := .fresh (word.kind = .fnWord)

/-- The signature that a builder on its own makes of some tokens, the opening word first. -/
def alone (ts : List Token) : Signature :=
  match ts.zip (LevelTracker.start.along ts) with
  | [] => (fresh false).signature
  | (word, _) :: rest => ((opened word).after rest).signature

theorem alone_cons {word : Token} (h : word.kind.bracket = none) (rest : List Token) :
    alone (word :: rest) = ((opened word).after (Levels.zero.track rest)).signature := by
  rw [alone, LevelTracker.zip_along, Levels.track_cons, Levels.past_of_bracket_none h]
  rfl

/-! ### Tokens that do not end a signature -/

/-- From the levels `l` on the builder takes the tokens without coming to an end, and is `d`
behind them. -/
inductive Takes : SignatureBuilder → Levels → List Token → SignatureBuilder → Prop
  | nil (b : SignatureBuilder) (l : Levels) : Takes b l [] b
  | step {b c d : SignatureBuilder} {l : Levels} {t : Token} {rest : List Token}
      {hint : Option Hint} (h : b.feed t (l.onto t.kind) = (⟨false, hint, []⟩, c))
      (hrest : Takes c (l.past t.kind) rest d) : Takes b l (t :: rest) d

namespace Takes

variable {b c d : SignatureBuilder} {l : Levels} {as bs ts : List Token}

theorem quiet {t : Token} (h : b.feed t (l.onto t.kind) = (.quiet, c))
    (hrest : Takes c (l.past t.kind) ts d) : Takes b l (t :: ts) d := .step h hrest

theorem append (ha : Takes b l as c) (hb : Takes c (l.behind as) bs d) :
    Takes b l (as ++ bs) d := by
  induction ha with
  | nil => exact hb
  | step h _ ih => exact .step h (ih hb)

theorem answers_append (h : Takes b l ts d) (bs : List Token) :
    b.answers (l.track (ts ++ bs)) =
      b.answers (l.track ts) ++ d.answers ((l.behind ts).track bs) := by
  induction h with
  | nil => rfl
  | step h _ ih => simp [h, ih]

theorem after_append (h : Takes b l ts d) (bs : List Token) :
    b.after (l.track (ts ++ bs)) = d.after ((l.behind ts).track bs) := by
  induction h with
  | nil => rfl
  | step h _ ih => simp [h, ih]

theorem done_answers (h : Takes b l ts d) :
    (b.answers (l.track ts)).map (·.done) = List.replicate ts.length false := by
  induction h with
  | nil => rfl
  | step h _ ih => simp [h, ih, List.replicate_succ]

end Takes

/-! ### Levels before a signature -/

/-- The builder with all depths counted on top of others. -/
def above (b : SignatureBuilder) (base : Levels) : SignatureBuilder :=
  { b with
    phase :=
      match b.phase with
      | .parameters parens unified d =>
        .parameters (parens + base.parens) (unified + base.unified)
          { d with skipping := d.skipping.map (· + base.square) }
      | .inBody depth opener => .inBody (depth + base.curly) opener
      | phase => phase }

theorem above_opened (word : Token) (base : Levels) : (opened word).above base = opened word := rfl

theorem above_of_behind {b : SignatureBuilder} {inReturn : Bool} {type : TypeDraft}
    (hb : b.phase = .behind inReturn type) (base : Levels) : b.above base = b := by
  obtain ⟨fed, phase, signature⟩ := b
  obtain rfl : phase = .behind inReturn type := hb
  rfl

theorem feedParameter_above (b : SignatureBuilder) (parens unified : Int) {d : ParameterDraft}
    (hd : d.skipping = none) (t : Token) (l base : Levels) :
    (b.above base).feedParameter (parens + base.parens) (unified + base.unified) d t
      (l.above base) = (b.feedParameter parens unified d t l).above base := by
  have hunified : (l.above base).unified = unified + base.unified ↔ l.unified = unified :=
    Int.add_left_inj _
  obtain ⟨parameter, type, default, marked, skipping⟩ := d
  obtain rfl : skipping = none := hd
  unfold feedParameter
  simp only [hunified]
  split
  case h_7 => split <;> simp [above, addParameter, ParameterDraft.empty]
  case h_8 => split <;> simp [above]
  all_goals simp [above, ParameterDraft.closeType]

theorem feedList_above (b : SignatureBuilder) (parens unified : Int) {d : ParameterDraft}
    (hd : d.skipping = none) (t : Token) (l base : Levels) :
    (b.above base).feedList (parens + base.parens) (unified + base.unified) d t
      (l.above base) = (b.feedList parens unified d t l).above base := by
  have hparens : (l.above base).parens = parens + base.parens ↔ l.parens = parens :=
    Int.add_left_inj _
  have hunified : (l.above base).unified = unified + base.unified ↔ l.unified = unified :=
    Int.add_left_inj _
  unfold feedList
  simp only [hparens, hunified]
  split
  · simp [above, addParameter]
  · split
    · split <;> simp [above, addParameter, ParameterDraft.empty, hd]
    · exact feedParameter_above b parens unified hd t l base

theorem feedParameters_above (b : SignatureBuilder) (parens unified : Int) (d : ParameterDraft)
    (t : Token) (l base : Levels) :
    (b.above base).feedParameters (parens + base.parens) (unified + base.unified)
      { d with skipping := d.skipping.map (· + base.square) } t (l.above base) =
      (b.feedParameters parens unified d t l).above base := by
  rcases hs : d.skipping with _ | depth
  · unfold feedParameters
    simp only [hs, Option.map_none]
    split
    · simp [above]
    · split
      · simp [above, Levels.above]
      · split
        · simp [above, Levels.above]
        · exact feedList_above b parens unified rfl t l base
  · have hsquare : (l.above base).square = depth + base.square ↔ l.square = depth :=
      Int.add_left_inj _
    unfold feedParameters
    simp only [hs, Option.map_some, hsquare]
    split
    · rfl
    · simp [above, hs]

theorem feedOpening_above {b : SignatureBuilder} (hb : b.phase = .opening) (t : Token)
    (l base : Levels) :
    b.feedOpening t (l.above base) =
      ((b.feedOpening t l).1, (b.feedOpening t l).2.above base) := by
  obtain ⟨fed, phase, signature⟩ := b
  obtain rfl : phase = .opening := hb
  unfold feedOpening
  split
  · simp [above]
  · simp [above, Levels.above, ParameterDraft.empty]
  · by_cases hname : (signature.name.isNone && decide (signature.kind ≠ .arrow) &&
        (decide (t.kind = .identifier) || t.kind.isKeyword)) = true
    · simp only [hname, if_true, above]
    · simp only [if_neg hname, above]

theorem feedBehind_above {b : SignatureBuilder} {inReturn : Bool} {type : TypeDraft}
    (hb : b.phase = .behind inReturn type) (t : Token) (l base : Levels) :
    b.feedBehind inReturn type t (l.above base) =
      ((b.feedBehind inReturn type t l).1, (b.feedBehind inReturn type t l).2.above base) := by
  obtain ⟨fed, phase, signature⟩ := b
  obtain rfl : phase = .behind inReturn type := hb
  unfold feedBehind
  simp only
  split
  · rfl
  · rfl
  · simp [above, Levels.above]
  · simp [above]
  · cases inReturn
    · simp [above]
    · simp only [if_true]
      split
      · simp [above]
      · simp [above]
      · split <;> simp [above]

/-- A token that does not end the signature has the same effect on top of other levels. -/
theorem feed_above {b c : SignatureBuilder} {t : Token} {l : Levels} {f : Feed}
    (h : b.feed t l = (f, c)) (hf : f.done = false) (base : Levels) :
    (b.above base).feed t (l.above base) = (f, c.above base) := by
  obtain ⟨fed, phase, signature⟩ := b
  cases phase with
  | opening =>
    obtain ⟨rfl, rfl⟩ := Prod.mk.inj h
    exact feedOpening_above (b := ⟨true, .opening, signature⟩) rfl t l base
  | parameters parens unified d =>
    obtain ⟨rfl, rfl⟩ := Prod.mk.inj h
    exact congrArg (Prod.mk _)
      (feedParameters_above ⟨true, .parameters parens unified d, signature⟩ parens unified d t l
        base)
  | behind inReturn type =>
    obtain ⟨rfl, rfl⟩ := Prod.mk.inj h
    exact feedBehind_above (b := ⟨true, .behind inReturn type, signature⟩) rfl t l base
  | inBody depth opener =>
    have hcurly : (l.above base).curly = depth + base.curly ↔ l.curly = depth :=
      Int.add_left_inj _
    simp only [feed, feedBody] at h
    simp only [above, feed, feedBody, hcurly]
    split at h
    · obtain ⟨rfl, -⟩ := Prod.mk.inj h
      simp [Feed.finished] at hf
    · next hclose =>
      obtain ⟨rfl, rfl⟩ := Prod.mk.inj h
      rw [if_neg hclose]
  | finished =>
    obtain ⟨rfl, rfl⟩ := Prod.mk.inj h
    rfl

theorem Takes.above {b d : SignatureBuilder} {l : Levels} {ts : List Token} (h : Takes b l ts d)
    (base : Levels) : Takes (b.above base) (l.above base) ts (d.above base) := by
  induction h with
  | nil => exact .nil _ _
  | @step b c d l t rest hint h _ ih =>
    have hfeed := feed_above h rfl base
    rw [← Levels.onto_above] at hfeed
    rw [← Levels.past_above] at ih
    exact .step hfeed ih

end SignatureBuilder

end TokenAtlas
