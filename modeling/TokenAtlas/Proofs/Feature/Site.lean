import TokenAtlas.Proofs.Feature.Course
import TokenAtlas.Proofs.Symbol.Replay

/-! Places between two tokens. A site has the levels that hold there, with no closing bracket
left to uncount, and the open features. Main statements: a course is at a site after every
token, and what a site does with a token is one of five things: nothing, feeding the
innermost builder, opening a feature, waiting for a feature to be verified, or doing without
a feature for which there is no room. -/

namespace TokenAtlas

namespace Levels

/-- The levels at a token of kind `k` when these hold before it. -/
def onto (l : Levels) (k : Kind) : Levels :=
  match k.bracket with
  | some (family, .opening) => l.shift 1 family
  | _ => l

/-- The levels behind a token of kind `k` when these hold before it. -/
def past (l : Levels) (k : Kind) : Levels :=
  match k.bracket with
  | some (family, .opening) => l.shift 1 family
  | some (family, .closing) => l.shift (-1) family
  | none => l

/-- The levels behind some tokens. -/
def behind (l : Levels) (ts : List Token) : Levels := ts.foldl (fun l t => l.past t.kind) l

@[simp] theorem behind_nil (l : Levels) : l.behind [] = l := rfl

@[simp] theorem behind_cons (l : Levels) (t : Token) (ts : List Token) :
    l.behind (t :: ts) = (l.past t.kind).behind ts := rfl

theorem behind_append (l : Levels) (as bs : List Token) :
    l.behind (as ++ bs) = (l.behind as).behind bs := List.foldl_append

theorem onto_of_bracket_none {k : Kind} (h : k.bracket = none) (l : Levels) : l.onto k = l := by
  simp [onto, h]

theorem past_of_bracket_none {k : Kind} (h : k.bracket = none) (l : Levels) : l.past k = l := by
  simp [past, h]

theorem behind_of_plain (l : Levels) {ts : List Token} (h : ∀ t ∈ ts, t.kind.bracket = none) :
    l.behind ts = l := by
  induction ts with
  | nil => rfl
  | cons t ts ih =>
    rw [behind_cons, past_of_bracket_none (h t List.mem_cons_self)]
    exact ih fun u hu => h u (List.mem_cons_of_mem _ hu)

theorem onto_opening {k : Kind} {f : Family} (h : k.bracket = some (f, .opening)) (l : Levels) :
    l.onto k = l.shift 1 f := by
  simp [onto, h]

theorem past_opening {k : Kind} {f : Family} (h : k.bracket = some (f, .opening)) (l : Levels) :
    l.past k = l.shift 1 f := by
  simp [past, h]

theorem onto_closing {k : Kind} {f : Family} (h : k.bracket = some (f, .closing)) (l : Levels) :
    l.onto k = l := by
  simp [onto, h]

@[simp] theorem shift_shift (l : Levels) (f : Family) : (l.shift 1 f).shift (-1) f = l := by
  cases f <;> simp only [shift, Int.add_neg_cancel_right]

theorem past_closing {k : Kind} {f : Family} (h : k.bracket = some (f, .closing)) (l : Levels) :
    (l.shift 1 f).past k = l := by
  simp [past, h]

theorem parens_shift (l : Levels) (d : Int) (f : Family) :
    (l.shift d f).parens = if f = .paren then l.parens + d else l.parens := by
  cases f <;> rfl

theorem curly_shift (l : Levels) (d : Int) (f : Family) :
    (l.shift d f).curly = if f = .curly then l.curly + d else l.curly := by
  cases f <;> rfl

theorem square_shift (l : Levels) (d : Int) (f : Family) :
    (l.shift d f).square = if f = .square then l.square + d else l.square := by
  cases f <;> rfl

theorem depth_shift_of_ne (l : Levels) (d : Int) {family other : Family}
    (h : other ≠ family) : (l.shift d other).depth family = l.depth family := by
  cases family <;> cases other <;> first | rfl | exact absurd rfl h

theorem unified_shift_one (l : Levels) (family : Family) :
    (l.shift 1 family).unified = l.unified + 1 := by
  cases family <;> rfl

theorem depth_shift_self (l : Levels) (d : Int) (family : Family) :
    (l.shift d family).depth family = l.depth family + d := by
  cases family <;> rfl

/-- Only the brackets of a family move its depth. -/
theorem depth_past_of_ne {k : Kind} {family : Family}
    (h : ∀ side, k.bracket ≠ some (family, side)) (l : Levels) :
    (l.past k).depth family = l.depth family := by
  unfold past
  split
  · next other hk => exact l.depth_shift_of_ne 1 fun heq => h .opening (heq ▸ hk)
  · next other hk => exact l.depth_shift_of_ne (-1) fun heq => h .closing (heq ▸ hk)
  · rfl

theorem depth_past_closing {k : Kind} {family : Family}
    (h : k.bracket = some (family, .closing)) (l : Levels) :
    (l.past k).depth family = l.depth family - 1 := by
  simp [past, h, depth_shift_self, Int.sub_eq_add_neg]

end Levels

namespace LevelTracker

theorem levels_advance (l : LevelTracker) (k : Kind) :
    (l.advance k).levels = l.settle.levels.onto k := by
  unfold advance Levels.onto
  split <;> next h => simp [h]

theorem settle_due (l : LevelTracker) : l.settle.due = none := by
  unfold settle
  split
  · rfl
  · assumption

theorem settle_advance (l : LevelTracker) (k : Kind) :
    (l.advance k).settle.levels = l.settle.levels.past k := by
  have hd := settle_due l
  simp only [advance]
  generalize l.settle = m at hd
  rcases hk : k.bracket with _ | ⟨family, _ | _⟩ <;> simp [settle, hd, Levels.past, hk]

end LevelTracker

/-- The levels and the open features between two tokens. -/
structure Site where
  levels : Levels
  stack : Stack
deriving Repr, DecidableEq

namespace Site

def start : Site := ⟨.zero, .empty⟩

/-- Take one token, with permission to open a feature. -/
def next (s : Site) (t : Token) : StackStep × Site :=
  let (step, stack) := s.stack.step t (s.levels.onto t.kind) true
  (step, ⟨s.levels.past t.kind, stack⟩)

/-- The site behind some tokens, each with permission to open a feature. -/
def after (s : Site) : List Token → Site
  | [] => s
  | t :: rest => (s.next t).2.after rest

/-- All that was done on the way, token by token. -/
def steps (s : Site) : List Token → List StackStep
  | [] => []
  | t :: rest => (s.next t).1 :: (s.next t).2.steps rest

@[simp] theorem after_nil (s : Site) : s.after [] = s := rfl

@[simp] theorem after_cons (s : Site) (t : Token) (rest : List Token) :
    s.after (t :: rest) = (s.next t).2.after rest := rfl

@[simp] theorem steps_nil (s : Site) : s.steps [] = [] := rfl

@[simp] theorem steps_cons (s : Site) (t : Token) (rest : List Token) :
    s.steps (t :: rest) = (s.next t).1 :: (s.next t).2.steps rest := rfl

theorem after_append (s : Site) (a b : List Token) : s.after (a ++ b) = (s.after a).after b := by
  induction a generalizing s with
  | nil => rfl
  | cons t a ih => exact ih _

theorem steps_append (s : Site) (a b : List Token) :
    s.steps (a ++ b) = s.steps a ++ (s.after a).steps b := by
  induction a generalizing s with
  | nil => rfl
  | cons t a ih => exact congrArg (_ :: ·) (ih _)

end Site

/-- Where a course stands. -/
def Course.site (c : Course) : Site := ⟨c.tracker.settle.levels, c.stack⟩

/-- Only an opening word asks for permission. -/
theorem Stack.step_mayOpen (s : Stack) {t : Token} (l : Levels) {mayOpen : Bool}
    (h : mayOpen = true ∨ Feature.ofOpener t.kind = none) :
    s.step t l mayOpen = s.step t l true := by
  rcases h with rfl | h
  · rfl
  · have hs : s.startCandidate t.kind mayOpen = s.startCandidate t.kind true := by
      rcases s with ⟨builders, _ | c⟩ <;> cases mayOpen <;> simp [startCandidate, h]
    simp only [step, hs]

theorem Course.next_site (c : Course) {t : Token} {mayOpen : Bool}
    (h : mayOpen = true ∨ Feature.ofOpener t.kind = none) :
    (c.next t mayOpen).1 = (c.site.next t).1 ∧
      (c.next t mayOpen).2.site = (c.site.next t).2 := by
  simp only [Course.next, Site.next, Course.site, LevelTracker.levels_advance,
    LevelTracker.settle_advance, c.stack.step_mayOpen _ h]
  exact ⟨trivial, trivial⟩

/-- With permission at every opening word a course does what its site does. -/
theorem Course.steps_eq_site (c : Course) {xs : List (Token × Bool)}
    (h : ∀ x ∈ xs, x.2 = true ∨ Feature.ofOpener x.1.kind = none) :
    c.steps xs = c.site.steps (xs.map Prod.fst) ∧
      (c.after xs).site = c.site.after (xs.map Prod.fst) := by
  induction xs generalizing c with
  | nil => exact ⟨rfl, rfl⟩
  | cons x xs ih =>
    obtain ⟨hstep, hsite⟩ := c.next_site (h x List.mem_cons_self)
    obtain ⟨hsteps, hafter⟩ := ih (c.next x.1 x.2).2 fun y hy => h y (List.mem_cons_of_mem _ hy)
    rw [List.map_cons, Site.steps_cons, Site.after_cons, ← hstep, ← hsite]
    exact ⟨congrArg (_ :: ·) hsteps, hafter⟩

theorem Course.steps_eq_site_of_permitted (c : Course) (ts : List Token) :
    c.steps (ts.map (·, true)) = c.site.steps ts ∧
      (c.after (ts.map (·, true))).site = c.site.after ts := by
  have h := @steps_eq_site c (ts.map (·, true)) fun x hx => by
    obtain ⟨t, -, rfl⟩ := List.mem_map.1 hx
    exact .inl rfl
  rwa [List.map_map, Function.comp_def, List.map_id'] at h

/-! ### What a token does to the stack -/

/-- Opening words are no trivia. -/
theorem Feature.isTrivia_of_ofOpener {t : Token} {f : Feature} (h : ofOpener t.kind = some f) :
    t.isTrivia = false := by
  unfold Token.isTrivia
  rcases hk : t.kind <;> simp_all [ofOpener, Kind.isTrivia]

namespace Stack

/-- A token that opens nothing: it is no opening word, or the feature that it may begin is
refuted at once. -/
def Declines (s : Stack) (l : Levels) (t : Token) : Prop :=
  ∀ f, Feature.ofOpener t.kind = some f → f.verify l s.active? [t] = .no

theorem declines_of_ofOpener {t : Token} (h : Feature.ofOpener t.kind = none) (s : Stack)
    (l : Levels) : s.Declines l t := by
  intro f hf
  simp [h] at hf

/-- A token that opens nothing goes to the innermost builder. An opening word among such
tokens is a candidate that is discarded. -/
theorem step_of_declines {s : Stack} {t : Token} {l : Levels} (hc : s.candidate = none)
    (h : s.Declines l t) :
    s.step t l true = ({ (s.feedActive t l).1 with
      discarded := (Feature.ofOpener t.kind).map fun _ => .rejected }, (s.feedActive t l).2) := by
  obtain ⟨builders, candidate⟩ := s
  obtain rfl : candidate = none := hc
  rcases ho : Feature.ofOpener t.kind with _ | f
  · have ht : (⟨builders, none⟩ : Stack).tryCandidate t l = (.nothing, ⟨builders, none⟩) := rfl
    simp only [step, startCandidate, ho, Option.map_none, Option.isNone_none, Bool.and_self,
      if_true, ht, StackStep.nothing, Option.isSome_none, Bool.false_eq_true, if_false,
      List.nil_append]
  · have htrivia := Feature.isTrivia_of_ofOpener ho
    have hno : f.verify l (⟨builders, none⟩ : Stack).active? [t] = .no := h f ho
    simp only [step, startCandidate, ho, Option.map_some, Option.isNone_none, Bool.and_self,
      if_true, tryCandidate, htrivia, Bool.false_eq_true, if_false, extendCandidate,
      List.nil_append, hno, StackStep.nothing, Option.isSome_none]

/-- A feature that its opening word alone verifies is opened, if there is room for it. -/
theorem step_of_yes {s : Stack} {t : Token} {l : Levels} {f : Feature} (hc : s.candidate = none)
    (ho : Feature.ofOpener t.kind = some f) (hyes : f.verify l s.active? [t] = .yes)
    (hroom : s.depth < Limits.nesting) :
    (s.step t l true).1.events = [] ∧ (s.step t l true).1.products = [] ∧
      (s.step t l true).2 = ⟨f.start (some t) :: s.builders, none⟩ := by
  have ht := Feature.isTrivia_of_ofOpener ho
  obtain ⟨builders, candidate⟩ := s
  obtain rfl : candidate = none := hc
  have hyes' : f.verify l (⟨builders, none⟩ : Stack).active? [t] = .yes := hyes
  have hroom' : ¬Limits.nesting ≤ (⟨builders, none⟩ : Stack).depth := Nat.not_le.2 hroom
  simp only [step, startCandidate, ho, Option.map_some, Option.isNone_none, Bool.and_self,
    if_true, tryCandidate, ht, Bool.false_eq_true, if_false, extendCandidate, List.nil_append,
    hyes', openBuilder, hroom', Option.isSome_some]
  exact ⟨rfl, rfl, rfl⟩

/-- If there is no room for a feature its opening word goes to the innermost builder. -/
theorem step_of_full {s : Stack} {t : Token} {l : Levels} {f : Feature} (hc : s.candidate = none)
    (ho : Feature.ofOpener t.kind = some f) (hyes : f.verify l s.active? [t] = .yes)
    (hfull : Limits.nesting ≤ s.depth) :
    (s.step t l true).1.events = (s.feedActive t l).1.events ∧
      (s.step t l true).1.products = (s.feedActive t l).1.products ∧
      (s.step t l true).2 = (s.feedActive t l).2 := by
  have ht := Feature.isTrivia_of_ofOpener ho
  obtain ⟨builders, candidate⟩ := s
  obtain rfl : candidate = none := hc
  have hyes' : f.verify l (⟨builders, none⟩ : Stack).active? [t] = .yes := hyes
  have hfull' : Limits.nesting ≤ (⟨builders, none⟩ : Stack).depth := hfull
  simp only [step, startCandidate, ho, Option.map_some, Option.isNone_none, Bool.and_self,
    if_true, tryCandidate, ht, Bool.false_eq_true, if_false, extendCandidate, List.nil_append,
    hyes', openBuilder, hfull', StackStep.nothing, Option.isSome_none]
  exact ⟨trivial, trivial, trivial⟩

/-- A feature that more tokens must verify is waited for. -/
theorem step_of_unknown {t : Token} {l : Levels} {f : Feature}
    (ho : Feature.ofOpener t.kind = some f) (hunknown : f.verify l none [t] = .unknown) :
    (⟨[], none⟩ : Stack).step t l true = (.nothing, ⟨[], some ⟨f, [t]⟩⟩) := by
  have ht := Feature.isTrivia_of_ofOpener ho
  have hlimit : ¬Limits.candidateTokens ≤ 1 := by decide
  simp only [step, startCandidate, ho, Option.map_some, Option.isNone_none, Bool.and_self,
    if_true, tryCandidate, ht, Bool.false_eq_true, if_false, extendCandidate, List.nil_append,
    active?, List.head?_nil, hunknown, List.length_singleton, hlimit, StackStep.nothing,
    Option.isSome_none, feedActive]

/-- Trivia does not count for a feature that is waited for. -/
theorem step_waiting_trivia {t : Token} (l : Levels) (c : Candidate) (mayOpen : Bool)
    (ht : t.isTrivia = true) :
    (⟨[], some c⟩ : Stack).step t l mayOpen = (.nothing, ⟨[], some c⟩) := by
  simp [step, startCandidate, tryCandidate, ht, StackStep.nothing, feedActive]

/-- A feature that is waited for and refuted leaves nothing behind. -/
theorem step_waiting_no {t : Token} {l : Levels} {c : Candidate} (mayOpen : Bool)
    (ht : t.isTrivia = false) (hno : c.feature.verify l none (c.buffer ++ [t]) = .no) :
    (⟨[], some c⟩ : Stack).step t l mayOpen =
      ({ StackStep.nothing with discarded := some .rejected }, ⟨[], none⟩) := by
  simp [step, startCandidate, tryCandidate, ht, extendCandidate, active?, hno, StackStep.nothing,
    feedActive]

/-- A feature that is waited for and verified is opened with the tokens that it waited
for. -/
theorem step_waiting_open {t : Token} {l : Levels} {c : Candidate} (mayOpen : Bool)
    (ht : t.isTrivia = false)
    (hyes : c.feature.verify l none (c.buffer ++ [t]) = .yes) :
    (⟨[], some c⟩ : Stack).step t l mayOpen =
      (⟨[], none⟩ : Stack).openBuilder ⟨c.feature, c.buffer ++ [t]⟩ l := by
  have hroom : ¬Limits.nesting ≤ (⟨[], none⟩ : Stack).depth := by decide
  simp only [step, startCandidate, Option.isNone_some, Bool.false_and, Bool.false_eq_true,
    if_false, tryCandidate, ht, extendCandidate, active?, List.head?_nil, hyes, openBuilder,
    hroom, Option.isSome_some, if_true]

/-- A feature that is waited for and verified is opened with what its builder makes of the
tokens behind the opening word. -/
theorem step_waiting_yes {t : Token} {l : Levels} {c : Candidate} {f : Feed} {b : Builder}
    (mayOpen : Bool) (ht : t.isTrivia = false)
    (hyes : c.feature.verify l none (c.buffer ++ [t]) = .yes)
    (hcreate : c.feature.create l (c.buffer ++ [t]) = (f, b)) (hdone : f.done = false) :
    ((⟨[], some c⟩ : Stack).step t l mayOpen).1.opened = some c.feature ∧
      ((⟨[], some c⟩ : Stack).step t l mayOpen).1.events = f.events ∧
      ((⟨[], some c⟩ : Stack).step t l mayOpen).1.products = [] ∧
      ((⟨[], some c⟩ : Stack).step t l mayOpen).2 = ⟨[b], none⟩ := by
  have hroom : ¬Limits.nesting ≤ (⟨[], none⟩ : Stack).depth := by decide
  rw [step_waiting_open mayOpen ht hyes]
  simp only [openBuilder, hroom, if_false, hcreate, settle, hdone, Bool.false_eq_true]
  exact ⟨trivial, trivial, trivial, trivial⟩

end Stack

/-! ### What a token does at a site -/

/-- With the token `t` the site `s` moves on to `d`; this is the news and these are the
products on the way. -/
structure Site.Moves (s : Site) (t : Token) (news : List BuildEvent) (products : List Product)
    (d : Site) : Prop where
  events : (s.next t).1.events = news
  products : (s.next t).1.products = products
  site : (s.next t).2 = d

namespace Site

/-- What a token that opens nothing does is up to the innermost builder. -/
theorem moves_of_declines {l : Levels} {t : Token} {builders : List Builder}
    (h : (⟨builders, none⟩ : Stack).Declines (l.onto t.kind) t) :
    Moves ⟨l, ⟨builders, none⟩⟩ t
      ((⟨builders, none⟩ : Stack).feedActive t (l.onto t.kind)).1.events
      ((⟨builders, none⟩ : Stack).feedActive t (l.onto t.kind)).1.products
      ⟨l.past t.kind, ((⟨builders, none⟩ : Stack).feedActive t (l.onto t.kind)).2⟩ := by
  have hstep := Stack.step_of_declines rfl h
  constructor <;> simp only [next, hstep]

/-- Without open features a token that opens nothing does nothing. -/
theorem next_idle {l : Levels} {t : Token}
    (h : (⟨[], none⟩ : Stack).Declines (l.onto t.kind) t) :
    Moves ⟨l, ⟨[], none⟩⟩ t [] [] ⟨l.past t.kind, ⟨[], none⟩⟩ := moves_of_declines h

/-- A feature that its opening word alone verifies is open behind the word. -/
theorem next_yes {l : Levels} {t : Token} {builders : List Builder} {f : Feature}
    (ho : Feature.ofOpener t.kind = some f)
    (hyes : f.verify (l.onto t.kind) builders.head? [t] = .yes)
    (hroom : builders.length < Limits.nesting) :
    Moves ⟨l, ⟨builders, none⟩⟩ t [] []
      ⟨l.past t.kind, ⟨f.start (some t) :: builders, none⟩⟩ := by
  obtain ⟨hevents, hproducts, hstack⟩ :=
    Stack.step_of_yes (s := ⟨builders, none⟩) rfl ho hyes hroom
  exact ⟨hevents, hproducts, congrArg (Site.mk _) hstack⟩

/-- A builder that is not done stays on top. -/
theorem next_fed {l : Levels} {t : Token} {b b' : Builder} {below : List Builder} {f : Feed}
    (h : (⟨b :: below, none⟩ : Stack).Declines (l.onto t.kind) t)
    (hfeed : b.feed t (l.onto t.kind) = (f, b')) (hdone : f.done = false) :
    Moves ⟨l, ⟨b :: below, none⟩⟩ t f.events [] ⟨l.past t.kind, ⟨b' :: below, none⟩⟩ := by
  have hmoves := moves_of_declines h
  simp only [Stack.feedActive, hfeed, Stack.settle, hdone, Bool.false_eq_true, if_false] at hmoves
  exact hmoves

/-- A builder that is done leaves its product. -/
theorem next_done {l : Levels} {t : Token} {b b' : Builder} {below : List Builder} {f : Feed}
    {p : Product} (h : (⟨b :: below, none⟩ : Stack).Declines (l.onto t.kind) t)
    (hfeed : b.feed t (l.onto t.kind) = (f, b')) (hdone : f.done = true)
    (hp : b'.product? = some p) :
    Moves ⟨l, ⟨b :: below, none⟩⟩ t f.events [p] ⟨l.past t.kind, ⟨below, none⟩⟩ := by
  have hmoves := moves_of_declines h
  simp only [Stack.feedActive, hfeed, Stack.settle, hdone, if_true, hp] at hmoves
  exact hmoves

/-- A feature that would be opened if there were room is passed over by a builder that takes
no notice of its opening word. -/
theorem next_full {l : Levels} {t : Token} {b b' : Builder} {below : List Builder} {f : Feature}
    {hint : Option Hint} (ho : Feature.ofOpener t.kind = some f)
    (hyes : f.verify (l.onto t.kind) (some b) [t] = .yes)
    (hfull : Limits.nesting ≤ (b :: below).length)
    (hfeed : b.feed t (l.onto t.kind) = (⟨false, hint, []⟩, b')) :
    Moves ⟨l, ⟨b :: below, none⟩⟩ t [] [] ⟨l.past t.kind, ⟨b' :: below, none⟩⟩ := by
  obtain ⟨hevents, hproducts, hstack⟩ :=
    Stack.step_of_full (s := ⟨b :: below, none⟩) rfl ho hyes hfull
  simp only [Stack.feedActive, hfeed, Stack.settle, Bool.false_eq_true, if_false]
    at hevents hproducts hstack
  exact ⟨hevents, hproducts, congrArg (Site.mk _) hstack⟩

/-- From `s` the tokens are taken up to `d` without news and without products. -/
inductive Quiet : Site → List Token → Site → Prop
  | nil (s : Site) : Quiet s [] s
  | step {s d e : Site} {t : Token} {rest : List Token} (h : s.Moves t [] [] d)
      (hrest : Quiet d rest e) : Quiet s (t :: rest) e

theorem Quiet.append {s d e : Site} {as bs : List Token} (ha : Quiet s as d)
    (hb : Quiet d bs e) : Quiet s (as ++ bs) e := by
  induction ha with
  | nil => exact hb
  | step h _ ih => exact .step h (ih hb)

theorem Quiet.single {s d : Site} {t : Token} (h : s.Moves t [] [] d) : Quiet s [t] d :=
  .step h (.nil d)

/-- From `s` the tokens are taken up to `d` without news, each with its products. -/
inductive Yields : Site → List (Token × List Product) → Site → Prop
  | nil (s : Site) : Yields s [] s
  | step {s d e : Site} {t : Token} {products : List Product}
      {rest : List (Token × List Product)} (h : s.Moves t [] products d)
      (hrest : Yields d rest e) : Yields s ((t, products) :: rest) e

theorem Yields.append {s d e : Site} {as bs : List (Token × List Product)} (ha : Yields s as d)
    (hb : Yields d bs e) : Yields s (as ++ bs) e := by
  induction ha with
  | nil => exact hb
  | step h _ ih => exact .step h (ih hb)

theorem Quiet.yields {s d : Site} {ts : List Token} (h : Quiet s ts d) :
    Yields s (ts.map (·, [])) d := by
  induction h with
  | nil => exact .nil _
  | step h _ ih => exact .step h ih

theorem Yields.products {s d : Site} {xs : List (Token × List Product)} (h : Yields s xs d) :
    (s.steps (xs.map Prod.fst)).map (·.products) = xs.map Prod.snd ∧
      s.after (xs.map Prod.fst) = d := by
  induction h with
  | nil => exact ⟨rfl, rfl⟩
  | step h _ ih => simp [h.products, h.site, ih]

end Site

/-- A course yields what the sites on its way do. -/
theorem Course.products_of_yields {c : Course} {d : Site} {xs : List (Token × List Product)}
    (h : Site.Yields c.site xs d) {ts : List Token} (hts : xs.map Prod.fst = ts) :
    (c.steps (ts.map (·, true))).map (·.products) = xs.map Prod.snd ∧
      (c.after (ts.map (·, true))).site = d := by
  obtain ⟨hsteps, hafter⟩ := c.steps_eq_site_of_permitted ts
  rw [hsteps, hafter, ← hts]
  exact h.products

end TokenAtlas
