import TokenAtlas.Proofs.Feature.Site

/-! How a namespace declaration begins. The opening word waits for the next token that is no
trivia. Main statement: outside every block and every other feature the declaration is
opened by a name and by nothing else. So the block of the global namespace, which has no
name, is never recognized: its curly bracket is counted before the feature is verified, and
the declaration then seems to stand in a block. -/

namespace TokenAtlas

namespace Kind

theorem bracket_of_isTrivia {k : Kind} (h : k.isTrivia = true) : k.bracket = none := by
  cases k <;> simp_all [isTrivia, bracket]

theorem bracket_of_isName {k : Kind} (h : k.isName = true) : k.bracket = none := by
  cases k <;> simp_all [isName, isNameSegment, bracket]

theorem isTrivia_of_isName {k : Kind} (h : k.isName = true) : k.isTrivia = false := by
  cases k <;> simp_all [isName, isNameSegment, isTrivia]

theorem ofOpener_of_isName {k : Kind} (h : k.isName = true) : Feature.ofOpener k = none := by
  cases k <;> first | rfl | exact absurd h nofun

theorem ofOpener_of_isTrivia {k : Kind} (h : k.isTrivia = true) : Feature.ofOpener k = none := by
  cases k <;> simp_all [isTrivia, Feature.ofOpener]

end Kind

namespace NamespaceBuilder

/-- The parts of a name are put together. -/
theorem feed_name {b : NamespaceBuilder} {t : Token} (l : Levels)
    (hb : b.phase = .fresh ∨ b.phase = .naming)
    (ht : t.kind.isName = true ∨ t.kind = .separator) :
    ∃ hint, b.feed t l = (⟨false, hint, []⟩, b.addName t.text) := by
  have htrivia : t.isTrivia = false := by
    rcases ht with ht | ht
    · exact Kind.isTrivia_of_isName ht
    · rw [Token.isTrivia, ht]
      rfl
  have hname : ∃ hint, b.feedName t l = (⟨false, hint, []⟩, b.addName t.text) := by
    rcases ht with ht | ht
    · refine ⟨some (.name none), ?_⟩
      unfold feedName
      split
      · next h => simp [h, Kind.isName, Kind.isNameSegment] at ht
      · next h => simp [h, Kind.isName, Kind.isNameSegment] at ht
      · next h => simp [h, Kind.isName, Kind.isNameSegment] at ht
      · rw [if_pos ht]
        rfl
    · exact ⟨none, by simp [feedName, ht, Feed.quiet]⟩
  obtain ⟨hint, hname⟩ := hname
  refine ⟨hint, ?_⟩
  rcases hb with hb | hb <;> simp [feed, htrivia, hb, hname]

end NamespaceBuilder

namespace Feature

theorem create_namespace {t : Token} (l : Levels) (w : Token) (ht : t.kind.isName = true) :
    ∃ hint, create .namespaceDeclaration l [w, t] =
      (⟨false, hint, []⟩, .namespaceDeclaration (NamespaceBuilder.fresh.addName t.text)) := by
  obtain ⟨hint, hfeed⟩ := NamespaceBuilder.feed_name (b := .fresh) l (.inl rfl) (.inl ht)
  exact ⟨hint, by simp [create, start, replay, Builder.feed, hfeed]⟩

/-- The token behind the word decides, and only a name is for the declaration. -/
theorem verifyNamespace_pair {l : Levels} (hl : l.curly = 0) (w t : Token) :
    verifyNamespace (l.onto t.kind) none [w, t] = if t.kind.isName then .yes else .no := by
  by_cases hn : t.kind.isName = true
  · rw [l.onto_of_bracket_none (Kind.bracket_of_isName hn)]
    simp [verifyNamespace, hl, hn]
  · by_cases ho : t.kind = .openCurly
    · -- the bracket itself is counted already
      simp [verifyNamespace, ho, Levels.onto, Kind.bracket, Levels.curly_shift, hl, Kind.isName,
        Kind.isNameSegment]
    · simp only [verifyNamespace, hn, ho]
      simp

end Feature

namespace Course

/-- A course outside every block and every feature. -/
structure Outside (c : Course) : Prop where
  stack : c.stack = .empty
  curly : c.tracker.settle.levels.curly = 0

/-- While a feature is waited for, trivia changes nothing. -/
theorem waits_over_trivia {c : Course} {candidate : Candidate}
    (h : c.stack = ⟨[], some candidate⟩) {blanks : List (Token × Bool)}
    (hb : ∀ x ∈ blanks, x.1.isTrivia = true) :
    (∀ step ∈ c.steps blanks, step = .nothing) ∧ (c.after blanks).stack = c.stack ∧
      (c.after blanks).tracker.settle.levels = c.tracker.settle.levels := by
  induction blanks generalizing c with
  | nil => simp
  | cons x blanks ih =>
    have hx : x.1.isTrivia = true := hb x List.mem_cons_self
    have hnext : c.next x.1 x.2 = (.nothing, ⟨c.tracker.advance x.1.kind, c.stack⟩) := by
      simp only [next, h, Stack.step_waiting_trivia _ _ _ hx]
    obtain ⟨hsteps, hstack, hlevels⟩ :=
      ih (c := ⟨c.tracker.advance x.1.kind, c.stack⟩) h fun y hy => hb y (List.mem_cons_of_mem _ hy)
    rw [steps_cons, after_cons, hnext]
    refine ⟨by simpa using hsteps, hstack, hlevels.trans ?_⟩
    rw [LevelTracker.settle_advance, Levels.past_of_bracket_none (Kind.bracket_of_isTrivia hx)]

/-- The opening word is waited on, also over trivia. -/
theorem waits_behind_namespaceWord {c : Course} (h : c.Outside) {w : Token}
    (hw : w.kind = .namespaceWord) {blanks : List (Token × Bool)}
    (hb : ∀ x ∈ blanks, x.1.isTrivia = true) :
    (∀ step ∈ c.steps ((w, true) :: blanks), step = .nothing) ∧
      (c.after ((w, true) :: blanks)).stack = ⟨[], some ⟨.namespaceDeclaration, [w]⟩⟩ ∧
      (c.after ((w, true) :: blanks)).tracker.settle.levels = c.tracker.settle.levels := by
  have hbracket : w.kind.bracket = none := by rw [hw]; rfl
  have hnext : c.next w true = (.nothing,
      ⟨c.tracker.advance w.kind, ⟨[], some ⟨.namespaceDeclaration, [w]⟩⟩⟩) := by
    have hstep : c.stack.step w (c.tracker.advance w.kind).levels true =
        (.nothing, ⟨[], some ⟨.namespaceDeclaration, [w]⟩⟩) := by
      rw [h.stack]
      refine Stack.step_of_unknown (by rw [hw]; rfl) ?_
      rw [LevelTracker.levels_advance, Levels.onto_of_bracket_none hbracket]
      simp [Feature.verify, Feature.verifyNamespace, h.curly]
    simp only [next, hstep]
  obtain ⟨hsteps, hstack, hlevels⟩ := waits_over_trivia
    (c := ⟨c.tracker.advance w.kind, ⟨[], some ⟨.namespaceDeclaration, [w]⟩⟩⟩) rfl hb
  rw [steps_cons, after_cons, hnext]
  refine ⟨by simpa using hsteps, hstack, hlevels.trans ?_⟩
  rw [LevelTracker.settle_advance, Levels.past_of_bracket_none hbracket]

/-- Behind the word and any trivia a name opens the declaration. Any other token, the curly
bracket of a block without a name among them, is rejected: no feature is open then and
nothing became known, so that no import is discarded and no block is there to be closed. -/
theorem namespace_opens_iff_named {c : Course} (h : c.Outside) {w : Token}
    (hw : w.kind = .namespaceWord) {blanks : List (Token × Bool)}
    (hb : ∀ x ∈ blanks, x.1.isTrivia = true) {t : Token} (ht : t.isTrivia = false)
    (mayOpen : Bool) :
    (∀ step ∈ c.steps ((w, true) :: blanks), step = .nothing) ∧
    (((c.after ((w, true) :: blanks)).next t mayOpen).1.opened = some .namespaceDeclaration ↔
      t.kind.isName = true) ∧
    (t.kind.isName = false →
      ((c.after ((w, true) :: blanks)).next t mayOpen).1 =
        { StackStep.nothing with discarded := some .rejected } ∧
      ((c.after ((w, true) :: blanks)).next t mayOpen).2.stack = .empty) := by
  obtain ⟨hsteps, hstack, hlevels⟩ := waits_behind_namespaceWord h hw hb
  have hverify := Feature.verifyNamespace_pair h.curly w t
  rw [← hlevels, ← LevelTracker.levels_advance] at hverify
  generalize c.after ((w, true) :: blanks) = d at hstack hverify ⊢
  refine ⟨hsteps, ?_⟩
  simp only [next, hstack]
  by_cases hn : t.kind.isName = true
  · rw [if_pos hn] at hverify
    obtain ⟨hint, hcreate⟩ := Feature.create_namespace (d.tracker.advance t.kind).levels w hn
    obtain ⟨hopened, -⟩ := Stack.step_waiting_yes (c := ⟨.namespaceDeclaration, [w]⟩) mayOpen ht
      hverify hcreate rfl
    simp [hopened, hn]
  · rw [if_neg hn] at hverify
    rw [Stack.step_waiting_no (c := ⟨.namespaceDeclaration, [w]⟩) mayOpen ht hverify]
    simp [hn, StackStep.nothing, Stack.empty]

/-- A blank between the word and the bracket makes no difference. -/
theorem namespace_opens_iff_named_bracket :
    (start.steps [(⟨.namespaceWord, "namespace", 1, 0⟩, true), (⟨.whitespace, " ", 1, 9⟩, true)]
      = [.nothing, .nothing]) ∧
    ((start.after [(⟨.namespaceWord, "namespace", 1, 0⟩, true),
        (⟨.whitespace, " ", 1, 9⟩, true)]).next ⟨.openCurly, "\x7b", 1, 10⟩ true).1 =
      { StackStep.nothing with discarded := some .rejected } := by
  have h := @namespace_opens_iff_named start ⟨rfl, rfl⟩ ⟨.namespaceWord, "namespace", 1, 0⟩ rfl
    [(⟨.whitespace, " ", 1, 9⟩, true)] (by decide) ⟨.openCurly, "\x7b", 1, 10⟩ rfl true
  exact ⟨by decide, (h.2.2 rfl).1⟩

/-- On the whole block of a global namespace nothing opens, nothing becomes known and
nothing is finished. -/
theorem unnamed_block_unrecognized :
    (start.steps ([⟨.namespaceWord, "namespace", 1, 0⟩, ⟨.whitespace, " ", 1, 9⟩,
        ⟨.openCurly, "\x7b", 1, 10⟩, ⟨.closeCurly, "\x7d", 1, 11⟩].map (·, true))).map
      (fun step => (step.opened, step.events, step.products)) =
      [(none, [], []), (none, [], []), (none, [], []), (none, [], [])] := by
  decide

end Course

end TokenAtlas
