import TokenAtlas.Feature.Stack

/-! The end of a feature. Main statement: a builder that has not finished says that it is done
exactly when it finishes, so the builder that leaves the stack always leaves its product. -/

namespace TokenAtlas

namespace NamespaceBuilder

theorem finished_feed_iff {b : NamespaceBuilder} (hb : b.progress ≠ .finished) (t : Token)
    (l : Levels) : (b.feed t l).2.progress = .finished ↔ (b.feed t l).1.done = true := by
  obtain ⟨phase, declaration⟩ := b
  unfold feed
  split
  · simpa [Feed.quiet] using hb
  · cases phase with
    | fresh | naming =>
      simp only [feedName]
      split
      case h_4 => split <;> simp [progress, addName, Feed.quiet, Feed.hinted]
      all_goals simp [progress, addName, named, Feed.withEvent, Feed.quiet, Feed.finished]
    | inBody depth opener =>
      simp only [feedBody]
      split <;> simp [progress, Feed.quiet, Feed.finished]
    | finished => exact absurd rfl hb

end NamespaceBuilder

namespace ImportBuilder

@[simp] theorem progress_closeEntry (b : ImportBuilder) : b.closeEntry.progress = b.progress := by
  simp only [closeEntry]
  split <;> rfl

@[simp] theorem progress_setKind (b : ImportBuilder) (k : SymbolKind) :
    (b.setKind k).progress = b.progress := by
  unfold setKind
  split
  · rfl
  · split <;> rfl

theorem finished_feed_iff {b : ImportBuilder} (hb : b.progress ≠ .finished) (t : Token) :
    (b.feed t).2.progress = .finished ↔ (b.feed t).1.done = true := by
  unfold feed
  split
  · simpa [Feed.quiet] using hb
  · simp only [feedWord]
    split
    case h_5 | h_7 => split <;> simp [openGroup, Feed.quiet]
    case h_9 =>
      split
      · simp [Feed.hinted]
      · split <;> simp [addName, Feed.hinted, Feed.quiet]
    all_goals simp [addName, Feed.quiet, Feed.finished]

end ImportBuilder

namespace SignatureBuilder

theorem finished_iff (b : SignatureBuilder) : b.progress = .finished ↔ b.phase = .finished := by
  unfold progress
  split
  · next h => simp [h]
  · next h => split <;> simp [h]

theorem phase_feedList_ne (b : SignatureBuilder) (parens unified : Int) (d : ParameterDraft)
    (t : Token) (l : Levels) : (b.feedList parens unified d t l).phase ≠ .finished := by
  unfold feedList
  split
  · simp
  · split
    · split <;> simp
    · simp only [feedParameter]
      split
      case h_7 | h_8 => split <;> simp
      all_goals simp

theorem phase_feedParameters_ne (b : SignatureBuilder) (parens unified : Int)
    (d : ParameterDraft) (t : Token) (l : Levels) :
    (b.feedParameters parens unified d t l).phase ≠ .finished := by
  unfold feedParameters
  simp only
  split
  · split <;> simp
  · split
    · simp
    · split
      · simp
      · split
        · simp
        · exact phase_feedList_ne _ _ _ _ _ _

theorem finished_feed_iff {b : SignatureBuilder} (hb : b.progress ≠ .finished) (t : Token)
    (l : Levels) : (b.feed t l).2.progress = .finished ↔ (b.feed t l).1.done = true := by
  rw [Ne, finished_iff] at hb
  rw [finished_iff]
  obtain ⟨fed, phase, signature⟩ := b
  cases phase with
  | opening =>
    simp only [feed, feedOpening]
    split
    case h_3 => split <;> simp [Feed.quiet, Feed.hinted]
    all_goals simp [Feed.quiet]
  | parameters parens unified d =>
    simpa [feed, Feed.quiet] using phase_feedParameters_ne _ parens unified d t l
  | behind inReturn type =>
    simp only [feed, feedBehind]
    split
    case h_5 =>
      split
      · split
        case h_3 => split <;> simp [Feed.quiet]
        all_goals simp [Feed.quiet]
      · simp [Feed.quiet]
    all_goals simp [close, Feed.quiet, Feed.finished]
  | inBody depth opener =>
    simp only [feed, feedBody]
    split <;> simp [close, Feed.quiet, Feed.finished]
  | finished => exact absurd rfl hb

end SignatureBuilder

/-! ### Builders of all features -/

namespace Builder

theorem finished_feed_iff {b : Builder} (hb : b.progress ≠ .finished) (t : Token) (l : Levels) :
    (b.feed t l).2.progress = .finished ↔ (b.feed t l).1.done = true := by
  cases b with
  | namespaceDeclaration b => exact NamespaceBuilder.finished_feed_iff hb t l
  | namespaceImport b => exact ImportBuilder.finished_feed_iff hb t
  | functionSignature b => exact SignatureBuilder.finished_feed_iff hb t l

@[simp] theorem feature_feed (b : Builder) (t : Token) (l : Levels) :
    (b.feed t l).2.feature = b.feature := by
  cases b <;> rfl

end Builder

namespace Feature

theorem progress_start (f : Feature) (opener : Option Token) :
    (f.start opener).progress = .pending := by
  cases f <;> rfl

theorem feature_start (f : Feature) (opener : Option Token) :
    (f.start opener).feature = f := by
  cases f <;> rfl

theorem finished_replay_iff {b : Builder} {last : Feed} (hb : b.progress ≠ .finished)
    (hlast : last.done = false) (news : List BuildEvent) (l : Levels) (ts : List Token) :
    (replay b news last l ts).2.progress = .finished ↔
      (replay b news last l ts).1.done = true := by
  induction ts generalizing b last news with
  | nil => simpa [replay, hlast] using hb
  | cons t ts ih =>
    have hfed := Builder.finished_feed_iff hb t l
    rcases hfeed : b.feed t l with ⟨f, c⟩
    rw [hfeed] at hfed
    simp only [replay, hfeed]
    split
    · exact hfed
    · next hdone => exact ih (mt hfed.1 hdone) (Bool.eq_false_iff.2 hdone) _

theorem feature_replay (b : Builder) (news : List BuildEvent) (last : Feed) (l : Levels)
    (ts : List Token) : (replay b news last l ts).2.feature = b.feature := by
  induction ts generalizing b news last with
  | nil => rfl
  | cons t ts ih =>
    have hfed := b.feature_feed t l
    rcases hfeed : b.feed t l with ⟨f, c⟩
    rw [hfeed] at hfed
    simp only [replay, hfeed]
    split
    · exact hfed
    · rw [ih, hfed]

/-- A builder that is created from buffered tokens is done exactly if they complete it. -/
theorem finished_create_iff (f : Feature) (l : Levels) (buffer : List Token) :
    (f.create l buffer).2.progress = .finished ↔ (f.create l buffer).1.done = true :=
  finished_replay_iff (by simp [progress_start]) rfl [] l _

theorem feature_create (f : Feature) (l : Levels) (buffer : List Token) :
    (f.create l buffer).2.feature = f := by
  rw [create, feature_replay, feature_start]

end Feature

/-! ### Leaving the stack -/

namespace Stack

/-- A builder that has finished leaves the stack with its product, another one stays. -/
theorem settle_cases {f : Feed} {b : Builder} (h : b.progress = .finished ↔ f.done = true)
    (below : List Builder) :
    (b.progress = .finished ∧
      settle below f b = (below, [b.snapshot], [.builderFinished b.feature below.length])) ∨
    (b.progress ≠ .finished ∧ settle below f b = (b :: below, [], [])) := by
  by_cases hb : b.progress = .finished
  · exact .inl ⟨hb, by simp [settle, h.1 hb, Builder.product?, hb]⟩
  · have hdone : ¬f.done = true := fun hf => hb (h.2 hf)
    exact .inr ⟨hb, by simp [settle, hdone]⟩

end Stack

end TokenAtlas
