import TokenAtlas.Feature.Builder

/-! What builders answer to a token. Main statements: only a namespace declaration has news,
and only a name or a reserved word gets a hint. -/

namespace TokenAtlas

/-- An answer without news: nothing, the end of the feature, or a hint for a name or a
reserved word. -/
inductive Feed.IsPlain (k : Kind) : Feed → Prop
  | quiet : IsPlain k .quiet
  | finished : IsPlain k .finished
  | hinted (h : Hint) (hk : k.isName = true ∨ k.isKeyword = true) : IsPlain k (.hinted h)

namespace Feed.IsPlain

variable {k : Kind} {f : Feed}

theorem events (h : IsPlain k f) : f.events = [] := by
  cases h <;> rfl

theorem hint (h : IsPlain k f) (hname : k.isName = false) (hkeyword : k.isKeyword = false) :
    f.hint = none := by
  cases h with
  | quiet => rfl
  | finished => rfl
  | hinted h hk => simp [hname, hkeyword] at hk

end Feed.IsPlain

theorem ImportBuilder.isPlain_feed (b : ImportBuilder) (t : Token) :
    (b.feed t).1.IsPlain t.kind := by
  unfold feed
  split
  · exact .quiet
  · unfold feedWord
    split
    case h_8 => exact .finished
    case h_9 =>
      split
      · next h =>
        simp only [Bool.and_eq_true, decide_eq_true_eq] at h
        exact .hinted _ (.inl (by simp [Kind.isName, h.1]))
      · split
        · next h => exact .hinted _ (.inl h)
        · exact .quiet
    all_goals exact .quiet

theorem SignatureBuilder.isPlain_feed (b : SignatureBuilder) (t : Token) (l : Levels) :
    (b.feed t l).1.IsPlain t.kind := by
  obtain ⟨fed, phase, signature⟩ := b
  cases phase with
  | opening =>
    simp only [feed, feedOpening]
    split
    case h_3 =>
      split
      · next h =>
        simp only [Bool.and_eq_true, Bool.or_eq_true, decide_eq_true_eq] at h
        exact .hinted _ (h.2.imp_left fun hk => by simp [Kind.isName, hk])
      · exact .quiet
    all_goals exact .quiet
  | parameters parens unified d => exact .quiet
  | behind inReturn type =>
    simp only [feed, feedBehind]
    split
    case h_1 | h_2 => exact .finished
    case h_5 =>
      split
      · split <;> exact .quiet
      · exact .quiet
    all_goals exact .quiet
  | inBody depth opener =>
    simp only [feed, feedBody]
    split
    · exact .finished
    · exact .quiet
  | finished => exact .quiet

theorem NamespaceBuilder.hint_feed (b : NamespaceBuilder) {t : Token} (h : t.kind.isName = false)
    (l : Levels) : (b.feed t l).1.hint = none := by
  obtain ⟨phase, declaration⟩ := b
  unfold feed
  split
  · rfl
  · cases phase with
    | fresh | naming =>
      simp only [feedName]
      split
      case h_4 =>
        rw [h]
        rfl
      all_goals rfl
    | inBody depth opener =>
      simp only [feedBody]
      split <;> rfl
    | finished => rfl

/-- Only a name or a reserved word gets a hint. -/
theorem Builder.hint_feed (b : Builder) {t : Token} (hname : t.kind.isName = false)
    (hkeyword : t.kind.isKeyword = false) (l : Levels) : (b.feed t l).1.hint = none := by
  cases b with
  | namespaceDeclaration n => exact n.hint_feed hname l
  | namespaceImport i => exact (i.isPlain_feed t).hint hname hkeyword
  | functionSignature f => exact (f.isPlain_feed t l).hint hname hkeyword

end TokenAtlas
