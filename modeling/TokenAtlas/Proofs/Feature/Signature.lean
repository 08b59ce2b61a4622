import TokenAtlas.Feature.Builder

/-! The course of a signature builder. Each lemma says where the builder stands behind a
token: before the parameter list, in it, behind it, or in the body. In the list the closing
bracket counts only outside attributes, so that the draft's attribute has to be followed. -/

namespace TokenAtlas

namespace Kind

/-- Kinds of tokens that may stand between the word that opens a signature and its
parameter list. -/
def isHeaderPart (k : Kind) : Bool :=
  k.bracket.isNone && (Feature.ofOpener k).isNone && !k.isCast

/-- Kinds of tokens that may stand in a parameter list. -/
def isListPart (k : Kind) : Bool := (Feature.ofOpener k).isNone

/-- Kinds of tokens that may stand between the parameter list and the end of a signature. -/
def isBehindPart : Kind → Bool
  | .namespaceWord | .functionWord | .fnWord | .doubleArrow | .semicolon | .openCurly
  | .curlyDollar | .dollarCurly | .closeCurly => false
  | _ => true

/-- Kinds of tokens that begin no feature in a signature. -/
def isSignaturePart : Kind → Bool
  | .namespaceWord | .functionWord | .fnWord => false
  | _ => true

theorem ofOpener_ne_of_isSignaturePart {k : Kind} (h : k.isSignaturePart = true) :
    Feature.ofOpener k ≠ some .functionSignature := by
  cases k <;> simp_all [isSignaturePart, Feature.ofOpener]

theorem isSignaturePart_of_isHeaderPart {k : Kind} (h : k.isHeaderPart = true) :
    k.isSignaturePart = true := by
  cases k <;> simp_all [isHeaderPart, isSignaturePart, Feature.ofOpener]

theorem isSignaturePart_of_isListPart {k : Kind} (h : k.isListPart = true) :
    k.isSignaturePart = true := by
  cases k <;> simp_all [isListPart, isSignaturePart, Feature.ofOpener]

theorem isSignaturePart_of_isBehindPart {k : Kind} (h : k.isBehindPart = true) :
    k.isSignaturePart = true := by
  cases k <;> simp_all [isBehindPart, isSignaturePart]

theorem isSignaturePart_of_isTrivia {t : Token} (h : t.isTrivia = true) :
    t.kind.isSignaturePart = true := by
  unfold Token.isTrivia at h
  rcases hk : t.kind <;> simp_all [Kind.isTrivia, isSignaturePart]

theorem bracket_of_isTypePart {k : Kind} (h : k.isTypePart = true) : k.bracket = none := by
  cases k <;> simp_all [isTypePart, isName, isNameSegment, bracket]

theorem bracket_of_isKeyword {k : Kind} (h : k.isKeyword = true) : k.bracket = none := by
  cases k <;> simp_all [isKeyword, bracket]

theorem isHeaderPart_spec {k : Kind} (h : k.isHeaderPart = true) :
    k.bracket = none ∧ Feature.ofOpener k = none ∧ k.isCast = false := by
  simpa [isHeaderPart, and_assoc] using h

end Kind

/-- Where the attribute that a parameter may be in ends, behind one more token. -/
def ParameterDraft.skippingBehind (d : ParameterDraft) (t : Token) (l : Levels) : Option Int :=
  match d.skipping with
  | some depth => if t.kind = .closeSquare && l.square = depth then none else some depth
  | none =>
    if t.kind = .attributeOpen || (t.kind = .openSquare && d.marked) then some l.square else none

namespace SignatureBuilder

theorem feed_header {b : SignatureBuilder} {t : Token} (l : Levels) (hb : b.phase = .opening)
    (ht : t.kind.isHeaderPart = true) :
    ∃ hint b', b.feed t l = (⟨false, hint, []⟩, b') ∧ b'.phase = .opening := by
  have hopen : t.kind ≠ .openParen := fun h => by
    simp [h, Kind.isHeaderPart, Kind.bracket] at ht
  simp only [feed, hb, feedOpening]
  split
  · exact ⟨none, _, rfl, rfl⟩
  · next h => exact absurd h hopen
  · split
    · exact ⟨_, _, rfl, rfl⟩
    · exact ⟨none, _, rfl, rfl⟩

theorem feed_openParen {b : SignatureBuilder} {t : Token} (l : Levels) (hb : b.phase = .opening)
    (ht : t.kind = .openParen) :
    ∃ b', b.feed t l = (.quiet, b') ∧ b'.phase = .parameters l.parens l.unified .empty := by
  simp [feed, hb, feedOpening, ht]

theorem phase_feedParameter (b : SignatureBuilder) (parens unified : Int) {d : ParameterDraft}
    (hd : d.skipping = none) (t : Token) (l : Levels) :
    ∃ d', (b.feedParameter parens unified d t l).phase = .parameters parens unified d' ∧
      d'.skipping = none := by
  unfold feedParameter
  simp only
  split
  case h_7 => split <;> exact ⟨_, rfl, by first | exact hd | rfl⟩
  case h_8 => split <;> exact ⟨_, rfl, hd⟩
  all_goals exact ⟨_, rfl, hd⟩

theorem phase_feedList (b : SignatureBuilder) {parens : Int} (unified : Int)
    {d : ParameterDraft} (hd : d.skipping = none) {t : Token} {l : Levels}
    (h : ¬(t.kind = .closeParen ∧ l.parens = parens)) :
    ∃ d', (b.feedList parens unified d t l).phase = .parameters parens unified d' ∧
      d'.skipping = none := by
  unfold feedList
  rw [if_neg (by simpa using h)]
  split
  · split
    · exact ⟨_, rfl, rfl⟩
    · exact ⟨_, rfl, hd⟩
  · exact phase_feedParameter b parens unified hd t l

theorem phase_feedParameters (b : SignatureBuilder) {parens : Int} (unified : Int)
    (d : ParameterDraft) {t : Token} {l : Levels}
    (h : ¬(t.kind = .closeParen ∧ l.parens = parens)) :
    ∃ d', (b.feedParameters parens unified d t l).phase = .parameters parens unified d' ∧
      d'.skipping = d.skippingBehind t l := by
  unfold feedParameters ParameterDraft.skippingBehind
  rcases hs : d.skipping with _ | depth
  · by_cases hm : t.kind = .attributeMarker
    · exact ⟨{ d with marked := true }, by simp [hm, hs], by simp [hm, hs]⟩
    · by_cases ha : t.kind = .attributeOpen
      · exact ⟨{ d with skipping := some l.square }, by simp [ha], by simp [ha]⟩
      · by_cases ho : t.kind = .openSquare ∧ d.marked = true
        · exact ⟨{ d with marked := false, skipping := some l.square }, by simp [ho.1, ho.2],
            by simp [ho.1, ho.2]⟩
        · have ho' : ¬((decide (t.kind = .openSquare) && d.marked) = true) := by simpa using ho
          obtain ⟨d', hphase, hd'⟩ :=
            phase_feedList b unified (d := { d with marked := false, skipping := none }) rfl h
          refine ⟨d', ?_, ?_⟩
          · simp only
            rw [if_neg hm, if_neg ha, if_neg ho']
            exact hphase
          · rw [hd']
            simp only
            rw [if_neg (by simpa [ha] using ho)]
  · by_cases hc : (decide (t.kind = .closeSquare) && decide (l.square = depth)) = true
    · exact ⟨{ d with skipping := none }, by simp only [hc, if_true], by simp only [hc, if_true]⟩
    · exact ⟨d, by simp only [hc]; rfl, by simp only [hc]; exact hs⟩

/-- In the list the builder stays there, and the attribute is followed. -/
theorem feed_parameters {b : SignatureBuilder} {parens unified : Int} {d : ParameterDraft}
    {t : Token} {l : Levels} (hb : b.phase = .parameters parens unified d)
    (h : ¬(t.kind = .closeParen ∧ l.parens = parens)) :
    ∃ b' d', b.feed t l = (.quiet, b') ∧ b'.phase = .parameters parens unified d' ∧
      d'.skipping = d.skippingBehind t l := by
  obtain ⟨d', hphase, hd'⟩ := phase_feedParameters { b with fed := true } unified d h
  exact ⟨_, d', by simp only [feed, hb], hphase, hd'⟩

/-- Outside attributes the bracket that matches ends the list. -/
theorem feed_closeParen {b : SignatureBuilder} {unified : Int} {d : ParameterDraft}
    {t : Token} {l : Levels} (hb : b.phase = .parameters l.parens unified d)
    (hd : d.skipping = none) (ht : t.kind = .closeParen) :
    ∃ b', b.feed t l = (.quiet, b') ∧ b'.phase = .behind false .empty := by
  refine ⟨_, by simp only [feed, hb]; rfl, ?_⟩
  simp [feedParameters, hd, ht, feedList]

theorem feed_behind {b : SignatureBuilder} {inReturn : Bool} {type : TypeDraft} {t : Token}
    (l : Levels) (hb : b.phase = .behind inReturn type) (ht : t.kind.isBehindPart = true) :
    ∃ b' inReturn' type', b.feed t l = (.quiet, b') ∧ b'.phase = .behind inReturn' type' := by
  simp only [feed, hb, feedBehind]
  split
  · next h => simp [h, Kind.isBehindPart] at ht
  · next h => simp [h, Kind.isBehindPart] at ht
  · next h => simp [h, Kind.isBehindPart] at ht
  · exact ⟨_, _, _, rfl, rfl⟩
  · split
    · split
      · exact ⟨_, _, _, rfl, rfl⟩
      · exact ⟨_, _, _, rfl, rfl⟩
      · split <;> exact ⟨_, _, _, rfl, rfl⟩
    · exact ⟨_, _, _, rfl, rfl⟩

/-- The signature with the return type that was read last. -/
def returning (b : SignatureBuilder) (type : TypeDraft) : Signature :=
  { b.signature with returnTypes := type.appendTo b.signature.returnTypes }

/-- A signature without a body ends at a semicolon or a double arrow. -/
theorem feed_end {b : SignatureBuilder} {inReturn : Bool} {type : TypeDraft} {t : Token}
    (l : Levels) (hb : b.phase = .behind inReturn type)
    (ht : t.kind = .semicolon ∨ t.kind = .doubleArrow) :
    b.feed t l = (.finished, ⟨true, .finished,
      { b.returning type with useText := Text.trimString b.signature.useText }⟩) := by
  rcases ht with ht | ht <;> simp [feed, hb, feedBehind, ht, close, returning]

theorem feed_openCurly {b : SignatureBuilder} {inReturn : Bool} {type : TypeDraft} {t : Token}
    (l : Levels) (hb : b.phase = .behind inReturn type) (ht : t.kind = .openCurly) :
    b.feed t l = (.quiet, ⟨true, .inBody l.curly t, b.returning type⟩) := by
  simp [feed, hb, feedBehind, ht, returning]

/-- The bracket that matches ends the body and the signature. -/
theorem feed_closeCurly (l : Levels) (o : Token) (s : Signature) {c : Token}
    (hc : c.kind = .closeCurly) :
    (⟨true, .inBody l.curly o, s⟩ : SignatureBuilder).feed c l =
      (.finished, ⟨true, .finished,
        { s with body := some ⟨l.curly, o, c⟩, useText := Text.trimString s.useText }⟩) := by
  simp [feed, feedBody, hc, close]

end SignatureBuilder

end TokenAtlas
