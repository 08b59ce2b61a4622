import TokenAtlas.Proofs.Feature.Alone
import TokenAtlas.Proofs.Feature.Namespace
import TokenAtlas.Proofs.Source.Grammar

/-! Reading code. A site reads marked tokens if every token completes the statement of its
mark and no other. Main statement: code leaves a site as it found it and completes no
statement, because every feature that it opens is closed at the token where it ends, and
every import that it seems to begin is refuted. -/

namespace TokenAtlas

/-- From `s` the tokens are read as they are marked, up to `d`. -/
inductive Site.Reads : Site → List Marked → Site → Prop
  | nil (s : Site) : Reads s [] s
  | cons {s d : Site} {t : Token} {mark : Option Statement} {rest : List Marked}
      (hmark : (s.next t).1.statements = mark.toList) (hrest : Reads (s.next t).2 rest d) :
      Reads s ((t, mark) :: rest) d

namespace Site.Reads

theorem append {s d e : Site} {a b : List Marked} (ha : Reads s a d) (hb : Reads d b e) :
    Reads s (a ++ b) e := by
  induction ha with
  | nil => exact hb
  | cons hmark _ ih => exact .cons hmark (ih hb)

/-- A token whose news and products are the statement of its mark is read. -/
theorem step {s d e : Site} {t : Token} {mark : Option Statement} {rest : List Marked}
    {news : List BuildEvent} {products : List Product} (h : s.Moves t news products d)
    (hmark : news.map BuildEvent.statement ++ products.filterMap Product.statement? =
      mark.toList) (hrest : Reads d rest e) : Reads s ((t, mark) :: rest) e := by
  refine .cons ?_ (h.site ▸ hrest)
  rw [StackStep.statements, h.events, h.products, hmark]

end Site.Reads

theorem Site.Quiet.reads {s d : Site} {ts : List Token} (h : Quiet s ts d) :
    Reads s (unmarked ts) d := by
  induction h with
  | nil => exact .nil _
  | step h _ ih => exact .step h rfl ih

/-- Inside a feature the opening word decides. -/
theorem Feature.verify_inside (f : Feature) (l : Levels) (b : Builder) (ts : List Token) :
    f.verify l (some b) ts = .yes ∨ f.verify l (some b) ts = .no := by
  cases f
  · exact .inr rfl
  · simp only [verify, verifyImport]
    split <;> simp
  · cases b <;> simp [verify, verifySignature]

/-! ### Builders whose body is open -/

/-- The curly depth of the body that is open. -/
def Builder.openBody : Builder → Option Int
  | .namespaceDeclaration b =>
    match b.phase with
    | .inBody depth _ => some depth
    | _ => none
  | .namespaceImport _ => none
  | .functionSignature b =>
    match b.fed, b.phase with
    | true, .inBody depth _ => some depth
    | _, _ => none

namespace Builder

/-- The body takes no notice of a token but the bracket that closes it. -/
theorem feed_openBody {b : Builder} {depth : Int} (hb : b.openBody = some depth) {t : Token}
    {l : Levels} (h : ¬(t.kind = .closeCurly ∧ l.curly = depth)) : b.feed t l = (.quiet, b) := by
  have h' : ¬((decide (t.kind = .closeCurly) && decide (l.curly = depth)) = true) := by
    simpa using h
  rcases b with ⟨phase, declaration⟩ | b | ⟨fed, phase, signature⟩
  · cases phase <;> simp only [openBody, reduceCtorEq, Option.some.injEq] at hb
    subst hb
    simp only [feed, NamespaceBuilder.feed, NamespaceBuilder.feedBody, if_neg h']
    split <;> rfl
  · simp [openBody] at hb
  · cases fed <;> cases phase <;> simp only [openBody, reduceCtorEq, Option.some.injEq] at hb
    subst hb
    simp only [feed, SignatureBuilder.feed, SignatureBuilder.feedBody, if_neg h']
    rfl

/-- The bracket that closes the body completes a product that imports nothing. -/
theorem feed_openBody_close {b : Builder} {l : Levels} (hb : b.openBody = some l.curly)
    {t : Token} (ht : t.kind = .closeCurly) :
    ∃ b' p, b.feed t l = (.finished, b') ∧ b'.product? = some p ∧ p.statement? = none := by
  have htrivia : t.isTrivia = false := by
    rw [Token.isTrivia, ht]
    rfl
  rcases b with ⟨phase, declaration⟩ | b | ⟨fed, phase, signature⟩
  · cases phase <;> simp only [openBody, reduceCtorEq, Option.some.injEq] at hb
    subst hb
    exact ⟨_, _, by
      simp [feed, NamespaceBuilder.feed, NamespaceBuilder.feedBody, htrivia, ht]; rfl, rfl, rfl⟩
  · simp [openBody] at hb
  · cases fed <;> cases phase <;> simp only [openBody, reduceCtorEq, Option.some.injEq] at hb
    subst hb
    exact ⟨_, _, by
      simp [feed, SignatureBuilder.feed, SignatureBuilder.feedBody, ht]; rfl, rfl, rfl⟩

/-- An import stands in an open body at its own depth only. -/
theorem bodyDepth_of_openBody {b : Builder} {depth : Int} (hb : b.openBody = some depth) :
    b.bodyDepth = some depth ∨ b.bodyDepth = none := by
  rcases b with ⟨phase, declaration⟩ | b | b
  · cases phase <;> simp_all [openBody, bodyDepth, NamespaceBuilder.bodyDepth]
  · exact .inr rfl
  · exact .inr rfl

/-- A function may stand in an open body. -/
theorem verifySignature_of_openBody {b : Builder} {depth : Int} (hb : b.openBody = some depth) :
    Feature.verifySignature (some b) = .yes := by
  rcases b with b | b | b
  · rfl
  · simp [openBody] at hb
  · rfl

end Builder

/-! ### Signatures -/

namespace Site

/-- A site at which a signature is read. -/
def reading (l : Levels) (b : SignatureBuilder) (below : List Builder) : Site :=
  ⟨l, ⟨.functionSignature b :: below, none⟩⟩

/-- While a signature is read no word begins a feature but one that opens another function. -/
theorem declines_reading (b : SignatureBuilder) (below : List Builder) (l : Levels) {t : Token}
    (ht : Feature.ofOpener t.kind ≠ some .functionSignature) :
    (⟨.functionSignature b :: below, none⟩ : Stack).Declines l t := by
  intro f hf
  cases f with
  | namespaceDeclaration => rfl
  | namespaceImport => rfl
  | functionSignature => exact absurd hf ht

theorem next_reading {l : Levels} {b b' : SignatureBuilder} (below : List Builder) {t : Token}
    {hint : Option Hint} (ht : Feature.ofOpener t.kind ≠ some .functionSignature)
    (hfeed : b.feed t (l.onto t.kind) = (⟨false, hint, []⟩, b')) :
    (reading l b below).Moves t [] [] (reading (l.past t.kind) b' below) := by
  have hfeed' : Builder.feed (.functionSignature b) t (l.onto t.kind) =
      (⟨false, hint, []⟩, .functionSignature b') := by
    simp only [Builder.feed, hfeed]
    rfl
  exact next_fed (declines_reading b below _ ht) hfeed' rfl

/-- What a builder takes on its own it takes at a site as well. -/
theorem quiet_of_takes {b d : SignatureBuilder} {l : Levels} {ts : List Token}
    (h : b.Takes l ts d) (below : List Builder)
    (hts : ∀ t ∈ ts, t.kind.isSignaturePart = true) :
    Quiet (reading l b below) ts (reading (l.behind ts) d below) := by
  induction h with
  | nil => exact .nil _
  | @step b c d l t rest hint h _ ih =>
    have ht := Kind.ofOpener_ne_of_isSignaturePart (hts t List.mem_cons_self)
    exact .step (next_reading below ht h)
      (ih fun u hu => hts u (List.mem_cons_of_mem _ hu))

end Site

theorem SignatureBuilder.takes_header {header : List Token}
    (h : ∀ t ∈ header, t.kind.isHeaderPart = true) (l : Levels) {b : SignatureBuilder}
    (hb : b.phase = .opening) : ∃ d, b.Takes l header d ∧ d.phase = .opening := by
  induction header generalizing b l with
  | nil => exact ⟨b, .nil _ _, hb⟩
  | cons t header ih =>
    obtain ⟨hint, c, hfeed, hc⟩ :=
      SignatureBuilder.feed_header (l.onto t.kind) hb (h t List.mem_cons_self)
    obtain ⟨d, htakes, hd⟩ := ih (fun u hu => h u (List.mem_cons_of_mem _ hu)) (l.past t.kind) hc
    exact ⟨d, .step hfeed htakes, hd⟩

namespace Kind

theorem ofOpener_of_bracket {k : Kind} {family : Family} {side : Side}
    (h : k.bracket = some (family, side)) : Feature.ofOpener k = none := by
  cases k <;> first | rfl | exact absurd h nofun

/-- A word that opens a feature is no bracket. -/
theorem bracket_of_ofOpener {k : Kind} {f : Feature} (h : Feature.ofOpener k = some f) :
    k.bracket = none := by
  cases k <;> first | rfl | exact absurd h nofun

/-- What ends a signature without a body is no bracket. -/
theorem bracket_of_stop {k : Kind} (h : k = .semicolon ∨ k = .doubleArrow) : k.bracket = none := by
  rcases h with rfl | rfl <;> rfl

theorem eq_closeSquare {k : Kind} (h : k.bracket = some (.square, .closing)) :
    k = .closeSquare := by
  cases k <;> simp_all [bracket]

end Kind

namespace ParameterDraft

theorem skippingBehind_of_plain (d : ParameterDraft) {t : Token} (l : Levels)
    (ht : t.kind.bracket = none) : d.skippingBehind t l = d.skipping := by
  have hattribute : t.kind ≠ .attributeOpen := fun hk => by simp [hk, Kind.bracket] at ht
  have hopen : t.kind ≠ .openSquare := fun hk => by simp [hk, Kind.bracket] at ht
  have hclose : t.kind ≠ .closeSquare := fun hk => by simp [hk, Kind.bracket] at ht
  unfold skippingBehind
  rcases hd : d.skipping with _ | depth
  · simp [hattribute, hopen]
  · simp [hclose]

/-- Behind a group the draft skips what it skipped before: an attribute is a group of its
own, and a group inside an attribute does not end it. -/
theorem skippingBehind_group {d d₁ d₂ : ParameterDraft} {o c : Token} {l : Levels}
    {family : Family} (ho : o.kind.bracket = some (family, .opening))
    (hc : c.kind.bracket = some (family, .closing))
    (hd : ∀ depth, d.skipping = some depth → depth ≤ l.square)
    (hd₁ : d₁.skipping = d.skippingBehind o (l.shift 1 family))
    (hd₂ : d₂.skipping = d₁.skipping) :
    (∀ depth, d₁.skipping = some depth → depth ≤ (l.shift 1 family).square) ∧
      d₂.skippingBehind c (l.shift 1 family) = d.skipping := by
  have hsquare := l.square_shift 1 family
  have hnot : o.kind ≠ .closeSquare := fun h => by simp [h, Kind.bracket] at ho
  unfold skippingBehind at hd₁ ⊢
  rcases hs : d.skipping with _ | depth
  · rw [hs] at hd₁
    simp only at hd₁
    by_cases hattr : (decide (o.kind = .attributeOpen) ||
        (decide (o.kind = .openSquare) && d.marked)) = true
    · rw [if_pos hattr] at hd₁
      have hfamily : family = .square := by
        simp only [Bool.or_eq_true, decide_eq_true_eq, Bool.and_eq_true] at hattr
        rcases hattr with h | ⟨h, -⟩ <;> simpa [h, Kind.bracket, eq_comm] using ho
      subst hfamily
      rw [hd₂, hd₁]
      simp [Kind.eq_closeSquare hc]
    · rw [if_neg hattr] at hd₁
      rw [hd₂, hd₁]
      have hattribute : c.kind ≠ .attributeOpen := fun hk => by simp [hk, Kind.bracket] at hc
      have hopen : c.kind ≠ .openSquare := fun hk => by simp [hk, Kind.bracket] at hc
      exact ⟨by simp, by simp [hattribute, hopen]⟩
  · have hle := hd depth hs
    rw [hs] at hd₁
    simp only [hnot, decide_false, Bool.false_and, Bool.false_eq_true, if_false] at hd₁
    rw [hd₂, hd₁]
    refine ⟨fun q hq => ?_, ?_⟩
    · obtain rfl : depth = q := Option.some.inj hq
      split at hsquare <;> omega
    · refine if_neg ?_
      simp only [Bool.and_eq_true, decide_eq_true_eq, not_and]
      intro hk
      have hfamily : family = .square := by simpa [hk, Kind.bracket, eq_comm] using hc
      rw [if_pos hfamily] at hsquare
      omega

end ParameterDraft

namespace Nested

theorem parts {part : Kind → Bool} {ts : List Token} (h : Nested part ts) :
    ∀ t ∈ ts, part t.kind = true := by
  induction h with
  | nil => nofun
  | token hpart _ _ ih =>
    intro u hu
    rcases List.mem_cons.1 hu with rfl | hu
    · exact hpart
    · exact ih u hu
  | group hopart hcpart _ _ _ _ ihinner ihrest =>
    intro u hu
    rcases List.mem_cons.1 hu with rfl | hu
    · exact hopart
    · rcases List.mem_append.1 hu with hu | hu
      · exact ihinner u hu
      · rcases List.mem_cons.1 hu with rfl | hu
        · exact hcpart
        · exact ihrest u hu

/-- Matched brackets leave the levels as they were. -/
theorem levels_behind {part : Kind → Bool} {ts : List Token} (h : Nested part ts) (l : Levels) :
    l.behind ts = l := by
  induction h generalizing l with
  | nil => rfl
  | token _ hplain _ ih => rw [Levels.behind_cons, Levels.past_of_bracket_none hplain, ih]
  | group _ _ ho hc _ _ ihinner ihrest =>
    rw [Levels.behind_cons, l.past_opening ho, Levels.behind_append, ihinner, Levels.behind_cons,
      Levels.past_closing hc, ihrest]

/-- A parameter list is read up to the bracket that ends it. -/
theorem takes_list {part : Kind → Bool} {ts : List Token} (h : Nested part ts) {l : Levels}
    {b : SignatureBuilder} {parens unified : Int} {d : ParameterDraft}
    (hb : b.phase = .parameters parens unified d) (hparens : parens ≤ l.parens)
    (hd : ∀ depth, d.skipping = some depth → depth ≤ l.square) :
    ∃ b' d', b.Takes l ts b' ∧ b'.phase = .parameters parens unified d' ∧
      d'.skipping = d.skipping := by
  induction h generalizing l b d with
  | nil => exact ⟨b, d, .nil _ _, hb, rfl⟩
  | @token t rest hpart hplain _ ih =>
    have hclose : ¬(t.kind = .closeParen ∧ (l.onto t.kind).parens = parens) := fun hk => by
      simp [hk.1, Kind.bracket] at hplain
    obtain ⟨b₁, d₁, hfeed, hb₁, hd₁⟩ := SignatureBuilder.feed_parameters hb hclose
    rw [d.skippingBehind_of_plain _ hplain] at hd₁
    obtain ⟨b₂, d₂, htakes, hb₂, hd₂⟩ := ih hb₁ hparens (by rwa [hd₁])
    refine ⟨b₂, d₂, .step hfeed ?_, hb₂, hd₂.trans hd₁⟩
    rwa [Levels.past_of_bracket_none hplain]
  | @group family o c inner rest hopart hcpart ho hc hnested _ ihinner ihrest =>
    have hinner := l.parens_shift 1 family
    -- the bracket that opens the group
    have hoclose : ¬(o.kind = .closeParen ∧ (l.onto o.kind).parens = parens) := fun hk => by
      simp [hk.1, Kind.bracket] at ho
    obtain ⟨b₁, d₁, hfeed₁, hb₁, hd₁⟩ := SignatureBuilder.feed_parameters hb hoclose
    rw [l.onto_opening ho] at hd₁
    -- what stands in it
    obtain ⟨b₂, d₂, htakes₂, hb₂, hd₂⟩ := ihinner hb₁ (by split at hinner <;> omega)
      (ParameterDraft.skippingBehind_group ho hc hd hd₁ rfl).1
    -- the bracket that closes it is deeper than the list
    have hcclose : ¬(c.kind = .closeParen ∧ ((l.shift 1 family).onto c.kind).parens = parens) := by
      rintro ⟨hk, heq⟩
      have hfamily : family = .paren := by simpa [hk, Kind.bracket, eq_comm] using hc
      rw [Levels.onto_closing hc] at heq
      rw [if_pos hfamily] at hinner
      omega
    obtain ⟨b₃, d₃, hfeed₃, hb₃, hd₃⟩ := SignatureBuilder.feed_parameters hb₂ hcclose
    rw [Levels.onto_closing hc, (ParameterDraft.skippingBehind_group ho hc hd hd₁ hd₂).2] at hd₃
    obtain ⟨b₄, d₄, htakes₄, hb₄, hd₄⟩ := ihrest hb₃ hparens (by rwa [hd₃])
    refine ⟨b₄, d₄, .step hfeed₁ ?_, hb₄, hd₄.trans hd₃⟩
    rw [l.past_opening ho]
    refine htakes₂.append ?_
    rw [hnested.levels_behind]
    refine .step hfeed₃ ?_
    rwa [Levels.past_closing hc]

end Nested

/-- What stands behind a parameter list is read without an end to the signature. -/
theorem SignatureBuilder.takes_behind {ts : List Token}
    (h : ∀ t ∈ ts, t.kind.isBehindPart = true) (l : Levels) {b : SignatureBuilder}
    {inReturn : Bool} {type : TypeDraft} (hb : b.phase = .behind inReturn type) :
    ∃ d inReturn' type', b.Takes l ts d ∧ d.phase = .behind inReturn' type' := by
  induction ts generalizing b l inReturn type with
  | nil => exact ⟨b, inReturn, type, .nil _ _, hb⟩
  | cons t ts ih =>
    obtain ⟨c, r, ty, hfeed, hc⟩ :=
      SignatureBuilder.feed_behind (l.onto t.kind) hb (h t List.mem_cons_self)
    obtain ⟨d, r', ty', htakes, hd⟩ :=
      ih (fun u hu => h u (List.mem_cons_of_mem _ hu)) (l.past t.kind) hc
    exact ⟨d, r', ty', .step hfeed htakes, hd⟩

/-- A parameter list in its brackets is taken, and what stands behind it. -/
theorem SignatureBuilder.takes_listed {part : Kind → Bool} {o c : Token} {list behind : List Token}
    (ho : o.kind = .openParen) (hlist : Nested part list) (hc : c.kind = .closeParen)
    (hbehind : Nested Kind.isBehindPart behind) (l : Levels) {b : SignatureBuilder}
    (hb : b.phase = .opening) :
    ∃ d inReturn type, b.Takes l (o :: (list ++ c :: behind)) d ∧
      d.phase = .behind inReturn type := by
  have hoBracket : o.kind.bracket = some (.paren, .opening) := by rw [ho]; rfl
  have hcBracket : c.kind.bracket = some (.paren, .closing) := by rw [hc]; rfl
  obtain ⟨b₁, hfeed₁, hb₁⟩ := SignatureBuilder.feed_openParen (l.onto o.kind) hb ho
  rw [l.onto_opening hoBracket] at hb₁
  -- the list and the bracket that ends it
  obtain ⟨b₂, d₂, htakes₂, hb₂, hd₂⟩ := hlist.takes_list hb₁ (Int.le_refl _)
    (by simp [ParameterDraft.empty])
  rw [← Levels.onto_closing hcBracket (l.shift 1 .paren)] at hb₂
  obtain ⟨b₃, hfeed₃, hb₃⟩ := SignatureBuilder.feed_closeParen hb₂ hd₂ hc
  -- what stands behind it
  obtain ⟨b₄, inReturn, type, htakes₄, hb₄⟩ := SignatureBuilder.takes_behind hbehind.parts l hb₃
  refine ⟨b₄, inReturn, type, .step hfeed₁ ?_, hb₄⟩
  rw [l.past_opening hoBracket]
  refine htakes₂.append ?_
  rw [hlist.levels_behind]
  refine .step hfeed₃ ?_
  rwa [Levels.past_closing hcBracket]

/-- A parameter list in its brackets, and what stands behind it. -/
structure Signature.Listed (o c : Token) (list behind : List Token) : Prop where
  isOpener : o.kind = .openParen
  isList : Nested Kind.isListPart list
  isCloser : c.kind = .closeParen
  isBehind : Nested Kind.isBehindPart behind

namespace Signature.Listed

variable {o c : Token} {list behind : List Token}

theorem levels_behind (h : Listed o c list behind) (l : Levels) :
    l.behind (o :: (list ++ c :: behind)) = l := by
  have hoBracket : o.kind.bracket = some (.paren, .opening) := by rw [h.isOpener]; rfl
  have hcBracket : c.kind.bracket = some (.paren, .closing) := by rw [h.isCloser]; rfl
  rw [Levels.behind_cons, l.past_opening hoBracket, Levels.behind_append, h.isList.levels_behind,
    Levels.behind_cons, Levels.past_closing hcBracket, h.isBehind.levels_behind]

theorem parts (h : Listed o c list behind) :
    ∀ t ∈ o :: (list ++ c :: behind), t.kind.isSignaturePart = true := by
  refine List.forall_mem_cons.2 ⟨by rw [h.isOpener]; rfl, fun t ht => ?_⟩
  rcases List.mem_append.1 ht with ht | ht
  · exact Kind.isSignaturePart_of_isListPart (h.isList.parts t ht)
  · rcases List.mem_cons.1 ht with rfl | ht
    · rw [h.isCloser]
      rfl
    · exact Kind.isSignaturePart_of_isBehindPart (h.isBehind.parts t ht)

/-- The list is taken, and what stands behind it. -/
theorem takes (h : Listed o c list behind) (l : Levels) {b : SignatureBuilder}
    (hb : b.phase = .opening) :
    ∃ d inReturn type, b.Takes l (o :: (list ++ c :: behind)) d ∧
      d.phase = .behind inReturn type :=
  SignatureBuilder.takes_listed h.isOpener h.isList h.isCloser h.isBehind l hb

end Signature.Listed

/-- A signature is taken up to its end or its body, in the same way from any levels on. -/
theorem Signature.Head.takes {head : List Token} (h : Signature.Head head) :
    ∃ word rest d inReturn type, head = word :: rest ∧
      Feature.ofOpener word.kind = some .functionSignature ∧ d.phase = .behind inReturn type ∧
      (∀ l, (SignatureBuilder.opened word).Takes l rest d) ∧ (∀ l : Levels, l.behind rest = l) ∧
      ∀ t ∈ rest, t.kind.isSignaturePart = true := by
  obtain @⟨word, o, c, header, list, behind, hword, hheader, ho, hlist, hc, hbehind⟩ := h
  have hlisted : Signature.Listed o c list behind := ⟨ho, hlist, hc, hbehind⟩
  have hheaderLevels : ∀ l : Levels, l.behind header = l := fun l =>
    l.behind_of_plain fun t ht => (Kind.isHeaderPart_spec (hheader t ht)).1
  -- what stands before the list
  obtain ⟨b₁, htakes₁, hb₁⟩ := SignatureBuilder.takes_header hheader .zero
    (b := .opened word) rfl
  obtain ⟨b₂, inReturn, type, htakes₂, hb₂⟩ := hlisted.takes .zero hb₁
  have htakes : (SignatureBuilder.opened word).Takes .zero
      (header ++ o :: (list ++ c :: behind)) b₂ := by
    refine htakes₁.append ?_
    rwa [hheaderLevels]
  refine ⟨word, _, b₂, inReturn, type, rfl, hword, hb₂, fun l => ?_, fun l => ?_, ?_⟩
  · have habove := htakes.above l
    rwa [SignatureBuilder.above_opened, SignatureBuilder.above_of_behind hb₂,
      Levels.zero_above] at habove
  · rw [Levels.behind_append, hheaderLevels, hlisted.levels_behind]
  · intro t ht
    rcases List.mem_append.1 ht with ht | ht
    · exact Kind.isSignaturePart_of_isHeaderPart (hheader t ht)
    · exact hlisted.parts t ht

/-! ### Code -/

/-- Places where code may stand: outside every feature, or in an open body. -/
inductive Site.Hosts : Site → Prop
  | outside (l : Levels) : Hosts ⟨l, ⟨[], none⟩⟩
  | inside {l : Levels} {b : Builder} {below : List Builder} {depth : Int}
      (hb : b.openBody = some depth) (hl : depth ≤ l.curly) : Hosts ⟨l, ⟨b :: below, none⟩⟩

namespace Site.Hosts

variable {l : Levels} {builders : List Builder}

theorem shift (h : Hosts ⟨l, ⟨builders, none⟩⟩) (family : Family) :
    Hosts ⟨l.shift 1 family, ⟨builders, none⟩⟩ := by
  have hcurly := l.curly_shift 1 family
  cases h with
  | outside => exact .outside _
  | inside hb hl => exact .inside hb (by split at hcurly <;> omega)

/-- In a block an import is refuted. -/
theorem verifyImport_shift (h : Hosts ⟨l, ⟨builders, none⟩⟩)
    (hground : builders = [] → 0 ≤ l.curly) :
    Feature.verifyImport (l.shift 1 .curly) builders.head? = .no := by
  have hcurly : (l.shift 1 .curly).curly = l.curly + 1 := by simp [Levels.curly_shift]
  cases h with
  | outside =>
    have hl := hground rfl
    simp only [Feature.verifyImport, List.head?_nil, hcurly]
    exact if_neg (by omega)
  | @inside _ b below depth hb hl =>
    simp only [Feature.verifyImport, List.head?_cons, hcurly]
    refine if_neg ?_
    rcases Builder.bodyDepth_of_openBody hb with h | h <;> rw [h]
    · simp only [Option.some.injEq]
      omega
    · simp

/-- Behind an opening bracket an import is refuted if it was so before, or in a block. -/
theorem verifyImport_group (h : Hosts ⟨l, ⟨builders, none⟩⟩)
    (hground : builders = [] → 0 ≤ l.curly) {inBlock : Bool} {family : Family}
    (hblock : inBlock = true → Feature.verifyImport l builders.head? = .no)
    (hinner : (inBlock || decide (family = .curly)) = true) :
    Feature.verifyImport (l.shift 1 family) builders.head? = .no := by
  by_cases hf : family = .curly
  · subst hf
    exact h.verifyImport_shift hground
  · have hcurly : (l.shift 1 family).curly = l.curly := by
      rw [Levels.curly_shift, if_neg hf]
    simp only [hf, decide_false, Bool.or_false] at hinner
    have hno := hblock hinner
    simp only [Feature.verifyImport] at hno ⊢
    rwa [hcurly]

theorem verifySignature (h : Hosts ⟨l, ⟨builders, none⟩⟩) :
    Feature.verifySignature builders.head? = .yes := by
  cases h with
  | outside => rfl
  | inside hb hl => exact Builder.verifySignature_of_openBody hb

/-- A token that opens nothing and closes no body is passed over. -/
theorem next_of_declines (h : Hosts ⟨l, ⟨builders, none⟩⟩) {t : Token}
    (hd : (⟨builders, none⟩ : Stack).Declines (l.onto t.kind) t)
    (hclose : t.kind = .closeCurly → Hosts ⟨l.past t.kind, ⟨builders, none⟩⟩) :
    (⟨l, ⟨builders, none⟩⟩ : Site).Moves t [] [] ⟨l.past t.kind, ⟨builders, none⟩⟩ := by
  cases h with
  | outside => exact next_idle hd
  | @inside _ b below depth hb hl =>
    refine next_fed hd (Builder.feed_openBody hb ?_) rfl
    rintro ⟨hk, heq⟩
    have hbracket : t.kind.bracket = some (.curly, .closing) := by rw [hk]; rfl
    have hpast : (l.past t.kind).curly = l.curly - 1 := by
      simp [Levels.past, hbracket, Levels.curly_shift, Int.sub_eq_add_neg]
    rw [Levels.onto_closing hbracket] at heq
    cases hclose hk with
    | inside hb' hl' =>
      obtain rfl : depth = _ := Option.some.inj (hb.symm.trans hb')
      omega

/-- If there is no room for a feature any token but the one that closes the body is passed
over, opening words among them. -/
theorem next_of_full (h : Hosts ⟨l, ⟨builders, none⟩⟩) (hfull : Limits.nesting ≤ builders.length)
    {t : Token} (hclose : t.kind = .closeCurly → Hosts ⟨l.past t.kind, ⟨builders, none⟩⟩) :
    (⟨l, ⟨builders, none⟩⟩ : Site).Moves t [] [] ⟨l.past t.kind, ⟨builders, none⟩⟩ := by
  by_cases hd : (⟨builders, none⟩ : Stack).Declines (l.onto t.kind) t
  · exact h.next_of_declines hd hclose
  · obtain ⟨f, ho, hno⟩ : ∃ f, Feature.ofOpener t.kind = some f ∧
        f.verify (l.onto t.kind) builders.head? [t] ≠ .no := by
      simpa [Stack.Declines, Stack.active?] using hd
    cases h with
    | outside => exact absurd hfull (by decide)
    | @inside _ b below depth hb hl =>
      have hyes := (Feature.verify_inside f (l.onto t.kind) b [t]).resolve_right hno
      have hkind : t.kind ≠ .closeCurly := fun hk => by simp [hk, Feature.ofOpener] at ho
      exact next_full ho hyes hfull (Builder.feed_openBody hb fun hk => hkind hk.1)

end Site.Hosts

/-- Behind the beginning of a signature the builder on top is the one that the beginning
alone leads to. -/
theorem Signature.Head.read {head : List Token} (h : Signature.Head head) :
    ∃ b inReturn type, b.phase = .behind inReturn type ∧
      (∀ ts, SignatureBuilder.alone (head ++ ts) = (b.after (Levels.zero.track ts)).signature) ∧
      ∀ {l : Levels} {builders : List Builder},
        Feature.verifySignature builders.head? = .yes → builders.length < Limits.nesting →
        Site.Quiet ⟨l, ⟨builders, none⟩⟩ head (.reading l b builders) := by
  obtain ⟨word, rest, b, inReturn, type, rfl, hword, hb, htakes, hlevels, hparts⟩ := h.takes
  have hbracket := Kind.bracket_of_ofOpener hword
  refine ⟨b, inReturn, type, hb, fun ts => ?_, fun {l builders} hyes hroom => ?_⟩
  · rw [List.cons_append, SignatureBuilder.alone_cons hbracket, (htakes _).after_append, hlevels]
  · have hnext := Site.next_yes (l := l) hword hyes hroom
    rw [Levels.past_of_bracket_none hbracket] at hnext
    have hquiet := Site.quiet_of_takes (htakes l) builders hparts
    rw [hlevels] at hquiet
    exact .step hnext hquiet

/-- A finished signature is a product and leaves the builders below it. -/
theorem Site.next_signature_end {l : Levels} {b b' : SignatureBuilder} (below : List Builder)
    {t : Token} (hopener : Feature.ofOpener t.kind = none)
    (hfeed : b.feed t (l.onto t.kind) = (.finished, b')) (hb' : b'.phase = .finished) :
    (reading l b below).Moves t [] [.functionSignature b'.signature]
      ⟨l.past t.kind, ⟨below, none⟩⟩ := by
  have hfeed' : Builder.feed (.functionSignature b) t (l.onto t.kind) =
      (.finished, .functionSignature b') := by
    simp only [Builder.feed, hfeed]
    rfl
  have hproduct : (Builder.functionSignature b').product? =
      some (.functionSignature b'.signature) := by
    simp [Builder.product?, Builder.progress, SignatureBuilder.progress, hb', Builder.snapshot]
  exact next_done (Stack.declines_of_ofOpener hopener _ _) hfeed' rfl hproduct

/-- A signature without a body is complete at the token that ends it, as the signature that
its tokens alone make. -/
theorem Signature.Head.ends {head : List Token} (h : Signature.Head head) {stop : Token}
    (hstop : stop.kind = .semicolon ∨ stop.kind = .doubleArrow) {l : Levels}
    {builders : List Builder} (hyes : Feature.verifySignature builders.head? = .yes)
    (hroom : builders.length < Limits.nesting) :
    ∃ s, Site.Quiet ⟨l, ⟨builders, none⟩⟩ head s ∧
      s.Moves stop [] [.functionSignature (SignatureBuilder.alone (head ++ [stop]))]
        ⟨l, ⟨builders, none⟩⟩ := by
  have hbracket := Kind.bracket_of_stop hstop
  have hopener : Feature.ofOpener stop.kind = none := by
    rcases hstop with hk | hk <;> rw [hk] <;> rfl
  obtain ⟨b, inReturn, type, hb, halone, hquiet⟩ := h.read
  have hfeed := fun l => SignatureBuilder.feed_end l hb hstop
  have hnext := Site.next_signature_end builders hopener (hfeed (l.onto stop.kind)) rfl
  rw [Levels.past_of_bracket_none hbracket] at hnext
  refine ⟨_, hquiet hyes hroom, ?_⟩
  rw [halone, Levels.track_cons, SignatureBuilder.after_cons, hfeed]
  exact hnext

/-- A signature with a body is the innermost builder in it, and complete at the bracket that
closes the body. -/
theorem Signature.Head.encloses {head : List Token} (h : Signature.Head head) {o c : Token}
    (ho : o.kind = .openCurly) (hc : c.kind = .closeCurly) {l : Levels}
    {builders : List Builder} (hyes : Feature.verifySignature builders.head? = .yes)
    (hroom : builders.length < Limits.nesting) :
    ∃ b, (Builder.functionSignature b).openBody = some (l.curly + 1) ∧
      Site.Quiet ⟨l, ⟨builders, none⟩⟩ (head ++ [o])
        (.reading (l.shift 1 .curly) b builders) ∧
      (Site.reading (l.shift 1 .curly) b builders).Moves c []
        [.functionSignature { SignatureBuilder.alone (head ++ [o, c]) with
          body := some ⟨l.curly + 1, o, c⟩ }] ⟨l, ⟨builders, none⟩⟩ := by
  have hoBracket : o.kind.bracket = some (.curly, .opening) := by rw [ho]; rfl
  have hcBracket : c.kind.bracket = some (.curly, .closing) := by rw [hc]; rfl
  have hdepth : (l.shift 1 .curly).curly = l.curly + 1 := by simp [Levels.curly_shift]
  obtain ⟨b, inReturn, type, hb, halone, hquiet⟩ := h.read
  -- the bracket that opens the body
  have hopenBody := fun l => SignatureBuilder.feed_openCurly l hb ho
  have hnext₁ := Site.next_reading builders (by rw [ho]; decide) (hopenBody (l.onto o.kind))
  rw [l.past_opening hoBracket, l.onto_opening hoBracket, hdepth] at hnext₁
  -- the bracket that closes it
  have hcloseBody := fun l => SignatureBuilder.feed_closeCurly l o (b.returning type) hc
  have hfeed := hcloseBody (l.shift 1 .curly)
  rw [← Levels.onto_closing hcBracket (l.shift 1 .curly)] at hfeed
  have hnext₂ := Site.next_signature_end builders (by rw [hc]; rfl) hfeed rfl
  rw [Levels.onto_closing hcBracket, Levels.past_closing hcBracket, hdepth] at hnext₂
  refine ⟨_, rfl, (hquiet hyes hroom).append (.single hnext₁), ?_⟩
  rw [halone, Levels.track_cons, SignatureBuilder.after_cons, hopenBody,
    Levels.onto_opening hoBracket, Levels.past_opening hoBracket, Levels.track_cons,
    SignatureBuilder.after_cons, Levels.onto_closing hcBracket, hcloseBody]
  exact hnext₂

namespace Site

/-- A site at which a namespace declaration is waited for. -/
def waiting (l : Levels) (word : Token) : Site :=
  ⟨l, ⟨[], some ⟨.namespaceDeclaration, [word]⟩⟩⟩

theorem next_namespaceWord {l : Levels} (hl : l.curly = 0) {word : Token}
    (hword : word.kind = .namespaceWord) :
    (⟨l, ⟨[], none⟩⟩ : Site).Moves word [] [] (waiting l word) := by
  have hbracket : word.kind.bracket = none := by rw [hword]; rfl
  have hstep : (⟨[], none⟩ : Stack).step word (l.onto word.kind) true =
      (.nothing, ⟨[], some ⟨.namespaceDeclaration, [word]⟩⟩) := by
    refine Stack.step_of_unknown (by rw [hword]; rfl) ?_
    rw [Levels.onto_of_bracket_none hbracket]
    simp [Feature.verify, Feature.verifyNamespace, hl]
  constructor <;> simp only [next, hstep, Levels.past_of_bracket_none hbracket] <;> rfl

theorem next_waiting_trivia (l : Levels) (word : Token) {t : Token} (ht : t.isTrivia = true) :
    (waiting l word).Moves t [] [] (waiting l word) := by
  constructor <;> simp only [next, waiting, Stack.step_waiting_trivia _ _ _ ht,
    Levels.past_of_bracket_none (Kind.bracket_of_isTrivia ht)] <;> rfl

theorem quiet_waiting (l : Levels) (word : Token) {blanks : List Token}
    (h : ∀ t ∈ blanks, t.isTrivia = true) :
    Quiet (waiting l word) blanks (waiting l word) := by
  induction blanks with
  | nil => exact .nil _
  | cons t blanks ih =>
    exact .step (next_waiting_trivia l word (h t List.mem_cons_self))
      (ih fun u hu => h u (List.mem_cons_of_mem _ hu))

/-- Tokens that are neither brackets nor opening words are passed over. -/
theorem Hosts.quiet_plain {l : Levels} {builders : List Builder}
    (hs : Hosts ⟨l, ⟨builders, none⟩⟩) {ts : List Token}
    (h : ∀ t ∈ ts, t.kind.bracket = none ∧ Feature.ofOpener t.kind = none) :
    Quiet ⟨l, ⟨builders, none⟩⟩ ts ⟨l, ⟨builders, none⟩⟩ := by
  induction ts with
  | nil => exact .nil _
  | cons t ts ih =>
    obtain ⟨hplain, hopener⟩ := h t List.mem_cons_self
    have hnext := hs.next_of_declines (Stack.declines_of_ofOpener hopener _ _)
      fun hk => by simp [hk, Kind.bracket] at hplain
    rw [Levels.past_of_bracket_none hplain] at hnext
    exact .step hnext (ih fun u hu => h u (List.mem_cons_of_mem _ hu))

/-- A relative name begins no namespace declaration: either its first word is refuted at
once, or the separator behind it refutes it. -/
theorem Hosts.quiet_relativeName {l : Levels} {builders : List Builder}
    (hs : Hosts ⟨l, ⟨builders, none⟩⟩) {word separator : Token} {blanks : List Token}
    (hword : word.kind = .namespaceWord) (hblanks : ∀ t ∈ blanks, t.isTrivia = true)
    (hseparator : separator.kind = .separator) :
    Quiet ⟨l, ⟨builders, none⟩⟩ (word :: (blanks ++ [separator])) ⟨l, ⟨builders, none⟩⟩ := by
  have hbracket : word.kind.bracket = none := by rw [hword]; rfl
  by_cases hopens : builders = [] ∧ l.curly = 0
  · obtain ⟨rfl, hl⟩ := hopens
    have hsBracket : separator.kind.bracket = none := by rw [hseparator]; rfl
    have hno : Feature.verify .namespaceDeclaration (l.onto separator.kind) none
        ([word] ++ [separator]) = .no :=
      (Feature.verifyNamespace_pair hl word separator).trans (by rw [hseparator]; rfl)
    have hstep := Stack.step_waiting_no (c := ⟨.namespaceDeclaration, [word]⟩) true
      (by rw [Token.isTrivia, hseparator]; rfl) hno
    have hnext : (waiting l word).Moves separator [] [] ⟨l, ⟨[], none⟩⟩ := by
      constructor <;> simp only [next, waiting, hstep, Levels.past_of_bracket_none hsBracket] <;>
        rfl
    exact .step (next_namespaceWord hl hword) ((quiet_waiting l word hblanks).append
      (.single hnext))
  · have hdeclines : (⟨builders, none⟩ : Stack).Declines (l.onto word.kind) word := by
      intro f hf
      obtain rfl : Feature.namespaceDeclaration = f := by simpa [hword, Feature.ofOpener] using hf
      rw [Levels.onto_of_bracket_none hbracket]
      rcases builders with _ | ⟨b, below⟩
      · have hl : l.curly ≠ 0 := by simpa using hopens
        simp [Feature.verify, Feature.verifyNamespace, Stack.active?, hl]
      · simp [Feature.verify, Feature.verifyNamespace, Stack.active?]
    have hnext := hs.next_of_declines hdeclines fun hk => by simp [hword] at hk
    rw [Levels.past_of_bracket_none hbracket] at hnext
    refine .step hnext (hs.quiet_plain fun t ht => ?_)
    rcases List.mem_append.1 ht with ht | ht
    · exact ⟨Kind.bracket_of_isTrivia (hblanks t ht), Kind.ofOpener_of_isTrivia (hblanks t ht)⟩
    · rw [List.mem_singleton.1 ht, hseparator]
      exact ⟨rfl, rfl⟩

/-- The bracket that closes the body of the innermost builder completes a product that
imports nothing. -/
theorem next_body_end {l : Levels} {b : Builder} (below : List Builder) {t : Token}
    (hb : b.openBody = some l.curly) (ht : t.kind = .closeCurly) :
    ∃ p, p.statement? = none ∧
      (⟨l, ⟨b :: below, none⟩⟩ : Site).Moves t [] [p] ⟨l.past t.kind, ⟨below, none⟩⟩ := by
  have hbracket : t.kind.bracket = some (.curly, .closing) := by rw [ht]; rfl
  have hopener : Feature.ofOpener t.kind = none := by rw [ht]; rfl
  obtain ⟨b', p, hfeed, hproduct, hstatement⟩ := Builder.feed_openBody_close hb ht
  rw [← Levels.onto_closing hbracket l] at hfeed
  exact ⟨p, hstatement, next_done (Stack.declines_of_ofOpener hopener _ _) hfeed rfl hproduct⟩

end Site

namespace Code

/-- Code completes no statement and leaves the site as it was. -/
theorem reads {room : Nat} {inBlock : Bool} {ts : List Token} (h : Code room inBlock ts)
    {l : Levels} {builders : List Builder} (hs : Site.Hosts ⟨l, ⟨builders, none⟩⟩)
    (hroom : builders.length + room ≤ Limits.nesting) (hground : builders = [] → 0 ≤ l.curly)
    (hblock : inBlock = true → Feature.verifyImport l builders.head? = .no) :
    Site.Reads ⟨l, ⟨builders, none⟩⟩ (unmarked ts) ⟨l, ⟨builders, none⟩⟩ := by
  induction h generalizing l builders with
  | nil => exact .nil _
  | @token room inBlock t rest hplain hopener _ ih =>
    have hclose : t.kind ≠ .closeCurly := fun hk => by simp [hk, Kind.bracket] at hplain
    have hnext := hs.next_of_declines (Stack.declines_of_ofOpener hopener _ _)
      fun hk => absurd hk hclose
    rw [Levels.past_of_bracket_none hplain] at hnext
    exact .step hnext rfl (ih hs hroom hground hblock)
  | @group room inBlock family o c inner rest ho hc _ _ ihinner ihrest =>
    have hoOpener := Kind.ofOpener_of_bracket ho
    have hcOpener := Kind.ofOpener_of_bracket hc
    have hoClose : o.kind ≠ .closeCurly := fun hk => by simp [hk, Kind.bracket] at ho
    have hnext₁ := hs.next_of_declines (Stack.declines_of_ofOpener hoOpener _ _)
      fun hk => absurd hk hoClose
    rw [l.past_opening ho] at hnext₁
    have hnext₂ := (hs.shift family).next_of_declines (Stack.declines_of_ofOpener hcOpener _ _)
      fun _ => by rw [Levels.past_closing hc]; exact hs
    rw [Levels.past_closing hc] at hnext₂
    rw [unmarked_cons, unmarked_append, unmarked_cons]
    have hground' : builders = [] → 0 ≤ (l.shift 1 family).curly := fun h => by
      have hl := hground h
      rw [Levels.curly_shift]
      split <;> omega
    have hinner := ihinner (hs.shift family) hroom hground' (hs.verifyImport_group hground hblock)
    exact .step hnext₁ rfl (hinner.append (.step hnext₂ rfl (ihrest hs hroom hground hblock)))
  | @traitUse room word rest hword _ ih =>
    have hbracket : word.kind.bracket = none := by rw [hword]; rfl
    have hdeclines : (⟨builders, none⟩ : Stack).Declines (l.onto word.kind) word := by
      intro f hf
      obtain rfl : Feature.namespaceImport = f := by simpa [hword, Feature.ofOpener] using hf
      rw [Levels.onto_of_bracket_none hbracket]
      exact hblock rfl
    have hnext := hs.next_of_declines hdeclines fun hk => by simp [hword] at hk
    rw [Levels.past_of_bracket_none hbracket] at hnext
    exact .step hnext rfl (ih hs hroom hground hblock)
  | @relativeName room inBlock word separator blanks rest hword hblanks hseparator _ ih =>
    have hreads := (hs.quiet_relativeName hword hblanks hseparator).reads
    have := hreads.append (ih hs hroom hground hblock)
    simpa using this
  | @signature room inBlock head stop rest hhead hstop _ ih =>
    obtain ⟨s, hquiet, hnext⟩ := hhead.ends hstop hs.verifySignature (by omega)
    rw [unmarked_append, unmarked_cons]
    exact hquiet.reads.append (.step hnext rfl (ih hs hroom hground hblock))
  | @function room inBlock head o c body rest hhead ho _ hc _ ihbody ihrest =>
    obtain ⟨b, hopen, hquiet, hnext⟩ := hhead.encloses ho hc hs.verifySignature (by omega)
    have hdepth : l.curly + 1 ≤ (l.shift 1 .curly).curly := by simp [Levels.curly_shift]
    have hbody := ihbody (@Site.Hosts.inside _ _ builders _ hopen hdepth)
      (by rw [List.length_cons]; omega)
      (fun hnil => absurd hnil (List.cons_ne_nil _ _)) fun _ => rfl
    have hrest := Site.Reads.step hnext (rfl : _ = (none : Option Statement).toList)
      (ihrest hs hroom hground hblock)
    simpa using hquiet.reads.append (hbody.append hrest)

end Code

end TokenAtlas
