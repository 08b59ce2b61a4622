import TokenAtlas.Proofs.Feature.Begun

/-! Tokens of which a builder takes nothing but the text: trivia, tags, the ends of a heredoc,
strings, and outside parameter lists the brackets of attributes. Main statements: a builder
has no answer to such a token, and behind two of them it is where it is behind one of their
joined text; behind the opening of an attribute it is where it is behind the opening's two
parts. -/

namespace TokenAtlas

namespace Kind

/-- Kinds of tokens of which a builder takes nothing but the text. -/
def isInert : Kind → Bool
  | .openTag | .openTagWithEcho | .closeTag | .heredocStart | .heredocEnd | .constantString
  | .stringSegment => true
  | k => k.isTrivia

/-- Inert kinds, and those that begin an attribute in a parameter list. -/
def isMute : Kind → Bool
  | .attributeOpen | .attributeMarker | .openSquare => true
  | k => k.isInert

theorem isMute_of_isInert {k : Kind} (h : k.isInert = true) : k.isMute = true := by
  cases k <;> first | rfl | exact absurd h nofun

theorem isMute_spec {k : Kind} (h : k.isMute = true) :
    Feature.ofOpener k = none ∧ k.isName = false ∧ k.isKeyword = false ∧
      k.isTypePart = false := by
  cases k <;> first | exact ⟨rfl, rfl, rfl, rfl⟩ | exact absurd h nofun

theorem bracket_of_isInert {k : Kind} (h : k.isInert = true) : k.bracket = none := by
  cases k <;> first | rfl | exact absurd h nofun

theorem ne_of_isMute {k k' : Kind} (h : k.isMute = true) (h' : k'.isMute = false) : k ≠ k' := by
  rintro rfl
  exact absurd h (by simp [h'])

theorem ne_of_isInert {k k' : Kind} (h : k.isInert = true) (h' : k'.isInert = false) :
    k ≠ k' := by
  rintro rfl
  exact absurd h (by simp [h'])

end Kind

/-! ### Builders of namespaces and imports -/

namespace NamespaceBuilder

/-- The declaration behind a text, which is solid if it is more than trivia. -/
def absorb (b : NamespaceBuilder) (solid : Bool) : NamespaceBuilder :=
  if solid && b.phase = .fresh then { b with phase := .naming } else b

theorem feed_mute (b : NamespaceBuilder) {t : Token} (ht : t.kind.isMute = true) (l : Levels) :
    b.feed t l = (.quiet, b.absorb (!t.isTrivia)) := by
  have hname (phase) (d : NamespaceDeclaration) : feedName ⟨phase, d⟩ t l =
      (.quiet, ⟨.naming, d⟩) := by
    unfold feedName
    split
    · next h => exact absurd h (Kind.ne_of_isMute ht rfl)
    · next h => exact absurd h (Kind.ne_of_isMute ht rfl)
    · next h => exact absurd h (Kind.ne_of_isMute ht rfl)
    · rw [(Kind.isMute_spec ht).2.1]
      rfl
  obtain ⟨phase, d⟩ := b
  unfold feed absorb
  by_cases htrivia : t.isTrivia = true
  · simp [htrivia]
  · cases phase with
    | finished => simp [htrivia]
    | inBody depth opener =>
      have hclose : t.kind ≠ .closeCurly := Kind.ne_of_isMute ht rfl
      simp [htrivia, feedBody, hclose]
    | fresh => simp [htrivia, hname]
    | naming => simp [htrivia, hname]

theorem absorb_absorb (b : NamespaceBuilder) (x y : Bool) :
    (b.absorb x).absorb y = b.absorb (x || y) := by
  obtain ⟨phase, d⟩ := b
  cases phase <;> cases x <;> cases y <;> rfl

end NamespaceBuilder

namespace ImportBuilder

/-- The declaration behind a text, which is solid if it is more than trivia. -/
def absorb (b : ImportBuilder) (solid : Bool) : ImportBuilder :=
  if solid && b.progress = .pending then { b with progress := .building } else b

theorem feed_mute (b : ImportBuilder) {t : Token} (ht : t.kind.isMute = true) :
    b.feed t = (.quiet, b.absorb (!t.isTrivia)) := by
  have hword (b : ImportBuilder) : b.feedWord t = (.quiet, b) := by
    have hname := (Kind.isMute_spec ht).2.1
    have hidentifier : t.kind ≠ .identifier := Kind.ne_of_isMute ht rfl
    unfold feedWord
    split
    case h_9 => simp [hidentifier, hname]
    all_goals next h => exact absurd h (Kind.ne_of_isMute ht rfl)
  obtain ⟨progress, _⟩ := b
  unfold feed absorb
  by_cases htrivia : t.isTrivia = true
  · simp [htrivia]
  · cases progress <;> simp [htrivia, hword]

theorem absorb_absorb (b : ImportBuilder) (x y : Bool) :
    (b.absorb x).absorb y = b.absorb (x || y) := by
  obtain ⟨progress, _⟩ := b
  cases progress <;> cases x <;> cases y <;> rfl

end ImportBuilder

/-! ### Builders of signatures -/

/-- The draft behind a text, of which a default takes all and an attribute nothing. -/
def ParameterDraft.absorb (d : ParameterDraft) (text : String) : ParameterDraft :=
  if d.skipping.isNone then { d with default := d.default.map (· ++ text) } else d

theorem ParameterDraft.absorb_absorb (d : ParameterDraft) (x y : String) :
    (d.absorb x).absorb y = d.absorb (x ++ y) := by
  obtain ⟨_, _, default, _, skipping⟩ := d
  cases skipping <;> cases default <;> simp [absorb, String.append_assoc]

theorem ParameterDraft.absorb_empty (d : ParameterDraft) : d.absorb "" = d := by
  obtain ⟨_, _, default, _, skipping⟩ := d
  cases skipping <;> cases default <;> simp [absorb]

namespace SignatureBuilder

/-- The signature behind a text, of which a default or the use clause takes all. -/
def absorb (b : SignatureBuilder) (text : String) : SignatureBuilder :=
  match b.phase with
  | .parameters parens unified d => ⟨true, .parameters parens unified (d.absorb text), b.signature⟩
  | .behind false _ =>
    ⟨true, b.phase, { b.signature with useText := b.signature.useText ++ text }⟩
  | _ => { b with fed := true }

/-- Whether the mark of an attribute was just read. -/
def isMarked (b : SignatureBuilder) : Bool :=
  match b.phase with
  | .parameters _ _ d => d.marked
  | _ => false

theorem absorb_absorb (b : SignatureBuilder) (x y : String) :
    (b.absorb x).absorb y = b.absorb (x ++ y) := by
  obtain ⟨fed, phase, signature⟩ := b
  rcases phase with _ | ⟨_, _, d⟩ | ⟨_ | _, _⟩ | _ | _ <;>
    simp [absorb, ParameterDraft.absorb_absorb, String.append_assoc]

theorem absorb_empty (b : SignatureBuilder) : b.absorb "" = { b with fed := true } := by
  obtain ⟨fed, phase, signature⟩ := b
  rcases phase with _ | ⟨_, _, d⟩ | ⟨_ | _, _⟩ | _ | _ <;>
    simp [absorb, ParameterDraft.absorb_empty]

/-- Whether the builder is in the parameter list. -/
def readsList (b : SignatureBuilder) : Bool :=
  match b.phase with
  | .parameters _ _ _ => true
  | _ => false

theorem feedOpening_mute (b : SignatureBuilder) {t : Token} (ht : t.kind.isMute = true)
    (l : Levels) : b.feedOpening t l = (.quiet, b) := by
  have hkeyword := (Kind.isMute_spec ht).2.2.1
  have hidentifier : t.kind ≠ .identifier := Kind.ne_of_isMute ht rfl
  unfold feedOpening
  split
  · next h => exact absurd h (Kind.ne_of_isMute ht rfl)
  · next h => exact absurd h (Kind.ne_of_isMute ht rfl)
  · simp [hidentifier, hkeyword]

theorem feedBehind_mute (b : SignatureBuilder) (inReturn : Bool) (type : TypeDraft) {t : Token}
    (ht : t.kind.isMute = true) (l : Levels) :
    b.feedBehind inReturn type t l = (.quiet, if inReturn then b else
      { b with signature := { b.signature with useText := b.signature.useText ++ t.text } }) := by
  have htype := (Kind.isMute_spec ht).2.2.2
  unfold feedBehind
  simp only
  split
  case h_5 =>
    cases inReturn
    · rfl
    · simp only [if_true]
      split
      case h_3 => simp [htype]
      all_goals next h => exact absurd h (Kind.ne_of_isMute ht rfl)
  all_goals next h => exact absurd h (Kind.ne_of_isMute ht rfl)

/-- Outside the parameter list a mute token leaves nothing but its text. -/
theorem feed_mute {b : SignatureBuilder} (hb : b.readsList = false) {t : Token}
    (ht : t.kind.isMute = true) (l : Levels) : b.feed t l = (.quiet, b.absorb t.text) := by
  obtain ⟨fed, phase, signature⟩ := b
  cases phase with
  | opening => exact feedOpening_mute _ ht l
  | parameters => exact absurd hb nofun
  | behind inReturn type =>
    exact (feedBehind_mute ⟨true, .behind inReturn type, signature⟩ inReturn type ht l).trans
      (by cases inReturn <;> rfl)
  | inBody depth opener =>
    have hclose : t.kind ≠ .closeCurly := Kind.ne_of_isMute ht rfl
    simp [feed, feedBody, hclose, absorb]
  | finished => rfl

theorem feedList_inert (b : SignatureBuilder) (parens unified : Int) {d : ParameterDraft}
    (hd : d.skipping = none) {t : Token} (ht : t.kind.isInert = true) (l : Levels) :
    b.feedList parens unified d t l =
      { b with phase := .parameters parens unified (d.absorb t.text) } := by
  have hne {k : Kind} (hk : k.isInert = false) : t.kind ≠ k := Kind.ne_of_isInert ht hk
  obtain ⟨parameter, type, default, marked, skipping⟩ := d
  obtain rfl : skipping = none := hd
  unfold feedList
  rw [if_neg (by simp [hne (k := .closeParen) rfl])]
  cases default with
  | some text =>
    simp only
    rw [if_neg (by simp [hne (k := .comma) rfl])]
    rfl
  | none =>
    have htype := (Kind.isMute_spec (Kind.isMute_of_isInert ht)).2.2.2
    simp only [feedParameter]
    split
    case h_8 => simp [htype, ParameterDraft.absorb]
    all_goals next h => exact absurd h (hne rfl)

/-- In the parameter list an inert token leaves nothing but its text, unless it is between
the mark of an attribute and the bracket. -/
theorem feedParameters_inert (b : SignatureBuilder) (parens unified : Int) {d : ParameterDraft}
    (hd : d.marked = false) {t : Token} (ht : t.kind.isInert = true) (l : Levels) :
    b.feedParameters parens unified d t l =
      { b with phase := .parameters parens unified (d.absorb t.text) } := by
  have hne {k : Kind} (hk : k.isInert = false) : t.kind ≠ k := Kind.ne_of_isInert ht hk
  obtain ⟨parameter, type, default, marked, skipping⟩ := d
  obtain rfl : marked = false := hd
  unfold feedParameters
  cases skipping with
  | some depth =>
    simp only
    rw [if_neg (by simp [hne (k := .closeSquare) rfl])]
    rfl
  | none =>
    simp only
    rw [if_neg (hne rfl), if_neg (hne rfl), if_neg (by simp)]
    exact feedList_inert b parens unified rfl ht l

theorem feed_inert {b : SignatureBuilder} (hb : b.isMarked = false) {t : Token}
    (ht : t.kind.isInert = true) (l : Levels) : b.feed t l = (.quiet, b.absorb t.text) := by
  by_cases hlist : b.readsList = true
  · obtain ⟨fed, phase, signature⟩ := b
    cases phase with
    | parameters parens unified d =>
      exact congrArg (Prod.mk _) (feedParameters_inert _ parens unified hb ht l)
    | opening | behind | inBody | finished => exact absurd hlist nofun
  · exact feed_mute (by simpa using hlist) (Kind.isMute_of_isInert ht) l

theorem readsList_absorb (b : SignatureBuilder) (text : String) :
    (b.absorb text).readsList = b.readsList := by
  obtain ⟨fed, phase, signature⟩ := b
  rcases phase with _ | _ | ⟨_ | _, _⟩ | _ | _ <;> rfl

/-- The opening of an attribute may be one token or two. -/
theorem feed_attribute {b : SignatureBuilder} (hb : b.isMarked = false) {t mark o : Token}
    (ht : t.kind = .attributeOpen) (hmark : mark.kind = .attributeMarker)
    (ho : o.kind = .openSquare) (htext : mark.text ++ o.text = t.text) (l l' : Levels) :
    ∃ c d, b.feed t l' = (.quiet, c) ∧ b.feed mark l = (.quiet, d) ∧ d.feed o l' = (.quiet, c) := by
  by_cases hlist : b.readsList = true
  · obtain ⟨fed, phase, signature⟩ := b
    cases phase with
    | parameters parens unified d =>
      obtain ⟨parameter, type, default, marked, skipping⟩ := d
      obtain rfl : marked = false := hb
      cases skipping <;> simp [feed, feedParameters, ht, hmark, ho]
    | opening | behind | inBody | finished => exact absurd hlist nofun
  · have hlist : b.readsList = false := by simpa using hlist
    refine ⟨b.absorb t.text, b.absorb mark.text, feed_mute hlist (by rw [ht]; rfl) l',
      feed_mute hlist (by rw [hmark]; rfl) l, ?_⟩
    rw [feed_mute ((b.readsList_absorb _).trans hlist) (by rw [ho]; rfl), absorb_absorb, htext]

theorem isMarked_feedList (b : SignatureBuilder) (parens unified : Int) {d : ParameterDraft}
    (hd : d.marked = false) (t : Token) (l : Levels) :
    (b.feedList parens unified d t l).isMarked = false := by
  unfold feedList
  split
  · rfl
  · split
    · split
      · rfl
      · exact hd
    · simp only [feedParameter]
      split
      case h_7 | h_8 => split <;> first | rfl | exact hd
      all_goals exact hd

theorem isMarked_feedParameters (b : SignatureBuilder) (parens unified : Int) {d : ParameterDraft}
    (hd : d.marked = false) {t : Token} (ht : t.kind ≠ .attributeMarker) (l : Levels) :
    (b.feedParameters parens unified d t l).isMarked = false := by
  unfold feedParameters
  simp only
  split
  · split <;> exact hd
  · rw [if_neg ht]
    split
    · exact hd
    · split
      · rfl
      · exact isMarked_feedList _ _ _ rfl _ _

/-- No token but the mark of an attribute leaves the builder behind such a mark. -/
theorem isMarked_feed {b : SignatureBuilder} (hb : b.isMarked = false) {t : Token}
    (ht : t.kind ≠ .attributeMarker) (l : Levels) : (b.feed t l).2.isMarked = false := by
  obtain ⟨fed, phase, signature⟩ := b
  cases phase with
  | parameters parens unified d => exact isMarked_feedParameters _ parens unified hb ht l
  | opening =>
    simp only [feed, feedOpening]
    split
    · rfl
    · rfl
    · split <;> rfl
  | behind inReturn type =>
    simp only [feed, feedBehind]
    split
    case h_5 =>
      split
      · split
        case h_3 => simp only; split <;> rfl
        all_goals rfl
      · rfl
    all_goals rfl
  | inBody depth opener =>
    simp only [feed, feedBody]
    split <;> rfl
  | finished => rfl

end SignatureBuilder

/-! ### Builders of all features -/

namespace Builder

/-- The builder behind a text, which is solid if it is more than trivia. -/
def absorb (solid : Bool) (text : String) : Builder → Builder
  | .namespaceDeclaration b => .namespaceDeclaration (b.absorb solid)
  | .namespaceImport b => .namespaceImport (b.absorb solid)
  | .functionSignature b => .functionSignature (b.absorb text)

def isMarked : Builder → Bool
  | .functionSignature b => b.isMarked
  | _ => false

theorem absorb_absorb (b : Builder) (solid solid' : Bool) (text text' : String) :
    (b.absorb solid text).absorb solid' text' = b.absorb (solid || solid') (text ++ text') := by
  cases b with
  | namespaceDeclaration b => exact congrArg _ (b.absorb_absorb solid solid')
  | namespaceImport b => exact congrArg _ (b.absorb_absorb solid solid')
  | functionSignature b => exact congrArg _ (b.absorb_absorb text text')

theorem absorb_empty (b : Builder) : (b.absorb false "").begun = b.begun := by
  cases b with
  | namespaceDeclaration b => rfl
  | namespaceImport b => rfl
  | functionSignature b => simp [absorb, begun, SignatureBuilder.absorb_empty]

theorem feed_inert {b : Builder} (hb : b.isMarked = false) {t : Token}
    (ht : t.kind.isInert = true) (l : Levels) :
    b.feed t l = (.quiet, b.absorb (!t.isTrivia) t.text) := by
  have hmute := Kind.isMute_of_isInert ht
  cases b with
  | namespaceDeclaration b => simp [feed, b.feed_mute hmute l, absorb]
  | namespaceImport b => simp [feed, b.feed_mute hmute, absorb]
  | functionSignature b => simp [feed, SignatureBuilder.feed_inert hb ht l, absorb]

theorem feed_attribute {b : Builder} (hb : b.isMarked = false) {t mark o : Token}
    (ht : t.kind = .attributeOpen) (hmark : mark.kind = .attributeMarker)
    (ho : o.kind = .openSquare) (htext : mark.text ++ o.text = t.text) (l l' : Levels) :
    ∃ c d, b.feed t l' = (.quiet, c) ∧ b.feed mark l = (.quiet, d) ∧ d.feed o l' = (.quiet, c) := by
  have hmute : t.kind.isMute = true ∧ mark.kind.isMute = true ∧ o.kind.isMute = true := by
    rw [ht, hmark, ho]
    exact ⟨rfl, rfl, rfl⟩
  have hsolid : t.isTrivia = false ∧ mark.isTrivia = false ∧ o.isTrivia = false := by
    rw [Token.isTrivia, Token.isTrivia, Token.isTrivia, ht, hmark, ho]
    exact ⟨rfl, rfl, rfl⟩
  obtain ⟨ht', hmark', ho'⟩ := hmute
  obtain ⟨ht'', hmark'', ho''⟩ := hsolid
  cases b with
  | namespaceDeclaration b =>
    refine ⟨.namespaceDeclaration (b.absorb true), .namespaceDeclaration (b.absorb true),
      ?_, ?_, ?_⟩
    · simp [feed, b.feed_mute ht', ht'']
    · simp [feed, b.feed_mute hmark', hmark'']
    · simp [feed, NamespaceBuilder.feed_mute _ ho', ho'', NamespaceBuilder.absorb_absorb]
  | namespaceImport b =>
    refine ⟨.namespaceImport (b.absorb true), .namespaceImport (b.absorb true), ?_, ?_, ?_⟩
    · simp [feed, b.feed_mute ht', ht'']
    · simp [feed, b.feed_mute hmark', hmark'']
    · simp [feed, ImportBuilder.feed_mute _ ho', ho'', ImportBuilder.absorb_absorb]
  | functionSignature b =>
    obtain ⟨c, d, hc, hd, ho⟩ := SignatureBuilder.feed_attribute hb ht hmark ho htext l l'
    exact ⟨.functionSignature c, .functionSignature d, by simp [feed, hc], by simp [feed, hd],
      by simp [feed, ho]⟩

theorem isMarked_feed {b : Builder} (hb : b.isMarked = false) {t : Token}
    (ht : t.kind ≠ .attributeMarker) (l : Levels) : (b.feed t l).2.isMarked = false := by
  cases b with
  | namespaceDeclaration b => rfl
  | namespaceImport b => rfl
  | functionSignature b => exact SignatureBuilder.isMarked_feed hb ht l

end Builder

theorem Feature.isMarked_start (f : Feature) (opener : Option Token) :
    (f.start opener).isMarked = false := by
  cases f <;> rfl

end TokenAtlas
