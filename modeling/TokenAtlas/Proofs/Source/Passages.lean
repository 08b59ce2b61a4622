import TokenAtlas.Proofs.Source.Items
import TokenAtlas.Proofs.Source.Recovery

/-! Functions among the tokens of another one. A word that opens a function opens a builder of its
own while there is room, and this one takes every token up to the end of the function. Main
statement: of tokens with matched brackets a signature builder takes those that stand in no
function among them, and behind them all it is where these alone lead to. -/

namespace TokenAtlas

open SignatureBuilder

/-- The beginning of a function, up to the bracket that opens its parameter list. -/
structure Signature.Opening where
  word : Token
  header : List Token
  opener : Token
  isWord : Feature.ofOpener word.kind = some .functionSignature
  isVisible : ∃ c ∈ word.text.toList, Text.isBlank c = false
  isHeader : ∀ t ∈ header, t.kind.isHeaderPart = true
  isOpener : opener.kind = .openParen

/-- The bracket that closes a parameter list, and what stands behind it up to the end of the
function or its body. -/
structure Signature.Closing where
  closer : Token
  behind : List Token
  isCloser : closer.kind = .closeParen
  isBehind : Nested Kind.isBehindPart behind

/-- Tokens with matched brackets, in which functions may stand. Functions may stand in the
parameter lists and in the bodies of these again. -/
inductive Passage
  | nil
  | token (t : Token) (hplain : t.kind.bracket = none)
      (hopener : Feature.ofOpener t.kind ≠ some .functionSignature) (rest : Passage)
  | group (family : Family) (o c : Token) (ho : o.kind.bracket = some (family, .opening))
      (hc : c.kind.bracket = some (family, .closing)) (inner rest : Passage)
  | signature (front : Signature.Opening) (list : Passage) (back : Signature.Closing)
      (stop : Token) (hstop : stop.kind = .semicolon ∨ stop.kind = .doubleArrow) (rest : Passage)
  | function (front : Signature.Opening) (list : Passage) (back : Signature.Closing) (o c : Token)
      (ho : o.kind = .openCurly) (hc : c.kind = .closeCurly) (body rest : Passage)

/-- The tokens between the word that opens a function and its end or its body. -/
def Signature.span (front : Opening) (list : List Token) (back : Closing) : List Token :=
  front.header ++ front.opener :: (list ++ back.closer :: back.behind)

namespace Passage

def tokens : Passage → List Token
  | nil => []
  | token t _ _ rest => t :: rest.tokens
  | group _ o c _ _ inner rest => o :: (inner.tokens ++ c :: rest.tokens)
  | signature front list back stop _ rest =>
    front.word :: (Signature.span front list.tokens back ++ stop :: rest.tokens)
  | function front list back o c _ _ body rest =>
    front.word :: (Signature.span front list.tokens back ++
      o :: (body.tokens ++ c :: rest.tokens))

/-- The tokens that stand in no function among them. -/
def outside : Passage → List Token
  | nil => []
  | token t _ _ rest => t :: rest.outside
  | group _ o c _ _ inner rest => o :: (inner.outside ++ c :: rest.outside)
  | signature _ _ _ _ _ rest => rest.outside
  | function _ _ _ _ _ _ _ _ rest => rest.outside

/-- Whether no function stands among the tokens. -/
def isPlain : Passage → Bool
  | nil => true
  | token _ _ _ rest => rest.isPlain
  | group _ _ _ _ _ inner rest => inner.isPlain && rest.isPlain
  | signature .. | function .. => false

/-- The tokens that are left to a builder above `enclosing` others. Where there is no room for
another one these are all. -/
def seen (p : Passage) (enclosing : Nat) : List Token :=
  if enclosing + 1 < Limits.nesting then p.outside else p.tokens

end Passage

/-! ### Matched brackets -/

namespace Nested

variable {part : Kind → Bool} {as bs : List Token}

theorem append (ha : Nested part as) (hb : Nested part bs) : Nested part (as ++ bs) := by
  induction ha with
  | nil => exact hb
  | token hpart hplain _ ih => exact .token hpart hplain ih
  | group hopart hcpart ho hc hinner _ _ ih =>
    rw [List.cons_append, List.append_assoc, List.cons_append]
    exact .group hopart hcpart ho hc hinner ih

end Nested

namespace Paired

variable {family : Family} {as bs : List Token}

theorem append (ha : Paired family as) (hb : Paired family bs) : Paired family (as ++ bs) := by
  induction ha with
  | nil => exact hb
  | other ht _ ih => exact .other ht ih
  | group ho hc hinner _ _ ih =>
    rw [List.cons_append, List.append_assoc, List.cons_append]
    exact .group ho hc hinner ih

/-- Where all brackets match those of one family do. -/
theorem of_nested {part : Kind → Bool} (h : Nested part as) : Paired family as := by
  induction h with
  | nil => exact .nil
  | token _ hplain _ ih => exact .other (by simp [hplain]) ih
  | @group other o c inner rest _ _ ho hc _ _ ihinner ihrest =>
    by_cases heq : other = family
    · subst heq
      exact .group ho hc ihinner ihrest
    · exact .other (by simp [ho, heq]) (ihinner.append (.other (by simp [hc, heq]) ihrest))

end Paired

theorem Signature.nested_span (front : Opening) {list : List Token}
    (hlist : Nested (fun _ => true) list) (back : Closing) :
    Nested (fun _ => true) (span front list back) := by
  refine .of_plain_append (fun t ht => ⟨rfl, (Kind.isHeaderPart_spec (front.isHeader t ht)).1⟩) ?_
  exact .group rfl rfl (by rw [front.isOpener]; rfl) (by rw [back.isCloser]; rfl) hlist
    (back.isBehind.mono fun _ _ => rfl)

namespace Passage

theorem nested_outside (p : Passage) : Nested (fun _ => true) p.outside := by
  induction p with
  | nil => exact .nil
  | token t hplain hopener rest ih => exact .token rfl hplain ih
  | group family o c ho hc inner rest ihinner ihrest => exact .group rfl rfl ho hc ihinner ihrest
  | signature front list back stop hstop rest _ ih => exact ih
  | function front list back o c ho hc body rest _ _ ih => exact ih

theorem nested_tokens (p : Passage) : Nested (fun _ => true) p.tokens := by
  induction p with
  | nil => exact .nil
  | token t hplain hopener rest ih => exact .token rfl hplain ih
  | group family o c ho hc inner rest ihinner ihrest => exact .group rfl rfl ho hc ihinner ihrest
  | signature front list back stop hstop rest ihlist ihrest =>
    exact .token rfl (Kind.bracket_of_ofOpener front.isWord)
      ((Signature.nested_span front ihlist back).append
        (.token rfl (Kind.bracket_of_stop hstop) ihrest))
  | function front list back o c ho hc body rest ihlist ihbody ihrest =>
    exact .token rfl (Kind.bracket_of_ofOpener front.isWord)
      ((Signature.nested_span front ihlist back).append
        (.group rfl rfl (by rw [ho]; rfl) (by rw [hc]; rfl) ihbody ihrest))

theorem nested_seen (p : Passage) (enclosing : Nat) :
    Nested (fun _ => true) (p.seen enclosing) := by
  unfold seen
  split
  · exact p.nested_outside
  · exact p.nested_tokens

end Passage

/-! ### What a builder takes -/

namespace SignatureBuilder

theorem Takes.of_append {b d : SignatureBuilder} {l : Levels} {as bs : List Token}
    (h : b.Takes l (as ++ bs) d) : ∃ c, b.Takes l as c ∧ c.Takes (l.behind as) bs d := by
  induction as generalizing b l with
  | nil => exact ⟨b, .nil b l, h⟩
  | cons t as ih =>
    cases h with
    | step hfeed hrest =>
      obtain ⟨c, has, hbs⟩ := ih hrest
      exact ⟨c, .step hfeed has, hbs⟩

/-- Of the tokens `whole` those in `part` are left to the builder above `enclosing` others, and
it is led to where they lead to. -/
def Carries (enclosing : Nat) (part whole : List Token) : Prop :=
  ∀ (l : Levels) (b d : SignatureBuilder) (below : List Builder), below.length = enclosing →
    b.Takes l part d → ∃ xs : List (Token × List Product), xs.map Prod.fst = whole ∧
      Site.Yields (.reading l b below) xs (.reading (l.behind part) d below)

namespace Carries

variable {enclosing : Nat} {part part' whole whole' : List Token}

theorem append (h : Carries enclosing part whole) (h' : Carries enclosing part' whole') :
    Carries enclosing (part ++ part') (whole ++ whole') := by
  intro l b d below hlength htakes
  obtain ⟨c, htakes, htakes'⟩ := htakes.of_append
  obtain ⟨xs, hxs, hyields⟩ := h l b c below hlength htakes
  obtain ⟨ys, hys, hyields'⟩ := h' (l.behind part) c d below hlength htakes'
  refine ⟨xs ++ ys, by rw [List.map_append, hxs, hys], ?_⟩
  rw [Levels.behind_append]
  exact hyields.append hyields'

theorem nil (enclosing : Nat) : Carries enclosing [] [] := by
  intro l b d below _ htakes
  cases htakes
  exact ⟨[], rfl, .nil _⟩

/-- What opens no function is left to the builder. -/
theorem plain {ts : List Token}
    (h : ∀ t ∈ ts, Feature.ofOpener t.kind ≠ some .functionSignature) :
    Carries enclosing ts ts := by
  intro l b d below _ htakes
  refine ⟨ts.map (·, []), by simp [Function.comp_def], Site.Quiet.yields ?_⟩
  induction htakes with
  | nil => exact .nil _
  | @step b c d l t rest hint hfeed _ ih =>
    exact .step (Site.next_reading below (h t List.mem_cons_self) hfeed)
      (ih fun u hu => h u (List.mem_cons_of_mem _ hu))

theorem cons {t : Token} (ht : Feature.ofOpener t.kind ≠ some .functionSignature)
    (h : Carries enclosing part whole) : Carries enclosing (t :: part) (t :: whole) := by
  have hfirst : Carries enclosing [t] [t] := plain (by simpa using ht)
  exact hfirst.append h

/-- Where there is no room everything is left to the builder. -/
theorem full (hfull : Limits.nesting ≤ enclosing + 1) (ts : List Token) :
    Carries enclosing ts ts := by
  intro l b d below hlength htakes
  refine ⟨ts.map (·, []), by simp [Function.comp_def], Site.Quiet.yields ?_⟩
  induction htakes with
  | nil => exact .nil _
  | @step b c d l t rest hint hfeed _ ih =>
    refine .step ?_ ih
    by_cases ht : Feature.ofOpener t.kind = some .functionSignature
    · have hfeed' : Builder.feed (.functionSignature b) t (l.onto t.kind) =
          (⟨false, hint, []⟩, .functionSignature c) := by
        simp only [Builder.feed, hfeed]
        rfl
      exact Site.next_full ht rfl (by rw [List.length_cons, hlength]; exact hfull) hfeed'
    · exact Site.next_reading below ht hfeed

end Carries

end SignatureBuilder

/-- With room for it a function is complete at its last token, as what its builder makes of the
tokens that are left to it, and the builders below are as before. -/
theorem Site.yields_function {enclosing : Nat} {word final : Token} {part whole : List Token}
    {l : Levels} {builders : List Builder} {d : SignatureBuilder} {s : Signature}
    (hword : Feature.ofOpener word.kind = some .functionSignature)
    (hyes : Feature.verifySignature builders.head? = .yes) (hlength : builders.length = enclosing)
    (hroom : enclosing < Limits.nesting) (hcarries : Carries enclosing part whole)
    (htakes : (opened word).Takes l part d) (hopener : Feature.ofOpener final.kind = none)
    (hfinal : d.feed final ((l.behind part).onto final.kind) =
      (.finished, ⟨true, .finished, s⟩)) :
    ∃ xs : List (Token × List Product), xs.map Prod.fst = word :: whole ∧
      Yields ⟨l, ⟨builders, none⟩⟩ (xs ++ [(final, [.functionSignature s])])
        ⟨(l.behind part).past final.kind, ⟨builders, none⟩⟩ := by
  have hfirst := next_yes (l := l) hword hyes (hlength ▸ hroom)
  rw [Levels.past_of_bracket_none (Kind.bracket_of_ofOpener hword)] at hfirst
  obtain ⟨xs, hxs, hyields⟩ := hcarries l _ d builders hlength htakes
  have hlast := next_signature_end builders hopener hfinal rfl
  exact ⟨(word, []) :: xs, congrArg (word :: ·) hxs,
    .step hfirst (hyields.append (.step hlast (.nil _)))⟩

/-! ### Functions -/

namespace SignatureBuilder

/-- The tokens of a function with such an end are taken up to the last one, and with this one
the builder is done. -/
theorem takes_span (front : Signature.Opening) {list : List Token}
    (hlist : Nested (fun _ => true) list) (back : Signature.Closing) (x : Written.Ending)
    (l : Levels) :
    ∃ d s, (opened front.word).Takes l (Signature.span front list back ++ x.front) d ∧
      d.feed x.final ((l.behind (Signature.span front list back ++ x.front)).onto x.final.kind) =
        (.finished, ⟨true, .finished, s⟩) := by
  have hheader : l.behind front.header = l :=
    l.behind_of_plain fun t ht => (Kind.isHeaderPart_spec (front.isHeader t ht)).1
  have hspan := (Signature.nested_span front hlist back).levels_behind l
  obtain ⟨b₁, htakes₁, hb₁⟩ := takes_header front.isHeader l (b := opened front.word) rfl
  obtain ⟨b₂, inReturn, type, htakes₂, hb₂⟩ :=
    takes_listed front.isOpener hlist back.isCloser back.isBehind l hb₁
  obtain ⟨d, htakes₃, hfinal⟩ := x.finishes l hb₂
  have hhead : (opened front.word).Takes l (Signature.span front list back) b₂ :=
    htakes₁.append (by rwa [hheader])
  have hlevels : l.behind (Signature.span front list back ++ x.front) = l.behind x.front := by
    rw [Levels.behind_append, hspan]
  rw [← hlevels] at hfinal
  exact ⟨d, _, hhead.append (by rwa [hspan]), hfinal⟩

end SignatureBuilder

theorem Written.Ending.ofOpener_final (x : Ending) : Feature.ofOpener x.final.kind = none := by
  cases x with
  | stop t ht => rcases ht with hk | hk <;> rw [final, hk] <;> rfl
  | body o c content ho hc paired =>
    rw [final, hc]
    rfl

namespace SignatureBuilder

/-- With room for it nothing of a function is left to the builder that it stands under. -/
theorem Carries.function {enclosing : Nat} (hroom : enclosing + 1 < Limits.nesting)
    (front : Signature.Opening) {list whole : List Token} (hnested : Nested (fun _ => true) list)
    (hlist : Carries (enclosing + 1) list whole) (back : Signature.Closing) (x : Written.Ending)
    {ending : List Token} (hending : Carries (enclosing + 1) x.front ending)
    (hlevels : ∀ l : Levels, (l.behind x.front).past x.final.kind = l) :
    Carries enclosing []
      (front.word :: (Signature.span front whole back ++ ending) ++ [x.final]) := by
  intro l b d below hlength htakes
  cases htakes
  obtain ⟨d, s, htakes, hfinal⟩ := takes_span front hnested back x l
  have hspan : Carries (enclosing + 1) (Signature.span front list back)
      (Signature.span front whole back) := by
    refine (Carries.plain fun t ht => ?_).append (.cons ?_ (hlist.append (.plain fun t ht => ?_)))
    · exact Kind.ofOpener_ne_of_isSignaturePart
        (Kind.isSignaturePart_of_isHeaderPart (front.isHeader t ht))
    · rw [front.isOpener]
      decide
    · rcases List.mem_cons.1 ht with rfl | ht
      · rw [back.isCloser]
        decide
      · exact Kind.ofOpener_ne_of_isSignaturePart
          (Kind.isSignaturePart_of_isBehindPart (back.isBehind.parts t ht))
  have habove : (Builder.functionSignature b :: below).length = enclosing + 1 := by
    rw [List.length_cons, hlength]
  obtain ⟨xs, hxs, hyields⟩ := Site.yields_function front.isWord rfl habove hroom
    (hspan.append hending) htakes x.ofOpener_final hfinal
  rw [Levels.behind_append, (Signature.nested_span front hnested back).levels_behind, hlevels]
    at hyields
  refine ⟨xs ++ [(x.final, [Product.functionSignature s])], ?_, hyields⟩
  rw [List.map_append, hxs]
  rfl

end SignatureBuilder

namespace Passage

theorem carries_seen {p : Passage} {enclosing : Nat}
    (h : enclosing + 1 < Limits.nesting → Carries enclosing p.outside p.tokens) :
    Carries enclosing (p.seen enclosing) p.tokens := by
  by_cases hroom : enclosing + 1 < Limits.nesting
  · rw [seen, if_pos hroom]
    exact h hroom
  · rw [seen, if_neg hroom]
    exact .full (Nat.not_lt.1 hroom) _

/-- With room for another builder those tokens are left that stand in no function. -/
theorem carries_outside (p : Passage) {enclosing : Nat} (hroom : enclosing + 1 < Limits.nesting) :
    Carries enclosing p.outside p.tokens := by
  -- the builder of a function is one more, and may have no room above it
  induction p generalizing enclosing with
  | nil => exact .nil _
  | token t hplain hopener rest ih => exact .cons hopener (ih hroom)
  | group family o c ho hc inner rest ihinner ihrest =>
    exact .cons (by simp [Kind.ofOpener_of_bracket ho]) ((ihinner hroom).append
      (.cons (by simp [Kind.ofOpener_of_bracket hc]) (ihrest hroom)))
  | signature front list back stop hstop rest ihlist ihrest =>
    have hfunction := Carries.function hroom front (list.nested_seen _) (carries_seen ihlist) back
      (.stop stop hstop) (.nil _) (Levels.past_of_bracket_none (Kind.bracket_of_stop hstop))
    simpa [tokens, outside, Written.Ending.final] using hfunction.append (ihrest hroom)
  | function front list back o c ho hc body rest ihlist ihbody ihrest =>
    have hoBracket : o.kind.bracket = some (.curly, .opening) := by rw [ho]; rfl
    have hcBracket : c.kind.bracket = some (.curly, .closing) := by rw [hc]; rfl
    have hbody := body.nested_seen (enclosing + 1)
    have hfunction := Carries.function hroom front (list.nested_seen _) (carries_seen ihlist) back
      (.body o c (body.seen (enclosing + 1)) ho hc (.of_nested hbody))
      (.cons (by rw [ho]; decide) (carries_seen ihbody)) fun l => by
        rw [Written.Ending.front, Written.Ending.final, Levels.behind_cons,
          l.past_opening hoBracket, hbody.levels_behind, Levels.past_closing hcBracket]
    simpa [tokens, outside, Written.Ending.final] using hfunction.append (ihrest hroom)

/-- Behind tokens with matched brackets a builder is where those lead to that stand in no function
among them, or all of them if there is no room for another builder. -/
theorem carries (p : Passage) (enclosing : Nat) :
    Carries enclosing (p.seen enclosing) p.tokens :=
  carries_seen p.carries_outside

end Passage

end TokenAtlas
