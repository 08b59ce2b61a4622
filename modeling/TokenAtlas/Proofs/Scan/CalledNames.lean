import TokenAtlas.Proofs.Cursor.Lookahead
import TokenAtlas.Proofs.Scan.Once

/-! Identifiers in front of an opening round bracket. Such a name is that of a function unless a
word that introduces classes is found in front of it, past names, commas and trivia. Every such
word is looked for alike, whether or not a list can follow it. Main statement: a called name is
yielded as the name of a class exactly if the nearest token that is no part of a list of names
introduces classes, however many commas stand between. -/

namespace TokenAtlas

open Cursor (nearest)

namespace Classification

/-- Whether a list of names behind these tokens, the latest first, has a word in front that
introduces classes. -/
def isIntroduced (before : List Token) : Bool :=
  ((before.take Limits.lookahead).find? (!isNameList ·)).any (·.kind.introducesClass)

/-- Whether a name behind these tokens, the latest first, is a type to catch. -/
def isCaught (before : List Token) : Bool :=
  (nearest isTypeUnion before).any fun found =>
    found.1.kind = .openParen &&
      (nearest Token.isTrivia found.2).any fun word => word.1.kind = .catchWord

theorem namesClass_eq (before : List Token) :
    namesClass before = (isIntroduced before || isCaught before) := by
  rw [isIntroduced, ← Cursor.map_fst_firstKept, Option.any_map, isCaught, namesClass]
  congr 1
  rcases nearest isTypeUnion before with _ | ⟨t, rest⟩ <;> rfl

variable {c : Cursor} {t : Token} {blanks : List Token}

/-- An opening round bracket is seen past blanks. -/
theorem opensCall_of_plan {opener : Token} {rest : List (Except Atom.Refusal Token)}
    (hplan : c.plan = (blanks ++ [opener]).map .ok ++ rest)
    (hblank : ∀ b ∈ blanks, b.kind.isWhitespace = true) (hopener : opener.kind = .openParen)
    (hnear : blanks.length < Limits.lookahead) : (opensCall c).1 = true := by
  have hseen : (c.aheadSkipping (·.kind.isWhitespace)).1 = some opener := by
    obtain ⟨more, hmore⟩ : ∃ more, Limits.lookahead = blanks.length + (more + 1) :=
      ⟨Limits.lookahead - blanks.length - 1, by omega⟩
    have hblanks : blanks.find? (fun b => !b.kind.isWhitespace) = none := by
      simpa using hblank
    rw [Cursor.aheadSkipping, Cursor.aheadFrom_eq, List.drop_zero, hplan, Cursor.leading_append,
      List.append_assoc, hmore, List.take_length_add_append, List.find?_append, hblanks,
      Option.none_or, List.singleton_append, List.take_succ_cons,
      List.find?_cons_of_pos (by rw [hopener]; rfl)]
  simp only [opensCall, hseen, Option.any_some, hopener, decide_true]

/-- A called name that is not reserved is that of a class if a word in front makes it one. -/
theorem ofIdentifier_of_opensCall (hreserved : Category.ofReserved t.text = none)
    (hcall : (opensCall c).1 = true) (readsTypes : Bool) :
    (ofIdentifier t c readsTypes).1 =
      if namesClass c.before then .className else .functionName := by
  unfold ofIdentifier ofOpenIdentifier
  simp only [hreserved, hcall, if_true]
  split <;> rfl

/-- A called name without a hint that is neither reserved nor a label is that of a class if a
word in front makes it one, and that of a function otherwise. -/
theorem decide_of_called {opener : Option Kind} {s : Surroundings} (hunhinted : s.hint = none)
    (hunlabelled : (nearest Token.isTrivia c.before).any (·.1.kind = .caseWord) = false)
    (hidentifier : t.kind = .identifier) (hreserved : Category.ofReserved t.text = none)
    (hcall : (opensCall c).1 = true) :
    (decide t opener s c).1.1 = if namesClass c.before then .className else .functionName := by
  have hlabel : isCaseLabel t c = false := by
    rw [isCaseLabel, Cursor.previousSignificant, Cursor.behindSkipping, Option.any_map]
    exact Bool.and_eq_false_imp.2 fun _ => hunlabelled
  have hkind : Category.ofKind t.kind = none := by rw [hidentifier]; rfl
  have hcloses : t.kind ≠ .closeCurly := by rw [hidentifier]; decide
  have hsegment : t.kind.isNameSegment = false := by rw [hidentifier]; rfl
  rw [← ofIdentifier_of_opensCall hreserved hcall s.readsTypes]
  simp [Classification.decide, hunhinted, hlabel, hcloses, hsegment, hkind]

end Classification

/-- Behind a move to a planned token the others are still planned. -/
theorem Cursor.of_advance {c d : Cursor} {t u : Token} {rest : List (Except Atom.Refusal Token)}
    (h : c.advance = (.ok (some u), d)) (hplan : c.plan = .ok t :: rest) :
    d.before = c.past ∧ d.plan = rest := by
  rcases c.advance_cases with ⟨v, more, e, hv, he, hrest, hpast, -⟩ | ⟨e, more, e', he, -⟩ |
    ⟨e, hnil, -⟩
  · rw [hplan] at hv
    obtain ⟨-, rfl⟩ := List.cons.inj hv
    obtain rfl : e = d := (Prod.mk.inj (he.symm.trans h)).2
    exact ⟨by rw [Cursor.before, hpast]; rfl, hrest⟩
  · simp [hplan] at he
  · simp [hplan] at hnil

open Classification

namespace Scanner

variable {o : ScanOptions} {source before : List Token} {t : Token} {blanks : List Token}

/-- A scan comes to the identifier `t` behind the tokens `before`, and an opening round bracket
follows behind `blanks`. No builder has a hint for the name. It is not reserved, not a label and
not a type to catch. -/
structure CalledName (o : ScanOptions) (source before : List Token) (t : Token)
    (blanks : List Token) : Prop where
  planned : ∃ opener rest, opener.kind = .openParen ∧
    source.flatMap (Cursor.contribution o.splitting) =
      (before ++ t :: (blanks ++ [opener])).map .ok ++ rest
  few : before.length < Limits.tokenCount
  identifier : t.kind = .identifier
  blank : ∀ b ∈ blanks, b.kind.isWhitespace = true
  unhinted : (((ofTokens o source).after before.length).surroundings t).hint = none
  unreserved : Category.ofReserved t.text = none
  unlabelled : ((nearest Token.isTrivia before.reverse).any (·.1.kind = .caseWord)) = false
  uncaught : isCaught before.reverse = false

/-- A called name is that of a class exactly if the nearest token in front that is no part of a
list of names is a word that introduces classes, and that of a function otherwise. -/
theorem called_name_category (h : CalledName o source before t blanks)
    (hnear : blanks.length < Limits.lookahead) :
    ∃ x : ScannedToken, ((ofTokens o source).after before.length).next.value = .ok (some x) ∧
      x.index = before.length ∧ x.token = t ∧
      x.category = if isIntroduced before.reverse then .className else .functionName := by
  obtain ⟨opener, rest, hopener, hplan⟩ := h.planned
  have hplan' : (ofTokens o source).cursor.plan =
      before.map .ok ++ (.ok t :: ((blanks ++ [opener]).map .ok ++ rest)) := by
    rw [plan_ofTokens, ← ScanOptions.splitting, hplan, List.map_append, List.append_assoc]
    rfl
  obtain ⟨hpass, hnext⟩ := passed_of_plan rfl hplan'
    (by rw [yielded_ofTokens, Nat.zero_add]; exact Nat.le_of_lt h.few)
  have hyielded : ((ofTokens o source).after before.length).cursor.yielded = before.length := by
    rw [hpass.yielded, yielded_ofTokens, Nat.zero_add]
  have hpast : ((ofTokens o source).after before.length).cursor.past = before.reverse := by
    rw [hpass.past]
    exact List.append_nil _
  obtain ⟨x, hx, hindex, rfl, hmoved, hrest⟩ :=
    next_token hpass.running hnext (by rw [hyielded]; exact h.few)
  refine ⟨x, hx, hindex.trans hyielded, rfl, ?_⟩
  obtain ⟨role, c, hc⟩ := ((unclassified_ofTokens o source).after before.length).classifies hx
  obtain ⟨hbefore, hahead⟩ := Cursor.of_advance hc.advance hnext
  rw [hpast] at hbefore
  have hcategory := congrArg (·.1.1) hc.category
  rw [decide_of_called h.unhinted (by rw [hbefore]; exact h.unlabelled) h.identifier h.unreserved
    (opensCall_of_plan hahead h.blank hopener hnear), hbefore, namesClass_eq, h.uncaught,
    Bool.or_false] at hcategory
  exact hcategory.symm

/-- The name of a class in a list of arguments, with a call as the next argument. -/
def classNameArgument : List Token :=
  [⟨.identifier, "A", 1, 0⟩, ⟨.doubleColon, "::", 1, 1⟩, ⟨.classWord, "class", 1, 3⟩,
    ⟨.comma, ",", 1, 8⟩, ⟨.whitespace, " ", 1, 9⟩, ⟨.identifier, "g", 1, 10⟩,
    ⟨.whitespace, " ", 1, 11⟩, ⟨.openParen, "(", 1, 12⟩, ⟨.closeParen, ")", 1, 13⟩]

theorem called_name_category_classNameArgument :
    CalledName ⟨true, false⟩ classNameArgument (classNameArgument.take 5)
        ⟨.identifier, "g", 1, 10⟩ [⟨.whitespace, " ", 1, 11⟩] ∧
      ∃ x : ScannedToken,
        ((ofTokens ⟨true, false⟩ classNameArgument).after 5).next.value = .ok (some x) ∧
        x.index = 5 ∧ x.token = ⟨.identifier, "g", 1, 10⟩ ∧ x.category = .className := by
  have hcalled : CalledName ⟨true, false⟩ classNameArgument (classNameArgument.take 5)
      ⟨.identifier, "g", 1, 10⟩ [⟨.whitespace, " ", 1, 11⟩] :=
    { planned := ⟨⟨.openParen, "(", 1, 12⟩, [.ok ⟨.closeParen, ")", 1, 13⟩], by decide +kernel⟩
      few := by decide
      identifier := rfl
      blank := by decide
      unhinted := by decide +kernel
      unreserved := by decide +kernel
      unlabelled := by decide +kernel
      uncaught := by decide +kernel }
  exact ⟨hcalled, called_name_category hcalled (by decide)⟩

/-- A new object in a list of arguments, with a call as the next argument. -/
def newArgument : List Token :=
  [⟨.newWord, "new", 1, 0⟩, ⟨.whitespace, " ", 1, 3⟩, ⟨.identifier, "A", 1, 4⟩,
    ⟨.comma, ",", 1, 5⟩, ⟨.whitespace, " ", 1, 6⟩, ⟨.identifier, "g", 1, 7⟩,
    ⟨.openParen, "(", 1, 8⟩, ⟨.closeParen, ")", 1, 9⟩]

/-- A comma does not keep a called name from the reach of a word that one name follows. -/
theorem comma_does_not_end_reach :
    ¬ ∀ (o : ScanOptions) (source behind list : List Token) (word t : Token)
        (blanks : List Token),
      CalledName o source (behind ++ word :: list) t blanks →
      word.kind ∈ [.newWord, .instanceofWord, .classWord, .interfaceWord, .traitWord, .enumWord] →
      (∀ u ∈ list, isNameList u = true) → (∃ u ∈ list, u.kind = .comma) →
      ∃ x : ScannedToken,
        ((ofTokens o source).after (behind ++ word :: list).length).next.value = .ok (some x) ∧
        x.category = .functionName := by
  intro hclaim
  have hcalled : CalledName ⟨true, false⟩ newArgument (newArgument.take 5)
      ⟨.identifier, "g", 1, 7⟩ [] :=
    { planned := ⟨⟨.openParen, "(", 1, 8⟩, [.ok ⟨.closeParen, ")", 1, 9⟩], by decide +kernel⟩
      few := by decide
      identifier := rfl
      blank := by decide
      unhinted := by decide +kernel
      unreserved := by decide +kernel
      unlabelled := by decide +kernel
      uncaught := by decide +kernel }
  obtain ⟨x, hx, hfunction⟩ := hclaim ⟨true, false⟩ newArgument [] ((newArgument.take 5).drop 1)
    ⟨.newWord, "new", 1, 0⟩ _ _ hcalled (by decide) (by decide +kernel) (by decide +kernel)
  have hclass : ((ofTokens ⟨true, false⟩ newArgument).after 5).next.value =
      .ok (some ⟨5, ⟨.identifier, "g", 1, 7⟩, .className, [.resolved "g"]⟩) := by
    decide +kernel
  obtain rfl := Option.some.inj (Except.ok.inj (hclass.symm.trans hx))
  exact absurd hfunction (by decide)

end Scanner

end TokenAtlas
