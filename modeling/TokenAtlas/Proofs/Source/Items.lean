import TokenAtlas.Proofs.Source.Reading

/-! Functions inside functions. Program items are plain tokens, bracket groups, signatures
without a body, and functions whose body consists of items again. Main statement: over items
every function is complete at its own end, as the signature that its own tokens alone make,
and behind them no feature is open. A function inside as many bodies as can be open at once
is passed over, and its body with it. -/

namespace TokenAtlas

/-- Program items, one behind the other. -/
inductive Items
  | nil
  | token (t : Token) (hplain : t.kind.bracket = none) (hopener : Feature.ofOpener t.kind = none)
      (rest : Items)
  | group (family : Family) (o c : Token) (ho : o.kind.bracket = some (family, .opening))
      (hc : c.kind.bracket = some (family, .closing)) (inner rest : Items)
  | signature (head : List Token) (stop : Token) (hhead : Signature.Head head)
      (hstop : stop.kind = .semicolon ∨ stop.kind = .doubleArrow) (rest : Items)
  | function (head : List Token) (o c : Token) (hhead : Signature.Head head)
      (ho : o.kind = .openCurly) (hc : c.kind = .closeCurly) (body rest : Items)

namespace Items

def tokens : Items → List Token
  | nil => []
  | token t _ _ rest => t :: rest.tokens
  | group _ o c _ _ inner rest => o :: (inner.tokens ++ c :: rest.tokens)
  | signature head stop _ _ rest => head ++ stop :: rest.tokens
  | function head o c _ _ _ body rest => head ++ o :: (body.tokens ++ c :: rest.tokens)

/-- What becomes of a signature inside so many bodies. -/
def recognized (enclosing : Nat) (s : Signature) : List Product :=
  if enclosing < Limits.nesting then [.functionSignature s] else []

/-- The tokens, each with what is complete there. The items stand inside `enclosing` bodies
and at the curly depth `depth`. -/
def marked : Items → Nat → Int → List (Token × List Product)
  | nil, _, _ => []
  | token t _ _ rest, enclosing, depth => (t, []) :: rest.marked enclosing depth
  | group family o c _ _ inner rest, enclosing, depth =>
    (o, []) :: (inner.marked enclosing (if family = .curly then depth + 1 else depth) ++
      (c, []) :: rest.marked enclosing depth)
  | signature head stop _ _ rest, enclosing, depth =>
    head.map (·, []) ++ (stop, recognized enclosing (SignatureBuilder.alone (head ++ [stop]))) ::
      rest.marked enclosing depth
  | function head o c _ _ _ body rest, enclosing, depth =>
    head.map (·, []) ++ (o, []) :: (body.marked (enclosing + 1) (depth + 1) ++
      (c, recognized enclosing
        { SignatureBuilder.alone (head ++ [o, c]) with body := some ⟨depth + 1, o, c⟩ }) ::
      rest.marked enclosing depth)

theorem map_fst_marked (items : Items) (enclosing : Nat) (depth : Int) :
    (items.marked enclosing depth).map Prod.fst = items.tokens := by
  induction items generalizing enclosing depth with
  | nil => rfl
  | token t hplain hopener rest ih => simp [marked, tokens, ih]
  | group family o c ho hc inner rest ihinner ihrest => simp [marked, tokens, ihinner, ihrest]
  | signature head stop hhead hstop rest ih =>
    simp [marked, tokens, ih, Function.comp_def]
  | function head o c hhead ho hc body rest ihbody ihrest =>
    simp [marked, tokens, ihbody, ihrest, Function.comp_def]

end Items

/-! ### Without room -/

namespace Nested

theorem mono {part part' : Kind → Bool} (hpart : ∀ k, part k = true → part' k = true)
    {ts : List Token} (h : Nested part ts) : Nested part' ts := by
  induction h with
  | nil => exact .nil
  | token hk hplain _ ih => exact .token (hpart _ hk) hplain ih
  | group hok hck ho hc _ _ ihinner ihrest =>
    exact .group (hpart _ hok) (hpart _ hck) ho hc ihinner ihrest

theorem of_plain_append {part : Kind → Bool} {as bs : List Token}
    (h : ∀ t ∈ as, part t.kind = true ∧ t.kind.bracket = none) (hb : Nested part bs) :
    Nested part (as ++ bs) := by
  induction as with
  | nil => exact hb
  | cons t as ih =>
    obtain ⟨hpart, hplain⟩ := h t List.mem_cons_self
    exact .token hpart hplain (ih fun u hu => h u (List.mem_cons_of_mem _ hu))

/-- Where there is no room matched brackets are passed over, whatever stands in them. -/
theorem quiet_of_full {part : Kind → Bool} {ts : List Token} (h : Nested part ts) {l : Levels}
    {builders : List Builder} (hs : Site.Hosts ⟨l, ⟨builders, none⟩⟩)
    (hfull : Limits.nesting ≤ builders.length) :
    Site.Quiet ⟨l, ⟨builders, none⟩⟩ ts ⟨l, ⟨builders, none⟩⟩ := by
  induction h generalizing l with
  | nil => exact .nil _
  | @token t rest _ hplain _ ih =>
    have hnext := hs.next_of_full hfull (t := t) fun hk => by simp [hk, Kind.bracket] at hplain
    rw [Levels.past_of_bracket_none hplain] at hnext
    exact .step hnext (ih hs)
  | @group family o c inner rest _ _ ho hc _ _ ihinner ihrest =>
    have hnext₁ := hs.next_of_full hfull (t := o) fun hk => by simp [hk, Kind.bracket] at ho
    rw [l.past_opening ho] at hnext₁
    have hnext₂ := (hs.shift family).next_of_full hfull (t := c) fun _ => by
      rw [Levels.past_closing hc]
      exact hs
    rw [Levels.past_closing hc] at hnext₂
    exact .step hnext₁ ((ihinner (hs.shift family)).append (.step hnext₂ (ihrest hs)))

end Nested

/-- The brackets in the beginning of a signature match. -/
theorem Signature.Head.nested {head : List Token} (h : Signature.Head head) :
    Nested (fun _ => true) head := by
  obtain @⟨word, o, c, header, list, behind, hword, hheader, ho, hlist, hc, hbehind⟩ := h
  refine .token rfl (Kind.bracket_of_ofOpener hword) (.of_plain_append (fun t ht => ⟨rfl, ?_⟩) ?_)
  · exact (Kind.isHeaderPart_spec (hheader t ht)).1
  · exact .group rfl rfl (by rw [ho]; rfl) (by rw [hc]; rfl) (hlist.mono fun _ _ => rfl)
      (hbehind.mono fun _ _ => rfl)

/-! ### All functions -/

namespace Items

theorem recognized_of_lt {enclosing : Nat} (h : enclosing < Limits.nesting) (s : Signature) :
    recognized enclosing s = [.functionSignature s] := if_pos h

theorem recognized_of_le {enclosing : Nat} (h : Limits.nesting ≤ enclosing) (s : Signature) :
    recognized enclosing s = [] := if_neg (Nat.not_lt.2 h)

/-- Items leave a place that hosts them as it was. -/
theorem yields (items : Items) {enclosing : Nat} {l : Levels} {builders : List Builder}
    (hs : Site.Hosts ⟨l, ⟨builders, none⟩⟩)
    (hlength : builders.length = min enclosing Limits.nesting) :
    Site.Yields ⟨l, ⟨builders, none⟩⟩ (items.marked enclosing l.curly) ⟨l, ⟨builders, none⟩⟩ := by
  induction items generalizing enclosing l builders with
  | nil => exact .nil _
  | token t hplain hopener rest ih =>
    have hnext := hs.next_of_declines (Stack.declines_of_ofOpener hopener _ _)
      fun hk => by simp [hk, Kind.bracket] at hplain
    rw [Levels.past_of_bracket_none hplain] at hnext
    exact .step hnext (ih hs hlength)
  | group family o c ho hc inner rest ihinner ihrest =>
    have hnext₁ := hs.next_of_declines
      (Stack.declines_of_ofOpener (Kind.ofOpener_of_bracket ho) _ _)
      fun hk => by simp [hk, Kind.bracket] at ho
    rw [l.past_opening ho] at hnext₁
    have hnext₂ := (hs.shift family).next_of_declines
      (Stack.declines_of_ofOpener (Kind.ofOpener_of_bracket hc) _ _)
      fun _ => by rw [Levels.past_closing hc]; exact hs
    rw [Levels.past_closing hc] at hnext₂
    have hinner := ihinner (hs.shift family) hlength
    rw [Levels.curly_shift] at hinner
    exact .step hnext₁ (hinner.append (.step hnext₂ (ihrest hs hlength)))
  | signature head stop hhead hstop rest ih =>
    rcases Nat.lt_or_ge enclosing Limits.nesting with hroom | hfull
    · obtain ⟨s, hquiet, hnext⟩ := hhead.ends hstop hs.verifySignature (by omega)
      rw [marked, recognized_of_lt hroom]
      exact hquiet.yields.append (.step hnext (ih hs hlength))
    · have hbracket := Kind.bracket_of_stop hstop
      have hnext := hs.next_of_full (by omega) (t := stop)
        fun hk => by simp [hk, Kind.bracket] at hbracket
      rw [Levels.past_of_bracket_none hbracket] at hnext
      rw [marked, recognized_of_le hfull]
      exact (hhead.nested.quiet_of_full hs (by omega)).yields.append
        (.step hnext (ih hs hlength))
  | function head o c hhead ho hc body rest ihbody ihrest =>
    have hdepth : (l.shift 1 .curly).curly = l.curly + 1 := by simp [Levels.curly_shift]
    rcases Nat.lt_or_ge enclosing Limits.nesting with hroom | hfull
    · obtain ⟨b, hopen, hquiet, hnext⟩ := hhead.encloses ho hc hs.verifySignature (by omega)
      have hbody := @ihbody (enclosing + 1) _ _
        (@Site.Hosts.inside _ _ builders _ hopen (Int.le_of_eq hdepth.symm))
        (by rw [List.length_cons]; omega)
      rw [hdepth] at hbody
      have hyields := hquiet.yields.append (hbody.append (.step hnext (ihrest hs hlength)))
      rw [marked, recognized_of_lt hroom]
      simpa using hyields
    · have hoBracket : o.kind.bracket = some (.curly, .opening) := by rw [ho]; rfl
      have hcBracket : c.kind.bracket = some (.curly, .closing) := by rw [hc]; rfl
      have hnext₁ := hs.next_of_full (by omega) (t := o) fun hk => by simp [hk] at ho
      rw [l.past_opening hoBracket] at hnext₁
      -- no builder is open for the body
      have hbody := @ihbody (enclosing + 1) _ _ (hs.shift .curly) (by omega)
      rw [hdepth] at hbody
      have hnext₂ := (hs.shift .curly).next_of_full (by omega) (t := c) fun _ => by
        rw [Levels.past_closing hcBracket]
        exact hs
      rw [Levels.past_closing hcBracket] at hnext₂
      rw [marked, recognized_of_le hfull]
      exact (hhead.nested.quiet_of_full hs (by omega)).yields.append
        (.step hnext₁ (hbody.append (.step hnext₂ (ihrest hs hlength))))

end Items

/-- Over items a course completes every function at its own end and nothing else, and leaves no
feature open. -/
theorem Course.products_of_items (tracker : LevelTracker) (items : Items) :
    ((⟨tracker, .empty⟩ : Course).steps (items.tokens.map (·, true))).map (·.products) =
        (items.marked 0 tracker.settle.levels.curly).map Prod.snd ∧
      ((⟨tracker, .empty⟩ : Course).after (items.tokens.map (·, true))).site =
        ⟨tracker.settle.levels, .empty⟩ :=
  Course.products_of_yields (c := ⟨tracker, .empty⟩)
    (items.yields (.outside tracker.settle.levels) rfl) (items.map_fst_marked _ _)

/-- `function f() {fn() => 1;}`. -/
def arrowInBody : Items :=
  .function [⟨.functionWord, "function", 5, 0⟩, ⟨.whitespace, " ", 5, 8⟩, ⟨.identifier, "f", 5, 9⟩,
      ⟨.openParen, "(", 5, 10⟩, ⟨.closeParen, ")", 5, 11⟩, ⟨.whitespace, " ", 5, 12⟩]
    ⟨.openCurly, "\x7b", 5, 13⟩ ⟨.closeCurly, "\x7d", 5, 24⟩
    (@Signature.Head.mk _ _ _ [_, _] [] [_] rfl (by decide) rfl .nil rfl (.token rfl rfl .nil)) rfl
    rfl
    (.signature [⟨.fnWord, "fn", 5, 14⟩, ⟨.openParen, "(", 5, 16⟩, ⟨.closeParen, ")", 5, 17⟩,
        ⟨.whitespace, " ", 5, 18⟩] ⟨.doubleArrow, "=>", 5, 19⟩
      (@Signature.Head.mk _ _ _ [] [] [_] rfl (by simp) rfl .nil rfl (.token rfl rfl .nil))
      (.inr rfl) (.token ⟨.whitespace, " ", 5, 21⟩ rfl rfl (.token ⟨.integer, "1", 5, 22⟩ rfl rfl
        (.token ⟨.semicolon, ";", 5, 23⟩ rfl rfl .nil))))
    .nil

/-- The arrow function is complete at its arrow, the function around it at the end of its body. -/
theorem Course.products_of_items_arrowInBody :
    ((Course.start.steps (arrowInBody.tokens.map (·, true))).map (·.products)).filter (· ≠ []) =
        [[.functionSignature ⟨.arrow, none, false, [], [], "", none⟩],
          [.functionSignature ⟨.named, some "f", false, [], [], "",
            some ⟨1, ⟨.openCurly, "\x7b", 5, 13⟩, ⟨.closeCurly, "\x7d", 5, 24⟩⟩⟩]] ∧
      (Course.start.after (arrowInBody.tokens.map (·, true))).site = ⟨.zero, .empty⟩ := by
  obtain ⟨hproducts, hsite⟩ := Course.products_of_items .start arrowInBody
  rw [start, hproducts]
  exact ⟨by decide, hsite⟩

end TokenAtlas
