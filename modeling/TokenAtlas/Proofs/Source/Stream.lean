import TokenAtlas.Proofs.Atom.Shape
import TokenAtlas.Proofs.Source.Statements

/-! The stream that is scanned for a source file. Its tokens may be refined, and a statement
is then completed by the last atom of the token that completes it. Main statement: the
stream of a source file is itself a source file, with the same statements. -/

namespace TokenAtlas

open Cursor (standing)

/-- Tokens of which the last completes a statement. -/
def markLast (mark : Option Statement) : List Token → List Marked
  | [] => []
  | [t] => [(t, mark)]
  | t :: u :: rest => (t, none) :: markLast mark (u :: rest)

/-- What is scanned for a marked file. -/
def stream (splitting : Option Bool) (file : List Marked) : List Marked :=
  file.flatMap fun x => markLast x.2 (standing splitting x.1)

theorem markLast_none (ts : List Token) : markLast none ts = unmarked ts := by
  induction ts with
  | nil => rfl
  | cons t ts ih =>
    cases ts with
    | nil => rfl
    | cons u ts => exact congrArg (List.cons _) ih

theorem map_fst_markLast (mark : Option Statement) (ts : List Token) :
    (markLast mark ts).map Prod.fst = ts := by
  induction ts with
  | nil => rfl
  | cons t ts ih =>
    cases ts with
    | nil => rfl
    | cons u ts => exact congrArg (List.cons t) ih

theorem map_fst_stream (splitting : Option Bool) (file : List Marked) :
    (stream splitting file).map Prod.fst = (file.map Prod.fst).flatMap (standing splitting) := by
  rw [stream, List.map_flatMap, List.flatMap_map]
  congr 1
  funext x
  exact map_fst_markLast _ _

variable {splitting : Option Bool}

theorem stream_append (a b : List Marked) :
    stream splitting (a ++ b) = stream splitting a ++ stream splitting b := List.flatMap_append

theorem stream_unmarked (ts : List Token) :
    stream splitting (unmarked ts) = unmarked (ts.flatMap (standing splitting)) := by
  induction ts with
  | nil => rfl
  | cons t ts ih =>
    rw [unmarked_cons, stream, List.flatMap_cons, markLast_none, ← stream, ih,
      List.flatMap_cons, unmarked_append]

theorem stream_cons_of_isAtomic {t : Token} (h : t.kind.IsAtomic) (mark : Option Statement)
    (rest : List Marked) :
    stream splitting ((t, mark) :: rest) = (t, mark) :: stream splitting rest := by
  rw [stream, List.flatMap_cons, Cursor.standing_of_isAtomic splitting h]
  rfl

/-! ### Kinds that are not split -/

namespace Kind

theorem isAtomic_of_isImportPart {k : Kind} (h : k.isImportPart = true) : k.IsAtomic := by
  intro apart
  cases k <;> simp_all [isImportPart, Atom.Splitter.ofKind]

theorem isAtomic_of_ofOpener {k : Kind} {f : Feature} (h : Feature.ofOpener k = some f) :
    k.IsAtomic := by
  intro apart
  cases k <;> simp_all [Feature.ofOpener, Atom.Splitter.ofKind]

theorem isAtomic_of_bracket {k : Kind} {family : Family} {side : Side}
    (h : k.bracket = some (family, side)) (hattribute : k ≠ .attributeOpen) : k.IsAtomic := by
  intro apart
  cases k <;> simp_all [bracket, Atom.Splitter.ofKind]

end Kind

theorem isTrivia_of_mem_standing {t a : Token} (ht : t.isTrivia = true)
    (ha : a ∈ standing splitting t) : a.isTrivia = true := by
  have hcast : t.kind.isCast = false := by
    rcases hk : t.kind <;> simp_all [Token.isTrivia, Kind.isTrivia, Kind.isCast]
  have hattribute : t.kind ≠ .attributeOpen := fun hk => by
    simp [Token.isTrivia, hk, Kind.isTrivia] at ht
  exact (Cursor.kind_of_mem_standing hcast hattribute ha).holds (P := (·.isTrivia = true)) rfl rfl
    ht

/-- Where no token but trivia is split the others stay as they are. -/
theorem significant_flatMap_standing {ts : List Token}
    (h : ∀ t ∈ significant ts, t.kind.IsAtomic) :
    significant (ts.flatMap (standing splitting)) = significant ts := by
  induction ts with
  | nil => rfl
  | cons t ts ih =>
    rw [List.flatMap_cons, significant, List.filter_append, ← significant, ← significant]
    by_cases htrivia : t.isTrivia = true
    · rw [significant_cons_of_isTrivia htrivia] at h ⊢
      have hnone : significant (standing splitting t) = [] := by
        refine List.filter_eq_nil_iff.2 fun a ha => ?_
        simp [isTrivia_of_mem_standing htrivia ha]
      rw [hnone, ih h, List.nil_append]
    · rw [significant_cons_of_not_isTrivia (by simpa using htrivia)] at h ⊢
      rw [Cursor.standing_of_isAtomic splitting (h t List.mem_cons_self),
        significant_cons_of_not_isTrivia (by simpa using htrivia), significant_nil,
        ih fun u hu => h u (List.mem_cons_of_mem _ hu)]
      rfl

/-! ### Brackets in a stream -/

namespace Cursor

/-- A token that is no bracket comes apart into plain parts, or into a cast's pair of
brackets. -/
theorem standing_of_plain (splitting : Option Bool) {t : Token} (h : t.kind.bracket = none) :
    (∃ o inner c, standing splitting t = o :: (inner ++ [c]) ∧ o.kind = .openParen ∧
      c.kind = .closeParen ∧ ∀ a ∈ inner, a.kind = .whitespace ∨ a.kind = .castType) ∨
    ∀ a ∈ standing splitting t, Atom.IsPlainPart t.kind a.kind := by
  have hattribute : t.kind ≠ .attributeOpen := fun hk => by simp [hk, Kind.bracket] at h
  by_cases hcast : t.kind.isCast = true
  · rcases standing_of_isCast splitting hcast with hself | hpair
    · refine .inr fun a ha => ?_
      rw [hself, List.mem_singleton] at ha
      exact .inr (.inr (by rw [ha]))
    · exact .inl hpair
  · exact .inr fun a ha => kind_of_mem_standing (by simpa using hcast) hattribute ha

/-- An opening bracket stays one of its family, behind a mark if it begins an attribute. -/
theorem standing_of_opening (splitting : Option Bool) {o : Token} {family : Family}
    (h : o.kind.bracket = some (family, .opening)) :
    standing splitting o = [o] ∨
      ∃ mark o', standing splitting o = [mark, o'] ∧ mark.kind = .attributeMarker ∧
        o'.kind = .openSquare ∧ o'.kind.bracket = some (family, .opening) := by
  by_cases hattribute : o.kind = .attributeOpen
  · rcases standing_of_attributeOpen splitting hattribute with
      hself | ⟨mark, o', hs, hmark, ho'⟩
    · exact .inl hself
    · obtain rfl : family = .square := by simpa [hattribute, Kind.bracket, eq_comm] using h
      exact .inr ⟨mark, o', hs, hmark, ho', by rw [ho']; rfl⟩
  · exact .inl (standing_of_isAtomic splitting (Kind.isAtomic_of_bracket h hattribute))

theorem standing_of_closing (splitting : Option Bool) {c : Token} {family : Family}
    (h : c.kind.bracket = some (family, .closing)) : standing splitting c = [c] := by
  refine standing_of_isAtomic splitting (Kind.isAtomic_of_bracket h fun hk => ?_)
  simp [hk, Kind.bracket] at h

end Cursor

/-! ### Code -/

namespace Nested

variable {part : Kind → Bool}

theorem append_plain {ts rest : List Token}
    (h : ∀ t ∈ ts, part t.kind = true ∧ t.kind.bracket = none) (hrest : Nested part rest) :
    Nested part (ts ++ rest) := by
  induction ts with
  | nil => exact hrest
  | cons t ts ih =>
    obtain ⟨hpart, hplain⟩ := h t List.mem_cons_self
    exact .token hpart hplain (ih fun u hu => h u (List.mem_cons_of_mem _ hu))

/-- A part of code with all kinds that atoms may have stays such a part. -/
theorem refined (hpart : ∀ k ∈ Atom.partKinds, part k = true) {ts : List Token}
    (h : Nested part ts) : Nested part (ts.flatMap (standing splitting)) := by
  induction h with
  | nil => exact .nil
  | @token t rest htpart hplain _ ih =>
    rw [List.flatMap_cons]
    rcases Cursor.standing_of_plain splitting hplain with ⟨o, inner, c, hs, ho, hc, hi⟩ | hparts
    · have hinner : Nested part inner := by
        rw [← List.append_nil inner]
        refine append_plain (fun a ha => ?_) .nil
        rcases hi a ha with hk | hk <;> rw [hk] <;> exact ⟨hpart _ (by decide), rfl⟩
      rw [hs, List.cons_append, List.append_assoc]
      exact .group (by rw [ho]; exact hpart _ (by decide)) (by rw [hc]; exact hpart _ (by decide))
        (by rw [ho]; rfl) (by rw [hc]; rfl) hinner ih
    · refine append_plain (fun a ha => ?_) ih
      rcases hparts a ha with hk | hk | hk <;> rw [hk]
      · exact ⟨hpart _ (by decide), rfl⟩
      · exact ⟨hpart _ (by decide), rfl⟩
      · exact ⟨htpart, hplain⟩
  | @group family o c inner rest hopart hcpart ho hc _ _ ihinner ihrest =>
    rw [List.flatMap_cons, List.flatMap_append, List.flatMap_cons,
      Cursor.standing_of_closing splitting hc]
    rcases Cursor.standing_of_opening splitting ho with hself | ⟨mark, o', hs, hmark, hkind, ho'⟩
    · rw [hself]
      exact .group hopart hcpart ho hc ihinner ihrest
    · rw [hs]
      exact .token (by rw [hmark]; exact hpart _ (by decide)) (by rw [hmark]; rfl)
        (.group (by rw [hkind]; exact hpart _ (by decide)) hcpart ho' hc ihinner ihrest)

end Nested

theorem Signature.Head.refined {head : List Token} (h : Signature.Head head) :
    Signature.Head (head.flatMap (standing splitting)) := by
  obtain @⟨word, o, c, header, list, behind, hword, hheader, ho, hlist, hc, hbehind⟩ := h
  have hoBracket : o.kind.bracket = some (.paren, .opening) := by rw [ho]; rfl
  have hcBracket : c.kind.bracket = some (.paren, .closing) := by rw [hc]; rfl
  rw [List.flatMap_cons, List.flatMap_append, List.flatMap_cons, List.flatMap_append,
    List.flatMap_cons, Cursor.standing_of_isAtomic splitting (Kind.isAtomic_of_ofOpener hword),
    Cursor.standing_of_isAtomic splitting
      (Kind.isAtomic_of_bracket hoBracket (by rw [ho]; nofun)),
    Cursor.standing_of_closing splitting hcBracket]
  refine .mk hword (fun a ha => ?_) ho (hlist.refined (by decide)) hc (hbehind.refined (by decide))
  obtain ⟨t, ht, ha⟩ := List.mem_flatMap.1 ha
  have hpart := hheader t ht
  obtain ⟨hplain, hopener, hcast⟩ := Kind.isHeaderPart_spec hpart
  have hattribute : t.kind ≠ .attributeOpen := fun hk => by simp [hk, Kind.bracket] at hplain
  rcases Cursor.kind_of_mem_standing hcast hattribute ha with hk | hk | hk <;> rw [hk]
  · rfl
  · rfl
  · exact hpart

namespace Code

theorem append_plain {room : Nat} {inBlock : Bool} {ts rest : List Token}
    (h : ∀ t ∈ ts, t.kind.bracket = none ∧ Feature.ofOpener t.kind = none)
    (hrest : Code room inBlock rest) : Code room inBlock (ts ++ rest) := by
  induction ts with
  | nil => exact hrest
  | cons t ts ih =>
    obtain ⟨hplain, hopener⟩ := h t List.mem_cons_self
    exact .token hplain hopener (ih fun u hu => h u (List.mem_cons_of_mem _ hu))

/-- Refined code is code. -/
theorem refined {room : Nat} {inBlock : Bool} {ts : List Token} (h : Code room inBlock ts) :
    Code room inBlock (ts.flatMap (standing splitting)) := by
  induction h with
  | nil => exact .nil
  | @token room inBlock t rest hplain hopener _ ih =>
    rw [List.flatMap_cons]
    rcases Cursor.standing_of_plain splitting hplain with ⟨o, inner, c, hs, ho, hc, hi⟩ | hparts
    · have hinner : ∀ inBlock, Code room inBlock inner := by
        intro inBlock
        rw [← List.append_nil inner]
        refine append_plain (fun a ha => ?_) .nil
        rcases hi a ha with hk | hk <;> rw [hk] <;> exact ⟨rfl, rfl⟩
      rw [hs, List.cons_append, List.append_assoc]
      exact .group (by rw [ho]; rfl) (by rw [hc]; rfl) (hinner _) ih
    · refine append_plain (fun a ha => ?_) ih
      rcases hparts a ha with hk | hk | hk <;> rw [hk]
      · exact ⟨rfl, rfl⟩
      · exact ⟨rfl, rfl⟩
      · exact ⟨hplain, hopener⟩
  | @group room inBlock family o c inner rest ho hc _ _ ihinner ihrest =>
    rw [List.flatMap_cons, List.flatMap_append, List.flatMap_cons,
      Cursor.standing_of_closing splitting hc]
    rcases Cursor.standing_of_opening splitting ho with hself | ⟨mark, o', hs, hmark, -, ho'⟩
    · rw [hself]
      exact .group ho hc ihinner ihrest
    · rw [hs]
      exact .token (by rw [hmark]; rfl) (by rw [hmark]; rfl) (.group ho' hc ihinner ihrest)
  | @traitUse room word rest hword _ ih =>
    rw [List.flatMap_cons, Cursor.standing_of_isAtomic splitting
      (Kind.isAtomic_of_ofOpener (f := .namespaceImport) (by rw [hword]; rfl))]
    exact .traitUse hword ih
  | @relativeName room inBlock word separator blanks rest hword hblanks hseparator _ ih =>
    rw [List.flatMap_cons, List.flatMap_append, List.flatMap_cons,
      Cursor.standing_of_isAtomic splitting
        (Kind.isAtomic_of_ofOpener (f := .namespaceDeclaration) (by rw [hword]; rfl)),
      Cursor.standing_of_isAtomic splitting
        (Kind.isAtomic_of_isImportPart (by rw [hseparator]; rfl))]
    refine .relativeName hword (fun a ha => ?_) hseparator ih
    obtain ⟨t, ht, ha⟩ := List.mem_flatMap.1 ha
    exact isTrivia_of_mem_standing (hblanks t ht) ha
  | @signature room inBlock head stop rest hhead hstop _ ih =>
    have hstopAtomic : stop.kind.IsAtomic := by
      intro apart
      rcases hstop with hk | hk <;> rw [hk] <;> rfl
    rw [List.flatMap_append, List.flatMap_cons, Cursor.standing_of_isAtomic splitting hstopAtomic]
    exact .signature hhead.refined hstop ih
  | @function room inBlock head o c body rest hhead ho _ hc _ ihbody ihrest =>
    rw [List.flatMap_append, List.flatMap_cons, List.flatMap_append, List.flatMap_cons,
      Cursor.standing_of_isAtomic splitting (Kind.isAtomic_of_isImportPart (by rw [ho]; rfl)),
      Cursor.standing_of_isAtomic splitting (Kind.isAtomic_of_isImportPart (by rw [hc]; rfl))]
    exact .function hhead.refined ho ihbody hc ihrest

end Code

/-! ### Statements -/

theorem Kind.isAtomic_semicolon {t : Token} (h : t.kind = .semicolon) : t.kind.IsAtomic := by
  intro apart
  rw [h]
  rfl

theorem ImportStatement.refined {ms : List Marked} (h : ImportStatement ms) :
    ImportStatement (stream splitting ms) := by
  obtain @⟨word, stop, ts, es, hword, himported, hstop⟩ := h
  have hword' : word.kind.IsAtomic :=
    Kind.isAtomic_of_ofOpener (f := .namespaceImport) (by rw [hword]; rfl)
  rw [stream_append, stream_unmarked, List.flatMap_cons,
    Cursor.standing_of_isAtomic splitting hword', List.singleton_append,
    stream_cons_of_isAtomic (Kind.isAtomic_semicolon hstop)]
  refine .mk hword ?_ hstop
  rwa [significant_flatMap_standing fun t ht =>
    Kind.isAtomic_of_isImportPart ((himported.parts .zero).1 t ht)]

theorem NamespaceHead.refined {name : String} {head : List Token} (h : NamespaceHead name head) :
    NamespaceHead name (head.flatMap (standing splitting)) := by
  obtain @⟨word, first, ts, more, hword, hts, hfirst, hname⟩ := h
  have hword' : word.kind.IsAtomic :=
    Kind.isAtomic_of_ofOpener (f := .namespaceDeclaration) (by rw [hword]; rfl)
  rw [List.flatMap_cons, Cursor.standing_of_isAtomic splitting hword', List.singleton_append]
  refine .mk hword ?_ hfirst hname
  rw [significant_flatMap_standing, hts]
  rw [hts]
  intro t ht
  rcases hname.parts t ht with hk | hk
  · exact Kind.isAtomic_of_isImportPart (Kind.isImportPart_of_isName hk)
  · exact Kind.isAtomic_of_isImportPart (by rw [hk]; rfl)

theorem NamespaceBody.refined {ms : List Marked} (h : NamespaceBody ms) :
    NamespaceBody (stream splitting ms) := by
  induction h with
  | nil => exact .nil
  | code hcode _ ih =>
    rw [stream_append, stream_unmarked]
    exact .code hcode.refined ih
  | imports hstatement _ ih =>
    rw [stream_append]
    exact .imports hstatement.refined ih

/-- The stream of a source file is a source file. -/
theorem SourceFile.refined {ms : List Marked} (h : SourceFile ms) :
    SourceFile (stream splitting ms) := by
  induction h with
  | nil => exact .nil
  | code hcode _ ih =>
    rw [stream_append, stream_unmarked]
    exact .code hcode.refined ih
  | imports hstatement _ ih =>
    rw [stream_append]
    exact .imports hstatement.refined ih
  | namespaceStatement hhead hstop _ ih =>
    rw [stream_append, stream_unmarked, stream_cons_of_isAtomic (Kind.isAtomic_semicolon hstop)]
    exact .namespaceStatement hhead.refined hstop ih
  | namespaceBlock hhead ho hbody hc _ ih =>
    rw [stream_append, stream_unmarked,
      stream_cons_of_isAtomic (Kind.isAtomic_of_isImportPart (by rw [ho]; rfl)), stream_append,
      stream_cons_of_isAtomic (Kind.isAtomic_of_isImportPart (by rw [hc]; rfl))]
    exact .namespaceBlock hhead.refined ho hbody.refined hc ih

/-! ### The statements of a stream -/

/-- The statements that marked tokens complete, in order. -/
def statements (ms : List Marked) : List Statement := ms.filterMap Prod.snd

theorem statements_append (a b : List Marked) :
    statements (a ++ b) = statements a ++ statements b := List.filterMap_append

theorem statements_unmarked (ts : List Token) : statements (unmarked ts) = [] := by
  simp [statements, unmarked]

theorem ImportStatement.statements_stream {ms : List Marked} (h : ImportStatement ms) :
    statements (stream splitting ms) = statements ms := by
  obtain @⟨word, stop, ts, es, hword, himported, hstop⟩ := h
  rw [stream_append, stream_unmarked, stream_cons_of_isAtomic (Kind.isAtomic_semicolon hstop),
    statements_append, statements_append, statements_unmarked, statements_unmarked]
  rfl

theorem NamespaceBody.statements_stream {ms : List Marked} (h : NamespaceBody ms) :
    statements (stream splitting ms) = statements ms := by
  induction h with
  | nil => rfl
  | code _ _ ih =>
    rw [stream_append, statements_append, statements_append, ih, stream_unmarked,
      statements_unmarked, statements_unmarked]
  | imports hstatement _ ih =>
    rw [stream_append, statements_append, statements_append, ih, hstatement.statements_stream]

/-- Refining the tokens of a source file loses no statement and adds none. -/
theorem SourceFile.statements_stream {ms : List Marked} (h : SourceFile ms) :
    statements (stream splitting ms) = statements ms := by
  induction h with
  | nil => rfl
  | code _ _ ih =>
    rw [stream_append, statements_append, statements_append, ih, stream_unmarked,
      statements_unmarked, statements_unmarked]
  | imports hstatement _ ih =>
    rw [stream_append, statements_append, statements_append, ih, hstatement.statements_stream]
  | namespaceStatement _ hstop _ ih =>
    rw [stream_append, stream_unmarked, stream_cons_of_isAtomic (Kind.isAtomic_semicolon hstop),
      statements_append, statements_append, statements_unmarked, statements_unmarked]
    exact congrArg (List.cons _) ih
  | @namespaceBlock name head o c body rest _ ho hbody hc _ ih =>
    have hrest : statements (stream splitting (body ++ (c, none) :: rest)) =
        statements (body ++ (c, none) :: rest) := by
      rw [stream_append, stream_cons_of_isAtomic (Kind.isAtomic_of_isImportPart (by rw [hc]; rfl)),
        statements_append, statements_append, hbody.statements_stream]
      exact congrArg (statements body ++ ·) ih
    rw [stream_append, stream_unmarked,
      stream_cons_of_isAtomic (Kind.isAtomic_of_isImportPart (by rw [ho]; rfl)),
      statements_append, statements_append, statements_unmarked, statements_unmarked]
    exact congrArg (List.cons _) hrest

end TokenAtlas
