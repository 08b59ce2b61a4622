import TokenAtlas.Proofs.Feature.Import
import TokenAtlas.Proofs.Source.Reading

/-! Reading statements. An import statement completes the import of its entries at its
semicolon, a namespace statement or block enters its namespace at the token behind its name.
Main statement: a source file is read as it is marked, from the start of a scan on. -/

namespace TokenAtlas

namespace Levels

theorem behind_significant (l : Levels) (ts : List Token) :
    l.behind (significant ts) = l.behind ts := by
  induction ts generalizing l with
  | nil => rfl
  | cons t ts ih =>
    by_cases h : t.isTrivia = true
    · rw [significant_cons_of_isTrivia h, ih, behind_cons,
        past_of_bracket_none (Kind.bracket_of_isTrivia h)]
    · rw [significant_cons_of_not_isTrivia (by simpa using h)]
      exact ih _

end Levels

/-! ### The tokens of an import statement -/

/-- Kinds of tokens that stand in an import statement, trivia apart. -/
def Kind.isImportPart : Kind → Bool
  | .identifier | .qualifiedName | .fullyQualifiedName | .relativeName | .separator
  | .functionWord | .constWord | .asWord | .comma | .openCurly | .closeCurly => true
  | _ => false

theorem Kind.isImportPart_of_isName {k : Kind} (h : k.isName = true) : k.isImportPart = true := by
  cases k <;> simp_all [isName, isNameSegment, isImportPart]

/-- In an import statement nothing completes it and nothing but a function may seem to begin. -/
theorem Kind.isImportPart_spec {k : Kind} (h : k.isImportPart = true) :
    k ≠ .semicolon ∧ ∀ f, Feature.ofOpener k = some f → f = .functionSignature := by
  cases k <;> simp_all [isImportPart, Feature.ofOpener]

/-- Tokens of an import statement that leave the levels as they are. -/
def Flat (ts : List Token) : Prop :=
  ∀ t ∈ ts, t.kind.isImportPart = true ∧ t.kind.bracket = none

namespace Flat

theorem nil : Flat [] := nofun

theorem append {as bs : List Token} (ha : Flat as) (hb : Flat bs) : Flat (as ++ bs) := by
  intro t ht
  rcases List.mem_append.1 ht with ht | ht
  · exact ha t ht
  · exact hb t ht

theorem cons {t : Token} {ts : List Token} (ht : t.kind.isImportPart = true ∧ t.kind.bracket = none)
    (hts : Flat ts) : Flat (t :: ts) := by
  intro u hu
  rcases List.mem_cons.1 hu with rfl | hu
  · exact ht
  · exact hts u hu

theorem of_spells {name : String} {ts : List Token} (h : Spells name ts) : Flat ts := by
  intro t ht
  rcases h.parts t ht with hk | hk
  · exact ⟨Kind.isImportPart_of_isName hk, Kind.bracket_of_isName hk⟩
  · rw [hk]
    exact ⟨rfl, rfl⟩

theorem of_kindWord {own : Option SymbolKind} {ts : List Token} (h : KindWord own ts) :
    Flat ts := by
  cases h with
  | none => exact .nil
  | function hw => exact .cons (by rw [hw]; exact ⟨rfl, rfl⟩) .nil
  | constant hw => exact .cons (by rw [hw]; exact ⟨rfl, rfl⟩) .nil

theorem of_shortName {short : Option String} {ts : List Token} (h : ShortName short ts) :
    Flat ts := by
  cases h with
  | none => exact .nil
  | known hw ht =>
    exact .cons (by rw [hw]; exact ⟨rfl, rfl⟩) (.cons (by rw [ht]; exact ⟨rfl, rfl⟩) .nil)

theorem of_entry {common : SymbolKind} {front : Option String} {e : ImportEntry}
    {ts : List Token} (h : Entry common front e ts) : Flat ts := by
  cases h with
  | single hname hknown => exact (of_spells hname).append (of_shortName hknown)
  | grouped hword hname hknown =>
    exact (of_kindWord hword).append ((of_spells hname).append (of_shortName hknown))

theorem of_entries {common : SymbolKind} {front : Option String} {es : List ImportEntry}
    {ts : List Token} (h : Entries common front es ts) : Flat ts := by
  induction h with
  | nil => exact .nil
  | last he => exact of_entry he
  | more he hcomma _ ih =>
    exact (of_entry he).append (.cons (by rw [hcomma]; exact ⟨rfl, rfl⟩) ih)

end Flat

/-- What is imported keeps within the statement and leaves the levels as they were. -/
theorem Imported.parts {es : List ImportEntry} {ts : List Token} (h : Imported es ts)
    (l : Levels) : (∀ t ∈ ts, t.kind.isImportPart = true) ∧ l.behind ts = l := by
  cases h with
  | names hword hentries =>
    have hflat := (Flat.of_kindWord hword).append (Flat.of_entries hentries)
    exact ⟨fun t ht => (hflat t ht).1, l.behind_of_plain fun t ht => (hflat t ht).2⟩
  | @group own front es separator o c word spelled ts hword hfront hcut hseparator hslash ho
      hentries hc =>
    have hfront' := (Flat.of_kindWord hword).append ((Flat.of_spells hfront).append
      (.cons (t := separator) (by rw [hseparator]; exact ⟨rfl, rfl⟩) .nil))
    have hentries' := Flat.of_entries hentries
    have ho' : o.kind.bracket = some (.curly, .opening) := by rw [ho]; rfl
    have hc' : c.kind.bracket = some (.curly, .closing) := by rw [hc]; rfl
    rw [show word ++ (spelled ++ separator :: o :: (ts ++ [c])) =
      (word ++ (spelled ++ [separator])) ++ o :: (ts ++ [c]) by simp]
    refine ⟨fun t ht => ?_, ?_⟩
    · rcases List.mem_append.1 ht with ht | ht
      · exact (hfront' t ht).1
      · rcases List.mem_cons.1 ht with rfl | ht
        · rw [ho]
          rfl
        · rcases List.mem_append.1 ht with ht | ht
          · exact (hentries' t ht).1
          · rw [List.mem_singleton.1 ht, hc]
            rfl
    · rw [Levels.behind_append, l.behind_of_plain fun t ht => (hfront' t ht).2,
        Levels.behind_cons, l.past_opening ho', Levels.behind_append,
        Levels.behind_of_plain _ fun t ht => (hentries' t ht).2]
      exact Levels.past_closing hc' l

namespace Site

/-- The parts of an import statement are read into its builder. -/
theorem quiet_importing {ts : List Token}
    (h : ∀ t ∈ significant ts, t.kind.isImportPart = true) (l : Levels) (b : ImportBuilder)
    (below : List Builder) :
    Quiet ⟨l, ⟨.namespaceImport b :: below, none⟩⟩ ts
      ⟨l.behind ts, ⟨.namespaceImport (b.feedAll ts) :: below, none⟩⟩ := by
  induction ts generalizing l b with
  | nil => exact .nil _
  | cons t ts ih =>
    have ht : t.kind ≠ .semicolon ∧
        ∀ f, Feature.ofOpener t.kind = some f → f = .functionSignature := by
      by_cases htrivia : t.isTrivia = true
      · refine ⟨fun hk => by simp [Token.isTrivia, hk, Kind.isTrivia] at htrivia, fun f hf => ?_⟩
        simp [Feature.isTrivia_of_ofOpener hf] at htrivia
      · have hmem : t ∈ significant (t :: ts) :=
          List.mem_filter.2 ⟨List.mem_cons_self, by simpa using htrivia⟩
        exact Kind.isImportPart_spec (h t hmem)
    have hdeclines : (⟨.namespaceImport b :: below, none⟩ : Stack).Declines (l.onto t.kind) t := by
      intro f hf
      rw [ht.2 f hf]
      rfl
    obtain ⟨hint, hfeed⟩ := b.feed_of_not_semicolon ht.1
    have hfeed' : Builder.feed (.namespaceImport b) t (l.onto t.kind) =
        (⟨false, hint, []⟩, .namespaceImport (b.feed t).2) := by
      simp only [Builder.feed]
      rw [← hfeed]
      rfl
    refine .step (next_fed hdeclines hfeed' rfl) (ih (fun u hu => h u ?_) _ _)
    exact List.Sublist.mem hu (List.Sublist.filter _ (List.sublist_cons_self t ts))

end Site

/-- Where an import is verified its statement is taken quietly up to the semicolon, at which
its entries are complete. -/
theorem Site.completes_import {word stop : Token} {ts : List Token} {es : List ImportEntry}
    (hword : word.kind = .useWord) (himported : Imported es (significant ts))
    (hstop : stop.kind = .semicolon) {l : Levels} {builders : List Builder}
    (hyes : Feature.verifyImport l builders.head? = .yes)
    (hroom : builders.length < Limits.nesting) :
    ∃ s d, d.entries = es ∧ Quiet ⟨l, ⟨builders, none⟩⟩ (word :: ts) s ∧
      s.Moves stop [] [.namespaceImport d] ⟨l, ⟨builders, none⟩⟩ := by
  obtain ⟨hparts, hlevels⟩ := himported.parts l
  have hwordBracket : word.kind.bracket = none := by rw [hword]; rfl
  have hstopBracket : stop.kind.bracket = none := by rw [hstop]; rfl
  have hstopOpener : Feature.ofOpener stop.kind = none := by rw [hstop]; rfl
  have hopener : Feature.ofOpener word.kind = some .namespaceImport := by rw [hword]; rfl
  -- the word opens the statement
  have hnext := next_yes (l := l) hopener
    (by rw [Levels.onto_of_bracket_none hwordBracket]; exact hyes) hroom
  rw [Levels.past_of_bracket_none hwordBracket] at hnext
  -- its tokens, trivia among them
  have hquiet := quiet_importing hparts l .fresh builders
  rw [← ImportBuilder.feedAll_significant, ← Levels.behind_significant, hlevels] at hquiet
  -- the semicolon completes it
  obtain ⟨b, hfeed, hfinished, hentries⟩ := ImportBuilder.feed_semicolon_of_imported himported hstop
  have hfeed' : Builder.feed (.namespaceImport (ImportBuilder.fresh.feedAll (significant ts))) stop
      (l.onto stop.kind) = (.finished, .namespaceImport b) := by
    simp only [Builder.feed, hfeed]
    rfl
  have hproduct : (Builder.namespaceImport b).product? =
      some (.namespaceImport b.declaration) := by
    simp [Builder.product?, Builder.progress, hfinished, Builder.snapshot]
  have hdone := @next_done l stop _ _ builders _ _
    (Stack.declines_of_ofOpener hstopOpener _ _) hfeed' rfl hproduct
  rw [Levels.past_of_bracket_none hstopBracket] at hdone
  exact ⟨_, b.declaration, hentries, .step hnext hquiet, hdone⟩

/-- An import statement is read where an import is verified. -/
theorem ImportStatement.reads {ms : List Marked} (h : ImportStatement ms) {l : Levels}
    {builders : List Builder} (hyes : Feature.verifyImport l builders.head? = .yes)
    (hroom : builders.length < Limits.nesting) :
    Site.Reads ⟨l, ⟨builders, none⟩⟩ ms ⟨l, ⟨builders, none⟩⟩ := by
  obtain @⟨word, stop, ts, es, hword, himported, hstop⟩ := h
  obtain ⟨s, d, rfl, hquiet, hstopped⟩ :=
    Site.completes_import hword himported hstop hyes hroom
  exact hquiet.reads.append (.step hstopped rfl (.nil _))

/-! ### Namespaces -/

namespace Site

/-- A site at which the name of a namespace is read. -/
def naming (l : Levels) (name : String) : Site :=
  ⟨l, ⟨[.namespaceDeclaration ⟨.naming, ⟨name, none⟩⟩], none⟩⟩

/-- The token that verifies the declaration is the first of its name. -/
theorem next_waiting_name {l : Levels} (hl : l.curly = 0) (word : Token) {t : Token}
    (ht : t.kind.isName = true) :
    (waiting l word).Moves t [] [] (naming l t.text) := by
  have hyes : Feature.verify .namespaceDeclaration (l.onto t.kind) none ([word] ++ [t]) = .yes :=
    (Feature.verifyNamespace_pair hl word t).trans (if_pos ht)
  obtain ⟨hint, hcreate⟩ := Feature.create_namespace (l.onto t.kind) word ht
  obtain ⟨-, hevents, hproducts, hstack⟩ := Stack.step_waiting_yes
    (c := ⟨.namespaceDeclaration, [word]⟩) true (Kind.isTrivia_of_isName ht) hyes hcreate rfl
  have hbracket := Kind.bracket_of_isName ht
  refine ⟨hevents, hproducts, ?_⟩
  simp only [next, waiting, hstack, naming, NamespaceBuilder.addName, NamespaceBuilder.fresh,
    Levels.past_of_bracket_none hbracket, String.empty_append]

/-- The rest of the name is put behind it, trivia apart. -/
theorem quiet_naming {ts : List Token}
    (h : ∀ t ∈ significant ts, t.kind.isName = true ∨ t.kind = .separator) (l : Levels)
    (name : String) :
    Quiet (naming l name) ts (naming l (name ++ Token.joined (significant ts))) := by
  induction ts generalizing name with
  | nil =>
    rw [significant_nil, Token.joined, List.map_nil, String.join_nil, String.append_empty]
    exact .nil _
  | cons t ts ih =>
    by_cases htrivia : t.isTrivia = true
    · rw [significant_cons_of_isTrivia htrivia] at h ⊢
      have hnext := @next_fed l t (.namespaceDeclaration ⟨.naming, ⟨name, none⟩⟩) _ [] .quiet
        (Stack.declines_of_ofOpener (Kind.ofOpener_of_isTrivia htrivia) _ _)
        (by simp only [Builder.feed, NamespaceBuilder.feed, htrivia, if_true]; rfl) rfl
      rw [Levels.past_of_bracket_none (Kind.bracket_of_isTrivia htrivia)] at hnext
      exact .step hnext (ih h name)
    · have htrivia' : t.isTrivia = false := by simpa using htrivia
      rw [significant_cons_of_not_isTrivia htrivia'] at h ⊢
      have ht := h t List.mem_cons_self
      have hopener : Feature.ofOpener t.kind = none := by
        rcases ht with ht | ht
        · exact Kind.ofOpener_of_isName ht
        · rw [ht]
          rfl
      have hbracket : t.kind.bracket = none := by
        rcases ht with ht | ht
        · exact Kind.bracket_of_isName ht
        · rw [ht]
          rfl
      obtain ⟨hint, hfeed⟩ := NamespaceBuilder.feed_name (b := ⟨.naming, ⟨name, none⟩⟩)
        (l.onto t.kind) (.inr rfl) ht
      have hnext := @next_fed l t (.namespaceDeclaration ⟨.naming, ⟨name, none⟩⟩)
        (.namespaceDeclaration ⟨.naming, ⟨name ++ t.text, none⟩⟩) [] ⟨false, hint, []⟩
        (Stack.declines_of_ofOpener hopener _ _) (by simp only [Builder.feed, hfeed]; rfl) rfl
      rw [Levels.past_of_bracket_none hbracket] at hnext
      have hrest := ih (fun u hu => h u (List.mem_cons_of_mem _ hu)) (name ++ t.text)
      rw [String.append_assoc] at hrest
      rw [Token.joined, List.map_cons, String.join_cons]
      exact .step hnext hrest

end Site

/-- The beginning of a namespace statement is read into the name. -/
theorem NamespaceHead.quiet {name : String} {head : List Token} (h : NamespaceHead name head)
    {l : Levels} (hl : l.curly = 0) :
    Site.Quiet ⟨l, ⟨[], none⟩⟩ head (.naming l name) := by
  obtain @⟨word, first, ts, more, hword, hts, hfirst, hname⟩ := h
  refine .step (Site.next_namespaceWord hl hword) ?_
  induction ts with
  | nil => simp at hts
  | cons t ts ih =>
    by_cases htrivia : t.isTrivia = true
    · rw [significant_cons_of_isTrivia htrivia] at hts
      exact .step (Site.next_waiting_trivia l word htrivia) (ih hts)
    · rw [significant_cons_of_not_isTrivia (by simpa using htrivia)] at hts
      obtain ⟨rfl, rfl⟩ := List.cons.inj hts
      have hrest := Site.quiet_naming (fun u hu => hname.parts u (List.mem_cons_of_mem _ hu)) l
        t.text
      have hjoined : t.text ++ Token.joined (significant ts) = name := by
        rw [← hname.text, Token.joined, Token.joined, List.map_cons, String.join_cons]
      rw [hjoined] at hrest
      exact .step (Site.next_waiting_name hl word hfirst) hrest

/-- A semicolon behind the name completes the statement. -/
theorem Site.next_naming_semicolon (l : Levels) (name : String) {stop : Token}
    (hstop : stop.kind = .semicolon) :
    (naming l name).Moves stop [.namespaceNameKnown name]
      [.namespaceDeclaration ⟨name, none⟩] ⟨l, ⟨[], none⟩⟩ := by
  have htrivia : stop.isTrivia = false := by rw [Token.isTrivia, hstop]; rfl
  have hnext := @next_done l stop (.namespaceDeclaration ⟨.naming, ⟨name, none⟩⟩)
    (.namespaceDeclaration ⟨.finished, ⟨name, none⟩⟩) []
    ⟨true, none, [.namespaceNameKnown name]⟩ (.namespaceDeclaration ⟨name, none⟩)
    (Stack.declines_of_ofOpener (by rw [hstop]; rfl) _ _)
    (by simp [Builder.feed, NamespaceBuilder.feed, htrivia, NamespaceBuilder.feedName, hstop,
      NamespaceBuilder.named, Feed.withEvent, Feed.finished]) rfl rfl
  rw [Levels.past_of_bracket_none (by rw [hstop]; rfl)] at hnext
  exact hnext

/-- A curly bracket behind the name enters the namespace and opens its body. -/
theorem Site.next_naming_openCurly (l : Levels) (name : String) {o : Token}
    (ho : o.kind = .openCurly) :
    ∃ b, b.openBody = some (l.shift 1 .curly).curly ∧
      b.bodyDepth = some (l.shift 1 .curly).curly ∧
      (naming l name).Moves o [.namespaceNameKnown name] []
        ⟨l.shift 1 .curly, ⟨[b], none⟩⟩ := by
  have hbracket : o.kind.bracket = some (.curly, .opening) := by rw [ho]; rfl
  have htrivia : o.isTrivia = false := by rw [Token.isTrivia, ho]; rfl
  have hnext := @next_fed l o (.namespaceDeclaration ⟨.naming, ⟨name, none⟩⟩)
    (.namespaceDeclaration ⟨.inBody (l.onto o.kind).curly o, ⟨name, none⟩⟩) []
    ⟨false, none, [.namespaceNameKnown name]⟩
    (Stack.declines_of_ofOpener (by rw [ho]; rfl) _ _)
    (by simp [Builder.feed, NamespaceBuilder.feed, htrivia, NamespaceBuilder.feedName, ho,
      NamespaceBuilder.named, Feed.withEvent, Feed.quiet]) rfl
  rw [l.onto_opening hbracket, l.past_opening hbracket] at hnext
  exact ⟨_, rfl, rfl, hnext⟩

/-! ### Source files -/

/-- The body of a namespace is read as it is marked and leaves the site as it was. -/
theorem NamespaceBody.reads {ms : List Marked} (h : NamespaceBody ms) {l : Levels} {b : Builder}
    (hopen : b.openBody = some l.curly) (hdepth : b.bodyDepth = some l.curly) :
    Site.Reads ⟨l, ⟨[b], none⟩⟩ ms ⟨l, ⟨[b], none⟩⟩ := by
  induction h with
  | nil => exact .nil _
  | code hcode _ ih =>
    have hroom : [b].length + (Limits.nesting - 1) ≤ Limits.nesting := by
      rw [List.length_singleton]
      decide
    have hhosts := @Site.Hosts.inside l b [] _ hopen (Int.le_refl _)
    exact (hcode.reads hhosts hroom nofun nofun).append ih
  | imports hstatement _ ih =>
    have hyes : Feature.verifyImport l [b].head? = .yes := by
      simp [Feature.verifyImport, hdepth]
    have hroom : [b].length < Limits.nesting := by
      rw [List.length_singleton]
      decide
    exact (hstatement.reads hyes hroom).append ih

/-- A source file is read as it is marked. -/
theorem SourceFile.reads {ms : List Marked} (h : SourceFile ms) {l : Levels}
    (hl : l.curly = 0) : Site.Reads ⟨l, ⟨[], none⟩⟩ ms ⟨l, ⟨[], none⟩⟩ := by
  induction h with
  | nil => exact .nil _
  | code hcode _ ih =>
    exact (hcode.reads (.outside l) (by decide) (fun _ => Int.le_of_eq hl.symm) nofun).append ih
  | imports hstatement _ ih =>
    have hyes : Feature.verifyImport l ([] : List Builder).head? = .yes := by
      simp [Feature.verifyImport, hl]
    exact (hstatement.reads hyes (by decide)).append ih
  | @namespaceStatement name head stop rest hhead hstop _ ih =>
    exact (hhead.quiet hl).reads.append (.step (Site.next_naming_semicolon l name hstop) rfl ih)
  | @namespaceBlock name head o c body rest hhead ho hbody hc _ ih =>
    obtain ⟨b, hopen, hdepth, hnext⟩ := Site.next_naming_openCurly l name ho
    obtain ⟨p, hp, hend⟩ := Site.next_body_end [] hopen hc
    rw [Levels.past_closing (by rw [hc]; rfl)] at hend
    exact (hhead.quiet hl).reads.append
      (.step hnext rfl ((hbody.reads hopen hdepth).append (.step hend (by simp [hp]) ih)))

end TokenAtlas
