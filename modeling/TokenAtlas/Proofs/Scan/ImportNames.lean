import TokenAtlas.Proofs.Feature.Effect
import TokenAtlas.Proofs.Feature.ImportHints
import TokenAtlas.Proofs.Scan.Balance

/-! The names of an import statement as they are scanned. From the word `use` to the semicolon
one builder takes every token. Main statement: a token that is the whole name of an entry is
tagged as resolved to what is written in it. Outside groups that is the name which the entry of
the finished import has; in a group it never is. -/

namespace TokenAtlas

/-- Inside an import declaration no other feature is opened. -/
theorem Stack.WellFormed.effect_importing {s : Stack} (h : s.WellFormed) {b : ImportBuilder}
    {below : List Builder} (hb : s.builders = .namespaceImport b :: below) (t : Token) (l : Levels)
    (mayOpen : Bool) : effect (s.step t l mayOpen) = fed (.namespaceImport b :: below) t l := by
  rw [← hb]
  cases h.handles t l mayOpen with
  | feeds he => exact he
  | names hempty _ => simp [hb] at hempty
  | @opens f _ hne hyes _ =>
    rw [active?, hb, List.head?_cons] at hyes
    cases f with
    | namespaceDeclaration => exact absurd rfl hne
    | namespaceImport => simp [Feature.verify, Feature.verifyImport, Builder.bodyDepth] at hyes
    | functionSignature => simp [Feature.verify, Feature.verifySignature] at hyes

/-- Where an import is verified there is room for it. -/
theorem Stack.Sound.length_lt_of_verifyImport {builders : List Builder} (h : Sound builders)
    {l : Levels} (hyes : Feature.verifyImport l builders.head? = .yes) :
    builders.length < Limits.nesting := by
  have hshape := @Shape.cons_of_verify builders h l [] (.namespaceImport .fresh) hyes
  cases hshape with
  | namespaceImport _ => exact (by decide : 0 < Limits.nesting)
  | importInBody _ _ => exact (by decide : 1 < Limits.nesting)

namespace Scanner

variable {s : Scanner} {t : Token} {rest : List (Except Atom.Refusal Token)}

/-- An import may begin with the token that comes next. -/
structure AllowsImport (s : Scanner) : Prop where
  running : s.ending = .running
  waiting : s.stack.candidate = none
  opens : opensBehind s.cursor.past = true
  verified : Feature.verifyImport s.tracker.settle.levels s.active? = .yes

/-- Behind the word `use` the scan is inside an import declaration. The builder is at `b`, and
so far `found` is finished. -/
structure Importing (found : List Product) (b : ImportBuilder) (s : Scanner) : Prop where
  running : s.ending = .running
  builders : ∃ below, s.stack.builders = .namespaceImport b :: below
  wellFormed : s.stack.WellFormed
  unclassified : s.Unclassified
  products : s.products = found

/-- A name that its builder sees as one is tagged with the role that it is seen in and with
what is written in it. -/
theorem Unclassified.tags_of_hint (hs : s.Unclassified) {x : ScannedToken}
    (hx : s.next.value = .ok (some x)) (hname : x.token.kind.isName = true) {role : SymbolKind}
    (hhint : (s.surroundings x.token).hint = some (.name (some role))) :
    x.category = .qualifiedName ∧
      x.tags = [.role role, .resolved (Name.relative x.token.text)] := by
  obtain ⟨role', c, hc⟩ := hs.classifies hx
  have hcategory := hc.category
  simp only [Classification.decide, hhint, Hint.name, Prod.mk.injEq] at hcategory
  obtain ⟨⟨hcategory, hrole⟩, -⟩ := hcategory
  refine ⟨hcategory.symm, ?_⟩
  have hbracket := Kind.bracket_of_isName hname
  rw [hc.tags, ← hcategory, ← hrole]
  simp [Classification.tagsOf, Classification.keywordTags, Category.isKeywordFamily,
    Classification.bracketTags, hbracket, Classification.nameTags, hname, hhint, Hint.name]

/-- The word `use` begins an import declaration. -/
theorem AllowsImport.next (h : s.AllowsImport) (hw : s.stack.WellFormed) (hs : s.Unclassified)
    (ht : t.kind = .useWord) (hp : s.cursor.plan = .ok t :: rest)
    (hn : s.cursor.yielded < Limits.tokenCount) :
    Importing s.products .fresh s.next.scanner := by
  obtain ⟨x, -, -, -, hm, -⟩ := next_token h.running hp hn
  have hlevels : (s.tracker.advance t.kind).levels = s.tracker.settle.levels := by
    rw [LevelTracker.levels_advance, Levels.onto_of_bracket_none (by rw [ht]; rfl)]
  have hyes : Feature.verify .namespaceImport (s.tracker.advance t.kind).levels s.stack.active?
      [t] = .yes := by
    rw [hlevels]
    exact h.verified
  obtain ⟨-, hproducts, hstack⟩ := Stack.step_of_yes h.waiting (by rw [ht]; rfl) hyes
    (hw.length_lt_of_verifyImport h.verified)
  rw [← h.opens] at hproducts hstack
  rw [← hm.stack] at hstack
  refine ⟨hm.running, ⟨s.stack.builders, ?_⟩, ?_, hs.next, ?_⟩
  · rw [hstack]
    rfl
  · rw [hm.stack]
    exact (hw.step _ _ _).1
  · rw [hm.products]
    exact (congrArg (s.products ++ ·) hproducts).trans (List.append_nil _)

/-- Inside an import declaration the builder takes the next token, unless it is the semicolon. -/
theorem Importing.next {found : List Product} {b : ImportBuilder} (h : Importing found b s)
    (ht : t.kind ≠ .semicolon) (hp : s.cursor.plan = .ok t :: rest)
    (hn : s.cursor.yielded < Limits.tokenCount) :
    (s.surroundings t).hint = (b.feed t).1.hint ∧
      Importing found (b.feed t).2 s.next.scanner := by
  obtain ⟨below, hb⟩ := h.builders
  obtain ⟨x, -, -, -, hm, -⟩ := next_token h.running hp hn
  have heffect := h.wellFormed.effect_importing hb t (s.tracker.advance t.kind).levels
    (opensBehind s.cursor.past)
  obtain ⟨hint, hfeed⟩ := b.feed_of_not_semicolon ht
  have hfed : Stack.fed (.namespaceImport b :: below) t (s.tracker.advance t.kind).levels =
      ⟨hint, [], [], .namespaceImport (b.feed t).2 :: below⟩ := by
    rw [Stack.fed_cons]
    simp only [Builder.feed, Prod.map, hfeed, Stack.settle, id]
    rfl
  rw [hfed] at heffect
  have hhint := congrArg Stack.Effect.hint heffect
  have hproducts := congrArg Stack.Effect.products heffect
  have hbuilders := congrArg Stack.Effect.builders heffect
  refine ⟨?_, hm.running, ⟨below, ?_⟩, ?_, h.unclassified.next, ?_⟩
  · rw [hfeed]
    exact hhint
  · rw [hm.stack]
    exact hbuilders
  · rw [hm.stack]
    exact (h.wellFormed.step _ _ _).1
  · rw [hm.products, h.products]
    exact (congrArg (found ++ ·) hproducts).trans (List.append_nil _)

/-- The semicolon behind what is imported finishes a declaration of the entries. -/
theorem Importing.next_semicolon {found : List Product} {es : List ImportEntry}
    {ts : List Token} (h : Importing found (ImportBuilder.fresh.feedAll ts) s)
    (himported : Imported es (significant ts)) (ht : t.kind = .semicolon)
    (hp : s.cursor.plan = .ok t :: rest) (hn : s.cursor.yielded < Limits.tokenCount) :
    ∃ d, d.entries = es ∧ s.next.scanner.products = found ++ [.namespaceImport d] := by
  obtain ⟨below, hb⟩ := h.builders
  obtain ⟨x, -, -, -, hm, -⟩ := next_token h.running hp hn
  have heffect := h.wellFormed.effect_importing hb t (s.tracker.advance t.kind).levels
    (opensBehind s.cursor.past)
  obtain ⟨b, hfeed, hfinished, hentries⟩ := ImportBuilder.feed_semicolon_of_imported himported ht
  rw [ImportBuilder.feedAll_significant] at hfeed
  have hfed : (Stack.fed (.namespaceImport (ImportBuilder.fresh.feedAll ts) :: below) t
      (s.tracker.advance t.kind).levels).products = [.namespaceImport b.declaration] := by
    rw [Stack.fed_cons]
    simp [Builder.feed, hfeed, Stack.settle, Feed.finished, Builder.product?, Builder.progress,
      hfinished, Builder.snapshot]
  refine ⟨b.declaration, hentries, ?_⟩
  rw [hm.products, h.products]
  exact congrArg (found ++ ·) ((congrArg Stack.Effect.products heffect).trans hfed)

/-- What is yielded for a noted token: it is a name with the role of its entry, resolved to what
is written in it. -/
structure ShowsName (e : ImportEntry) (t : Token) (x : ScannedToken) : Prop where
  token : x.token = t
  category : x.category = .qualifiedName
  tags : x.tags = [.role e.kind, .resolved (Name.relative t.text)]

/-- Up to the semicolon every noted token of an import declaration shows its name. -/
theorem Importing.after {found : List Product} {b : ImportBuilder} (h : Importing found b s)
    {ms : List Noted} (hhints : b.Hints ms)
    (hnames : ∀ t e, (t, some e) ∈ ms → t.kind.isName = true)
    (hstop : ∀ m ∈ ms, m.1.kind ≠ .semicolon)
    (hp : s.cursor.plan = (ms.map Prod.fst).map .ok ++ rest)
    (hn : s.cursor.yielded + ms.length ≤ Limits.tokenCount) :
    (∀ i t e, ms[i]? = some (t, some e) →
        ∃ x, (s.after i).next.value = .ok (some x) ∧ ShowsName e t x) ∧
      Importing found (b.feedAll (ms.map Prod.fst)) (s.after ms.length) := by
  induction ms generalizing s b with
  | nil => exact ⟨by simp, h⟩
  | cons m ms ih =>
    obtain ⟨t, note⟩ := m
    rw [List.length_cons] at hn ⊢
    obtain ⟨x, hx, -, hxt, hm, hplan⟩ := next_token h.running hp (by omega)
    obtain rfl : x.token = t := hxt
    obtain ⟨hhint, hnext⟩ := h.next (hstop _ List.mem_cons_self) hp (by omega)
    obtain ⟨hshows, himporting⟩ := ih hnext hhints.2
      (fun t e ht => hnames t e (List.mem_cons_of_mem _ ht))
      (fun m hm => hstop m (List.mem_cons_of_mem _ hm)) hplan (by rw [hm.yielded]; omega)
    refine ⟨fun i u e hi => ?_, by rw [after_succ]; exact himporting⟩
    cases i with
    | zero =>
      obtain ⟨rfl, rfl⟩ := Prod.mk.inj (Option.some.inj hi)
      rw [hhints.1 e rfl] at hhint
      obtain ⟨hcategory, htags⟩ :=
        h.unclassified.tags_of_hint hx (hnames _ e List.mem_cons_self) hhint
      exact ⟨x, hx, rfl, hcategory, htags⟩
    | succ i =>
      rw [after_succ]
      exact hshows i u e hi

/-- Scanning an import statement where an import may begin. -/
theorem AllowsImport.after (h : s.AllowsImport) (hw : s.stack.WellFormed) (hs : s.Unclassified)
    {front : Option String} {es : List ImportEntry} {ms : List Noted}
    (hstatement : NotedStatement front es ms)
    (hp : s.cursor.plan = (ms.map Prod.fst).map .ok ++ rest)
    (hn : s.cursor.yielded + ms.length ≤ Limits.tokenCount) :
    (∃ d, d.entries = es ∧ (s.after ms.length).products = s.products ++ [.namespaceImport d]) ∧
      ∀ i t e, ms[i]? = some (t, some e) → e ∈ es ∧
        (∃ x, (s.after i).next.value = .ok (some x) ∧ ShowsName e t x) ∧
        (Name.relative t.text = Name.relative e.name ↔ front = none) := by
  obtain @⟨word, stop, ms, hword, hcontent, hstop⟩ := hstatement
  simp only [List.length_cons, List.length_append, List.length_nil] at hn
  have hp' : s.cursor.plan = .ok word :: ((ms.map Prod.fst).map .ok ++ (.ok stop :: rest)) := by
    simpa using hp
  obtain ⟨x, -, -, -, hm, hplan⟩ := next_token h.running hp' (by omega)
  obtain ⟨hshows, himporting⟩ := (h.next hw hs hword hp' (by omega)).after hcontent.hints
    (fun t e ht => (hcontent.writtenAs ht).2.isName) (fun m => hcontent.ne_semicolon) hplan
    (by rw [hm.yielded]; omega)
  obtain ⟨hpassed, hrest⟩ := passed_of_plan hm.running hplan
    (by rw [hm.yielded, List.length_map]; omega)
  rw [List.length_map] at hpassed hrest
  refine ⟨?_, fun i t e hi => ?_⟩
  · obtain ⟨d, hentries, hd⟩ := himporting.next_semicolon hcontent.imported hstop hrest
      (by rw [hpassed.yielded, hm.yielded, List.length_map]; omega)
    refine ⟨d, hentries, ?_⟩
    rw [List.length_cons, List.length_append, List.length_singleton, after_succ]
    exact hd
  · -- neither the word nor the semicolon is noted
    obtain ⟨j, rfl, hj⟩ : ∃ j, i = j + 1 ∧ ms[j]? = some (t, some e) := by
      rcases i with _ | j
      · simp at hi
      · refine ⟨j, rfl, ?_⟩
        rw [List.getElem?_cons_succ, List.getElem?_append] at hi
        split at hi
        · exact hi
        · have hmem := List.mem_of_getElem? hi
          simp at hmem
    obtain ⟨hmem, hwritten⟩ := hcontent.writtenAs (List.mem_of_getElem? hj)
    rw [after_succ]
    exact ⟨hmem, hshows j t e hj, hcontent.noted.relative_eq_iff hwritten⟩

/-- Where an import may begin an import statement is finished at its semicolon. Each token that
is the whole name of an entry is resolved to the name as it is written, without separators in
front. That is the name of the finished entry, likewise without them, if the statement has no
group, and it never is if it has one: there the prefix is missing. -/
theorem import_names_resolved_as_written (o : ScanOptions) (source : List Token) (n : ℕ)
    (hallowed : ((ofTokens o source).after n).AllowsImport) {front : Option String}
    {es : List ImportEntry} {ms : List Noted} (hstatement : NotedStatement front es ms)
    {rest : List (Except Atom.Refusal Token)}
    (hplan : ((ofTokens o source).after n).cursor.plan = (ms.map Prod.fst).map .ok ++ rest)
    (hcount : n + ms.length ≤ Limits.tokenCount) :
    (∃ d, d.entries = es ∧ ((ofTokens o source).after (n + ms.length)).products =
      ((ofTokens o source).after n).products ++ [.namespaceImport d]) ∧
    ∀ i t e, ms[i]? = some (t, some e) → e ∈ es ∧
      (∃ x, ((ofTokens o source).after (n + i)).next.value = .ok (some x) ∧ x.index = n + i ∧
        ShowsName e t x) ∧
      (Name.relative t.text = Name.relative e.name ↔ front = none) := by
  obtain ⟨ts, hlen, hpassed⟩ := passed_after n hallowed.running
  have hyielded : ((ofTokens o source).after n).cursor.yielded = n := by
    rw [hpassed.yielded, hlen, yielded_ofTokens, Nat.zero_add]
  obtain ⟨hproduct, hnames⟩ := hallowed.after (counted_after o source n).stack
    ((unclassified_ofTokens o source).after n) hstatement hplan (by rw [hyielded]; exact hcount)
  refine ⟨by rw [after_add]; exact hproduct, fun i t e hi => ?_⟩
  obtain ⟨hmem, ⟨x, hx, hshows⟩, hiff⟩ := hnames i t e hi
  rw [← after_add] at hx
  obtain ⟨-, -, hindex, -⟩ := passed_of_yield hx
  rw [yielded_ofTokens, Nat.zero_add] at hindex
  exact ⟨hmem, ⟨x, hx, hindex, hshows⟩, hiff⟩

/-- The statement `use \A;`. -/
def plainImport : List Noted :=
  [(⟨.useWord, "use", 1, 0⟩, none), (⟨.whitespace, " ", 1, 3⟩, none),
    (⟨.fullyQualifiedName, "\\A", 1, 4⟩, some ⟨.classLike, "\\A", none⟩),
    (⟨.semicolon, ";", 1, 6⟩, none)]

/-- The statement `use A\` with a group of the name `B`, behind the one before. -/
def groupedImport : List Noted :=
  [(⟨.useWord, "use", 1, 7⟩, none), (⟨.whitespace, " ", 1, 10⟩, none),
    (⟨.identifier, "A", 1, 11⟩, none), (⟨.separator, "\\", 1, 12⟩, none),
    (⟨.openCurly, "\x7b", 1, 13⟩, none),
    (⟨.identifier, "B", 1, 14⟩, some ⟨.classLike, "A\\B", none⟩),
    (⟨.closeCurly, "\x7d", 1, 15⟩, none), (⟨.semicolon, ";", 1, 16⟩, none)]

theorem notedStatement_plainImport :
    NotedStatement none [⟨.classLike, "\\A", none⟩] plainImport := by
  have hname : Spells "\\A" [⟨.fullyQualifiedName, "\\A", 1, 4⟩] :=
    ⟨by decide, by decide, by decide, by simp; decide⟩
  have hentry := @NotedEntry.single .classLike ⟨.classLike, "\\A", none⟩ _ [] rfl hname .none
  exact @NotedStatement.mk none _ ⟨.useWord, "use", 1, 0⟩ ⟨.semicolon, ";", 1, 6⟩
    [(⟨.whitespace, " ", 1, 3⟩, none),
      (⟨.fullyQualifiedName, "\\A", 1, 4⟩, some ⟨.classLike, "\\A", none⟩)]
    rfl ⟨.names .none (.last hentry), by decide⟩ rfl

theorem notedStatement_groupedImport :
    NotedStatement (some "A") [⟨.classLike, "A\\B", none⟩] groupedImport := by
  have hfront : Spells "A" [⟨.identifier, "A", 1, 11⟩] :=
    ⟨by decide, by decide, by decide, by simp; decide⟩
  have hname : Spells "B" [⟨.identifier, "B", 1, 14⟩] :=
    ⟨by decide, by decide, by decide, by simp; decide⟩
  have hentry := @NotedEntry.grouped .classLike ⟨.classLike, "A\\B", none⟩ "A" "B" none [] _ []
    rfl (by decide) .none hname .none
  have himport := @NotedImport.group none "A" _ ⟨.separator, "\\", 1, 12⟩
    ⟨.openCurly, "\x7b", 1, 13⟩ ⟨.closeCurly, "\x7d", 1, 15⟩ [] _ _ .none hfront (by decide) rfl
    rfl rfl (.last hentry) rfl
  exact @NotedStatement.mk (some "A") _ ⟨.useWord, "use", 1, 7⟩ ⟨.semicolon, ";", 1, 16⟩
    [(⟨.whitespace, " ", 1, 10⟩, none), (⟨.identifier, "A", 1, 11⟩, none),
      (⟨.separator, "\\", 1, 12⟩, none), (⟨.openCurly, "\x7b", 1, 13⟩, none),
      (⟨.identifier, "B", 1, 14⟩, some ⟨.classLike, "A\\B", none⟩),
      (⟨.closeCurly, "\x7d", 1, 15⟩, none)] rfl ⟨himport, by decide⟩ rfl

/-- The scan of both statements, one behind the other. -/
def twoImports : Scanner :=
  ofTokens ⟨false, false⟩ ((plainImport ++ groupedImport).map Prod.fst)

/-- The plain name is that of its entry, the one in the group is not. -/
theorem import_names_resolved_as_written_twoImports :
    ((∃ x, (twoImports.after 2).next.value = .ok (some x) ∧
        x.tags = [.role .classLike, .resolved "A"]) ∧ "A" = Name.relative "\\A") ∧
      (∃ d : ImportDeclaration, d.entries = [⟨.classLike, "A\\B", none⟩] ∧
        (twoImports.after 12).products = (twoImports.after 4).products ++ [.namespaceImport d]) ∧
      (∃ x, (twoImports.after 9).next.value = .ok (some x) ∧
        x.tags = [.role .classLike, .resolved "B"]) ∧ "B" ≠ Name.relative "A\\B" := by
  have hplan : twoImports.cursor.plan = (plainImport.map Prod.fst).map .ok ++
      (groupedImport.map Prod.fst).map .ok := rfl
  have hplan' : (twoImports.after 4).cursor.plan = (groupedImport.map Prod.fst).map .ok ++ [] := by
    rfl
  obtain ⟨-, hplain⟩ := import_names_resolved_as_written ⟨false, false⟩ _ 0
    (⟨rfl, rfl, by decide, by decide⟩ : twoImports.AllowsImport) notedStatement_plainImport hplan
    (by decide)
  obtain ⟨hproduct, hgrouped⟩ := import_names_resolved_as_written ⟨false, false⟩ _ 4
    (⟨by decide +kernel, by decide +kernel, by decide +kernel, by decide +kernel⟩ :
      (twoImports.after 4).AllowsImport) notedStatement_groupedImport hplan' (by decide)
  obtain ⟨-, ⟨x, hx, -, hshows⟩, hsame⟩ := hplain 2 _ _ rfl
  obtain ⟨-, ⟨y, hy, -, hshows'⟩, hother⟩ := hgrouped 5 _ _ rfl
  exact ⟨⟨⟨x, hx, hshows.tags⟩, hsame.2 rfl⟩, hproduct, ⟨y, hy, hshows'.tags⟩,
    fun h => absurd (hother.1 h) (by decide)⟩

/-- The finished import of a group has the prefix, what the name in it is resolved to has not. -/
theorem grouped_name_resolved_without_prefix :
    ((ofTokens ⟨false, false⟩ (groupedImport.map Prod.fst)).run 8).value.1[5]?.map (·.tags) =
        some [.role .classLike, .resolved "B"] ∧
      ((ofTokens ⟨false, false⟩ (groupedImport.map Prod.fst)).run 8).scanner.products =
        [.namespaceImport ⟨[⟨.classLike, "A\\B", none⟩], some "A"⟩] ∧
      Name.relative "A\\B" = "A\\B" := by
  decide +kernel

end Scanner

end TokenAtlas
