import TokenAtlas.Proofs.Source.Permission

/-! The names in force along the scan of a source file. Main statement: behind every token
that is yielded they are what the namespace and import statements completed so far make of
them; neither the use of a trait nor a closure's use clause changes them. -/

namespace TokenAtlas

namespace Imports

/-- How many names some statements import. -/
def count : List Statement → Nat
  | [] => 0
  | s :: ss => s.entryCount + count ss

theorem count_append (a b : List Statement) : count (a ++ b) = count a + count b := by
  induction a with
  | nil => simp [count]
  | cons s a ih => simp [count, ih, Nat.add_assoc]

theorem foldl_heed (i : Imports) (es : List BuildEvent) :
    es.foldl heed i = (es.map BuildEvent.statement).foldl obey i := by
  rw [List.foldl_map]
  rfl

theorem foldl_adopt (i : Imports) (ps : List Product)
    (h : i.size + count (ps.filterMap Product.statement?) ≤ Limits.imports) :
    ps.foldl adopt i = (ps.filterMap Product.statement?).foldl obey i := by
  induction ps generalizing i with
  | nil => rfl
  | cons p ps ih =>
    cases p with
    | namespaceDeclaration d => exact ih i h
    | functionSignature s => exact ih i h
    | namespaceImport d =>
      have hcount : count ((Product.namespaceImport d :: ps).filterMap Product.statement?) =
          d.entries.length + count (ps.filterMap Product.statement?) := rfl
      rw [hcount] at h
      have happly : i.adopt (.namespaceImport d) = i.obey (.imports d.entries) :=
        apply_imports i d (by omega)
      have hsize := size_obey_le i (.imports d.entries)
      simp only [Statement.entryCount] at hsize
      rw [List.foldl_cons, happly, ih _ (by omega)]
      rfl

theorem size_foldl_obey_le (i : Imports) (ss : List Statement) :
    (ss.foldl obey i).size ≤ i.size + count ss := by
  induction ss generalizing i with
  | nil => exact Nat.le_refl _
  | cons s ss ih =>
    have hs := size_obey_le i s
    have hss := ih (i.obey s)
    simp only [count, List.foldl_cons] at hss ⊢
    omega

/-- While the imports stay below their limit a token's statements are obeyed. -/
theorem follow_eq (i : Imports) (step : StackStep)
    (h : i.size + count step.statements ≤ Limits.imports) :
    i.follow step = step.statements.foldl obey i := by
  have hevents := size_foldl_obey_le i (step.events.map BuildEvent.statement)
  rw [StackStep.statements, count_append] at h
  rw [follow, foldl_heed, foldl_adopt _ _ (by omega), StackStep.statements, List.foldl_append]

theorem foldl_follow (i : Imports) (steps : List StackStep)
    (h : i.size + count (steps.flatMap StackStep.statements) ≤ Limits.imports) :
    steps.foldl follow i = (steps.flatMap StackStep.statements).foldl obey i := by
  induction steps generalizing i with
  | nil => rfl
  | cons step steps ih =>
    rw [List.flatMap_cons, count_append] at h
    have hsize := size_foldl_obey_le i step.statements
    rw [List.foldl_cons, follow_eq i step (by omega), ih _ (by omega), List.flatMap_cons,
      List.foldl_append]

end Imports

/-! ### Along a file -/

theorem Site.Reads.of_append {s d : Site} {a b : List Marked} (h : Reads s (a ++ b) d) :
    ∃ e, Reads s a e := by
  induction a generalizing s with
  | nil => exact ⟨s, .nil s⟩
  | cons x a ih =>
    cases h with
    | cons hmark hrest =>
      obtain ⟨e, he⟩ := ih hrest
      exact ⟨e, .cons hmark he⟩

theorem Site.Reads.statements {s d : Site} {ms : List Marked} (h : Reads s ms d) :
    (s.steps (ms.map Prod.fst)).flatMap StackStep.statements = TokenAtlas.statements ms := by
  induction h with
  | nil => rfl
  | @cons s d t mark rest hmark _ ih =>
    rw [List.map_cons, steps_cons, List.flatMap_cons, hmark, ih]
    cases mark <;> rfl

/-- A course completes the statements that its site reads. -/
theorem Course.statements_of_reads {c : Course} {ms : List Marked} {d : Site}
    (h : Site.Reads c.site ms d) {xs : List (Token × Bool)}
    (hxs : xs.map Prod.fst = ms.map Prod.fst)
    (hp : ∀ x ∈ xs, x.2 = true ∨ Feature.ofOpener x.1.kind = none) :
    (c.steps xs).flatMap StackStep.statements = statements ms := by
  rw [(c.steps_eq_site hp).1, hxs]
  exact h.statements

namespace Scanner

/-- The features opened along the beginning of a source file complete its statements. -/
theorem statements_of_prefix {file ms rest : List Marked} (hfile : SourceFile file)
    (hsplit : ms ++ rest = file) (hopens : Unblocked Token.isTrivia (file.map Prod.fst)) :
    (Course.start.steps (permitted [] (ms.map Prod.fst))).flatMap StackStep.statements =
      statements ms := by
  subst hsplit
  have hreads : Site.Reads Course.start.site (ms ++ rest) Course.start.site := hfile.reads rfl
  obtain ⟨e, hreads⟩ := hreads.of_append
  refine Course.statements_of_reads hreads (map_fst_permitted [] _) fun x hx => ?_
  rw [List.map_append] at hopens
  refine @permitted_of_unblocked [] (ms.map Prod.fst ++ rest.map Prod.fst) hopens x ?_
  rw [List.reverse_nil, permitted_append]
  exact List.mem_append_left _ hx

/-- Whatever was passed of a source file, the names in force are those that the statements
completed so far lead to. -/
theorem imports_of_passed {o : ScanOptions} {file : List Marked} (hfile : SourceFile file)
    (hcount : Imports.count (statements file) < Limits.imports)
    (hopens : Unblocked (Token.mayBeTrivia o.refine) (file.map Prod.fst)) {ts : List Token}
    {d : Scanner} (h : Passed (ofTokens o (file.map Prod.fst)) ts d) :
    ts <+: (stream o.splitting file).map Prod.fst ∧
      d.imports = Imports.replay (statements ((stream o.splitting file).take ts.length)) := by
  have hfront : ts <+: (stream o.splitting file).map Prod.fst := by
    rw [map_fst_stream]
    exact Cursor.prefix_of_contributions ((plan_ofTokens o _).symm.trans h.plan)
  refine ⟨hfront, ?_⟩
  have hsplit := List.take_append_drop ts.length (stream o.splitting file)
  have htokens : ts = ((stream o.splitting file).take ts.length).map Prod.fst := by
    rw [List.map_take]
    exact List.prefix_iff_eq_take.1 hfront
  generalize (stream o.splitting file).take ts.length = ms at hsplit htokens ⊢
  have hstream : Unblocked Token.isTrivia ((stream o.splitting file).map Prod.fst) := by
    rw [map_fst_stream]
    rw [← o.isSome_splitting] at hopens
    exact hopens.refined
  have hstatements := statements_of_prefix hfile.refined hsplit hstream
  rw [← htokens] at hstatements
  have hle : Imports.count (statements ms) ≤ Imports.count (statements file) := by
    have hall : statements (stream o.splitting file) = statements file := hfile.statements_stream
    rw [← hall, ← hsplit, statements_append, Imports.count_append]
    exact Nat.le_add_right _ _
  have hempty : Imports.empty.size = 0 := rfl
  have hbound : Imports.empty.size + Imports.count
      ((Course.start.steps (permitted [] ts)).flatMap StackStep.statements) ≤ Limits.imports := by
    rw [hstatements]
    omega
  have himports : d.imports =
      (Course.start.steps (permitted [] ts)).foldl Imports.follow .empty := h.imports
  rw [himports, Imports.foldl_follow _ _ hbound, hstatements, Imports.replay]

/-- Behind every token that a scan of a source file yields, the names in force are those
that replaying the namespace and import statements completed so far leads to. A token that
completes none leaves them as they are. What stands before an opening word is looked for
behind trivia and, if the stream is refined, behind blank strings. -/
theorem imports_follow_statements {o : ScanOptions} {file : List Marked}
    (hfile : SourceFile file) (hcount : Imports.count (statements file) < Limits.imports)
    (hopens : Unblocked (Token.mayBeTrivia o.refine) (file.map Prod.fst)) (n : Nat)
    {x : ScannedToken}
    (hx : ((ofTokens o (file.map Prod.fst)).after n).next.value = .ok (some x)) :
    ∃ hn : n < (stream o.splitting file).length,
      x.token = (stream o.splitting file)[n].1 ∧
      ((ofTokens o (file.map Prod.fst)).after (n + 1)).imports =
        Imports.replay (statements ((stream o.splitting file).take (n + 1))) ∧
      ((stream o.splitting file)[n].2 = none →
        ((ofTokens o (file.map Prod.fst)).after (n + 1)).imports =
          ((ofTokens o (file.map Prod.fst)).after n).imports) := by
  obtain ⟨ts, hlen, -, hbefore, hbehind⟩ := passed_of_yield hx
  obtain ⟨-, himportsBefore⟩ := imports_of_passed hfile hcount hopens hbefore
  obtain ⟨hfront, himports⟩ := imports_of_passed hfile hcount hopens hbehind
  rw [hlen] at himportsBefore
  rw [List.length_append, hlen, List.length_singleton] at himports
  have hn : n < (stream o.splitting file).length := by
    have hle := hfront.length_le
    rw [List.length_append, hlen, List.length_singleton, List.length_map] at hle
    exact hle
  refine ⟨hn, ?_, himports, fun hnone => ?_⟩
  · have hget := hfront.getElem (by simp [hlen] : n < (ts ++ [x.token]).length)
    simpa [← hlen] using hget
  · rw [himports, himportsBefore, List.take_succ_eq_append_getElem hn, statements_append]
    simp [statements, hnone]

/-- `namespace A; use B\C; class D \x7b use T; \x7d`, with the statements that it completes. -/
def traitUser : List Marked :=
  [(⟨.namespaceWord, "namespace", 1, 0⟩, none), (⟨.whitespace, " ", 1, 9⟩, none),
    (⟨.identifier, "A", 1, 10⟩, none), (⟨.semicolon, ";", 1, 11⟩, some (.entersNamespace "A")),
    (⟨.useWord, "use", 1, 12⟩, none), (⟨.whitespace, " ", 1, 15⟩, none),
    (⟨.identifier, "B", 1, 16⟩, none), (⟨.separator, "\\", 1, 17⟩, none),
    (⟨.identifier, "C", 1, 18⟩, none),
    (⟨.semicolon, ";", 1, 19⟩, some (.imports [⟨.classLike, "B\\C", none⟩])),
    (⟨.classWord, "class", 1, 20⟩, none), (⟨.whitespace, " ", 1, 25⟩, none),
    (⟨.identifier, "D", 1, 26⟩, none), (⟨.openCurly, "\x7b", 1, 27⟩, none),
    (⟨.useWord, "use", 1, 28⟩, none), (⟨.whitespace, " ", 1, 31⟩, none),
    (⟨.identifier, "T", 1, 32⟩, none), (⟨.semicolon, ";", 1, 33⟩, none),
    (⟨.closeCurly, "\x7d", 1, 34⟩, none)]

theorem sourceFile_traitUser : SourceFile traitUser := by
  have hclass : Code Limits.nesting false
      [⟨.classWord, "class", 1, 20⟩, ⟨.whitespace, " ", 1, 25⟩, ⟨.identifier, "D", 1, 26⟩,
        ⟨.openCurly, "\x7b", 1, 27⟩, ⟨.useWord, "use", 1, 28⟩, ⟨.whitespace, " ", 1, 31⟩,
        ⟨.identifier, "T", 1, 32⟩, ⟨.semicolon, ";", 1, 33⟩, ⟨.closeCurly, "\x7d", 1, 34⟩] := by
    refine .token rfl rfl (.token rfl rfl (.token rfl rfl ?_))
    exact @Code.group _ _ .curly _ _ [_, _, _, _] [] rfl rfl
      (.traitUse rfl (.token rfl rfl (.token rfl rfl (.token rfl rfl .nil)))) .nil
  have himport : ImportStatement
      [(⟨.useWord, "use", 1, 12⟩, none), (⟨.whitespace, " ", 1, 15⟩, none),
        (⟨.identifier, "B", 1, 16⟩, none), (⟨.separator, "\\", 1, 17⟩, none),
        (⟨.identifier, "C", 1, 18⟩, none),
        (⟨.semicolon, ";", 1, 19⟩, some (.imports [⟨.classLike, "B\\C", none⟩]))] := by
    have hname : Spells "B\\C" [⟨.identifier, "B", 1, 16⟩, ⟨.separator, "\\", 1, 17⟩,
        ⟨.identifier, "C", 1, 18⟩] := ⟨by decide, rfl, by decide, by simp; decide⟩
    exact @ImportStatement.mk ⟨.useWord, "use", 1, 12⟩ ⟨.semicolon, ";", 1, 19⟩
      [⟨.whitespace, " ", 1, 15⟩, ⟨.identifier, "B", 1, 16⟩, ⟨.separator, "\\", 1, 17⟩,
        ⟨.identifier, "C", 1, 18⟩] _ rfl
      (.names .none (.last (.single hname .none))) rfl
  have hhead : NamespaceHead "A" [⟨.namespaceWord, "namespace", 1, 0⟩, ⟨.whitespace, " ", 1, 9⟩,
      ⟨.identifier, "A", 1, 10⟩] :=
    .mk rfl rfl rfl ⟨by decide, rfl, by decide, by simp; decide⟩
  exact .namespaceStatement hhead rfl (.imports himport (.code hclass .nil))

/-- The semicolon of a trait's use leaves the names as the statements before it made them. -/
theorem imports_follow_statements_traitUser :
    ((ofTokens ⟨true, true⟩ (traitUser.map Prod.fst)).after 18).imports =
        (Imports.enter "A").put ⟨.classLike, "B\\C", none⟩ ∧
      ((ofTokens ⟨true, true⟩ (traitUser.map Prod.fst)).after 18).imports =
        ((ofTokens ⟨true, true⟩ (traitUser.map Prod.fst)).after 17).imports := by
  obtain ⟨x, hx, -⟩ := @yield_of_plan (ofTokens ⟨true, true⟩ (traitUser.map Prod.fst))
    (traitUser.map Prod.fst) [] rfl rfl (by decide) 17 (by decide)
  obtain ⟨hn, -, himports, hkept⟩ := @imports_follow_statements ⟨true, true⟩ traitUser
    sourceFile_traitUser (by decide) (by decide) 17 x hx
  exact ⟨himports, hkept rfl⟩

/-- A blank string between `::` and `use A;`. -/
def blankBehindColon : List Marked :=
  [(⟨.doubleColon, "::", 1, 0⟩, none), (⟨.stringSegment, " ", 1, 2⟩, none),
    (⟨.useWord, "use", 1, 3⟩, none), (⟨.whitespace, " ", 1, 6⟩, none),
    (⟨.identifier, "A", 1, 7⟩, none),
    (⟨.semicolon, ";", 1, 8⟩, some (.imports [⟨.classLike, "A", none⟩]))]

theorem sourceFile_blankBehindColon : SourceFile blankBehindColon := by
  have hcode : Code Limits.nesting false
      [⟨.doubleColon, "::", 1, 0⟩, ⟨.stringSegment, " ", 1, 2⟩] :=
    .token rfl rfl (.token rfl rfl .nil)
  have himport : ImportStatement
      [(⟨.useWord, "use", 1, 3⟩, none), (⟨.whitespace, " ", 1, 6⟩, none),
        (⟨.identifier, "A", 1, 7⟩, none),
        (⟨.semicolon, ";", 1, 8⟩, some (.imports [⟨.classLike, "A", none⟩]))] := by
    have hname : Spells "A" [⟨.identifier, "A", 1, 7⟩] :=
      ⟨by decide, rfl, by decide, by simp; decide⟩
    exact @ImportStatement.mk ⟨.useWord, "use", 1, 3⟩ ⟨.semicolon, ";", 1, 8⟩
      [⟨.whitespace, " ", 1, 6⟩, ⟨.identifier, "A", 1, 7⟩] _ rfl
      (.names .none (.last (.single hname .none))) rfl
  exact .code hcode (.imports himport .nil)

/-- Refined, the string is trivia, and the import behind it is not begun. If only trivia of the
file were looked past, what stands before `use` would be the string. -/
theorem blank_string_blocks_import :
    ¬ ∀ (o : ScanOptions) (file : List Marked), SourceFile file →
      Imports.count (statements file) < Limits.imports →
      Unblocked Token.isTrivia (file.map Prod.fst) → ∀ (n : Nat) (x : ScannedToken),
      ((ofTokens o (file.map Prod.fst)).after n).next.value = .ok (some x) →
      ((ofTokens o (file.map Prod.fst)).after (n + 1)).imports =
        Imports.replay (statements ((stream o.splitting file).take (n + 1))) := by
  intro hclaim
  obtain ⟨x, hx, -⟩ := @yield_of_plan (ofTokens ⟨true, true⟩ (blankBehindColon.map Prod.fst))
    ((stream (some true) blankBehindColon).map Prod.fst) [] rfl (by decide +kernel)
    (by decide +kernel) 5 (by decide +kernel)
  have himports := hclaim ⟨true, true⟩ blankBehindColon sourceFile_blankBehindColon (by decide)
    (by decide) 5 x hx
  have hnone :
      ((ofTokens ⟨true, true⟩ (blankBehindColon.map Prod.fst)).after 6).imports.size = 0 := by
    decide +kernel
  rw [himports] at hnone
  exact absurd hnone (by decide +kernel)

end Scanner

end TokenAtlas
