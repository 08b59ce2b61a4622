import TokenAtlas.Proofs.Source.Statements
import TokenAtlas.Proofs.Symbol.Coverage

/-! Imported names resolve. An entry is stored under the key of its short name, and the last
entry with a key decides what is found under it. Main statement: an import statement yields
a declaration of the entries that were written, and where there is room for them the short
name of each that no later one displaces stands for its full name. -/

namespace TokenAtlas

namespace Imports

theorem lookup_foldl_put_of_ne (i : Imports) {es : List ImportEntry} {k : SymbolKind}
    {short : String} (h : ∀ e ∈ es, e.kind = k → e.key ≠ k.key short) :
    (es.foldl put i).lookup k short = i.lookup k short := by
  induction es generalizing i with
  | nil => rfl
  | cons e es ih =>
    rw [List.foldl_cons, ih _ fun e' he' => h e' (List.mem_cons_of_mem _ he'),
      lookup_put_of_ne i (h e List.mem_cons_self)]

/-- Of the entries with one key the last decides. -/
theorem lookup_of_last (i : Imports) {front back : List ImportEntry} {e : ImportEntry}
    (h : ∀ later ∈ back, later.kind = e.kind → later.key ≠ e.key) :
    ((front ++ e :: back).foldl put i).lookup e.kind e.short = some (Name.relative e.name) := by
  rw [List.foldl_append, List.foldl_cons, lookup_foldl_put_of_ne _ h, lookup_put_of_key _ rfl]

/-- A single segment that was imported stands for the imported name. -/
theorem resolve_of_lookup {i : Imports} {k : SymbolKind} {short name : String}
    (hsingle : '\\' ∉ short.toList) (hword : Name.isNamespaceWord short = false)
    (h : i.lookup k short = some name) : i.resolve k short = name := by
  rw [resolve_short i k hsingle hword, h, Option.getD_some]

/-- Where there is room for a declaration the short name of an entry that no later one
displaces stands for its full name. -/
theorem resolve_apply {i : Imports} {d : ImportDeclaration} {front back : List ImportEntry}
    {e : ImportEntry} (hroom : i.size + d.entries.length ≤ Limits.imports)
    (hsplit : d.entries = front ++ e :: back)
    (hlast : ∀ later ∈ back, later.kind = e.kind → later.key ≠ e.key)
    (hsingle : ∀ known ∈ e.knownAs, '\\' ∉ known.toList)
    (hword : Name.isNamespaceWord e.short = false) :
    (i.apply d).imports.resolve e.kind e.short = Name.relative e.name := by
  have hshort : '\\' ∉ e.short.toList := by
    rcases hk : e.knownAs with _ | known
    · simpa [ImportEntry.short, hk] using Name.separator_notMem_lastSegment e.name
    · simpa [ImportEntry.short, hk] using hsingle known hk
  refine resolve_of_lookup hshort hword ?_
  rw [apply_imports i d hroom, obey, hsplit]
  exact lookup_of_last i hlast

end Imports

namespace Course

/-- Outside every block and every feature an import statement is a declaration of the entries
that were written, complete at the semicolon, and their short names resolve where there is
room for them. -/
theorem import_declares_and_resolves {c : Course} (h : c.Outside) {word stop : Token}
    {ts : List Token} {es : List ImportEntry} (hword : word.kind = .useWord)
    (himported : Imported es (significant ts)) (hstop : stop.kind = .semicolon) :
    ∃ d, d.entries = es ∧
      (c.steps ((word :: (ts ++ [stop])).map (·, true))).map (·.products) =
        List.replicate (ts.length + 1) [] ++ [[.namespaceImport d]] ∧
      (c.after ((word :: (ts ++ [stop])).map (·, true))).stack = .empty ∧
      ∀ (i : Imports), i.size + es.length ≤ Limits.imports →
        ∀ front e back, es = front ++ e :: back →
          (∀ later ∈ back, later.kind = e.kind → later.key ≠ e.key) →
          (∀ known ∈ e.knownAs, '\\' ∉ known.toList) →
          Name.isNamespaceWord e.short = false →
          (i.apply d).imports.resolve e.kind e.short = Name.relative e.name := by
  have hyes : Feature.verifyImport c.tracker.settle.levels ([] : List Builder).head? = .yes := by
    simp [Feature.verifyImport, h.curly]
  obtain ⟨s, d, rfl, hquiet, hmoves⟩ :=
    Site.completes_import hword himported hstop hyes (by decide)
  have hyields := hquiet.yields.append (.step hmoves (.nil _))
  have hsite : c.site = ⟨c.tracker.settle.levels, ⟨[], none⟩⟩ := by
    rw [site, h.stack]
    rfl
  have htokens : ((word :: ts).map (·, []) ++ [(stop, [Product.namespaceImport d])]).map Prod.fst =
      word :: (ts ++ [stop]) := by
    simp [Function.comp_def]
  obtain ⟨hproducts, hafter⟩ := products_of_yields (hsite ▸ hyields) htokens
  have hstack := (congrArg Site.stack hafter).trans h.stack
  refine ⟨d, rfl, ?_, hstack, fun i hroom front e back hsplit => ?_⟩
  · rw [hproducts]
    simp [List.map_const', List.replicate_succ, Function.comp_def]
  · exact Imports.resolve_apply hroom hsplit

/-- A group with the function `A\b`, known as `C`, and the constant `A\D`. -/
def groupedNames : List Token :=
  [⟨.whitespace, " ", 1, 3⟩, ⟨.functionWord, "function", 1, 4⟩, ⟨.whitespace, " ", 1, 12⟩,
    ⟨.identifier, "A", 1, 13⟩, ⟨.separator, "\\", 1, 14⟩, ⟨.openCurly, "\x7b", 1, 15⟩,
    ⟨.identifier, "b", 1, 16⟩, ⟨.whitespace, " ", 1, 17⟩, ⟨.asWord, "as", 1, 18⟩,
    ⟨.whitespace, " ", 1, 20⟩, ⟨.identifier, "C", 1, 21⟩, ⟨.comma, ",", 1, 22⟩,
    ⟨.whitespace, " ", 1, 23⟩, ⟨.constWord, "const", 1, 24⟩, ⟨.whitespace, " ", 1, 29⟩,
    ⟨.identifier, "D", 1, 30⟩, ⟨.comma, ",", 1, 31⟩, ⟨.closeCurly, "\x7d", 1, 32⟩]

theorem imported_groupedNames :
    Imported [⟨.function, "A\\b", some "C"⟩, ⟨.constant, "A\\D", none⟩]
      (significant groupedNames) := by
  have hspells : ∀ (t : Token), t.kind = .identifier → t.text ≠ "" →
      (∀ c ∈ t.text.toList, Text.isBlank c = false) → Spells t.text [t] := fun t hk hne hsolid =>
    ⟨by simp [hk, Kind.isName, Kind.isNameSegment], by simp [Token.joined], hne, hsolid⟩
  have hfirst := @Entry.grouped .function "A" "b" none (some "C") [] [⟨.identifier, "b", 1, 16⟩]
    [⟨.asWord, "as", 1, 18⟩, ⟨.identifier, "C", 1, 21⟩] .none
    (hspells ⟨.identifier, "b", 1, 16⟩ rfl (by decide) (by simp; decide))
    (@ShortName.known ⟨.asWord, "as", 1, 18⟩ ⟨.identifier, "C", 1, 21⟩ rfl rfl)
  have hsecond := @Entry.grouped .function "A" "D" (some .constant) none
    [⟨.constWord, "const", 1, 24⟩] [⟨.identifier, "D", 1, 30⟩] [] (.constant rfl)
    (hspells ⟨.identifier, "D", 1, 30⟩ rfl (by decide) (by simp; decide)) .none
  have hentries := @Entries.more _ _ _ _ ⟨.comma, ",", 1, 22⟩ _ _ hfirst rfl
    (@Entries.more _ _ _ _ ⟨.comma, ",", 1, 31⟩ _ _ hsecond rfl .nil)
  exact @Imported.group (some .function) "A" _ ⟨.separator, "\\", 1, 14⟩
    ⟨.openCurly, "\x7b", 1, 15⟩ ⟨.closeCurly, "\x7d", 1, 32⟩ [⟨.functionWord, "function", 1, 4⟩]
    [⟨.identifier, "A", 1, 13⟩] _ (.function rfl)
    (hspells ⟨.identifier, "A", 1, 13⟩ rfl (by decide) (by simp; decide)) (by decide) rfl rfl rfl
    hentries rfl

/-- A function of a group is found under its short name. -/
theorem import_declares_and_resolves_groupedNames :
    ∃ d : ImportDeclaration,
      (start.steps ((⟨.useWord, "use", 1, 0⟩ :: (groupedNames ++ [⟨.semicolon, ";", 1, 33⟩])).map
        (·, true))).map (·.products) = List.replicate 19 [] ++ [[.namespaceImport d]] ∧
      (Imports.empty.apply d).imports.resolve .function "C" = "A\\b" := by
  obtain ⟨d, -, hproducts, -, hresolve⟩ := @import_declares_and_resolves start ⟨rfl, rfl⟩
    ⟨.useWord, "use", 1, 0⟩ ⟨.semicolon, ";", 1, 33⟩ groupedNames _ rfl imported_groupedNames rfl
  exact ⟨d, hproducts, hresolve .empty (by decide) [] ⟨.function, "A\\b", some "C"⟩ _ rfl
    (by decide) (by decide) (by decide +kernel)⟩

end Course

end TokenAtlas
