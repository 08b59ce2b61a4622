import Mathlib.Data.List.TakeWhile
import TokenAtlas.Proofs.Symbol.Replay

/-! The names that an import covers. An imported name stands for every short name with its key,
and as a class for the first segment of qualified names as well, whatever their kind. Main
statement: an accepted import gives the names that it covers their new meaning, and every other
name of every kind keeps its own. -/

namespace TokenAtlas

namespace Name

theorem separator_notMem_lastSegment (name : String) : '\\' ∉ (lastSegment name).toList := by
  rw [lastSegment, String.toList_ofList, List.mem_reverse]
  intro h
  simpa [isSeparator] using List.all_eq_true.1 List.all_takeWhile _ h

theorem not_isSeparator_of_notMem {cs : List Char} (h : '\\' ∉ cs) :
    ∀ c ∈ cs, (!isSeparator c) = true := by
  intro c hc
  have hne : c ≠ '\\' := fun heq => h (heq ▸ hc)
  simpa [isSeparator] using hne

theorem shape_of_separator_notMem {s : String} (h : '\\' ∉ s.toList) : shape s = .single := by
  have hdrop : s.toList.dropWhile (!isSeparator ·) = [] :=
    List.dropWhile_eq_nil_iff.2 (not_isSeparator_of_notMem h)
  unfold shape
  split
  · next hs => simp [hs] at h
  · rw [hdrop]

theorem shape_join {first : String} (hne : first ≠ "") (hsegment : '\\' ∉ first.toList)
    (rest : String) : shape (join first rest) = .qualified first rest := by
  have hall := not_isSeparator_of_notMem hsegment
  have hlist : (join first rest).toList = first.toList ++ '\\' :: rest.toList := by
    simp [join]
  have hdrop : (join first rest).toList.dropWhile (!isSeparator ·) = '\\' :: rest.toList := by
    rw [hlist, List.dropWhile_append_of_pos hall,
      List.dropWhile_cons_of_neg (by simp [isSeparator])]
  have htake : (join first rest).toList.takeWhile (!isSeparator ·) = first.toList := by
    rw [hlist, List.takeWhile_append_of_pos hall,
      List.takeWhile_cons_of_neg (by simp [isSeparator]), List.append_nil]
  unfold shape
  split
  · next hs =>
    -- the name begins as its first segment does
    obtain ⟨c, cs, hfirst⟩ := List.exists_cons_of_ne_nil (by simpa using hne : first.toList ≠ [])
    rw [hlist, hfirst, List.cons_append, List.cons.injEq] at hs
    simp [hfirst, hs.1] at hsegment
  · simp only [hdrop, htake, String.ofList_toList]

/-- A name is absolute, or one segment, or a segment that others follow. -/
theorem shape_cases (s : String) :
    (s.toList.head? = some '\\' ∧ ∃ rest, shape s = .absolute rest) ∨ '\\' ∉ s.toList ∨
      ∃ first rest, first ≠ "" ∧ '\\' ∉ first.toList ∧ s = join first rest := by
  by_cases hmem : '\\' ∈ s.toList
  · obtain ⟨front, back, hsplit, hfront⟩ := List.eq_append_cons_of_mem hmem
    cases front with
    | nil => exact .inl ⟨by simp [hsplit], String.ofList back, by simp [shape, hsplit]⟩
    | cons c cs =>
      refine .inr (.inr ⟨String.ofList (c :: cs), String.ofList back, by simp,
        by simpa using hfront, ?_⟩)
      rw [← String.toList_inj, hsplit]
      simp [join]
  · exact .inr (.inl hmem)

end Name

/-- The names that an entry covers as names of a kind, each with what it stands for when the
entry has been imported. -/
inductive ImportEntry.Covers (e : ImportEntry) : SymbolKind → String → String → Prop
  | short {name : String} (hsegment : '\\' ∉ name.toList)
      (hword : Name.isNamespaceWord name = false) (hkey : e.kind.key name = e.key) :
      Covers e e.kind name (Name.relative e.name)
  | qualified {k : SymbolKind} {first rest : String} (hclass : e.kind = .classLike)
      (hne : first ≠ "") (hsegment : '\\' ∉ first.toList)
      (hword : Name.isNamespaceWord first = false) (hkey : e.kind.key first = e.key) :
      Covers e k (Name.join first rest) (Name.join (Name.relative e.name) rest)

namespace Imports

/-- An entry is found under every short name with its key. -/
theorem lookup_put_of_key (i : Imports) {e : ImportEntry} {short : String}
    (h : e.kind.key short = e.key) :
    (i.put e).lookup e.kind short = some (Name.relative e.name) := by
  have hslot : e.slot = (e.kind, e.kind.key short) := by rw [h, ImportEntry.slot]
  have hstored := i.stored_put e (e.kind, e.kind.key short)
  rw [if_pos hslot] at hstored
  exact congrArg (Option.map Name.relative) hstored

/-- An entry of another kind or with another key leaves a short name alone. -/
theorem lookup_put_of_ne (i : Imports) {e : ImportEntry} {k : SymbolKind} {short : String}
    (h : e.kind = k → e.key ≠ k.key short) : (i.put e).lookup k short = i.lookup k short := by
  have hslot : e.slot ≠ (k, k.key short) := fun heq =>
    h (congrArg Prod.fst heq) (congrArg Prod.snd heq)
  have hstored := i.stored_put e (k, k.key short)
  rw [if_neg hslot] at hstored
  exact congrArg (Option.map Name.relative) hstored

/-! ### Names by their shape -/

/-- A single segment that was imported stands for the imported name. -/
theorem resolve_short (i : Imports) (k : SymbolKind) {name : String}
    (hsegment : '\\' ∉ name.toList) (hword : Name.isNamespaceWord name = false) :
    i.resolve k name = (i.lookup k name).getD (i.inActive name) := by
  simp [resolve, Name.shape_of_separator_notMem hsegment, hword]

/-- The first of several segments is looked up among the classes. -/
theorem resolve_join (i : Imports) (k : SymbolKind) {first : String} (hne : first ≠ "")
    (hsegment : '\\' ∉ first.toList) (hword : Name.isNamespaceWord first = false)
    (rest : String) :
    i.resolve k (Name.join first rest) =
      ((i.lookup .classLike first).map (Name.join · rest)).getD
        (i.inActive (Name.join first rest)) := by
  simp only [resolve, Name.shape_join hne hsegment, hword]
  cases i.lookup .classLike first <;> rfl

theorem active_put (i : Imports) (e : ImportEntry) : (i.put e).active = i.active := by
  unfold put setTable
  split <;> rfl

theorem inActive_put (i : Imports) (e : ImportEntry) (name : String) :
    (i.put e).inActive name = i.inActive name := by
  simp only [inActive, active_put]

/-! ### Names and entries -/

theorem resolve_put_of_covers (i : Imports) {e : ImportEntry} {k : SymbolKind}
    {name target : String} (h : e.Covers k name target) : (i.put e).resolve k name = target := by
  cases h with
  | short hsegment hword hkey =>
    rw [resolve_short _ _ hsegment hword, lookup_put_of_key i hkey, Option.getD_some]
  | @qualified k first rest hclass hne hsegment hword hkey =>
    have hlookup := lookup_put_of_key i hkey
    rw [hclass] at hlookup
    rw [resolve_join _ k hne hsegment hword, hlookup, Option.map_some, Option.getD_some]

/-- Of a name that it does not cover an entry changes nothing that its meaning depends on. -/
theorem resolve_put_of_not_covers (i : Imports) {e : ImportEntry} {k : SymbolKind} {name : String}
    (h : ∀ target, ¬e.Covers k name target) : (i.put e).resolve k name = i.resolve k name := by
  rcases Name.shape_cases name with ⟨-, rest, hshape⟩ | hsegment |
    ⟨first, rest, hne, hsegment, rfl⟩
  · simp only [resolve, hshape]
  · by_cases hword : Name.isNamespaceWord name = true
    · simp only [resolve, Name.shape_of_separator_notMem hsegment, hword, if_true, active_put]
    · have hword : Name.isNamespaceWord name = false := by simpa using hword
      have hlookup : (i.put e).lookup k name = i.lookup k name := by
        refine lookup_put_of_ne i fun hk hkey => ?_
        subst hk
        exact h _ (.short hsegment hword hkey.symm)
      rw [resolve_short _ _ hsegment hword, resolve_short _ _ hsegment hword, hlookup, inActive_put]
  · by_cases hword : Name.isNamespaceWord first = true
    · simp only [resolve, Name.shape_join hne hsegment, hword, if_true, inActive_put]
    · have hword : Name.isNamespaceWord first = false := by simpa using hword
      have hlookup : (i.put e).lookup .classLike first = i.lookup .classLike first := by
        refine lookup_put_of_ne i fun hk hkey => ?_
        rw [← hk] at hkey
        exact h _ (.qualified hk hne hsegment hword hkey.symm)
      rw [resolve_join _ k hne hsegment hword, resolve_join _ k hne hsegment hword, hlookup,
        inActive_put]

theorem add_of_accepted {i : Imports} {e : ImportEntry}
    (h : (i.add e.kind e.name e.knownAs).2 ≠ .limitReached) :
    (i.add e.kind e.name e.knownAs).1 = i.put e := by
  rcases i.add_cases e with ⟨previous, -, hadd⟩ | ⟨-, -, hadd⟩ | ⟨-, -, hadd⟩
  · rw [hadd]
  · exact absurd (congrArg Prod.snd hadd) h
  · rw [hadd]

/-- An accepted import gives every name that it covers its new meaning, and leaves every other
name of every kind the meaning that it had. -/
theorem add_changes_covered {i : Imports} {e : ImportEntry}
    (h : (i.add e.kind e.name e.knownAs).2 ≠ .limitReached) (k : SymbolKind) (name : String) :
    (∀ target, e.Covers k name target →
      (i.add e.kind e.name e.knownAs).1.resolve k name = target) ∧
    ((∀ target, ¬e.Covers k name target) →
      (i.add e.kind e.name e.knownAs).1.resolve k name = i.resolve k name) := by
  rw [add_of_accepted h]
  exact ⟨fun target => i.resolve_put_of_covers, i.resolve_put_of_not_covers⟩

/-- The class `Vendor\Lib`, known as `L`. -/
def vendorLib : ImportEntry := ⟨.classLike, "\\Vendor\\Lib", some "L"⟩

/-- The class stands for the first segment of a function's name, but a function with its short
name is another matter. -/
theorem add_changes_covered_vendorLib :
    ((enter "App").add vendorLib.kind vendorLib.name vendorLib.knownAs).2 ≠ .limitReached ∧
      ((enter "App").add vendorLib.kind vendorLib.name vendorLib.knownAs).1.resolve .function
        "l\\run" = "Vendor\\Lib\\run" ∧
      ((enter "App").add vendorLib.kind vendorLib.name vendorLib.knownAs).1.resolve .function
        "L" = (enter "App").resolve .function "L" := by
  have haccepted :
      ((enter "App").add vendorLib.kind vendorLib.name vendorLib.knownAs).2 ≠ .limitReached := by
    decide +kernel
  have hcovers : vendorLib.Covers .function (Name.join "l" "run")
      (Name.join (Name.relative vendorLib.name) "run") :=
    .qualified rfl (by decide) (by decide) (by decide +kernel) (by decide +kernel)
  have hnot : ∀ target, ¬vendorLib.Covers .function "L" target := by
    intro target h
    generalize hname : "L" = name at h
    cases h with
    | @qualified _ first rest =>
      have hmem : '\\' ∈ "L".toList := by simp [hname, Name.join]
      exact absurd hmem (by decide)
  exact ⟨haccepted, (add_changes_covered haccepted .function _).1 _ hcovers,
    (add_changes_covered haccepted .function _).2 hnot⟩

end Imports

end TokenAtlas
