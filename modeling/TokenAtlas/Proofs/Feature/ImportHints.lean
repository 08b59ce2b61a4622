import Mathlib.Data.List.TakeWhile
import TokenAtlas.Proofs.Source.Statements

/-! The names in an import statement. A token that is the whole name of an entry is noted with
the entry. Main statement: the builder of the statement has the same to say about every noted
token, that it is a name in the role of its entry. It does not say what stands in front of the
name in a group. -/

namespace TokenAtlas

/-- A token with the entry whose name it is, if there is one. -/
abbrev Noted := Token × Option ImportEntry

/-- Tokens that are the name of no entry. -/
def unnoted (ts : List Token) : List Noted := ts.map (·, none)

/-- The tokens that spell the name of an entry, noted if there is but one. -/
def noted (e : ImportEntry) : List Token → List Noted
  | [t] => [(t, if t.kind.isName then some e else none)]
  | ts => unnoted ts

/-! ### Noted statements -/

/-- An entry of an import statement. -/
inductive NotedEntry (common : SymbolKind) : Option String → ImportEntry → List Noted → Prop
  | single {e : ImportEntry} {spelled known : List Token} (hkind : e.kind = common)
      (hname : Spells e.name spelled) (hknown : ShortName e.knownAs known) :
      NotedEntry common none e (noted e spelled ++ unnoted known)
  | grouped {e : ImportEntry} {front name : String} {own : Option SymbolKind}
      {word spelled known : List Token} (hkind : e.kind = own.getD common)
      (hjoin : e.name = Name.join front name) (hword : KindWord own word)
      (hname : Spells name spelled) (hknown : ShortName e.knownAs known) :
      NotedEntry common (some front) e (unnoted word ++ (noted e spelled ++ unnoted known))

/-- Entries with commas between them, and perhaps behind them. -/
inductive NotedEntries (common : SymbolKind) (front : Option String) :
    List ImportEntry → List Noted → Prop
  | nil : NotedEntries common front [] []
  | last {e : ImportEntry} {ms : List Noted} (he : NotedEntry common front e ms) :
      NotedEntries common front [e] ms
  | more {e : ImportEntry} {es : List ImportEntry} {comma : Token} {ms rest : List Noted}
      (he : NotedEntry common front e ms) (hcomma : comma.kind = .comma)
      (hrest : NotedEntries common front es rest) :
      NotedEntries common front (e :: es) (ms ++ (comma, none) :: rest)

/-- What stands between the word and the semicolon of an import statement, trivia apart. The
prefix is that of a group. -/
inductive NotedImport : Option String → List ImportEntry → List Noted → Prop
  | names {own : Option SymbolKind} {es : List ImportEntry} {word : List Token}
      {ms : List Noted} (hword : KindWord own word)
      (hentries : NotedEntries (own.getD .classLike) none es ms) :
      NotedImport none es (unnoted word ++ ms)
  | group {own : Option SymbolKind} {front : String} {es : List ImportEntry}
      {separator o c : Token} {word spelled : List Token} {ms : List Noted}
      (hword : KindWord own word) (hfront : Spells front spelled)
      (hcut : front.toList.getLast? ≠ some '\\') (hseparator : separator.kind = .separator)
      (hslash : separator.text = "\\") (ho : o.kind = .openCurly)
      (hentries : NotedEntries (own.getD .classLike) (some front) es ms)
      (hc : c.kind = .closeCurly) :
      NotedImport (some front) es
        (unnoted (word ++ (spelled ++ [separator, o])) ++ (ms ++ [(c, none)]))

@[simp] theorem map_fst_unnoted (ts : List Token) : (unnoted ts).map Prod.fst = ts := by
  simp [unnoted, Function.comp_def]

@[simp] theorem map_fst_noted (e : ImportEntry) (ts : List Token) :
    (noted e ts).map Prod.fst = ts := by
  unfold noted
  split
  · rfl
  · exact map_fst_unnoted _

/-- A token that spells a name is a name itself, and it is the one that is noted. -/
theorem note_of_mem_noted {e note : ImportEntry} {name : String} {spelled : List Token}
    {t : Token} (hname : Spells name spelled) (h : (t, some note) ∈ noted e spelled) :
    note = e ∧ t.kind.isName = true ∧ t.text = name := by
  unfold noted at h
  split at h
  · next u =>
    obtain ⟨rfl, hnote⟩ := Prod.mk.inj (List.mem_singleton.1 h)
    have htext : t.text = name := by simpa [Token.joined] using hname.text
    by_cases ht : t.kind.isName = true
    · rw [if_pos ht] at hnote
      exact ⟨Option.some.inj hnote, ht, htext⟩
    · simp [ht] at hnote
  · simp [unnoted] at h

theorem NotedEntry.entry {common : SymbolKind} {front : Option String} {e : ImportEntry}
    {ms : List Noted} (h : NotedEntry common front e ms) :
    Entry common front e (ms.map Prod.fst) := by
  cases h with
  | single hkind hname hknown =>
    obtain ⟨kind, name, knownAs⟩ := e
    obtain rfl : kind = common := hkind
    rw [List.map_append, map_fst_noted, map_fst_unnoted]
    exact .single hname hknown
  | grouped hkind hjoin hword hname hknown =>
    obtain ⟨kind, name, knownAs⟩ := e
    obtain rfl : kind = _ := hkind
    obtain rfl : name = _ := hjoin
    rw [List.map_append, List.map_append, map_fst_noted, map_fst_unnoted, map_fst_unnoted]
    exact .grouped hword hname hknown

theorem NotedEntries.entries {common : SymbolKind} {front : Option String}
    {es : List ImportEntry} {ms : List Noted} (h : NotedEntries common front es ms) :
    Entries common front es (ms.map Prod.fst) := by
  induction h with
  | nil => exact .nil
  | last he => exact .last he.entry
  | more he hcomma _ ih =>
    rw [List.map_append, List.map_cons]
    exact .more he.entry hcomma ih

/-- Without its notes it is what an import statement imports. -/
theorem NotedImport.imported {front : Option String} {es : List ImportEntry} {ms : List Noted}
    (h : NotedImport front es ms) : Imported es (ms.map Prod.fst) := by
  cases h with
  | names hword hentries =>
    rw [List.map_append, map_fst_unnoted]
    exact .names hword hentries.entries
  | @group own front es separator o c word spelled ms hword hfront hcut hseparator hslash ho
      hentries hc =>
    have htokens : (unnoted (word ++ (spelled ++ [separator, o])) ++ (ms ++ [(c, none)])).map
        Prod.fst = word ++ (spelled ++ separator :: o :: (ms.map Prod.fst ++ [c])) := by
      simp
    rw [htokens]
    exact .group hword hfront hcut hseparator hslash ho hentries.entries hc

/-! ### What is noted -/

/-- The token is the name of the entry as it is written, the prefix of a group apart. -/
structure WrittenAs (front : Option String) (e : ImportEntry) (t : Token) : Prop where
  isName : t.kind.isName = true
  name : e.name = (front.map (Name.join · t.text)).getD t.text

theorem NotedEntry.writtenAs {common : SymbolKind} {front : Option String}
    {e note : ImportEntry} {ms : List Noted} (h : NotedEntry common front e ms) {t : Token}
    (ht : (t, some note) ∈ ms) : note = e ∧ WrittenAs front e t := by
  cases h with
  | @single e spelled known hkind hname hknown =>
    have hmem : (t, some note) ∈ noted e spelled := by simpa [unnoted] using ht
    obtain ⟨rfl, hisName, htext⟩ := note_of_mem_noted hname hmem
    exact ⟨rfl, hisName, htext.symm⟩
  | @grouped e front name own word spelled known hkind hjoin hword hname hknown =>
    have hmem : (t, some note) ∈ noted e spelled := by simpa [unnoted] using ht
    obtain ⟨rfl, hisName, htext⟩ := note_of_mem_noted hname hmem
    exact ⟨rfl, hisName, by rw [hjoin, htext]; rfl⟩

theorem NotedEntries.writtenAs {common : SymbolKind} {front : Option String}
    {es : List ImportEntry} {ms : List Noted} (h : NotedEntries common front es ms) {t : Token}
    {e : ImportEntry} (ht : (t, some e) ∈ ms) : e ∈ es ∧ WrittenAs front e t := by
  induction h with
  | nil => simp at ht
  | last he =>
    obtain ⟨rfl, hw⟩ := he.writtenAs ht
    exact ⟨List.mem_singleton.2 rfl, hw⟩
  | more he _ _ ih =>
    rcases List.mem_append.1 ht with ht | ht
    · obtain ⟨rfl, hw⟩ := he.writtenAs ht
      exact ⟨List.mem_cons_self, hw⟩
    · obtain ⟨hmem, hw⟩ := ih (by simpa using ht)
      exact ⟨List.mem_cons_of_mem _ hmem, hw⟩

theorem NotedImport.writtenAs {front : Option String} {es : List ImportEntry} {ms : List Noted}
    (h : NotedImport front es ms) {t : Token} {e : ImportEntry} (ht : (t, some e) ∈ ms) :
    e ∈ es ∧ WrittenAs front e t := by
  cases h with
  | names _ hentries => exact hentries.writtenAs (by simpa [unnoted] using ht)
  | group _ _ _ _ _ _ hentries _ => exact hentries.writtenAs (by simpa [unnoted] using ht)

/-- A prefix in front makes another name of every name, also where both are absolute. -/
theorem Name.relative_join_ne {front : String} (hne : front ≠ "")
    (hcut : front.toList.getLast? ≠ some '\\') (name : String) :
    relative name ≠ relative (join front name) := by
  -- the separators in front of the prefix do not reach its end
  obtain ⟨c, cs, hdrop⟩ : ∃ c cs, front.toList.dropWhile isSeparator = c :: cs := by
    rcases hd : front.toList.dropWhile isSeparator with _ | ⟨c, cs⟩
    · rw [List.dropWhile_eq_nil_iff] at hd
      have hlast := List.getLast?_eq_some_getLast (by simpa using hne : front.toList ≠ [])
      have hsep := hd _ (List.mem_of_getLast? hlast)
      exact absurd (hlast.trans (congrArg some (by simpa [isSeparator] using hsep))) hcut
    · exact ⟨c, cs, rfl⟩
  intro h
  have hlists := congrArg (·.toList.length) h
  have hle := (List.dropWhile_sublist (p := isSeparator) (l := name.toList)).length_le
  simp only [relative, join, String.toList_ofList, String.toList_append,
    List.dropWhile_append, hdrop] at hlists
  simp at hlists
  omega

/-- A name that was written in full is that of its entry, and only there. -/
theorem NotedImport.relative_eq_iff {front : Option String} {es : List ImportEntry}
    {ms : List Noted} (h : NotedImport front es ms) {t : Token} {e : ImportEntry}
    (ht : WrittenAs front e t) :
    Name.relative t.text = Name.relative e.name ↔ front = none := by
  rw [ht.name]
  cases h with
  | names _ _ => simp
  | group _ hfront hcut _ _ _ _ _ => simp [Name.relative_join_ne hfront.nonempty hcut]

namespace ImportBuilder

/-- Every noted token, when it is fed, is seen as a name in the role of its entry. -/
def Hints (b : ImportBuilder) : List Noted → Prop
  | [] => True
  | (t, note) :: ms =>
    (∀ e, note = some e → (b.feed t).1.hint = some (.name (some e.kind))) ∧ (b.feed t).2.Hints ms

namespace Hints

theorem append {b : ImportBuilder} {as bs : List Noted} (ha : b.Hints as)
    (hb : (b.feedAll (as.map Prod.fst)).Hints bs) : b.Hints (as ++ bs) := by
  induction as generalizing b with
  | nil => exact hb
  | cons m as ih => exact ⟨ha.1, ih ha.2 hb⟩

theorem unnoted (b : ImportBuilder) (ts : List Token) : b.Hints (unnoted ts) := by
  induction ts generalizing b with
  | nil => trivial
  | cons t ts ih => exact ⟨nofun, ih _⟩

/-- Trivia between the tokens makes no difference. -/
theorem of_filter {b : ImportBuilder} {ms : List Noted}
    (htrivia : ∀ m ∈ ms, m.1.isTrivia = true → m.2 = none)
    (h : b.Hints (ms.filter (!·.1.isTrivia))) : b.Hints ms := by
  induction ms generalizing b with
  | nil => trivial
  | cons m ms ih =>
    obtain ⟨t, note⟩ := m
    have hrest := fun m hm => htrivia m (List.mem_cons_of_mem _ hm)
    by_cases ht : t.isTrivia = true
    · obtain rfl : note = none := htrivia _ List.mem_cons_self ht
      rw [List.filter_cons_of_neg (by simp [ht])] at h
      refine ⟨nofun, ih hrest ?_⟩
      rwa [feed_of_isTrivia b ht]
    · rw [List.filter_cons_of_pos (by simp [ht])] at h
      exact ⟨h.1, ih hrest h.2⟩

end Hints

/-- A name that is not a short one is seen as a name in the role of the entry. -/
theorem hint_feed_name {b : ImportBuilder} {t : Token} (hb : b.progress ≠ .finished)
    (hshort : b.draft.expectsShort = false) (ht : t.kind.isName = true) :
    (b.feed t).1.hint = some (.name (some b.entryKind)) := by
  rw [feed_eq_feedWord hb (Kind.isTrivia_of_isName ht)]
  unfold feedWord
  split
  case h_9 =>
    rw [if_neg (by simp [hshort]), if_pos ht]
    rfl
  all_goals
    next hk => simp [hk, Kind.isName, Kind.isNameSegment] at ht

/-- The name of an entry is seen in the role that the entry has so far. -/
theorem hints_noted {common : SymbolKind} {front : Option String} {es : List ImportEntry}
    {own : Option SymbolKind} {progress : Progress} {sawName : Bool} {e : ImportEntry}
    (hp : progress ≠ .finished) (hkind : e.kind = own.getD common) (spelled : List Token) :
    (drafted common front es own "" none progress sawName).Hints (noted e spelled) := by
  unfold noted
  split
  · next t =>
    refine ⟨fun note hnote => ?_, trivial⟩
    by_cases ht : t.kind.isName = true
    · obtain rfl : e = note := by simpa [ht] using hnote
      rw [hint_feed_name (b := drafted _ _ _ _ _ _ _ _) hp rfl ht, hkind]
      rfl
    · simp [ht] at hnote
  · exact .unnoted _ _

theorem hints_entry {common : SymbolKind} {front : Option String} {e : ImportEntry}
    {ms : List Noted} (h : NotedEntry common front e ms) (es : List ImportEntry)
    {progress : Progress} (hp : progress ≠ .finished) (sawName : Bool) :
    (between common front es progress sawName).Hints ms := by
  cases h with
  | @single e spelled known hkind _ _ =>
    have hnoted := @hints_noted common none es none progress sawName e hp hkind spelled
    exact hnoted.append (.unnoted _ _)
  | @grouped e front name own word spelled known hkind _ hword _ _ =>
    obtain ⟨p, hp', hall⟩ := feedAll_ownKind hword hp sawName
    refine (Hints.unnoted _ word).append ?_
    rw [map_fst_unnoted, hall]
    exact (hints_noted hp' hkind spelled).append (.unnoted _ _)

theorem hints_entries {common : SymbolKind} {front : Option String} {new : List ImportEntry}
    {ms : List Noted} (h : NotedEntries common front new ms) (es : List ImportEntry)
    {progress : Progress} (hp : progress ≠ .finished) (sawName : Bool) :
    (between common front es progress sawName).Hints ms := by
  induction h generalizing es progress sawName with
  | nil => trivial
  | last he => exact hints_entry he es hp sawName
  | @more e new comma ms rest he hcomma _ ih =>
    obtain ⟨p, saw, hp', hprogress, hclose⟩ := feedAll_entry he.entry es hp sawName
    refine (hints_entry he es hp sawName).append ⟨nofun, ?_⟩
    rw [feed_comma (by rw [hprogress]; exact hp') hcomma, hclose]
    exact ih (es ++ [e]) (by decide : Progress.building ≠ .finished) saw

/-- In an import statement every noted token is seen as a name in the role of its entry, be it
in a group or not. -/
theorem hints_imported {front : Option String} {es : List ImportEntry} {ms : List Noted}
    (h : NotedImport front es ms) : fresh.Hints ms := by
  cases h with
  | @names own es word ms hword hentries =>
    obtain ⟨p, hp, hall⟩ := feedAll_commonKind hword
    refine (Hints.unnoted _ word).append ?_
    rw [map_fst_unnoted, hall]
    exact hints_entries hentries [] hp false
  | @group own front es separator o c word spelled ms hword hfront hcut hseparator hslash ho
      hentries hc =>
    obtain ⟨p, hp, hall⟩ := feedAll_commonKind hword
    obtain ⟨saw, hall₁⟩ := feedAll_front (own.getD .classLike) hfront hcut hseparator hslash ho hp
    refine (Hints.unnoted _ _).append ?_
    rw [map_fst_unnoted, feedAll_append, hall, hall₁]
    exact (hints_entries hentries [] (by decide) saw).append (Hints.unnoted _ [c])

end ImportBuilder

/-! ### Statements with trivia -/

/-- What stands between the word and the semicolon of an import statement. No trivia is
noted. -/
structure NotedContent (front : Option String) (es : List ImportEntry) (ms : List Noted) :
    Prop where
  noted : NotedImport front es (ms.filter (!·.1.isTrivia))
  trivia : ∀ m ∈ ms, m.1.isTrivia = true → m.2 = none

/-- An import statement from the word `use` to the semicolon. -/
inductive NotedStatement (front : Option String) (es : List ImportEntry) : List Noted → Prop
  | mk {word stop : Token} {ms : List Noted} (hword : word.kind = .useWord)
      (hcontent : NotedContent front es ms) (hstop : stop.kind = .semicolon) :
      NotedStatement front es ((word, none) :: (ms ++ [(stop, none)]))

namespace NotedContent

variable {front : Option String} {es : List ImportEntry} {ms : List Noted}

theorem imported (h : NotedContent front es ms) :
    Imported es (significant (ms.map Prod.fst)) := by
  have htokens : significant (ms.map Prod.fst) =
      (ms.filter (!·.1.isTrivia)).map Prod.fst := by
    rw [significant, List.filter_map]
    rfl
  rw [htokens]
  exact h.noted.imported

theorem writtenAs (h : NotedContent front es ms) {t : Token} {e : ImportEntry}
    (ht : (t, some e) ∈ ms) : e ∈ es ∧ WrittenAs front e t := by
  have hsignificant : t.isTrivia = false := by
    by_contra htrivia
    exact absurd (h.trivia _ ht (by simpa using htrivia)) (Option.some_ne_none e)
  exact h.noted.writtenAs (List.mem_filter.2 ⟨ht, by simp [hsignificant]⟩)

theorem hints (h : NotedContent front es ms) : ImportBuilder.fresh.Hints ms :=
  .of_filter h.trivia (ImportBuilder.hints_imported h.noted)

/-- The semicolon that completes the statement is the first one. -/
theorem ne_semicolon (h : NotedContent front es ms) {m : Noted} (hm : m ∈ ms) :
    m.1.kind ≠ .semicolon := by
  intro hk
  have hmem : m.1 ∈ significant (ms.map Prod.fst) :=
    List.mem_filter.2 ⟨List.mem_map_of_mem hm, by rw [Token.isTrivia, hk]; rfl⟩
  exact (Kind.isImportPart_spec ((h.imported.parts .zero).1 _ hmem)).1 hk

end NotedContent

end TokenAtlas
