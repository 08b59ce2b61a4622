import TokenAtlas.Proofs.Feature.Namespace
import TokenAtlas.Proofs.Source.Grammar

/-! The course of an import builder. Trivia apart it goes through the names, the short names
and the brackets of an import statement, and ends up with the entries that were written.
Between two entries it has nothing but the common kind and the prefix of a group in mind. -/

namespace TokenAtlas

namespace Text

/-- A text without blanks has nothing to trim. -/
theorem trimString_of_solid {s : String} (h : ∀ c ∈ s.toList, isBlank c = false) :
    trimString s = s := by
  have hdrop : ∀ cs : List Char, (∀ c ∈ cs, isBlank c = false) → cs.dropWhile isBlank = cs := by
    intro cs hcs
    rcases cs with _ | ⟨c, cs⟩
    · rfl
    · rw [List.dropWhile_cons_of_neg (by simp [hcs c List.mem_cons_self])]
  rw [trimString, trim, trimStart, hdrop _ h, trimEnd, hdrop _ (by simpa using h),
    List.reverse_reverse, String.ofList_toList]

theorem trimString_empty : trimString "" = "" := trimString_of_solid (by simp)

end Text

/-- A prefix is what stands before the separator of its group. -/
theorem Name.withoutTail_append {front : String} (h : front.toList.getLast? ≠ some '\\') :
    withoutTail (front ++ "\\") = front := by
  have hdrop : front.toList.reverse.dropWhile isSeparator = front.toList.reverse := by
    rcases hr : front.toList.reverse with _ | ⟨c, cs⟩
    · rfl
    · have hc : c ≠ '\\' := by
        rintro rfl
        rw [← List.head?_reverse, hr] at h
        exact h rfl
      rw [List.dropWhile_cons_of_neg (by simpa [isSeparator] using hc)]
  have hback : (front ++ "\\").toList.reverse = '\\' :: front.toList.reverse := by simp
  rw [withoutTail, hback, List.dropWhile_cons_of_pos (by rfl), hdrop, List.reverse_reverse,
    String.ofList_toList]

namespace ImportBuilder

/-- Feed some tokens. -/
def feedAll (b : ImportBuilder) (ts : List Token) : ImportBuilder :=
  ts.foldl (fun b t => (b.feed t).2) b

@[simp] theorem feedAll_nil (b : ImportBuilder) : b.feedAll [] = b := rfl

@[simp] theorem feedAll_cons (b : ImportBuilder) (t : Token) (ts : List Token) :
    b.feedAll (t :: ts) = (b.feed t).2.feedAll ts := rfl

theorem feedAll_append (b : ImportBuilder) (as bs : List Token) :
    b.feedAll (as ++ bs) = (b.feedAll as).feedAll bs := List.foldl_append

theorem feed_of_isTrivia (b : ImportBuilder) {t : Token} (h : t.isTrivia = true) :
    b.feed t = (.quiet, b) := by
  simp [feed, h]

theorem feedAll_significant (b : ImportBuilder) (ts : List Token) :
    b.feedAll (significant ts) = b.feedAll ts := by
  induction ts generalizing b with
  | nil => rfl
  | cons t ts ih =>
    by_cases h : t.isTrivia = true
    · rw [significant_cons_of_isTrivia h, feedAll_cons, feed_of_isTrivia b h, ih]
    · rw [significant_cons_of_not_isTrivia (by simpa using h), feedAll_cons, feedAll_cons, ih]

/-- Only a semicolon completes the declaration. -/
theorem feed_of_not_semicolon (b : ImportBuilder) {t : Token} (h : t.kind ≠ .semicolon) :
    ∃ hint, (b.feed t).1 = ⟨false, hint, []⟩ := by
  unfold feed
  split
  · exact ⟨none, rfl⟩
  · unfold feedWord
    split
    case h_8 hk => exact absurd hk h
    case h_9 =>
      split
      · exact ⟨_, rfl⟩
      · split
        · exact ⟨_, rfl⟩
        · exact ⟨none, rfl⟩
    all_goals exact ⟨none, rfl⟩

/-- What the builder does with a token that is no trivia, as long as it is not finished. -/
theorem feed_eq_feedWord {b : ImportBuilder} {t : Token} (hb : b.progress ≠ .finished)
    (ht : t.isTrivia = false) : b.feed t = { b with progress := .building }.feedWord t := by
  simp [feed, hb, ht]

/-- The state between two entries. -/
def between (common : SymbolKind) (front : Option String) (es : List ImportEntry)
    (progress : Progress) (sawName : Bool) : ImportBuilder :=
  ⟨progress, ⟨es, front⟩, common, .empty, front.isSome, sawName⟩

/-- The state in which an entry was read up to its end. -/
def drafted (common : SymbolKind) (front : Option String) (es : List ImportEntry)
    (own : Option SymbolKind) (name : String) (short : Option String) (progress : Progress)
    (sawName : Bool) : ImportBuilder :=
  ⟨progress, ⟨es, front⟩, common, ⟨own, name, short, false⟩, front.isSome, sawName⟩

theorem closeEntry_between (common : SymbolKind) (front : Option String)
    (es : List ImportEntry) (progress : Progress) (sawName : Bool) :
    (between common front es progress sawName).closeEntry =
      between common front es progress sawName := by
  simp [closeEntry, between, ImportDraft.empty, Text.trimString_empty]

theorem closeEntry_drafted {common : SymbolKind} {front : Option String}
    {es : List ImportEntry} {own : Option SymbolKind} {name : String} {short : Option String}
    {progress : Progress} {sawName : Bool} (hne : name ≠ "")
    (hsolid : ∀ c ∈ name.toList, Text.isBlank c = false) :
    (drafted common front es own name short progress sawName).closeEntry =
      between common front
        (es ++ [⟨own.getD common, (front.map (Name.join · name)).getD name, short⟩])
        progress sawName := by
  simp only [closeEntry, drafted, Text.trimString_of_solid hsolid, hne, if_false, entryKind,
    fullName, between]
  cases front <;> rfl

/-- The parts of a name are put together. -/
theorem feedAll_name {ts : List Token}
    (h : ∀ t ∈ ts, t.kind.isName = true ∨ t.kind = .separator) {b : ImportBuilder}
    (hb : b.progress ≠ .finished) (hshort : b.draft.expectsShort = false) :
    ∃ progress sawName, progress ≠ .finished ∧ b.feedAll ts =
      { b with
        progress
        draft := { b.draft with name := b.draft.name ++ Token.joined ts }
        sawName } := by
  induction ts generalizing b with
  | nil => exact ⟨b.progress, b.sawName, hb, by simp [Token.joined]⟩
  | cons t ts ih =>
    have htrivia : t.isTrivia = false := by
      rcases h t List.mem_cons_self with ht | ht
      · exact Kind.isTrivia_of_isName ht
      · rw [Token.isTrivia, ht]
        rfl
    have hfeed : ∃ sawName, (b.feed t).2 =
        { b with
          progress := .building
          draft := { b.draft with name := b.draft.name ++ t.text }
          sawName } := by
      rw [feed_eq_feedWord hb htrivia]
      rcases h t List.mem_cons_self with ht | ht
      · refine ⟨true, ?_⟩
        unfold feedWord
        split
        case h_9 => simp [hshort, ht, addName]
        all_goals
          next hk => simp [hk, Kind.isName, Kind.isNameSegment] at ht
      · exact ⟨b.sawName, by simp [feedWord, ht, addName]⟩
    obtain ⟨sawName, hfeed⟩ := hfeed
    obtain ⟨progress, sawName', hp, hall⟩ := ih (fun u hu => h u (List.mem_cons_of_mem _ hu))
      (b := (b.feed t).2) (by simp [hfeed]) (by rw [hfeed]; exact hshort)
    refine ⟨progress, sawName', hp, ?_⟩
    rw [feedAll_cons, hall, hfeed]
    simp [Token.joined, String.append_assoc]

/-- A name and the short name behind it are read into the draft. -/
theorem feedAll_drafted {common : SymbolKind} {front : Option String} {es : List ImportEntry}
    {own : Option SymbolKind} {name : String} {short : Option String}
    {spelled known : List Token} {progress : Progress} (hname : Spells name spelled)
    (hknown : ShortName short known) (hp : progress ≠ .finished) (sawName : Bool) :
    ∃ progress' sawName', progress' ≠ .finished ∧
      (drafted common front es own "" none progress sawName).feedAll (spelled ++ known) =
        drafted common front es own name short progress' sawName' := by
  obtain ⟨p, saw, hp', hall⟩ := feedAll_name hname.parts
    (b := drafted common front es own "" none progress sawName) hp rfl
  have hall' : (drafted common front es own "" none progress sawName).feedAll spelled =
      drafted common front es own name none p saw := by
    rw [hall, hname.text]
    simp [drafted]
  rw [feedAll_append, hall']
  cases hknown with
  | none => exact ⟨p, saw, hp', rfl⟩
  | @known w t hw ht =>
    have hwTrivia : w.isTrivia = false := by rw [Token.isTrivia, hw]; rfl
    have htTrivia : t.isTrivia = false := by rw [Token.isTrivia, ht]; rfl
    refine ⟨.building, saw, by decide, ?_⟩
    rw [feedAll_cons, feed_eq_feedWord hp' hwTrivia, feedAll_cons,
      feed_eq_feedWord (by simp [feedWord, hw]) htTrivia]
    simp [feedWord, hw, ht, drafted]

/-- The word that may stand before a name of a group. -/
theorem feedAll_ownKind {common : SymbolKind} {front : String} {es : List ImportEntry}
    {own : Option SymbolKind} {word : List Token} {progress : Progress}
    (hword : KindWord own word) (hp : progress ≠ .finished) (sawName : Bool) :
    ∃ progress', progress' ≠ .finished ∧
      (between common (some front) es progress sawName).feedAll word =
        drafted common (some front) es own "" none progress' sawName := by
  cases hword with
  | none => exact ⟨progress, hp, rfl⟩
  | @function w hw =>
    refine ⟨.building, nofun, ?_⟩
    rw [feedAll_cons, feed_eq_feedWord hp (by rw [Token.isTrivia, hw]; rfl)]
    simp [feedWord, hw, setKind, between, drafted, ImportDraft.empty]
  | @constant w hw =>
    refine ⟨.building, nofun, ?_⟩
    rw [feedAll_cons, feed_eq_feedWord hp (by rw [Token.isTrivia, hw]; rfl)]
    simp [feedWord, hw, setKind, between, drafted, ImportDraft.empty]

/-- An entry is read, and closed it stands behind the others. -/
theorem feedAll_entry {common : SymbolKind} {front : Option String} {e : ImportEntry}
    {ts : List Token} (h : Entry common front e ts) (es : List ImportEntry)
    {progress : Progress} (hp : progress ≠ .finished) (sawName : Bool) :
    ∃ progress' sawName', progress' ≠ .finished ∧
      ((between common front es progress sawName).feedAll ts).progress = progress' ∧
      ((between common front es progress sawName).feedAll ts).closeEntry =
        between common front (es ++ [e]) progress' sawName' := by
  cases h with
  | @single name short spelled known hname hknown =>
    obtain ⟨p, saw, hp', hall⟩ := feedAll_drafted hname hknown hp sawName
    refine ⟨p, saw, hp', ?_⟩
    rw [show between common none es progress sawName =
      drafted common none es none "" none progress sawName from rfl, hall]
    exact ⟨rfl, closeEntry_drafted hname.nonempty hname.solid⟩
  | @grouped front name own short word spelled known hword hname hknown =>
    obtain ⟨p, hp', hall⟩ := feedAll_ownKind hword hp sawName
    obtain ⟨p₁, saw, hp₁, hall₁⟩ := feedAll_drafted hname hknown hp' sawName
    refine ⟨p₁, saw, hp₁, ?_⟩
    rw [feedAll_append, hall, hall₁]
    exact ⟨rfl, closeEntry_drafted hname.nonempty hname.solid⟩

theorem closeEntry_building (b : ImportBuilder) :
    closeEntry { b with progress := .building } = { b.closeEntry with progress := .building } := by
  simp only [closeEntry]
  split <;> rfl

/-- A comma closes the entry before it. -/
theorem feed_comma {b : ImportBuilder} {t : Token} (hb : b.progress ≠ .finished)
    (ht : t.kind = .comma) : (b.feed t).2 = { b.closeEntry with progress := .building } := by
  rw [feed_eq_feedWord hb (by rw [Token.isTrivia, ht]; rfl), ← closeEntry_building]
  simp [feedWord, ht]

/-- The bracket of a group closes the entry before it and the group. -/
theorem feed_closeCurly {b : ImportBuilder} {t : Token} (hb : b.progress ≠ .finished)
    (hgroup : b.closeEntry.inGroup = true) (ht : t.kind = .closeCurly) :
    (b.feed t).2 = { b.closeEntry with progress := .building, inGroup := false } := by
  have hin : b.inGroup = true := by
    rw [← hgroup]
    simp only [closeEntry]
    split <;> rfl
  rw [feed_eq_feedWord hb (by rw [Token.isTrivia, ht]; rfl)]
  simp only [feedWord, ht]
  rw [if_pos hin, closeEntry_building]

/-- Entries are read one behind the other. -/
theorem feedAll_entries {common : SymbolKind} {front : Option String} {new : List ImportEntry}
    {ts : List Token} (h : Entries common front new ts) (es : List ImportEntry)
    {progress : Progress} (hp : progress ≠ .finished) (sawName : Bool) :
    ∃ progress' sawName', progress' ≠ .finished ∧
      ((between common front es progress sawName).feedAll ts).progress = progress' ∧
      ((between common front es progress sawName).feedAll ts).closeEntry =
        between common front (es ++ new) progress' sawName' := by
  induction h generalizing es progress sawName with
  | nil =>
    exact ⟨progress, sawName, hp, rfl, by rw [feedAll_nil, closeEntry_between, List.append_nil]⟩
  | last he => exact feedAll_entry he es hp sawName
  | @more e new comma ts rest he hcomma _ ih =>
    obtain ⟨p, saw, hp', hprogress, hclose⟩ := feedAll_entry he es hp sawName
    rw [feedAll_append, feedAll_cons, feed_comma (by rw [hprogress]; exact hp') hcomma, hclose]
    obtain ⟨p₁, saw₁, hp₁, hprogress₁, hclose₁⟩ := ih (es ++ [e])
      (by decide : Progress.building ≠ .finished) saw
    rw [List.append_assoc] at hclose₁
    exact ⟨p₁, saw₁, hp₁, hprogress₁, hclose₁⟩

/-- The word that may stand before the first name of a statement. -/
theorem feedAll_commonKind {own : Option SymbolKind} {word : List Token}
    (hword : KindWord own word) :
    ∃ progress, progress ≠ .finished ∧
      fresh.feedAll word = between (own.getD .classLike) none [] progress false := by
  cases hword with
  | none => exact ⟨.pending, nofun, rfl⟩
  | @function w hw =>
    refine ⟨.building, nofun, ?_⟩
    rw [feedAll_cons, feed_eq_feedWord (by decide) (by rw [Token.isTrivia, hw]; rfl)]
    simp [feedWord, hw, setKind, between, fresh]
  | @constant w hw =>
    refine ⟨.building, nofun, ?_⟩
    rw [feedAll_cons, feed_eq_feedWord (by decide) (by rw [Token.isTrivia, hw]; rfl)]
    simp [feedWord, hw, setKind, between, fresh]

/-- What stands before the bracket of a group becomes the prefix. -/
theorem feedAll_front (common : SymbolKind) {front : String} {spelled : List Token}
    {separator o : Token} {progress : Progress} (hfront : Spells front spelled)
    (hcut : front.toList.getLast? ≠ some '\\') (hseparator : separator.kind = .separator)
    (hslash : separator.text = "\\") (ho : o.kind = .openCurly) (hp : progress ≠ .finished) :
    ∃ sawName, (between common none [] progress false).feedAll (spelled ++ [separator, o]) =
      between common (some front) [] .building sawName := by
  have hparts : ∀ t ∈ spelled ++ [separator], t.kind.isName = true ∨ t.kind = .separator := by
    intro t ht
    rcases List.mem_append.1 ht with ht | ht
    · exact hfront.parts t ht
    · exact .inr (by rw [List.mem_singleton.1 ht, hseparator])
  obtain ⟨p, saw, hp', hall⟩ := feedAll_name hparts
    (b := between common none [] progress false) hp rfl
  have htext : Token.joined (spelled ++ [separator]) = front ++ "\\" := by
    rw [← hfront.text, ← hslash]
    simp [Token.joined, String.join_append]
  refine ⟨saw, ?_⟩
  rw [show spelled ++ [separator, o] = (spelled ++ [separator]) ++ [o] by simp, feedAll_append,
    hall, htext, feedAll_cons, feed_eq_feedWord hp' (by rw [Token.isTrivia, ho]; rfl)]
  simp [feedWord, ho, between, openGroup, ImportDraft.empty, Name.withoutTail_append hcut]

/-- The semicolon completes a declaration of the entries that were written. -/
theorem feed_semicolon_of_imported {es : List ImportEntry} {ts : List Token}
    (h : Imported es ts) {stop : Token} (hstop : stop.kind = .semicolon) :
    ∃ b, (fresh.feedAll ts).feed stop = (.finished, b) ∧ b.progress = .finished ∧
      b.declaration.entries = es := by
  have hstopTrivia : stop.isTrivia = false := by rw [Token.isTrivia, hstop]; rfl
  have hfinish : ∀ {b : ImportBuilder}, b.progress ≠ .finished →
      b.closeEntry.declaration.entries = es →
      ∃ b', b.feed stop = (.finished, b') ∧ b'.progress = .finished ∧
        b'.declaration.entries = es := by
    intro b hb hentries
    have hfeed : feedWord { b with progress := .building } stop = (.finished,
        { closeEntry { b with progress := .building } with progress := .finished }) := by
      simp only [feedWord, hstop]
    rw [feed_eq_feedWord hb hstopTrivia, hfeed, closeEntry_building]
    exact ⟨_, rfl, rfl, by simpa only using hentries⟩
  cases h with
  | @names own es word ts hword hentries =>
    obtain ⟨p, hp, hall⟩ := feedAll_commonKind hword
    obtain ⟨p₁, saw₁, hp₁, hprogress, hclose⟩ := feedAll_entries hentries [] hp false
    rw [feedAll_append, hall]
    exact hfinish (by rw [hprogress]; exact hp₁) (by rw [hclose]; rfl)
  | @group own front es separator o c word spelled ts hword hfront hcut hseparator hslash ho
      hentries hc =>
    obtain ⟨p, hp, hall⟩ := feedAll_commonKind hword
    obtain ⟨saw, hall₁⟩ := feedAll_front (own.getD .classLike) hfront hcut hseparator hslash ho hp
    obtain ⟨p₂, saw₂, hp₂, hprogress, hclose⟩ := feedAll_entries hentries []
      (by decide : Progress.building ≠ .finished) saw
    have hgroup := feed_closeCurly (by rw [hprogress]; exact hp₂) (by rw [hclose]; rfl) hc
    rw [hclose] at hgroup
    rw [show word ++ (spelled ++ separator :: o :: (ts ++ [c])) =
      word ++ ((spelled ++ [separator, o]) ++ (ts ++ [c])) by simp, feedAll_append, hall,
      feedAll_append, hall₁, feedAll_append, feedAll_cons, feedAll_nil, hgroup]
    refine hfinish (by simp) ?_
    simp [closeEntry, between, ImportDraft.empty, Text.trimString_empty]

end ImportBuilder

end TokenAtlas
