import Mathlib.Data.List.Forall2
import TokenAtlas.Proofs.Feature.Import

/-! Where the names of an import declaration come from. A trace runs beside the builder and
keeps, for every entry, the tokens that its name was read from with the hints that they got.
Main statement: whatever tokens a builder is fed, an entry has the kind that was hinted for the
tokens of its own name. The prefix of a group is read before its entries, and its tokens are
hinted the kind that the whole declaration has. -/

namespace TokenAtlas

/-- A token with the hint that it got. -/
abbrev Hinted := Token × Option Hint

/-- The tokens that a builder is fed, with the hints that it gives for them. -/
def ImportBuilder.hinted (b : ImportBuilder) : List Token → List Hinted
  | [] => []
  | t :: ts => (t, (b.feed t).1.hint) :: (b.feed t).2.hinted ts

/-- What an entry was read from: the tokens of its own name, in a group those of the prefix as
well, and the kind that a word of the group gave it. -/
structure EntryOrigin where
  front : Option (List Hinted)
  word : Option SymbolKind
  own : List Hinted
deriving Repr, DecidableEq

namespace EntryOrigin

/-- All tokens whose text is in the name. -/
def tokens (o : EntryOrigin) : List Hinted := o.front.getD [] ++ o.own

/-- The name that the tokens spell. -/
def name (o : EntryOrigin) : String :=
  let own := Text.trimString (Token.joined (o.own.map Prod.fst))
  match o.front with
  | some front => Name.join (Name.withoutTail (Token.joined (front.map Prod.fst))) own
  | none => own

/-- In a declaration of the kind `common` the entry has the name that its tokens spell, and the
kind that its word says. Names of its own were hinted that kind, and names of its prefix the
kind of the declaration. -/
structure Explains (o : EntryOrigin) (common : SymbolKind) (e : ImportEntry) : Prop where
  name : e.name = o.name
  kind : e.kind = o.word.getD common
  outside : o.front = none → o.word = none
  own : ∀ m ∈ o.own, m.1.kind.isName = true → m.2 = some (.name (some e.kind))
  front : ∀ m ∈ o.front.getD [], m.1.kind.isName = true → m.2 = some (.name (some common))

end EntryOrigin

/-- What the entries of a declaration were read from, and what was read since: the word and the
name of the next entry, and the prefix of the group. -/
structure ImportTrace where
  word : Option SymbolKind
  draft : List Hinted
  front : List Hinted
  origins : List EntryOrigin
deriving Repr, DecidableEq

namespace ImportTrace

def empty : ImportTrace := ⟨none, [], [], []⟩

/-- A word in a group counts in front of a name. -/
def setWord (x : ImportTrace) (inGroup : Bool) (k : SymbolKind) : ImportTrace :=
  if inGroup && x.draft.isEmpty then { x with word := some k } else x

def write (x : ImportTrace) (m : Hinted) : ImportTrace := { x with draft := x.draft ++ [m] }

def openGroup (x : ImportTrace) : ImportTrace :=
  { x with word := none, draft := [], front := x.draft }

def closeEntry (x : ImportTrace) (inGroup : Bool) : ImportTrace :=
  let x' := { x with word := none, draft := [] }
  if Text.trimString (Token.joined (x.draft.map Prod.fst)) = "" then x'
  else
    { x' with
      origins := x.origins ++ [⟨if inGroup then some x.front else none, x.word, x.draft⟩] }

/-- Take note of a token that the builder `b` is fed. -/
def note (x : ImportTrace) (b : ImportBuilder) (m : Hinted) : ImportTrace :=
  match m.1.kind with
  | .functionWord => x.setWord b.inGroup .function
  | .constWord => x.setWord b.inGroup .constant
  | .asWord => x
  | .separator => x.write m
  | .openCurly => if b.inGroup then x else x.openGroup
  | .comma => x.closeEntry b.inGroup
  | .closeCurly => if b.inGroup then x.closeEntry b.inGroup else x
  | .semicolon => x.closeEntry b.inGroup
  | k =>
    if k = .identifier && b.draft.expectsShort then x
    else if k.isName then x.write m
    else x

/-- What is noted of tokens that the builder is fed. A complete declaration takes no more. -/
def along (x : ImportTrace) (b : ImportBuilder) : List Token → ImportTrace
  | [] => x
  | t :: ts =>
    (if b.progress = .finished then x else x.note b (t, (b.feed t).1.hint)).along (b.feed t).2 ts

theorem word_closeEntry (x : ImportTrace) (inGroup : Bool) :
    (x.closeEntry inGroup).word = none := by
  unfold closeEntry
  simp only
  split <;> rfl

theorem note_of_isTrivia (x : ImportTrace) (b : ImportBuilder) {t : Token} {hint : Option Hint}
    (ht : t.isTrivia = true) : x.note b (t, hint) = x := by
  rcases hk : t.kind <;>
    simp_all [Token.isTrivia, Kind.isTrivia, note, Kind.isName, Kind.isNameSegment]

/-- The trace notes what the builder does. -/
structure Follows (x : ImportTrace) (b : ImportBuilder) : Prop where
  name : b.draft.name = Token.joined (x.draft.map Prod.fst)
  word : b.draft.kind = x.word
  outside : b.inGroup = false → x.word = none
  inside : b.inGroup = true →
    b.declaration.groupPrefix = some (Name.withoutTail (Token.joined (x.front.map Prod.fst)))
  solid : ∀ m ∈ x.draft, m.1.text ≠ ""
  saw : b.sawName = false → ∀ m ∈ x.draft ++ x.front, m.1.kind.isName = false
  draft : ∀ m ∈ x.draft, m.1.kind.isName = true → m.2 = some (.name (some b.entryKind))
  front : ∀ m ∈ x.front, m.1.kind.isName = true → m.2 = some (.name (some b.commonKind))
  entries : List.Forall₂ (fun e o => o.Explains b.commonKind e) b.declaration.entries x.origins

namespace Follows

variable {x : ImportTrace} {b : ImportBuilder}

theorem fresh : Follows empty .fresh where
  name := by simp [ImportBuilder.fresh, ImportDraft.empty, empty, Token.joined]
  word := rfl
  outside _ := rfl
  inside h := absurd h nofun
  solid := List.forall_mem_nil _
  saw _ := List.forall_mem_nil _
  draft := List.forall_mem_nil _
  front := List.forall_mem_nil _
  entries := .nil

/-- A draft without a text has no tokens. -/
theorem draft_isEmpty (h : Follows x b) : x.draft.isEmpty = decide (b.draft.name = "") := by
  rw [h.name]
  cases hdraft : x.draft with
  | nil => simp [Token.joined]
  | cons m ms =>
    have hm : m.1.text ≠ "" := h.solid m (hdraft ▸ List.mem_cons_self)
    simp [Token.joined_cons, hm]

/-- Neither the kind of the declaration nor that of an entry changes behind a name. -/
theorem setWord (h : Follows x b) (k : SymbolKind) :
    Follows (x.setWord b.inGroup k) (b.setKind k) := by
  unfold ImportTrace.setWord ImportBuilder.setKind
  rw [h.draft_isEmpty]
  split
  · next hgroup =>
    simp only [Bool.and_eq_true, decide_eq_true_eq] at hgroup
    have hempty : x.draft = [] := by simpa [hgroup.2] using h.draft_isEmpty
    exact
      { h with
        word := rfl
        outside := fun hb => absurd (hgroup.1.symm.trans hb) nofun
        draft := by simp [hempty] }
  · split
    · next hcommon =>
      simp only [Bool.and_eq_true, Bool.not_eq_true', List.isEmpty_iff] at hcommon
      have hsaw := h.saw hcommon.1.2
      have hentries := h.entries
      rw [hcommon.2, List.forall₂_nil_left_iff] at hentries
      have hvacuous : ∀ {ms : List Hinted} {k : SymbolKind},
          (∀ m ∈ ms, m.1.kind.isName = false) →
          ∀ m ∈ ms, m.1.kind.isName = true → m.2 = some (.name (some k)) :=
        fun hms m hm hname => absurd (hname.symm.trans (hms m hm)) nofun
      exact
        { h with
          draft := hvacuous fun m hm => hsaw m (List.mem_append_left _ hm)
          front := hvacuous fun m hm => hsaw m (List.mem_append_right _ hm)
          entries := by simp [hcommon.2, hentries] }
    · exact h

theorem write (h : Follows x b) {m : Hinted} (hm : m.1.text ≠ "")
    (hname : m.1.kind.isName = true → m.2 = some (.name (some b.entryKind)))
    {sawName : Bool} (hsaw : sawName = (b.sawName || m.1.kind.isName)) :
    Follows (x.write m) { b.addName m.1.text with sawName } where
  name := by simp [ImportTrace.write, ImportBuilder.addName, h.name, Token.joined]
  word := h.word
  outside := h.outside
  inside := h.inside
  solid := by
    intro n hn
    rcases List.mem_append.1 hn with hn | hn
    · exact h.solid n hn
    · exact List.mem_singleton.1 hn ▸ hm
  saw := by
    intro hfalse n hn
    simp only [hsaw, Bool.or_eq_false_iff] at hfalse
    have hold := h.saw hfalse.1
    simp only [ImportTrace.write, List.mem_append, List.mem_singleton] at hn hold
    rcases hn with (hn | rfl) | hn
    · exact hold n (.inl hn)
    · exact hfalse.2
    · exact hold n (.inr hn)
  draft := by
    intro n hn
    rcases List.mem_append.1 hn with hn | hn
    · exact h.draft n hn
    · exact List.mem_singleton.1 hn ▸ hname
  front := h.front
  entries := h.entries

theorem openGroup (h : Follows x b) (hb : b.inGroup = false) :
    Follows x.openGroup b.openGroup where
  name := by simp [ImportTrace.openGroup, ImportBuilder.openGroup, ImportDraft.empty, Token.joined]
  word := rfl
  outside _ := rfl
  inside _ := by simp [ImportTrace.openGroup, ImportBuilder.openGroup, h.name]
  solid := List.forall_mem_nil _
  saw hsaw m hm := h.saw hsaw m (List.mem_append_left _ hm)
  draft := List.forall_mem_nil _
  front m hm hname := by
    have hkind : b.draft.kind = none := h.word.trans (h.outside hb)
    have hhint := h.draft m hm hname
    rwa [ImportBuilder.entryKind, hkind] at hhint
  entries := h.entries

/-- The entry that is closed is explained by what was noted for it. -/
theorem explains (h : Follows x b) {name : String}
    (hname : name = Text.trimString (Token.joined (x.draft.map Prod.fst))) :
    (⟨if b.inGroup then some x.front else none, x.word, x.draft⟩ : EntryOrigin).Explains
      b.commonKind ⟨b.entryKind, b.fullName name, b.draft.knownAs⟩ := by
  have hkind : b.entryKind = x.word.getD b.commonKind := by rw [ImportBuilder.entryKind, h.word]
  cases hgroup : b.inGroup with
  | false =>
    exact
      { name := by simp [ImportBuilder.fullName, hgroup, EntryOrigin.name, hname]
        kind := hkind
        outside := fun _ => h.outside hgroup
        own := h.draft
        front := List.forall_mem_nil _ }
  | true =>
    exact
      { name := by simp [ImportBuilder.fullName, hgroup, h.inside hgroup, EntryOrigin.name, hname]
        kind := hkind
        outside := fun hnone => absurd hnone (by simp)
        own := h.draft
        front := h.front }

theorem closeEntry (h : Follows x b) : Follows (x.closeEntry b.inGroup) b.closeEntry := by
  have hblank : Text.trimString b.draft.name =
      Text.trimString (Token.joined (x.draft.map Prod.fst)) := by rw [h.name]
  have hsaw : b.sawName = false → ∀ m ∈ [] ++ x.front, m.1.kind.isName = false :=
    fun hb m hm => h.saw hb m (List.mem_append_right _ hm)
  have hempty : ImportDraft.empty.name = Token.joined (([] : List Hinted).map Prod.fst) := by
    simp [ImportDraft.empty, Token.joined]
  simp only [ImportTrace.closeEntry, ImportBuilder.closeEntry, hblank]
  split
  · exact ⟨hempty, rfl, fun _ => rfl, h.inside, List.forall_mem_nil _, hsaw,
      List.forall_mem_nil _, h.front, h.entries⟩
  · exact ⟨hempty, rfl, fun _ => rfl, h.inside, List.forall_mem_nil _, hsaw,
      List.forall_mem_nil _, h.front,
      List.rel_append h.entries (.cons (h.explains rfl) .nil)⟩

theorem leaveGroup (h : Follows x b) (hword : x.word = none) :
    Follows x { b with inGroup := false } :=
  { h with
    outside := fun _ => hword
    inside := fun hgroup => absurd hgroup (by simp) }

theorem of_progress (h : Follows x b) (progress : Progress) : Follows x { b with progress } :=
  { h with }

theorem feedWord (h : Follows x b) {t : Token} (ht : t.text ≠ "") :
    Follows (x.note b (t, (b.feedWord t).1.hint)) (b.feedWord t).2 := by
  unfold note
  simp only
  split
  case h_1 hk =>
    simp only [ImportBuilder.feedWord, hk]
    exact h.setWord .function
  case h_2 hk =>
    simp only [ImportBuilder.feedWord, hk]
    exact h.setWord .constant
  case h_3 hk =>
    simp only [ImportBuilder.feedWord, hk]
    exact { h with }
  case h_4 hk =>
    simp only [ImportBuilder.feedWord, hk]
    have hname : t.kind.isName = false := by rw [hk]; rfl
    exact h.write ht (by simp [hname]) (by simp [hname])
  case h_5 hk =>
    simp only [ImportBuilder.feedWord, hk]
    split
    · exact h
    · next hgroup => exact h.openGroup (by simpa using hgroup)
  case h_6 hk =>
    simp only [ImportBuilder.feedWord, hk]
    exact h.closeEntry
  case h_7 hk =>
    simp only [ImportBuilder.feedWord, hk]
    split
    · next hgroup =>
      exact h.closeEntry.leaveGroup (word_closeEntry x b.inGroup)
    · exact h
  case h_8 hk =>
    simp only [ImportBuilder.feedWord, hk]
    exact h.closeEntry.of_progress .finished
  case h_9 =>
    have hother : b.feedWord t =
        if t.kind = .identifier && b.draft.expectsShort then
          (.hinted (.ofCategory (.ofSymbol b.entryKind)),
            { b with draft := { b.draft with knownAs := some t.text, expectsShort := false } })
        else if t.kind.isName then
          (.hinted (.name (some b.entryKind)), { b.addName t.text with sawName := true })
        else (.quiet, b) := by
      unfold ImportBuilder.feedWord
      split
      case h_9 => rfl
      all_goals contradiction
    rw [hother]
    split
    · exact { h with }
    · split
      · next hname => exact h.write ht (fun _ => rfl) (by simp [hname])
      · exact h

theorem feed (h : Follows x b) {t : Token} (ht : t.text ≠ "") :
    Follows (if b.progress = .finished then x else x.note b (t, (b.feed t).1.hint))
      (b.feed t).2 := by
  by_cases hb : b.progress = .finished
  · rw [if_pos hb, ImportBuilder.feed, hb]
    exact h
  · rw [if_neg hb]
    by_cases htrivia : t.isTrivia = true
    · rw [ImportBuilder.feed_of_isTrivia b htrivia, note_of_isTrivia x b htrivia]
      exact h
    · rw [ImportBuilder.feed_eq_feedWord hb (by simpa using htrivia)]
      exact (h.of_progress .building).feedWord ht

theorem along (h : Follows x b) {ts : List Token} (hts : ∀ t ∈ ts, t.text ≠ "") :
    Follows (x.along b ts) (b.feedAll ts) := by
  induction ts generalizing x b with
  | nil => exact h
  | cons t ts ih =>
    exact ih (h.feed (hts t List.mem_cons_self)) fun u hu => hts u (List.mem_cons_of_mem _ hu)

end Follows

/-- What is noted stands in the tokens that were read, in their order. -/
structure ReadFrom (x : ImportTrace) (ms : List Hinted) : Prop where
  pending : (x.front ++ x.draft).Sublist ms
  origins : ∀ o ∈ x.origins, o.tokens.Sublist ms

namespace ReadFrom

variable {x : ImportTrace} {ms : List Hinted}

theorem empty : ImportTrace.empty.ReadFrom [] := ⟨.slnil, List.forall_mem_nil _⟩

theorem skip (h : x.ReadFrom ms) (m : Hinted) : x.ReadFrom (ms ++ [m]) where
  pending := h.pending.trans (List.sublist_append_left ms [m])
  origins o ho := (h.origins o ho).trans (List.sublist_append_left ms [m])

theorem setWord (h : x.ReadFrom ms) (inGroup : Bool) (k : SymbolKind) :
    (x.setWord inGroup k).ReadFrom ms := by
  unfold ImportTrace.setWord
  split
  · exact ⟨h.pending, h.origins⟩
  · exact h

theorem write (h : x.ReadFrom ms) (m : Hinted) : (x.write m).ReadFrom (ms ++ [m]) where
  pending := by
    rw [ImportTrace.write, ← List.append_assoc]
    exact h.pending.append (List.Sublist.refl [m])
  origins o ho := (h.skip m).origins o ho

theorem openGroup (h : x.ReadFrom ms) : x.openGroup.ReadFrom ms where
  pending := by
    rw [ImportTrace.openGroup, List.append_nil]
    exact (List.sublist_append_right x.front x.draft).trans h.pending
  origins := h.origins

theorem closeEntry (h : x.ReadFrom ms) (inGroup : Bool) : (x.closeEntry inGroup).ReadFrom ms := by
  have hfront : (x.front ++ []).Sublist ms := by
    rw [List.append_nil]
    exact (List.sublist_append_left x.front x.draft).trans h.pending
  unfold ImportTrace.closeEntry
  simp only
  split
  · exact ⟨hfront, h.origins⟩
  · refine ⟨hfront, fun o ho => ?_⟩
    rcases List.mem_append.1 ho with ho | ho
    · exact h.origins o ho
    · rw [List.mem_singleton.1 ho]
      cases inGroup
      · exact (List.sublist_append_right x.front x.draft).trans h.pending
      · exact h.pending

theorem note (h : x.ReadFrom ms) (b : ImportBuilder) (m : Hinted) :
    (x.note b m).ReadFrom (ms ++ [m]) := by
  unfold ImportTrace.note
  split
  case h_1 => exact (h.skip m).setWord b.inGroup .function
  case h_2 => exact (h.skip m).setWord b.inGroup .constant
  case h_3 => exact h.skip m
  case h_4 => exact h.write m
  case h_5 =>
    split
    · exact h.skip m
    · exact (h.skip m).openGroup
  case h_6 => exact (h.skip m).closeEntry b.inGroup
  case h_7 =>
    split
    · exact (h.skip m).closeEntry b.inGroup
    · exact h.skip m
  case h_8 => exact (h.skip m).closeEntry b.inGroup
  case h_9 =>
    split
    · exact h.skip m
    · split
      · exact h.write m
      · exact h.skip m

theorem along (h : x.ReadFrom ms) (b : ImportBuilder) (ts : List Token) :
    (x.along b ts).ReadFrom (ms ++ b.hinted ts) := by
  induction ts generalizing x b ms with
  | nil => rwa [ImportBuilder.hinted, List.append_nil]
  | cons t ts ih =>
    rw [ImportBuilder.hinted, List.append_cons]
    refine ih ?_ (b.feed t).2
    split
    · exact h.skip _
    · exact h.note b _

end ReadFrom

end ImportTrace

namespace ImportBuilder

/-- Whatever a builder is fed, what the name of an entry was read from was hinted the kind of the
entry, except for the prefix of a group, which was hinted the kind of the declaration. The two
kinds differ for an entry of a group that has a word of its own, and for no other one. -/
theorem hints_explain_entries (ts : List Token) (hts : ∀ t ∈ ts, t.text ≠ "") :
    List.Forall₂
      (fun o e => o.tokens.Sublist (fresh.hinted ts) ∧
        o.Explains (fresh.feedAll ts).commonKind e)
      (ImportTrace.empty.along fresh ts).origins (fresh.feedAll ts).declaration.entries := by
  have hfollows := ImportTrace.Follows.fresh.along hts
  have hread := ImportTrace.ReadFrom.empty.along fresh ts
  exact (List.forall₂_and_left _ _).2 ⟨hread.origins, hfollows.entries.flip⟩

/-- The statement `use A\` with a group of the name `B` and the function `f`. -/
def groupedFunction : List Token :=
  [⟨.useWord, "use", 1, 0⟩, ⟨.whitespace, " ", 1, 3⟩, ⟨.identifier, "A", 1, 4⟩,
    ⟨.separator, "\\", 1, 5⟩, ⟨.openCurly, "\x7b", 1, 6⟩, ⟨.identifier, "B", 1, 7⟩,
    ⟨.comma, ",", 1, 8⟩, ⟨.functionWord, "function", 1, 9⟩, ⟨.whitespace, " ", 1, 17⟩,
    ⟨.identifier, "f", 1, 18⟩, ⟨.closeCurly, "\x7d", 1, 19⟩, ⟨.semicolon, ";", 1, 20⟩]

theorem hints_explain_entries_groupedFunction :
    (fresh.feedAll groupedFunction).declaration.entries =
        [⟨.classLike, "A\\B", none⟩, ⟨.function, "A\\f", none⟩] ∧
      List.Forall₂
        (fun o e => o.tokens.Sublist (fresh.hinted groupedFunction) ∧ o.Explains .classLike e)
        (ImportTrace.empty.along fresh groupedFunction).origins
        (fresh.feedAll groupedFunction).declaration.entries :=
  ⟨by decide +kernel, hints_explain_entries groupedFunction (by decide)⟩

/-- The prefix was hinted a class, and it stands in the name of the function. -/
theorem prefix_hinted_other_kind :
    (∀ t ∈ groupedFunction, t.text ≠ "") ∧
      (⟨.identifier, "A", 1, 4⟩, some (.name (some .classLike))) ∈ fresh.hinted groupedFunction ∧
      ⟨.function, "A\\f", none⟩ ∈ (fresh.feedAll groupedFunction).declaration.entries ∧
      ¬ List.Forall₂
        (fun o e => ∀ m ∈ o.tokens, m.1.kind.isName = true → m.2.bind Hint.role = some e.kind)
        (ImportTrace.empty.along fresh groupedFunction).origins
        (fresh.feedAll groupedFunction).declaration.entries := by
  decide +kernel

end ImportBuilder

end TokenAtlas
