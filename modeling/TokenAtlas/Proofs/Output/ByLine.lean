import Mathlib.Data.List.Infix
import TokenAtlas.Output.Document

/-! Tokens gathered by their lines. A list in the order of its lines is known from the tokens of
each line, in order within the line. Gathering keeps these and so does a stable sort, so that the
lines one after the other are the tokens sorted by line. Main statement: with the same
preferences both listings hold the same tokens, and in the same order where lines never
decrease. -/

namespace TokenAtlas

/-- The tokens that start on a line. -/
def onLine (n : Nat) (ts : List ScannedToken) : List ScannedToken :=
  ts.filter (·.token.line = n)

/-- No token starts on an earlier line than one in front of it. -/
def LineOrdered (ts : List ScannedToken) : Prop :=
  ts.Pairwise fun s t => s.token.line ≤ t.token.line

instance (ts : List ScannedToken) : Decidable (LineOrdered ts) :=
  inferInstanceAs (Decidable (List.Pairwise _ _))

/-- Whether a token starts on an earlier line than another one or on the same. -/
def ScannedToken.lineLe (s t : ScannedToken) : Bool := s.token.line ≤ t.token.line

/-- The tokens of earlier lines first, in order within a line. -/
def sortByLine (ts : List ScannedToken) : List ScannedToken := ts.mergeSort ScannedToken.lineLe

variable {n : Nat} {t : ScannedToken} {ts us : List ScannedToken}

theorem mem_onLine : t ∈ onLine n ts ↔ t ∈ ts ∧ t.token.line = n := by simp [onLine]

theorem onLine_cons_self (t : ScannedToken) (ts : List ScannedToken) :
    onLine t.token.line (t :: ts) = t :: onLine t.token.line ts := by simp [onLine]

theorem onLine_cons_of_ne (h : t.token.line ≠ n) (ts : List ScannedToken) :
    onLine n (t :: ts) = onLine n ts := by simp [onLine, h]

theorem onLine_append (n : Nat) (ts us : List ScannedToken) :
    onLine n (ts ++ us) = onLine n ts ++ onLine n us := List.filter_append _ _

theorem onLine_onLine (m n : Nat) (ts : List ScannedToken) :
    onLine m (onLine n ts) = if n = m then onLine n ts else [] := by
  split
  · next h =>
    subst h
    simp [onLine]
  · next h =>
    refine List.filter_eq_nil_iff.2 fun t ht => ?_
    simpa [(mem_onLine.1 ht).2] using h

theorem lineOrdered_onLine (n : Nat) (ts : List ScannedToken) : LineOrdered (onLine n ts) := by
  refine List.Pairwise.imp_of_mem (fun {s t} hs ht _ => ?_)
    (List.pairwise_of_forall fun _ _ => trivial)
  rw [(mem_onLine.1 hs).2, (mem_onLine.1 ht).2]

/-! ### Sorting -/

/-- A list in the order of its lines is known from the tokens of each line. -/
theorem LineOrdered.eq_of_onLine (hts : LineOrdered ts) (hus : LineOrdered us)
    (h : ∀ n, onLine n ts = onLine n us) : ts = us := by
  induction ts generalizing us with
  | nil =>
    refine (List.eq_nil_iff_forall_not_mem.2 fun u hu => ?_).symm
    have hmem := mem_onLine.2 ⟨hu, rfl⟩
    rw [← h] at hmem
    simp [onLine] at hmem
  | cons t ts ih =>
    have ht : t ∈ us := by
      have hmem : t ∈ onLine t.token.line us := by
        rw [← h, onLine_cons_self]
        exact List.mem_cons_self
      exact (mem_onLine.1 hmem).1
    obtain ⟨u, us, rfl⟩ := List.exists_cons_of_ne_nil (List.ne_nil_of_mem ht)
    have hu : u ∈ t :: ts := by
      have hmem : u ∈ onLine u.token.line (t :: ts) := by
        rw [h, onLine_cons_self]
        exact List.mem_cons_self
      exact (mem_onLine.1 hmem).1
    -- each of the two heads is in the other list, so that they are on the same line
    have hline : t.token.line = u.token.line := by
      refine Nat.le_antisymm ?_ ?_
      · rcases List.mem_cons.1 hu with rfl | hu
        · exact Nat.le_refl _
        · exact (List.pairwise_cons.1 hts).1 u hu
      · rcases List.mem_cons.1 ht with rfl | ht
        · exact Nat.le_refl _
        · exact (List.pairwise_cons.1 hus).1 t ht
    have hhead := h t.token.line
    rw [onLine_cons_self, hline, onLine_cons_self] at hhead
    obtain ⟨rfl, htail⟩ := List.cons.inj hhead
    refine congrArg (t :: ·) (ih hts.of_cons hus.of_cons fun n => ?_)
    by_cases hn : t.token.line = n
    · rw [← hn, htail]
    · have hn' := h n
      rwa [onLine_cons_of_ne hn, onLine_cons_of_ne hn] at hn'

theorem ScannedToken.lineLe_trans (r s t : ScannedToken) (hrs : r.lineLe s = true)
    (hst : s.lineLe t = true) : r.lineLe t = true :=
  decide_eq_true (Nat.le_trans (of_decide_eq_true hrs) (of_decide_eq_true hst))

theorem ScannedToken.lineLe_total (s t : ScannedToken) : (s.lineLe t || t.lineLe s) = true := by
  simpa [lineLe] using Nat.le_total s.token.line t.token.line

theorem lineOrdered_sortByLine (ts : List ScannedToken) : LineOrdered (sortByLine ts) :=
  (List.pairwise_mergeSort ScannedToken.lineLe_trans ScannedToken.lineLe_total ts).imp
    of_decide_eq_true

/-- Sorting is stable. -/
theorem onLine_sortByLine (n : Nat) (ts : List ScannedToken) :
    onLine n (sortByLine ts) = onLine n ts := by
  have hsub : (onLine n ts).Sublist (sortByLine ts) :=
    List.sublist_mergeSort ScannedToken.lineLe_trans ScannedToken.lineLe_total
      ((lineOrdered_onLine n ts).imp decide_eq_true) List.filter_sublist
  have hline : (onLine n (onLine n ts)).Sublist (onLine n (sortByLine ts)) := hsub.filter _
  rw [onLine_onLine, if_pos rfl] at hline
  have hperm : (onLine n (sortByLine ts)).Perm (onLine n ts) := (List.mergeSort_perm _ _).filter _
  exact (hline.eq_of_length hperm.length_eq.symm).symm

theorem sortByLine_eq_self (h : LineOrdered ts) : sortByLine ts = ts :=
  (lineOrdered_sortByLine ts).eq_of_onLine h fun n => onLine_sortByLine n ts

/-- Of the tokens of several lines those of one line are found where that line is. -/
theorem onLine_flatMap_onLine {lines : List Nat} (hlines : lines.Pairwise (· < ·)) (n : Nat) :
    onLine n (lines.flatMap (onLine · ts)) = if n ∈ lines then onLine n ts else [] := by
  induction lines with
  | nil => rfl
  | cons m lines ih =>
    obtain ⟨hm, hlines⟩ := List.pairwise_cons.1 hlines
    have hrest := ih hlines
    have hinner := onLine_onLine n m ts
    rw [List.flatMap_cons, onLine_append, hrest, hinner]
    by_cases hmn : m = n
    · subst hmn
      have hnot : m ∉ lines := fun hmem => Nat.lt_irrefl m (hm m hmem)
      simp [hnot]
    · simp [hmn, Ne.symm hmn]

/-- The tokens of each line one after the other are the tokens sorted by line. -/
theorem flatMap_onLine {lines : List Nat} (hlines : lines.Pairwise (· < ·))
    (hall : ∀ t ∈ ts, t.token.line ∈ lines) :
    lines.flatMap (onLine · ts) = sortByLine ts := by
  refine LineOrdered.eq_of_onLine ?_ (lineOrdered_sortByLine ts) fun n => ?_
  · refine List.pairwise_flatMap.2 ⟨fun n _ => lineOrdered_onLine n ts, hlines.imp ?_⟩
    intro m n hmn s hs t ht
    rw [(mem_onLine.1 hs).2, (mem_onLine.1 ht).2]
    exact Nat.le_of_lt hmn
  · rw [onLine_sortByLine, onLine_flatMap_onLine hlines]
    split
    · rfl
    · next hn =>
      refine (List.filter_eq_nil_iff.2 fun t ht hline => hn ?_).symm
      rw [← of_decide_eq_true hline]
      exact hall t ht

/-! ### Gathering -/

namespace Listing

variable {m : OutputMode}

/-- The tokens in the shape of a mode, gathered by their lines. -/
def gather (m : OutputMode) (ts : List ScannedToken) : LineTable := ts.foldr (addToLine m) ∅

theorem gather_cons (m : OutputMode) (t : ScannedToken) (ts : List ScannedToken) :
    gather m (t :: ts) = addToLine m t (gather m ts) := rfl

/-- A line has an entry if a token starts on it. -/
theorem mem_gather : n ∈ gather m ts ↔ ∃ t ∈ ts, t.token.line = n := by
  induction ts with
  | nil => simp [gather]
  | cons t ts ih =>
    rw [gather_cons, addToLine, Std.TreeMap.mem_alter, ih]
    simp only [Std.compare_eq_iff_eq, Option.isSome_some, List.exists_mem_cons_iff]
    split
    · next h => simp [h]
    · next h => simp [h]

/-- The entry of a line holds the tokens of the line, in order. -/
theorem getD_gather (m : OutputMode) (ts : List ScannedToken) (n : Nat) :
    (gather m ts)[n]?.getD [] = (onLine n ts).map (.shape m) := by
  induction ts with
  | nil => simp [gather, onLine]
  | cons t ts ih =>
    rw [gather_cons, addToLine, Std.TreeMap.getElem?_alter]
    by_cases h : t.token.line = n
    · subst h
      rw [if_pos (by simp), Option.getD_some, ih, onLine_cons_self, List.map_cons]
    · rw [if_neg (by simpa using h), ih, onLine_cons_of_ne h]

theorem toList_gather (m : OutputMode) (ts : List ScannedToken) :
    (byLine (gather m ts)).toList = (sortByLine ts).map (.shape m) := by
  have hlines : (gather m ts).keys.Pairwise (· < ·) :=
    Std.TreeMap.ordered_keys.imp Nat.compare_eq_lt.1
  have hall : ∀ t ∈ ts, t.token.line ∈ (gather m ts).keys := fun t ht =>
    Std.TreeMap.mem_keys.2 (mem_gather.2 ⟨t, ht, rfl⟩)
  have hentry : ∀ e ∈ (gather m ts).toList, e.2 = (onLine e.1 ts).map (.shape m) := by
    intro e he
    rw [← getD_gather, Std.TreeMap.mem_toList_iff_getElem?_eq_some.1 he, Option.getD_some]
  calc (gather m ts).toList.flatMap (·.2)
      = (gather m ts).toList.flatMap fun e => (onLine e.1 ts).map (.shape m) :=
        List.flatMap_congr hentry
    _ = ((gather m ts).keys.flatMap (onLine · ts)).map (.shape m) := by
        rw [← Std.TreeMap.map_fst_toList_eq_keys, List.flatMap_map, List.map_flatMap]
    _ = (sortByLine ts).map (.shape m) := by rw [flatMap_onLine hlines hall]

end Listing

/-- The tokens of a scan that a document lists. -/
def StreamPreferences.selected (p : StreamPreferences) (ts : List ScannedToken) :
    List ScannedToken :=
  if p.trims then trimTrailing ts else ts

/-- Entries that belong to lines, those of earlier lines first and in order within a line. -/
def sortEntries (entries : List (Nat × OutputToken)) : List OutputToken :=
  (entries.mergeSort fun a b => a.1 ≤ b.1).map (·.2)

theorem map_sortByLine (f : ScannedToken → OutputToken) (ts : List ScannedToken) :
    (sortByLine ts).map f = sortEntries ((ts.map (·.token.line)).zip (ts.map f)) := by
  have hentries : (sortByLine ts).map (fun t => (t.token.line, f t)) =
      (ts.map fun t => (t.token.line, f t)).mergeSort fun a b => a.1 ≤ b.1 :=
    List.map_mergeSort fun _ _ _ _ => rfl
  rw [sortEntries, List.zip_map', ← hentries, List.map_map]
  rfl

/-- With the same preferences both listings of a scan hold the same tokens. Gathered by line the
lines are those of the listed tokens and each has its tokens in order. One after the other the
lines are the other listing sorted by line, which is that listing itself where lines never
decrease. -/
theorem listings_hold_same_tokens (r : ScanResult) (p : StreamPreferences)
    (source : Option String) (generated : Moment) :
    ∃ (lines : LineTable) (index : List OutputToken),
      (Document.ofResult r { p with byLine := true } source generated).listing = .byLine lines ∧
      (Document.ofResult r { p with byLine := false } source generated).listing =
        .byIndex index ∧
      (∀ n, n ∈ lines ↔ ∃ t ∈ p.selected r.tokens, t.token.line = n) ∧
      (∀ n, lines[n]?.getD [] = (onLine n (p.selected r.tokens)).map (.shape p.mode)) ∧
      (Listing.byLine lines).toList =
        sortEntries (((p.selected r.tokens).map (·.token.line)).zip index) ∧
      (Listing.byLine lines).size = (Listing.byIndex index).size ∧
      (LineOrdered (p.selected r.tokens) → (Listing.byLine lines).toList = index) := by
  refine ⟨Listing.gather p.mode (p.selected r.tokens),
    (p.selected r.tokens).map (.shape p.mode), rfl, rfl, fun n => Listing.mem_gather,
    Listing.getD_gather _ _, ?_, ?_, fun hordered => ?_⟩
  · rw [Listing.toList_gather, map_sortByLine]
  · rw [Listing.size, Listing.toList_gather, List.length_map, sortByLine, List.length_mergeSort]
    exact (List.length_map _).symm
  · rw [Listing.toList_gather, sortByLine_eq_self hordered]

/-- Two lines of a comment each, the first one with a blank at its end. -/
def trailingBlank : ScanResult where
  tokens :=
    [⟨0, ⟨.comment, "// a", 1, 0⟩, .comment, []⟩, ⟨1, ⟨.whitespace, " ", 1, 4⟩, .whitespace, []⟩,
      ⟨2, ⟨.lineBreak, "\n", 1, 5⟩, .lineBreak, []⟩, ⟨3, ⟨.comment, "// b", 2, 0⟩, .comment, []⟩]
  products := []
  imports := .empty
  metrics := .zero

/-- Without its blank the first line has two entries, and the second line comes behind it. -/
theorem listings_hold_same_tokens_trailingBlank :
    LineOrdered (trimTrailing trailingBlank.tokens) ∧
      ∃ lines index,
        (Document.ofResult trailingBlank ⟨true, false, true, true, .fragments, false⟩ none
          ⟨0, 0, 0⟩).listing = .byLine lines ∧
        (Document.ofResult trailingBlank ⟨true, false, true, false, .fragments, false⟩ none
          ⟨0, 0, 0⟩).listing = .byIndex index ∧
        (lines[1]?.getD []).length = 2 ∧ (Listing.byLine lines).toList = index := by
  have hordered : LineOrdered (trimTrailing trailingBlank.tokens) := by decide
  obtain ⟨lines, index, hlines, hindex, -, hentry, -, -, hsame⟩ :=
    listings_hold_same_tokens trailingBlank ⟨true, false, true, true, .fragments, false⟩ none
      ⟨0, 0, 0⟩
  refine ⟨hordered, lines, index, hlines, hindex, ?_, hsame hordered⟩
  rw [hentry]
  decide

end TokenAtlas
