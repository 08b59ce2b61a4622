import Mathlib.Data.List.SplitBy
import Mathlib.Data.String.Basic
import TokenAtlas.Proofs.Text.Breaks

/-! Texts as bytes. A slice is cut out of a text between two byte offsets, and cutting it is a
fault unless the offsets are in order, within the text and at the boundaries of characters.
Two scans of the bytes, for runs of line-break bytes and for lines, look at one byte at a time.
Main statements: neither scan has a fault, and they find the runs and the lines that the
characters of the text have. -/

namespace TokenAtlas.Bytewise

open Text

/-! ### Slices -/

/-- The part of a text between two byte offsets. -/
structure Slice where
  text : String
  start : Nat
  stop : Nat
deriving Repr, DecidableEq

/-- Whether a character begins at a byte offset, or the text ends there. -/
def isBoundary (s : String) (i : Nat) : Bool := String.Pos.Raw.isValid s ⟨i⟩

/-- A slice that can be cut out: its ends are in order, within the text, and cut no character. -/
structure Slice.Fits (c : Slice) : Prop where
  ordered : c.start ≤ c.stop
  within : c.stop ≤ c.text.utf8ByteSize
  start : isBoundary c.text c.start = true
  stop : isBoundary c.text c.stop = true

theorem Slice.fits_iff (c : Slice) : c.Fits ↔
    c.start ≤ c.stop ∧ c.stop ≤ c.text.utf8ByteSize ∧ isBoundary c.text c.start = true ∧
      isBoundary c.text c.stop = true :=
  ⟨fun h => ⟨h.ordered, h.within, h.start, h.stop⟩, fun ⟨h₁, h₂, h₃, h₄⟩ => ⟨h₁, h₂, h₃, h₄⟩⟩

instance (c : Slice) : Decidable c.Fits := decidable_of_iff _ c.fits_iff.symm

/-- What ends a scan at once: a slice that cannot be cut out, a length below zero, or atoms that
do not make up the text they came from. -/
inductive Fault
  | slice (c : Slice)
  | negative (a b : Nat)
  | lostText (text : String)
deriving Repr, DecidableEq

/-- The text of a slice. -/
def slice (s : String) (start stop : Nat) : Except Fault String :=
  if Slice.Fits ⟨s, start, stop⟩ then .ok (String.Pos.Raw.extract s ⟨start⟩ ⟨stop⟩)
  else .error (.slice ⟨s, start, stop⟩)

/-- A difference of two lengths. -/
def minus (a b : Nat) : Except Fault Nat := if b ≤ a then .ok (a - b) else .error (.negative a b)

/-- The length of some characters in bytes. -/
def size (cs : List Char) : Nat := (String.ofList cs).utf8ByteSize

@[simp] theorem size_nil : size [] = 0 := rfl

@[simp] theorem size_append (a b : List Char) : size (a ++ b) = size a + size b := by
  rw [size, String.ofList_append, String.utf8ByteSize_append]
  rfl

theorem size_cons (c : Char) (cs : List Char) : size (c :: cs) = c.utf8Size + size cs := by
  have hone : size [c] = c.utf8Size := by
    rw [size, ← String.singleton_eq_ofList, String.utf8ByteSize_singleton]
  rw [← hone, ← size_append]
  rfl

theorem size_toList (s : String) : size s.toList = s.utf8ByteSize := by
  rw [size, String.ofList_toList]

theorem isBoundary_append (a b : String) : isBoundary (a ++ b) a.utf8ByteSize = true :=
  String.Pos.Raw.isValid_eq_true_iff.2 (String.Pos.Raw.isValid_iff_exists_append.2 ⟨a, b, rfl, rfl⟩)

/-- Between whole characters any part of a text can be cut out. -/
theorem slice_eq {s : String} {a b c : List Char} (h : s.toList = a ++ (b ++ c)) :
    slice s (size a) (size a + size b) = .ok (String.ofList b) := by
  have hs : s = String.ofList (a ++ b ++ c) := by
    rw [← String.toList_inj, h, String.toList_ofList, List.append_assoc]
  have hfits : Slice.Fits ⟨s, size a, size a + size b⟩ := by
    refine ⟨Nat.le_add_right _ _, ?_, ?_, ?_⟩
    · change size a + size b ≤ s.utf8ByteSize
      rw [← size_toList, h, size_append, size_append]
      omega
    · rw [hs, List.append_assoc, String.ofList_append]
      exact isBoundary_append _ _
    · rw [hs, String.ofList_append, ← size_append]
      exact isBoundary_append _ _
  rw [slice, if_pos hfits, hs]
  simp only [size, String.utf8ByteSize_ofList, String.extract_of_valid]

theorem slice_front {s : String} {b c : List Char} (h : s.toList = b ++ c) :
    slice s 0 (size b) = .ok (String.ofList b) := by
  have hcut : s.toList = [] ++ (b ++ c) := h
  simpa using slice_eq hcut

theorem slice_back {s : String} {a b : List Char} (h : s.toList = a ++ b) :
    slice s (size a) s.utf8ByteSize = .ok (String.ofList b) := by
  have hcut : s.toList = a ++ (b ++ []) := by rw [h, List.append_nil]
  rw [← size_toList, h, size_append]
  exact slice_eq hcut

/-- In front of a boundary stand whole characters. -/
theorem exists_append_of_isBoundary {s : String} {i : Nat} (h : isBoundary s i = true) :
    ∃ a b, s.toList = a ++ b ∧ size a = i := by
  obtain ⟨a, b, hs, hi⟩ :=
    String.Pos.Raw.isValid_iff_exists_append.1 (String.Pos.Raw.isValid_eq_true_iff.1 h)
  exact ⟨a.toList, b.toList, by rw [hs, String.toList_append],
    (size_toList a).trans (congrArg String.Pos.Raw.byteIdx hi).symm⟩

theorem minus_eq (a b : Nat) : minus (a + b) b = .ok a := by
  rw [minus, if_pos (Nat.le_add_left b a), Nat.add_sub_cancel]

/-! ### Bytes -/

/-- The bytes of a text. -/
def bytes (s : String) : List UInt8 := s.toByteArray.data.toList

/-- The bytes of some characters. -/
def encode (cs : List Char) : List UInt8 := cs.flatMap String.utf8EncodeChar

theorem bytes_eq (s : String) : bytes s = encode s.toList := by
  rw [bytes, ← String.ofList_toList (s := s), String.toByteArray_ofList, List.utf8Encode,
    List.toList_data_toByteArray, String.toList_ofList]
  rfl

@[simp] theorem encode_append (a b : List Char) : encode (a ++ b) = encode a ++ encode b :=
  List.flatMap_append

theorem length_encode (cs : List Char) : (encode cs).length = size cs := by
  rw [size, ← String.size_toByteArray, String.toByteArray_ofList, List.utf8Encode,
    List.size_toByteArray]
  rfl

/-- The bytes of a line feed and of a carriage return. -/
def isBreakByte (b : UInt8) : Bool := b = 10 || b = 13

theorem isBreakByte_iff (b : UInt8) : isBreakByte b = true ↔ b.toNat = 10 ∨ b.toNat = 13 := by
  simp [isBreakByte, ← UInt8.toNat_inj]

theorem isBreak_iff (c : Char) : isBreak c = true ↔ c.val.toNat = 10 ∨ c.val.toNat = 13 := by
  simp [isBreak, Char.ext_iff, ← UInt32.toNat_inj]

/-- A byte is one of a break only as the one byte of a break character. -/
theorem isBreakByte_of_mem_utf8EncodeChar {c : Char} {b : UInt8}
    (h : b ∈ String.utf8EncodeChar c) : isBreakByte b = isBreak c := by
  rw [Bool.eq_iff_iff, isBreakByte_iff, isBreak_iff]
  unfold String.utf8EncodeChar at h
  generalize c.val.toNat = v at *
  simp only at h
  split at h
  · simp only [List.mem_singleton] at h
    rw [h, UInt8.toNat_ofNat']
    omega
  · -- all bytes of longer characters are beyond the ASCII range
    have hb : 128 ≤ b.toNat := by
      split at h
      · simp only [List.mem_cons, List.not_mem_nil, or_false] at h
        rcases h with rfl | rfl <;> rw [UInt8.toNat_ofNat'] <;> omega
      · split at h
        · simp only [List.mem_cons, List.not_mem_nil, or_false] at h
          rcases h with rfl | rfl | rfl <;> rw [UInt8.toNat_ofNat'] <;> omega
        · simp only [List.mem_cons, List.not_mem_nil, or_false] at h
          rcases h with rfl | rfl | rfl | rfl <;> rw [UInt8.toNat_ofNat'] <;> omega
    omega

theorem isBreakByte_of_mem_encode {cs : List Char} {b : UInt8} (h : b ∈ encode cs) :
    ∃ c ∈ cs, isBreakByte b = isBreak c := by
  obtain ⟨c, hc, hb⟩ := List.mem_flatMap.1 h
  exact ⟨c, hc, isBreakByte_of_mem_utf8EncodeChar hb⟩

theorem isBreakByte_of_unbroken {cs : List Char} (h : Unbroken cs) :
    ∀ b ∈ encode cs, isBreakByte b = false := by
  intro b hb
  obtain ⟨c, hc, hclass⟩ := isBreakByte_of_mem_encode hb
  rw [hclass, h c hc]

/-- The bytes of the first character are of its sort. -/
theorem encode_cons (c : Char) (cs : List Char) :
    ∃ b bs, encode (c :: cs) = b :: (bs ++ encode cs) ∧ isBreakByte b = isBreak c ∧
      ∀ b' ∈ bs, isBreakByte b' = isBreak c := by
  obtain ⟨b, bs, hc⟩ := List.exists_cons_of_ne_nil (String.utf8EncodeChar_ne_nil (c := c))
  have hclass : ∀ b' ∈ b :: bs, isBreakByte b' = isBreak c := fun b' hb' =>
    isBreakByte_of_mem_utf8EncodeChar (hc ▸ hb')
  refine ⟨b, bs, ?_, hclass b List.mem_cons_self, fun b' hb' =>
    hclass b' (List.mem_cons_of_mem b hb')⟩
  rw [encode, List.flatMap_cons, hc]
  rfl

/-! ### Runs -/

/-- The text cut into runs of line-break bytes and runs of others. -/
def runs (s : String) : Except Fault (List (Bool × String)) := go s 0 (bytes s)
where
  go (s : String) (i : Nat) : List UInt8 → Except Fault (List (Bool × String))
    | [] => .ok []
    | b :: bs => do
      let alike := fun b' => isBreakByte b' == isBreakByte b
      let stop := i + 1 + (bs.takeWhile alike).length
      let run ← slice s i stop
      let more ← go s stop (bs.dropWhile alike)
      return (isBreakByte b, run) :: more
  termination_by bs => bs.length
  decreasing_by
    exact Nat.lt_succ_of_le (List.dropWhile_suffix _).length_le

/-- A run ends where the next character is of the other sort. -/
theorem runs_go_append {s : String} {front run rest : List Char} {breaking : Bool}
    {more : List (Bool × String)} (h : s.toList = front ++ (run ++ rest)) (hne : run ≠ [])
    (hrun : ∀ c ∈ run, isBreak c = breaking) (hrest : ∀ c ∈ rest.head?, isBreak c ≠ breaking)
    (hmore : runs.go s (size front + size run) (encode rest) = .ok more) :
    runs.go s (size front) (encode (run ++ rest)) =
      .ok ((breaking, String.ofList run) :: more) := by
  obtain ⟨c, cs, rfl⟩ := List.exists_cons_of_ne_nil hne
  obtain ⟨b, bs, hencode, hb, hbs⟩ := encode_cons c cs
  obtain rfl : isBreakByte b = breaking := hb.trans (hrun c List.mem_cons_self)
  have hall : ∀ b' ∈ bs ++ encode cs, (isBreakByte b' == isBreakByte b) = true := by
    intro b' hb'
    rw [beq_iff_eq]
    rcases List.mem_append.1 hb' with hb' | hb'
    · rw [hbs b' hb', hrun c List.mem_cons_self]
    · obtain ⟨d, hd, hclass⟩ := isBreakByte_of_mem_encode hb'
      rw [hclass, hrun d (List.mem_cons_of_mem c hd)]
  have hstop : ∀ b' ∈ (encode rest).head?, (isBreakByte b' == isBreakByte b) = false := by
    rcases rest with _ | ⟨d, rest⟩
    · simp [encode]
    · obtain ⟨b', bs', hencode', hb', -⟩ := encode_cons d rest
      have := hrest d rfl
      simpa [hencode', hb'] using this
  have htake : (bs ++ encode cs ++ encode rest).takeWhile (isBreakByte · == isBreakByte b) =
      bs ++ encode cs := by
    rw [List.takeWhile_append_of_pos hall, (cut_of_head? hstop).1, List.append_nil]
  have hdrop : (bs ++ encode cs ++ encode rest).dropWhile (isBreakByte · == isBreakByte b) =
      encode rest := by
    rw [List.dropWhile_append_of_pos hall, (cut_of_head? hstop).2]
  have hsize : size front + 1 + (bs ++ encode cs).length = size front + size (c :: cs) := by
    rw [← length_encode (c :: cs), hencode, List.length_cons]
    omega
  rw [encode_append, hencode, List.cons_append, runs.go]
  simp only [htake, hdrop, hsize, slice_eq h, hmore, bind, Except.bind, pure, Except.pure]

/-- The characters of a run are all of the sort of its first one. -/
theorem isBreak_of_isChain {c : Char} {cs : List Char}
    (h : (c :: cs).IsChain fun a b => (isBreak a == isBreak b) = true) :
    ∀ d ∈ c :: cs, isBreak d = isBreak c := by
  induction cs generalizing c with
  | nil => simp
  | cons d cs ih =>
    obtain ⟨hcd, hchain⟩ := List.isChain_cons_cons.1 h
    refine List.forall_mem_cons.2 ⟨rfl, fun e he => ?_⟩
    rw [ih hchain e he, ← beq_iff_eq.1 hcd]

/-- Homogeneous runs of alternating sorts are found one by one. -/
theorem runs_go_flatten {s : String} {front : List Char} {rs : List (List Char)}
    (h : s.toList = front ++ rs.flatten) (hne : [] ∉ rs)
    (hruns : ∀ run ∈ rs, run.IsChain fun a b => (isBreak a == isBreak b) = true)
    (hrs : rs.IsChain fun a b => ∃ ha hb, (isBreak (a.getLast ha) == isBreak (b.head hb)) = false) :
    runs.go s (size front) (encode rs.flatten) =
      .ok (rs.map fun run => (run.any isBreak, String.ofList run)) := by
  induction rs generalizing front with
  | nil => simp [encode, runs.go]
  | cons run rs ih =>
    obtain ⟨hrun, hrest⟩ := List.forall_mem_cons.1 hruns
    have hrunne : run ≠ [] := fun hnil => hne (hnil ▸ List.mem_cons_self)
    obtain ⟨c, cs, rfl⟩ := List.exists_cons_of_ne_nil hrunne
    have hall := isBreak_of_isChain hrun
    have hany : (c :: cs).any isBreak = isBreak c := by
      rw [Bool.eq_iff_iff, List.any_eq_true]
      constructor
      · rintro ⟨d, hd, hbreak⟩
        rwa [← hall d hd]
      · exact fun hc => ⟨c, List.mem_cons_self, hc⟩
    have hstop : ∀ d ∈ rs.flatten.head?, isBreak d ≠ isBreak c := by
      rcases rs with _ | ⟨next, rs⟩
      · simp
      · obtain ⟨ha, hb, hdiffer⟩ := (List.isChain_cons_cons.1 hrs).1
        rw [hall _ (List.getLast_mem ha)] at hdiffer
        intro d hd
        rw [List.flatten_cons, List.head?_append_of_ne_nil _ hb, List.head?_eq_some_head hb] at hd
        obtain rfl := Option.some.inj hd
        intro hsame
        simp [hsame] at hdiffer
    have hfront : s.toList = front ++ (c :: cs) ++ rs.flatten := by simp [h]
    have hmore := ih hfront (fun hmem => hne (List.mem_cons_of_mem _ hmem)) hrest hrs.tail
    rw [size_append] at hmore
    rw [List.flatten_cons, runs_go_append (by simpa using h) hrunne hall hstop hmore, List.map_cons,
      hany]

/-- The scan finds the runs of a text. -/
theorem runs_eq (s : String) : runs s =
    .ok ((s.toList.splitBy fun a b => isBreak a == isBreak b).map fun run =>
      (run.any isBreak, String.ofList run)) := by
  obtain ⟨hflatten, hne, hruns, hrs⟩ :=
    List.splitBy_eq_iff.1 (rfl : s.toList.splitBy (fun a b => isBreak a == isBreak b) = _)
  have hstart : s.toList = [] ++ _ := hflatten
  have := runs_go_flatten hstart hne hruns hrs
  rwa [← hflatten, ← bytes_eq] at this

/-! ### Lines -/

/-- The text cut into lines, each with the break behind it. -/
def segments (s : String) : Except Fault (List (String × String)) := go s 0 0 (bytes s)
where
  go (s : String) (start i : Nat) : List UInt8 → Except Fault (List (String × String))
    | [] => do
      if start < s.utf8ByteSize then
        return [(← slice s start s.utf8ByteSize, "")]
      else return []
    | b :: bs => do
      if isBreakByte b then
        let pair := b = 13 && bs.head? = some 10
        let stop := if pair then i + 2 else i + 1
        let content ← slice s start i
        let ending ← slice s i stop
        let more ← go s stop stop (if pair then bs.tail else bs)
        return (content, ending) :: more
      else go s start (i + 1) bs
  termination_by bs => bs.length
  decreasing_by
    · refine Nat.lt_succ_of_le ?_
      split
      · exact (List.tail_suffix bs).length_le
      · exact le_rfl
    · exact Nat.lt_succ_self _

/-- Bytes of no break are passed. -/
theorem segments_go_unbroken {s : String} {bs rest : List UInt8} (start i : Nat)
    (h : ∀ b ∈ bs, isBreakByte b = false) :
    segments.go s start i (bs ++ rest) = segments.go s start (i + bs.length) rest := by
  induction bs generalizing i with
  | nil => rfl
  | cons b bs ih =>
    obtain ⟨hb, hbs⟩ := List.forall_mem_cons.1 h
    rw [List.cons_append, segments.go, if_neg (by simp [hb]), ih _ hbs, List.length_cons]
    congr 1
    omega

theorem head?_encode_ne {cs : List Char} (h : cs.head? ≠ some '\n') :
    (encode cs).head? ≠ some 10 := by
  rcases cs with _ | ⟨c, cs⟩
  · simp [encode]
  · obtain ⟨b, bs, hencode, hb, -⟩ := encode_cons c cs
    intro hhead
    rw [hencode] at hhead
    obtain rfl : b = 10 := by simpa using hhead
    have hc : isBreak c = true := hb.symm
    rw [isBreak, Bool.or_eq_true, decide_eq_true_eq, decide_eq_true_eq] at hc
    rcases hc with rfl | rfl
    · exact h rfl
    · exact absurd (List.cons.inj hencode).1 (by decide)

/-- A break ends the line before it. -/
theorem segments_go_ending {s : String} {front body ending back : List Char}
    {more : List (String × String)} (h : s.toList = front ++ (body ++ (ending ++ back)))
    (hending : IsEnding ending) (hback : splitsBreak ending back = false)
    (hmore : segments.go s (size front + size body + size ending)
      (size front + size body + size ending) (encode back) = .ok more) :
    segments.go s (size front) (size front + size body) (encode (ending ++ back)) =
      .ok ((String.ofList body, String.ofList ending) :: more) := by
  have hcontent := slice_eq h
  have hslice : slice s (size front + size body) (size front + size body + size ending) =
      .ok (String.ofList ending) := by
    rw [← size_append]
    exact slice_eq (by simpa using h)
  rcases hending with rfl | rfl | rfl
  · have hencode : encode (['\n'] ++ back) = 10 :: encode back := rfl
    have hsize : size ['\n'] = 1 := rfl
    rw [hsize] at hslice hmore
    rw [hencode, segments.go, if_pos (by decide)]
    simp [hcontent, hslice, hmore, bind, Except.bind, pure, Except.pure]
  · have hencode : encode (['\r'] ++ back) = 13 :: encode back := rfl
    have hsize : size ['\r'] = 1 := rfl
    have hlone : (encode back).head? ≠ some 10 :=
      head?_encode_ne fun hhead => by simp [splitsBreak, hhead] at hback
    rw [hsize] at hslice hmore
    rw [hencode, segments.go, if_pos (by decide)]
    simp [hlone, hcontent, hslice, hmore, bind, Except.bind, pure, Except.pure]
  · have hencode : encode (['\r', '\n'] ++ back) = 13 :: 10 :: encode back := rfl
    have hsize : size ['\r', '\n'] = 2 := rfl
    rw [hsize] at hslice hmore
    rw [hencode, segments.go, if_pos (by decide)]
    simp [hcontent, hslice, hmore, bind, Except.bind, pure, Except.pure]

/-- The scan finds the lines of a text. -/
theorem segments_go_eq {s : String} {front cs : List Char} (h : s.toList = front ++ cs) :
    segments.go s (size front) (size front) (encode cs) =
      .ok ((lines cs).map fun l => (String.ofList l.content, String.ofList l.ending)) := by
  induction cs using induction_on_breaks generalizing front with
  | unbroken cs hcs =>
    have hsize : s.utf8ByteSize = size front + size cs := by rw [← size_toList, h, size_append]
    rw [← List.append_nil (encode cs), segments_go_unbroken _ _ (isBreakByte_of_unbroken hcs),
      length_encode, segments.go, hsize]
    by_cases hnil : cs = []
    · subst hnil
      rw [size_nil, Nat.add_zero, if_neg (Nat.lt_irrefl _)]
      rfl
    · have hpos : 0 < size cs := utf8ByteSize_pos hnil
      rw [if_pos (by omega), lines_of_unbroken hnil hcs,
        slice_eq (c := []) (by simpa using h)]
      rfl
  | broken body ending back hbody hending hback ih =>
    have hfront : s.toList = front ++ (body ++ ending) ++ back := by simp [h]
    have hmore := ih hfront
    rw [size_append, size_append, ← Nat.add_assoc] at hmore
    rw [encode_append, segments_go_unbroken _ _ (isBreakByte_of_unbroken hbody), length_encode,
      segments_go_ending h hending hback hmore, lines_append hbody hending hback, List.map_cons]

theorem segments_eq (s : String) : segments s =
    .ok ((lines s.toList).map fun l => (String.ofList l.content, String.ofList l.ending)) := by
  have hstart : s.toList = [] ++ s.toList := rfl
  have := segments_go_eq hstart
  rwa [← bytes_eq] at this

end TokenAtlas.Bytewise
