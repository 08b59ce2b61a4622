import Mathlib.Tactic.ByContra
import TokenAtlas.Proofs.Text.Bytes
import TokenAtlas.Text.Clamp

/-! Texts that are too long. Where such a text is cut can be found on its bytes, by going back
from the limit until no character is cut in two. Main statement: for every text and every limit
that search has no fault, goes back over three bytes at most, and ends behind the longest part of
whole characters that fits, which is the part that is kept. -/

namespace TokenAtlas

namespace Text

open Bytewise (size)

/-- The longest beginning of the text that has at most `limit` bytes. -/
structure IsLongestFitting (limit : Nat) (cs front : List Char) : Prop where
  begins : front <+: cs
  fits : size front ≤ limit
  longest : ∀ other, other <+: cs → size other ≤ limit → other.length ≤ front.length

/-- Of two beginnings of a text the longer one has more bytes. -/
theorem length_le_of_size_le {a b cs : List Char} (ha : a <+: cs) (hb : b <+: cs)
    (h : size a ≤ size b) : a.length ≤ b.length := by
  rcases List.prefix_or_prefix_of_prefix ha hb with hab | ⟨rest, rfl⟩
  · exact hab.length_le
  · by_cases hrest : rest = []
    · simp [hrest]
    · have hpos : 0 < size rest := utf8ByteSize_pos hrest
      rw [Bytewise.size_append] at h
      omega

namespace IsLongestFitting

variable {limit : Nat} {cs front other : List Char}

theorem eq (h : IsLongestFitting limit cs front) (h' : IsLongestFitting limit cs other) :
    front = other := by
  have hlength := Nat.le_antisymm (h'.longest _ h.begins h.fits) (h.longest _ h'.begins h'.fits)
  exact (List.prefix_of_prefix_length_le h.begins h'.begins hlength.le).eq_of_length hlength

/-- Whole characters that end at the limit are the longest that fit. -/
theorem of_size_eq (h : front <+: cs) (hsize : size front = limit) :
    IsLongestFitting limit cs front :=
  { begins := h
    fits := hsize.le
    longest := fun _ hother hfits => length_le_of_size_le hother h (hsize ▸ hfits) }

/-- Where no character ends at the limit, one byte less is as good. -/
theorem of_not_end (h : IsLongestFitting limit cs front)
    (hend : ∀ other, other <+: cs → size other ≠ limit + 1) :
    IsLongestFitting (limit + 1) cs front :=
  { begins := h.begins
    fits := Nat.le_succ_of_le h.fits
    longest := fun other hother hfits =>
      h.longest other hother (Nat.le_of_lt_succ (lt_of_le_of_ne hfits (hend other hother))) }

/-- The next character does not fit, and none has more than four bytes. -/
theorem limit_le (h : IsLongestFitting limit cs front) (hlong : limit < size cs) :
    limit ≤ size front + 3 := by
  obtain ⟨_ | ⟨c, rest⟩, rfl⟩ := h.begins
  · have hfits := h.fits
    rw [List.append_nil] at hlong
    omega
  · by_contra hfar
    have hwidth := c.utf8Size_le_four
    -- so far from the limit the next character would have fitted
    have hbegins : front ++ [c] <+: front ++ c :: rest := ⟨rest, by simp⟩
    have hfits : size (front ++ [c]) ≤ limit := by
      rw [Bytewise.size_append, Bytewise.size_cons, Bytewise.size_nil]
      omega
    simpa using h.longest _ hbegins hfits

end IsLongestFitting

theorem byteLength_eq (cs : List Char) : byteLength cs = size cs := by
  induction cs with
  | nil => rfl
  | cons c cs ih => rw [byteLength, ih, Bytewise.size_cons]

/-- No beginning of the text that fits is longer than the part that is kept. -/
theorem length_le_fitting {limit : Nat} {cs other : List Char} (h : other <+: cs)
    (hfits : size other ≤ limit) : other.length ≤ (fitting limit cs).length := by
  induction cs generalizing limit other with
  | nil =>
    rw [List.prefix_nil.1 h]
    exact Nat.zero_le _
  | cons c cs ih =>
    rcases List.prefix_cons_iff.1 h with rfl | ⟨more, rfl, hmore⟩
    · exact Nat.zero_le _
    · rw [Bytewise.size_cons] at hfits
      have hc : c.utf8Size ≤ limit := by omega
      have hrest : size more ≤ limit - c.utf8Size := by omega
      rw [fitting, if_pos hc, List.length_cons, List.length_cons]
      exact Nat.succ_le_succ (ih hmore hrest)

theorem isLongestFitting_fitting (limit : Nat) (cs : List Char) :
    IsLongestFitting limit cs (fitting limit cs) :=
  { begins := fitting_prefix limit cs
    fits := byteLength_eq (fitting limit cs) ▸ fitting_le limit cs
    longest := fun _ => length_le_fitting }

end Text

namespace Bytewise

open Text

/-- The last boundary of characters that is not behind `i`. To go back from the beginning of the
text is a fault. -/
def boundaryAt (s : String) : Nat → Except Fault Nat
  | 0 => if isBoundary s 0 then .ok 0 else .error (.negative 0 1)
  | i + 1 => if isBoundary s (i + 1) then .ok (i + 1) else boundaryAt s i

/-- A text that is too long, cut at the last boundary within the limit. -/
def clamp (limit : Nat) (s : String) : Except Fault String := do
  if s.utf8ByteSize ≤ limit then return s
  else
    let stop ← boundaryAt s limit
    let front ← slice s 0 stop
    return front ++ "..."

/-- A boundary is where whole characters end that the text begins with. -/
theorem isBoundary_iff {s : String} {i : Nat} :
    isBoundary s i = true ↔ ∃ front, front <+: s.toList ∧ size front = i := by
  constructor
  · intro h
    obtain ⟨front, rest, hs, hsize⟩ := exists_append_of_isBoundary h
    exact ⟨front, ⟨rest, hs.symm⟩, hsize⟩
  · rintro ⟨front, ⟨rest, hs⟩, rfl⟩
    have htext : s = String.ofList front ++ String.ofList rest := by
      rw [← String.ofList_append, hs, String.ofList_toList]
    rw [htext]
    exact isBoundary_append _ _

/-- The search has no fault and ends behind the part that is kept. -/
theorem boundaryAt_eq (s : String) (limit : Nat) :
    boundaryAt s limit = .ok (size (fitting limit s.toList)) := by
  induction limit with
  | zero =>
    have hstart : isBoundary s 0 = true := isBoundary_iff.2 ⟨[], List.nil_prefix, rfl⟩
    have hfits := (isLongestFitting_fitting 0 s.toList).fits
    rw [boundaryAt, if_pos hstart, Nat.le_zero.1 hfits]
  | succ limit ih =>
    have hlongest := isLongestFitting_fitting (limit + 1) s.toList
    rw [boundaryAt]
    split
    · next h =>
      obtain ⟨front, hfront, hsize⟩ := isBoundary_iff.1 h
      rw [hlongest.eq (.of_size_eq hfront hsize), hsize]
    · next h =>
      have hend : ∀ other, other <+: s.toList → size other ≠ limit + 1 :=
        fun other hother hsize => h (isBoundary_iff.2 ⟨other, hother, hsize⟩)
      rw [ih, hlongest.eq ((isLongestFitting_fitting limit s.toList).of_not_end hend)]

theorem clamp_eq (limit : Nat) (s : String) : clamp limit s = .ok (Text.clamp limit s) := by
  unfold clamp Text.clamp
  split
  · rfl
  · obtain ⟨rest, hrest⟩ := (isLongestFitting_fitting limit s.toList).begins
    rw [boundaryAt_eq]
    simp only [bind, Except.bind, slice_front hrest.symm, pure, Except.pure]

/-- A text that fits is kept whole. Of any other the longest part of whole characters that fits is
kept, with three dots behind it. Going back from the limit finds the end of that part without a
fault, at most three bytes before the limit. -/
theorem clamped_to_whole_characters (limit : Nat) (s : String) :
    (s.utf8ByteSize ≤ limit → Text.clamp limit s = s) ∧
    (limit < s.utf8ByteSize → ∃ front, IsLongestFitting limit s.toList front ∧
      Text.clamp limit s = String.ofList front ++ "..." ∧
      boundaryAt s limit = .ok (size front) ∧ limit ≤ size front + 3) ∧
    clamp limit s = .ok (Text.clamp limit s) := by
  refine ⟨fun h => if_pos h, fun h => ?_, clamp_eq limit s⟩
  have hlongest := isLongestFitting_fitting limit s.toList
  refine ⟨fitting limit s.toList, hlongest, if_neg (Nat.not_le.2 h), boundaryAt_eq s limit, ?_⟩
  exact hlongest.limit_le (by rwa [size_toList])

/-- Four bytes are kept whole. With a character of four bytes behind the first one the search goes
back over three. -/
theorem clamped_to_whole_characters_fourBytes :
    Text.clamp 4 "abcd" = "abcd" ∧
      (∃ front, IsLongestFitting 4 "a😀b".toList front ∧
        Text.clamp 4 "a😀b" = String.ofList front ++ "..." ∧
        boundaryAt "a😀b" 4 = .ok (size front) ∧ 4 ≤ size front + 3) ∧
      boundaryAt "a😀b" 4 = .ok 1 := by
  refine ⟨(clamped_to_whole_characters 4 "abcd").1 (by decide),
    (clamped_to_whole_characters 4 "a😀b").2.1 (by decide), ?_⟩
  decide +kernel

end Bytewise

end TokenAtlas
