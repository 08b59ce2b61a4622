import TokenAtlas.Proofs.Text.Bytes

/-! Counting the line breaks of a text that is put together from two. The count can be made on the
bytes of the text, where a carriage return and the line feed behind it are passed in one step.
Main statement: the breaks of the two texts add up, less one where the cut between them goes
through such a pair, and nowhere else does it matter for a position whether the texts are passed
one by one. -/

namespace TokenAtlas

namespace Bytewise

open Text

/-- The line breaks among some bytes, where a pair is one step. -/
def countBreaks : List UInt8 → Nat
  | [] => 0
  | b :: bs =>
    if isBreakByte b then
      countBreaks (if b = 13 && bs.head? = some 10 then bs.tail else bs) + 1
    else countBreaks bs
termination_by bs => bs.length
decreasing_by
  · refine Nat.lt_succ_of_le ?_
    split
    · exact (List.tail_suffix bs).length_le
    · exact le_rfl
  · exact Nat.lt_succ_self _

/-- Bytes of no break are passed. -/
theorem countBreaks_unbroken {bs : List UInt8} (h : ∀ b ∈ bs, isBreakByte b = false)
    (rest : List UInt8) : countBreaks (bs ++ rest) = countBreaks rest := by
  induction bs with
  | nil => rfl
  | cons b bs ih =>
    obtain ⟨hb, hbs⟩ := List.forall_mem_cons.1 h
    rw [List.cons_append, countBreaks, if_neg (by simp [hb]), ih hbs]

/-- A break is one step, whichever way it is written. -/
theorem countBreaks_ending {ending back : List Char} (hending : IsEnding ending)
    (hback : splitsBreak ending back = false) :
    countBreaks (encode (ending ++ back)) = countBreaks (encode back) + 1 := by
  rcases hending with rfl | rfl | rfl
  · have hencode : encode (['\n'] ++ back) = 10 :: encode back := rfl
    rw [hencode, countBreaks, if_pos (by decide), if_neg (by simp)]
  · have hencode : encode (['\r'] ++ back) = 13 :: encode back := rfl
    have hlone : (encode back).head? ≠ some 10 :=
      head?_encode_ne fun hhead => by simp [splitsBreak, hhead] at hback
    rw [hencode, countBreaks, if_pos (by decide), if_neg (by simp [hlone])]
  · have hencode : encode (['\r', '\n'] ++ back) = 13 :: 10 :: encode back := rfl
    rw [hencode, countBreaks, if_pos (by decide), if_pos (by simp), List.tail_cons]

theorem countBreaks_encode (cs : List Char) : countBreaks (encode cs) = lineBreaks cs := by
  induction cs using induction_on_breaks with
  | unbroken cs hcs =>
    rw [← List.append_nil (encode cs), countBreaks_unbroken (isBreakByte_of_unbroken hcs),
      hcs.lineBreaks_eq, countBreaks]
  | broken body ending back hbody hending hback ih =>
    rw [encode_append, countBreaks_unbroken (isBreakByte_of_unbroken hbody),
      countBreaks_ending hending hback, ih, lineBreaks_append_ending hbody hending hback]

end Bytewise

namespace Position

/-- Two texts that are passed one by one are a line further where the cut between them makes two
breaks of one. -/
theorem advance_advance (p : Position) (a b : String) :
    (p.advance a).advance b =
      ⟨(p.advance (a ++ b)).offset, (p.advance (a ++ b)).line +
        if Text.splitsBreak a.toList b.toList then 1 else 0⟩ := by
  have hbreaks := Text.lineBreaks_append a.toList b.toList
  simp only [advance, String.utf8ByteSize_append, String.toList_append, Position.mk.injEq]
  omega

theorem advance_append_iff (p : Position) (a b : String) :
    p.advance (a ++ b) = (p.advance a).advance b ↔
      Text.splitsBreak a.toList b.toList = false := by
  rw [p.advance_advance]
  constructor
  · intro h
    have hline := congrArg Position.line h
    by_contra hsplits
    simp [hsplits] at hline
  · intro h
    rw [h]
    rfl

end Position

namespace Text

theorem splitsBreak_iff (a b : List Char) :
    splitsBreak a b = true ↔ a.getLast? = some '\r' ∧ b.head? = some '\n' := by
  simp [splitsBreak]

/-- The breaks of two texts add up, less one exactly if the cut between them separates a carriage
return from its line feed, and they are as many as a count on the bytes gives. Passing the texts
one by one leads to the position behind the whole exactly if the cut separates no such pair. -/
theorem breaks_add_up (a b : String) :
    (lineBreaks (a ++ b).toList : Int) = lineBreaks a.toList + lineBreaks b.toList -
        (if a.toList.getLast? = some '\r' ∧ b.toList.head? = some '\n' then 1 else 0) ∧
      lineBreaks (a ++ b).toList = Bytewise.countBreaks (Bytewise.bytes (a ++ b)) ∧
      ∀ p : Position, p.advance (a ++ b) = (p.advance a).advance b ↔
        ¬(a.toList.getLast? = some '\r' ∧ b.toList.head? = some '\n') := by
  simp only [← splitsBreak_iff]
  refine ⟨?_, ?_, fun p => ?_⟩
  · have hbreaks := lineBreaks_append a.toList b.toList
    rw [String.toList_append]
    split at hbreaks
    · next h => rw [if_pos h]; omega
    · next h => rw [if_neg h]; omega
  · rw [Bytewise.bytes_eq, Bytewise.countBreaks_encode]
  · rw [p.advance_append_iff, Bool.not_eq_true]

end Text

end TokenAtlas
