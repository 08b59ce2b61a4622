import TokenAtlas.Proofs.Cursor.Plan
import TokenAtlas.Proofs.Scan.Run

/-! Scanning a refined stream against refining it all at once. The scan refines a token when
it comes to it or looks ahead at it, how far ahead depends on the classification. Main
statement: none of this shows; the scan yields the atoms of refining all at once, up to the
end or to the first token that is refused, and a refusal comes behind all atoms before it. -/

namespace TokenAtlas

/-- The number of atoms of the tokens up to the first that is refused. -/
def Atom.atomCount (apart : Bool) : List Token → Nat
  | [] => 0
  | t :: rest =>
    match refine apart t with
    | .ok atoms => atoms.length + atomCount apart rest
    | .error _ => 0

/-- The atoms of the first tokens of a source are among those counted. -/
theorem Atom.length_le_atomCount {apart : Bool} {front atoms : List Token}
    (h : atomizeAll apart front = .ok atoms) (rest : List Token) :
    atoms.length ≤ atomCount apart (front ++ rest) := by
  induction front generalizing atoms with
  | nil =>
    obtain rfl : [] = atoms := Except.ok.inj h
    exact Nat.zero_le _
  | cons t front ih =>
    rw [atomizeAll_cons] at h
    rcases ht : refine apart t with e | new
    · simp [ht] at h
    · rcases hfront : atomizeAll apart front with e | more
      · simp [ht, hfront, Except.map] at h
      · obtain rfl : new ++ more = atoms := by simpa [ht, hfront, Except.map] using h
        have := ih hfront
        simp only [List.cons_append, atomCount, ht, List.length_append]
        omega

namespace Scanner

open Atom (Refusal)

/-- The scan yields `atoms`, reports a refusal behind them, and then stays as it is. -/
structure HaltsBehind (s : Scanner) (atoms : List Token) (e : Refusal) : Prop where
  yields : ∀ i (hi : i < atoms.length),
    ∃ x, (s.after i).next.value = .ok (some x) ∧ x.index = i ∧ x.token = atoms[i]
  reports : (s.after atoms.length).next.value = .error (.refused atoms.length e)
  rests : ∀ n, atoms.length < n → (s.after n).next.value = .ok none
  products : ∀ n, atoms.length < n → (s.after n).products = (s.after atoms.length).products
  imports : ∀ n, atoms.length < n → (s.after n).imports = (s.after atoms.length).imports
  levels : ∀ n, atoms.length < n → (s.after n).levels = (s.after atoms.length).levels

theorem haltsBehind_of_plan {s : Scanner} {atoms : List Token} {e : Refusal}
    {rest : List (Except Refusal Token)} (hr : s.ending = .running) (hy : s.cursor.yielded = 0)
    (hp : s.cursor.plan = atoms.map .ok ++ .error e :: rest)
    (hn : atoms.length ≤ Limits.tokenCount) : HaltsBehind s atoms e := by
  obtain ⟨hpass, hplan⟩ := passed_of_plan hr hp (by omega)
  obtain ⟨hv, hend, hcourse, himports, hproducts⟩ := next_refusal hpass.running hplan
  -- from the refusal on the scan does not change any more
  have hstays : ∀ n, atoms.length < n → s.after n = (s.after atoms.length).next.scanner := by
    intro n hlt
    obtain ⟨k, rfl⟩ := Nat.exists_eq_add_of_lt hlt
    rw [show atoms.length + k + 1 = (atoms.length + 1) + k by omega, after_add]
    exact after_of_ended (s := s.after (atoms.length + 1)) (by simp [after, hend]) k
  refine ⟨fun i hi => ?_, ?_, fun n hlt => ?_, fun n hlt => ?_, fun n hlt => ?_, fun n hlt => ?_⟩
  · simpa [hy] using yield_of_plan hr hp (by omega) i hi
  · rw [hv, hpass.yielded, hy, Nat.zero_add]
  · rw [hstays n hlt]
    exact (next_of_ended (by simp [hend])).1
  · rw [hstays n hlt, hproducts]
  · rw [hstays n hlt, himports]
  · rw [hstays n hlt]
    exact congrArg (·.tracker.levels) hcourse

/-- A scan of refined tokens agrees with refining them all at once, whether that succeeds
or is refused at some token. -/
theorem scan_agrees_with_atomizeAll (apart : Bool) (source : List Token)
    (hcount : Atom.atomCount apart source ≤ Limits.tokenCount) :
    ((ofTokens ⟨true, apart⟩ source).scanAll.value.2 = none ↔
      ∃ atoms, Atom.atomizeAll apart source = .ok atoms) ∧
    (∀ atoms, Atom.atomizeAll apart source = .ok atoms →
      (ofTokens ⟨true, apart⟩ source).scanAll.value.1.map (·.token) = atoms ∧
      (ofTokens ⟨true, apart⟩ source).scanAll.value.1.map (·.index) =
        List.range atoms.length) ∧
    ∀ good bad rest atoms e, source = good ++ bad :: rest →
      Atom.atomizeAll apart good = .ok atoms → Atom.atomize apart bad = .error e →
      HaltsBehind (ofTokens ⟨true, apart⟩ source) atoms e := by
  have hall : ∀ atoms, Atom.atomizeAll apart source = .ok atoms →
      (ofTokens ⟨true, apart⟩ source).scanAll.value.2 = none ∧
      (ofTokens ⟨true, apart⟩ source).scanAll.value.1.map (·.token) = atoms ∧
      (ofTokens ⟨true, apart⟩ source).scanAll.value.1.map (·.index) =
        List.range atoms.length := by
    intro atoms h
    have hlen := Atom.length_le_atomCount h []
    rw [List.append_nil] at hlen
    rw [List.range_eq_range']
    exact scanAll_of_plan rfl (Cursor.contributions_of_atomizeAll h)
      (by rw [yielded_ofTokens]; omega)
  have hhalt : ∀ good bad rest atoms e, source = good ++ bad :: rest →
      Atom.atomizeAll apart good = .ok atoms → Atom.refine apart bad = .error e →
      atoms.length ≤ Limits.tokenCount ∧ ∃ more,
        (ofTokens ⟨true, apart⟩ source).cursor.plan = atoms.map .ok ++ .error e :: more := by
    rintro good bad rest atoms e rfl hgood hbad
    refine ⟨(Atom.length_le_atomCount hgood _).trans hcount,
      rest.flatMap (Cursor.contribution (some apart)), ?_⟩
    rw [plan_ofTokens, List.flatMap_append, List.flatMap_cons]
    simp only [if_true]
    rw [Cursor.contributions_of_atomizeAll hgood, Cursor.contribution_of_refusal hbad]
    rfl
  refine ⟨⟨fun h => ?_, fun ⟨atoms, h⟩ => (hall atoms h).1⟩, fun atoms h => (hall atoms h).2, ?_⟩
  · rcases hall' : Atom.atomizeAll apart source with e | atoms
    · obtain ⟨good, bad, rest, atoms, hs, hgood, hbad⟩ := Cursor.firstRefused_of_atomizeAll hall'
      obtain ⟨hlen, more, hp⟩ := hhalt good bad rest atoms e hs hgood hbad
      rw [scanAll_of_refusal rfl hp (by rw [yielded_ofTokens]; omega)] at h
      exact absurd h nofun
    · exact ⟨atoms, rfl⟩
  · intro good bad rest atoms e hs hgood hbad
    have hrefine : Atom.refine apart bad = .error e := by simp [Atom.refine, hbad, Except.map]
    obtain ⟨hlen, more, hp⟩ := hhalt good bad rest atoms e hs hgood hrefine
    exact haltsBehind_of_plan rfl rfl hp hlen

/-- Behind a blank line, which has two atoms, a cast without its brackets is refused. -/
theorem scan_agrees_with_atomizeAll_bare_cast :
    Atom.atomCount false [⟨.whitespace, " \n", 1, 0⟩, ⟨.intCast, "int", 2, 2⟩] ≤
      Limits.tokenCount ∧
    HaltsBehind
      (ofTokens ⟨true, false⟩ [⟨.whitespace, " \n", 1, 0⟩, ⟨.intCast, "int", 2, 2⟩])
      [⟨.whitespace, " ", 1, 0⟩, ⟨.lineBreak, "\n", 1, 1⟩]
      (.malformed .cast "int" .castNotInParens ⟨2, 2⟩) :=
  ⟨by decide,
    (scan_agrees_with_atomizeAll false
      [⟨.whitespace, " \n", 1, 0⟩, ⟨.intCast, "int", 2, 2⟩] (by decide)).2.2
      [⟨.whitespace, " \n", 1, 0⟩] ⟨.intCast, "int", 2, 2⟩ [] _ _ rfl (by decide) (by decide)⟩

end Scanner

end TokenAtlas
