import TokenAtlas.Cursor
import TokenAtlas.Proofs.Atom.Parts

/-! What the tokens of a source put into the plan of a cursor: the atoms of one token after
the other, up to the first refusal the same as refining all of them at once. -/

namespace TokenAtlas.Cursor

open Atom (Refusal Covers)

/-- What stands in the stream for a token of the source: its atoms, or the token itself if
it is refused. -/
def standing (splitting : Option Bool) (t : Token) : List Token :=
  match splitting with
  | none => [t]
  | some apart =>
    match Atom.refine apart t with
    | .ok atoms => atoms
    | .error _ => [t]

/-- Whatever stands for a token tiles it. -/
theorem covers_standing (splitting : Option Bool) (t : Token) :
    Covers t (standing splitting t) := by
  unfold standing
  split
  · exact .self t
  · split
    · next h => exact Atom.covers_of_refine h
    · exact .self t

theorem contribution_of_refine {apart : Bool} {t : Token} {atoms : List Token}
    (h : Atom.refine apart t = .ok atoms) : contribution (some apart) t = atoms.map .ok := by
  simp [contribution, h]

theorem contribution_of_refusal {apart : Bool} {t : Token} {e : Refusal}
    (h : Atom.refine apart t = .error e) : contribution (some apart) t = [.error e] := by
  simp [contribution, h]

/-- A token contributes what stands for it, or its refusal. -/
theorem contribution_cases (splitting : Option Bool) (t : Token) :
    contribution splitting t = (standing splitting t).map .ok ∨
      ∃ e, contribution splitting t = [.error e] := by
  rcases splitting with _ | apart
  · exact .inl rfl
  · rcases h : Atom.refine apart t with e | atoms
    · exact .inr ⟨e, contribution_of_refusal h⟩
    · exact .inl (by simp [contribution, standing, h])

private theorem map_ok_injective :
    Function.Injective (List.map (Except.ok (ε := Refusal) (α := Token))) :=
  List.map_injective_iff.2 fun _ _ h => Except.ok.inj h

/-- The tokens of a plan, up to the first refusal, are those that stand for the source. -/
theorem prefix_of_contributions {splitting : Option Bool} {source ts : List Token}
    {rest : List (Except Refusal Token)}
    (h : source.flatMap (contribution splitting) = ts.map .ok ++ rest) :
    ts <+: source.flatMap (standing splitting) := by
  induction source generalizing ts with
  | nil =>
    obtain ⟨hts, -⟩ := List.append_eq_nil_iff.1 h.symm
    rw [List.map_eq_nil_iff.1 hts]
    exact List.nil_prefix
  | cons t source ih =>
    rw [List.flatMap_cons] at h ⊢
    rcases contribution_cases splitting t with hc | ⟨e, hc⟩
    · rw [hc] at h
      rcases List.append_eq_append_iff.1 h with ⟨front, hts, hrest⟩ | ⟨front, hatoms, -⟩
      · -- the atoms of `t` are all planned, and some of the tokens behind it
        obtain ⟨a, b, rfl, ha, hb⟩ := List.map_eq_append_iff.1 hts
        rw [map_ok_injective ha, List.prefix_append_right_inj]
        exact ih (hb ▸ hrest)
      · obtain ⟨a, b, hab, ha, -⟩ := List.map_eq_append_iff.1 hatoms
        rw [hab, ← map_ok_injective ha, List.append_assoc]
        exact List.prefix_append _ _
    · rw [hc] at h
      rcases ts with _ | ⟨u, ts⟩
      · exact List.nil_prefix
      · simp at h

/-- A plan of nothing but tokens is what stands for the source. -/
theorem eq_of_contributions {splitting : Option Bool} {source ts : List Token}
    (h : source.flatMap (contribution splitting) = ts.map .ok) :
    ts = source.flatMap (standing splitting) := by
  induction source generalizing ts with
  | nil => exact List.map_eq_nil_iff.1 h.symm
  | cons t source ih =>
    rw [List.flatMap_cons] at h ⊢
    obtain ⟨a, b, rfl, ha, hb⟩ := List.map_eq_append_iff.1 h.symm
    rw [← ih hb.symm]
    rcases contribution_cases splitting t with hc | ⟨e, hc⟩
    · rw [hc] at ha
      rw [map_ok_injective ha]
    · rw [hc] at ha
      rcases a with _ | ⟨u, a⟩ <;> simp at ha

/-! ### Refining all at once -/

theorem contributions_of_atomizeAll {apart : Bool} {source atoms : List Token}
    (h : Atom.atomizeAll apart source = .ok atoms) :
    source.flatMap (contribution (some apart)) = atoms.map .ok := by
  obtain ⟨parts, hparts, rfl⟩ := Atom.atomizeAll_eq_ok_iff.1 h
  clear h
  induction hparts with
  | nil => rfl
  | cons ht _ ih =>
    rw [List.flatMap_cons, contribution_of_refine ht, ih, List.flatten_cons, List.map_append]

/-- Where refining all at once fails, some token is the first to be refused. -/
theorem firstRefused_of_atomizeAll {apart : Bool} {source : List Token} {e : Refusal}
    (h : Atom.atomizeAll apart source = .error e) :
    ∃ good bad rest atoms, source = good ++ bad :: rest ∧
      Atom.atomizeAll apart good = .ok atoms ∧ Atom.refine apart bad = .error e := by
  induction source with
  | nil => simp at h
  | cons t rest ih =>
    rw [Atom.atomizeAll_cons] at h
    rcases ht : Atom.refine apart t with e' | new
    · obtain rfl : e' = e := by simpa [ht] using h
      exact ⟨[], t, rest, [], rfl, rfl, ht⟩
    · have hrest : Atom.atomizeAll apart rest = .error e := by
        rcases hr : Atom.atomizeAll apart rest with e' | more
        · simpa [ht, hr, Except.map] using h
        · simp [ht, hr, Except.map] at h
      obtain ⟨good, bad, more, atoms, rfl, hgood, hbad⟩ := ih hrest
      exact ⟨t :: good, bad, more, new ++ atoms, rfl,
        by rw [Atom.atomizeAll_cons, ht, hgood]; rfl, hbad⟩

end TokenAtlas.Cursor
