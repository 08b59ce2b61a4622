import Mathlib.Algebra.GroupWithZero.Nat
import TokenAtlas.Proofs.Cursor.Stream

/-! What a cursor has taken from its source. Main statement: however far it has looked ahead,
it has counted the tokens in front of the rest of the source and the atoms of those that were
split. -/

namespace TokenAtlas.Cursor

/-- How many atoms a token of the source is split into, none if it passes through or is
refused. -/
def splitCount (splitting : Option Bool) (t : Token) : Nat :=
  match splitting with
  | none => 0
  | some apart =>
    match Atom.atomize apart t with
    | .ok (some atoms) => atoms.length
    | _ => 0

/-- From `c` to `d` the cursor took some more tokens from its source. -/
structure Takes (c d : Cursor) (taken : List Token) : Prop where
  source : c.source = taken ++ d.source
  splitting : d.splitting = c.splitting
  pulled : d.pulled = c.pulled + taken.length
  atoms : d.atoms = c.atoms + (taken.map (splitCount c.splitting)).sum

namespace Takes

variable {c d e : Cursor} {ts us : List Token}

theorem refl (c : Cursor) : Takes c c [] := ⟨rfl, rfl, rfl, rfl⟩

theorem trans (h : Takes c d ts) (h' : Takes d e us) : Takes c e (ts ++ us) where
  source := by rw [h.source, h'.source, List.append_assoc]
  splitting := h'.splitting.trans h.splitting
  pulled := by rw [h'.pulled, h.pulled, List.length_append, Nat.add_assoc]
  atoms := by
    rw [h'.atoms, h.atoms, h.splitting, List.map_append, List.sum_append, Nat.add_assoc]

theorem absorb (c : Cursor) (t : Token) (rest : List Token) :
    Takes { c with source := t :: rest } { c.absorb t with source := rest } [t] := by
  unfold Cursor.absorb
  split
  · next hs => exact ⟨rfl, rfl, rfl, by simp [splitCount, hs]⟩
  · next apart hs =>
    split
    · next ht => exact ⟨rfl, rfl, rfl, by simp [splitCount, hs, ht]⟩
    · next new ht => exact ⟨rfl, rfl, rfl, by simp [splitCount, hs, ht]⟩
    · next e ht => exact ⟨rfl, rfl, rfl, by simp [splitCount, hs, ht]⟩

theorem fillFrom (c : Cursor) (count : Nat) (rest : List Token) :
    ∃ ts, Takes { c with source := rest } (c.fillFrom count rest) ts := by
  induction rest generalizing c with
  | nil => exact ⟨[], .refl _⟩
  | cons t rest ih =>
    unfold Cursor.fillFrom
    split
    · exact ⟨[], .refl _⟩
    · obtain ⟨ts, hts⟩ := ih (c.absorb t)
      exact ⟨t :: ts, (absorb c t rest).trans hts⟩

theorem fill (c : Cursor) (count : Nat) : ∃ ts, Takes c (c.fill count) ts :=
  fillFrom c count c.source

/-- Moving on takes what the queue lacks. -/
theorem advance (c : Cursor) : ∃ ts, Takes c c.advance.2 ts := by
  obtain ⟨ts, hts⟩ := fill c 1
  refine ⟨ts, ?_⟩
  unfold Cursor.advance
  simp only
  split
  · exact ⟨hts.source, hts.splitting, hts.pulled, hts.atoms⟩
  · split
    · exact ⟨hts.source, hts.splitting, hts.pulled, hts.atoms⟩
    · exact hts

end Takes

theorem Looked.takes {c d : Cursor} (h : Looked c d) : ∃ ts, Takes c d ts := by
  induction h with
  | refl => exact ⟨[], .refl c⟩
  | ahead _ n ih =>
    obtain ⟨ts, hts⟩ := ih
    obtain ⟨us, hus⟩ := Takes.fill _ (n + 1)
    exact ⟨ts ++ us, hts.trans hus⟩

/-- At the end of the source everything has been taken. -/
theorem Takes.all {splitting : Option Bool} {source taken : List Token} {c : Cursor}
    (h : Takes (ofTokens splitting source) c taken) (hend : c.source = []) :
    c.pulled = source.length ∧ c.atoms = (source.map (splitCount splitting)).sum := by
  have htaken : source = taken := by simpa [ofTokens, hend] using h.source
  rw [htaken]
  exact ⟨by simpa [ofTokens] using h.pulled, by simpa [ofTokens] using h.atoms⟩

end TokenAtlas.Cursor
