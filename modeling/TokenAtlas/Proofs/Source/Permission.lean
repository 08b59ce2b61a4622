import TokenAtlas.Proofs.Atom.Core
import TokenAtlas.Proofs.Scan.Run
import TokenAtlas.Proofs.Source.Stream

/-! Permission to begin a feature. An opening word is only a name where `::` or `case` is
directly before it. Main statement: if no opening word of a file is one, none of its stream is.
Refining may leave only trivia of a blank string, so a blank string counts for nothing there. -/

namespace TokenAtlas

open Cursor (standing)

/-- The last of some tokens is neither `::` nor `case`, skipped tokens apart. -/
def Permits (skip : Token → Bool) (ts : List Token) : Prop :=
  ∀ t ∈ (ts.filter (!skip ·)).getLast?, t.kind ≠ .doubleColon ∧ t.kind ≠ .caseWord

instance (skip : Token → Bool) (ts : List Token) : Decidable (Permits skip ts) :=
  inferInstanceAs (Decidable (∀ t ∈ (ts.filter (!skip ·)).getLast?,
    t.kind ≠ .doubleColon ∧ t.kind ≠ .caseWord))

/-- No opening word has `::` or `case` directly before it, skipped tokens apart. -/
def Unblocked (skip : Token → Bool) (ts : List Token) : Prop :=
  ∀ i (hi : i < ts.length), (Feature.ofOpener ts[i].kind).isSome = true →
    Permits skip (ts.take i)

instance (skip : Token → Bool) (ts : List Token) : Decidable (Unblocked skip ts) :=
  inferInstanceAs (Decidable (∀ i (hi : i < ts.length),
    (Feature.ofOpener ts[i].kind).isSome = true → Permits skip (ts.take i)))

/-- Tokens of which only trivia may be left in the stream: trivia itself, and blank strings if
the stream is refined. -/
def Token.mayBeTrivia (refined : Bool) (t : Token) : Bool :=
  t.isTrivia || (refined && t.kind.isString && t.isBlank)

theorem Token.ne_of_mayBeTrivia {refined : Bool} {t : Token}
    (h : t.mayBeTrivia refined = true) : t.kind ≠ .doubleColon ∧ t.kind ≠ .caseWord := by
  constructor <;> intro hk <;>
    simp [mayBeTrivia, isTrivia, hk, Kind.isTrivia, Kind.isString] at h

variable {skip : Token → Bool} {as bs : List Token}

theorem permits_append_of_forall (h : ∀ b ∈ bs, skip b = true) :
    Permits skip (as ++ bs) ↔ Permits skip as := by
  have hbs : bs.filter (!skip ·) = [] := List.filter_eq_nil_iff.2 fun b hb => by simp [h b hb]
  rw [Permits, List.filter_append, hbs, List.append_nil, Permits]

theorem permits_append_of_exists (h : ∃ b ∈ bs, skip b = false) :
    Permits skip (as ++ bs) ↔ Permits skip bs := by
  obtain ⟨b, hb, hskip⟩ := h
  have hbs : bs.filter (!skip ·) ≠ [] :=
    List.ne_nil_of_mem (List.mem_filter.2 ⟨hb, by simp [hskip]⟩)
  rw [Permits, List.filter_append, List.getLast?_append_of_ne_nil _ hbs, Permits]

theorem permits_of_ne (h : ∀ b ∈ bs, b.kind ≠ .doubleColon ∧ b.kind ≠ .caseWord) :
    Permits skip bs := fun t ht => h t (List.mem_filter.1 (List.mem_of_getLast? ht)).1

namespace Unblocked

theorem nil : Unblocked skip [] := nofun

theorem of_ne (h : ∀ b ∈ bs, b.kind ≠ .doubleColon ∧ b.kind ≠ .caseWord) : Unblocked skip bs :=
  fun _ _ _ => permits_of_ne fun b hb => h b (List.mem_of_mem_take hb)

theorem of_append (h : Unblocked skip (as ++ bs)) : Unblocked skip as := by
  intro i hi ho
  have hpermits := h i (by simp; omega) (by rwa [List.getElem_append_left hi])
  rwa [List.take_append_of_le_length hi.le] at hpermits

theorem permits {t : Token} (h : Unblocked skip (as ++ t :: bs))
    (ho : (Feature.ofOpener t.kind).isSome = true) : Permits skip as := by
  have hpermits := h as.length (by simp) (by simpa using ho)
  rwa [List.take_left] at hpermits

theorem concat {t : Token} (h : Unblocked skip as)
    (ht : (Feature.ofOpener t.kind).isSome = true → Permits skip as) :
    Unblocked skip (as ++ [t]) := by
  intro i hi ho
  rcases Nat.lt_or_ge i as.length with hlt | hge
  · rw [List.getElem_append_left hlt] at ho
    rw [List.take_append_of_le_length hlt.le]
    exact h i hlt ho
  · obtain rfl : i = as.length := by
      rw [List.length_append, List.length_singleton] at hi
      omega
    rw [List.take_left]
    exact ht (by simpa using ho)

theorem append_of_ofOpener (h : Unblocked skip as)
    (hbs : ∀ b ∈ bs, Feature.ofOpener b.kind = none) : Unblocked skip (as ++ bs) := by
  induction bs generalizing as with
  | nil => rwa [List.append_nil]
  | cons b bs ih =>
    have hb : Feature.ofOpener b.kind = none := hbs b List.mem_cons_self
    rw [List.append_cons]
    exact ih (h.concat fun ho => by simp [hb] at ho) fun u hu => hbs u (List.mem_cons_of_mem _ hu)

end Unblocked

/-! ### In the stream -/

variable {splitting : Option Bool}

/-- Unless it is trivia, or a blank string that is refined, more than trivia stands for a token. -/
theorem Cursor.exists_solid_standing (splitting : Option Bool) {t : Token}
    (htrivia : t.isTrivia = false)
    (hstring : splitting.isSome = true → t.kind.isString = true → t.isBlank = false) :
    ∃ a ∈ standing splitting t, a.isTrivia = false := by
  rcases splitting with _ | apart
  · exact ⟨t, List.mem_singleton_self t, htrivia⟩
  by_cases hcast : t.kind.isCast = true
  · rcases standing_of_isCast (some apart) hcast with hself | ⟨o, inner, c, hs, ho, -⟩
    · exact ⟨t, by simp [hself], htrivia⟩
    · exact ⟨o, by simp [hs], by rw [Token.isTrivia, ho]; rfl⟩
  by_cases hattribute : t.kind = .attributeOpen
  · rcases standing_of_attributeOpen (some apart) hattribute with hself | ⟨mark, o, hs, -, ho⟩
    · exact ⟨t, by simp [hself], htrivia⟩
    · exact ⟨o, by simp [hs], by rw [Token.isTrivia, ho]; rfl⟩
  obtain ⟨a, ha, hk⟩ := exists_mem_standing (some apart) (by simpa using hcast) hattribute htrivia
    (hstring rfl)
  exact ⟨a, ha, by rwa [Token.isTrivia, hk]⟩

theorem Token.mayBeTrivia_of_standing {t : Token}
    (h : ∀ a ∈ standing splitting t, a.isTrivia = true) :
    t.mayBeTrivia splitting.isSome = true := by
  by_contra hskip
  obtain ⟨htrivia, hstring⟩ : t.isTrivia = false ∧
      (splitting.isSome = true → t.kind.isString = true → t.isBlank = false) := by
    simpa [mayBeTrivia] using hskip
  obtain ⟨a, ha, hsolid⟩ := Cursor.exists_solid_standing splitting htrivia hstring
  simp [h a ha] at hsolid

theorem Permits.refined {ts : List Token}
    (h : Permits (Token.mayBeTrivia splitting.isSome) ts) :
    Permits Token.isTrivia (ts.flatMap (standing splitting)) := by
  induction ts using List.reverseRecOn with
  | nil => exact h
  | append_singleton ts t ih =>
    rw [List.flatMap_append, List.flatMap_singleton]
    by_cases hall : ∀ a ∈ standing splitting t, a.isTrivia = true
    · have hskip := Token.mayBeTrivia_of_standing hall
      rw [permits_append_of_forall hall]
      exact ih ((permits_append_of_forall (by simpa using hskip)).1 h)
    · rw [permits_append_of_exists (by simpa using hall)]
      have hne : t.kind ≠ .doubleColon ∧ t.kind ≠ .caseWord := by
        by_cases hskip : t.mayBeTrivia splitting.isSome = true
        · exact Token.ne_of_mayBeTrivia hskip
        · exact (permits_append_of_exists (by simpa using hskip)).1 h t (by simp [hskip])
      exact permits_of_ne fun a ha =>
        ⟨Cursor.ne_of_mem_standing hne.1 (by decide) ha,
          Cursor.ne_of_mem_standing hne.2 (by decide) ha⟩

/-- An opening word of the stream stands for itself. -/
theorem Cursor.standing_of_mem {t a : Token} (ha : a ∈ standing splitting t)
    (ho : (Feature.ofOpener a.kind).isSome = true) : standing splitting t = [t] := by
  have hparts : ∀ k ∈ Atom.partKinds, Feature.ofOpener k = none := by decide
  rcases kind_of_mem_standing_cases ha with hk | hpart
  · rw [hk] at ho
    obtain ⟨f, hf⟩ := Option.isSome_iff_exists.1 ho
    exact standing_of_isAtomic splitting (Kind.isAtomic_of_ofOpener hf)
  · simp [hparts _ hpart] at ho

/-- If no opening word of a file is only a name, then none of its stream is. -/
theorem Unblocked.refined {ts : List Token}
    (h : Unblocked (Token.mayBeTrivia splitting.isSome) ts) :
    Unblocked Token.isTrivia (ts.flatMap (standing splitting)) := by
  induction ts using List.reverseRecOn with
  | nil => exact .nil
  | append_singleton ts t ih =>
    rw [List.flatMap_append, List.flatMap_singleton]
    have hfront := ih h.of_append
    by_cases ho : ∃ a ∈ standing splitting t, (Feature.ofOpener a.kind).isSome = true
    · obtain ⟨a, ha, hopener⟩ := ho
      rw [Cursor.standing_of_mem ha hopener]
      exact hfront.concat fun hopener => (h.permits hopener).refined
    · exact hfront.append_of_ofOpener fun a ha =>
        Option.not_isSome_iff_eq_none.1 fun hopener => ho ⟨a, ha, hopener⟩

/-! ### In a scan -/

theorem Cursor.find?_of_firstKept {skip : Token → Bool} {limit : Nat} {ts rest : List Token}
    {t : Token} (h : firstKept skip limit ts = some (t, rest)) : ts.find? (!skip ·) = some t := by
  induction ts generalizing limit with
  | nil => cases limit <;> simp [firstKept] at h
  | cons u ts ih =>
    cases limit with
    | zero => simp [firstKept] at h
    | succ limit =>
      rw [firstKept] at h
      split at h
      · next hu => rw [List.find?_cons_of_neg (by simp [hu]), ih h]
      · next hu =>
        obtain ⟨rfl, -⟩ := Prod.mk.inj (Option.some.inj h)
        exact List.find?_cons_of_pos (by simpa using hu)

namespace Scanner

theorem opensBehind_of_permits {ts : List Token} (h : Permits Token.isTrivia ts) :
    opensBehind ts.reverse = true := by
  rcases hn : Cursor.nearest Token.isTrivia ts.reverse with _ | ⟨t, rest⟩
  · simp [opensBehind, hn]
  · rw [Permits, List.getLast?_filter] at h
    obtain ⟨hcolon, hcase⟩ := h t (Cursor.find?_of_firstKept hn)
    simp [opensBehind, hn, hcolon, hcase]

theorem permitted_of_unblocked {front back : List Token}
    (h : Unblocked Token.isTrivia (front ++ back)) :
    ∀ x ∈ permitted front.reverse back, x.2 = true ∨ Feature.ofOpener x.1.kind = none := by
  induction back generalizing front with
  | nil => nofun
  | cons t back ih =>
    rw [permitted_cons]
    intro x hx
    rcases List.mem_cons.1 hx with rfl | hx
    · by_cases ho : (Feature.ofOpener t.kind).isSome = true
      · exact .inl (opensBehind_of_permits (h.permits ho))
      · exact .inr (by simpa using ho)
    · exact @ih (front ++ [t]) (by simpa using h) x (by simpa using hx)

end Scanner

end TokenAtlas
