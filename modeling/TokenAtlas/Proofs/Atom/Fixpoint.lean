import TokenAtlas.Proofs.Atom.Parts

/-! Atoms are atomic. Each splitter is followed through all the splitters that its pieces come
to when they are refined again. Main statement: refining a refined stream changes nothing,
where the source has no opening of a heredoc, whose atom lacks the line break that it must end
in, and no cast with a line break, which becomes part of a blank. -/

namespace TokenAtlas

theorem Token.utf8ByteSize_le_joined {t : Token} {ts : List Token} (h : t ∈ ts) :
    t.text.utf8ByteSize ≤ (Token.joined ts).utf8ByteSize := by
  induction ts with
  | nil => simp at h
  | cons u ts ih =>
    rw [Token.joined_cons, String.utf8ByteSize_append]
    rcases List.mem_cons.1 h with rfl | h
    · exact Nat.le_add_right _ _
    · exact Nat.le_trans (ih h) (Nat.le_add_left _ _)

namespace Atom

open Text

/-- A piece is whole if the splitter for its kind, where there is one, makes nothing of it but
the piece itself. -/
def IsWhole (apart : Bool) (piece : Piece) : Prop :=
  ∀ s, Splitter.ofKind apart piece.1 = some s →
    ∃ ps, s.pieces piece.1 piece.2 = .ok ps ∧ ps.filter (!·.2.isEmpty) = [piece]

theorem refine_of_isWhole {apart : Bool} {t : Token} (hne : t.text.toList ≠ [])
    (hlength : t.text.utf8ByteSize ≤ Limits.tokenLength)
    (h : IsWhole apart (t.kind, t.text.toList)) : refine apart t = .ok [t] := by
  rcases hs : Splitter.ofKind apart t.kind with _ | s
  · exact refine_of_ofKind_none hlength hs
  · obtain ⟨ps, hps, hfilter⟩ := h s hs
    rw [refine_of_pieces hlength hs hps, ← place_filter, hfilter, place_cons,
      if_neg (by simpa using hne), String.ofList_toList]
    rfl

variable {apart : Bool} {k : Kind} {cs : List Char} {ps : List Piece} {piece : Piece}

theorem isWhole_of_ofKind_none (h : Splitter.ofKind apart k = none) : IsWhole apart (k, cs) :=
  fun s hs => absurd (h.symm.trans hs) (Option.some_ne_none s).symm

/-! ### Blanks and lines -/

theorem blankRuns_of_unbroken (hne : cs ≠ []) (h : ∀ c ∈ cs, isBreak c = false) :
    blankRuns cs = [(.whitespace, cs)] := by
  have hchain : cs.IsChain fun a b => (isBreak a == isBreak b) = true :=
    (List.pairwise_iff_getElem.2 fun i j hi hj _ => by
      rw [h _ (List.getElem_mem hi), h _ (List.getElem_mem hj)]
      rfl).isChain
  have hany : cs.any isBreak = false := by simpa using h
  rw [blankRuns, List.splitBy_of_isChain hne hchain, List.map_singleton, hany]
  rfl

theorem isWhole_whitespace (hne : cs ≠ []) (h : ∀ c ∈ cs, isBreak c = false) :
    IsWhole apart (.whitespace, cs) := by
  intro s hs
  obtain rfl : s = .whitespace := (Option.some.inj hs).symm
  refine ⟨[(.whitespace, cs)], ?_, by simp [hne]⟩
  simp [Splitter.pieces, hne, blankRuns_of_unbroken hne h]

theorem isWhole_of_mem_blankRuns (hp : piece ∈ blankRuns cs) : IsWhole apart piece := by
  obtain ⟨run, hrun, rfl⟩ := List.mem_map.1 hp
  rcases hb : run.any isBreak with _ | _
  · exact isWhole_whitespace (List.ne_nil_of_mem_splitBy hrun) (by simpa using hb)
  · exact isWhole_of_ofKind_none rfl

/-- The content of a line is one line. Its margins are gone if they are kept apart. -/
theorem isWhole_content (hk : k.isLined = true) (hne : cs ≠ [])
    (h : ∀ c ∈ cs, isBreak c = false) (hm : apart = true → margins cs = ⟨[], cs, []⟩) :
    IsWhole apart (k, cs) := by
  intro s hs
  obtain rfl := Option.some.inj ((Splitter.ofKind_of_isLined apart hk).symm.trans hs)
  refine ⟨_, rfl, ?_⟩
  rw [lines_of_unbroken hne h]
  cases apart with
  | false => simp [linePieces, hne]
  | true => simp [linePieces, hm rfl, hne]

theorem isWhole_of_mem_linePieces (hk : k.isLined = true) {l : Line}
    (h : ∀ c ∈ l.content, isBreak c = false) (hp : piece ∈ linePieces apart k l)
    (hne : piece.2 ≠ []) : IsWhole apart piece := by
  have hbreak : IsWhole apart (.lineBreak, l.ending) := isWhole_of_ofKind_none rfl
  cases apart with
  | false =>
    simp only [linePieces, Bool.false_eq_true, if_false, List.mem_cons, List.not_mem_nil,
      or_false] at hp
    rcases hp with rfl | rfl
    · exact isWhole_content hk hne h fun hapart => absurd hapart Bool.false_ne_true
    · exact hbreak
  | true =>
    rw [← margins_append l.content] at h
    simp only [List.forall_mem_append] at h
    obtain ⟨hfront, hbody, hback⟩ := h
    simp only [linePieces, if_true, List.mem_cons, List.not_mem_nil, or_false] at hp
    rcases hp with rfl | rfl | rfl | rfl
    · exact isWhole_whitespace hne hfront
    · exact isWhole_content hk hne hbody fun _ => margins_body l.content
    · exact isWhole_whitespace hne hback
    · exact hbreak

/-! ### The other splitters -/

/-- Without a line break the blanks of a cast are whole. Its other pieces are of kinds that are
not split. -/
theorem isWhole_of_mem_castPieces (hbreak : ∀ c ∈ cs, isBreak c = false)
    (h : castPieces cs = .ok ps) (hp : piece ∈ ps) (hne : piece.2 ≠ []) :
    IsWhole apart piece := by
  have hpiece : ∀ c ∈ piece.2, isBreak c = false := fun c hc =>
    hbreak c ((tiles_castPieces h).text ▸ List.mem_flatMap.2 ⟨piece, hp, hc⟩)
  obtain ⟨inner, -, rfl⟩ := castPieces_eq_ok h
  simp only [List.mem_cons, List.not_mem_nil, or_false] at hp
  rcases hp with rfl | rfl | rfl | rfl | rfl
  · exact isWhole_of_ofKind_none rfl
  · exact isWhole_whitespace hne hpiece
  · exact isWhole_of_ofKind_none rfl
  · exact isWhole_whitespace hne hpiece
  · exact isWhole_of_ofKind_none rfl

theorem isWhole_of_mem_attributePieces (h : attributePieces cs = .ok ps) (hp : piece ∈ ps) :
    IsWhole apart piece := by
  obtain ⟨-, rfl⟩ := attributePieces_eq_ok h
  simp only [List.mem_cons, List.not_mem_nil, or_false] at hp
  rcases hp with rfl | rfl
  · exact isWhole_of_ofKind_none rfl
  · exact isWhole_of_ofKind_none rfl

/-- The tag is found again where the text ends behind it. -/
theorem openTagLength?_take {n : Nat} (h : openTagLength? cs = some n) :
    openTagLength? (cs.take n) = some n := by
  rcases openTagLength?_eq_some h with ⟨rfl, h5⟩ | ⟨rfl, h3⟩ | ⟨rfl, h2⟩
  · rw [openTagLength?, List.take_take, Nat.min_self, if_pos h5]
  · rw [h3]
    rfl
  · rw [h2]
    rfl

theorem isWhole_of_mem_openTagPieces (hk : Splitter.ofKind apart k = some .openTag)
    (h : openTagPieces k cs = .ok ps) (hp : piece ∈ ps) : IsWhole apart piece := by
  obtain ⟨n, hn, rfl⟩ := openTagPieces_eq_ok h
  rcases List.mem_cons.1 hp with rfl | hp
  · intro s hs
    obtain rfl := Option.some.inj (hk.symm.trans hs)
    refine ⟨[(k, cs.take n)], ?_, by simp [(take_openTagLength? hn).1]⟩
    have hrest : (cs.take n).drop n = [] := by simp
    simp only [Splitter.pieces, openTagPieces, openTagLength?_take hn, hrest, List.take_take,
      Nat.min_self]
    rfl
  · exact isWhole_of_mem_blankRuns hp

theorem isWhole_of_mem_closeTagPieces (h : closeTagPieces cs = .ok ps) (hp : piece ∈ ps) :
    IsWhole apart piece := by
  obtain ⟨rest, -, rfl⟩ := closeTagPieces_eq_ok h
  simp only [List.mem_cons, List.not_mem_nil, or_false] at hp
  rcases hp with rfl | rfl
  · intro s hs
    obtain rfl : s = .closeTag := (Option.some.inj hs).symm
    exact ⟨_, rfl, rfl⟩
  · exact isWhole_of_ofKind_none rfl

theorem isBreak_of_isIndent {c : Char} (h : isIndent c = true) : isBreak c = false := by
  rw [isIndent, Bool.or_eq_true, decide_eq_true_eq, decide_eq_true_eq] at h
  rcases h with rfl | rfl <;> decide

theorem isWhole_of_mem_heredocEndPieces (h : heredocEndPieces cs = .ok ps) (hp : piece ∈ ps)
    (hne : piece.2 ≠ []) : IsWhole apart piece := by
  obtain ⟨hterminator, rfl⟩ := heredocEndPieces_eq_ok h
  simp only [List.mem_cons, List.not_mem_nil, or_false] at hp
  rcases hp with rfl | rfl
  · exact isWhole_whitespace hne fun c hc => isBreak_of_isIndent (List.mem_takeWhile_imp hc)
  · intro s hs
    obtain rfl : s = .heredocEnd := (Option.some.inj hs).symm
    have hcut : ∀ c ∈ (cs.dropWhile isIndent).head?, isIndent c = false := fun _ =>
      head?_dropWhile
    refine ⟨[(.whitespace, []), (.heredocEnd, cs.dropWhile isIndent)], ?_, by simp [hterminator]⟩
    rw [Splitter.pieces, heredocEndPieces, (cut_of_head? hcut).1, (cut_of_head? hcut).2]
    simp [hterminator]

/-- But for openings of heredocs, and casts with line breaks, all pieces are whole. -/
theorem isWhole_of_mem_pieces {s : Splitter} (hs : Splitter.ofKind apart k = some s)
    (hheredoc : k ≠ .heredocStart) (hcast : k.isCast = true → ∀ c ∈ cs, isBreak c = false)
    (h : s.pieces k cs = .ok ps) (hp : piece ∈ ps) (hne : piece.2 ≠ []) :
    IsWhole apart piece := by
  have hkind := Splitter.kind_of_ofKind hs
  cases s with
  | whitespace =>
    obtain ⟨-, rfl⟩ := pieces_whitespace_eq_ok h
    exact isWhole_of_mem_blankRuns hp
  | cast => exact isWhole_of_mem_castPieces (hcast hkind) h hp hne
  | attributeOpen => exact isWhole_of_mem_attributePieces h hp
  | openTag => exact isWhole_of_mem_openTagPieces hs h hp
  | closeTag => exact isWhole_of_mem_closeTagPieces h hp
  | heredocStart => exact absurd hkind hheredoc
  | heredocEnd => exact isWhole_of_mem_heredocEndPieces h hp hne
  | lines apart' =>
    have hk := Splitter.isLined_of_ofKind hs
    obtain rfl : apart = apart' := by
      simpa using (Splitter.ofKind_of_isLined apart hk).symm.trans hs
    rw [← Except.ok.inj h] at hp
    obtain ⟨l, hl, hp⟩ := List.mem_flatMap.1 hp
    exact isWhole_of_mem_linePieces hk (isBreak_of_mem_content l hl) hp hne

/-! ### Refining again -/

/-- The atoms of a token are not split any further. -/
theorem refine_of_mem_refine {t a : Token} {atoms : List Token}
    (hheredoc : t.kind ≠ .heredocStart)
    (hcast : t.kind.isCast = true → ∀ c ∈ t.text.toList, isBreak c = false)
    (h : refine apart t = .ok atoms) (ha : a ∈ atoms) : refine apart a = .ok [a] := by
  rcases refine_eq_ok h with ⟨-, rfl⟩ | ⟨s, ps, hs, hps, rfl⟩
  · rw [List.mem_singleton.1 ha]
    exact h
  · have hlength : a.text.utf8ByteSize ≤ Limits.tokenLength := by
      refine Nat.le_trans (Token.utf8ByteSize_le_joined ha) ?_
      rw [(covers_of_refine h).joined]
      exact length_le_of_refine h
    obtain ⟨piece, hp, hne, hkind, htext⟩ := mem_place ha
    refine refine_of_isWhole (htext ▸ hne) hlength ?_
    rw [hkind, htext]
    exact isWhole_of_mem_pieces hs hheredoc hcast hps hp hne

theorem atomizeAll_eq_self {ts : List Token} (h : ∀ t ∈ ts, refine apart t = .ok [t]) :
    atomizeAll apart ts = .ok ts := by
  induction ts with
  | nil => rfl
  | cons t rest ih =>
    obtain ⟨ht, hrest⟩ := List.forall_mem_cons.1 h
    rw [atomizeAll_cons, ht, ih hrest]
    rfl

/-- What refining has led to is refined to itself, unless the source has an opening of a heredoc
or a cast with a line break. -/
theorem atomizeAll_atoms {ts atoms : List Token} (hheredoc : ∀ t ∈ ts, t.kind ≠ .heredocStart)
    (hcast : ∀ t ∈ ts, t.kind.isCast = true → ∀ c ∈ t.text.toList, isBreak c = false)
    (h : atomizeAll apart ts = .ok atoms) : atomizeAll apart atoms = .ok atoms := by
  refine atomizeAll_eq_self fun a ha => ?_
  obtain ⟨t, ht, part, hpart, ha⟩ := exists_of_mem_atomizeAll h ha
  exact refine_of_mem_refine (hheredoc t ht) (hcast t ht) hpart ha

/-- Blanks of many kinds: behind a tag, in a cast, and in front of a line and a terminator. -/
def blankRich : List Token :=
  [⟨.openTag, "<?PHP\n", 1, 0⟩, ⟨.intCast, "(\u00a0int)", 2, 6⟩,
    ⟨.docComment, "/**\r\n\u2003é */", 2, 13⟩, ⟨.heredocEnd, "\tEOT", 3, 26⟩]

/-- Twelve atoms come of the four tokens, and of these the same twelve. -/
theorem atomizeAll_atoms_blankRich :
    ∃ atoms : List Token, atomizeAll true blankRich = .ok atoms ∧
      atoms.map (·.text) = ["<?PHP", "\n", "(", "\u00a0", "int", ")", "/**", "\r\n", "\u2003",
        "é */", "\t", "EOT"] ∧
      atomizeAll true atoms = .ok atoms := by
  have htexts : (atomizeAll true blankRich).map (·.map (·.text)) =
      .ok ["<?PHP", "\n", "(", "\u00a0", "int", ")", "/**", "\r\n", "\u2003", "é */", "\t",
        "EOT"] := by
    decide +kernel
  have hall : blankRich.all fun t => !t.kind.isCast || t.text.toList.all (!isBreak ·) := by
    decide +kernel
  have hcast : ∀ t ∈ blankRich, t.kind.isCast = true → ∀ c ∈ t.text.toList, isBreak c = false := by
    simpa [← Bool.not_eq_true, ← imp_iff_not_or] using hall
  rcases h : atomizeAll true blankRich with e | atoms
  · simp [h, Except.map] at htexts
  · rw [h] at htexts
    exact ⟨atoms, rfl, Except.ok.inj htexts, atomizeAll_atoms (by decide) hcast h⟩

end Atom

end TokenAtlas
