import TokenAtlas.Proofs.Atom.Core
import TokenAtlas.Proofs.Text.Breaks

/-! Comments and strings line by line. The atoms of such a token are those of its first line, the
break behind it, and the atoms of the rest. Main statement: whether or not blanks around lines
are kept apart, the line breaks among the atoms are exactly those of the text, no other atom
holds a break character, and between two breaks the atoms make up the same text. -/

namespace TokenAtlas

def Token.isLineBreak (t : Token) : Bool := t.kind = .lineBreak

namespace Atom

open Text

/-! ### One line -/

/-- What stands on a line, in pieces. -/
def contentPieces (apart : Bool) (k : Kind) (body : List Char) : List Piece :=
  if apart then
    let m := margins body
    [(.whitespace, m.front), (k, m.body), (.whitespace, m.back)]
  else [(k, body)]

/-- What stands on a line, in atoms. -/
def contentAtoms (apart : Bool) (k : Kind) (p : Position) (body : List Char) : List Token :=
  place p (contentPieces apart k body)

/-- A line break as an atom. -/
def breakAtom (p : Position) (ending : List Char) : Token :=
  ⟨.lineBreak, String.ofList ending, p.line, p.offset⟩

/-- An atom of a line with its blanks apart: blanks, or a text of the given kind that neither
begins nor ends with a blank. -/
def IsApart (k : Kind) (a : Token) : Prop :=
  a.kind = .whitespace ∧ a.isBlank = true ∨
    a.kind = k ∧ a.isBlank = false ∧ trimString a.text = a.text

/-- One line, once with its blanks apart and once in one atom. -/
def SameLine (k : Kind) (kept whole : List Token) : Prop :=
  kept = [] ∧ whole = [] ∨ ∃ a, whole = [a] ∧ a.kind = k ∧ Token.joined kept = a.text

variable {apart : Bool} {k : Kind} {p : Position} {body ending back cs : List Char}

theorem linePieces_eq (apart : Bool) (k : Kind) (l : Line) :
    linePieces apart k l = contentPieces apart k l.content ++ [(.lineBreak, l.ending)] := by
  cases apart <;> rfl

theorem tiles_contentPieces (apart : Bool) (k : Kind) (body : List Char) :
    Tiles (contentPieces apart k body) body := by
  cases apart with
  | false => simpa [contentPieces] using Tiles.nil.cons k (x := body) (by simp)
  | true => exact tiles_margins .whitespace k .whitespace body

@[simp] theorem contentAtoms_nil : contentAtoms apart k p [] = [] := by
  cases apart <;> rfl

theorem contentAtoms_whole (hbody : body ≠ []) :
    contentAtoms false k p body = [⟨k, String.ofList body, p.line, p.offset⟩] := by
  rw [contentAtoms, contentPieces, if_neg (by decide), place_cons, if_neg (by simpa using hbody)]
  rfl

theorem joined_contentAtoms (apart : Bool) (k : Kind) (p : Position) (body : List Char) :
    Token.joined (contentAtoms apart k p body) = String.ofList body := by
  rw [← String.toList_inj, Token.toList_joined, contentAtoms, texts_place,
    List.flatten_filter_not_isEmpty, (tiles_contentPieces apart k body).flatten,
    String.toList_ofList]

theorem unbroken_of_mem_contentAtoms (hbody : Unbroken body) {a : Token}
    (ha : a ∈ contentAtoms apart k p body) : Unbroken a.text.toList := by
  obtain ⟨piece, hp, -, -, htext⟩ := mem_place ha
  intro c hc
  apply hbody
  rw [← (tiles_contentPieces apart k body).flatten]
  exact List.mem_flatten.2 ⟨_, List.mem_map_of_mem hp, htext ▸ hc⟩

theorem isApart_of_mem_contentAtoms {a : Token} (ha : a ∈ contentAtoms true k p body) :
    IsApart k a := by
  obtain ⟨⟨kind, part⟩, hp, hne, rfl, htext⟩ := mem_place ha
  simp only [contentPieces, if_true, List.mem_cons, List.not_mem_nil, or_false, Prod.mk.injEq] at hp
  rw [IsApart, Token.isBlank, trimString, ← String.toList_inj, String.toList_ofList, htext]
  rcases hp with ⟨hkind, rfl⟩ | ⟨hkind, rfl⟩ | ⟨hkind, rfl⟩
  · exact .inl ⟨hkind, List.all_takeWhile⟩
  · refine .inr ⟨hkind, ?_, congrArg Margins.body (margins_body body)⟩
    obtain ⟨c, rest, hc⟩ := List.exists_cons_of_ne_nil hne
    have hhead : (margins body).body.head? = some c := congrArg List.head? hc
    rw [hc, List.all_cons, head?_margins_body hhead, Bool.false_and]
  · refine .inl ⟨hkind, ?_⟩
    rw [margins, List.all_reverse]
    exact List.all_takeWhile

theorem kind_of_mem_contentAtoms_whole {a : Token} (ha : a ∈ contentAtoms false k p body) :
    a.kind = k := by
  obtain ⟨piece, hp, -, hkind, -⟩ := mem_place ha
  rw [hkind, List.mem_singleton.1 hp]

theorem isLineBreak_of_mem_contentAtoms (hk : k ≠ .lineBreak) {a : Token}
    (ha : a ∈ contentAtoms apart k p body) : a.isLineBreak = false := by
  cases apart with
  | false => simp [Token.isLineBreak, kind_of_mem_contentAtoms_whole ha, hk]
  | true =>
    rcases isApart_of_mem_contentAtoms ha with ⟨hkind, -⟩ | ⟨hkind, -⟩ <;>
      simp [Token.isLineBreak, hkind, hk]

theorem sameLine_contentAtoms (k : Kind) (p : Position) (body : List Char) :
    SameLine k (contentAtoms true k p body) (contentAtoms false k p body) := by
  by_cases hbody : body = []
  · subst hbody
    exact .inl ⟨contentAtoms_nil, contentAtoms_nil⟩
  · exact .inr ⟨_, contentAtoms_whole hbody, rfl, joined_contentAtoms true k p body⟩

/-! ### All lines -/

/-- The atoms of a text line by line. -/
def lineAtoms (apart : Bool) (k : Kind) (p : Position) (cs : List Char) : List Token :=
  place p ((lines cs).flatMap (linePieces apart k))

/-- Behind pieces that make up a text the next ones begin where the text leads. -/
theorem place_append_of_tiles {ps : List Piece} (h : Tiles ps cs) (p : Position)
    (qs : List Piece) :
    place p (ps ++ qs) = place p ps ++ place (p.advance (String.ofList cs)) qs := by
  induction ps generalizing p cs with
  | nil =>
    obtain rfl : [] = cs := h.text
    simp
  | cons piece ps ih =>
    obtain ⟨kind, x⟩ := piece
    obtain ⟨rest, hrest, rfl⟩ : ∃ rest, Tiles ps rest ∧ x ++ rest = cs :=
      ⟨_, ⟨rfl, h.seamless.2⟩, h.text⟩
    have hcut : splitsBreak x rest = false := by
      have := h.seamless.1
      rwa [hrest.flatten] at this
    have hadvance : p.advance (String.ofList (x ++ rest)) =
        (p.advance (String.ofList x)).advance (String.ofList rest) := by
      rw [String.ofList_append, Position.advance_append]
      simpa using hcut
    rw [List.cons_append, place_cons, place_cons, hadvance]
    split
    · next hx =>
      rw [ih hrest, List.isEmpty_iff.1 hx]
      simp
    · rw [ih hrest, List.cons_append]

theorem lineAtoms_unbroken (hcs : Unbroken cs) :
    lineAtoms apart k p cs = contentAtoms apart k p cs := by
  by_cases hnil : cs = []
  · subst hnil
    rw [contentAtoms_nil]
    rfl
  · rw [lineAtoms, lines_of_unbroken hnil hcs, List.flatMap_singleton, linePieces_eq,
      place_append_of_tiles (tiles_contentPieces apart k cs)]
    exact List.append_nil _

/-- The atoms of the first line, its break, and the atoms of the rest. -/
theorem lineAtoms_append (hbody : Unbroken body) (hending : IsEnding ending)
    (hback : splitsBreak ending back = false) :
    lineAtoms apart k p (body ++ (ending ++ back)) =
      contentAtoms apart k p body ++ breakAtom (p.advance (String.ofList body)) ending ::
        lineAtoms apart k (p.advance (String.ofList (body ++ ending))) back := by
  have hadvance : p.advance (String.ofList (body ++ ending)) =
      (p.advance (String.ofList body)).advance (String.ofList ending) := by
    rw [String.ofList_append, Position.advance_append]
    simpa using hbody.splitsBreak_eq ending
  rw [lineAtoms, lines_append hbody hending hback, List.flatMap_cons, linePieces_eq,
    List.append_assoc, place_append_of_tiles (tiles_contentPieces apart k body),
    List.singleton_append, place_cons, if_neg (by simpa using hending.ne_nil), hadvance]
  rfl

/-! ### The breaks among the atoms -/

/-- The line breaks of a text that begins at `p`, all of them and in order. -/
structure AreBreaks (p : Position) (cs : List Char) (breaks : List Token) : Prop where
  mem_iff : ∀ b, b ∈ breaks ↔ ∃ front ending back, cs = front ++ (ending ++ back) ∧
    BreakBetween front ending back ∧ b = breakAtom (p.advance (String.ofList front)) ending
  ordered : breaks.Pairwise (·.offset < ·.offset)
  length_eq : breaks.length = lineBreaks cs

theorem areBreaks_of_unbroken (hcs : Unbroken cs) (p : Position) : AreBreaks p cs [] where
  mem_iff b := by
    refine ⟨fun h => absurd h List.not_mem_nil, ?_⟩
    rintro ⟨front, ending, back, rfl, hbreak, -⟩
    exact absurd hbreak hcs.not_breakBetween
  ordered := .nil
  length_eq := hcs.lineBreaks_eq.symm

theorem AreBreaks.behind_line {breaks : List Token} (hbody : Unbroken body)
    (hending : IsEnding ending) (hback : splitsBreak ending back = false)
    (h : AreBreaks (p.advance (String.ofList (body ++ ending))) back breaks) :
    AreBreaks p (body ++ (ending ++ back))
      (breakAtom (p.advance (String.ofList body)) ending :: breaks) := by
  have hadvance : ∀ {front more}, back = front ++ more →
      p.advance (String.ofList (body ++ (ending ++ front))) =
        (p.advance (String.ofList (body ++ ending))).advance (String.ofList front) := by
    rintro front more rfl
    rw [← List.append_assoc, String.ofList_append, Position.advance_append]
    rw [String.toList_ofList, String.toList_ofList, splitsBreak_append_left _ hending.ne_nil]
    by_cases hfront : front = []
    · simp [hfront]
    · rwa [splitsBreak_append_right _ hfront] at hback
  refine ⟨fun b => ?_, ?_, ?_⟩
  · rw [List.mem_cons, h.mem_iff]
    constructor
    · rintro (rfl | ⟨front, ending', back', hcut, hbreak, rfl⟩)
      · exact ⟨body, ending, back, rfl,
          (breakBetween_iff hbody hending hback rfl).2 (.inl ⟨rfl, rfl, rfl⟩), rfl⟩
      · refine ⟨body ++ (ending ++ front), ending', back', by simp [hcut], ?_, ?_⟩
        · exact (breakBetween_iff hbody hending hback (by simp [hcut])).2
            (.inr ⟨front, rfl, hcut, hbreak⟩)
        · rw [hadvance hcut]
    · rintro ⟨front', ending', back', htext, hbreak, rfl⟩
      rcases (breakBetween_iff hbody hending hback htext).1 hbreak with
        ⟨rfl, rfl, rfl⟩ | ⟨front, rfl, hcut, hbreak⟩
      · exact .inl rfl
      · exact .inr ⟨front, ending', back', hcut, hbreak, by rw [hadvance hcut]⟩
  · refine List.pairwise_cons.2 ⟨fun b hb => ?_, h.ordered⟩
    obtain ⟨front, ending', -, -, -, rfl⟩ := (h.mem_iff b).1 hb
    have hsize := utf8ByteSize_pos hending.ne_nil
    simp only [breakAtom, Position.advance, String.ofList_append, String.utf8ByteSize_append]
    omega
  · rw [List.length_cons, h.length_eq, lineBreaks_append_ending hbody hending hback]

theorem filter_contentAtoms (hk : k ≠ .lineBreak) :
    (contentAtoms apart k p body).filter Token.isLineBreak = [] :=
  List.filter_eq_nil_iff.2 fun a ha => by simp [isLineBreak_of_mem_contentAtoms hk ha]

theorem filter_lineAtoms_append (hk : k ≠ .lineBreak) (hbody : Unbroken body)
    (hending : IsEnding ending) (hback : splitsBreak ending back = false) :
    (lineAtoms apart k p (body ++ (ending ++ back))).filter Token.isLineBreak =
      breakAtom (p.advance (String.ofList body)) ending ::
        (lineAtoms apart k (p.advance (String.ofList (body ++ ending))) back).filter
          Token.isLineBreak := by
  rw [lineAtoms_append hbody hending hback, List.filter_append, filter_contentAtoms hk,
    List.nil_append, List.filter_cons_of_pos rfl]

theorem areBreaks_lineAtoms (apart : Bool) (hk : k ≠ .lineBreak) (p : Position) (cs : List Char) :
    AreBreaks p cs ((lineAtoms apart k p cs).filter Token.isLineBreak) := by
  induction cs using induction_on_breaks generalizing p with
  | unbroken cs hcs =>
    rw [lineAtoms_unbroken hcs, filter_contentAtoms hk]
    exact areBreaks_of_unbroken hcs p
  | broken body ending back hbody hending hback ih =>
    rw [filter_lineAtoms_append hk hbody hending hback]
    exact (ih _).behind_line hbody hending hback

/-- Keeping blanks apart moves no break. -/
theorem filter_lineAtoms (hk : k ≠ .lineBreak) (p : Position) (cs : List Char) (a b : Bool) :
    (lineAtoms a k p cs).filter Token.isLineBreak =
      (lineAtoms b k p cs).filter Token.isLineBreak := by
  induction cs using induction_on_breaks generalizing p with
  | unbroken cs hcs =>
    rw [lineAtoms_unbroken hcs, lineAtoms_unbroken hcs, filter_contentAtoms hk,
      filter_contentAtoms hk]
  | broken body ending back hbody hending hback ih =>
    rw [filter_lineAtoms_append hk hbody hending hback,
      filter_lineAtoms_append hk hbody hending hback, ih]

/-! ### The atoms between the breaks -/

/-- An atom is a break or stands on a line. -/
theorem mem_lineAtoms {a : Token} (ha : a ∈ lineAtoms apart k p cs) :
    a.kind = .lineBreak ∨
      ∃ q body, Unbroken body ∧ a ∈ contentAtoms apart k q body := by
  induction cs using induction_on_breaks generalizing p with
  | unbroken cs hcs => exact .inr ⟨p, cs, hcs, lineAtoms_unbroken hcs ▸ ha⟩
  | broken body ending back hbody hending hback ih =>
    rw [lineAtoms_append hbody hending hback] at ha
    rcases List.mem_append.1 ha with ha | ha
    · exact .inr ⟨p, body, hbody, ha⟩
    · rcases List.mem_cons.1 ha with rfl | ha
      · exact .inl rfl
      · exact ih ha

theorem sameLine_lineAtoms (hk : k ≠ .lineBreak) (p : Position) (cs : List Char) :
    List.Forall₂ (SameLine k) ((lineAtoms true k p cs).splitOnP Token.isLineBreak)
      ((lineAtoms false k p cs).splitOnP Token.isLineBreak) := by
  induction cs using induction_on_breaks generalizing p with
  | unbroken cs hcs =>
    rw [lineAtoms_unbroken hcs, lineAtoms_unbroken hcs,
      List.splitOnP_eq_singleton fun a => isLineBreak_of_mem_contentAtoms hk,
      List.splitOnP_eq_singleton fun a => isLineBreak_of_mem_contentAtoms hk]
    exact .cons (sameLine_contentAtoms k p cs) .nil
  | broken body ending back hbody hending hback ih =>
    rw [lineAtoms_append hbody hending hback, lineAtoms_append hbody hending hback,
      List.splitOnP_append_cons_of_forall_mem
        (fun a => isLineBreak_of_mem_contentAtoms hk) _ rfl,
      List.splitOnP_append_cons_of_forall_mem
        (fun a => isLineBreak_of_mem_contentAtoms hk) _ rfl]
    exact .cons (sameLine_contentAtoms k p body) (ih _)

theorem split_lines (apart : Bool) {t : Token} (h : t.kind.isLined = true) :
    (Splitter.lines apart).split t = .ok (lineAtoms apart t.kind t.position t.text.toList) := by
  rw [Splitter.split, if_pos (Splitter.accepts_of_ofKind (Splitter.ofKind_of_isLined apart h))]
  rfl

/-- A comment or a string is split into lines whether or not blanks around lines are kept apart.
Both ways have the same line breaks, which are all those of the text where it has them, and no
other atom holds a break character. With blanks apart all other atoms are blanks or have no
blanks around them, and else they have the kind of the token. Between two breaks the atoms
that are kept apart make up the text of the one atom of the other way. -/
theorem lines_split_exactly {t : Token} (h : t.kind.isLined = true) :
    ∃ kept whole breaks,
      (Splitter.lines true).split t = .ok kept ∧
      (Splitter.lines false).split t = .ok whole ∧
      kept.filter Token.isLineBreak = breaks ∧
      whole.filter Token.isLineBreak = breaks ∧
      AreBreaks t.position t.text.toList breaks ∧
      (∀ a ∈ kept, a.kind = .lineBreak ∨ Unbroken a.text.toList ∧ IsApart t.kind a) ∧
      (∀ a ∈ whole, a.kind = .lineBreak ∨ Unbroken a.text.toList ∧ a.kind = t.kind) ∧
      List.Forall₂ (SameLine t.kind) (kept.splitOnP Token.isLineBreak)
        (whole.splitOnP Token.isLineBreak) := by
  have hk : t.kind ≠ .lineBreak := fun hk => absurd h (by simp [hk, Kind.isLined])
  refine ⟨_, _, _, split_lines true h, split_lines false h, rfl, ?_, ?_, ?_, ?_, ?_⟩
  · exact filter_lineAtoms hk _ _ false true
  · exact areBreaks_lineAtoms true hk _ _
  · intro a ha
    rcases mem_lineAtoms ha with hbreak | ⟨q, body, hbody, hcontent⟩
    · exact .inl hbreak
    · exact .inr ⟨unbroken_of_mem_contentAtoms hbody hcontent, isApart_of_mem_contentAtoms hcontent⟩
  · intro a ha
    rcases mem_lineAtoms ha with hbreak | ⟨q, body, hbody, hcontent⟩
    · exact .inl hbreak
    · exact .inr ⟨unbroken_of_mem_contentAtoms hbody hcontent,
        kind_of_mem_contentAtoms_whole hcontent⟩
  · exact sameLine_lineAtoms hk _ _

/-- A comment with a pair, a line feed behind an empty line and a carriage return of its own. -/
def spacedComment : Token := ⟨.docComment, "/** \r\n\n  é\r*/", 3, 40⟩

/-- It has three breaks. Each stands on the line that it ends. -/
theorem lines_split_exactly_spacedComment :
    spacedComment.kind.isLined = true ∧
      AreBreaks ⟨40, 3⟩ spacedComment.text.toList
        [⟨.lineBreak, "\r\n", 3, 44⟩, ⟨.lineBreak, "\n", 4, 46⟩, ⟨.lineBreak, "\r", 5, 51⟩] := by
  have hlined : spacedComment.kind.isLined = true := rfl
  have hsplit : (Splitter.lines true).split spacedComment =
      .ok [⟨.docComment, "/**", 3, 40⟩, ⟨.whitespace, " ", 3, 43⟩, ⟨.lineBreak, "\r\n", 3, 44⟩,
        ⟨.lineBreak, "\n", 4, 46⟩, ⟨.whitespace, "  ", 5, 47⟩, ⟨.docComment, "é", 5, 49⟩,
        ⟨.lineBreak, "\r", 5, 51⟩, ⟨.docComment, "*/", 6, 52⟩] := by rfl
  obtain ⟨kept, whole, breaks, hkept, -, rfl, -, hbreaks, -⟩ := lines_split_exactly hlined
  rw [hsplit] at hkept
  rw [← Except.ok.inj hkept] at hbreaks
  exact ⟨hlined, hbreaks⟩

end Atom

end TokenAtlas
