import Mathlib.Data.List.SplitBy
import TokenAtlas.Proofs.Atom.Splitting
import TokenAtlas.Proofs.Text.Lines
import TokenAtlas.Proofs.Token.Consecutive

/-! Atoms tile their token. Every splitter cuts a text into pieces that append to it again
and are seamless. Main statement: the atoms of a token stand one behind the other from the
token's position on, make up its text, and end where the token ends. -/

namespace TokenAtlas.Atom

open Text

/-- Pieces that make up a text and of which no two share a line break. -/
structure Tiles (ps : List Piece) (cs : List Char) : Prop where
  text : pieceText ps = cs
  seamless : Seamless (ps.map Prod.snd)

namespace Tiles

theorem flatten {ps : List Piece} {cs : List Char} (h : Tiles ps cs) :
    (ps.map Prod.snd).flatten = cs := by
  rw [← List.flatMap_def]
  exact h.text

theorem nil : Tiles [] [] := ⟨rfl, trivial⟩

theorem cons (k : Kind) {x cs : List Char} {ps : List Piece} (h : Tiles ps cs)
    (hx : splitsBreak x cs = false) : Tiles ((k, x) :: ps) (x ++ cs) :=
  ⟨congrArg (x ++ ·) h.text, by rw [h.flatten]; exact hx, h.seamless⟩

theorem append {ps qs : List Piece} {a b : List Char} (hp : Tiles ps a) (hq : Tiles qs b)
    (h : splitsBreak a b = false) : Tiles (ps ++ qs) (a ++ b) := by
  refine ⟨?_, ?_⟩
  · rw [pieceText, List.flatMap_append]
    exact congrArg₂ (· ++ ·) hp.text hq.text
  · rw [List.map_append, seamless_append, hp.flatten, hq.flatten]
    exact ⟨hp.seamless, hq.seamless, h⟩

end Tiles

/-! ### The splitters -/

/-- Of two neighbouring runs only one holds break characters. -/
private theorem seamless_of_runs {runs : List (List Char)}
    (h : runs.IsChain fun a b => ∃ ha hb, (isBreak (a.getLast ha) == isBreak (b.head hb)) = false) :
    Seamless runs := by
  induction runs with
  | nil => trivial
  | cons a rest ih =>
    refine ⟨?_, ih h.tail⟩
    rcases rest with _ | ⟨b, rest⟩
    · simp
    · obtain ⟨ha, hb, hab⟩ := (List.isChain_cons_cons.1 h).1
      rw [List.flatten_cons, splitsBreak_append_right _ hb, splitsBreak,
        List.getLast?_eq_some_getLast ha, List.head?_eq_some_head hb]
      by_contra hc
      simp only [Option.some.injEq, Bool.not_eq_false, Bool.and_eq_true, decide_eq_true_eq] at hc
      rw [hc.1, hc.2] at hab
      exact absurd hab (by decide)

theorem tiles_blankRuns (cs : List Char) : Tiles (blankRuns cs) cs := by
  have hmap : (blankRuns cs).map Prod.snd = cs.splitBy fun a b => isBreak a == isBreak b := by
    simp [blankRuns, Function.comp_def]
  refine ⟨?_, ?_⟩
  · rw [pieceText, List.flatMap_def, hmap, List.flatten_splitBy]
  · rw [hmap]
    exact seamless_of_runs
      (List.isChain_getLast_head_splitBy (fun a b => isBreak a == isBreak b) cs)

/-- The margins of a text as pieces of any kinds. -/
theorem tiles_margins (a b c : Kind) (cs : List Char) :
    Tiles [(a, (margins cs).front), (b, (margins cs).body), (c, (margins cs).back)] cs :=
  ⟨by simpa [pieceText] using margins_append cs, seamless_margins cs⟩

theorem tiles_castPieces {cs : List Char} {ps : List Piece} (h : castPieces cs = .ok ps) :
    Tiles ps cs := by
  obtain ⟨inner, rfl, rfl⟩ := castPieces_eq_ok h
  have hinner := (tiles_margins .whitespace .castType .whitespace inner).append
    (Tiles.nil.cons .closeParen (x := [')']) rfl) (splitsBreak_of_head? _ (by decide))
  simpa using hinner.cons .openParen (x := ['(']) (splitsBreak_of_getLast? (by decide) _)

theorem tiles_attributePieces {cs : List Char} {ps : List Piece}
    (h : attributePieces cs = .ok ps) : Tiles ps cs := by
  obtain ⟨rfl, rfl⟩ := attributePieces_eq_ok h
  exact (Tiles.nil.cons .openSquare (x := ['[']) rfl).cons .attributeMarker (x := ['#']) rfl

theorem tiles_openTagPieces {kind : Kind} {cs : List Char} {ps : List Piece}
    (h : openTagPieces kind cs = .ok ps) : Tiles ps cs := by
  obtain ⟨n, hn, rfl⟩ := openTagPieces_eq_ok h
  have htag := (tiles_blankRuns (cs.drop n)).cons kind
    (splitsBreak_of_getLast? (take_openTagLength? hn).2 _)
  rwa [List.take_append_drop] at htag

theorem tiles_closeTagPieces {cs : List Char} {ps : List Piece} (h : closeTagPieces cs = .ok ps) :
    Tiles ps cs := by
  obtain ⟨rest, rfl, rfl⟩ := closeTagPieces_eq_ok h
  simpa using (Tiles.nil.cons .lineBreak (x := rest) (by simp)).cons .closeTag (x := ['?', '>'])
    (splitsBreak_of_getLast? (by decide) _)

theorem tiles_heredocStartPieces {cs : List Char} {ps : List Piece}
    (h : heredocStartPieces cs = .ok ps) : Tiles ps cs := by
  obtain ⟨opener, ending, rfl, -, hopener, rfl⟩ := heredocStartPieces_eq_ok h
  have hlast : opener.getLast? ≠ some '\r' := fun hlast =>
    absurd (hopener _ (List.mem_of_getLast? hlast)) (by decide)
  simpa using (Tiles.nil.cons .lineBreak (x := ending) (by simp)).cons .heredocStart
    (splitsBreak_of_getLast? hlast _)

theorem tiles_heredocEndPieces {cs : List Char} {ps : List Piece}
    (h : heredocEndPieces cs = .ok ps) : Tiles ps cs := by
  obtain ⟨-, rfl⟩ := heredocEndPieces_eq_ok h
  have hlast : (cs.takeWhile isIndent).getLast? ≠ some '\r' := fun hlast =>
    absurd (List.mem_takeWhile_imp (List.mem_of_getLast? hlast)) (by decide)
  simpa using (Tiles.nil.cons .heredocEnd (x := cs.dropWhile isIndent) (by simp)).cons .whitespace
    (splitsBreak_of_getLast? hlast _)

theorem tiles_linePieces (apart : Bool) (kind : Kind) {l : Line}
    (h : ∀ c ∈ l.content, isBreak c = false) : Tiles (linePieces apart kind l) l.toList := by
  have hl : splitsBreak l.content l.ending = false :=
    splitsBreak_of_getLast? (fun hl => absurd (h _ (List.mem_of_getLast? hl)) (by decide)) _
  have hend : Tiles [(.lineBreak, l.ending)] l.ending := by
    simpa using Tiles.nil.cons .lineBreak (x := l.ending) (by simp)
  unfold linePieces
  split
  · exact (tiles_margins .whitespace kind .whitespace l.content).append hend hl
  · exact hend.cons kind hl

theorem tiles_lines (apart : Bool) (kind : Kind) (cs : List Char) :
    Tiles ((lines cs).flatMap (linePieces apart kind)) cs := by
  have hp : ∀ l ∈ lines cs, ((linePieces apart kind l).map Prod.snd).flatten = l.toList ∧
      Seamless ((linePieces apart kind l).map Prod.snd) := fun l hl =>
    have ht := tiles_linePieces apart kind (isBreak_of_mem_content l hl)
    ⟨ht.flatten, ht.seamless⟩
  obtain ⟨hs, hf⟩ := (seamless_lines cs).refine hp
  rw [← List.map_flatMap] at hs hf
  refine ⟨?_, hs⟩
  rw [pieceText, List.flatMap_def, hf, ← List.flatMap_def, flatMap_lines]

theorem Splitter.tiles_pieces {s : Splitter} {kind : Kind} {cs : List Char} {ps : List Piece}
    (h : s.pieces kind cs = .ok ps) : Tiles ps cs := by
  cases s with
  | whitespace =>
    obtain ⟨-, rfl⟩ := pieces_whitespace_eq_ok h
    exact tiles_blankRuns cs
  | cast => exact tiles_castPieces h
  | attributeOpen => exact tiles_attributePieces h
  | openTag => exact tiles_openTagPieces h
  | closeTag => exact tiles_closeTagPieces h
  | heredocStart => exact tiles_heredocStartPieces h
  | heredocEnd => exact tiles_heredocEndPieces h
  | lines apart => exact Except.ok.inj h ▸ tiles_lines apart kind cs

/-! ### Placing the pieces -/

theorem consecutive_place (p : Position) (ps : List Piece) : Consecutive p (place p ps) := by
  induction ps generalizing p with
  | nil => trivial
  | cons piece rest ih =>
    obtain ⟨kind, cs⟩ := piece
    rw [place_cons]
    split
    · exact ih p
    · exact ⟨rfl, ih _⟩

/-- Empty pieces leave no atom and all others keep their text. -/
theorem texts_place (p : Position) (ps : List Piece) :
    Token.texts (place p ps) = (ps.map Prod.snd).filter (!·.isEmpty) := by
  induction ps generalizing p with
  | nil => rfl
  | cons piece rest ih =>
    obtain ⟨kind, cs⟩ := piece
    rw [place_cons]
    split
    · next h => simp [h, ih]
    · next h => simp [h, ih]

/-- Tokens that stand one behind the other from the position of `t` on, make up its text
and share no line break. -/
structure Covers (t : Token) (atoms : List Token) : Prop where
  consecutive : Consecutive t.position atoms
  flatten : (Token.texts atoms).flatten = t.text.toList
  seamless : Seamless (Token.texts atoms)

theorem Covers.joined {t : Token} {atoms : List Token} (h : Covers t atoms) :
    Token.joined atoms = t.text := by
  rw [← String.toList_inj, Token.toList_joined, h.flatten]

theorem Covers.behind {t : Token} {atoms : List Token} (h : Covers t atoms) :
    t.position.behind atoms = t.position.advance t.text := by
  rw [Position.behind_eq _ h.seamless, h.joined]

theorem Covers.self (t : Token) : Covers t [t] :=
  ⟨⟨rfl, trivial⟩, by simp, by simp [seamless_cons]⟩

theorem Tiles.covers {t : Token} {ps : List Piece} (h : Tiles ps t.text.toList) :
    Covers t (place t.position ps) := by
  refine ⟨consecutive_place _ _, ?_, ?_⟩
  · rw [texts_place, List.flatten_filter_not_isEmpty, h.flatten]
  · rw [texts_place]
    exact h.seamless.filter_ne_nil

/-- The atoms of a token tile it. -/
theorem covers_of_refine {apart : Bool} {t : Token} {atoms : List Token}
    (h : refine apart t = .ok atoms) : Covers t atoms := by
  rcases refine_eq_ok h with ⟨-, rfl⟩ | ⟨s, ps, -, hps, rfl⟩
  · exact Covers.self t
  · exact (Splitter.tiles_pieces hps).covers

theorem text_ne_empty_of_mem_place {p : Position} {ps : List Piece} {a : Token}
    (ha : a ∈ place p ps) : a.text ≠ "" := by
  obtain ⟨piece, -, hne, -, htext⟩ := mem_place ha
  intro hempty
  rw [hempty] at htext
  exact hne htext.symm

/-- The last of some tokens that cover `t` ends where `t` does. -/
theorem Covers.span_stop {t last : Token} {atoms : List Token} (h : Covers t atoms)
    (hlast : atoms.getLast? = some last) : last.span.stop = t.span.stop := by
  obtain ⟨front, rfl⟩ := List.getLast?_eq_some_iff.1 hlast
  have hposition : last.position = t.position.behind front :=
    (consecutive_append.1 h.consecutive).2.1
  have hbehind := h.behind
  rw [Position.behind, List.foldl_append] at hbehind
  change last.position.advance last.text = t.position.advance t.text
  rw [hposition]
  exact hbehind

/-- Refining a seamless row of tokens gives a seamless row of the same text. -/
theorem consecutive_flatMap {atoms : Token → List Token} {p : Position} {ts : List Token}
    (h : Consecutive p ts) (hc : ∀ t ∈ ts, Covers t (atoms t)) :
    Consecutive p (ts.flatMap atoms) := by
  induction ts generalizing p with
  | nil => trivial
  | cons t rest ih =>
    obtain ⟨hp, hrest⟩ := h
    have ht := hc t List.mem_cons_self
    rw [List.flatMap_cons, consecutive_append]
    refine ⟨hp ▸ ht.consecutive, ?_⟩
    rw [← hp, ht.behind, hp]
    exact ih hrest fun u hu => hc u (List.mem_cons_of_mem _ hu)

theorem seamless_flatMap {atoms : Token → List Token} {ts : List Token}
    (h : Seamless (Token.texts ts)) (hc : ∀ t ∈ ts, Covers t (atoms t)) :
    Seamless (Token.texts (ts.flatMap atoms)) ∧
      (Token.texts (ts.flatMap atoms)).flatten = (Token.texts ts).flatten := by
  have := @Seamless.refine Token (·.text.toList) (fun t => Token.texts (atoms t)) ts h
    fun t ht => ⟨(hc t ht).flatten, (hc t ht).seamless⟩
  simpa only [Token.texts, List.map_flatMap] using this

/-- The atoms of a token make up its text and none of them is empty. Each stands where the
texts of the atoms before it, taken as one, lead from the token's position, and the last one
ends where the token does. -/
theorem atoms_tile {apart : Bool} {t : Token} {atoms : List Token}
    (h : atomize apart t = .ok (some atoms)) :
    Token.joined atoms = t.text ∧ (∀ a ∈ atoms, a.text ≠ "") ∧
      (∀ i (hi : i < atoms.length),
        atoms[i].position = t.position.advance (Token.joined (atoms.take i))) ∧
      ∀ last ∈ atoms.getLast?, last.span.stop = t.span.stop := by
  have hcovers := covers_of_refine (refine_of_atomize h)
  obtain ⟨s, ps, -, -, rfl⟩ := atomize_eq_some h
  exact ⟨hcovers.joined, fun a => text_ne_empty_of_mem_place,
    hcovers.consecutive.position_getElem hcovers.seamless, fun _ => hcovers.span_stop⟩

/-- A comment of two lines, the second one indented. -/
def indentedComment : Token := ⟨.docComment, "/**\r\n é */", 7, 100⟩

/-- Its second line begins behind both characters of the line break and a blank. -/
theorem atoms_tile_indentedComment :
    atomize true indentedComment =
        .ok (some [⟨.docComment, "/**", 7, 100⟩, ⟨.lineBreak, "\r\n", 7, 103⟩,
          ⟨.whitespace, " ", 8, 105⟩, ⟨.docComment, "é */", 8, 106⟩]) ∧
      (⟨106, 8⟩ : Position) = indentedComment.position.advance "/**\r\n " ∧
      (⟨.docComment, "é */", 8, 106⟩ : Token).span.stop = indentedComment.span.stop := by
  have h : atomize true indentedComment =
      .ok (some [⟨.docComment, "/**", 7, 100⟩, ⟨.lineBreak, "\r\n", 7, 103⟩,
        ⟨.whitespace, " ", 8, 105⟩, ⟨.docComment, "é */", 8, 106⟩]) := by rfl
  obtain ⟨-, -, hposition, hlast⟩ := atoms_tile h
  exact ⟨h, hposition 3 (by decide), hlast _ rfl⟩

end TokenAtlas.Atom
