import TokenAtlas.Proofs.Feature.Site
import TokenAtlas.Proofs.Scan.Once

/-! The brackets of scanned tokens. A bracket is tagged with the depth that holds at it, so the
opening brackets that wait to be closed carry the depths from the current one downwards. Main
statement: every bracket has one bracket tag, and the two of a pair have the same depth in it. -/

namespace TokenAtlas

def Tag.isBracket : Tag → Bool
  | .bracket .. => true
  | _ => false

/-- The bracket tags of a scanned token. -/
def ScannedToken.brackets (x : ScannedToken) : List Tag := x.tags.filter Tag.isBracket

namespace Classification

theorem filter_keywordTags (t : Token) (category : Category) :
    (keywordTags t category).filter Tag.isBracket = [] := by
  unfold keywordTags
  split <;> rfl

theorem bracketTags_of_bracket {t : Token} {f : Family} {side : Side}
    (h : t.kind.bracket = some (f, side)) (l : Levels) :
    bracketTags t l = [.bracket side f (l.depth f)] := by
  simp only [bracketTags, h]

theorem filter_bracketTags (t : Token) (l : Levels) :
    (bracketTags t l).filter Tag.isBracket = bracketTags t l := by
  unfold bracketTags
  split <;> rfl

theorem filter_nameTags (t : Token) (category : Category) (role : Option SymbolKind)
    (s : Surroundings) : (nameTags t category role s).filter Tag.isBracket = [] := by
  unfold nameTags
  split
  · split
    · cases role <;> rfl
    · rfl
  · split <;> rfl
  · rfl

theorem filter_tagsOf (t : Token) (category : Category) (role : Option SymbolKind)
    (s : Surroundings) :
    (tagsOf t category role s).filter Tag.isBracket = bracketTags t s.levels := by
  simp only [tagsOf, List.filter_append, filter_keywordTags, filter_bracketTags, filter_nameTags,
    List.nil_append, List.append_nil]

end Classification

open Classification

/-- Tokens in turn from the levels `l` on, each with the bracket tags for where it stands. -/
inductive Tagged : Levels → List ScannedToken → Prop
  | nil (l : Levels) : Tagged l []
  | cons {l : Levels} {x : ScannedToken} {rest : List ScannedToken}
      (htags : x.brackets = bracketTags x.token (l.onto x.token.kind))
      (hrest : Tagged (l.past x.token.kind) rest) : Tagged l (x :: rest)

namespace Scanner

theorem levels_surroundings (s : Scanner) (t : Token) :
    (s.surroundings t).levels = s.tracker.settle.levels.onto t.kind :=
  s.tracker.levels_advance t.kind

theorem MovedTo.levels {s d : Scanner} {t : Token} (h : MovedTo s t d) :
    d.tracker.settle.levels = s.tracker.settle.levels.past t.kind := by
  have htracker : d.tracker = s.tracker.advance t.kind := congrArg Course.tracker h.course
  rw [htracker, LevelTracker.settle_advance]

/-- A token is yielded with the bracket tags for where it stands. -/
theorem Unclassified.brackets {s : Scanner} (hs : s.Unclassified) {x : ScannedToken}
    (h : s.next.value = .ok (some x)) :
    x.brackets = bracketTags x.token (s.tracker.settle.levels.onto x.token.kind) := by
  obtain ⟨role, c, hc⟩ := hs.classifies h
  rw [ScannedToken.brackets, hc.tags, filter_tagsOf, levels_surroundings]

theorem Unclassified.tagged_run {s : Scanner} (hs : s.Unclassified) (limit : Nat) :
    Tagged s.tracker.settle.levels (s.run limit).value.1 := by
  induction limit generalizing s with
  | zero => exact .nil _
  | succ limit ih =>
    rw [run_succ]
    rcases hv : s.next.value with e | _ | x
    · exact .nil _
    · exact .nil _
    · exact .cons (hs.brackets hv) ((movedTo_of_yield hv).levels ▸ ih hs.next)

end Scanner

/-! ### Pairs -/

namespace Family

/-- The closing brackets of a family, each with the opening one that it closes. The opening
brackets that wait are on a stack, and other families play no part. -/
def closings (f : Family) :
    List ScannedToken → List ScannedToken → List (Option ScannedToken × ScannedToken)
  | _, [] => []
  | waiting, x :: rest =>
    if x.token.kind.bracket = some (f, .opening) then f.closings (x :: waiting) rest
    else if x.token.kind.bracket = some (f, .closing) then
      (waiting.head?, x) :: f.closings waiting.tail rest
    else f.closings waiting rest

/-- Opening brackets that wait at this depth, the latest first. -/
inductive Waiting (f : Family) : Int → List ScannedToken → Prop
  | nil (depth : Int) : Waiting f depth []
  | cons {depth : Int} {x : ScannedToken} {rest : List ScannedToken}
      (htags : x.brackets = [.bracket .opening f depth]) (hrest : Waiting f (depth - 1) rest) :
      Waiting f depth (x :: rest)

theorem Waiting.tail {f : Family} {depth : Int} {waiting : List ScannedToken}
    (h : f.Waiting depth waiting) : f.Waiting (depth - 1) waiting.tail := by
  cases h with
  | nil => exact .nil _
  | cons _ hrest => exact hrest

theorem Waiting.head {f : Family} {depth : Int} {waiting : List ScannedToken} {x : ScannedToken}
    (h : f.Waiting depth waiting) (hx : waiting.head? = some x) :
    x.brackets = [.bracket .opening f depth] := by
  cases h with
  | nil => exact absurd hx nofun
  | cons htags _ => exact Option.some.inj hx ▸ htags

end Family

namespace Tagged

variable {l : Levels} {xs : List ScannedToken}

theorem brackets_of_mem (h : Tagged l xs) {x : ScannedToken} (hx : x ∈ xs) {f : Family}
    {side : Side} (hk : x.token.kind.bracket = some (f, side)) :
    ∃ depth, x.brackets = [.bracket side f depth] := by
  induction h with
  | nil => exact absurd hx List.not_mem_nil
  | cons htags _ ih =>
    rcases List.mem_cons.1 hx with rfl | hx
    · exact ⟨_, htags.trans (bracketTags_of_bracket hk _)⟩
    · exact ih hx

/-- A bracket that closes another one has the depth of that one in its tag. -/
theorem depth_of_closes (h : Tagged l xs) {f : Family} {waiting : List ScannedToken}
    (hw : f.Waiting (l.depth f) waiting) {x y : ScannedToken}
    (hxy : (some x, y) ∈ f.closings waiting xs) :
    ∃ depth, x.brackets = [.bracket .opening f depth] ∧
      y.brackets = [.bracket .closing f depth] := by
  induction h generalizing waiting with
  | nil => exact absurd hxy List.not_mem_nil
  | @cons l z rest htags _ ih =>
    rw [Family.closings] at hxy
    split_ifs at hxy with hopening hclosing
    · -- it waits one deeper than those that wait already
      rw [bracketTags_of_bracket hopening, l.onto_opening hopening, l.depth_shift_self] at htags
      rw [l.past_opening hopening, l.depth_shift_self] at ih
      exact ih (.cons htags (by rwa [Int.add_sub_cancel])) hxy
    · -- it has the depth of the latest one that waits, and is uncounted only behind it
      rcases List.mem_cons.1 hxy with heq | hxy
      · obtain ⟨hx, rfl⟩ := Prod.mk.inj heq
        rw [bracketTags_of_bracket hclosing, l.onto_closing hclosing] at htags
        exact ⟨_, hw.head hx.symm, htags⟩
      · rw [l.depth_past_closing hclosing] at ih
        exact ih hw.tail hxy
    · have hother : ∀ side, z.token.kind.bracket ≠ some (f, side) := by
        rintro (_ | _) <;> assumption
      rw [l.depth_past_of_ne hother] at ih
      exact ih hw hxy

end Tagged

namespace Scanner

/-- Every bracket has one bracket tag, and the two brackets of a pair have the same depth
in it. -/
theorem bracket_tags_agree (o : ScanOptions) (source : List Token) (limit : Nat) :
    (∀ x ∈ ((ofTokens o source).run limit).value.1, ∀ (f : Family) (side : Side),
      x.token.kind.bracket = some (f, side) → ∃ depth, x.brackets = [.bracket side f depth]) ∧
    ∀ (f : Family) (x y : ScannedToken),
      (some x, y) ∈ f.closings [] ((ofTokens o source).run limit).value.1 →
      ∃ depth, x.brackets = [.bracket .opening f depth] ∧
        y.brackets = [.bracket .closing f depth] := by
  have htagged := (unclassified_ofTokens o source).tagged_run limit
  exact ⟨fun _ hx _ _ hk => htagged.brackets_of_mem hx hk,
    fun _ _ _ hxy => htagged.depth_of_closes (.nil _) hxy⟩

/-- A closing bracket that closes nothing, then a round and a curly pair that cross. -/
def crossing : List Token :=
  [⟨.closeParen, ")", 1, 0⟩, ⟨.openParen, "(", 1, 1⟩, ⟨.openCurly, "\x7b", 1, 2⟩,
    ⟨.closeParen, ")", 1, 3⟩, ⟨.closeCurly, "\x7d", 1, 4⟩]

/-- The round pair is a pair for all that stands in it and in front. -/
theorem bracket_tags_agree_crossing :
    ∃ x y : ScannedToken,
      (some x, y) ∈
        Family.paren.closings [] ((ofTokens ⟨true, true⟩ crossing).run 5).value.1 ∧
      x.index = 1 ∧ y.index = 3 ∧
      ∃ depth, x.brackets = [.bracket .opening .paren depth] ∧
        y.brackets = [.bracket .closing .paren depth] := by
  have hpair : (some ⟨1, ⟨.openParen, "(", 1, 1⟩, .punctuation, [.bracket .opening .paren 0]⟩,
      ⟨3, ⟨.closeParen, ")", 1, 3⟩, .punctuation, [.bracket .closing .paren 0]⟩) ∈
      Family.paren.closings [] ((ofTokens ⟨true, true⟩ crossing).run 5).value.1 := by
    decide +kernel
  exact ⟨_, _, hpair, rfl, rfl,
    (bracket_tags_agree ⟨true, true⟩ crossing 5).2 .paren _ _ hpair⟩

end Scanner

end TokenAtlas
