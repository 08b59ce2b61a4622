import TokenAtlas.Proofs.Atom.Tiling
import TokenAtlas.Proofs.Text.Bytes

/-! Splitting by bytes. Each splitter computes the offsets at which it cuts a text from the
lengths of the parts in bytes. Main statement: no token of any kind and text makes it cut where
a slice cannot be taken, the atoms always make up the text, and what comes out is what the
splitters on characters give. -/

namespace TokenAtlas.Bytewise

open Text
open Atom (Defect Piece Refusal Splitter)

/-! ### The splitters -/

/-- A text cut into its blank margins and what stands between them. -/
def marginSlices (s : String) : Except Fault Margins := do
  let leading ← minus s.utf8ByteSize (String.ofList (trimStart s.toList)).utf8ByteSize
  let front ← slice s 0 leading
  let back ← slice s (leading + (trimString s).utf8ByteSize) s.utf8ByteSize
  return ⟨front.toList, (trimString s).toList, back.toList⟩

def runPieces (s : String) : Except Fault (List Piece) := do
  let found ← runs s
  return found.map fun run => (if run.1 then .lineBreak else .whitespace, run.2.toList)

def castPieces (s : String) : Except Fault (Except Defect (List Piece)) := do
  if s.utf8ByteSize < 3 || s.toList.head? != some '(' || s.toList.getLast? != some ')' then
    return .error .castNotInParens
  let inner ← slice s 1 (← minus s.utf8ByteSize 1)
  if (trimString inner).isEmpty then
    return .error .castWithoutType
  let m ← marginSlices inner
  return .ok [(.openParen, ['(']), (.whitespace, m.front), (.castType, m.body),
    (.whitespace, m.back), (.closeParen, [')'])]

/-- The length of the tag at the start of a text. Where the first five bytes are not whole
characters there is no long tag. -/
def openTagLength? (s : String) : Option Nat :=
  if (slice s 0 5).toOption.any (·.toList.map Char.toLower = ['<', '?', 'p', 'h', 'p']) then some 5
  else if ['<', '?', '='].isPrefixOf s.toList then some 3
  else if ['<', '?'].isPrefixOf s.toList then some 2
  else none

def openTagPieces (k : Kind) (s : String) : Except Fault (Except Defect (List Piece)) :=
  match openTagLength? s with
  | none => return .error .openTagSpelling
  | some n => do
    let rest ← slice s n s.utf8ByteSize
    if !rest.toList.all isBlank then
      return .error .openTagContinued
    let tag ← slice s 0 n
    let blanks ← runPieces rest
    return .ok ((k, tag.toList) :: blanks)

/-- The length of the line break at the start of a text. -/
def firstBreak (s : String) : Nat :=
  if ['\r', '\n'].isPrefixOf s.toList then 2
  else if s.toList.head?.any isBreak then 1
  else 0

def closeTagPieces (s : String) : Except Fault (Except Defect (List Piece)) := do
  if !(['?', '>'].isPrefixOf s.toList) then
    return .error .closeTagSpelling
  let rest ← slice s 2 s.utf8ByteSize
  if firstBreak rest ≠ rest.utf8ByteSize then
    return .error .closeTagContinued
  return .ok [(.closeTag, ['?', '>']), (.lineBreak, rest.toList)]

/-- The length of the line break at the end of a text. -/
def lastBreak (s : String) : Nat :=
  if ['\r', '\n'].isSuffixOf s.toList then 2
  else if s.toList.getLast?.any isBreak then 1
  else 0

def heredocStartPieces (s : String) : Except Fault (Except Defect (List Piece)) := do
  if lastBreak s = 0 then
    return .error .heredocLineOpen
  let identifier ← slice s 0 (← minus s.utf8ByteSize (lastBreak s))
  if identifier.isEmpty || identifier.toList.any isBreak then
    return .error .heredocNotOneLine
  let ending ← slice s identifier.utf8ByteSize s.utf8ByteSize
  return .ok [(.heredocStart, identifier.toList), (.lineBreak, ending.toList)]

def heredocEndPieces (s : String) : Except Fault (Except Defect (List Piece)) := do
  let terminator := String.ofList (s.toList.dropWhile Atom.isIndent)
  if terminator.isEmpty then
    return .error .heredocEndMissing
  let indent ← slice s 0 (← minus s.utf8ByteSize terminator.utf8ByteSize)
  return .ok [(.whitespace, indent.toList), (.heredocEnd, terminator.toList)]

/-- One line of a comment or a string, with the break behind it. -/
def linePieces (apart : Bool) (k : Kind) (line : String × String) : Except Fault (List Piece) := do
  if !apart then
    return [(k, line.1.toList), (.lineBreak, line.2.toList)]
  if (trimString line.1).isEmpty then
    return [(.whitespace, line.1.toList), (.lineBreak, line.2.toList)]
  let m ← marginSlices line.1
  return [(.whitespace, m.front), (k, m.body), (.whitespace, m.back), (.lineBreak, line.2.toList)]

def pieces (s : Splitter) (k : Kind) (text : String) :
    Except Fault (Except Defect (List Piece)) :=
  match s with
  | .whitespace => do
    if text.isEmpty then
      return .error .emptyWhitespace
    return .ok (← runPieces text)
  | .cast => castPieces text
  | .attributeOpen => return Atom.attributePieces text.toList
  | .openTag => openTagPieces k text
  | .closeTag => closeTagPieces text
  | .heredocStart => heredocStartPieces text
  | .heredocEnd => heredocEndPieces text
  | .lines apart => do
    let found ← (← segments text).mapM (linePieces apart k)
    return .ok found.flatten

/-- Split a token by a given splitter. -/
def split (s : Splitter) (t : Token) : Except Fault (Except Refusal (List Token)) := do
  if s.accepts t.kind then
    match ← pieces s t.kind t.text with
    | .ok ps => return .ok (Atom.place t.position ps)
    | .error defect => return .error (.malformed s t.text defect t.position)
  else return .error (.wrongKind s t.kind t.position)

/-- The atoms of a token, or `none` for a token that passes through. That the atoms make up its
text is asserted. -/
def atomize (apart : Bool) (t : Token) : Except Fault (Except Refusal (Option (List Token))) := do
  if Limits.tokenLength < t.text.utf8ByteSize then
    return .error (.tooLong t.text.utf8ByteSize t.line)
  match Splitter.ofKind apart t.kind with
  | none => return .ok none
  | some s =>
    match ← split s t with
    | .error e => return .error e
    | .ok atoms =>
      if Token.joined atoms ≠ t.text then
        throw (.lostText t.text)
      return .ok (if atoms = [t] then none else some atoms)

/-! ### What they take -/

theorem marginSlices_eq (s : String) : marginSlices s = .ok (margins s.toList) := by
  have hcut : s.toList = (margins s.toList).front ++ ((margins s.toList).body ++
      (margins s.toList).back) := (margins_append _).symm
  have htrim : s.toList = (margins s.toList).front ++ trimStart s.toList :=
    List.takeWhile_append_dropWhile.symm
  have hleading : minus s.utf8ByteSize (String.ofList (trimStart s.toList)).utf8ByteSize =
      .ok (size (margins s.toList).front) := by
    rw [← size_toList s, htrim, size_append, ← htrim]
    exact minus_eq _ _
  have hback : slice s (size (margins s.toList).front + (trimString s).utf8ByteSize)
      s.utf8ByteSize = .ok (String.ofList (margins s.toList).back) := by
    have := slice_back (hcut.trans (List.append_assoc _ _ _).symm)
    rwa [size_append] at this
  rw [marginSlices, hleading]
  simp only [bind, Except.bind, pure, Except.pure]
  simp only [slice_front hcut, hback, String.toList_ofList]
  rw [trimString, String.toList_ofList]
  rfl

theorem runPieces_eq (s : String) : runPieces s = .ok (Atom.blankRuns s.toList) := by
  rw [runPieces, runs_eq]
  simp [Atom.blankRuns, bind, Except.bind, pure, Except.pure, Function.comp_def]

theorem isEmpty_ofList (cs : List Char) : (String.ofList cs).isEmpty = cs.isEmpty := by
  rw [Bool.eq_iff_iff, String.isEmpty_iff, List.isEmpty_iff, ← String.toList_inj,
    String.toList_ofList]
  rfl

theorem isEmpty_trimString (s : String) :
    (trimString s).isEmpty = (margins s.toList).body.isEmpty := isEmpty_ofList _

/-- Something stands between round brackets. -/
def InParens (cs : List Char) : Prop := ∃ inner, inner ≠ [] ∧ cs = '(' :: (inner ++ [')'])

theorem castPieces_of_not_inParens {cs : List Char} (h : ¬ InParens cs) :
    Atom.castPieces cs = .error .castNotInParens := by
  unfold Atom.castPieces
  split
  · next rest =>
    simp only
    split
    · next hclose =>
      simp only [Bool.and_eq_true, decide_eq_true_eq, Bool.not_eq_true'] at hclose
      obtain ⟨inner, rfl⟩ := List.getLast?_eq_some_iff.1 hclose.1
      rw [List.dropLast_concat] at hclose
      exact absurd ⟨inner, by simpa using hclose.2, rfl⟩ h
    · rfl
  · rfl

theorem castPieces_of_inParens {inner : List Char} (hne : inner ≠ []) :
    Atom.castPieces ('(' :: (inner ++ [')'])) =
      if (margins inner).body.isEmpty then .error .castWithoutType
      else .ok [(.openParen, ['(']), (.whitespace, (margins inner).front),
        (.castType, (margins inner).body), (.whitespace, (margins inner).back),
        (.closeParen, [')'])] := by
  simp [Atom.castPieces, hne]

/-- A text of three bytes between brackets has something between them. -/
theorem not_inParens_iff (s : String) :
    (s.utf8ByteSize < 3 || s.toList.head? != some '(' || s.toList.getLast? != some ')') = true ↔
      ¬ InParens s.toList := by
  rw [← not_iff_not, Bool.not_eq_true, not_not]
  simp only [Bool.or_eq_false_iff, decide_eq_false_iff_not, bne_eq_false_iff_eq]
  constructor
  · rintro ⟨⟨hlong, hopen⟩, hclose⟩
    obtain ⟨rest, hs⟩ := List.head?_eq_some_iff.1 hopen
    obtain ⟨front, hfront⟩ := List.getLast?_eq_some_iff.1 hclose
    rcases front with _ | ⟨c, inner⟩
    · rw [hs] at hfront
      exact absurd (List.cons.inj hfront).1 (by decide)
    · obtain rfl : '(' = c := (List.cons.inj (hs.symm.trans hfront)).1
      refine ⟨inner, fun hnil => hlong ?_, hfront⟩
      rw [← size_toList, hfront, hnil]
      decide
  · rintro ⟨inner, hne, hs⟩
    have hpos : 0 < size inner := utf8ByteSize_pos hne
    have hsize : 3 ≤ s.utf8ByteSize := by
      rw [← size_toList, hs, size_cons, size_append]
      change 3 ≤ 1 + (size inner + 1)
      omega
    exact ⟨⟨Nat.not_lt.2 hsize, by rw [hs]; rfl⟩, by
      rw [hs, ← List.cons_append, List.getLast?_concat]⟩

theorem castPieces_eq (s : String) : castPieces s = .ok (Atom.castPieces s.toList) := by
  by_cases hcast : InParens s.toList
  · have hguard := mt (not_inParens_iff s).1 (not_not.2 hcast)
    obtain ⟨inner, hne, hs⟩ := hcast
    have hsize : s.utf8ByteSize = 1 + size inner + 1 := by
      rw [← size_toList, hs, size_cons, size_append]
      exact (Nat.add_assoc _ _ _).symm
    have hminus : minus s.utf8ByteSize 1 = .ok (1 + size inner) := hsize ▸ minus_eq _ _
    have hinner : slice s 1 (1 + size inner) = .ok (String.ofList inner) :=
      slice_eq (a := ['(']) (c := [')']) hs
    rw [castPieces, if_neg hguard, hminus, hs, castPieces_of_inParens hne]
    simp only [bind, Except.bind, pure, Except.pure, hinner, isEmpty_trimString, marginSlices_eq,
      String.toList_ofList]
    split <;> rfl
  · rw [castPieces, if_pos ((not_inParens_iff s).2 hcast), castPieces_of_not_inParens hcast]
    rfl

/-- The letters with a lower case are of one byte, in either case. -/
theorem utf8Size_toLower (c : Char) : c.toLower.utf8Size = c.utf8Size := by
  unfold Char.toLower
  split
  · next hupper =>
    have hc : c.val.toNat ≤ 90 := UInt32.le_iff_toNat_le.1 hupper.2
    have hlower : (c.val + ('a'.val - 'A'.val)).toNat = c.val.toNat + 32 := by
      have hshift : ('a'.val - 'A'.val).toNat = 32 := by decide
      rw [UInt32.toNat_add, hshift]
      omega
    have hone : c.utf8Size = 1 := by
      rw [Char.utf8Size_eq_one_iff, UInt32.le_iff_toNat_le]
      exact hc.trans (by decide)
    rw [hone, Char.utf8Size_eq_one_iff, UInt32.le_iff_toNat_le]
    change (c.val + ('a'.val - 'A'.val)).toNat ≤ 127
    omega
  · rfl

theorem size_map_toLower (cs : List Char) : size (cs.map Char.toLower) = size cs := by
  induction cs with
  | nil => rfl
  | cons c cs ih => rw [List.map_cons, size_cons, size_cons, ih, utf8Size_toLower]

theorem isPrefixOf_eq_take (front cs : List Char) :
    front.isPrefixOf cs = decide (cs.take front.length = front) := by
  rw [Bool.eq_iff_iff, List.isPrefixOf_iff_prefix, List.prefix_iff_eq_take, decide_eq_true_eq,
    eq_comm]

/-- Five bytes are the long tag when they are five characters that spell it. -/
theorem longTag_eq (s : String) :
    (slice s 0 5).toOption.any (·.toList.map Char.toLower = ['<', '?', 'p', 'h', 'p']) =
      decide ((s.toList.take 5).map Char.toLower = ['<', '?', 'p', 'h', 'p']) := by
  have hfive : size ['<', '?', 'p', 'h', 'p'] = 5 := by decide
  rw [Bool.eq_iff_iff, decide_eq_true_eq]
  constructor
  · intro h
    rcases hslice : slice s 0 5 with fault | tag
    · simp [hslice, Except.toOption] at h
    · have hfits : Slice.Fits ⟨s, 0, 5⟩ := by
        by_contra hnot
        simp [slice, hnot] at hslice
      obtain ⟨front, back, hs, hsize⟩ := exists_append_of_isBoundary hfits.stop
      have hfront := slice_front hs
      rw [show size front = 5 from hsize, hslice] at hfront
      obtain rfl := Except.ok.inj hfront
      have htag : front.map Char.toLower = ['<', '?', 'p', 'h', 'p'] := by
        simpa [hslice, Except.toOption] using h
      have hlength : front.length = 5 := by simpa using congrArg List.length htag
      rw [hs, ← hlength, List.take_left, htag]
  · intro h
    have hsize : size (s.toList.take 5) = 5 := by rw [← size_map_toLower, h, hfive]
    have hslice := slice_front (List.take_append_drop 5 s.toList).symm
    rw [hsize] at hslice
    simp [hslice, Except.toOption, h]

theorem openTagLength?_eq (s : String) : openTagLength? s = Atom.openTagLength? s.toList := by
  simp only [openTagLength?, longTag_eq, isPrefixOf_eq_take, Atom.openTagLength?,
    decide_eq_true_eq, List.length_cons, List.length_nil]

theorem size_take_openTagLength? {cs : List Char} {n : Nat}
    (h : Atom.openTagLength? cs = some n) : size (cs.take n) = n := by
  rcases Atom.openTagLength?_eq_some h with ⟨rfl, htag⟩ | ⟨rfl, htag⟩ | ⟨rfl, htag⟩
  · rw [← size_map_toLower, htag]
    decide
  · rw [htag]
    decide
  · rw [htag]
    decide

theorem openTagPieces_eq (k : Kind) (s : String) :
    openTagPieces k s = .ok (Atom.openTagPieces k s.toList) := by
  rw [openTagPieces, openTagLength?_eq, Atom.openTagPieces]
  rcases hn : Atom.openTagLength? s.toList with _ | n
  · rfl
  · have hsize := size_take_openTagLength? hn
    have hcut : s.toList = s.toList.take n ++ s.toList.drop n := (List.take_append_drop n _).symm
    have hrest := slice_back hcut
    have htag := slice_front hcut
    rw [hsize] at hrest htag
    simp only [hrest, htag, runPieces_eq, String.toList_ofList, bind, Except.bind, pure,
      Except.pure]
    by_cases hblank : (s.toList.drop n).all isBlank = true <;> simp [hblank]

/-- A text is as long as the break it begins with when it is empty or that break. -/
theorem firstBreak_eq_size_iff (cs : List Char) :
    firstBreak (String.ofList cs) = (String.ofList cs).utf8ByteSize ↔
      cs ∈ [[], ['\n'], ['\r'], ['\r', '\n']] := by
  constructor
  · intro h
    change _ = size cs at h
    rw [firstBreak, String.toList_ofList, isPrefixOf_eq_take] at h
    rcases cs with _ | ⟨c, _ | ⟨d, cs⟩⟩
    · simp
    · have hc := c.utf8Size_pos
      rw [size_cons, size_nil] at h
      have hbreak : isBreak c = true := by
        by_contra hno
        simp [hno] at h
        omega
      rw [isBreak, Bool.or_eq_true, decide_eq_true_eq, decide_eq_true_eq] at hbreak
      rcases hbreak with rfl | rfl <;> simp
    · have hc := c.utf8Size_pos
      have hd := d.utf8Size_pos
      rw [size_cons, size_cons] at h
      split at h
      · next hpair =>
        obtain ⟨rfl, rfl⟩ : c = '\r' ∧ d = '\n' := by simpa using hpair
        have hnil : cs = [] := by
          by_contra hne
          have : 0 < size cs := utf8ByteSize_pos hne
          omega
        simp [hnil]
      · split at h <;> omega
  · simp only [List.mem_cons, List.not_mem_nil, or_false]
    rintro (rfl | rfl | rfl | rfl) <;> decide

theorem closeTagPieces_eq (s : String) : closeTagPieces s = .ok (Atom.closeTagPieces s.toList) := by
  by_cases htag : ['?', '>'].isPrefixOf s.toList = true
  · obtain ⟨rest, hs⟩ := List.isPrefixOf_iff_prefix.1 htag
    have hrest : slice s 2 s.utf8ByteSize = .ok (String.ofList rest) := slice_back hs.symm
    have hmodel : Atom.closeTagPieces s.toList =
        if rest ∈ [[], ['\n'], ['\r'], ['\r', '\n']] then
          .ok [(.closeTag, ['?', '>']), (.lineBreak, rest)]
        else .error .closeTagContinued := by
      rw [← hs]
      rfl
    rw [closeTagPieces, htag, hmodel]
    simp only [hrest, bind, Except.bind, pure, Except.pure, Bool.not_true, Bool.false_eq_true,
      if_false, String.toList_ofList]
    by_cases hbreak : rest ∈ [[], ['\n'], ['\r'], ['\r', '\n']]
    · rw [if_pos hbreak, if_neg (not_not.2 ((firstBreak_eq_size_iff rest).2 hbreak))]
    · rw [if_neg hbreak, if_pos (mt (firstBreak_eq_size_iff rest).1 hbreak)]
  · have hmodel : Atom.closeTagPieces s.toList = .error .closeTagSpelling := by
      unfold Atom.closeTagPieces
      split
      · next hs => exact absurd (by rw [hs]; rfl) htag
      · rfl
    rw [closeTagPieces, Bool.eq_false_iff.2 htag, hmodel]
    rfl

theorem heredocEndPieces_eq (s : String) :
    heredocEndPieces s = .ok (Atom.heredocEndPieces s.toList) := by
  have hcut : s.toList = s.toList.takeWhile Atom.isIndent ++ s.toList.dropWhile Atom.isIndent :=
    List.takeWhile_append_dropWhile.symm
  have hminus :
      minus s.utf8ByteSize (String.ofList (s.toList.dropWhile Atom.isIndent)).utf8ByteSize =
        .ok (size (s.toList.takeWhile Atom.isIndent)) := by
    rw [← size_toList s, hcut, size_append, ← hcut]
    exact minus_eq _ _
  have hindent := slice_front hcut
  rw [heredocEndPieces, Atom.heredocEndPieces]
  simp only [isEmpty_ofList, hminus, hindent, String.toList_ofList, bind, Except.bind, pure,
    Except.pure]
  split <;> rfl

/-- A text that ends in a break character ends in a whole line break. -/
theorem exists_last_break {cs : List Char} (h : cs.getLast?.any isBreak = true) :
    ∃ opener ending, cs = opener ++ ending ∧ IsEnding ending ∧
      splitsBreak opener ending = false := by
  obtain ⟨c, hlast, hc⟩ := (Option.any_eq_true _ _).1 h
  obtain ⟨front, rfl⟩ := List.getLast?_eq_some_iff.1 hlast
  rw [isBreak, Bool.or_eq_true, decide_eq_true_eq, decide_eq_true_eq] at hc
  rcases hc with rfl | rfl
  · by_cases hpair : front.getLast? = some '\r'
    · obtain ⟨opener, rfl⟩ := List.getLast?_eq_some_iff.1 hpair
      exact ⟨opener, ['\r', '\n'], by simp, .inr (.inr rfl), by simp [splitsBreak]⟩
    · exact ⟨front, ['\n'], rfl, .inl rfl, by simp [splitsBreak, hpair]⟩
  · exact ⟨front, ['\r'], rfl, .inr (.inl rfl), by simp [splitsBreak]⟩

theorem lastBreak_eq {s : String} {opener ending : List Char} (hs : s.toList = opener ++ ending)
    (hending : IsEnding ending) (hcut : splitsBreak opener ending = false) :
    lastBreak s = size ending := by
  rw [lastBreak, hs]
  rcases hending with rfl | rfl | rfl
  · have hpair : ¬ ['\r', '\n'].isSuffixOf (opener ++ ['\n']) = true := by
      rw [List.isSuffixOf_iff_suffix]
      rintro ⟨front, hfront⟩
      have hopener : front ++ ['\r'] = opener :=
        List.append_cancel_right ((List.append_assoc _ _ _).trans hfront)
      simp [splitsBreak, ← hopener] at hcut
    rw [if_neg hpair, List.getLast?_concat]
    rfl
  · have hpair : ¬ ['\r', '\n'].isSuffixOf (opener ++ ['\r']) = true := by
      rw [List.isSuffixOf_iff_suffix]
      rintro ⟨front, hfront⟩
      have := congrArg List.getLast? hfront
      simp at this
    rw [if_neg hpair, List.getLast?_concat]
    rfl
  · rw [if_pos (List.isSuffixOf_iff_suffix.2 (List.suffix_append _ _))]
    rfl

theorem cutLastBreak?_eq_some {opener ending : List Char} (hending : IsEnding ending)
    (hcut : splitsBreak opener ending = false) :
    Atom.cutLastBreak? (opener ++ ending) = some (opener, ending) := by
  rcases hending with rfl | rfl | rfl
  · rcases List.eq_nil_or_concat opener with rfl | ⟨front, c, rfl⟩
    · rfl
    · have hc : c ≠ '\r' := by simpa [splitsBreak] using hcut
      simp [Atom.cutLastBreak?, hc]
  · simp [Atom.cutLastBreak?]
  · simp [Atom.cutLastBreak?]

theorem cutLastBreak?_eq_none {cs : List Char} (h : cs.getLast?.any isBreak = false) :
    Atom.cutLastBreak? cs = none := by
  rcases List.eq_nil_or_concat cs with rfl | ⟨front, c, rfl⟩
  · rfl
  · simp [isBreak] at h
    simp [Atom.cutLastBreak?, h]

theorem heredocStartPieces_eq (s : String) :
    heredocStartPieces s = .ok (Atom.heredocStartPieces s.toList) := by
  by_cases hlast : s.toList.getLast?.any isBreak = true
  · obtain ⟨opener, ending, hs, hending, hcut⟩ := exists_last_break hlast
    have hlength := lastBreak_eq hs hending hcut
    have hpos : 0 < size ending := utf8ByteSize_pos hending.ne_nil
    have hminus : minus s.utf8ByteSize (size ending) = .ok (size opener) := by
      rw [← size_toList, hs, size_append]
      exact minus_eq _ _
    rw [heredocStartPieces, if_neg (by omega), hlength, hminus, Atom.heredocStartPieces, hs,
      cutLastBreak?_eq_some hending hcut]
    have hback : slice s (String.ofList opener).utf8ByteSize s.utf8ByteSize =
        .ok (String.ofList ending) := slice_back hs
    simp only [slice_front hs, hback, isEmpty_ofList, bind, Except.bind, pure, Except.pure,
      String.toList_ofList]
    split <;> rfl
  · have hpair : ¬ ['\r', '\n'].isSuffixOf s.toList = true := by
      rw [List.isSuffixOf_iff_suffix]
      rintro ⟨front, hfront⟩
      rw [← hfront] at hlast
      simp [isBreak] at hlast
    have hnone : lastBreak s = 0 := by rw [lastBreak, if_neg hpair, if_neg hlast]
    rw [heredocStartPieces, if_pos hnone, Atom.heredocStartPieces,
      cutLastBreak?_eq_none (Bool.eq_false_iff.2 hlast)]
    rfl

/-! ### Lines -/

/-- The pieces that become atoms. -/
def solid (ps : List Piece) : List Piece := ps.filter (!·.2.isEmpty)

theorem solid_append (ps qs : List Piece) : solid (ps ++ qs) = solid ps ++ solid qs :=
  List.filter_append _ _

/-- A blank line has its blanks in one piece, any other is cut at its margins. -/
theorem linePieces_eq (apart : Bool) (k : Kind) (l : Line) :
    ∃ ps, linePieces apart k (String.ofList l.content, String.ofList l.ending) = .ok ps ∧
      solid ps = solid (Atom.linePieces apart k l) := by
  cases apart with
  | false => exact ⟨_, rfl, by simp [Atom.linePieces]⟩
  | true =>
    rw [linePieces]
    simp only [Bool.not_true, Bool.false_eq_true, if_false, isEmpty_trimString,
      String.toList_ofList, marginSlices_eq, bind, Except.bind, pure, Except.pure]
    by_cases hblank : (margins l.content).body = []
    · have hfront : (margins l.content).front = l.content := by
        have := margins_append l.content
        rwa [hblank, margins_back_of_body_nil hblank, List.append_nil, List.append_nil] at this
      refine ⟨_, if_pos (List.isEmpty_iff.2 hblank), ?_⟩
      simp [Atom.linePieces, solid, hblank, hfront, margins_back_of_body_nil hblank,
        List.filter_cons]
    · exact ⟨_, if_neg (by simpa using hblank), rfl⟩

theorem mapM_linePieces (apart : Bool) (k : Kind) (ls : List Line) :
    ∃ found, (ls.map fun l => (String.ofList l.content, String.ofList l.ending)).mapM
        (linePieces apart k) = .ok found ∧
      solid found.flatten = solid (ls.flatMap (Atom.linePieces apart k)) := by
  induction ls with
  | nil => exact ⟨[], rfl, rfl⟩
  | cons l ls ih =>
    obtain ⟨ps, hps, hsolid⟩ := linePieces_eq apart k l
    obtain ⟨found, hfound, hrest⟩ := ih
    refine ⟨ps :: found, ?_, ?_⟩
    · rw [List.map_cons, List.mapM_cons, hps, hfound]
      rfl
    · rw [List.flatten_cons, List.flatMap_cons, solid_append, solid_append, hsolid, hrest]

/-! ### All tokens -/

/-- Every splitter comes to an end, with the defect that the text has or with the pieces that
become the same atoms. -/
theorem pieces_eq (s : Splitter) (k : Kind) (text : String) :
    ∃ result, pieces s k text = .ok result ∧
      result.map solid = (s.pieces k text.toList).map solid := by
  cases s with
  | whitespace =>
    refine ⟨_, ?_, rfl⟩
    have hempty : text.isEmpty = text.toList.isEmpty := by
      rw [← isEmpty_ofList, String.ofList_toList]
    simp only [pieces, Splitter.pieces, hempty, runPieces_eq, bind, Except.bind, pure, Except.pure]
    split <;> rfl
  | cast => exact ⟨_, castPieces_eq text, rfl⟩
  | attributeOpen => exact ⟨_, rfl, rfl⟩
  | openTag => exact ⟨_, openTagPieces_eq k text, rfl⟩
  | closeTag => exact ⟨_, closeTagPieces_eq text, rfl⟩
  | heredocStart => exact ⟨_, heredocStartPieces_eq text, rfl⟩
  | heredocEnd => exact ⟨_, heredocEndPieces_eq text, rfl⟩
  | lines apart =>
    obtain ⟨found, hfound, hsolid⟩ := mapM_linePieces apart k (lines text.toList)
    refine ⟨.ok found.flatten, ?_, congrArg Except.ok hsolid⟩
    simp only [pieces, segments_eq, hfound, bind, Except.bind, pure, Except.pure]

theorem place_solid (p : Position) (ps : List Piece) : Atom.place p (solid ps) = Atom.place p ps :=
  Atom.place_filter p ps

theorem split_eq (s : Splitter) (t : Token) : split s t = .ok (s.split t) := by
  obtain ⟨result, hresult, hsolid⟩ := pieces_eq s t.kind t.text
  rw [split, Splitter.split]
  split
  · simp only [hresult, bind, Except.bind, pure, Except.pure]
    rcases result with defect | ps <;>
      rcases hmodel : s.pieces t.kind t.text.toList with defect' | qs
    · rw [hmodel] at hsolid
      obtain rfl : defect = defect' := by simpa [Except.map] using hsolid
      rfl
    · simp [hmodel, Except.map] at hsolid
    · simp [hmodel, Except.map] at hsolid
    · rw [hmodel] at hsolid
      have hsame : solid ps = solid qs := by simpa [Except.map] using hsolid
      simp only [← place_solid _ ps, hsame, place_solid]
  · rfl

/-- Splitting by bytes has no fault, whatever the splitter and the token: every slice that is
taken has its ends in order, within the text and at the boundaries of characters, no length is
below zero, and atoms always make up the text they came from. What comes out is what splitting
by characters gives. -/
theorem splitting_has_no_fault :
    (∀ (s : Splitter) (t : Token), split s t = .ok (s.split t)) ∧
      ∀ (apart : Bool) (t : Token), atomize apart t = .ok (Atom.atomize apart t) := by
  refine ⟨split_eq, fun apart t => ?_⟩
  rw [atomize, Atom.atomize]
  split
  · rfl
  · rcases hs : Splitter.ofKind apart t.kind with _ | s
    · rfl
    · simp only [split_eq, bind, Except.bind, pure, Except.pure]
      rcases hsplit : s.split t with e | atoms
      · rfl
      · obtain ⟨ps, hps, rfl⟩ := Splitter.split_eq_ok hsplit
        have hjoined : Token.joined (Atom.place t.position ps) = t.text :=
          (Splitter.tiles_pieces hps).covers.joined
        simp [hjoined]

end TokenAtlas.Bytewise
