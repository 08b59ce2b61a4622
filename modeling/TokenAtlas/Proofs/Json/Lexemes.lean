import Mathlib.Algebra.Group.Int.Defs
import Mathlib.Algebra.Group.Nat.Defs
import Mathlib.Data.List.TakeWhile
import TokenAtlas.Json.Lexeme
import TokenAtlas.Json.Writer

/-! The lexemes of what was written. Main statements: a whole number of 64 bits and a string in
quotes, whatever characters are in it, are read as the lexemes that they were written for. -/

namespace TokenAtlas.Json

/-! ### Numbers -/

theorem le_ofDigitChars (cs : List Char) (n : Nat) : n ≤ Nat.ofDigitChars 10 cs n := by
  induction cs generalizing n with
  | nil => simp
  | cons c cs ih =>
    rw [Nat.ofDigitChars_cons]
    exact Nat.le_trans (by omega) (ih _)

/-- Digits are taken as long as the number fits. -/
theorem takeDigits_of_le {n : Nat} {cs : List Char} (h : Nat.ofDigitChars 10 cs n ≤ maxWord) :
    takeDigits n cs = (Nat.ofDigitChars 10 cs n, 0) := by
  induction cs generalizing n with
  | nil => rw [takeDigits, Nat.ofDigitChars_nil]
  | cons c cs ih =>
    rw [Nat.ofDigitChars_cons] at h ⊢
    have hn : ¬maxWord < 10 * n + digitValue c :=
      Nat.not_lt.2 (Nat.le_trans (le_ofDigitChars cs _) h)
    simp only [takeDigits]
    rw [if_neg hn]
    exact ih h

theorem isDigit_toDigits (n : Nat) : ∀ c ∈ Nat.toDigits 10 n, c.isDigit = true :=
  fun _ => Nat.isDigit_of_mem_toDigits (by decide) (by decide)

/-- No number but zero is written with a zero in front. -/
theorem eq_nil_of_toDigits {n : Nat} {cs : List Char} (h : Nat.toDigits 10 n = '0' :: cs) :
    cs = [] := by
  induction n using Nat.strongRecOn generalizing cs with
  | _ n ih =>
    rw [Nat.toDigits_eq_if (by decide)] at h
    split at h
    · exact (List.cons.inj h).2.symm
    · next hn =>
      rcases hfront : Nat.toDigits 10 (n / 10) with _ | ⟨c, front⟩
      · exact absurd hfront Nat.toDigits_ne_nil
      · rw [hfront, List.cons_append] at h
        obtain ⟨rfl, -⟩ := List.cons.inj h
        -- then the digits in front are those of zero
        obtain rfl := ih (n / 10) (by omega) hfront
        have hzero := @Nat.ofDigitChars_ten_toDigits (n / 10)
        rw [hfront] at hzero
        have : n / 10 = 0 := hzero.symm
        omega

theorem cutWhole_toDigits (n : Nat) :
    cutWhole (Nat.toDigits 10 n) = some (Nat.toDigits 10 n, []) := by
  have hdigits := isDigit_toDigits n
  have hcut : cutDigits (Nat.toDigits 10 n) = some (Nat.toDigits 10 n, []) := by
    rw [cutDigits, List.takeWhile_eq_self_iff.2 hdigits, List.dropWhile_eq_nil_iff.2 hdigits]
    simp [Nat.toDigits_ne_nil]
  rw [cutWhole, hcut]
  split
  · next hzero =>
    have htail := eq_nil_of_toDigits (congrArg Prod.fst (Option.some.inj hzero))
    simp at htail
  · rfl

theorem ofChars?_minus (n : Nat) :
    NumberText.ofChars? ('-' :: Nat.toDigits 10 n) =
      some ⟨true, Nat.toDigits 10 n, none, none⟩ := by
  simp [NumberText.ofChars?, cutWhole_toDigits, cutFraction, cutExponent]

theorem ofChars?_toDigits (n : Nat) :
    NumberText.ofChars? (Nat.toDigits 10 n) = some ⟨false, Nat.toDigits 10 n, none, none⟩ := by
  have hwhole := cutWhole_toDigits n
  rcases hdigits : Nat.toDigits 10 n with _ | ⟨c, cs⟩
  · exact absurd hdigits Nat.toDigits_ne_nil
  · have hc : c ≠ '-' := by
      rintro rfl
      have hminus := isDigit_toDigits n '-' (by rw [hdigits]; exact List.mem_cons_self)
      exact absurd hminus (by decide)
    rw [hdigits] at hwhole
    simp [NumberText.ofChars?, hc, hwhole, cutFraction, cutExponent]

theorem takeDigits_toDigits {n : Nat} (h : n ≤ maxWord) :
    takeDigits 0 (Nat.toDigits 10 n) = (n, 0) := by
  have hvalue : Nat.ofDigitChars 10 (Nat.toDigits 10 n) 0 = n := Nat.ofDigitChars_ten_toDigits
  rw [takeDigits_of_le (by rwa [hvalue]), hvalue]

theorem value_toDigits {n : Nat} (h : n ≤ maxWord) :
    NumberText.value ⟨false, Nat.toDigits 10 n, none, none⟩ = .int n := by
  simp [NumberText.value, takeDigits_toDigits h, NumberText.signed]

theorem value_minus {n : Nat} (hn : n ≠ 0) (h : n ≤ 2 ^ 63) :
    NumberText.value ⟨true, Nat.toDigits 10 n, none, none⟩ = .int (-n) := by
  have hword : n ≤ maxWord := Nat.le_trans h (by decide)
  have hfits : ¬Nat.pow 2 63 < n := Nat.not_lt.2 h
  simp [NumberText.value, takeDigits_toDigits hword, NumberText.signed, hn, hfits]

/-- How a whole number is written. -/
theorem toList_toString_int (n : Int) : (toString n).toList =
    if 0 ≤ n then Nat.toDigits 10 n.toNat else '-' :: Nat.toDigits 10 (-n).toNat := by
  rw [Int.toString_eq_repr, Int.repr_eq_if]
  split <;> simp

/-- The characters that whole numbers are written with. -/
def isWhole (c : Char) : Bool := c.isDigit || c = '-'

theorem isWhole_toString (n : Int) : ∀ c ∈ (toString n).toList, isWhole c = true := by
  have hdigits : ∀ m, ∀ c ∈ Nat.toDigits 10 m, isWhole c = true := by
    intro m c hc
    simp [isWhole, isDigit_toDigits m c hc]
  rw [toList_toString_int]
  split
  · exact hdigits _
  · exact List.forall_mem_cons.2 ⟨rfl, hdigits _⟩

theorem numberText_int {n : Int} (hlow : -2 ^ 63 ≤ n) (hhigh : n < 2 ^ 64) :
    ∃ t, NumberText.ofChars? (toString n).toList = some t ∧ t.value = .int n := by
  rw [toList_toString_int]
  split
  · next hn =>
    refine ⟨_, ofChars?_toDigits _, ?_⟩
    have hmax : maxWord = 2 ^ 64 - 1 := by decide
    rw [value_toDigits (by omega), Int.toNat_of_nonneg hn]
  · next hn =>
    refine ⟨_, ofChars?_minus _, ?_⟩
    rw [value_minus (by omega) (by omega), Int.toNat_of_nonneg (by omega), Int.neg_neg]

/-! ### Strings -/

theorem hexUnit?_hexDigit : ∀ n < 32,
    hexUnit? '0' '0' (hexDigit (n / 16)) (hexDigit (n % 16)) = some n := by decide

theorem pushUnit_of_lt (d : StringDraft) {n : Nat} (h : n < 32) :
    d.pushUnit n = d.push (Char.ofNat n) := by
  have h₁ : ¬0xD800 ≤ n := by omega
  have h₂ : ¬0xDC00 ≤ n := by omega
  simp [StringDraft.pushUnit, h₁, h₂]

/-- However a character is written, it is read as itself. -/
theorem readString_escapeChar (d : StringDraft) (c : Char) (rest : List Char) :
    readString d (escapeChar c ++ rest) = readString (d.push c) rest := by
  unfold escapeChar
  split
  case h_8 hquote hbackslash _ _ _ _ _ =>
    split
    · next hcontrol =>
      have hn : c.toNat < 32 := hcontrol
      simp only [List.cons_append, List.nil_append, readString, hexUnit?_hexDigit _ hn,
        pushUnit_of_lt d hn, Char.ofNat_toNat]
    · next hplain =>
      have hslash : c ≠ '\\' := hbackslash
      rw [List.singleton_append, readString]
      · simp [hplain, hslash]
      all_goals simp_all
  all_goals simp [readString, shortEscape?]

theorem readString_flatMap (d : StringDraft) (cs rest : List Char) :
    readString d (cs.flatMap escapeChar ++ '"' :: rest) =
      some ((cs.foldl .push d).value, rest) := by
  induction cs generalizing d with
  | nil => rfl
  | cons c cs ih =>
    rw [List.flatMap_cons, List.append_assoc, readString_escapeChar, ih]
    rfl

theorem foldl_push (chars cs : List Char) :
    cs.foldl .push ⟨chars, none, true⟩ = (⟨cs.reverse ++ chars, none, true⟩ : StringDraft) := by
  induction cs generalizing chars with
  | nil => rfl
  | cons c cs ih =>
    rw [List.foldl_cons, List.reverse_cons, List.append_assoc]
    exact ih (c :: chars)

/-- A string in quotes. -/
def quoted (s : String) : List Char := '"' :: (s.toList.flatMap escapeChar ++ ['"'])

theorem toList_appendString (text s : String) :
    (appendString text s).toList = text.toList ++ quoted s := by
  have hpush : ∀ (cs : List Char) (text : String),
      (cs.foldl String.push text).toList = text.toList ++ cs := by
    intro cs
    induction cs with
    | nil => simp
    | cons c cs ih => intro text; simp [ih]
  have hfold : ∀ (cs : List Char) (text : String),
      (cs.foldl (fun acc c => (escapeChar c).foldl String.push acc) text).toList =
        text.toList ++ cs.flatMap escapeChar := by
    intro cs
    induction cs with
    | nil => simp
    | cons c cs ih => intro text; rw [List.foldl_cons, ih, hpush]; simp
  rw [appendString, String.toList_push, hfold, String.toList_push, quoted]
  simp

theorem readString_quoted (s : String) (rest : List Char) :
    readString .empty (s.toList.flatMap escapeChar ++ '"' :: rest) = some (.string s, rest) := by
  rw [readString_flatMap, StringDraft.empty, foldl_push]
  simp [StringDraft.value]

/-! ### Lexemes -/

/-- Behind a number or a word comes nothing that could belong to it. -/
def Ended (rest : List Char) : Prop := ∀ c ∈ rest.head?, isNumeric c = false ∧ c.isLower = false

theorem ended_nil : Ended [] := by simp [Ended]

theorem ended_punctuation {c : Char} (h : isPunctuation c = true) (rest : List Char) :
    Ended (c :: rest) := by
  have hcases : c = '[' ∨ c = ']' ∨ c = '\x7b' ∨ c = '\x7d' ∨ c = ':' ∨ c = ',' := by
    simpa [isPunctuation, or_assoc] using h
  intro x hx
  obtain rfl : c = x := by simpa using hx
  rcases hcases with rfl | rfl | rfl | rfl | rfl | rfl <;> exact ⟨rfl, rfl⟩

theorem lexemes_quoted (done : List Lexeme) (s : String) (rest : List Char) :
    lexemes done (quoted s ++ rest) = lexemes (.scalar (.string s) :: done) rest := by
  have hread := readString_quoted s rest
  rw [quoted, List.cons_append, List.append_assoc, List.singleton_append, lexemes]
  simp only [isSpace, isPunctuation, Char.reduceEq, decide_false, Bool.or_self,
    Bool.false_eq_true, if_false, if_true]
  split
  · next h =>
    obtain ⟨rfl, rfl⟩ := Prod.mk.inj (Option.some.inj (hread.symm.trans h))
    rfl
  · next h => simp [hread] at h

/-- A character of some sort is no blank if no blank is of that sort. -/
theorem isSpace_eq_false {p : Char → Bool} (h : [' ', '\n', '\t', '\r'].any p = false)
    {c : Char} (hc : p c = true) : isSpace c = false := by
  have hne : ∀ x ∈ [' ', '\n', '\t', '\r'], c ≠ x := by
    rintro x hx rfl
    exact List.any_eq_false.1 h c hx hc
  simpa [isSpace, and_assoc] using hne

theorem isPunctuation_eq_false {p : Char → Bool}
    (h : ['[', ']', '\x7b', '\x7d', ':', ','].any p = false) {c : Char} (hc : p c = true) :
    isPunctuation c = false := by
  have hne : ∀ x ∈ ['[', ']', '\x7b', '\x7d', ':', ','], c ≠ x := by
    rintro x hx rfl
    exact List.any_eq_false.1 h c hx hc
  simpa [isPunctuation, and_assoc] using hne

theorem lexemes_punctuation (done : List Lexeme) {c : Char} (hc : isPunctuation c = true)
    (rest : List Char) : lexemes done (c :: rest) = lexemes (.punctuation c :: done) rest := by
  rw [lexemes, isSpace_eq_false (by decide) hc, hc]
  simp

/-- What is taken by a condition that the text behind it does not meet. -/
theorem takeWhile_ended {p : Char → Bool} {cs rest : List Char} (hcs : ∀ c ∈ cs, p c = true)
    (hrest : ∀ c ∈ rest.head?, p c = false) :
    (cs ++ rest).takeWhile p = cs ∧ (cs ++ rest).dropWhile p = rest := by
  have hstop : rest.takeWhile p = [] ∧ rest.dropWhile p = rest := by
    rcases rest with _ | ⟨c, rest⟩
    · exact ⟨rfl, rfl⟩
    · have hc : ¬p c = true := by simp [hrest c rfl]
      exact ⟨List.takeWhile_cons_of_neg hc, List.dropWhile_cons_of_neg hc⟩
  rw [List.takeWhile_append_of_pos hcs, List.dropWhile_append_of_pos hcs, hstop.1, hstop.2]
  exact ⟨List.append_nil _, rfl⟩

theorem lexemes_word (done : List Lexeme) {c : Char} {cs : List Char} {v : Value}
    (hc : c.isLower = true) (hcs : cs.all Char.isLower = true) (hword : word? (c :: cs) = some v)
    {rest : List Char} (hrest : Ended rest) :
    lexemes done (c :: cs ++ rest) = lexemes (.scalar v :: done) rest := by
  obtain ⟨htake, hdrop⟩ := takeWhile_ended (List.all_eq_true.1 hcs) fun c h => (hrest c h).2
  have hquote : c ≠ '"' := by
    rintro rfl
    exact absurd hc (by decide)
  rw [List.cons_append, lexemes, isSpace_eq_false (by decide) hc,
    isPunctuation_eq_false (by decide) hc, htake, hdrop]
  simp [hquote, hc, hword]

theorem isNumeric_of_isWhole {c : Char} (h : isWhole c = true) : isNumeric c = true := by
  rcases Bool.or_eq_true_iff.1 h with h | h <;> simp [isNumeric, of_decide_eq_true, h]

theorem isLower_of_isWhole {c : Char} (h : isWhole c = true) : c.isLower = false := by
  simp only [isWhole, Bool.or_eq_true, decide_eq_true_eq] at h
  rcases h with h | rfl
  · by_contra hlower
    have hdigit : ('0' ≤ c && c ≤ '9') = true := h
    have hletter : ('a' ≤ c && c ≤ 'z') = true := eq_true_of_ne_false hlower
    have hle : c ≤ '9' := of_decide_eq_true (Bool.and_eq_true_iff.1 hdigit).2
    have hge : 'a' ≤ c := of_decide_eq_true (Bool.and_eq_true_iff.1 hletter).1
    exact absurd (Char.le_trans hge hle) (by decide)
  · rfl

theorem lexemes_int (done : List Lexeme) {n : Int} (hlow : -2 ^ 63 ≤ n) (hhigh : n < 2 ^ 64)
    {rest : List Char} (hrest : Ended rest) :
    lexemes done ((toString n).toList ++ rest) = lexemes (.scalar (.int n) :: done) rest := by
  obtain ⟨t, ht, hvalue⟩ := numberText_int hlow hhigh
  have hchars := isWhole_toString n
  rcases hcs : (toString n).toList with _ | ⟨c, cs⟩
  · rw [hcs] at ht
    exact absurd ht (by simp [show NumberText.ofChars? [] = none from rfl])
  · rw [hcs] at ht hchars
    obtain ⟨hc, hcs⟩ := List.forall_mem_cons.1 hchars
    obtain ⟨htake, hdrop⟩ := takeWhile_ended (fun c h => isNumeric_of_isWhole (hcs c h))
      fun c h => (hrest c h).1
    have hquote : c ≠ '"' := by
      rintro rfl
      exact absurd hc (by decide)
    rw [List.cons_append, lexemes, isSpace_eq_false (by decide) hc,
      isPunctuation_eq_false (by decide) hc, htake, hdrop]
    simp [hquote, isLower_of_isWhole hc, isNumeric_of_isWhole hc, ht, hvalue]

end TokenAtlas.Json
