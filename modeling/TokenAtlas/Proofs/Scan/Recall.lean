import Mathlib.Data.Finset.Card
import TokenAtlas.Proofs.Cursor.Sight

/-! A classifier that is asked again. Calls come with any index, token, surroundings and window,
and an index may come up again with others. The window need not be that of a cursor; with that of
a cursor a call is a classification at the cursor. Only the first call for an index is answered by
what it comes with, and only that call moves the open curly brackets. Main statement: a sequence
of calls and what is left of it without the repeated ones are answered alike. -/

namespace TokenAtlas

/-- What can be seen around a token: the ones behind it, with itself at 0, and the ones ahead,
with the next one at 0. Looking changes nothing about what is seen. -/
structure Window where
  behind : Nat → Option Token
  ahead : Nat → Option Token

namespace Window

/-- The tokens from place `n` on up to the first place without one, `limit` at most. -/
def row (look : Nat → Option Token) (n : Nat) : Nat → List Token
  | 0 => []
  | limit + 1 =>
    match look n with
    | some t => t :: row look (n + 1) limit
    | none => []

/-- A cursor at the token `t` with what a classification may see in the window. Behind the token
that stops a first look back, a second one may look as far again. -/
def cursor (w : Window) (t : Token) : Cursor :=
  let past := t :: row w.behind 1 (2 * Limits.lookahead)
  { source := [], splitting := none, pending := row w.ahead 0 Limits.lookahead, past
    yielded := past.length, fault := none, pulled := 0, atoms := 0 }

theorem row_getElem? (ts : List Token) (n limit : Nat) :
    row (ts[·]?) n limit = (ts.drop n).take limit := by
  induction limit generalizing n with
  | zero => rfl
  | succ limit ih =>
    by_cases hn : n < ts.length
    · rw [row, List.getElem?_eq_getElem hn, List.drop_eq_getElem_cons hn, List.take_succ_cons, ← ih]
    · have hnone : ts[n]? = none := List.getElem?_eq_none (Nat.not_lt.1 hn)
      rw [row, hnone, List.drop_eq_nil_of_le (Nat.not_lt.1 hn), List.take_nil]

end Window

/-- The window that a cursor shows. -/
def Cursor.window (c : Cursor) : Window := ⟨c.behind, fun n => (c.ahead n).1⟩

/-- Nothing that a classification looks at is lost with the window. -/
theorem Cursor.seesAlike_window (c : Cursor) (t : Token) : SeesAlike c (c.window.cursor t) where
  before := by
    change (Window.row (c.past[·]?) 1 (2 * Limits.lookahead)).take _ = _
    rw [Window.row_getElem?, List.take_take, Nat.min_self]
    rfl
  ahead := by
    have hahead : (fun n => (c.ahead n).1) = ((leading c.plan)[·]?) := funext c.ahead_eq
    have hpending : leading (c.window.cursor t).plan = (c.window.cursor t).pending := by
      rw [leading_plan]
      exact List.append_nil _
    rw [hpending]
    change (Window.row (fun n => (c.ahead n).1) 0 Limits.lookahead).take _ = _
    rw [hahead, Window.row_getElem?, List.drop_zero, List.take_take, Nat.min_self]

namespace Classifier

/-- A call of `classify`, or of `category` if only the category is wanted. -/
structure Call where
  index : Nat
  token : Token
  surroundings : Surroundings
  window : Window
  categoryOnly : Bool

inductive Answer
  | found (c : Classification)
  | category (k : Category)
deriving DecidableEq

def Answer.toCategory : Answer → Category
  | .found c => c.category
  | .category k => k

/-- Answer a call. -/
def perform (r : Classifier) (x : Call) : Answer × Classifier :=
  let c := x.window.cursor x.token
  if x.categoryOnly then
    let (k, r, _) := r.category x.index x.token x.surroundings c
    (.category k, r)
  else
    let (found, r, _) := r.classify x.index x.token x.surroundings c
    (.found found, r)

/-- Calls with their answers. -/
def answered (r : Classifier) : List Call → List (Call × Answer)
  | [] => []
  | x :: calls => (x, (r.perform x).1) :: (r.perform x).2.answered calls

/-- The classifier after some calls. -/
def called (r : Classifier) (calls : List Call) : Classifier :=
  calls.foldl (fun r x => (r.perform x).2) r

/-- The entries whose key is not known and did not come up before. -/
def firsts {α : Type} (key : α → Nat) : List Nat → List α → List α
  | _, [] => []
  | known, x :: xs =>
    if key x ∈ known then firsts key known xs else x :: firsts key (key x :: known) xs

/-! ### A call -/

namespace Call

/-- What a call reports of the classification that is kept for its index. -/
def report (x : Call) (found : Classification) : Answer :=
  if x.categoryOnly then .category found.category else .found found

/-- What a call finds that is the first for its index, and the curly brackets open behind it. -/
def find (x : Call) (curlies : List Kind) : Classification × List Kind :=
  let (opener, curlies) := trackCurly curlies x.token.kind
  let ((category, role), _) :=
    Classification.decide x.token opener x.surroundings (x.window.cursor x.token)
  (⟨category, Classification.tagsOf x.token category role x.surroundings⟩, curlies)

theorem toCategory_report (x : Call) (found : Classification) :
    (x.report found).toCategory = found.category := by
  unfold report
  split <;> rfl

end Call

variable {r q : Classifier} {x : Call} {found : Classification} {i : Nat}

theorem perform_kept (h : r.kept[x.index]? = some found) :
    r.perform x = (x.report found, { r with hits := r.hits + 1 }) := by
  unfold perform category classify Call.report
  rw [h]
  split <;> rfl

theorem perform_new (h : r.kept[x.index]? = none) :
    r.perform x = (x.report (x.find r.curlies).1,
      { r with
        kept := r.kept.insert x.index (x.find r.curlies).1
        curlies := (x.find r.curlies).2 }) := by
  unfold perform category classify Call.report
  rw [h]
  split <;> rfl

/-- A call with the window of a cursor is a classification at that cursor. -/
theorem perform_window (r : Classifier) (i : Nat) (t : Token) (s : Surroundings) (c : Cursor)
    (categoryOnly : Bool) :
    r.perform ⟨i, t, s, c.window, categoryOnly⟩ =
      (Call.report ⟨i, t, s, c.window, categoryOnly⟩ (r.classify i t s c).1,
        (r.classify i t s c).2.1) := by
  obtain ⟨hfound, hr⟩ := classify_alike (c.seesAlike_window t) r i t s
  cases categoryOnly <;> simp [perform, category, Call.report, hfound, hr]

/-- A call reports what is kept for its index from then on. -/
theorem perform_reports (r : Classifier) (x : Call) :
    ∃ found, (r.perform x).2.kept[x.index]? = some found ∧ (r.perform x).1 = x.report found := by
  rcases h : r.kept[x.index]? with _ | found
  · rw [perform_new h]
    exact ⟨_, Std.TreeMap.getElem?_insert_self, rfl⟩
  · rw [perform_kept h]
    exact ⟨found, h, rfl⟩

theorem kept_perform (h : r.kept[i]? = some found) (x : Call) :
    (r.perform x).2.kept[i]? = some found := by
  rcases hx : r.kept[x.index]? with _ | _
  · rw [perform_new hx, Std.TreeMap.getElem?_insert, if_neg, h]
    intro hi
    simp [Nat.compare_eq_eq.1 hi, h] at hx
  · rw [perform_kept hx]
    exact h

theorem mem_kept_perform (r : Classifier) (x : Call) :
    i ∈ (r.perform x).2.kept ↔ i ∈ r.kept ∨ i = x.index := by
  rcases hx : r.kept[x.index]? with _ | _
  · rw [perform_new hx, Std.TreeMap.mem_insert, Nat.compare_eq_eq, or_comm, eq_comm]
  · rw [perform_kept hx]
    refine ⟨.inl, fun h => h.elim id fun hi => ?_⟩
    rw [hi, Std.TreeMap.mem_iff_isSome_getElem?, hx]
    rfl

theorem hits_perform (r : Classifier) (x : Call) :
    (r.perform x).2.hits + (r.perform x).2.kept.size = r.hits + r.kept.size + 1 := by
  rcases hx : r.kept[x.index]? with _ | _
  · rw [perform_new hx, Std.TreeMap.size_insert, if_neg]
    · rfl
    · rw [← Std.TreeMap.mem_iff_contains, Std.TreeMap.mem_iff_isSome_getElem?, hx]
      exact Bool.false_ne_true
  · rw [perform_kept hx]
    exact Nat.succ_add _ _

/-! ### Calls in a row -/

theorem kept_called (calls : List Call) (h : r.kept[i]? = some found) :
    (r.called calls).kept[i]? = some found := by
  induction calls generalizing r with
  | nil => exact h
  | cons x calls ih => exact ih (kept_perform h x)

theorem mem_kept_called (r : Classifier) (calls : List Call) :
    i ∈ (r.called calls).kept ↔ i ∈ r.kept ∨ i ∈ calls.map (·.index) := by
  induction calls generalizing r with
  | nil => simp [called]
  | cons x calls ih =>
    change i ∈ ((r.perform x).2.called calls).kept ↔ _
    rw [ih, mem_kept_perform, List.map_cons, List.mem_cons, or_assoc]

theorem hits_called (r : Classifier) (calls : List Call) :
    (r.called calls).hits + (r.called calls).kept.size =
      r.hits + r.kept.size + calls.length := by
  induction calls generalizing r with
  | nil => rfl
  | cons x calls ih =>
    change ((r.perform x).2.called calls).hits + ((r.perform x).2.called calls).kept.size = _
    rw [ih, hits_perform, List.length_cons]
    omega

/-- All answers can be read off what is kept in the end. -/
theorem answered_reports (r : Classifier) (calls : List Call) {x : Call} {a : Answer}
    (h : (x, a) ∈ r.answered calls) :
    ∃ found, (r.called calls).kept[x.index]? = some found ∧ a = x.report found := by
  induction calls generalizing r with
  | nil => simp [answered] at h
  | cons y calls ih =>
    rcases List.mem_cons.1 h with h | h
    · obtain ⟨rfl, rfl⟩ := Prod.mk.inj h
      obtain ⟨found, hkept, hanswer⟩ := perform_reports r x
      exact ⟨found, kept_called calls hkept, hanswer⟩
    · exact ih _ h

/-- Without the repeated calls the others are answered as with them. The two classifiers stay
the same but for the count of repeated calls. -/
theorem answered_firsts (calls : List Call) {known : List Nat} (hkept : q.kept = r.kept)
    (hcurlies : q.curlies = r.curlies) (hknown : ∀ i, i ∈ known ↔ i ∈ r.kept) :
    q.answered (firsts (·.index) known calls) = firsts (·.1.index) known (r.answered calls) := by
  induction calls generalizing q r known with
  | nil => rfl
  | cons x calls ih =>
    have hindex := hknown x.index
    rw [Std.TreeMap.mem_iff_isSome_getElem?] at hindex
    rcases hx : r.kept[x.index]? with _ | found
    · have hnew : x.index ∉ known := by simp [hindex, hx]
      simp only [firsts, answered, if_neg hnew, perform_new hx, perform_new (hkept ▸ hx)]
      rw [hcurlies, hkept]
      refine congrArg _ (ih rfl rfl fun i => ?_)
      rw [List.mem_cons, hknown, Std.TreeMap.mem_insert, Nat.compare_eq_eq, eq_comm]
    · have hold : x.index ∈ known := by simp [hindex, hx]
      simp only [firsts, answered, if_pos hold, perform_kept hx]
      exact ih hkept hcurlies hknown

/-- As many classifications are kept as there are different indexes. -/
theorem size_kept_called (calls : List Call) :
    (fresh.called calls).kept.size = (calls.map (·.index)).toFinset.card := by
  rw [← Std.TreeMap.length_keys, ← List.toFinset_card_of_nodup Std.TreeMap.nodup_keys]
  congr 1
  ext i
  rw [List.mem_toFinset, List.mem_toFinset, Std.TreeMap.mem_keys, mem_kept_called]
  simp [fresh]

/-- All calls for one index report the same classification. Every call but the first one for an
index is counted as a repeated one, and leaving the repeated calls out changes no other answer. -/
theorem repeated_calls_transparent (calls : List Call) :
    (∀ a ∈ fresh.answered calls, ∀ b ∈ fresh.answered calls, a.1.index = b.1.index →
      a.2.toCategory = b.2.toCategory ∧ (a.1.categoryOnly = b.1.categoryOnly → a.2 = b.2)) ∧
    (fresh.called calls).hits + (calls.map (·.index)).toFinset.card = calls.length ∧
    fresh.answered (firsts (·.index) [] calls) =
      firsts (·.1.index) [] (fresh.answered calls) := by
  refine ⟨?_, ?_, ?_⟩
  · rintro ⟨x, a⟩ ha ⟨y, b⟩ hb hindex
    obtain ⟨found, hfound, rfl⟩ := answered_reports fresh calls ha
    obtain ⟨found', hfound', rfl⟩ := answered_reports fresh calls hb
    obtain rfl : found = found' := by
      rw [show x.index = y.index from hindex, hfound'] at hfound
      exact (Option.some.inj hfound).symm
    refine ⟨by rw [Call.toCategory_report, Call.toCategory_report], fun honly => ?_⟩
    rw [Call.report, Call.report, show x.categoryOnly = y.categoryOnly from honly]
  · rw [← size_kept_called, hits_called]
    exact Nat.zero_add _
  · exact answered_firsts calls rfl rfl fun i => by simp [fresh]

/-- No hint, no brackets, no imports. -/
def nothingKnown : Surroundings := ⟨none, .zero, false, .empty⟩

/-- Nothing behind, and blanks ahead without end. -/
def blankAhead : Window := ⟨fun _ => none, fun n => some ⟨.whitespace, " ", 1, n⟩⟩

/-- Calls for the bracket `${`, three times for the one that closes it, which is taken for a name
at the second time, and then for the name between them. -/
def interpolated : List Call :=
  [⟨4, ⟨.dollarCurly, "$\x7b", 1, 0⟩, nothingKnown, blankAhead, false⟩,
    ⟨9, ⟨.closeCurly, "\x7d", 1, 6⟩, nothingKnown, blankAhead, true⟩,
    ⟨9, ⟨.identifier, "name", 1, 2⟩, nothingKnown, blankAhead, false⟩,
    ⟨9, ⟨.closeCurly, "\x7d", 1, 6⟩, nothingKnown, blankAhead, true⟩,
    ⟨2, ⟨.identifier, "name", 1, 2⟩, nothingKnown, blankAhead, false⟩]

theorem repeated_calls_transparent_interpolated :
    (fresh.called interpolated).hits = 2 ∧
      (fresh.answered (firsts (·.index) [] interpolated)).map (·.2.toCategory) =
        [.interpolation, .variableNameClose, .plainName] := by
  obtain ⟨-, hhits, hfirsts⟩ := repeated_calls_transparent interpolated
  refine ⟨?_, ?_⟩
  · have hcard : (interpolated.map (·.index)).toFinset.card = 3 := by decide
    rw [hcard] at hhits
    exact Nat.add_right_cancel hhits
  · rw [hfirsts]
    decide +kernel

end Classifier

end TokenAtlas
