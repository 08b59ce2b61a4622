import TokenAtlas.Pipeline
import TokenAtlas.Proofs.Cursor.Plan
import TokenAtlas.Proofs.Scan.Run

/-! Positions on the whole way from dump records to scanned tokens. Main statement: where
records carry no positions of their own and no line break is cut in two between them, every
scanned token stands exactly behind the texts of all scanned tokens before it. -/

namespace TokenAtlas

namespace Dump

/-- A record that continues where the one before it ended. -/
def Record.Continues (r : Record) : Prop := r.line = none ∧ r.offset = none

instance (r : Record) : Decidable r.Continues :=
  inferInstanceAs (Decidable (r.line = none ∧ r.offset = none))

/-- The texts of records, one behind the other. -/
def joined (rs : List Record) : String := String.join (rs.map (·.text))

theorem toList_joined (rs : List Record) :
    (joined rs).toList = (rs.map (·.text.toList)).flatten := by
  rw [joined, String.toList_join, List.flatMap_def, List.map_map]
  rfl

/-- Behind none of its records does a dump cut a line break in two. -/
def KeepsBreaks (rs : List Record) : Prop :=
  ∀ i < rs.length,
    Text.splitsBreak (joined (rs.take i)).toList (joined (rs.drop i)).toList = false

instance (rs : List Record) : Decidable (KeepsBreaks rs) :=
  inferInstanceAs (Decidable (∀ i < rs.length,
    Text.splitsBreak (joined (rs.take i)).toList (joined (rs.drop i)).toList = false))

theorem KeepsBreaks.seamless {rs : List Record} (h : KeepsBreaks rs) :
    Text.Seamless (rs.map (·.text.toList)) := by
  refine .of_cuts fun front back he => ?_
  obtain ⟨front, back, rfl, rfl, rfl⟩ := List.map_eq_append_iff.1 he
  rcases back with _ | ⟨r, back⟩
  · simp
  · have := h front.length (by simp)
    rwa [List.take_left, List.drop_left, toList_joined, toList_joined] at this

theorem Record.token_position {r : Record} (h : r.Continues) (p : Position) :
    (r.token p).position = p := by
  simp [Record.token, Token.position, h.1, h.2]

theorem texts_tokensFrom (p : Position) (rs : List Record) :
    Token.texts (tokensFrom p rs) = rs.map (·.text.toList) := by
  induction rs generalizing p with
  | nil => rfl
  | cons r rest ih =>
    rw [tokensFrom_cons, Token.texts_cons, ih]
    rfl

theorem consecutive_tokensFrom {rs : List Record} (h : ∀ r ∈ rs, r.Continues) (p : Position) :
    Consecutive p (tokensFrom p rs) := by
  induction rs generalizing p with
  | nil => trivial
  | cons r rest ih =>
    rw [tokensFrom_cons, Record.token_position (h r List.mem_cons_self)]
    exact ⟨Record.token_position (h r List.mem_cons_self) p,
      ih (fun x hx => h x (List.mem_cons_of_mem _ hx)) _⟩

theorem ofRecords_eq_ok {rs : List Record} {ts : List Token} (h : ofRecords rs = .ok ts) :
    ts = tokensFrom .start rs := by
  unfold ofRecords at h
  split at h
  · simp at h
  · exact (Except.ok.inj h).symm

end Dump

namespace Pipeline

/-- The tokens of a scan that succeeds are the plan of the cursor it started with. -/
theorem plan_of_scan {p : StreamPreferences} {ts : List Token} {r : ScanResult}
    (h : (scan p ts).value = .ok r) :
    (Scanner.ofTokens ⟨p.refine, p.apart⟩ ts).cursor.plan =
      (r.tokens.map (·.token)).map .ok := by
  have hplan := Scanner.plan_of_scanAll (s := Scanner.ofTokens ⟨p.refine, p.apart⟩ ts) rfl
    (Nat.zero_le _)
  unfold scan at h
  rcases hv : (Scanner.ofTokens ⟨p.refine, p.apart⟩ ts).scanAll.value with ⟨tokens, _ | e⟩
  · rw [hv] at hplan
    simp only [hv, Except.ok.injEq] at h
    simpa [← h] using hplan rfl
  · simp [hv] at h

/-- A plan of nothing but tokens, and not too many of them, makes a scan succeed. -/
theorem exists_scan_of_plan {p : StreamPreferences} {ts planned : List Token}
    (h : (Scanner.ofTokens ⟨p.refine, p.apart⟩ ts).cursor.plan = planned.map .ok)
    (hn : planned.length ≤ Limits.tokenCount) :
    ∃ r, (scan p ts).value = .ok r ∧ r.tokens.map (·.token) = planned := by
  obtain ⟨hv, htokens, -⟩ := Scanner.scanAll_of_plan rfl h
    (by rw [Scanner.yielded_ofTokens]; omega)
  unfold scan
  rcases hs : (Scanner.ofTokens ⟨p.refine, p.apart⟩ ts).scanAll.value with ⟨tokens, _ | e⟩
  · rw [hs] at htokens
    simp only [hs]
    exact ⟨_, rfl, htokens⟩
  · simp [hs] at hv

/-- Scanning keeps the text and every line break in one token, and leaves the tokens one
behind the other. -/
theorem consecutive_scan {p : StreamPreferences} {ts : List Token} {r : ScanResult}
    (h : (scan p ts).value = .ok r) {start : Position} (hc : Consecutive start ts)
    (hs : Text.Seamless (Token.texts ts)) :
    Consecutive start (r.tokens.map (·.token)) ∧
      Text.Seamless (Token.texts (r.tokens.map (·.token))) ∧
      Token.joined (r.tokens.map (·.token)) = Token.joined ts := by
  have hplan := plan_of_scan h
  rw [Scanner.plan_ofTokens] at hplan
  have hcover := fun t (_ : t ∈ ts) =>
    Cursor.covers_standing (if p.refine then some p.apart else none) t
  obtain ⟨hseamless, hflatten⟩ := Atom.seamless_flatMap hs hcover
  rw [Cursor.eq_of_contributions hplan]
  refine ⟨Atom.consecutive_flatMap hc hcover, hseamless, ?_⟩
  rw [← String.toList_inj, Token.toList_joined, Token.toList_joined, hflatten]

/-- Offsets and lines of scanned tokens count the bytes and the line breaks of the texts of
all scanned tokens before them, which together are the texts of the records. -/
theorem scan_positions_exact {p : StreamPreferences} {rs : List Dump.Record} {ts : List Token}
    {r : ScanResult} (hcont : ∀ x ∈ rs, x.Continues) (hbreaks : Dump.KeepsBreaks rs)
    (hread : Dump.ofRecords rs = .ok ts) (hscan : (scan p ts).value = .ok r) :
    Token.joined (r.tokens.map (·.token)) = Dump.joined rs ∧
    ∀ i (hi : i < r.tokens.length),
      r.tokens[i].token.offset =
        (Token.joined ((r.tokens.take i).map (·.token))).utf8ByteSize ∧
      r.tokens[i].token.line =
        1 + Text.lineBreaks (Token.joined ((r.tokens.take i).map (·.token))).toList := by
  obtain rfl := Dump.ofRecords_eq_ok hread
  have hs : Text.Seamless (Token.texts (Dump.tokensFrom .start rs)) := by
    rw [Dump.texts_tokensFrom]
    exact hbreaks.seamless
  obtain ⟨hc, hseamless, hjoined⟩ :=
    consecutive_scan hscan (Dump.consecutive_tokensFrom hcont .start) hs
  refine ⟨?_, fun i hi => ?_⟩
  · rw [hjoined, ← String.toList_inj, Token.toList_joined, Dump.texts_tokensFrom,
      Dump.toList_joined]
  · have hpos := hc.position_getElem hseamless i (by simpa using hi)
    rw [List.getElem_map, ← List.map_take] at hpos
    simp only [Token.position, Position.advance, Position.start, Position.mk.injEq] at hpos
    simpa using hpos

/-- A comment with its line break, and a semicolon on the next line. -/
def commentedLine : List Dump.Record :=
  [⟨.comment, "# é \r\n", none, none⟩, ⟨.semicolon, ";", none, none⟩]

/-- The atoms of the comment and the semicolon are where they should be. -/
theorem scan_positions_exact_commentedLine :
    ∃ r, (scan ⟨true, true, false, false, .raw, false⟩ (Dump.tokens commentedLine)).value =
        .ok r ∧
      r.tokens.map (·.token) =
        [⟨.comment, "# é", 1, 0⟩, ⟨.whitespace, " ", 1, 4⟩, ⟨.lineBreak, "\r\n", 1, 5⟩,
          ⟨.semicolon, ";", 2, 7⟩] ∧
      Token.joined (r.tokens.map (·.token)) = Dump.joined commentedLine ∧
      ∀ i (hi : i < r.tokens.length),
        r.tokens[i].token.offset =
          (Token.joined ((r.tokens.take i).map (·.token))).utf8ByteSize ∧
        r.tokens[i].token.line =
          1 + Text.lineBreaks (Token.joined ((r.tokens.take i).map (·.token))).toList := by
  have hplan : (Scanner.ofTokens ⟨true, true⟩ (Dump.tokens commentedLine)).cursor.plan =
      [⟨.comment, "# é", 1, 0⟩, ⟨.whitespace, " ", 1, 4⟩, ⟨.lineBreak, "\r\n", 1, 5⟩,
        ⟨.semicolon, ";", 2, 7⟩].map .ok := by rfl
  obtain ⟨r, hr, htokens⟩ := exists_scan_of_plan (p := ⟨true, true, false, false, .raw, false⟩)
    hplan (by decide)
  exact ⟨r, hr, htokens, scan_positions_exact (by decide) (by decide) (by rfl) hr⟩

end Pipeline

end TokenAtlas
