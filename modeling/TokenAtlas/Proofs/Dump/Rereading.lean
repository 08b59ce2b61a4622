import Mathlib.Tactic.ByContra
import TokenAtlas.Output.Json
import TokenAtlas.Proofs.Json.Compact
import TokenAtlas.Proofs.Pipeline.Positions

/-! Tokens written as a dump and read back. A kind is written by its name, and the name of a
kind that gathers the tokens of many names is none of these names. Main statement: the tokens
of a scan are read back as they were just when none of them has such a kind, and one that has
comes back with the unknown kind. -/

namespace TokenAtlas

open Json (Value)

/-! ### Kinds -/

namespace Kind

/-- Kinds that gather the tokens of many names, or of many characters, under a name of their
own. -/
def isGathering : Kind → Bool
  | .keyword | .expressionKeyword | .magicConstant | .operator | .char => true
  | _ => false

/-- The kind that a kind's name is read as. -/
def reread (k : Kind) : Kind := if k.isGathering then .unknown else k

theorem ofName_name_of_sole : ∀ k ∈ sole, ofName k.name = k := by decide +kernel

theorem isGathering_of_sole : ∀ k ∈ sole, k.isGathering = false := by decide

theorem ofName_name (k : Kind) : ofName k.name = k.reread := by
  by_cases h : k ∈ sole
  · rw [ofName_name_of_sole k h, reread, isGathering_of_sole k h]
    rfl
  · revert h
    cases k <;> decide +kernel

theorem reread_eq_self_iff {k : Kind} : k.reread = k ↔ k.isGathering = false := by
  cases k <;> decide

end Kind

/-! ### Tokens -/

namespace Token

/-- Whether the line and the offset are in the range that a dump can give. -/
def Fits (t : Token) : Prop := t.line < 2 ^ 32 ∧ t.offset < 2 ^ 64

instance (t : Token) : Decidable t.Fits :=
  inferInstanceAs (Decidable (t.line < 2 ^ 32 ∧ t.offset < 2 ^ 64))

/-- Tokens as a dump. -/
def written (ts : List Token) : Value := .array (ts.map toJson)

/-- Tokens that fit are written as a value that is read back. -/
theorem plain_written {ts : List Token} (h : ∀ t ∈ ts, t.Fits) :
    Json.Plain Json.ReadState.maxDepth (written ts) := by
  refine @Json.Plain.array 126 _ fun v hv => ?_
  obtain ⟨t, ht, rfl⟩ := List.mem_map.1 hv
  obtain ⟨hline, hoffset⟩ := h t ht
  refine @Json.Plain.object 125 _ fun f hf => ?_
  have hf' : f = ("kind", .string t.kind.name) ∨ f = ("text", .string t.text) ∨
      f = ("line", .ofNat t.line) ∨ f = ("offset", .ofNat t.offset) := by
    simpa [fields] using hf
  rcases hf' with rfl | rfl | rfl | rfl
  · exact .string _ _
  · exact .string _ _
  · exact .int _ (by omega) (by omega)
  · exact .int _ (by omega) (by omega)

/-- The token that a token is read back as. -/
def reread (t : Token) : Token := { t with kind := t.kind.reread }

theorem reread_eq_self_iff {t : Token} : t.reread = t ↔ t.kind.isGathering = false := by
  rw [← Kind.reread_eq_self_iff, reread]
  rcases t with ⟨kind, text, line, offset⟩
  simp

theorem map_reread_eq_self_iff {ts : List Token} :
    ts.map reread = ts ↔ ∀ t ∈ ts, t.kind.isGathering = false := by
  have h := List.map_inj_left (f := reread) (g := id) (l := ts)
  simpa only [List.map_id, id, reread_eq_self_iff] using h

end Token

namespace Json.Value

theorem natOfBits?_ofNat (bits n : Nat) :
    natOfBits? bits (.ofNat n) = if n < 2 ^ bits then some n else none := by
  simp only [natOfBits?, ofNat]
  norm_cast
  split <;> simp_all

theorem nullable?_ofNat {α : Type} (f : Value → Option α) (n : Nat) :
    nullable? f (.ofNat n) = (f (.ofNat n)).map some := rfl

theorem mapAll?_map {α β γ : Type} {f : α → Option β} {e : γ → α} {g : γ → β} {cs : List γ}
    (h : ∀ c ∈ cs, f (e c) = some (g c)) : mapAll? f (cs.map e) = some (cs.map g) := by
  induction cs with
  | nil => rfl
  | cons c cs ih =>
    obtain ⟨hc, hcs⟩ := List.forall_mem_cons.1 h
    rw [List.map_cons, mapAll?_cons, hc, ih hcs]
    rfl

theorem mapAll?_eq_none {α β : Type} {f : α → Option β} {as : List α} {a : α} (ha : a ∈ as)
    (h : f a = none) : mapAll? f as = none := by
  induction as with
  | nil => simp at ha
  | cons b as ih =>
    rw [mapAll?_cons]
    rcases List.mem_cons.1 ha with rfl | ha
    · rw [h]
      rfl
    · rw [ih ha]
      cases f b <;> rfl

end Json.Value

namespace Dump

theorem Record.ofObject?_full (kind text : String) (line offset : Value) :
    Record.ofObject? (.object [("kind", .string kind), ("text", .string text), ("line", line),
        ("offset", offset)]) =
      (Value.nullable? Value.line? line).bind fun l =>
        (Value.nullable? Value.count? offset).bind fun o => some ⟨.ofName kind, text, l, o⟩ :=
  rfl

theorem Record.ofJson?_toJson (t : Token) :
    Record.ofJson? t.toJson =
      if t.Fits then some ⟨t.kind.reread, t.text, some t.line, some t.offset⟩ else none := by
  have hobject : Record.ofJson? t.toJson = Record.ofObject? t.toJson := rfl
  rw [hobject, Token.toJson, Token.fields, Record.ofObject?_full, Value.nullable?_ofNat,
    Value.nullable?_ofNat, Value.line?, Value.count?, Value.natOfBits?_ofNat,
    Value.natOfBits?_ofNat, Kind.ofName_name]
  by_cases hl : t.line < 2 ^ 32
  · by_cases ho : t.offset < 2 ^ 64
    · rw [if_pos hl, if_pos ho, if_pos (show t.Fits from ⟨hl, ho⟩)]
      rfl
    · rw [if_pos hl, if_neg ho, if_neg fun h : t.Fits => ho h.2]
      rfl
  · rw [if_neg hl, if_neg fun h : t.Fits => hl h.1]
    rfl

/-- Records with positions of their own have the tokens that they say. -/
theorem tokensFrom_map {ts : List Token} (p : Position) :
    tokensFrom p (ts.map fun t => ⟨t.kind.reread, t.text, some t.line, some t.offset⟩) =
      ts.map Token.reread := by
  induction ts generalizing p with
  | nil => rfl
  | cons t ts ih =>
    rw [List.map_cons, tokensFrom_cons, ih]
    rfl

/-- Tokens that are not too many are read back one by one. -/
theorem ofJson_written {ts : List Token} (hn : ts.length ≤ Limits.tokenCount)
    (hfit : ∀ t ∈ ts, t.Fits) : ofJson (Token.written ts) = .ok (ts.map Token.reread) := by
  have hrecords : records? (Token.written ts) =
      some (ts.map fun t => ⟨t.kind.reread, t.text, some t.line, some t.offset⟩) :=
    Value.mapAll?_map fun t ht => by rw [Record.ofJson?_toJson, if_pos (hfit t ht)]
  rw [ofJson, hrecords]
  simp only [ofRecords, List.length_map]
  rw [if_neg (Nat.not_lt.2 hn), tokens, tokensFrom_map]

theorem ofJson_written_of_not_fits {ts : List Token} {t : Token} (ht : t ∈ ts)
    (hfit : ¬ t.Fits) : ofJson (Token.written ts) = .error .malformed := by
  have hrecords : records? (Token.written ts) = none :=
    Value.mapAll?_eq_none (List.mem_map_of_mem ht) (by rw [Record.ofJson?_toJson, if_neg hfit])
  rw [ofJson, hrecords]

theorem ofJson_written_eq_self_iff {ts : List Token} (hn : ts.length ≤ Limits.tokenCount) :
    ofJson (Token.written ts) = .ok ts ↔ ∀ t ∈ ts, t.Fits ∧ t.kind.isGathering = false := by
  by_cases hfit : ∀ t ∈ ts, t.Fits
  · rw [ofJson_written hn hfit, Except.ok.injEq, Token.map_reread_eq_self_iff]
    exact ⟨fun h t ht => ⟨hfit t ht, h t ht⟩, fun h t ht => (h t ht).2⟩
  · have hall : ¬ ∀ t ∈ ts, t.Fits ∧ t.kind.isGathering = false :=
      fun h => hfit fun t ht => (h t ht).1
    simp only [not_forall] at hfit
    obtain ⟨t, ht, hfit⟩ := hfit
    rw [ofJson_written_of_not_fits ht hfit]
    exact iff_of_false (by simp) hall

end Dump

/-! ### Scans -/

/-- A listing of tokens in their own shape, none of them left out, is a dump. -/
theorem Listing.toJson_raw {p : StreamPreferences} (hmode : p.mode = .raw)
    (hall : p.trims = false) (hindex : p.byLine = false) (ts : List ScannedToken) :
    (Listing.ofTokens p ts).toJson = Token.written (ts.map (·.token)) := by
  simp [Listing.ofTokens, hmode, hall, hindex, Listing.toJson, Token.written, OutputToken.toJson,
    OutputToken.shape, Function.comp_def]

namespace Pipeline

/-- A scan that succeeds has not met too many tokens. -/
theorem length_of_scan {p : StreamPreferences} {ts : List Token} {r : ScanResult}
    (h : (scan p ts).value = .ok r) : r.tokens.length ≤ Limits.tokenCount := by
  by_contra hn
  have hplan : (Scanner.ofTokens ⟨p.refine, p.apart⟩ ts).cursor.plan =
      (r.tokens.map (·.token)).map .ok ++ [] := by rw [plan_of_scan h, List.append_nil]
  have hmany := Scanner.scanAll_of_tooMany rfl hplan (Nat.zero_le _)
    (by rw [Scanner.yielded_ofTokens, List.length_map]; omega)
  unfold scan at h
  rcases hv : (Scanner.ofTokens ⟨p.refine, p.apart⟩ ts).scanAll.value with ⟨tokens, _ | e⟩
  · rw [hv] at hmany
    exact absurd hmany (by simp)
  · simp [hv] at h

/-- Without refining every token is scanned as it is. -/
theorem exists_scan_unrefined {p : StreamPreferences} (hp : p.refine = false) {ts : List Token}
    (hn : ts.length ≤ Limits.tokenCount) :
    ∃ r, (scan p ts).value = .ok r ∧ r.tokens.map (·.token) = ts := by
  refine exists_scan_of_plan ?_ hn
  rw [Scanner.plan_ofTokens, hp]
  exact List.map_eq_flatMap.symm

/-- Tokens that were read back are scanned as they are without refining. Their kinds are those
of the tokens that were written just when none of these is gathering. -/
theorem exists_scan_reread {q : StreamPreferences} (hq : q.refine = false) {ts : List ScannedToken}
    (hn : ts.length ≤ Limits.tokenCount) :
    ∃ again, (scan q (ts.map (·.token.reread))).value = .ok again ∧
      again.tokens.map (·.token) = ts.map (·.token.reread) ∧
      (again.tokens.map (·.token.kind) = ts.map (·.token.kind) ↔
        ∀ t ∈ ts, t.token.kind.isGathering = false) := by
  obtain ⟨again, hagain, htokens⟩ :=
    @exists_scan_unrefined q hq (ts.map (·.token.reread)) (by simpa using hn)
  refine ⟨again, hagain, htokens, ?_⟩
  have hkinds : again.tokens.map (·.token.kind) = ts.map (·.token.kind.reread) := by
    have hkinds := congrArg (List.map Token.kind) htokens
    rwa [List.map_map, List.map_map] at hkinds
  rw [hkinds, List.map_inj_left]
  exact forall₂_congr fun _ _ => Kind.reread_eq_self_iff

/-- The tokens of a scan with positions in range, written as a dump, are read back the same just
when none of them has a gathering kind. A kind of that sort is read back as unknown, and nothing
else is lost: the tokens scan again without refining, and their kinds are the same just when none
is gathering. It does not matter which text was written, as long as it stands for the same
value. -/
theorem scanned_tokens_reread {p : StreamPreferences} {source : List Token} {r : ScanResult}
    (hscan : (scan p source).value = .ok r) :
    (p.mode = .raw → p.trims = false → p.byLine = false →
      (Listing.ofTokens p r.tokens).toJson = Token.written (r.tokens.map (·.token))) ∧
    (∀ text, Json.read? text = some (Token.written (r.tokens.map (·.token))) →
      (Dump.parse text = .ok (r.tokens.map (·.token)) ↔
        ∀ t ∈ r.tokens, t.token.Fits ∧ t.token.kind.isGathering = false)) ∧
    ((∀ t ∈ r.tokens, t.token.Fits) →
      (Dump.parse (Token.written (r.tokens.map (·.token))).compact = .ok (r.tokens.map (·.token)) ↔
        ∀ t ∈ r.tokens, t.token.kind.isGathering = false) ∧
      Dump.parse (Token.written (r.tokens.map (·.token))).compact =
        .ok (r.tokens.map (·.token.reread)) ∧
      ∀ q : StreamPreferences, q.refine = false →
        ∃ again, (scan q (r.tokens.map (·.token.reread))).value = .ok again ∧
          again.tokens.map (·.token) = r.tokens.map (·.token.reread) ∧
          (again.tokens.map (·.token.kind) = r.tokens.map (·.token.kind) ↔
            ∀ t ∈ r.tokens, t.token.kind.isGathering = false)) := by
  have hlength := length_of_scan hscan
  have hn : (r.tokens.map (·.token)).length ≤ Limits.tokenCount := by rwa [List.length_map]
  have hmap : (r.tokens.map (·.token)).map Token.reread = r.tokens.map (·.token.reread) :=
    List.map_map
  have hparse : ∀ text, Json.read? text = some (Token.written (r.tokens.map (·.token))) →
      (Dump.parse text = .ok (r.tokens.map (·.token)) ↔
        ∀ t ∈ r.tokens, t.token.Fits ∧ t.token.kind.isGathering = false) := by
    intro text htext
    rw [Dump.parse, htext]
    exact (Dump.ofJson_written_eq_self_iff hn).trans List.forall_mem_map
  refine ⟨fun hmode hall hindex => Listing.toJson_raw hmode hall hindex r.tokens, hparse,
    fun hfit => ?_⟩
  have hfit' : ∀ t ∈ r.tokens.map (·.token), t.Fits := List.forall_mem_map.2 hfit
  have htext := Json.read?_compact (Token.plain_written hfit')
  refine ⟨(hparse _ htext).trans ?_, ?_, fun q hq => exists_scan_reread hq hlength⟩
  · exact forall₂_congr fun t ht => and_iff_right (hfit t ht)
  · rw [Dump.parse, htext]
    exact hmap ▸ Dump.ofJson_written hn hfit'

/-- A cast and a comment on the line behind an opening tag. -/
def castLine : List Token :=
  [⟨.openTag, "<?php\n", 1, 0⟩, ⟨.intCast, "( int )", 2, 6⟩, ⟨.variableName, "$x", 2, 13⟩,
    ⟨.semicolon, ";", 2, 15⟩, ⟨.comment, "// a\n", 2, 16⟩]

/-- What they come apart into. -/
def castLineAtoms : List Token :=
  [⟨.openTag, "<?php", 1, 0⟩, ⟨.lineBreak, "\n", 1, 5⟩, ⟨.openParen, "(", 2, 6⟩,
    ⟨.whitespace, " ", 2, 7⟩, ⟨.castType, "int", 2, 8⟩, ⟨.whitespace, " ", 2, 11⟩,
    ⟨.closeParen, ")", 2, 12⟩, ⟨.variableName, "$x", 2, 13⟩, ⟨.semicolon, ";", 2, 15⟩,
    ⟨.comment, "// a", 2, 16⟩, ⟨.lineBreak, "\n", 2, 20⟩]

/-- Read from a dump without positions and refined, they are written with positions, read back
and scanned again. -/
theorem scanned_tokens_reread_castLine :
    (Dump.parse ("[[\"T_OPEN_TAG\",\"<?php\\n\",1],[\"T_INT_CAST\",\"( int )\",2]," ++
        "[\"T_VARIABLE\",\"$x\",2],\";\",[\"T_COMMENT\",\"// a\\n\",2]]")).toOption =
        some castLine ∧
      ∃ r, (scan ⟨true, true, false, false, .raw, false⟩ castLine).value = .ok r ∧
        r.tokens.map (·.token) = castLineAtoms ∧
        Dump.parse
          (Listing.ofTokens ⟨true, true, false, false, .raw, false⟩ r.tokens).toJson.compact =
          .ok castLineAtoms ∧
        ∃ again, (scan ⟨false, true, false, false, .raw, false⟩
            (r.tokens.map (·.token.reread))).value = .ok again ∧
          again.tokens.map (·.token.kind) = r.tokens.map (·.token.kind) := by
  have hplan : (Scanner.ofTokens ⟨true, true⟩ castLine).cursor.plan =
      castLineAtoms.map .ok := by
    decide +kernel
  obtain ⟨r, hr, htokens⟩ :=
    exists_scan_of_plan (p := ⟨true, true, false, false, .raw, false⟩) hplan (by decide)
  have hfit : ∀ t ∈ r.tokens.map (·.token), t.Fits := by
    rw [htokens]
    decide
  have hkinds : ∀ t ∈ r.tokens.map (·.token), t.kind.isGathering = false := by
    rw [htokens]
    decide
  obtain ⟨hlisting, -, hrest⟩ := scanned_tokens_reread hr
  obtain ⟨hsame, -, hagain⟩ := hrest (List.forall_mem_map.1 hfit)
  obtain ⟨again, hscan, -, hkept⟩ := hagain ⟨false, true, false, false, .raw, false⟩ rfl
  refine ⟨by decide +kernel, r, hr, htokens, ?_, again, hscan,
    hkept.2 (List.forall_mem_map.1 hkinds)⟩
  rw [hlisting rfl rfl rfl, ← htokens]
  exact hsame.2 (List.forall_mem_map.1 hkinds)

/-- The token of a record of the word `if` is written with a name that no record has, and
comes back unknown. -/
theorem keyword_reread_unknown :
    (Dump.parse "[[\"T_IF\",\"if\",1]]").toOption = some [⟨.keyword, "if", 1, 0⟩] ∧
      (scan ⟨false, false, false, false, .raw, false⟩ [⟨.keyword, "if", 1, 0⟩]).value.toOption.map
        (·.tokens.map (·.token)) = some [⟨.keyword, "if", 1, 0⟩] ∧
      (Token.written [⟨.keyword, "if", 1, 0⟩]).compact =
        "[\x7b\"kind\":\"KEYWORD\",\"text\":\"if\",\"line\":1,\"offset\":0\x7d]" ∧
      (Dump.parse
        "[\x7b\"kind\":\"KEYWORD\",\"text\":\"if\",\"line\":1,\"offset\":0\x7d]").toOption =
        some [⟨.unknown, "if", 1, 0⟩] := by
  decide +kernel

end Pipeline

end TokenAtlas
