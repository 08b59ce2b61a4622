import TokenAtlas.Json.Reader
import TokenAtlas.Proofs.Json.Lexemes

/-! Reading back what was written. The characters of a value are lexemes again, and these put the
value together. Main statement: a plain value, whose numbers fit 64 bits and whose containers are
not nested too deep, is read back from its compact text. -/

namespace TokenAtlas.Json

/-- The value is plain: nothing in it is unreadable or real, its numbers fit 64 bits and its
containers are nested up to `d` deep. -/
inductive Plain : Nat → Value → Prop
  | null (d : Nat) : Plain d .null
  | bool (d : Nat) (b : Bool) : Plain d (.bool b)
  | int (d : Nat) {n : Int} (hlow : -2 ^ 63 ≤ n) (hhigh : n < 2 ^ 64) : Plain d (.int n)
  | string (d : Nat) (s : String) : Plain d (.string s)
  | array {d : Nat} {items : List Value} (h : ∀ v ∈ items, Plain d v) : Plain (d + 1) (.array items)
  | object {d : Nat} {fields : List (String × Value)} (h : ∀ f ∈ fields, Plain d f.2) :
      Plain (d + 1) (.object fields)

/-- What was expected before does not matter for a value that has come. -/
theorem ReadState.put_expecting (frames : List Frame) (depth : Nat) (e e' : Expected)
    (r v : Value) : put ⟨frames, depth, e, r⟩ v = put ⟨frames, depth, e', r⟩ v := by
  rcases frames with _ | ⟨_ | _, _⟩ <;> rfl

/-- The value is written as these characters, which are these lexemes, and they put it together
again where containers may be nested `d` deeper. -/
structure Spelled (d : Nat) (v : Value) (cs : List Char) (ls : List Lexeme) : Prop where
  appends : ∀ text, (Value.appendCompact text v).toList = text.toList ++ cs
  lexes : ∀ done rest, Ended rest →
    lexemes done (cs ++ rest) = lexemes (ls.reverse ++ done) rest
  reads : ∀ frames depth e r rest, e = .value ∨ e = .itemOrEnd →
    depth + d ≤ ReadState.maxDepth →
    readLexemes ⟨frames, depth, e, r⟩ (ls ++ rest) =
      readLexemes (ReadState.put ⟨frames, depth, e, r⟩ v) rest

/-- The items behind the first one, each with a comma in front. -/
structure SpelledItems (d : Nat) (items : List Value) (cs : List Char) (ls : List Lexeme) :
    Prop where
  appends : ∀ text, (Value.appendItems text items).toList = text.toList ++ cs
  ended : ∀ rest, Ended rest → Ended (cs ++ rest)
  lexes : ∀ done rest, Ended rest →
    lexemes done (cs ++ rest) = lexemes (ls.reverse ++ done) rest
  reads : ∀ read outer depth r rest, depth + d ≤ ReadState.maxDepth →
    readLexemes ⟨.array read :: outer, depth, .commaOrEnd, r⟩ (ls ++ rest) =
      readLexemes ⟨.array (items.reverse ++ read) :: outer, depth, .commaOrEnd, r⟩ rest

/-- The fields behind the first one, each with a comma in front. -/
structure SpelledFields (d : Nat) (fields : List (String × Value)) (cs : List Char)
    (ls : List Lexeme) : Prop where
  appends : ∀ text, (Value.appendFields text fields).toList = text.toList ++ cs
  ended : ∀ rest, Ended rest → Ended (cs ++ rest)
  lexes : ∀ done rest, Ended rest →
    lexemes done (cs ++ rest) = lexemes (ls.reverse ++ done) rest
  reads : ∀ read name outer depth r rest, depth + d ≤ ReadState.maxDepth →
    ∃ last, readLexemes ⟨.object read name true :: outer, depth, .commaOrEnd, r⟩ (ls ++ rest) =
      readLexemes ⟨.object (fields.reverse ++ read) last true :: outer, depth, .commaOrEnd, r⟩ rest

theorem Spelled.scalar {d : Nat} {v : Value} {cs : List Char}
    (happends : ∀ text, (Value.appendCompact text v).toList = text.toList ++ cs)
    (hlexes : ∀ done rest, Ended rest →
      lexemes done (cs ++ rest) = lexemes (.scalar v :: done) rest) :
    Spelled d v cs [.scalar v] where
  appends := happends
  lexes := hlexes
  reads frames depth e r rest he _ := by
    rcases he with rfl | rfl <;> rfl

theorem SpelledItems.nil (d : Nat) : SpelledItems d [] [] [] where
  appends text := by simp [Value.appendItems]
  ended _ h := h
  lexes _ _ _ := rfl
  reads _ _ _ _ _ _ := rfl

theorem SpelledItems.cons {d : Nat} {v : Value} {items : List Value} {cs cs' : List Char}
    {ls ls' : List Lexeme} (hv : Spelled d v cs ls) (hitems : SpelledItems d items cs' ls') :
    SpelledItems d (v :: items) (',' :: (cs ++ cs')) (.punctuation ',' :: (ls ++ ls')) where
  appends text := by
    rw [Value.appendItems, hitems.appends, hv.appends, String.toList_push]
    simp
  ended rest _ := ended_punctuation (by decide) _
  lexes done rest hrest := by
    rw [List.cons_append, lexemes_punctuation _ (by decide), List.append_assoc,
      hv.lexes _ _ (hitems.ended rest hrest), hitems.lexes _ _ hrest]
    simp
  reads read outer depth r rest hdepth := by
    have hcomma : readLexemes ⟨.array read :: outer, depth, .commaOrEnd, r⟩
        (.punctuation ',' :: (ls ++ ls') ++ rest) =
        readLexemes ⟨.array read :: outer, depth, .value, r⟩ (ls ++ (ls' ++ rest)) := by
      rw [List.cons_append, List.append_assoc]
      rfl
    rw [hcomma, hv.reads _ _ _ _ _ (.inl rfl) hdepth, List.reverse_cons, List.append_assoc]
    exact hitems.reads (v :: read) outer depth r rest hdepth

theorem SpelledFields.nil (d : Nat) : SpelledFields d [] [] [] where
  appends text := by simp [Value.appendFields]
  ended _ h := h
  lexes _ _ _ := rfl
  reads _ name _ _ _ _ _ := ⟨name, rfl⟩

theorem SpelledFields.cons {d : Nat} {k : String} {v : Value} {fields : List (String × Value)}
    {cs cs' : List Char} {ls ls' : List Lexeme} (hv : Spelled d v cs ls)
    (hfields : SpelledFields d fields cs' ls') :
    SpelledFields d ((k, v) :: fields) (',' :: (quoted k ++ ':' :: (cs ++ cs')))
      (.punctuation ',' :: .scalar (.string k) :: .punctuation ':' :: (ls ++ ls')) where
  appends text := by
    simp only [Value.appendFields]
    rw [hfields.appends, hv.appends, String.toList_push, toList_appendString, String.toList_push]
    simp
  ended rest _ := ended_punctuation (by decide) _
  lexes done rest hrest := by
    rw [List.cons_append, lexemes_punctuation _ (by decide), List.append_assoc, lexemes_quoted,
      List.cons_append, lexemes_punctuation _ (by decide), List.append_assoc,
      hv.lexes _ _ (hfields.ended rest hrest), hfields.lexes _ _ hrest]
    simp
  reads read name outer depth r rest hdepth := by
    have hname : readLexemes ⟨.object read name true :: outer, depth, .commaOrEnd, r⟩
        (.punctuation ',' :: .scalar (.string k) :: .punctuation ':' :: (ls ++ ls') ++ rest) =
        readLexemes ⟨.object read k true :: outer, depth, .value, r⟩ (ls ++ (ls' ++ rest)) := by
      simp only [List.cons_append, List.append_assoc]
      rfl
    obtain ⟨last, hlast⟩ := hfields.reads ((k, v) :: read) k outer depth r rest hdepth
    refine ⟨last, ?_⟩
    rw [hname, hv.reads _ _ _ _ _ (.inl rfl) hdepth, List.reverse_cons, List.append_assoc]
    exact hlast

theorem Spelled.emptyArray (d : Nat) :
    Spelled (d + 1) (.array []) ['[', ']'] [.punctuation '[', .punctuation ']'] where
  appends text := by simp [Value.appendCompact]
  lexes done rest _ := by
    rw [List.cons_append, lexemes_punctuation _ (by decide), List.cons_append,
      lexemes_punctuation _ (by decide)]
    rfl
  reads frames depth e r rest he hdepth := by
    have hfits : depth + 1 ≤ ReadState.maxDepth := by omega
    have hclosed : readLexemes ⟨frames, depth, e, r⟩
        ([.punctuation '[', .punctuation ']'] ++ rest) =
        readLexemes (ReadState.put ⟨frames, depth, .itemOrEnd, r⟩
          (ReadState.completed ⟨.array [] :: frames, depth + 1, .itemOrEnd, r⟩ (.array []) true))
          rest := by
      rcases he with rfl | rfl <;> rfl
    rw [hclosed, ReadState.completed, ReadState.put_expecting frames depth .itemOrEnd e]
    simp [hfits]

/-- An array is the first item and the others in square brackets. -/
theorem Spelled.array {d : Nat} {v : Value} {items : List Value} {cs cs' : List Char}
    {ls ls' : List Lexeme} (hv : Spelled d v cs ls) (hitems : SpelledItems d items cs' ls') :
    Spelled (d + 1) (.array (v :: items)) ('[' :: (cs ++ (cs' ++ [']'])))
      (.punctuation '[' :: (ls ++ (ls' ++ [.punctuation ']']))) where
  appends text := by
    rw [Value.appendCompact, String.toList_push, hitems.appends, hv.appends, String.toList_push]
    simp
  lexes done rest hrest := by
    have hclose := ended_punctuation (c := ']') (by decide) rest
    simp only [List.cons_append, List.append_assoc, List.nil_append]
    rw [lexemes_punctuation _ (by decide), hv.lexes _ _ (hitems.ended _ hclose),
      hitems.lexes _ _ hclose, lexemes_punctuation _ (by decide)]
    simp
  reads frames depth e r rest he hdepth := by
    have hfits : depth + 1 ≤ ReadState.maxDepth := by omega
    have hinner : depth + 1 + d ≤ ReadState.maxDepth := by omega
    have hopened : readLexemes ⟨frames, depth, e, r⟩
        (.punctuation '[' :: (ls ++ (ls' ++ [.punctuation ']'])) ++ rest) =
        readLexemes ⟨.array [] :: frames, depth + 1, .itemOrEnd, r⟩
          (ls ++ (ls' ++ (.punctuation ']' :: rest))) := by
      simp only [List.cons_append, List.append_assoc, List.nil_append]
      rcases he with rfl | rfl <;> rfl
    have hclosed : readLexemes ⟨.array (items.reverse ++ [v]) :: frames, depth + 1, .commaOrEnd, r⟩
        (.punctuation ']' :: rest) =
        readLexemes (ReadState.put ⟨frames, depth, .commaOrEnd, r⟩
          (ReadState.completed
            ⟨.array (items.reverse ++ [v]) :: frames, depth + 1, .commaOrEnd, r⟩
            (.array (items.reverse ++ [v]).reverse) true)) rest := rfl
    rw [hopened, hv.reads _ _ _ _ _ (.inr rfl) hinner]
    refine (hitems.reads [v] frames (depth + 1) r _ hinner).trans (hclosed.trans ?_)
    rw [ReadState.completed, ReadState.put_expecting frames depth .commaOrEnd e]
    simp [hfits]

theorem Spelled.emptyObject (d : Nat) :
    Spelled (d + 1) (.object []) ['\x7b', '\x7d'] [.punctuation '\x7b', .punctuation '\x7d'] where
  appends text := by simp [Value.appendCompact]
  lexes done rest _ := by
    rw [List.cons_append, lexemes_punctuation _ (by decide), List.cons_append,
      lexemes_punctuation _ (by decide)]
    rfl
  reads frames depth e r rest he hdepth := by
    have hfits : depth + 1 ≤ ReadState.maxDepth := by omega
    have hclosed : readLexemes ⟨frames, depth, e, r⟩
        ([.punctuation '\x7b', .punctuation '\x7d'] ++ rest) =
        readLexemes (ReadState.put ⟨frames, depth, .nameOrEnd, r⟩
          (ReadState.completed ⟨.object [] "" true :: frames, depth + 1, .nameOrEnd, r⟩
            (.object []) true)) rest := by
      rcases he with rfl | rfl <;> rfl
    rw [hclosed, ReadState.completed, ReadState.put_expecting frames depth .nameOrEnd e]
    simp [hfits]

/-- An object is the first field and the others in curly brackets. -/
theorem Spelled.object {d : Nat} {k : String} {v : Value} {fields : List (String × Value)}
    {cs cs' : List Char} {ls ls' : List Lexeme} (hv : Spelled d v cs ls)
    (hfields : SpelledFields d fields cs' ls') :
    Spelled (d + 1) (.object ((k, v) :: fields))
      ('\x7b' :: (quoted k ++ ':' :: (cs ++ (cs' ++ ['\x7d']))))
      (.punctuation '\x7b' :: .scalar (.string k) :: .punctuation ':' ::
        (ls ++ (ls' ++ [.punctuation '\x7d']))) where
  appends text := by
    simp only [Value.appendCompact]
    rw [String.toList_push, hfields.appends, hv.appends, String.toList_push,
      toList_appendString, String.toList_push]
    simp
  lexes done rest hrest := by
    have hclose := ended_punctuation (c := '\x7d') (by decide) rest
    simp only [List.cons_append, List.append_assoc, List.nil_append]
    rw [lexemes_punctuation _ (by decide), lexemes_quoted, lexemes_punctuation _ (by decide),
      hv.lexes _ _ (hfields.ended _ hclose), hfields.lexes _ _ hclose,
      lexemes_punctuation _ (by decide)]
    simp
  reads frames depth e r rest he hdepth := by
    have hfits : depth + 1 ≤ ReadState.maxDepth := by omega
    have hinner : depth + 1 + d ≤ ReadState.maxDepth := by omega
    have hopened : readLexemes ⟨frames, depth, e, r⟩
        (.punctuation '\x7b' :: .scalar (.string k) :: .punctuation ':' ::
          (ls ++ (ls' ++ [.punctuation '\x7d'])) ++ rest) =
        readLexemes ⟨.object [] k true :: frames, depth + 1, .value, r⟩
          (ls ++ (ls' ++ (.punctuation '\x7d' :: rest))) := by
      simp only [List.cons_append, List.append_assoc, List.nil_append]
      rcases he with rfl | rfl <;> rfl
    obtain ⟨last, hlast⟩ :=
      hfields.reads [(k, v)] k frames (depth + 1) r (.punctuation '\x7d' :: rest) hinner
    have hclosed : readLexemes
        ⟨.object (fields.reverse ++ [(k, v)]) last true :: frames, depth + 1, .commaOrEnd, r⟩
        (.punctuation '\x7d' :: rest) =
        readLexemes (ReadState.put ⟨frames, depth, .commaOrEnd, r⟩
          (ReadState.completed
            ⟨.object (fields.reverse ++ [(k, v)]) last true :: frames, depth + 1, .commaOrEnd, r⟩
            (.object (fields.reverse ++ [(k, v)]).reverse) true)) rest := rfl
    rw [hopened, hv.reads _ _ _ _ _ (.inl rfl) hinner]
    refine hlast.trans (hclosed.trans ?_)
    rw [ReadState.completed, ReadState.put_expecting frames depth .commaOrEnd e]
    simp [hfits]

theorem exists_spelledItems {d : Nat} {items : List Value}
    (h : ∀ v ∈ items, ∃ cs ls, Spelled d v cs ls) : ∃ cs ls, SpelledItems d items cs ls := by
  induction items with
  | nil => exact ⟨[], [], .nil d⟩
  | cons v items ih =>
    obtain ⟨⟨cs, ls, hv⟩, hitems⟩ := List.forall_mem_cons.1 h
    obtain ⟨cs', ls', hrest⟩ := ih hitems
    exact ⟨_, _, .cons hv hrest⟩

theorem exists_spelledFields {d : Nat} {fields : List (String × Value)}
    (h : ∀ f ∈ fields, ∃ cs ls, Spelled d f.2 cs ls) :
    ∃ cs ls, SpelledFields d fields cs ls := by
  induction fields with
  | nil => exact ⟨[], [], .nil d⟩
  | cons f fields ih =>
    obtain ⟨⟨cs, ls, hv⟩, hfields⟩ := List.forall_mem_cons.1 h
    obtain ⟨cs', ls', hrest⟩ := ih hfields
    obtain ⟨k, v⟩ := f
    exact ⟨_, _, .cons hv hrest⟩

theorem Plain.exists_spelled {d : Nat} {v : Value} (h : Plain d v) :
    ∃ cs ls, Spelled d v cs ls := by
  induction h with
  | null d =>
    exact ⟨['n', 'u', 'l', 'l'], _, .scalar (fun text => by simp [Value.appendCompact])
      fun done rest => lexemes_word done (by decide) (by decide) rfl⟩
  | bool d b =>
    cases b with
    | true =>
      exact ⟨['t', 'r', 'u', 'e'], _, .scalar (fun text => by simp [Value.appendCompact])
        fun done rest => lexemes_word done (by decide) (by decide) rfl⟩
    | false =>
      exact ⟨['f', 'a', 'l', 's', 'e'], _, .scalar (fun text => by simp [Value.appendCompact])
        fun done rest => lexemes_word done (by decide) (by decide) rfl⟩
  | @int d n hlow hhigh =>
    exact ⟨_, _, .scalar (fun text => by rw [Value.appendCompact, String.toList_append])
      fun done rest => lexemes_int done hlow hhigh⟩
  | string d s =>
    exact ⟨_, _, .scalar (fun text => by rw [Value.appendCompact, toList_appendString])
      fun done rest _ => lexemes_quoted done s rest⟩
  | @array d items _ ih =>
    rcases items with _ | ⟨v, items⟩
    · exact ⟨_, _, .emptyArray d⟩
    · obtain ⟨⟨cs, ls, hv⟩, hitems⟩ := List.forall_mem_cons.1 ih
      obtain ⟨cs', ls', hrest⟩ := exists_spelledItems hitems
      exact ⟨_, _, .array hv hrest⟩
  | @object d fields _ ih =>
    rcases fields with _ | ⟨⟨k, v⟩, fields⟩
    · exact ⟨_, _, .emptyObject d⟩
    · obtain ⟨⟨cs, ls, hv⟩, hfields⟩ := List.forall_mem_cons.1 ih
      obtain ⟨cs', ls', hrest⟩ := exists_spelledFields hfields
      exact ⟨_, _, .object hv hrest⟩

/-- A plain value is read back from its compact text. -/
theorem read?_compact {v : Value} (h : Plain ReadState.maxDepth v) : read? v.compact = some v := by
  obtain ⟨cs, ls, hspelled⟩ := h.exists_spelled
  have htext : v.compact.toList = cs ++ [] := by
    rw [Value.compact, hspelled.appends, List.append_nil]
    rfl
  have hlexemes : lexemes [] (cs ++ []) = some ls := by
    rw [hspelled.lexes _ _ ended_nil, lexemes]
    simp
  have hread := hspelled.reads [] 0 .value .null [] (.inl rfl) (by omega)
  rw [List.append_nil] at hread
  rw [read?, htext, hlexemes]
  exact hread

end TokenAtlas.Json
