import Mathlib.Data.List.Dedup
import TokenAtlas.Proofs.Symbol.Replay

/-! The imports as a map of bounded size in which the last write wins. A ledger lists the
imports that were accepted since the last namespace was entered, however they were stored.
Main statement: after any operations on new tables, lookups, sizes and answers are read off
the ledger. -/

namespace TokenAtlas

namespace Imports

/-- What can be done to the names in force. -/
inductive Operation
  | enter (name : String)
  | add (e : ImportEntry)
  | apply (d : ImportDeclaration)
deriving Repr, DecidableEq

/-- The names in force after an operation. -/
def perform (i : Imports) : Operation → Imports
  | .enter name => enter name
  | .add e => (i.add e.kind e.name e.knownAs).1
  | .apply d => (i.apply d).imports

/-- The names in force after some operations on new tables. -/
def performed (ops : List Operation) : Imports := ops.foldl perform .empty

end Imports

/-- The accepted imports, the latest first. -/
abbrev Ledger := List ImportEntry

namespace Ledger

/-- The name that was last accepted for a slot. -/
def target? (l : Ledger) (slot : SymbolKind × String) : Option String :=
  (l.find? (·.slot = slot)).map (·.name)

/-- The slots that are taken, each of them once. -/
def slots (l : Ledger) : List (SymbolKind × String) := (l.map ImportEntry.slot).dedup

/-- Accept an import whose slot is taken already, or for whose slot there is room. -/
def accept (l : Ledger) (e : ImportEntry) : Ledger :=
  if e.slot ∈ l.slots ∨ l.slots.length < Limits.imports then e :: l else l

/-- The ledger after an operation. -/
def record (l : Ledger) : Imports.Operation → Ledger
  | .enter _ => []
  | .add e => l.accept e
  | .apply d => d.entries.foldl accept l

/-- The ledger of some operations on new tables. -/
def ofOperations (ops : List Imports.Operation) : Ledger := ops.foldl record []

theorem target?_cons (l : Ledger) (e : ImportEntry) (slot : SymbolKind × String) :
    target? (e :: l) slot = if e.slot = slot then some e.name else l.target? slot := by
  simp only [target?, List.find?_cons]
  by_cases h : e.slot = slot <;> simp [h]

theorem mem_slots_iff {l : Ledger} {slot : SymbolKind × String} :
    slot ∈ l.slots ↔ (l.target? slot).isSome = true := by
  simp [slots, target?, List.find?_isSome]

theorem length_slots_cons (l : Ledger) (e : ImportEntry) :
    (slots (e :: l)).length = l.slots.length + if e.slot ∈ l.slots then 0 else 1 := by
  by_cases h : e.slot ∈ l.slots
  · rw [if_pos h, slots, List.map_cons, List.dedup_cons_of_mem (List.mem_dedup.1 h)]
    rfl
  · rw [if_neg h, slots, List.map_cons, List.dedup_cons_of_notMem (mt List.mem_dedup.2 h)]
    rfl

end Ledger

namespace Imports

theorem add_replaced_iff (i : Imports) (e : ImportEntry) (previous : String) :
    (i.add e.kind e.name e.knownAs).2 = .replaced previous ↔
      i.stored e.slot = some previous := by
  rcases i.add_cases e with ⟨old, hs, hadd⟩ | ⟨hs, -, hadd⟩ | ⟨hs, -, hadd⟩ <;> simp [hs, hadd]

theorem add_limitReached_iff (i : Imports) (e : ImportEntry) :
    (i.add e.kind e.name e.knownAs).2 = .limitReached ↔
      i.stored e.slot = none ∧ Limits.imports ≤ i.size := by
  rcases i.add_cases e with ⟨old, hs, hadd⟩ | ⟨hs, hfull, hadd⟩ | ⟨hs, hroom, hadd⟩
  · simp [hs, hadd]
  · simp [hs, hadd, hfull]
  · simp [hs, hadd, hroom]

/-- An import for which there is no room changes nothing. -/
theorem add_of_limitReached {i : Imports} {e : ImportEntry}
    (h : (i.add e.kind e.name e.knownAs).2 = .limitReached) :
    (i.add e.kind e.name e.knownAs).1 = i := by
  rcases i.add_cases e with ⟨old, -, hadd⟩ | ⟨-, -, hadd⟩ | ⟨-, -, hadd⟩
  · simp [hadd] at h
  · rw [hadd]
  · simp [hadd] at h

theorem entry_accepted (a : Applied) (e : ImportEntry) :
    (a.entry e).accepted = a.accepted +
      if (a.imports.add e.kind e.name e.knownAs).2 = .limitReached then 0 else 1 := by
  unfold Applied.entry
  split <;> next h => simp [h]

/-- The tables hold what the ledger lists. -/
structure Keeps (l : Ledger) (i : Imports) : Prop where
  stored : ∀ slot, i.stored slot = l.target? slot
  size : i.size = l.slots.length
  size_le : i.size ≤ Limits.imports

namespace Keeps

variable {l : Ledger} {i : Imports}

theorem of_empty {i : Imports} (hclasses : i.classes = ∅) (hfunctions : i.functions = ∅)
    (hconstants : i.constants = ∅) : Keeps [] i := by
  refine ⟨fun slot => ?_, ?_, ?_⟩
  · obtain ⟨k, key⟩ := slot
    cases k <;> simp [Imports.stored, table, hclasses, hfunctions, hconstants, Ledger.target?]
  · simp [Imports.size, hclasses, hfunctions, hconstants, Ledger.slots]
  · simp [Imports.size, hclasses, hfunctions, hconstants]

theorem mem_slots_iff (h : Keeps l i) {slot : SymbolKind × String} :
    slot ∈ l.slots ↔ (i.stored slot).isSome = true := by
  rw [h.stored, Ledger.mem_slots_iff]

theorem put (h : Keeps l i) {e : ImportEntry}
    (hroom : e.slot ∈ l.slots ∨ i.size < Limits.imports) : Keeps (e :: l) (i.put e) where
  stored slot := by rw [stored_put, Ledger.target?_cons, h.stored]
  size := by simp only [size_put, Ledger.length_slots_cons, h.size, h.mem_slots_iff]
  size_le := by
    have hle := h.size_le
    have hsize := i.size_put e
    rcases hroom with htaken | hroom
    · rw [if_pos (h.mem_slots_iff.1 htaken)] at hsize
      omega
    · have := i.size_put_le e
      omega

/-- An import is accepted by the tables and by the ledger, or by neither. -/
theorem add (h : Keeps l i) (e : ImportEntry) :
    Keeps (l.accept e) (i.add e.kind e.name e.knownAs).1 ∧
      l.accept e =
        if (i.add e.kind e.name e.knownAs).2 = .limitReached then l else e :: l := by
  rcases i.add_cases e with ⟨previous, hstored, hadd⟩ | ⟨hstored, hfull, hadd⟩ |
    ⟨hstored, hroom, hadd⟩
  · have htaken : e.slot ∈ l.slots := by simp [h.mem_slots_iff, hstored]
    have haccept : l.accept e = e :: l := if_pos (.inl htaken)
    simpa [hadd, haccept] using h.put (.inl htaken)
  · have hfree : e.slot ∉ l.slots := by simp [h.mem_slots_iff, hstored]
    have haccept : l.accept e = l := if_neg (by simp [hfree, ← h.size, hfull])
    simpa [hadd, haccept] using h
  · have haccept : l.accept e = e :: l := if_pos (.inr (h.size ▸ hroom))
    simpa [hadd, haccept] using h.put (.inr hroom)

/-- A declaration adds its entries in turn, and counts those that are accepted. -/
theorem entries {a : Applied} (h : Keeps l a.imports) (es : List ImportEntry) :
    Keeps (es.foldl Ledger.accept l) (es.foldl Applied.entry a).imports ∧
      (es.foldl Ledger.accept l).length + a.accepted =
        l.length + (es.foldl Applied.entry a).accepted := by
  induction es generalizing l a with
  | nil => exact ⟨h, rfl⟩
  | cons e es ih =>
    obtain ⟨hkeeps, haccept⟩ := h.add e
    rw [← entry_imports] at hkeeps
    obtain ⟨hes, hcount⟩ := ih hkeeps
    refine ⟨hes, ?_⟩
    have haccepted := entry_accepted a e
    have hlength : (l.accept e).length = l.length +
        if (a.imports.add e.kind e.name e.knownAs).2 = .limitReached then 0 else 1 := by
      rw [haccept]
      split <;> rfl
    simp only [List.foldl_cons]
    omega

theorem perform (h : Keeps l i) (op : Operation) : Keeps (l.record op) (i.perform op) := by
  cases op with
  | enter name => exact .of_empty rfl rfl rfl
  | add e => exact (h.add e).1
  | apply d => exact (entries (a := ⟨i, 0, []⟩) h d.entries).1

theorem operations (h : Keeps l i) (ops : List Operation) :
    Keeps (ops.foldl Ledger.record l) (ops.foldl Imports.perform i) := by
  induction ops generalizing l i with
  | nil => exact h
  | cons op ops ih => exact ih (h.perform op)

end Keeps

/-- A declaration does what adding its entries one by one does. -/
theorem perform_apply (i : Imports) (d : ImportDeclaration) :
    i.perform (.apply d) = (d.entries.map Operation.add).foldl perform i := by
  have hfold : ∀ (es : List ImportEntry) (a : Applied),
      (es.foldl Applied.entry a).imports = (es.map Operation.add).foldl perform a.imports := by
    intro es
    induction es with
    | nil => exact fun _ => rfl
    | cons e es ih =>
      intro a
      rw [List.foldl_cons, ih, entry_imports]
      rfl
  exact hfold d.entries ⟨i, 0, []⟩

/-- After any operations on new tables a lookup finds what was last accepted for its slot since
the last namespace was entered. The size is the number of slots taken, an import answers what
was stored in its slot or that there is no room for another slot, and a declaration counts the
entries that are accepted. -/
theorem performed_agrees_with_ledger (ops : List Operation) :
    (∀ (k : SymbolKind) (short : String), (performed ops).lookup k short =
      ((Ledger.ofOperations ops).target? (k, k.key short)).map Name.relative) ∧
    (performed ops).size = (Ledger.ofOperations ops).slots.length ∧
    (performed ops).size ≤ Limits.imports ∧
    (∀ e : ImportEntry,
      (∀ previous, ((performed ops).add e.kind e.name e.knownAs).2 = .replaced previous ↔
        (Ledger.ofOperations ops).target? e.slot = some previous) ∧
      (((performed ops).add e.kind e.name e.knownAs).2 = .limitReached ↔
        (Ledger.ofOperations ops).target? e.slot = none ∧
          (performed ops).size = Limits.imports) ∧
      (((performed ops).add e.kind e.name e.knownAs).2 = .limitReached →
        ((performed ops).add e.kind e.name e.knownAs).1 = performed ops) ∧
      Ledger.ofOperations (ops ++ [.add e]) =
        if ((performed ops).add e.kind e.name e.knownAs).2 = .limitReached then
          Ledger.ofOperations ops
        else e :: Ledger.ofOperations ops) ∧
    ∀ d : ImportDeclaration,
      performed (ops ++ [.apply d]) = performed (ops ++ d.entries.map .add) ∧
      Ledger.ofOperations (ops ++ [.apply d]) =
        Ledger.ofOperations (ops ++ d.entries.map .add) ∧
      (Ledger.ofOperations (ops ++ [.apply d])).length =
        (Ledger.ofOperations ops).length + ((performed ops).apply d).accepted := by
  have h : Keeps (Ledger.ofOperations ops) (performed ops) :=
    Keeps.operations (.of_empty rfl rfl rfl) ops
  have hrecord : ∀ more, Ledger.ofOperations (ops ++ more) =
      more.foldl Ledger.record (Ledger.ofOperations ops) := fun _ => List.foldl_append
  have hperform : ∀ more, performed (ops ++ more) = more.foldl perform (performed ops) :=
    fun _ => List.foldl_append
  generalize performed ops = i at h hperform ⊢
  generalize Ledger.ofOperations ops = l at h hrecord ⊢
  refine ⟨fun k short => ?_, h.size, h.size_le, fun e => ⟨fun previous => ?_, ?_, ?_, ?_⟩,
    fun d => ⟨?_, ?_, ?_⟩⟩
  · rw [← h.stored]
    rfl
  · rw [← h.stored]
    exact i.add_replaced_iff e previous
  · have hle := h.size_le
    have hfull : Limits.imports ≤ i.size ↔ i.size = Limits.imports := by omega
    rw [← h.stored, ← hfull]
    exact i.add_limitReached_iff e
  · exact add_of_limitReached
  · rw [hrecord]
    exact (h.add e).2
  · rw [hperform, hperform]
    exact i.perform_apply d
  · rw [hrecord, hrecord, List.foldl_map]
    rfl
  · rw [hrecord]
    exact (Keeps.entries (a := ⟨i, 0, []⟩) h d.entries).2

/-- A class that is imported twice under one name, behind an import that a namespace drops. -/
def reimported : List Operation :=
  [.add ⟨.classLike, "A\\Old", none⟩, .enter "N",
    .apply ⟨[⟨.classLike, "B\\Foo", none⟩, ⟨.constant, "B\\Foo", none⟩], none⟩,
    .add ⟨.classLike, "\\C\\Bar", some "FOO"⟩]

/-- Case makes no difference to the name of a class, but it does to that of a constant. -/
theorem performed_agrees_with_ledger_reimported :
    (performed reimported).lookup .classLike "foo" = some "C\\Bar" ∧
      (performed reimported).lookup .constant "foo" = none ∧ (performed reimported).size = 2 := by
  obtain ⟨hlookup, hsize, -⟩ := performed_agrees_with_ledger reimported
  refine ⟨(hlookup _ _).trans ?_, (hlookup _ _).trans ?_, hsize.trans ?_⟩
  · decide +kernel
  · decide +kernel
  · decide +kernel

end Imports

end TokenAtlas
