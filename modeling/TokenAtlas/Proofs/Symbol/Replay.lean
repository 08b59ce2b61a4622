import TokenAtlas.Feature.Stack
import TokenAtlas.Symbol.Imports

/-! Statements about names and what they make of the names in force. A namespace statement
discards every import; an import statement adds its entries one by one. Main statement:
while the imports stay below their limit, taking over what a token did to the open features
is obeying the statements that it completed. -/

namespace TokenAtlas

/-- What a source file says about its names. -/
inductive Statement
  | entersNamespace (name : String)
  | imports (entries : List ImportEntry)
deriving Repr, DecidableEq

/-- How many names a statement imports. -/
def Statement.entryCount : Statement → Nat
  | .entersNamespace _ => 0
  | .imports entries => entries.length

def BuildEvent.statement : BuildEvent → Statement
  | .namespaceNameKnown name => .entersNamespace name

def Product.statement? : Product → Option Statement
  | .namespaceImport d => some (.imports d.entries)
  | .namespaceDeclaration _ | .functionSignature _ => none

/-- The statements that a token completed. -/
def StackStep.statements (s : StackStep) : List Statement :=
  s.events.map BuildEvent.statement ++ s.products.filterMap Product.statement?

namespace ImportEntry

/-- The name by which an imported symbol is referred to. -/
def short (e : ImportEntry) : String := e.knownAs.getD (Name.lastSegment e.name)

def key (e : ImportEntry) : String := e.kind.key e.short

/-- The place of an entry among the imports. -/
def slot (e : ImportEntry) : SymbolKind × String := (e.kind, e.key)

end ImportEntry

namespace Imports

/-- What is stored in a slot. -/
def stored (i : Imports) (slot : SymbolKind × String) : Option String :=
  (i.table slot.1)[slot.2]?

/-- Import an entry, however many imports there are. -/
def put (i : Imports) (e : ImportEntry) : Imports :=
  i.setTable
    ((i.table e.kind).insert (e.kind.key (e.knownAs.getD (Name.lastSegment e.name))) e.name) e.kind

/-- The names in force behind a statement. -/
def obey (i : Imports) : Statement → Imports
  | .entersNamespace name => .enter name
  | .imports entries => entries.foldl put i

/-- The names in force behind some statements. -/
def replay (statements : List Statement) : Imports := statements.foldl obey .empty

/-! ### What is stored -/

/-- Only the slot of an entry changes when it is put. -/
theorem stored_put (i : Imports) (e : ImportEntry) (slot : SymbolKind × String) :
    (i.put e).stored slot = if e.slot = slot then some e.name else i.stored slot := by
  obtain ⟨k, key⟩ := slot
  simp only [stored, put, table_setTable]
  by_cases hk : k = e.kind
  · subst hk
    simp [ImportEntry.slot, ImportEntry.key, ImportEntry.short, Std.TreeMap.getElem?_insert]
  · simp [hk, ImportEntry.slot, Ne.symm hk]

theorem size_setTable (i : Imports) (t : ImportTable) (k : SymbolKind) :
    (i.setTable t k).size + (i.table k).size = i.size + t.size := by
  cases k <;> simp only [size, setTable, table] <;> omega

/-- An entry takes a new place unless its slot is taken already. -/
theorem size_put (i : Imports) (e : ImportEntry) :
    (i.put e).size = i.size + if (i.stored e.slot).isSome then 0 else 1 := by
  have htable : ((i.table e.kind).insert e.key e.name).size =
      (i.table e.kind).size + if (i.stored e.slot).isSome then 0 else 1 := by
    rw [Std.TreeMap.size_insert, Std.TreeMap.contains_eq_isSome_getElem?, stored, ImportEntry.slot]
    split <;> rfl
  have hset := i.size_setTable ((i.table e.kind).insert e.key e.name) e.kind
  change (i.setTable ((i.table e.kind).insert e.key e.name) e.kind).size = _
  omega

/-! ### Sizes -/

theorem size_put_le (i : Imports) (e : ImportEntry) : (i.put e).size ≤ i.size + 1 := by
  rw [size_put]
  split <;> omega

theorem size_foldl_put_le (i : Imports) (entries : List ImportEntry) :
    (entries.foldl put i).size ≤ i.size + entries.length := by
  induction entries generalizing i with
  | nil => exact Nat.le_refl _
  | cons e entries ih =>
    have := ih (i.put e)
    have := size_put_le i e
    simp only [List.foldl_cons, List.length_cons]
    omega

theorem size_enter (name : String) : (enter name).size = 0 := rfl

theorem size_obey_le (i : Imports) (s : Statement) :
    (i.obey s).size ≤ i.size + s.entryCount := by
  cases s with
  | entersNamespace name => simp [obey, size_enter]
  | imports entries => exact size_foldl_put_le i entries

/-! ### Below the limit -/

/-- What becomes of an import is decided by what is stored in its slot, and by the room that
is left. -/
theorem add_cases (i : Imports) (e : ImportEntry) :
    (∃ previous, i.stored e.slot = some previous ∧
      i.add e.kind e.name e.knownAs = (i.put e, .replaced previous)) ∨
    (i.stored e.slot = none ∧ Limits.imports ≤ i.size ∧
      i.add e.kind e.name e.knownAs = (i, .limitReached)) ∨
    (i.stored e.slot = none ∧ i.size < Limits.imports ∧
      i.add e.kind e.name e.knownAs = (i.put e, .added)) := by
  have hslot : i.stored e.slot =
      (i.table e.kind)[e.kind.key (e.knownAs.getD (Name.lastSegment e.name))]? := rfl
  rcases hstored : i.stored e.slot with _ | previous
  · rw [hstored] at hslot
    by_cases hfull : Limits.imports ≤ i.size
    · exact .inr (.inl ⟨rfl, hfull, by simp only [add, ← hslot, if_pos hfull]⟩)
    · exact .inr (.inr ⟨rfl, Nat.not_le.1 hfull, by simp only [add, ← hslot, if_neg hfull, put]⟩)
  · rw [hstored] at hslot
    exact .inl ⟨previous, rfl, by simp only [add, ← hslot, put]⟩

theorem add_eq_put {i : Imports} (e : ImportEntry) (h : i.size < Limits.imports) :
    (i.add e.kind e.name e.knownAs).1 = i.put e := by
  rcases i.add_cases e with ⟨previous, -, hadd⟩ | ⟨-, hfull, -⟩ | ⟨-, -, hadd⟩
  · rw [hadd]
  · exact absurd h (Nat.not_lt.2 hfull)
  · rw [hadd]

theorem entry_imports (a : Applied) (e : ImportEntry) :
    (a.entry e).imports = (a.imports.add e.kind e.name e.knownAs).1 := by
  unfold Applied.entry
  split <;> next h => rw [h]

theorem foldl_entry_imports (a : Applied) (entries : List ImportEntry)
    (h : a.imports.size + entries.length ≤ Limits.imports) :
    (entries.foldl Applied.entry a).imports = entries.foldl put a.imports := by
  induction entries generalizing a with
  | nil => rfl
  | cons e entries ih =>
    rw [List.length_cons] at h
    have he : (a.entry e).imports = a.imports.put e := by
      rw [entry_imports, add_eq_put e (by omega)]
    have hs := size_put_le a.imports e
    rw [List.foldl_cons, List.foldl_cons, ih _ (by rw [he]; omega), he]

/-- A declaration whose entries all find room puts them all. -/
theorem apply_imports (i : Imports) (d : ImportDeclaration)
    (h : i.size + d.entries.length ≤ Limits.imports) :
    (i.apply d).imports = i.obey (.imports d.entries) :=
  foldl_entry_imports ⟨i, 0, []⟩ d.entries h

end Imports

end TokenAtlas
