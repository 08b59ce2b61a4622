import TokenAtlas.Log.Event

/-! A memory for the latest events. When it is full, the oldest event makes room for
the next one. -/

namespace TokenAtlas.Log

/-- Events in two parts, the older ones in order and the newer ones the latest first. -/
structure Memory where
  capacity : Nat
  older : List Event
  newer : List Event
  size : Nat
  capacity_pos : 0 < capacity
  size_eq : size = older.length + newer.length
  size_le : size ≤ capacity

namespace Memory

/-- An empty memory. It has room for at least one event. -/
def ofCapacity (capacity : Nat) : Memory :=
  ⟨max capacity 1, [], [], 0, by omega, rfl, by omega⟩

def standard : Memory := ofCapacity Limits.keptEvents

/-- The events from the oldest to the latest. -/
def toList (m : Memory) : List Event := m.older ++ m.newer.reverse

theorem length_toList (m : Memory) : m.toList.length = m.size := by
  simp [toList, m.size_eq]

def push (m : Memory) (e : Event) : Memory :=
  if h : m.size < m.capacity then
    { m with
      newer := e :: m.newer
      size := m.size + 1
      size_eq := by simp [m.size_eq]; omega
      size_le := h }
  else
    match ho : m.older with
    | _ :: rest =>
      { m with
        older := rest
        newer := e :: m.newer
        size_eq := by simp [m.size_eq, ho]; omega }
    | [] =>
      { m with
        older := m.newer.reverse.tail
        newer := [e]
        size_eq := by
          have := m.size_eq
          have := m.capacity_pos
          simp [ho] at *
          omega }

/-- A memory holds the latest events of all that it was given. -/
theorem toList_push (m : Memory) (e : Event) :
    (m.push e).toList = (m.toList ++ [e]).drop (m.size + 1 - m.capacity) := by
  have hs := m.size_eq
  have hc := m.capacity_pos
  have hl := m.size_le
  unfold push
  split
  · next h =>
    have : m.size + 1 - m.capacity = 0 := by omega
    simp [toList, this]
  · next h =>
    have : m.size + 1 - m.capacity = 1 := by omega
    rw [this]
    split
    · next ho => simp [toList, ho]
    · next ho =>
      have hn : m.newer.reverse ≠ [] := by
        intro hn
        simp only [List.reverse_eq_nil_iff] at hn
        simp [ho, hn] at hs
        omega
      simp only [toList, ho, List.nil_append, List.reverse_singleton]
      rw [List.drop_append_of_le_length (List.length_pos_iff.2 hn), List.drop_one]

def clear (m : Memory) : Memory := ofCapacity m.capacity

def withCode (m : Memory) (c : Code) : List Event := m.toList.filter (·.code = c)

def errorCount (m : Memory) : Nat := (m.toList.filter Event.isError).length

end Memory

end TokenAtlas.Log
