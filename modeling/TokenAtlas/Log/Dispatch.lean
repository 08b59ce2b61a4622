import TokenAtlas.Log.Event

/-! Which events reach the log. A filter lets only severe events pass. While a file is
processed, its path goes into each event, and only so many events about it pass;
errors always do. -/

namespace TokenAtlas.Log

/-- The file that is being processed, with the number of events about it so far. -/
structure FileContext where
  path : String
  id : Nat
  emitted : Nat
deriving Repr, DecidableEq

structure Dispatcher where
  least : Level
  addsFile : Bool
  file : Option FileContext
deriving Repr, DecidableEq

namespace Dispatcher

def ofLevel (least : Level) (addsFile : Bool) : Dispatcher := ⟨least, addsFile, none⟩

def enter (d : Dispatcher) (path : String) (id : Nat) : Dispatcher :=
  { d with file := some ⟨path, id, 0⟩ }

def leave (d : Dispatcher) : Dispatcher := { d with file := none }

/-- Whether no more events of a level pass for a file. -/
def isExhausted (f : FileContext) (l : Level) : Bool :=
  l ≠ .error && Limits.eventsPerFile ≤ f.emitted

/-- The event that reaches the log, if the given one passes. -/
def dispatch (d : Dispatcher) (e : Event) : Option Event × Dispatcher :=
  if !d.least.admits e.level then (none, d)
  else
    match d.file with
    | none => (some e, d)
    | some f =>
      if isExhausted f e.level then (none, d)
      else
        (some (if d.addsFile then e.put "file" f.path else e),
          { d with file := some { f with emitted := f.emitted + 1 } })

/-- The events that reach the log, in order. -/
def dispatchAll (d : Dispatcher) (es : List Event) : List Event × Dispatcher := go d [] es
where
  go (d : Dispatcher) (passed : List Event) : List Event → List Event × Dispatcher
    | [] => (passed.reverse, d)
    | e :: rest =>
      match d.dispatch e with
      | (some e, d) => go d (e :: passed) rest
      | (none, d) => go d passed rest

private theorem dispatchAll_go_eq (d : Dispatcher) (passed es : List Event) :
    dispatchAll.go d passed es =
      (passed.reverse ++ (dispatchAll.go d [] es).1, (dispatchAll.go d [] es).2) := by
  induction es generalizing d passed with
  | nil => simp [dispatchAll.go]
  | cons e rest ih =>
    simp only [dispatchAll.go]
    split
    · rw [ih, ih _ [_]]
      simp
    · rw [ih]

@[simp] theorem dispatchAll_nil (d : Dispatcher) : d.dispatchAll [] = ([], d) := rfl

theorem dispatchAll_cons (d : Dispatcher) (e : Event) (rest : List Event) :
    d.dispatchAll (e :: rest) =
      ((d.dispatch e).1.toList ++ ((d.dispatch e).2.dispatchAll rest).1,
        ((d.dispatch e).2.dispatchAll rest).2) := by
  simp only [dispatchAll, dispatchAll.go]
  split
  · next h => rw [dispatchAll_go_eq, h]; simp
  · next h => rw [dispatchAll_go_eq, h]; simp

/-- The events of one file that reach the log. -/
def dispatchFile (d : Dispatcher) (path : String) (id : Nat) (es : List Event) :
    List Event × Dispatcher :=
  let (passed, d) := (d.enter path id).dispatchAll es
  (passed, d.leave)

end Dispatcher

end TokenAtlas.Log
