import Mathlib.Data.List.DropRight
import Mathlib.Data.List.ReduceOption
import TokenAtlas.Log.Dispatch
import TokenAtlas.Log.Memory

/-! What reaches the log over many files. Events are dispatched on their own or while a file is
processed, and a file has a count of its own. Main statement: an event reaches the log exactly
when it passes the filter and is an error, is about no file, or finds fewer events than the limit
before it that reached the log from the same file. Behind a file nothing of it is left, and a
memory holds the latest of the events that reached the log. -/

namespace TokenAtlas.Log

/-- Whether an event about a file reaches the log behind `earlier` others of the file. -/
def Passes (least : Level) (earlier : Nat) (e : Event) : Prop :=
  least.admits e.level = true ∧ (e.isError = true ∨ earlier < Limits.eventsPerFile)

instance (least : Level) (earlier : Nat) (e : Event) : Decidable (Passes least earlier e) :=
  inferInstanceAs (Decidable (_ ∧ _))

/-- An event about a file has its path, unless that is turned off. -/
def markWith (addsFile : Bool) (path : String) (e : Event) : Event :=
  if addsFile then e.put "file" path else e

/-- One thing done with the log: an event on its own, or a file with its events. -/
inductive Round
  | outside (e : Event)
  | file (path : String) (id : Nat) (events : List Event)

namespace Round

def events : Round → List Event
  | .outside e => [e]
  | .file _ _ es => es

def path? : Round → Option String
  | .outside _ => none
  | .file path _ _ => some path

/-- The event as it is delivered. -/
def mark (addsFile : Bool) (r : Round) (e : Event) : Event :=
  match r.path? with
  | some path => markWith addsFile path e
  | none => e

/-- Whether an event reaches the log when `earlier` events of the same round have reached it. -/
def Reaches (least : Level) (r : Round) (earlier : Nat) (e : Event) : Prop :=
  least.admits e.level = true ∧
    (e.isError = true ∨ r.path? = none ∨ earlier < Limits.eventsPerFile)

/-- What becomes of the events of a round, one by one. -/
structure Answered (least : Level) (addsFile : Bool) (r : Round) (outcomes : List (Option Event)) :
    Prop where
  length_eq : outcomes.length = r.events.length
  reaches_iff : ∀ (i : Nat) (e : Event), r.events[i]? = some e →
    ((∃ e', outcomes[i]? = some (some e')) ↔
      r.Reaches least ((outcomes.take i).countP Option.isSome) e)
  marked : ∀ (i : Nat) (e e' : Event), r.events[i]? = some e → outcomes[i]? = some (some e') →
    e' = r.mark addsFile e
  path_kept : ∀ (path : String) (e' : Event), r.path? = some path → addsFile = true →
    some e' ∈ outcomes → e'.context["file"]? = some path

end Round

namespace Dispatcher

/-- What becomes of events that are dispatched one after the other. -/
def answers (d : Dispatcher) : List Event → List (Option Event)
  | [] => []
  | e :: es => (d.dispatch e).1 :: (d.dispatch e).2.answers es

/-- The events that reach the log in a round, and the dispatcher behind it. -/
def perform (d : Dispatcher) : Round → List Event × Dispatcher
  | .outside e => d.dispatchAll [e]
  | .file path id es => d.dispatchFile path id es

/-- All events that reach the log, in order. -/
def performAll (d : Dispatcher) : List Round → List Event × Dispatcher
  | [] => ([], d)
  | r :: rs =>
    ((d.perform r).1 ++ ((d.perform r).2.performAll rs).1, ((d.perform r).2.performAll rs).2)

/-- What becomes of the events of a round. -/
def outcomes (d : Dispatcher) : Round → List (Option Event)
  | .outside e => d.answers [e]
  | .file path id es => (d.enter path id).answers es

/-- What becomes of all events, round by round. -/
def outcomesAll (d : Dispatcher) : List Round → List (List (Option Event))
  | [] => []
  | r :: rs => d.outcomes r :: (d.perform r).2.outcomesAll rs

/-! ### One event -/

/-- Dispatching counts within the file and changes nothing else. -/
theorem leave_dispatch (d : Dispatcher) (e : Event) : (d.dispatch e).2.leave = d.leave := by
  unfold dispatch
  split
  · rfl
  · split
    · rfl
    · split <;> rfl

theorem dispatch_outside {d : Dispatcher} (h : d.file = none) (e : Event) :
    d.dispatch e = (if d.least.admits e.level then some e else none, d) := by
  unfold dispatch
  rw [h]
  rcases d.least.admits e.level with _ | _ <;> rfl

theorem dispatch_of_passes {d : Dispatcher} {f : FileContext} (h : d.file = some f) {e : Event}
    (hpass : Passes d.least f.emitted e) :
    d.dispatch e = (some (markWith d.addsFile f.path e),
      { d with file := some { f with emitted := f.emitted + 1 } }) := by
  obtain ⟨hleast, hcount⟩ := hpass
  have hopen : isExhausted f e.level = false := by
    simp only [Event.isError, decide_eq_true_eq] at hcount
    rcases hcount with herror | hcount
    · simp [isExhausted, herror]
    · simp [isExhausted, hcount]
  simp [dispatch, hleast, h, hopen, markWith]

/-- What does not pass is not counted either. -/
theorem dispatch_of_stops {d : Dispatcher} {f : FileContext} (h : d.file = some f) {e : Event}
    (hstop : ¬Passes d.least f.emitted e) : d.dispatch e = (none, d) := by
  by_cases hleast : d.least.admits e.level = true
  · have hclosed : isExhausted f e.level = true := by
      simp only [Passes, hleast, true_and, not_or, Event.isError, decide_eq_true_eq,
        Nat.not_lt] at hstop
      simp [isExhausted, hstop.1, hstop.2]
    simp [dispatch, hleast, h, hclosed]
  · simp [dispatch, hleast]

/-! ### One round -/

theorem length_answers (d : Dispatcher) (es : List Event) : (d.answers es).length = es.length := by
  induction es generalizing d with
  | nil => rfl
  | cons e es ih => rw [answers, List.length_cons, ih, List.length_cons]

/-- The events that reach the log are the answers that are events, in the same order. -/
theorem dispatchAll_eq (d : Dispatcher) (es : List Event) :
    (d.dispatchAll es).1 = (d.answers es).reduceOption := by
  induction es generalizing d with
  | nil => rfl
  | cons e es ih =>
    rw [dispatchAll_cons, answers, ih]
    rcases (d.dispatch e).1 with _ | e'
    · rw [List.reduceOption_cons_of_none]
      rfl
    · rw [List.reduceOption_cons_of_some]
      rfl

theorem leave_dispatchAll (d : Dispatcher) (es : List Event) :
    (d.dispatchAll es).2.leave = d.leave := by
  induction es generalizing d with
  | nil => rfl
  | cons e es ih => rw [dispatchAll_cons, ih, leave_dispatch]

theorem perform_eq (d : Dispatcher) (r : Round) :
    (d.perform r).1 = (d.outcomes r).reduceOption := by
  cases r with
  | outside e => exact d.dispatchAll_eq [e]
  | file path id es => exact (d.enter path id).dispatchAll_eq es

/-- Behind a round the dispatcher is as it was in front of it. -/
theorem perform_dispatcher {d : Dispatcher} (h : d.file = none) (r : Round) :
    (d.perform r).2 = d := by
  have hleave : d.leave = d := by rw [leave, ← h]
  cases r with
  | outside e =>
    rw [perform, dispatchAll_cons, dispatch_outside h]
    rfl
  | file path id es =>
    calc ((d.enter path id).dispatchAll es).2.leave = (d.enter path id).leave :=
          leave_dispatchAll _ es
      _ = d.leave := rfl
      _ = d := hleave

/-- Within a file the count is that of the events of the file that have reached the log. -/
theorem getElem?_answers (d : Dispatcher) (f : FileContext) (h : d.file = some f)
    (es : List Event) (i : Nat) (e : Event) (he : es[i]? = some e) :
    (d.answers es)[i]? = some
      (if Passes d.least (f.emitted + ((d.answers es).take i).countP Option.isSome) e then
        some (markWith d.addsFile f.path e) else none) := by
  induction es generalizing d f i with
  | nil => simp at he
  | cons first es ih =>
    rw [answers]
    by_cases hpass : Passes d.least f.emitted first
    · rw [dispatch_of_passes h hpass]
      rcases i with _ | i
      · obtain rfl : first = e := by simpa using he
        simp [hpass]
      · have hnext := ih { d with file := some { f with emitted := f.emitted + 1 } }
          { f with emitted := f.emitted + 1 } rfl i (by simpa using he)
        rw [List.getElem?_cons_succ, List.take_succ_cons, List.countP_cons_of_pos rfl, hnext,
          Nat.add_right_comm, Nat.add_assoc]
    · rw [dispatch_of_stops h hpass]
      rcases i with _ | i
      · obtain rfl : first = e := by simpa using he
        simp [hpass]
      · rw [List.getElem?_cons_succ, List.take_succ_cons, List.countP_cons_of_neg (by simp),
          ih d f h i (by simpa using he)]

theorem answered_outside (least : Level) (addsFile : Bool) (e : Event) :
    (Round.outside e).Answered least addsFile ((ofLevel least addsFile).outcomes (.outside e)) := by
  have houtcomes : (ofLevel least addsFile).outcomes (.outside e) =
      [if least.admits e.level then some e else none] := by
    rw [outcomes, answers, dispatch_outside rfl]
    rfl
  rw [houtcomes]
  refine ⟨rfl, ?_, ?_, nofun⟩
  · intro i first hfirst
    obtain ⟨rfl, rfl⟩ : i = 0 ∧ e = first := by
      simpa [Round.events, List.getElem?_singleton] using hfirst
    simp [Round.Reaches, Round.path?]
  · intro i first e' hfirst he'
    obtain ⟨rfl, rfl⟩ : i = 0 ∧ e = first := by
      simpa [Round.events, List.getElem?_singleton] using hfirst
    have hreached : least.admits e.level = true ∧ e = e' := by simpa using he'
    exact hreached.2.symm

theorem answered_file (least : Level) (addsFile : Bool) (path : String) (id : Nat)
    (es : List Event) :
    (Round.file path id es).Answered least addsFile
      ((ofLevel least addsFile).outcomes (.file path id es)) := by
  set answered := (ofLevel least addsFile).outcomes (.file path id es)
  have hanswer : ∀ (i : Nat) (e : Event), es[i]? = some e → answered[i]? = some
      (if Passes least ((answered.take i).countP Option.isSome) e then
        some (markWith addsFile path e) else none) := by
    intro i e he
    have hinside := getElem?_answers ((ofLevel least addsFile).enter path id) ⟨path, id, 0⟩ rfl
      es i e he
    rwa [Nat.zero_add] at hinside
  have hlength : answered.length = es.length := length_answers _ es
  have hmarked : ∀ (i : Nat) (e e' : Event), es[i]? = some e → answered[i]? = some (some e') →
      e' = markWith addsFile path e := by
    intro i e e' he he'
    rw [hanswer i e he, Option.some_inj, Option.ite_none_right_eq_some, Option.some_inj] at he'
    exact he'.2.symm
  refine ⟨hlength, ?_, hmarked, ?_⟩
  · intro i e he
    have hreaches : (Round.file path id es).Reaches least
        ((answered.take i).countP Option.isSome) e ↔
        Passes least ((answered.take i).countP Option.isSome) e := by
      simp [Round.Reaches, Round.path?, Passes]
    rw [hanswer i e he, hreaches]
    by_cases hpass : Passes least ((answered.take i).countP Option.isSome) e <;> simp [hpass]
  · intro path' e' hpath haddsFile he'
    obtain rfl : path = path' := by simpa [Round.path?] using hpath
    obtain ⟨i, hi⟩ := List.mem_iff_getElem?.1 he'
    have hlt : i < es.length := hlength ▸ (List.getElem?_eq_some_iff.1 hi).1
    rw [hmarked i es[i] e' (List.getElem?_eq_getElem hlt) hi, markWith, haddsFile]
    exact Std.TreeMap.getElem?_insert_self

theorem answered (least : Level) (addsFile : Bool) (r : Round) :
    r.Answered least addsFile ((ofLevel least addsFile).outcomes r) := by
  cases r with
  | outside e => exact answered_outside least addsFile e
  | file path id es => exact answered_file least addsFile path id es

/-! ### All rounds -/

theorem performAll_dispatcher {d : Dispatcher} (h : d.file = none) (rs : List Round) :
    (d.performAll rs).2 = d := by
  induction rs with
  | nil => rfl
  | cons r rs ih => rw [performAll, perform_dispatcher h, ih]

theorem performAll_eq (d : Dispatcher) (rs : List Round) :
    (d.performAll rs).1 = (d.outcomesAll rs).flatten.reduceOption := by
  induction rs generalizing d with
  | nil => rfl
  | cons r rs ih =>
    rw [performAll, outcomesAll, List.flatten_cons, List.reduceOption_append, perform_eq, ih]

theorem answered_all (least : Level) (addsFile : Bool) (rs : List Round) :
    List.Forall₂ (Round.Answered least addsFile) rs
      ((ofLevel least addsFile).outcomesAll rs) := by
  induction rs with
  | nil => exact .nil
  | cons r rs ih =>
    rw [outcomesAll, perform_dispatcher rfl]
    exact .cons (answered least addsFile r) ih

end Dispatcher

/-! ### The memory behind the log -/

/-- What is last among the last of a list and more is what is last of all. -/
theorem rtake_rtake_append {α : Type} (n : Nat) (earlier later : List α) :
    (earlier.rtake n ++ later).rtake n = (earlier ++ later).rtake n := by
  simp only [List.rtake_eq_reverse_take_reverse, List.reverse_append, List.reverse_reverse,
    List.take_append, List.take_take, List.length_reverse, Nat.min_eq_left (Nat.sub_le _ _)]

namespace Memory

theorem capacity_push (m : Memory) (e : Event) : (m.push e).capacity = m.capacity := by
  unfold push
  split
  · rfl
  · split <;> rfl

theorem toList_push_eq (m : Memory) (e : Event) :
    (m.push e).toList = (m.toList ++ [e]).rtake m.capacity := by
  rw [toList_push, List.rtake, List.length_append, length_toList, List.length_singleton]

/-- A memory that is given more events keeps the latest of all. -/
theorem toList_pushAll (m : Memory) (es : List Event) :
    (es.foldl push m).toList = (m.toList ++ es).rtake m.capacity := by
  induction es generalizing m with
  | nil =>
    rw [List.foldl_nil, List.append_nil, List.rtake, length_toList,
      Nat.sub_eq_zero_of_le m.size_le, List.drop_zero]
  | cons e es ih =>
    rw [List.foldl_cons, ih, capacity_push, toList_push_eq, rtake_rtake_append,
      List.append_assoc, List.singleton_append]

end Memory

/-- What reaches the log over rounds of events, and what is left behind them: each event reaches
the log exactly when it should, in order and with the path of its file, no file is left, and a
memory holds the latest events. -/
theorem delivered_exactly (least : Level) (addsFile : Bool) (rounds : List Round)
    (capacity : Nat) :
    let d := Dispatcher.ofLevel least addsFile
    List.Forall₂ (Round.Answered least addsFile) rounds (d.outcomesAll rounds) ∧
      (d.performAll rounds).1 = (d.outcomesAll rounds).flatten.reduceOption ∧
      (d.performAll rounds).2 = d ∧
      ((d.performAll rounds).1.foldl Memory.push (Memory.ofCapacity capacity)).toList =
        (d.performAll rounds).1.rtake (max capacity 1) := by
  intro d
  refine ⟨Dispatcher.answered_all least addsFile rounds, d.performAll_eq rounds,
    Dispatcher.performAll_dispatcher rfl rounds, ?_⟩
  exact Memory.toList_pushAll (Memory.ofCapacity capacity) _

end TokenAtlas.Log
