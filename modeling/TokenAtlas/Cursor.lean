import TokenAtlas.Atom.Refine

/-! A cursor over a token stream. It yields the tokens of its source one by one,
refined if so wished, and can look at tokens behind and ahead. Looking ahead pulls
tokens from the source into a queue. A token that is refused stops the pulling; its
refusal is reported when the cursor reaches it and not before. -/

namespace TokenAtlas

open Atom (Refusal)

/-- `splitting` says whether tokens are refined, and if so whether blanks around lines
are kept apart. `past` holds the yielded tokens, the latest first. -/
structure Cursor where
  source : List Token
  splitting : Option Bool
  pending : List Token
  past : List Token
  yielded : Nat
  fault : Option Refusal
  pulled : Nat
  atoms : Nat
deriving Repr

namespace Cursor

def ofTokens (splitting : Option Bool) (source : List Token) : Cursor :=
  ⟨source, splitting, [], [], 0, none, 0, 0⟩

/-- Whether looking ahead `count` tokens needs no more from the source. -/
def isFilled (c : Cursor) (count : Nat) : Bool :=
  c.fault.isSome || count = 0 || !(c.pending.drop (count - 1)).isEmpty

/-- Queue what a token of the source contributes. -/
def absorb (c : Cursor) (t : Token) : Cursor :=
  match c.splitting with
  | none => { c with pending := c.pending ++ [t], pulled := c.pulled + 1 }
  | some apart =>
    match Atom.atomize apart t with
    | .ok none => { c with pending := c.pending ++ [t], pulled := c.pulled + 1 }
    | .ok (some new) =>
      { c with
        pending := c.pending ++ new
        pulled := c.pulled + 1
        atoms := c.atoms + new.length }
    | .error e => { c with fault := some e, pulled := c.pulled + 1 }

/-- Pull from the given rest of the source until `count` tokens are queued. -/
def fillFrom (c : Cursor) (count : Nat) : List Token → Cursor
  | [] => { c with source := [] }
  | t :: rest =>
    if c.isFilled count then { c with source := t :: rest }
    else (c.absorb t).fillFrom count rest

def fill (c : Cursor) (count : Nat) : Cursor := c.fillFrom count c.source

/-- Move to the next token. -/
def advance (c : Cursor) : Except Refusal (Option Token) × Cursor :=
  let c := c.fill 1
  match c.pending with
  | t :: rest =>
    (.ok (some t), { c with pending := rest, past := t :: c.past, yielded := c.yielded + 1 })
  | [] =>
    match c.fault with
    | some e => (.error e, { c with fault := none })
    | none => (.ok none, c)

def current? (c : Cursor) : Option Token := c.past.head?

/-- The index of the current token. -/
def index? (c : Cursor) : Option Nat := if c.yielded = 0 then none else some (c.yielded - 1)

/-- The yielded token with a given index. -/
def get? (c : Cursor) (i : Nat) : Option Token :=
  if i < c.yielded then c.past[c.yielded - 1 - i]? else none

def history (c : Cursor) : List Token := c.past.reverse

/-- The token `n` places before the current one, which is itself at 0. -/
def behind (c : Cursor) (n : Nat) : Option Token := c.past[n]?

/-- The token `n` places after the next one. -/
def ahead (c : Cursor) (n : Nat) : Option Token × Cursor :=
  let c := c.fill (n + 1)
  (c.pending[n]?, c)

/-- The first token that is not passed over and the tokens that follow it, if it is
among the first `limit`. -/
def firstKept (skip : Token → Bool) : Nat → List Token → Option (Token × List Token)
  | 0, _ => none
  | _ + 1, [] => none
  | limit + 1, t :: rest => if skip t then firstKept skip limit rest else some (t, rest)

/-- The nearest of some tokens, the latest first, that is not passed over, and the
tokens before it. -/
def nearest (skip : Token → Bool) (ts : List Token) : Option (Token × List Token) :=
  firstKept skip Limits.lookahead ts

/-- The tokens before the current one, the latest first. -/
def before (c : Cursor) : List Token := c.past.drop 1

/-- The nearest token before the current one that is not passed over. -/
def behindSkipping (c : Cursor) (skip : Token → Bool) : Option Token :=
  (nearest skip c.before).map (·.1)

/-- The nearest token among the next `limit` from the `n`-th on that is not passed over. -/
def aheadFrom (c : Cursor) (skip : Token → Bool) (n : Nat) : Nat → Option Token × Cursor
  | 0 => (none, c)
  | limit + 1 =>
    match c.ahead n with
    | (none, c) => (none, c)
    | (some t, c) => if skip t then c.aheadFrom skip (n + 1) limit else (some t, c)

/-- The nearest token to come that is not passed over. -/
def aheadSkipping (c : Cursor) (skip : Token → Bool) : Option Token × Cursor :=
  c.aheadFrom skip 0 Limits.lookahead

def previousSignificant (c : Cursor) : Option Token := c.behindSkipping Token.isTrivia

def nextSignificant (c : Cursor) : Option Token × Cursor := c.aheadSkipping Token.isTrivia

/-- The state of a cursor in one line. -/
def toText (c : Cursor) : String :=
  let fault := match c.fault with
    | none => "None"
    | some e => s!"Some({e.describe})"
  s!"TokenCache \x7b history: {c.yielded}, pending: {c.pending.length}, fault: {fault} \x7d"

/-- What a token of the source puts into the stream: tokens, or a refusal. -/
def contribution (splitting : Option Bool) (t : Token) : List (Except Refusal Token) :=
  match splitting with
  | none => [.ok t]
  | some apart =>
    match Atom.refine apart t with
    | .ok new => new.map .ok
    | .error e => [.error e]

/-- Everything the cursor still has to yield, in order. -/
def plan (c : Cursor) : List (Except Refusal Token) :=
  c.pending.map .ok ++ c.fault.toList.map .error ++ c.source.flatMap (contribution c.splitting)

private theorem plan_absorb (c : Cursor) (t : Token) (rest : List Token) (h : c.fault = none) :
    plan { c.absorb t with source := rest } = plan { c with source := t :: rest } := by
  unfold absorb
  split
  · next hs => simp [plan, h, hs, contribution]
  · next apart hs =>
    split
    · next ht => simp [plan, h, hs, contribution, Atom.refine, ht, Except.map]
    · next new ht => simp [plan, h, hs, contribution, Atom.refine, ht, Except.map]
    · next e ht => simp [plan, h, hs, contribution, Atom.refine, ht, Except.map]

private theorem plan_fillFrom (c : Cursor) (count : Nat) (ts : List Token) :
    (c.fillFrom count ts).plan = plan { c with source := ts } := by
  induction ts generalizing c with
  | nil => rfl
  | cons t rest ih =>
    unfold fillFrom
    split
    · rfl
    · next h =>
      have hf : c.fault = none := by
        cases hc : c.fault with
        | none => rfl
        | some e => simp [isFilled, hc] at h
      rw [ih, plan_absorb c t rest hf]

/-- Pulling tokens into the queue changes nothing about what is to come. -/
theorem plan_fill (c : Cursor) (count : Nat) : (c.fill count).plan = c.plan :=
  plan_fillFrom c count c.source

end Cursor

end TokenAtlas
