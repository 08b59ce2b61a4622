import TokenAtlas.Token.Basic

/-! Records of a token dump. A record that carries no line or no offset continues where
the token before it ended. -/

namespace TokenAtlas.Dump

structure Record where
  kind : Kind
  text : String
  line : Option Nat
  offset : Option Nat
deriving Repr, DecidableEq

/-- The token of a record that follows a token which ended at `p`. -/
def Record.token (r : Record) (p : Position) : Token :=
  ⟨r.kind, r.text, r.line.getD p.line, r.offset.getD p.offset⟩

/-- The tokens of records, the first of which continues at `p`. -/
def tokensFrom (p : Position) (rs : List Record) : List Token := go p [] rs
where
  go (p : Position) (done : List Token) : List Record → List Token
    | [] => done.reverse
    | r :: rest =>
      let t := r.token p
      go (t.position.advance t.text) (t :: done) rest

/-- The tokens of all records of a dump. -/
def tokens (rs : List Record) : List Token := tokensFrom .start rs

private theorem tokensFrom_go_eq (p : Position) (done : List Token) (rs : List Record) :
    tokensFrom.go p done rs = done.reverse ++ tokensFrom.go p [] rs := by
  induction rs generalizing p done with
  | nil => simp [tokensFrom.go]
  | cons r rest ih =>
    simp only [tokensFrom.go]
    rw [ih, ih _ [_]]
    simp

@[simp] theorem tokensFrom_nil (p : Position) : tokensFrom p [] = [] := rfl

theorem tokensFrom_cons (p : Position) (r : Record) (rest : List Record) :
    tokensFrom p (r :: rest) =
      r.token p :: tokensFrom ((r.token p).position.advance (r.token p).text) rest := by
  simp only [tokensFrom, tokensFrom.go]
  rw [tokensFrom_go_eq]
  rfl

end TokenAtlas.Dump
