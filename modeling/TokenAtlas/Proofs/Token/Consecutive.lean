import TokenAtlas.Proofs.Text.Seams
import TokenAtlas.Token.Basic

/-! Tokens that stand one behind the other. Each begins where the text of the one before
it ends. Main statement: in a seamless row the position of a token is the one behind the
joined text of all tokens before it. -/

namespace TokenAtlas

namespace Token

/-- The texts of tokens as lists of characters. -/
def texts (ts : List Token) : List (List Char) := ts.map (·.text.toList)

/-- The text that tokens make up together. -/
def joined (ts : List Token) : String := String.join (ts.map (·.text))

@[simp] theorem texts_nil : texts [] = [] := rfl

@[simp] theorem texts_cons (t : Token) (ts : List Token) :
    texts (t :: ts) = t.text.toList :: texts ts := rfl

@[simp] theorem texts_append (a b : List Token) : texts (a ++ b) = texts a ++ texts b :=
  List.map_append

theorem joined_cons (t : Token) (ts : List Token) : joined (t :: ts) = t.text ++ joined ts := by
  simp [joined]

theorem joined_append (as bs : List Token) : joined (as ++ bs) = joined as ++ joined bs := by
  simp [joined, String.join_append]

theorem toList_joined (ts : List Token) : (joined ts).toList = (texts ts).flatten := by
  rw [joined, String.toList_join, texts, List.flatMap_def, List.map_map]
  rfl

end Token

/-- The position behind tokens that are passed one by one from `p` on. -/
def Position.behind (p : Position) (ts : List Token) : Position :=
  ts.foldl (fun p t => p.advance t.text) p

theorem Position.behind_eq (p : Position) {ts : List Token} (h : Text.Seamless (Token.texts ts)) :
    p.behind ts = p.advance (Token.joined ts) := by
  rw [Token.joined, ← p.foldl_advance (by rw [List.map_map]; exact h), List.foldl_map]
  rfl

/-- Every token begins where the one before it ends, and the first one at `p`. -/
def Consecutive (p : Position) : List Token → Prop
  | [] => True
  | t :: rest => t.position = p ∧ Consecutive (p.advance t.text) rest

theorem consecutive_append {p : Position} {a b : List Token} :
    Consecutive p (a ++ b) ↔ Consecutive p a ∧ Consecutive (p.behind a) b := by
  induction a generalizing p with
  | nil => simp [Consecutive, Position.behind]
  | cons t a ih => simp [Consecutive, ih, Position.behind, and_assoc]

theorem Consecutive.position_getElem {p : Position} {ts : List Token} (h : Consecutive p ts)
    (hs : Text.Seamless (Token.texts ts)) (i : Nat) (hi : i < ts.length) :
    ts[i].position = p.advance (Token.joined (ts.take i)) := by
  have hcut : ts.take i ++ ts[i] :: ts.drop (i + 1) = ts := by
    rw [← List.drop_eq_getElem_cons hi, List.take_append_drop]
  rw [← hcut, Token.texts_append, Text.seamless_append] at hs
  rw [← hcut, consecutive_append] at h
  rw [← p.behind_eq hs.1]
  exact h.2.1

end TokenAtlas
