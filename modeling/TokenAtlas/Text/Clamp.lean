/-! Cutting texts to a number of bytes. A cut never falls inside a character. -/

namespace TokenAtlas.Text

/-- The longest prefix of at most `limit` bytes. -/
def fitting (limit : Nat) : List Char → List Char
  | [] => []
  | c :: rest => if c.utf8Size ≤ limit then c :: fitting (limit - c.utf8Size) rest else []

/-- The length of some characters in bytes. -/
def byteLength : List Char → Nat
  | [] => 0
  | c :: rest => c.utf8Size + byteLength rest

theorem fitting_le (limit : Nat) (cs : List Char) : byteLength (fitting limit cs) ≤ limit := by
  induction cs generalizing limit with
  | nil => simp [fitting, byteLength]
  | cons c rest ih =>
    simp only [fitting]
    split
    · have := ih (limit - c.utf8Size)
      simp only [byteLength] at this ⊢
      omega
    · simp [byteLength]

theorem fitting_prefix (limit : Nat) (cs : List Char) : fitting limit cs <+: cs := by
  induction cs generalizing limit with
  | nil => simp [fitting]
  | cons c rest ih =>
    simp only [fitting]
    split
    · exact List.prefix_cons_iff.2 (.inr ⟨_, rfl, ih _⟩)
    · exact List.nil_prefix

/-- A text of more than `limit` bytes is cut, with three dots behind the cut. -/
def clamp (limit : Nat) (s : String) : String :=
  if s.utf8ByteSize ≤ limit then s else String.ofList (fitting limit s.toList) ++ "..."

end TokenAtlas.Text
