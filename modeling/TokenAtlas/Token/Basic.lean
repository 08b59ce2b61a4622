import TokenAtlas.Span
import TokenAtlas.Text.Quoted
import TokenAtlas.Token.Kind

/-! Tokens: a kind, a text and the position of the text's first byte. -/

namespace TokenAtlas

structure Token where
  kind : Kind
  text : String
  line : Nat
  offset : Nat
deriving Repr, DecidableEq, Inhabited

namespace Token

def position (t : Token) : Position := ⟨t.offset, t.line⟩

def span (t : Token) : Span := .covering t.position t.text

/-- The offset behind the last byte. -/
def endOffset (t : Token) : Nat := t.offset + t.text.utf8ByteSize

/-- Whether `next` begins where `t` ends. -/
def isAdjacentTo (t next : Token) : Bool := next.offset = t.endOffset

def isTrivia (t : Token) : Bool := t.kind.isTrivia

/-- Equality of texts up to the case of ASCII letters. -/
def textIs (t : Token) (word : String) : Bool := t.text.toLower = word.toLower

def toText (t : Token) : String :=
  s!"{t.kind.name}({Text.quoted t.text}) at {t.position.toText}"

end Token

end TokenAtlas
