import TokenAtlas.Text.LineBreak

/-! Positions and spans in a source text. A position counts bytes from 0 and lines
from 1; passing over a text adds its bytes and its line breaks. -/

namespace TokenAtlas

structure Position where
  offset : Nat
  line : Nat
deriving Repr, DecidableEq

namespace Position

/-- Where every source begins. -/
def start : Position := ⟨0, 1⟩

/-- The position behind `text`, when `text` begins at `p`. -/
def advance (p : Position) (text : String) : Position :=
  ⟨p.offset + text.utf8ByteSize, p.line + Text.lineBreaks text.toList⟩

/-- Positions are ordered by offset and then by line. -/
def compare (p q : Position) : Ordering :=
  (Ord.compare p.offset q.offset).then (Ord.compare p.line q.line)

def toText (p : Position) : String := s!"{p.line}@{p.offset}"

end Position

/-- The text between two positions, the second excluded. -/
structure Span where
  start : Position
  stop : Position
deriving Repr, DecidableEq

namespace Span

/-- The span of `text` placed at `p`. -/
def covering (p : Position) (text : String) : Span := ⟨p, p.advance text⟩

/-- The smallest span over both. Where two ends lie at one offset the other span's end
is taken, line included. -/
def merge (a b : Span) : Span where
  start := if a.start.offset < b.start.offset then a.start else b.start
  stop := if b.stop.offset < a.stop.offset then a.stop else b.stop

/-- The length in bytes. -/
def length (s : Span) : Nat := s.stop.offset - s.start.offset

def isEmpty (s : Span) : Bool := s.length = 0

def toText (s : Span) : String :=
  let lines :=
    if s.start.line = s.stop.line then s!"line {s.start.line}"
    else s!"lines {s.start.line}-{s.stop.line}"
  s!"{lines} [{s.start.offset}..{s.stop.offset})"

end Span

end TokenAtlas
