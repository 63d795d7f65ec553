/-!
Places in a source text.  Lines and columns are counted from one and in characters, offsets from
zero and in bytes.  The counts have no upper bound; a source that is shorter than the largest word
of 32 bits has only lines and columns that fit such words.
-/

namespace Attest

structure Position where
  line : Nat
  column : Nat
  offset : Nat
deriving DecidableEq, Repr

namespace Position

def start : Position := ⟨1, 1, 0⟩

instance : Inhabited Position := ⟨start⟩

/-- The place behind a character. -/
def next (p : Position) (c : Char) : Position :=
  if c == '\n' then ⟨p.line + 1, 1, p.offset + c.utf8Size⟩
  else ⟨p.line, p.column + 1, p.offset + c.utf8Size⟩

def after (p : Position) (cs : List Char) : Position := cs.foldl next p

instance : ToString Position := ⟨fun p => s!"{p.line}:{p.column}"⟩

end Position

/-- A stretch of source text, its end excluded. -/
structure Span where
  first : Position
  last : Position
deriving DecidableEq, Repr

namespace Span

def empty (p : Position) : Span := ⟨p, p⟩

instance : Inhabited Span := ⟨empty Position.start⟩

def size (s : Span) : Nat := s.last.offset - s.first.offset

def isEmpty (s : Span) : Bool := s.size == 0

def contains (s t : Span) : Bool :=
  s.first.offset ≤ t.first.offset && t.last.offset ≤ s.last.offset

end Span
end Attest
