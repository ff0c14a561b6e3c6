/-!
# Positions and spans

A position counts lines and columns from one, columns in characters, and keeps
the offset in bytes of UTF-8.  It is moved only by walking over characters, so a
position is determined by the text before it.
-/

namespace ShapeMend.Text

structure Position where
  line : Nat
  column : Nat
  offset : Nat
  deriving DecidableEq, Repr

namespace Position

def origin : Position := ⟨1, 1, 0⟩

def step (p : Position) (c : Char) : Position :=
  if c = '\n' then ⟨p.line + 1, 1, p.offset + c.utf8Size⟩
  else ⟨p.line, p.column + 1, p.offset + c.utf8Size⟩

def after (p : Position) (cs : List Char) : Position :=
  cs.foldl step p

@[simp] theorem after_nil (p : Position) : p.after [] = p := rfl

@[simp] theorem after_cons (p : Position) (c : Char) (cs : List Char) :
    p.after (c :: cs) = (p.step c).after cs := rfl

theorem after_append (p : Position) (as bs : List Char) :
    p.after (as ++ bs) = (p.after as).after bs :=
  List.foldl_append

end Position

/-- A stretch of a text: where it starts, and the offset at which it stops. -/
structure Span where
  start : Position
  stop : Nat
  deriving DecidableEq, Repr

namespace Span

def point (p : Position) : Span := ⟨p, p.offset⟩

def through (first last : Span) : Span :=
  { first with stop := max last.stop first.stop }

end Span

end ShapeMend.Text
