/-!
Positions in a source text. Lines and columns are counted from one, and a column counts
characters. A line break moves to the first column of the next line; every other character
moves one column on.
-/

namespace DrawScript

structure Span where
  line : Nat
  column : Nat
  deriving DecidableEq, Repr

namespace Span

def start : Span := ⟨1, 1⟩

instance : Inhabited Span := ⟨start⟩

def text (s : Span) : String :=
  "line " ++ toString s.line ++ ", column " ++ toString s.column

def advance (s : Span) (c : Char) : Span :=
  if c = '\n' then ⟨s.line + 1, 1⟩ else ⟨s.line, s.column + 1⟩

def advanceAll (s : Span) (cs : List Char) : Span := cs.foldl advance s

@[simp] theorem advanceAll_nil (s : Span) : s.advanceAll [] = s := rfl

@[simp] theorem advanceAll_cons (s : Span) (c : Char) (cs : List Char) :
    s.advanceAll (c :: cs) = (s.advance c).advanceAll cs := rfl

@[simp] theorem advanceAll_append (s : Span) (as bs : List Char) :
    s.advanceAll (as ++ bs) = (s.advanceAll as).advanceAll bs :=
  List.foldl_append

end Span

end DrawScript
