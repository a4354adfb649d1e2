import DrawScript.Text.Blank
import DrawScript.Token.Basic

/-!
Division of a script into tokens. The text is first cut into pieces that cover all of it: single
blanks, comments from `//` to the end of their line, symbols and words. Placing the pieces one
after another gives every token its position. A dot between an all-digit word and a digit is a
decimal point and stays in the word, and three dots are one symbol.
-/

namespace DrawScript

inductive Piece where
  | blank (c : Char)
  | comment (text : List Char)
  | symbol (kind : TokenKind) (text : List Char)
  | word (text : List Char)
  deriving DecidableEq, Repr

namespace Piece

def chars : Piece → List Char
  | .blank c => [c]
  | .comment text => text
  | .symbol _ text => text
  | .word text => text

def endsWord (c : Char) : Bool := Text.isBlank c || (TokenKind.ofChar? c).isSome

def startsWithDigit : List Char → Bool
  | [] => false
  | c :: _ => c.isDigit

/-- The rest of a word, and what follows the word. The flag says that the word so far is made of
digits. -/
def takeWord (digits : Bool) : List Char → List Char × List Char
  | [] => ([], [])
  | c :: cs =>
    if c = '.' ∧ digits ∧ startsWithDigit cs then
      let (more, rest) := takeWord false cs
      (c :: more, rest)
    else if endsWord c then ([], c :: cs)
    else
      let (more, rest) := takeWord (digits && c.isDigit) cs
      (c :: more, rest)

theorem takeWord_append (digits : Bool) (cs : List Char) :
    (takeWord digits cs).1 ++ (takeWord digits cs).2 = cs := by
  induction cs generalizing digits with
  | nil => rfl
  | cons c cs ih =>
    unfold takeWord
    split
    · simp [ih]
    · split
      · rfl
      · simp [ih]

def first (c : Char) (cs : List Char) : Piece × List Char :=
  if c = '/' ∧ cs.head? = some '/' then
    (.comment (c :: cs.takeWhile (· != '\n')), cs.dropWhile (· != '\n'))
  else if Text.isBlank c then (.blank c, cs)
  else if c = '.' ∧ cs.take 2 = ['.', '.'] then (.symbol .ellipsis ['.', '.', '.'], cs.drop 2)
  else match TokenKind.ofChar? c with
    | some kind => (.symbol kind [c], cs)
    | none =>
      let (more, rest) := takeWord c.isDigit cs
      (.word (c :: more), rest)

theorem first_append (c : Char) (cs : List Char) :
    (first c cs).1.chars ++ (first c cs).2 = c :: cs := by
  unfold first
  split
  · simp [chars]
  · split
    · simp [chars]
    · split
      next h =>
        obtain ⟨rfl, h⟩ := h
        have := List.take_append_drop 2 cs
        rw [h] at this
        simpa [chars] using this
      next =>
        split
        · simp [chars]
        · simp [chars, takeWord_append]

theorem chars_first_ne_nil (c : Char) (cs : List Char) : (first c cs).1.chars ≠ [] := by
  unfold first
  repeat' split
  all_goals simp [chars]

theorem length_first_lt (c : Char) (cs : List Char) :
    (first c cs).2.length < (c :: cs).length := by
  have h := congrArg List.length (first_append c cs)
  have hpos := List.length_pos_iff.mpr (chars_first_ne_nil c cs)
  simp only [List.length_append] at h
  omega

def split : List Char → List Piece
  | [] => []
  | c :: cs => (first c cs).1 :: split (first c cs).2
termination_by cs => cs.length
decreasing_by exact length_first_lt c cs

theorem flatMap_chars_split (cs : List Char) : (split cs).flatMap chars = cs := by
  induction cs using split.induct with
  | case1 => simp [split]
  | case2 c cs ih =>
    rw [split, List.flatMap_cons, ih, first_append]

def token? (start : Span) : Piece → Option Token
  | .blank _ => none
  | .comment _ => none
  | .symbol kind text => some ⟨kind, String.ofList text, start⟩
  | .word text => some ⟨TokenKind.classify (String.ofList text), String.ofList text, start⟩

def place (start : Span) : List Piece → List Token
  | [] => []
  | p :: ps =>
    let rest := place (start.advanceAll p.chars) ps
    match p.token? start with
    | some t => t :: rest
    | none => rest

end Piece

namespace Token

def tokenize (source : String) : List Token :=
  Piece.place Span.start (Piece.split source.toList)

end Token

end DrawScript
