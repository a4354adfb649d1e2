/-!
Blank characters and the ways a text is divided by them. The blanks are the twenty-five
characters with the Unicode property `White_Space`; a zero-width space or a byte-order mark
is not among them.
-/

namespace DrawScript.Text

def blankRanges : List (Nat × Nat) :=
  [(0x0009, 0x000D), (0x0020, 0x0020), (0x0085, 0x0085), (0x00A0, 0x00A0), (0x1680, 0x1680),
   (0x2000, 0x200A), (0x2028, 0x2029), (0x202F, 0x202F), (0x205F, 0x205F), (0x3000, 0x3000)]

def isBlank (c : Char) : Bool :=
  blankRanges.any fun r => r.1 ≤ c.toNat && c.toNat ≤ r.2

def skipBlanks (cs : List Char) : List Char := cs.dropWhile isBlank

def trimEnd (cs : List Char) : List Char := (skipBlanks cs.reverse).reverse

def trim (cs : List Char) : List Char := trimEnd (skipBlanks cs)

theorem trimEnd_cons {c : Char} (hc : isBlank c = false) (cs : List Char) :
    trimEnd (c :: cs) = c :: trimEnd cs := by
  rw [trimEnd, trimEnd, skipBlanks, skipBlanks, List.reverse_cons, List.dropWhile_append]
  split
  next hempty =>
    rw [List.isEmpty_iff.mp hempty, List.dropWhile_cons_of_neg (by simp [hc])]
    rfl
  next =>
    rw [List.reverse_append]
    rfl

theorem trim_cons {c : Char} (hc : isBlank c = false) (cs : List Char) :
    trim (c :: cs) = c :: trimEnd cs := by
  rw [trim, skipBlanks, List.dropWhile_cons_of_neg (by simp [hc]), trimEnd_cons hc]

def indentation (cs : List Char) : Nat := (cs.takeWhile isBlank).length

def compact (cs : List Char) : List Char := cs.filter fun c => !isBlank c

@[simp] theorem compact_append (cs ds : List Char) : compact (cs ++ ds) = compact cs ++ compact ds := by
  simp [compact]

theorem isBlank_of_mem_compact {c : Char} {cs : List Char} (h : c ∈ compact cs) :
    isBlank c = false := by
  simpa using (List.mem_filter.mp h).2

theorem compact_eq_self {cs : List Char} (h : ∀ c ∈ cs, isBlank c = false) : compact cs = cs := by
  simpa [compact] using h

@[simp] theorem compact_compact (cs : List Char) : compact (compact cs) = compact cs :=
  compact_eq_self fun _ h => isBlank_of_mem_compact h

/-- The runs between the characters that satisfy `p`; empty runs are kept, so there is
always at least one. -/
def splitOn (p : Char → Bool) : List Char → List (List Char)
  | [] => [[]]
  | c :: cs =>
    if p c then [] :: splitOn p cs
    else match splitOn p cs with
      | [] => [[c]]
      | run :: runs => (c :: run) :: runs

theorem splitOn_ne_nil (p : Char → Bool) (cs : List Char) : splitOn p cs ≠ [] := by
  cases cs with
  | nil => simp [splitOn]
  | cons c cs =>
    unfold splitOn
    split
    · simp
    · split <;> simp

def words (cs : List Char) : List (List Char) :=
  (splitOn isBlank cs).filter fun run => !run.isEmpty

/-- The lines of a text: the runs between line breaks. A break at the very end does not start
another line. -/
def lines (cs : List Char) : List (List Char) :=
  let runs := splitOn (· == '\n') cs
  if runs.getLast? = some [] then runs.dropLast else runs

end DrawScript.Text
