import DrawScript.Proofs.Token.Spacing

/-!
Tokens by one scan of a text. A scanner goes through the characters with its line and column, and
keeps the word that it is in and where that word started. Comments, blanks and symbols end the word. The
scan of a text gives the tokens of its pieces.
-/

namespace DrawScript

structure Scanner where
  chars : List Char
  pos : Nat
  line : Nat
  column : Nat
  word : List Char
  wordStart : Span
  tokens : List Token

namespace Scanner

open Piece (endsWord takeWord startsWithDigit first split place place_cons)

def start (source : String) : Scanner := ⟨source.toList, 0, 1, 1, [], Span.start, []⟩

def peek (s : Scanner) (offset : Nat) : Option Char := s.chars[s.pos + offset]?

def span (s : Scanner) : Span := ⟨s.line, s.column⟩

def bump (s : Scanner) (n : Nat) : Scanner := { s with pos := s.pos + n, column := s.column + n }

def emit (s : Scanner) (kind : TokenKind) (text : List Char) (span : Span) : Scanner :=
  { s with tokens := s.tokens ++ [⟨kind, String.ofList text, span⟩] }

def isDecimalPoint (s : Scanner) : Bool :=
  !s.word.isEmpty && s.word.all Char.isDigit && (s.peek 1).any Char.isDigit

def accumulate (s : Scanner) (c : Char) : Scanner :=
  bump { s with
    word := s.word ++ [c]
    wordStart := if s.word.isEmpty then s.span else s.wordStart } 1

def flushWord (s : Scanner) : Scanner :=
  if s.word.isEmpty then s
  else { s with word := [] }.emit (TokenKind.classify (String.ofList s.word)) s.word s.wordStart

@[simp] theorem chars_emit (s : Scanner) (kind : TokenKind) (text : List Char) (span : Span) :
    (s.emit kind text span).chars = s.chars := rfl

@[simp] theorem pos_emit (s : Scanner) (kind : TokenKind) (text : List Char) (span : Span) :
    (s.emit kind text span).pos = s.pos := rfl

def skipLine (s : Scanner) : Scanner :=
  if h : s.pos < s.chars.length then
    if s.chars[s.pos] = '\n' then s else skipLine (s.bump 1)
  else s
termination_by s.chars.length - s.pos
decreasing_by
  simp only [bump]
  omega

def step (s : Scanner) (c : Char) : Scanner :=
  if c = '/' ∧ s.peek 1 = some '/' then s.flushWord.skipLine
  else if c = '\n' then { s.flushWord with pos := s.pos + 1, line := s.line + 1, column := 1 }
  else if c = '\r' ∧ s.peek 1 = some '\n' then { s.flushWord with pos := s.pos + 1 }
  else if Text.isBlank c then s.flushWord.bump 1
  else if c = '.' ∧ s.peek 1 = some '.' ∧ s.peek 2 = some '.' then
    (s.flushWord.emit .ellipsis ['.', '.', '.'] s.span).bump 3
  else if c = '.' ∧ s.isDecimalPoint then s.accumulate c
  else match TokenKind.ofChar? c with
    | some kind => (s.flushWord.emit kind [c] s.span).bump 1
    | none => s.accumulate c

def rest (s : Scanner) : List Char := s.chars.drop s.pos

variable {s t : Scanner} {c : Char} {cs : List Char}

theorem peek_eq (s : Scanner) (offset : Nat) : s.peek offset = s.rest[offset]? := by
  rw [peek, rest, List.getElem?_drop]

theorem rest_eq_cons (h : s.pos < s.chars.length) :
    s.rest = s.chars[s.pos] :: s.chars.drop (s.pos + 1) :=
  List.drop_eq_getElem_cons h

theorem rest_bump (s : Scanner) (n : Nat) : (s.bump n).rest = s.rest.drop n :=
  (List.drop_drop ..).symm

@[simp] theorem chars_flushWord (s : Scanner) : s.flushWord.chars = s.chars := by
  unfold flushWord
  split <;> rfl

@[simp] theorem pos_flushWord (s : Scanner) : s.flushWord.pos = s.pos := by
  unfold flushWord
  split <;> rfl

@[simp] theorem line_flushWord (s : Scanner) : s.flushWord.line = s.line := by
  unfold flushWord
  split <;> rfl

@[simp] theorem span_flushWord (s : Scanner) : s.flushWord.span = s.span := by
  unfold flushWord
  split <;> rfl

@[simp] theorem word_flushWord (s : Scanner) : s.flushWord.word = [] := by
  unfold flushWord
  split
  next h => exact List.isEmpty_iff.mp h
  next => rfl

@[simp] theorem rest_flushWord (s : Scanner) : s.flushWord.rest = s.rest := by
  simp [rest]

theorem skipLine_eq (s : Scanner) :
    s.skipLine = s.bump (s.rest.takeWhile (· != '\n')).length := by
  induction s using skipLine.induct with
  | case1 s h hbreak =>
    rw [skipLine, dif_pos h, if_pos hbreak, rest_eq_cons h, hbreak]
    rfl
  | case2 s h hbreak ih =>
    have hlater : (s.bump 1).rest = s.chars.drop (s.pos + 1) := rfl
    rw [skipLine, dif_pos h, if_neg hbreak, ih, rest_eq_cons h, hlater,
      List.takeWhile_cons_of_pos (by simpa using hbreak), List.length_cons]
    simp [bump, Nat.add_assoc, Nat.add_comm]
  | case3 s h =>
    rw [skipLine, dif_neg h, rest, List.drop_eq_nil_of_le (Nat.not_lt.mp h)]
    rfl

theorem step_advances (h : s.rest = c :: cs) :
    (s.step c).chars = s.chars ∧ s.pos < (s.step c).pos := by
  have hbump : ∀ (u : Scanner) (n : Nat), (u.bump (n + 1)).chars = u.chars ∧ u.pos < (u.bump (n + 1)).pos :=
    fun u n => ⟨rfl, Nat.lt_add_of_pos_right n.succ_pos⟩
  unfold step
  split_ifs with hcomment
  · rw [skipLine_eq, rest_flushWord, h, List.takeWhile_cons_of_pos (by simp [hcomment.1])]
    simpa using hbump s.flushWord _
  · simp
  · simp
  · simpa using hbump s.flushWord 0
  · simpa using hbump (s.flushWord.emit .ellipsis ['.', '.', '.'] s.span) 2
  · exact hbump _ 0
  · split
    next kind _ => simpa using hbump (s.flushWord.emit kind [c] s.span) 0
    next => exact hbump _ 0

def run (s : Scanner) : List Token :=
  if h : s.pos < s.chars.length then run (s.step s.chars[s.pos]) else s.flushWord.tokens
termination_by s.chars.length - s.pos
decreasing_by
  obtain ⟨hchars, hpos⟩ := step_advances (rest_eq_cons h)
  rw [hchars]
  omega

/-- The tokens that a scan gives, by the pieces of what has not been scanned. -/
def result (s : Scanner) : List Token :=
  if s.word = [] then s.tokens ++ place s.span (split s.rest)
  else
    let (more, rest) := takeWord (s.word.all Char.isDigit) s.rest
    let text := String.ofList (s.word ++ more)
    s.tokens ++ ⟨TokenKind.classify text, text, s.wordStart⟩ :: place (s.span.advanceAll more) (split rest)

theorem result_of_word_eq_nil (h : s.word = []) :
    s.result = s.tokens ++ place s.span (split s.rest) := by
  rw [result, if_pos h]

theorem result_flushWord (h : takeWord (s.word.all Char.isDigit) s.rest = ([], s.rest)) :
    s.flushWord.result = s.result := by
  by_cases hword : s.word = []
  · rw [flushWord, if_pos (List.isEmpty_iff.mpr hword)]
  · rw [result_of_word_eq_nil s.word_flushWord, span_flushWord, rest_flushWord, result, if_neg hword, h,
      flushWord, if_neg (mt List.isEmpty_iff.mp hword)]
    simp [emit]

theorem result_of_first (hrest : s.rest = c :: cs) (hs : s.word = []) (ht : t.word = [])
    (hchars : t.chars = s.chars) (hpos : t.pos = s.pos + (first c cs).1.chars.length)
    (hspan : t.span = s.span.advanceAll (first c cs).1.chars)
    (htokens : t.tokens = s.tokens ++ ((first c cs).1.token? s.span).toList) :
    t.result = s.result := by
  have hlater : t.rest = (first c cs).2 := by
    rw [rest, hchars, hpos, ← List.drop_drop, ← rest, hrest, ← Piece.first_append c cs, List.drop_left]
  rw [result_of_word_eq_nil hs, result_of_word_eq_nil ht, hrest, hlater, hspan, htokens, split,
    place_cons, List.append_assoc]

theorem peek_of_rest (hrest : s.rest = c :: cs) : s.peek 1 = cs.head? ∧ s.peek 2 = cs[1]? := by
  rw [peek_eq, peek_eq, hrest, List.head?_eq_getElem?]
  exact ⟨rfl, rfl⟩

theorem isDecimalPoint_iff (hrest : s.rest = c :: cs) :
    s.isDecimalPoint = true ↔
      s.word ≠ [] ∧ s.word.all Char.isDigit = true ∧ startsWithDigit cs = true := by
  rw [isDecimalPoint, (peek_of_rest hrest).1]
  cases cs <;> simp [startsWithDigit, and_assoc]

theorem result_flushWord_of_endsWord (hrest : s.rest = c :: cs) (hc : endsWord c = true)
    (hpoint : ¬ (c = '.' ∧ s.isDecimalPoint = true)) : s.flushWord.result = s.result := by
  by_cases hword : s.word = []
  · rw [flushWord, if_pos (List.isEmpty_iff.mpr hword)]
  · have hgoesOn : ¬ (c = '.' ∧ s.word.all Char.isDigit = true ∧ startsWithDigit cs = true) :=
      fun h => hpoint ⟨h.1, (isDecimalPoint_iff hrest).mpr ⟨hword, h.2⟩⟩
    refine result_flushWord ?_
    rw [hrest, takeWord, if_neg hgoesOn, if_pos hc]

theorem advanceAll_of_not_mem {cs : List Char} (h : '\n' ∉ cs) (start : Span) :
    start.advanceAll cs = ⟨start.line, start.column + cs.length⟩ := by
  induction cs generalizing start with
  | nil => rfl
  | cons c cs ih =>
    obtain ⟨hc, hcs⟩ := not_or.mp (mt List.mem_cons.mpr h)
    rw [Span.advanceAll_cons, ih hcs, Span.advance, if_neg (Ne.symm hc), List.length_cons,
      Nat.add_comm cs.length 1, Nat.add_assoc]

theorem result_bump {tokens : List Token} {p : Piece} {later : List Char} (hrest : s.rest = c :: cs)
    (hs : s.word = []) (hfirst : first c cs = (p, later)) (hline : '\n' ∉ p.chars)
    (htokens : tokens = s.tokens ++ (p.token? s.span).toList) :
    (bump { s with tokens := tokens } p.chars.length).result = s.result := by
  refine result_of_first hrest hs hs rfl ?_ ?_ ?_
  · rw [hfirst]
    rfl
  · rw [hfirst, advanceAll_of_not_mem hline]
    rfl
  · rw [hfirst]
    exact htokens

/-- A carriage return before a line break is not counted, and the break forgets the column. -/
theorem result_return (hrest : s.rest = '\r' :: '\n' :: cs) (hs : s.word = []) :
    result { s with pos := s.pos + 1 } = s.result := by
  have hlater : rest { s with pos := s.pos + 1 } = '\n' :: cs := by
    rw [rest, ← List.drop_drop, ← rest, hrest]
    rfl
  rw [result_of_word_eq_nil hs, result_of_word_eq_nil (s := { s with pos := s.pos + 1 }) hs, hlater, hrest,
    Piece.split_of_isBlank (by decide) cs, Piece.split_of_isBlank (by decide) ('\n' :: cs),
    Piece.split_of_isBlank (by decide) cs]
  rfl

theorem result_accumulate (hrest : s.rest = c :: cs) (hbreak : c ≠ '\n')
    (hnew : s.word = [] → first c cs =
      (.word (c :: (takeWord c.isDigit cs).1), (takeWord c.isDigit cs).2))
    (hold : s.word ≠ [] → takeWord (s.word.all Char.isDigit) (c :: cs) =
      (c :: (takeWord (s.word.all Char.isDigit && c.isDigit) cs).1,
        (takeWord (s.word.all Char.isDigit && c.isDigit) cs).2)) :
    (s.accumulate c).result = s.result := by
  have hlater : (s.accumulate c).rest = cs := by
    rw [accumulate, rest_bump]
    exact congrArg (List.drop 1) hrest
  have hspan : (s.accumulate c).span = s.span.advance c := by
    rw [Span.advance, if_neg hbreak]
    rfl
  have hdigits : (s.accumulate c).word.all Char.isDigit = (s.word.all Char.isDigit && c.isDigit) := by
    simp [accumulate, bump]
  rw [result, if_neg (by simp [accumulate, bump]), hlater, hspan, hdigits]
  by_cases hword : s.word = []
  · rw [result_of_word_eq_nil hword, hrest, split, hnew hword, place_cons]
    simp [accumulate, bump, hword, Piece.token?, Piece.chars]
  · rw [result, if_neg hword, hrest, hold hword]
    simp [accumulate, bump, hword]

theorem result_comment (hrest : s.rest = '/' :: cs) (hs : s.word = []) (hslash : cs.head? = some '/') :
    s.skipLine.result = s.result := by
  have hline : '\n' ∉ '/' :: cs.takeWhile (· != '\n') := by
    intro hmem
    rcases List.mem_cons.mp hmem with h | h
    · cases h
    · simpa using List.mem_takeWhile_imp h
  rw [skipLine_eq, hrest, List.takeWhile_cons_of_pos (by decide)]
  exact result_bump (p := .comment _) hrest hs (by rw [first, if_pos ⟨rfl, hslash⟩]) hline
    (List.append_nil _).symm

theorem result_break (hrest : s.rest = '\n' :: cs) (hs : s.word = []) :
    result { s with pos := s.pos + 1, line := s.line + 1, column := 1 } = s.result := by
  have hfirst : first '\n' cs = (.blank '\n', cs) := Piece.first_of_isBlank (by decide) cs
  refine result_of_first hrest hs hs rfl ?_ ?_ ?_
  · rw [hfirst]
    rfl
  · rw [hfirst]
    rfl
  · rw [hfirst]
    exact (List.append_nil _).symm

theorem result_step (hrest : s.rest = c :: cs) : (s.step c).result = s.result := by
  obtain ⟨hone, htwo⟩ := peek_of_rest hrest
  have hflushed : s.flushWord.rest = c :: cs := s.rest_flushWord.trans hrest
  have htake : cs.take 2 = ['.', '.'] ↔ cs.head? = some '.' ∧ cs[1]? = some '.' := by
    rcases cs with _ | ⟨a, _ | ⟨b, cs⟩⟩ <;> simp
  have hflush := result_flushWord_of_endsWord hrest
  unfold step
  rw [hone, htwo]
  split_ifs with hcomment hbreak hreturn hblank hdots hpoint
  · obtain ⟨rfl, hslash⟩ := hcomment
    rw [← hflush (by decide) (by simp)]
    exact result_comment hflushed s.word_flushWord hslash
  · subst hbreak
    rw [← hflush (by decide) (by simp), ← pos_flushWord, ← line_flushWord]
    exact result_break hflushed s.word_flushWord
  · obtain ⟨rfl, hnext⟩ := hreturn
    obtain ⟨cs, rfl⟩ := List.head?_eq_some_iff.mp hnext
    rw [← hflush (by decide) (by simp), ← pos_flushWord]
    exact result_return hflushed s.word_flushWord
  · have hline : '\n' ∉ [c] := by simpa using Ne.symm hbreak
    have hends : endsWord c = true := by simp [endsWord, hblank]
    rw [← hflush hends fun h => Piece.ne_of_isBlank hblank (by decide) h.1]
    exact result_bump (p := .blank c) hflushed s.word_flushWord (Piece.first_of_isBlank hblank cs) hline
      (List.append_nil _).symm
  · obtain ⟨rfl, hdots⟩ := hdots
    have hpoint : ¬ ('.' = '.' ∧ s.isDecimalPoint = true) := by
      obtain ⟨later, rfl⟩ := List.head?_eq_some_iff.mp hdots.1
      exact fun h => Bool.false_ne_true ((isDecimalPoint_iff hrest).mp h.2).2.2
    rw [← hflush (by decide) hpoint, ← span_flushWord]
    exact result_bump (p := .symbol .ellipsis ['.', '.', '.']) hflushed s.word_flushWord
      (by rw [first, if_neg hcomment, if_neg hblank, if_pos ⟨rfl, htake.mpr hdots⟩]) (by decide) rfl
  · obtain ⟨rfl, hpoint⟩ := hpoint
    obtain ⟨hword, hdigits, hdigit⟩ := (isDecimalPoint_iff hrest).mp hpoint
    refine result_accumulate hrest (by decide) (fun h => absurd h hword) fun _ => ?_
    rw [takeWord, if_pos ⟨rfl, hdigits, hdigit⟩, hdigits]
    rfl
  · have hdots : ¬ (c = '.' ∧ cs.take 2 = ['.', '.']) := by rwa [htake]
    split
    next kind hkind =>
      have hends : endsWord c = true := by simp [endsWord, hkind]
      have hline : '\n' ∉ [c] := by simpa using Ne.symm hbreak
      rw [← hflush hends hpoint, ← span_flushWord]
      exact result_bump (p := .symbol kind [c]) hflushed s.word_flushWord
        (by rw [first, if_neg hcomment, if_neg hblank, if_neg hdots, hkind]) hline rfl
    next hkind =>
      have hends : ¬ endsWord c = true := by simp [endsWord, hkind, hblank]
      have hdot : c ≠ '.' := by
        rintro rfl
        cases hkind
      refine result_accumulate hrest hbreak (fun _ => ?_) fun _ => ?_
      · rw [first, if_neg hcomment, if_neg hblank, if_neg hdots, hkind]
      · rw [takeWord, if_neg fun h => hdot h.1, if_neg hends]

theorem result_of_rest_eq_nil (hrest : s.rest = []) : s.result = s.flushWord.tokens := by
  rw [← result_flushWord (by rw [hrest]; rfl), result_of_word_eq_nil s.word_flushWord, rest_flushWord, hrest,
    split]
  exact List.append_nil _

theorem run_eq_result (s : Scanner) : s.run = s.result := by
  induction s using run.induct with
  | case1 s h ih => rw [run, dif_pos h, ih, result_step (rest_eq_cons h)]
  | case2 s h =>
    rw [run, dif_neg h, result_of_rest_eq_nil (List.drop_eq_nil_of_le (Nat.not_lt.mp h))]

/-- A scan of a text gives its tokens. -/
theorem run_start (source : String) : (start source).run = Token.tokenize source :=
  run_eq_result _

end Scanner

end DrawScript
