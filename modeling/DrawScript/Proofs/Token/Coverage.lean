import DrawScript.Token.Lexer
import Mathlib.Data.List.Induction

/-!
Where the tokens of a script stand. The pieces of a text tile it, so each token has an offset, the
tokens lie one after another, and between them there are only blanks and comments. A comment is told
from the text alone: two slashes with no line break from them on. The position of a token counts the
line breaks before it and the characters since the last of them.
-/

namespace DrawScript

def Slashes (cs : List Char) (j : Nat) : Prop := cs[j]? = some '/' ∧ cs[j + 1]? = some '/'

/-- The character at offset `k` is inside a comment: two slashes stand there or before it, with no
line break since. -/
def InComment (cs : List Char) (k : Nat) : Prop :=
  ∃ j ≤ k, Slashes cs j ∧ ∀ i, j ≤ i → i ≤ k → cs[i]? ≠ some '\n'

def Significant (cs : List Char) (k : Nat) : Prop :=
  (∀ c, cs[k]? = some c → Text.isBlank c = false) ∧ ¬ InComment cs k

namespace Span

theorem advanceAll_start (cs : List Char) :
    start.advanceAll cs =
      ⟨1 + cs.count '\n', 1 + (cs.reverse.takeWhile (· != '\n')).length⟩ := by
  induction cs using List.reverseRecOn with
  | nil => rfl
  | append_singleton cs c ih =>
    rw [advanceAll_append, ih, advanceAll_cons, advanceAll_nil, advance]
    split
    next hc =>
      subst hc
      simp [Nat.add_assoc]
    next hc =>
      have hcount : [c].count '\n' = 0 := by simp [hc]
      simp [hc, hcount, Nat.add_comm]

end Span

namespace Piece

theorem text_of_token? {p : Piece} {s : Span} {t : Token} (h : p.token? s = some t) :
    t.text.toList = p.chars ∧ t.span = s := by
  cases p <;> cases h <;> simp [chars]

theorem chars_ne_nil_of_mem_split {cs : List Char} {p : Piece} (h : p ∈ split cs) :
    p.chars ≠ [] := by
  induction cs using split.induct with
  | case1 =>
    rw [split] at h
    cases h
  | case2 c cs ih =>
    rw [split] at h
    rcases List.mem_cons.mp h with rfl | h
    · exact chars_first_ne_nil c cs
    · exact ih h

theorem mem_takeWord {digits : Bool} {cs : List Char} {c : Char} (h : c ∈ (takeWord digits cs).1) :
    c = '.' ∨ endsWord c = false := by
  induction cs generalizing digits with
  | nil => cases h
  | cons d cs ih =>
    rw [takeWord] at h
    split at h
    next hd =>
      rcases List.mem_cons.mp h with rfl | h
      · exact .inl hd.1
      · exact ih h
    next =>
      split at h
      next => cases h
      next hend =>
        rcases List.mem_cons.mp h with rfl | h
        · exact .inr (by simpa using hend)
        · exact ih h

structure Plain (cs : List Char) (p : Piece) : Prop where
  isSome : ∀ s, (p.token? s).isSome = true
  not_blank : ∀ c ∈ p.chars, Text.isBlank c = false
  not_slashes : ∀ j < p.chars.length, ¬ Slashes cs j

theorem not_slashes_of_not_mem {as bs : List Char} (h : '/' ∉ as) {j : Nat} (hj : j < as.length) :
    ¬ Slashes (as ++ bs) j := by
  rintro ⟨hc, -⟩
  rw [List.getElem?_append_left hj] at hc
  exact h (List.mem_of_getElem? hc)

theorem plain_word {c : Char} {cs : List Char} (hblank : Text.isBlank c = false)
    (hkind : TokenKind.ofChar? c = none) :
    Plain (c :: cs) (.word (c :: (takeWord c.isDigit cs).1)) := by
  have hword : ∀ d ∈ c :: (takeWord c.isDigit cs).1, d = '.' ∨ endsWord d = false := by
    intro d hd
    rcases List.mem_cons.mp hd with rfl | hd
    · exact .inr (by simp [endsWord, hblank, hkind])
    · exact mem_takeWord hd
  have hslash : '/' ∉ c :: (takeWord c.isDigit cs).1 := by
    intro hd
    exact absurd (hword '/' hd) (by decide)
  refine ⟨fun _ => rfl, ?_, ?_⟩
  · intro d hd
    rcases hword d hd with rfl | hend
    · decide
    · exact (Bool.or_eq_false_iff.mp hend).1
  · intro j hj
    have happend : c :: cs = c :: (takeWord c.isDigit cs).1 ++ (takeWord c.isDigit cs).2 := by
      rw [List.cons_append, takeWord_append]
    rw [happend]
    exact not_slashes_of_not_mem hslash hj

theorem first_cases (c : Char) (cs : List Char) :
    (Slashes (c :: cs) 0 ∧ first c cs =
      (.comment ((c :: cs).takeWhile (· != '\n')), (c :: cs).dropWhile (· != '\n'))) ∨
    (Text.isBlank c = true ∧ first c cs = (.blank c, cs)) ∨ Plain (c :: cs) (first c cs).1 := by
  unfold first
  split
  next h =>
    obtain ⟨rfl, h⟩ := h
    exact .inl ⟨⟨rfl, by simpa [List.head?_eq_getElem?] using h⟩, by simp⟩
  next hcomment =>
    split
    next hblank => exact .inr (.inl ⟨hblank, rfl⟩)
    next hblank =>
      rw [Bool.not_eq_true] at hblank
      right; right
      split
      next h =>
        obtain ⟨rfl, h⟩ := h
        have happend : '.' :: cs = ['.', '.', '.'] ++ cs.drop 2 := by
          conv_lhs => rw [← List.take_append_drop 2 cs, h]
          rfl
        refine ⟨fun _ => rfl, by simpa [chars] using hblank, ?_⟩
        intro j hj
        rw [happend]
        exact not_slashes_of_not_mem (by decide) hj
      next =>
        split
        next kind _ =>
          refine ⟨fun _ => rfl, by simpa [chars] using hblank, ?_⟩
          intro j hj hslashes
          have hj0 : j = 0 := Nat.lt_one_iff.mp hj
          subst hj0
          obtain ⟨hc, hcs⟩ := hslashes
          exact hcomment ⟨by simpa using hc, by simpa [List.head?_eq_getElem?] using hcs⟩
        next hkind => exact plain_word hblank hkind

theorem head?_of_slashes {c : Char} {cs : List Char} {j : Nat}
    (hj : j < (first c cs).1.chars.length) (h : Slashes (c :: cs) j) {d : Char}
    (hd : (first c cs).2.head? = some d) : d = '\n' := by
  rcases first_cases c cs with ⟨-, hfirst⟩ | ⟨hblank, hfirst⟩ | hplain
  · rw [hfirst] at hd
    have hnot := List.head?_dropWhile_not (· != '\n') (c :: cs)
    rw [hd] at hnot
    simpa using hnot
  · rw [hfirst] at hj
    have hj0 : j = 0 := Nat.lt_one_iff.mp hj
    subst hj0
    have hc : c = '/' := by simpa using h.1
    rw [hc] at hblank
    exact absurd hblank (by decide)
  · exact absurd h (hplain.not_slashes j hj)

theorem getElem?_first_add (c : Char) (cs : List Char) (i : Nat) :
    (c :: cs)[(first c cs).1.chars.length + i]? = (first c cs).2[i]? := by
  conv_lhs => rw [← first_append c cs]
  rw [List.getElem?_append_right (Nat.le_add_right _ i), Nat.add_sub_cancel_left]

theorem getElem?_first_of_lt {c : Char} {cs : List Char} {i : Nat}
    (hi : i < (first c cs).1.chars.length) : (c :: cs)[i]? = (first c cs).1.chars[i]? := by
  conv_lhs => rw [← first_append c cs]
  exact List.getElem?_append_left hi

theorem significant_first {c : Char} {cs : List Char} {k : Nat}
    (hk : k < (first c cs).1.chars.length) (s : Span) :
    Significant (c :: cs) k ↔ ((first c cs).1.token? s).isSome = true := by
  rcases first_cases c cs with ⟨hslashes, hfirst⟩ | ⟨hblank, hfirst⟩ | hplain
  · refine iff_of_false ?_ (by rw [hfirst]; exact Bool.false_ne_true)
    rintro ⟨-, hcomment⟩
    refine hcomment ⟨0, Nat.zero_le k, hslashes, ?_⟩
    intro i _ hik hi
    rw [getElem?_first_of_lt (Nat.lt_of_le_of_lt hik hk), hfirst] at hi
    have hbreak := List.all_eq_true.mp List.all_takeWhile _ (List.mem_of_getElem? hi)
    exact absurd hbreak (by decide)
  · refine iff_of_false ?_ (by rw [hfirst]; exact Bool.false_ne_true)
    rintro ⟨hnot, -⟩
    rw [hfirst] at hk
    have hk0 : k = 0 := Nat.lt_one_iff.mp hk
    subst hk0
    rw [hnot c rfl] at hblank
    cases hblank
  · refine iff_of_true ⟨?_, ?_⟩ (hplain.isSome s)
    · intro d hd
      rw [getElem?_first_of_lt hk] at hd
      exact hplain.not_blank d (List.mem_of_getElem? hd)
    · rintro ⟨j, hjk, hslashes, -⟩
      exact hplain.not_slashes j (Nat.lt_of_le_of_lt hjk hk) hslashes

theorem inComment_first_add {c : Char} {cs : List Char} {k : Nat} (hk : k < (first c cs).2.length) :
    InComment (c :: cs) ((first c cs).1.chars.length + k) ↔ InComment (first c cs).2 k := by
  constructor
  · rintro ⟨j, hjk, hslashes, hline⟩
    -- A comment that starts in the first piece is that piece, and a line break ends it.
    rcases Nat.lt_or_ge j (first c cs).1.chars.length with hj | hj
    · obtain ⟨d, hd⟩ : ∃ d, (first c cs).2.head? = some d := by
        cases hrest : (first c cs).2 with
        | nil =>
          rw [hrest] at hk
          cases hk
        | cons d ds => exact ⟨d, rfl⟩
      have hbreak := head?_of_slashes hj hslashes hd
      subst hbreak
      rw [List.head?_eq_getElem?, ← getElem?_first_add] at hd
      exact absurd hd (hline _ (Nat.le_of_lt hj) (Nat.add_le_add_left (Nat.zero_le k) _))
    · obtain ⟨j, rfl⟩ := Nat.exists_eq_add_of_le hj
      rw [Slashes, Nat.add_assoc, getElem?_first_add, getElem?_first_add] at hslashes
      refine ⟨j, Nat.le_of_add_le_add_left hjk, hslashes, ?_⟩
      intro i hji hik
      rw [← getElem?_first_add]
      exact hline _ (Nat.add_le_add_left hji _) (Nat.add_le_add_left hik _)
  · rintro ⟨j, hjk, hslashes, hline⟩
    refine ⟨_, Nat.add_le_add_left hjk _, ?_, ?_⟩
    · rw [Slashes, Nat.add_assoc, getElem?_first_add, getElem?_first_add]
      exact hslashes
    · intro i hji hik
      obtain ⟨i, rfl⟩ := Nat.exists_eq_add_of_le (Nat.le_of_add_right_le hji)
      rw [getElem?_first_add]
      exact hline i (Nat.le_of_add_le_add_left hji) (Nat.le_of_add_le_add_left hik)

theorem significant_first_add {c : Char} {cs : List Char} {k : Nat}
    (hk : k < (first c cs).2.length) :
    Significant (c :: cs) ((first c cs).1.chars.length + k) ↔ Significant (first c cs).2 k := by
  unfold Significant
  rw [inComment_first_add hk, getElem?_first_add]

end Piece

def Covered (placed : List (Nat × Token)) (k : Nat) : Prop :=
  ∃ p ∈ placed, p.1 ≤ k ∧ k < p.1 + p.2.text.length

theorem covered_append {as bs : List (Nat × Token)} {k : Nat} :
    Covered (as ++ bs) k ↔ Covered as k ∨ Covered bs k := by
  simp only [Covered, List.mem_append, or_and_right, exists_or]

def moved (n : Nat) (placed : List (Nat × Token)) : List (Nat × Token) :=
  placed.map fun q => (q.1 + n, q.2)

theorem mem_moved {n : Nat} {placed : List (Nat × Token)} {q : Nat × Token} :
    q ∈ moved n placed ↔ ∃ r ∈ placed, q = (r.1 + n, r.2) := by
  simp only [moved, List.mem_map, eq_comm]

theorem covered_moved_add {n k : Nat} {placed : List (Nat × Token)} :
    Covered (moved n placed) (n + k) ↔ Covered placed k := by
  constructor
  · rintro ⟨q, hq, hle, hlt⟩
    obtain ⟨r, hr, rfl⟩ := mem_moved.mp hq
    exact ⟨r, hr, by omega, by dsimp only at hlt; omega⟩
  · rintro ⟨r, hr, hle, hlt⟩
    exact ⟨(r.1 + n, r.2), mem_moved.mpr ⟨r, hr, rfl⟩, by omega, by dsimp only; omega⟩

theorem not_covered_moved {n k : Nat} {placed : List (Nat × Token)} (hk : k < n) :
    ¬ Covered (moved n placed) k := by
  rintro ⟨q, hq, hle, -⟩
  obtain ⟨r, -, rfl⟩ := mem_moved.mp hq
  dsimp only at hle
  omega

namespace Piece

def own (s : Span) (p : Piece) : List (Nat × Token) := (p.token? s).toList.map (Prod.mk 0)

theorem mem_own {s : Span} {p : Piece} {q : Nat × Token} :
    q ∈ p.own s ↔ q.1 = 0 ∧ p.token? s = some q.2 := by
  obtain ⟨o, t⟩ := q
  simp only [own, List.mem_map, Option.mem_toList, Prod.mk.injEq]
  constructor
  · rintro ⟨u, hu, rfl, rfl⟩
    exact ⟨rfl, hu⟩
  · rintro ⟨rfl, ht⟩
    exact ⟨t, ht, rfl, rfl⟩

theorem length_of_mem_own {s : Span} {p : Piece} {q : Nat × Token} (h : q ∈ p.own s) :
    q.1 + q.2.text.length = p.chars.length := by
  obtain ⟨h0, ht⟩ := mem_own.mp h
  rw [h0, Nat.zero_add, ← String.length_toList, (text_of_token? ht).1]

theorem covered_own {s : Span} {p : Piece} {k : Nat} :
    Covered (p.own s) k ↔ k < p.chars.length ∧ (p.token? s).isSome = true := by
  constructor
  · rintro ⟨q, hq, -, hlt⟩
    rw [length_of_mem_own hq] at hlt
    exact ⟨hlt, Option.isSome_of_mem (mem_own.mp hq).2⟩
  · rintro ⟨hk, hsome⟩
    obtain ⟨t, ht⟩ := Option.isSome_iff_exists.mp hsome
    have hmem : (0, t) ∈ p.own s := mem_own.mpr ⟨rfl, ht⟩
    exact ⟨(0, t), hmem, Nat.zero_le k, (length_of_mem_own hmem).symm ▸ hk⟩

def locate (s : Span) : List Piece → List (Nat × Token)
  | [] => []
  | p :: ps => p.own s ++ moved p.chars.length (locate (s.advanceAll p.chars) ps)

theorem map_snd_locate (s : Span) (ps : List Piece) :
    (locate s ps).map Prod.snd = place s ps := by
  induction ps generalizing s with
  | nil => rfl
  | cons p ps ih =>
    have hmoved : (moved p.chars.length (locate (s.advanceAll p.chars) ps)).map Prod.snd =
        place (s.advanceAll p.chars) ps := by
      rw [← ih, moved, List.map_map]
      rfl
    rw [locate, place, List.map_append, hmoved, own]
    cases p.token? s <;> rfl

end Piece

/-- The tokens stand in the text `cs`, which starts at `s`, at their offsets, and cover what is
significant. -/
structure Located (cs : List Char) (s : Span) (placed : List (Nat × Token)) : Prop where
  text : ∀ q ∈ placed, q.2.text ≠ "" ∧ ∃ rest, cs.drop q.1 = q.2.text.toList ++ rest
  span : ∀ q ∈ placed, q.2.span = s.advanceAll (cs.take q.1)
  ordered : placed.Pairwise fun q r => q.1 + q.2.text.length ≤ r.1
  covers : ∀ k < cs.length, Covered placed k ↔ Significant cs k

namespace Located

open Piece

variable {c : Char} {cs : List Char} {s : Span} {placed : List (Nat × Token)}

theorem text_cons (h : Located (first c cs).2 (s.advanceAll (first c cs).1.chars) placed)
    {q : Nat × Token} (hq : q ∈ (first c cs).1.own s ++ moved (first c cs).1.chars.length placed) :
    q.2.text ≠ "" ∧ (∃ rest, (c :: cs).drop q.1 = q.2.text.toList ++ rest) ∧
      q.2.span = s.advanceAll ((c :: cs).take q.1) := by
  rw [← first_append c cs]
  rcases List.mem_append.mp hq with hq | hq
  · obtain ⟨h0, ht⟩ := mem_own.mp hq
    obtain ⟨htext, hspan⟩ := text_of_token? ht
    rw [h0, htext]
    refine ⟨?_, ⟨_, rfl⟩, hspan⟩
    intro hempty
    rw [hempty] at htext
    exact chars_first_ne_nil c cs htext.symm
  · obtain ⟨r, hr, rfl⟩ := mem_moved.mp hq
    obtain ⟨hne, rest, hrest⟩ := h.text r hr
    rw [Nat.add_comm, List.drop_length_add_append, List.take_length_add_append,
      Span.advanceAll_append]
    exact ⟨hne, ⟨rest, hrest⟩, h.span r hr⟩

theorem ordered_cons (h : Located (first c cs).2 (s.advanceAll (first c cs).1.chars) placed) :
    ((first c cs).1.own s ++ moved (first c cs).1.chars.length placed).Pairwise
      fun q r => q.1 + q.2.text.length ≤ r.1 := by
  rw [List.pairwise_append]
  refine ⟨?_, ?_, ?_⟩
  · unfold own
    cases (first c cs).1.token? s <;> simp
  · rw [moved, List.pairwise_map]
    refine h.ordered.imp ?_
    intro q r hqr
    dsimp only
    omega
  · intro q hq r hr
    obtain ⟨r, -, rfl⟩ := mem_moved.mp hr
    rw [length_of_mem_own hq]
    exact Nat.le_add_left _ _

theorem covers_cons (h : Located (first c cs).2 (s.advanceAll (first c cs).1.chars) placed)
    {k : Nat} (hk : k < (c :: cs).length) :
    Covered ((first c cs).1.own s ++ moved (first c cs).1.chars.length placed) k ↔
      Significant (c :: cs) k := by
  rw [covered_append, covered_own]
  rcases Nat.lt_or_ge k (first c cs).1.chars.length with hlt | hge
  · rw [significant_first hlt s]
    simp [hlt, not_covered_moved hlt]
  · obtain ⟨k, rfl⟩ := Nat.exists_eq_add_of_le hge
    rw [← first_append c cs, List.length_append] at hk
    have hk' : k < (first c cs).2.length := by omega
    rw [covered_moved_add, h.covers k hk', significant_first_add hk']
    simp [Nat.not_lt.mpr hge]

theorem cons (h : Located (first c cs).2 (s.advanceAll (first c cs).1.chars) placed) :
    Located (c :: cs) s
      ((first c cs).1.own s ++ moved (first c cs).1.chars.length placed) where
  text _ hq := ⟨(h.text_cons hq).1, (h.text_cons hq).2.1⟩
  span _ hq := (h.text_cons hq).2.2
  ordered := h.ordered_cons
  covers _ hk := h.covers_cons hk

end Located

theorem Piece.located_split (s : Span) (cs : List Char) : Located cs s (locate s (split cs)) := by
  induction cs using split.induct generalizing s with
  | case1 =>
    rw [split]
    exact ⟨List.forall_mem_nil _, List.forall_mem_nil _, .nil,
      fun k hk => absurd hk (Nat.not_lt_zero k)⟩
  | case2 c cs ih =>
    rw [split, locate]
    exact (ih _).cons

/-- The tokens of a script stand in its text in order and without overlap, each with its own text,
and cover exactly the characters that are neither blank nor inside a comment; the position of a token
counts the line breaks before it and the characters since the last of them. -/
theorem Token.tokenize_covers (source : String) :
    ∃ placed : List (Nat × Token), placed.map Prod.snd = Token.tokenize source ∧
      (∀ q ∈ placed, q.2.text ≠ "" ∧ ∃ rest, source.toList.drop q.1 = q.2.text.toList ++ rest) ∧
      placed.Pairwise (fun q r => q.1 + q.2.text.length ≤ r.1) ∧
      (∀ k < source.toList.length,
        (∃ q ∈ placed, q.1 ≤ k ∧ k < q.1 + q.2.text.length) ↔ Significant source.toList k) ∧
      ∀ q ∈ placed, q.2.span =
        ⟨1 + (source.toList.take q.1).count '\n',
          1 + ((source.toList.take q.1).reverse.takeWhile (· != '\n')).length⟩ := by
  have h := Piece.located_split Span.start source.toList
  refine ⟨_, Piece.map_snd_locate _ _, h.text, h.ordered, h.covers, ?_⟩
  intro q hq
  rw [h.span q hq, Span.advanceAll_start]

end DrawScript
