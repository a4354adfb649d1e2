import DrawScript.Proofs.Script.Relabel
import DrawScript.Proofs.Text.Splitting
import DrawScript.Proofs.Token.Coverage
import Mathlib.Data.List.TakeWhile

/-!
Tokens are read back from any text that writes their own texts with separators between neighbours. A
lexeme is a token that is all there is to read in its own text, and every token of a script is one
but for its position. A blank behind a lexeme changes nothing about it, since the division of a text
never looks past a blank; only a comment goes on, up to the end of its line.
-/

namespace DrawScript

def Span.forget (_ : Span) : Span := Span.start

def spaced (ts : List Token) : String := " ".intercalate (ts.map Token.text)

/-- Blanks and complete comments, each ended by a line break. -/
inductive Gap : List Char → Prop
  | nil : Gap []
  | blank {c : Char} {cs : List Char} (hc : Text.isBlank c = true) (h : Gap cs) : Gap (c :: cs)
  | comment {text cs : List Char} (htext : '\n' ∉ text) (h : Gap cs) :
      Gap ('/' :: '/' :: text ++ '\n' :: cs)

structure Separator (cs : List Char) : Prop where
  gap : Gap cs
  head : ∃ b rest, cs = b :: rest ∧ Text.isBlank b = true

/-- The texts of the tokens in order, each followed by a separator, which the last one may lack. -/
inductive Spread : List Token → List Char → Prop
  | nil : Spread [] []
  | last (t : Token) : Spread [t] t.text.toList
  | cons (t : Token) {ts : List Token} {gap cs : List Char} (hgap : Separator gap)
      (h : Spread ts cs) : Spread (t :: ts) (t.text.toList ++ gap ++ cs)

namespace Token

def IsLexeme (t : Token) : Prop := tokenize t.text = [t]

end Token

namespace Piece

def IsComment : Piece → Prop
  | .comment _ => True
  | _ => False

theorem ne_of_isBlank {b c : Char} (hb : Text.isBlank b = true) (hc : Text.isBlank c = false) :
    b ≠ c := by
  rintro rfl
  rw [hb] at hc
  cases hc

theorem first_of_isBlank {b : Char} (hb : Text.isBlank b = true) (cs : List Char) :
    first b cs = (.blank b, cs) := by
  rw [first, if_neg fun h => ne_of_isBlank hb (by decide) h.1, if_pos hb]

theorem split_of_isBlank {b : Char} (hb : Text.isBlank b = true) (cs : List Char) :
    split (b :: cs) = .blank b :: split cs := by
  rw [split, first_of_isBlank hb]

theorem ofChar?_of_isAlphanum {c : Char} (h : c.isAlphanum = true) : TokenKind.ofChar? c = none := by
  unfold TokenKind.ofChar?
  split
  case h_12 =>
    rw [Option.map_eq_none_iff, Operator.ofChar?, List.find?_eq_none]
    intro o _ ho
    obtain rfl : o.symbol = c := by simpa using ho
    cases o <;> exact absurd h (by decide)
  all_goals exact absurd h (by decide)

theorem endsWord_of_isAlphanum {c : Char} (h : c.isAlphanum = true) : endsWord c = false := by
  have hblank : Text.isBlank c = false := Text.isBlank_of_isAlphanum (by rw [h, Bool.true_or])
  simp [endsWord, hblank, ofChar?_of_isAlphanum h]

theorem endsWord_of_isDigit {c : Char} (h : c.isDigit = true) : endsWord c = false := by
  refine endsWord_of_isAlphanum ?_
  change (c.isAlpha || c.isDigit) = true
  rw [h, Bool.or_true]

theorem takeWhile_append_break (cs rest : List Char) :
    (cs ++ '\n' :: rest).takeWhile (· != '\n') = cs.takeWhile (· != '\n') := by
  induction cs with
  | nil => rfl
  | cons c cs ih => by_cases hc : c = '\n' <;> simp [hc, ih]

theorem dropWhile_append_break (cs rest : List Char) :
    (cs ++ '\n' :: rest).dropWhile (· != '\n') = cs.dropWhile (· != '\n') ++ '\n' :: rest := by
  induction cs with
  | nil => rfl
  | cons c cs ih => by_cases hc : c = '\n' <;> simp [hc, ih]

section

variable {b : Char} (hb : Text.isBlank b = true) (rest : List Char)
include hb

theorem takeWord_append_blank (digits : Bool) (cs : List Char) :
    takeWord digits (cs ++ b :: rest) =
      ((takeWord digits cs).1, (takeWord digits cs).2 ++ b :: rest) := by
  induction cs generalizing digits with
  | nil =>
    have hpoint : b ≠ '.' := ne_of_isBlank hb (by decide)
    have hend : endsWord b = true := by simp [endsWord, hb]
    simp [takeWord, hpoint, hend]
  | cons c cs ih =>
    -- A point belongs to a word only before a digit, and a blank is none.
    have hdigit : startsWithDigit (cs ++ b :: rest) = startsWithDigit cs := by
      cases cs with
      | nil => exact Bool.eq_false_iff.mpr fun h => by simp [Text.isBlank_of_isDigit h] at hb
      | cons d cs => rfl
    rw [List.cons_append]
    unfold takeWord
    rw [hdigit, ih, ih]
    split
    · rfl
    · split <;> rfl

theorem first_append_blank {c : Char} {cs : List Char} (h : b = '\n' ∨ ¬ (first c cs).1.IsComment) :
    first c (cs ++ b :: rest) = ((first c cs).1, (first c cs).2 ++ b :: rest) := by
  have hslash : b ≠ '/' := ne_of_isBlank hb (by decide)
  have hpoint : b ≠ '.' := ne_of_isBlank hb (by decide)
  have hhead : (cs ++ b :: rest).head? = some '/' ↔ cs.head? = some '/' := by
    cases cs <;> simp [hslash]
  have hdots : (cs ++ b :: rest).take 2 = ['.', '.'] ↔ cs.take 2 = ['.', '.'] := by
    match cs with
    | [] => simp [hpoint]
    | [d] => simp [hpoint]
    | d :: e :: cs => simp
  unfold first at h ⊢
  simp only [hhead, hdots]
  by_cases hcomment : c = '/' ∧ cs.head? = some '/'
  · rw [if_pos hcomment] at h
    obtain rfl : b = '\n' := h.resolve_right fun h => h trivial
    simp [hcomment, takeWhile_append_break, dropWhile_append_break]
  · by_cases hblank : Text.isBlank c = true
    · simp [hcomment, hblank]
    · by_cases hellipsis : c = '.' ∧ cs.take 2 = ['.', '.']
      · have hlength : 2 ≤ cs.length := by
          have hlength := congrArg List.length hellipsis.2
          simp only [List.length_take, List.length_cons, List.length_nil] at hlength
          omega
        simp only [if_neg hcomment, if_neg hblank, if_pos hellipsis,
          List.drop_append_of_le_length hlength]
      · simp only [if_neg hcomment, if_neg hblank, if_neg hellipsis]
        cases TokenKind.ofChar? c with
        | some kind => rfl
        | none => simp only [takeWord_append_blank hb]

theorem split_append_blank {cs : List Char} (h : b = '\n' ∨ ∀ p ∈ split cs, ¬ p.IsComment) :
    split (cs ++ b :: rest) = split cs ++ split (b :: rest) := by
  induction cs using split.induct with
  | case1 => rw [split.eq_1]; rfl
  | case2 c cs ih =>
    rw [split.eq_2 c cs] at h ⊢
    have hfirst : b = '\n' ∨ ¬ (first c cs).1.IsComment :=
      h.imp_right fun h => h _ List.mem_cons_self
    have hrest := ih (h.imp_right fun h p hp => h p (List.mem_cons_of_mem _ hp))
    rw [List.cons_append, split, first_append_blank hb rest hfirst, hrest, List.cons_append]

end

theorem startsWithDigit_takeWord (digits : Bool) {cs : List Char} (h : startsWithDigit cs = true) :
    startsWithDigit (takeWord digits cs).1 = true := by
  cases cs with
  | nil => cases h
  | cons d cs =>
    have hd : d.isDigit = true := h
    have hpoint : d ≠ '.' := by
      rintro rfl
      exact absurd hd (by decide)
    simp [takeWord, hpoint, endsWord_of_isDigit hd, startsWithDigit, hd]

theorem takeWord_takeWord (digits : Bool) (cs : List Char) :
    takeWord digits (takeWord digits cs).1 = ((takeWord digits cs).1, []) := by
  induction cs generalizing digits with
  | nil => rfl
  | cons c cs ih =>
    by_cases hpoint : c = '.' ∧ digits = true ∧ startsWithDigit cs = true
    · have hdigit := startsWithDigit_takeWord false hpoint.2.2
      have hmore : takeWord digits (c :: cs) =
          (c :: (takeWord false cs).1, (takeWord false cs).2) := by
        simp only [takeWord, if_pos hpoint]
      rw [hmore, takeWord, if_pos ⟨hpoint.1, hpoint.2.1, hdigit⟩, ih]
    · by_cases hend : endsWord c = true
      · simp [takeWord, hpoint, hend]
      · have hmore : takeWord digits (c :: cs) =
            (c :: (takeWord (digits && c.isDigit) cs).1, (takeWord (digits && c.isDigit) cs).2) := by
          simp only [takeWord, if_neg hpoint, if_neg hend]
        have hdot : c ≠ '.' := by
          rintro rfl
          exact hend (by decide)
        rw [hmore, takeWord, if_neg fun h => hdot h.1, if_neg hend, ih]

theorem split_eq_singleton {c : Char} {cs : List Char} {p : Piece} (h : first c cs = (p, [])) :
    split (c :: cs) = [p] := by
  rw [split, h, split]

theorem split_word {c : Char} {cs : List Char} (hblank : Text.isBlank c = false)
    (hkind : TokenKind.ofChar? c = none) :
    split (c :: (takeWord c.isDigit cs).1) = [.word (c :: (takeWord c.isDigit cs).1)] := by
  have hslash : c ≠ '/' := by
    rintro rfl
    cases hkind
  have hpoint : c ≠ '.' := by
    rintro rfl
    cases hkind
  apply split_eq_singleton
  simp [first, hslash, hpoint, hblank, hkind, takeWord_takeWord]

theorem split_chars_first {c : Char} {cs : List Char} (h : (first c cs).1.token? Span.start ≠ none) :
    split (first c cs).1.chars = [(first c cs).1] := by
  unfold first at h ⊢
  by_cases hcomment : c = '/' ∧ cs.head? = some '/'
  · rw [if_pos hcomment] at h
    exact absurd rfl h
  · by_cases hblank : Text.isBlank c = true
    · rw [if_neg hcomment, if_pos hblank] at h
      exact absurd rfl h
    · rw [Bool.not_eq_true] at hblank
      by_cases hellipsis : c = '.' ∧ cs.take 2 = ['.', '.']
      · simp only [if_neg hcomment, if_pos hellipsis, hblank]
        exact split_eq_singleton rfl
      · simp only [if_neg hcomment, if_neg hellipsis, hblank]
        cases hkind : TokenKind.ofChar? c with
        | some kind =>
          apply split_eq_singleton
          simp [first, hblank, hkind]
        | none => exact split_word hblank hkind

theorem split_chars_of_mem {cs : List Char} {p : Piece} (hp : p ∈ split cs)
    (h : p.token? Span.start ≠ none) : split p.chars = [p] := by
  induction cs using split.induct with
  | case1 =>
    rw [split] at hp
    cases hp
  | case2 c cs ih =>
    rw [split] at hp
    rcases List.mem_cons.mp hp with rfl | hp
    · exact split_chars_first h
    · exact ih hp

theorem length_text_le_of_mem_place {ps : List Piece} {s : Span} {t : Token}
    (h : t ∈ place s ps) : t.text.length ≤ (ps.flatMap chars).length := by
  induction ps generalizing s with
  | nil => cases h
  | cons p ps ih =>
    rw [place] at h
    rw [List.flatMap_cons, List.length_append]
    cases htok : p.token? s with
    | none =>
      rw [htok] at h
      have hle := ih h
      omega
    | some u =>
      rw [htok] at h
      rcases List.mem_cons.mp h with rfl | h
      · rw [← String.length_toList, (text_of_token? htok).1]
        exact Nat.le_add_right _ _
      · have hle := ih h
        omega

theorem exists_split_of_isLexeme {t : Token} (h : t.IsLexeme) :
    ∃ p, split t.text.toList = [p] ∧ p.token? Span.start = some t := by
  unfold Token.IsLexeme Token.tokenize at h
  have hne : ∀ p ∈ split t.text.toList, p.chars ≠ [] := fun p hp => chars_ne_nil_of_mem_split hp
  have hall := flatMap_chars_split t.text.toList
  generalize split t.text.toList = ps at h hne hall
  cases ps with
  | nil => cases h
  | cons p ps =>
    rw [place] at h
    rw [List.flatMap_cons] at hall
    cases htok : p.token? Span.start with
    | none =>
      rw [htok] at h
      have hle := length_text_le_of_mem_place (h ▸ List.mem_singleton_self t)
      have hpos := List.length_pos_iff.mpr (hne p List.mem_cons_self)
      have hlength := congrArg List.length hall
      rw [List.length_append, String.length_toList] at hlength
      omega
    | some u =>
      rw [htok] at h
      obtain ⟨rfl, -⟩ := List.cons.inj h
      rw [(text_of_token? htok).1, List.append_right_eq_self] at hall
      cases ps with
      | nil => exact ⟨p, rfl, htok⟩
      | cons q qs => exact absurd (List.append_eq_nil_iff.mp hall).1 (hne q (by simp))

theorem isWord_of_ofChar? {c : Char} {kind : TokenKind} (h : TokenKind.ofChar? c = some kind) :
    kind.isWord = false := by
  unfold TokenKind.ofChar? at h
  split at h
  case h_12 =>
    obtain ⟨o, -, rfl⟩ := Option.map_eq_some_iff.mp h
    rfl
  all_goals
    cases h
    rfl

theorem isWord_of_first {c : Char} {cs text : List Char} {kind : TokenKind}
    (h : (first c cs).1 = .symbol kind text) : kind.isWord = false := by
  unfold first at h
  split at h
  next => cases h
  next =>
    split at h
    next => cases h
    next =>
      split at h
      next =>
        cases h
        rfl
      next =>
        split at h
        next hkind =>
          cases h
          exact isWord_of_ofChar? hkind
        next => cases h

theorem classify_of_isLexeme {t : Token} (h : t.IsLexeme) (ht : t.kind.isWord = true) :
    TokenKind.classify t.text = t.kind := by
  obtain ⟨p, hsplit, htok⟩ := exists_split_of_isLexeme h
  cases hcs : t.text.toList with
  | nil =>
    rw [hcs, split] at hsplit
    cases hsplit
  | cons c cs =>
    rw [hcs, split] at hsplit
    have hfirst := (List.cons.inj hsplit).1
    cases p with
    | blank c => cases htok
    | comment text => cases htok
    | symbol kind text =>
      cases htok
      exact absurd ht (by simp [isWord_of_first hfirst])
    | word text =>
      cases htok
      rfl

theorem place_cons (p : Piece) (ps : List Piece) (start : Span) :
    place start (p :: ps) = (p.token? start).toList ++ place (start.advanceAll p.chars) ps := by
  rw [place]
  cases p.token? start <;> rfl

theorem map_relabel_token? (p : Piece) (s : Span) :
    (p.token? s).map (Token.relabel Span.forget) =
      (p.token? Span.start).map (Token.relabel Span.forget) := by
  cases p <;> rfl

theorem map_relabel_place_cons (p : Piece) (ps : List Piece) (s : Span) :
    (place s (p :: ps)).map (Token.relabel Span.forget) =
      ((p.token? Span.start).map (Token.relabel Span.forget)).toList ++
        (place (s.advanceAll p.chars) ps).map (Token.relabel Span.forget) := by
  rw [place_cons, ← map_relabel_token? p s, List.map_append, Option.toList_map]

theorem exists_of_mem_place {ps : List Piece} {s : Span} {t : Token} (h : t ∈ place s ps) :
    ∃ p ∈ ps, ∃ start, p.token? start = some t := by
  induction ps generalizing s with
  | nil => cases h
  | cons p ps ih =>
    rw [place] at h
    cases htok : p.token? s with
    | none =>
      rw [htok] at h
      obtain ⟨q, hq, hstart⟩ := ih h
      exact ⟨q, List.mem_cons_of_mem p hq, hstart⟩
    | some u =>
      rw [htok] at h
      rcases List.mem_cons.mp h with rfl | h
      · exact ⟨p, List.mem_cons_self, s, htok⟩
      · obtain ⟨q, hq, hstart⟩ := ih h
        exact ⟨q, List.mem_cons_of_mem p hq, hstart⟩

theorem place_gap {gap : List Char} (h : Gap gap) (s : Span) (rest : List Char) :
    place s (split (gap ++ rest)) = place (s.advanceAll gap) (split rest) := by
  induction h generalizing s with
  | nil => rfl
  | @blank c cs hc h ih =>
    rw [List.cons_append, split_of_isBlank hc]
    exact ih _
  | @comment text cs htext h ih =>
    have hline : ∀ c ∈ text, (c != '\n') = true := by
      intro c hc
      rw [bne_iff_ne]
      rintro rfl
      exact htext hc
    have hfirst : first '/' ('/' :: text ++ '\n' :: (cs ++ rest)) =
        (.comment ('/' :: '/' :: text), '\n' :: (cs ++ rest)) := by
      simp [first, takeWhile_append_break, dropWhile_append_break, List.takeWhile_eq_self_iff.mpr hline,
        List.dropWhile_eq_nil_iff.mpr hline]
    have hbreak := split_of_isBlank (b := '\n') (by decide) (cs ++ rest)
    simp only [List.cons_append, List.append_assoc] at hfirst ⊢
    rw [split, hfirst, hbreak]
    simp only [place, token?, chars]
    rw [ih]
    simp

end Piece

theorem Token.isLexeme_of_mem_tokenize {source : String} {t : Token} (h : t ∈ tokenize source) :
    (t.relabel Span.forget).IsLexeme := by
  obtain ⟨p, hp, start, htok⟩ := Piece.exists_of_mem_place h
  obtain ⟨htext, -⟩ := Piece.text_of_token? htok
  have hstart : p.token? Span.start = some (t.relabel Span.forget) := by
    cases p <;> cases htok <;> rfl
  have hsplit := Piece.split_chars_of_mem hp (by simp [hstart])
  unfold IsLexeme tokenize
  change Piece.place Span.start (Piece.split t.text.toList) = _
  rw [htext, hsplit, Piece.place, hstart]
  rfl

theorem Token.IsLexeme.relabel_forget {t : Token} (h : t.IsLexeme) : t.relabel Span.forget = t := by
  obtain ⟨p, -, htok⟩ := Piece.exists_split_of_isLexeme h
  have hspan := (Piece.text_of_token? htok).2
  rw [relabel, Span.forget, ← hspan]

theorem Spread.map_relabel_place {ts : List Token} {cs : List Char} (h : Spread ts cs)
    (hts : ∀ t ∈ ts, (t.relabel Span.forget).IsLexeme) (s : Span) :
    (Piece.place s (Piece.split cs)).map (Token.relabel Span.forget) =
      ts.map (Token.relabel Span.forget) := by
  induction h generalizing s with
  | nil =>
    rw [Piece.split]
    rfl
  | last t =>
    obtain ⟨p, hsplit, htok⟩ := Piece.exists_split_of_isLexeme (hts t (List.mem_singleton_self t))
    change Piece.split t.text.toList = [p] at hsplit
    rw [hsplit, Piece.map_relabel_place_cons, htok]
    rfl
  | @cons t ts gap cs hgap h ih =>
    obtain ⟨ht, hts⟩ := List.forall_mem_cons.mp hts
    obtain ⟨p, hsplit, htok⟩ := Piece.exists_split_of_isLexeme ht
    change Piece.split t.text.toList = [p] at hsplit
    obtain ⟨b, rest, rfl, hb⟩ := hgap.head
    have hcomment : ∀ q ∈ Piece.split t.text.toList, ¬ q.IsComment := by
      rw [hsplit, List.forall_mem_singleton]
      intro hp
      cases p with
      | comment text => cases htok
      | _ => exact hp
    rw [List.append_assoc, List.cons_append,
      Piece.split_append_blank hb (rest ++ cs) (.inr hcomment), hsplit, List.singleton_append,
      Piece.map_relabel_place_cons, htok, ← List.cons_append, Piece.place_gap hgap.gap, ih hts]
    rfl

theorem Token.tokenize_spread {ts : List Token} (hts : ∀ t ∈ ts, (t.relabel Span.forget).IsLexeme)
    {source : String} {lead cs : List Char} (hlead : Gap lead) (h : Spread ts cs)
    (hsource : source.toList = lead ++ cs) :
    (tokenize source).map (relabel Span.forget) = ts.map (relabel Span.forget) := by
  rw [tokenize, hsource, Piece.place_gap hlead]
  exact h.map_relabel_place hts _

theorem Separator.space : Separator [' '] :=
  ⟨.blank (by decide) .nil, ' ', [], rfl, by decide⟩

theorem spread_spaced (ts : List Token) : Spread ts (spaced ts).toList := by
  induction ts with
  | nil => exact .nil
  | cons t ts ih =>
    cases ts with
    | nil =>
      have htext : spaced [t] = t.text := String.intercalate_singleton
      rw [htext]
      exact .last t
    | cons u ts =>
      have htext : (spaced (t :: u :: ts)).toList =
          t.text.toList ++ [' '] ++ (spaced (u :: ts)).toList := by
        simp only [spaced, List.map_cons, String.intercalate_cons_cons, String.toList_append]
        rfl
      rw [htext]
      exact .cons t .space ih

theorem Token.tokenize_spaced {ts : List Token} (h : ∀ t ∈ ts, t.IsLexeme) :
    (tokenize (spaced ts)).map (relabel Span.forget) = ts := by
  have hts : ∀ t ∈ ts, (t.relabel Span.forget).IsLexeme := by
    intro t ht
    rw [(h t ht).relabel_forget]
    exact h t ht
  rw [tokenize_spread hts .nil (spread_spaced ts) rfl, List.map_congr_left fun t ht => (h t ht).relabel_forget,
    List.map_id']

end DrawScript
