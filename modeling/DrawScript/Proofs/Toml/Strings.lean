import DrawScript.Toml.Writer
import Mathlib

/-!
Quoted texts are read back. A text is written in one of several forms; in each, what stands between the
marks is a row of pieces that are read as one character each. Marks may stand by themselves in a text of
several lines, but never three in a row, so that the first three in a row close it.
-/

namespace DrawScript.Toml

namespace StringForm

def marks (form : StringForm) : List Char :=
  if form.multiline then [form.quote, form.quote, form.quote] else [form.quote]

/-- A piece of a quoted text that is read as one character. It starts neither with a mark nor, unless it
is one, with a line break. -/
structure Reads (form : StringForm) (piece : List Char) (c : Char) : Prop where
  head : ∃ d ds, piece = d :: ds ∧ d ≠ form.quote ∧ d ≠ '\r' ∧ (d = '\n' → c = '\n')
  body : ∀ rest, stringBody form false (piece ++ rest) =
    (stringBody form false rest).map fun r => (c :: r.1, r.2)

/-- What stands between the marks of a quoted text, after the given number of marks in a row. -/
inductive Written (form : StringForm) : Nat → List Char → List Char → Prop
  | nil (count : Nat) : Written form count [] []
  | mark {count : Nat} {cs ds : List Char} (hlines : form.multiline = true) (hcount : count < 2)
      (h : Written form (count + 1) cs ds) :
      Written form count (form.quote :: cs) (form.quote :: ds)
  | char {count : Nat} {c : Char} {cs piece ds : List Char} (hpiece : form.Reads piece c)
      (h : Written form 0 cs ds) : Written form count (c :: cs) (piece ++ ds)

variable {form : StringForm} {rest : List Char}

theorem stringBody_close (hlines : form.multiline = false) :
    stringBody form false (form.quote :: rest) = some ([], rest) := by
  rw [stringBody.eq_def]
  simp [hlines]

/-- Three marks close a text of several lines; up to two marks before them belong to it. -/
theorem stringBody_close_lines (hlines : form.multiline = true) {n : Nat} (hn : n ≤ 2)
    (hrest : rest.head? ≠ some form.quote) :
    stringBody form false (List.replicate (n + 3) form.quote ++ rest) =
      some (List.replicate n form.quote, rest) := by
  obtain rfl | rfl | rfl : n = 0 ∨ n = 1 ∨ n = 2 := by omega
  all_goals
    rw [stringBody.eq_def]
    rcases rest with _ | ⟨d, _ | ⟨e, rest⟩⟩ <;>
      simp_all [List.replicate_succ]

theorem stringBody_mark (hlines : form.multiline = true)
    (hrest : rest.take 2 ≠ [form.quote, form.quote]) :
    stringBody form false (form.quote :: rest) =
      (stringBody form false rest).map fun r => (form.quote :: r.1, r.2) := by
  rw [stringBody.eq_def]
  simp [hlines, hrest]

theorem Written.stringBody_eq {count : Nat} {cs ds : List Char} (h : form.Written count cs ds)
    (hrest : rest.head? ≠ some form.quote) :
    stringBody form false (ds ++ form.marks ++ rest) = some (cs, rest) := by
  induction h with
  | nil =>
    by_cases hlines : form.multiline = true
    · simpa [marks, hlines] using stringBody_close_lines hlines (Nat.zero_le 2) hrest
    · rw [Bool.not_eq_true] at hlines
      simpa [marks, hlines] using stringBody_close hlines
  | char hpiece _ ih =>
    rw [List.append_assoc, List.append_assoc, hpiece.body, ← List.append_assoc, ih]
    rfl
  | @mark count cs ds hlines hcount h ih =>
    have hmarks : form.marks = List.replicate 3 form.quote := by simp [marks, hlines]
    -- The marks that follow decide whether this one belongs to those that close the text.
    have hread (hnext : (ds ++ form.marks ++ rest).take 2 ≠ [form.quote, form.quote]) :
        stringBody form false (form.quote :: (ds ++ form.marks ++ rest)) =
          some (form.quote :: cs, rest) := by
      rw [stringBody_mark hlines hnext, ih]
      rfl
    cases h with
    | nil => simpa [hmarks] using stringBody_close_lines hlines (n := 1) (by omega) hrest
    | char hpiece h =>
      obtain ⟨d, piece, rfl, hd, -⟩ := hpiece.head
      exact hread (by simp [hd])
    | mark _ hcount' h =>
      cases h with
      | nil => simpa [hmarks] using stringBody_close_lines hlines (n := 2) (by omega) hrest
      | char hpiece h =>
        obtain ⟨d, piece, rfl, hd, -⟩ := hpiece.head
        exact hread (by simp [hd])
      | mark _ hcount'' => omega

theorem isTextChar_ne_break {c : Char} (h : isTextChar c = true) : c ≠ '\n' ∧ c ≠ '\r' := by
  constructor <;> rintro rfl <;> cases h

theorem Reads.plain {c : Char} (hquote : c ≠ form.quote) (hescape : c = '\\' → form.escapes = false)
    (htext : isTextChar c = true) : form.Reads [c] c where
  head := ⟨c, [], rfl, hquote, (isTextChar_ne_break htext).2, id⟩
  body rest := by
    obtain ⟨hbreak, hreturn⟩ := isTextChar_ne_break htext
    have hslash : (c = '\\' && form.escapes) = false := by
      by_cases hc : c = '\\' <;> simp [hc, hescape]
    rw [List.singleton_append, stringBody.eq_def]
    simp [hquote, hslash, hbreak, hreturn, htext]

theorem Reads.lineBreak (hquote : '\n' ≠ form.quote) (hlines : form.multiline = true) :
    form.Reads ['\n'] '\n' where
  head := ⟨'\n', [], rfl, hquote, by decide, id⟩
  body rest := by
    rw [List.singleton_append, stringBody.eq_def]
    simp [hquote, hlines]

theorem lineBreak?_cons {c : Char} (hbreak : c ≠ '\n') (hreturn : c ≠ '\r') (cs : List Char) :
    lineBreak? (c :: cs) = none := by
  unfold lineBreak?
  split
  next heq => exact absurd (List.cons_eq_cons.mp heq).1 hbreak
  next heq => exact absurd (List.cons_eq_cons.mp heq).1 hreturn
  next => rfl

theorem endsLine_cons {c : Char} (hspace : isSpace c = false) (hbreak : c ≠ '\n') (hreturn : c ≠ '\r')
    (cs : List Char) : endsLine (c :: cs) = false := by
  have hskip : skipSpaces (c :: cs) = c :: cs := List.dropWhile_cons_of_neg (by simp [hspace])
  rw [endsLine, hskip, lineBreak?_cons hbreak hreturn]
  rfl

theorem Reads.shortEscape {c e : Char} (hquote : '\\' ≠ form.quote) (hescapes : form.escapes = true)
    (he : shortEscape? e = some c) : form.Reads ['\\', e] c where
  head := ⟨'\\', [e], rfl, hquote, by decide, by simp⟩
  body rest := by
    have hline : endsLine (e :: rest) = false := by
      unfold shortEscape? at he
      split at he
      case h_8 => cases he
      all_goals exact endsLine_cons (by decide) (by decide) (by decide) rest
    rw [List.cons_append, List.singleton_append, stringBody.eq_def]
    simp [hquote, hescapes, hline, he]

theorem Reads.scalar {c : Char} {digits : List Char} (hquote : '\\' ≠ form.quote)
    (hescapes : form.escapes = true) (hlength : digits.length = 4) (hscalar : scalar? digits = some c) :
    form.Reads ('\\' :: 'u' :: digits) c where
  head := ⟨'\\', 'u' :: digits, rfl, hquote, by decide, by simp⟩
  body rest := by
    obtain ⟨d₁, d₂, d₃, d₄, rfl⟩ := List.length_eq_four.mp hlength
    have hline := endsLine_cons (c := 'u') (by decide) (by decide) (by decide)
      (d₁ :: d₂ :: d₃ :: d₄ :: rest)
    simp only [List.cons_append, List.nil_append]
    rw [stringBody.eq_def]
    simp [hquote, hescapes, hline, shortEscape?, hscalar]

theorem isTextChar_of_not_isControl {c : Char} (hbreak : c ≠ '\n') (h : isControl c = false) :
    isTextChar c = true := by
  by_cases htab : c = '\t'
  · simp [isTextChar, htab]
  · simp [isControl, htab, hbreak] at h
    simp [isTextChar, h]

theorem scalar?_fourDigits {c : Char} (h : isControl c = true) :
    (fourDigits c.toNat).length = 4 ∧ scalar? (fourDigits c.toNat) = some c := by
  have hlow : ∀ n < 0x80,
      (fourDigits n).length = 4 ∧ scalar? (fourDigits n) = some (Char.ofNat n) := by
    decide +kernel
  have hc : c.toNat < 0x80 := by
    simp [isControl] at h
    omega
  simpa using hlow c.toNat hc

def quotedBy (quote : Char) (lines : Bool) : StringForm := ⟨quote, quote = '"', lines⟩

theorem reads_escapedChar (lines : Bool) (c : Char) : (quotedBy '"' lines).Reads (escapedChar c) c := by
  have hslash : '\\' ≠ (quotedBy '"' lines).quote := by simp [quotedBy]
  have hshort {e : Char} (he : shortEscape? e = some c) : (quotedBy '"' lines).Reads ['\\', e] c :=
    .shortEscape hslash rfl he
  unfold escapedChar
  split_ifs with hb ht hn hf hr hq hs hcontrol
  · exact hshort (by rw [hb]; rfl)
  · exact hshort (by rw [ht]; rfl)
  · exact hshort (by rw [hn]; rfl)
  · exact hshort (by rw [hf]; rfl)
  · exact hshort (by rw [hr]; rfl)
  · exact hshort (by rw [hq]; rfl)
  · exact hshort (by rw [hs]; rfl)
  · obtain ⟨hlength, hscalar⟩ := scalar?_fourDigits hcontrol
    exact .scalar hslash rfl hlength hscalar
  · refine .plain hq (fun h => absurd h hs) ?_
    exact isTextChar_of_not_isControl hn (by simpa using hcontrol)

theorem written_escaped (cs : List Char) :
    (quotedBy '"' false).Written 0 cs (cs.flatMap escapedChar) := by
  induction cs with
  | nil => exact .nil 0
  | cons c cs ih => exact .char (reads_escapedChar false c) ih

theorem written_escapedLines (count : Nat) (cs : List Char) :
    (quotedBy '"' true).Written count cs (escapedLines count cs) := by
  induction cs generalizing count with
  | nil => exact .nil count
  | cons c cs ih =>
    rw [escapedLines]
    split_ifs with hmark hbreak
    · obtain ⟨rfl, hcount⟩ := hmark
      exact .mark rfl hcount (ih (count + 1))
    · subst hbreak
      exact .char (.lineBreak (by decide) rfl) (ih 0)
    · exact .char (reads_escapedChar true c) (ih 0)

theorem le_longestRun (c : Char) (cs : List Char) (run best : Nat) :
    max run best ≤ longestRun c cs run best := by
  induction cs generalizing run best with
  | nil => exact le_rfl
  | cons d cs ih =>
    rw [longestRun]
    split_ifs
    · exact (max_le_max_right best (Nat.le_succ run)).trans (ih (run + 1) best)
    · exact (le_max_right 0 _).trans (ih 0 (max run best))

theorem written_raw {lines : Bool} {cs : List Char} {run best : Nat}
    (hcontrol : cs.any isControl = false) (hlines : '\n' ∈ cs → lines = true)
    (hrun : longestRun '\x27' cs run best ≤ if lines then 2 else 0) :
    (quotedBy '\x27' lines).Written run cs cs := by
  induction cs generalizing run best with
  | nil => exact .nil run
  | cons c cs ih =>
    simp only [List.any_cons, Bool.or_eq_false_iff] at hcontrol
    rw [List.mem_cons] at hlines
    have hrest : '\n' ∈ cs → lines = true := fun h => hlines (.inr h)
    rw [longestRun] at hrun
    split at hrun
    next hmark =>
      have hle := le_longestRun '\x27' cs (run + 1) best
      subst hmark
      cases lines with
      | false => exact absurd (hle.trans hrun) (by simp)
      | true =>
        have hcount : run + 1 ≤ 2 := (le_max_left _ _).trans (hle.trans hrun)
        exact .mark rfl hcount (ih hcontrol.2 hrest hrun)
    next hmark =>
      have hpiece : (quotedBy '\x27' lines).Reads [c] c := by
        by_cases hbreak : c = '\n'
        · subst hbreak
          exact .lineBreak hmark (hlines (.inl rfl))
        · exact .plain hmark (fun _ => rfl) (isTextChar_of_not_isControl hbreak hcontrol.1)
      exact .char hpiece (ih hcontrol.2 hrest hrun)

end StringForm

open StringForm

inductive Quoted (cs : List Char) : List Char → Prop
  | inLine {quote : Char} {lines : Bool} {ds : List Char} (hquote : quote = '"' ∨ quote = '\x27')
      (h : (quotedBy quote lines).Written 0 cs ds) (hbreak : '\n' ∉ cs) :
      Quoted cs ((quotedBy quote lines).marks ++ (ds ++ (quotedBy quote lines).marks))
  | below {quote : Char} {ds : List Char} (hquote : quote = '"' ∨ quote = '\x27')
      (h : (quotedBy quote true).Written 0 cs ds) :
      Quoted cs ((quotedBy quote true).marks ++ '\n' :: (ds ++ (quotedBy quote true).marks))

theorem quoted_basic {cs : List Char} (h : '\n' ∉ cs) :
    Quoted cs ('"' :: (cs.flatMap escapedChar ++ ['"'])) :=
  .inLine (.inl rfl) (written_escaped cs) h

theorem quoted_lines {quote : Char} {cs ds : List Char} (hquote : quote = '"' ∨ quote = '\x27')
    (h : (quotedBy quote true).Written 0 cs ds) :
    Quoted cs ((quotedBy quote true).marks ++
      ((if cs.contains '\n' then "\n" else "").toList ++ (ds ++ (quotedBy quote true).marks))) := by
  split_ifs with hbreak
  · exact .below hquote h
  · exact .inLine hquote h (by simpa using hbreak)

theorem quoted_stringText (s : String) : Quoted s.toList (stringText s).toList := by
  have hlines {quote : Char} {ds : List Char} (hquote : quote = '"' ∨ quote = '\x27')
      (h : (quotedBy quote true).Written 0 s.toList ds) := quoted_lines hquote h
  unfold stringText
  dsimp only
  generalize (if s.toList.contains '\n' = true then "\n" else "") = opening at hlines ⊢
  split_ifs with h₁ h₂ h₃ h₄ h₅
  · have hbreak : '\n' ∉ s.toList := by simp_all
    simpa using quoted_basic hbreak
  · have hbreak : '\n' ∉ s.toList := by simp_all
    have hrun : longestRun '\x27' s.toList 0 0 ≤ 0 := by simp_all
    have hcontrol : s.toList.any isControl = false := by simp_all
    have hraw : (quotedBy '\x27' false).Written 0 s.toList s.toList :=
      written_raw hcontrol (by simp [hbreak]) hrun
    simpa [marks, quotedBy] using Quoted.inLine (.inr rfl) hraw hbreak
  · simpa [marks, quotedBy] using hlines (.inl rfl) (written_escapedLines 0 s.toList)
  · have hrun : longestRun '\x27' s.toList 0 0 ≤ 2 := by simp_all
    have hcontrol : s.toList.any isControl = false := by simp_all
    have hraw : (quotedBy '\x27' true).Written 0 s.toList s.toList :=
      written_raw hcontrol (fun _ => rfl) hrun
    simpa [marks, quotedBy] using hlines (.inr rfl) hraw
  · simpa [marks, quotedBy] using hlines (.inl rfl) (written_escapedLines 0 s.toList)
  · have hbreak : '\n' ∉ s.toList := by simp_all
    simpa using quoted_basic hbreak

theorem StringForm.Written.lineBreak?_eq_none {form : StringForm} {cs ds : List Char}
    (h : form.Written 0 cs ds) (hform : form.quote ≠ '\n' ∧ form.quote ≠ '\r') (hbreak : '\n' ∉ cs)
    (rest : List Char) : lineBreak? (ds ++ form.quote :: rest) = none := by
  cases h with
  | nil => exact lineBreak?_cons hform.1 hform.2 rest
  | mark => exact lineBreak?_cons hform.1 hform.2 _
  | char hpiece h =>
    obtain ⟨d, piece, rfl, -, hreturn, hd⟩ := hpiece.head
    refine lineBreak?_cons (fun heq => hbreak ?_) hreturn _
    rw [hd heq]
    exact .head _

theorem StringForm.Written.take_ne_marks {form : StringForm} {cs ds rest : List Char}
    (h : form.Written 0 cs ds) (hlines : form.multiline = false)
    (hrest : rest.head? ≠ some form.quote) :
    (ds ++ form.quote :: rest).take 2 ≠ [form.quote, form.quote] := by
  cases h with
  | nil => cases rest <;> simp_all
  | mark htrue => simp [hlines] at htrue
  | char hpiece h =>
    obtain ⟨d, piece, rfl, hd, -⟩ := hpiece.head
    simp [hd]

theorem quotedText_of_lines (form : StringForm) (hlines : form.multiline = true) (body : List Char) :
    quotedText form.quote form.escapes true (form.marks ++ body) =
      stringBody form false (dropFirstBreak body) := by
  obtain ⟨quote, escapes, lines⟩ := form
  subst hlines
  simp [quotedText, marks]

theorem quotedText_of_inLine {form : StringForm} {body : List Char} (hlines : form.multiline = false)
    (hbody : body.take 2 ≠ [form.quote, form.quote]) :
    quotedText form.quote form.escapes true (form.marks ++ body) = stringBody form false body := by
  obtain ⟨quote, escapes, lines⟩ := form
  subst hlines
  simp [quotedText, marks, hbody]

def Ended (rest : List Char) : Prop := rest.head? ≠ some '"' ∧ rest.head? ≠ some '\x27'

theorem Ended.head?_ne {quote : Char} {rest : List Char} (h : Ended rest)
    (hquote : quote = '"' ∨ quote = '\x27') : rest.head? ≠ some quote := by
  rcases hquote with rfl | rfl
  · exact h.1
  · exact h.2

theorem dropFirstBreak_eq_self {cs : List Char} (h : lineBreak? cs = none) : dropFirstBreak cs = cs := by
  rw [dropFirstBreak, h]
  rfl

theorem ne_break_of_quote {quote : Char} (hquote : quote = '"' ∨ quote = '\x27') :
    quote ≠ '\n' ∧ quote ≠ '\r' := by
  rcases hquote with rfl | rfl <;> decide

theorem Quoted.quotedText_eq {cs text rest : List Char} (h : Quoted cs text) (hrest : Ended rest) :
    ∃ quote ds, (quote = '"' ∨ quote = '\x27') ∧ text = quote :: ds ∧
      quotedText quote (quote = '"') true (text ++ rest) = some (cs, rest) := by
  cases h with
  | @inLine quote lines ds hquote h hbreak =>
    have hread := h.stringBody_eq (hrest.head?_ne hquote)
    rw [List.append_assoc] at hread
    rw [List.append_assoc, List.append_assoc]
    cases lines with
    | false =>
      refine ⟨quote, _, hquote, rfl, ?_⟩
      rw [← hread]
      exact quotedText_of_inLine rfl (h.take_ne_marks rfl (hrest.head?_ne hquote))
    | true =>
      refine ⟨quote, _, hquote, rfl, ?_⟩
      have hfirst := h.lineBreak?_eq_none (ne_break_of_quote hquote) hbreak (quote :: quote :: rest)
      have hdrop : dropFirstBreak (ds ++ ((quotedBy quote true).marks ++ rest)) =
          ds ++ ((quotedBy quote true).marks ++ rest) :=
        dropFirstBreak_eq_self hfirst
      refine (quotedText_of_lines (quotedBy quote true) rfl _).trans ?_
      rw [hdrop, hread]
  | @below quote ds hquote h =>
    have hread := h.stringBody_eq (hrest.head?_ne hquote)
    rw [List.append_assoc] at hread
    refine ⟨quote, _, hquote, rfl, ?_⟩
    rw [List.append_assoc, List.cons_append, List.append_assoc, ← hread]
    exact quotedText_of_lines (quotedBy quote true) rfl _

theorem Scan.ofPair?_eq {α : Type} {a : α} {rest : List Char} {bound : Nat} (h : rest.length < bound) :
    Scan.ofPair? bound (a, rest) = some ⟨a, rest, h⟩ :=
  dif_pos h

theorem string?_stringText (s : String) {rest : List Char} (hrest : Ended rest) :
    ∃ h, string? true ((stringText s).toList ++ rest) = some ⟨s, rest, h⟩ := by
  obtain ⟨quote, ds, hquote, htext, hread⟩ := (quoted_stringText s).quotedText_eq hrest
  have hlt : rest.length < ((stringText s).toList ++ rest).length := by
    simp [htext]
  refine ⟨hlt, ?_⟩
  have hhead : ((stringText s).toList ++ rest).head? = some quote := by simp [htext]
  unfold string?
  rw [hhead]
  dsimp only
  rw [if_pos (by simpa using hquote), hread]
  refine (Scan.ofPair?_eq hlt).trans ?_
  simp only [String.ofList_toList]

end DrawScript.Toml
