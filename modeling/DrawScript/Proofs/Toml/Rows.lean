import DrawScript.Proofs.Toml.Strings

/-!
The lines of a written schema are read back as rows: headers, and entries whose values are texts or
arrays of texts.
-/

namespace DrawScript.Toml

open StringForm

theorem length_le_of_skipVoid {inComment : Bool} {cs rest : List Char}
    (h : skipVoid inComment cs = some rest) : rest.length ≤ cs.length := by
  induction cs generalizing inComment with
  | nil =>
    cases h
    exact le_rfl
  | cons c cs ih =>
    rw [skipVoid] at h
    split_ifs at h
    · exact (ih h).trans (Nat.le_succ _)
    · exact (ih h).trans (Nat.le_succ _)
    · exact (ih h).trans (Nat.le_succ _)
    · exact (ih h).trans (Nat.le_succ _)
    · cases h
      exact le_rfl

theorem symbol_eq (c : Char) (cs : List Char) :
    symbol c (c :: cs) = some ⟨(), cs, Nat.lt_succ_self _⟩ := by
  simp [symbol]

theorem symbol_eq_none {c : Char} {cs : List Char} (h : cs.head? ≠ some c) : symbol c cs = none := by
  cases cs with
  | nil => rfl
  | cons d cs =>
    rw [symbol, if_neg]
    simpa using h

theorem value_of_string? {depth : Nat} {cs rest : List Char} {s : String} {h : rest.length < cs.length}
    (hhead : cs.head? = some '"' ∨ cs.head? = some '\x27') (hs : string? true cs = some ⟨s, rest, h⟩) :
    value depth cs = some ⟨.text s, rest, h⟩ := by
  cases cs with
  | nil => simp at hhead
  | cons c cs =>
    have hc : (c = '"' || c = '\x27') = true := by simpa using hhead
    rw [value.eq_def]
    simp [hc, hs]

theorem value_of_items {depth : Nat} {cs rest : List Char} {vs : List Datum} {h : rest.length < cs.length}
    (hitems : items depth cs = some ⟨vs, rest, h⟩) :
    value (depth + 1) ('[' :: cs) = some ⟨.list vs, rest, Nat.lt_succ_of_lt h⟩ := by
  rw [value]
  simp [hitems]

section Items

variable {depth : Nat} {cs cs₁ cs₂ rest : List Char} {item : Datum} {vs : List Datum}

theorem items_close (hvoid : skipVoid false cs = some (']' :: rest)) :
    ∃ h, items depth cs = some ⟨[], rest, h⟩ := by
  have hle := length_le_of_skipVoid hvoid
  rw [List.length_cons] at hle
  refine ⟨hle, ?_⟩
  rw [items, hvoid]
  simp [Scan.ofPair?, symbol_eq, hle]

theorem items_cons (hvoid : skipVoid false cs = some cs₁) (hhead : cs₁.head? ≠ some ']')
    {h₂ : cs₂.length < cs₁.length} (hvalue : value depth cs₁ = some ⟨item, cs₂, h₂⟩)
    {cs₃ : List Char} (hcomma : skipVoid false cs₂ = some (',' :: cs₃))
    {h₃ : rest.length < cs₃.length} (hitems : items depth cs₃ = some ⟨vs, rest, h₃⟩) :
    ∃ h, items depth cs = some ⟨item :: vs, rest, h⟩ := by
  have hle := length_le_of_skipVoid hvoid
  have hle₂ := length_le_of_skipVoid hcomma
  rw [List.length_cons] at hle₂
  refine ⟨by omega, ?_⟩
  rw [items, hvoid]
  simp [Scan.ofPair?, symbol_eq_none hhead, symbol_eq, hvalue, hcomma, hitems, hle, hle₂]

theorem items_last (hvoid : skipVoid false cs = some cs₁) (hhead : cs₁.head? ≠ some ']')
    {h₂ : cs₂.length < cs₁.length} (hvalue : value depth cs₁ = some ⟨item, cs₂, h₂⟩)
    (hclose : skipVoid false cs₂ = some (']' :: rest)) :
    ∃ h, items depth cs = some ⟨[item], rest, h⟩ := by
  have hle := length_le_of_skipVoid hvoid
  have hle₂ := length_le_of_skipVoid hclose
  rw [List.length_cons] at hle₂
  have hcomma : symbol ',' (']' :: rest) = none := symbol_eq_none (by simp)
  refine ⟨by omega, ?_⟩
  rw [items, hvoid]
  simp [Scan.ofPair?, symbol_eq_none hhead, symbol_eq, hvalue, hclose, hcomma, hle, hle₂]

end Items

theorem ended_cons {c : Char} (hmark : c ≠ '"') (hapostrophe : c ≠ '\x27') (rest : List Char) :
    Ended (c :: rest) := by
  simp [Ended, hmark, hapostrophe]

theorem head?_stringText (s : String) (rest : List Char) :
    ((stringText s).toList ++ rest).head? = some '"' ∨
      ((stringText s).toList ++ rest).head? = some '\x27' := by
  have hended : Ended [] := by simp [Ended]
  obtain ⟨quote, ds, hquote, htext, -⟩ := (quoted_stringText s).quotedText_eq hended
  rw [htext]
  simpa using hquote

theorem head?_stringText_ne (s : String) (rest : List Char) :
    ((stringText s).toList ++ rest).head? ≠ some ']' := by
  rcases head?_stringText s rest with h | h <;> simp [h]

theorem value_stringText (depth : Nat) (s : String) {rest : List Char} (hrest : Ended rest) :
    ∃ h, value depth ((stringText s).toList ++ rest) = some ⟨.text s, rest, h⟩ := by
  obtain ⟨h, hread⟩ := string?_stringText s hrest
  exact ⟨h, value_of_string? (head?_stringText s rest) hread⟩

def startsVisibly : List Char → Bool
  | [] => false
  | c :: _ => !isSpace c && c != '\n' && c != '\r' && c != '#'

theorem startsVisibly_stringText (s : String) (rest : List Char) :
    startsVisibly ((stringText s).toList ++ rest) = true := by
  rcases head?_stringText s rest with h | h <;>
  · obtain ⟨cs, hcs⟩ := List.head?_eq_some_iff.mp h
    rw [hcs]
    rfl

theorem skipVoid_of_startsVisibly {cs : List Char} (h : startsVisibly cs = true) :
    skipVoid false cs = some cs := by
  cases cs with
  | nil => cases h
  | cons c cs =>
    simp only [startsVisibly, Bool.and_eq_true, Bool.not_eq_true', bne_iff_ne] at h
    simp [skipVoid, h]

theorem skipSpaces_of_startsVisibly {cs : List Char} (h : startsVisibly cs = true) :
    skipSpaces cs = cs := by
  cases cs with
  | nil => rfl
  | cons c cs =>
    simp only [startsVisibly, Bool.and_eq_true, Bool.not_eq_true'] at h
    exact List.dropWhile_cons_of_neg (by simp [h.1.1.1])

def itemText (text : String) : List Char := "    ".toList ++ (stringText text).toList ++ ",\n".toList

theorem items_texts (depth : Nat) (texts : List String) (rest : List Char) :
    ∃ h, items depth ('\n' :: (texts.flatMap itemText ++ ']' :: rest)) =
      some ⟨texts.map .text, rest, h⟩ := by
  induction texts with
  | nil =>
    refine items_close ?_
    simp [skipVoid, isSpace]
  | cons text texts ih =>
    obtain ⟨h, hitems⟩ := ih
    obtain ⟨h₂, hvalue⟩ := value_stringText depth text
      (ended_cons (c := ',') (by decide) (by decide) ('\n' :: (texts.flatMap itemText ++ ']' :: rest)))
    have hvisible := startsVisibly_stringText text
      (',' :: '\n' :: (texts.flatMap itemText ++ ']' :: rest))
    have hvoid : skipVoid false ('\n' :: ((text :: texts).flatMap itemText ++ ']' :: rest)) =
        some ((stringText text).toList ++ ',' :: '\n' :: (texts.flatMap itemText ++ ']' :: rest)) := by
      rw [← skipVoid_of_startsVisibly hvisible]
      simp [itemText, skipVoid, isSpace]
    exact items_cons hvoid (head?_stringText_ne text _) hvalue (skipVoid_of_startsVisibly rfl) hitems

theorem value_arrayText (depth : Nat) (texts : List String) (rest : List Char) :
    ∃ h, value (depth + 1) ((arrayText texts).toList ++ rest) =
      some ⟨.list (texts.map .text), rest, h⟩ := by
  match texts with
  | [] =>
    have hclose : skipVoid false (']' :: rest) = some (']' :: rest) := skipVoid_of_startsVisibly rfl
    obtain ⟨h, hitems⟩ := items_close hclose
    exact ⟨_, value_of_items hitems⟩
  | [text] =>
    obtain ⟨h₂, hvalue⟩ := value_stringText depth text
      (ended_cons (c := ']') (by decide) (by decide) rest)
    have hvoid := skipVoid_of_startsVisibly (startsVisibly_stringText text (']' :: rest))
    obtain ⟨h, hitems⟩ := items_last hvoid (head?_stringText_ne text _) hvalue
      (skipVoid_of_startsVisibly rfl)
    have htext : (arrayText [text]).toList ++ rest = '[' :: ((stringText text).toList ++ ']' :: rest) := by
      simp [arrayText]
    rw [htext]
    exact ⟨_, value_of_items hitems⟩
  | first :: second :: texts =>
    obtain ⟨h, hitems⟩ := items_texts depth (first :: second :: texts) rest
    have htext : (arrayText (first :: second :: texts)).toList ++ rest =
        '[' :: '\n' :: ((first :: second :: texts).flatMap itemText ++ ']' :: rest) := by
      unfold itemText
      simp [arrayText, String.toList_join, List.flatMap_map]
    rw [htext]
    exact ⟨_, value_of_items hitems⟩

section Keys

variable {key cs rest : List Char} {name : String}

def isBareKey (key : List Char) : Bool := !key.isEmpty && key.all isBareKeyChar

def endsKey (rest : List Char) : Bool := rest.head?.all fun c => !isBareKeyChar c

theorem simpleKey_bare (hkey : isBareKey key = true) (hrest : endsKey rest = true) :
    ∃ h, simpleKey (key ++ rest) = some ⟨String.ofList key, rest, h⟩ := by
  obtain ⟨hne, hall⟩ := Bool.and_eq_true_iff.mp hkey
  have hlt : rest.length < (key ++ rest).length := by
    cases key with
    | nil => cases hne
    | cons c key => simp
  have hends : rest.takeWhile isBareKeyChar = [] ∧ rest.dropWhile isBareKeyChar = rest := by
    cases rest with
    | nil => exact ⟨rfl, rfl⟩
    | cons c rest => simp_all [endsKey]
  have htake : (key ++ rest).takeWhile isBareKeyChar = key := by
    rw [List.takeWhile_append_of_pos (by simpa using hall), hends.1, List.append_nil]
  have hdrop : (key ++ rest).dropWhile isBareKeyChar = rest := by
    rw [List.dropWhile_append_of_pos (by simpa using hall), hends.2]
  refine ⟨hlt, ?_⟩
  rw [simpleKey, htake, hdrop]
  cases key with
  | nil => cases hne
  | cons c key => exact Scan.ofPair?_eq hlt

theorem dottedKey_last {h₁ : rest.length < (skipSpaces cs).length}
    (hkey : simpleKey (skipSpaces cs) = some ⟨name, rest, h₁⟩)
    (hdot : (skipSpaces rest).head? ≠ some '.') :
    ∃ h, dottedKey cs = some ⟨[name], skipSpaces rest, h⟩ := by
  refine ⟨(length_skipSpaces_le rest).trans_lt (h₁.trans_le (length_skipSpaces_le cs)), ?_⟩
  rw [dottedKey, hkey]
  dsimp only [Option.bind_eq_bind, Option.bind_some]
  split
  next more heq => exact absurd (by rw [heq]; rfl) hdot
  next => rfl

theorem dottedKey_dot {names : List String} {more : List Char}
    {h₁ : rest.length < (skipSpaces cs).length}
    (hkey : simpleKey (skipSpaces cs) = some ⟨name, rest, h₁⟩) (hdot : skipSpaces rest = '.' :: more)
    {left : List Char} {h₂ : left.length < more.length}
    (hmore : dottedKey more = some ⟨names, left, h₂⟩) :
    ∃ h, dottedKey cs = some ⟨name :: names, left, h⟩ := by
  have hle := length_skipSpaces_le rest
  have hle₁ := length_skipSpaces_le cs
  rw [hdot, List.length_cons] at hle
  refine ⟨by omega, ?_⟩
  rw [dottedKey, hkey]
  dsimp only [Option.bind_eq_bind, Option.bind_some]
  split
  next more' heq =>
    cases heq.symm.trans hdot
    simp [hmore]
  next hother => exact absurd hdot (hother more)

theorem head?_ne_of_bare (hkey : isBareKey key = true) {d : Char} (hd : isBareKeyChar d = false) :
    (key ++ rest).head? ≠ some d := by
  obtain ⟨hne, hall⟩ := Bool.and_eq_true_iff.mp hkey
  cases key with
  | nil => cases hne
  | cons c key =>
    intro hhead
    obtain rfl : c = d := by simpa using hhead
    simp [hd] at hall

theorem startsVisibly_of_head? (h : cs ≠ [])
    (hd : ∀ d ∈ [' ', '\t', '\n', '\r', '#'], cs.head? ≠ some d) : startsVisibly cs = true := by
  cases cs with
  | nil => exact absurd rfl h
  | cons c cs => simp_all [startsVisibly, isSpace]

theorem startsVisibly_bare (hkey : isBareKey key = true) : startsVisibly (key ++ rest) = true := by
  have hne : key ≠ [] := by
    rintro rfl
    cases hkey
  have hbare : ∀ d ∈ [' ', '\t', '\n', '\r', '#'], isBareKeyChar d = false := by
    simp only [List.mem_cons, List.not_mem_nil, or_false, forall_eq_or_imp, forall_eq]
    decide
  exact startsVisibly_of_head? (by simp [hne]) fun d hd => head?_ne_of_bare hkey (hbare d hd)

theorem simpleKey_skipSpaces (name : String) (rest : List Char) (hname : isBareKey name.toList = true)
    (hrest : endsKey rest = true) :
    ∃ h, simpleKey (skipSpaces (name.toList ++ rest)) = some ⟨name, rest, h⟩ := by
  have hread := simpleKey_bare hname hrest
  rw [String.ofList_toList] at hread
  rwa [skipSpaces_of_startsVisibly (startsVisibly_bare hname)]

theorem dottedKey_bare (name : String) (rest : List Char) {c : Char} {left : List Char}
    (hname : isBareKey name.toList = true) (hrest : endsKey rest = true)
    (hleft : skipSpaces rest = c :: left) (hdot : c ≠ '.') :
    ∃ h, dottedKey (name.toList ++ rest) = some ⟨[name], c :: left, h⟩ := by
  obtain ⟨h₁, hread⟩ := simpleKey_skipSpaces name rest hname hrest
  rw [← hleft]
  exact dottedKey_last hread (by simpa [hleft] using hdot)

theorem keyPath_eq {names : List String} {h : rest.length < cs.length} (hlength : names.length < nestingLimit)
    (hnames : dottedKey cs = some ⟨names, rest, h⟩) : keyPath cs = some ⟨names, rest, h⟩ := by
  rw [keyPath, hnames]
  exact if_pos hlength

end Keys

theorem rowStart_nextHeader {cs rest : List Char} {path : List String}
    {h : (']' :: ']' :: rest).length < cs.length}
    (hpath : keyPath cs = some ⟨path, ']' :: ']' :: rest, h⟩) :
    rowStart ('[' :: '[' :: cs) = some (.nextHeader path, rest) := by
  simp [rowStart, hpath, symbol_eq]

theorem rowStart_entry {cs cs₁ rest : List Char} {path : List String} {d : Datum}
    (hhead : cs.head? ≠ some '[') {h₁ : ('=' :: cs₁).length < cs.length}
    (hpath : keyPath cs = some ⟨path, '=' :: cs₁, h₁⟩) {h₂ : rest.length < (skipSpaces cs₁).length}
    (hvalue : value (nestingLimit - 1) (skipSpaces cs₁) = some ⟨d, rest, h₂⟩) :
    rowStart cs = some (.entry path d, rest) := by
  unfold rowStart
  split
  next => exact absurd rfl hhead
  next => exact absurd rfl hhead
  next => simp [hpath, symbol_eq, hvalue]

theorem lineEnd?_of_startsVisibly {cs : List Char} (h : startsVisibly cs = true) :
    lineEnd? cs = none := by
  cases cs with
  | nil => cases h
  | cons c cs =>
    have hskip := skipSpaces_of_startsVisibly h
    simp only [startsVisibly, Bool.and_eq_true, Bool.not_eq_true', bne_iff_ne] at h
    obtain ⟨⟨⟨-, hbreak⟩, hreturn⟩, hcomment⟩ := h
    unfold lineEnd?
    dsimp only
    rw [hskip]
    split
    next heq => exact absurd (List.cons_eq_cons.mp heq).1 hcomment
    next => exact lineBreak?_cons hbreak hreturn cs

theorem lineEnd?_break (rest : List Char) : lineEnd? ('\n' :: rest) = some rest := by
  have hskip : skipSpaces ('\n' :: rest) = '\n' :: rest := List.dropWhile_cons_of_neg (by decide)
  unfold lineEnd?
  dsimp only
  rw [hskip]
  rfl

/-- A text of whole lines that are read as the given rows, whatever follows them. -/
def ReadsAs (text : List Char) (rs : List Row) : Prop :=
  ∀ rest, rows (text ++ rest) = (rows rest).map (rs ++ ·)

namespace ReadsAs

theorem nil : ReadsAs [] [] := by
  intro rest
  simp

theorem append {text₁ text₂ : List Char} {rs₁ rs₂ : List Row} (h₁ : ReadsAs text₁ rs₁)
    (h₂ : ReadsAs text₂ rs₂) : ReadsAs (text₁ ++ text₂) (rs₁ ++ rs₂) := by
  intro rest
  rw [List.append_assoc, h₁, h₂, Option.map_map]
  congr 1
  funext rs
  exact (List.append_assoc rs₁ rs₂ rs).symm

theorem of_row {text : List Char} {r : Row} (hne : text ≠ [])
    (h : ∀ rest, row (text ++ rest) = some (r, rest)) : ReadsAs text [r] := by
  intro rest
  have hlt : rest.length < (text ++ rest).length := by
    have hpos := List.length_pos_of_ne_nil hne
    rw [List.length_append]
    omega
  have hempty : (text ++ rest).isEmpty = false := by simp [hne]
  rw [rows, h, hempty]
  simp only [Option.bind_some, Scan.ofPair?_eq hlt, Bool.false_eq_true, if_false]
  cases hrows : rows rest <;> simp [hrows]

theorem blank : ReadsAs ['\n'] [.empty] := by
  refine of_row (by simp) fun rest => ?_
  rw [row, List.singleton_append, lineEnd?_break]

theorem line {text : List Char} {r : Row} (hvisible : ∀ rest, startsVisibly (text ++ rest) = true)
    (h : ∀ rest, rowStart (text ++ '\n' :: rest) = some (r, '\n' :: rest)) :
    ReadsAs (text ++ ['\n']) [r] := by
  refine of_row (by simp) fun rest => ?_
  rw [List.append_assoc, List.singleton_append, row, lineEnd?_of_startsVisibly (hvisible _)]
  dsimp only
  rw [skipSpaces_of_startsVisibly (hvisible _), h]
  simp [lineEnd?_break]

theorem rows_eq {text : List Char} {rs : List Row} (h : ReadsAs text rs) : rows text = some rs := by
  have hrows := h []
  have hnil : rows [] = some [] := by
    rw [rows]
    rfl
  rwa [List.append_nil, hnil, Option.map_some, List.append_nil] at hrows

theorem entry {name : String} {text : List Char} {d : Datum} (hname : isBareKey name.toList = true)
    (hvisible : ∀ rest, startsVisibly (text ++ rest) = true)
    (hvalue : ∀ rest, ∃ h, value (nestingLimit - 1) (text ++ '\n' :: rest) =
      some ⟨d, '\n' :: rest, h⟩) :
    ReadsAs (name.toList ++ " = ".toList ++ text ++ ['\n']) [.entry [name] d] := by
  refine line (fun rest => ?_) fun rest => ?_
  · rw [List.append_assoc, List.append_assoc]
    exact startsVisibly_bare hname
  · have htext : name.toList ++ " = ".toList ++ text ++ '\n' :: rest =
        name.toList ++ ' ' :: '=' :: ' ' :: (text ++ '\n' :: rest) := by simp
    have hhead : (name.toList ++ ' ' :: '=' :: ' ' :: (text ++ '\n' :: rest)).head? ≠ some '[' :=
      head?_ne_of_bare hname (by decide)
    have hread : ∃ h, value (nestingLimit - 1) (skipSpaces (' ' :: (text ++ '\n' :: rest))) =
        some ⟨d, '\n' :: rest, h⟩ := by
      have hskip : skipSpaces (' ' :: (text ++ '\n' :: rest)) = text ++ '\n' :: rest :=
        skipSpaces_of_startsVisibly (hvisible _)
      rw [hskip]
      exact hvalue rest
    obtain ⟨h₁, hpath⟩ := dottedKey_bare name (' ' :: '=' :: ' ' :: (text ++ '\n' :: rest)) hname rfl
      rfl (by decide)
    obtain ⟨h₂, hread⟩ := hread
    rw [htext]
    exact rowStart_entry hhead (keyPath_eq (by simp [nestingLimit]) hpath) hread

end ReadsAs

theorem readsAs_instruction : ReadsAs "[[instruction]]\n".toList [.nextHeader ["instruction"]] := by
  have hline : "[[instruction]]\n".toList = "[[instruction]]".toList ++ ['\n'] := by decide
  rw [hline]
  refine .line (fun rest => rfl) fun rest => ?_
  obtain ⟨h, hpath⟩ := dottedKey_bare "instruction" (']' :: ']' :: '\n' :: rest) (by decide) rfl rfl
    (by decide)
  exact rowStart_nextHeader (keyPath_eq (by decide) hpath)

theorem readsAs_interactions :
    ReadsAs "[[instruction.interactions]]\n".toList [.nextHeader ["instruction", "interactions"]] := by
  have hline : "[[instruction.interactions]]\n".toList =
      "[[instruction.interactions]]".toList ++ ['\n'] := by decide
  rw [hline]
  refine .line (fun rest => rfl) fun rest => ?_
  obtain ⟨h₁, hlast⟩ := dottedKey_bare "interactions" (']' :: ']' :: '\n' :: rest) (by decide) rfl rfl
    (by decide)
  obtain ⟨h₂, hfirst⟩ := simpleKey_skipSpaces "instruction"
    ('.' :: ("interactions".toList ++ ']' :: ']' :: '\n' :: rest)) (by decide) rfl
  obtain ⟨h, hpath⟩ := dottedKey_dot hfirst rfl hlast
  exact rowStart_nextHeader (keyPath_eq (by decide) hpath)

end DrawScript.Toml
