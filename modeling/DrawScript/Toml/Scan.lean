import DrawScript.Datum

/-!
The lexical parts of TOML texts: blanks, comments and line breaks, keys, strings, numbers, and dates
and times. A scan reads a part from the front of a text and leaves the rest.
-/

namespace DrawScript.Toml

structure Scan (α : Type) (bound : Nat) where
  value : α
  rest : List Char
  lt_bound : rest.length < bound

namespace Scan

def widen {α : Type} {m n : Nat} (h : m ≤ n) (s : Scan α m) : Scan α n :=
  ⟨s.value, s.rest, Nat.lt_of_lt_of_le s.lt_bound h⟩

def ofPair? {α : Type} (bound : Nat) (p : α × List Char) : Option (Scan α bound) :=
  if h : p.2.length < bound then some ⟨p.1, p.2, h⟩ else none

end Scan

def isSpace (c : Char) : Bool := c == ' ' || c == '\t'

def skipSpaces (cs : List Char) : List Char := cs.dropWhile isSpace

theorem length_skipSpaces_le (cs : List Char) : (skipSpaces cs).length ≤ cs.length :=
  (List.dropWhile_sublist isSpace).length_le

def isTextChar (c : Char) : Bool := c == '\t' || (0x20 ≤ c.toNat && c.toNat != 0x7F)

def symbol (c : Char) : (cs : List Char) → Option (Scan Unit cs.length)
  | [] => none
  | d :: ds => if d = c then some ⟨(), ds, Nat.lt_succ_self _⟩ else none

def lineBreak? : List Char → Option (List Char)
  | '\n' :: cs => some cs
  | '\r' :: '\n' :: cs => some cs
  | _ => none

def skipComment : List Char → Option (List Char)
  | [] => some []
  | '\n' :: cs => some ('\n' :: cs)
  | '\r' :: '\n' :: cs => some ('\r' :: '\n' :: cs)
  | c :: cs => if isTextChar c then skipComment cs else none

def lineEnd? (cs : List Char) : Option (List Char) :=
  let ended : List Char → Option (List Char)
    | [] => some []
    | ds => lineBreak? ds
  match skipSpaces cs with
  | '#' :: ds => (skipComment ds).bind ended
  | ds => ended ds

/-- What follows blanks, comments and line breaks. The flag says that the text starts inside a
comment. -/
def skipVoid (inComment : Bool) : List Char → Option (List Char)
  | [] => some []
  | c :: cs =>
    if c = '\n' || (c = '\r' && cs.head? == some '\n') then
      skipVoid (inComment && c = '\r') cs
    else if inComment then (if isTextChar c then skipVoid true cs else none)
    else if isSpace c then skipVoid false cs
    else if c = '#' then skipVoid true cs
    else some (c :: cs)

def hexValue? (c : Char) : Option Nat :=
  if c.isDigit then some (c.toNat - '0'.toNat)
  else if 'a' ≤ c ∧ c ≤ 'f' then some (c.toNat - 'a'.toNat + 10)
  else if 'A' ≤ c ∧ c ≤ 'F' then some (c.toNat - 'A'.toNat + 10)
  else none

def scalar? (ds : List Char) : Option Char := do
  let values ← ds.mapM hexValue?
  let n := values.foldl (fun n d => 16 * n + d) 0
  if n.isValidChar then some (Char.ofNat n) else none

def shortEscape? : Char → Option Char
  | 'b' => some '\x08'
  | 't' => some '\t'
  | 'n' => some '\n'
  | 'f' => some '\x0c'
  | 'r' => some '\r'
  | '"' => some '"'
  | '\\' => some '\\'
  | _ => none

def endsLine (cs : List Char) : Bool := (lineBreak? (skipSpaces cs)).isSome

structure StringForm where
  quote : Char
  escapes : Bool
  multiline : Bool

/-- The text up to the closing quotation mark, and what follows it. A text of several lines is closed
by three marks and may end with two more; in it, a backslash at the end of a line skips to the next
visible character, which the flag `skipping` says. -/
def stringBody (form : StringForm) (skipping : Bool) : List Char → Option (List Char × List Char)
  | [] => none
  | c :: cs =>
    if skipping && (isSpace c || c == '\n' || (c == '\r' && cs.head? == some '\n')) then
      stringBody form true cs
    else if c = form.quote then
      if form.multiline then
        if cs.take 2 = [c, c] then
          match cs.drop 2 with
          | d :: e :: rest =>
            if d = c && e = c then some ([c, c], rest)
            else if d = c then some ([c], e :: rest)
            else some ([], d :: e :: rest)
          | [d] => if d = c then some ([c], []) else some ([], [d])
          | [] => some ([], [])
        else (stringBody form false cs).map fun r => (c :: r.1, r.2)
      else some ([], cs)
    else if c = '\\' && form.escapes then
      if form.multiline && endsLine cs then stringBody form true cs
      else match cs with
        | [] => none
        | e :: rest =>
          match shortEscape? e with
          | some ch => (stringBody form false rest).map fun r => (ch :: r.1, r.2)
          | none =>
            match e, rest with
            | 'u', a :: b :: c :: d :: rest =>
              (scalar? [a, b, c, d]).bind fun ch =>
                (stringBody form false rest).map fun r => (ch :: r.1, r.2)
            | 'U', a :: b :: c :: d :: e :: f :: g :: h :: rest =>
              (scalar? [a, b, c, d, e, f, g, h]).bind fun ch =>
                (stringBody form false rest).map fun r => (ch :: r.1, r.2)
            | _, _ => none
    else if c = '\n' then
      if form.multiline then (stringBody form false cs).map fun r => (c :: r.1, r.2) else none
    else if c = '\r' then
      if form.multiline && cs.head? == some '\n' then stringBody form false cs else none
    else if isTextChar c then (stringBody form false cs).map fun r => (c :: r.1, r.2)
    else none

/-- A line break directly after three opening marks does not belong to the text. -/
def dropFirstBreak (cs : List Char) : List Char := (lineBreak? cs).getD cs

def quotedText (quote : Char) (escapes multiline : Bool) (cs : List Char) :
    Option (List Char × List Char) :=
  if multiline && cs.take 3 = [quote, quote, quote] then
    stringBody ⟨quote, escapes, true⟩ false (dropFirstBreak (cs.drop 3))
  else stringBody ⟨quote, escapes, false⟩ false (cs.drop 1)

def string? (multiline : Bool) (cs : List Char) : Option (Scan String cs.length) :=
  match cs.head? with
  | some c =>
    if c = '"' || c = '\x27' then do
      let (body, rest) ← quotedText c (c = '"') multiline cs
      Scan.ofPair? cs.length (String.ofList body, rest)
    else none
  | none => none

def isBareKeyChar (c : Char) : Bool := c.isAlphanum || c == '_' || c == '-'

def simpleKey (cs : List Char) : Option (Scan String cs.length) :=
  match cs.takeWhile isBareKeyChar with
  | [] => string? false cs
  | key => Scan.ofPair? cs.length (String.ofList key, cs.dropWhile isBareKeyChar)

def dottedKey (cs : List Char) : Option (Scan (List String) cs.length) := do
  have h₀ := length_skipSpaces_le cs
  let ⟨key, cs₁, h₁⟩ ← simpleKey (skipSpaces cs)
  have h₂ := length_skipSpaces_le cs₁
  match h : skipSpaces cs₁ with
  | '.' :: cs₂ =>
    have h₃ : cs₂.length < (skipSpaces cs₁).length := by simp [h]
    let ⟨keys, cs₄, h₄⟩ ← dottedKey cs₂
    return ⟨key :: keys, cs₄, by omega⟩
  | cs₂ => return ⟨[key], cs₂, by rw [← h]; omega⟩
termination_by cs.length

def nestingLimit : Nat := 80

def keyPath (cs : List Char) : Option (Scan (List String) cs.length) := do
  let s ← dottedKey cs
  if s.value.length < nestingLimit then some s else none

def isPlainChar (c : Char) : Bool :=
  c.isAlphanum || c == '+' || c == '-' || c == '_' || c == '.' || c == ':'

def digitRow? (isDigit : Char → Bool) : List Char → Option (List Char)
  | [] => none
  | [c] => if isDigit c then some [c] else none
  | c :: '_' :: cs => if isDigit c then (digitRow? isDigit cs).map (c :: ·) else none
  | c :: cs => if isDigit c then (digitRow? isDigit cs).map (c :: ·) else none

def takeSign : List Char → List Char × List Char
  | '-' :: cs => (['-'], cs)
  | '+' :: cs => (['+'], cs)
  | cs => ([], cs)

def decimalRow? (cs : List Char) : Option (List Char) :=
  match digitRow? Char.isDigit cs with
  | some ('0' :: _ :: _) => none
  | row => row

def inWordRange (n : Int) : Bool := -(codeCount : Int) ≤ n && n < codeCount

def basedNat? (base : Nat) (cs : List Char) : Option Nat := do
  let row ← digitRow? (fun c => (hexValue? c).any (· < base)) cs
  let values ← row.mapM hexValue?
  return values.foldl (fun n d => base * n + d) 0

def integer? (cs : List Char) : Option Int := do
  let n : Int ← match cs with
    | '0' :: 'x' :: ds => (basedNat? 16 ds).map Int.ofNat
    | '0' :: 'o' :: ds => (basedNat? 8 ds).map Int.ofNat
    | '0' :: 'b' :: ds => (basedNat? 2 ds).map Int.ofNat
    | _ =>
      let (sign, ds) := takeSign cs
      (decimalRow? ds).map fun row =>
        if sign = ['-'] then -(Numeral.natOfDigits row : Int) else Numeral.natOfDigits row
  if inWordRange n then some n else none

def exponentRow? : List Char → Option (List Char)
  | [] => some []
  | c :: cs =>
    if c = 'e' || c = 'E' then
      let (sign, ds) := takeSign cs
      (digitRow? Char.isDigit ds).map fun row => c :: sign ++ row
    else none

def isExponentMark (c : Char) : Bool := c == 'e' || c == 'E'

/-- A number with a point or an exponent, or an infinity or not-a-number by its word. Digits whose
value rounds to the positive infinity are refused. -/
def real? (cs : List Char) : Option Binary64 := do
  let (sign, ds) := takeSign cs
  let negative := sign = ['-']
  if ds = ['i', 'n', 'f'] then return Binary64.infinity negative
  else if ds = ['n', 'a', 'n'] then return Binary64.ofBits 0x7FF8000000000000
  else
    let mantissa := ds.takeWhile fun c => !isExponentMark c
    let exponent ← exponentRow? (ds.dropWhile fun c => !isExponentMark c)
    let whole ← decimalRow? (mantissa.takeWhile (· != '.'))
    let fraction ← match mantissa.dropWhile (· != '.') with
      | [] => some []
      | dot :: row => (digitRow? Char.isDigit row).map (dot :: ·)
    if fraction.isEmpty && exponent.isEmpty then none
    else
      let n ← Numeral.parse? (sign ++ whole ++ fraction ++ exponent)
      if n.toBinary64 = Binary64.infinity false then none else some n.toBinary64

def twoDigits? (lo hi : Nat) (a b : Char) : Option Nat :=
  let n := Numeral.natOfDigits [a, b]
  if a.isDigit && b.isDigit && lo ≤ n && n ≤ hi then some n else none

def daysInMonth (year month : Nat) : Nat :=
  if month = 2 then (if year % 4 = 0 ∧ (year % 100 ≠ 0 ∨ year % 400 = 0) then 29 else 28)
  else if month = 4 ∨ month = 6 ∨ month = 9 ∨ month = 11 then 30
  else 31

def date? : List Char → Option (List Char)
  | y₁ :: y₂ :: y₃ :: y₄ :: '-' :: m₁ :: m₂ :: '-' :: d₁ :: d₂ :: rest => do
    let year ← if [y₁, y₂, y₃, y₄].all Char.isDigit then
        some (Numeral.natOfDigits [y₁, y₂, y₃, y₄])
      else none
    let month ← twoDigits? 1 12 m₁ m₂
    let _ ← twoDigits? 1 (daysInMonth year month) d₁ d₂
    return rest
  | _ => none

def time? : List Char → Option (List Char)
  | h₁ :: h₂ :: ':' :: m₁ :: m₂ :: ':' :: s₁ :: s₂ :: rest => do
    let _ ← twoDigits? 0 23 h₁ h₂
    let _ ← twoDigits? 0 59 m₁ m₂
    let _ ← twoDigits? 0 60 s₁ s₂
    match rest with
    | '.' :: ds => if (ds.takeWhile Char.isDigit).isEmpty then none else
        return ds.dropWhile Char.isDigit
    | _ => return rest
  | _ => none

def isOffset : List Char → Bool
  | [] => true
  | ['Z'] => true
  | ['z'] => true
  | [sign, h₁, h₂, ':', m₁, m₂] =>
    (sign == '+' || sign == '-') && (twoDigits? 0 23 h₁ h₂).isSome && (twoDigits? 0 59 m₁ m₂).isSome
  | _ => false

def isTimeWithOffset (cs : List Char) : Bool := (time? cs).any isOffset

def isMoment (cs : List Char) : Bool :=
  match date? cs with
  | some [] => true
  | some (c :: rest) => (c == 'T' || c == 't') && isTimeWithOffset rest
  | none => time? cs == some []

def plain? (cs : List Char) : Option Datum :=
  if cs = ['t', 'r', 'u', 'e'] then some (.flag true)
  else if cs = ['f', 'a', 'l', 's', 'e'] then some (.flag false)
  else if isMoment cs then some (.moment (String.ofList cs))
  else match integer? cs with
    | some n => some (.whole n)
    | none => (real? cs).map .real

/-- A number, a word, a date or a time. A date and a time may have a blank between them. -/
def plainValue (cs : List Char) : Option (Datum × List Char) :=
  let row := cs.takeWhile isPlainChar
  let rest := cs.dropWhile isPlainChar
  match date? row, rest with
  | some [], ' ' :: c :: more =>
    if c.isDigit then
      let time := (c :: more).takeWhile isPlainChar
      if isTimeWithOffset time then
        some (.moment (String.ofList (row ++ ' ' :: time)), (c :: more).dropWhile isPlainChar)
      else none
    else some (.moment (String.ofList row), rest)
  | _, _ => (plain? row).map fun d => (d, rest)

end DrawScript.Toml
