import DrawScript.Proofs.Script.Outcome
import DrawScript.Proofs.Script.Printer

/-!
The parser reads back what the printer writes, if the levels of nesting suffice, and reports the
nesting if they do not. Each printed expression is readable: at every level of precedence up to its
own rank it is read off the front of the tokens that are left, provided that the token after it does
not continue it there. An expression of one level is readable at all looser levels, and parentheses
make it readable at the tightest.
-/

namespace DrawScript

namespace Parser

open Token (symbol word)

section

variable {α β : Type} {P Q : Prop} {x y z : Outcome α}

def TooDeep (x : Outcome α) : Prop :=
  ∃ found span rest, x = .error ⟨.unexpected found "expression nested too deeply" span, rest⟩

/-- The outcome `x` is `y` if the levels of nesting suffice and the error of nesting otherwise. -/
structure Verdict (fits : Prop) (x y : Outcome α) : Prop where
  eq : fits → x = y
  tooDeep : ¬ fits → TooDeep x

theorem TooDeep.andThen {x : Outcome α} (h : TooDeep x) (k : α → List Token → Outcome β) :
    TooDeep (x.andThen k) := by
  obtain ⟨found, span, rest, rfl⟩ := h
  exact ⟨found, span, rest, rfl⟩

theorem Verdict.refl (hP : P) (x : Outcome α) : Verdict P x x := ⟨fun _ => rfl, fun h => absurd hP h⟩

theorem Verdict.congr (h : Verdict P x y) (hPQ : P ↔ Q) : Verdict Q x y :=
  ⟨fun hQ => h.eq (hPQ.mpr hQ), fun hQ => h.tooDeep fun hP => hQ (hPQ.mp hP)⟩

theorem Verdict.trans (hxy : Verdict P x y) (hyz : Verdict Q y z) : Verdict (P ∧ Q) x z := by
  constructor
  · rintro ⟨hP, hQ⟩
    rw [hxy.eq hP, hyz.eq hQ]
  · intro h
    by_cases hP : P
    · rw [hxy.eq hP]
      exact hyz.tooDeep fun hQ => h ⟨hP, hQ⟩
    · exact hxy.tooDeep hP

theorem Verdict.andThen {x : Outcome α} {y : Outcome β} {k : α → List Token → Outcome β} {v : α}
    {ts : List Token} (hx : Verdict P x (.ok (v, ts))) (hk : Verdict Q (k v ts) y) :
    Verdict (P ∧ Q) (x.andThen k) y := by
  refine Verdict.trans (y := k v ts) ⟨?_, ?_⟩ hk
  · intro hP
    rw [hx.eq hP, Outcome.andThen_ok]
  · intro hP
    exact (hx.tooDeep hP).andThen k

theorem Verdict.bind {x : Outcome α} {y : Outcome β} {k : α → List Token → Outcome β} {v : α}
    {ts : List Token} (hx : Verdict P x (.ok (v, ts))) (hk : k v ts = y) :
    Verdict P (x.andThen k) y := by
  subst hk
  exact (hx.andThen (Verdict.refl trivial (k v ts))).congr (by rw [and_true])

end

/-- The rank at which a token continues the expression before it, or 0. -/
def continues : TokenKind → Nat
  | .dot | .leftBracket | .leftParen => 7
  | .operator .star | .operator .slash | .operator .percent => 5
  | .operator .plus | .operator .minus => 4
  | .operator .less | .operator .greater | .operator .bang => 3
  | .operator .pipe | .operator .caret => 2
  | .operator .equals => 1
  | _ => 0

def Follow (rank : Nat) : List Token → Prop
  | [] => True
  | t :: _ => continues t.kind < rank

theorem Follow.mono {q r : Nat} {ts : List Token} (hqr : q ≤ r) (h : Follow q ts) : Follow r ts := by
  cases ts with
  | nil => trivial
  | cons t ts => exact Nat.lt_of_lt_of_le h hqr

theorem continues_operator (op : BinaryOp) : continues (.operator op.operator) = op.rank := by
  cases op <;> rfl

def opens : TokenKind → Bool
  | .text | .builtin | .dollar | .keyword .loop | .keyword .cases => true
  | .leftParen | .leftBracket | .operator .minus | .operator .bang => true
  | _ => false

variable {stop : Span} {ts : List Token}

theorem not_nextKind?_of_follow {l : Level} (h : Follow l.rank ts) :
    nextKind? l.operator? ts = none := by
  cases hop : nextKind? l.operator? ts with
  | none => rfl
  | some op =>
    obtain ⟨t, us, rfl, ht⟩ := exists_of_nextKind? hop
    obtain ⟨hkind, hrank⟩ := Level.operator?_eq_some ht
    have hlt : continues t.kind < l.rank := h
    rw [hkind, continues_operator, hrank] at hlt
    exact absurd hlt (Nat.lt_irrefl _)

theorem not_nextIs_equals_of_follow (h : Follow 1 ts) : nextIs (.operator .equals) ts = false := by
  cases ts with
  | nil => rfl
  | cons t ts =>
    rw [nextIs_cons, decide_eq_false_iff_not]
    intro hk
    have hlt : continues t.kind < 1 := h
    rw [hk] at hlt
    exact absurd hlt (by decide)

theorem outcome_suffixes_of_follow {depth : Nat} {callable : Bool} {e : Expr} (h : Follow 7 ts) :
    (suffixes stop depth callable e ts).outcome = .ok (e, ts) := by
  rw [outcome_suffixes]
  cases ts with
  | nil => rfl
  | cons t ts =>
    have hlt : continues t.kind < 7 := h
    dsimp only
    split
    next hk => exact absurd hlt (by rw [hk]; decide)
    next hk => exact absurd hlt (by rw [hk]; decide)
    next hk => exact absurd hlt (by rw [hk]; decide)
    next => rfl

def Chains (stop : Span) (l : Level) (ls : List Level) (ts : List Token) (n : Nat) (v : Expr) :
    Prop :=
  ∀ depth rest, Follow (l.rank + 1) rest →
    Verdict (n ≤ depth) (binary stop depth (l :: ls) (ts ++ rest)).outcome
      (binaryRest stop depth l ls v rest).outcome

def Reads (stop : Span) (ls : List Level) (ts : List Token) (n : Nat) (v : Expr) : Prop :=
  ∀ depth rest, Follow (rankOf ls) rest →
    Verdict (n ≤ depth) (binary stop depth ls (ts ++ rest)).outcome (.ok (v, rest))

structure Suffixed (stop : Span) (ts : List Token) (n : Nat) (v : Expr) : Prop where
  head : ∀ rest, nextKind? unaryOperator? (ts ++ rest) = none
  operand : ∃ callable, ∀ depth rest, Verdict (n ≤ depth) (operand stop depth (ts ++ rest)).outcome
    (suffixes stop depth callable v rest).outcome

/-- The tokens are read as `v`, which nests `n` levels, wherever an expression of at most the given
rank has to stand. -/
structure Readable (stop : Span) (rank : Nat) (ts : List Token) (n : Nat) (v : Expr) : Prop where
  head : ∃ t us, ts = t :: us ∧ opens t.kind = true
  expression : ∀ depth rest, Follow 1 rest →
    Verdict (n < depth) (expression stop depth (ts ++ rest)).outcome (.ok (v, rest))
  chain : ∀ l ls, Consecutive (l :: ls) → l.rank ≤ rank → Chains stop l ls ts n v
  unaryReads : 6 ≤ rank → Reads stop [] ts n v
  suffixed : 7 ≤ rank → Suffixed stop ts n v

section

variable {rank n : Nat} {v : Expr}

theorem Chains.reads {l : Level} {ls : List Level} (h : Chains stop l ls ts n v) :
    Reads stop (l :: ls) ts n v := by
  intro depth rest hrest
  have hend : (binaryRest stop depth l ls v rest).outcome = .ok (v, rest) := by
    rw [outcome_binaryRest, not_nextKind?_of_follow hrest]
  rw [← hend]
  exact h depth rest (hrest.mono (Nat.le_succ _))

theorem Reads.chains {l : Level} {ls : List Level} (hls : rankOf ls = l.rank + 1)
    (h : Reads stop ls ts n v) : Chains stop l ls ts n v := by
  intro depth rest hrest
  rw [outcome_binary_cons]
  exact (h depth rest (hls ▸ hrest)).bind rfl

theorem chains_of_rank (hunary : 6 ≤ rank → Reads stop [] ts n v)
    (hchain : ∀ l ls, Consecutive (l :: ls) → l.rank = rank → Chains stop l ls ts n v)
    (l : Level) (ls : List Level) (hls : Consecutive (l :: ls)) (hl : l.rank ≤ rank) :
    Chains stop l ls ts n v := by
  -- Each looser level reads one operand of the next level and finds no operator of its own.
  rcases Nat.eq_or_lt_of_le hl with heq | hlt
  · exact hchain l ls hls heq
  · refine Reads.chains hls.1 ?_
    cases ls with
    | nil =>
      have hrank : 6 = l.rank + 1 := hls.1
      exact hunary (by omega)
    | cons l' ls =>
      have hrank : l'.rank = l.rank + 1 := hls.1
      exact (chains_of_rank hunary hchain l' ls hls.2 (by omega)).reads

theorem Readable.reads {ls : List Level} (h : Readable stop rank ts n v) (hls : Consecutive ls)
    (hrank : rankOf ls ≤ rank) : Reads stop ls ts n v := by
  cases ls with
  | nil => exact h.unaryReads hrank
  | cons l ls => exact (h.chain l ls hls hrank).reads

theorem Readable.mono {q : Nat} (h : Readable stop rank ts n v) (hq : q ≤ rank) :
    Readable stop q ts n v :=
  ⟨h.head, h.expression, fun l ls hls hl => h.chain l ls hls (Nat.le_trans hl hq),
    fun h6 => h.unaryReads (Nat.le_trans h6 hq), fun h7 => h.suffixed (Nat.le_trans h7 hq)⟩

theorem verdict_expression_of_reads (h : Reads stop levels ts n v) (depth : Nat) (rest : List Token)
    (hrest : Follow 1 rest) :
    Verdict (n < depth) (expression stop depth (ts ++ rest)).outcome (.ok (v, rest)) := by
  cases depth with
  | zero =>
    refine ⟨fun hlt => absurd hlt (Nat.not_lt_zero n), fun _ => ?_⟩
    rw [outcome_expression_zero]
    exact ⟨_, _, _, rfl⟩
  | succ depth =>
    rw [outcome_expression_succ]
    have hread := h depth rest (hrest.mono (by decide))
    refine (hread.bind ?_).congr Nat.lt_succ_iff.symm
    rw [not_nextIs_equals_of_follow hrest]
    rfl

theorem Readable.of_chain (hhead : ∃ t us, ts = t :: us ∧ opens t.kind = true) (hrank : 2 ≤ rank)
    (hrank' : rank < 6)
    (hchain : ∀ l ls, Consecutive (l :: ls) → l.rank = rank → Chains stop l ls ts n v) :
    Readable stop rank ts n v := by
  have hchains := chains_of_rank (fun h6 => absurd h6 (Nat.not_le.mpr hrank')) hchain
  have hreads := (hchains _ _ consecutive_levels hrank).reads
  exact ⟨hhead, verdict_expression_of_reads hreads, hchains,
    fun h6 => absurd h6 (Nat.not_le.mpr hrank'), fun h7 => absurd h7 (by omega)⟩

theorem Readable.of_unary (hhead : ∃ t us, ts = t :: us ∧ opens t.kind = true)
    (hunary : Reads stop [] ts n v) : Readable stop 6 ts n v := by
  have hchains := chains_of_rank (fun _ : 6 ≤ 6 => hunary) fun l _ _ hl => by cases l <;> cases hl
  have hreads := (hchains _ _ consecutive_levels (by decide)).reads
  exact ⟨hhead, verdict_expression_of_reads hreads, hchains, fun _ => hunary,
    fun h7 => absurd h7 (by decide)⟩

theorem Suffixed.reads (h : Suffixed stop ts n v) : Reads stop [] ts n v := by
  intro depth rest hrest
  rw [outcome_binary_nil, outcome_unary, h.head rest]
  obtain ⟨callable, hoperand⟩ := h.operand
  rw [← outcome_suffixes_of_follow (hrest.mono (by decide))]
  exact hoperand depth rest

theorem Readable.of_suffixed (hhead : ∃ t us, ts = t :: us ∧ opens t.kind = true)
    (h : Suffixed stop ts n v) : Readable stop 7 ts n v := by
  have hunary := Readable.of_unary hhead h.reads
  refine ⟨hhead, hunary.expression, ?_, fun _ => h.reads, fun _ => h⟩
  intro l ls hls _
  exact hunary.chain l ls hls (by cases l <;> decide)

theorem Readable.of_atom {t : Token} {us : List Token} (hts : ts = t :: us)
    (hopens : opens t.kind = true) (hhead : unaryOperator? t.kind = none)
    (h : ∀ depth rest, Verdict (n ≤ depth) (atom stop depth (ts ++ rest)).outcome (.ok (v, rest))) :
    Readable stop 7 ts n v := by
  subst hts
  refine .of_suffixed ⟨t, us, rfl, hopens⟩ ⟨fun _ => hhead, isCallable (t :: us), ?_⟩
  intro depth rest
  rw [outcome_operand]
  exact (h depth rest).bind rfl

theorem Readable.not_nextIs (h : Readable stop rank ts n v) (kind : TokenKind)
    (hkind : opens kind = false) (rest : List Token) : nextIs kind (ts ++ rest) = false := by
  obtain ⟨t, us, rfl, hopens⟩ := h.head
  rw [List.cons_append, nextIs_cons, decide_eq_false_iff_not]
  intro hk
  rw [hk, hkind] at hopens
  cases hopens

end

section

variable (stop)

@[simp] theorem outcome_take_symbol (kind : TokenKind) (expected : String) (ts : List Token) :
    (take stop kind expected (symbol kind :: ts)).outcome = .ok (symbol kind, ts) := by
  rw [outcome_take]
  exact if_pos rfl

end

section

variable {rank n : Nat} {v : Expr}

theorem follow_symbol {kind : TokenKind} (h : continues kind < rank) (ts : List Token) :
    Follow rank (symbol kind :: ts) := h

theorem Readable.paren (h : Readable stop rank ts n v) :
    Readable stop 7 (symbol .leftParen :: ts ++ [symbol .rightParen]) (n + 1) v := by
  refine .of_atom rfl rfl rfl fun depth rest => ?_
  have hexpr := h.expression depth (symbol .rightParen :: rest) (follow_symbol (by decide) rest)
  have hopen := h.not_nextIs .rightParen rfl (symbol .rightParen :: rest)
  rw [outcome_atom]
  simp only [List.cons_append, List.append_assoc, List.nil_append]
  change Verdict _ (group stop depth Span.start _).outcome _
  rw [outcome_group, hopen]
  exact hexpr.bind (by simp)

theorem Readable.enclose (h : Readable stop rank ts n v) {place : Nat} (hplace : place ≤ 7) :
    Readable stop place (enclose place rank ts) (deepen place rank n) v := by
  unfold DrawScript.enclose deepen
  split
  next => exact h.paren.mono hplace
  next hle => exact h.mono (Nat.le_of_not_lt hle)

def IsOperand (text : String) (isNumber : Bool) : Prop :=
  IsWord text ∧ isNumber = isNumeric text ∨ IsBuiltin text ∧ isNumber = false

theorem IsOperand.kind {text : String} {isNumber : Bool} (h : IsOperand text isNumber) :
    (word text).kind = .text ∨ (word text).kind = .builtin := by
  rcases h with ⟨htext, -⟩ | ⟨htext, -⟩
  · exact .inl (by rw [htext.word_eq])
  · exact .inr (by rw [htext.word_eq])

theorem IsOperand.outcome_atom {text : String} {isNumber : Bool} (h : IsOperand text isNumber)
    (stop : Span) (depth : Nat) (ts : List Token) :
    (atom stop depth (word text :: ts)).outcome = .ok (.name text isNumber Span.start, ts) := by
  rw [Parser.outcome_atom]
  rcases h with ⟨htext, rfl⟩ | ⟨htext, rfl⟩
  · rw [htext.word_eq]
  · rw [htext.word_eq]
    dsimp only
    rw [htext.classify_eq.2]

theorem Readable.name {text : String} {isNumber : Bool} (h : IsOperand text isNumber) :
    Readable stop 7 [word text] 0 (.name text isNumber Span.start) := by
  refine .of_atom rfl ?_ ?_ fun depth rest => ?_
  · rcases h.kind with hk | hk <;> rw [hk] <;> rfl
  · rcases h.kind with hk | hk <;> rw [hk] <;> rfl
  · exact h.outcome_atom stop depth rest ▸ .refl (Nat.zero_le depth) _

@[simp] theorem outcome_takeName_word {w : String} (hw : IsName w) (stop : Span) (ts : List Token) :
    (takeName stop (word w :: ts)).outcome = .ok (word w, ts) := by
  rw [hw.word_eq, outcome_takeName]
  exact if_pos ⟨rfl, hw.2⟩

theorem Readable.suffix {us : List Token} {m : Nat} {w : Expr} (h : Readable stop 7 ts n v)
    (hsuffix : ∀ depth callable rest,
      Verdict (m ≤ depth) (suffixes stop depth callable v (us ++ rest)).outcome
        (suffixes stop depth callable w rest).outcome) :
    Readable stop 7 (ts ++ us) (max n m) w := by
  obtain ⟨t, ts', rfl, hopens⟩ := h.head
  obtain ⟨hhead, callable, hoperand⟩ := h.suffixed (Nat.le_refl 7)
  refine .of_suffixed ⟨t, ts' ++ us, rfl, hopens⟩ ⟨?_, callable, ?_⟩
  · intro rest
    rw [List.append_assoc]
    exact hhead _
  · intro depth rest
    rw [List.append_assoc]
    exact ((hoperand depth (us ++ rest)).trans (hsuffix depth callable rest)).congr
      Nat.max_le.symm

theorem Readable.member {property : String} (h : Readable stop 7 ts n v) (hp : IsName property) :
    Readable stop 7 (ts ++ [symbol .dot, word property]) n (.member v property Span.start) := by
  have hsuffix : ∀ depth callable rest, Verdict (0 ≤ depth)
      (suffixes stop depth callable v ([symbol .dot, word property] ++ rest)).outcome
      (suffixes stop depth callable (.member v property Span.start) rest).outcome := by
    intro depth callable rest
    rw [outcome_suffixes]
    simp only [List.cons_append, List.nil_append, Token.kind_symbol, outcome_takeName_word hp,
      Outcome.andThen_ok, Token.text_word, Token.span_symbol]
    exact .refl (Nat.zero_le depth) _
  have hmember := h.suffix hsuffix
  rwa [Nat.max_zero] at hmember

theorem Readable.index {rank' m : Nat} {us : List Token} {w : Expr} (h : Readable stop 7 ts n v)
    (hw : Readable stop rank' us m w) :
    Readable stop 7 (ts ++ (symbol .leftBracket :: us ++ [symbol .rightBracket])) (max n (m + 1))
      (.index v w Span.start) := by
  refine h.suffix fun depth callable rest => ?_
  have hexpr := hw.expression depth (symbol .rightBracket :: rest) (follow_symbol (by decide) rest)
  rw [outcome_suffixes]
  simp only [List.cons_append, List.append_assoc, List.nil_append, Token.kind_symbol]
  exact hexpr.bind (by simp)

theorem Readable.binary {op : BinaryOp} {m : Nat} {us : List Token} {w : Expr}
    (hleft : Readable stop op.rank ts n v) (hright : Readable stop (op.rank + 1) us m w) :
    Readable stop op.rank (ts ++ symbol (.operator op.operator) :: us) (max n m)
      (.binary op v w Span.start) := by
  obtain ⟨t, ts', rfl, hopens⟩ := hleft.head
  refine .of_chain ⟨t, _, rfl, hopens⟩ (by cases op <;> decide) (by cases op <;> decide) ?_
  intro l ls hls hl depth rest hrest
  have hop : l.operator? (.operator op.operator) = some op := by
    cases op <;> cases l <;> first | rfl | cases hl
  have hchain := hleft.chain l ls hls (Nat.le_of_eq hl) depth
    (symbol (.operator op.operator) :: us ++ rest)
    (follow_symbol (by rw [continues_operator, hl]; exact Nat.lt_succ_self _) _)
  have hreads := hright.reads hls.2 (Nat.le_of_eq (by rw [hls.1, hl])) depth rest (hls.1 ▸ hrest)
  rw [List.append_assoc]
  refine (hchain.trans (y := (binaryRest stop depth l ls v _).outcome) ?_).congr Nat.max_le.symm
  rw [outcome_binaryRest]
  simp only [List.cons_append, nextKind?, List.head?_cons, Option.bind_some, Token.kind_symbol, hop,
    List.tail_cons]
  exact hreads.bind rfl

theorem Readable.unary {op : UnaryOp} (h : Readable stop 6 ts n v) :
    Readable stop 6 (symbol (.operator op.operator) :: ts) (n + 1) (.unary op v Span.start) := by
  have hop : unaryOperator? (.operator op.operator) = some op := by cases op <;> rfl
  refine .of_unary ⟨_, ts, rfl, by cases op <;> rfl⟩ ?_
  intro depth rest hrest
  rw [outcome_binary_nil, outcome_unary]
  simp only [List.cons_append, nextKind?, List.head?_cons, Option.bind_some, Token.kind_symbol, hop]
  cases depth with
  | zero => exact ⟨fun hle => absurd hle (Nat.not_succ_le_zero n), fun _ => ⟨_, _, _, rfl⟩⟩
  | succ depth =>
    have hread := h.unaryReads (Nat.le_refl 6) depth rest hrest
    rw [outcome_binary_nil] at hread
    exact (hread.bind rfl).congr Nat.succ_le_succ_iff.symm

theorem Readable.assign {rank' m : Nat} {us : List Token} {w : Expr}
    (htarget : Readable stop 2 ts n v) (hvalue : Readable stop rank' us m w) :
    Readable stop 1 (ts ++ symbol (.operator .equals) :: us) (max n (m + 1))
      (.assign v w Span.start) := by
  obtain ⟨t, ts', rfl, hopens⟩ := htarget.head
  refine ⟨⟨t, _, rfl, hopens⟩, ?_, ?_, fun h6 => absurd h6 (by decide),
    fun h7 => absurd h7 (by decide)⟩
  · intro depth rest hrest
    rw [List.append_assoc]
    cases depth with
    | zero =>
      refine ⟨fun hlt => absurd hlt (Nat.not_lt_zero _), fun _ => ?_⟩
      rw [outcome_expression_zero]
      exact ⟨_, _, _, rfl⟩
    | succ depth =>
      have hread := htarget.reads consecutive_levels (Nat.le_refl 2) depth
        (symbol (.operator .equals) :: us ++ rest) (follow_symbol (by decide) _)
      have hexpr := hvalue.expression depth rest hrest
      rw [outcome_expression_succ]
      refine (hread.andThen ((hexpr.bind rfl).congr Iff.rfl)).congr ?_
      omega
  · intro l ls _ hl
    exact absurd hl (by cases l <;> decide)

end

end Parser

end DrawScript
