import DrawScript.Proofs.Script.Outcome
import DrawScript.Proofs.Script.Relabel
import Mathlib.Data.List.Forall2

/-!
What the parser sees of a token. It decides by kinds, keeps the texts of plain words, looks at other
words in lower case, and only carries positions along. So two rows of tokens that agree in this way read
alike, step by step: as the same tree, or with the same error but for the words it quotes. In
particular, changing the position of every token by one map changes the positions in the tree, or in the
error, by the same map and nothing else.
-/

namespace DrawScript

/-- A way to exchange tokens for tokens of the same kind. Positions are changed by `f`, plain words keep
their text, and all words keep their letters up to case. -/
structure Exchange (f : Span → Span) where
  rel : Token → Token → Prop
  kind {t t' : Token} : rel t t' → t'.kind = t.kind
  span {t t' : Token} : rel t t' → t'.span = f t.span
  text {t t' : Token} : rel t t' → t.kind = .text → t'.text = t.text
  lower {t t' : Token} : rel t t' → t'.text.toLower = t.text.toLower

namespace Exchange

def relabel (f : Span → Span) : Exchange f where
  rel t t' := t' = t.relabel f
  kind h := h ▸ rfl
  span h := h ▸ rfl
  text h _ := h ▸ rfl
  lower h := h ▸ rfl

variable {f : Span → Span} (R : Exchange f)

abbrev Rows : List Token → List Token → Prop := List.Forall₂ R.rel

inductive Errors : CompileError → CompileError → Prop
  | same (e : CompileError) : Errors e (e.relabel f)
  | expected (wanted : String) {t t' : Token} (h : R.rel t t') :
      Errors (.expected wanted t.describe t.span) (.expected wanted t'.describe (f t.span))
  | unexpected {t t' : Token} (h : R.rel t t') (message : String) :
      Errors (.unexpected t.describe message t.span) (.unexpected t'.describe message (f t.span))

/-- Two readings give values that `V` relates, or the same error before rows that correspond. -/
inductive Results {α : Type} (V : α → α → Prop) : Except Parser.Stuck α → Except Parser.Stuck α → Prop
  | ok {v v' : α} (h : V v v') : Results V (.ok v) (.ok v')
  | error {s s' : Parser.Stuck} (he : R.Errors s.error s'.error) (hrest : R.Rows s.rest s'.rest) :
      Results V (.error s) (.error s')

abbrev Takes (kind : TokenKind) (x x' : Parser.Outcome Token) : Prop :=
  R.Results (fun p p' => R.rel p.1 p'.1 ∧ p.1.kind = kind ∧ R.Rows p.2 p'.2) x x'

abbrev Reads {α : Type} (g : α → α) (x x' : Parser.Outcome α) : Prop :=
  R.Results (fun p p' => p'.1 = g p.1 ∧ R.Rows p.2 p'.2) x x'

variable {R} {α β : Type} {g : α → α} {g' : β → β} {kind : TokenKind} {ts ts' : List Token}

theorem Reads.ok {v : α} (h : R.Rows ts ts') : R.Reads g (.ok (v, ts)) (.ok (g v, ts')) :=
  Results.ok ⟨rfl, h⟩

theorem Reads.andThen {x x' : Parser.Outcome α} {k k' : α → List Token → Parser.Outcome β}
    (hx : R.Reads g x x')
    (hk : ∀ {v us us'}, x = .ok (v, us) → R.Rows us us' → R.Reads g' (k v us) (k' (g v) us')) :
    R.Reads g' (x.andThen k) (x'.andThen k') := by
  cases hx with
  | @ok p p' h =>
    obtain ⟨v, us⟩ := p
    obtain ⟨v', us'⟩ := p'
    obtain ⟨rfl, hrows⟩ := h
    exact hk rfl hrows
  | error he hrest => exact .error he hrest

theorem Takes.andThen {x x' : Parser.Outcome Token} {k k' : Token → List Token → Parser.Outcome β}
    (hx : R.Takes kind x x')
    (hk : ∀ {t t' us us'}, x = .ok (t, us) → R.rel t t' → t.kind = kind → R.Rows us us' →
      R.Reads g' (k t us) (k' t' us')) :
    R.Reads g' (x.andThen k) (x'.andThen k') := by
  cases hx with
  | ok h => exact hk rfl h.1 h.2.1 h.2.2
  | error he hrest => exact .error he hrest

theorem Takes.pass {x x' : Parser.Outcome Token} {k k' : Token → List Token → Parser.Outcome β}
    (hx : R.Takes kind x x')
    (hk : ∀ {t t' us us'}, x = .ok (t, us) → R.Rows us us' → R.Reads g' (k t us) (k' t' us')) :
    R.Reads g' (x.andThen k) (x'.andThen k') :=
  hx.andThen fun h _ _ => hk h

theorem rows_relabel : (relabel f).Rows ts ts' ↔ ts' = ts.map (Token.relabel f) := by
  constructor
  · intro h
    induction h with
    | nil => rfl
    | cons ht _ ih => rw [ht, ih, List.map_cons]
  · rintro rfl
    exact List.forall₂_map_right_iff.mpr (List.forall₂_same.mpr fun _ _ => rfl)

theorem eq_relabel_of_errors {e e' : CompileError} (h : (relabel f).Errors e e') :
    e' = e.relabel f := by
  cases h with
  | same => rfl
  | expected wanted h =>
    cases h
    rfl
  | unexpected h message =>
    cases h
    rfl

end Exchange

namespace Parser

open Exchange

section

variable {f : Span → Span} {R : Exchange f} {ts ts' : List Token}

theorem tail_exchange (h : R.Rows ts ts') : R.Rows ts.tail ts'.tail := by
  cases h with
  | nil => exact .nil
  | cons _ h => exact h

theorem nextIs_exchange (h : R.Rows ts ts') (kind : TokenKind) : nextIs kind ts' = nextIs kind ts := by
  cases h with
  | nil => rfl
  | cons ht _ => rw [nextIs_cons, nextIs_cons, R.kind ht]

theorem nextKind?_exchange {α : Type} (h : R.Rows ts ts') (g : TokenKind → Option α) :
    nextKind? g ts' = nextKind? g ts := by
  cases h with
  | nil => rfl
  | cons ht _ => exact congrArg g (R.kind ht)

theorem here_exchange (h : R.Rows ts ts') (stop : Span) : here (f stop) ts' = f (here stop ts) := by
  cases h with
  | nil => rfl
  | cons ht _ => exact R.span ht

theorem isEmpty_exchange (h : R.Rows ts ts') : ts'.isEmpty = ts.isEmpty := by
  cases h <;> rfl

theorem isCallable_exchange (h : R.Rows ts ts') : isCallable ts' = isCallable ts := by
  cases h with
  | nil => rfl
  | cons ht _ => simp only [isCallable, R.kind ht]

theorem skip_exchange (h : R.Rows ts ts') (kind : TokenKind) :
    R.Rows (skip kind ts) (skip kind ts') := by
  rw [skip_eq, skip_eq, nextIs_exchange h]
  split
  · exact tail_exchange h
  · exact h

theorem skipListMark_exchange (h : R.Rows ts ts') :
    (skipListMark ts').1 = (skipListMark ts).1 ∧ R.Rows (skipListMark ts).2 (skipListMark ts').2 := by
  cases h with
  | nil => exact ⟨rfl, .nil⟩
  | cons ha h =>
    cases h with
    | nil => exact ⟨rfl, .cons ha .nil⟩
    | cons hb h =>
      simp only [skipListMark, R.kind ha, R.kind hb]
      split
      · exact ⟨rfl, h⟩
      · exact ⟨rfl, .cons ha (.cons hb h)⟩

theorem wanted_exchange {α : Type} {V : α → α → Prop} (h : R.Rows ts ts') (stop : Span)
    (expected : String) :
    R.Results V (.error (wanted stop expected ts)) (.error (wanted (f stop) expected ts')) := by
  refine .error ?_ h
  cases h with
  | nil => exact .same (.expected expected "end of input" stop)
  | cons ht _ =>
    simp only [wanted, here, R.span ht]
    exact .expected expected ht

theorem refused_exchange {α : Type} {V : α → α → Prop} (h : R.Rows ts ts') (stop : Span)
    (message : String) :
    R.Results V (.error (refused stop message ts)) (.error (refused (f stop) message ts')) := by
  refine .error ?_ h
  cases h with
  | nil => exact .same (.unexpected "end of input" message stop)
  | cons ht _ =>
    simp only [refused, here, R.span ht]
    exact .unexpected ht message

theorem take_exchange (h : R.Rows ts ts') (stop : Span) (kind : TokenKind) (expected : String) :
    R.Takes kind (take stop kind expected ts).outcome (take (f stop) kind expected ts').outcome := by
  rw [outcome_take, outcome_take]
  cases h with
  | nil => exact wanted_exchange .nil stop expected
  | cons ht hts =>
    simp only [R.kind ht]
    split
    next hkind => exact .ok ⟨ht, hkind, hts⟩
    next => exact wanted_exchange (.cons ht hts) stop expected

theorem eq_relabel_of_text {t t' : Token} (h : R.rel t t') (hkind : t.kind = .text) :
    t' = t.relabel f := by
  obtain ⟨kind', text', span'⟩ := t'
  obtain rfl : kind' = t.kind := R.kind h
  obtain rfl : text' = t.text := R.text h hkind
  obtain rfl : span' = f t.span := R.span h
  rfl

theorem takeName_exchange (h : R.Rows ts ts') (stop : Span) :
    R.Reads (Token.relabel f) (takeName stop ts).outcome (takeName (f stop) ts').outcome := by
  rw [outcome_takeName, outcome_takeName]
  cases h with
  | nil => exact wanted_exchange .nil stop _
  | @cons t t' ts ts' ht hts =>
    have hname : (t'.kind = .text ∧ isNumeric t'.text = false) ↔
        t.kind = .text ∧ isNumeric t.text = false := by
      rw [R.kind ht]
      exact and_congr_right fun hkind => by rw [R.text ht hkind]
    dsimp only
    by_cases h : t.kind = .text ∧ isNumeric t.text = false
    · rw [if_pos h, if_pos (hname.mpr h), eq_relabel_of_text ht h.1]
      exact .ok hts
    · rw [if_neg h, if_neg (mt hname.mp h)]
      exact wanted_exchange (.cons ht hts) stop _

theorem typeSpec_exchange (h : R.Rows ts ts') (stop : Span) :
    R.Reads id (typeSpec stop ts).outcome (typeSpec (f stop) ts').outcome := by
  rw [outcome_typeSpec, outcome_typeSpec]
  refine (take_exchange h stop _ _).andThen fun {t t' _ _} _ ht _ hus => ?_
  have hbase : BaseType.ofText? t'.text = BaseType.ofText? t.text := by
    rw [BaseType.ofText?, BaseType.ofText?, R.lower ht]
  obtain ⟨hmark, hrest⟩ := skipListMark_exchange hus
  rw [hbase, hmark]
  cases BaseType.ofText? t.text with
  | none => exact .error (R.span ht ▸ .expected "a type" ht) hus
  | some base => exact .ok hrest

theorem param_exchange (h : R.Rows ts ts') (stop : Span) :
    R.Reads (Param.relabel f) (param stop ts).outcome (param (f stop) ts').outcome := by
  rw [outcome_param, outcome_param]
  exact (typeSpec_exchange h stop).andThen fun _ h₁ =>
    (takeName_exchange h₁ stop).andThen fun _ h₂ => .ok h₂

theorem moreParams_exchange {ts ts' : List Token} (h : R.Rows ts ts') (stop : Span) :
    R.Reads (List.map (Param.relabel f)) (moreParams stop ts).outcome
      (moreParams (f stop) ts').outcome := by
  rw [outcome_moreParams stop, outcome_moreParams, nextIs_exchange h]
  split
  · refine (param_exchange (tail_exchange h) stop).andThen fun h₁ hrest₁ => ?_
    have hlt := Step.lt_of_outcome_tail h₁
    exact (moreParams_exchange hrest₁ stop).andThen fun _ hrest₂ => .ok hrest₂
  · exact (take_exchange h stop _ _).pass fun _ hrest => .ok hrest
termination_by ts.length

theorem params_exchange (h : R.Rows ts ts') (stop : Span) :
    R.Reads (List.map (Param.relabel f)) (params stop ts).outcome (params (f stop) ts').outcome := by
  rw [outcome_params, outcome_params, nextIs_exchange h]
  split
  · exact .ok (tail_exchange h)
  · exact (param_exchange h stop).andThen fun _ hrest₁ =>
      (moreParams_exchange hrest₁ stop).andThen fun _ hrest₂ => .ok hrest₂

end

structure ExchangesBelow {f : Span → Span} (R : Exchange f) (stop : Span) (n : Nat) : Prop where
  expression : ∀ (depth : Nat) {ts ts' : List Token}, R.Rows ts ts' → ts.length < n →
    R.Reads (Expr.relabel f) (expression stop depth ts).outcome (expression (f stop) depth ts').outcome
  block : ∀ (depth : Nat) {ts ts' : List Token}, R.Rows ts ts' → ts.length < n →
    R.Reads (Block.relabel f) (block stop depth ts).outcome (block (f stop) depth ts').outcome

section

variable {f : Span → Span} {R : Exchange f} {stop : Span} {n : Nat} (ih : ExchangesBelow R stop n)
variable (depth : Nat) {ts ts' : List Token} (h : R.Rows ts ts')
include ih

theorem moreArguments_exchange {ts ts' : List Token} (h : R.Rows ts ts') (hn : ts.length ≤ n) :
    R.Reads (relabelExprs f) (moreArguments stop depth ts).outcome
      (moreArguments (f stop) depth ts').outcome := by
  rw [outcome_moreArguments stop, outcome_moreArguments, nextIs_exchange h]
  split
  next hcomma =>
    have htail := length_tail_of_nextIs hcomma
    refine (ih.expression depth (tail_exchange h) (by omega)).andThen fun h₁ hrest₁ => ?_
    have hlt := Step.lt_of_outcome_tail h₁
    exact (moreArguments_exchange hrest₁ (by omega)).andThen fun _ hrest₂ => .ok hrest₂
  next => exact (take_exchange h stop _ _).pass fun _ hrest => .ok hrest
termination_by ts.length

include h

theorem arguments_exchange (hn : ts.length < n) :
    R.Reads (relabelExprs f) (arguments stop depth ts).outcome
      (arguments (f stop) depth ts').outcome := by
  rw [outcome_arguments, outcome_arguments, nextIs_exchange h]
  split
  next => exact .ok (tail_exchange h)
  next =>
    refine (ih.expression depth h hn).andThen fun h₁ hrest₁ => ?_
    have hlt := Step.lt_of_outcome h₁
    exact (moreArguments_exchange ih depth hrest₁ (by omega)).andThen fun _ hrest₂ => .ok hrest₂

omit h in
theorem moreElements_exchange {ts ts' : List Token} (h : R.Rows ts ts') (hn : ts.length ≤ n) :
    R.Reads (relabelExprs f) (moreElements stop depth ts).outcome
      (moreElements (f stop) depth ts').outcome := by
  rw [outcome_moreElements stop, outcome_moreElements, nextIs_exchange h,
    nextIs_exchange (tail_exchange h)]
  split
  next hcomma =>
    have htail := length_tail_of_nextIs hcomma
    split
    next => exact .ok (tail_exchange (tail_exchange h))
    next =>
      refine (ih.expression depth (tail_exchange h) (by omega)).andThen fun h₁ hrest₁ => ?_
      have hlt := Step.lt_of_outcome_tail h₁
      exact (moreElements_exchange hrest₁ (by omega)).andThen fun _ hrest₂ => .ok hrest₂
  next => exact (take_exchange h stop _ _).pass fun _ hrest => .ok hrest
termination_by ts.length

theorem group_exchange (mark : Span) (hn : ts.length < n) :
    R.Reads (Expr.relabel f) (group stop depth mark ts).outcome
      (group (f stop) depth (f mark) ts').outcome := by
  rw [outcome_group, outcome_group, nextIs_exchange h]
  split
  next => exact .ok (tail_exchange h)
  next =>
    refine (ih.expression depth h hn).andThen fun h₁ hrest₁ => ?_
    have hlt := Step.lt_of_outcome h₁
    rw [nextIs_exchange hrest₁]
    split
    next =>
      exact (moreArguments_exchange ih depth hrest₁ (by omega)).andThen fun _ hrest₂ => .ok hrest₂
    next => exact (take_exchange hrest₁ stop _ _).pass fun _ hrest => .ok hrest

theorem listOrRange_exchange (mark : Span) (hn : ts.length < n) :
    R.Reads (Expr.relabel f) (listOrRange stop depth mark ts).outcome
      (listOrRange (f stop) depth (f mark) ts').outcome := by
  rw [outcome_listOrRange, outcome_listOrRange, nextIs_exchange h]
  split
  next => exact .ok (tail_exchange h)
  next =>
    refine (ih.expression depth h hn).andThen fun h₁ hrest₁ => ?_
    have hlt := Step.lt_of_outcome h₁
    rw [nextIs_exchange hrest₁]
    split
    next hdots =>
      have htail := length_tail_of_nextIs hdots
      exact (ih.expression depth (tail_exchange hrest₁) (by omega)).andThen fun _ hrest₂ =>
        (take_exchange hrest₂ stop _ _).pass fun _ hrest₃ => .ok hrest₃
    next =>
      exact (moreElements_exchange ih depth hrest₁ (by omega)).andThen fun _ hrest₂ => .ok hrest₂

omit h in
theorem iterators_exchange {ts ts' : List Token} (h : R.Rows ts ts') (hn : ts.length < n) :
    R.Reads (relabelIterators f) (iterators stop depth ts).outcome
      (iterators (f stop) depth ts').outcome := by
  rw [outcome_iterators stop, outcome_iterators]
  refine (takeName_exchange h stop).andThen fun h₁ hrest₁ =>
    (take_exchange hrest₁ stop _ _).pass fun h₂ hrest₂ => ?_
  have hlt₁ := Step.lt_of_outcome h₁
  have hlt₂ := Step.lt_of_outcome h₂
  refine (ih.expression depth hrest₂ (by omega)).andThen fun h₃ hrest₃ => ?_
  have hlt₃ := Step.lt_of_outcome h₃
  rw [nextIs_exchange hrest₃]
  split
  next hcomma =>
    have htail := length_tail_of_nextIs hcomma
    exact (iterators_exchange (tail_exchange hrest₃) (by omega)).andThen fun _ hrest₄ => .ok hrest₄
  next =>
    exact (take_exchange hrest₃ stop _ _).pass fun _ hrest => .ok hrest
termination_by ts.length

omit h in
theorem branches_exchange {ts ts' : List Token} (h : R.Rows ts ts') (hn : ts.length < n) :
    R.Reads (relabelBranches f) (branches stop depth ts).outcome
      (branches (f stop) depth ts').outcome := by
  rw [outcome_branches stop, outcome_branches, nextIs_exchange h]
  split
  next => exact .ok (tail_exchange h)
  next =>
    refine (ih.expression depth h hn).andThen fun h₁ hrest₁ => ?_
    have hlt := Step.lt_of_outcome h₁
    rw [nextIs_exchange hrest₁]
    split
    next hcolon =>
      have htail := length_tail_of_nextIs hcolon
      refine (ih.expression depth (tail_exchange hrest₁) (by omega)).andThen
        fun {_ ts₂ _} h₂ hrest₂ => ?_
      have hlt₂ := Step.lt_of_outcome_tail h₂
      have hskip := length_skip_le .comma ts₂
      exact (branches_exchange (skip_exchange hrest₂ .comma) (by omega)).andThen
        fun _ hrest₃ => .ok hrest₃
    next =>
      exact (take_exchange (skip_exchange hrest₁ .comma) stop _ _).pass fun _ hrest => .ok hrest
termination_by ts.length

theorem atom_exchange (hn : ts.length ≤ n) :
    R.Reads (Expr.relabel f) (atom stop depth ts).outcome (atom (f stop) depth ts').outcome := by
  rw [outcome_atom, outcome_atom]
  cases h with
  | nil => exact wanted_exchange .nil stop _
  | @cons t t' ts₁ ts₁' ht hts =>
    have hrefused : R.Reads (Expr.relabel f) _ _ :=
      refused_exchange (.cons ht hts) stop "expected an expression"
    have htext := R.text ht
    have hlower := R.lower ht
    obtain ⟨kind, text, span⟩ := t
    obtain ⟨kind', text', span'⟩ := t'
    obtain rfl : kind' = kind := R.kind ht
    obtain rfl : span' = f span := R.span ht
    cases kind'
    case dollar =>
      exact (takeName_exchange hts stop).andThen fun _ hrest => .ok hrest
    case keyword k =>
      cases k
      case loop =>
        refine (take_exchange hts stop _ _).pass fun h₁ hrest₁ => ?_
        have hlt₁ := Step.lt_of_outcome h₁
        refine (iterators_exchange ih depth hrest₁ (by grind)).andThen fun h₂ hrest₂ => ?_
        have hlt₂ := Step.lt_of_outcome h₂
        exact (ih.block depth hrest₂ (by grind)).andThen fun _ hrest₃ => .ok hrest₃
      case cases =>
        refine (take_exchange hts stop _ _).pass fun h₁ hrest₁ => ?_
        have hlt₁ := Step.lt_of_outcome h₁
        exact (branches_exchange ih depth hrest₁ (by grind)).andThen fun _ hrest₂ => .ok hrest₂
      all_goals exact hrefused
    case leftParen => exact group_exchange ih depth hts span hn
    case leftBracket => exact listOrRange_exchange ih depth hts span hn
    case text =>
      dsimp only at htext ⊢
      rw [htext rfl]
      exact .ok hts
    case builtin =>
      dsimp only at hlower ⊢
      rw [hlower]
      exact .ok hts
    all_goals exact hrefused

omit h in
theorem suffixes_exchange (callable : Bool) (e : Expr) {ts ts' : List Token} (h : R.Rows ts ts')
    (hn : ts.length ≤ n) :
    R.Reads (Expr.relabel f) (suffixes stop depth callable e ts).outcome
      (suffixes (f stop) depth callable (e.relabel f) ts').outcome := by
  rw [outcome_suffixes stop, outcome_suffixes]
  cases h with
  | nil => exact .ok .nil
  | @cons t t' ts₁ ts₁' ht hts =>
    have hrefused : R.Reads (Expr.relabel f) _ _ :=
      refused_exchange (.cons ht hts) stop "only a named function can be called"
    have hpass : R.Reads (Expr.relabel f) _ _ := .ok (v := e) (.cons ht hts)
    obtain ⟨kind, text, span⟩ := t
    obtain ⟨kind', text', span'⟩ := t'
    obtain rfl : kind' = kind := R.kind ht
    obtain rfl : span' = f span := R.span ht
    cases kind'
    case dot =>
      refine (takeName_exchange hts stop).andThen fun {name _ _} h₁ hrest₁ => ?_
      have hlt := Step.lt_of_outcome h₁
      exact suffixes_exchange callable (.member e name.text span) hrest₁ (by grind)
    case leftBracket =>
      refine (ih.expression depth hts hn).andThen fun {subscript _ _} h₁ hrest₁ =>
        (take_exchange hrest₁ stop _ _).pass fun h₂ hrest₂ => ?_
      have hlt₁ := Step.lt_of_outcome h₁
      have hlt₂ := Step.lt_of_outcome h₂
      exact suffixes_exchange callable (.index e subscript span) hrest₂ (by grind)
    case leftParen =>
      have hcallee : callee? callable (e.relabel f) = callee? callable e := by
        simp only [callee?, Expr.identifier?_relabel]
      dsimp only
      rw [hcallee]
      cases callee? callable e with
      | none => exact hrefused
      | some name =>
        refine (arguments_exchange ih depth hts hn).andThen fun {es _ _} h₁ hrest₁ => ?_
        have hlt := Step.lt_of_outcome h₁
        exact suffixes_exchange callable (.call name es span) hrest₁ (by grind)
    all_goals exact hpass
termination_by ts.length
decreasing_by all_goals grind

theorem operand_exchange (hn : ts.length ≤ n) :
    R.Reads (Expr.relabel f) (operand stop depth ts).outcome
      (operand (f stop) depth ts').outcome := by
  rw [outcome_operand, outcome_operand, isCallable_exchange h]
  refine (atom_exchange ih depth h hn).andThen fun {e _ _} h₁ hrest₁ => ?_
  have hlt := Step.lt_of_outcome h₁
  exact suffixes_exchange ih depth _ e hrest₁ (by omega)

omit h in
theorem unary_exchange (depth : Nat) {ts ts' : List Token} (h : R.Rows ts ts') (hn : ts.length ≤ n) :
    R.Reads (Expr.relabel f) (unary stop depth ts).outcome (unary (f stop) depth ts').outcome := by
  rw [outcome_unary stop, outcome_unary, nextKind?_exchange h, here_exchange h]
  split
  next => exact operand_exchange ih depth h hn
  next op hop =>
    obtain ⟨t, ts₁, rfl, -⟩ := exists_of_nextKind? hop
    cases depth with
    | zero => exact refused_exchange (tail_exchange h) stop _
    | succ depth =>
      have hle : ts₁.length ≤ n := by grind
      exact (unary_exchange depth (tail_exchange h) hle).andThen fun _ hrest => .ok hrest
termination_by ts.length

omit ih h in
theorem binaryRest_exchange (l : Level) (ls : List Level)
    (hoperand : ∀ {ts ts' : List Token}, R.Rows ts ts' → ts.length ≤ n →
      R.Reads (Expr.relabel f) (binary stop depth ls ts).outcome (binary (f stop) depth ls ts').outcome)
    (left : Expr) {ts ts' : List Token} (h : R.Rows ts ts') (hn : ts.length ≤ n) :
    R.Reads (Expr.relabel f) (binaryRest stop depth l ls left ts).outcome
      (binaryRest (f stop) depth l ls (left.relabel f) ts').outcome := by
  rw [outcome_binaryRest stop, outcome_binaryRest, nextKind?_exchange h, here_exchange h]
  split
  next => exact .ok h
  next op hop =>
    obtain ⟨t, ts₁, rfl, -⟩ := exists_of_nextKind? hop
    refine (hoperand (tail_exchange h) (by grind)).andThen fun {right _ _} h₁ hrest₁ => ?_
    have hlt := Step.lt_of_outcome h₁
    exact binaryRest_exchange l ls hoperand (.binary op left right t.span) hrest₁ (by grind)
termination_by ts.length
decreasing_by grind

omit h in
theorem binary_exchange (ls : List Level) {ts ts' : List Token} (h : R.Rows ts ts')
    (hn : ts.length ≤ n) :
    R.Reads (Expr.relabel f) (binary stop depth ls ts).outcome
      (binary (f stop) depth ls ts').outcome := by
  induction ls generalizing ts ts' with
  | nil =>
    rw [outcome_binary_nil, outcome_binary_nil]
    exact unary_exchange ih depth h hn
  | cons l ls ihls =>
    rw [outcome_binary_cons, outcome_binary_cons]
    refine (ihls h hn).andThen fun {left _ _} h₁ hrest₁ => ?_
    have hlt := Step.lt_of_outcome h₁
    exact binaryRest_exchange depth l ls ihls left hrest₁ (by omega)

theorem expression_exchange (hn : ts.length ≤ n) :
    R.Reads (Expr.relabel f) (expression stop depth ts).outcome
      (expression (f stop) depth ts').outcome := by
  cases depth with
  | zero =>
    rw [outcome_expression_zero, outcome_expression_zero]
    exact refused_exchange h stop _
  | succ depth =>
    rw [outcome_expression_succ, outcome_expression_succ]
    refine (binary_exchange ih depth levels h hn).andThen fun h₁ hrest₁ => ?_
    have hlt := Step.lt_of_outcome h₁
    rw [nextIs_exchange hrest₁, here_exchange hrest₁]
    split
    next hequals =>
      have htail := length_tail_of_nextIs hequals
      exact (ih.expression depth (tail_exchange hrest₁) (by omega)).andThen fun _ hrest₂ => .ok hrest₂
    next => exact .ok hrest₁

theorem initializer_exchange (hn : ts.length ≤ n) :
    R.Reads (relabelValue f) (initializer stop depth ts).outcome
      (initializer (f stop) depth ts').outcome := by
  rw [outcome_initializer, outcome_initializer, nextIs_exchange h]
  split
  next hequals =>
    have htail := length_tail_of_nextIs hequals
    exact (ih.expression depth (tail_exchange h) (by omega)).andThen fun _ hrest₁ =>
      (take_exchange hrest₁ stop _ _).pass fun _ hrest₂ => .ok hrest₂
  next => exact (take_exchange h stop _ _).pass fun _ hrest => .ok hrest

theorem declaration_exchange (hn : ts.length ≤ n) :
    R.Reads (Statement.relabel f) (declaration stop depth ts).outcome
      (declaration (f stop) depth ts').outcome := by
  rw [outcome_declaration, outcome_declaration]
  refine (typeSpec_exchange h stop).andThen fun h₁ hrest₁ =>
    (takeName_exchange hrest₁ stop).andThen fun h₂ hrest₂ => ?_
  have hlt₁ := Step.lt_of_outcome h₁
  have hlt₂ := Step.lt_of_outcome h₂
  rw [nextIs_exchange hrest₂]
  split
  next =>
    refine (params_exchange (tail_exchange hrest₂) stop).andThen fun h₃ hrest₃ => ?_
    have hlt₃ := Step.lt_of_outcome_tail h₃
    exact (ih.block depth hrest₃ (by omega)).andThen fun _ hrest₄ => .ok hrest₄
  next =>
    exact (initializer_exchange ih depth hrest₂ (by omega)).andThen fun _ hrest₃ => .ok hrest₃

theorem statement_exchange (hn : ts.length < n) :
    R.Reads (Statement.relabel f) (statement stop depth ts).outcome
      (statement (f stop) depth ts').outcome := by
  rw [outcome_statement, outcome_statement, nextIs_exchange h, nextIs_exchange h, here_exchange h]
  split
  next hret =>
    have htail := length_tail_of_nextIs hret
    exact (ih.expression depth (tail_exchange h) (by omega)).andThen fun _ hrest₁ =>
      (take_exchange hrest₁ stop _ _).pass fun _ hrest₂ => .ok hrest₂
  next =>
    split
    next => exact declaration_exchange ih depth h (by omega)
    next =>
      refine (ih.expression depth h hn).andThen fun _ hrest₁ =>
        (take_exchange hrest₁ stop _ _).pass fun _ hrest₂ => ?_
      rw [Expr.span_relabel]
      exact .ok hrest₂

omit h in
theorem statements_exchange {ts ts' : List Token} (h : R.Rows ts ts') (hn : ts.length < n) :
    R.Reads (relabelStatements f) (statements stop depth ts).outcome
      (statements (f stop) depth ts').outcome := by
  rw [outcome_statements stop, outcome_statements, nextIs_exchange h, isEmpty_exchange h]
  split
  next => exact .ok (tail_exchange h)
  next =>
    split
    next => exact wanted_exchange h stop _
    next =>
      refine (statement_exchange ih depth h hn).andThen fun h₁ hrest₁ => ?_
      have hlt := Step.lt_of_outcome h₁
      exact (statements_exchange hrest₁ (by omega)).andThen fun _ hrest₂ => .ok hrest₂
termination_by ts.length

theorem block_exchange (hn : ts.length ≤ n) :
    R.Reads (Block.relabel f) (block stop depth ts).outcome (block (f stop) depth ts').outcome := by
  rw [outcome_block, outcome_block]
  refine (take_exchange h stop _ _).andThen fun h₁ ht _ hrest₁ => ?_
  have hlt := Step.lt_of_outcome h₁
  rw [R.span ht]
  exact (statements_exchange ih depth hrest₁ (by omega)).andThen fun _ hrest₂ => .ok hrest₂

end

theorem exchangesBelow {f : Span → Span} (R : Exchange f) (stop : Span) (n : Nat) :
    ExchangesBelow R stop n := by
  induction n with
  | zero =>
    exact ⟨fun _ _ _ _ hn => absurd hn (Nat.not_lt_zero _),
      fun _ _ _ _ hn => absurd hn (Nat.not_lt_zero _)⟩
  | succ n ih =>
    exact ⟨fun depth _ _ h hn => expression_exchange ih depth h (Nat.le_of_lt_succ hn),
      fun depth _ _ h hn => block_exchange ih depth h (Nat.le_of_lt_succ hn)⟩

section

variable {f : Span → Span} {R : Exchange f} {ts ts' : List Token}

theorem topLevel_exchange (h : R.Rows ts ts') (stop : Span) :
    R.Reads (Statement.relabel f) (topLevel stop ts).outcome (topLevel (f stop) ts').outcome := by
  have ih := exchangesBelow R stop (ts.length + 1)
  rw [outcome_topLevel, outcome_topLevel]
  cases h with
  | nil => exact refused_exchange .nil stop _
  | @cons t t' ts₁ ts₁' ht hts =>
    have hdeclaration := declaration_exchange ih maxDepth (.cons ht hts) (Nat.le_succ _)
    have hrefused : R.Reads (Statement.relabel f) _ _ :=
      refused_exchange (.cons ht hts) stop "expected a declaration, directive or draw call"
    have hcommand : DrawCommand.ofText? t'.text = DrawCommand.ofText? t.text := by
      rw [DrawCommand.ofText?, DrawCommand.ofText?, R.lower ht]
    obtain ⟨kind, text, span⟩ := t
    obtain ⟨kind', text', span'⟩ := t'
    obtain rfl : kind' = kind := R.kind ht
    obtain rfl : span' = f span := R.span ht
    cases kind'
    case keyword k =>
      cases k
      case uniform =>
        dsimp only
        rw [outcome_uniform, outcome_uniform]
        refine (typeSpec_exchange hts stop).andThen fun h₁ hrest₁ =>
          (takeName_exchange hrest₁ stop).andThen fun h₂ hrest₂ => ?_
        have hlt₁ := Step.lt_of_outcome h₁
        have hlt₂ := Step.lt_of_outcome h₂
        dsimp only [id]
        split
        next => exact .error (.same _) hrest₂
        next =>
          exact (initializer_exchange ih maxDepth hrest₂ (by grind)).andThen fun _ hrest₃ => .ok hrest₃
      all_goals exact hrefused
    case type =>
      refine hdeclaration.andThen fun {s _ _} _ hrest => ?_
      rw [misuse?_relabel]
      cases misuse? s with
      | none => exact .ok hrest
      | some e => exact .error (.same e) hrest
    case dollar =>
      dsimp only
      rw [outcome_directive, outcome_directive]
      refine (takeName_exchange hts stop).andThen fun _ hrest₁ =>
        (take_exchange hrest₁ stop _ _).pass fun _ hrest₂ =>
          (take_exchange hrest₂ stop _ _).andThen fun _ hvalue hkind hrest₃ =>
            (take_exchange hrest₃ stop _ _).pass fun _ hrest₄ => ?_
      rw [R.text hvalue hkind]
      exact .ok hrest₄
    case draw =>
      dsimp only at hcommand ⊢
      rw [hcommand]
      cases DrawCommand.ofText? text with
      | none => exact .error (.expected "a draw command" ht) hts
      | some command =>
        dsimp only
        rw [outcome_drawCall, outcome_drawCall]
        refine (take_exchange hts stop _ _).pass fun h₁ hrest₁ => ?_
        have hlt := Step.lt_of_outcome h₁
        exact (arguments_exchange ih maxDepth hrest₁ (by grind)).andThen fun _ hrest₂ =>
          .ok (skip_exchange hrest₂ .semicolon)
    all_goals exact hrefused

/-- Rows of tokens that correspond read as the same statements, or fail with the same error before rows
that correspond. -/
theorem script_exchange {ts ts' : List Token} (h : R.Rows ts ts') (stop : Span) :
    R.Results (fun ss ss' => ss' = relabelStatements f ss) (script stop ts) (script (f stop) ts') := by
  -- A statement takes any number of tokens, so the induction is on how many are left.
  induction hlength : ts.length using Nat.strongRecOn generalizing ts ts' with | ind n ih => ?_
  subst hlength
  cases h with
  | nil =>
    rw [script_nil, script_nil]
    exact .ok rfl
  | @cons t t' ts ts' ht hts =>
    rw [script_cons, script_cons, R.kind ht]
    split
    next => exact ih ts.length (Nat.lt_succ_self _) hts rfl
    next =>
      have htop := topLevel_exchange (.cons ht hts) stop
      generalize hx : (topLevel stop (t :: ts)).outcome = x at htop ⊢
      generalize (topLevel (f stop) (t' :: ts')).outcome = x' at htop ⊢
      cases htop with
      | error he hrest => exact .error he hrest
      | @ok p p' hp =>
        obtain ⟨s, us⟩ := p
        obtain ⟨s', us'⟩ := p'
        obtain ⟨rfl, hrest⟩ := hp
        have hmore := ih us.length (Step.lt_of_outcome hx) hrest rfl
        dsimp only
        generalize script stop us = y at hmore ⊢
        generalize script (f stop) us' = y' at hmore ⊢
        cases hmore with
        | error he hrest => exact .error he hrest
        | ok hss =>
          subst hss
          exact .ok rfl

end

theorem script_relabel (f : Span → Span) (stop : Span) (ts : List Token) :
    script (f stop) (ts.map (Token.relabel f)) =
      match script stop ts with
      | .ok ss => .ok (relabelStatements f ss)
      | .error s => .error (s.relabel f) := by
  have hrows : (Exchange.relabel f).Rows ts (ts.map (Token.relabel f)) := Exchange.rows_relabel.mpr rfl
  have h := script_exchange hrows stop
  generalize script stop ts = x at h ⊢
  generalize script (f stop) (ts.map (Token.relabel f)) = x' at h ⊢
  cases h with
  | ok hss => rw [hss]
  | @error s s' he hrest =>
    obtain ⟨e', rest'⟩ := s'
    obtain rfl := Exchange.eq_relabel_of_errors he
    obtain rfl := Exchange.rows_relabel.mp hrest
    rfl

end Parser

theorem Script.relabelResult_ofTokens (f : Span → Span) (ts : List Token) :
    Script.relabelResult f (Script.ofTokens ts) =
      match Parser.script (f (Reader.ofTokens ts).stop) (ts.map (Token.relabel f)) with
      | .ok body => .ok ⟨body⟩
      | .error s => .error s.error := by
  rw [Script.ofTokens_eq, Parser.script_relabel]
  cases Parser.script (Reader.ofTokens ts).stop ts <;> rfl

end DrawScript
