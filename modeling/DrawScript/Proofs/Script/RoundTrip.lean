import DrawScript.Proofs.Script.Exchange
import DrawScript.Proofs.Script.Lexemes
import DrawScript.Proofs.Script.Readback

/-!
Every script that can be printed is read back, up to positions, if its expressions nest at most as
deeply as the language allows; otherwise reading it reports the nesting. The rows of a tree (its
arguments, elements, iterators, branches, statements) are read back by induction over the row, the
tree by recursion over its forms, and the text because every token of a printed script is a lexeme.
-/

namespace DrawScript

open Token (symbol word)

def Expr.ReadsBack (stop : Span) (e : Expr) : Prop :=
  Parser.Readable stop e.rank e.tokens e.nesting (e.relabel Span.forget)

def Iterator.ReadsBack (stop : Span) : Iterator → Prop
  | .mk name range => IsName name ∧ range.ReadsBack stop

def Branch.ReadsBack (stop : Span) : Branch → Prop
  | .tested test result => test.ReadsBack stop ∧ result.ReadsBack stop
  | .otherwise result => result.ReadsBack stop

def Block.ReadsBack (stop : Span) (b : Block) : Prop :=
  ∀ depth rest, Parser.Verdict (b.nesting ≤ depth)
    (Parser.block stop depth (b.tokens ++ rest)).outcome (.ok (b.relabel Span.forget, rest))

structure Statement.ReadsBack (stop : Span) (s : Statement) : Prop where
  head : ∃ t us, s.tokens = t :: us ∧ t.kind ≠ .rightBrace
  statement : ∀ depth rest, Parser.Verdict (s.nesting ≤ depth)
    (Parser.statement stop depth (s.tokens ++ rest)).outcome (.ok (s.relabel Span.forget, rest))

namespace Parser

variable {stop : Span}

theorem follow_moreExprTokens (kind : TokenKind) (hkind : continues kind < 1) (es : List Expr)
    (rest : List Token) : Follow 1 (moreExprTokens es ++ symbol kind :: rest) := by
  cases es with
  | nil => exact hkind
  | cons e es => exact follow_symbol (by decide) _

theorem verdict_moreArguments {es : List Expr} (h : ∀ e ∈ es, e.ReadsBack stop) (depth : Nat)
    (rest : List Token) :
    Verdict (exprNesting es ≤ depth)
      (moreArguments stop depth (moreExprTokens es ++ symbol .rightParen :: rest)).outcome
      (.ok (relabelExprs Span.forget es, rest)) := by
  induction es with
  | nil =>
    rw [outcome_moreArguments]
    exact Verdict.refl (Nat.zero_le depth) _
  | cons e es ih =>
    have hexpr := (h e List.mem_cons_self).expression depth _
      (follow_moreExprTokens .rightParen (by decide) es rest)
    have hmore := ih fun e he => h e (List.mem_cons_of_mem _ he)
    rw [moreExprTokens, List.append_assoc, outcome_moreArguments]
    exact Verdict.congr (hexpr.andThen (hmore.bind rfl)) Nat.max_le.symm

theorem verdict_arguments {es : List Expr} (h : ∀ e ∈ es, e.ReadsBack stop) (depth : Nat)
    (rest : List Token) :
    Verdict (exprNesting es ≤ depth)
      (arguments stop depth (exprTokens es ++ symbol .rightParen :: rest)).outcome
      (.ok (relabelExprs Span.forget es, rest)) := by
  rw [outcome_arguments]
  cases es with
  | nil => exact Verdict.refl (Nat.zero_le depth) _
  | cons e es =>
    have he := h e List.mem_cons_self
    have hexpr := he.expression depth _ (follow_moreExprTokens .rightParen (by decide) es rest)
    have hmore := verdict_moreArguments (fun e he => h e (List.mem_cons_of_mem _ he)) depth rest
    rw [exprTokens, List.append_assoc, he.not_nextIs .rightParen rfl]
    exact Verdict.congr (hexpr.andThen (hmore.bind rfl)) Nat.max_le.symm

theorem verdict_moreElements {es : List Expr} (h : ∀ e ∈ es, e.ReadsBack stop) (depth : Nat)
    (rest : List Token) :
    Verdict (exprNesting es ≤ depth)
      (moreElements stop depth (moreExprTokens es ++ symbol .rightBracket :: rest)).outcome
      (.ok (relabelExprs Span.forget es, rest)) := by
  induction es with
  | nil =>
    rw [outcome_moreElements]
    exact Verdict.refl (Nat.zero_le depth) _
  | cons e es ih =>
    have he := h e List.mem_cons_self
    have hexpr := he.expression depth _ (follow_moreExprTokens .rightBracket (by decide) es rest)
    have hmore := ih fun e he => h e (List.mem_cons_of_mem _ he)
    rw [moreExprTokens, List.append_assoc, List.cons_append, outcome_moreElements, List.tail_cons,
      he.not_nextIs .rightBracket rfl]
    exact Verdict.congr (hexpr.andThen (hmore.bind rfl)) Nat.max_le.symm

theorem Readable.call {name : String} {es : List Expr} (hname : IsName name ∨ IsBuiltin name)
    (h : ∀ e ∈ es, e.ReadsBack stop) :
    Readable stop 7 (word name :: symbol .leftParen :: exprTokens es ++ [symbol .rightParen])
      (exprNesting es) (.call name (relabelExprs Span.forget es) Span.start) := by
  have hoperand : IsOperand name false :=
    hname.imp (fun h => ⟨h.1, h.2.symm⟩) fun h => ⟨h, rfl⟩
  have hcallable : ∀ ts, isCallable (word name :: ts) = true := by
    intro ts
    rcases hoperand.kind with hk | hk <;> simp only [isCallable, hk] <;> rfl
  have hname : Readable stop 7 [word name] 0 (.name name false Span.start) := .name hoperand
  obtain ⟨t, us, hts, hopens⟩ := hname.head
  cases hts
  refine .of_suffixed ⟨_, _, rfl, hopens⟩ ⟨fun _ => (hname.suffixed (Nat.le_refl 7)).head [], true, ?_⟩
  intro depth rest
  rw [List.append_assoc, List.cons_append, outcome_operand, hcallable, hoperand.outcome_atom,
    Outcome.andThen_ok, outcome_suffixes]
  exact Verdict.bind (verdict_arguments h depth rest) rfl

theorem Readable.dollar {name : String} (hname : IsName name) :
    Readable stop 7 [symbol .dollar, word name] 0 (.call ("$" ++ name) [] Span.start) := by
  refine .of_atom rfl rfl rfl fun depth rest => ?_
  rw [outcome_atom]
  simp only [List.cons_append, List.nil_append, Token.kind_symbol, outcome_takeName_word hname,
    Outcome.andThen_ok]
  exact .refl (Nat.zero_le depth) _

theorem Readable.vector {es : List Expr} (hlength : es.length ≠ 1)
    (h : ∀ e ∈ es, e.ReadsBack stop) :
    Readable stop 7 (symbol .leftParen :: exprTokens es ++ [symbol .rightParen]) (exprNesting es)
      (.vector (relabelExprs Span.forget es) Span.start) := by
  refine .of_atom rfl rfl rfl fun depth rest => ?_
  rw [List.append_assoc, List.cons_append, outcome_atom]
  change Verdict _ (group stop depth Span.start (exprTokens es ++ symbol .rightParen :: rest)).outcome _
  rw [outcome_group]
  match es with
  | [] => exact .refl (Nat.zero_le depth) _
  | [e] => exact absurd rfl hlength
  | e :: e' :: es =>
    have he := h e List.mem_cons_self
    have hexpr := he.expression depth _
      (follow_moreExprTokens .rightParen (by decide) (e' :: es) rest)
    have hmore := verdict_moreArguments (fun e he => h e (List.mem_cons_of_mem _ he)) depth rest
    rw [exprTokens, List.append_assoc, he.not_nextIs .rightParen rfl]
    exact Verdict.congr (hexpr.andThen (hmore.bind rfl)) Nat.max_le.symm

theorem not_nextIs_moreExprTokens (es : List Expr) (rest : List Token) :
    nextIs .ellipsis (moreExprTokens es ++ symbol .rightBracket :: rest) = false := by
  cases es <;> rfl

theorem Readable.list {es : List Expr} (h : ∀ e ∈ es, e.ReadsBack stop) :
    Readable stop 7 (symbol .leftBracket :: exprTokens es ++ [symbol .rightBracket])
      (exprNesting es) (.list (relabelExprs Span.forget es) Span.start) := by
  refine .of_atom rfl rfl rfl fun depth rest => ?_
  rw [List.append_assoc, List.cons_append, outcome_atom]
  change Verdict _
    (listOrRange stop depth Span.start (exprTokens es ++ symbol .rightBracket :: rest)).outcome _
  rw [outcome_listOrRange]
  cases es with
  | nil => exact .refl (Nat.zero_le depth) _
  | cons e es =>
    have he := h e List.mem_cons_self
    have hexpr := he.expression depth _ (follow_moreExprTokens .rightBracket (by decide) es rest)
    have hmore := verdict_moreElements (fun e he => h e (List.mem_cons_of_mem _ he)) depth rest
    rw [exprTokens, List.append_assoc, he.not_nextIs .rightBracket rfl]
    refine Verdict.congr (hexpr.andThen ?_) Nat.max_le.symm
    rw [not_nextIs_moreExprTokens]
    exact hmore.bind rfl

theorem Readable.range {first last : Expr} (hfirst : first.ReadsBack stop)
    (hlast : last.ReadsBack stop) :
    Readable stop 7
      (symbol .leftBracket :: first.tokens ++ symbol .ellipsis :: last.tokens ++
        [symbol .rightBracket])
      (max (first.nesting + 1) (last.nesting + 1))
      (.range (first.relabel Span.forget) (last.relabel Span.forget) Span.start) := by
  refine .of_atom rfl rfl rfl fun depth rest => ?_
  rw [List.append_assoc, List.append_assoc, List.cons_append, outcome_atom]
  change Verdict _ (listOrRange stop depth Span.start
    (first.tokens ++ symbol .ellipsis :: (last.tokens ++ symbol .rightBracket :: rest))).outcome _
  have hend := hlast.expression depth (symbol .rightBracket :: rest) (follow_symbol (by decide) _)
  have hstart := hfirst.expression depth
    (symbol .ellipsis :: (last.tokens ++ symbol .rightBracket :: rest)) (follow_symbol (by decide) _)
  rw [outcome_listOrRange, hfirst.not_nextIs .rightBracket rfl]
  exact Verdict.congr (hstart.andThen (hend.bind (by simp))) Nat.max_le.symm

theorem verdict_iterators {its : List Iterator} (hne : its ≠ [])
    (h : ∀ it ∈ its, it.ReadsBack stop) (depth : Nat) (rest : List Token) :
    Verdict (iteratorNesting its ≤ depth)
      (iterators stop depth (iteratorTokens its ++ symbol .rightParen :: rest)).outcome
      (.ok (relabelIterators Span.forget its, rest)) := by
  induction its with
  | nil => exact absurd rfl hne
  | cons it its ih =>
    obtain ⟨name, range⟩ := it
    obtain ⟨hname, hrange⟩ := h _ List.mem_cons_self
    rw [iteratorTokens, List.append_assoc, List.cons_append, List.cons_append, outcome_iterators,
      outcome_takeName_word hname, Outcome.andThen_ok, outcome_take_symbol, Outcome.andThen_ok]
    match its with
    | [] =>
      have hexpr := hrange.expression depth (symbol .rightParen :: rest) (follow_symbol (by decide) _)
      have hone : iteratorNesting [.mk name range] = range.nesting + 1 := Nat.max_zero _
      exact Verdict.congr (hexpr.bind rfl) (by rw [hone]; exact Nat.lt_iff_add_one_le)
    | .mk name' range' :: its =>
      have hmore := ih (List.cons_ne_nil _ _) fun it hit => h it (List.mem_cons_of_mem _ hit)
      have hexpr := hrange.expression depth
        (symbol .comma :: (iteratorTokens (.mk name' range' :: its) ++ symbol .rightParen :: rest))
        (follow_symbol (by decide) _)
      exact Verdict.congr (hexpr.andThen (hmore.bind rfl)) Nat.max_le.symm

theorem Readable.loop {its : List Iterator} {body : Block} (hne : its ≠ [])
    (hits : ∀ it ∈ its, it.ReadsBack stop) (hbody : body.ReadsBack stop) :
    Readable stop 7
      (symbol (.keyword .loop) :: symbol .leftParen :: iteratorTokens its ++
        symbol .rightParen :: body.tokens)
      (max (iteratorNesting its) body.nesting)
      (.loop (relabelIterators Span.forget its) (body.relabel Span.forget) Span.start) := by
  refine .of_atom rfl rfl rfl fun depth rest => ?_
  have hrow := verdict_iterators hne hits depth (body.tokens ++ rest)
  rw [List.append_assoc, List.cons_append, List.cons_append, outcome_atom]
  exact Verdict.congr (hrow.andThen ((hbody depth rest).bind rfl)) Nat.max_le.symm

theorem verdict_branches {bs : List Branch} (hwf : wellFormedBranches bs)
    (h : ∀ b ∈ bs, b.ReadsBack stop) (depth : Nat) (rest : List Token) :
    Verdict (branchNesting bs ≤ depth)
      (branches stop depth (branchTokens bs ++ symbol .rightBrace :: rest)).outcome
      (.ok (relabelBranches Span.forget bs, rest)) := by
  induction bs with
  | nil =>
    rw [outcome_branches]
    exact Verdict.refl (Nat.zero_le depth) _
  | cons b bs ih =>
    cases b with
    | tested test result =>
      obtain ⟨-, -, hwf⟩ := hwf
      obtain ⟨htest, hresult⟩ := h _ List.mem_cons_self
      have hmore := ih hwf fun b hb => h b (List.mem_cons_of_mem _ hb)
      have hfirst := htest.expression depth (symbol .colon :: (result.tokens ++ symbol .comma ::
        (branchTokens bs ++ symbol .rightBrace :: rest))) (follow_symbol (by decide) _)
      have hsecond := hresult.expression depth
        (symbol .comma :: (branchTokens bs ++ symbol .rightBrace :: rest))
        (follow_symbol (by decide) _)
      rw [branchTokens, List.append_assoc, List.append_assoc, List.cons_append, List.cons_append,
        outcome_branches, htest.not_nextIs .rightBrace rfl]
      refine Verdict.congr (hfirst.andThen (hsecond.andThen (hmore.bind rfl))) ?_
      simp only [branchNesting, Nat.max_le, Nat.succ_le_iff]
    | otherwise result =>
      obtain ⟨-, rfl⟩ := hwf
      have hresult : result.ReadsBack stop := h _ List.mem_cons_self
      have hexpr := hresult.expression depth (symbol .comma :: symbol .rightBrace :: rest)
        (follow_symbol (by decide) _)
      rw [branchTokens, List.append_assoc, List.cons_append, outcome_branches,
        hresult.not_nextIs .rightBrace rfl]
      refine Verdict.congr (hexpr.bind rfl) ?_
      simp only [branchNesting, Nat.max_zero, Nat.succ_le_iff]

theorem Readable.cases {bs : List Branch} (hwf : wellFormedBranches bs)
    (h : ∀ b ∈ bs, b.ReadsBack stop) :
    Readable stop 7
      (symbol (.keyword .cases) :: symbol .leftBrace :: branchTokens bs ++ [symbol .rightBrace])
      (branchNesting bs) (.cases (relabelBranches Span.forget bs) Span.start) := by
  refine .of_atom rfl rfl rfl fun depth rest => ?_
  rw [List.append_assoc, List.cons_append, List.cons_append, outcome_atom]
  simp only [Token.kind_symbol, outcome_take_symbol, Outcome.andThen_ok]
  exact Verdict.bind (verdict_branches hwf h depth rest) rfl

theorem ofText?_text (base : BaseType) : BaseType.ofText? base.text = some base := by
  cases base <;> decide +kernel

theorem outcome_typeSpec_tokens (stop : Span) (type : TypeSpec) {name : String} (hname : IsName name)
    (rest : List Token) :
    (typeSpec stop (type.tokens ++ word name :: rest)).outcome = .ok (type, word name :: rest) := by
  obtain ⟨base, isList⟩ := type
  have hmark : skipListMark (word name :: rest) = (false, word name :: rest) := by
    rw [hname.word_eq]
    cases rest <;> rfl
  rw [TypeSpec.tokens, List.cons_append, outcome_typeSpec, outcome_take]
  simp only [if_true, Outcome.andThen_ok, ofText?_text]
  cases isList with
  | true => rfl
  | false =>
    simp only [Bool.false_eq_true, if_false, List.nil_append]
    rw [hmark]

theorem outcome_param_tokens (stop : Span) {p : Param} (hp : IsName p.name) (rest : List Token) :
    (param stop (p.tokens ++ rest)).outcome = .ok (p.relabel Span.forget, rest) := by
  rw [Param.tokens, List.append_assoc, outcome_param, List.cons_append,
    outcome_typeSpec_tokens stop p.type hp, Outcome.andThen_ok, outcome_takeName_word hp]
  rfl

theorem outcome_moreParams_tokens (stop : Span) {ps : List Param} (h : ∀ p ∈ ps, IsName p.name)
    (rest : List Token) :
    (moreParams stop (moreParamTokens ps ++ symbol .rightParen :: rest)).outcome =
      .ok (ps.map (Param.relabel Span.forget), rest) := by
  induction ps with
  | nil =>
    rw [outcome_moreParams]
    rfl
  | cons p ps ih =>
    have hmore := ih fun p hp => h p (List.mem_cons_of_mem _ hp)
    have hparam := outcome_param_tokens stop (h p List.mem_cons_self)
      (moreParamTokens ps ++ symbol .rightParen :: rest)
    rw [moreParamTokens, List.append_assoc, List.cons_append, outcome_moreParams, List.tail_cons,
      hparam, Outcome.andThen_ok, hmore]
    rfl

theorem outcome_params_tokens (stop : Span) {ps : List Param} (h : ∀ p ∈ ps, IsName p.name)
    (rest : List Token) :
    (params stop (paramTokens ps ++ symbol .rightParen :: rest)).outcome =
      .ok (ps.map (Param.relabel Span.forget), rest) := by
  rw [outcome_params]
  cases ps with
  | nil => rfl
  | cons p ps =>
    have hmore := outcome_moreParams_tokens stop
      (fun p hp => h p (List.mem_cons_of_mem _ hp)) rest
    have hparam := outcome_param_tokens stop (h p List.mem_cons_self)
      (moreParamTokens ps ++ symbol .rightParen :: rest)
    rw [paramTokens, List.append_assoc, hparam, Outcome.andThen_ok, hmore]
    rfl

def ValueReadsBack (stop : Span) (value : Option Expr) : Prop := ∀ e ∈ value, e.ReadsBack stop

theorem verdict_initializer {value : Option Expr} (h : ValueReadsBack stop value) (depth : Nat)
    (rest : List Token) :
    Verdict (valueNesting value ≤ depth)
      (initializer stop depth (valueTokens value ++ rest)).outcome
      (.ok (relabelValue Span.forget value, rest)) := by
  cases value with
  | none =>
    rw [outcome_initializer]
    exact Verdict.refl (Nat.zero_le depth) _
  | some e =>
    have hexpr := (h e rfl).expression depth (symbol .semicolon :: rest) (follow_symbol (by decide) _)
    rw [valueTokens, List.append_assoc, List.cons_append, outcome_initializer]
    exact Verdict.congr (hexpr.bind rfl) Iff.rfl

theorem verdict_function (returns : TypeSpec) (span : Span) {name : String} {ps : List Param}
    {body : Block} (hname : IsName name) (hps : ∀ p ∈ ps, IsName p.name)
    (hbody : body.ReadsBack stop) (depth : Nat) (rest : List Token) :
    Verdict (body.nesting ≤ depth)
      (declaration stop depth ((Statement.function returns name ps body span).tokens ++ rest)).outcome
      (.ok ((Statement.function returns name ps body span).relabel Span.forget, rest)) := by
  have hparams := outcome_params_tokens stop hps (body.tokens ++ rest)
  rw [Statement.tokens, List.append_assoc, List.append_assoc, List.cons_append, List.cons_append,
    List.cons_append, outcome_declaration, outcome_typeSpec_tokens stop returns hname,
    Outcome.andThen_ok, outcome_takeName_word hname]
  simp only [Outcome.andThen_ok, nextIs_cons, Token.kind_symbol, decide_true, if_true,
    List.tail_cons]
  rw [hparams, Outcome.andThen_ok]
  exact Verdict.bind (hbody depth rest) rfl

theorem verdict_binding (type : TypeSpec) (span : Span) {name : String} {value : Option Expr}
    (hname : IsName name) (hvalue : ValueReadsBack stop value) (depth : Nat) (rest : List Token) :
    Verdict (valueNesting value ≤ depth)
      (declaration stop depth ((Statement.binding type name value span).tokens ++ rest)).outcome
      (.ok ((Statement.binding type name value span).relabel Span.forget, rest)) := by
  have hparen : nextIs .leftParen (valueTokens value ++ rest) = false := by cases value <;> rfl
  rw [Statement.tokens, List.append_assoc, List.cons_append, outcome_declaration,
    outcome_typeSpec_tokens stop type hname, Outcome.andThen_ok, outcome_takeName_word hname,
    Outcome.andThen_ok, hparen]
  exact Verdict.bind (verdict_initializer hvalue depth rest) rfl

theorem statementReadsBack_of_declaration {s : Statement}
    (hhead : ∃ t us, s.tokens = t :: us ∧ t.kind = .type)
    (h : ∀ depth rest, Verdict (s.nesting ≤ depth) (declaration stop depth (s.tokens ++ rest)).outcome
      (.ok (s.relabel Span.forget, rest))) : s.ReadsBack stop := by
  obtain ⟨t, us, hts, ht⟩ := hhead
  refine ⟨⟨t, us, hts, by simp [ht]⟩, ?_⟩
  intro depth rest
  have hret : nextIs (.keyword .ret) (s.tokens ++ rest) = false := by simp [hts, ht]
  have htype : nextIs .type (s.tokens ++ rest) = true := by simp [hts, ht]
  rw [outcome_statement, hret, htype]
  exact h depth rest

theorem statementReadsBack_ret {value : Expr} {span : Span} (h : value.ReadsBack stop) :
    (Statement.ret value span).ReadsBack stop := by
  refine ⟨⟨_, _, rfl, by simp⟩, ?_⟩
  intro depth rest
  have hexpr := h.expression depth (symbol .semicolon :: rest) (follow_symbol (by decide) _)
  rw [Statement.tokens, List.append_assoc, List.cons_append, outcome_statement]
  exact Verdict.congr (hexpr.bind rfl) Iff.rfl

theorem statementReadsBack_expression {value : Expr} {span : Span} (h : value.ReadsBack stop) :
    (Statement.expression value span).ReadsBack stop := by
  obtain ⟨t, us, hts, hopens⟩ := h.head
  constructor
  · refine ⟨t, us ++ [symbol .semicolon], by rw [Statement.tokens, hts]; rfl, ?_⟩
    intro hk
    rw [hk] at hopens
    cases hopens
  · intro depth rest
    have hexpr := h.expression depth (symbol .semicolon :: rest) (follow_symbol (by decide) _)
    rw [Statement.tokens, List.append_assoc, outcome_statement, h.not_nextIs _ rfl,
      h.not_nextIs _ rfl]
    refine Verdict.congr (hexpr.bind ?_) Iff.rfl
    simp [Statement.relabel, Expr.span_relabel, Span.forget]

theorem verdict_statements {ss : List Statement} (h : ∀ s ∈ ss, s.ReadsBack stop) (depth : Nat)
    (rest : List Token) :
    Verdict (statementNesting ss ≤ depth)
      (statements stop depth (statementTokens ss ++ symbol .rightBrace :: rest)).outcome
      (.ok (relabelStatements Span.forget ss, rest)) := by
  induction ss with
  | nil =>
    rw [outcome_statements]
    exact Verdict.refl (Nat.zero_le depth) _
  | cons s ss ih =>
    have hs := h s List.mem_cons_self
    have hmore := ih fun s hs => h s (List.mem_cons_of_mem _ hs)
    obtain ⟨t, us, hts, ht⟩ := hs.head
    have hclose : ∀ vs, nextIs .rightBrace (s.tokens ++ vs) = false := by simp [hts, ht]
    have hempty : ∀ vs, (s.tokens ++ vs).isEmpty = false := by simp [hts]
    have hfirst := hs.statement depth (statementTokens ss ++ symbol .rightBrace :: rest)
    rw [statementTokens, List.append_assoc, outcome_statements, hclose, hempty]
    exact Verdict.congr (hfirst.andThen (hmore.bind rfl)) Nat.max_le.symm

theorem blockReadsBack {ss : List Statement} {span : Span} (h : ∀ s ∈ ss, s.ReadsBack stop) :
    (Block.mk ss span).ReadsBack stop := by
  intro depth rest
  rw [Block.tokens, List.append_assoc, List.cons_append, outcome_block, outcome_take_symbol,
    Outcome.andThen_ok]
  exact Verdict.bind (verdict_statements h depth rest) rfl

end Parser

open DrawScript.Parser

mutual

theorem Expr.readsBack (stop : Span) : (e : Expr) → e.WellFormed → e.ReadsBack stop
  | .assign target value _, ⟨htarget, hvalue⟩ =>
    ((target.readsBack stop htarget).enclose (by decide)).assign (value.readsBack stop hvalue)
  | .binary op left right _, ⟨hleft, hright⟩ =>
    ((left.readsBack stop hleft).enclose (by cases op <;> decide)).binary
      ((right.readsBack stop hright).enclose (by cases op <;> decide))
  | .unary _ operand _, h => ((operand.readsBack stop h).enclose (by decide)).unary
  | .call name arguments _, .inl ⟨hname, harguments⟩ => by
    have hrow := exprs_readBack stop arguments harguments
    rw [Expr.ReadsBack, Expr.tokens, callTokens_of_operand hname]
    exact .call hname hrow
  | .call _ _ _, .inr ⟨⟨w, hw, hname⟩, harguments⟩ => by
    subst hname harguments
    rw [Expr.ReadsBack, Expr.tokens, callTokens_dollar]
    exact .dollar hw
  | .name _ _ _, h => .name h
  | .member object _ _, ⟨hobject, hname⟩ =>
    ((object.readsBack stop hobject).enclose (by decide)).member hname
  | .index object subscript _, ⟨hobject, hsubscript⟩ => by
    have hindex := ((object.readsBack stop hobject).enclose (Nat.le_refl 7)).index
      (subscript.readsBack stop hsubscript)
    rw [Expr.ReadsBack, Expr.tokens, List.append_assoc]
    exact hindex
  | .vector elements _, ⟨hlength, helements⟩ =>
    .vector hlength (exprs_readBack stop elements helements)
  | .list elements _, h => .list (exprs_readBack stop elements h)
  | .range first last _, ⟨hfirst, hlast⟩ =>
    .range (first.readsBack stop hfirst) (last.readsBack stop hlast)
  | .loop iterators body _, ⟨hne, hiterators, hbody⟩ =>
    .loop hne (iterators_readBack stop iterators hiterators) (body.readsBack stop hbody)
  | .cases branches _, h => .cases h (branches_readBack stop branches h)

theorem exprs_readBack (stop : Span) :
    (es : List Expr) → wellFormedExprs es → ∀ e ∈ es, e.ReadsBack stop
  | [], _ => nofun
  | e :: es, ⟨he, hes⟩ =>
    List.forall_mem_cons.mpr ⟨e.readsBack stop he, exprs_readBack stop es hes⟩

theorem iterators_readBack (stop : Span) :
    (its : List Iterator) → wellFormedIterators its → ∀ it ∈ its, it.ReadsBack stop
  | [], _ => nofun
  | .mk _ range :: its, ⟨hname, hrange, hits⟩ =>
    List.forall_mem_cons.mpr ⟨⟨hname, range.readsBack stop hrange⟩, iterators_readBack stop its hits⟩

theorem branches_readBack (stop : Span) :
    (bs : List Branch) → wellFormedBranches bs → ∀ b ∈ bs, b.ReadsBack stop
  | [], _ => nofun
  | .tested test result :: bs, ⟨htest, hresult, hbs⟩ =>
    List.forall_mem_cons.mpr
      ⟨⟨test.readsBack stop htest, result.readsBack stop hresult⟩, branches_readBack stop bs hbs⟩
  | .otherwise result :: _, ⟨hresult, hbs⟩ =>
    List.forall_mem_cons.mpr ⟨result.readsBack stop hresult, hbs ▸ nofun⟩

theorem Block.readsBack (stop : Span) : (b : Block) → b.WellFormed → b.ReadsBack stop
  | .mk statements _, h => blockReadsBack (statements_readBack stop statements h)

theorem Statement.readsBack (stop : Span) : (s : Statement) → s.WellFormed → s.ReadsBack stop
  | .function _ _ _ body _, ⟨hname, hparams, hbody⟩ =>
    statementReadsBack_of_declaration ⟨_, _, rfl, rfl⟩
      (verdict_function _ _ hname hparams (body.readsBack stop hbody))
  | .binding _ _ value _, ⟨hname, hvalue⟩ =>
    statementReadsBack_of_declaration ⟨_, _, rfl, rfl⟩
      (verdict_binding _ _ hname (value_readsBack stop value hvalue))
  | .ret value _, h => statementReadsBack_ret (value.readsBack stop h)
  | .expression value _, h => statementReadsBack_expression (value.readsBack stop h)

theorem statements_readBack (stop : Span) :
    (ss : List Statement) → wellFormedStatements ss → ∀ s ∈ ss, s.ReadsBack stop
  | [], _ => nofun
  | s :: ss, ⟨hs, hss⟩ =>
    List.forall_mem_cons.mpr ⟨s.readsBack stop hs, statements_readBack stop ss hss⟩

theorem value_readsBack (stop : Span) :
    (value : Option Expr) → wellFormedValue value → ValueReadsBack stop value
  | none, _ => nofun
  | some e, h => fun _ he => Option.some.inj he ▸ e.readsBack stop h

end

namespace Parser

theorem drawCommand_ofText?_text (command : DrawCommand) :
    DrawCommand.ofText? command.text = some command := by
  cases command <;> decide +kernel

theorem verdict_topLevel (stop : Span) {s : Statement} (h : s.WellFormedTop) (rest : List Token) :
    Verdict (s.nesting ≤ maxDepth) (topLevel stop (s.tokens ++ rest)).outcome
      (.ok (s.relabel Span.forget, rest)) := by
  cases s with
  | function returns name params body span =>
    obtain ⟨hname, hparams, hbody⟩ := h
    have hdecl := verdict_function returns span hname hparams (body.readsBack stop hbody) maxDepth rest
    rw [outcome_topLevel]
    exact Verdict.congr (hdecl.bind rfl) Iff.rfl
  | binding type name value span =>
    obtain ⟨htype, hname, hvalue⟩ := h
    have hdecl := verdict_binding type span hname (value_readsBack stop value hvalue) maxDepth rest
    rw [outcome_topLevel]
    refine Verdict.congr (hdecl.bind ?_) Iff.rfl
    simp [Statement.relabel, misuse?, htype]
  | uniform type name value span =>
    obtain ⟨htype, hname, hvalue⟩ := h
    have hvalue := verdict_initializer (value_readsBack stop value hvalue) maxDepth rest
    rw [Statement.tokens, List.append_assoc, List.cons_append, List.cons_append, outcome_topLevel]
    simp only [Token.kind_symbol]
    rw [outcome_uniform, outcome_typeSpec_tokens stop type hname, Outcome.andThen_ok,
      outcome_takeName_word hname, Outcome.andThen_ok, htype]
    exact Verdict.congr (hvalue.bind rfl) Iff.rfl
  | directive name value span =>
    obtain ⟨hname, hvalue⟩ := h
    have htake : ∀ ts, (take stop .text "a directive value" (word value :: ts)).outcome =
        .ok (word value, ts) := by
      intro ts
      rw [hvalue.word_eq, outcome_take]
      exact if_pos rfl
    rw [Statement.tokens, List.cons_append, outcome_topLevel]
    simp only [Token.kind_symbol, List.cons_append, List.nil_append, outcome_directive,
      outcome_takeName_word hname, Outcome.andThen_ok, outcome_take_symbol, htake]
    exact Verdict.refl (Nat.zero_le _) _
  | draw command arguments span =>
    have hrow := verdict_arguments (exprs_readBack stop arguments h) maxDepth
      (symbol .semicolon :: rest)
    rw [Statement.tokens, List.append_assoc, List.cons_append, List.cons_append, outcome_topLevel]
    simp only [drawCommand_ofText?_text]
    rw [outcome_drawCall, outcome_take_symbol, Outcome.andThen_ok]
    exact Verdict.congr (hrow.bind rfl) Iff.rfl
  | ret value span => exact h.elim
  | expression value span => exact h.elim

theorem head_of_wellFormedTop {s : Statement} (h : s.WellFormedTop) :
    ∃ t us, s.tokens = t :: us ∧ t.kind ≠ .semicolon := by
  cases s with
  | ret value span => exact h.elim
  | expression value span => exact h.elim
  | _ => exact ⟨_, _, rfl, by simp⟩

theorem script_tokens (stop : Span) {ss : List Statement} (h : ∀ s ∈ ss, s.WellFormedTop) :
    (statementNesting ss ≤ maxDepth →
      script stop (statementTokens ss) = .ok (relabelStatements Span.forget ss)) ∧
    (maxDepth < statementNesting ss → ∃ found span rest, script stop (statementTokens ss) =
      .error ⟨.unexpected found "expression nested too deeply" span, rest⟩) := by
  induction ss with
  | nil => exact ⟨fun _ => script_nil stop, fun hlt => absurd hlt (Nat.not_lt_zero _)⟩
  | cons s ss ih =>
    obtain ⟨hs, hss⟩ := List.forall_mem_cons.mp h
    obtain ⟨hok, herror⟩ := ih hss
    have hverdict := verdict_topLevel stop hs (statementTokens ss)
    obtain ⟨t, us, hts, ht⟩ := head_of_wellFormedTop hs
    rw [hts, List.cons_append] at hverdict
    rw [statementTokens, hts, List.cons_append, script_cons, if_neg ht]
    constructor
    · intro hle
      obtain ⟨hfirst, hmore⟩ := Nat.max_le.mp hle
      simp only [hverdict.eq hfirst, hok hmore]
      rfl
    · intro hlt
      by_cases hfirst : s.nesting ≤ maxDepth
      · have hmore : maxDepth < statementNesting ss := by
          rw [statementNesting] at hlt
          omega
        obtain ⟨found, span, rest, hscript⟩ := herror hmore
        exact ⟨found, span, rest, by simp only [hverdict.eq hfirst, hscript]⟩
      · obtain ⟨found, span, rest, htop⟩ := hverdict.tooDeep hfirst
        exact ⟨found, span, rest, by rw [htop]⟩

end Parser

theorem CompileError.eq_unexpected_of_relabel {f : Span → Span} {e : CompileError}
    {found message : String} {span : Span} (h : e.relabel f = .unexpected found message span) :
    ∃ span, e = .unexpected found message span := by
  cases e with
  | unexpected found' message' span' =>
    cases h
    exact ⟨span', rfl⟩
  | _ => cases h

theorem Script.relabelResult_parse_print {p : Script} (hp : p.WellFormed) :
    Script.relabelResult Span.forget (Script.parse p.print) =
      match Parser.script Span.start (statementTokens p.body) with
      | .ok body => .ok ⟨body⟩
      | .error s => .error s.error := by
  rw [Script.parse, Script.relabelResult_ofTokens, Script.print,
    Token.tokenize_spaced (Script.lexemes hp)]
  rfl

theorem Script.exists_parse_print {p : Script} (hp : p.WellFormed)
    (hle : p.nesting ≤ Parser.maxDepth) :
    ∃ q, Script.parse p.print = .ok q ∧ q.relabel Span.forget = p.relabel Span.forget := by
  have hrelabel := Script.relabelResult_parse_print hp
  rw [(Parser.script_tokens _ hp).1 hle] at hrelabel
  cases hparse : Script.parse p.print with
  | error e =>
    rw [hparse] at hrelabel
    cases hrelabel
  | ok q =>
    rw [hparse] at hrelabel
    exact ⟨q, rfl, Except.ok.inj hrelabel⟩

/-- A printed script is read back, up to positions, if it nests at most 64 levels. If it nests more,
reading it reports that. -/
theorem Script.parse_print (p : Script) (hp : p.WellFormed) :
    (p.nesting ≤ 64 →
      ∃ q, Script.parse p.print = .ok q ∧ q.relabel Span.forget = p.relabel Span.forget) ∧
    (64 < p.nesting → ∃ found span,
      Script.parse p.print = .error (.unexpected found "expression nested too deeply" span)) := by
  refine ⟨Script.exists_parse_print hp, fun hlt => ?_⟩
  obtain ⟨found, span, rest, hscript⟩ := (Parser.script_tokens Span.start hp).2 hlt
  have hrelabel := Script.relabelResult_parse_print hp
  rw [hscript] at hrelabel
  cases hparse : Script.parse p.print with
  | ok q =>
    rw [hparse] at hrelabel
    cases hrelabel
  | error e =>
    rw [hparse] at hrelabel
    obtain ⟨span', rfl⟩ := CompileError.eq_unexpected_of_relabel (Except.error.inj hrelabel)
    exact ⟨found, span', rfl⟩

namespace Script

def signed : Nat → Expr
  | 0 => .name "y" false Span.start
  | n + 1 => .unary .neg (signed n) Span.start

def signs (n : Nat) : Script := ⟨[.binding ⟨.float, false⟩ "x" (some (signed n)) Span.start]⟩

theorem wellFormed_signs (n : Nat) : (signs n).WellFormed := by
  have hx : IsName "x" := ⟨by unfold IsWord Token.IsLexeme; decide +kernel, by decide⟩
  have hy : IsName "y" := ⟨by unfold IsWord Token.IsLexeme; decide +kernel, by decide⟩
  have hvalue : (signed n).WellFormed := by
    induction n with
    | zero => exact .inl ⟨hy.1, hy.2.symm⟩
    | succ n ih => exact ih
  intro s hs
  rw [List.mem_singleton.mp hs]
  exact ⟨rfl, hx, hvalue⟩

/-- The limit is exact: 63 signs are read back and 64 are too many. -/
theorem parse_print_signs :
    (∃ q, Script.parse (signs 63).print = .ok q ∧
      q.relabel Span.forget = (signs 63).relabel Span.forget) ∧
    ∃ found span, Script.parse (signs 64).print =
      .error (.unexpected found "expression nested too deeply" span) :=
  ⟨(Script.parse_print _ (wellFormed_signs 63)).1 (by decide),
    (Script.parse_print _ (wellFormed_signs 64)).2 (by decide)⟩

end Script

end DrawScript
