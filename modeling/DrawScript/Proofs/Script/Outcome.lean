import DrawScript.Script.Parser

/-!
What the parser's steps do, without the bounds that make them end. An outcome is a value with the
tokens that are left, or an error. For every step there is one equation that gives its outcome in
terms of the outcomes of the steps it calls, of the kind and position of the next token, and of the
tokens after it. Later proofs use these equations and do not open the steps themselves.
-/

namespace DrawScript.Parser

abbrev Outcome (α : Type) : Type := Except Stuck (α × List Token)

section

variable {α β : Type} {m n : Nat}

def Outcome.andThen (x : Outcome α) (k : α → List Token → Outcome β) : Outcome β :=
  match x with
  | .ok (v, ts) => k v ts
  | .error e => .error e

@[simp] theorem Outcome.andThen_ok (v : α) (ts : List Token) (k : α → List Token → Outcome β) :
    Outcome.andThen (.ok (v, ts)) k = k v ts := rfl

@[simp] theorem Outcome.andThen_error (e : Stuck) (k : α → List Token → Outcome β) :
    Outcome.andThen (.error e) k = .error e := rfl

theorem Outcome.andThen_eq_ok {x : Outcome α} {k : α → List Token → Outcome β}
    {r : β × List Token} :
    x.andThen k = .ok r ↔ ∃ v ts, x = .ok (v, ts) ∧ k v ts = .ok r := by
  constructor
  · intro h
    match x with
    | .ok (v, ts) => exact ⟨v, ts, rfl, h⟩
  · rintro ⟨v, ts, rfl, h⟩
    exact h

def Step.outcome (s : Step α n) : Outcome α :=
  match s with
  | .ok t => .ok (t.value, t.rest)
  | .error e => .error e

@[simp] theorem Step.outcome_ok (t : Taken α n) :
    Step.outcome (.ok t : Step α n) = .ok (t.value, t.rest) := rfl

@[simp] theorem Step.outcome_error (e : Stuck) :
    Step.outcome (.error e : Step α n) = .error e := rfl

@[simp] theorem Step.outcome_widen (h : m ≤ n) (s : Step α m) :
    (s.widen h).outcome = s.outcome := by
  cases s <;> rfl

theorem Step.lt_of_outcome {s : Step α n} {v : α} {ts : List Token}
    (h : s.outcome = .ok (v, ts)) : ts.length < n := by
  cases s with
  | error e => cases h
  | ok t =>
    cases h
    exact t.lt_bound

theorem Step.lt_of_outcome_tail {ts us : List Token} {s : Step α ts.tail.length} {v : α}
    (h : s.outcome = .ok (v, us)) : us.length < ts.length := by
  have hlt := Step.lt_of_outcome h
  rw [List.length_tail] at hlt
  omega

theorem Step.outcome_bind {s : Step α n} {k : Taken α n → Step β m}
    {g : α → List Token → Outcome β} (h : ∀ t, Step.outcome (k t) = g t.value t.rest) :
    Step.outcome (Except.bind s k) = s.outcome.andThen g := by
  cases s with
  | error e => rfl
  | ok t => exact h t

end

section

variable {kind : TokenKind} {ts : List Token}

@[simp] theorem nextIs_nil (kind : TokenKind) : nextIs kind [] = false := rfl

@[simp] theorem nextIs_cons (kind : TokenKind) (t : Token) (ts : List Token) :
    nextIs kind (t :: ts) = decide (t.kind = kind) := by
  by_cases h : t.kind = kind <;> simp [nextIs, eat?, h]

theorem exists_of_nextIs (h : nextIs kind ts) : ∃ t us, ts = t :: us ∧ t.kind = kind := by
  cases ts with
  | nil => cases h
  | cons t us => exact ⟨t, us, rfl, by simpa using h⟩

theorem length_tail_of_nextIs (h : nextIs kind ts) : ts.tail.length < ts.length := by
  obtain ⟨t, us, rfl, -⟩ := exists_of_nextIs h
  exact Nat.lt_succ_self _

theorem nextIs_of_eat? {t : Taken Span ts.length} (stop : Span) (h : eat? kind ts = some t) :
    nextIs kind ts = true ∧ t.value = here stop ts ∧ t.rest = ts.tail := by
  refine ⟨by simp [nextIs, h], ?_⟩
  cases ts with
  | nil => cases h
  | cons u us =>
    by_cases hk : u.kind = kind
    · simp only [eat?, hk, if_true, Option.some.injEq] at h
      subst h
      exact ⟨rfl, rfl⟩
    · simp [eat?, hk] at h

theorem not_nextIs_of_eat? (h : eat? kind ts = none) : ¬ nextIs kind ts := by
  simp [nextIs, h]

def nextKind? {α : Type} (f : TokenKind → Option α) (ts : List Token) : Option α :=
  ts.head?.bind fun t => f t.kind

end

theorem exists_of_nextKind? {α : Type} {f : TokenKind → Option α} {ts : List Token} {a : α}
    (h : nextKind? f ts = some a) : ∃ t us, ts = t :: us ∧ f t.kind = some a := by
  cases ts with
  | nil => cases h
  | cons t us => exact ⟨t, us, rfl, h⟩

theorem nextKind?_of_next? {α : Type} {f : TokenKind → Option α} {ts : List Token}
    {t : Taken (α × Span) ts.length} (stop : Span) (h : next? f ts = some t) :
    nextKind? f ts = some t.value.1 ∧ t.value.2 = here stop ts ∧ t.rest = ts.tail := by
  cases ts with
  | nil => cases h
  | cons u us =>
    simp only [next?, Option.map_eq_some_iff] at h
    obtain ⟨a, ha, rfl⟩ := h
    exact ⟨ha, rfl, rfl⟩

theorem nextKind?_of_next?_none {α : Type} {f : TokenKind → Option α} {ts : List Token}
    (h : next? f ts = none) : nextKind? f ts = none := by
  cases ts with
  | nil => rfl
  | cons u us => simpa [next?, nextKind?] using h

theorem skip_eq (kind : TokenKind) (ts : List Token) :
    skip kind ts = if nextIs kind ts then ts.tail else ts := by
  unfold skip
  split
  next t h =>
    obtain ⟨hn, -, hr⟩ := nextIs_of_eat? Span.start h
    rw [if_pos hn, hr]
  next h => rw [if_neg (not_nextIs_of_eat? h)]

variable (stop : Span) (depth : Nat) (ts : List Token)

theorem outcome_take (kind : TokenKind) (expected : String) :
    (take stop kind expected ts).outcome =
      match ts with
      | [] => .error (wanted stop expected [])
      | t :: ts₁ =>
        if t.kind = kind then .ok (t, ts₁) else .error (wanted stop expected (t :: ts₁)) := by
  cases ts with
  | nil => rfl
  | cons t ts => by_cases h : t.kind = kind <;> simp [take, h]

theorem outcome_takeName :
    (takeName stop ts).outcome =
      match ts with
      | [] => .error (wanted stop "an identifier" [])
      | t :: ts₁ =>
        if t.kind = .text ∧ isNumeric t.text = false then .ok (t, ts₁)
        else .error (wanted stop "an identifier" (t :: ts₁)) := by
  cases ts with
  | nil => rfl
  | cons t ts =>
    by_cases h : t.kind = .text ∧ isNumeric t.text = false
    · simp [takeName, h]
    · simp only [takeName, if_neg h, Step.outcome_error]

theorem outcome_typeSpec :
    (typeSpec stop ts).outcome =
      (take stop .type "a type" ts).outcome.andThen fun t ts₁ =>
        match BaseType.ofText? t.text with
        | none => .error ⟨.expected "a type" t.describe t.span, ts₁⟩
        | some base => .ok (⟨base, (skipListMark ts₁).1⟩, (skipListMark ts₁).2) := by
  refine Step.outcome_bind fun t => ?_
  obtain ⟨t, ts₁, h₁⟩ := t
  dsimp only
  cases BaseType.ofText? t.text <;> rfl

theorem outcome_param :
    (param stop ts).outcome =
      (typeSpec stop ts).outcome.andThen fun type ts₁ =>
        (takeName stop ts₁).outcome.andThen fun name ts₂ =>
          .ok (⟨type, name.text, name.span⟩, ts₂) :=
  Step.outcome_bind fun _ => Step.outcome_bind fun _ => rfl

theorem outcome_moreParams :
    (moreParams stop ts).outcome =
      if nextIs .comma ts then
        (param stop ts.tail).outcome.andThen fun p ts₁ =>
          (moreParams stop ts₁).outcome.andThen fun ps ts₂ => .ok (p :: ps, ts₂)
      else (take stop .rightParen "')'" ts).outcome.andThen fun _ ts₁ => .ok ([], ts₁) := by
  rw [moreParams]
  split
  next s ts₁ h₁ h =>
    obtain ⟨hn, -, rfl⟩ := nextIs_of_eat? stop h
    rw [if_pos hn]
    exact Step.outcome_bind fun _ => Step.outcome_bind fun _ => rfl
  next h =>
    rw [if_neg (not_nextIs_of_eat? h)]
    exact Step.outcome_bind fun _ => rfl

theorem outcome_params :
    (params stop ts).outcome =
      if nextIs .rightParen ts then .ok ([], ts.tail)
      else (param stop ts).outcome.andThen fun p ts₁ =>
        (moreParams stop ts₁).outcome.andThen fun ps ts₂ => .ok (p :: ps, ts₂) := by
  rw [params]
  split
  next s ts₁ h₁ h =>
    obtain ⟨hn, -, rfl⟩ := nextIs_of_eat? stop h
    rw [if_pos hn]
    rfl
  next h =>
    rw [if_neg (not_nextIs_of_eat? h)]
    exact Step.outcome_bind fun _ => Step.outcome_bind fun _ => rfl

theorem outcome_expression_zero :
    (expression stop 0 ts).outcome = .error (refused stop "expression nested too deeply" ts) := by
  rw [expression]
  rfl

theorem outcome_expression_succ :
    (expression stop (depth + 1) ts).outcome =
      (binary stop depth levels ts).outcome.andThen fun target ts₁ =>
        if nextIs (.operator .equals) ts₁ then
          (expression stop depth ts₁.tail).outcome.andThen fun value ts₂ =>
            .ok (.assign target value (here stop ts₁), ts₂)
        else .ok (target, ts₁) := by
  rw [expression]
  refine Step.outcome_bind fun t => ?_
  dsimp only
  split
  next h =>
    rw [if_neg (not_nextIs_of_eat? h)]
    rfl
  next mark ts₂ h₂ h =>
    obtain ⟨hn, rfl, rfl⟩ := nextIs_of_eat? stop h
    rw [if_pos hn]
    exact Step.outcome_bind fun _ => rfl

theorem outcome_binary_nil :
    (binary stop depth [] ts).outcome = (unary stop depth ts).outcome := by
  rw [binary]

theorem outcome_binary_cons (l : Level) (ls : List Level) :
    (binary stop depth (l :: ls) ts).outcome =
      (binary stop depth ls ts).outcome.andThen fun left ts₁ =>
        (binaryRest stop depth l ls left ts₁).outcome := by
  rw [binary]
  exact Step.outcome_bind fun _ => Step.outcome_widen _ _

theorem outcome_binaryRest (l : Level) (ls : List Level) (left : Expr) :
    (binaryRest stop depth l ls left ts).outcome =
      match nextKind? l.operator? ts with
      | none => .ok (left, ts)
      | some op =>
        (binary stop depth ls ts.tail).outcome.andThen fun right ts₁ =>
          (binaryRest stop depth l ls (.binary op left right (here stop ts)) ts₁).outcome := by
  rw [binaryRest]
  split
  next h =>
    rw [nextKind?_of_next?_none h]
    rfl
  next op mark ts₁ h₁ h =>
    obtain ⟨hn, hmark, hrest⟩ := nextKind?_of_next? stop h
    cases hmark
    cases hrest
    rw [hn]
    exact Step.outcome_bind fun _ => Step.outcome_widen _ _

theorem outcome_unary :
    (unary stop depth ts).outcome =
      match nextKind? unaryOperator? ts with
      | none => (operand stop depth ts).outcome
      | some op =>
        match depth with
        | 0 => .error (refused stop "expression nested too deeply" ts.tail)
        | depth + 1 =>
          (unary stop depth ts.tail).outcome.andThen fun e ts₁ =>
            .ok (.unary op e (here stop ts), ts₁) := by
  rw [unary]
  split
  next h => rw [nextKind?_of_next?_none h]
  next op mark ts₁ h₁ h =>
    obtain ⟨hn, hmark, hrest⟩ := nextKind?_of_next? stop h
    cases hmark
    cases hrest
    rw [hn]
    cases depth with
    | zero => rfl
    | succ depth => exact Step.outcome_bind fun _ => rfl

theorem outcome_operand :
    (operand stop depth ts).outcome =
      (atom stop depth ts).outcome.andThen fun e ts₁ =>
        (suffixes stop depth (isCallable ts) e ts₁).outcome := by
  rw [operand]
  exact Step.outcome_bind fun _ => Step.outcome_widen _ _

theorem outcome_suffixes (callable : Bool) (e : Expr) :
    (suffixes stop depth callable e ts).outcome =
      match ts with
      | [] => .ok (e, [])
      | t :: ts₁ =>
        match t.kind with
        | .dot =>
          (takeName stop ts₁).outcome.andThen fun name ts₂ =>
            (suffixes stop depth callable (.member e name.text t.span) ts₂).outcome
        | .leftBracket =>
          (expression stop depth ts₁).outcome.andThen fun subscript ts₂ =>
            (take stop .rightBracket "']'" ts₂).outcome.andThen fun _ ts₃ =>
              (suffixes stop depth callable (.index e subscript t.span) ts₃).outcome
        | .leftParen =>
          match callee? callable e with
          | none => .error (refused stop "only a named function can be called" (t :: ts₁))
          | some name =>
            (arguments stop depth ts₁).outcome.andThen fun es ts₂ =>
              (suffixes stop depth callable (.call name es t.span) ts₂).outcome
        | _ => .ok (e, t :: ts₁) := by
  rw [suffixes.eq_def]
  cases ts with
  | nil => rfl
  | cons t ts₁ =>
    dsimp only
    generalize t.kind = kind
    cases kind
    case dot => exact Step.outcome_bind fun _ => Step.outcome_widen _ _
    case leftBracket =>
      exact Step.outcome_bind fun _ => Step.outcome_bind fun _ => Step.outcome_widen _ _
    case leftParen =>
      dsimp only
      cases callee? callable e with
      | none => rfl
      | some name => exact Step.outcome_bind fun _ => Step.outcome_widen _ _
    all_goals rfl

theorem outcome_arguments :
    (arguments stop depth ts).outcome =
      if nextIs .rightParen ts then .ok ([], ts.tail)
      else (expression stop depth ts).outcome.andThen fun e ts₁ =>
        (moreArguments stop depth ts₁).outcome.andThen fun es ts₂ => .ok (e :: es, ts₂) := by
  rw [arguments]
  split
  next s ts₁ h₁ h =>
    obtain ⟨hn, -, rfl⟩ := nextIs_of_eat? stop h
    rw [if_pos hn]
    rfl
  next h =>
    rw [if_neg (not_nextIs_of_eat? h)]
    exact Step.outcome_bind fun _ => Step.outcome_bind fun _ => rfl

theorem outcome_moreArguments :
    (moreArguments stop depth ts).outcome =
      if nextIs .comma ts then
        (expression stop depth ts.tail).outcome.andThen fun e ts₁ =>
          (moreArguments stop depth ts₁).outcome.andThen fun es ts₂ => .ok (e :: es, ts₂)
      else (take stop .rightParen "')'" ts).outcome.andThen fun _ ts₁ => .ok ([], ts₁) := by
  rw [moreArguments]
  split
  next s ts₁ h₁ h =>
    obtain ⟨hn, -, rfl⟩ := nextIs_of_eat? stop h
    rw [if_pos hn]
    exact Step.outcome_bind fun _ => Step.outcome_bind fun _ => rfl
  next h =>
    rw [if_neg (not_nextIs_of_eat? h)]
    exact Step.outcome_bind fun _ => rfl

theorem outcome_moreElements :
    (moreElements stop depth ts).outcome =
      if nextIs .comma ts then
        if nextIs .rightBracket ts.tail then .ok ([], ts.tail.tail)
        else (expression stop depth ts.tail).outcome.andThen fun e ts₁ =>
          (moreElements stop depth ts₁).outcome.andThen fun es ts₂ => .ok (e :: es, ts₂)
      else (take stop .rightBracket "']'" ts).outcome.andThen fun _ ts₁ => .ok ([], ts₁) := by
  rw [moreElements]
  split
  next s ts₁ h₁ h =>
    obtain ⟨hn, -, rfl⟩ := nextIs_of_eat? stop h
    rw [if_pos hn]
    split
    next s ts₂ h₂ h =>
      obtain ⟨hn, -, rfl⟩ := nextIs_of_eat? stop h
      rw [if_pos hn]
      rfl
    next h =>
      rw [if_neg (not_nextIs_of_eat? h)]
      exact Step.outcome_bind fun _ => Step.outcome_bind fun _ => rfl
  next h =>
    rw [if_neg (not_nextIs_of_eat? h)]
    exact Step.outcome_bind fun _ => rfl

theorem outcome_atom :
    (atom stop depth ts).outcome =
      match ts with
      | [] => .error (wanted stop "an expression" [])
      | t :: ts₁ =>
        match t.kind with
        | .text => .ok (.name t.text (isNumeric t.text) t.span, ts₁)
        | .builtin => .ok (.name t.text.toLower false t.span, ts₁)
        | .dollar =>
          (takeName stop ts₁).outcome.andThen fun name ts₂ =>
            .ok (.call ("$" ++ name.text) [] t.span, ts₂)
        | .keyword .loop =>
          (take stop .leftParen "'('" ts₁).outcome.andThen fun _ ts₂ =>
            (iterators stop depth ts₂).outcome.andThen fun its ts₃ =>
              (block stop depth ts₃).outcome.andThen fun body ts₄ =>
                .ok (.loop its body t.span, ts₄)
        | .keyword .cases =>
          (take stop .leftBrace "'\x7b'" ts₁).outcome.andThen fun _ ts₂ =>
            (branches stop depth ts₂).outcome.andThen fun bs ts₃ =>
              .ok (.cases bs t.span, ts₃)
        | .leftParen => (group stop depth t.span ts₁).outcome
        | .leftBracket => (listOrRange stop depth t.span ts₁).outcome
        | _ => .error (refused stop "expected an expression" (t :: ts₁)) := by
  rw [atom.eq_def]
  cases ts with
  | nil => rfl
  | cons t ts₁ =>
    dsimp only
    generalize t.kind = kind
    cases kind
    case dollar => exact Step.outcome_bind fun _ => rfl
    case keyword k =>
      cases k
      case loop =>
        exact Step.outcome_bind fun _ => Step.outcome_bind fun _ => Step.outcome_bind fun _ => rfl
      case cases => exact Step.outcome_bind fun _ => Step.outcome_bind fun _ => rfl
      all_goals rfl
    case leftParen => exact Step.outcome_widen _ _
    case leftBracket => exact Step.outcome_widen _ _
    all_goals rfl

theorem outcome_group (mark : Span) :
    (group stop depth mark ts).outcome =
      if nextIs .rightParen ts then .ok (.vector [] mark, ts.tail)
      else (expression stop depth ts).outcome.andThen fun e ts₁ =>
        if nextIs .comma ts₁ then
          (moreArguments stop depth ts₁).outcome.andThen fun es ts₂ =>
            .ok (.vector (e :: es) mark, ts₂)
        else (take stop .rightParen "')' or ','" ts₁).outcome.andThen fun _ ts₂ => .ok (e, ts₂) := by
  rw [group]
  split
  next s ts₁ h₁ h =>
    obtain ⟨hn, -, rfl⟩ := nextIs_of_eat? stop h
    rw [if_pos hn]
    rfl
  next h =>
    rw [if_neg (not_nextIs_of_eat? h)]
    refine Step.outcome_bind fun t => ?_
    dsimp only
    split
    · exact Step.outcome_bind fun _ => rfl
    · exact Step.outcome_bind fun _ => rfl

theorem outcome_listOrRange (mark : Span) :
    (listOrRange stop depth mark ts).outcome =
      if nextIs .rightBracket ts then .ok (.list [] mark, ts.tail)
      else (expression stop depth ts).outcome.andThen fun e ts₁ =>
        if nextIs .ellipsis ts₁ then
          (expression stop depth ts₁.tail).outcome.andThen fun last ts₂ =>
            (take stop .rightBracket "']'" ts₂).outcome.andThen fun _ ts₃ =>
              .ok (.range e last mark, ts₃)
        else (moreElements stop depth ts₁).outcome.andThen fun es ts₂ =>
          .ok (.list (e :: es) mark, ts₂) := by
  rw [listOrRange]
  split
  next s ts₁ h₁ h =>
    obtain ⟨hn, -, rfl⟩ := nextIs_of_eat? stop h
    rw [if_pos hn]
    rfl
  next h =>
    rw [if_neg (not_nextIs_of_eat? h)]
    refine Step.outcome_bind fun t => ?_
    dsimp only
    split
    next s ts₂ h₂ h =>
      obtain ⟨hn, -, rfl⟩ := nextIs_of_eat? stop h
      rw [if_pos hn]
      exact Step.outcome_bind fun _ => Step.outcome_bind fun _ => rfl
    next h =>
      rw [if_neg (not_nextIs_of_eat? h)]
      exact Step.outcome_bind fun _ => rfl

theorem outcome_iterators :
    (iterators stop depth ts).outcome =
      (takeName stop ts).outcome.andThen fun name ts₁ =>
        (take stop .colon "':'" ts₁).outcome.andThen fun _ ts₂ =>
          (expression stop depth ts₂).outcome.andThen fun range ts₃ =>
            if nextIs .comma ts₃ then
              (iterators stop depth ts₃.tail).outcome.andThen fun its ts₄ =>
                .ok (.mk name.text range :: its, ts₄)
            else (take stop .rightParen "')'" ts₃).outcome.andThen fun _ ts₄ =>
              .ok ([.mk name.text range], ts₄) := by
  rw [iterators]
  refine Step.outcome_bind fun name => Step.outcome_bind fun _ => Step.outcome_bind fun range => ?_
  dsimp only
  split
  next s ts₄ h₄ h =>
    obtain ⟨hn, -, rfl⟩ := nextIs_of_eat? stop h
    rw [if_pos hn]
    exact Step.outcome_bind fun _ => rfl
  next h =>
    rw [if_neg (not_nextIs_of_eat? h)]
    exact Step.outcome_bind fun _ => rfl

theorem outcome_branches :
    (branches stop depth ts).outcome =
      if nextIs .rightBrace ts then .ok ([], ts.tail)
      else (expression stop depth ts).outcome.andThen fun e ts₁ =>
        if nextIs .colon ts₁ then
          (expression stop depth ts₁.tail).outcome.andThen fun result ts₂ =>
            (branches stop depth (skip .comma ts₂)).outcome.andThen fun bs ts₃ =>
              .ok (.tested e result :: bs, ts₃)
        else (take stop .rightBrace "'\x7d' after the default case" (skip .comma ts₁)).outcome.andThen
          fun _ ts₂ => .ok ([.otherwise e], ts₂) := by
  rw [branches]
  split
  next s ts₁ h₁ h =>
    obtain ⟨hn, -, rfl⟩ := nextIs_of_eat? stop h
    rw [if_pos hn]
    rfl
  next h =>
    rw [if_neg (not_nextIs_of_eat? h)]
    refine Step.outcome_bind fun t => ?_
    dsimp only
    split
    next s ts₂ h₂ h =>
      obtain ⟨hn, -, rfl⟩ := nextIs_of_eat? stop h
      rw [if_pos hn]
      exact Step.outcome_bind fun _ => Step.outcome_bind fun _ => rfl
    next h =>
      rw [if_neg (not_nextIs_of_eat? h)]
      exact Step.outcome_bind fun _ => rfl

theorem outcome_block :
    (block stop depth ts).outcome =
      (take stop .leftBrace "'\x7b'" ts).outcome.andThen fun t ts₁ =>
        (statements stop depth ts₁).outcome.andThen fun body ts₂ => .ok (.mk body t.span, ts₂) := by
  rw [block]
  exact Step.outcome_bind fun _ => Step.outcome_bind fun _ => rfl

theorem outcome_statements :
    (statements stop depth ts).outcome =
      if nextIs .rightBrace ts then .ok ([], ts.tail)
      else if ts.isEmpty then .error (wanted stop "'\x7d'" ts)
      else (statement stop depth ts).outcome.andThen fun s ts₁ =>
        (statements stop depth ts₁).outcome.andThen fun ss ts₂ => .ok (s :: ss, ts₂) := by
  rw [statements]
  split
  next s ts₁ h₁ h =>
    obtain ⟨hn, -, rfl⟩ := nextIs_of_eat? stop h
    rw [if_pos hn]
    rfl
  next h =>
    rw [if_neg (not_nextIs_of_eat? h)]
    split
    · rfl
    · exact Step.outcome_bind fun _ => Step.outcome_bind fun _ => rfl

theorem outcome_statement :
    (statement stop depth ts).outcome =
      if nextIs (.keyword .ret) ts then
        (expression stop depth ts.tail).outcome.andThen fun e ts₁ =>
          (take stop .semicolon "';'" ts₁).outcome.andThen fun _ ts₂ =>
            .ok (.ret e (here stop ts), ts₂)
      else if nextIs .type ts then (declaration stop depth ts).outcome
      else (expression stop depth ts).outcome.andThen fun e ts₁ =>
        (take stop .semicolon "';'" ts₁).outcome.andThen fun _ ts₂ =>
          .ok (.expression e e.span, ts₂) := by
  rw [statement]
  split
  next mark ts₁ h₁ h =>
    obtain ⟨hn, rfl, rfl⟩ := nextIs_of_eat? stop h
    rw [if_pos hn]
    exact Step.outcome_bind fun _ => Step.outcome_bind fun _ => rfl
  next h =>
    rw [if_neg (not_nextIs_of_eat? h)]
    split
    · rfl
    · exact Step.outcome_bind fun _ => Step.outcome_bind fun _ => rfl

theorem outcome_declaration :
    (declaration stop depth ts).outcome =
      (typeSpec stop ts).outcome.andThen fun type ts₁ =>
        (takeName stop ts₁).outcome.andThen fun name ts₂ =>
          if nextIs .leftParen ts₂ then
            (params stop ts₂.tail).outcome.andThen fun ps ts₃ =>
              (block stop depth ts₃).outcome.andThen fun body ts₄ =>
                .ok (.function type name.text ps body name.span, ts₄)
          else (initializer stop depth ts₂).outcome.andThen fun value ts₃ =>
            .ok (.binding type name.text value name.span, ts₃) := by
  rw [declaration]
  refine Step.outcome_bind fun type => Step.outcome_bind fun name => ?_
  dsimp only
  split
  next s ts₃ h₃ h =>
    obtain ⟨hn, -, rfl⟩ := nextIs_of_eat? stop h
    rw [if_pos hn]
    exact Step.outcome_bind fun _ => Step.outcome_bind fun _ => rfl
  next h =>
    rw [if_neg (not_nextIs_of_eat? h)]
    exact Step.outcome_bind fun _ => rfl

theorem outcome_initializer :
    (initializer stop depth ts).outcome =
      if nextIs (.operator .equals) ts then
        (expression stop depth ts.tail).outcome.andThen fun e ts₁ =>
          (take stop .semicolon "';'" ts₁).outcome.andThen fun _ ts₂ => .ok (some e, ts₂)
      else (take stop .semicolon "';'" ts).outcome.andThen fun _ ts₁ => .ok (none, ts₁) := by
  rw [initializer]
  split
  next s ts₁ h₁ h =>
    obtain ⟨hn, -, rfl⟩ := nextIs_of_eat? stop h
    rw [if_pos hn]
    exact Step.outcome_bind fun _ => Step.outcome_bind fun _ => rfl
  next h =>
    rw [if_neg (not_nextIs_of_eat? h)]
    exact Step.outcome_bind fun _ => rfl

theorem outcome_uniform (mark : Span) :
    (uniform stop mark ts).outcome =
      (typeSpec stop ts).outcome.andThen fun type ts₁ =>
        (takeName stop ts₁).outcome.andThen fun name ts₂ =>
          if type.base.isTemplate then .error ⟨.templateMisuse type.text name.text mark, ts₂⟩
          else (initializer stop maxDepth ts₂).outcome.andThen fun value ts₃ =>
            .ok (.uniform type name.text value mark, ts₃) := by
  refine Step.outcome_bind fun type => Step.outcome_bind fun name => ?_
  dsimp only
  split
  · rfl
  · exact Step.outcome_bind fun _ => rfl

theorem outcome_directive (mark : Span) :
    (directive stop mark ts).outcome =
      (takeName stop ts).outcome.andThen fun name ts₁ =>
        (take stop .colon "':'" ts₁).outcome.andThen fun _ ts₂ =>
          (take stop .text "a directive value" ts₂).outcome.andThen fun value ts₃ =>
            (take stop .semicolon "';'" ts₃).outcome.andThen fun _ ts₄ =>
              .ok (.directive name.text value.text mark, ts₄) :=
  Step.outcome_bind fun _ => Step.outcome_bind fun _ => Step.outcome_bind fun _ =>
    Step.outcome_bind fun _ => rfl

theorem outcome_drawCall (command : DrawCommand) (mark : Span) :
    (drawCall stop command mark ts).outcome =
      (take stop .leftParen "'('" ts).outcome.andThen fun _ ts₁ =>
        (arguments stop maxDepth ts₁).outcome.andThen fun es ts₂ =>
          .ok (.draw command es mark, skip .semicolon ts₂) :=
  Step.outcome_bind fun _ => Step.outcome_bind fun _ => rfl

theorem outcome_topLevel :
    (topLevel stop ts).outcome =
      match ts with
      | [] => .error (refused stop "expected a declaration, directive or draw call" [])
      | t :: ts₁ =>
        match t.kind with
        | .keyword .uniform => (uniform stop t.span ts₁).outcome
        | .type =>
          (declaration stop maxDepth (t :: ts₁)).outcome.andThen fun s ts₂ =>
            match misuse? s with
            | some e => .error ⟨e, ts₂⟩
            | none => .ok (s, ts₂)
        | .dollar => (directive stop t.span ts₁).outcome
        | .draw =>
          match DrawCommand.ofText? t.text with
          | none => .error ⟨.expected "a draw command" t.describe t.span, ts₁⟩
          | some command => (drawCall stop command t.span ts₁).outcome
        | _ =>
          .error (refused stop "expected a declaration, directive or draw call" (t :: ts₁)) := by
  cases ts with
  | nil => rfl
  | cons t ts₁ =>
    rw [topLevel]
    dsimp only
    generalize t.kind = kind
    cases kind
    case keyword k =>
      cases k
      case uniform => exact Step.outcome_widen _ _
      all_goals rfl
    case type =>
      refine Step.outcome_bind fun s => ?_
      obtain ⟨s, ts₂, h₂⟩ := s
      dsimp only
      cases misuse? s <;> rfl
    case dollar => exact Step.outcome_widen _ _
    case draw =>
      dsimp only
      cases DrawCommand.ofText? t.text with
      | none => rfl
      | some command => exact Step.outcome_widen _ _
    all_goals rfl

theorem script_nil : script stop [] = .ok [] := by
  rw [script]

theorem script_cons (t : Token) :
    script stop (t :: ts) =
      if t.kind = .semicolon then script stop ts
      else match (topLevel stop (t :: ts)).outcome with
        | .error e => .error e
        | .ok (s, ts₁) =>
          match script stop ts₁ with
          | .error e => .error e
          | .ok ss => .ok (s :: ss) := by
  rw [script]
  split
  · rfl
  · cases topLevel stop (t :: ts) with
    | error e => rfl
    | ok r =>
      cases h : script stop r.rest <;> simp [bind, Except.bind, pure, Except.pure, h]

end DrawScript.Parser

namespace DrawScript

theorem Reader.rest_ofTokens (ts : List Token) : (Reader.ofTokens ts).rest = ts := by
  unfold Reader.ofTokens
  split <;> rfl

theorem Script.ofTokens_eq (ts : List Token) :
    Script.ofTokens ts =
      match Parser.script (Reader.ofTokens ts).stop ts with
      | .ok body => .ok ⟨body⟩
      | .error s => .error s.error := by
  unfold Script.ofTokens Reader.script
  rw [Reader.rest_ofTokens]
  cases Parser.script (Reader.ofTokens ts).stop ts <;> rfl

end DrawScript
