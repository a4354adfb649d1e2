import DrawScript.Proofs.Script.Soundness

/-!
How far the parser looks. A step takes tokens off the front of a row. What it reads is settled by these
tokens and by few after them: none if the step ends with a symbol of its own, and one if it could go
on, as an expression could. An error is settled by the tokens before it and two more. So tokens further
on can be exchanged, or added at the end, and the step does the same.
-/

namespace DrawScript.Parser

variable {α β : Type}

/-- On the tokens `ts`, a step that succeeds takes `c` tokens at least and looks at `k` tokens at most
after those it takes; a step that fails looks at two tokens at most after those it has passed. -/
structure Window (c k : Nat) (F : Span → List Token → Outcome α) (ts : List Token) : Prop where
  ok : ∀ {stop v r}, F stop ts = .ok (v, r) → ∃ us, ts = us ++ r ∧ c ≤ us.length ∧
    ∀ ys zs, r = ys ++ zs → k ≤ ys.length →
      ∀ stop' zs', F stop' (us ++ (ys ++ zs')) = .ok (v, ys ++ zs')
  error : ∀ {stop s}, F stop ts = .error s → ∃ us, ts = us ++ s.rest ∧
    ∀ ys zs, s.rest = ys ++ zs → 2 ≤ ys.length →
      ∀ stop' zs', F stop' (us ++ (ys ++ zs')) = .error ⟨s.error, ys ++ zs'⟩

def Settled (F : Span → List Token → Outcome α) (ts : List Token) : Prop :=
  ∀ stop s, F stop ts = .error s → ∃ us, ts = us ++ s.rest ∧
    ∀ ys zs, s.rest = ys ++ zs → 2 ≤ ys.length →
      ∀ stop' zs', F stop' (us ++ (ys ++ zs')) = .error ⟨s.error, ys ++ zs'⟩

theorem Window.settled {c k : Nat} {F : Span → List Token → Outcome α} {ts : List Token}
    (h : Window c k F ts) : Settled F ts := fun _ _ hs => h.error hs

theorem head?_exchange {us ys : List Token} (zs zs' : List Token) (h : 1 ≤ us.length + ys.length) :
    (us ++ (ys ++ zs')).head? = (us ++ (ys ++ zs)).head? := by
  cases us with
  | cons => rfl
  | nil =>
    cases ys with
    | cons => rfl
    | nil => exact absurd h (by decide)

namespace Settled

variable {F G : Span → List Token → Outcome α} {t : Token} {ts : List Token}

theorem congr_head (hG : Settled G ts)
    (h : ∀ stop us, us.head? = ts.head? → F stop us = G stop us) : Settled F ts := by
  intro stop s hs
  rw [h _ ts rfl] at hs
  obtain ⟨us, hts, hsame⟩ := hG stop s hs
  refine ⟨us, hts, fun ys zs hys hlen stop' zs' => ?_⟩
  rw [h stop' _ (by rw [hts, hys]; exact head?_exchange zs zs' (by omega))]
  exact hsame ys zs hys hlen stop' zs'

theorem of_cons (hG : Settled G (t :: ts)) (h : ∀ stop us, F stop (t :: us) = G stop (t :: us)) :
    Settled F (t :: ts) := by
  refine hG.congr_head fun stop us hus => ?_
  obtain ⟨us, rfl⟩ := List.head?_eq_some_iff.mp hus
  exact h stop us

theorem of_tail (hG : Settled G ts) (h : ∀ stop us, F stop (t :: us) = G stop us) :
    Settled F (t :: ts) := by
  intro stop s hs
  rw [h] at hs
  obtain ⟨us, hts, hsame⟩ := hG stop s hs
  exact ⟨t :: us, congrArg (t :: ·) hts,
    fun ys zs hys hlen stop' zs' => (h stop' _).trans (hsame ys zs hys hlen stop' zs')⟩

theorem andThen {c k : Nat} {K : α → Span → List Token → Outcome β} (hF : Window c k F ts)
    (hK : ∀ {stop v r}, F stop ts = .ok (v, r) → Settled (K v) r) (htwo : k ≤ 2) :
    Settled (fun stop us => (F stop us).andThen fun v us₁ => K v stop us₁) ts := by
  intro stop s hs
  dsimp only at hs ⊢
  match h₁ : F stop ts with
  | .error s₁ =>
    rw [h₁] at hs
    cases hs
    obtain ⟨us, hts, hsame⟩ := hF.error h₁
    refine ⟨us, hts, fun ys zs hys hlen stop' zs' => ?_⟩
    rw [hsame ys zs hys hlen stop' zs']
    rfl
  | .ok (v, r₁) =>
    rw [h₁] at hs
    obtain ⟨us, hts, -, hsame⟩ := hF.ok h₁
    obtain ⟨us₁, rfl, hsame₁⟩ := hK h₁ stop s hs
    refine ⟨us ++ us₁, by rw [hts, List.append_assoc], fun ys zs hys hlen stop' zs' => ?_⟩
    have hfirst := hsame (us₁ ++ ys) zs (by rw [hys, List.append_assoc])
      (by rw [List.length_append]; omega) stop' zs'
    rw [List.append_assoc] at hfirst
    rw [List.append_assoc, hfirst]
    exact hsame₁ ys zs hys hlen stop' zs'

theorem map {g : α → β} (h : Settled F ts) :
    Settled (fun stop us => (F stop us).andThen fun v us₁ => .ok (g v, us₁)) ts := by
  intro stop s hs
  dsimp only at hs ⊢
  match h₁ : F stop ts with
  | .error s₁ =>
    rw [h₁] at hs
    cases hs
    obtain ⟨us, hts, hsame⟩ := h stop _ h₁
    refine ⟨us, hts, fun ys zs hys hlen stop' zs' => ?_⟩
    rw [hsame ys zs hys hlen stop' zs']
    rfl
  | .ok (v, r) =>
    rw [h₁] at hs
    cases hs

end Settled

namespace Window

variable {c c' k k' : Nat} {F G : Span → List Token → Outcome α} {t : Token} {ts : List Token}

theorem mono (h : Window c' k' F ts) (hc : c ≤ c') (hk : k' ≤ k) : Window c k F ts where
  ok hr := by
    obtain ⟨us, hts, hus, hsame⟩ := h.ok hr
    exact ⟨us, hts, Nat.le_trans hc hus,
      fun ys zs hys hlen => hsame ys zs hys (Nat.le_trans hk hlen)⟩
  error hs := h.error hs

theorem weaken (h : Window c k F ts) : Window 0 k F ts := h.mono (Nat.zero_le c) (Nat.le_refl k)

theorem congr_head (hG : Window c k G ts) (hck : 1 ≤ c + k)
    (h : ∀ stop us, us.head? = ts.head? → F stop us = G stop us) : Window c k F ts where
  ok hr := by
    rw [h _ ts rfl] at hr
    obtain ⟨us, rfl, hus, hsame⟩ := hG.ok hr
    refine ⟨us, rfl, hus, ?_⟩
    rintro ys zs rfl hlen stop' zs'
    rw [h stop' _ (head?_exchange zs zs' (by omega))]
    exact hsame ys zs rfl hlen stop' zs'
  error hs := hG.settled.congr_head h _ _ hs

theorem congr (h : ∀ stop us, F stop us = G stop us) (hG : Window c k G ts) : Window c k F ts := by
  have hFG : F = G := funext fun stop => funext fun us => h stop us
  rwa [hFG]

theorem of_nil (hG : Window c k G []) (hck : 1 ≤ c + k) (h : ∀ stop, F stop [] = G stop []) :
    Window c k F [] := by
  refine hG.congr_head hck fun stop us hus => ?_
  rw [List.head?_eq_none_iff.mp hus]
  exact h stop

theorem of_cons (hG : Window c k G (t :: ts)) (hck : 1 ≤ c + k)
    (h : ∀ stop us, F stop (t :: us) = G stop (t :: us)) : Window c k F (t :: ts) := by
  refine hG.congr_head hck fun stop us hus => ?_
  obtain ⟨us, rfl⟩ := List.head?_eq_some_iff.mp hus
  exact h stop us

protected theorem pure (v : α) (ts : List Token) : Window 0 0 (fun _ us => .ok (v, us)) ts where
  ok hr := by
    cases hr
    exact ⟨[], rfl, Nat.le_refl _, fun ys zs _ _ _ zs' => rfl⟩
  error hs := by cases hs

theorem stuck_at {e : Span → List Token → CompileError}
    (h : ∀ stop stop' t us us', e stop (t :: us) = e stop' (t :: us')) (ts : List Token) :
    Window c k (fun stop us => (.error ⟨e stop us, us⟩ : Outcome α)) ts where
  ok hr := by cases hr
  error hs := by
    cases hs
    refine ⟨[], rfl, ?_⟩
    rintro (_ | ⟨t, ys⟩) zs rfl hlen stop' zs'
    · exact absurd hlen (by decide)
    · exact congrArg (fun e => Except.error (Stuck.mk e _)) (h ..)

theorem stuck (e : CompileError) (ts : List Token) :
    Window c k (fun _ us => (.error ⟨e, us⟩ : Outcome α)) ts :=
  stuck_at (fun _ _ _ _ _ => rfl) ts

theorem refused (message : String) (ts : List Token) :
    Window c k (fun stop us => (.error (refused stop message us) : Outcome α)) ts :=
  stuck_at (fun _ _ _ _ _ => rfl) ts

theorem wanted (expected : String) (ts : List Token) :
    Window c k (fun stop us => (.error (wanted stop expected us) : Outcome α)) ts :=
  stuck_at (fun _ _ _ _ _ => rfl) ts

theorem of_tail (hG : Window c k G ts) (h : ∀ stop us, F stop (t :: us) = G stop us) :
    Window 1 k F (t :: ts) where
  ok hr := by
    rw [h] at hr
    obtain ⟨us, rfl, -, hsame⟩ := hG.ok hr
    exact ⟨t :: us, rfl, Nat.succ_pos _,
      fun ys zs hys hlen stop' zs' => (h stop' _).trans (hsame ys zs hys hlen stop' zs')⟩
  error hs := hG.settled.of_tail h _ _ hs

theorem tail (h : Window c k F ts) : Window 1 k (fun stop us => F stop us.tail) (t :: ts) :=
  h.of_tail fun _ _ => rfl

/-- What the first step looks at beyond its own tokens has to be within the window of the second. -/
theorem andThen {K : α → Span → List Token → Outcome β} (hF : Window c k' F ts)
    (hK : ∀ {stop v r}, F stop ts = .ok (v, r) → Window c' k (K v) r)
    (hk : k' ≤ c' + k) (htwo : k' ≤ 2) :
    Window c k (fun stop us => (F stop us).andThen fun v us₁ => K v stop us₁) ts where
  ok {stop w r} hr := by
    obtain ⟨v, r₁, h₁, h₂⟩ := Outcome.andThen_eq_ok.mp hr
    obtain ⟨us, hts, hus, hsame⟩ := hF.ok h₁
    obtain ⟨us₁, rfl, hus₁, hsame₁⟩ := (hK h₁).ok h₂
    refine ⟨us ++ us₁, by rw [hts, List.append_assoc], by rw [List.length_append]; omega, ?_⟩
    rintro ys zs rfl hlen stop' zs'
    have hfirst := hsame (us₁ ++ ys) zs (List.append_assoc ..).symm
      (by rw [List.length_append]; omega) stop' zs'
    rw [List.append_assoc] at hfirst
    rw [List.append_assoc, hfirst]
    exact hsame₁ ys zs rfl hlen stop' zs'
  error hs := Settled.andThen hF (fun h₁ => (hK h₁).settled) htwo _ _ hs

variable {K : α → Span → List Token → Outcome β}

theorem closed_andThen (hF : Window c 0 F ts) (c' : Nat)
    (hK : ∀ {stop v r}, F stop ts = .ok (v, r) → Window c' k (K v) r) :
    Window c k (fun stop us => (F stop us).andThen fun v us₁ => K v stop us₁) ts :=
  hF.andThen hK (Nat.zero_le _) (Nat.zero_le 2)

theorem open_andThen (hF : Window c 1 F ts)
    (hK : ∀ {stop v r}, F stop ts = .ok (v, r) → Window 1 k (K v) r) :
    Window c k (fun stop us => (F stop us).andThen fun v us₁ => K v stop us₁) ts :=
  hF.andThen hK (Nat.le_add_right 1 k) (Nat.le_succ 1)

theorem open_andThen_open (hF : Window c 1 F ts)
    (hK : ∀ {stop v r}, F stop ts = .ok (v, r) → Window 0 1 (K v) r) :
    Window c 1 (fun stop us => (F stop us).andThen fun v us₁ => K v stop us₁) ts :=
  hF.andThen hK (Nat.le_refl 1) (Nat.le_succ 1)

theorem closed_map {g : α → β} (h : Window c 0 F ts) :
    Window c 0 (fun stop us => (F stop us).andThen fun v us₁ => .ok (g v, us₁)) ts :=
  h.closed_andThen 0 fun _ => .pure _ _

theorem open_map {g : α → β} (h : Window c 1 F ts) :
    Window c 1 (fun stop us => (F stop us).andThen fun v us₁ => .ok (g v, us₁)) ts :=
  h.open_andThen_open fun _ => (Window.pure _ _).mono (Nat.le_refl 0) (Nat.zero_le 1)

theorem ite {kind : TokenKind} {A B : Span → List Token → Outcome α} (hck : 1 ≤ c + k)
    (hA : nextIs kind ts → Window c k A ts) (hB : ¬ nextIs kind ts → Window c k B ts) :
    Window c k (fun stop us => if nextIs kind us then A stop us else B stop us) ts := by
  have hnext : ∀ us : List Token, us.head? = ts.head? → nextIs kind us = nextIs kind ts := by
    intro us hus
    cases us <;> cases ts <;> simp_all
  by_cases h : nextIs kind ts
  · exact (hA h).congr_head hck fun stop us hus => by rw [hnext us hus, if_pos h]
  · exact (hB h).congr_head hck fun stop us hus => by rw [hnext us hus, if_neg h]

theorem skip {kind : TokenKind} (h : Window 1 k F (skip kind ts)) :
    Window 1 k (fun stop us => F stop (Parser.skip kind us)) ts := by
  have heq : ∀ stop us, F stop (Parser.skip kind us) =
      if nextIs kind us then F stop us.tail else F stop us := by
    intro stop us
    rw [skip_eq]
    split <;> rfl
  refine .congr heq (.ite (Nat.le_add_right 1 k) (fun hnext => ?_) fun hnext => ?_)
  · rw [skip_eq, if_pos hnext] at h
    obtain ⟨t, ts, rfl, -⟩ := exists_of_nextIs hnext
    exact h.tail
  · rwa [skip_eq, if_neg hnext] at h

end Window

variable (depth : Nat) (ts : List Token)

theorem next_window {p : Token → Prop} [DecidablePred p] {expected : String}
    {F : Span → List Token → Outcome Token} (hnil : ∀ stop, F stop [] = .error (wanted stop expected []))
    (hcons : ∀ stop t us, F stop (t :: us) =
      if p t then .ok (t, us) else .error (wanted stop expected (t :: us))) : Window 1 0 F ts := by
  cases ts with
  | nil => exact (Window.wanted expected []).of_nil (Nat.le_refl 1) hnil
  | cons t ts =>
    by_cases h : p t
    · exact (Window.pure t ts).of_tail fun stop us => (hcons stop t us).trans (if_pos h)
    · exact (Window.wanted expected (t :: ts)).of_cons (Nat.le_refl 1) fun stop us =>
        (hcons stop t us).trans (if_neg h)

theorem take_window (kind : TokenKind) (expected : String) :
    Window 1 0 (fun stop us => (take stop kind expected us).outcome) ts :=
  next_window ts (fun stop => outcome_take stop [] kind expected) fun stop t us =>
    outcome_take stop (t :: us) kind expected

theorem takeName_window : Window 1 0 (fun stop us => (takeName stop us).outcome) ts :=
  next_window ts (outcome_takeName · []) fun stop t us => outcome_takeName stop (t :: us)

theorem skipListMark_window (base : BaseType) :
    Window 0 2
      (fun _ us => (.ok (⟨base, (skipListMark us).1⟩, (skipListMark us).2) : Outcome TypeSpec)) ts where
  error hs := by cases hs
  ok hr := by
    cases hr
    match ts with
    | [] => exact ⟨[], rfl, Nat.le_refl _, by simp [skipListMark]⟩
    | [t] =>
      refine ⟨[], rfl, Nat.le_refl _, fun ys zs hys hlen => ?_⟩
      have hlength := congrArg List.length hys
      rw [List.length_append] at hlength
      simp only [skipListMark, List.length_singleton] at hlength
      omega
    | a :: b :: ts =>
      by_cases hmark : a.kind = .leftBracket ∧ b.kind = .rightBracket
      · refine ⟨[a, b], by simp [skipListMark, hmark], Nat.zero_le _, ?_⟩
        simp [skipListMark, hmark]
      · have hsame : ∀ us, skipListMark (a :: b :: us) = (false, a :: b :: us) :=
          fun us => if_neg hmark
        refine ⟨[], by rw [hsame]; rfl, Nat.le_refl _, ?_⟩
        rw [hsame]
        rintro (_ | ⟨a', _ | ⟨b', ys⟩⟩) zs hys hlen stop' zs'
        · exact absurd hlen (by decide)
        · exact absurd hlen (Nat.not_succ_le_self 1)
        · cases hys
          rw [List.nil_append, List.cons_append, List.cons_append, hsame]

theorem typeSpec_window : Window 1 2 (fun stop us => (typeSpec stop us).outcome) ts := by
  refine .congr outcome_typeSpec ((take_window ts _ _).closed_andThen 0 fun {stop t r} _ => ?_)
  cases BaseType.ofText? t.text with
  | none => exact .stuck _ r
  | some base => exact skipListMark_window r base

theorem skipListMark_of_ne {t : Token} (h : t.kind ≠ .leftBracket) (ts : List Token) :
    skipListMark (t :: ts) = (false, t :: ts) := by
  cases ts with
  | nil => rfl
  | cons => exact if_neg fun hmark => h hmark.1

theorem skipListMark_of_next {ts r : List Token} {t : Token} (h : (skipListMark ts).2 = t :: r)
    (ht : t.kind ≠ .leftBracket) :
    ∃ us, ts = us ++ t :: r ∧
      ∀ r', skipListMark (us ++ t :: r') = ((skipListMark ts).1, t :: r') := by
  match ts with
  | [] => cases h
  | [a] =>
    cases h
    exact ⟨[], rfl, skipListMark_of_ne ht⟩
  | a :: b :: ts =>
    by_cases hmark : a.kind = .leftBracket ∧ b.kind = .rightBracket
    · have hskip : ∀ us, skipListMark (a :: b :: us) = (true, us) := fun us => if_pos hmark
      rw [hskip] at h ⊢
      subst h
      exact ⟨[a, b], rfl, fun r' => hskip _⟩
    · rw [show skipListMark (a :: b :: ts) = (false, a :: b :: ts) from if_neg hmark] at h ⊢
      cases h
      exact ⟨[], rfl, skipListMark_of_ne ht⟩

def typedName (stop : Span) (ts : List Token) : Outcome (TypeSpec × Token) :=
  (typeSpec stop ts).outcome.andThen fun type ts₁ =>
    (takeName stop ts₁).outcome.andThen fun name ts₂ => .ok ((type, name), ts₂)

theorem andThen_typedName (stop : Span) (ts : List Token)
    (k : TypeSpec → Token → List Token → Outcome α) :
    ((typeSpec stop ts).outcome.andThen fun type ts₁ =>
      (takeName stop ts₁).outcome.andThen fun name ts₂ => k type name ts₂) =
    (typedName stop ts).andThen fun p ts₂ => k p.1 p.2 ts₂ := by
  unfold typedName
  match (typeSpec stop ts).outcome with
  | .error _ => rfl
  | .ok (type, ts₁) =>
    rw [Outcome.andThen_ok, Outcome.andThen_ok]
    match (takeName stop ts₁).outcome with
    | .error _ => rfl
    | .ok _ => rfl

theorem typeSpec_of_next {stop : Span} {ts r : List Token} {t : Token} {type : TypeSpec}
    (h : (typeSpec stop ts).outcome = .ok (type, t :: r)) (ht : t.kind ≠ .leftBracket) :
    ∃ us, ts = us ++ t :: r ∧
      ∀ stop' r', (typeSpec stop' (us ++ t :: r')).outcome = .ok (type, t :: r') := by
  rw [outcome_typeSpec] at h
  obtain ⟨mark, ts₁, h₁, h₂⟩ := Outcome.andThen_eq_ok.mp h
  obtain ⟨us, rfl, -, hsame⟩ := (take_window ts _ _).ok h₁
  cases hbase : BaseType.ofText? mark.text with
  | none =>
    rw [hbase] at h₂
    cases h₂
  | some base =>
    rw [hbase] at h₂
    obtain ⟨rfl, hrest⟩ := Prod.mk.inj (Except.ok.inj h₂)
    obtain ⟨vs, rfl, hskip⟩ := skipListMark_of_next hrest ht
    refine ⟨us ++ vs, (List.append_assoc ..).symm, fun stop' r' => ?_⟩
    have htake := hsame [] _ rfl (Nat.le_refl 0) stop' (vs ++ t :: r')
    rw [List.nil_append] at htake
    rw [outcome_typeSpec, List.append_assoc, htake, Outcome.andThen_ok, hbase]
    dsimp only
    rw [hskip]

theorem typedName_window : Window 1 0 typedName ts where
  error hs := by
    have hwide : Window 1 1 typedName ts := (typeSpec_window ts).andThen
      (fun {_ _ r} _ => (takeName_window r).closed_map.mono (Nat.le_refl 1) (Nat.zero_le 1))
      (Nat.le_refl 2) (Nat.le_refl 2)
    exact hwide.error hs
  ok hr := by
    obtain ⟨type, r₁, h₁, h₂⟩ := Outcome.andThen_eq_ok.mp hr
    obtain ⟨name, r₂, h₃, h₄⟩ := Outcome.andThen_eq_ok.mp h₂
    cases h₄
    obtain ⟨rfl, hname⟩ := takeName_sound h₃
    obtain ⟨us, rfl, hsame⟩ := typeSpec_of_next h₁ (by rw [hname.1]; decide)
    refine ⟨us ++ [name], by simp, by simp, ?_⟩
    rintro ys zs rfl - stop' zs'
    have htake : (takeName stop' (name :: (ys ++ zs'))).outcome = .ok (name, ys ++ zs') := by
      rw [outcome_takeName]
      exact if_pos ⟨hname.1, hname.2.2⟩
    rw [List.append_assoc, List.singleton_append, typedName, hsame stop' (ys ++ zs'),
      Outcome.andThen_ok, htake, Outcome.andThen_ok]

theorem param_window : Window 1 0 (fun stop us => (param stop us).outcome) ts := by
  refine .congr (fun stop us => (outcome_param stop us).trans (andThen_typedName ..)) ?_
  exact (typedName_window ts).closed_map

theorem moreParams_window (ts : List Token) :
    Window 1 0 (fun stop us => (moreParams stop us).outcome) ts := by
  refine .congr outcome_moreParams (.ite (Nat.le_refl 1) (fun hcomma => ?_) fun _ => ?_)
  · obtain ⟨t, ts, rfl, -⟩ := exists_of_nextIs hcomma
    refine (param_window ts).tail.closed_andThen 1 fun {stop p r} hp => ?_
    have hlt := Step.lt_of_outcome hp
    exact (moreParams_window r).closed_map
  · exact (take_window ts _ _).closed_map
termination_by ts.length
decreasing_by grind

theorem params_window : Window 1 0 (fun stop us => (params stop us).outcome) ts := by
  refine .congr outcome_params (.ite (Nat.le_refl 1) (fun hclose => ?_) fun _ => ?_)
  · obtain ⟨t, ts, rfl, -⟩ := exists_of_nextIs hclose
    exact (Window.pure [] ts).tail
  · exact (param_window ts).closed_andThen 1 fun {stop p r} _ => (moreParams_window r).closed_map

structure WindowsBelow (n : Nat) : Prop where
  expression : ∀ (depth : Nat) (ts : List Token), ts.length < n →
    Window 1 1 (fun stop us => (expression stop depth us).outcome) ts
  block : ∀ (depth : Nat) (ts : List Token), ts.length < n →
    Window 1 0 (fun stop us => (block stop depth us).outcome) ts

section

variable {n : Nat} (ih : WindowsBelow n)
include ih

theorem moreArguments_window (ts : List Token) (hn : ts.length ≤ n) :
    Window 1 0 (fun stop us => (moreArguments stop depth us).outcome) ts := by
  refine .congr (outcome_moreArguments · depth) (.ite (Nat.le_refl 1) (fun hcomma => ?_) fun _ => ?_)
  · obtain ⟨t, ts, rfl, -⟩ := exists_of_nextIs hcomma
    refine (ih.expression depth ts hn).tail.open_andThen fun {stop e r} he => ?_
    have hlt := Step.lt_of_outcome_tail he
    exact (moreArguments_window r (by omega)).closed_map
  · exact (take_window ts _ _).closed_map
termination_by ts.length
decreasing_by grind

theorem arguments_window (hn : ts.length < n) :
    Window 1 0 (fun stop us => (arguments stop depth us).outcome) ts := by
  refine .congr (outcome_arguments · depth) (.ite (Nat.le_refl 1) (fun hclose => ?_) fun _ => ?_)
  · obtain ⟨t, ts, rfl, -⟩ := exists_of_nextIs hclose
    exact (Window.pure [] ts).tail
  · refine (ih.expression depth ts hn).open_andThen fun {stop e r} he => ?_
    have hlt := Step.lt_of_outcome he
    exact (moreArguments_window depth ih r (by omega)).closed_map

theorem moreElements_window (ts : List Token) (hn : ts.length ≤ n) :
    Window 1 0 (fun stop us => (moreElements stop depth us).outcome) ts := by
  refine .congr (outcome_moreElements · depth) (.ite (Nat.le_refl 1) (fun hcomma => ?_) fun _ => ?_)
  · obtain ⟨t, ts, rfl, -⟩ := exists_of_nextIs hcomma
    have hrest : Window 1 0 (fun stop us =>
        if nextIs .rightBracket us then (.ok ([], us.tail) : Outcome (List Expr))
        else (expression stop depth us).outcome.andThen fun e ts₁ =>
          (moreElements stop depth ts₁).outcome.andThen fun es ts₂ => .ok (e :: es, ts₂)) ts := by
      refine .ite (Nat.le_refl 1) (fun hclose => ?_) fun _ => ?_
      · obtain ⟨u, us, rfl, -⟩ := exists_of_nextIs hclose
        exact (Window.pure [] us).tail
      · refine (ih.expression depth ts hn).open_andThen fun {stop e r} he => ?_
        have hlt := Step.lt_of_outcome he
        exact (moreElements_window r (by grind)).closed_map
    exact hrest.tail
  · exact (take_window ts _ _).closed_map
termination_by ts.length
decreasing_by grind

theorem group_window (mark : Span) (hn : ts.length < n) :
    Window 1 0 (fun stop us => (group stop depth mark us).outcome) ts := by
  refine .congr (fun stop us => outcome_group stop depth us mark)
    (.ite (Nat.le_refl 1) (fun hclose => ?_) fun _ => ?_)
  · obtain ⟨t, ts, rfl, -⟩ := exists_of_nextIs hclose
    exact (Window.pure _ ts).tail
  · refine (ih.expression depth ts hn).open_andThen fun {stop e r} he => ?_
    have hlt := Step.lt_of_outcome he
    refine .ite (Nat.le_refl 1) (fun _ => ?_) fun _ => ?_
    · exact (moreArguments_window depth ih r (by omega)).closed_map
    · exact (take_window r _ _).closed_map

theorem listOrRange_window (mark : Span) (hn : ts.length < n) :
    Window 1 0 (fun stop us => (listOrRange stop depth mark us).outcome) ts := by
  refine .congr (fun stop us => outcome_listOrRange stop depth us mark)
    (.ite (Nat.le_refl 1) (fun hclose => ?_) fun _ => ?_)
  · obtain ⟨t, ts, rfl, -⟩ := exists_of_nextIs hclose
    exact (Window.pure _ ts).tail
  · refine (ih.expression depth ts hn).open_andThen fun {stop e r} he => ?_
    have hlt := Step.lt_of_outcome he
    refine .ite (Nat.le_refl 1) (fun hdots => ?_) fun _ => ?_
    · obtain ⟨t, r, rfl, -⟩ := exists_of_nextIs hdots
      exact (ih.expression depth r (by grind)).tail.open_andThen fun {stop last r₁} _ =>
        (take_window r₁ _ _).closed_map
    · exact (moreElements_window depth ih r (by omega)).closed_map

theorem iterators_window (ts : List Token) (hn : ts.length < n) :
    Window 1 0 (fun stop us => (iterators stop depth us).outcome) ts := by
  refine .congr (outcome_iterators · depth) ?_
  refine (takeName_window ts).closed_andThen 1 fun {stop name r₁} h₁ =>
    (take_window r₁ _ _).closed_andThen 1 fun {stop t r₂} h₂ => ?_
  have hlt₁ := Step.lt_of_outcome h₁
  have hlt₂ := Step.lt_of_outcome h₂
  refine (ih.expression depth r₂ (by omega)).open_andThen fun {stop range r₃} h₃ => ?_
  have hlt₃ := Step.lt_of_outcome h₃
  refine .ite (Nat.le_refl 1) (fun hcomma => ?_) fun _ => ?_
  · obtain ⟨t, r₃, rfl, -⟩ := exists_of_nextIs hcomma
    exact (iterators_window r₃ (by grind)).tail.closed_map
  · exact (take_window r₃ _ _).closed_map
termination_by ts.length
decreasing_by grind

theorem branches_window (ts : List Token) (hn : ts.length < n) :
    Window 1 0 (fun stop us => (branches stop depth us).outcome) ts := by
  refine .congr (outcome_branches · depth) (.ite (Nat.le_refl 1) (fun hclose => ?_) fun _ => ?_)
  · obtain ⟨t, ts, rfl, -⟩ := exists_of_nextIs hclose
    exact (Window.pure [] ts).tail
  · refine (ih.expression depth ts hn).open_andThen fun {stop e r} he => ?_
    have hlt := Step.lt_of_outcome he
    refine .ite (Nat.le_refl 1) (fun hcolon => ?_) fun _ => ?_
    · obtain ⟨t, r, rfl, -⟩ := exists_of_nextIs hcolon
      refine (ih.expression depth r (by grind)).tail.open_andThen fun {stop result r₁} hresult => ?_
      have hlt₁ := Step.lt_of_outcome_tail hresult
      have hskip := length_skip_le .comma r₁
      exact (Window.skip (branches_window (Parser.skip .comma r₁) (by omega))).closed_map
    · exact (Window.skip (take_window _ _ _)).closed_map
termination_by ts.length
decreasing_by grind

theorem atom_window (hn : ts.length ≤ n) :
    Window 1 0 (fun stop us => (atom stop depth us).outcome) ts := by
  refine .congr (outcome_atom · depth) ?_
  cases ts with
  | nil => exact (Window.wanted _ []).of_nil (Nat.le_refl 1) fun _ => rfl
  | cons t ts =>
    obtain ⟨kind, text, span⟩ := t
    have hrefused : Window (α := Expr) 1 0
        (fun stop us => .error (refused stop "expected an expression" us)) (⟨kind, text, span⟩ :: ts) :=
      .refused _ _
    cases kind
    case text => exact (Window.pure _ ts).of_tail fun _ _ => rfl
    case builtin => exact (Window.pure _ ts).of_tail fun _ _ => rfl
    case dollar => exact (takeName_window ts).closed_map.of_tail fun _ _ => rfl
    case keyword k =>
      cases k
      case loop =>
        refine .of_tail ((take_window ts _ _).closed_andThen 1 fun {stop t r₁} h₁ => ?_) fun _ _ => rfl
        have hlt₁ := Step.lt_of_outcome h₁
        refine (iterators_window depth ih r₁ (by grind)).closed_andThen 1 fun {stop its r₂} h₂ => ?_
        have hlt₂ := Step.lt_of_outcome h₂
        exact (ih.block depth r₂ (by grind)).closed_map
      case cases =>
        refine .of_tail ((take_window ts _ _).closed_andThen 1 fun {stop t r₁} h₁ => ?_) fun _ _ => rfl
        have hlt₁ := Step.lt_of_outcome h₁
        exact (branches_window depth ih r₁ (by grind)).closed_map
      all_goals exact hrefused.of_cons (Nat.le_refl 1) fun _ _ => rfl
    case leftParen => exact (group_window depth ts ih span hn).of_tail fun _ _ => rfl
    case leftBracket => exact (listOrRange_window depth ts ih span hn).of_tail fun _ _ => rfl
    all_goals exact hrefused.of_cons (Nat.le_refl 1) fun _ _ => rfl

theorem suffixes_window (callable : Bool) (e : Expr) (ts : List Token) (hn : ts.length ≤ n) :
    Window 0 1 (fun stop us => (suffixes stop depth callable e us).outcome) ts := by
  refine .congr (fun stop us => outcome_suffixes stop depth us callable e) ?_
  have hend : Window 0 1 (fun _ us => .ok (e, us)) ts :=
    (Window.pure e ts).mono (Nat.le_refl 0) (Nat.zero_le 1)
  cases ts with
  | nil => exact hend.of_nil (Nat.le_refl 1) fun _ => rfl
  | cons t ts =>
    obtain ⟨kind, text, span⟩ := t
    cases kind
    case dot =>
      refine .weaken <| .of_tail ((takeName_window ts).closed_andThen 0 fun {stop name r} h₁ => ?_) fun _ _ => rfl
      have hlt := Step.lt_of_outcome h₁
      exact suffixes_window callable (.member e name.text span) r (by grind)
    case leftBracket =>
      refine .weaken <| .of_tail ((ih.expression depth ts hn).open_andThen fun {stop subscript r₁} h₁ =>
        (take_window r₁ _ _).closed_andThen 0 fun {stop t r₂} h₂ => ?_) fun _ _ => rfl
      have hlt₁ := Step.lt_of_outcome h₁
      have hlt₂ := Step.lt_of_outcome h₂
      exact suffixes_window callable (.index e subscript span) r₂ (by grind)
    case leftParen =>
      cases callee? callable e with
      | none =>
        exact (Window.refused "only a named function can be called" _).of_cons (Nat.le_refl 1)
          fun _ _ => rfl
      | some name =>
        refine .weaken <| .of_tail ((arguments_window depth ts ih hn).closed_andThen 0 fun {stop es r} h₁ => ?_)
          fun _ _ => rfl
        have hlt := Step.lt_of_outcome h₁
        exact suffixes_window callable (.call name es span) r (by grind)
    all_goals exact hend.of_cons (Nat.le_refl 1) fun _ _ => rfl
termination_by ts.length
decreasing_by all_goals grind

theorem operand_window (hn : ts.length ≤ n) :
    Window 1 1 (fun stop us => (operand stop depth us).outcome) ts := by
  have hsteps : Window 1 1 (fun stop us => (atom stop depth us).outcome.andThen fun e us₁ =>
      (suffixes stop depth (isCallable ts) e us₁).outcome) ts := by
    refine (atom_window depth ts ih hn).closed_andThen 0 fun {stop e r} h₁ => ?_
    have hlt := Step.lt_of_outcome h₁
    exact suffixes_window depth ih (isCallable ts) e r (by omega)
  refine hsteps.congr_head (by decide) fun stop us hus => ?_
  have hcallable : isCallable us = isCallable ts := by
    cases us <;> cases ts <;> simp_all [isCallable]
  rw [outcome_operand, hcallable]

omit ih in
theorem nextKind?_cons {α : Type} (f : TokenKind → Option α) (t : Token) (ts : List Token) :
    nextKind? f (t :: ts) = f t.kind := rfl

theorem unary_window (depth : Nat) (ts : List Token) (hn : ts.length ≤ n) :
    Window 1 1 (fun stop us => (unary stop depth us).outcome) ts := by
  refine .congr (outcome_unary · depth) ?_
  cases ts with
  | nil => exact (operand_window depth [] ih hn).of_nil (by decide) fun _ => rfl
  | cons t ts =>
    cases hop : unaryOperator? t.kind with
    | none =>
      refine (operand_window depth (t :: ts) ih hn).of_cons (by decide) fun _ _ => ?_
      rw [nextKind?_cons, hop]
    | some op =>
      cases depth with
      | zero =>
        refine (Window.refused (c := 0) "expression nested too deeply" ts).of_tail fun _ _ => ?_
        rw [nextKind?_cons, hop]
        rfl
      | succ depth =>
        have hle : ts.length ≤ n := by grind
        have hrest := (unary_window depth ts hle).open_map (g := fun e => Expr.unary op e t.span)
        refine hrest.of_tail fun _ _ => ?_
        rw [nextKind?_cons, hop]
        rfl
termination_by ts.length

omit ih in
theorem binaryRest_window (l : Level) (ls : List Level)
    (hoperand : ∀ ts : List Token, ts.length ≤ n →
      Window 1 1 (fun stop us => (binary stop depth ls us).outcome) ts)
    (left : Expr) (ts : List Token) (hn : ts.length ≤ n) :
    Window 0 1 (fun stop us => (binaryRest stop depth l ls left us).outcome) ts := by
  refine .congr (fun stop us => outcome_binaryRest stop depth us l ls left) ?_
  have hend : Window 0 1 (fun _ us => .ok (left, us)) ts :=
    (Window.pure left ts).mono (Nat.le_refl 0) (Nat.zero_le 1)
  cases ts with
  | nil => exact hend.of_nil (Nat.le_refl 1) fun _ => rfl
  | cons t ts =>
    cases hop : l.operator? t.kind with
    | none =>
      refine hend.of_cons (Nat.le_refl 1) fun _ _ => ?_
      rw [nextKind?_cons, hop]
    | some op =>
      have hrest : Window 1 1 (fun stop us => (binary stop depth ls us).outcome.andThen
          fun right us₁ =>
            (binaryRest stop depth l ls (.binary op left right t.span) us₁).outcome) ts := by
        refine (hoperand ts (by grind)).open_andThen_open fun {stop right r} h₁ => ?_
        have hlt := Step.lt_of_outcome h₁
        exact binaryRest_window l ls hoperand (.binary op left right t.span) r (by grind)
      refine .weaken <| hrest.of_tail fun _ _ => ?_
      rw [nextKind?_cons, hop]
      rfl
termination_by ts.length
decreasing_by grind

theorem binary_window (ls : List Level) (ts : List Token) (hn : ts.length ≤ n) :
    Window 1 1 (fun stop us => (binary stop depth ls us).outcome) ts := by
  induction ls generalizing ts with
  | nil => exact .congr (outcome_binary_nil · depth) (unary_window ih depth ts hn)
  | cons l ls ihls =>
    refine .congr (fun stop us => outcome_binary_cons stop depth us l ls)
      ((ihls ts hn).open_andThen_open fun {stop left r} h₁ => ?_)
    have hlt := Step.lt_of_outcome h₁
    exact binaryRest_window depth l ls ihls left r (by omega)

theorem expression_window (hn : ts.length ≤ n) :
    Window 1 1 (fun stop us => (expression stop depth us).outcome) ts := by
  cases depth with
  | zero => exact .congr outcome_expression_zero (.refused _ ts)
  | succ depth =>
    refine .congr (outcome_expression_succ · depth)
      ((binary_window depth ih levels ts hn).open_andThen_open fun {stop target r} h₁ => ?_)
    have hlt := Step.lt_of_outcome h₁
    refine .ite (Nat.le_refl 1) (fun hequals => ?_) fun _ => ?_
    · obtain ⟨t, r, rfl, -⟩ := exists_of_nextIs hequals
      have hvalue := (ih.expression depth r (by grind)).open_map (g := fun e => Expr.assign target e t.span)
      exact .weaken <| hvalue.of_tail fun _ _ => rfl
    · exact (Window.pure target r).mono (Nat.le_refl 0) (Nat.zero_le 1)

theorem initializer_window (hn : ts.length ≤ n) :
    Window 1 0 (fun stop us => (initializer stop depth us).outcome) ts := by
  refine .congr (outcome_initializer · depth) (.ite (Nat.le_refl 1) (fun hequals => ?_) fun _ => ?_)
  · obtain ⟨t, ts, rfl, -⟩ := exists_of_nextIs hequals
    exact (ih.expression depth ts hn).tail.open_andThen fun {stop e r} _ => (take_window r _ _).closed_map
  · exact (take_window ts _ _).closed_map

theorem declaration_window (hn : ts.length ≤ n) :
    Window 1 0 (fun stop us => (declaration stop depth us).outcome) ts := by
  refine .congr (fun stop us => (outcome_declaration stop depth us).trans (andThen_typedName ..)) ?_
  refine (typedName_window ts).closed_andThen 1 fun {stop p r} h₁ => ?_
  obtain ⟨us, rfl, hus, -⟩ := (typedName_window ts).ok h₁
  rw [List.length_append] at hn
  refine .ite (Nat.le_refl 1) (fun hopen => ?_) fun _ => ?_
  · obtain ⟨t, r, rfl, -⟩ := exists_of_nextIs hopen
    refine (params_window r).tail.closed_andThen 1 fun {stop ps r₁} h₂ => ?_
    have hlt := Step.lt_of_outcome_tail h₂
    exact (ih.block depth r₁ (by omega)).closed_map
  · exact (initializer_window depth r ih (by omega)).closed_map

theorem statement_window (hn : ts.length < n) :
    Window 1 0 (fun stop us => (statement stop depth us).outcome) ts := by
  refine .congr (outcome_statement · depth) (.ite (Nat.le_refl 1) (fun hret => ?_) fun _ =>
    .ite (Nat.le_refl 1) (fun _ => ?_) fun _ => ?_)
  · obtain ⟨t, ts, rfl, -⟩ := exists_of_nextIs hret
    have hrest := (ih.expression depth ts (by grind)).open_andThen fun {stop e r} _ =>
      (take_window r .semicolon "';'").closed_map (g := fun _ => Statement.ret e t.span)
    exact hrest.of_tail fun _ _ => rfl
  · exact declaration_window depth ts ih (by omega)
  · exact (ih.expression depth ts hn).open_andThen fun {stop e r} _ => (take_window r _ _).closed_map

theorem statements_window (ts : List Token) (hn : ts.length < n) :
    Window 1 0 (fun stop us => (statements stop depth us).outcome) ts := by
  refine .congr (outcome_statements · depth) (.ite (Nat.le_refl 1) (fun hclose => ?_) fun _ => ?_)
  · obtain ⟨t, ts, rfl, -⟩ := exists_of_nextIs hclose
    exact (Window.pure [] ts).tail
  · cases ts with
    | nil => exact (Window.wanted _ []).of_nil (Nat.le_refl 1) fun _ => rfl
    | cons t ts =>
      have hrest : Window 1 0 (fun stop us => (statement stop depth us).outcome.andThen fun s us₁ =>
          (statements stop depth us₁).outcome.andThen fun ss us₂ => .ok (s :: ss, us₂)) (t :: ts) := by
        refine (statement_window depth (t :: ts) ih hn).closed_andThen 1 fun {stop s r} h₁ => ?_
        have hlt := Step.lt_of_outcome h₁
        exact (statements_window r (by omega)).closed_map
      exact hrest.of_cons (Nat.le_refl 1) fun _ _ => rfl
termination_by ts.length

theorem block_window (hn : ts.length ≤ n) :
    Window 1 0 (fun stop us => (block stop depth us).outcome) ts := by
  refine .congr (outcome_block · depth) ((take_window ts _ _).closed_andThen 1 fun {stop t r} h₁ => ?_)
  have hlt := Step.lt_of_outcome h₁
  exact (statements_window depth ih r (by omega)).closed_map

end

theorem windowsBelow (n : Nat) : WindowsBelow n := by
  induction n with
  | zero =>
    exact ⟨fun _ _ hn => absurd hn (Nat.not_lt_zero _), fun _ _ hn => absurd hn (Nat.not_lt_zero _)⟩
  | succ n ih =>
    exact ⟨fun depth ts hn => expression_window depth ts ih (Nat.le_of_lt_succ hn),
      fun depth ts hn => block_window depth ts ih (Nat.le_of_lt_succ hn)⟩

theorem uniform_window (mark : Span) :
    Window 1 0 (fun stop us => (uniform stop mark us).outcome) ts := by
  refine .congr (fun stop us => (outcome_uniform stop us mark).trans (andThen_typedName ..)) ?_
  refine (typedName_window ts).closed_andThen 1 fun {stop p r} _ => ?_
  by_cases htemplate : p.1.base.isTemplate
  · simp only [htemplate, if_true]
    exact .stuck _ r
  · simp only [htemplate]
    exact (initializer_window maxDepth r (windowsBelow r.length) (Nat.le_refl _)).closed_map

theorem directive_window (mark : Span) :
    Window 1 0 (fun stop us => (directive stop mark us).outcome) ts := by
  refine .congr (fun stop us => outcome_directive stop us mark) ?_
  exact (takeName_window ts).closed_andThen 1 fun {stop name r₁} _ =>
    (take_window r₁ _ _).closed_andThen 1 fun {stop t r₂} _ =>
      (take_window r₂ _ _).closed_andThen 1 fun {stop value r₃} _ => (take_window r₃ _ _).closed_map

def drawArguments (stop : Span) (ts : List Token) : Outcome (List Expr) :=
  (take stop .leftParen "'('" ts).outcome.andThen fun _ ts₁ => (arguments stop maxDepth ts₁).outcome

theorem drawArguments_window : Window 1 0 drawArguments ts :=
  (take_window ts _ _).closed_andThen 1 fun {_ _ r} _ =>
    arguments_window maxDepth r (windowsBelow (r.length + 1)) (Nat.lt_succ_self _)

theorem outcome_drawCall_eq (stop : Span) (command : DrawCommand) (mark : Span) (ts : List Token) :
    (drawCall stop command mark ts).outcome =
      (drawArguments stop ts).andThen fun es ts₁ =>
        .ok (.draw command es mark, skip .semicolon ts₁) := by
  rw [outcome_drawCall, drawArguments]
  match (take stop .leftParen "'('" ts).outcome with
  | .error _ => rfl
  | .ok _ => rfl

theorem topLevel_window {t : Token} (ht : t.kind ≠ .draw) :
    Window 1 0 (fun stop us => (topLevel stop us).outcome) (t :: ts) := by
  refine .congr outcome_topLevel ?_
  have hdeclaration := declaration_window maxDepth (t :: ts) (windowsBelow (t :: ts).length)
    (Nat.le_refl _)
  obtain ⟨kind, text, span⟩ := t
  have hrefused : Window (α := Statement) 1 0 (fun stop us => .error
      (refused stop "expected a declaration, directive or draw call" us)) (⟨kind, text, span⟩ :: ts) :=
    .refused _ _
  cases kind
  case keyword k =>
    cases k
    case uniform => exact (uniform_window ts span).of_tail fun _ _ => rfl
    all_goals exact hrefused.of_cons (Nat.le_refl 1) fun _ _ => rfl
  case type =>
    refine .of_cons (hdeclaration.closed_andThen 0 fun {stop s r} _ => ?_) (Nat.le_refl 1)
      fun _ _ => rfl
    cases misuse? s with
    | some e => exact .stuck e r
    | none => exact .pure s r
  case dollar => exact (directive_window ts span).of_tail fun _ _ => rfl
  case draw => exact absurd rfl ht
  all_goals exact hrefused.of_cons (Nat.le_refl 1) fun _ _ => rfl

end DrawScript.Parser
