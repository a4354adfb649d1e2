import DrawScript.Proofs.Script.Simulation

/-!
The machine makes progress. Every routine that starts within the tokens answers: it moves forward, its
calls descend, and its loops use up a token in every round. The parser's steps, whose loops end by the
length of the row, give the same.
-/

namespace DrawScript.Routine

variable {α : Type}

structure Progress (q : Routine α) (m : Machine) : Prop where
  /-- It answers with a value or an error. The cursor has not gone back nor past the last token, and with
  a value it has gone on, unless the routine may find nothing to read. -/
  answers : q.Answers m
  /-- Its calls are those of its plan. -/
  planned : q.run m = (q.plan m).eval
  /-- A call starts no earlier than the routine and within the tokens, and its measure is less. -/
  calls : ∀ {β : Type} {q' : Routine β} {m' : Machine}, (q.plan m).Calls q' m' →
    m'.tokens = m.tokens ∧ m.cursor ≤ m'.cursor ∧ m'.cursor ≤ m.tokens.size ∧
      Prod.Lex (· < ·) (Prod.Lex (· < ·) (· < ·)) (q'.measure m') (q.measure m)
  /-- A loop that has gone round `k` times has used up `k` tokens. So it goes round no more often than
  there are tokens, and the pass it is in counts too if it has a token to begin with. -/
  rounds : ∀ {l : Loop} {k : Nat} {q' : Routine α} {m' : Machine}, q.Rounds l m k q' m' →
    k + m'.remaining ≤ m.remaining
  /-- The parser's step on the tokens that are left gives the same. -/
  parser : (q.isOuter = true → m.depth = 0) → ∀ o,
    q.outcome m.stop m.left (m.tokens.toList.drop m.cursor) = o →
      q.run m = some (o.answer, m.movedTo o.rest)

theorem progress_of_inside (q : Routine α) (m : Machine) (hm : m.cursor ≤ m.tokens.size) :
    q.Progress m where
  answers := q.answers_of_inside m hm
  planned := q.run_eq_eval m
  calls hcall := by
    have hdesc := descends_of_calls hm hcall
    obtain ⟨htokens, hforward, hinside⟩ := hdesc.forward hm
    exact ⟨htokens, hforward, htokens ▸ hinside, hdesc.measure_lt⟩
  rounds hrounds := by
    obtain ⟨htokens, hforward, hinside⟩ := hrounds.forward hm
    rw [htokens] at hinside
    rw [Machine.remaining, Machine.remaining, htokens]
    omega
  parser hdepth o ho := ho ▸ run_eq_outcome q ⟨hm, rfl⟩ hdepth

def atCall (c : Nat) : Machine := { Machine.ofTokens (Token.tokenize "f(a,b)") with cursor := c }

theorem progress_of_inside_call :
    (atCall 2).cursor ≤ (atCall 2).tokens.size ∧ arguments.Progress (atCall 2) ∧
      arguments.Rounds .arguments (atCall 2) 2 moreArguments (atCall 5) ∧
      2 + (atCall 5).remaining ≤ (atCall 2).remaining := by
  have hinside : (atCall 2).cursor ≤ (atCall 2).tokens.size := by decide +kernel
  have hfirst : expression.run (atCall 2) = some (.ok (.name "a" false ⟨1, 3⟩), atCall 3) := by
    rw [run_eq_outcome expression ⟨hinside, rfl⟩ (fun h => by cases h)]
    cbv
  have hsecond : expression.run (atCall 4) = some (.ok (.name "b" false ⟨1, 5⟩), atCall 5) := by
    rw [run_eq_outcome expression ⟨by decide +kernel, rfl⟩ (fun h => by cases h)]
    cbv
  have hone : arguments.Rounds .arguments (atCall 2) 1 moreArguments (atCall 3) := by
    refine .again (.start rfl) ?_ rfl
    rw [plan, if_neg (by decide +kernel)]
    exact .later hfirst .here
  have htwo : arguments.Rounds .arguments (atCall 2) 2 moreArguments (atCall 5) := by
    refine .again hone ?_ rfl
    rw [plan, if_pos (by decide +kernel)]
    exact .later hsecond .here
  have hprogress := progress_of_inside arguments (atCall 2) hinside
  exact ⟨hinside, hprogress, htwo, hprogress.rounds htwo⟩

end DrawScript.Routine
