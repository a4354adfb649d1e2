import DrawScript.Proofs.Script.Readings
import DrawScript.Proofs.Script.Window

/-!
The error of a script is settled by the tokens read so far. No step looks further than at the second
token after those it has passed, which is where the mark of a list type ends, and no step goes back. So
an error that is met before the last token is the same whatever follows the next two tokens, and the
position of the end does not show in it.
-/

namespace DrawScript

namespace Parser

variable {α : Type}

theorem skip_window (kind : TokenKind) (v : α) (ts : List Token) :
    Window 0 1 (fun _ us => .ok (v, skip kind us)) ts := by
  have heq : ∀ (_ : Span) (us : List Token), (.ok (v, skip kind us) : Outcome α) =
      if nextIs kind us then .ok (v, us.tail) else .ok (v, us) := by
    intro _ us
    rw [skip_eq]
    split <;> rfl
  refine .congr heq (.ite (Nat.le_refl 1) (fun hnext => ?_) fun _ => ?_)
  · obtain ⟨t, ts, rfl, -⟩ := exists_of_nextIs hnext
    exact (Window.pure v ts).tail.mono (Nat.zero_le 1) (Nat.zero_le 1)
  · exact (Window.pure v ts).mono (Nat.le_refl 0) (Nat.zero_le 1)

theorem drawCall_window (command : DrawCommand) (mark : Span) (ts : List Token) :
    Window 1 1 (fun stop us => (drawCall stop command mark us).outcome) ts := by
  refine .congr (fun stop us => outcome_drawCall_eq stop command mark us) ?_
  exact (drawArguments_window ts).closed_andThen 0 fun {_ es r} _ =>
    skip_window .semicolon (Statement.draw command es mark) r

theorem topLevel_open_window (t : Token) (ts : List Token) :
    Window 1 1 (fun stop us => (topLevel stop us).outcome) (t :: ts) := by
  by_cases hdraw : t.kind = .draw
  · cases hcommand : DrawCommand.ofText? t.text with
    | none =>
      refine (Window.stuck (c := 0) (.expected "a draw command" t.describe t.span) ts).of_tail
        fun stop us => ?_
      rw [outcome_topLevel]
      simp only [hdraw, hcommand]
    | some command =>
      refine (drawCall_window command t.span ts).of_tail fun stop us => ?_
      rw [outcome_topLevel]
      simp only [hdraw, hcommand]
  · exact (topLevel_window ts hdraw).mono (Nat.le_refl 1) (Nat.zero_le 1)

theorem script_settled (ts : List Token) : Settled scriptOutcome ts := by
  cases ts with
  | nil =>
    intro stop s hs
    rw [scriptOutcome_nil] at hs
    cases hs
  | cons t ts =>
    by_cases hmark : t.kind = .semicolon
    · refine (script_settled ts).of_tail fun stop us => ?_
      rw [scriptOutcome_cons, nextIs_cons, if_pos (decide_eq_true hmark)]
    · have hsteps : Settled (fun stop us => (topLevel stop us).outcome.andThen fun s us₁ =>
          (scriptOutcome stop us₁).andThen fun ss us₂ => .ok (s :: ss, us₂)) (t :: ts) := by
        refine .andThen (topLevel_open_window t ts) (fun {stop s r} hs => ?_) (Nat.le_succ 1)
        have hlt := Step.lt_of_outcome hs
        exact (script_settled r).map
      refine hsteps.of_cons fun stop us => ?_
      rw [scriptOutcome_cons, nextIs_cons, if_neg (by simpa using hmark)]
termination_by ts.length
decreasing_by all_goals grind

end Parser

namespace Machine

variable {ts us : List Token} {e : CompileError} {c : Nat}

theorem scriptOutcome_of_reader
    (h : (Reader.ofTokens ts).script = (.error e, ⟨(Reader.ofTokens ts).stop, ts.drop c⟩)) :
    Parser.scriptOutcome (Reader.ofTokens ts).stop ts = .error ⟨e, ts.drop c⟩ := by
  rw [Reader.script, Reader.rest_ofTokens] at h
  rw [Parser.scriptOutcome]
  cases hscript : Parser.script (Reader.ofTokens ts).stop ts with
  | ok body =>
    rw [hscript] at h
    cases h
  | error s =>
    rw [hscript] at h
    obtain ⟨herror, hreader⟩ := Prod.mk.inj h
    obtain rfl := Except.error.inj herror
    have hrest : s.rest = ts.drop c := congrArg Reader.rest hreader
    rw [← hrest]

/-- Where reading the tokens `ts` as a script fails after `c` of them, with two or more left, every row
that starts with the same `c + 2` tokens fails with the same error after `c` tokens. -/
theorem passes_of_take_eq
    (he : (Reader.ofTokens ts).script = (.error e, ⟨(Reader.ofTokens ts).stop, ts.drop c⟩))
    (hc : c + 1 < ts.length) (hus : us.take (c + 2) = ts.take (c + 2)) :
    Passes us 0 .script (.error e) c := by
  obtain ⟨before, hts, hsame⟩ := Parser.script_settled ts _ _ (scriptOutcome_of_reader he)
  dsimp only at hts hsame
  have hbefore : before = ts.take c := by
    refine (List.append_left_inj (ts.drop c)).mp ?_
    rw [List.take_append_drop]
    exact hts.symm
  have hlength : c + 2 ≤ us.length := by
    have htake := congrArg List.length hus
    rw [List.length_take, List.length_take] at htake
    omega
  have hsplit : us = ts.take c ++ ((ts.drop c).take 2 ++ us.drop (c + 2)) := by
    rw [← List.append_assoc, ← List.take_add, ← hus, List.take_append_drop]
  have hrest : (ts.drop c).take 2 ++ us.drop (c + 2) = us.drop c := by
    conv_rhs => rw [hsplit]
    rw [List.drop_left' (List.length_take_of_le (by omega))]
  have hfails := hsame ((ts.drop c).take 2) ((ts.drop c).drop 2) (List.take_append_drop 2 _).symm
    (by rw [List.length_take, List.length_drop]; omega) (Reader.ofTokens us).stop (us.drop (c + 2))
  rw [hbefore, ← hsplit, hrest] at hfails
  have houtcome : Reading.outcome .script (Reader.ofTokens us).stop (us.drop 0) =
      .error ⟨e, us.drop c⟩ := by
    rw [List.drop_zero, Reading.outcome, hfails]
    rfl
  have hpasses := passes us (Nat.zero_le _) .script houtcome
  have hcursor : us.length - (us.drop c).length = c := by
    rw [List.length_drop]
    omega
  rw [show (Parser.Outcome.rest (.error ⟨e, us.drop c⟩ : Parser.Outcome Script)) = us.drop c from rfl,
    hcursor] at hpasses
  exact hpasses

theorem passes_of_take_eq_bracket :
    (Reader.ofTokens (Token.tokenize "float[x;")).script =
        (.error (.expected "an identifier" "'['" ⟨1, 6⟩),
          ⟨(Reader.ofTokens (Token.tokenize "float[x;")).stop, (Token.tokenize "float[x;").drop 1⟩) ∧
      Passes (Token.tokenize "float[x ) \x7b uniform") 0 .script
        (.error (.expected "an identifier" "'['" ⟨1, 6⟩)) 1 := by
  have hscript : (Reader.ofTokens (Token.tokenize "float[x;")).script =
      (.error (.expected "an identifier" "'['" ⟨1, 6⟩),
        ⟨(Reader.ofTokens (Token.tokenize "float[x;")).stop,
          (Token.tokenize "float[x;").drop 1⟩) := by cbv
  exact ⟨hscript, passes_of_take_eq hscript (by decide +kernel) (by decide +kernel)⟩

end Machine

end DrawScript
