import DrawScript.Proofs.Script.Simulation

/-!
Reading several times from one machine. Expressions and scripts are read one after the other from the
same tokens, and any of the readings may fail. Between two readings the machine remembers nothing but
how far it is: no expression is open, and the next reading gives what it gives on a new machine over
the tokens that are left. The parser that works on lists of tokens gives the same.
-/

namespace DrawScript

open DrawScript.Parser (Outcome maxDepth)

inductive Reading where
  | expression
  | script

abbrev Reading.Tree : Reading → Type
  | .expression => Expr
  | .script => Script

def Reader.read (r : Reader) (q : Reading) : Except CompileError q.Tree × Reader :=
  match q with
  | .expression => r.expression
  | .script => r.script

def Reader.readAll (r : Reader) : List Reading → Reader
  | [] => r
  | q :: qs => (r.read q).2.readAll qs

namespace Machine

def read (m : Machine) (q : Reading) : Answer q.Tree :=
  match q with
  | .expression => m.expression
  | .script => m.script.map fun p => (p.1.map Script.mk, p.2)

def readAll (m : Machine) : List Reading → Option Machine
  | [] => some m
  | q :: qs => (m.read q).bind fun p => p.2.readAll qs

/-- The machine over `ts` between two readings: `c` tokens are passed, and no expression is open. -/
def between (ts : List Token) (c : Nat) (filler : Token) : Machine :=
  { ofTokens ts with cursor := c, depth := 0, filler := filler }

end Machine

def Reading.outcome (q : Reading) (stop : Span) (ts : List Token) : Outcome q.Tree :=
  match q with
  | .expression => (Parser.expression stop maxDepth ts).outcome
  | .script => (Parser.scriptOutcome stop ts).andThen fun body r => .ok (⟨body⟩, r)

theorem Reader.read_eq (r : Reader) (q : Reading) :
    r.read q = ((q.outcome r.stop r.rest).answer, { r with rest := (q.outcome r.stop r.rest).rest }) := by
  cases q with
  | expression =>
    rw [Reader.read, Reader.expression, Reading.outcome]
    cases Parser.expression r.stop maxDepth r.rest <;> rfl
  | script =>
    rw [Reader.read, Reader.script, Reading.outcome, Parser.scriptOutcome]
    cases Parser.script r.stop r.rest <;> rfl

theorem Reader.stop_ofTokens_drop {ts : List Token} {c : Nat} (hc : c < ts.length) :
    (Reader.ofTokens (ts.drop c)).stop = (Reader.ofTokens ts).stop := by
  rw [Reader.ofTokens, Reader.ofTokens, List.getLast?_drop, if_neg (Nat.not_le.mpr hc)]
  cases ts.getLast? <;> rfl

namespace Machine

variable {m : Machine} {ts : List Token} {c : Nat}

theorem read_follows (h : m.At ts) (hdepth : m.depth = 0) (q : Reading) {o : Outcome q.Tree}
    (ho : q.outcome m.stop ts = o) : m.read q = some (o.answer, m.movedTo o.rest) ∧ o.rest <:+ ts := by
  subst ho
  cases q with
  | expression =>
    have hinner : Routine.expression.isOuter = true → m.depth = 0 := fun _ => hdepth
    rw [Reading.outcome, ← left_eq_maxDepth hdepth]
    exact ⟨Routine.expression.run_eq_outcome h hinner, (Routine.expression.agrees m ts h hinner).suffix⟩
  | script =>
    have hsuffix := (Routine.script.agrees m ts h fun _ => hdepth).suffix
    rw [read, script, Routine.script.run_eq_outcome h fun _ => hdepth, Reading.outcome]
    rw [Routine.outcome] at hsuffix ⊢
    generalize Parser.scriptOutcome m.stop ts = o at hsuffix ⊢
    cases o with
    | ok p => exact ⟨rfl, hsuffix⟩
    | error s => exact ⟨rfl, hsuffix⟩

theorem at_between (hc : c ≤ ts.length) (filler : Token) : (between ts c filler).At (ts.drop c) :=
  ⟨hc, rfl⟩

/-- A reading of `ts` that starts after `c` tokens gives `a` and ends after `c'` tokens, on the machine
whatever is passed where no token is left, and on the lists of tokens that are left. -/
structure Passes (ts : List Token) (c : Nat) (q : Reading) (a : Except CompileError q.Tree) (c' : Nat) :
    Prop where
  forward : c ≤ c'
  inside : c' ≤ ts.length
  machine : ∀ filler, (between ts c filler).read q = some (a, between ts c' filler)
  reader : (Reader.mk (Reader.ofTokens ts).stop (ts.drop c)).read q =
    (a, ⟨(Reader.ofTokens ts).stop, ts.drop c'⟩)

theorem passes (ts : List Token) (hc : c ≤ ts.length) (q : Reading) {o : Outcome q.Tree}
    (ho : q.outcome (Reader.ofTokens ts).stop (ts.drop c) = o) :
    Passes ts c q o.answer (ts.length - o.rest.length) := by
  have hfollows filler := read_follows (at_between hc filler) rfl q ho
  have hsuffix := (hfollows (ofTokens ts).filler).2
  have hle := hsuffix.length_le
  rw [List.length_drop] at hle
  refine ⟨by omega, Nat.sub_le _ _, fun filler => (hfollows filler).1, ?_⟩
  have hrest := List.suffix_iff_eq_drop.mp (hsuffix.trans (List.drop_suffix c ts))
  rw [Reader.read_eq, ho, ← hrest]

theorem exists_passes_anew (hc : c < ts.length) (q : Reading) :
    ∃ a n, Passes ts c q a (c + n) ∧ Passes (ts.drop c) 0 q a n := by
  have hhere := passes ts (Nat.le_of_lt hc) q rfl
  have hanew := passes (ts.drop c) (Nat.zero_le _) q rfl
  rw [Reader.stop_ofTokens_drop hc, List.drop_zero, List.length_drop] at hanew
  have hforward := hhere.forward
  refine ⟨_, _, ?_, hanew⟩
  rw [Nat.sub_right_comm, Nat.add_sub_of_le hforward]
  exact hhere

theorem exists_readAll (ts : List Token) (before : List Reading) (hc : c ≤ ts.length) :
    ∃ c', c' ≤ ts.length ∧
      (∀ filler, (between ts c filler).readAll before = some (between ts c' filler)) ∧
      (Reader.mk (Reader.ofTokens ts).stop (ts.drop c)).readAll before =
        ⟨(Reader.ofTokens ts).stop, ts.drop c'⟩ := by
  induction before generalizing c with
  | nil => exact ⟨c, hc, fun _ => rfl, rfl⟩
  | cons q before ih =>
    have hq := passes ts hc q rfl
    obtain ⟨c', hc', hmachine, hreader⟩ := ih hq.inside
    refine ⟨c', hc', fun filler => ?_, ?_⟩
    · rw [readAll, hq.machine, Option.bind_some]
      exact hmachine filler
    · rw [Reader.readAll, hq.reader]
      exact hreader

/-- Whatever was read `before` from the tokens `ts`, and whatever came of it, the machine stands after
some `c` tokens with no expression open. The next reading ends, goes no further than the last token and
leaves no expression open, and a new machine over the tokens after the first `c` answers the same. -/
theorem read_anew (ts : List Token) (before : List Reading) (q : Reading) :
    ∃ c a c',
      (∀ filler, (between ts 0 filler).readAll before = some (between ts c filler)) ∧
      (Reader.ofTokens ts).readAll before = ⟨(Reader.ofTokens ts).stop, ts.drop c⟩ ∧
      Passes ts c q a c' ∧
      (c < ts.length → ∃ n, Passes (ts.drop c) 0 q a n ∧ c' = c + n) := by
  obtain ⟨c, hc, hmachine, hreader⟩ := exists_readAll ts before (Nat.zero_le _)
  have hstart : Reader.ofTokens ts = ⟨(Reader.ofTokens ts).stop, ts.drop 0⟩ :=
    congrArg (Reader.mk _) (Reader.rest_ofTokens ts)
  rw [← hstart] at hreader
  by_cases hlt : c < ts.length
  · obtain ⟨a, n, hhere, hanew⟩ := exists_passes_anew hlt q
    exact ⟨c, a, c + n, hmachine, hreader, hhere, fun _ => ⟨n, hanew, rfl⟩⟩
  · exact ⟨c, _, _, hmachine, hreader, passes ts hc q rfl, fun h => absurd h hlt⟩

theorem read_anew_after_error :
    ∃ c a n, (Token.tokenize "x+;y z").drop c =
        [⟨.semicolon, ";", ⟨1, 3⟩⟩, ⟨.text, "y", ⟨1, 4⟩⟩, ⟨.text, "z", ⟨1, 6⟩⟩] ∧
      Passes (Token.tokenize "x+;y z") c .script a (c + n) ∧
      Passes ((Token.tokenize "x+;y z").drop c) 0 .script a n := by
  obtain ⟨c, a, c', -, hreader, hhere, hanew⟩ :=
    read_anew (Token.tokenize "x+;y z") [.expression] .script
  have hrest : (Token.tokenize "x+;y z").drop c =
      [⟨.semicolon, ";", ⟨1, 3⟩⟩, ⟨.text, "y", ⟨1, 4⟩⟩, ⟨.text, "z", ⟨1, 6⟩⟩] :=
    (congrArg Reader.rest hreader).symm.trans (by cbv)
  have hlt : c < (Token.tokenize "x+;y z").length := by
    have hlength := congrArg List.length hrest
    rw [List.length_drop] at hlength
    simp only [List.length_cons, List.length_nil] at hlength
    omega
  obtain ⟨n, hpasses, rfl⟩ := hanew hlt
  exact ⟨c, a, n, hrest, hhere, hpasses⟩

end Machine

end DrawScript
