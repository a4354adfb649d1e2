import DrawScript.Log
import DrawScript.Proofs.Module.Sections

/-!
What a compile logs, and that compiles do not disturb one another. However many modules and scripts
are compiled in one context, each gives what it gives alone in a new context, and adds to the log one
block of events that depends on its text and the options only: its start, the declared data of a module
if asked for and if the data section was closed, and its end.
-/

namespace DrawScript

inductive Call where
  | module (source : String)
  | script (source : String)

inductive Answer where
  | module (result : Except CompileError Module)
  | script (result : Except CompileError Script)

def Call.perform (ctx : Context) : Call → Answer × Context
  | .module source => ((ctx.compileModule source).map .module id)
  | .script source => ((ctx.compileScript source).map .script id)

def Context.performAll (ctx : Context) : List Call → List Answer × Context
  | [] => ([], ctx)
  | call :: calls =>
    let (answer, ctx) := call.perform ctx
    let (answers, ctx) := ctx.performAll calls
    (answer :: answers, ctx)

def Call.answer : Call → Answer
  | .module source => .module (Module.compile source)
  | .script source => .script (Script.parse source)

namespace Module

def AsksForDump (source : String) : Prop :=
  ∃ line rest, Line.counted source = line :: rest ∧ line.text.head? = some '#' ∧ line.AsksForDump

/-- Whether reading the text of a module enters a section, before it ends or fails. -/
def Enters (source : String) (s : Section) : Prop :=
  ∃ n t, State.start.run ((Line.counted source).take n) = (t, none) ∧ t.current = s

/-- Whether declared data is to be logged: it was asked for, and the data section was closed by the
next section or by the end of a text without errors. -/
def Dumps (options : Options) (source : String) : Prop :=
  (options.dumpData = true ∨ AsksForDump source) ∧
    ((∃ m, compile source = .ok m) ∧ Enters source .data ∨
      (∃ e, compile source = .error e) ∧ Enters source .functions)

end Module

inductive EndsWith {α : Type} (subject : String) : Except CompileError α → List Event → Prop
  | ok (a : α) : EndsWith subject (.ok a) [.finished subject]
  | error (e : CompileError) : EndsWith subject (.error e) [.error e.message, .aborted subject]

/-- The events that list a table: how many variables there are, and a declaration for each of them,
those of single values before the lists. -/
def Table.listing (t : Table) : List Event :=
  .info ("Declared data (" ++ toString t.size ++ " values):") ::
    (t.singlets.map (fun s => .info (Variable.singlet s.1 s.2).text) ++
      t.lists.map (fun l => .info (Variable.list l.1 l.2.1 l.2.2).text))

theorem Table.listing_eq (t : Table) :
    t.listing = .info ("Declared data (" ++ toString t.dump.length ++ " values):") ::
      t.dump.map .info := by
  have hlength : t.dump.length = t.size := by
    rw [Table.dump_eq, List.length_map, t.perm_inDumpOrder.length_eq]
    rfl
  rw [listing, hlength, dump, List.map_append, List.map_map, List.map_map]
  rfl

inductive Call.Logs (options : Options) : Call → List Event → Prop
  | script (source : String) (events : List Event)
      (hend : EndsWith "SMD" (Script.parse source) events) :
      Logs options (.script source) (.started "SMD" :: events)
  | dumping (source : String) (events : List Event) (hdump : Module.Dumps options source)
      (hend : EndsWith "DASM" (Module.compile source) events) :
      Logs options (.module source)
        (.started "DASM" :: ((Module.read source).1.module.data.listing ++ events))
  | silent (source : String) (events : List Event) (hdump : ¬ Module.Dumps options source)
      (hend : EndsWith "DASM" (Module.compile source) events) :
      Logs options (.module source) (.started "DASM" :: events)

theorem endsWith_ending {α : Type} (subject : String) (result : Except CompileError α) :
    EndsWith subject result (Context.ending subject result) := by
  cases result with
  | ok a => exact .ok a
  | error e => exact .error e

namespace Section

def rank : Section → Nat
  | .start => 0
  | .data => 1
  | .functions => 2
  | .program => 3

theorem rank_injective {s t : Section} (h : s.rank = t.rank) : s = t := by
  cases s <;> cases t <;> first | rfl | cases h

theorem ne_of_rank_lt {s t : Section} (h : s.rank < t.rank) : t ≠ s := by
  rintro rfl
  exact Nat.lt_irrefl _ h

theorem rank_of_next? {s t : Section} (h : s.next? = some t) : t.rank = s.rank + 1 := by
  cases s <;> cases h <;> rfl

end Section

namespace Module.State

variable {s t : State} {line : Line}

theorem Step.rank_current (h : Step s line t) :
    t.current.rank = s.current.rank ∨ t.current.rank = s.current.rank + 1 := by
  cases h with
  | enter cs next htext hnext => exact .inr (Section.rank_of_next? hnext)
  | direct | declare | keepFunction | keepProgram => exact .inl rfl

theorem rank_le_run (s : State) (lines : List Line) :
    s.current.rank ≤ (s.run lines).1.current.rank :=
  run_preserves (p := fun t => s.current.rank ≤ t.current.rank)
    (fun h hle => by rcases h.rank_current with h | h <;> omega) s lines le_rfl

/-- A reading that gets as far as a section has been in it, since it moves on one at a time. -/
theorem exists_take_of_rank_le {sec : Section} (lines : List Line)
    (hs : s.current.rank ≤ sec.rank) (hend : sec.rank ≤ (s.run lines).1.current.rank) :
    ∃ n t, s.run (lines.take n) = (t, none) ∧ t.current = sec := by
  induction lines generalizing s with
  | nil => exact ⟨0, s, rfl, Section.rank_injective (Nat.le_antisymm hs hend)⟩
  | cons line lines ih =>
    by_cases hcurrent : s.current = sec
    · exact ⟨0, s, rfl, hcurrent⟩
    · have hlt : s.current.rank < sec.rank :=
        Nat.lt_of_le_of_ne hs fun h => hcurrent (Section.rank_injective h)
      rw [run] at hend
      cases hstep : s.step line with
      | error e =>
        rw [hstep] at hend
        exact absurd hend (Nat.not_le.mpr hlt)
      | ok s' =>
        rw [hstep] at hend
        have hrank := (Step.of_step hstep).rank_current
        obtain ⟨n, t, hrun, ht⟩ := ih (by omega) hend
        exact ⟨n + 1, t, run_cons_eq_iff.mpr ⟨s', Step.of_step hstep, hrun⟩, ht⟩

def PastDirective (s : State) : Prop := s.directiveSeen = true ∨ s.current ≠ .start

theorem Step.pastDirective {dump : Bool} (h : Step s line t)
    (hs : s.PastDirective ∧ s.module.dumpData = dump) :
    t.PastDirective ∧ t.module.dumpData = dump := by
  obtain ⟨hpast, hdump⟩ := hs
  cases h with
  | enter cs next htext hnext =>
    have hrank : Section.start.rank < next.rank := by
      rw [Section.rank_of_next? hnext]
      exact Nat.succ_pos _
    exact ⟨.inr (Section.ne_of_rank_lt hrank), hdump⟩
  | direct hcurrent hmark hseen =>
    rcases hpast with hpast | hpast
    · rw [hseen] at hpast
      cases hpast
    · exact absurd hcurrent hpast
  | declare | keepFunction | keepProgram => exact ⟨hpast, hdump⟩

theorem dumpData_run (hs : s.PastDirective) (lines : List Line) :
    (s.run lines).1.module.dumpData = s.module.dumpData :=
  (run_preserves (p := fun t => t.PastDirective ∧ t.module.dumpData = s.module.dumpData)
    Step.pastDirective s lines ⟨hs, rfl⟩).2

theorem Step.data_of_rank (h : Step s line t) (hs : 2 ≤ s.current.rank) :
    t.module.data = s.module.data := by
  cases h with
  | declare v data hat hcurrent => exact absurd hcurrent (Section.ne_of_rank_lt hs)
  | enter | direct | keepFunction | keepProgram => rfl

theorem data_run (hs : 2 ≤ s.current.rank) (lines : List Line) :
    (s.run lines).1.module.data = s.module.data :=
  (run_preserves (p := fun t => 2 ≤ t.current.rank ∧ t.module.data = s.module.data)
    (fun h ⟨hrank, hdata⟩ =>
      ⟨by rcases h.rank_current with h | h <;> omega, (h.data_of_rank hrank).trans hdata⟩)
    s lines ⟨hs, rfl⟩).2

theorem Step.module_of_current_ne (h : Step s line t) (hne : t.current ≠ s.current) :
    t.module = s.module := by
  cases h with
  | enter => rfl
  | direct | declare | keepFunction | keepProgram => exact absurd rfl hne

def Closed (r : State × Option CompileError) : Prop :=
  r.2 = none ∧ r.1.current = .data ∨ 2 ≤ r.1.current.rank

end Module.State

namespace Options

open Module.State (Closed Step)

variable {options : Options} {m : Module} {s : Module.State}

theorem closeData_of_asked (h : options.dumpData = true ∨ m.dumpData = true) :
    options.closeData m = m.data.listing := by
  unfold closeData
  rw [if_pos (by simpa [or_comm] using h), Table.listing_eq]

theorem closeData_of_not_asked (h : ¬ (options.dumpData = true ∨ m.dumpData = true)) :
    options.closeData m = [] := by
  unfold closeData
  rw [if_neg (by simpa [or_comm] using h)]

theorem fst_readLines (options : Options) (s : Module.State) (lines : List Line) :
    (options.readLines s lines).1 = Module.outcome (s.run lines) := by
  induction lines generalizing s with
  | nil => rfl
  | cons line lines ih =>
    rw [readLines, Module.State.run]
    cases s.step line with
    | error e => rfl
    | ok s' =>
      dsimp only
      rw [apply_ite Prod.fst, ite_self]
      exact ih s'

theorem snd_readLines_of_rank (hs : 2 ≤ s.current.rank) (lines : List Line) :
    (options.readLines s lines).2 = [] := by
  have hdata : s.current ≠ .data := Section.ne_of_rank_lt hs
  induction lines generalizing s with
  | nil => rw [readLines, if_neg hdata]
  | cons line lines ih =>
    rw [readLines]
    cases hstep : s.step line with
    | error e => rfl
    | ok s' =>
      have hrank : 2 ≤ s'.current.rank := by
        rcases (Step.of_step hstep).rank_current with h | h <;> omega
      dsimp only
      rw [if_neg fun h => hdata h.1]
      exact ih hrank (Section.ne_of_rank_lt hrank)

/-- Declared data is logged once at most: where the data section ends, if that is asked for. What was
declared and asked for by then does not change any more. -/
theorem snd_readLines (options : Options) (hs : s.current.rank ≤ 1) (lines : List Line) :
    let r := s.run lines
    ((options.dumpData = true ∨ r.1.module.dumpData = true) ∧ Closed r →
      (options.readLines s lines).2 = r.1.module.data.listing) ∧
    (¬ ((options.dumpData = true ∨ r.1.module.dumpData = true) ∧ Closed r) →
      (options.readLines s lines).2 = []) := by
  induction lines generalizing s with
  | nil =>
    have hclosed : Closed (s, none) ↔ s.current = .data := by
      simp only [Closed, true_and, or_iff_left_iff_imp]
      omega
    simp only [Module.State.run, readLines, hclosed]
    constructor
    · rintro ⟨hasked, hdata⟩
      rw [if_pos hdata, closeData_of_asked hasked]
    · intro h
      split_ifs with hdata
      · exact closeData_of_not_asked fun hasked => h ⟨hasked, hdata⟩
      · rfl
  | cons line lines ih =>
    rw [Module.State.run, readLines]
    cases hstep : s.step line with
    | error e =>
      have hopen : ¬ Closed (s, some e) := by
        simp only [Closed, reduceCtorEq, false_and, false_or]
        omega
      simp [hopen]
    | ok s' =>
      have hstep := Step.of_step hstep
      by_cases hleft : s.current = .data ∧ s'.current ≠ .data
      · have hrank : 2 ≤ s'.current.rank := by
          have hne : s'.current.rank ≠ Section.data.rank :=
            fun h => hleft.2 (Section.rank_injective h)
          have hone : s.current.rank = 1 := by rw [hleft.1]; rfl
          rcases hstep.rank_current with h | h
          · exact absurd (h.trans hone) hne
          · omega
        have hmodule : s'.module = s.module :=
          hstep.module_of_current_ne (by rw [hleft.1]; exact hleft.2)
        have hpast : s'.PastDirective := .inr (Section.ne_of_rank_lt (Nat.zero_lt_of_lt hrank))
        have hclosed : Closed (s'.run lines) :=
          .inr (hrank.trans (Module.State.rank_le_run s' lines))
        simp only [if_pos hleft, snd_readLines_of_rank hrank, List.append_nil, hclosed, and_true,
          Module.State.data_run hrank, Module.State.dumpData_run hpast, hmodule]
        exact ⟨closeData_of_asked, closeData_of_not_asked⟩
      · have hrank : s'.current.rank ≤ 1 := by
          by_cases hdata : s.current = .data
          · have hdata' : s'.current = .data := not_not.mp fun h => hleft ⟨hdata, h⟩
            rw [hdata']
            rfl
          · have hne : s.current.rank ≠ Section.data.rank :=
              fun h => hdata (Section.rank_injective h)
            have hzero : s.current.rank = 0 := Nat.lt_one_iff.mp (Nat.lt_of_le_of_ne hs hne)
            rcases hstep.rank_current with h | h <;> omega
        simp only [if_neg hleft]
        exact ih hrank

end Options

namespace Module

theorem enters_iff (source : String) (s : Section) :
    Enters source s ↔ s.rank ≤ (read source).1.current.rank := by
  rw [read, Line.ofSource_eq_counted]
  constructor
  · rintro ⟨n, t, hrun, rfl⟩
    rw [← List.take_append_drop n (Line.counted source), State.run_append_of_ok hrun]
    exact State.rank_le_run t _
  · exact State.exists_take_of_rank_le _ (Nat.zero_le _)

theorem asksForDump_iff (source : String) :
    AsksForDump source ↔ (read source).1.module.dumpData = true := by
  rw [read, Line.ofSource_eq_counted, AsksForDump]
  cases Line.counted source with
  | nil => simp [State.run, State.start, empty]
  | cons line rest =>
    rw [State.run]
    by_cases hmark : line.text.head? = some '#'
    · have hstep := (State.Step.direct (s := .start) rfl hmark rfl).step_eq
      rw [hstep]
      dsimp only
      rw [State.dumpData_run (.inl rfl)]
      simp [hmark, Line.asksForDump_eq_true_iff]
    · cases hstep : State.start.step line with
      | error e => simp [hmark, State.start, empty]
      | ok s' =>
        cases State.Step.of_step hstep with
        | enter cs next htext hnext =>
          cases hnext
          dsimp only
          rw [State.dumpData_run (.inr (by simp))]
          simp [hmark, State.start, empty]
        | direct _ hmark' => exact absurd hmark' hmark
        | declare _ _ _ hcurrent | keepFunction _ hcurrent | keepProgram _ hcurrent =>
          cases hcurrent

theorem dumps_iff (options : Options) (source : String) :
    Dumps options source ↔
      (options.dumpData = true ∨ (read source).1.module.dumpData = true) ∧
        State.Closed (read source) := by
  rw [Dumps, asksForDump_iff, enters_iff, enters_iff, compile, State.Closed]
  have hdata : (read source).1.current = .data ↔ (read source).1.current.rank = 1 :=
    ⟨fun h => by rw [h]; rfl, fun h => Section.rank_injective h⟩
  rw [hdata]
  refine and_congr_right fun _ => ?_
  simp only [outcome]
  cases (read source).2 with
  | none =>
    simp only [Section.rank, Except.ok.injEq, exists_eq', true_and, reduceCtorEq, exists_false,
      false_and, or_false]
    omega
  | some e => simp [Section.rank]

end Module

theorem Context.append_append (ctx : Context) (xs ys : List Event) :
    (ctx.append xs).append ys = ctx.append (xs ++ ys) := by
  simp [Context.append]

theorem Call.perform_spec (ctx : Context) (call : Call) :
    ∃ events, call.perform ctx = (call.answer, ctx.append events) ∧
      call.Logs ctx.options events := by
  cases call with
  | script source => exact ⟨_, rfl, .script source _ (endsWith_ending "SMD" (Script.parse source))⟩
  | module source =>
    have hresult : (ctx.options.readLines .start (Line.ofSource source)).1 = Module.compile source :=
      Options.fst_readLines ..
    have hend := endsWith_ending "DASM" (Module.compile source)
    obtain ⟨hdumping, hsilent⟩ :=
      Options.snd_readLines (s := .start) ctx.options (Nat.zero_le 1) (Line.ofSource source)
    refine ⟨_, congrArg (fun result => (Answer.module result, _)) hresult, ?_⟩
    rw [hresult]
    by_cases hdump : Module.Dumps ctx.options source
    · rw [hdumping ((Module.dumps_iff _ _).mp hdump)]
      exact .dumping source _ hdump hend
    · rw [hsilent fun h => hdump ((Module.dumps_iff _ _).mpr h)]
      exact .silent source _ hdump hend

theorem Context.performAll_spec (ctx : Context) (calls : List Call) :
    ∃ blocks, ctx.performAll calls = (calls.map Call.answer, ctx.append blocks.flatten) ∧
      List.Forall₂ (Call.Logs ctx.options) calls blocks := by
  induction calls generalizing ctx with
  | nil => exact ⟨[], by simp [Context.performAll, Context.append], .nil⟩
  | cons call calls ih =>
    obtain ⟨events, hcall, hevents⟩ := call.perform_spec ctx
    obtain ⟨blocks, hcalls, hblocks⟩ := ih (ctx.append events)
    refine ⟨events :: blocks, ?_, .cons hevents hblocks⟩
    simp [Context.performAll, hcall, hcalls, Context.append_append]

end DrawScript
