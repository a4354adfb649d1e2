import DrawScript.Module.Basic
import DrawScript.Script.Parser

/-!
The log of a compile. A context holds options and a log that only grows. A compile logs its start,
what it has to say, and its end; an error is logged before the end. What the clock showed is left
open in the events and filled in when they are written.
-/

namespace DrawScript

inductive Severity where
  | info
  | warning
  | error
  deriving DecidableEq, Repr

def Severity.text : Severity → String
  | .info => "info"
  | .warning => "warning"
  | .error => "error"

structure Clock where
  time : String
  elapsed : String

inductive Event where
  | note (severity : Severity) (message : String)
  | started (subject : String)
  | finished (subject : String)
  | aborted (subject : String)
  deriving DecidableEq, Repr

namespace Event

def info (message : String) : Event := .note .info message

def warning (message : String) : Event := .note .warning message

def error (message : String) : Event := .note .error message

def severity : Event → Severity
  | .note severity _ => severity
  | .started _ | .finished _ | .aborted _ => .info

def message (clock : Clock) : Event → String
  | .note _ message => message
  | .started subject => s!"Started compiling {subject} at {clock.time}"
  | .finished subject => s!"Finished compiling {subject} at {clock.time} ({clock.elapsed} ms)"
  | .aborted subject => s!"Aborted compiling {subject} at {clock.time} ({clock.elapsed} ms)"

def text (clock : Clock) (e : Event) : String := s!"[{e.severity.text}] {e.message clock}"

end Event

structure Capabilities where
  simd : Bool
  relaxedSimd : Bool
  deriving DecidableEq, Repr

def Capabilities.events (c : Capabilities) : List Event :=
  [if c.simd then .info "SIMD in wasm is supported"
   else .error "SIMD in wasm is NOT supported! Check your runtime.",
   if c.relaxedSimd then .info "Relaxed SIMD in wasm is supported"
   else .info "Relaxed SIMD in wasm is NOT supported! Some things will not be available."]

structure Options where
  dumpData : Bool
  capabilities : Option Capabilities
  deriving DecidableEq, Repr

namespace Options

def closeData (options : Options) (m : Module) : List Event :=
  if m.dumpData || options.dumpData then
    let dump := m.data.dump
    .info ("Declared data (" ++ toString dump.length ++ " values):") :: dump.map .info
  else []

/-- Reads lines up to the first error. The data section is closed where the next one is entered, or
at the end. -/
def readLines (options : Options) (s : Module.State) :
    List Line → Except CompileError Module × List Event
  | [] => (.ok s.module, if s.current = .data then options.closeData s.module else [])
  | line :: lines =>
    match s.step line with
    | .error e => (.error e, [])
    | .ok s' =>
      let (result, events) := options.readLines s' lines
      if s.current = .data ∧ s'.current ≠ .data then (result, options.closeData s.module ++ events)
      else (result, events)

end Options

structure Context where
  options : Options
  log : List Event
  deriving DecidableEq, Repr

namespace Context

def new (options : Options) : Context :=
  ⟨options, match options.capabilities with
    | some c => c.events
    | none => []⟩

def append (ctx : Context) (events : List Event) : Context :=
  { ctx with log := ctx.log ++ events }

def ending {α : Type} (subject : String) : Except CompileError α → List Event
  | .ok _ => [.finished subject]
  | .error e => [.error e.message, .aborted subject]

/-- Logs a compile with the given result, between its start and its end what it had to say. -/
def run {α : Type} (ctx : Context) (subject : String) (notes : List Event)
    (result : Except CompileError α) : Except CompileError α × Context :=
  (result, ctx.append (.started subject :: notes ++ ending subject result))

def compileScript (ctx : Context) (source : String) : Except CompileError Script × Context :=
  ctx.run "SMD" [] (Script.parse source)

def compileModule (ctx : Context) (source : String) : Except CompileError Module × Context :=
  let (result, notes) := ctx.options.readLines .start (Line.ofSource source)
  ctx.run "DASM" notes result

def errors (ctx : Context) : List Event := ctx.log.filter fun e => e.severity == .error

end Context

end DrawScript
