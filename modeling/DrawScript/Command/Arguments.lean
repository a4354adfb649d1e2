/-!
The arguments of the command line. A word that starts with two dashes names an option, one dash starts
a row of one-letter options, and two dashes alone end the options. An option that takes a value takes
it from the rest of its own word or from the next word, which must not look like an option. An option
is given at most once before the name of the command and once after it, unless it is counted.
-/

namespace DrawScript

inductive OptionKind where
  | flag
  | count
  | value
  deriving DecidableEq, Repr

structure OptionSpec where
  long : String
  short : Option Char
  kind : OptionKind
  deriving DecidableEq, Repr

structure Given where
  options : List (OptionSpec × String)
  words : List String
  deriving DecidableEq, Repr

namespace Given

def empty : Given := ⟨[], []⟩

def has (g : Given) (long : String) : Bool := g.options.any fun o => o.1.long == long

def value? (g : Given) (long : String) : Option String :=
  (g.options.find? fun o => o.1.long == long).map Prod.snd

def addOption (g : Given) (spec : OptionSpec) (value : String) : Option Given :=
  if spec.kind != .count && g.has spec.long then none
  else some { g with options := g.options ++ [(spec, value)] }

def addWord (g : Given) (word : String) : Given := { g with words := g.words ++ [word] }

end Given

namespace Arguments

def looksLikeOption (word : String) : Bool :=
  match word.toList with
  | '-' :: _ :: _ => true
  | _ => false

/-- How one word with options is taken: all options are complete, or the last one waits for the next
word. -/
inductive Progress where
  | done (g : Given)
  | waiting (g : Given) (spec : OptionSpec)

def takeLong (specs : List OptionSpec) (g : Given) (cs : List Char) : Option Progress :=
  let name := String.ofList (cs.takeWhile (· != '='))
  match specs.find? fun s => s.long == name, cs.dropWhile (· != '=') with
  | none, _ => none
  | some spec, [] =>
    match spec.kind with
    | .value => some (.waiting g spec)
    | _ => (g.addOption spec "").map .done
  | some spec, _ :: value =>
    match spec.kind with
    | .value => (g.addOption spec (String.ofList value)).map .done
    | _ => none

def takeShort (specs : List OptionSpec) (g : Given) : List Char → Option Progress
  | [] => some (.done g)
  | c :: cs =>
    match specs.find? fun s => s.short == some c with
    | none => none
    | some spec =>
      match spec.kind with
      | .value =>
        match cs with
        | [] => some (.waiting g spec)
        | '=' :: value => (g.addOption spec (String.ofList value)).map .done
        | value => (g.addOption spec (String.ofList value)).map .done
      | _ => (g.addOption spec "").bind fun g => takeShort specs g cs

def takeOption (specs : List OptionSpec) (g : Given) (word : String) : Option Progress :=
  match word.toList with
  | '-' :: '-' :: cs => takeLong specs g cs
  | _ :: cs => takeShort specs g cs
  | [] => none

def takeAll (specs : List OptionSpec) (g : Given) : List String → Option Given
  | [] => some g
  | word :: words =>
    if word = "--" then some { g with words := g.words ++ words }
    else if looksLikeOption word then
      match takeOption specs g word with
      | none => none
      | some (.done g) => takeAll specs g words
      | some (.waiting g spec) =>
        match words with
        | [] => none
        | value :: words =>
          if looksLikeOption value then none
          else (g.addOption spec value).bind fun g => takeAll specs g words
    else takeAll specs (g.addWord word) words

def takeUntilWord (specs : List OptionSpec) (g : Given) :
    List String → Option (Given × String × List String)
  | [] => none
  | word :: words =>
    if word = "--" then none
    else if looksLikeOption word then
      match takeOption specs g word with
      | some (.done g) => takeUntilWord specs g words
      | _ => none
    else some (g, word, words)

end Arguments

inductive Format where
  | toml
  | json
  deriving DecidableEq, Repr

def Format.ofText? : String → Option Format
  | "toml" => some .toml
  | "json" => some .json
  | _ => none

structure Destination where
  path : Option String
  toOutput : Bool
  deriving DecidableEq, Repr

inductive Command where
  | compile (file : String) (dest : Destination)
  | data (file : String) (dest : Destination) (dumpData : Bool)
  | resolve (name : String) (types : List String) (schema : Option String)
  | instructions (schema : Option String) (format : Format)
  deriving DecidableEq, Repr

structure Invocation where
  simd : Bool
  relaxedSimd : Bool
  command : Command
  deriving DecidableEq, Repr

namespace Command

def globalOptions : List OptionSpec :=
  [⟨"simd", none, .flag⟩, ⟨"relaxed-simd", none, .flag⟩, ⟨"verbose", some 'v', .count⟩]

def outputOptions : List OptionSpec := [⟨"out", some 'o', .value⟩, ⟨"stdout", none, .flag⟩]

def schemaOption : OptionSpec := ⟨"schema", none, .value⟩

def options? : String → Option (List OptionSpec)
  | "compile" => some outputOptions
  | "data" => some (⟨"dump-data", none, .flag⟩ :: outputOptions)
  | "resolve" => some [schemaOption]
  | "instructions" => some [schemaOption, ⟨"format", none, .value⟩]
  | _ => none

def destination (g : Given) : Destination := ⟨g.value? "out", g.has "stdout"⟩

def format? (g : Given) : Option Format :=
  match g.value? "format" with
  | none => some .toml
  | some word => Format.ofText? word

def ofGiven? (name : String) (g : Given) : Option Command :=
  match name, g.words with
  | "compile", [file] => some (.compile file (destination g))
  | "data", [file] => some (.data file (destination g) (g.has "dump-data"))
  | "resolve", instruction :: types => some (.resolve instruction types (g.value? "schema"))
  | "instructions", [] => (format? g).map fun format => .instructions (g.value? "schema") format
  | _, _ => none

end Command

def Invocation.ofArguments? (arguments : List String) : Option Invocation := do
  let (before, name, words) ← Arguments.takeUntilWord Command.globalOptions Given.empty arguments
  let specs ← Command.options? name
  let after ← Arguments.takeAll (Command.globalOptions ++ specs) Given.empty words
  let command ← Command.ofGiven? name after
  return ⟨before.has "simd" || after.has "simd",
    before.has "relaxed-simd" || after.has "relaxed-simd", command⟩

end DrawScript
