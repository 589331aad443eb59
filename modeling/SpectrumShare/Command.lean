import SpectrumShare.Config
import SpectrumShare.Demo.Mixer
import SpectrumShare.Document.Report
import SpectrumShare.Document.Scenario
import SpectrumShare.Double.Text
import SpectrumShare.Summary

/-! # The command line

`iap [--workers N] run --scenario FILE [--output FILE]` protects the entities of a scenario, and
`iap [--workers N] demo [--seed N] [--grants N] [--peers N]` those of a made-up one. An option is given
once, with its value behind it or behind an equals sign; the worker cap may stand on either side of
the command, and the one behind it counts. -/
namespace SpectrumShare.Command

/-- What to do. -/
inductive Task
  | run (scenario : String) (output : Option String)
  | demo (seed grants peers : Nat)
  deriving DecidableEq, Repr

structure Request where
  workers : Option Nat
  task : Task
  deriving DecidableEq, Repr

/-- Why there is nothing to do. -/
inductive Refusal
  /-- Help or the version was asked for. -/
  | help
  | usage
  deriving DecidableEq, Repr

/-- The options given so far with their values. -/
abbrev Given := List (String × String)

/-- The name of an option and its value if that stands behind an equals sign. -/
def splitOption (argument : List Char) : String × Option String :=
  let name := argument.takeWhile (· != '=')
  match argument.dropWhile (· != '=') with
  | [] => (String.ofList name, none)
  | _ :: value => (String.ofList name, some (String.ofList value))

/-- Whether an argument can be a value: it must not look like an option. -/
def isValue (argument : String) : Bool := argument.toList.head? != some '-' || argument == "-"

def isAccepted : String → String → Bool
  | "workers", value => (Text.count? value).isSome
  | "seed", value => (Text.count? value).isSome
  | "grants", value => (Text.count? value).isSome
  | "peers", value => (Text.count? value).isSome
  | _, value => !value.isEmpty

/-- Adds an option that is known, not yet given and has a sensible value. -/
def give (known : List String) (given : Given) (name value : String) : Except Refusal Given :=
  if known.contains name && (given.lookup name).isNone && isAccepted name value then
    .ok ((name, value) :: given)
  else .error .usage

/-- A flag that asks for a text, by its long and its short name. -/
abbrev Flag := String × Char

def helpFlag : Flag := ("help", 'h')

def versionFlag : Flag := ("version", 'V')

/-- An option whose value stands in the argument behind it. -/
inductive Pending
  | nothing
  /-- The value is still to come. -/
  | awaiting (name : String)
  /-- The value has come but nobody has looked at it. -/
  | unread (name value : String)
  deriving DecidableEq, Repr

/-- Looks at a pending option, as happens when another one begins and when the arguments end. -/
def settle (known : List String) (given : Given) : Pending → Except Refusal Given
  | .nothing => .ok given
  | .awaiting _ => .error .usage
  | .unread name value => give known given name value

/-- Reads options up to the first argument that is none; returns the options, the one still pending
there and the arguments from there on. -/
def options (known : List String) (flags : List Flag) :
    Given → Pending → List String → Except Refusal (Given × Pending × List String)
  | given, pending, [] => do return (← settle known given pending, .nothing, [])
  | given, .awaiting name, value :: rest =>
    if isValue value then options known flags given (.unread name value) rest else .error .usage
  | given, pending, argument :: rest =>
    match argument.toList with
    | ['-', '-'] =>
      if rest.isEmpty then do return (← settle known given pending, .nothing, [])
      else .error .usage
    | '-' :: '-' :: long =>
      if flags.any (fun flag => flag.1.toList == long) then do
        let _ ← settle known given pending
        .error .help
      else
        match splitOption long with
        | (name, some value) => do
          let given ← settle known given pending
          options known flags (← give known given name value) .nothing rest
        | (name, none) => do
          if !known.contains name then .error .usage
          let given ← settle known given pending
          options known flags given (.awaiting name) rest
    | '-' :: short :: _ =>
      if flags.any (fun flag => flag.2 == short) then do
        let _ ← settle known given pending
        .error .help
      else .error .usage
    | _ => .ok (given, pending, argument :: rest)

def count (given : Given) (name : String) : Option Nat := (given.lookup name).bind Text.count?

def task (name : String) (given : Given) : Except Refusal Task :=
  if name = "run" then
    match given.lookup "scenario" with
    | some scenario => .ok (.run scenario (given.lookup "output"))
    | none => .error .usage
  else
    .ok (.demo ((count given "seed").getD 7) ((count given "grants").getD 40)
      ((count given "peers").getD 2))

/-- The options that a command takes. -/
def taskOptions? : String → Option (List String)
  | "run" => some ["workers", "scenario", "output"]
  | "demo" => some ["workers", "seed", "grants", "peers"]
  | _ => none

/-- An option left pending before the command is looked at after it, so that a plea for help comes
first. -/
def parse (arguments : List String) : Except Refusal Request := do
  match ← options ["workers"] [helpFlag, versionFlag] [] .nothing arguments with
  | (_, _, []) => .error .usage
  | (outer, pending, name :: rest) =>
    match taskOptions? name with
    | some known =>
      match ← options known [helpFlag] [] .nothing rest with
      | (given, _, []) =>
        let task ← task name given
        let outer ← settle ["workers"] outer pending
        return ⟨(count given "workers").or (count outer "workers"), task⟩
      | _ => .error .usage
    | none =>
      if name = "help" ∧ (rest = [] ∨ rest = ["run"] ∨ rest = ["demo"] ∨ rest = ["help"]) then
        .error .help
      else .error .usage

/-- What a request comes to. -/
inductive Answer
  /-- What was being done, and why it failed if that is known. -/
  | failed (context : String) (cause : Option String)
  /-- Lines to print, and then a file to write with its text. -/
  | finished (lines : List String) (file : Option (String × String))
  deriving Repr

def haltMessage : Halt Float → String
  | .refused error => error.message
  | .brokeDown => "the interference model broke down"
  | .cutOff => "the search was cut off"

def engine (processors : Nat) (workers : Option Nat) : Engine Unit Float :=
  { Engine.standard (FreeSpace.model .standard) processors with workerCap := workers }

def runScenario (s : Scenario Float) (e : Engine Unit Float) (output : Option String) : Answer :=
  match ((s.run e).run.run ()).1 with
  | .error failure => .failed failure.context (haltMessage failure.halt)
  | .ok reports =>
    .finished (Summary.ofReports reports) (output.map fun path => (path, EntityReport.write reports))

/-- Carries out a request; `text` is what the scenario file holds if it can be read. -/
def Request.answer (request : Request) (config : Config) (processors : Nat) (text : Option String) :
    Answer :=
  let e := engine processors (config.withWorkers request.workers).workers
  match request.task with
  | .run path output =>
    match text with
    | none => .failed ("Failed to read scenario " ++ path) none
    | some text =>
      match Scenario.read? text with
      | none => .failed ("Failed to parse scenario " ++ path) none
      | some (s : Scenario Float) =>
        match s.configure e with
        | .error failure => .failed failure.context (haltMessage failure.halt)
        | .ok e => runScenario s e output
  | .demo seed grants peers =>
    let s := ((Demo.scenario Demo.Mixer.chance grants peers).run ⟨UInt64.ofNat seed⟩).1
    runScenario s e none

def writtenLine (path : String) : String := "Results written to " ++ path

def unwritable (path : String) : Answer := .failed ("Failed to write " ++ path) none

end SpectrumShare.Command
