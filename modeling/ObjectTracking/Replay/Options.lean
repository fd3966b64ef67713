import ObjectTracking.Camera

/-! # Options of a replay

What the command line asks for: the settings, the frames of each camera, where output goes, and the
classes to be switched for this run. -/

namespace ObjectTracking

/-- An option of the command line. Each takes a value. -/
inductive ReplayOption where
  | config
  | forward
  | downward
  | output
  | threads
  | disable
  | threshold
  deriving DecidableEq, Repr

namespace ReplayOption

def all : List ReplayOption := [config, forward, downward, output, threads, disable, threshold]

/-- The name after two dashes. -/
def name : ReplayOption → String
  | config => "config"
  | forward => "forward"
  | downward => "downward"
  | output => "output"
  | threads => "threads"
  | disable => "disable"
  | threshold => "threshold"

/-- The letter after one dash, for options that have one. -/
def letter? : ReplayOption → Option Char
  | config => some 'c'
  | output => some 'o'
  | _ => none

/-- An option as it stands in an argument, with its value if that stands there too: the value
follows an equals sign, or for a letter also the letter itself. -/
def ofArgument? (argument : String) : Option (ReplayOption × Option String) :=
  match argument.toList with
  | '-' :: '-' :: text =>
    let name := text.takeWhile (· ≠ '=')
    (all.find? fun option => option.name.toList = name).map fun option =>
      match text.drop name.length with
      | [] => (option, none)
      | _ :: value => (option, some (String.ofList value))
  | '-' :: letter :: text =>
    (all.find? fun option => option.letter? = some letter).map fun option =>
      match text with
      | [] => (option, none)
      | '=' :: value => (option, some (String.ofList value))
      | value => (option, some (String.ofList value))
  | _ => none

end ReplayOption

/-- Why a command line is not understood. -/
inductive OptionsFault where
  | unexpected (argument : String)
  | missingValue (option : ReplayOption)
  | repeated (option : ReplayOption)
  | missing (option : ReplayOption)
  | notANumber (option : ReplayOption) (value : String)
  | noFrames
  deriving DecidableEq, Repr

namespace OptionsFault

def message : OptionsFault → String
  | unexpected argument => "unexpected argument '" ++ argument ++ "' found"
  | missingValue option => "a value is required for '--" ++ option.name ++ "' but none was supplied"
  | repeated option => "the argument '--" ++ option.name ++ "' cannot be used multiple times"
  | missing option => "the argument '--" ++ option.name ++ "' was not provided"
  | notANumber option value => "invalid value '" ++ value ++ "' for '--" ++ option.name ++ "'"
  | noFrames => "No frame directory given; pass --forward and/or --downward"

end OptionsFault

structure ReplayOptions where
  config : String
  forward : Option String
  downward : Option String
  output : String
  /-- How many threads may be used. No answer depends on it. -/
  threads : Option Nat
  disabled : List String
  /-- Classes whose masks are written. -/
  masked : List String
  deriving DecidableEq, Repr

namespace ReplayOptions

/-- Where output goes if nothing else is asked for. -/
def usualOutput : String := "vision_out"

/-- An argument that cannot be a value because it looks like an option. -/
def looksLikeOption (argument : String) : Bool :=
  argument.startsWith "-" && argument ≠ "-"

/-- The options among the arguments, each with its value. -/
def pairs : List String → Except OptionsFault (List (ReplayOption × String))
  | [] => .ok []
  | argument :: rest =>
    match ReplayOption.ofArgument? argument, rest with
    | none, _ => .error (.unexpected argument)
    | some (option, some value), rest => (pairs rest).map ((option, value) :: ·)
    | some (option, none), [] => .error (.missingValue option)
    | some (option, none), value :: rest =>
      if looksLikeOption value then .error (.missingValue option)
      else (pairs rest).map ((option, value) :: ·)

def values (given : List (ReplayOption × String)) (option : ReplayOption) : List String :=
  (given.filter (·.1 = option)).map (·.2)

/-- The value of an option that can be given once. -/
def value? (given : List (ReplayOption × String)) (option : ReplayOption) :
    Except OptionsFault (Option String) :=
  match values given option with
  | [] => .ok none
  | [value] => .ok (some value)
  | _ => .error (.repeated option)

def ofArguments (arguments : List String) : Except OptionsFault ReplayOptions := do
  let given ← pairs arguments
  let forward ← value? given .forward
  let downward ← value? given .downward
  let output ← value? given .output
  let threads ← match ← value? given .threads with
    | none => .ok none
    | some text =>
      if text.isEmpty || !text.toList.all Char.isDigit then .error (.notANumber .threads text)
      else .ok text.toNat?
  match ← value? given .config with
  | none => .error (.missing .config)
  | some config =>
    return ⟨config, forward, downward, output.getD usualOutput, threads, values given .disable,
      values given .threshold⟩

/-- The cameras to be replayed, each with where its frames are. -/
def sources (options : ReplayOptions) : List (Camera × String) :=
  (options.forward.map fun path => (.forward, path)).toList ++
    (options.downward.map fun path => (.downward, path)).toList

end ReplayOptions

end ObjectTracking
