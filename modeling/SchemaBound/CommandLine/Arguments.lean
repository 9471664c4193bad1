import SchemaBound.CommandLine.Settings
import SchemaBound.Text.Pieces

/-! The arguments of the program. -/
namespace SchemaBound

/-- A flag and its opposite, of which at most one is given. -/
structure Switch where
  on : Bool
  off : Bool
deriving DecidableEq

def Switch.apply (s : Switch) (setting : Bool) : Bool := s.on || (!s.off && setting)

/-- What the program is asked to do. -/
inductive Command where
  /-- Checks data and prints its canonical form. -/
  | check (schema data : String) (coerce allowMissing : Switch)
  /-- Checks data, assigns places in it one after another and prints the result. -/
  | apply (schema data : String) (assignments : List String) (coerce allowMissing : Switch)
  /-- Lists the declared fields. -/
  | fields (schema : String)
deriving DecidableEq

/-- What the arguments ask for. -/
inductive Request where
  | run (settingsFile : Option String) (command : Command)
  | help
  | version

namespace Arguments

/-- Options of the program with a value. -/
inductive Valued where
  | config
  | logFormat
  | schema
  | data
  | assignment
deriving DecidableEq

/-- Options of the program without a value. -/
inductive Flag where
  | coerce
  | noCoerce
  | allowMissing
  | noMissing
deriving DecidableEq

/-- The options that were given, in order. -/
structure Given where
  valued : List (Valued × String)
  flags : List Flag

/-- No options. -/
def Given.nothing : Given := ⟨[], []⟩

def common : List (String × Valued) := [("config", .config), ("log-format", .logFormat)]

def checkFlags : List (String × Flag) :=
  [("coerce", .coerce), ("no-coerce", .noCoerce), ("partial", .allowMissing), ("no-partial", .noMissing)]

/-- The options with values, and the flags, of a command. -/
def optionsOf : String → Option (List (String × Valued) × List (String × Flag))
  | "check" => some (common ++ [("schema", .schema), ("data", .data)], checkFlags)
  | "apply" => some (common ++ [("schema", .schema), ("data", .data), ("set", .assignment)], checkFlags)
  | "fields" => some (common ++ [("schema", .schema)], [])
  | _ => none

def takes (option : Valued) (value : String) : Bool :=
  match option with
  | .logFormat => (Settings.formatOfName? value).isSome
  | .assignment => true
  | _ => value ≠ ""

/-- The argument stands for itself and is no option. -/
def isWord (arg : String) : Bool := arg = "-" || arg.toList.head? ≠ some '-'

/-- Adds an option. All but assignments are given once. -/
def Given.add (given : Given) (option : Valued) (value : String) : Option Given :=
  if takes option value && (option = .assignment || (given.valued.lookup option).isNone) then
    some { given with valued := given.valued ++ [(option, value)] }
  else none

/-- Adds a flag, which is given once. -/
def Given.addFlag (given : Given) (flag : Flag) : Option Given :=
  if flag ∈ given.flags then none else some { given with flags := given.flags ++ [flag] }

/-- A long option: its name, and the value after an equals sign. -/
def long? (arg : String) : Option (String × Option String) :=
  match arg.toList with
  | '-' :: '-' :: name =>
    match Text.cut? '=' name with
    | some (name, value) => some (String.ofList name, some (String.ofList value))
    | none => some (String.ofList name, none)
  | _ => none

/-- A short option, whatever letters follow it. -/
def isShort (letter : Char) (arg : String) : Bool := ['-', letter].isPrefixOf arg.toList

/-- How reading a row of options ends. -/
inductive Stop where
  /-- At a word that is no option, with the words after it. -/
  | word (given : Given) (word : String) (rest : List String)
  | finished (given : Given)
  | help
  | version

/-- Reads options up to the first word that is none. -/
def options? (valued : List (String × Valued)) (flags : List (String × Flag)) (hasVersion : Bool) :
    Given → List String → Option Stop
  | given, [] => some (.finished given)
  | given, arg :: rest =>
    if isWord arg then some (.word given arg rest)
    else if isShort 'h' arg ∨ arg = "--help" then some .help
    else if hasVersion ∧ (isShort 'V' arg ∨ arg = "--version") then some .version
    else if arg = "--" then if rest = [] then some (.finished given) else none
    else do
      let (name, attached) ← long? arg
      match valued.lookup name, flags.lookup name, attached, rest with
      | some option, _, some value, rest =>
        options? valued flags hasVersion (← given.add option value) rest
      | some option, _, none, value :: rest =>
        if isWord value then options? valued flags hasVersion (← given.add option value) rest else none
      | none, some flag, none, rest => options? valued flags hasVersion (← given.addFlag flag) rest
      | _, _, _, _ => none

/-- A switch, unless both of its sides were given. -/
def switch? (given : Given) (on off : Flag) : Option Switch :=
  let switch : Switch := ⟨on ∈ given.flags, off ∈ given.flags⟩
  if switch.on && switch.off then none else some switch

def command? (name : String) (given : Given) : Option Command := do
  let schema ← given.valued.lookup .schema
  let coerce ← switch? given .coerce .noCoerce
  let allowMissing ← switch? given .allowMissing .noMissing
  match name with
  | "check" => return .check schema (← given.valued.lookup .data) coerce allowMissing
  | "apply" =>
    let assignments := given.valued.filterMap fun (option, value) =>
      if option = .assignment then some value else none
    return .apply schema (← given.valued.lookup .data) assignments coerce allowMissing
  | "fields" => return .fields schema
  | _ => failure

/-- Reads the arguments. Nothing comes back when they are not understood. An option for every command
that stands behind the command's name outdoes one before it. -/
def parse? (args : List String) : Option Request := do
  match ← options? common [] true .nothing args with
  | .help => return .help
  | .version => return .version
  | .finished _ => none
  | .word outer name rest =>
    if name = "help" then
      match rest with
      | [] => return .help
      | [topic] => if topic = "help" ∨ (optionsOf topic).isSome then return .help else none
      | _ => none
    let (valued, flags) ← optionsOf name
    match ← options? valued flags false .nothing rest with
    | .help => return .help
    | .finished given =>
      let command ← command? name given
      let settingsFile := (given.valued.lookup .config).orElse fun _ => outer.valued.lookup .config
      return .run settingsFile command
    | _ => none

end Arguments
end SchemaBound
