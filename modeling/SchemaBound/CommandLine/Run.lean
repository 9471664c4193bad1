import SchemaBound.Blueprint.Compilation
import SchemaBound.CommandLine.Arguments
import SchemaBound.CommandLine.Files
import SchemaBound.CommandLine.LogFilter
import SchemaBound.Instance.Edit
import SchemaBound.Json.Parser
import SchemaBound.Json.Printer

/-! What the program does: from its arguments and files to its output. -/
namespace SchemaBound

/-- Why the program fails. -/
inductive Failure where
  | settingsUnreadable (path : String) (reason : ReadFault)
  | settingsInvalid (path : String)
  | filterInvalid
  | unreadable (path : String) (reason : ReadFault)
  | notJson (path : String)
  | error (e : Error)
  | notAnAssignment (text : String)

def Failure.message : Failure → String
  | .settingsUnreadable path reason =>
    "settings error: cannot read settings file " ++ path ++ ": " ++ reason.message
  | .settingsInvalid path => "settings error: invalid settings file " ++ path
  | .filterInvalid => "logging error: invalid log filter"
  | .unreadable path reason => "cannot read " ++ path ++ ": " ++ reason.message
  | .notJson path => path ++ " is not valid JSON"
  | .error e => e.message
  | .notAnAssignment text => "invalid --set '" ++ text ++ "': expected <pointer>=<json>"

namespace Run

/-- The settings file that is read when none is named. -/
def defaultSettingsFile : String := "schemodel.toml"

/-- The settings of a run. Only a named file has to exist. -/
def settings (files : Files) (path : Option String) : Except Failure Settings :=
  match path, files (path.getD defaultSettingsFile) with
  | none, .error reason =>
    if reason.isAbsence then .ok .default else .error (.settingsUnreadable defaultSettingsFile reason)
  | some path, .error reason => .error (.settingsUnreadable path reason)
  | path, .ok content =>
    match Settings.parse? content with
    | some settings => .ok settings
    | none => .error (.settingsInvalid (path.getD defaultSettingsFile))

/-- Refuses filters that are none. -/
def checkFilter (settings : Settings) : Except Failure Unit :=
  if (settings.logFilter.map LogFilter.isValid).getD true then .ok () else .error .filterInvalid

def readJson (files : Files) (path : String) : Except Failure Json :=
  match files path with
  | .error reason => .error (.unreadable path reason)
  | .ok content => match Json.parse? content with
    | some v => .ok v
    | none => .error (.notJson path)

private def lift {α : Type} (result : Except Error α) : Except Failure α := result.mapError .error

private def liftSchema {α : Type} (result : Except SchemaError α) : Except Failure α :=
  result.mapError fun e => .error (.schema e)

def readSchema (files : Files) (path : String) : Except Failure Schema := do
  liftSchema (Schema.parse (← readJson files path))

def printed (v : Json) : String := v.pretty ++ "\n"

/-- Checks data against a schema for objects, or for arrays, where other data counts as one item. -/
def check (files : Files) (schemaPath dataPath : String) (options : Options) : Except Failure String := do
  let schema ← readSchema files schemaPath
  let data ← readJson files dataPath
  match schema.compileModel 0 Engine.draft7 options with
  | .ok type => return printed (← lift (type.empty.setData data)).toJson
  | .error (.unexpectedRoot _ .array) =>
    let type ← liftSchema (schema.compileSequence 0 Engine.draft7 options)
    return printed (← lift (type.create (data.items?.getD [data]))).toJson
  | .error e => throw (.error (.schema e))

/-- Splits an assignment at its first equals sign. What is no JSON stands for itself as a text. -/
def parseAssignment (text : String) : Except Failure (String × Json) :=
  match Text.cut? '=' text.toList with
  | none => .error (.notAnAssignment text)
  | some (pointer, value) =>
    let value := String.ofList value
    .ok (String.ofList pointer, (Json.parse? value).getD (.str value))

def apply [Memory] (files : Files) (schemaPath dataPath : String) (assignments : List String) (options : Options) :
    Except Failure String := do
  let schema ← readSchema files schemaPath
  let type ← liftSchema (schema.compileModel 0 Engine.draft7 options)
  let start ← lift (type.empty.setData (← readJson files dataPath))
  let last ← assignments.foldlM (fun m text => do
    let (pointer, v) ← parseAssignment text
    lift (m.setPointer pointer v)) start
  return printed last.toJson

/-- A line of a listing; each level of nesting moves it by two blanks. -/
private def line (depth : Nat) (text : String) : String :=
  String.ofList (List.replicate (2 * depth) ' ') ++ text ++ "\n"

mutual
/-- The declared fields of a type, a line each, with those of nested types under them. -/
def listType (depth : Nat) : ModelType → String
  | ⟨_, _, fields, _, _⟩ => listFields depth fields

def listFields (depth : Nat) : List Field → String
  | [] => ""
  | ⟨name, _, kind⟩ :: rest => listKind depth name kind ++ listFields depth rest

/-- The line of a field says what it holds; the fields of a nested type follow. -/
def listKind (depth : Nat) (name : String) : FieldKind → String
  | .scalar => line depth name
  | .union => line depth (name ++ " (union)")
  | .object type =>
    line depth (name ++ " (model " ++ type.id.pointer ++ ")") ++ listType (depth + 1) type
  | .array ⟨_, element, _, _⟩ => listElement depth name element

/-- The line of an array says what its elements are. -/
def listElement (depth : Nat) (name : String) : Option ModelType → String
  | some type =>
    line depth (name ++ "[] (model " ++ type.id.pointer ++ ")") ++ listType (depth + 1) type
  | none => line depth (name ++ "[]")
end

def fields (files : Files) (schemaPath : String) : Except Failure String := do
  let schema ← readSchema files schemaPath
  return listType 0 (← liftSchema (schema.compileModel 0 Engine.draft7 Options.strict))

/-- The options of a command: its switches outdo the settings. -/
def optionsFrom (settings : Settings) (coerce allowMissing : Switch) : Options :=
  ⟨coerce.apply settings.options.coerce, allowMissing.apply settings.options.allowMissing⟩

def command [Memory] (files : Files) (settings : Settings) : Command → Except Failure String
  | .check schema data coerce allowMissing =>
    check files schema data (optionsFrom settings coerce allowMissing)
  | .apply schema data assignments coerce allowMissing =>
    apply files schema data assignments (optionsFrom settings coerce allowMissing)
  | .fields schema => fields files schema

end Run

/-- How a run of the program ends. -/
structure Ending where
  exitCode : Nat
  stdout : String
  stderr : String
deriving DecidableEq

namespace Ending

def usage : String :=
  "Usage: schemodel [--config FILE] [--log-format pretty|json] COMMAND\n\n" ++
  "  check --schema FILE --data FILE [--coerce|--no-coerce] [--partial|--no-partial]\n" ++
  "  apply --schema FILE --data FILE [--set POINTER=JSON]...\n" ++
  "    [--coerce|--no-coerce] [--partial|--no-partial]\n" ++
  "  fields --schema FILE\n"

def version : String := "schemodel 0.1.0\n"

/-- The ending for arguments that are not understood. -/
def misused : Ending := ⟨2, "", usage⟩

/-- The ending of a run. -/
def ofResult : Except Failure String → Ending
  | .ok output => ⟨0, output, ""⟩
  | .error failure => ⟨1, "", "error: " ++ failure.message ++ "\n"⟩

end Ending

def run [Memory] (files : Files) (args : List String) : Ending :=
  match Arguments.parse? args with
  | none => .misused
  | some .help => ⟨0, Ending.usage, ""⟩
  | some .version => ⟨0, Ending.version, ""⟩
  | some (.run settingsFile command) => .ofResult do
    let settings ← Run.settings files settingsFile
    Run.checkFilter settings
    Run.command files settings command

end SchemaBound
