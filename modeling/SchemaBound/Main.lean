import SchemaBound.CommandLine.Run

/-! The command line program. -/
namespace SchemaBound

def faultOf : IO.Error → ReadFault
  | .noFileOrDirectory _ _ _ => .absent
  | .permissionDenied _ _ _ => .denied
  | .inappropriateType _ _ _ => .directory
  | .invalidArgument _ _ _ => .throughAFile
  | _ => .notText

/-- The files at these paths, each with its content. -/
def load (paths : List String) : IO (List (String × Except ReadFault String)) :=
  paths.mapM fun (path : String) => do
    let content ← (IO.FS.readFile path).toBaseIO
    return (path, content.mapError faultOf)

end SchemaBound

open SchemaBound in
/-- Reads the files that the arguments name and runs the program on them. -/
def main (args : List String) : IO UInt32 := do
  let paths := match Arguments.parse? args with
    | some (.run settingsFile command) =>
      let named := match command with
        | .check schema data _ _ | .apply schema data _ _ _ => [schema, data]
        | .fields schema => [schema]
      settingsFile.getD Run.defaultSettingsFile :: named
    | _ => []
  let loaded ← load paths
  let files : Files := fun path => (loaded.lookup path).getD (.error .absent)
  let ending := run files args
  IO.print ending.stdout
  IO.eprint ending.stderr
  return ending.exitCode.toUInt32
