import SchemaBound.Options
import SchemaBound.Toml.Parser

/-! Settings of the program. -/
namespace SchemaBound

/-- How log events are written. -/
inductive LogFormat where
  | pretty
  | json
deriving DecidableEq

/-- What a settings file sets; unknown keys do not matter. -/
structure Settings where
  options : Options
  logFormat : LogFormat
  logFilter : Option String
deriving DecidableEq

namespace Settings

def default : Settings := ⟨Options.strict, .pretty, none⟩

def formatOfName? : String → Option LogFormat
  | "pretty" => some .pretty
  | "json" => some .json
  | _ => none

def flag? : Option Toml → Option Bool
  | none => some false
  | some (.flag b) => some b
  | some _ => none

/-- A log format, pretty when absent. Its name may also be the one key of a table that holds nothing under
it. -/
def format? : Option Toml → Option LogFormat
  | none => some .pretty
  | some (.str name) | some (.table _ [(name, .table _ [])]) | some (.table _ [(name, .list [])]) =>
    formatOfName? name
  | some _ => none

def text? : Option Toml → Option (Option String)
  | none => some none
  | some (.str s) => some (some s)
  | some _ => none

/-- The first and the second setting of a group: by name in a table, by position in a list, which may be
written as tables one after another. -/
def group? (first second : String) : Option Toml → Option (Option Toml × Option Toml)
  | none => some (none, none)
  | some (.table _ members) => some (members.lookup first, members.lookup second)
  | some (.list items) => some (items[0]?, items[1]?)
  | some (.tables items) => some (items[0]?.map (.table .header), items[1]?.map (.table .header))
  | some _ => none

def ofMembers? (members : Toml.Members) : Option Settings := do
  let (coerce, allowMissing) ← group? "coerce" "partial" (members.lookup "validation")
  let (format, filter) ← group? "format" "filter" (members.lookup "logging")
  return ⟨⟨← flag? coerce, ← flag? allowMissing⟩, ← format? format, ← text? filter⟩

def parse? (content : String) : Option Settings := (Toml.parse? content).bind ofMembers?

end Settings
end SchemaBound
