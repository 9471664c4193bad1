/-! Settings documents in TOML, and how tables in them grow. -/
namespace SchemaBound

/-- How a table came to be, which decides whether it may still grow. -/
inductive TableOrigin where
  /-- Written as a value: complete. -/
  | inline
  /-- Opened by its own header. -/
  | header
  /-- On the way to the header of a table inside. -/
  | implied
  /-- Made by dotted keys. -/
  | dotted
deriving DecidableEq

/-- A value in a settings document. Of numbers and moments only the kind is kept. -/
inductive Toml where
  | str (s : String)
  | flag (b : Bool)
  | number
  | moment
  | list (items : List Toml)
  | table (origin : TableOrigin) (members : List (String × Toml))
  /-- Tables opened one after another by headers in double brackets. -/
  | tables (items : List (List (String × Toml)))
deriving Inhabited

namespace Toml

/-- Members of a table in the order of their first mention. -/
abbrev Members := List (String × Toml)

/-- Changes the member of this name; a new member goes to the end. -/
def alter (name : String) (f : Option Toml → Option Toml) : Members → Option Members
  | [] => (f none).map fun v => [(name, v)]
  | (k, v) :: rest =>
    if k = name then (f (some v)).map fun v => (k, v) :: rest
    else (alter name f rest).map ((k, v) :: ·)

def alterLast (f : Members → Option Members) : List Members → Option (List Members)
  | [] => none
  | [last] => (f last).map fun last => [last]
  | first :: rest => (alterLast f rest).map (first :: ·)

/-- Changes the table that a path leads to. Tables on the way come into being. -/
def within (f : Members → Option Members) : List String → Members → Option Members
  | [] => f
  | key :: rest => alter key fun
    | none => (within f rest []).map (.table .implied)
    | some (.table origin members) =>
      if origin = .inline then none else (within f rest members).map (.table origin)
    | some (.tables items) => (alterLast (within f rest) items).map .tables
    | some _ => none

/-- Opens a table by its header. A table is opened once. -/
def openTable (path : List String) (name : String) : Members → Option Members :=
  within (alter name fun
    | none => some (.table .header [])
    | some (.table .implied members) => some (.table .header members)
    | some _ => none) path

/-- Opens one more table of a list of tables. -/
def openElement (path : List String) (name : String) : Members → Option Members :=
  within (alter name fun
    | none => some (.tables [[]])
    | some (.tables items) => some (.tables (items ++ [[]]))
    | some _ => none) path

/-- Adds a value under a key, which is dotted when its path is not empty. A dotted key reaches no
table that has a header, and ends in a table of dotted keys. -/
def assign (name : String) (value : Toml) : List String → Members → Option Members
  | [] => alter name fun
    | none => some value
    | some _ => none
  | key :: rest => alter key fun
    | none => (assign name value rest []).map (.table .dotted)
    | some (.table .dotted members) => (assign name value rest members).map (.table .dotted)
    | some (.table .implied members) =>
      if rest = [] then none else (assign name value rest members).map (.table .implied)
    | some (.tables items) =>
      if rest = [] then none else (alterLast (assign name value rest) items).map .tables
    | some _ => none

def get? : Toml → String → Option Toml
  | .table _ members, name => members.lookup name
  | _, _ => none

end Toml
end SchemaBound
