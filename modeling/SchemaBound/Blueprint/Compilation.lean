import SchemaBound.Blueprint.Basic
import SchemaBound.Blueprint.Elements
import SchemaBound.Schema.Basic

/-! Compiling a schema document into model and sequence types. A node is compiled once, whichever way it
is reached. -/
namespace SchemaBound

/-- What a compilation is asked to do. -/
structure Compilation where
  /-- Tells the types of this compilation from those of others. -/
  number : Nat
  document : Json
  engine : Engine
  options : Options

/-- What a compilation has done so far. -/
structure Progress where
  /-- Finished model types by pointer. -/
  models : List (String × ModelType)
  /-- Finished sequence types by pointer. -/
  sequences : List (String × SequenceType)
  /-- The nodes handed to the engine, in order, each at its pointer. -/
  handed : List Place

namespace Compilation

/-- A step of a compilation. Its progress outlives its failure. -/
abbrev Step := ExceptT SchemaError (StateM Progress)

/-- A node with the definitions of the document, where it has none of its own. -/
def attach (document : Json) : Json → Json
  | .obj members => .obj (["definitions", "$defs"].foldl (fun members key =>
      match document.get? key, members.lookup key with
      | some definitions, none => members ++ [(key, definitions)]
      | _, _ => members) members)
  | node => node

def standalone (document : Json) (place : Place) : Json :=
  if place.pointer = "#" then place.node else attach document place.node

/-- Hands a node to the engine. An objection of the engine is reported at the place of the node. -/
def hand (job : Compilation) (place : Place) : Step Validator := do
  let node := standalone job.document place
  modify fun done => { done with handed := done.handed ++ [⟨place.pointer, node⟩] }
  match job.engine node with
  | .ok validator => return validator
  | .error (.engine _ reason) => throw (.engine place.pointer reason)
  | .error e => throw e

def sequenceType (job : Compilation) (compileElement : Place → Step ModelType) (place : Place) :
    Step SequenceType := do
  match (← get).sequences.lookup place.pointer with
  | some type => return type
  | none =>
    let element ← match ← Elements.object? job.document place with
      | some object => some <$> compileElement object
      | none => pure none
    let validator ← job.hand place
    let type : SequenceType := ⟨⟨job.number, place.pointer⟩, element, validator, job.options⟩
    modify fun done => { done with sequences := (place.pointer, type) :: done.sequences }
    return type

/-- The rules for the fields of an object node. -/
def properties (place : Place) : Except SchemaError (List (String × Json)) :=
  match place.node.get? "properties" with
  | none => .ok []
  | some (.obj rules) => .ok rules
  | some _ => .error (.notASchema (place.pointer ++ "/properties") .propertiesNotAMapping)

/-- The model type of an object node. The pending pointers are those being compiled around it. -/
def modelTypeIn (job : Compilation) : (depth : Nat) → (pending : List String) → Place → Step ModelType
  | 0, _, place => throw (.cyclic place.pointer)
  | depth + 1, pending, place => do
    match (← get).models.lookup place.pointer with
    | some type => return type
    | none =>
      if place.pointer ∈ pending then throw (.cyclic place.pointer)
      let compile := modelTypeIn job depth (place.pointer :: pending)
      let fields ← (← properties place).mapM fun (name, rule) => do
        let target ← Place.resolve job.document
          ⟨place.pointer ++ "/properties/" ++ Pointer.escape name, rule⟩
        let kind ← match ← Shape.ofPlace job.document target with
          | .object => FieldKind.object <$> compile target
          | .array => FieldKind.array <$> job.sequenceType compile target
          | .union => pure .union
          | .scalar => pure .scalar
        return (⟨name, target.pointer, kind⟩ : Field)
      let validator ← job.hand place
      let title := (place.node.get? "title").bind Json.text?
      let type : ModelType := ⟨⟨job.number, place.pointer⟩, title, fields, validator, job.options⟩
      modify fun done => { done with models := (place.pointer, type) :: done.models }
      return type

/-- More than the number of pointers that places in a document have. -/
def placeBound (document : Json) : Nat := (document.size + 1) * (document.size + 1)

def modelType (job : Compilation) (place : Place) : Step ModelType :=
  modelTypeIn job (placeBound job.document) [] place

/-- The model type of a document that describes an object. -/
def rootModel (job : Compilation) : Step ModelType := do
  let place ← (Place.root job.document).resolve job.document
  match ← Shape.ofPlace job.document place with
  | .object => job.modelType place
  | found => throw (.unexpectedRoot .object found)

/-- The sequence type of a document that describes an array. -/
def rootSequence (job : Compilation) : Step SequenceType := do
  let place ← (Place.root job.document).resolve job.document
  match ← Shape.ofPlace job.document place with
  | .array => job.sequenceType job.modelType place
  | found => throw (.unexpectedRoot .array found)

/-- Runs a step from the start: its outcome, and the nodes handed to the engine. -/
def run {α : Type} (step : Step α) : Except SchemaError α × List Place :=
  let (outcome, done) := (ExceptT.run step).run ⟨[], [], []⟩
  (outcome, done.handed)

end Compilation

def Schema.compileModel (schema : Schema) (number : Nat) (engine : Engine) (options : Options) :
    Except SchemaError ModelType :=
  (Compilation.run (Compilation.rootModel ⟨number, schema.document, engine, options⟩)).1

def Schema.compileSequence (schema : Schema) (number : Nat) (engine : Engine) (options : Options) :
    Except SchemaError SequenceType :=
  (Compilation.run (Compilation.rootSequence ⟨number, schema.document, engine, options⟩)).1

end SchemaBound
