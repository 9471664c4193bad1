import SchemaBound.Program.Basic
import SchemaBound.Instance.Edit

/-! Running programs of writes. -/
namespace SchemaBound

/-- Saved instances, the latest first. They outlive the failure of a step. -/
abbrev Saved := List (String × Instance)

namespace Input

def forModel (m : Model) (saved : Saved) : Input → Except Error FieldValue
  | .given value => value
  | .saved name => match saved.lookup name with
    | some kept => .ok kept.toFieldValue
    | none => .error .nothingThere
  | .field name => match m.get? name with
    | some value => .ok value
    | none => .error .nothingThere
  | .element _ => .error .nothingThere

def forSequence (s : Sequence) (saved : Saved) : Input → Except Error Element
  | .given (.ok (.plain v)) => .ok (.plain v)
  | .given (.ok (.model m)) => .ok (.model m)
  | .given (.ok (.sequence _)) => .error .nothingThere
  | .given (.error e) => .error e
  | .saved name => match saved.lookup name with
    | some (.model m) => .ok (.model m)
    | _ => .error .nothingThere
  | .field _ => .error .nothingThere
  | .element i => match s.get? i with
    | some e => .ok e
    | none => .error .nothingThere

end Input

def Saved.model (saved : Saved) (name : String) : Except Error Model :=
  match saved.lookup name with
  | some (.model m) => .ok m
  | _ => .error .nothingThere

def Saved.sequence (saved : Saved) (name : String) : Except Error Sequence :=
  match saved.lookup name with
  | some (.sequence s) => .ok s
  | _ => .error .nothingThere

/-- What a step yields: an answer with the instance after it, or an error; and the saved instances. -/
abbrev Outcome (α β : Type) := Except Error (α × β) × Saved

def Outcome.of {β : Type} (saved : Saved) (answer : β → Answer) (result : Except Error β) :
    Outcome Answer β :=
  (result.map fun after => (answer after, after), saved)

mutual
/-- Runs a step on a model. A failure yields no instance, so the model stays as it was. -/
def ModelStep.run [Memory] : ModelStep → Model → Saved → Outcome Answer Model
  | .set name input, m, saved =>
    .of saved (fun _ => .done) (do m.set name (← input.forModel m saved))
  | .replace name input, m, saved =>
    .of saved (fun _ => .done) (do m.replace name (← input.forModel m saved))
  | .unset name, m, saved => .of saved (fun _ => .done) (m.unset name)
  | .setData data, m, saved => .of saved (fun after => .count after.size) (m.setData data)
  | .updateData data, m, saved => .of saved (fun after => .count after.size) (m.updateData data)
  | .setPointer pointer v, m, saved => .of saved (fun _ => .done) (m.setPointer pointer v)
  | .unsetPointer pointer, m, saved => .of saved (fun _ => .done) (m.unsetPointer pointer)
  | .validate candidate, m, saved => ((m.validate candidate).map fun _ => (.done, m), saved)
  | .integers, m, saved =>
    match m.integers? with
    | some fields => (.ok (.integers fields, m), saved)
    | none => (.error .typeMismatch, saved)
  | .look, m, saved => (.ok (.done, m), saved)
  | .clear, m, saved => (.ok (.done, m.type.empty), saved)
  | .save name, m, saved => (.ok (.done, m), (name, .model m) :: saved)
  | .restore name, _, saved => .of saved (fun _ => .done) (saved.model name)
  | .compare name, m, saved =>
    ((saved.model name).map fun other =>
      (.comparison (m.identical other) (m.type.same other.type), m), saved)
  | .withModel name body, m, saved =>
    match m.model? name with
    | none => (m.withModel name fun nested => .ok (.done, nested), saved)
    | some nested =>
      let (outcome, saved) := runModel body nested saved
      (m.withModel name fun _ => outcome.map fun (entries, after) => (.nested entries, after), saved)
  | .withSequence name body, m, saved =>
    match m.sequence? name with
    | none => (m.withSequence name fun nested => .ok (.done, nested), saved)
    | some nested =>
      let (outcome, saved) := runSequence body nested saved
      (m.withSequence name fun _ => outcome.map fun (entries, after) => (.nested entries, after), saved)
  | .attempt step, m, saved =>
    match step.run m saved with
    | (.ok result, saved) => (.ok result, saved)
    | (.error e, saved) => (.ok (.caught e, m), saved)

/-- Runs steps on a model, each on what the one before left, up to the first failure. -/
def runModel [Memory] : List ModelStep → Model → Saved → Outcome (List Entry) Model
  | [], m, saved => (.ok ([], m), saved)
  | step :: rest, m, saved =>
    match step.run m saved with
    | (.error e, saved) => (.error e, saved)
    | (.ok (answer, after), saved) =>
      let (outcome, saved) := runModel rest after saved
      (outcome.map fun (entries, last) => (⟨answer, .model after⟩ :: entries, last), saved)

/-- Runs a step on a sequence. A failure yields no instance, so the sequence stays as it was. -/
def SequenceStep.run [Memory] : SequenceStep → Sequence → Saved → Outcome Answer Sequence
  | .append input, s, saved =>
    .of saved (fun after => .count after.size) (do s.append (← input.forSequence s saved))
  | .push inputs, s, saved =>
    .of saved (fun after => .count after.size) (do s.push (← inputs.mapM (Input.forSequence s saved)))
  | .prepend inputs, s, saved =>
    .of saved (fun after => .count after.size) (do s.prepend (← inputs.mapM (Input.forSequence s saved)))
  | .removeLast, s, saved => (s.removeLast.map fun (e, after) => (.removed e, after), saved)
  | .removeFirst, s, saved => (s.removeFirst.map fun (e, after) => (.removed e, after), saved)
  | .setAt i input, s, saved =>
    .of saved (fun _ => .done) (do s.setAt i (← input.forSequence s saved))
  | .spliceAt start count inputs, s, saved =>
    ((do s.spliceAt start count (← inputs.mapM (Input.forSequence s saved))).map
      fun (elements, after) => (.removedAll elements, after), saved)
  | .look, s, saved => (.ok (.done, s), saved)
  | .clear, s, saved => (.ok (.done, s.type.empty), saved)
  | .save name, s, saved => (.ok (.done, s), (name, .sequence s) :: saved)
  | .restore name, _, saved => .of saved (fun _ => .done) (saved.sequence name)
  | .compare name, s, saved =>
    ((saved.sequence name).map fun other =>
      (.comparison (s.identical other) (s.type.same other.type), s), saved)
  | .updateAt i body, s, saved =>
    match s.get? i with
    | some (.model nested) =>
      let (outcome, saved) := runModel body nested saved
      (s.updateAt i fun _ => outcome.map fun (entries, after) => (.nested entries, after), saved)
    | _ => (s.updateAt i fun nested => .ok (.done, nested), saved)
  | .attempt step, s, saved =>
    match step.run s saved with
    | (.ok result, saved) => (.ok result, saved)
    | (.error e, saved) => (.ok (.caught e, s), saved)

/-- Runs steps on a sequence, each on what the one before left, up to the first failure. -/
def runSequence [Memory] : List SequenceStep → Sequence → Saved → Outcome (List Entry) Sequence
  | [], s, saved => (.ok ([], s), saved)
  | step :: rest, s, saved =>
    match step.run s saved with
    | (.error e, saved) => (.error e, saved)
    | (.ok (answer, after), saved) =>
      let (outcome, saved) := runSequence rest after saved
      (outcome.map fun (entries, last) => (⟨answer, .sequence after⟩ :: entries, last), saved)
end

/-- The log of a program on a model in which every failing step is passed over. -/
def Model.log [Memory] (m : Model) (steps : List ModelStep) : List Entry :=
  match (runModel (steps.map .attempt) m []).1 with
  | .ok (entries, _) => entries
  | .error _ => []

/-- The log of a program on a sequence in which every failing step is passed over. -/
def Sequence.log [Memory] (s : Sequence) (steps : List SequenceStep) : List Entry :=
  match (runSequence (steps.map .attempt) s []).1 with
  | .ok (entries, _) => entries
  | .error _ => []

end SchemaBound
