import SchemaBound.Blueprint.Path

/-! Programs of writes: steps on a model or a sequence, some of which run further steps on what it holds. -/
namespace SchemaBound

/-- Where the input of a write comes from. -/
inductive Input where
  /-- A value at hand, or the reason why it could not be made. -/
  | given (value : Except Error FieldValue)
  /-- A saved instance. -/
  | saved (name : String)
  /-- What a field of the model holds. -/
  | field (name : String)
  /-- An element of the sequence. -/
  | element (i : Nat)

mutual
/-- A step on a model. -/
inductive ModelStep where
  | set (name : String) (input : Input)
  | replace (name : String) (input : Input)
  | unset (name : String)
  | setData (data : Json)
  | updateData (data : Json)
  | setPointer (pointer : String) (v : Json)
  | unsetPointer (pointer : String)
  | validate (candidate : Option Json)
  /-- Reads the fields as integers. -/
  | integers
  /-- Changes nothing. -/
  | look
  | clear
  | save (name : String)
  | restore (name : String)
  | compare (name : String)
  | withModel (name : String) (body : List ModelStep)
  | withSequence (name : String) (body : List SequenceStep)
  /-- Goes on after a failure of the step. -/
  | attempt (step : ModelStep)

/-- A step on a sequence. -/
inductive SequenceStep where
  | append (input : Input)
  | push (inputs : List Input)
  | prepend (inputs : List Input)
  | removeLast
  | removeFirst
  | setAt (i : Nat) (input : Input)
  | spliceAt (start count : Nat) (inputs : List Input)
  /-- Changes nothing. -/
  | look
  | clear
  | save (name : String)
  | restore (name : String)
  | compare (name : String)
  | updateAt (i : Nat) (body : List ModelStep)
  /-- Goes on after a failure of the step. -/
  | attempt (step : SequenceStep)
end

instance : Inhabited ModelStep := ⟨.look⟩
instance : Inhabited SequenceStep := ⟨.look⟩

mutual
/-- What a step answers. -/
inductive Answer where
  | done
  | count (n : Nat)
  | integers (fields : List (String × Int))
  | removed (element : Option Element)
  | removedAll (elements : List (Option Element))
  /-- Whether two instances are equal, and whether they have the same type. -/
  | comparison (equal sameType : Bool)
  | nested (entries : List Entry)
  /-- The step failed and the program went on. -/
  | caught (e : Error)

/-- A step's answer with the instance after the step. -/
structure Entry where
  answer : Answer
  state : Instance
end

end SchemaBound
