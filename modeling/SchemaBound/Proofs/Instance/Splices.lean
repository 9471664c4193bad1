import SchemaBound.Proofs.InPlace.Refinement
import SchemaBound.Proofs.Instance.Writes

/-! Every write to a sequence is a splice: it has the same outcome, whichever way it stages the array to be checked
and counts the indices that it reports refused elements under. -/
namespace SchemaBound

namespace SequenceType

variable {type : SequenceType}

@[simp] theorem stageFrom_nil (start : Nat) : type.stageFrom start [] = .ok [] := rfl

theorem stageFrom_cons (start : Nat) (input : Element) (inputs : List Element) :
    type.stageFrom start (input :: inputs) = do
      let e ← (type.stage input).mapError (·.under (elementPointer start))
      let rest ← type.stageFrom (start + 1) inputs
      return some e :: rest := by
  rw [stageFrom, List.zipIdx_cons, List.mapM_cons]
  dsimp only
  cases (type.stage input).mapError (·.under (elementPointer start)) <;> rfl

theorem stageFrom_singleton (start : Nat) (input : Element) :
    type.stageFrom start [input] =
      ((type.stage input).mapError (·.under (elementPointer start))).map fun e => [some e] := by
  rw [stageFrom_cons, stageFrom_nil]
  cases (type.stage input).mapError (·.under (elementPointer start)) <;> rfl

/-- The first input that is refused is reported under the index that is its turn. -/
theorem stageFrom_eq_error {before : List Element} (hbefore : ∀ e ∈ before, ∃ staged, type.stage e = .ok staged)
    {input : Element} {cause : Error} (hinput : type.stage input = .error cause) (rest : List Element) (start : Nat) :
    type.stageFrom start (before ++ input :: rest) =
      .error (cause.under (elementPointer (start + before.length))) := by
  induction before generalizing start with
  | nil =>
    rw [List.nil_append, stageFrom_cons, hinput]
    rfl
  | cons e before ih =>
    obtain ⟨⟨staged, hstaged⟩, hlater⟩ := List.forall_mem_cons.mp hbefore
    have hindex : start + (e :: before).length = start + 1 + before.length := by
      rw [List.length_cons]
      omega
    rw [List.cons_append, stageFrom_cons, hstaged, ih hlater (start + 1), hindex]
    rfl

end SequenceType

namespace Sequence

/-- The array that a splice has checked: elements in the place of up to `count` ones from `start` on. -/
def spliced (s : Sequence) (start count : Nat) (inserted : List (Option Element)) : List (Option Element) :=
  s.items.take start ++ inserted ++ (s.items.drop start).drop count

variable (s : Sequence)

theorem spliceAt_eq (start count : Nat) (inputs : List Element) :
    s.spliceAt start count inputs = do
      let inserted ← s.type.stageFrom (min start s.size) inputs
      let after ← s.type.commit (s.spliced (min start s.size) count inserted)
      return ((s.items.drop (min start s.size)).take count, after) :=
  s.spliceAt_eq_removing start count inputs

/-- The elements that a splice puts in stand in their order from the start on. -/
theorem getElem?_spliced {start : Nat} (hstart : start ≤ s.size) (count : Nat) (inserted : List (Option Element))
    {k : Nat} (hk : k < inserted.length) : (s.spliced start count inserted)[start + k]? = inserted[k]? := by
  have htake : (s.items.take start).length = start := List.length_take_of_le hstart
  rw [spliced, List.append_assoc, List.getElem?_append_right (by omega), htake, Nat.add_sub_cancel_left,
    List.getElem?_append_left hk]

theorem spliced_end (inserted : List (Option Element)) : s.spliced s.size 0 inserted = s.items ++ inserted := by
  simp [spliced, size]

theorem spliced_front (inserted : List (Option Element)) : s.spliced 0 0 inserted = inserted ++ s.items := by
  simp [spliced]

theorem spliced_one {i : Nat} (hi : i < s.items.length) (item : Option Element) :
    s.spliced i 1 [item] = s.items.set i item := by
  rw [spliced, List.drop_drop, List.set_eq_take_append_cons_drop, if_pos hi, List.append_assoc]
  rfl

theorem spliced_first : s.spliced 0 1 [] = s.items.tail := by
  simp [spliced]

theorem spliced_last (hne : s.items ≠ []) : s.spliced (s.size - 1) 1 [] = s.items.dropLast := by
  have hpos := List.length_pos_of_ne_nil hne
  rw [spliced, List.drop_drop, size, Nat.sub_add_cancel hpos, List.drop_length, List.append_nil, List.append_nil,
    List.dropLast_eq_take]

theorem spliceAt_end (inputs : List Element) :
    s.spliceAt s.size 0 inputs = (s.push inputs).map fun after => ([], after) := by
  rw [spliceAt_eq, push, Nat.min_self]
  cases s.type.stageFrom s.size inputs with
  | error e => rfl
  | ok inserted =>
    simp only [bind, Except.bind, spliced_end]
    cases s.type.commit (s.items ++ inserted) <;> rfl

theorem spliceAt_front (inputs : List Element) :
    s.spliceAt 0 0 inputs = (s.prepend inputs).map fun after => ([], after) := by
  rw [spliceAt_eq, prepend, Nat.zero_min]
  cases s.type.stageFrom 0 inputs with
  | error e => rfl
  | ok inserted =>
    simp only [bind, Except.bind, spliced_front]
    cases s.type.commit (inserted ++ s.items) <;> rfl

theorem append_eq_push (input : Element) : s.append input = s.push [input] := by
  rw [append, push, SequenceType.stageFrom_singleton]
  cases (s.type.stage input).mapError (·.under (elementPointer s.size)) <;> rfl

theorem setAt_of_lt [Memory] {i : Nat} (hi : i < s.size) (input : Element) :
    s.setAt i input = (do
      let e ← (s.type.stage input).mapError (·.under (elementPointer i))
      s.type.commit (s.items.set i (some e))) := by
  have hgrown : s.items ++ List.replicate (i + 1 - s.size) none = s.items := by
    rw [Nat.sub_eq_zero_of_le hi, List.replicate_zero, List.append_nil]
  rw [setAt, if_neg (by omega), hgrown]

theorem spliceAt_one [Memory] {i : Nat} (hi : i < s.items.length) (input : Element) :
    s.spliceAt i 1 [input] = (s.setAt i input).map fun after => ([s.items[i]], after) := by
  have hremoved : (s.items.drop i).take 1 = [s.items[i]] := by
    rw [List.drop_eq_getElem_cons hi]
    rfl
  have hstart : min i s.size = i := Nat.min_eq_left (Nat.le_of_lt hi)
  rw [spliceAt_eq, setAt_of_lt s hi, hstart, hremoved, SequenceType.stageFrom_singleton]
  cases (s.type.stage input).mapError (·.under (elementPointer i)) with
  | error e => rfl
  | ok e =>
    simp only [Except.map, bind, Except.bind, spliced_one s hi]
    cases s.type.commit (s.items.set i (some e)) <;> rfl

/-- Assigning the position after the last one is adding an element. -/
theorem setAt_size [Memory] (hsize : s.size < Memory.growthLimit) (input : Element) :
    s.setAt s.size input = s.append input := by
  have hgrown (e : Element) : (s.items ++ List.replicate (s.size + 1 - s.size) none).set s.size (some e) =
      s.items ++ [some e] := by
    simp [size]
  rw [setAt, append, if_neg (by omega)]
  simp only [hgrown]

theorem spliceAt_first (hne : s.items ≠ []) :
    s.spliceAt 0 1 [] = s.removeFirst.map fun (e, after) => ([e], after) := by
  obtain ⟨e, rest, hitems⟩ := List.exists_cons_of_ne_nil hne
  have hremoved : (s.items.drop 0).take 1 = [e] := by
    rw [hitems]
    rfl
  rw [spliceAt_eq, Nat.zero_min, hremoved, SequenceType.stageFrom_nil]
  simp only [bind, Except.bind, spliced_first, removeFirst, hitems, List.tail_cons]
  cases s.type.commit rest <;> rfl

theorem spliceAt_last (hne : s.items ≠ []) :
    s.spliceAt (s.size - 1) 1 [] = s.removeLast.map fun (e, after) => ([e], after) := by
  have hpos := List.length_pos_of_ne_nil hne
  have hlast : s.items.length - 1 < s.items.length := by omega
  have hremoved : (s.items.drop (s.size - 1)).take 1 = [s.items.getLast hne] := by
    rw [List.getLast_eq_getElem, size, List.drop_eq_getElem_cons hlast]
    rfl
  have hstart : min (s.size - 1) s.size = s.size - 1 := by omega
  rw [spliceAt_eq, hstart, hremoved, SequenceType.stageFrom_nil]
  simp only [bind, Except.bind, spliced_last s hne, removeLast, List.getLast?_eq_some_getLast hne]
  cases s.type.commit s.items.dropLast <;> rfl

/-- A write, as what it yields and as a change in place. Where it yields nothing, the sequence in place stays as it
is. -/
structure Write (α : Type) where
  yields : Sequence → Except Error (α × Sequence)
  inPlace : InPlace Sequence α
  realizes : inPlace.Realizes fun s saved => (yields s, saved)

namespace Write

variable {α β : Type}

/-- A write that answers nothing. -/
def silent (yields : Sequence → Except Error Sequence) (inPlace : InPlace Sequence Unit)
    (realizes : inPlace.Realizes fun s saved => InPlace.written (yields s) saved) : Write Unit where
  yields s := (yields s).map fun after => ((), after)
  inPlace := inPlace
  realizes := realizes

def push (inputs : List Element) : Write Unit := silent (·.push inputs) _ (InPlace.realizes_push inputs)

def append (input : Element) : Write Unit := silent (·.append input) _ (InPlace.realizes_append input)

def prepend (inputs : List Element) : Write Unit := silent (·.prepend inputs) _ (InPlace.realizes_prepend inputs)

def setAt [Memory] (i : Nat) (input : Element) : Write Unit :=
    silent (·.setAt i input) _ (InPlace.realizes_setAt i input)

def removeFirst : Write (Option Element) := ⟨Sequence.removeFirst, _, InPlace.realizes_removeFirst⟩

def removeLast : Write (Option Element) := ⟨Sequence.removeLast, _, InPlace.realizes_removeLast⟩

def spliceAt (start count : Nat) (inputs : List Element) : Write (List (Option Element)) :=
  ⟨(·.spliceAt start count inputs), _, InPlace.realizes_spliceAt start count inputs⟩

/-- Two writes have the same outcome: they yield the same sequence and answers that `answer` relates, or both fail
with the same error and leave the sequence as it is. -/
structure AgreesOn (s : Sequence) (answer : α → β) (first : Write α) (second : Write β) : Prop where
  yields : second.yields s = (first.yields s).map fun (a, after) => (answer a, after)
  untouched : ∀ e, first.yields s = .error e → ∀ saved, first.inPlace.runOn s saved = ((.error e, s), saved) ∧
    second.inPlace.runOn s saved = ((.error e, s), saved)

theorem runOn_of_error (write : Write α) {s : Sequence} {e : Error} (h : write.yields s = .error e) (saved : Saved) :
    write.inPlace.runOn s saved = ((.error e, s), saved) := by
  have hrun := write.realizes s saved
  dsimp only at hrun
  rw [hrun, h]
  rfl

theorem agreesOn {s : Sequence} {answer : α → β} {first : Write α} {second : Write β}
    (h : second.yields s = (first.yields s).map fun (a, after) => (answer a, after)) :
    AgreesOn s answer first second := by
  refine ⟨h, fun e he saved => ?_⟩
  have hsecond : second.yields s = .error e := by
    rw [h, he]
    rfl
  exact ⟨first.runOn_of_error he saved, second.runOn_of_error hsecond saved⟩

/-- Two silent writes that yield the same. -/
theorem agreesOn_silent {s : Sequence} {f g : Sequence → Except Error Sequence} {opF opG : InPlace Sequence Unit}
    {hf : opF.Realizes fun s saved => InPlace.written (f s) saved}
    {hg : opG.Realizes fun s saved => InPlace.written (g s) saved} (h : g s = f s) :
    AgreesOn s id (silent f opF hf) (silent g opG hg) := by
  refine agreesOn ?_
  change (g s).map _ = ((f s).map _).map _
  rw [h]
  cases f s <;> rfl

/-- A silent write and a splice that takes some elements out. -/
theorem agreesOn_splice {s : Sequence} {f : Sequence → Except Error Sequence} {op : InPlace Sequence Unit}
    {hf : op.Realizes fun s saved => InPlace.written (f s) saved} {start count : Nat} {inputs : List Element}
    {removed : List (Option Element)}
    (h : s.spliceAt start count inputs = (f s).map fun after => (removed, after)) :
    AgreesOn s (fun _ => removed) (silent f op hf) (spliceAt start count inputs) := by
  refine agreesOn ?_
  change s.spliceAt start count inputs = ((f s).map _).map _
  rw [h]
  cases f s <;> rfl

end Write

/-- The outcome of each write is that of a splice. -/
structure WritesBySplices [Memory] : Prop where
  push : ∀ inputs, Write.AgreesOn s (fun _ => []) (.push inputs) (.spliceAt s.size 0 inputs)
  append : ∀ input, Write.AgreesOn s id (.push [input]) (.append input)
  prepend : ∀ inputs, Write.AgreesOn s (fun _ => []) (.prepend inputs) (.spliceAt 0 0 inputs)
  setAt : ∀ i input, (hi : i < s.items.length) →
    Write.AgreesOn s (fun _ => [s.items[i]]) (.setAt i input) (.spliceAt i 1 [input])
  /-- Where the memory has room for one element more. -/
  setAtEnd : ∀ input, s.size < Memory.growthLimit → Write.AgreesOn s id (.append input) (.setAt s.size input)
  removeFirst : 0 < s.size → Write.AgreesOn s (fun e => [e]) .removeFirst (.spliceAt 0 1 [])
  removeLast : 0 < s.size → Write.AgreesOn s (fun e => [e]) .removeLast (.spliceAt (s.size - 1) 1 [])

/-- The first element that fails on its own is reported under the index that it would have taken in the array to be
checked. -/
structure ReportsIndices [Memory] (before : List Element) (input : Element) (rest : List Element) (cause : Error) :
    Prop where
  push : s.push (before ++ input :: rest) = .error (cause.under (elementPointer (s.size + before.length)))
  append : s.append input = .error (cause.under (elementPointer s.size))
  prepend : s.prepend (before ++ input :: rest) = .error (cause.under (elementPointer before.length))
  setAt : ∀ i, i < s.size ∨ i < Memory.growthLimit → s.setAt i input = .error (cause.under (elementPointer i))
  spliceAt : ∀ start count, s.spliceAt start count (before ++ input :: rest) =
    .error (cause.under (elementPointer (min start s.size + before.length)))

theorem reportsIndices [Memory] {before : List Element} (hbefore : ∀ e ∈ before, ∃ staged, s.type.stage e = .ok staged)
    {input : Element} {cause : Error} (hinput : s.type.stage input = .error cause) (rest : List Element) :
    s.ReportsIndices before input rest cause where
  push := by
    rw [push, SequenceType.stageFrom_eq_error hbefore hinput]
    rfl
  append := by
    rw [append, hinput]
    rfl
  prepend := by
    rw [prepend, SequenceType.stageFrom_eq_error hbefore hinput, Nat.zero_add]
    rfl
  setAt i hi := by
    rw [setAt, if_neg (by omega), hinput]
    rfl
  spliceAt start count := by
    rw [spliceAt_eq, SequenceType.stageFrom_eq_error hbefore hinput]
    rfl

/-- Every write to a sequence is a splice, for every check of its type: the outcomes are the same, and elements that
fail on their own are reported under the indices that they would have taken. -/
theorem writes_bySplices [Memory] : s.WritesBySplices ∧
    (∀ before input rest cause, (∀ e ∈ before, ∃ staged, s.type.stage e = .ok staged) →
      s.type.stage input = .error cause → s.ReportsIndices before input rest cause) ∧
    ∀ start count inserted k, k < inserted.length →
      (s.spliced (min start s.size) count inserted)[min start s.size + k]? = inserted[k]? := by
  refine ⟨?_, fun before input rest cause hbefore hinput => s.reportsIndices hbefore hinput rest, ?_⟩
  · exact {
      push := fun inputs => Write.agreesOn_splice (s.spliceAt_end inputs)
      append := fun input => Write.agreesOn_silent (s.append_eq_push input)
      prepend := fun inputs => Write.agreesOn_splice (s.spliceAt_front inputs)
      setAt := fun i input hi => Write.agreesOn_splice (s.spliceAt_one hi input)
      setAtEnd := fun input hsize => Write.agreesOn_silent (s.setAt_size hsize input)
      removeFirst := fun hpos => Write.agreesOn (s.spliceAt_first (List.ne_nil_of_length_pos hpos))
      removeLast := fun hpos => Write.agreesOn (s.spliceAt_last (List.ne_nil_of_length_pos hpos)) }
  · intro start count inserted k hk
    exact s.getElem?_spliced (Nat.min_le_right _ _) count inserted hk

end Sequence
end SchemaBound
