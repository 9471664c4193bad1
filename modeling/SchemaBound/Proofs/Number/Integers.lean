import Mathlib.Data.List.Induction
import Mathlib.Data.Nat.Digits.Defs
import Mathlib.Tactic.Ring
import Mathlib.Tactic.SplitIfs
import SchemaBound.Number.Reading

/-! Integers in decimal: what the text of one means, and that reading it into words of 64 bits, a signed one first
and then an unsigned one, neither loses nor wraps anything. -/
namespace SchemaBound.Number

/-- What digits mean by their places, the last of which is that of the ones. -/
def placeValue (digits : List Char) : Nat := Nat.ofDigits 10 (digits.reverse.map digitValue)

/-- One or more of the ten digits of ASCII. -/
structure AreDigits (digits : List Char) : Prop where
  ne_nil : digits ≠ []
  digit : ∀ c ∈ digits, '0' ≤ c ∧ c ≤ '9'

/-- An optional sign and digits, and the integer that they mean. -/
inductive Spells : List Char → Int → Prop
  | bare {digits : List Char} : AreDigits digits → Spells digits (placeValue digits)
  | plus {digits : List Char} : AreDigits digits → Spells ('+' :: digits) (placeValue digits)
  | minus {digits : List Char} : AreDigits digits → Spells ('-' :: digits) (-placeValue digits)

theorem digitsValue_append (digits : List Char) (c : Char) :
    digitsValue (digits ++ [c]) = 10 * digitsValue digits + digitValue c := by
  rw [digitsValue, digitsValue, List.foldl_append]
  rfl

theorem digitsValue_eq_placeValue (digits : List Char) : digitsValue digits = placeValue digits := by
  induction digits using List.reverseRecOn with
  | nil => rfl
  | append_singleton digits c ih =>
    have hplace : placeValue (digits ++ [c]) = digitValue c + 10 * placeValue digits := by
      simp [placeValue, Nat.ofDigits_cons]
    rw [digitsValue_append, hplace, ih, Nat.add_comm]

theorem isDigit_iff {c : Char} : isDigit c ↔ '0' ≤ c ∧ c ≤ '9' := by
  simp [isDigit]

theorem areDigits_iff {digits : List Char} : AreDigits digits ↔ digits ≠ [] ∧ digits.all isDigit := by
  rw [List.all_eq_true]
  constructor
  · intro h
    exact ⟨h.ne_nil, fun c hc => isDigit_iff.mpr (h.digit c hc)⟩
  · intro h
    exact ⟨h.1, fun c hc => isDigit_iff.mp (h.2 c hc)⟩

theorem AreDigits.takeSign_eq {digits : List Char} (h : AreDigits digits) : takeSign digits = (false, digits) := by
  obtain ⟨c, rest, rfl⟩ := List.exists_cons_of_ne_nil h.ne_nil
  have hdigit := h.digit c List.mem_cons_self
  unfold takeSign
  split
  · rename_i heq
    obtain ⟨rfl, _⟩ := List.cons.inj heq
    exact absurd hdigit (by decide)
  · rename_i heq
    obtain ⟨rfl, _⟩ := List.cons.inj heq
    exact absurd hdigit (by decide)
  · rfl

theorem takeSign_cases (text : List Char) :
    (∃ digits, text = '-' :: digits ∧ takeSign text = (true, digits)) ∨
      (∃ digits, text = '+' :: digits ∧ takeSign text = (false, digits)) ∨ takeSign text = (false, text) := by
  unfold takeSign
  split
  · exact Or.inl ⟨_, rfl, rfl⟩
  · exact Or.inr (Or.inl ⟨_, rfl, rfl⟩)
  · exact Or.inr (Or.inr rfl)

theorem signedDigits_eq_some_iff {text : List Char} {n : Int} : signedDigits? text = some n ↔ Spells text n := by
  have hread : signedDigits? text = some n ↔ AreDigits (takeSign text).2 ∧
      (if (takeSign text).1 then -(placeValue (takeSign text).2 : Int) else placeValue (takeSign text).2) = n := by
    simp only [signedDigits?, areDigits_iff, digitsValue_eq_placeValue, Option.ite_none_right_eq_some,
      Option.some.injEq]
  rw [hread]
  constructor
  · rintro ⟨hdigits, rfl⟩
    rcases takeSign_cases text with ⟨digits, htext, hsign⟩ | ⟨digits, htext, hsign⟩ | hsign
    · rw [hsign] at hdigits ⊢
      exact htext ▸ .minus hdigits
    · rw [hsign] at hdigits ⊢
      exact htext ▸ .plus hdigits
    · rw [hsign] at hdigits ⊢
      exact .bare hdigits
  · intro h
    cases h with
    | bare hdigits =>
      rw [hdigits.takeSign_eq]
      exact ⟨hdigits, rfl⟩
    | plus hdigits => exact ⟨hdigits, rfl⟩
    | minus hdigits => exact ⟨hdigits, rfl⟩

/-- What is read is what the text means, if 64 bits with or without a sign hold it. -/
theorem ofInteger_eq_some_iff {text : List Char} {number : Number} :
    ofInteger? text = some number ↔ ∃ n, number = .int n ∧ Spells text n ∧ -2 ^ 63 ≤ n ∧ n ≤ 2 ^ 64 - 1 := by
  have hmin : minInt = -2 ^ 63 := by decide
  have hmax : maxInt = 2 ^ 64 - 1 := by decide
  rw [ofInteger?, Option.bind_eq_some_iff, hmin, hmax]
  constructor
  · rintro ⟨n, hn, hread⟩
    split_ifs at hread with hbounds
    exact ⟨n, (Option.some.inj hread).symm, signedDigits_eq_some_iff.mp hn, hbounds⟩
  · rintro ⟨n, rfl, hn, hbounds⟩
    exact ⟨n, signedDigits_eq_some_iff.mpr hn, if_pos hbounds⟩

section Words

variable (low high : Int)

/-- The integer, where the word holds it. -/
def held? (n : Int) : Option Int := if low ≤ n ∧ n ≤ high then some n else none

/-- Reads digits behind the ones that are read: ten times the word and the digit, each held by the word. -/
def intoWord? (sign : Int) : Int → List Char → Option Int
  | n, [] => some n
  | n, c :: rest =>
    if isDigit c then do
      let tenfold ← held? low high (10 * n)
      let next ← held? low high (tenfold + sign * digitValue c)
      intoWord? sign next rest
    else none

/-- Reads an integer into a word that holds the integers from `low` to `high`. A word without negative ones takes
no minus sign. -/
def readWord? (text : List Char) : Option Int :=
  let (negative, digits) := takeSign text
  if digits = [] ∨ (negative ∧ low = 0) then none
  else intoWord? low high (if negative then -1 else 1) 0 digits

variable {low high}

theorem held_eq_some {n : Int} (h : low ≤ n ∧ n ≤ high) : held? low high n = some n := if_pos h

theorem held_eq_none {n : Int} (h : ¬ (low ≤ n ∧ n ≤ high)) : held? low high n = none := if_neg h

private theorem le_foldl (m : Nat) (digits : List Char) :
    m ≤ digits.foldl (fun n c => 10 * n + digitValue c) m := by
  induction digits generalizing m with
  | nil => exact Nat.le_refl m
  | cons c rest ih =>
    have hrest := ih (10 * m + digitValue c)
    rw [List.foldl_cons]
    omega

/-- Digits only take a number further away from zero, so the word holds every step where it holds the last one. -/
theorem intoWord_eq (hzero : low ≤ 0 ∧ 0 ≤ high) {sign : Int} (hsign : sign = 1 ∨ sign = -1) (m : Nat)
    (digits : List Char) (hm : low ≤ sign * m ∧ sign * m ≤ high) :
    intoWord? low high sign (sign * m) digits =
      if digits.all isDigit then
        held? low high (sign * (digits.foldl (fun n c => 10 * n + digitValue c) m : Nat))
      else none := by
  induction digits generalizing m with
  | nil => simp [intoWord?, held_eq_some hm]
  | cons c rest ih =>
    rw [intoWord?, List.all_cons, List.foldl_cons]
    cases hc : isDigit c with
    | false => simp
    | true =>
      have hlast := le_foldl (10 * m + digitValue c) rest
      have hnext : sign * (10 * m + digitValue c : Nat) = 10 * (sign * m) + sign * digitValue c := by
        push_cast
        ring
      by_cases hholds : low ≤ sign * (10 * m + digitValue c : Nat) ∧ sign * (10 * m + digitValue c : Nat) ≤ high
      · have htenfold : low ≤ 10 * (sign * m) ∧ 10 * (sign * m) ≤ high := by
          rcases hsign with rfl | rfl <;> omega
        have hrest := ih (10 * m + digitValue c) hholds
        rw [hnext] at hrest hholds
        simp [held_eq_some htenfold, held_eq_some hholds, hrest]
      · have hout : held? low high
            (sign * (rest.foldl (fun n c => 10 * n + digitValue c) (10 * m + digitValue c) : Nat)) = none := by
          refine held_eq_none fun h => hholds ?_
          rcases hsign with rfl | rfl <;> omega
        rw [hnext] at hholds
        have hstops (tenfold : Int) (h : held? low high (10 * (sign * m)) = some tenfold) :
            held? low high (tenfold + sign * digitValue c) = none := by
          unfold held? at h
          split_ifs at h
          obtain rfl := Option.some.inj h
          exact held_eq_none hholds
        cases htenfold : held? low high (10 * (sign * m)) with
        | none => simp [hout]
        | some tenfold => simp [hstops tenfold htenfold, hout]

theorem readWord_eq (hzero : low ≤ 0 ∧ 0 ≤ high) (text : List Char) :
    readWord? low high text =
      if (takeSign text).1 ∧ low = 0 then none else (signedDigits? text).bind (held? low high) := by
  unfold readWord? signedDigits?
  obtain ⟨negative, digits⟩ := takeSign text
  have hsign : (if negative then -1 else 1 : Int) = 1 ∨ (if negative then -1 else 1 : Int) = -1 := by
    cases negative <;> simp
  have hstart := intoWord_eq hzero hsign 0 digits (by simpa using hzero)
  have hvalue : (if negative then -(digitsValue digits : Int) else digitsValue digits) =
      (if negative then -1 else 1) * digitsValue digits := by
    cases negative <;> simp
  rw [Nat.cast_zero, Int.mul_zero] at hstart
  dsimp only
  rw [hstart, hvalue, ← digitsValue]
  by_cases hnil : digits = []
  · simp [hnil]
  · by_cases hminus : negative ∧ low = 0
    · rw [if_pos (Or.inr hminus), if_pos hminus]
    · rw [if_neg (not_or.mpr ⟨hnil, hminus⟩), if_neg hminus]
      by_cases hall : digits.all isDigit
      · have hdigits : digits ≠ [] ∧ digits.all isDigit := ⟨hnil, hall⟩
        rw [if_pos hall, if_pos hdigits, Option.bind_some]
      · have hdigits : ¬ (digits ≠ [] ∧ digits.all isDigit) := fun h => hall h.2
        rw [if_neg hall, if_neg hdigits, Option.bind_none]

/-- Reads an integer into a signed word of 64 bits and, where that does not hold it, into an unsigned one. -/
def readWords? (text : List Char) : Option Int :=
  (readWord? (-2 ^ 63) (2 ^ 63 - 1) text).or (readWord? 0 (2 ^ 64 - 1) text)

theorem ofInteger_eq_readWords (text : List Char) : ofInteger? text = (readWords? text).map .int := by
  have hmin : minInt = -2 ^ 63 := by decide
  have hmax : maxInt = 2 ^ 64 - 1 := by decide
  have hsigned : ¬ ((takeSign text).1 ∧ (-2 ^ 63 : Int) = 0) := fun h => absurd h.2 (by decide)
  rw [readWords?, readWord_eq (by decide), readWord_eq (by decide), ofInteger?, hmin, hmax, if_neg hsigned]
  cases hn : signedDigits? text with
  | none => simp
  | some n =>
    simp only [signedDigits?, Option.ite_none_right_eq_some, Option.some.injEq] at hn
    rw [Option.bind_some, Option.bind_some, Option.bind_some]
    by_cases hsmall : -2 ^ 63 ≤ n ∧ n ≤ 2 ^ 63 - 1
    · have hholds : -2 ^ 63 ≤ n ∧ n ≤ 2 ^ 64 - 1 := by omega
      rw [if_pos hholds, held_eq_some hsmall, Option.some_or, Option.map_some]
    · rw [held_eq_none hsmall, Option.none_or]
      by_cases hminus : (takeSign text).1
      · rw [if_pos hminus] at hn
        have hout : ¬ (-2 ^ 63 ≤ n ∧ n ≤ 2 ^ 64 - 1) := by omega
        rw [if_neg hout, if_pos ⟨hminus, rfl⟩, Option.map_none]
      · rw [if_neg hminus] at hn
        have hsame : (0 ≤ n ∧ n ≤ 2 ^ 64 - 1) ↔ (-2 ^ 63 ≤ n ∧ n ≤ 2 ^ 64 - 1) := by omega
        have hunsigned : ¬ ((takeSign text).1 ∧ (0 : Int) = 0) := fun h => hminus h.1
        rw [if_neg hunsigned, held?, if_congr hsame rfl rfl]
        split_ifs <;> rfl

end Words
end SchemaBound.Number
