import SchemaBound.Text.Pieces

/-! Labels of host names in ASCII: the basic characters, then where the others go, in digits of base 36. -/
namespace SchemaBound.Punycode

def digit (n : Nat) : Char := if n < 26 then Char.ofNat (97 + n) else Char.ofNat (22 + n)

def digitValue? (c : Char) : Option Nat :=
  if 'a' ≤ c ∧ c ≤ 'z' then some (c.toNat - 97)
  else if 'A' ≤ c ∧ c ≤ 'Z' then some (c.toNat - 65)
  else if '0' ≤ c ∧ c ≤ '9' then some (c.toNat - 22)
  else none

/-- The digits at place `k` below this bound end a number. -/
def threshold (bias k : Nat) : Nat := if k ≤ bias then 1 else if bias + 26 ≤ k then 26 else k - bias

theorem threshold_bounds (bias k : Nat) : 1 ≤ threshold bias k ∧ threshold bias k ≤ 26 := by
  unfold threshold
  split
  · omega
  · split <;> omega

/-- The bias that a distance leaves, by divisions until it is small. -/
def settle (delta k : Nat) : Nat :=
  if 455 < delta then settle (delta / 35) (k + 36) else k + 36 * delta / (delta + 38)
termination_by delta
decreasing_by exact Nat.div_lt_self (by omega) (by omega)

/-- The bias after a distance, when `count` characters are placed. -/
def adapt (delta count : Nat) (first : Bool) : Nat :=
  let scaled := if first then delta / 700 else delta / 2
  settle (scaled + scaled / count) 0

/-- The digits of a distance, lowest first. -/
def digits (bias k q : Nat) : List Char :=
  let t := threshold bias k
  if q < t then [digit q] else digit (t + (q - t) % (36 - t)) :: digits bias (k + 36) ((q - t) / (36 - t))
termination_by q
decreasing_by
  have := threshold_bounds bias k
  exact Nat.lt_of_le_of_lt (Nat.div_le_self _ _) (by omega)

/-- What is written so far, the distance since then, the bias, and how many characters are placed. -/
structure Progress where
  written : List Char
  delta : Nat
  bias : Nat
  count : Nat

/-- Passes one character of the label in the round that places the code point `n`. -/
def Progress.pass (basic n : Nat) (p : Progress) (c : Char) : Progress :=
  if c.toNat < n then { p with delta := p.delta + 1 }
  else if c.toNat = n then
    ⟨p.written ++ digits p.bias 36 p.delta, 0, adapt p.delta (p.count + 1) (p.count = basic), p.count + 1⟩
  else p

/-- Places all characters from the code point `n` on, in rising order; `targets` are theirs. -/
def place (label : List Char) (basic : Nat) : List Nat → Nat → Progress → Progress
  | [], _, p => p
  | target :: rest, n, p =>
    let moved := { p with delta := p.delta + (target - n) * (p.count + 1) }
    let passed := label.foldl (Progress.pass basic target) moved
    place label basic rest (target + 1) { passed with delta := passed.delta + 1 }

def encode (label : List Char) : List Char :=
  let basic := label.filter (·.toNat < 128)
  let targets := ((label.filter (128 ≤ ·.toNat)).map (·.toNat)).mergeSort.eraseDups
  let placed := place label basic.length targets 128 ⟨[], 0, 72, basic.length⟩
  basic ++ (if basic = [] then [] else ['-']) ++ placed.written

/-- One distance read from its digits, added to `i`, and the text after it. -/
def distance? (bias : Nat) : List Char → Nat → Nat → Nat → Option (Nat × List Char)
  | [], _, _, _ => none
  | c :: rest, k, weight, i =>
    match digitValue? c with
    | none => none
    | some d =>
      if d < threshold bias k then some (i + d * weight, rest)
      else distance? bias rest (k + 36) (weight * (36 - threshold bias k)) (i + d * weight)

theorem distance?_length (bias : Nat) (text : List Char) (k weight i : Nat) (r : Nat × List Char)
    (h : distance? bias text k weight i = some r) : r.2.length < text.length := by
  induction text generalizing k weight i with
  | nil => simp [distance?] at h
  | cons c rest ih =>
    rw [distance?] at h
    split at h
    · simp at h
    · split at h
      · cases h
        simp
      · have := ih _ _ _ h
        simp only [List.length_cons]
        omega

def restore? (bias n i : Nat) (placed text : List Char) : Option (List Char) :=
  if text = [] then some placed
  else
    match h : distance? bias text 36 1 i with
    | none => none
    | some (reached, rest) =>
      let count := placed.length + 1
      let target := n + reached / count
      let position := reached % count
      if target.isValidChar then
        restore? (adapt (reached - i) count (i = 0)) target (position + 1)
          (placed.insertIdx position (Char.ofNat target)) rest
      else none
termination_by text.length
decreasing_by exact distance?_length _ _ _ _ _ _ h

/-- The label that a text in ASCII stands for. -/
def decode? (text : List Char) : Option (List Char) :=
  let tail := (text.reverse.takeWhile (· ≠ '-')).reverse
  let head := text.take (text.length - tail.length - 1)
  restore? 72 128 0 head tail

end SchemaBound.Punycode
