import SchemaBound.Number.Reading
import SchemaBound.Pattern.Plain
import SchemaBound.Text.Alphanumeric
import SchemaBound.Text.Blank
import SchemaBound.Text.Pieces

/-! Filters for log events: directives with commas between them, each a target, a span in brackets and a
level, of which the first or the second may be left out. -/
namespace SchemaBound.LogFilter
open Text (pieces)

/-- The word in any case of its ASCII letters. -/
def isWord (word : String) (text : List Char) : Bool := text.map Char.toLower = word.toList

/-- A level: a name, or a number from 0 to 5. Nothing stands for the widest one. -/
def isLevel (text : List Char) : Bool :=
  text = [] || ["error", "warn", "info", "debug", "trace", "off"].any (isWord · text) ||
    (let digits := match text with
      | '+' :: rest => rest
      | all => all
     digits ≠ [] && digits.all Number.isDigit && Number.digitsValue digits ≤ 5)

/-- A truth value or a number, which a field is compared with as such. -/
def isLiteral (text : List Char) : Bool :=
  text = "true".toList || text = "false".toList || (Number.decimalParts? text).isSome ||
    ["inf", "infinity", "nan"].any (isWord · (Number.takeSign text).2)

/-- An expression that a value can be compared with step by step, which leaves no look at the characters
around a place. -/
def isExpression (text : List Char) : Bool :=
  match Pattern.Plain.parse? text with
  | some p => !p.looksForWords
  | none => false

/-- A condition on a field of a span: its name, and a value or an expression after an equals sign. -/
def isCondition (text : List Char) : Bool :=
  text ≠ [] &&
    match pieces '=' text with
    | _ :: value :: _ => isLiteral value || isExpression value
    | _ => true

/-- How far a directive has been read. Positions count bytes. -/
inductive Stage where
  | start
  /-- In a target, which may turn out to be a level. -/
  | name
  /-- In the name of a span. -/
  | span
  /-- In the condition that begins here. -/
  | condition (first : Nat)
  /-- Behind the conditions of a span. -/
  | conditions
  /-- Behind a span. -/
  | target
  /-- In the level that begins here. -/
  | level (first : Nat)
deriving DecidableEq

/-- A text without its first bytes, if a character ends with them. -/
def dropBytes? : Nat → List Char → Option (List Char)
  | 0, text => some text
  | n, c :: rest => if c.utf8Size ≤ n then dropBytes? (n - c.utf8Size) rest else none
  | _, [] => none

/-- The characters of a text between two positions, if characters begin there. -/
def slice? (first last : Nat) (text : List Char) : Option (List Char) := do
  let tail ← dropBytes? first text
  let beyond ← dropBytes? last text
  return tail.take (tail.length - beyond.length)

/-- The condition between two positions of a text is sound. -/
def isConditionAt (text : List Char) (first last : Nat) : Bool :=
  ((slice? first last text).map isCondition).getD false

/-- Reads one more character, which stands at a position. Conditions are looked up in `text`. -/
def Stage.next? (text : List Char) (stage : Stage) (position : Nat) (c : Char) : Option Stage :=
  match stage, c with
  | .start, '[' => some .span
  | .start, c => if c = '-' ∨ c = ':' ∨ c = '_' ∨ Text.isAlphanumeric c then some .name else none
  | .name, '=' => some (.level (position + 1))
  | .name, '[' => some .span
  | .name, _ => some .name
  | .span, ']' => some .target
  | .span, '\x7b' => some (.condition (position + 1))
  | .span, _ => some .span
  | .condition first, '\x7d' => if isConditionAt text first position then some .conditions else none
  | .condition first, _ => some (.condition first)
  | .conditions, ']' => some .target
  | .conditions, _ => none
  | .target, '=' => some (.level (position + 1))
  | .target, _ => none
  | .level first, _ => some (.level first)

def Stage.isFinal (text : List Char) (stage : Stage) : Bool :=
  match stage with
  | .name | .target => true
  | .level first => ((slice? first (String.ofList text).utf8ByteSize text).map isLevel).getD false
  | _ => false

/-- Reads characters from a stage on; the first one stands at `position`. -/
def isDirectiveFrom (text : List Char) (stage : Stage) (position : Nat) : List Char → Bool
  | [] => stage.isFinal text
  | c :: rest =>
    match stage.next? text position c with
    | some stage => isDirectiveFrom text stage (position + c.utf8Size) rest
    | none => false

/-- One directive. Blanks around it are passed over, but positions without them are those of conditions and
levels in the whole text, so that a blank in front or behind can spoil one. -/
def isDirective (text : List Char) : Bool := isDirectiveFrom text .start 0 (Text.trim text)

/-- Every directive is sound. Empty ones do not count. -/
def isValid (filter : String) : Bool :=
  ((pieces ',' filter.toList).filter (· ≠ [])).all isDirective

end SchemaBound.LogFilter
