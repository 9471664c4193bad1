import SchemaBound.Check.Draft
import SchemaBound.Pattern.Parser
import SchemaBound.Text.Alphanumeric
import SchemaBound.Text.Calendar
import SchemaBound.Url.Parser

/-! The string formats a schema can ask for. -/
namespace SchemaBound

/-- Formats that are checked; others admit every string. -/
inductive Format where
  | email
  | date
  | dateTime
  | time
  | ipv4
  | ipv6
  | hostname
  | jsonPointer
  | relativeJsonPointer
  | regex
  | uri
  | uriReference
  | uriTemplate
deriving DecidableEq

namespace Format
open Text (pieces)

/-- Names of formats, and the first draft that knows each. International names follow the rule of the plain
ones. -/
def named : List (String × Draft × Format) := [
  ("date", .four, .date),
  ("date-time", .four, .dateTime),
  ("email", .four, .email),
  ("hostname", .four, .hostname),
  ("idn-email", .four, .email),
  ("idn-hostname", .seven, .hostname),
  ("ipv4", .four, .ipv4),
  ("ipv6", .four, .ipv6),
  ("iri", .seven, .uri),
  ("iri-reference", .seven, .uriReference),
  ("json-pointer", .six, .jsonPointer),
  ("regex", .four, .regex),
  ("relative-json-pointer", .seven, .relativeJsonPointer),
  ("time", .four, .time),
  ("uri", .four, .uri),
  ("uri-reference", .six, .uriReference),
  ("uri-template", .six, .uriTemplate)]

/-- The format of this name in a draft. -/
def ofName? (draft : Draft) (name : String) : Option Format :=
  (named.lookup name).bind fun (since, format) => if since.isUpTo draft then some format else none

def hasDoubleDot : List Char → Bool
  | '.' :: '.' :: _ => true
  | _ :: rest => hasDoubleDot rest
  | [] => false

/-- A local part in front of the first `@` that is not the first character: not empty, no dot at either
end, no two dots in a row. What follows the `@` does not matter. -/
def isEmail : List Char → Bool
  | [] => false
  | first :: rest =>
    let localPart := first :: rest.takeWhile (· ≠ '@')
    rest.contains '@' && first != '.' && localPart.getLast? != some '.' && !hasDoubleDot localPart

/-- Year, month and day of a calendar date `YYYY-MM-DD`; the year 0000 is one. -/
def date? (text : List Char) : Option (Nat × Nat × Nat) :=
  match pieces '-' text with
  | [year, month, day] =>
    if year.length = 4 ∧ month.length = 2 ∧ day.length = 2 ∧ (year ++ month ++ day).all Number.isDigit then
      let y := Number.digitsValue year
      let m := Number.digitsValue month
      let d := Number.digitsValue day
      if 1 ≤ m ∧ m ≤ 12 ∧ 1 ≤ d ∧ d ≤ Calendar.daysInMonth y m then some (y, m, d) else none
    else none
  | _ => none

/-- Two digits in front of a text, as a number of at most `greatest`. -/
def twoDigits? (greatest : Nat) : List Char → Option (Nat × List Char)
  | a :: b :: rest =>
    let n := Number.digitsValue [a, b]
    if Number.isDigit a ∧ Number.isDigit b ∧ n ≤ greatest then some (n, rest) else none
  | _ => none

/-- Hours and minutes in front of a text, in minutes. -/
def minutes? (text : List Char) : Option (Nat × List Char) := do
  let (hours, rest) ← twoDigits? 23 text
  match rest with
  | ':' :: rest =>
    let (minutes, rest) ← twoDigits? 59 rest
    return (60 * hours + minutes, rest)
  | _ => none

/-- The difference from universal time in minutes: `Z`, or a sign and hours and minutes. -/
def offset? (text : List Char) : Option Int :=
  match text with
  | ['Z'] | ['z'] => some 0
  | sign :: rest =>
    match minutes? rest with
    | some (n, []) => if sign = '+' then some n else if sign = '-' then some (-n) else none
    | _ => none
  | [] => none

/-- A date and a time of day with any one sign between them. The second 60 is the last one of a month in
universal time. -/
def isDateTime (text : List Char) : Bool :=
  let found := do
    let (_, month, day) ← date? (text.take 10)
    let separator ← text[10]?
    let (minutes, rest) ← minutes? (text.drop 11)
    match rest with
    | ':' :: rest =>
      let (seconds, rest) ← twoDigits? 60 rest
      let (fraction, rest) := match rest with
        | '.' :: rest => (rest.takeWhile Number.isDigit, rest.dropWhile Number.isDigit)
        | rest => (['0'], rest)
      let offset ← offset? rest
      let universal := (minutes : Int) - offset
      let last := day = Calendar.daysInMonth (Number.digitsValue (text.take 4)) month
      return separator.toNat < 128 && fraction ≠ [] &&
        (seconds < 60 || (universal = 1439 && last) || (universal = -1 && day = 1))
    | _ => none
  found.getD false

/-- Four bytes with dots between them, the first other than zero. -/
def isIpv4 (text : List Char) : Bool := (Address.octets? text).isSome && text.head? != some '0'

/-- At most 255 letters, numbers, hyphens and dots, no hyphen at either end, and at most 63 characters
between dots. -/
def isHostname (text : List Char) : Bool :=
  text ≠ [] && text.length ≤ 255 && text.head? != some '-' && text.getLast? != some '-' &&
    text.all (fun c => Text.isAlphanumeric c || c = '-' || c = '.') &&
    (pieces '.' text).all fun label => label.length ≤ 63

/-- Every tilde begins `~0` or `~1`. -/
def hasValidEscapes : List Char → Bool
  | [] => true
  | '~' :: '0' :: rest => hasValidEscapes rest
  | '~' :: '1' :: rest => hasValidEscapes rest
  | c :: rest => c != '~' && hasValidEscapes rest

/-- Empty, or tokens with a slash in front of each. -/
def isJsonPointer (text : List Char) : Bool :=
  text = [] || (text.head? = some '/' && hasValidEscapes text)

/-- The expression of a format that has one: a time of day, which needs a difference from universal time and
takes a fraction of six digits; a number of levels to go up, with a pointer from there or a sign that asks for
the name; text with expressions in braces, which are lists of names with an operator in front. -/
def expression? : Format → Option String
  | .time => some <|
    "^([01][0-9]|2[0-3]):([0-5][0-9]):([0-5][0-9])(\\.[0-9]\x7b6\x7d)?" ++
      "(([Zz])|([+|\\-]([01][0-9]|2[0-3]):[0-5][0-9]))\\z"
  | .relativeJsonPointer => some "^(?:0|[1-9][0-9]*)(?:#|(?:/(?:[^/~]|~0|~1)*)*)\\z"
  | .uriTemplate =>
    let name := "(?:[a-z0-9_]|%[0-9a-f]\x7b2\x7d)+(?::[1-9][0-9]\x7b0,3\x7d|\\*)?"
    some <|
      "^(?:(?:[^\\x00-\\x20\"'<>%\\\\^\x60\x7b|\x7d]|%[0-9a-f]\x7b2\x7d)|" ++
        "\\\x7b[+#./;?&=,!@|]?" ++ name ++ "(?:," ++ name ++ ")*\\\x7d)*\\z"
  | _ => none

def admits (f : Format) (text : String) : Bool :=
  let chars := text.toList
  match f with
  | .email => isEmail chars
  | .date => (date? chars).isSome
  | .dateTime => isDateTime chars
  | .ipv4 => isIpv4 chars
  | .ipv6 => (Address.ipv6? chars).isSome
  | .hostname => isHostname chars
  | .jsonPointer => isJsonPointer chars
  | .regex => (Pattern.parseInSchema? text).isSome
  | .uri => (Url.parse text).isOk
  | .uriReference => chars.all fun c => c != '\\' && !Text.isBlank c
  | .time | .relativeJsonPointer | .uriTemplate =>
    match f.expression?.bind fun source => Pattern.Plain.parse? source.toList with
    | some p => p.occursIn text
    | none => false

end Format
end SchemaBound
