import SchemaBound.Url.Address
import SchemaBound.Url.Basic
import SchemaBound.Url.Domain
import SchemaBound.Url.Escape

/-! Reading URLs, alone or relative to another one. -/
namespace SchemaBound.Url

/-- Controls and blanks at the ends do not count, nor do tabs and line ends anywhere. -/
def cleaned (text : List Char) : List Char :=
  let trimmed := ((text.dropWhile (·.toNat ≤ 0x20)).reverse.dropWhile (·.toNat ≤ 0x20)).reverse
  trimmed.filter fun c => c != '\t' && c != '\n' && c != '\r'

/-- A scheme in front of its colon, in small letters, and the rest. -/
def scheme? (text : List Char) : Option (String × List Char) :=
  match Text.cut? ':' text with
  | some (first :: others, rest) =>
    if first.isAlpha ∧ others.all (fun c => c.isAlphanum || c = '+' || c = '-' || c = '.') then
      some (String.ofList ((first :: others).map Char.toLower), rest)
    else none
  | _ => none

/-- A text as written under a rule of escaping. -/
def escapedText (escaped : Char → Bool) (text : List Char) : String := String.ofList (escape escaped text)

/-- The query and the fragment that end a URL. -/
def tail (special : Bool) (text : List Char) : Option String × Option String :=
  let fragmentOf (text : List Char) : Option String := match text with
    | '#' :: rest => some (escapedText Escaped.fragment rest)
    | _ => none
  match text with
  | '?' :: rest =>
    (some (escapedText (Escaped.query special) (rest.takeWhile (· ≠ '#'))),
      fragmentOf (rest.dropWhile (· ≠ '#')))
  | text => (none, fragmentOf text)

def endsPath (c : Char) : Bool := c = '?' || c = '#'

def endsPlace (special : Bool) (c : Char) : Bool := c = '/' || endsPath c || (special && c = '\\')

/-- A segment that stays where it is. -/
def isSingleDot (segment : String) : Bool := [".", "%2e"].contains segment.toLower

def isDoubleDot (segment : String) : Bool := ["..", ".%2e", "%2e.", "%2e%2e"].contains segment.toLower

/-- Walks along segments from a path that is kept in reverse. A dot at the end leaves an empty segment. -/
def walk : List String → List String → List String
  | path, [] => path
  | path, [last] =>
    if isDoubleDot last then "" :: path.drop 1 else if isSingleDot last then "" :: path else last :: path
  | path, segment :: rest =>
    if isDoubleDot segment then walk (path.drop 1) rest
    else if isSingleDot segment then walk path rest
    else walk (segment :: path) rest

def segmentsOf (special : Bool) (text : List Char) : List String :=
  let slashed := if special then text.map fun c => if c = '\\' then '/' else c else text
  (Text.pieces '/' slashed).map (escapedText Escaped.segment)

/-- The path that leads from the segments of another one along a text. Files have no empty segments in
front. -/
def pathFrom (scheme : String) (start : List String) (text : List Char) : Path :=
  let list := (walk start.reverse (segmentsOf (isSpecial scheme) text)).reverse
  if scheme = "file" then
    match list.dropWhile (· = "") with
    | [] => .segments [""]
    | list => .segments list
  else .segments list

/-- Completes a URL whose path goes on from the segments of another one. -/
def withPath (scheme : String) (authority : Option Authority) (start : List String) (text : List Char) :
    Url :=
  let (query, fragment) := tail (isSpecial scheme) (text.dropWhile (!endsPath ·))
  ⟨scheme, authority, pathFrom scheme start (text.takeWhile (!endsPath ·)), query, fragment⟩

def bracketedHost? (text : List Char) : Except Fault String :=
  if text.length ≥ 2 ∧ text.getLast? = some ']' then
    match Address.ipv6? (text.drop 1).dropLast with
    | some groups => .ok ("[" ++ Address.ipv6Text groups ++ "]")
    | none => .error .ipv6
  else .error .ipv6

/-- A host of a scheme that is special: an address or a name. -/
def specialHost? (text : List Char) : Except Fault String :=
  if text.head? = some '[' then bracketedHost? text
  else match (String.fromUTF8? ⟨(decodedBytes text).toArray⟩).bind fun s => domain? s.toList with
    | none => .error .domainName
    | some [] => .error .emptyHost
    | some name =>
      if Address.endsInNumber name then
        match Address.ipv4? name with
        | some address => .ok (Address.ipv4Text address)
        | none => .error .ipv4
      else .ok (String.ofList name)

def plainHost? (text : List Char) : Except Fault String :=
  if text.head? = some '[' then bracketedHost? text
  else if text.any ("\x00\t\n\r #/:<>?@[\\]^|".toList.contains ·) then .error .hostCharacter
  else .ok (escapedText Escaped.control text)

/-- Where the host ends: at the colon of a port, if that is not in brackets. -/
def hostLength : Bool → List Char → Nat
  | _, [] => 0
  | inside, c :: rest =>
    if c = ':' ∧ !inside then 0
    else hostLength (if c = '[' then true else if c = ']' then false else inside) rest + 1

/-- The port after its colon; that of the scheme need not be named. -/
def port? (scheme : String) (text : List Char) : Except Fault (Option Nat) :=
  if text.all Number.isDigit ∧ Number.digitsValue text ≤ 0xffff then
    let port := if text = [] then none else some (Number.digitsValue text)
    .ok (if port = defaultPort? scheme then none else port)
  else .error .port

/-- User name and password in front of the last `@`. Without a password there is no colon. -/
def userText (text : List Char) : String :=
  match Text.cut? ':' text with
  | none | some (_, []) => escapedText Escaped.user (text.takeWhile (· ≠ ':'))
  | some (name, password) => escapedText Escaped.user name ++ ":" ++ escapedText Escaped.user password

/-- User, host and port of a text that holds nothing else. -/
def authority? (scheme : String) (text : List Char) : Except Fault Authority := do
  let afterUser := (text.reverse.takeWhile (· ≠ '@')).reverse
  let named := text.contains '@'
  let user := if named then userText (text.take (text.length - afterUser.length - 1)) else ""
  let host := afterUser.take (hostLength false afterUser)
  let rest := afterUser.drop host.length
  if host = [] ∧ (isSpecial scheme ∨ user ≠ "" ∨ rest ≠ []) then throw .emptyHost
  let host ← if isSpecial scheme then specialHost? host else plainHost? host
  return ⟨user, host, ← port? scheme (rest.drop 1)⟩

/-- A URL after the two slashes in front of its host. -/
def afterSlashes (scheme : String) (text : List Char) : Except Fault Url := do
  let special := isSpecial scheme
  let place := text.takeWhile (!endsPlace special ·)
  let rest := text.dropWhile (!endsPlace special ·)
  if place = ['@'] ∧ rest ≠ [] then throw .emptyHost
  let authority ← authority? scheme place
  match rest with
  | c :: others =>
    if endsPath c ∧ !special then
      let (query, fragment) := tail special rest
      return ⟨scheme, authority, .segments [], query, fragment⟩
    else return withPath scheme authority [] (if endsPath c then rest else others)
  | [] =>
    if special then return withPath scheme authority [] []
    else return ⟨scheme, authority, .segments [], none, none⟩

/-- The character stands between segments, in some schemes at least. -/
def isSlash (c : Char) : Bool := c = '/' || c = '\\'

/-- A URL relative to one with segments, by a text without a scheme. -/
def relative (base : Url) (list : List String) (text : List Char) : Except Fault Url :=
  let special := isSpecial base.scheme
  match text with
  | [] => .ok base.document
  | '#' :: _ => .ok { base with fragment := (tail special text).2 }
  | '?' :: _ =>
    let (query, fragment) := tail special text
    .ok { base with query, fragment }
  | first :: rest =>
    if isSlash first then
      match rest with
      | second :: others =>
        if isSlash second then
          afterSlashes base.scheme (if first = '/' ∧ second = '/' then others else text.dropWhile isSlash)
        else .ok (withPath base.scheme base.authority [] rest)
      | [] => .ok (withPath base.scheme base.authority [] rest)
    else .ok (withPath base.scheme base.authority list.dropLast text)

/-- A file after its scheme. Its own machine is named by no host. -/
def file (base : Option Url) (text : List Char) : Except Fault Url :=
  let home : Authority := ⟨"", "", none⟩
  match text with
  | first :: second :: rest =>
    if isSlash first ∧ isSlash second then do
      let host := rest.takeWhile (!endsPlace true ·)
      let others := rest.dropWhile (!endsPlace true ·)
      let name ← if host = [] then pure "" else specialHost? host
      let path := if (others.head?.map isSlash).getD false then others.drop 1 else others
      return withPath "file" (some ⟨"", if name = "localhost" then "" else name, none⟩) [] path
    else local? base home text
  | text => local? base home text
where
  /-- A file on the machine of the base, or on this one. -/
  local? (base : Option Url) (home : Authority) (text : List Char) : Except Fault Url :=
    match base with
    | some base =>
      match base.path with
      | .segments list => relative base list text
      | .plain _ => .ok (withPath "file" (some home) [] text)
    | none =>
      .ok (withPath "file" (some home) [] (if (text.head?.map isSlash).getD false then text.drop 1 else text))

/-- A URL after its scheme and colon. One that repeats the scheme of its base and has no host may be relative
to it. -/
def afterScheme (base : Option Url) (scheme : String) (text : List Char) : Except Fault Url :=
  if scheme = "file" then file (base.filter (·.scheme = "file")) text
  else if isSpecial scheme then
    match base.filter (·.scheme = scheme), (text.takeWhile isSlash).length with
    | some base, 0 | some base, 1 =>
      match base.path with
      | .segments list => relative base list text
      | .plain _ => afterSlashes scheme (text.dropWhile isSlash)
    | _, _ => afterSlashes scheme (text.dropWhile isSlash)
  else match text with
    | '/' :: '/' :: rest => afterSlashes scheme rest
    | '/' :: rest => .ok (withPath scheme none [] rest)
    | text =>
      let (query, fragment) := tail false (text.dropWhile (!endsPath ·))
      .ok ⟨scheme, none, .plain (escapedText Escaped.control (text.takeWhile (!endsPath ·))), query, fragment⟩

/-- Reads a URL, relative to another one if there is one. -/
def read (base : Option Url) (text : String) : Except Fault Url :=
  let text := cleaned text.toList
  match scheme? text with
  | some (scheme, rest) => afterScheme base scheme rest
  | none =>
    match base with
    | none => .error .relativeWithoutBase
    | some base =>
      match base.path, text with
      | _, '#' :: _ => .ok { base with fragment := (tail (isSpecial base.scheme) text).2 }
      | .plain _, _ => .error .relativeToPlainPath
      | .segments list, text =>
        if base.scheme = "file" then file (some base) text else relative base list text

def parse (text : String) : Except Fault Url := read none text

def join (base : Url) (text : String) : Except Fault Url := read (some base) text

end SchemaBound.Url
