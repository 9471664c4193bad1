/-! URLs: their parts and their text. -/
namespace SchemaBound

/-- The place that serves a URL. -/
structure Url.Authority where
  /-- User name and password as written, with the colon between them; empty when there is none. -/
  user : String
  host : String
  port : Option Nat
deriving DecidableEq

/-- Where a URL points inside its place. -/
inductive Url.Path where
  /-- A text without structure, which nothing is relative to. -/
  | plain (text : String)
  /-- Segments with a slash in front of each. -/
  | segments (list : List String)
deriving DecidableEq

/-- A URL in its parts; all texts are escaped as they are written. -/
structure Url where
  scheme : String
  authority : Option Url.Authority
  path : Url.Path
  query : Option String
  fragment : Option String
deriving DecidableEq

namespace Url

/-- Why a text is no URL. -/
inductive Fault where
  | emptyHost
  | domainName
  | port
  | ipv4
  | ipv6
  | hostCharacter
  | relativeWithoutBase
  | relativeToPlainPath
deriving DecidableEq

def Fault.message : Fault → String
  | .emptyHost => "empty host"
  | .domainName => "invalid international domain name"
  | .port => "invalid port number"
  | .ipv4 => "invalid IPv4 address"
  | .ipv6 => "invalid IPv6 address"
  | .hostCharacter => "invalid domain character"
  | .relativeWithoutBase => "relative URL without a base"
  | .relativeToPlainPath => "relative URL with a cannot-be-a-base base"

/-- Schemes whose URLs always have a host and a path; a backslash is a slash to them. -/
def isSpecial (scheme : String) : Bool := ["http", "https", "ws", "wss", "ftp", "file"].contains scheme

/-- The port that a scheme uses unless the URL names one. -/
def defaultPort? (scheme : String) : Option Nat :=
  [("http", 80), ("https", 443), ("ws", 80), ("wss", 443), ("ftp", 21)].lookup scheme

def Authority.toText (a : Authority) : String :=
  (if a.user = "" then "" else a.user ++ "@") ++ a.host ++
    (match a.port with
      | some n => ":" ++ toString n
      | none => "")

def Path.toText : Path → String
  | .plain text => text
  | .segments list => String.join (list.map ("/" ++ ·))

/-- A URL as written. Where two slashes would read as the start of a host, a dot stands in front. -/
def toText (url : Url) : String :=
  let place := match url.authority with
    | some a => "//" ++ a.toText
    | none =>
      match url.path with
      | .segments ("" :: _ :: _) => "/."
      | _ => ""
  url.scheme ++ ":" ++ place ++ url.path.toText ++
    (match url.query with
      | some q => "?" ++ q
      | none => "") ++
    (match url.fragment with
      | some f => "#" ++ f
      | none => "")

/-- The document that the URL names, without a place inside it. -/
def document (url : Url) : Url := { url with fragment := none }

def withoutEmptyFragment (url : Url) : Url :=
  if url.fragment = some "" then url.document else url

end Url
end SchemaBound
