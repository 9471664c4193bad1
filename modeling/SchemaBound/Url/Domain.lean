import SchemaBound.Text.Alphanumeric
import SchemaBound.Text.CaseFolding
import SchemaBound.Url.Punycode

/-! Host names: their letters in one case, their labels in ASCII. -/
namespace SchemaBound.Url

/-- Characters that a host name may not hold. -/
def isForbiddenInDomain (c : Char) : Bool :=
  c.toNat ≤ 0x20 || c = '\x7f' ||
    ['#', '%', '/', ':', '<', '>', '?', '@', '[', '\\', ']', '^', '|'].contains c

/-- What a character of a host name becomes: capitals become small, wide forms plain, the full stops of other
scripts the dot; what takes no room goes. The final sigma is kept apart from the other one. -/
def domainChar (c : Char) : List Char :=
  if c.toNat < 128 then [c.toLower]
  else if c = 'ς' then [c]
  else if ['\u3002', '\uff0e', '\uff61'].contains c then ['.']
  else if ['\u00ad', '\u034f', '\u200b', '\u2060', '\u2064', '\ufeff'].contains c ∨
      ('\ufe00' ≤ c ∧ c ≤ '\ufe0f') then []
  else if '\uff01' ≤ c ∧ c ≤ '\uff5e' then [(Char.ofNat (c.toNat - 0xfee0)).toLower]
  else [Text.fold c]

/-- A label beyond ASCII can be written: it begins with no mark and holds no control, separator, private or
unassigned character. -/
def isLabel (label : List Char) : Bool :=
  label.all (fun c => (Text.Category.ofChar c).group ∉ ['C', 'Z']) &&
    (label.head?.map fun c => (Text.Category.ofChar c).group != 'M').getD false

/-- A label in ASCII. One that says so already has to stand for a label beyond ASCII. -/
def asciiLabel? (label : List Char) : Option (List Char) :=
  if label.all (·.toNat < 128) then
    if "xn--".toList.isPrefixOf label then
      match Punycode.decode? (label.drop 4) with
      | some decoded =>
        if decoded.any (128 ≤ ·.toNat) ∧ isLabel decoded ∧ decoded.flatMap domainChar = decoded then
          some label
        else none
      | none => none
    else some label
  else if isLabel label then some ("xn--".toList ++ Punycode.encode label)
  else none

/-- A host name in ASCII, if it is one. -/
def domain? (text : List Char) : Option (List Char) := do
  let labels ← (Text.pieces '.' (text.flatMap domainChar)).mapM asciiLabel?
  let ascii := (".".intercalate (labels.map String.ofList)).toList
  if ascii.any isForbiddenInDomain then none else some ascii

end SchemaBound.Url
