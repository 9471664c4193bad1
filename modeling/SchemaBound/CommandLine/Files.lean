/-! Files as the program sees them. -/
namespace SchemaBound

/-- Why a file cannot be read. -/
inductive ReadFault where
  | absent
  | denied
  | throughAFile
  | directory
  | notText
deriving DecidableEq

namespace ReadFault

/-- The wording of a fault, with the number of the cause where the system has one. -/
def message : ReadFault → String
  | .absent => "No such file or directory (os error 2)"
  | .denied => "Permission denied (os error 13)"
  | .throughAFile => "Not a directory (os error 20)"
  | .directory => "Is a directory (os error 21)"
  | .notText => "stream did not contain valid UTF-8"

def isAbsence : ReadFault → Bool
  | .absent | .throughAFile => true
  | _ => false

end ReadFault

abbrev Files := String → Except ReadFault String

end SchemaBound
