import SchemaBound.Number.Basic

/-! JSON values whose object members keep their order. -/
namespace SchemaBound

/-- A JSON value. Readers give every object distinct member names. -/
inductive Json where
  | null
  | bool (b : Bool)
  | num (n : Number)
  | str (s : String)
  | arr (items : List Json)
  | obj (members : List (String × Json))
deriving Inhabited

namespace Json

mutual
private def decEqValue : (v w : Json) → Decidable (v = w)
  | .null, .null => isTrue rfl
  | .bool a, .bool b => decidable_of_iff (a = b) (by simp)
  | .num a, .num b => decidable_of_iff (a = b) (by simp)
  | .str a, .str b => decidable_of_iff (a = b) (by simp)
  | .arr a, .arr b => match decEqItems a b with
    | isTrue h => isTrue (by rw [h])
    | isFalse h => isFalse (by simpa using h)
  | .obj a, .obj b => match decEqMembers a b with
    | isTrue h => isTrue (by rw [h])
    | isFalse h => isFalse (by simpa using h)
  | .null, .bool _ | .null, .num _ | .null, .str _ | .null, .arr _ | .null, .obj _ => isFalse nofun
  | .bool _, .null | .bool _, .num _ | .bool _, .str _ | .bool _, .arr _ | .bool _, .obj _ => isFalse nofun
  | .num _, .null | .num _, .bool _ | .num _, .str _ | .num _, .arr _ | .num _, .obj _ => isFalse nofun
  | .str _, .null | .str _, .bool _ | .str _, .num _ | .str _, .arr _ | .str _, .obj _ => isFalse nofun
  | .arr _, .null | .arr _, .bool _ | .arr _, .num _ | .arr _, .str _ | .arr _, .obj _ => isFalse nofun
  | .obj _, .null | .obj _, .bool _ | .obj _, .num _ | .obj _, .str _ | .obj _, .arr _ => isFalse nofun

private def decEqItems : (v w : List Json) → Decidable (v = w)
  | [], [] => isTrue rfl
  | [], _ :: _ | _ :: _, [] => isFalse nofun
  | a :: as, b :: bs => match decEqValue a b with
    | isFalse h => isFalse (by simp [h])
    | isTrue h => match decEqItems as bs with
      | isTrue hs => isTrue (by rw [h, hs])
      | isFalse hs => isFalse (by simp [hs])

/-- Member by member, names first. -/
private def decEqMembers : (v w : List (String × Json)) → Decidable (v = w)
  | [], [] => isTrue rfl
  | [], _ :: _ | _ :: _, [] => isFalse nofun
  | (k, a) :: as, (l, b) :: bs => match decEq k l with
    | isFalse h => isFalse (by simp [h])
    | isTrue hk => match decEqValue a b with
      | isFalse h => isFalse (by simp [h])
      | isTrue h => match decEqMembers as bs with
        | isTrue hs => isTrue (by rw [hk, h, hs])
        | isFalse hs => isFalse (by simp [hs])
end

instance : DecidableEq Json := decEqValue

def typeName : Json → String
  | .null => "null"
  | .bool _ => "boolean"
  | .num _ => "number"
  | .str _ => "string"
  | .arr _ => "array"
  | .obj _ => "object"

def get? : Json → String → Option Json
  | .obj members, name => members.lookup name
  | _, _ => none

def members? : Json → Option (List (String × Json))
  | .obj members => some members
  | _ => none

def items? : Json → Option (List Json)
  | .arr items => some items
  | _ => none

def text? : Json → Option String
  | .str s => some s
  | _ => none

def isObject : Json → Bool
  | .obj _ => true
  | _ => false

def isArray : Json → Bool
  | .arr _ => true
  | _ => false

def isBool : Json → Bool
  | .bool _ => true
  | _ => false

def isText : Json → Bool
  | .str _ => true
  | _ => false

/-- Sets a member: a present name keeps its place, a new one goes to the end. -/
def setMember (name : String) (value : Json) : List (String × Json) → List (String × Json)
  | [] => [(name, value)]
  | (k, v) :: rest => if k = name then (k, value) :: rest else (k, v) :: setMember name value rest

/-- Removes a member and moves the last one into its place. -/
def takeOut (name : String) (members : List (String × Json)) : List (String × Json) :=
  match members.findIdx? (·.1 = name) with
  | none => members
  | some i =>
    match members.drop (i + 1) with
    | [] => members.take i
    | next :: rest => members.take i ++ (next :: rest).getLast (by simp) :: (next :: rest).dropLast

mutual
/-- Levels of nesting; a value that is no container has one. -/
def depth : Json → Nat
  | .arr items => depthItems items + 1
  | .obj members => depthMembers members + 1
  | _ => 1

/-- The greatest depth of an item. -/
def depthItems : List Json → Nat
  | [] => 0
  | v :: rest => max v.depth (depthItems rest)

/-- The greatest depth of a member. -/
def depthMembers : List (String × Json) → Nat
  | [] => 0
  | (_, v) :: rest => max v.depth (depthMembers rest)
end

mutual
def size : Json → Nat
  | .arr items => sizeItems items + 1
  | .obj members => sizeMembers members + 1
  | _ => 1

def sizeItems : List Json → Nat
  | [] => 0
  | v :: rest => v.size + sizeItems rest

def sizeMembers : List (String × Json) → Nat
  | [] => 0
  | (_, v) :: rest => v.size + sizeMembers rest
end

mutual
/-- Equal part by part, whatever the order of members, with numbers compared by `same`. -/
def identicalBy (same : Number → Number → Bool) : Json → Json → Bool
  | .null, .null => true
  | .bool a, .bool b => a = b
  | .num a, .num b => same a b
  | .str a, .str b => a = b
  | .arr a, .arr b => identicalItemsBy same a b
  | .obj a, .obj b => a.length = b.length && identicalMembersBy same a b
  | _, _ => false

def identicalItemsBy (same : Number → Number → Bool) : List Json → List Json → Bool
  | [], [] => true
  | a :: as, b :: bs => a.identicalBy same b && identicalItemsBy same as bs
  | _, _ => false

/-- Every member on the left has an equal one on the right. -/
def identicalMembersBy (same : Number → Number → Bool) : List (String × Json) → List (String × Json) → Bool
  | [], _ => true
  | (k, a) :: as, bs =>
    (match bs.lookup k with
      | some b => a.identicalBy same b
      | none => false) && identicalMembersBy same as bs
end

/-- Equal as JSON values: numbers are compared by kind and value. -/
def identical : Json → Json → Bool := identicalBy Number.identical

/-- Equal in every bit of their numbers, so that the two zeros of the doubles differ. -/
def sameStored : Json → Json → Bool := identicalBy fun x y => x = y

mutual
/-- Equal for a schema: numbers are compared by value alone, members pair by pair in order. -/
def sameValue : Json → Json → Bool
  | .null, .null => true
  | .bool a, .bool b => a = b
  | .num a, .num b => a.sameValue b
  | .str a, .str b => a = b
  | .arr a, .arr b => sameItems a b
  | .obj a, .obj b => sameMembers a b
  | _, _ => false

def sameItems : List Json → List Json → Bool
  | [], [] => true
  | a :: as, b :: bs => a.sameValue b && sameItems as bs
  | _, _ => false

/-- The same names in the same order, with equal values. -/
def sameMembers : List (String × Json) → List (String × Json) → Bool
  | [], [] => true
  | (k, a) :: as, (l, b) :: bs => k = l && a.sameValue b && sameMembers as bs
  | _, _ => false
end

end Json
end SchemaBound
