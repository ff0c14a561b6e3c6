import ShapeMend.Keyed
import ShapeMend.Number.Binary64

/-!
# JSON values

Objects keep the order of their members.  Numbers written as integers of up to
sixty-four bits stay integers; all others are binary64.
-/

namespace ShapeMend

open ShapeMend.Number

inductive JsonNumber where
  | integer (value : Int)
  | real (value : Binary64)
  deriving DecidableEq

inductive Json where
  | null
  | bool (value : Bool)
  | number (value : JsonNumber)
  | string (value : String)
  | array (items : List Json)
  | object (members : List (String × Json))

inductive JsonKind where
  | null
  | bool
  | number
  | string
  | array
  | object
  deriving DecidableEq

namespace JsonNumber

def toBinary64 : JsonNumber → Binary64
  | integer value => .ofInt value
  | real value => value

def agrees : JsonNumber → JsonNumber → Bool
  | integer a, integer b => a = b
  | real a, real b => a.sameValue b
  | _, _ => false

def isWord (value : Int) : Bool := -(twoTo 63 : Int) ≤ value && value < twoTo 63

end JsonNumber

namespace Json

instance : Inhabited Json := ⟨null⟩

def kind : Json → JsonKind
  | null => .null
  | bool _ => .bool
  | number _ => .number
  | string _ => .string
  | array _ => .array
  | object _ => .object

def isObject : Json → Bool
  | object _ => true
  | _ => false

/-- The object that is written by the members in order; of a repeated key the
last value counts. -/
def ofMembers (members : List (String × Json)) : Json :=
  .object (Keyed.ofEntries members)

mutual

def agrees : Json → Json → Bool
  | .null, .null => true
  | .bool a, .bool b => a = b
  | .number a, .number b => a.agrees b
  | .string a, .string b => a = b
  | .array a, .array b => itemsAgree a b
  | .object a, .object b => a.length = b.length && membersAgree a b
  | _, _ => false

def itemsAgree : List Json → List Json → Bool
  | [], [] => true
  | a :: as, b :: bs => agrees a b && itemsAgree as bs
  | _, _ => false

def membersAgree : List (String × Json) → List (String × Json) → Bool
  | [], _ => true
  | (key, value) :: members, others =>
    (match Keyed.lookup key others with
      | some other => agrees value other
      | none => false) && membersAgree members others

end

end Json

end ShapeMend
