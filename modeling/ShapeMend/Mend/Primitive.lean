import ShapeMend.Json.Basic
import ShapeMend.Schema.Shape

/-!
# Primitives and values

Which values a primitive admits depends on their kind alone.  Nothing stands for
an undefined value but null; big integers and symbols do not occur in JSON, so
nothing is admitted as one.
-/

namespace ShapeMend.Primitive

def admits : Primitive → JsonKind → Bool
  | string, kind => kind = .string
  | number, kind => kind = .number
  | boolean, kind => kind = .bool
  | undefined, kind => kind = .null
  | null, kind => kind = .null
  | any, _ => true
  | unknown, _ => true
  | never, _ => false
  | bigint, _ => false
  | symbol, _ => false

def fallback : Primitive → Json
  | string => .string ""
  | number => .number (.integer 0)
  | boolean => .bool false
  | _ => .null

end ShapeMend.Primitive

namespace ShapeMend.Literal

/-- Whether a value equals the literal; numbers are compared as binary64. -/
def accepts : Literal → Json → Bool
  | string a, .string b => a = b
  | number a, .number b => a.sameValue b.toBinary64
  | boolean a, .bool b => a = b
  | _, _ => false

end ShapeMend.Literal
