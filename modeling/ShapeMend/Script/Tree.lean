import ShapeMend.Number.Binary64
import ShapeMend.Text.Position

/-!
# Syntax trees of scripts

Interfaces and type aliases are kept in detail.  Every other statement is one
span, and so is every type whose inside no declaration can use.
-/

namespace ShapeMend.Script

open ShapeMend.Text ShapeMend.Number

structure Name where
  text : String
  span : Span
  deriving DecidableEq

inductive LiteralValue where
  | string (value : String)
  | number (value : Binary64)
  | boolean (value : Bool)
  | bigInteger (numeral : String)
  deriving DecidableEq

inductive TypeOperator where
  | keyof
  | readonly
  | unique
  deriving DecidableEq

inductive SealedForm where
  | function
  | constructor
  | mapped
  | conditional
  | query
  | module
  | inference
  | template
  deriving DecidableEq

inductive AccessorKey where
  | plain (text : String)
  | computed (span : Span)
  deriving DecidableEq

inductive MemberForm where
  | method (key : String)
  | call
  | construct
  | accessor (key : AccessorKey)
  | index
  | computed
  deriving DecidableEq

mutual

inductive TypeNode where
  | keyword (span : Span) (word : String)
  | literal (span : Span) (value : LiteralValue)
  | reference (span : Span) (name : String) (qualified : Bool)
      (arguments : List TypeNode)
  | array (span : Span) (element : TypeNode)
  | union (span : Span) (branches : List TypeNode)
  | intersection (span : Span) (parts : List TypeNode)
  | object (span : Span) (members : List Member)
  | parenthesized (span : Span) (inner : TypeNode)
  | tuple (span : Span) (elements : List TypeNode)
  | indexedAccess (span : Span) (object index : TypeNode)
  | operator (span : Span) (operator : TypeOperator) (operand : TypeNode)
  | sealed (span : Span) (form : SealedForm)

inductive Member where
  /-- A property without annotation has no type. -/
  | property (span : Span) (key : String) (optional : Bool)
      (declared : Option TypeNode)
  | other (span : Span) (form : MemberForm)

end

structure TypeParameter where
  name : Name
  constraint : Option TypeNode
  fallback : Option TypeNode

structure InterfaceItem where
  span : Span
  name : Name
  exported : Bool
  parameters : List TypeParameter
  parents : List TypeNode
  members : List Member

structure AliasItem where
  span : Span
  name : Name
  exported : Bool
  parameters : List TypeParameter
  type : TypeNode

inductive Item where
  | interface (item : InterfaceItem)
  | typeAlias (item : AliasItem)
  | other (span : Span)

/-! ## Spans and names of forms -/

def SealedForm.name : SealedForm → String
  | function => "function type"
  | constructor => "constructor type"
  | mapped => "mapped type"
  | conditional => "conditional type"
  | query => "typeof query"
  | module => "import type"
  | inference => "infer type"
  | template => "template literal type"

def TypeOperator.name : TypeOperator → String
  | keyof => "keyof type"
  | readonly => "readonly type"
  | unique => "unique type"

def LiteralValue.name : LiteralValue → String
  | bigInteger _ => "bigint literal type"
  | number value =>
    if value.isFinite then "literal type"
      else "out-of-range numeric literal type"
  | _ => "literal type"

def MemberForm.name : MemberForm → String
  | method _ => "method signature"
  | call => "call signature"
  | construct => "construct signature"
  | accessor _ => "accessor"
  | index => "index signature"
  | computed => "computed property"

namespace TypeNode

def span : TypeNode → Span
  | keyword span _ | literal span _ | reference span _ _ _ | array span _ |
    union span _
  | intersection span _ | object span _ | parenthesized span _ | tuple span _
  | indexedAccess span _ _ | operator span _ _ | sealed span _ => span

def form : TypeNode → String
  | keyword _ _ => "keyword type"
  | literal _ value => value.name
  | reference _ _ qualified arguments =>
    if !arguments.isEmpty then "generic type instantiation"
    else if qualified then "qualified type name"
    else "type reference"
  | array _ _ => "array type"
  | union _ _ => "union type"
  | intersection _ _ => "intersection type"
  | object _ _ => "object type"
  | parenthesized _ _ => "parenthesized type"
  | tuple _ _ => "tuple type"
  | indexedAccess _ _ _ => "indexed access type"
  | operator _ word _ => word.name
  | sealed _ hidden => hidden.name

def unparenthesized : TypeNode → TypeNode
  | parenthesized _ inner => unparenthesized inner
  | node => node

end TypeNode

namespace Member

def span : Member → Span
  | property span _ _ _ | other span _ => span

def form : Member → String
  | property _ _ _ _ => "property signature"
  | other _ shape => shape.name

end Member

end ShapeMend.Script
