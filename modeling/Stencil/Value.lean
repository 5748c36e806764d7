import Stencil.Number
import Stencil.Ordered

/-! Runtime values: what data, lookups and helper arguments are made of. -/

namespace Stencil

/-- Why a single strategy could not answer a lookup. -/
structure LookupError where
  message : String
deriving DecidableEq

/-- A transform that the host provides; what it does is known to the host alone. -/
structure FunctionId where
  index : Nat
deriving DecidableEq

/-- A host object over values of type `α`, known by its identity. -/
structure HostObject (α : Type) where
  identity : Nat
  member : String → Except LookupError (Option α)
  text : String := ""
  truthy : Bool := true
  elements : Option (List α) := none

inductive Value where
  | null
  | bool (b : Bool)
  | number (n : Number)
  | string (s : String)
  | list (items : List Value)
  /-- Entries in ascending order of their keys. -/
  | map (entries : List (String × Value))
  | function (id : FunctionId)
  | object (o : HostObject Value)

instance : Inhabited Value := ⟨.null⟩

namespace Value

/-- The answer by which a transform drops an element of an iteration. -/
def skipText : String := "whisker.each.skipResult"

def skip : Value := .string skipText

def isSkip : Value → Bool
  | .string s => s == skipText
  | _ => false

def isNull : Value → Bool
  | .null => true
  | _ => false

def ofInt64 (n : Int64) : Value := .number (.signed n)

def ofUInt64 (n : UInt64) : Value := .number (.unsigned n)

def ofNat (n : Nat) : Value := ofUInt64 (UInt64.ofNat n)

def ofFloat (x : Float) : Value := .number (.float x)

def ofEntries (entries : List (String × Value)) : Value := .map (sortEntries entries)

/-- Null, false, zero, empty texts and lists, and objects that say so are falsy. -/
def isTruthy : Value → Bool
  | .null => false
  | .bool b => b
  | .number n => !n.isZero
  | .string s => !s.isEmpty
  | .list items => !items.isEmpty
  | .map _ => true
  | .function _ => true
  | .object o => o.truthy

def isFalsy (v : Value) : Bool := !v.isTruthy

/-- The elements of a list, or of an object that acts as a collection. -/
def elements : Value → Option (List Value)
  | .list items => some items
  | .object o => o.elements
  | _ => none

def kind : Value → String
  | .null => "null"
  | .bool _ => "bool"
  | .number _ => "number"
  | .string _ => "string"
  | .list _ => "list"
  | .map _ => "map"
  | .function _ => "function"
  | .object _ => "object"

mutual

def ofJson : Json → Value
  | .null => .null
  | .bool b => .bool b
  | .number n => .number (.ofJson n)
  | .string s => .string s
  | .array items => .list (ofJsonItems items)
  | .object members => .map (ofJsonMembers members)

def ofJsonItems : List Json → List Value
  | [] => []
  | item :: later => ofJson item :: ofJsonItems later

def ofJsonMembers : List (String × Json) → List (String × Value)
  | [] => []
  | (key, item) :: later => (key, ofJson item) :: ofJsonMembers later

end

mutual

/-- Back to plain data, where functions become null and objects their text. -/
def toJson : Value → Json
  | .null => .null
  | .bool b => .bool b
  | .number n => n.toJson
  | .string s => .string s
  | .list items => .array (toJsonItems items)
  | .map entries => .object (toJsonMembers entries)
  | .function _ => .null
  | .object o => .string o.text

def toJsonItems : List Value → List Json
  | [] => []
  | item :: later => toJson item :: toJsonItems later

def toJsonMembers : List (String × Value) → List (String × Json)
  | [] => []
  | (key, item) :: later => (key, toJson item) :: toJsonMembers later

end

/-- What an output tag writes for a value. -/
def text : Value → String
  | .null => ""
  | .bool true => "true"
  | .bool false => "false"
  | .number n => String.ofList n.text
  | .string s => s
  | .list items => String.ofList (toJson (.list items)).text
  | .map entries => String.ofList (toJson (.map entries)).text
  | .function _ => ""
  | .object o => o.text

mutual

/-- Equality of values; functions and objects equal only themselves. -/
def same : Value → Value → Bool
  | .null, .null => true
  | .bool a, .bool b => a == b
  | .number m, .number n => m.same n
  | .string s, .string t => s == t
  | .list xs, .list ys => sameItems xs ys
  | .map xs, .map ys => sameEntries xs ys
  | .function f, .function g => f == g
  | .object o, .object p => o.identity == p.identity
  | _, _ => false

def sameItems : List Value → List Value → Bool
  | [], [] => true
  | x :: xs, y :: ys => same x y && sameItems xs ys
  | _, _ => false

def sameEntries : List (String × Value) → List (String × Value) → Bool
  | [], [] => true
  | (k, x) :: xs, (l, y) :: ys => k == l && same x y && sameEntries xs ys
  | _, _ => false

end

end Value

end Stencil
