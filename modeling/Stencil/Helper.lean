import Stencil.Helper.Script
import Stencil.HelperTag

/-! Helpers: named extensions with a check of their tags and a script for each call. -/

namespace Stencil

inductive SupportedKeys where
  | any
  /-- Others are ignored. -/
  | known (keys : List String)
  /-- Others are an error. -/
  | only (keys : List String)
deriving DecidableEq

structure Call where
  tag : HelperTag
  params : List Value
  named : List (String × Value)
  hasElse : Bool

def Call.param (call : Call) (index : Nat) : Value := call.params.getD index .null

def Call.named? (call : Call) (key : String) : Option Value := call.named.lookup key

/-- Whether a tag has the parameters a helper needs, and only keys that it takes. -/
def checkUsage (required : Nat) (supported : SupportedKeys) (tag : HelperTag) :
    Except Error Unit :=
  if tag.params.length < required then
    .error (.invalidHelperUsage tag.name (.tooFewParameters required tag.params.length tag.line))
  else
    match supported with
    | .any => .ok ()
    | .known _ => .ok ()
    | .only keys =>
      match tag.named.find? fun (key, _) => !keys.contains key with
      | some (key, _) =>
        .error (.invalidHelperUsage tag.name (.unsupportedKey key tag.line keys))
      | none => .ok ()

structure Helper where
  requiredParams : Nat := 1
  supportedKeys : SupportedKeys := .any
  validate : HelperTag → Except Error Unit := checkUsage requiredParams supportedKeys
  execute : Call → HelperAction Unit

structure Registered where
  registry : Nat
  name : String
  helper : Helper

/-- Helpers are the same if they are one registration. -/
def Registered.same (r s : Registered) : Bool := r.registry == s.registry && r.name == s.name

/-- The helpers that tags can name, in the order of their registration. -/
structure Registry where
  identity : Nat := 0
  helpers : List (String × Helper) := []

namespace Registry

def get? (registry : Registry) (name : String) : Option Registered :=
  (registry.helpers.lookup name).map fun helper => ⟨registry.identity, name, helper⟩

def contains (registry : Registry) (name : String) : Bool := (registry.get? name).isSome

/-- Adds a helper, unless the name is taken: the first registration stays. -/
def register (registry : Registry) (name : String) (helper : Helper) : Registry :=
  if registry.contains name then registry
  else { registry with helpers := registry.helpers ++ [(name, helper)] }

def registerAll (registry : Registry) (helpers : List (String × Helper)) : Registry :=
  helpers.foldl (fun r (name, helper) => r.register name helper) registry

def names (registry : Registry) : List String := sortNames (registry.helpers.map Prod.fst)

def size (registry : Registry) : Nat := registry.helpers.length

def describe (registry : Registry) : String :=
  "HelperRegistry \x7b helpers: " ++ Text.quotedList registry.names ++ " \x7d"

end Registry

end Stencil
