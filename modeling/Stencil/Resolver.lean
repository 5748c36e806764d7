import Stencil.Text.Quoted
import Stencil.Text.Search
import Stencil.Decimal.Numeral
import Stencil.Value

/-! What a name refers to: strategies for one lookup, and the chain that asks them in order. -/

namespace Stencil

/-- One strategy. It sees a candidate value, or none when every scope has been asked in vain. -/
structure Resolver where
  name : String
  answer : Option Value → String → Except LookupError (Option Value)

namespace Resolver

/-- `this` is the candidate itself. -/
def this : Resolver where
  name := "this"
  answer candidate name := .ok (if name = "this" then candidate else none)

def map : Resolver where
  name := "map"
  answer candidate name :=
    match candidate with
    | some (.map entries) => .ok (entries.lookup name)
    | _ => .ok none

/-- The positions in a list, counted from zero. -/
def listIndex : Resolver where
  name := "list-index"
  answer candidate name :=
    match candidate.bind Value.elements, Decimal.readNat? name.toList with
    | some elements, some index => .ok elements[index]?
    | _, _ => .ok none

def object : Resolver where
  name := "object"
  answer candidate name :=
    match candidate with
    | some (.object o) => o.member name
    | _ => .ok none

/-- Values that every template sees, unless something in scope has their name. -/
def globalData (data : List (String × Value)) : Resolver where
  name := "global-data"
  answer candidate name :=
    match candidate with
    | some _ => .ok none
    | none => .ok (data.lookup name)

def thisPriority : Int32 := 1000
def mapPriority : Int32 := 200
def listIndexPriority : Int32 := 150
def objectPriority : Int32 := 100
def globalDataPriority : Int32 := 50

/-- What a strategy finds; errors and null count as nothing. -/
def find? (resolver : Resolver) (candidate : Option Value) (name : String) : Option Value :=
  match resolver.answer candidate name with
  | .ok (some .null) => none
  | .ok found => found
  | .error _ => none

end Resolver

structure RankedResolver where
  priority : Int32
  resolver : Resolver

/-- Strategies in descending order of priority, those of equal priority in the order added. -/
structure Chain where
  entries : List RankedResolver := []

namespace Chain

def add (chain : Chain) (priority : Int32) (resolver : Resolver) : Chain :=
  ⟨insertRanked RankedResolver.priority ⟨priority, resolver⟩ chain.entries⟩

def addAll (chain : Chain) (ranked : List RankedResolver) : Chain :=
  ranked.foldl (fun c r => c.add r.priority r.resolver) chain

def standard : Chain :=
  addAll {} [
    ⟨Resolver.thisPriority, .this⟩,
    ⟨Resolver.mapPriority, .map⟩,
    ⟨Resolver.listIndexPriority, .listIndex⟩,
    ⟨Resolver.objectPriority, .object⟩]

def resolve (chain : Chain) (candidate : Option Value) (name : String) : Option Value :=
  chain.entries.findSome? fun entry => entry.resolver.find? candidate name

def priorities (chain : Chain) : List Int32 := chain.entries.map RankedResolver.priority

def describe (chain : Chain) : String :=
  let entry (r : RankedResolver) :=
    "(" ++ String.ofList (Decimal.intText r.priority.toInt) ++ ", " ++
      Text.quoted r.resolver.name ++ ")"
  "[" ++ String.intercalate ", " (chain.entries.map entry) ++ "]"

end Chain

end Stencil
