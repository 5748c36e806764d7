import Stencil.Argument
import Stencil.Error
import Stencil.Iteration
import Stencil.Resolver

/-! The scopes open at one moment of a rendering, and what names mean in them. -/

namespace Stencil

structure Frame where
  value : Value
  position : Option Iteration := none

structure Scope where
  /-- The template that was asked for. -/
  template : String
  /-- The open scopes, innermost first. -/
  frames : List Frame
  /-- The templates being included, innermost first. -/
  inclusions : List String := []

/-- How names are looked up: the name of the position in an iteration, and the strategies. -/
structure Naming where
  positionName : String
  resolvers : Chain

namespace Scope

def ofRoot (template : String) (root : Value) : Scope := ⟨template, [⟨root, none⟩], []⟩

/-- The template whose segments are being rendered. -/
def currentTemplate (scope : Scope) : String := scope.inclusions.head?.getD scope.template

def depth (scope : Scope) : Nat := scope.frames.length

def push (limit : Nat) (value : Value) (position : Option Iteration) (scope : Scope) :
    Except Error Scope :=
  if scope.depth ≥ limit then .error (.recursionLimit scope.currentTemplate limit)
  else .ok { scope with frames := ⟨value, position⟩ :: scope.frames }

def pop (scope : Scope) : Option Value × Scope :=
  match scope.frames with
  | [] => (none, scope)
  | frame :: outer => (some frame.value, { scope with frames := outer })

def drop (count : Nat) (scope : Scope) : Scope :=
  { scope with frames := scope.frames.drop count }

def peek (scope : Scope) : Value :=
  match scope.frames with
  | [] => .null
  | frame :: _ => frame.value

def enter (name : String) (scope : Scope) : Scope :=
  { scope with inclusions := name :: scope.inclusions }

def leave (scope : Scope) : Scope := { scope with inclusions := scope.inclusions.tail }

end Scope

namespace Naming

/-- What one scope answers to a name without dots. -/
def inFrame (naming : Naming) (name : String) (frame : Frame) : Option Value :=
  match frame.position with
  | some position =>
    if name = naming.positionName then some position.toValue
    else naming.resolvers.resolve (some frame.value) name
  | none => naming.resolvers.resolve (some frame.value) name

/-- The answer of the innermost scope that has one, or else of the strategies that need none. -/
def resolveFirst (naming : Naming) (frames : List Frame) (name : String) : Option Value :=
  match frames.findSome? (naming.inFrame name) with
  | some value => some value
  | none => naming.resolvers.resolve none name

/-- Looks the later parts of a dotted name up, each in the value of the part before. -/
def resolveRest (naming : Naming) : Option Value → List String → Option Value
  | value, [] => value
  | none, _ => none
  | some value, name :: later =>
    resolveRest naming (naming.resolvers.resolve (some value) name) later

/-- The value of a name, which may be dotted; a single dot is the innermost value. -/
def resolve (naming : Naming) (scope : Scope) (name : String) : Option Value :=
  if name = "." then if scope.peek.isNull then none else some scope.peek
  else
    match (Text.fields '.' name.toList).map String.ofList with
    | [] => none
    | first :: later => resolveRest naming (naming.resolveFirst scope.frames first) later

/-- The value of an argument, null for a name that means nothing. -/
def evaluate (naming : Naming) (scope : Scope) : Argument → Value
  | .literal value => value
  | .name name => (naming.resolve scope name).getD .null

end Naming

end Stencil
