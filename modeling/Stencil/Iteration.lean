import Stencil.Value

/-! Where in an iteration an element stands. -/

namespace Stencil

/-- The position of an element, counted from one, among `size` elements. -/
structure Iteration where
  index : Nat
  size : Nat
deriving DecidableEq

namespace Iteration

def position (i : Iteration) : Nat := i.index - 1

def isFirst (i : Iteration) : Bool := i.index == 1

def isLast (i : Iteration) : Bool := i.index == i.size

def hasNext (i : Iteration) : Bool := i.index < i.size

def isOdd (i : Iteration) : Bool := i.index % 2 == 1

def isEven (i : Iteration) : Bool := i.index % 2 == 0

def toValue (i : Iteration) : Value :=
  .map [
    ("hasNext", .bool i.hasNext),
    ("index", .ofNat i.index),
    ("isEven", .bool i.isEven),
    ("isFirst", .bool i.isFirst),
    ("isLast", .bool i.isLast),
    ("isOdd", .bool i.isOdd),
    ("position", .ofNat i.position),
    ("size", .ofNat i.size)]

end Iteration

end Stencil
