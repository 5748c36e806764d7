import Stencil.Helper.Conditional
import Stencil.Helper.Iterating

/-! The helpers that every template can count on. -/

namespace Stencil

def builtinHelpers : List (String × Helper) :=
  [("if", ifHelper), ("unless", unlessHelper), ("each", eachHelper), ("with", withHelper)]

def Registry.builtin : Registry := Registry.registerAll {} builtinHelpers

end Stencil
