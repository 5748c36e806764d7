import Stencil.Helper

/-! Compiled templates: trees of segments, ready to be rendered any number of times. -/

namespace Stencil

inductive Segment where
  | text (text : String)
  | output (name : String) (escaped : Bool) (line : Nat)
  /-- A section, rendered for what its name stands for; an inverted one for what is missing. -/
  | block (name : String) (inverted : Bool) (body : List Segment) (line : Nat)
  /-- Another template in place, each of its lines behind an indent. -/
  | inclusion (name indent : String) (line : Nat)
  /-- A helper call; `elseBody` is the part after `else`, if the block has one. -/
  | invocation (helper : Registered) (tag : HelperTag) (body : List Segment)
      (elseBody : Option (List Segment))
  | comment

structure Template where
  name : String
  segments : List Segment

namespace Segment

def isText : Segment → Bool
  | .text _ => true
  | _ => false

mutual

/-- Equality of segments, by the identity of the helpers they call. -/
def same : Segment → Segment → Bool
  | .text s, .text t => s == t
  | .output m d k, .output n e l => m == n && d == e && k == l
  | .block m i as k, .block n j bs l => m == n && i == j && sameAll as bs && k == l
  | .inclusion m d k, .inclusion n e l => m == n && d == e && k == l
  | .invocation g s as none, .invocation h t bs none => g.same h && s.same t && sameAll as bs
  | .invocation g s as (some cs), .invocation h t bs (some ds) =>
    g.same h && s.same t && sameAll as bs && sameAll cs ds
  | .comment, .comment => true
  | _, _ => false

def sameAll : List Segment → List Segment → Bool
  | [], [] => true
  | a :: as, b :: bs => same a b && sameAll as bs
  | _, _ => false

end

end Segment

end Stencil
