import Stencil.Argument
import Stencil.Error

/-! Tags that call a helper: its name and the arguments written after it. -/

namespace Stencil

structure HelperTag where
  name : String
  params : List Argument
  /-- Named arguments in ascending order of their keys. -/
  named : List (String × Argument)
  block : Bool
  line : Nat

namespace HelperTag

/-- Adds one word to the arguments; the last value written for a key stays. -/
def addWord (tag : HelperTag) (word : List Char) : Except TagFault HelperTag :=
  match Argument.named? word with
  | none => .ok { tag with params := tag.params ++ [.ofWord word] }
  | some (key, value) =>
    if value.isEmpty then .error (.missingValue (String.ofList key))
    else .ok { tag with named := insertEntry (String.ofList key) (.ofWord value) tag.named }

/-- Reads the content of a tag whose first word names a helper; without words there is no call. -/
def read (content : String) (block : Bool) (line : Nat) : Except TagFault (Option HelperTag) :=
  match Argument.words? content.toList with
  | none => .error (.unterminatedString content)
  | some [] => .ok none
  | some (name :: words) =>
    (words.foldlM addWord ⟨String.ofList name, [], [], block, line⟩).map some

def sameNamed : List (String × Argument) → List (String × Argument) → Bool
  | [], [] => true
  | (k, a) :: as, (l, b) :: bs => k == l && a.same b && sameNamed as bs
  | _, _ => false

def sameParams : List Argument → List Argument → Bool
  | [], [] => true
  | a :: as, b :: bs => a.same b && sameParams as bs
  | _, _ => false

def same (s t : HelperTag) : Bool :=
  s.name == t.name && sameParams s.params t.params && sameNamed s.named t.named &&
    s.block == t.block && s.line == t.line

end HelperTag

end Stencil
