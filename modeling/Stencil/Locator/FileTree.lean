import Stencil.Text.Search

/-! A tree of files and directories, by paths from its root. -/

namespace Stencil

abbrev NodePath := List String

namespace NodePath

/-- Reads a path with slashes; empty names and single dots lead nowhere, two dots lead back. -/
def ofText (text : String) : NodePath :=
  ((Text.fields '/' text.toList).map String.ofList).foldl
    (fun path name =>
      if name = "" || name = "." then path
      else if name = ".." then path.dropLast
      else path ++ [name])
    []

def text (path : NodePath) : String := String.intercalate "/" path

/-- What is left of a path below another one. -/
def below? : NodePath → NodePath → Option NodePath
  | [], path => some path
  | _ :: _, [] => none
  | m :: root, n :: path => if m = n then below? root path else none

end NodePath

inductive Node where
  | file (content : ByteArray)
  | directory

/-- The nodes of a tree with their paths; the root is a directory without an entry. -/
structure FileTree where
  nodes : List (NodePath × Node) := []

namespace FileTree

def node? (tree : FileTree) (path : NodePath) : Option Node :=
  match path with
  | [] => some .directory
  | path => tree.nodes.lookup path

def makeDirectory (tree : FileTree) (path : NodePath) : FileTree :=
  let missing := (inits path).filter fun p => (tree.node? p).isNone
  ⟨tree.nodes ++ missing.map fun p => (p, .directory)⟩
where
  inits : NodePath → List NodePath
    | [] => [[]]
    | name :: later => [] :: (inits later).map (name :: ·)

def write (tree : FileTree) (path : NodePath) (content : ByteArray) : FileTree :=
  let parents := tree.makeDirectory path.dropLast
  ⟨parents.nodes.filter (fun (p, _) => p != path) ++ [(path, .file content)]⟩

def remove (tree : FileTree) (path : NodePath) : FileTree :=
  ⟨tree.nodes.filter fun (p, _) => (NodePath.below? path p).isNone⟩

def filesBelow (tree : FileTree) (root : NodePath) : List NodePath :=
  tree.nodes.filterMap fun (path, node) =>
    match node with
    | .file _ => NodePath.below? root path
    | .directory => none

end FileTree

end Stencil
