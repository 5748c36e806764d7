import Stencil.Locator
import Stencil.Locator.FileTree

/-! Templates in files. A name is the path of a file below a directory, with its extension or
without; the directory is searched once, and again after a refresh. -/

namespace Stencil

/-- The extensions of template files; the first of them serves a name without extension. -/
def templateExtensions : List String := [".mustache", ".hbs", ".html", ".txt"]

def dropEnding? (ending text : String) : Option String :=
  (ending.toList.reverse.isPrefixOf? text.toList.reverse).map fun rest =>
    String.ofList rest.reverse

structure TemplateFile where
  name : String
  path : String
deriving DecidableEq

/-- The paths that have one extension, as template files in the order given. -/
def filesWith (extension : String) (paths : List String) : List TemplateFile :=
  paths.filterMap fun path => (dropEnding? extension path).map fun name => ⟨name, path⟩

structure FileIndex where
  paths : List (String × String) := []
  /-- The names without extension, in ascending order. -/
  names : List String := []
deriving DecidableEq

namespace FileIndex

/-- Adds a file. It serves its path, and its name unless another file does. -/
def add (index : FileIndex) (file : TemplateFile) : FileIndex :=
  let withPath := insertEntry file.path file.path index.paths
  { paths :=
      if (withPath.lookup file.name).isSome then withPath
      else insertEntry file.name file.path withPath
    names := insertName file.name index.names }

/-- The index of paths, those with the first extension before those with the next. -/
def ofPaths (paths : List String) : FileIndex :=
  (templateExtensions.flatMap fun extension => filesWith extension paths).foldl add {}

def path? (index : FileIndex) (name : String) : Option String := index.paths.lookup name

end FileIndex

structure Directory where
  tree : FileTree
  root : NodePath
  index : Option FileIndex := none

namespace Directory

def searchError (path : NodePath) (message : String) : Error :=
  .locator "" (NodePath.text path) message

def search (directory : Directory) : Except Error FileIndex :=
  match directory.tree.node? directory.root with
  | none => .error (searchError directory.root "No such file or directory")
  | some (.file _) => .error (searchError directory.root "Not a directory")
  | some .directory =>
    .ok (.ofPaths ((directory.tree.filesBelow directory.root).map NodePath.text))

/-- The index of the directory, from a search if there is none yet. -/
def getIndex : Effect Directory FileIndex := fun directory =>
  match directory.index with
  | some index => (.ok index, directory)
  | none =>
    match directory.search with
    | .error error => (.error error, directory)
    | .ok index => (.ok index, { directory with index := some index })

/-- The text of a file, which is read anew each time. -/
def readFile (directory : Directory) (name path : String) : Except Error String :=
  let place := directory.root ++ NodePath.ofText path
  let failed (message : String) : Except Error String :=
    .error (.locator name (NodePath.text place) message)
  match directory.tree.node? place with
  | none => failed "No such file or directory"
  | some .directory => failed "Is a directory"
  | some (.file content) =>
    match String.fromUTF8? content with
    | some text => .ok text
    | none => failed "stream did not contain valid UTF-8"

def locate (name : String) : Effect Directory (Option String) := do
  match (← getIndex).path? name with
  | none => pure none
  | some path => fun directory => ((directory.readFile name path).map some, directory)

def identifiers : Effect Directory (List String) := do
  return (← getIndex).names

def refresh (directory : Directory) : Directory := { directory with index := none }

def locator (priority : Int32) : Locator Directory where
  priority := priority
  locate := locate
  identifiers := identifiers
  refresh := refresh

end Directory

end Stencil
