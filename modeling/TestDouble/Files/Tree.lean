import TestDouble.Files.Basic

/-!
# File trees

Files as a value: the directories and files below a working directory, each under the names that
lead to it. Of what lies elsewhere a tree knows that the directories on the way up and the root are
there, and nothing else.
-/

namespace TestDouble

inductive FileTree.Node where
  | directory
  | file (bytes : List UInt8)
  deriving DecidableEq, Repr

/-- The names that lead from the working directory to a place. Two dots stand only at the beginning,
and a place counted from the root begins with a slash. -/
abbrev FileTree.Place := List String

structure FileTree where
  nodes : List (FileTree.Place × FileTree.Node) := []
  deriving DecidableEq, Repr

namespace FileTree

def Node.kind : Node → FileKind
  | directory => .directory
  | file _ => .file

/-- Whether the place is the working directory, one above it, or the root. -/
def Place.isOuter (place : Place) : Bool :=
  place = ["/"] || place.all (· = "..")

def node? (tree : FileTree) (place : Place) : Option Node :=
  if place.isOuter then some .directory else tree.nodes.lookup place

/-- The tree with something at a place, instead of what is there. -/
def put (tree : FileTree) (place : Place) (node : Node) : FileTree :=
  { tree with nodes := tree.nodes.filter (·.1 ≠ place) ++ [(place, node)] }

/-- Where a name leads from a directory. -/
def Place.step (place : Place) (name : String) : Place :=
  if name ≠ ".." then place ++ [name]
  else if place = ["/"] then place
  else if place.all (· = "..") then place ++ [".."]
  else place.dropLast

/-- The most bytes in a name. -/
def maxName : Nat := 255

/-- The most bytes in a path. -/
def maxPath : Nat := 4095

/-- Follows names from a place. All that is passed through must be a directory; at the end there may
be nothing yet. -/
def follow (tree : FileTree) (place : Place) : List String → Except FileSystem.Refusal Place
  | [] => .ok place
  | name :: names =>
    match tree.node? place with
    | none => .error .missing
    | some (.file _) => .error .notDirectory
    | some .directory =>
      if maxName < name.utf8ByteSize then .error .longName
      else follow tree (place.step name) names

/-- The place that a path leads to. -/
def place (tree : FileTree) (path : Path) : Except FileSystem.Refusal Place :=
  if maxPath < path.text.utf8ByteSize then .error .longName
  else tree.follow (if path.root = "" then [] else ["/"]) path.parts

def kind? (tree : FileTree) (path : Path) : Except FileSystem.Refusal (Option FileKind) :=
  match tree.place path with
  | .ok place => .ok ((tree.node? place).map Node.kind)
  | .error .missing | .error .notDirectory => .ok none
  | .error refusal => .error refusal

/-- What lies below a place. -/
def below (tree : FileTree) (path : Path) : List (List String) :=
  match tree.place path with
  | .error _ => []
  | .ok place => tree.nodes.filterMap fun (inner, _) ↦
      if place.isPrefixOf inner then
        match inner.drop place.length with
        | [] | ".." :: _ | "/" :: _ => none
        | names => some names
      else none

def read (tree : FileTree) (path : Path) : Except FileSystem.Refusal (List UInt8) := do
  match tree.node? (← tree.place path) with
  | some (.file bytes) => return bytes
  | some .directory => throw .isDirectory
  | none => throw .missing

def makeDirectory (tree : FileTree) (path : Path) : Except FileSystem.Refusal FileTree := do
  let place ← tree.place path
  match tree.node? place with
  | some _ => throw .present
  | none => return tree.put place .directory

def write (tree : FileTree) (path : Path) (text : String) : Except FileSystem.Refusal FileTree := do
  let place ← tree.place path
  match tree.node? place with
  | some .directory => throw .isDirectory
  | _ => return tree.put place (.file text.toUTF8.toList)

/-- Keeps a change that is not refused. -/
def change (result : FileTree → Except FileSystem.Refusal FileTree) :
    StateM FileTree (Except FileSystem.Refusal Unit) := fun tree ↦
  match result tree with
  | .ok tree => (.ok (), tree)
  | .error refusal => (.error refusal, tree)

instance : FileSystem (StateM FileTree) where
  kind? path := return (← get).kind? path
  below path := return (← get).below path
  read path := return (← get).read path
  makeDirectory path := change (·.makeDirectory path)
  write path text := change (·.write path text)

/-! ## Building and comparing trees -/

/-- The tree with a node, and with directories on the way to it where there is nothing. -/
def plant (tree : FileTree) (place : Place) (node : Node) : FileTree :=
  let onTheWay := (List.range place.length).map place.take
  let missing := onTheWay.filter fun outer ↦ (tree.node? outer).isNone
  (missing.foldl (·.put · .directory) tree).put place node

/-- The files of a tree below the working directory. -/
def files (tree : FileTree) : List (Place × List UInt8) :=
  tree.nodes.filterMap fun (place, node) ↦
    match node, place with
    | .directory, _ | _, ".." :: _ | _, "/" :: _ => none
    | .file bytes, _ => some (place, bytes)

/-- The files that are new or different since an earlier state of the tree. -/
def filesSince (tree earlier : FileTree) : List (Place × List UInt8) :=
  tree.files.filter fun (place, bytes) ↦ earlier.node? place ≠ some (.file bytes)

end FileTree

end TestDouble
