import CommandLog.Bytes
import CommandLog.Table

/-!
A tree of files and directories. A place in it is the list of the names that lead there from the root,
and a path leads to a place: names with slashes between them, where a dot stands for the directory
itself and two dots for the one above. Opening a path for writing needs every directory on its way.
-/

namespace CommandLog.Files

/-- The names that lead from the root to a place. -/
abbrev Place := List Bytes

inductive Device where
  | full
  | null
  | standardOutput
  | standardError
deriving DecidableEq, Repr

inductive Node where
  | file (content : Bytes)
  | directory
  | device (device : Device)
deriving DecidableEq, Repr

inductive FileError where
  | notFound
  | notDirectory
  | isDirectory
  | nameTooLong
  | noSpace
deriving DecidableEq, Repr

def FileError.message : FileError → String
  | .notFound => "No such file or directory (os error 2)"
  | .notDirectory => "Not a directory (os error 20)"
  | .isDirectory => "Is a directory (os error 21)"
  | .nameTooLong => "File name too long (os error 36)"
  | .noSpace => "No space left on device (os error 28)"

structure Tree where
  nodes : Table Place Node := []
deriving DecidableEq, Repr

namespace Tree

/-- The node at a place. The root is always a directory. -/
def find? (tree : Tree) (place : Place) : Option Node :=
  if place = [] then some .directory else Table.find? place tree.nodes

def put (tree : Tree) (place : Place) (node : Node) : Tree :=
  { tree with nodes := Table.put place node tree.nodes }

@[simp] theorem find?_root (tree : Tree) : tree.find? [] = some .directory := rfl

theorem find?_put_same (tree : Tree) {place : Place} (node : Node) (below : place ≠ []) :
    (tree.put place node).find? place = some node := by
  simp [find?, put, below]

theorem find?_put_other (tree : Tree) {place other : Place} (node : Node) (apart : other ≠ place) :
    (tree.put place node).find? other = tree.find? other := by
  unfold find? put
  split
  · rfl
  · exact Table.find?_put_other node tree.nodes apart

def makeDirectory (tree : Tree) (place : Place) : Tree :=
  (List.range place.length).foldl (fun tree above =>
    let place := place.take (above + 1)
    match tree.find? place with
    | none => tree.put place .directory
    | some _ => tree) tree

end Tree

def slash : UInt8 := 47

def dot : UInt8 := 46

/-- The names of a path. Slashes that follow each other separate like one. -/
def names (path : Bytes) : List Bytes := (path.splitOn slash).filter (· ≠ [])

def maxName : Nat := 255

def maxPath : Nat := 4095

namespace Tree

def enter (tree : Tree) (here : Place) (name : Bytes) : Except FileError Place :=
  if name = [dot] then .ok here
  else if name = [dot, dot] then .ok here.dropLast
  else if maxName < name.length then .error .nameTooLong
  else match tree.find? (here ++ [name]) with
    | some .directory => .ok (here ++ [name])
    | some _ => .error .notDirectory
    | none => .error .notFound

def writable (tree : Tree) (here : Place) (name : Bytes) : Except FileError Place :=
  if name = [dot] || name = [dot, dot] then .error .isDirectory
  else if maxName < name.length then .error .nameTooLong
  else if tree.find? (here ++ [name]) = some .directory then .error .isDirectory
  else .ok (here ++ [name])

/-- The place that a path opens for writing, as seen from the directory `here`. A path with a slash at
its end can only mean a directory. -/
def openForWriting (tree : Tree) (here : Place) (path : Bytes) : Except FileError Place :=
  if maxPath < path.length then .error .nameTooLong
  else if path = [] then .error .notFound
  else
    match (names path).getLast? with
    | none => .error .isDirectory
    | some name =>
        let start := if path.head? = some slash then [] else here
        ((names path).dropLast.foldlM tree.enter start).bind fun folder =>
          if path.getLast? = some slash then .error .isDirectory else tree.writable folder name

end Tree

end CommandLog.Files
