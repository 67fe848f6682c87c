import Std.Data.ExtTreeMap
import LiveDiagram.Text.Lines

namespace LiveDiagram

/-- What stands at a place. -/
inductive FileKind where
  | folder
  | file
  deriving DecidableEq, Repr, Inhabited

/-- The folders and files below some folder, by the names that lead from there
    to them. -/
abbrev FileTree := Std.ExtTreeMap (List String) FileKind

namespace FileTree

/-- How many bytes a name can have. -/
def maxNameSize : Nat := 255

/-- How many bytes a path can have. -/
def maxPathSize : Nat := 4095

/-- How many folders can be missing on the way to one that is made. -/
def maxMissing : Nat := 1000

/-- What stands at a place; the folder of the tree itself at the empty one. -/
def kind? (t : FileTree) (place : List String) : Option FileKind :=
  if place.isEmpty then some .folder else t[place]?

/-- The parts of a text between its slashes. -/
def names (path : String) : List String :=
  (Text.splitOn '/' path.toList).map String.ofList

/-- Whether a name stands for something in the folder. An empty name and a
    single point stand for the folder itself, and two points for the one around
    it. -/
def isPlain (name : String) : Bool :=
  name != "" && name != "." && name != ".."

/-- Where a name leads from a folder. The folder of the tree counts as the one
    around itself. -/
def step (place : List String) (name : String) : List String :=
  if isPlain name then place ++ [name] else if name == ".." then place.dropLast else place

/-- Takes the step if something is there. A step is possible only from a
    folder. -/
def step? (t : FileTree) (place : List String) (name : String) : Option (List String) :=
  let target := step place name
  if t.kind? place == some .folder && (t.kind? target).isSome then some target else none

/-- What a text says as a path: its names stand between slashes, and it ends at
    its first null character. A path that is empty or too long leads nowhere. -/
def route? (path : String) : Option (List String) :=
  let seen := Text.untilNull path
  if seen.isEmpty || maxPathSize < seen.utf8ByteSize then none else some (names seen)

/-- The place to which a path leads. -/
def find? (t : FileTree) (path : String) : Option (List String) :=
  (route? path).bind (·.foldlM t.step? [])

def isFolder (t : FileTree) (path : String) : Bool :=
  (t.find? path).bind t.kind? == some .folder

def isFile (t : FileTree) (path : String) : Bool :=
  (t.find? path).bind t.kind? == some .file

/-- How many steps along the names are possible. -/
def reach (t : FileTree) : (place names : List String) → Nat
  | _, [] => 0
  | place, name :: names =>
    match t.step? place name with
    | some target => t.reach target names + 1
    | none => 0

/-- Takes a step from a folder and makes the folder to which it leads, unless
    that is there. -/
def makeFolder? (t : FileTree) (place : List String) (name : String) :
    Option (FileTree × List String) :=
  let target := step place name
  match t.kind? target with
  | some .folder => some (t, target)
  | some .file => none
  | none => if name.utf8ByteSize ≤ maxNameSize then some (t.insert target .folder, target) else none

/-- Makes folders along the names, and says whether all are there. Those made
    before the first that cannot be made stay. -/
def makeAlong : (t : FileTree) → (place names : List String) → FileTree × Bool
  | t, _, [] => (t, true)
  | t, place, name :: names =>
    match t.makeFolder? place name with
    | some (t, target) => t.makeAlong target names
    | none => (t, false)

/-- How many folders would have to be made for a path whose names, as far as it
    is seen, are the route. They are counted in the whole text, beyond a null
    character too. -/
def missing (t : FileTree) (path : String) (route : List String) : Nat :=
  (((names path).drop (t.reach [] route)).filter isPlain).length

/-- Makes the folder at a path and those on the way to it, and says whether it
    is there. If too many are missing, none is made. -/
def makeFolders (t : FileTree) (path : String) : FileTree × Bool :=
  if t.isFolder path then
    (t, true)
  else
    match route? path with
    | none => (t, false)
    | some route =>
      if maxMissing < t.missing path route then (t, false) else t.makeAlong [] route

/-- Makes an empty file, or empties the one that is there. It needs a folder
    around it and a name. -/
def makeFile? (t : FileTree) (path : String) : Option FileTree := do
  let route ← route? path
  let place ← route.dropLast.foldlM t.step? []
  let name ← route.getLast?
  if isPlain name && name.utf8ByteSize ≤ maxNameSize && t.kind? place == some .folder
      && t.kind? (place ++ [name]) != some .folder then
    some (t.insert (place ++ [name]) .file)
  else
    none

end FileTree

end LiveDiagram
