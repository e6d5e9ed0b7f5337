import ViewGraph.Table
import ViewGraph.Text.Quoted

/-!
# Files

Files in a tree of directories. A path leads step by step from the root or from the working
directory, and each step but the last has to lead to a directory. The length of a step is bounded, and
that of the whole path too.

* `Files.read`, `Files.write`, `Files.append`: whole contents.
* `Files.placeOf`: the place that a path names, whatever is there.
* `FileError.message`: a failure in words.
* `Files.changes`: the files that another state has and this one has not.
* `node?_set_self`, `node?_set_of_ne`: what stands where after something was put at a place.
-/

namespace ViewGraph

/-- What stands at a path. -/
inductive Node
  | file (content : ByteArray)
  | directory

/-- Why a path cannot be used. -/
inductive FileError
  | notFound
  | notDirectory
  | isDirectory
  | nameTooLong
  /-- The path holds a null character. -/
  | notAPath
deriving DecidableEq

namespace FileError

/-- The number of a failure. -/
def number : FileError → String
  | notFound => "2"
  | notDirectory => "20"
  | isDirectory => "21"
  | nameTooLong => "36"
  | notAPath => "22"

def text : FileError → String
  | notFound => "No such file or directory"
  | notDirectory => "Not a directory"
  | isDirectory => "Is a directory"
  | nameTooLong => "File name too long"
  | notAPath => "Invalid argument"

/-- The failure in words, with the path. -/
def message (path : String) (e : FileError) : String :=
  "[Errno " ++ e.number ++ "] " ++ e.text ++ ": " ++ String.ofList (quoted path.toList)

end FileError

/-- Files by the steps from the root to them. The directories on the way to the working directory
exist in any case. -/
structure Files where
  directory : List String := []
  nodes : List (List String × Node) := []

namespace Files

/-- Is a place the working directory or on the way to it? -/
def isOnTheWay (files : Files) (place : List String) : Bool := place.isPrefixOf files.directory

/-- What stands at a place. -/
def node? (files : Files) (place : List String) : Option Node :=
  if files.isOnTheWay place then some .directory else Table.find? place files.nodes

/-! ### Paths -/

/-- The steps of a path, without empty ones. -/
def stepsOf (path : String) : List String := (path.splitOn "/").filter (· ≠ "")

/-- Does a path ask for a directory? -/
def asksDirectory (path : String) : Bool := path.toList.getLast? = some '/'

/-- Where a path begins: at the root, or in the working directory. -/
def start (files : Files) (path : String) : List String :=
  if path.toList.head? = some '/' then [] else files.directory

/-- The place that a step leads to. Above the root is the root. -/
def advance (place : List String) (step : String) : List String :=
  if step = "." then place else if step = ".." then place.dropLast else place ++ [step]

/-- The place that a path names, whatever is there. -/
def placeOf (files : Files) (path : String) : List String :=
  (stepsOf path).foldl advance (files.start path)

/-- The places on the way of a path, from where it begins to its end. -/
def placesOn (files : Files) (path : String) : List (List String) :=
  (stepsOf path).foldl
    (fun places step => places ++ [advance (places.getLastD []) step])
    [files.start path]

/-- The path from the root to a place. -/
def pathOf (place : List String) : String := "/" ++ "/".intercalate place

/-- The most bytes that a step may have. -/
def maxStep : Nat := 255

/-- The most bytes that a path may have. -/
def maxPath : Nat := 4095

/-- Walks some steps; each has to start from a directory. -/
def walk (files : Files) (place : List String) : List String → Except FileError (List String)
  | [] => .ok place
  | step :: rest =>
    match files.node? place with
    | none => .error .notFound
    | some (.file _) => .error .notDirectory
    | some .directory =>
      if maxStep < step.utf8ByteSize then .error .nameTooLong
      else walk files (advance place step) rest

/-- The place that a path leads to. -/
def resolve (files : Files) (path : String) : Except FileError (List String) :=
  if path.contains '\x00' then .error .notAPath
  else if path.isEmpty then .error .notFound
  else if maxPath < path.utf8ByteSize then .error .nameTooLong
  else files.walk (files.start path) (stepsOf path)

/-! ### Contents -/

/-- The content of the file at a path. -/
def read (files : Files) (path : String) : Except FileError ByteArray := do
  match files.node? (← files.resolve path) with
  | none => .error .notFound
  | some .directory => .error .isDirectory
  | some (.file content) => if asksDirectory path then .error .notDirectory else .ok content

/-- The place of a file that is to be written, with its content so far. -/
def writable (files : Files) (path : String) : Except FileError (List String × ByteArray) := do
  let place ← files.resolve path
  match files.node? place with
  | none => if asksDirectory path then .error .isDirectory else .ok (place, .empty)
  | some .directory => .error .isDirectory
  | some (.file content) =>
    if asksDirectory path then .error .notDirectory else .ok (place, content)

/-- Sets what stands at a place. -/
def set (files : Files) (place : List String) (node : Node) : Files :=
  { files with nodes := Table.insert place node files.nodes }

/-- The files after a content was written to a path. -/
def write (files : Files) (path : String) (content : ByteArray) : Except FileError Files := do
  let (place, _) ← files.writable path
  return files.set place (.file content)

/-- The files after a content was added to the end of the file at a path. -/
def append (files : Files) (path : String) (content : ByteArray) : Except FileError Files := do
  let (place, old) ← files.writable path
  return files.set place (.file (old ++ content))

/-! ### Whole trees -/

/-- Adds the directories on the way from one place to another. -/
def addParents (files : Files) (place : List String) : List String → Files
  | step :: next :: rest =>
    let place := place ++ [step]
    let files := if (files.node? place).isSome then files else files.set place .directory
    addParents files place (next :: rest)
  | _ => files

/-- Adds a file, or a directory for a path that asks for one. -/
def add (files : Files) (path : String) (content : ByteArray) : Files :=
  let files := files.addParents (files.start path) (stepsOf path)
  files.set (files.placeOf path) (if asksDirectory path then .directory else .file content)

/-- The files of a working directory. -/
def ofList (directory : List String) (entries : List (String × ByteArray)) : Files :=
  entries.foldl (fun files (path, content) => files.add path content) { directory }

/-- The places of a later state whose files are new or have another content. -/
def changes (files later : Files) : List (List String × ByteArray) :=
  later.nodes.filterMap fun (place, node) =>
    match node, files.node? place with
    | .file new, some (.file old) => if new.data = old.data then none else some (place, new)
    | .file new, _ => some (place, new)
    | .directory, _ => none

/-- The path from the working directory to a place below it. -/
def relative? (files : Files) (place : List String) : Option String :=
  if files.directory.isPrefixOf place then
    some ("/".intercalate (place.drop files.directory.length))
  else none

/-! ### What is written is read -/

theorem isOnTheWay_set (files : Files) (place other : List String) (node : Node) :
    (files.set place node).isOnTheWay other = files.isOnTheWay other := rfl

theorem node?_set_self {files : Files} {place : List String} (h : files.isOnTheWay place = false)
    (node : Node) : (files.set place node).node? place = some node := by
  rw [node?, isOnTheWay_set, h]
  exact Table.find?_insert_self place node files.nodes

theorem node?_set_of_ne {files : Files} {place other : List String} (h : other ≠ place)
    (node : Node) : (files.set place node).node? other = files.node? other := by
  rw [node?, isOnTheWay_set, node?]
  exact congrArg _ (Table.find?_insert_of_ne h node files.nodes)

end Files

end ViewGraph
