import DecoderGen.Path

/-! # File trees

A tree of directories and files as POSIX has it, without links. Operations fail because of the shape
of the tree only: a path that leads nowhere or through a file, a file where a directory stands, and
the like. A tree may also limit the length of names, as most file systems do.
-/

namespace DecoderGen

/-- Why a file operation fails. -/
inductive FileFault where
  | notFound
  | exists
  | notDirectory
  | isDirectory
  | nameTooLong
  | nulInPath
  | notText
  | other (text : String)
deriving DecidableEq, Repr

/-- The wording of a file fault. -/
def FileFault.message : FileFault → String
  | .notFound => "No such file or directory (os error 2)"
  | .exists => "File exists (os error 17)"
  | .notDirectory => "Not a directory (os error 20)"
  | .isDirectory => "Is a directory (os error 21)"
  | .nameTooLong => "File name too long (os error 36)"
  | .nulInPath => "file name contained an unexpected NUL byte"
  | .notText => "stream did not contain valid UTF-8"
  | .other text => text

/-- What stands at a place of a tree. -/
inductive Node where
  | file (contents : ByteArray)
  | directory

/-- A place in a tree: the names that lead to it from the root. -/
abbrev Place := List String

/-- The longest names and paths a tree allows, in bytes. -/
structure Limits where
  name : Nat
  path : Nat
deriving DecidableEq, Repr

/-- Directories and files by place. The root is always a directory and is not listed. -/
structure FileTree where
  entries : List (Place × Node) := []
  limits : Option Limits := none

namespace FileTree

/-- An empty tree with the usual limits on names. -/
def scratch : FileTree := { limits := some ⟨255, 4095⟩ }

/-- What stands at a place. -/
def get? (tree : FileTree) (place : Place) : Option Node :=
  if place = [] then some .directory else tree.entries.lookup place

/-- Put a node at a place, over what stands there. -/
def insert (tree : FileTree) (place : Place) (node : Node) : FileTree :=
  { tree with entries := (place, node) :: tree.entries.filter (·.1 ≠ place) }

/-- Empty a place. -/
def erase (tree : FileTree) (place : Place) : FileTree :=
  { tree with entries := tree.entries.filter (·.1 ≠ place) }

/-- Whether a name is longer than the tree allows. -/
def refusesName (tree : FileTree) (name : String) : Bool :=
  tree.limits.any fun limits => limits.name < name.utf8ByteSize

/-- Whether a path is longer than the tree allows. -/
def refusesPath (tree : FileTree) (path : String) : Bool :=
  tree.limits.any fun limits => limits.path < path.utf8ByteSize

/-- Follow one name from a place, which has to be a directory. What the name leads to need not
exist. -/
def step (tree : FileTree) (place : Place) (name : String) : Except FileFault Place :=
  match tree.get? place with
  | none => .error .notFound
  | some (.file _) => .error .notDirectory
  | some .directory =>
    if Path.stays name then .ok place
    else if name = ".." then .ok place.dropLast
    else if tree.refusesName name then .error .nameTooLong
    else .ok (place ++ [name])

/-- Follow names from a place. -/
def walk (tree : FileTree) (place : Place) : List String → Except FileFault Place
  | [] => .ok place
  | name :: rest =>
    match tree.step place name with
    | .error fault => .error fault
    | .ok next => tree.walk next rest

/-- The fault of a path that no tree can follow. -/
def pathFault? (tree : FileTree) (path : String) : Option FileFault :=
  if path.toList.contains '\x00' then some .nulInPath
  else if tree.refusesPath path then some .nameTooLong
  else if path = "" then some .notFound
  else none

/-- The place a path leads to; everything on the way has to be a directory. -/
def locate (tree : FileTree) (path : String) : Except FileFault Place :=
  match tree.pathFault? path with
  | some fault => .error fault
  | none => tree.walk [] (Path.names path)

/-- What stands where a path leads. -/
def find? (tree : FileTree) (path : String) : Option Node :=
  match tree.locate path with
  | .error _ => none
  | .ok place => tree.get? place

/-- Whether a path leads to a file. -/
def isFile (tree : FileTree) (path : String) : Bool :=
  match tree.find? path with
  | some (.file _) => true
  | _ => false

/-- The contents of a file. -/
def read (tree : FileTree) (path : String) : Except FileFault ByteArray :=
  match tree.locate path with
  | .error fault => .error fault
  | .ok place =>
    match tree.get? place with
    | none => .error .notFound
    | some .directory => .error .isDirectory
    | some (.file contents) => .ok contents

/-- Create a file or replace its contents. -/
def write (tree : FileTree) (path : String) (contents : ByteArray) : Except FileFault FileTree :=
  match tree.locate path with
  | .error fault => .error fault
  | .ok place =>
    match tree.get? place with
    | some .directory => .error .isDirectory
    | _ => .ok (tree.insert place (.file contents))

/-- Remove a file. -/
def remove (tree : FileTree) (path : String) : Except FileFault FileTree :=
  match tree.locate path with
  | .error fault => .error fault
  | .ok place =>
    match tree.get? place with
    | none => .error .notFound
    | some .directory => .error .isDirectory
    | some (.file _) => .ok (tree.erase place)

/-- Move a file to another path, over a file that stands there. -/
def rename (tree : FileTree) (source target : String) : Except FileFault FileTree :=
  match tree.locate source, tree.locate target with
  | .error fault, _ => .error fault
  | _, .error fault => .error fault
  | .ok sourcePlace, .ok targetPlace =>
    match tree.get? sourcePlace, tree.get? targetPlace with
    | none, _ => .error .notFound
    | _, some .directory => .error .isDirectory
    | some .directory, _ => .error .isDirectory
    | some node, _ => .ok ((tree.erase sourcePlace).insert targetPlace node)

/-- Names without the empty ones at their end. -/
def withoutTrailing (names : List String) : List String :=
  (names.reverse.dropWhile (· = "")).reverse

/-- Create the directory names lead to; all names but the last have to lead to a directory. -/
def makeDirectory (tree : FileTree) (names : List String) : Except FileFault FileTree :=
  match (withoutTrailing names).reverse with
  | [] => .error .exists
  | last :: above =>
    match tree.walk [] above.reverse with
    | .error fault => .error fault
    | .ok place =>
      match tree.step place last with
      | .error fault => .error fault
      | .ok created =>
        match tree.get? created with
        | some _ => .error .exists
        | none => .ok (tree.insert created .directory)

/-- Whether names lead to a directory. -/
def leadsToDirectory (tree : FileTree) (names : List String) : Bool :=
  match tree.walk [] names with
  | .error _ => false
  | .ok place =>
    match tree.get? place with
    | some .directory => true
    | _ => false

/-- Create the directory names lead to unless it is there already. -/
def ensureDirectory (tree : FileTree) (names : List String) : Except FileFault Unit × FileTree :=
  match tree.makeDirectory names with
  | .ok created => (.ok (), created)
  | .error fault => if tree.leadsToDirectory names then (.ok (), tree) else (.error fault, tree)

/-- Create the directory names lead to, and first the directories above it if one is missing. The
names above are given in reverse. A failure keeps the directories made before it. -/
def ensureBelow (tree : FileTree) (names : List String) :
    List String → Except FileFault Unit × FileTree
  | [] => tree.ensureDirectory names
  | last :: above =>
    match tree.makeDirectory names with
    | .error .notFound =>
      match tree.ensureBelow (last :: above).reverse above with
      | (.error fault, after) => (.error fault, after)
      | (.ok (), after) => after.ensureDirectory names
    | _ => tree.ensureDirectory names

/-- Create a directory with all directories above it. The empty path is the working directory. -/
def createDirectories (tree : FileTree) (path : String) : Except FileFault Unit × FileTree :=
  if path = "" then (.ok (), tree)
  else
    match tree.pathFault? path with
    | some fault => (.error fault, tree)
    | none => tree.ensureBelow (Path.names path) (Path.components path).reverse.tail

end FileTree
end DecoderGen
