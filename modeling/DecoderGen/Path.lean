/-! # Paths

Paths are kept as they were given, since messages show them so. A path is a text of names separated
by slashes; empty names and `.` stand for the place reached so far.
-/

namespace DecoderGen.Path

/-- The texts between the slashes of a path. -/
def names (path : String) : List String := (path.toList.splitOn '/').map String.ofList

/-- The path of names. -/
def ofNames (names : List String) : String := String.intercalate "/" names

/-- Whether a name stays in place. -/
def stays (name : String) : Bool := name = "" || name = "."

/-- The names that lead somewhere. -/
def components (path : String) : List String := (names path).filter (!stays ·)

/-- Whether a path starts at the root. -/
def isAbsolute (path : String) : Bool := path.toList.head? = some '/'

/-- A path below a directory. An absolute path is taken as it is. -/
def join (directory path : String) : String :=
  if isAbsolute path || directory = "" then path
  else if directory.toList.getLast? = some '/' then directory ++ path
  else directory ++ "/" ++ path

/-- The last name of a path. -/
def fileName (path : String) : String := (names path).getLast?.getD ""

/-- The names of a directory, without names that stay in place behind the first one. -/
def trimmed : List String → List String
  | [] => []
  | first :: rest => first :: (rest.reverse.dropWhile stays).reverse

/-- The directory of a path. -/
def parent (path : String) : String :=
  match trimmed (names path).dropLast with
  | [""] => "/"
  | directory => ofNames directory

/-- The path of another name in the directory of a path. -/
def sibling (path name : String) : String := join (parent path) name

end DecoderGen.Path
