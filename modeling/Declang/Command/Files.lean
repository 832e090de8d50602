namespace Declang

/-- Why a file cannot be read. -/
inductive FileFault where
  | notFound
  | notDirectory
  | isDirectory
  | nameTooLong
  | other (text : String)
  deriving DecidableEq, Repr

def FileFault.message : FileFault → String
  | notFound => "No such file or directory (os error 2)"
  | notDirectory => "Not a directory (os error 20)"
  | isDirectory => "Is a directory (os error 21)"
  | nameTooLong => "File name too long (os error 36)"
  | other text => text

/-- What can be read at a path. Devices are no regular files. -/
structure FileContent where
  bytes : List UInt8
  isRegular : Bool := true
  deriving DecidableEq, Repr

/-- What is found at a path. -/
abbrev FileView := String → Except FileFault FileContent

/-- The parts of a path between its slashes. -/
def pathParts (path : String) : List String :=
  path.splitOn "/"

/-- The parts of a path that name the directory they stand in. -/
def staysInPlace (part : String) : Bool :=
  part == "" || part == "."

/-- A directory with what is below it, under the parts of each path. Nothing is known about the
directory above it, but that the root is its own. -/
structure Directory where
  files : List (List String × FileContent)
  directories : List (List String) := []
  isRoot : Bool := false
  deriving Repr

namespace Directory

def ofFiles (files : List (String × List UInt8)) : Directory where
  files := files.map fun (path, bytes) => ((pathParts path).filter (!staysInPlace ·), ⟨bytes, true⟩)

/-- The root, with what every system has below it. -/
def root : Directory where
  files := [(["dev", "null"], ⟨[], false⟩)]
  directories := ["bin", "boot", "dev", "etc", "home", "lib", "media", "mnt", "opt", "proc", "root",
    "run", "sbin", "srv", "sys", "tmp", "usr", "var"].map ([·])
  isRoot := true

def maxNameLength : Nat := 255

def maxPathLength : Nat := 4095

def hasDirectory (directory : Directory) (place : List String) : Bool :=
  directory.directories.contains place ||
    directory.files.any fun (name, _) => place.isPrefixOf name

/-- Follows a path from a place below a directory. -/
def follow (directory : Directory) (place : List String) :
    List String → Except FileFault FileContent
  | [] => .error .isDirectory
  | part :: rest =>
    if staysInPlace part then follow directory place rest
    else if part = ".." then
      if place = [] ∧ !directory.isRoot then
        .error (if rest.all fun part => staysInPlace part || part == ".." then .isDirectory
          else .notFound)
      else follow directory place.dropLast rest
    else if maxNameLength < part.utf8ByteSize then .error .nameTooLong
    else
      let place := place ++ [part]
      match directory.files.lookup place with
      | some content => if rest = [] then .ok content else .error .notDirectory
      | none =>
        if directory.hasDirectory place then follow directory place rest else .error .notFound

/-- The view of the files from a current directory. -/
def read (current : Directory) : FileView := fun path =>
  if path.isEmpty then .error .notFound
  else if maxPathLength < path.utf8ByteSize then .error .nameTooLong
  else
    match pathParts path with
    | "" :: parts => root.follow [] parts
    | parts => current.follow [] parts

end Directory

/-- The path with an extension added to its last name. Slashes at the end do not count, and a path
that ends in no name has none. -/
def addExtension? (extension path : String) : Option String :=
  match (pathParts path).reverse.dropWhile staysInPlace with
  | [] => none
  | name :: above =>
    if name = ".." then none
    else some (String.intercalate "/" (above.reverse ++ [name ++ "." ++ extension]))

end Declang
