import SmallScheme.Host.Path
import SmallScheme.Text.Quoted

/-!
# Files

A working directory, as the row of its files. Directories exist as far as files lie in them. Of what
lies outside only the directories above it and the usual ones below the root are known, and the
device that is always empty. What is written outside is not kept.
-/

namespace SmallScheme.Host

/-- What keeps a file from being read or written. -/
inductive FileError where
  | missing (path : Path)
  | throughFile (path : Path)
  | isDirectory (path : Path)
  | tooLong (path : Path)
  /-- Anything else that a host may come upon. -/
  | other (number : Nat) (meaning : String) (path : Path)
  deriving DecidableEq, Repr

/-- The wording of a file error: its number, what it means, and the path. -/
def FileError.message : FileError → String
  | .missing path => numbered 2 "No such file or directory" path
  | .throughFile path => numbered 20 "Not a directory" path
  | .isDirectory path => numbered 21 "Is a directory" path
  | .tooLong path => numbered 36 "File name too long" path
  | .other number meaning path => numbered number meaning path
where
  numbered (number : Nat) (meaning : String) (path : Path) : String :=
    "[Errno " ++ toString number ++ "] " ++ meaning ++ ": " ++ Text.quote path.text

/-- A file of the working directory. -/
structure File where
  /-- The names of the directories the file lies in, and its own name. -/
  names : List String
  content : List UInt8
  deriving DecidableEq, Repr

/-- The files of a working directory. -/
abbrev Files := List File

/-- Where a path leads. -/
inductive Place where
  | file (file : File)
  | directory
  /-- A name that is free in a directory inside the working directory. -/
  | free (names : List String)
  /-- A name in a directory outside of the working directory. -/
  | outside
  /-- The device that is always empty. -/
  | emptyDevice
  | missing
  | throughFile
  | tooLong

/-- The most bytes of a name. -/
def longestName : Nat :=
  255

/-- The most bytes of a path. -/
def longestPath : Nat :=
  4095

/-- The directories below the root that are known. -/
def usualDirectories : List String :=
  ["bin", "dev", "etc", "home", "lib", "opt", "proc", "root", "run", "sbin", "sys", "tmp", "usr",
    "var"]

/-- Follows names that start in a directory above the working directory, or in the root. -/
def followOutside : List String → Place
  | [] => .directory
  | ".." :: rest => followOutside rest
  | [name] => if longestName < name.utf8ByteSize then .tooLong else .outside
  | name :: _ => if longestName < name.utf8ByteSize then .tooLong else .missing

/-- Follows names that start in the root. -/
def followRoot : List String → Place
  | ["dev", "null"] => .emptyDevice
  | "dev" :: "null" :: _ => .throughFile
  | name :: rest =>
    if usualDirectories.contains name then followOutside rest
    else if name = ".." then followRoot rest
    else followOutside (name :: rest)
  | [] => .directory

namespace Files

/-- The file of a name. -/
def find? (files : Files) (names : List String) : Option File :=
  List.find? (fun file => file.names == names) files

/-- Whether files lie in a directory. The working directory itself always exists. -/
def hasDirectory (files : Files) (names : List String) : Bool :=
  names.isEmpty || files.any fun file => names.isPrefixOf file.names && file.names != names

/-- Follows names that start in a directory inside the working directory, whose own names are given
latest first. -/
def follow (files : Files) (here : List String) : List String → Place
  | [] => .directory
  | ".." :: rest =>
    match here with
    | _ :: above => follow files above rest
    | [] => followOutside rest
  | name :: rest =>
    let names := (name :: here).reverse
    match files.find? names with
    | some file => if rest.isEmpty then .file file else .throughFile
    | none =>
      if longestName < name.utf8ByteSize then .tooLong
      else if files.hasDirectory names then follow files (name :: here) rest
      else if rest.isEmpty then .free names
      else .missing

/-- Where a path leads. -/
def locate (files : Files) (path : Path) : Place :=
  if longestPath < path.text.utf8ByteSize then .tooLong
  else if path.root.isEmpty then follow files [] path.names
  else followRoot path.names

/-- The content of a file. -/
def read (files : Files) (path : Path) : Except FileError (List UInt8) :=
  match files.locate path with
  | .file file => .ok file.content
  | .directory => .error (.isDirectory path)
  | .emptyDevice => .ok []
  | .free _ | .outside | .missing => .error (.missing path)
  | .throughFile => .error (.throughFile path)
  | .tooLong => .error (.tooLong path)

/-- The files after a file has got a new content. The file is made if there is none. -/
def put (files : Files) (names : List String) (content : List UInt8) : Files :=
  if (files.find? names).isSome then
    files.map fun file => if file.names == names then ⟨names, content⟩ else file
  else files ++ [⟨names, content⟩]

/-- Writes a file. -/
def write (files : Files) (path : Path) (content : List UInt8) : Except FileError Files :=
  match files.locate path with
  | .file file => .ok (files.put file.names content)
  | .free names => .ok (files.put names content)
  | .outside | .emptyDevice => .ok files
  | .directory => .error (.isDirectory path)
  | .missing => .error (.missing path)
  | .throughFile => .error (.throughFile path)
  | .tooLong => .error (.tooLong path)

end Files

end SmallScheme.Host
