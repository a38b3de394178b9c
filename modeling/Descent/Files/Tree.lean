/-!
# Trees of files

A tree of files below a working directory, as a value. Every entry has a place, the
list of the names on the way to it, and is a text, a file that is no text, or a
directory. Paths are followed name by name; a single dot stays, two dots go up, and
empty names count for nothing. Operations give the new tree or the reason for which
nothing was done.
-/

namespace Descent.Files

/-- Why a file operation fails. -/
inductive FileError where
  | notFound
  | alreadyExists
  | notADirectory
  | isADirectory
  | nameTooLong
  /-- The path has a character of code zero in it. -/
  | zeroInPath
  /-- The file is no text. -/
  | notText
deriving DecidableEq, Repr

/-- The message of a refused operation. -/
def FileError.message : FileError → String
  | notFound => "No such file or directory (os error 2)"
  | alreadyExists => "File exists (os error 17)"
  | notADirectory => "Not a directory (os error 20)"
  | isADirectory => "Is a directory (os error 21)"
  | nameTooLong => "File name too long (os error 36)"
  | zeroInPath => "file name contained an unexpected NUL byte"
  | notText => "stream did not contain valid UTF-8"

/-- What a place holds. -/
inductive Entry where
  | text (contents : String)
  /-- A file whose bytes are no text. -/
  | binary (bytes : List Nat)
  | directory
deriving DecidableEq, Repr

/-- The names on the way from the working directory to a place. -/
abbrev Place := List String

/-- The entries below the working directory, each with its place. -/
structure FileTree where
  entries : List (Place × Entry)
deriving DecidableEq, Repr

namespace FileTree

/-- A working directory with nothing in it. -/
def empty : FileTree := ⟨[]⟩

/-- What is at a place; the working directory is a directory. -/
def at? (t : FileTree) (place : Place) : Option Entry :=
  if place.isEmpty then some .directory
  else (t.entries.find? fun e => e.1 == place).map (·.2)

/-- Puts an entry at a place, instead of the one that was there. -/
def put (t : FileTree) (place : Place) (entry : Entry) : FileTree :=
  if (t.at? place).isSome then
    ⟨t.entries.map fun e => if e.1 == place then (place, entry) else e⟩
  else ⟨t.entries ++ [(place, entry)]⟩

/-- The names of a path between its slashes. -/
def namesOf : List Char → List (List Char)
  | [] => [[]]
  | c :: rest =>
    if c == '/' then [] :: namesOf rest
    else
      match namesOf rest with
      | [] => [[c]]
      | name :: names => (c :: name) :: names

/-- The greatest number of bytes in a name, and in a path. -/
def maxName : Nat := 255

/-- The greatest length of a path in bytes. -/
def maxPath : Nat := 4095

/-- Where a path leads: the place, and whether the path asks for a directory there. -/
structure Target where
  place : Place
  asDirectory : Bool
deriving DecidableEq, Repr

/-- Follows names from a place, which must be a directory as soon as a name is behind it. -/
def follow (t : FileTree) (place : Place) : List String → Except FileError Target
  | [] => .ok ⟨place, false⟩
  | name :: rest =>
    match t.at? place with
    | none => .error .notFound
    | some .directory =>
      if name == "" || name == "." then
        if rest.isEmpty then .ok ⟨place, true⟩ else t.follow place rest
      else if name == ".." then
        if rest.isEmpty then .ok ⟨place.dropLast, true⟩ else t.follow place.dropLast rest
      else if maxName < name.utf8ByteSize then .error .nameTooLong
      else t.follow (place ++ [name]) rest
    | some _ => .error .notADirectory

/-- Where a path leads. A slash at the end asks for a directory, which need not be there yet. -/
def target (t : FileTree) (path : String) : Except FileError Target :=
  if path.toList.contains '\x00' then .error .zeroInPath
  else if path.isEmpty then .error .notFound
  else if maxPath < path.utf8ByteSize then .error .nameTooLong
  else
    let names := (namesOf path.toList).map String.ofList
    let trimmed := (names.reverse.dropWhile (· == "")).reverse
    match t.follow [] trimmed with
    | .error e => .error e
    | .ok target => .ok { target with asDirectory := target.asDirectory || trimmed != names }

/-- The text of the file at a path. -/
def readText (t : FileTree) (path : String) : Except FileError String :=
  match t.target path with
  | .error e => .error e
  | .ok target =>
    match t.at? target.place with
    | none => .error .notFound
    | some .directory => .error .isADirectory
    | some (.text contents) => if target.asDirectory then .error .notADirectory else .ok contents
    | some (.binary _) => .error (if target.asDirectory then .notADirectory else .notText)

/-- The path leads to a directory. -/
def isDirectory (t : FileTree) (path : String) : Bool :=
  match t.target path with
  | .error _ => false
  | .ok target => t.at? target.place == some .directory

/-- Makes one directory. -/
def makeDirectory (t : FileTree) (path : String) : Except FileError FileTree :=
  match t.target path with
  | .error e => .error e
  | .ok target =>
    match t.at? target.place with
    | some _ => .error .alreadyExists
    | none =>
      match t.at? target.place.dropLast with
      | some .directory => .ok (t.put target.place .directory)
      | some _ => .error .notADirectory
      | none => .error .notFound

/-- The path of some names. -/
def joined (names : List (List Char)) : String := String.ofList (['/'].intercalate names)

/-- The paths above the first of some names, which come in reverse, the longest path first. -/
def pathsAbove : List (List Char) → List String
  | [] => []
  | [_] => []
  | [_, []] => []
  | _ :: names => joined names.reverse :: pathsAbove names

/-- A path and the paths above it, the longest first. Behind the first name empty names and single
dots do not count. -/
def ancestors (path : String) : List String :=
  if path.isEmpty then []
  else
    match namesOf path.toList with
    | [] => []
    | first :: rest =>
      path :: pathsAbove (first :: rest.filter fun name => name != [] && name != ['.']).reverse

/-- Makes a directory unless it is there. The tree is the one that is left behind. -/
def ensureDirectory (t : FileTree) (path : String) : FileTree × Except FileError Unit :=
  match t.makeDirectory path with
  | .ok t => (t, .ok ())
  | .error e => if t.isDirectory path then (t, .ok ()) else (t, .error e)

/-- Makes the first of some directories, each of which lies in the next one; those that are missing
above it are made first. The tree is the one that is left behind, also by a failure. -/
def makeDirectories (t : FileTree) : List String → FileTree × Except FileError Unit
  | [] => (t, .ok ())
  | path :: above =>
    match t.makeDirectory path with
    | .error .notFound =>
      match t.makeDirectories above with
      | (t, .error e) => (t, .error e)
      | (t, .ok ()) => t.ensureDirectory path
    | _ => t.ensureDirectory path

/-- Writes a text to the file at a path, which is made if it is not there. -/
def writeText (t : FileTree) (path contents : String) : Except FileError FileTree :=
  match t.target path with
  | .error e => .error e
  | .ok target =>
    match t.at? target.place with
    | some .directory => .error .isADirectory
    | some _ =>
      if target.asDirectory then .error .notADirectory
      else .ok (t.put target.place (.text contents))
    | none =>
      match t.at? target.place.dropLast with
      | some .directory =>
        if target.asDirectory then .error .isADirectory
        else .ok (t.put target.place (.text contents))
      | some _ => .error .notADirectory
      | none => .error .notFound

/-- A path to a name inside a directory. -/
def join (directory name : String) : String :=
  if directory.isEmpty then name
  else if directory.toList.getLast? == some '/' then directory ++ name
  else directory ++ "/" ++ name

/-- The last name of a path, without slashes and single dots behind it. -/
def fileName? (path : String) : Option String :=
  let names := ((namesOf path.toList).map String.ofList).reverse
  match names.dropWhile fun n => n == "" || n == "." with
  | [] => none
  | name :: _ => if name == ".." then none else some name

/-- The last name of a path without its extension, which begins at the last dot unless that is the
first character. -/
def fileStem? (path : String) : Option String :=
  (fileName? path).map fun name =>
    let back := name.toList.reverse
    let extension := back.takeWhile (· != '.')
    match back.drop extension.length with
    | [] => name
    | [_] => name
    | _ :: stem => String.ofList stem.reverse

end FileTree
end Descent.Files
