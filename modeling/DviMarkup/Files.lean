/-
  Files by their paths.

  A conversion asks for files by paths and gets an answer for each, so it does
  not matter where the files are.

  * `Entry` is what is at a path and `FileSystem` answers for every path;
  * `joinPath` and `stem` are the operations on paths;
  * `Place` is where a path leads, whatever names it goes through;
  * `FileTree` is a directory with files in it, with `FileTree.entry` and
    `FileTree.write`.
-/
import DviMarkup.Text.Blank

namespace DviMarkup

/-! ## Entries -/

/-- Why a file cannot be used. -/
inductive FileFault where
  | missing
  /-- The path goes through a file as if it was a directory. -/
  | notADirectory
  | isADirectory
  /-- The file may not be used. -/
  | denied
  /-- The path, or a name on it, is longer than any file's. -/
  | nameTooLong
  /-- The path has a character with the number zero, which ends names on disk. -/
  | nulInName
deriving Repr, DecidableEq

def FileFault.message : FileFault → String
  | missing => "No such file or directory (os error 2)"
  | notADirectory => "Not a directory (os error 20)"
  | isADirectory => "Is a directory (os error 21)"
  | denied => "Permission denied (os error 13)"
  | nameTooLong => "File name too long (os error 36)"
  | nulInName => "file name contained an unexpected NUL byte"

/-- What is at a path. -/
inductive Entry where
  | file (content : List UInt8)
  /-- A directory can be opened, but not read. -/
  | directory
  | absent (fault : FileFault)
deriving Repr, DecidableEq

/-- What is at each path. -/
abbrev FileSystem := String → Entry

/-! ## Paths -/

/-- A path seen from a directory: an absolute path stays as it is. -/
def joinPath (directory path : String) : String :=
  if path.toList.head? = some '/' then path
  else if directory.isEmpty || directory.toList.getLast? = some '/' then directory ++ path
  else directory ++ "/" ++ path

/-- The names along a path. -/
def pathNames (path : String) : List (List Char) :=
  Text.splitAt '/' path.toList

/-- The name at the end of a path, if there is one. -/
def fileName? (path : String) : Option (List Char) :=
  let names := (pathNames path).filter fun name => !(name.isEmpty || name = ['.'])
  match names.getLast? with
  | some name => if name = ['.', '.'] then none else some name
  | none => none

/-- A name up to its last point, unless that is its first character. -/
def nameStem (name : List Char) : List Char :=
  let (after, before) := name.reverse.span (· ≠ '.')
  match before with
  | _ :: front => if front.isEmpty then name else front.reverse
  | [] => after.reverse

/-- The name at the end of a path up to its last point. -/
def stem (path : String) : String :=
  String.ofList (((fileName? path).map nameStem).getD [])

/-! ## Places -/

/-- A place by the names that lead there from the current directory.  Outside of
    that directory it starts with names `..`, or with the empty name for the
    directory that all absolute paths start from. -/
abbrev Place := List (List Char)

namespace Place

/-- The directory that all absolute paths start from. -/
def top : Place := [[]]

/-- Whether a place is one of the directories around the current one, or that
    one itself. -/
def isAround (p : Place) : Bool :=
  p = top || p.all (· = ['.', '.'])

/-- The directory that a directory is in; none is around the top. -/
def parent (p : Place) : Place :=
  if p = top then top
  else if p.isAround then p ++ [['.', '.']]
  else p.dropLast

/-- The place that a name leads to from a directory. -/
def enter (directory : Place) (name : List Char) : Place :=
  if name.isEmpty || name = ['.'] then directory
  else if name = ['.', '.'] then directory.parent
  else directory ++ [name]

end Place

/-- The directory that a path starts from. -/
def pathStart (path : String) : Place :=
  if path.toList.head? = some '/' then .top else []

/-- Why a path cannot lead anywhere, if that can be seen from the path alone. -/
def pathFault? (path : String) : Option FileFault :=
  if path.toList.contains '\x00' then some .nulInName
  else if path.isEmpty then some .missing
  else if 4096 ≤ path.utf8ByteSize then some .nameTooLong
  else none

/-- Whether a name has more than the 255 bytes that a name can have. -/
def isTooLong (name : List Char) : Bool :=
  255 < name.foldr (fun c n => c.utf8Size + n) 0

/-! ## Trees -/

/-- A directory with files in it, each with its place. -/
structure FileTree where
  files : List (Place × List UInt8)
deriving Repr, DecidableEq

/-- What names lead to. -/
inductive Target where
  | file (place : Place) (content : List UInt8)
  | directory
  /-- A place in a directory with nothing there. -/
  | free (place : Place)
  | blocked (fault : FileFault)
deriving Repr, DecidableEq

namespace FileTree

/-- Whether there is a directory at a place: the directories around the tree
    and those on the way to a file. -/
def isDirectory (t : FileTree) (place : Place) : Bool :=
  place.isAround || t.files.any fun f => place.isPrefixOf f.1 && place ≠ f.1

/-- What names lead to from a directory. -/
def walk (t : FileTree) : (directory : Place) → List (List Char) → Target
  | _, [] => .directory
  | directory, name :: rest =>
    let here := directory.enter name
    if isTooLong name then .blocked .nameTooLong
    else if t.isDirectory here then walk t here rest
    else match t.files.lookup here, rest with
      | some content, [] => .file here content
      | some _, _ => .blocked .notADirectory
      | none, [] => .free here
      | none, _ => .blocked .missing

/-- What a path leads to. -/
def follow (t : FileTree) (path : String) : Target :=
  match pathFault? path with
  | some fault => .blocked fault
  | none => t.walk (pathStart path) (pathNames path)

/-- What is at a path. -/
def entry (t : FileTree) : FileSystem := fun path =>
  match t.follow path with
  | .file _ content => .file content
  | .directory => .directory
  | .free _ => .absent .missing
  | .blocked fault => .absent fault

/-- What a path leads to as the place for a file.  A path that ends with a slash
    can only name a directory, whether it is there or not, as soon as there is
    the one that it would be in. -/
def followForFile (t : FileTree) (path : String) : Target :=
  let backwards := (pathNames path).reverse
  match pathFault? path, backwards with
  | none, [] :: _ =>
    let above := (backwards.dropWhile List.isEmpty).tail
    t.walk (pathStart path) (above.reverse ++ [[]])
  | _, _ => t.follow path

/-- The tree in which a file has the given content. -/
def put (t : FileTree) (place : Place) (content : List UInt8) : FileTree :=
  { files := (place, content) :: t.files.filter (·.1 ≠ place) }

/-- Writes a file, in place of an earlier one; its directory has to exist. -/
def write (t : FileTree) (path : String) (content : List UInt8) : Except FileFault FileTree :=
  match t.followForFile path with
  | .file place _ | .free place => .ok (t.put place content)
  | .directory => .error .isADirectory
  | .blocked fault => .error fault

/-- A tree with files at the given paths. -/
def ofList (files : List (String × List UInt8)) : FileTree :=
  files.foldl (fun t f => t.put ((pathNames f.1).foldl Place.enter []) f.2) ⟨[]⟩

end FileTree

end DviMarkup
