import ClassAtlas.Path
import ClassAtlas.Program
/-!
# A tree of files

The commands work on a tree of folders and files, given as a value
(`ClassAtlas.FileTree`). Following a path, reading a file and making folders and files are
functions on it, with the causes of failure that an operating system reports
(`ClassAtlas.FileFault`). What fails may still have changed the tree: a folder that was made on
the way stays.

Everything in a tree is accessible. There are no access rights, and for causes that have nothing to
do with what is in the tree no operation fails.

A program is started from a file, or under its name if it is installed
(`ClassAtlas.FileTree.programAt`). What is installed comes with the tree, and nothing is assumed
about it.
-/

namespace ClassAtlas

/-! ### Causes of failure -/

/-- **The causes** for which an operation on files fails. -/
inductive FileFault where
  /-- There is nothing under the path. -/
  | notFound
  /-- There is something under the path already. -/
  | exists
  /-- A part of the path that is not the last is no folder. -/
  | notFolder
  /-- There is a folder under the path. -/
  | isFolder
  /-- The path or a part of it is too long. -/
  | nameTooLong
  /-- The path holds the character with code point zero. -/
  | nulInPath
  /-- The file holds no well-formed text. -/
  | notText
  deriving DecidableEq, Repr, Inhabited

/-- The message for a cause. -/
def FileFault.message : FileFault → String
  | .notFound => "No such file or directory (os error 2)"
  | .exists => "File exists (os error 17)"
  | .notFolder => "Not a directory (os error 20)"
  | .isFolder => "Is a directory (os error 21)"
  | .nameTooLong => "File name too long (os error 36)"
  | .nulInPath => "file name contained an unexpected NUL byte"
  | .notText => "stream did not contain valid UTF-8"

/-! ### Files and folders -/

/-- **A file or a folder.** -/
inductive Item where
  /-- A file with its contents. If it can be started, it is also a program. -/
  | file (contents : ByteArray) (program : Option Program)
  /-- A folder with its entries. -/
  | folder (entries : List (String × Item))

/-- An empty folder is the default. -/
instance : Inhabited Item :=
  ⟨.folder []⟩

/-- A place in a tree: the names on the way from its root. -/
abbrev Location : Type := List String

/-- What is at a location below an item. -/
def Item.get? : Location → Item → Option Item
  | [], item => some item
  | name :: names, .folder entries => (entries.lookup name).bind (Item.get? names)
  | _ :: _, .file _ _ => none

/-- Entries with the given one put under its name, in the place of an older one. -/
def putEntry (name : String) (item : Item) : List (String × Item) → List (String × Item)
  | [] => [(name, item)]
  | (other, old) :: entries =>
      if other = name then (name, item) :: entries else (other, old) :: putEntry name item entries

/-- An item with the given one put at a location. Folders that are missing on the way are made;
below a file nothing can be put. -/
def Item.put (new : Item) : Location → Item → Item
  | [], _ => new
  | name :: names, .folder entries =>
      .folder (putEntry name (Item.put new names ((entries.lookup name).getD default)) entries)
  | _ :: _, .file contents program => .file contents program

/-- The item is a folder. -/
def Item.isFolder : Item → Bool
  | .folder _ => true
  | .file _ _ => false

/-- **A tree of files** with the folder from which relative paths start, and the programs that are
installed beside it. -/
structure FileTree where
  /-- The folder at the root. -/
  root : Item
  /-- The location from which relative paths start. -/
  current : Location
  /-- The program that is installed under a name, if there is one. -/
  installed : (name : String) → Option Program

namespace FileTree

/-- The tree that holds nothing, with nothing installed. -/
def empty : FileTree where
  root := .folder []
  current := []
  installed := fun _ => none

/-! ### Following a path -/

/-- The greatest number of bytes in a part of a path. -/
def maxPart : Nat :=
  255

/-- The greatest number of bytes in a path. -/
def maxPath : Nat :=
  4095

/-- Follows the parts of a path from a location. Every part, even one that adds nothing, needs a
folder to stand in. -/
def follow (root : Item) : Location → List Path.Part → Except FileFault Location
  | location, [] => .ok location
  | location, part :: parts =>
      match root.get? location with
      | none => .error .notFound
      | some (.file _ _) => .error .notFolder
      | some (.folder entries) =>
          if part = [] ∨ part = ['.'] then follow root location parts
          else if part = ['.', '.'] then follow root location.dropLast parts
          else
            let name := String.ofList part
            if maxPart < name.utf8ByteSize then .error .nameTooLong
            else if (entries.lookup name).isSome then follow root (location ++ [name]) parts
            else .error .notFound

/-- The location at which a path starts, unless no path can have its text. -/
def start (files : FileTree) (path : Path) : Except FileFault Location :=
  if path.hasNul then .error .nulInPath
  else if path.text = "" then .error .notFound
  else if maxPath < path.text.utf8ByteSize then .error .nameTooLong
  else .ok (if path.isAbsolute then [] else files.current)

/-- **The location of a path**, if there is something under it. -/
def locate (files : FileTree) (path : Path) : Except FileFault Location := do
  let location ← files.start path
  follow files.root location path.parts

/-- What is under a path. -/
def item (files : FileTree) (path : Path) : Except FileFault Item := do
  let location ← files.locate path
  match files.root.get? location with
  | some item => return item
  | none => throw .notFound

/-- There is something under the path. -/
def contains (files : FileTree) (path : Path) : Bool :=
  (files.item path).isOk

/-- There is a folder under the path. -/
def hasFolder (files : FileTree) (path : Path) : Bool :=
  match files.item path with
  | .ok item => item.isFolder
  | .error _ => false

/-! ### Reading -/

/-- The contents of the file under a path. -/
def readBytes (files : FileTree) (path : Path) : Except FileFault ByteArray := do
  match ← files.item path with
  | .file contents _ => return contents
  | .folder _ => throw .isFolder

/-- **The text of the file under a path.** -/
def readText (files : FileTree) (path : Path) : Except FileFault String := do
  let contents ← files.readBytes path
  match String.fromUTF8? contents with
  | some text => return text
  | none => throw .notText

/-! ### Writing -/

/-- The tree with an item put at a location. -/
def put (files : FileTree) (location : Location) (item : Item) : FileTree :=
  { files with root := Item.put item location files.root }

/-- The folder in which the last part of a path stands. -/
def enclosing (files : FileTree) (path : Path) (parts : List Path.Part) :
    Except FileFault Location := do
  let location ← follow files.root (← files.start path) parts
  match files.root.get? location with
  | some (.folder _) => return location
  | some (.file _ _) => throw .notFolder
  | none => throw .notFound

/-- **Making a folder.** The folder around it has to be there, and nothing in its place. Slashes
at the end of the path add nothing. -/
def makeFolder (files : FileTree) (path : Path) : Except FileFault FileTree := do
  let _ ← files.start path
  let parts := (path.parts.reverse.dropWhile (· == [])).reverse
  match parts.getLast? with
  | none => throw .exists
  | some part =>
      let location ← files.enclosing path parts.dropLast
      if part = ['.'] ∨ part = ['.', '.'] then throw .exists
      let name := String.ofList part
      if maxPart < name.utf8ByteSize then throw .nameTooLong
      match files.root.get? (location ++ [name]) with
      | some _ => throw .exists
      | none => return files.put (location ++ [name]) default

/-- Making the first of some folders, each of which is inside the next one. If the folder around
it is missing, that one is made first. The empty path stands for the folder from which paths
start, which is there. -/
def makeFolderAlong (files : FileTree) : List Path → Except FileFault Unit × FileTree
  | [] => (.ok (), files)
  | path :: around =>
      if path.text = "" then (.ok (), files)
      else
        match files.makeFolder path with
        | .ok made => (.ok (), made)
        | .error .notFound =>
            match files.makeFolderAlong around with
            | (.error fault, partly) => (.error fault, partly)
            | (.ok (), partly) =>
                match partly.makeFolder path with
                | .ok made => (.ok (), made)
                | .error fault =>
                    (if partly.hasFolder path then .ok () else .error fault, partly)
        | .error fault => (if files.hasFolder path then .ok () else .error fault, files)

/-- **Making a folder with all folders around it**, unless it is there. -/
def makeFolders (files : FileTree) (path : Path) : Except FileFault Unit × FileTree :=
  files.makeFolderAlong path.ancestors

/-- **Placing a file**, in the place of an older one. The folder around it has to be there. -/
def placeFile (files : FileTree) (path : Path) (contents : ByteArray)
    (program : Option Program) : Except FileFault FileTree := do
  let _ ← files.start path
  match path.parts.getLast? with
  | none => throw .isFolder
  | some part =>
      let location ← files.enclosing path path.parts.dropLast
      if part = [] ∨ part = ['.'] ∨ part = ['.', '.'] then throw .isFolder
      let name := String.ofList part
      if maxPart < name.utf8ByteSize then throw .nameTooLong
      match files.root.get? (location ++ [name]) with
      | some (.folder _) => throw .isFolder
      | _ => return files.put (location ++ [name]) (.file contents program)

/-- Writing a text. -/
def writeText (files : FileTree) (path : Path) (text : String) : Except FileFault FileTree :=
  files.placeFile path text.toUTF8 none

/-! ### Starting a program -/

/-- **The program that a path stands for**: the one in the file under it. A path without a slash is
the name of an installed program, whatever is under it in the tree. -/
def programAt (files : FileTree) (path : Path) : Option Program :=
  if path.hasNul then none
  else if path.text.toList.contains '/' then
    match files.item path with
    | .ok (.file _ program) => program
    | _ => none
  else files.installed path.text

/-- **A run of the program that a path stands for** with the given arguments, after earlier runs
with others. An argument that holds the character with code point zero cannot be passed on. -/
def startProgram (files : FileTree) (path : Path) (earlier : List (List String))
    (arguments : List String) : Option Run :=
  if arguments.any fun a => a.toList.any fun c => c.toNat == 0 then none
  else (files.programAt path).map fun program => program.run earlier arguments

end FileTree

end ClassAtlas
