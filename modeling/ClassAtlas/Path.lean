/-!
# Paths

A path is a text whose parts are separated by slashes. Two slashes in a row, a slash at the end
and a part `.` that is not the first of a relative path add nothing, but they are kept where a
path is shown, so every operation works on the text: `ClassAtlas.Path.join` puts a path below
another, `ClassAtlas.Path.parent?` cuts off the last part that counts, and
`ClassAtlas.Path.extension?` looks at the end of that part.
-/

namespace ClassAtlas

/-- **A path**, by its text. -/
structure Path where
  /-- The text. -/
  text : String
  deriving DecidableEq, Repr, Inhabited

namespace Path

/-- A part of a path, between two slashes. -/
abbrev Part : Type := List Char

/-- The parts of a text. There is at least one, and a text that starts with a slash has an empty
one in front. -/
def splitSlash : List Char → List Part
  | [] => [[]]
  | c :: r =>
      if c = '/' then [] :: splitSlash r
      else
        match splitSlash r with
        | [] => [[c]]
        | part :: parts => (c :: part) :: parts

/-- Parts with slashes between them. -/
def joinSlash : List Part → List Char
  | [] => []
  | [part] => part
  | part :: parts => part ++ '/' :: joinSlash parts

/-- The path starts at the root of the file system. -/
def isAbsolute (path : Path) : Bool :=
  path.text.toList.head? == some '/'

/-- The parts of a path after its root, if it has one. -/
def parts (path : Path) : List Part :=
  let all := splitSlash path.text.toList
  if path.isAbsolute then all.tail else all

/-- A path below another one. An absolute path stays as it is. -/
def join (base path : Path) : Path :=
  if path.isAbsolute then path
  else if base.text = "" then path
  else if base.text.toList.getLast? == some '/' then ⟨base.text ++ path.text⟩
  else ⟨base.text ++ "/" ++ path.text⟩

/-- Parts without those at the end that add nothing. A part `.` counts where it is the first of
a relative path. -/
def trimParts (relative : Bool) : List Part → List Part
  | [] => []
  | part :: parts =>
      match trimParts false parts with
      | [] => if part = [] ∨ (part = ['.'] ∧ !relative) then [] else [part]
      | rest => part :: rest

/-- The parts of a path up to the last one that counts. -/
def properParts (path : Path) : List Part :=
  trimParts (!path.isAbsolute) path.parts

/-- **The parent of a path**: the path without its last part that counts. The root and the
empty path have none. -/
def parent? (path : Path) : Option Path :=
  match path.properParts with
  | [] => none
  | part :: parts =>
      let up := joinSlash (trimParts (!path.isAbsolute) (part :: parts).dropLast)
      some ⟨String.ofList (if path.isAbsolute then '/' :: up else up)⟩

/-- A path with its parent, the parent of that and so on, at most so many of them. -/
def ancestorsWithin : Nat → Path → List Path
  | 0, path => [path]
  | n + 1, path =>
      match path.parent? with
      | none => [path]
      | some parent => path :: ancestorsWithin n parent

/-- A path with all paths above it. There are at most as many as the path has parts. -/
def ancestors (path : Path) : List Path :=
  ancestorsWithin path.parts.length path

/-- The name of a path: its last part that counts, if that is a name. -/
def fileName? (path : Path) : Option Part :=
  match path.properParts.getLast? with
  | none => none
  | some part => if part = ['.'] ∨ part = ['.', '.'] then none else some part

/-- **The extension of a path**: what follows the last dot of its name, unless the dot starts
the name. -/
def extension? (path : Path) : Option Part :=
  match path.fileName? with
  | none => none
  | some name =>
      let after := (name.reverse.takeWhile (· ≠ '.')).reverse
      if name.length ≤ after.length + 1 then none else some after

/-- A text that cannot be a path of the operating system. -/
def hasNul (path : Path) : Bool :=
  path.text.toList.any fun c => c.toNat == 0

end Path

end ClassAtlas
