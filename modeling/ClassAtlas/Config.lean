import ClassAtlas.Error
import ClassAtlas.Json.Record
import ClassAtlas.Json.Value
import ClassAtlas.Atlas
/-!
# Configuration

A project may keep a configuration in a file below its root. A missing file stands for the
defaults, and a file that is no configuration is an error and not a second way to say so
(`ClassAtlas.Config.load`). Saving makes the folder of the file and writes every field
(`ClassAtlas.Config.save`); loading accepts any subset of them.
-/

namespace ClassAtlas

open Json

/-- **A configuration.** -/
structure Config where
  /-- The compiler. -/
  clangPath : Option Path := none
  /-- The demangler. -/
  demanglerPath : Option Path := none
  /-- The greatest length of a chain of ancestors. -/
  maxInheritanceDepth : Nat := defaultDepth
  /-- Arguments that follow those of every compiler run. -/
  extraArgs : List String := []
  deriving DecidableEq, Repr, Inhabited

namespace Config

/-! ### The tools -/

/-- Where the compiler usually is. -/
def usualClang : Path :=
  ⟨"/usr/bin/clang"⟩

/-- **The compiler**: the given one, else that of the configuration, else the usual one. -/
def chooseClang (config : Config) (given : Option Path) : Path :=
  (given <|> config.clangPath).getD usualClang

/-- The name of the demangler that comes with the compiler. -/
def demanglerName : Path :=
  ⟨"llvm-cxxfilt"⟩

/-- **The demangler**: that of the configuration, else the one beside the compiler. -/
def chooseDemangler (config : Config) (clang : Path) : Path :=
  match config.demanglerPath with
  | some path => path
  | none =>
      match clang.parent? with
      | some folder => folder.join demanglerName
      | none => demanglerName

/-- The arguments of a compiler run: those of the caller and then those of the configuration. -/
def compileArgs (config : Config) (arguments : List String) : List String :=
  arguments ++ config.extraArgs

/-! ### The text of a configuration -/

/-- A path that may be absent. -/
def pathJson (path : Option Path) : Value :=
  match path with
  | none => .null
  | some p => .string p.text

/-- **A configuration as JSON**, with every field. -/
def toJson (config : Config) : Value :=
  .object
    [("clangPath", pathJson config.clangPath), ("demanglerPath", pathJson config.demanglerPath),
     ("maxInheritanceDepth", .number config.maxInheritanceDepth),
     ("extraArgs", .list (config.extraArgs.map Value.string))]

/-- A path. -/
def readPath (t : Tree) : Except Fault Path :=
  (t.readText .path).map Path.mk

/-- **The fields of a configuration.** -/
def shape : Shape Tree Config where
  name := "ClassViewConfig"
  slots :=
    [.of "clangPath" (Tree.readOptional readPath) fun a c => { c with clangPath := a },
     .of "demanglerPath" (Tree.readOptional readPath) fun a c => { c with demanglerPath := a },
     .of "maxInheritanceDepth" Tree.readCount fun a c => { c with maxInheritanceDepth := a },
     .of "extraArgs" (Tree.readList Tree.readString) fun a c => { c with extraArgs := a }]

/-- **The configuration that a text holds.** A limit of zero is refused. -/
def ofText (text : String) : Except ConfigFault Config :=
  match readDocument (shape.read {}) text with
  | .error fault => .error (.malformed text fault)
  | .ok config => if config.maxInheritanceDepth = 0 then .error .zeroDepth else .ok config

/-! ### The file of a configuration -/

/-- The folder of the configuration below the root of a project. -/
def folderIn (root : Path) : Path :=
  root.join ⟨".classview"⟩

/-- The file of the configuration below the root of a project. -/
def pathIn (root : Path) : Path :=
  (folderIn root).join ⟨"config.json"⟩

/-- **The configuration of a project**, or the defaults if it has no file. -/
def load (files : FileTree) (root : Path) : Except Error Config :=
  let path := pathIn root
  if !files.contains path then .ok {}
  else
    match files.readText path with
    | .error fault => .error (.file path fault)
    | .ok text => (ofText text).mapError (Error.config path)

/-- **Saving a configuration**: the path of the file, and the tree afterwards. -/
def save (config : Config) (files : FileTree) (root : Path) : Except Error Path × FileTree :=
  let folder := folderIn root
  let path := pathIn root
  match files.makeFolders folder with
  | (.error fault, partly) => (.error (.file folder fault), partly)
  | (.ok (), made) =>
      match made.writeText path config.toJson.text with
      | .error fault => (.error (.file path fault), made)
      | .ok written => (.ok path, written)

end Config

end ClassAtlas
