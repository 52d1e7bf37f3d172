import ClassAtlas.Command.Outcome
/-!
# The program

What a command does is a function on a tree of files (`ClassAtlas.Command.program`). Here it meets
the file system: the items that a command can look at are copied into a tree, the function is
applied, what it prints is printed, and a configuration that it has made is written
(`ClassAtlas.Session.run`). An item of the file system is never a program in the tree, since
nothing is started from here; a caller that has the programs puts them into the tree and applies
the function to it. Nor are places in a text told: that takes a caller who can find them.
-/

namespace ClassAtlas

namespace Session

/-! ### Copying items -/

/-- The item under a path of the file system, if there is one. A folder is copied without its
entries. -/
def itemAt (path : Path) : IO (Option Item) := do
  try
    let found ← IO.FS.realPath path.text
    if ← found.isDir then return some default
    else return some (.file (← IO.FS.readBinFile found) none)
  catch _ => return none

/-- The tree with an item under a path, and folders around it. -/
def hold (files : FileTree) (path : Path) : Item → FileTree
  | .folder _ => (files.makeFolders path).2
  | .file contents program =>
      let around := (path.parent?.map fun folder => (files.makeFolders folder).2).getD files
      ((around.placeFile path contents program).toOption).getD around

/-- The tree with copies of the items under some paths. -/
def copyItems (files : FileTree) : List Path → IO FileTree
  | [] => return files
  | path :: paths => do
      match ← itemAt path with
      | some item => copyItems (hold files path item) paths
      | none => copyItems files paths

/-- A tree that holds nothing but the folder from which relative paths start. -/
def emptyTree : IO FileTree := do
  let here ← IO.FS.realPath "."
  let path : Path := ⟨here.toString⟩
  let current := (path.parts.filter (· ≠ [])).map String.ofList
  return { (FileTree.empty.makeFolders path).2 with current }

/-! ### Running a command -/

/-- The paths of the configuration of a project, from the outside in. -/
def configPaths (root : Path) : List Path :=
  [root, Config.folderIn root, Config.pathIn root]

/-- The paths that a command looks at under a configuration. -/
def commandPaths (config : Config) (command : Command) : List Path :=
  let tools := fun given =>
    let clang := config.chooseClang given
    [clang, config.chooseDemangler clang]
  match command with
  | .init clang => tools clang
  | .show clang _ _ => tools clang
  | .ast file clang _ => file :: tools clang

/-- The tree that a command line needs. -/
def treeFor (words : List String) : IO FileTree := do
  let files ← emptyTree
  match Command.parse words with
  | .error _ => return files
  | .ok invocation =>
      let files ← copyItems files (configPaths invocation.root)
      let config := ((Config.load files invocation.root).toOption).getD {}
      copyItems files (commandPaths config invocation.command)

/-- Writes the configuration of a project if only the second tree has one. -/
def writeConfig (before after : FileTree) (root : Path) : IO Unit := do
  let path := Config.pathIn root
  if !before.contains path then
    if let .ok text := after.readText path then
      IO.FS.createDirAll (Config.folderIn root).text
      IO.FS.writeFile path.text text

/-- **Running a command line**: the exit status. -/
def run (words : List String) : IO UInt32 := do
  let stdout ← IO.getStdout
  let paint :=
    Paint.ofEnvironment (← IO.getEnv "CLICOLOR_FORCE") (← IO.getEnv "CLICOLOR")
      (← IO.getEnv "NO_COLOR") (← stdout.isTty)
  let before ← treeFor words
  let (outcome, after) := Command.program Json.Locator.nowhere paint words before
  if let .ok invocation := Command.parse words then
    writeConfig before after invocation.root
  IO.print outcome.output
  IO.eprint outcome.errors
  return outcome.status.toUInt32

end Session

end ClassAtlas

/-- The entry of the program. -/
def main (args : List String) : IO UInt32 :=
  ClassAtlas.Session.run args
