import ClassAtlas.Command.Line
import ClassAtlas.Command.Report
import ClassAtlas.Toolchain
/-!
# Running a command

A command is a function on a tree of files: it gives what is printed or the cause for which it
fails, and the tree afterwards (`ClassAtlas.Command.run`). Only `init` changes the tree, and only
where there is no configuration yet. The commands `show` and `ast` come by a dump in different
ways and make the same atlas of it; without tools `show` fails and `ast` shows methods under
their declared names.
-/

namespace ClassAtlas

namespace Command

/-! ### Causes of failure -/

/-- The causes for which a command fails. -/
inductive Failure where
  /-- No atlas can be made. -/
  | error (cause : Error)
  /-- The dump cannot be read. -/
  | unreadable (fault : FileFault)
  deriving DecidableEq, Repr, Inhabited

/-- The message for a cause. -/
def Failure.message (locate : Json.Locator) : Failure → String
  | .error cause => cause.message locate
  | .unreadable fault => fault.message

/-! ### Writing a configuration -/

/-- The lines that warn of a compiler that is not there. -/
def warning (paint : Paint) (files : FileTree) (clang : Path) : List String :=
  if files.contains clang then []
  else
    ["  " ++ paint.apply .yellow "⚠" ++ " " ++ clang.text ++ " does not exist, edit " ++
      paint.apply .cyan "clangPath" ++ " before running " ++ paint.apply .cyan "classview show"]

/-- The configuration that is written: the defaults with the given compiler. -/
def initialConfig (clang : Option Path) : Config :=
  { ({} : Config) with clangPath := some (({} : Config).chooseClang clang) }

/-- **Writing a default configuration**, unless there is one. -/
def runInit (paint : Paint) (root : Path) (clang : Option Path) (files : FileTree) :
    Except Failure String × FileTree :=
  if files.contains (Config.pathIn root) then
    (.ok (unlines [paint.apply .green "✓" ++ " Already initialized"]), files)
  else
    match (initialConfig clang).save files root with
    | (.error cause, partly) => (.error (.error cause), partly)
    | (.ok path, written) =>
        let lines :=
          (paint.apply .green "✓" ++ " Wrote " ++ path.text) ::
            warning paint written (({} : Config).chooseClang clang)
        (.ok (unlines lines), written)

/-! ### Showing classes -/

/-- The extensions of source files, in lower case. -/
def sourceExtensions : List String :=
  ["cpp", "cc", "cxx", "c++", "c", "hpp", "hh", "hxx", "h"]

/-- An argument looks like a source file. Of all letters only the Latin capitals have one of the
letters of the extensions as their lower case. -/
def isSource (argument : String) : Bool :=
  argument.toList.head? != some '-' &&
    ((Path.mk argument).extension?.any fun e =>
      sourceExtensions.contains (String.ofList (e.map Char.toLower)))

/-- **The source file** among the arguments of the compiler: the last that looks like one. -/
def sourceFile (arguments : List String) : String :=
  (arguments.reverse.find? isSource).getD "<unknown>"

/-- **The atlas of a source file** that is compiled. -/
def atlasOfSource (root : Path) (clang : Option Path) (arguments : List String)
    (files : FileTree) : Except Failure Atlas := do
  let config ← (Config.load files root).mapError .error
  let tools ← (Toolchain.ofConfig files config clang).mapError .error
  let traced :=
    Atlas.ofSource (tools.compile files) (tools.demangle files) config.maxInheritanceDepth
      (sourceFile arguments) (config.compileArgs arguments)
  traced.result.mapError .error

/-- **The atlas of a dump** that is on hand. Without tools no request for a readable name is
answered. -/
def atlasOfDump (root : Path) (file : Path) (clang : Option Path) (files : FileTree) :
    Except Failure Atlas := do
  let config ← (Config.load files root).mapError .error
  let dump ← (files.readText file).mapError .unreadable
  let demangler :=
    match Toolchain.ofConfig files config clang with
    | .ok tools => tools.demangle files
    | .error _ => Demangler.silent
  let traced := Atlas.ofDump demangler config.maxInheritanceDepth file.text dump
  traced.result.mapError .error

/-- **Running a command.** -/
def run (paint : Paint) (invocation : Invocation) (files : FileTree) :
    Except Failure String × FileTree :=
  match invocation.command with
  | .init clang => runInit paint invocation.root clang files
  | .show clang json arguments =>
      ((atlasOfSource invocation.root clang arguments files).map (report paint json), files)
  | .ast file clang json =>
      ((atlasOfDump invocation.root file clang files).map (report paint json), files)

/-! ### The program -/

/-- What the program prints and how it ends. -/
structure Outcome where
  /-- The exit status. -/
  status : Nat
  /-- What is printed. -/
  output : String
  /-- What is printed about a failure. -/
  errors : String
  deriving DecidableEq, Repr, Inhabited

/-- **The outcome of a command** with the given result. -/
def Outcome.ofResult (locate : Json.Locator) (paint : Paint) : Except Failure String → Outcome
  | .ok output => ⟨0, output, ""⟩
  | .error failure =>
      ⟨1, "", paint.apply .boldRed "error:" ++ " " ++ failure.message locate ++ "\n"⟩

/-- **Performing a command**: how the program ends, and the tree afterwards. -/
def perform (locate : Json.Locator) (paint : Paint) (invocation : Invocation) (files : FileTree) :
    Outcome × FileTree :=
  let (result, after) := run paint invocation files
  (.ofResult locate paint result, after)

/-- The text for the version. -/
def versionText : String :=
  "classview 0.3.0\n"

/-- The text for help. -/
def helpText : String :=
  unlines
    ["Class, member and inheritance view of a C++ translation unit", "",
     "Usage: classview [-v|--verbose] [--root DIR] COMMAND", "", "Commands:",
     "  init [--clang PATH]                        Write a default .classview/config.json",
     "  show [--clang PATH] [--json] -- ARGS...    Compile a source file and show its classes",
     "  ast FILE [--clang PATH] [--json]           Show the classes of a dump"]

/-- **The program**: what a command line amounts to, on a tree of files. -/
def program (locate : Json.Locator) (paint : Paint) (words : List String) (files : FileTree) :
    Outcome × FileTree :=
  match parse words with
  | .error .usage => (⟨2, "", helpText⟩, files)
  | .error .version => (⟨0, versionText, ""⟩, files)
  | .error .help => (⟨0, helpText, ""⟩, files)
  | .ok invocation => perform locate paint invocation files

end Command

end ClassAtlas
