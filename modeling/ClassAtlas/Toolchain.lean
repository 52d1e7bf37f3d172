import ClassAtlas.Config
import ClassAtlas.Text.Utf8
/-!
# The tools

An atlas needs a compiler, which prints the dump of a source file, and a demangler, which is run
once for each linker symbol. Both must be there before any work begins
(`ClassAtlas.Toolchain.find`). A run that fails, or cannot be started, gives no text; and a
demangler that prints nothing, or the symbol itself, has not demangled it
(`ClassAtlas.Toolchain.accept`).
-/

namespace ClassAtlas

/-- **The tools**, by their paths. -/
structure Toolchain where
  /-- The compiler. -/
  clang : Path
  /-- The demangler. -/
  demangler : Path
  deriving DecidableEq, Repr, Inhabited

namespace Toolchain

/-- **The tools under two paths**, if there is something under each. The compiler is looked for
first. -/
def find (files : FileTree) (clang demangler : Path) : Except Error Toolchain :=
  if !files.contains clang then .error (.toolNotFound clang)
  else if !files.contains demangler then .error (.toolNotFound demangler)
  else .ok ⟨clang, demangler⟩

/-- The tools in one folder. -/
def findIn (files : FileTree) (folder : Path) : Except Error Toolchain :=
  find files (folder.join ⟨"clang"⟩) (folder.join Config.demanglerName)

/-- **The tools of a configuration**, unless another compiler is given. -/
def ofConfig (files : FileTree) (config : Config) (given : Option Path) :
    Except Error Toolchain :=
  let clang := config.chooseClang given
  find files clang (config.chooseDemangler clang)

/-- The flags that make the compiler print a dump. -/
def dumpFlags : List String :=
  ["-fsyntax-only", "-Xclang", "-ast-dump=json"]

/-- The arguments of the caller, followed by the flags for a dump. -/
def dumpArgs (arguments : List String) : List String :=
  arguments ++ dumpFlags

/-- The text that a successful run prints. -/
def printed (run : Run) : Option String :=
  if run.successful then some (Text.Utf8.lossy run.output) else none

/-- **A run of the compiler**: the dump, if it is successful. -/
def compile (files : FileTree) (tools : Toolchain) (arguments : List String) : Option String :=
  (files.startProgram tools.clang [] (dumpArgs arguments)).bind printed

/-- **What the demangler says** about a symbol by printing a text: the text without blanks around
it, unless that is empty or the symbol. -/
def accept (symbol text : String) : Option String :=
  let answer := Text.trim text
  if answer = "" ∨ answer = Text.trim symbol then none else some answer

/-- **The demangler**, run once for each request that has a symbol. -/
def demangle (files : FileTree) (tools : Toolchain) : Demangler :=
  fun earlier request => do
    let symbol ← request
    let earlierRuns := earlier.filterMap fun r => r.map fun s => [s]
    let run ← files.startProgram tools.demangler earlierRuns [symbol]
    accept symbol (← printed run)

end Toolchain

end ClassAtlas
