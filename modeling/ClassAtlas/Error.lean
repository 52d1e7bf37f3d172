import ClassAtlas.FileTree
import ClassAtlas.Json.Fault
/-!
# What can go wrong

`ClassAtlas.Error` lists the causes for which no atlas of a compilation unit can be made, and
`ClassAtlas.Error.message` has the wording of each. A text that is refused is part of the cause,
since the message tells where in it something is wrong. A base class that is not there is the one
cause that does not stand in the way of an atlas: it is collected as a
`ClassAtlas.UnresolvedBase`, and becomes an error only where a single edge is asked about.
-/

namespace ClassAtlas

/-- A base that no class of the compilation unit declares. -/
structure UnresolvedBase where
  /-- The bare name of the base. -/
  base : String
  /-- The full name of the class that declares it as a base. -/
  forClass : String
  deriving DecidableEq, Repr, Inhabited

/-- The causes for which a configuration is refused. -/
inductive ConfigFault where
  /-- The text is no configuration. -/
  | malformed (text : String) (fault : Json.Fault)
  /-- The limit on the depth of inheritance is zero. -/
  | zeroDepth
  deriving DecidableEq, Repr, Inhabited

/-- The message for a cause. -/
def ConfigFault.message (locate : Json.Locator) : ConfigFault → String
  | .malformed text fault => fault.messageIn locate (.record "ClassViewConfig") text
  | .zeroDepth => "maxInheritanceDepth must be at least 1"

/-- **The causes** for which something fails. -/
inductive Error where
  /-- The dump does not start with a compilation unit but with a node of this kind. -/
  | unexpectedRoot (kind : String)
  /-- The compilation unit is empty. -/
  | emptyUnit
  /-- The compiler failed or could not be started. -/
  | compileFailed
  /-- The text is no dump. -/
  | invalidDump (text : String) (fault : Json.Fault)
  /-- A base is missing. -/
  | baseNotFound (missing : UnresolvedBase)
  /-- A chain of ancestors of the class is longer than the limit. -/
  | tooDeep (className : String) (limit : Nat)
  /-- A tool is missing. -/
  | toolNotFound (path : Path)
  /-- An operation on files failed. -/
  | file (path : Path) (fault : FileFault)
  /-- The configuration is refused. -/
  | config (path : Path) (fault : ConfigFault)
  deriving DecidableEq, Repr, Inhabited

/-- The message for an operation on a file that failed, with the cause in words. -/
def fileMessage (path : Path) (cause : String) : String :=
  "failed to access '" ++ path.text ++ "': " ++ cause

/-- The message for a configuration that is refused, with the cause in words. -/
def configMessage (path : Path) (cause : String) : String :=
  "invalid configuration in '" ++ path.text ++ "': " ++ cause

/-- **The message** for a cause. -/
def Error.message (locate : Json.Locator) : Error → String
  | .unexpectedRoot kind => "expected TranslationUnitDecl, got " ++ kind
  | .emptyUnit => "empty translation unit"
  | .compileFailed => "failed to compile source file"
  | .invalidDump text fault =>
      "compiler did not output valid AST json: " ++
        fault.messageIn locate (.record "AstNode") text
  | .baseNotFound missing =>
      "base class '" ++ missing.base ++ "' of '" ++ missing.forClass ++ "' not found"
  | .tooDeep className limit =>
      "inheritance of '" ++ className ++ "' is cyclic or deeper than " ++ toString limit ++
        " levels"
  | .toolNotFound path => "tool not found at '" ++ path.text ++ "'"
  | .file path fault => fileMessage path fault.message
  | .config path fault => configMessage path (fault.message locate)

end ClassAtlas
