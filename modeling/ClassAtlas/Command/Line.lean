import ClassAtlas.Path
/-!
# The command line

A command line is read word by word. Words up to the name of a command belong to the program,
words after it to the command, and each of the two accepts its own switches and settings, at most
once each. After the word `--` nothing is a switch or a setting any more. The first word that
cannot be accepted decides, unless an earlier one asks for help or for the version
(`ClassAtlas.Command.parse`).
-/

namespace ClassAtlas

/-- **What the program is asked to do.** -/
inductive Command where
  /-- Write a default configuration, with the given compiler. -/
  | init (clang : Option Path)
  /-- Compile a source file and show its classes. -/
  | show (clang : Option Path) (json : Bool) (arguments : List String)
  /-- Show the classes of a dump. -/
  | ast (file : Path) (clang : Option Path) (json : Bool)
  deriving DecidableEq, Repr, Inhabited

/-- A command with what is common to all commands. -/
structure Invocation where
  /-- More is logged. -/
  verbose : Bool
  /-- The root of the project. -/
  root : Path
  /-- The command. -/
  command : Command
  deriving DecidableEq, Repr, Inhabited

/-- What a command line amounts to when it names no command to run. -/
inductive Interruption where
  /-- It cannot be accepted. -/
  | usage
  /-- It asks for the version. -/
  | version
  /-- It asks for help. -/
  | help
  deriving DecidableEq, Repr, Inhabited

namespace Command

/-! ### Switches and settings -/

/-- The names of the commands. -/
inductive Verb where
  /-- Writes a default configuration. -/
  | init
  /-- Compiles a source file. -/
  | show
  /-- Reads a dump. -/
  | ast
  deriving DecidableEq, Repr, Inhabited

/-- The command with the given name. -/
def Verb.ofWord? : String → Option Verb
  | "init" => some .init
  | "show" => some .show
  | "ast" => some .ast
  | _ => none

/-- What a part of the command line has given so far. -/
structure Given where
  /-- The switch for verbose output. -/
  verbose : Bool := false
  /-- The switch for JSON. -/
  json : Bool := false
  /-- The root of the project. -/
  root : Option Path := none
  /-- The compiler. -/
  clang : Option Path := none
  /-- The words that are neither switches nor settings. -/
  words : List String := []
  deriving Repr, Inhabited

/-- A part of the command line: that of the program, before a command, or that of a command. -/
abbrev Level : Type := Option Verb

/-- A switch or setting. -/
inductive Flag where
  /-- More output. -/
  | verbose
  /-- Output as JSON. -/
  | json
  /-- The root of the project. -/
  | root
  /-- The compiler. -/
  | clang
  /-- Asks for the version. -/
  | version
  /-- Asks for help. -/
  | help
  deriving DecidableEq, Repr, Inhabited

/-- The flag with the given long name. -/
def Flag.ofLong? : List Char → Option Flag
  | ['v', 'e', 'r', 'b', 'o', 's', 'e'] => some .verbose
  | ['j', 's', 'o', 'n'] => some .json
  | ['r', 'o', 'o', 't'] => some .root
  | ['c', 'l', 'a', 'n', 'g'] => some .clang
  | ['v', 'e', 'r', 's', 'i', 'o', 'n'] => some .version
  | ['h', 'e', 'l', 'p'] => some .help
  | _ => none

/-- The flag with the given letter. -/
def Flag.ofShort? : Char → Option Flag
  | 'v' => some .verbose
  | 'V' => some .version
  | 'h' => some .help
  | _ => none

/-- **The flags of each level.** The version is asked of the program only. -/
def Flag.allowed : Level → Flag → Bool
  | _, .verbose => true
  | _, .root => true
  | _, .help => true
  | none, .version => true
  | none, _ => false
  | some _, .clang => true
  | some .show, .json => true
  | some .ast, .json => true
  | some _, _ => false

/-- The flag takes a value. -/
def Flag.takesValue : Flag → Bool
  | .root => true
  | .clang => true
  | _ => false

/-- Setting a switch, once. -/
def Given.switch (given : Given) : Flag → Except Interruption Given
  | .verbose => if given.verbose then throw .usage else return { given with verbose := true }
  | .json => if given.json then throw .usage else return { given with json := true }
  | .version => throw .version
  | .help => throw .help
  | _ => throw .usage

/-- Giving a setting its value, once. A path is never empty. -/
def Given.set (given : Given) (flag : Flag) (value : String) : Except Interruption Given :=
  if value = "" then throw .usage
  else
    match flag with
    | .root =>
        if given.root.isSome then throw .usage else return { given with root := some ⟨value⟩ }
    | .clang =>
        if given.clang.isSome then throw .usage else return { given with clang := some ⟨value⟩ }
    | _ => throw .usage

/-- Some switches in one word, by their letters. -/
def Given.letters (level : Level) (given : Given) : List Char → Except Interruption Given
  | [] => return given
  | c :: cs =>
      match Flag.ofShort? c with
      | none => throw .usage
      | some flag =>
          if flag.allowed level then do
            let given ← given.switch flag
            letters level given cs
          else throw .usage

/-- One more word that is neither a switch nor a setting. The command `ast` takes one at any
place, `show` takes them after `--`, and nothing else takes any. -/
def Given.word (level : Level) (given : Given) (afterDashes : Bool) (word : String) :
    Except Interruption Given :=
  let more := { given with words := given.words ++ [word] }
  match level with
  | some .ast => if given.words.isEmpty then return more else throw .usage
  | some .show => if afterDashes then return more else throw .usage
  | _ => throw .usage

/-- Words after `--`. -/
def Given.rest (level : Level) (given : Given) : List String → Except Interruption Given
  | [] => return given
  | word :: words => do
      let given ← given.word level true word
      rest level given words

/-- The word after a setting can be its value. -/
def isValue (word : String) : Bool :=
  match word.toList with
  | '-' :: _ :: _ => false
  | _ => true

/-- The name and the value of a word that gives a flag by its long name. -/
def splitLong (body : List Char) : List Char × Option String :=
  match body.dropWhile (· ≠ '=') with
  | [] => (body, none)
  | _ :: value => (body.takeWhile (· ≠ '='), some (String.ofList value))

/-! ### Reading a level -/

/-- Words that a level has given, and the command that follows with its words. -/
structure Reading where
  /-- What the level has given. -/
  given : Given
  /-- The command that follows, and the words after it. -/
  next : Option (Verb × List String) := none

/-- A request for help about a command. -/
def helpAbout : List String → Interruption
  | [] => .help
  | [word] => if (Verb.ofWord? word).isSome || word == "help" then .help else .usage
  | _ => .usage

/-- **Reading the words of a level.** -/
def readLevel (level : Level) (given : Given) : List String → Except Interruption Reading
  | [] => return ⟨given, none⟩
  | word :: words =>
      match if level.isNone then Verb.ofWord? word else none with
      | some verb => return ⟨given, some (verb, words)⟩
      | none =>
          if level.isNone && word == "help" then throw (helpAbout words)
          else
            match word.toList with
            | '-' :: '-' :: [] => do
                let given ← given.rest level words
                return ⟨given, none⟩
            | '-' :: '-' :: body =>
                let (name, attached) := splitLong body
                match Flag.ofLong? name with
                | none => throw .usage
                | some flag =>
                    if !flag.allowed level then throw .usage
                    else if flag.takesValue then
                      match attached, words with
                      | some value, words => do
                          let given ← given.set flag value
                          readLevel level given words
                      | none, value :: words =>
                          if isValue value then do
                            let given ← given.set flag value
                            readLevel level given words
                          else throw .usage
                      | none, [] => throw .usage
                    else if attached.isSome then throw .usage
                    else do
                      let given ← given.switch flag
                      readLevel level given words
            | '-' :: c :: cs => do
                let given ← given.letters level (c :: cs)
                readLevel level given words
            | _ => do
                let given ← given.word level false word
                readLevel level given words

/-- The command with what its level has given. -/
def ofGiven (verb : Verb) (given : Given) : Except Interruption Command :=
  match verb, given.words with
  | .init, _ => return .init given.clang
  | .show, [] => throw .usage
  | .show, words => return .show given.clang given.json words
  | .ast, [] => throw .usage
  | .ast, word :: _ => if word = "" then throw .usage else return .ast ⟨word⟩ given.clang given.json

/-- **Reading a command line.** What a command gives for the root goes before what the program
was given. -/
def parse (words : List String) : Except Interruption Invocation := do
  let program ← readLevel none {} words
  match program.next with
  | none => throw .usage
  | some (verb, words) =>
      let reading ← readLevel (some verb) {} words
      let command ← ofGiven verb reading.given
      return {
        verbose := program.given.verbose || reading.given.verbose
        root := (reading.given.root <|> program.given.root).getD ⟨"."⟩
        command := command }

end Command

end ClassAtlas
