import ClassAtlas.Command.Outcome
import ClassAtlas.Proofs.Configuration
/-!
# Making a configuration

The command `init` writes the default configuration of a project where there is none. One call of it
either finds something in the place of the configuration, and then leaves all files as they are, or
saves a configuration, which can fail (`ClassAtlas.Command.InitCall.run_cases`). So whatever has
once been there stays, whoever wrote it, and of any number of calls only the first that succeeds can
have written something (`ClassAtlas.Command.runCalls_of_contains`). What it has written is loaded
from then on.
-/

namespace ClassAtlas

namespace Command

/-! ### One call -/

/-- **A call of `init`**, besides the root of the project. -/
structure InitCall where
  /-- Whether colours are shown. -/
  paint : Paint := false
  /-- More is logged. -/
  verbose : Bool := false
  /-- The compiler that is given. -/
  clang : Option Path := none

/-- What a call comes to on a tree of files, and the tree afterwards. -/
def InitCall.run (call : InitCall) (root : Path) (files : FileTree) :
    Except Failure String × FileTree :=
  Command.run call.paint ⟨call.verbose, root, .init call.clang⟩ files

variable {root : Path} {files after : FileTree} {call : InitCall}

/-- **What one call can do**: it finds something in the place of the configuration and changes
nothing, or it saves the initial configuration and succeeds if that does. -/
theorem InitCall.run_cases (call : InitCall) (root : Path) (files : FileTree) :
    (files.contains (Config.pathIn root) = true ∧ ∃ text, call.run root files = (.ok text, files)) ∨
    files.contains (Config.pathIn root) = false ∧
      ((∃ path after text, (initialConfig call.clang).save files root = (.ok path, after) ∧
          call.run root files = (.ok text, after)) ∨
        ∃ cause after, (initialConfig call.clang).save files root = (.error cause, after) ∧
          call.run root files = (.error (.error cause), after)) := by
  rw [InitCall.run, Command.run]
  dsimp only
  rw [runInit]
  rcases hthere : files.contains (Config.pathIn root) with - | -
  · refine Or.inr ⟨rfl, ?_⟩
    rw [if_neg Bool.false_ne_true]
    rcases hsave : (initialConfig call.clang).save files root with ⟨cause | path, after⟩
    · exact Or.inr ⟨cause, after, rfl, rfl⟩
    · exact Or.inl ⟨path, after, _, rfl, rfl⟩
  · exact Or.inl ⟨rfl, _, if_pos rfl⟩

/-- Where something is in the place of the configuration a call succeeds and changes nothing. -/
theorem InitCall.run_of_contains (call : InitCall)
    (h : files.contains (Config.pathIn root) = true) :
    ∃ text, call.run root files = (.ok text, files) := by
  rcases call.run_cases root files with ⟨-, hrun⟩ | ⟨hnone, -⟩
  · exact hrun
  · rw [h] at hnone
    cases hnone

/-- Where nothing is there a call that succeeds has saved the initial configuration. -/
theorem InitCall.save_of_run {text : String} (h : files.contains (Config.pathIn root) = false)
    (hrun : call.run root files = (.ok text, after)) :
    ∃ path, (initialConfig call.clang).save files root = (.ok path, after) := by
  rcases call.run_cases root files with ⟨hthere, -⟩ | ⟨-, ⟨path, after', text', hsave, hrun'⟩ |
    ⟨cause, after', -, hrun'⟩⟩
  · rw [h] at hthere
    cases hthere
  · rw [hrun] at hrun'
    obtain rfl := (Prod.mk.inj hrun').2
    exact ⟨path, hsave⟩
  · rw [hrun] at hrun'
    cases (Prod.mk.inj hrun').1

/-! ### Calls one after the other -/

/-- **Calls one after the other**: what each comes to, and the tree after the last. -/
def runCalls (root : Path) : List InitCall → FileTree → List (Except Failure String) × FileTree
  | [], files => ([], files)
  | call :: calls, files =>
      let first := call.run root files
      let rest := runCalls root calls first.2
      (first.1 :: rest.1, rest.2)

theorem runCalls_append (earlier later : List InitCall) (files : FileTree) :
    (runCalls root (earlier ++ later) files).2 =
      (runCalls root later (runCalls root earlier files).2).2 := by
  induction earlier generalizing files with
  | nil => rfl
  | cons call earlier ih => exact ih (call.run root files).2

/-- **Calls on a project that has a configuration** succeed and change nothing. -/
theorem runCalls_of_contains (calls : List InitCall)
    (h : files.contains (Config.pathIn root) = true) :
    (∀ outcome ∈ (runCalls root calls files).1, ∃ text, outcome = .ok text) ∧
      (runCalls root calls files).2 = files := by
  induction calls with
  | nil => exact ⟨List.forall_mem_nil _, rfl⟩
  | cons call calls ih =>
    obtain ⟨text, hrun⟩ := call.run_of_contains h
    rw [runCalls, hrun]
    exact ⟨List.forall_mem_cons.mpr ⟨⟨text, rfl⟩, ih.1⟩, ih.2⟩

/-- The initial configuration has the defaults besides its compiler. -/
theorem initialConfig_eq (clang : Option Path) :
    initialConfig clang = { clangPath := some (clang.getD Config.usualClang) } := by
  rcases clang with - | clang <;> rfl

/-- The initial configuration is loaded after a call has saved it. -/
theorem load_of_run {text : String} (h : files.contains (Config.pathIn root) = false)
    (hrun : call.run root files = (.ok text, after)) :
    Config.load after root = .ok (initialConfig call.clang) := by
  obtain ⟨path, hsave⟩ := InitCall.save_of_run h hrun
  have hlimit : defaultDepth ≤ Json.maxCount := by decide
  rw [Config.load_of_save hlimit hsave]
  rfl

/-- A configuration is in its place after a call has saved it. -/
theorem contains_of_run {text : String} (h : files.contains (Config.pathIn root) = false)
    (hrun : call.run root files = (.ok text, after)) :
    after.contains (Config.pathIn root) = true := by
  obtain ⟨path, hsave⟩ := InitCall.save_of_run h hrun
  exact FileTree.contains_of_readText (Config.readText_of_save hsave)

/-- **A configuration is made once and kept.** Of a sequence of calls of `init` on one project, all
succeed from the time on when there is a file in the place of the configuration, and they leave that
file and all others as they are. The first call, where it finds nothing there and succeeds, makes a
configuration that is loaded after it and after any calls that follow: the defaults with the
compiler that it was given, or else the usual one, which is then the compiler that is chosen. -/
theorem configuration_is_made_once (root : Path) (files : FileTree) :
    (∀ (earlier later : List InitCall) (contents : ByteArray),
      (runCalls root earlier files).2.readBytes (Config.pathIn root) = .ok contents →
        (∀ outcome ∈ (runCalls root later (runCalls root earlier files).2).1,
          ∃ text, outcome = .ok text) ∧
        (runCalls root (earlier ++ later) files).2 = (runCalls root earlier files).2 ∧
        (runCalls root (earlier ++ later) files).2.readBytes (Config.pathIn root) = .ok contents) ∧
    ∀ (first : InitCall) (further : List InitCall) (text : String) (after : FileTree),
      files.contains (Config.pathIn root) = false → first.run root files = (.ok text, after) →
        let clang := first.clang.getD Config.usualClang
        let config : Config := { clangPath := some clang }
        (∀ outcome ∈ (runCalls root (first :: further) files).1, ∃ text, outcome = .ok text) ∧
        Config.load (runCalls root (first :: further) files).2 root = .ok config ∧
        config.chooseClang none = clang := by
  refine ⟨fun earlier later contents hcontents => ?_, fun first further text after hnone hrun => ?_⟩
  · obtain ⟨hsucceed, hsame⟩ := runCalls_of_contains later
      (FileTree.contains_of_readBytes hcontents)
    rw [runCalls_append, hsame]
    exact ⟨hsucceed, rfl, hcontents⟩
  · obtain ⟨hsucceed, hsame⟩ := runCalls_of_contains further (contains_of_run hnone hrun)
    rw [runCalls, hrun]
    dsimp only
    rw [hsame, load_of_run hnone hrun, initialConfig_eq]
    exact ⟨List.forall_mem_cons.mpr ⟨⟨text, rfl⟩, hsucceed⟩, rfl, rfl⟩

/-- A tree in which a project has a file in the place of its configuration, which is none. -/
def spoiltTree : FileTree where
  root := .folder [("p", .folder [(".classview", .folder
    [("config.json", .file ⟨#[0xff]⟩ none)])])]
  current := []
  installed := fun _ => none

/-- Three calls, of which the first is given a compiler with quotes in its path, and the second
another one. -/
def threeCalls : List InitCall :=
  [{ clang := some ⟨"/opt/\"clang\""⟩ }, { paint := true, clang := some ⟨"clang"⟩ }, {}]

/-- In a tree without any files the calls make the configuration that the first of them asks for,
and the file that is none stays. -/
theorem configuration_is_made_once_quoted :
    (spoiltTree.readBytes (Config.pathIn ⟨"/p"⟩) = .ok ⟨#[0xff]⟩ ∧
      (runCalls ⟨"/p"⟩ threeCalls spoiltTree).2.readBytes (Config.pathIn ⟨"/p"⟩) =
        .ok ⟨#[0xff]⟩) ∧
    FileTree.empty.contains (Config.pathIn ⟨"/p"⟩) = false ∧
    (InitCall.run { clang := some ⟨"/opt/\"clang\""⟩ } ⟨"/p"⟩ .empty).1.isOk = true ∧
    Config.load (runCalls ⟨"/p"⟩ threeCalls .empty).2 ⟨"/p"⟩ =
      .ok { clangPath := some ⟨"/opt/\"clang\""⟩ } := by
  have hcontents : spoiltTree.readBytes (Config.pathIn ⟨"/p"⟩) = .ok ⟨#[0xff]⟩ := rfl
  obtain ⟨-, -, hkept⟩ :=
    (configuration_is_made_once ⟨"/p"⟩ spoiltTree).1 [] threeCalls _ hcontents
  have hnone : FileTree.empty.contains (Config.pathIn ⟨"/p"⟩) = false := by
    decide +kernel
  have hok : (InitCall.run { clang := some ⟨"/opt/\"clang\""⟩ } ⟨"/p"⟩ .empty).1.isOk =
      true := by
    decide +kernel
  rcases hrun : InitCall.run { clang := some ⟨"/opt/\"clang\""⟩ } ⟨"/p"⟩ .empty with
    ⟨failure | text, after⟩
  · rw [hrun] at hok
    cases hok
  · obtain ⟨-, hload, -⟩ := (configuration_is_made_once ⟨"/p"⟩ .empty).2
      _ threeCalls.tail text after hnone hrun
    exact ⟨⟨hcontents, hkept⟩, hnone, hok, hload⟩

end Command

end ClassAtlas
