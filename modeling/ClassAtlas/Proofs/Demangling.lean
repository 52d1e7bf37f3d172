import Mathlib.Data.List.TakeWhile
import ClassAtlas.Proofs.Walk.Collection
import ClassAtlas.Toolchain
/-!
# Names that a program gives

The demangler among the tools is a program that is run once for each linker symbol. A run can fail
to start, can end in any way and can print anything, and it need not be the same for the same symbol
twice; so how the runs come out is any function (`ClassAtlas.Toolchain.demanglerOf`), and the
demangler of some tools is the one whose runs are those of the program in the tree
(`ClassAtlas.Toolchain.demangle_eq_demanglerOf`).

What is shown for a method then follows from one run (`ClassAtlas.Toolchain.Shows`). Either the run
gives no name, for one of five causes (`ClassAtlas.Toolchain.GivesNoName`), and the declared name is
shown, or what it prints is shown. The walk and the demangler both take away blanks, which is the
same as one of them doing so (`ClassAtlas.Text.trim_trim`).
-/

namespace ClassAtlas

namespace Text

theorem trimStart_eq_nil_iff {s : List Char} : trimStart s = [] ↔ ∀ c ∈ s, isBlank c = true :=
  List.dropWhile_eq_nil_iff

/-- **Nothing is left of a text** exactly when all of it is blank. -/
theorem trim_eq_empty_iff {s : String} : trim s = "" ↔ ∀ c ∈ s.toList, isBlank c = true := by
  have hend : trimEnd (trimStart s.toList) = [] ↔ trimStart (trimStart s.toList) = [] := by
    rw [trimEnd, List.reverse_eq_nil_iff, trimStart_eq_nil_iff, trimStart_eq_nil_iff]
    simp only [List.mem_reverse]
  rw [trim, String.ofList_eq_empty_iff, hend, trimStart_trimStart, trimStart_eq_nil_iff]

end Text

/-- What a run prints, as text without the blanks around it. -/
def Run.trimmedText (run : Run) : String :=
  Text.trim (Text.Utf8.lossy run.output)

namespace Toolchain

/-! ### Runs -/

/-- **How the runs of a program come out**: the run for each symbol after the earlier requests, or
`none` where the program cannot be started. -/
abbrev Runs : Type :=
  (earlier : List (Option String)) → (symbol : String) → Option Run

/-- **The demangler whose runs come out like this.** -/
def demanglerOf (runs : Runs) : Demangler :=
  fun earlier request => do
    let symbol ← request
    let run ← runs earlier symbol
    accept symbol (← printed run)

/-- The runs of the demangler among some tools. -/
def runsIn (files : FileTree) (tools : Toolchain) : Runs :=
  fun earlier symbol =>
    files.startProgram tools.demangler (earlier.filterMap fun r => r.map fun s => [s]) [symbol]

/-- **The demangler of some tools** is the one whose runs are those of the program. -/
theorem demangle_eq_demanglerOf (files : FileTree) (tools : Toolchain) :
    tools.demangle files = demanglerOf (runsIn files tools) :=
  rfl

/-! ### What a run gives -/

/-- **The causes for which no name is given** for a symbol, by how the run for it comes out. -/
inductive GivesNoName (outcome : String → Option Run) : Option String → Prop
  /-- There is no symbol. -/
  | noSymbol : GivesNoName outcome none
  /-- The program cannot be started. -/
  | notStarted {symbol : String} : outcome symbol = none → GivesNoName outcome (some symbol)
  /-- The run does not end with exit status zero. -/
  | failed {symbol : String} {run : Run} : outcome symbol = some run → run.ending ≠ .exited 0 →
      GivesNoName outcome (some symbol)
  /-- Nothing is printed but blanks. -/
  | silent {symbol : String} {run : Run} : outcome symbol = some run → run.trimmedText = "" →
      GivesNoName outcome (some symbol)
  /-- The symbol is printed, but for blanks around either of them. -/
  | echoed {symbol : String} {run : Run} : outcome symbol = some run →
      run.trimmedText = Text.trim symbol → GivesNoName outcome (some symbol)

variable {runs : Runs} {earlier : List (Option String)} {request : Option String}

theorem printed_eq_some_iff {run : Run} {text : String} :
    printed run = some text ↔ run.ending = .exited 0 ∧ Text.Utf8.lossy run.output = text := by
  rw [printed, Run.successful]
  split_ifs with h <;> simp_all

theorem accept_eq_some_iff {symbol text answer : String} :
    accept symbol text = some answer ↔
      Text.trim text ≠ "" ∧ Text.trim text ≠ Text.trim symbol ∧ Text.trim text = answer := by
  rw [accept]
  split_ifs with h
  · tauto
  · simp_all

/-- **An answer** is what a successful run prints, unless that is nothing or the symbol. -/
theorem demanglerOf_eq_some_iff {answer : String} :
    demanglerOf runs earlier request = some answer ↔
      ∃ symbol run, request = some symbol ∧ runs earlier symbol = some run ∧
        run.ending = .exited 0 ∧ run.trimmedText ≠ "" ∧
        run.trimmedText ≠ Text.trim symbol ∧ run.trimmedText = answer := by
  simp only [demanglerOf, bind, Option.bind_eq_some_iff, printed_eq_some_iff, accept_eq_some_iff]
  constructor
  · rintro ⟨symbol, hrequest, run, hrun, text, ⟨hending, rfl⟩, hanswer⟩
    exact ⟨symbol, run, hrequest, hrun, hending, hanswer⟩
  · rintro ⟨symbol, run, hrequest, hrun, hending, hanswer⟩
    exact ⟨symbol, hrequest, run, hrun, _, ⟨hending, rfl⟩, hanswer⟩

/-- **No answer** is given exactly for these causes. -/
theorem demanglerOf_eq_none_iff :
    demanglerOf runs earlier request = none ↔ GivesNoName (runs earlier) request := by
  constructor
  · intro hnone
    rcases request with - | symbol
    · exact .noSymbol
    · rcases hrun : runs earlier symbol with - | run
      · exact .notStarted hrun
      · by_contra hgiven
        have hanswer : demanglerOf runs earlier (some symbol) = some run.trimmedText :=
          demanglerOf_eq_some_iff.mpr ⟨symbol, run, rfl, hrun,
            not_not.mp fun hending => hgiven (.failed hrun hending),
            fun hempty => hgiven (.silent hrun hempty),
            fun hecho => hgiven (.echoed hrun hecho), rfl⟩
        rw [hnone] at hanswer
        cases hanswer
  · intro hcause
    refine Option.eq_none_iff_forall_ne_some.mpr fun answer hanswer => ?_
    obtain ⟨symbol, run, rfl, hrun, hending, hempty, hecho, -⟩ :=
      demanglerOf_eq_some_iff.mp hanswer
    rcases hcause with - | hrun' | ⟨hrun', hending'⟩ | ⟨hrun', hempty'⟩ | ⟨hrun', hecho'⟩
    · rw [hrun] at hrun'
      cases hrun'
    all_goals obtain rfl := Option.some.inj (hrun.symm.trans hrun')
    · exact hending' hending
    · exact hempty hempty'
    · exact hecho hecho'

/-! ### What is shown -/

/-- **What is shown for a method** with the given declared name and symbol, where the run for each
symbol comes out in a given way. -/
structure Shows (declared : String) (symbol? : Option String) (outcome : String → Option Run)
    (name : String) : Prop where
  /-- There are no blanks around what is shown. -/
  trimmed : Text.trim name = name
  /-- The declared name is shown where no name is given. -/
  notGiven : GivesNoName outcome symbol? → name = Text.trim declared
  /-- Else what the run for the symbol prints is shown. -/
  given : ¬GivesNoName outcome symbol? → ∃ symbol run, symbol? = some symbol ∧
    outcome symbol = some run ∧ name = run.trimmedText
  /-- What is shown is blank only if the declared name is. -/
  notBlank : (∀ c ∈ name.toList, Text.isBlank c = true) →
    ∀ c ∈ declared.toList, Text.isBlank c = true
  /-- The symbol is shown only if it is the declared name, but for blanks. -/
  notEchoed : ∀ symbol, symbol? = some symbol → name = Text.trim symbol →
    Text.trim declared = Text.trim symbol

/-- **The name that the walk gives to a method** is what is to be shown for it. -/
theorem shows_trim_getD (runs : Runs) (earlier : List (Option String)) (declared : String)
    (request : Option String) :
    Shows declared request (runs earlier)
      (Text.trim ((demanglerOf runs earlier request).getD declared)) := by
  rcases hanswer : demanglerOf runs earlier request with - | answer
  · have hcause := demanglerOf_eq_none_iff.mp hanswer
    rw [Option.getD_none]
    exact
      { trimmed := Text.trim_trim declared
        notGiven := fun _ => rfl
        given := fun hgiven => absurd hcause hgiven
        notBlank := by
          rw [← Text.trim_eq_empty_iff, Text.trim_trim, Text.trim_eq_empty_iff]
          exact id
        notEchoed := fun _ _ hshown => hshown }
  · obtain ⟨symbol, run, rfl, hrun, hending, hempty, hecho, rfl⟩ :=
      demanglerOf_eq_some_iff.mp hanswer
    have hgiven : ¬GivesNoName (runs earlier) (some symbol) := by
      rw [← demanglerOf_eq_none_iff, hanswer]
      simp
    -- what is printed has lost its blanks before the walk takes them away
    have htrim : Text.trim run.trimmedText = run.trimmedText := Text.trim_trim _
    rw [Option.getD_some, htrim]
    exact
      { trimmed := htrim
        notGiven := fun hcause => absurd hcause hgiven
        given := fun _ => ⟨symbol, run, rfl, hrun, rfl⟩
        notBlank := by
          rw [← Text.trim_eq_empty_iff, htrim]
          exact fun hblank => absurd hblank hempty
        notEchoed := by
          rintro other hother hshown
          obtain rfl := Option.some.inj hother
          exact absurd hshown hecho }

end Toolchain

namespace Walk

open Toolchain

/-- **A method is shown as the run for its node says**, which comes after the requests for the
methods before. -/
def ShownAt (runs : Runs) (root : Ast.Node) (q : List Nat) (entry : Entry Method) : Prop :=
  ∃ before, Ast.Lists Ast.ComesBefore
      (fun r => (root.nodeAt r).declKind.isFunction = true ∧ Ast.ComesBefore r q) before ∧
    Shows (declaredName root q) (root.nodeAt q).symbol
      (runs (before.map fun r => (root.nodeAt r).symbol)) entry.member.name

theorem shownAt_methodAt (runs : Runs) {root : Ast.Node} (className : String) {q : List Nat}
    (hq : root.Has q) : ShownAt runs root q (methodAt (demanglerOf runs) root className q) := by
  obtain ⟨before, hbefore, hname⟩ := (isMethodAt_methodAt (demanglerOf runs) className hq).name
  exact ⟨before, hbefore, hname ▸ shows_trim_getD runs _ _ _⟩

/-- **The displayed names of methods under the demangler among the tools.** Its runs may come out in
any way, for each symbol and each time. In every tree that is accepted each class has the methods of
which it is the innermost class, in document order, and what is shown for each of them is what the
run for it gives: what it prints, or else the declared name, in both cases without blanks around. -/
theorem displayed_names_of_methods :
    (∀ files tools, Toolchain.demangle files tools = demanglerOf (runsIn files tools)) ∧
    ∀ (runs : Runs) (root : Ast.Node) (collection : Collection),
      collect (demanglerOf runs) root = .ok collection →
        ∃ openings, Ast.Lists Ast.FinishesBefore (Opens root) openings ∧
          ∃ methods : List Nat → List (List Nat),
            (∀ p ∈ openings, Ast.Lists Ast.ComesBefore
              (fun q => (root.nodeAt q).declKind.isFunction = true ∧ opener? root q = some p)
              (methods p)) ∧
            List.Forall₂ (fun p c => List.Forall₂ (ShownAt runs root) (methods p) c.methods)
              openings collection.classes := by
  refine ⟨demangle_eq_demanglerOf, fun runs root collection h => ?_⟩
  obtain ⟨-, -, rfl⟩ := collect_eq_ok_iff.mp h
  have hopenings := lists_opens root
  have hhas : ∀ p ∈ (root.postOrder []).filter (Opens root ·), root.Has p := fun p hp =>
    has_of_opens ((hopenings.mem_iff p).mp hp)
  refine ⟨_, hopenings, methodSites root, fun p hp => lists_methodSites (hhas p hp), ?_⟩
  rw [List.forall₂_map_right_iff]
  refine List.forall₂_same.mpr fun p hp => ?_
  exact forall₂_methods (hhas p hp) fun q hq => shownAt_methodAt runs _ hq

/-- A class with five methods of one declared name and one symbol. -/
def fiveMethods : Ast.Node where
  kind := "TranslationUnitDecl"
  inner := [
    { kind := "CXXRecordDecl", name := some "A",
      inner := List.replicate 5
        ({ kind := "CXXMethodDecl", name := some " f ", symbol := some "_ZN1A1fEv" } : Ast.Node) }]

/-- Runs of which the first prints a name, the second the symbol, the third fails, the fourth prints
a byte that is no text, and the others cannot be started. -/
def fickleRuns : Runs := fun earlier symbol =>
  match earlier.length with
  | 0 => some ⟨" A::f()\n".toUTF8, .exited 0⟩
  | 1 => some ⟨(symbol ++ "\n").toUTF8, .exited 0⟩
  | 2 => some ⟨"A::f()\n".toUTF8, .exited 1⟩
  | 3 => some ⟨⟨#[0xff]⟩, .exited 0⟩
  | _ => none

/-- Only the first and the fourth of the methods are shown under what is printed for them. -/
theorem displayed_names_of_methods_fickle :
    ∃ collection, collect (demanglerOf fickleRuns) fiveMethods = .ok collection ∧
      (∃ openings, ∃ methods : List Nat → List (List Nat),
        List.Forall₂ (fun p c =>
          List.Forall₂ (ShownAt fickleRuns fiveMethods) (methods p) c.methods)
          openings collection.classes) ∧
      (collection.classes.map fun c => c.methods.map fun entry => entry.member.name) =
        [["A::f()", "f", "f", "\ufffd", "f"]] := by
  have hcollect : collect (demanglerOf fickleRuns) fiveMethods = .ok _ := rfl
  obtain ⟨openings, -, methods, -, hshown⟩ :=
    displayed_names_of_methods.2 fickleRuns fiveMethods _ hcollect
  exact ⟨_, hcollect, ⟨openings, methods, hshown⟩, by decide +kernel⟩

end Walk

end ClassAtlas
