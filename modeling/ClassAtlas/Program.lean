/-!
# Programs

A program is known by its runs: what it prints and how it ends, as a function of its arguments.
It may also depend on the runs before, so nothing is assumed about the programs that are
started.
-/

namespace ClassAtlas

/-- How a run ends. -/
inductive RunEnd where
  /-- With an exit status. -/
  | exited (status : Nat)
  /-- By a signal. -/
  | killed
  deriving DecidableEq, Repr, Inhabited

/-- **A run of a program.** -/
structure Run where
  /-- What it prints. -/
  output : ByteArray
  /-- How it ends. -/
  ending : RunEnd

/-- A run is successful if it ends with exit status zero. -/
def Run.successful (run : Run) : Bool :=
  run.ending == .exited 0

/-- **A program**: its run for a list of arguments, given the arguments of the runs before. -/
structure Program where
  /-- The run for the arguments, after the earlier ones. -/
  run : (earlier : List (List String)) → (arguments : List String) → Run

end ClassAtlas
