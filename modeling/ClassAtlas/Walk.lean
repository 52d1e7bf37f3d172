import ClassAtlas.Error
import ClassAtlas.Model.Class
/-!
# Collecting the classes of a dump

The classes of a compilation unit are collected in one walk over its tree. The walk carries a
`ClassAtlas.Walk.State`: the namespaces and the classes that it is inside of, the classes that
it has finished, and the requests that it has made to a demangler. Entering a node
(`ClassAtlas.Walk.enter`) opens at most one scope, and leaving it
(`ClassAtlas.Walk.leave`) closes that scope again, so a class is finished after everything below
it and what stands beside a node does not see its scope. A tree that is no compilation unit, or an
empty one, is refused before the walk begins (`ClassAtlas.Walk.run`).

A demangler is any function (`ClassAtlas.Demangler`). It sees the requests made before, so
nothing is assumed about its answers, not even that equal requests are answered alike.
-/

namespace ClassAtlas

/-- **A demangler**: the answer to a request for the readable form of a linker symbol, given the
earlier requests in order. A request without a symbol is one too, and an answer may be empty. -/
abbrev Demangler : Type :=
  (earlier : List (Option String)) → (request : Option String) → Option String

/-- The demangler that answers no request. -/
def Demangler.silent : Demangler :=
  fun _ _ => none

namespace Walk

/-- **The state of a walk.** -/
structure State where
  /-- The names of the namespaces around the current node, innermost first. -/
  qualifiers : List String := []
  /-- The classes around the current node, innermost first. -/
  openClasses : List Class := []
  /-- The finished classes in the order in which they were finished. -/
  finished : List Class := []
  /-- The requests to the demangler in order. -/
  requests : List (Option String) := []
  deriving Repr, Inhabited

/-- The scope that a node opens. -/
inductive Scope where
  /-- No scope. -/
  | none
  /-- The scope of a namespace. -/
  | space
  /-- The scope of a class. -/
  | record
  deriving DecidableEq, Repr, Inhabited

/-! ### Entering a node -/

/-- The full name of a class inside the given namespaces. Classes around it do not show. -/
def qualify (qualifiers : List String) (name : String) : String :=
  String.intercalate "::" qualifiers.reverse ++ "::" ++ name

/-- What a node says about the class that it declares. -/
def classInfo (node : Ast.Node) : ClassInfo where
  bases := node.bases
  tagUsed := node.tagUsed
  isComplete := node.isComplete

/-- A record with the name of the innermost open class: the compiler repeats every class inside
itself. -/
def isSelfRecord (state : State) (name : String) : Bool :=
  state.openClasses.head?.any fun c => c.name == name

/-- **Opening a class.** A record without a name, or with that of the class around it, opens
none. -/
def openClass (node : Ast.Node) (state : State) : Scope × State :=
  match node.properName with
  | none => (.none, state)
  | some name =>
      if isSelfRecord state name then (.none, state)
      else
        let opened := Class.new name (qualify state.qualifiers name) (classInfo node)
        (.record, { state with openClasses := opened :: state.openClasses })

/-- Opening a namespace. One without a name adds no qualifier. -/
def openSpace (node : Ast.Node) (state : State) : Scope × State :=
  match node.properName with
  | none => (.none, state)
  | some name => (.space, { state with qualifiers := name :: state.qualifiers })

/-- The state with the innermost open class changed. Without an open class nothing changes. -/
def State.updateClass (state : State) (update : Class → Class) : State :=
  match state.openClasses with
  | [] => state
  | c :: around => { state with openClasses := update c :: around }

/-- The field that a node declares. -/
def fieldOf (node : Ast.Node) : Field where
  name := node.name.getD ""
  spelling := node.spelling

/-- The method that a node declares, in the class with the given full name and under the answer
of the demangler. Without an answer the declared name is displayed. -/
def methodOf (node : Ast.Node) (className : String) (answer : Option String) : Method where
  name := Text.trim (answer.getD (node.name.getD ""))
  fullName := className ++ "::" ++ Text.trim (node.name.getD "")
  info :=
    { isVirtual := node.isVirtual
      isPure := node.isPure
      isConstexpr := node.isConstexpr
      isConstructor := node.declKind == .constructor
      isDestructor := node.declKind == .destructor
      spelling := node.spelling }

/-- Adding a field to the innermost open class. -/
def addField (node : Ast.Node) (state : State) : State :=
  state.updateClass fun c => c.addField { member := fieldOf node }

/-- Adding a method to the innermost open class. The demangler is asked even if there is none: a
definition may stand outside its class. -/
def addMethod (demangler : Demangler) (node : Ast.Node) (state : State) : State :=
  let answer := demangler state.requests node.symbol
  { state with requests := state.requests ++ [node.symbol] }.updateClass fun c =>
    c.addMethod { member := methodOf node c.fullName answer }

/-- **Entering a node.** -/
def enter (demangler : Demangler) (node : Ast.Node) (state : State) : Scope × State :=
  match node.declKind with
  | .scope => openSpace node state
  | .record => openClass node state
  | .field => (.none, addField node state)
  | .method => (.none, addMethod demangler node state)
  | .constructor => (.none, addMethod demangler node state)
  | .destructor => (.none, addMethod demangler node state)
  | .unit => (.none, state)
  | .other => (.none, state)

/-- **Leaving a node** that has opened the given scope. -/
def leave (scope : Scope) (state : State) : State :=
  match scope with
  | .none => state
  | .space => { state with qualifiers := state.qualifiers.tail }
  | .record =>
      match state.openClasses with
      | [] => state
      | c :: around => { state with openClasses := around, finished := state.finished ++ [c] }

/-! ### The walk -/

mutual

/-- **Visiting a node** and everything below it. -/
def visit (demangler : Demangler) : Ast.Node → State → State
  | ⟨kind, name, inner, symbol, type, isVirtual, isPure, isConstexpr, bases, tagUsed,
      isComplete⟩, state =>
      let node : Ast.Node :=
        ⟨kind, name, inner, symbol, type, isVirtual, isPure, isConstexpr, bases, tagUsed,
          isComplete⟩
      let (scope, entered) := enter demangler node state
      leave scope (visitAll demangler inner entered)

/-- Visiting nodes one after the other. -/
def visitAll (demangler : Demangler) : List Ast.Node → State → State
  | [], state => state
  | node :: nodes, state => visitAll demangler nodes (visit demangler node state)

end

/-- A visit enters the node, visits its children and leaves the scope. -/
theorem visit_eq (demangler : Demangler) (node : Ast.Node) (state : State) :
    visit demangler node state =
      leave (enter demangler node state).1
        (visitAll demangler node.inner (enter demangler node state).2) := by
  cases node
  rfl

end Walk

/-- **A walk over a compilation unit**: whether the tree is accepted, and the state afterwards. A
tree with another root or without any declaration is refused, and the state stays as it is. -/
def Walk.run (demangler : Demangler) (root : Ast.Node) (state : State) :
    Except Error Unit × State :=
  if root.declKind ≠ .unit then (.error (.unexpectedRoot root.kind), state)
  else if root.inner.isEmpty then (.error .emptyUnit, state)
  else (.ok (), visit demangler root state)

namespace Walk

section Run

variable {demangler : Demangler} {root : Ast.Node} {state : State}

theorem run_of_not_unit (h : root.declKind ≠ .unit) :
    run demangler root state = (.error (.unexpectedRoot root.kind), state) := by
  rw [run, if_pos h]

theorem run_of_empty (hunit : root.declKind = .unit) (hinner : root.inner = []) :
    run demangler root state = (.error .emptyUnit, state) := by
  rw [run, if_neg (by simp [hunit]), if_pos (by simp [hinner])]

theorem run_of_unit (hunit : root.declKind = .unit) (hinner : root.inner ≠ []) :
    run demangler root state = (.ok (), visit demangler root state) := by
  rw [run, if_neg (by simp [hunit]), if_neg (by simpa using hinner)]

/-- **A tree that is refused is not walked over**: nothing is asked and nothing is found. -/
theorem run_of_refused {e : Error} (h : (run demangler root state).1 = .error e) :
    run demangler root state = (.error e, state) := by
  by_cases hunit : root.declKind = .unit
  · by_cases hinner : root.inner = []
    · rw [run_of_empty hunit hinner] at h ⊢
      cases h
      rfl
    · rw [run_of_unit hunit hinner] at h
      cases h
  · rw [run_of_not_unit hunit] at h ⊢
    cases h
    rfl

end Run

end Walk

/-! ### What is collected -/

/-- A result, and the requests that were made to the demangler on the way. -/
structure Traced (α : Type) where
  /-- The result. -/
  result : Except Error α
  /-- The requests in order. -/
  requests : List (Option String)

/-- **The classes that a walk finishes**, unless the tree is refused, and the requests that it
makes in any case. -/
def collectTraced (demangler : Demangler) (root : Ast.Node) : Traced (List Class) :=
  let (accepted, state) := Walk.run demangler root {}
  { result := accepted.map fun _ => state.finished, requests := state.requests }

/-- What a walk finds: the classes in the order in which they were finished, so that a nested
class comes before the one around it, and the requests made for them. -/
structure Collection where
  /-- The classes. -/
  classes : List Class
  /-- The requests to the demangler in order. -/
  requests : List (Option String)
  deriving Repr, Inhabited

/-- **The classes of a compilation unit**, unless it is refused. -/
def collect (demangler : Demangler) (root : Ast.Node) : Except Error Collection :=
  let traced := collectTraced demangler root
  traced.result.map fun classes => ⟨classes, traced.requests⟩

section Collect

variable {demangler : Demangler} {root : Ast.Node}

theorem collect_of_not_unit (h : root.declKind ≠ .unit) :
    collect demangler root = .error (.unexpectedRoot root.kind) := by
  rw [collect, collectTraced, Walk.run_of_not_unit h]
  rfl

theorem collect_of_empty (hunit : root.declKind = .unit) (hinner : root.inner = []) :
    collect demangler root = .error .emptyUnit := by
  rw [collect, collectTraced, Walk.run_of_empty hunit hinner]
  rfl

theorem collect_of_unit (hunit : root.declKind = .unit) (hinner : root.inner ≠ []) :
    collect demangler root = .ok
      ⟨(Walk.visit demangler root {}).finished, (Walk.visit demangler root {}).requests⟩ := by
  rw [collect, collectTraced, Walk.run_of_unit hunit hinner]
  rfl

/-- What is collected is what the walk finishes, with its requests. -/
theorem collectTraced_of_collect {collection : Collection}
    (h : collect demangler root = .ok collection) :
    collectTraced demangler root = ⟨.ok collection.classes, collection.requests⟩ := by
  rcases htraced : collectTraced demangler root with ⟨e | classes, requests⟩
  · rw [collect, htraced] at h
    cases h
  · rw [collect, htraced] at h
    cases h
    rfl

/-- Nothing is asked about a tree that is refused, since the walk does not begin. -/
theorem collectTraced_of_refused {e : Error} (h : collect demangler root = .error e) :
    collectTraced demangler root = ⟨.error e, []⟩ := by
  rcases hrun : Walk.run demangler root {} with ⟨e' | ⟨⟨⟩⟩, state⟩
  · rw [collect, collectTraced, hrun] at h
    cases h
    have hrefused : Walk.run demangler root {} = (.error e, {}) :=
      Walk.run_of_refused (by rw [hrun])
    rw [collectTraced, hrefused]
    rfl
  · rw [collect, collectTraced, hrun] at h
    cases h

end Collect

end ClassAtlas
