import ClassAtlas.Proofs.Walk.Visit
/-!
# Visits from any state

Entering a node does one of three things (`ClassAtlas.Walk.enter_cases`): it opens a class, it
opens a namespace, or it opens no scope and adds something. So whatever state a visit begins in,
reached by a walk or not, all that it does to the state is to add something
(`ClassAtlas.Walk.exists_visit_eq_add`). What is around the node is the same afterwards, but for
members that the innermost open class has got.
-/

namespace ClassAtlas

namespace Walk

variable (demangler : Demangler)

/-! ### Entering -/

/-- A namespace with a name is entered by putting the name in front. -/
theorem enter_of_space {node : Ast.Node} {name : String} (h : spaceName? node = some name)
    (state : State) :
    enter demangler node state =
      (.space, { state with qualifiers := name :: state.qualifiers }) := by
  rw [spaceName?] at h
  split at h
  · next hkind =>
    rw [enter, hkind]
    dsimp only
    rw [openSpace, h]
  · cases h

/-- A method is added to the innermost class, if there is one, and asked about in any case. -/
theorem exists_addMethod_eq_add (node : Ast.Node) (state : State) :
    ∃ y, addMethod demangler node state = state.add y ∧ y.finished = [] := by
  obtain ⟨qualifiers, openClasses, finished, requests⟩ := state
  cases openClasses with
  | nil =>
    refine ⟨{ requests := [node.symbol] }, ?_, rfl⟩
    simp [addMethod, State.updateClass, State.add]
  | cons c around =>
    refine ⟨{ methods := [⟨methodOf node c.fullName (demangler requests node.symbol), none⟩],
              requests := [node.symbol] }, ?_, rfl⟩
    simp [addMethod, State.updateClass, State.add, Class.addMethod, Class.addMembers]

/-- A record opens a class, or leaves the state as it is. -/
theorem openClass_cases (node : Ast.Node) (state : State) :
    (∃ name, node.properName = some name ∧ isSelfRecord state name = false ∧
      openClass node state = (.record, { state with
        openClasses := Class.new name (qualify state.qualifiers name) (classInfo node) ::
          state.openClasses })) ∨
    openClass node state = (.none, state) := by
  cases hname : node.properName with
  | none =>
    right
    rw [openClass, hname]
  | some name =>
    cases hself : isSelfRecord state name with
    | true =>
      right
      simp only [openClass, hname, hself, if_true]
    | false =>
      left
      exact ⟨name, rfl, hself, openClass_of_not_self hname hself⟩

/-- **What entering a node does**: a record opens a class, a namespace puts its name in front, or
no scope is opened, no class is finished, and at most a member and a request are added. -/
theorem enter_cases (node : Ast.Node) (state : State) :
    (∃ name, node.declKind = .record ∧ node.properName = some name ∧
      isSelfRecord state name = false ∧
      enter demangler node state = (.record, { state with
        openClasses := Class.new name (qualify state.qualifiers name) (classInfo node) ::
          state.openClasses })) ∨
    (∃ name, spaceName? node = some name ∧ enter demangler node state =
      (.space, { state with qualifiers := name :: state.qualifiers })) ∨
    spaceName? node = none ∧
      ∃ y, enter demangler node state = (.none, state.add y) ∧ y.finished = [] := by
  cases hkind : node.declKind with
  | scope =>
    right
    cases hspace : spaceName? node with
    | some name =>
      left
      exact ⟨name, rfl, enter_of_space demangler hspace state⟩
    | none =>
      right
      refine ⟨rfl, {}, ?_, rfl⟩
      rw [spaceName?, if_pos hkind] at hspace
      rw [enter, hkind, State.add_empty]
      dsimp only
      rw [openSpace, hspace]
  | record =>
    have hopen : enter demangler node state = openClass node state := by
      rw [enter, hkind]
    rw [hopen]
    rcases openClass_cases node state with ⟨name, hname, hself, hopened⟩ | hleft
    · exact Or.inl ⟨name, rfl, hname, hself, hopened⟩
    · refine Or.inr (Or.inr ⟨spaceName?_of_ne_scope (by rw [hkind]; decide), {}, ?_, rfl⟩)
      rw [hleft, State.add_empty]
  | field =>
    refine Or.inr (Or.inr ⟨spaceName?_of_ne_scope (by rw [hkind]; decide),
      { fields := [⟨fieldOf node, none⟩] }, ?_, rfl⟩)
    rw [enter, hkind]
    simp [addField, updateClass_eq, State.add, Class.addField, Class.addMembers]
  | method | constructor | destructor =>
    obtain ⟨y, hadd, hfinished⟩ := exists_addMethod_eq_add demangler node state
    refine Or.inr (Or.inr ⟨spaceName?_of_ne_scope (by rw [hkind]; decide), y, ?_, hfinished⟩)
    rw [enter, hkind, ← hadd]
  | unit | other =>
    refine Or.inr (Or.inr ⟨spaceName?_of_ne_scope (by rw [hkind]; decide), {}, ?_, rfl⟩)
    rw [enter, hkind, State.add_empty]

/-! ### Visiting -/

theorem visitAll_append (nodes nodes' : List Ast.Node) (state : State) :
    visitAll demangler (nodes ++ nodes') state =
      visitAll demangler nodes' (visitAll demangler nodes state) := by
  induction nodes generalizing state with
  | nil => rfl
  | cons node nodes ih => exact ih (visit demangler node state)

/-- Visits add something if each of them does. -/
theorem exists_visitAll_eq_add_of {nodes : List Ast.Node}
    (h : ∀ node ∈ nodes, ∀ state, ∃ y, visit demangler node state = state.add y)
    (state : State) : ∃ y, visitAll demangler nodes state = state.add y := by
  induction nodes generalizing state with
  | nil => exact ⟨{}, (State.add_empty state).symm⟩
  | cons node nodes ih =>
    obtain ⟨y, hy⟩ := h node List.mem_cons_self state
    obtain ⟨z, hz⟩ := ih (fun node' hnode' => h node' (List.mem_cons_of_mem _ hnode')) (state.add y)
    exact ⟨y.append z, by rw [visitAll, hy, hz, State.add_add]⟩

/-- **All that a visit does to a state is to add something.** -/
theorem exists_visit_eq_add (node : Ast.Node) :
    ∀ state, ∃ y, visit demangler node state = state.add y := by
  induction node using Ast.Node.induction with
  | h node ih =>
    intro state
    rw [visit_eq]
    obtain ⟨name, -, -, -, henter⟩ | ⟨name, -, henter⟩ | ⟨-, y, henter, -⟩ :=
      enter_cases demangler node state
    · -- what is added inside of the class leaves with it
      rw [henter]
      obtain ⟨y, hy⟩ := exists_visitAll_eq_add_of demangler ih _
      exact ⟨_, by rw [hy, leave_record_add]⟩
    · rw [henter]
      obtain ⟨y, hy⟩ := exists_visitAll_eq_add_of demangler ih _
      exact ⟨y, by rw [hy]; rfl⟩
    · rw [henter]
      obtain ⟨z, hz⟩ := exists_visitAll_eq_add_of demangler ih (state.add y)
      exact ⟨y.append z, by rw [hz, State.add_add]; rfl⟩

theorem exists_visitAll_eq_add (nodes : List Ast.Node) (state : State) :
    ∃ y, visitAll demangler nodes state = state.add y :=
  exists_visitAll_eq_add_of demangler (fun node _ => exists_visit_eq_add demangler node) state

end Walk

end ClassAtlas
