import ClassAtlas.Json.Reading
import ClassAtlas.Proofs.Json.Grammar
/-!
# Complete values

A value that is passed over without a fault is complete: its strings, lists and objects have their
ends, and none of its parts is missing or malformed. So `t.skip = .ok ()` is what tells a value
apart from the beginning of one, and it goes down to the parts of a list
(`ClassAtlas.Json.Tree.skip_list_eq_ok_iff`) and of an object
(`ClassAtlas.Json.Tree.skip_object_eq_ok_iff`). What the grammar spells is complete
(`ClassAtlas.Json.Tree.SpeltAs.skip_eq_ok`).
-/

namespace ClassAtlas

namespace Json

/-! ### Steps that succeed -/

section Steps

variable {ε α β : Type} {x : Except ε α} {b : β}

theorem bind_eq_ok_iff {f : α → Except ε β} : x >>= f = .ok b ↔ ∃ a, x = .ok a ∧ f a = .ok b := by
  cases x <;> simp [bind, Except.bind]

/-- A check has no value, so nothing is chosen when it succeeds. -/
theorem check_bind_eq_ok_iff {check : Except ε Unit} {f : Unit → Except ε β} :
    check >>= f = .ok b ↔ check = .ok () ∧ f () = .ok b := by
  cases check <;> simp [bind, Except.bind]

theorem map_eq_ok_iff {f : α → β} : x.map f = .ok b ↔ ∃ a, x = .ok a ∧ f a = b := by
  cases x <;> simp [Except.map]

end Steps

/-! ### Passing over -/

theorem StringEnd.check_eq_ok_iff {ending : StringEnd} :
    ending.check = .ok () ↔ ending = .closed := by
  cases ending <;> simp [StringEnd.check]

theorem ListEnd.skip_eq_ok_iff {ending : ListEnd} : ending.skip = .ok () ↔ ending = .closed := by
  cases ending <;> simp [ListEnd.skip]

theorem ObjectEnd.skip_eq_ok_iff {ending : ObjectEnd} :
    ending.skip = .ok () ↔ ending = .closed := by
  cases ending <;> simp [ObjectEnd.skip, check_bind_eq_ok_iff, throw, throwThe, MonadExceptOf.throw]

theorem skipItems_eq_ok_iff {items : List Tree} :
    skipItems items = .ok () ↔ ∀ item ∈ items, item.skip = .ok () := by
  induction items with
  | nil => simp [skipItems]
  | cons item items ih => simp [skipItems, check_bind_eq_ok_iff, ih]

theorem skipMembers_eq_ok_iff {members : List (Lexeme × Tree)} :
    skipMembers members = .ok () ↔ ∀ m ∈ members, m.1.ending = .closed ∧ m.2.skip = .ok () := by
  induction members with
  | nil => simp [skipMembers]
  | cons m members ih =>
    simp [skipMembers, check_bind_eq_ok_iff, Lexeme.skip, StringEnd.check_eq_ok_iff, ih, and_assoc]

theorem Tree.skip_string_eq_ok_iff {l : Lexeme} :
    (Tree.string l).skip = .ok () ↔ l.ending = .closed :=
  StringEnd.check_eq_ok_iff

/-- **A complete list** has its end, and its elements are complete. -/
theorem Tree.skip_list_eq_ok_iff {items : List Tree} {ending : ListEnd} :
    (Tree.list items ending).skip = .ok () ↔
      (∀ item ∈ items, item.skip = .ok ()) ∧ ending = .closed := by
  simp [Tree.skip, check_bind_eq_ok_iff, skipItems_eq_ok_iff, ListEnd.skip_eq_ok_iff]

/-- **A complete object** has its end, its keys have theirs, and its values are complete. -/
theorem Tree.skip_object_eq_ok_iff {members : List (Lexeme × Tree)} {ending : ObjectEnd} :
    (Tree.object members ending).skip = .ok () ↔
      (∀ m ∈ members, m.1.ending = .closed ∧ m.2.skip = .ok ()) ∧ ending = .closed := by
  simp [Tree.skip, check_bind_eq_ok_iff, skipMembers_eq_ok_iff, ObjectEnd.skip_eq_ok_iff]

/-! ### The parts of a value -/

/-- The values directly inside a value. -/
def Tree.parts : Tree → List Tree
  | .list items _ => items
  | .object members _ => members.map Prod.snd
  | _ => []

/-- A part is smaller than the whole. -/
theorem Tree.sizeOf_lt_of_mem_parts {t part : Tree} (h : part ∈ t.parts) :
    sizeOf part < sizeOf t := by
  cases t with
  | list items ending =>
    have hlt : sizeOf part < sizeOf items := List.sizeOf_lt_of_mem h
    rw [Tree.list.sizeOf_spec]
    omega
  | object members ending =>
    obtain ⟨⟨key, value⟩, hm, rfl⟩ := List.mem_map.mp h
    have hlt := List.sizeOf_lt_of_mem hm
    rw [Prod.mk.sizeOf_spec] at hlt
    rw [Tree.object.sizeOf_spec]
    dsimp only
    omega
  | _ => exact absurd h List.not_mem_nil

/-! ### What is spelt -/

theorem Lexeme.SpeltAs.ending_eq {l : Lexeme} {s : List Char} (h : l.SpeltAs s) :
    l.ending = .closed := by
  cases h
  rfl

mutual

/-- **A value that is spelt is complete.** -/
theorem Tree.SpeltAs.skip_eq_ok {t : Tree} {s : List Char} : t.SpeltAs s → t.skip = .ok ()
  | .null => rfl
  | .true => rfl
  | .false => rfl
  | .number _ => rfl
  | .string h => Tree.skip_string_eq_ok_iff.mpr h.ending_eq
  | .emptyList _ => rfl
  | .list h => Tree.skip_list_eq_ok_iff.mpr ⟨h.skip_eq_ok, rfl⟩
  | .emptyObject _ => rfl
  | .object h => Tree.skip_object_eq_ok_iff.mpr ⟨h.skip_eq_ok, rfl⟩

theorem SpeltItems.skip_eq_ok {items : List Tree} {s : List Char} :
    SpeltItems items s → ∀ item ∈ items, item.skip = .ok ()
  | .cons _ h hrest => List.forall_mem_cons.mpr ⟨h.skip_eq_ok, hrest.skip_eq_ok⟩

theorem SpeltMoreItems.skip_eq_ok {items : List Tree} {s : List Char} :
    SpeltMoreItems items s → ∀ item ∈ items, item.skip = .ok ()
  | .nil _ => List.forall_mem_nil _
  | .comma _ h => h.skip_eq_ok

theorem SpeltMembers.skip_eq_ok {members : List (Lexeme × Tree)} {s : List Char} :
    SpeltMembers members s → ∀ m ∈ members, m.1.ending = .closed ∧ m.2.skip = .ok ()
  | .cons _ hkey _ _ h hrest =>
    List.forall_mem_cons.mpr ⟨⟨hkey.ending_eq, h.skip_eq_ok⟩, hrest.skip_eq_ok⟩

theorem SpeltMoreMembers.skip_eq_ok {members : List (Lexeme × Tree)} {s : List Char} :
    SpeltMoreMembers members s → ∀ m ∈ members, m.1.ending = .closed ∧ m.2.skip = .ok ()
  | .nil _ => List.forall_mem_nil _
  | .comma _ h => h.skip_eq_ok

end

end Json

end ClassAtlas
