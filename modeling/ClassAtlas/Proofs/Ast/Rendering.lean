import ClassAtlas.Ast.Dump
import ClassAtlas.Proofs.Json.Records
/-!
# Renderings of a tree

What a dump has to look like, said without a reader. A value is a rendering of a type, a base or a
node when it stands for that record by the rules of its fields
(`ClassAtlas.Ast.TypeClause.rules`, `ClassAtlas.Ast.BaseClause.rules`, `ClassAtlas.Ast.Node.rules`);
the children of a node are rendered as nodes again, to any depth
(`ClassAtlas.Ast.Node.isRendering_iff`). A dump is accepted exactly when its text is a rendering of
a node with blanks around it, and then as that node
(`ClassAtlas.Ast.Node.ofDump_eq_ok_iff_isRendering`).
-/

namespace ClassAtlas

namespace Ast

open Json

/-! ### Types and bases -/

/-- The fields of a type. -/
def TypeClause.rules : List (Rule TypeClause) :=
  [{ key := "qualType", get := TypeClause.spelling, stands := IsOptional IsText }]

/-- **A rendering of a type.** -/
def TypeClause.IsRendering (t : Tree) (type : TypeClause) : Prop :=
  IsRecord TypeClause.rules {} t type

/-- The fields of a base. -/
def BaseClause.rules : List (Rule BaseClause) :=
  [{ key := "access", get := BaseClause.access, stands := IsText },
   { key := "type", get := BaseClause.type, stands := TypeClause.IsRendering },
   { key := "isVirtual", get := BaseClause.isVirtual, stands := IsBoolean }]

/-- **A rendering of a base.** -/
def BaseClause.IsRendering (t : Tree) (base : BaseClause) : Prop :=
  IsRecord BaseClause.rules {} t base

theorem TypeClause.reads_ofTree {t : Tree} : Reads TypeClause.ofTree TypeClause.IsRendering t := by
  have h : TypeClause.shape.Follows (· ∈ t.parts) TypeClause.rules :=
    { slots := by
        refine .cons (Slot.of_follows (fun _ _ => reads_readString.readOptional)
          (fun _ _ => rfl) ?_) .nil
        simp [TypeClause.rules]
      nodup := by decide
      ext := by
        intro r r' h
        cases r
        cases r'
        simpa [TypeClause.rules] using h }
  exact h.reads

theorem BaseClause.reads_ofTree {t : Tree} : Reads BaseClause.ofTree BaseClause.IsRendering t := by
  have h : BaseClause.shape.Follows (· ∈ t.parts) BaseClause.rules :=
    { slots := by
        refine .cons (Slot.of_follows (fun _ _ => reads_readString) (fun _ _ => rfl) ?_)
          (.cons (Slot.of_follows (fun _ _ => TypeClause.reads_ofTree) (fun _ _ => rfl) ?_)
          (.cons (Slot.of_follows (fun _ _ => reads_readBool) (fun _ _ => rfl) ?_) .nil))
        all_goals simp [BaseClause.rules]
      nodup := by decide
      ext := by
        intro r r' h
        cases r
        cases r'
        simpa [BaseClause.rules] using h }
  exact h.reads

/-! ### Nodes -/

/-- **The fields of a node**, with what a child is a rendering of. -/
def Node.rules (child : Tree → Node → Prop) : List (Rule Node) :=
  [{ key := "kind", get := Node.kind, stands := IsText },
   { key := "name", get := Node.name, stands := IsOptional IsText },
   { key := "inner", get := Node.inner, stands := IsListOf child },
   { key := "mangledName", get := Node.symbol, stands := IsOptional IsText },
   { key := "type", get := Node.type, stands := IsOptional TypeClause.IsRendering },
   { key := "virtual", get := Node.isVirtual, stands := IsBoolean },
   { key := "pure", get := Node.isPure, stands := IsBoolean },
   { key := "constexpr", get := Node.isConstexpr, stands := IsBoolean },
   { key := "bases", get := Node.bases, stands := IsListOf BaseClause.IsRendering },
   { key := "tagUsed", get := Node.tagUsed, stands := IsOptional IsText },
   { key := "completeDefinition", get := Node.isComplete, stands := IsBoolean }]

/-- **A rendering of a node**: a record by the rules of a node, whose children are renderings of
nodes. -/
inductive Node.IsRendering : Tree → Node → Prop
  | intro {t : Tree} {node : Node} (child : Tree → Node → Prop)
      (below : ∀ t node, child t node → Node.IsRendering t node)
      (record : IsRecord (Node.rules child) {} t node) : Node.IsRendering t node

section Children

variable {child child' : Tree → Node → Prop}

theorem fields_mono (h : ∀ t node, child t node → child' t node) {written : List (String × Tree)}
    {default record : Node} (hfields : Fields (Node.rules child) written default record) :
    Fields (Node.rules child') written default record := by
  simp only [Fields, Node.rules, List.forall_mem_cons] at hfields ⊢
  obtain ⟨hkind, hname, hinner, hrest⟩ := hfields
  refine ⟨hkind, hname, hinner.imp_left ?_, hrest⟩
  rintro ⟨value, hmem, ⟨hitems⟩⟩
  exact ⟨_, hmem, .list (hitems.imp h)⟩

end Children

/-- **Renderings go to any depth.** -/
theorem Node.isRendering_iff {t : Tree} {node : Node} :
    Node.IsRendering t node ↔ IsRecord (Node.rules Node.IsRendering) {} t node := by
  constructor
  · rintro ⟨child, below, record⟩
    cases record with
    | object keys once fields => exact .object keys once (fields_mono below fields)
    | list short fields => exact .list short (fields_mono below fields)
  · exact .intro Node.IsRendering fun _ _ => id

theorem Node.shape_follows {V : Tree → Prop} {readInner : Tree → Except Fault (List Node)}
    {child : Tree → Node → Prop} (h : ∀ v, V v → Reads readInner (IsListOf child) v) :
    (Node.shape id readInner).Follows V (Node.rules child) where
  slots := by
    refine .cons (Slot.of_follows (fun _ _ => reads_readString) (fun _ _ => rfl) ?_)
      (.cons (Slot.of_follows (fun _ _ => reads_readString.readOptional) (fun _ _ => rfl) ?_)
      (.cons (Slot.of_follows h (fun _ _ => rfl) ?_)
      (.cons (Slot.of_follows (fun _ _ => reads_readString.readOptional) (fun _ _ => rfl) ?_)
      (.cons (Slot.of_follows (fun _ _ => TypeClause.reads_ofTree.readOptional)
        (fun _ _ => rfl) ?_)
      (.cons (Slot.of_follows (fun _ _ => reads_readBool) (fun _ _ => rfl) ?_)
      (.cons (Slot.of_follows (fun _ _ => reads_readBool) (fun _ _ => rfl) ?_)
      (.cons (Slot.of_follows (fun _ _ => reads_readBool) (fun _ _ => rfl) ?_)
      (.cons (Slot.of_follows (fun _ _ => reads_readList fun _ _ => BaseClause.reads_ofTree)
        (fun _ _ => rfl) ?_)
      (.cons (Slot.of_follows (fun _ _ => reads_readString.readOptional) (fun _ _ => rfl) ?_)
      (.cons (Slot.of_follows (fun _ _ => reads_readBool) (fun _ _ => rfl) ?_) .nil))))))))))
    all_goals simp [Node.rules]
  nodup := by
    have hkeys : (Node.rules child).map Rule.key =
        ["kind", "name", "inner", "mangledName", "type", "virtual", "pure", "constexpr", "bases",
          "tagUsed", "completeDefinition"] := rfl
    rw [hkeys]
    decide
  ext := by
    intro r r' h
    cases r
    cases r'
    simpa [Node.rules] using h

/-- **Reading a node** gives what the value is a rendering of. -/
theorem Node.reads_ofTree (t : Tree) : Reads Node.ofTree Node.IsRendering t := by
  have hchildren : ∀ v ∈ t.parts, Reads (Tree.readList Node.ofTree) (IsListOf Node.IsRendering) v :=
    fun v hv => reads_readList fun item hitem => Node.reads_ofTree item
  -- a child is a part of the part under its key, so it is smaller than the node
  intro node
  rw [Node.ofTree_eq, Node.isRendering_iff]
  exact (Node.shape_follows hchildren).reads node
termination_by sizeOf t
decreasing_by
  exact Nat.lt_trans (Tree.sizeOf_lt_of_mem_parts hitem) (Tree.sizeOf_lt_of_mem_parts hv)

/-- **A dump is accepted** exactly when its text is a rendering of a node with blanks around it, and
as that node. -/
theorem Node.ofDump_eq_ok_iff_isRendering (text : String) (node : Node) :
    Node.ofDump text = .ok node ↔
      ∃ t, IsDocument text.toList t ∧ Node.IsRendering t node :=
  readDocument_eq_ok_iff Node.reads_ofTree

end Ast

end ClassAtlas
