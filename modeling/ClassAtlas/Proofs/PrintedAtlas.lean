import ClassAtlas.Command.Report
import ClassAtlas.Proofs.Inheritance.SortedFirst
import ClassAtlas.Proofs.Json.Printing
/-!
# What the printed form of an atlas tells

The JSON form of an atlas (`ClassAtlas.Atlas.toJson`) leaves out what is absent, and of every chain
it keeps the full names. Nothing else is lost: two atlases have one JSON form exactly when they are
equal with the chains told by names (`ClassAtlas.Atlas.toJson_inj`). The argument follows the parts
of an atlas, with one lemma for each kind of part; where a member of an object may be left out, the
members around it have other keys.

What is printed is not the form of the atlas as it stands, but of the atlas in canonical order
(`ClassAtlas.report`). So the order of members with different keys cannot be told from what is
printed, and everything else can (`ClassAtlas.Atlas.sortMembers_byNames_inj`).
-/

namespace ClassAtlas

open Json

/-- **The atlas with all chains told by names.** -/
def Atlas.byNames (atlas : Atlas) : Atlas :=
  { atlas with classes := atlas.classes.map Class.byNames }

/-! ### Lists of parts -/

section Lists

variable {α β γ : Type} {f : α → β} {g : α → γ} {as bs : List α}

/-- **What tells elements apart in the same way** tells lists of them apart in the same way. -/
theorem map_eq_map_iff_of_iff (h : ∀ a b, f a = f b ↔ g a = g b) :
    as.map f = bs.map f ↔ as.map g = bs.map g := by
  rw [Inheritance.map_eq_map_iff_forall₂, Inheritance.map_eq_map_iff_forall₂]
  simp only [h]

theorem map_eq_map_iff_eq (h : ∀ a b, f a = f b ↔ a = b) : as.map f = bs.map f ↔ as = bs :=
  (List.map_injective_iff.mpr fun a b => (h a b).mp).eq_iff

end Lists

/-! ### Members of objects that may be absent -/

/-- A member that may be absent tells whether it is, and its value. -/
theorem optional_inj {key : String} {a b : Option Value} :
    Value.optional key a = Value.optional key b ↔ a = b := by
  cases a <;> cases b <;> simp [Value.optional]

/-- So it does in front of a member with another key. -/
theorem optional_append_inj {key other : String} (hkey : key ≠ other) {a b : Option Value}
    {v w : Value} :
    Value.optional key a ++ [(other, v)] = Value.optional key b ++ [(other, w)] ↔
      a = b ∧ v = w := by
  cases a <;> cases b <;> simp [Value.optional, hkey, hkey.symm]

theorem map_string_inj {a b : Option String} : a.map Value.string = b.map Value.string ↔ a = b :=
  (Option.map_injective fun _ _ => Value.string.inj).eq_iff

/-! ### Classes and members -/

theorem typeClause_toJson_inj {a b : Ast.TypeClause} : a.toJson = b.toJson ↔ a = b := by
  rcases a with ⟨spelling⟩
  rcases b with ⟨spelling'⟩
  simp [Ast.TypeClause.toJson, optionalText, optional_inj, map_string_inj]

theorem baseClause_toJson_inj {a b : Ast.BaseClause} : a.toJson = b.toJson ↔ a = b := by
  rcases a with ⟨access, type, isVirtual⟩
  rcases b with ⟨access', type', isVirtual'⟩
  simp [Ast.BaseClause.toJson, typeClause_toJson_inj]

theorem classInfo_toJson_inj {a b : ClassInfo} : a.toJson = b.toJson ↔ a = b := by
  rcases a with ⟨bases, tagUsed, isComplete⟩
  rcases b with ⟨bases', tagUsed', isComplete'⟩
  have hkey : "tagUsed" ≠ "completeDefinition" := by decide
  simp [ClassInfo.toJson, optionalText, optional_append_inj hkey, map_string_inj,
    map_eq_map_iff_eq fun _ _ => baseClause_toJson_inj]

theorem methodInfo_toJson_inj {a b : MethodInfo} : a.toJson = b.toJson ↔ a = b := by
  rcases a with ⟨isVirtual, isPure, isConstexpr, isConstructor, isDestructor, spelling⟩
  rcases b with ⟨isVirtual', isPure', isConstexpr', isConstructor', isDestructor', spelling'⟩
  simp [MethodInfo.toJson, optionalText, optional_inj, map_string_inj]

/-- **The form of a chain** tells the full names of its links. -/
theorem chainJson_inj {chain chain' : List Declared} :
    chainJson chain = chainJson chain' ↔
      chain.map Declared.nameOnly = chain'.map Declared.nameOnly := by
  rw [chainJson, chainJson, Value.list.injEq]
  exact map_eq_map_iff_of_iff fun a b => by simp [Declared.nameOnly]

/-- The form of an optional chain tells whether there is one. -/
theorem map_chainJson_inj {chain chain' : Option (List Declared)} :
    chain.map chainJson = chain'.map chainJson ↔
      chain.map (List.map Declared.nameOnly) = chain'.map (List.map Declared.nameOnly) := by
  cases chain <;> cases chain' <;> simp [chainJson_inj]

theorem byNames_inj {μ : Type} {a b : Entry μ} :
    a.byNames = b.byNames ↔ a.member = b.member ∧
      a.chain.map (List.map Declared.nameOnly) = b.chain.map (List.map Declared.nameOnly) := by
  simp [Entry.byNames, Entry.map]

theorem methodJson_inj {a b : Entry Method} :
    methodJson a = methodJson b ↔ a.byNames = b.byNames := by
  rcases a with ⟨⟨name, fullName, info⟩, chain⟩
  rcases b with ⟨⟨name', fullName', info'⟩, chain'⟩
  simp [methodJson, byNames_inj, optional_inj, methodInfo_toJson_inj, map_chainJson_inj, and_assoc]

theorem fieldJson_inj {a b : Entry Field} :
    fieldJson a = fieldJson b ↔ a.byNames = b.byNames := by
  rcases a with ⟨⟨name, spelling⟩, chain⟩
  rcases b with ⟨⟨name', spelling'⟩, chain'⟩
  simp [fieldJson, byNames_inj, optionalText, optional_inj, map_string_inj, map_chainJson_inj,
    and_assoc]

theorem class_toJson_inj {c d : Class} : c.toJson = d.toJson ↔ c.byNames = d.byNames := by
  rcases c with ⟨name, fullName, methods, fields, info⟩
  rcases d with ⟨name', fullName', methods', fields', info'⟩
  simp [Class.toJson, Class.byNames, classInfo_toJson_inj,
    map_eq_map_iff_of_iff fun _ _ => methodJson_inj, map_eq_map_iff_of_iff fun _ _ => fieldJson_inj]

theorem unresolvedBase_toJson_inj {a b : UnresolvedBase} : a.toJson = b.toJson ↔ a = b := by
  rcases a with ⟨base, forClass⟩
  rcases b with ⟨base', forClass'⟩
  simp [UnresolvedBase.toJson]

/-! ### Atlases -/

/-- **Two atlases have one JSON form** exactly when they are equal with the chains told by names. -/
theorem Atlas.toJson_inj {a b : Atlas} : a.toJson = b.toJson ↔ a.byNames = b.byNames := by
  rcases a with ⟨fileName, classes, unresolved⟩
  rcases b with ⟨fileName', classes', unresolved'⟩
  have hclasses : classes.map Class.toJson = classes'.map Class.toJson ↔
      classes.map Class.byNames = classes'.map Class.byNames :=
    map_eq_map_iff_of_iff fun _ _ => class_toJson_inj
  -- the list of missing bases is left out where it is empty, and it is the last member
  cases unresolved <;> cases unresolved' <;>
    simp [Atlas.toJson, Atlas.byNames, hclasses, unresolvedBase_toJson_inj,
      map_eq_map_iff_eq fun _ _ => unresolvedBase_toJson_inj]

/-- **Two atlases are the same but for the order of members with different keys**, with the chains
told by names. -/
structure Atlas.SameUpToSorting (a b : Atlas) : Prop where
  /-- The source file has the same name. -/
  fileName : a.fileName = b.fileName
  /-- The classes are the same, position by position. -/
  classes : List.Forall₂ (fun c d => c.byNames.SameUpToSorting d.byNames) a.classes b.classes
  /-- The missing bases are the same. -/
  unresolved : a.unresolved = b.unresolved

/-- **Lists are sorted alike exactly when they have the same entries of each key.** -/
theorem sortEntries_eq_iff {μ : Type} [Member μ] {entries entries' : List (Entry μ)} :
    sortEntries entries = sortEntries entries' ↔ SameWithinKeys entries entries' := by
  refine ⟨fun h => ?_, SameWithinKeys.sortEntries_eq⟩
  have hsorted := (sortEntries_sameWithinKeys entries).symm
  rw [h] at hsorted
  exact hsorted.trans (sortEntries_sameWithinKeys entries')

/-- Entries with different keys may change places. -/
theorem sameWithinKeys_pair {μ : Type} [Member μ] {x y : Entry μ} (h : x.sortKey ≠ y.sortKey) :
    SameWithinKeys [x, y] [y, x] := by
  intro key
  by_cases hx : x.sortKey = key
  · simp [withKey, hx, (hx ▸ h).symm]
  · by_cases hy : y.sortKey = key <;> simp [withKey, hx, hy]

theorem Class.sortMembers_eq_iff {c d : Class} :
    c.sortMembers = d.sortMembers ↔ c.SameUpToSorting d := by
  refine ⟨fun h => ?_, fun h => h.sortMembers_eq.symm⟩
  simp only [Class.sortMembers, Class.mk.injEq, sortEntries_eq_iff] at h
  obtain ⟨hname, hfullName, hmethods, hfields, hinfo⟩ := h
  exact ⟨hname.symm, hfullName.symm, hinfo.symm, hmethods.symm, hfields.symm⟩

/-- **What is the same in canonical order** is the same but for the order of members with different
keys. -/
theorem Atlas.sortMembers_byNames_inj {a b : Atlas} :
    a.sortMembers.byNames = b.sortMembers.byNames ↔ a.SameUpToSorting b := by
  have hclasses : (a.classes.map Class.sortMembers).map Class.byNames =
      (b.classes.map Class.sortMembers).map Class.byNames ↔
        List.Forall₂ (fun c d => c.byNames.SameUpToSorting d.byNames) a.classes b.classes := by
    rw [List.map_map, List.map_map, Inheritance.map_eq_map_iff_forall₂]
    simp only [Function.comp_apply, Class.byNames_sortMembers, Class.sortMembers_eq_iff]
  rw [Atlas.byNames, Atlas.byNames, Atlas.mk.injEq]
  simp only [Atlas.sortMembers]
  rw [hclasses]
  exact ⟨fun ⟨hfile, hclasses, hunresolved⟩ => ⟨hfile, hclasses, hunresolved⟩,
    fun ⟨hfile, hclasses, hunresolved⟩ => ⟨hfile, hclasses, hunresolved⟩⟩

/-! ### What is printed -/

theorem report_json_inj {paint paint' : Paint} {a b : Atlas} :
    report paint true a = report paint' true b ↔
      a.sortMembers.byNames = b.sortMembers.byNames := by
  rw [report, report, if_pos rfl, if_pos rfl, String.append_left_inj, Value.text_inj,
    Atlas.toJson_inj]

theorem isBlank_lineEnd : IsBlank "\n".toList := by
  simp [IsBlank]

/-- The text that is printed spells the form of the atlas in canonical order, and nothing else. -/
theorem isDocument_report_iff {paint : Paint} {atlas : Atlas} {t : Tree} :
    IsDocument (report paint true atlas).toList t ↔ t = atlas.sortMembers.toJson.tree := by
  have hdocument : IsDocument (report paint true atlas).toList atlas.sortMembers.toJson.tree := by
    rw [report, if_pos rfl]
    exact Value.isDocument_text_append _ isBlank_lineEnd
  refine ⟨fun h => h.unique hdocument, ?_⟩
  rintro rfl
  exact hdocument

/-- **Nothing but the order of members is lost** by printing an atlas as JSON. The text spells one
document. Atlases are printed alike exactly when they are equal in canonical order with the chains
told by names, which is to say that they are the same but for the order of members with different
keys; and the JSON form of an atlas as it stands tells also this order. -/
theorem printed_json_tells_all_but_order (paint paint' : Paint) (a b : Atlas) :
    (∀ t, IsDocument (report paint true a).toList t ↔ t = a.sortMembers.toJson.tree) ∧
    (report paint true a = report paint' true b ↔
      a.sortMembers.byNames = b.sortMembers.byNames) ∧
    (report paint true a = report paint' true b ↔ a.SameUpToSorting b) ∧
    (a.toJson.text = b.toJson.text ↔ a.byNames = b.byNames) := by
  refine ⟨fun t => isDocument_report_iff, report_json_inj, ?_, ?_⟩
  · rw [report_json_inj, Atlas.sortMembers_byNames_inj]
  · rw [Value.text_inj, Atlas.toJson_inj]

/-- An atlas of one class, with fields of the given names. -/
def Atlas.ofFields (names : List String) : Atlas where
  fileName := "fields.cpp"
  classes := [{ name := "A", fullName := "A",
                fields := names.map fun name => { member := { name := name } } }]

/-- **The declared order is not told**: two fields are printed alike in either order. -/
theorem declared_order_is_not_printed :
    ¬ ∀ (paint : Paint) (a b : Atlas), report paint true a = report paint true b →
      a.byNames = b.byNames := by
  intro h
  have hfields : SameWithinKeys (μ := Field)
      [{ member := { name := "b" } }, { member := { name := "a" } }]
      [{ member := { name := "a" } }, { member := { name := "b" } }] :=
    sameWithinKeys_pair (by decide)
  have hsame :
      (Atlas.ofFields ["b", "a"]).sortMembers = (Atlas.ofFields ["a", "b"]).sortMembers := by
    simp [Atlas.sortMembers, Atlas.ofFields, Class.sortMembers, hfields.sortEntries_eq]
  have hnames := h false (Atlas.ofFields ["b", "a"]) (Atlas.ofFields ["a", "b"])
    (by rw [report, report, hsame])
  simp [Atlas.byNames, Atlas.ofFields, Class.byNames, Entry.byNames, Entry.map] at hnames

end ClassAtlas
