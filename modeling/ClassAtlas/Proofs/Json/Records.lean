import Mathlib.Data.List.Nodup
import ClassAtlas.Proofs.Json.Contents
/-!
# Which record a value stands for

A record type has a rule for each of its fields (`ClassAtlas.Json.Rule`): a key, the field itself,
and what its values stand for. `ClassAtlas.Json.IsRecord` says without a reader when a value stands
for a record by such rules. What is written of it is either the members of an object, where no known
key may occur twice and other members mean nothing, or a list of the first fields in order; a field
that is written is what its value stands for, and every other field is as in the record that holds
the defaults.

`ClassAtlas.Json.Shape.read` puts one field after the other into the record of the defaults. Where
each field of a shape follows its rule (`ClassAtlas.Json.Slot.Follows`) and does not touch the
others, the two agree (`ClassAtlas.Json.Shape.Follows.reads`). Both forms of a record go by the same
step, `ClassAtlas.Json.fields_cons_iff`: a field that is written once may as well be put in first.
-/

namespace ClassAtlas

namespace Json

variable {σ : Type}

/-! ### Rules -/

/-- **The rule for a field** of a record type. -/
structure Rule (σ : Type) where
  /-- The type of the field. -/
  {α : Type}
  /-- The key of the field. -/
  key : String
  /-- The field of a record. -/
  get : σ → α
  /-- What a value of the field stands for. -/
  stands : Tree → α → Prop

/-- **The fields of a record** are those that are written, and otherwise those of the given
record. -/
def Fields (rules : List (Rule σ)) (written : List (String × Tree)) (default record : σ) : Prop :=
  ∀ rule ∈ rules,
    (∃ value, (rule.key, value) ∈ written ∧ rule.stands value (rule.get record)) ∨
    (∀ value, (rule.key, value) ∉ written) ∧ rule.get record = rule.get default

/-- The members of an object as they are written: keys are texts. -/
def Written (members : List (Lexeme × Tree)) (written : List (String × Tree)) : Prop :=
  List.Forall₂ (fun m w => m.1.Holds w.1 ∧ m.2 = w.2) members written

/-- **The record that a value stands for.** -/
inductive IsRecord (rules : List (Rule σ)) (default : σ) : Tree → σ → Prop
  | object {members : List (Lexeme × Tree)} {written : List (String × Tree)} {record : σ}
      (keys : Written members written)
      (once : ∀ key ∈ rules.map Rule.key, (written.map Prod.fst).count key ≤ 1)
      (fields : Fields rules written default record) :
      IsRecord rules default (.object members .closed) record
  | list {items : List Tree} {record : σ} (short : items.length ≤ rules.length)
      (fields : Fields rules ((rules.map Rule.key).zip items) default record) :
      IsRecord rules default (.list items .closed) record

/-! ### Fields that follow their rules -/

/-- **A field follows its rule** on some values: a value is put in when it is complete and stands
for something, the field is then what the value stands for, and fields with other keys are as they
were. -/
structure Slot.Follows (V : Tree → Prop) (rules : List (Rule σ)) (slot : Slot Tree σ)
    (rule : Rule σ) : Prop where
  /-- The keys are the same. -/
  key_eq : slot.key = rule.key
  /-- What is put in. -/
  stands_of_put : ∀ v, V v → ∀ r r', slot.put v r = .ok r' →
    v.skip = .ok () ∧ rule.stands v (rule.get r')
  /-- The other fields. -/
  get_of_put : ∀ v r r', slot.put v r = .ok r' → ∀ other ∈ rules, other.key ≠ rule.key →
    other.get r' = other.get r
  /-- What can be put in. -/
  exists_put : ∀ v, V v → v.skip = .ok () → ∀ a, rule.stands v a → ∀ r,
    ∃ r', slot.put v r = .ok r' ∧ rule.get r' = a

/-- **A shape follows the rules** of a record type. -/
structure Shape.Follows (V : Tree → Prop) (shape : Shape Tree σ) (rules : List (Rule σ)) :
    Prop where
  /-- Every field follows its rule. -/
  slots : List.Forall₂ (Slot.Follows V rules) shape.slots rules
  /-- No two fields have the same key. -/
  nodup : (rules.map Rule.key).Nodup
  /-- A record has no other fields. -/
  ext : ∀ r r', (∀ rule ∈ rules, rule.get r = rule.get r') → r = r'

theorem Slot.of_put_eq_ok_iff {α : Type} {key : String} {read : Tree → Except Fault α}
    {set : α → σ → σ} {v : Tree} {r r' : σ} :
    (Slot.of key read set).put v r = .ok r' ↔ ∃ a, read v = .ok a ∧ set a r = r' :=
  map_eq_ok_iff

/-- A field that is read by a reader follows its rule when the reader agrees with it. -/
theorem Slot.of_follows {V : Tree → Prop} {rules : List (Rule σ)} {α : Type} {key : String}
    {read : Tree → Except Fault α} {stands : Tree → α → Prop} {set : α → σ → σ} {get : σ → α}
    (hread : ∀ v, V v → Reads read stands v) (hget : ∀ a r, get (set a r) = a)
    (hother : ∀ a r, ∀ other ∈ rules, other.key ≠ key → other.get (set a r) = other.get r) :
    (Slot.of key read set).Follows V rules ⟨key, get, stands⟩ where
  key_eq := rfl
  stands_of_put v hv r r' hput := by
    obtain ⟨a, ha, rfl⟩ := Slot.of_put_eq_ok_iff.mp hput
    change v.skip = .ok () ∧ stands v (get (set a r))
    rw [hget]
    exact (hread v hv a).mp ha
  get_of_put v r r' hput other hmem hne := by
    obtain ⟨a, -, rfl⟩ := Slot.of_put_eq_ok_iff.mp hput
    exact hother a r other hmem hne
  exists_put v hv hskip a hstands r :=
    ⟨set a r, Slot.of_put_eq_ok_iff.mpr ⟨a, (hread v hv a).mpr ⟨hskip, hstands⟩, rfl⟩, hget a r⟩

section Fields

variable {V : Tree → Prop} {rules : List (Rule σ)} {slot : Slot Tree σ} {rule : Rule σ}
  {written : List (String × Tree)} {r record : σ} {key : String} {value : Tree}

theorem fields_nil_iff (hext : ∀ r r', (∀ rule ∈ rules, rule.get r = rule.get r') → r = r') :
    Fields rules [] r record ↔ r = record := by
  constructor
  · intro h
    refine hext r record fun rule hrule => ?_
    rcases h rule hrule with ⟨value, hmem, -⟩ | ⟨-, heq⟩
    · exact absurd hmem List.not_mem_nil
    · exact heq.symm
  · rintro rfl rule hrule
    exact Or.inr ⟨fun _ => List.not_mem_nil, rfl⟩

/-- A member with a key that no field has means nothing. -/
theorem fields_cons_of_unknown (h : ∀ rule ∈ rules, rule.key ≠ key) :
    Fields rules ((key, value) :: written) r record ↔ Fields rules written r record := by
  refine forall₂_congr fun rule hrule => ?_
  have hmem : ∀ v, (rule.key, v) ∈ (key, value) :: written ↔ (rule.key, v) ∈ written := by
    intro v
    simp [h rule hrule]
  simp only [hmem]

/-- **A field that is written once may be put in first.** -/
theorem fields_cons_iff (hslot : slot.Follows V rules rule) (hrule : rule ∈ rules)
    (hnodup : (rules.map Rule.key).Nodup) (hnew : ∀ v, (rule.key, v) ∉ written) (hV : V value) :
    value.skip = .ok () ∧ Fields rules ((rule.key, value) :: written) r record ↔
      ∃ r', slot.put value r = .ok r' ∧ Fields rules written r' record := by
  have hself : ∀ v, (rule.key, v) ∈ (rule.key, value) :: written ↔ v = value := by
    intro v
    simp [hnew]
  have hother : ∀ other : Rule σ, other.key ≠ rule.key → ∀ v,
      (other.key, v) ∈ (rule.key, value) :: written ↔ (other.key, v) ∈ written := by
    intro other hne v
    simp [hne]
  constructor
  · rintro ⟨hskip, hfields⟩
    have hstands : rule.stands value (rule.get record) := by
      rcases hfields rule hrule with ⟨v, hmem, hv⟩ | ⟨hnone, -⟩
      · exact (hself v).mp hmem ▸ hv
      · exact absurd List.mem_cons_self (hnone value)
    obtain ⟨r', hput, hget⟩ := hslot.exists_put value hV hskip _ hstands r
    refine ⟨r', hput, fun other hmem => ?_⟩
    -- the field itself is no longer written, and for the others nothing has changed
    by_cases hkey : other.key = rule.key
    · obtain rfl := List.inj_on_of_nodup_map hnodup hmem hrule hkey
      exact Or.inr ⟨hnew, hget.symm⟩
    · have hfield := hfields other hmem
      simp only [hother other hkey] at hfield
      rwa [hslot.get_of_put value r r' hput other hmem hkey]
  · rintro ⟨r', hput, hfields⟩
    obtain ⟨hskip, hstands⟩ := hslot.stands_of_put value hV r r' hput
    refine ⟨hskip, fun other hmem => ?_⟩
    by_cases hkey : other.key = rule.key
    · obtain rfl := List.inj_on_of_nodup_map hnodup hmem hrule hkey
      rcases hfields other hmem with ⟨v, hv, -⟩ | ⟨-, hget⟩
      · exact absurd hv (hnew v)
      · exact Or.inl ⟨value, List.mem_cons_self, hget ▸ hstands⟩
    · have hfield := hfields other hmem
      simp only [hother other hkey]
      rwa [hslot.get_of_put value r r' hput other hmem hkey] at hfield

end Fields

/-! ### The two forms -/

section Reading

variable {V : Tree → Prop} {shape : Shape Tree σ} {rules : List (Rule σ)}

theorem ListEnd.checkFull_eq_ok_iff {ending : ListEnd} :
    ending.checkFull = .ok () ↔ ending = .closed := by
  cases ending <;> simp [ListEnd.checkFull]

/-- **The list of the first fields**, from some field on: it is read as if each value had the key of
its field. -/
theorem readSlots_eq_ok_iff {ending : ListEnd} {slots : List (Slot Tree σ)}
    {rest : List (Rule σ)} (hslots : List.Forall₂ (Slot.Follows V rules) slots rest)
    (hrest : rest.Sublist rules) (h : shape.Follows V rules) {items : List Tree}
    (hV : ∀ item ∈ items, V item) {r record : σ} :
    readSlots ending slots items r = .ok record ↔
      ending = .closed ∧ (∀ item ∈ items, item.skip = .ok ()) ∧ items.length ≤ rest.length ∧
        Fields rules ((rest.map Rule.key).zip items) r record := by
  induction hslots generalizing items r with
  | nil =>
    cases items with
    | nil =>
      rw [readSlots, check_bind_eq_ok_iff, ListEnd.checkFull_eq_ok_iff]
      simp [fields_nil_iff h.ext, pure, Except.pure]
    | cons item items =>
      constructor
      · rintro ⟨⟩
      · exact fun h => absurd h.2.2.1 (Nat.not_succ_le_zero _)
  | @cons slot rule slots rest hslot _ ih =>
    cases items with
    | nil =>
      rw [readSlots, check_bind_eq_ok_iff, ListEnd.check_eq_ok_iff]
      simp [fields_nil_iff h.ext, pure, Except.pure]
    | cons item items =>
      obtain ⟨hitem, hitems⟩ := List.forall_mem_cons.mp hV
      -- the keys of the fields behind are others, so the field is written once
      have hnew : ∀ v, (rule.key, v) ∉ (rest.map Rule.key).zip items := by
        intro v hmem
        have hnodup := h.nodup.sublist (hrest.map Rule.key)
        exact (List.nodup_cons.mp hnodup).1 (List.of_mem_zip hmem).1
      have hput : ∀ {r record : σ}, item.skip = .ok () ∧
          Fields rules ((rule.key, item) :: (rest.map Rule.key).zip items) r record ↔
            ∃ r', slot.put item r = .ok r' ∧
              Fields rules ((rest.map Rule.key).zip items) r' record :=
        fields_cons_iff hslot (hrest.subset List.mem_cons_self) h.nodup hnew hitem
      rw [readSlots, bind_eq_ok_iff]
      simp only [ih (List.sublist_of_cons_sublist hrest) hitems]
      constructor
      · rintro ⟨r', hr', hclosed, hskips, hlen, hfields⟩
        obtain ⟨hskip, hfields⟩ := hput.mpr ⟨r', hr', hfields⟩
        exact ⟨hclosed, List.forall_mem_cons.mpr ⟨hskip, hskips⟩, Nat.succ_le_succ hlen, hfields⟩
      · rintro ⟨hclosed, hskips, hlen, hfields⟩
        obtain ⟨hskip, hskips⟩ := List.forall_mem_cons.mp hskips
        obtain ⟨r', hr', hfields⟩ := hput.mp ⟨hskip, hfields⟩
        exact ⟨r', hr', hclosed, hskips, Nat.le_of_succ_le_succ hlen, hfields⟩

theorem Shape.checkEnd_eq_ok_iff {seen : List String} {ending : ObjectEnd} :
    shape.checkEnd seen ending = .ok () ↔ ending = .closed := by
  cases ending <;>
    simp [Shape.checkEnd, bind_eq_ok_iff, throw, throwThe, MonadExceptOf.throw]

/-- The field with a known key. -/
theorem exists_find? {slots : List (Slot Tree σ)} {rest : List (Rule σ)} {rule : Rule σ}
    (hslots : List.Forall₂ (Slot.Follows V rules) slots rest) (hnodup : (rest.map Rule.key).Nodup)
    (hrule : rule ∈ rest) :
    ∃ slot, slot.Follows V rules rule ∧
      slots.find? (fun slot => slot.key == rule.key) = some slot := by
  induction hslots with
  | nil => exact absurd hrule List.not_mem_nil
  | @cons slot first slots rest hslot _ ih =>
    rw [List.map_cons, List.nodup_cons] at hnodup
    rcases List.mem_cons.mp hrule with rfl | hrule
    · exact ⟨slot, hslot, List.find?_cons_of_pos (by simp [hslot.key_eq])⟩
    · obtain ⟨found, hfound, hfind⟩ := ih hnodup.2 hrule
      have hne : first.key ≠ rule.key := fun heq =>
        hnodup.1 (heq ▸ List.mem_map_of_mem hrule)
      exact ⟨found, hfound, by rw [List.find?_cons_of_neg (by simp [hslot.key_eq, hne]), hfind]⟩

/-- There is no field with an unknown key. -/
theorem find?_eq_none_of_unknown {slots : List (Slot Tree σ)} {rest : List (Rule σ)}
    {key : String} (hslots : List.Forall₂ (Slot.Follows V rules) slots rest)
    (hkey : ∀ rule ∈ rest, rule.key ≠ key) :
    slots.find? (fun slot => slot.key == key) = none := by
  induction hslots with
  | nil => rfl
  | cons hslot _ ih =>
    obtain ⟨hfirst, hrest⟩ := List.forall_mem_cons.mp hkey
    rw [List.find?_cons_of_neg (by simp [hslot.key_eq, hfirst]), ih hrest]

section Keys

variable {seen : List String} {key : Lexeme} {text : String}

theorem slot?_of_unknown (h : shape.Follows V rules) (htext : key.Holds text)
    (hkey : ∀ rule ∈ rules, rule.key ≠ text) : shape.slot? seen key = .ok none := by
  rw [Shape.slot?, Lexeme.text_eq_ok_iff.mpr htext]
  simp only [bind, Except.bind, find?_eq_none_of_unknown h.slots hkey]
  rfl

theorem slot?_of_known {rule : Rule σ} (h : shape.Follows V rules) (htext : key.Holds rule.key)
    (hrule : rule ∈ rules) (seen : List String) :
    ∃ slot, slot.Follows V rules rule ∧ shape.slot? seen key =
      if rule.key ∈ seen then .error (.duplicateKey rule.key) else .ok (some slot) := by
  obtain ⟨slot, hslot, hfind⟩ := exists_find? h.slots h.nodup hrule
  refine ⟨slot, hslot, ?_⟩
  rw [Shape.slot?, Lexeme.text_eq_ok_iff.mpr htext]
  simp only [bind, Except.bind, hfind, List.contains_iff_mem]
  rfl

theorem slot?_of_not_holds (h : ∀ text, ¬key.Holds text) {o : Option (Slot Tree σ)} :
    shape.slot? seen key ≠ .ok o := by
  rw [Shape.slot?, ne_eq, bind_eq_ok_iff]
  rintro ⟨text, htext, -⟩
  exact h text (Lexeme.text_eq_ok_iff.mp htext)

end Keys

/-- **The fields of a record written in the members of an object**, of which those with the given
keys have been written before. -/
def MembersGive (rules : List (Rule σ)) (seen : List String) (members : List (Lexeme × Tree))
    (r record : σ) : Prop :=
  ∃ written, Written members written ∧
    (∀ rule ∈ rules, (seen ++ written.map Prod.fst).count rule.key ≤ 1) ∧
    Fields rules written r record

section Members

variable {seen : List String} {key : Lexeme} {text : String} {value : Tree} {r record : σ}
  {members : List (Lexeme × Tree)}

/-- Without members every field is as it was. -/
theorem membersGive_nil_iff (h : shape.Follows V rules) (hseen : seen.Nodup) :
    MembersGive rules seen [] r record ↔ r = record := by
  have honce : ∀ rule ∈ rules, seen.count rule.key ≤ 1 := fun rule _ =>
    List.nodup_iff_count_le_one.mp hseen rule.key
  simpa [MembersGive, Written, fields_nil_iff h.ext] using fun _ => honce

theorem exists_holds_of_membersGive
    (h : MembersGive rules seen ((key, value) :: members) r record) : ∃ text, key.Holds text := by
  obtain ⟨_, hwritten, -⟩ := h
  cases hwritten with
  | cons hw _ => exact ⟨_, hw.1⟩

/-- The key of a member is the text that it holds. -/
theorem exists_written_cons {P : List (String × Tree) → Prop} (htext : key.Holds text) :
    (∃ written, Written ((key, value) :: members) written ∧ P written) ↔
      ∃ rest, Written members rest ∧ P ((text, value) :: rest) := by
  constructor
  · rintro ⟨_, hwritten, hP⟩
    cases hwritten with
    | @cons _ w _ rest hw hrest =>
      obtain ⟨text', value'⟩ := w
      obtain ⟨htext', rfl⟩ := hw
      have heq : text' = text := by
        rw [← Lexeme.text_eq_ok_iff] at htext htext'
        exact Except.ok.inj (htext'.symm.trans htext)
      exact ⟨rest, hrest, heq ▸ hP⟩
  · rintro ⟨rest, hrest, hP⟩
    exact ⟨_, .cons ⟨htext, rfl⟩ hrest, hP⟩

/-- A member with an unknown key gives nothing. -/
theorem membersGive_cons_of_unknown (htext : key.Holds text)
    (hkey : ∀ rule ∈ rules, rule.key ≠ text) :
    MembersGive rules seen ((key, value) :: members) r record ↔
      MembersGive rules seen members r record := by
  have hcount : ∀ written : List (String × Tree), ∀ rule ∈ rules,
      (seen ++ ((text, value) :: written).map Prod.fst).count rule.key =
        (seen ++ written.map Prod.fst).count rule.key := by
    intro written rule hrule
    simp [List.count_append, List.count_cons_of_ne (hkey rule hrule).symm]
  rw [MembersGive, exists_written_cons htext]
  refine exists_congr fun written => and_congr_right' ?_
  rw [fields_cons_of_unknown hkey]
  exact and_congr_left' (forall₂_congr fun rule hrule => by rw [hcount written rule hrule])

/-- A member with a known key may be put in first, unless the key was seen before. -/
theorem membersGive_cons_iff {slot : Slot Tree σ} {rule : Rule σ} (h : shape.Follows V rules)
    (hslot : slot.Follows V rules rule) (hrule : rule ∈ rules) (htext : key.Holds rule.key)
    (hV : V value) :
    value.skip = .ok () ∧ MembersGive rules seen ((key, value) :: members) r record ↔
      rule.key ∉ seen ∧ ∃ r', slot.put value r = .ok r' ∧
        MembersGive rules (rule.key :: seen) members r' record := by
  -- it does not matter whether the key counts as seen before or as written now
  have hcount : ∀ (other : Rule σ) (written : List (String × Tree)),
      (seen ++ ((rule.key, value) :: written).map Prod.fst).count other.key =
        (rule.key :: seen ++ written.map Prod.fst).count other.key :=
    fun other written => List.perm_middle.count_eq other.key
  have hnot : ∀ written : List (String × Tree),
      (rule.key :: seen ++ written.map Prod.fst).count rule.key ≤ 1 →
        rule.key ∉ seen ∧ ∀ v, (rule.key, v) ∉ written := by
    intro written hle
    rw [List.cons_append, List.count_cons_self] at hle
    have hmem := List.count_eq_zero.mp (Nat.le_zero.mp (Nat.le_of_succ_le_succ hle))
    exact ⟨fun hseen => hmem (List.mem_append_left _ hseen),
      fun v hv => hmem (List.mem_append_right _ (List.mem_map_of_mem hv))⟩
  rw [MembersGive, exists_written_cons htext]
  simp only [hcount]
  constructor
  · rintro ⟨hskip, written, hwritten, honce, hfields⟩
    obtain ⟨hseen, hnew⟩ := hnot written (honce rule hrule)
    obtain ⟨r', hput, hfields⟩ :=
      (fields_cons_iff hslot hrule h.nodup hnew hV).mp ⟨hskip, hfields⟩
    exact ⟨hseen, r', hput, written, hwritten, honce, hfields⟩
  · rintro ⟨-, r', hput, written, hwritten, honce, hfields⟩
    obtain ⟨-, hnew⟩ := hnot written (honce rule hrule)
    obtain ⟨hskip, hfields⟩ :=
      (fields_cons_iff hslot hrule h.nodup hnew hV).mpr ⟨r', hput, hfields⟩
    exact ⟨hskip, written, hwritten, honce, hfields⟩

end Members

/-- **The members of an object**, from some member on: they are read as the fields that they
give. -/
theorem readMembers_eq_ok_iff (h : shape.Follows V rules) {ending : ObjectEnd}
    {members : List (Lexeme × Tree)} (hV : ∀ m ∈ members, V m.2) {seen : List String}
    (hseen : seen.Nodup) {r record : σ} :
    shape.readMembers Tree.skip ending members seen r = .ok record ↔
      ending = .closed ∧ (∀ m ∈ members, m.2.skip = .ok ()) ∧
        MembersGive rules seen members r record := by
  induction members generalizing seen r with
  | nil =>
    rw [Shape.readMembers, check_bind_eq_ok_iff, Shape.checkEnd_eq_ok_iff,
      membersGive_nil_iff h hseen]
    simp [pure, Except.pure]
  | cons m members ih =>
    obtain ⟨key, value⟩ := m
    obtain ⟨hvalue, hmembers⟩ := List.forall_mem_cons.mp hV
    rw [Shape.readMembers, bind_eq_ok_iff, List.forall_mem_cons]
    -- a key that is no text is refused, and a member with an unknown key is passed over
    by_cases hholds : ∃ text, key.Holds text
    · obtain ⟨text, htext⟩ := hholds
      by_cases hknown : ∃ rule ∈ rules, rule.key = text
      · obtain ⟨rule, hrule, rfl⟩ := hknown
        obtain ⟨slot, hslot, heq⟩ := slot?_of_known h htext hrule seen
        rw [heq]
        constructor
        · rintro ⟨o, ho, hread⟩
          split_ifs at ho with hmem
          cases ho
          obtain ⟨r', hput, hread⟩ := bind_eq_ok_iff.mp hread
          rw [hslot.key_eq, ih hmembers (List.nodup_cons.mpr ⟨hmem, hseen⟩)] at hread
          obtain ⟨hclosed, hskips, hrest⟩ := hread
          obtain ⟨hskip, hall⟩ := (membersGive_cons_iff h hslot hrule htext hvalue).mpr
            ⟨hmem, r', hput, hrest⟩
          exact ⟨hclosed, ⟨hskip, hskips⟩, hall⟩
        · rintro ⟨hclosed, ⟨hskip, hskips⟩, hall⟩
          obtain ⟨hmem, r', hput, hrest⟩ :=
            (membersGive_cons_iff h hslot hrule htext hvalue).mp ⟨hskip, hall⟩
          refine ⟨some slot, if_neg hmem, bind_eq_ok_iff.mpr ⟨r', hput, ?_⟩⟩
          rw [hslot.key_eq, ih hmembers (List.nodup_cons.mpr ⟨hmem, hseen⟩)]
          exact ⟨hclosed, hskips, hrest⟩
      · have hkey : ∀ rule ∈ rules, rule.key ≠ text := fun rule hrule heq =>
          hknown ⟨rule, hrule, heq⟩
        rw [slot?_of_unknown h htext hkey]
        simp only [Except.ok.injEq, exists_eq_left', check_bind_eq_ok_iff, ih hmembers hseen,
          membersGive_cons_of_unknown htext hkey]
        tauto
    · constructor
      · rintro ⟨o, ho, -⟩
        exact absurd ho (slot?_of_not_holds (not_exists.mp hholds))
      · rintro ⟨-, -, hgive⟩
        exact absurd (exists_holds_of_membersGive hgive) hholds

theorem Written.ending_eq {members : List (Lexeme × Tree)} {written : List (String × Tree)}
    (h : Written members written) : ∀ m ∈ members, m.1.ending = .closed := by
  induction h with
  | nil => exact List.forall_mem_nil _
  | cons hw _ ih => exact List.forall_mem_cons.mpr ⟨hw.1.1, ih⟩

/-- **A shape that follows the rules of a record type reads its records** from a value whose parts
are read by the rules. -/
theorem Shape.Follows.reads {t : Tree} {default : σ} (h : shape.Follows (· ∈ t.parts) rules) :
    Reads (shape.read default) (IsRecord rules default) t := by
  intro record
  cases t with
  | object members ending =>
    have hV : ∀ m ∈ members, m.2 ∈ members.map Prod.snd := fun m => List.mem_map_of_mem
    rw [Shape.read, readMembers_eq_ok_iff h hV List.nodup_nil, Tree.skip_object_eq_ok_iff]
    constructor
    · rintro ⟨rfl, hskips, written, hwritten, honce, hfields⟩
      exact ⟨⟨fun m hm => ⟨hwritten.ending_eq m hm, hskips m hm⟩, rfl⟩,
        .object hwritten (List.forall_mem_map.mpr honce) hfields⟩
    · rintro ⟨⟨hskips, -⟩, hrecord⟩
      cases hrecord with
      | object hwritten honce hfields =>
        exact ⟨rfl, fun m hm => (hskips m hm).2, _, hwritten, List.forall_mem_map.mp honce,
          hfields⟩
  | list items ending =>
    have hV : ∀ item ∈ items, item ∈ items := fun _ => id
    rw [Shape.read, readSlots_eq_ok_iff h.slots (List.Sublist.refl rules) h hV,
      Tree.skip_list_eq_ok_iff]
    constructor
    · rintro ⟨rfl, hskips, hlen, hfields⟩
      exact ⟨⟨hskips, rfl⟩, .list hlen hfields⟩
    · rintro ⟨⟨hskips, -⟩, hrecord⟩
      cases hrecord with
      | list hlen hfields => exact ⟨rfl, hskips, hlen, hfields⟩
  | _ =>
    constructor
    · rintro ⟨⟩
    · rintro ⟨-, ⟨⟩⟩

end Reading

end Json

end ClassAtlas
