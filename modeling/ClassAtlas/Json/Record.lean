import ClassAtlas.Json.Reading
import ClassAtlas.Json.Scan
/-!
# Records

A record is written as an object of its fields, in any order and with other members between
them, or as a list of its first fields in declared order. Fields that are not written keep
their default. `ClassAtlas.Json.Shape` describes a record type by its fields, and
`ClassAtlas.Json.Shape.read` reads either form: it starts from the record that holds the
defaults and puts in one field after the other, so an object may hold a known key only once,
and the second is refused before its value is looked at.

The fields are read from values of a type `τ`, which is `ClassAtlas.Json.Tree` except where a
record contains records of its own type and its values come with what was read below them.
-/

namespace ClassAtlas

namespace Json

/-- A field of a record type `σ`: its key, and how a value is put into the record. -/
structure Slot (τ σ : Type) where
  /-- The key of the field. -/
  key : String
  /-- The record with the field read from a value. -/
  put : τ → σ → Except Fault σ

/-- **A record type**: its name in messages, and its fields in declared order. -/
structure Shape (τ σ : Type) where
  /-- The name in messages. -/
  name : String
  /-- The fields in declared order. -/
  slots : List (Slot τ σ)

variable {τ σ : Type}

/-- A field that is read by a reader and put in by a setter. -/
def Slot.of {ρ α : Type} (key : String) (read : ρ → Except Fault α) (set : α → σ → σ) :
    Slot ρ σ :=
  ⟨key, fun value record => (read value).map fun a => set a record⟩

/-- The field with the given key, unless there is none. A key of a field that was seen before
is refused. -/
def Shape.slot? (shape : Shape τ σ) (seen : List String) (key : Lexeme) :
    Except Fault (Option (Slot τ σ)) := do
  let text ← key.text
  match shape.slots.find? fun slot => slot.key == text with
  | none => return none
  | some slot => if seen.contains text then throw (.duplicateKey text) else return some slot

/-- How the object of a record may end when the given keys were seen. -/
def Shape.checkEnd (shape : Shape τ σ) (seen : List String) : ObjectEnd → Except Fault Unit
  | .closed => .ok ()
  | .cut => .error .endInObject
  | .unseparated => .error .objectSeparator
  | .trailingComma => .error .trailingComma
  | .cutAfterComma => .error .endInValue
  | .noKey => .error .noKey
  | .cutAfterKey key => do
      let _ ← shape.slot? seen key
      throw .endInObject
  | .noColon key => do
      let _ ← shape.slot? seen key
      throw .noColon

/-- **A record written as an object**: known fields are put in, other members are passed
over. -/
def Shape.readMembers (shape : Shape τ σ) (skip : τ → Except Fault Unit) (ending : ObjectEnd) :
    List (Lexeme × τ) → List String → σ → Except Fault σ
  | [], seen, record => do
      shape.checkEnd seen ending
      return record
  | (key, value) :: members, seen, record => do
      match ← shape.slot? seen key with
      | none =>
          skip value
          readMembers shape skip ending members seen record
      | some slot =>
          let record ← slot.put value record
          readMembers shape skip ending members (slot.key :: seen) record

/-- How the list of a record may end when all its fields have been read: anything but the
bracket is too much. -/
def ListEnd.checkFull : ListEnd → Except Fault Unit
  | .closed => .ok ()
  | .cut => .error .endInList
  | .unseparated => .error .trailingText
  | .trailingComma => .error .trailingComma
  | .cutAfterComma => .error .trailingText

/-- **A record written as a list** of its first fields. -/
def readSlots (ending : ListEnd) : List (Slot τ σ) → List τ → σ → Except Fault σ
  | [], [], record => do
      ending.checkFull
      return record
  | [], _ :: _, _ => throw .trailingText
  | _ :: _, [], record => do
      ending.check
      return record
  | slot :: slots, item :: items, record => do
      let record ← slot.put item record
      readSlots ending slots items record

/-- **Reading a record** in either form, from the record that holds the defaults. -/
def Shape.read (shape : Shape Tree σ) (default : σ) : Tree → Except Fault σ
  | .object members ending => shape.readMembers Tree.skip ending members [] default
  | .list items ending => readSlots ending shape.slots items default
  | t => .error (t.mismatch (.record shape.name))

/-- **A whole text** read as one value. -/
def readDocument {α : Type} (read : Tree → Except Fault α) (text : String) : Except Fault α := do
  let document := Document.scan text
  let a ← read document.tree
  if document.trailing then throw .trailingText else return a

/-! ### Values under a map -/

/-- The record type whose values are first mapped. -/
def Slot.comap {ρ : Type} (f : ρ → τ) (slot : Slot τ σ) : Slot ρ σ :=
  ⟨slot.key, fun value record => slot.put (f value) record⟩

/-- The record type whose values are first mapped. -/
def Shape.comap {ρ : Type} (f : ρ → τ) (shape : Shape τ σ) : Shape ρ σ :=
  ⟨shape.name, shape.slots.map (Slot.comap f)⟩

theorem Shape.slot?_comap {ρ : Type} (f : ρ → τ) (shape : Shape τ σ) (seen : List String)
    (key : Lexeme) :
    (shape.comap f).slot? seen key = (shape.slot? seen key).map (Option.map (Slot.comap f)) := by
  have hfind : ∀ (slots : List (Slot τ σ)) (text : String),
      (slots.map (Slot.comap f)).find? (fun slot => slot.key == text) =
        (slots.find? fun slot => slot.key == text).map (Slot.comap f) := by
    intro slots text
    rw [List.find?_map]
    rfl
  unfold Shape.slot?
  cases key.text with
  | error fault => rfl
  | ok text =>
    simp only [bind, Except.bind, Shape.comap, hfind]
    cases shape.slots.find? fun slot => slot.key == text with
    | none => rfl
    | some slot => cases seen.contains text <;> rfl

theorem Shape.checkEnd_comap {ρ : Type} (f : ρ → τ) (shape : Shape τ σ) (seen : List String)
    (ending : ObjectEnd) : (shape.comap f).checkEnd seen ending = shape.checkEnd seen ending := by
  cases ending with
  | cutAfterKey key =>
    simp only [Shape.checkEnd, Shape.slot?_comap]
    cases shape.slot? seen key <;> rfl
  | noColon key =>
    simp only [Shape.checkEnd, Shape.slot?_comap]
    cases shape.slot? seen key <;> rfl
  | _ => rfl

/-- Mapping the values first and reading them as they are is the same. -/
theorem Shape.readMembers_comap {ρ : Type} (f : ρ → τ) (shape : Shape τ σ)
    (skip : τ → Except Fault Unit) (ending : ObjectEnd) (members : List (Lexeme × ρ))
    (seen : List String) (record : σ) :
    (shape.comap f).readMembers (skip ∘ f) ending members seen record =
      shape.readMembers skip ending (members.map fun m => (m.1, f m.2)) seen record := by
  induction members generalizing seen record with
  | nil => simp only [Shape.readMembers, List.map_nil, Shape.checkEnd_comap]
  | cons m members ih =>
    simp only [Shape.readMembers, List.map_cons, Shape.slot?_comap, Function.comp_apply]
    cases shape.slot? seen m.1 with
    | error fault => rfl
    | ok slot =>
      cases slot with
      | none =>
        simp only [Except.map, Option.map_none, bind, Except.bind]
        cases skip (f m.2) with
        | error fault => rfl
        | ok _ => exact ih seen record
      | some slot =>
        simp only [Except.map, Option.map_some, bind, Except.bind, Slot.comap]
        cases slot.put (f m.2) record with
        | error fault => rfl
        | ok record => exact ih (slot.key :: seen) record

/-- Mapping the values first and reading them as they are is the same. -/
theorem readSlots_comap {ρ : Type} (f : ρ → τ) (ending : ListEnd) (slots : List (Slot τ σ))
    (items : List ρ) (record : σ) :
    readSlots ending (slots.map (Slot.comap f)) items record =
      readSlots ending slots (items.map f) record := by
  induction slots generalizing items record with
  | nil => cases items <;> rfl
  | cons slot slots ih =>
    cases items with
    | nil => rfl
    | cons item items =>
      simp only [List.map_cons, readSlots, Slot.comap, bind, Except.bind]
      cases slot.put (f item) record with
      | error fault => rfl
      | ok record => exact ih items record

end Json

end ClassAtlas
