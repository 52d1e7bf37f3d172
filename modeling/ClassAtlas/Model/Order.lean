import ClassAtlas.Model.Class
/-!
# The canonical order of members

Members are shown in the order of the chain of names through which they came, then of their
names, then of their types, each compared character by character. An own member counts as one
that came through no ancestor, and a missing type as an empty one
(`ClassAtlas.Entry.order`). Sorting keeps members apart that the order does not tell apart, in
the order in which they stood.
-/

namespace ClassAtlas

variable {μ : Type} [Member μ]

/-- The type of an entry, empty if it has none. -/
def Entry.spelling (entry : Entry μ) : String :=
  (Member.spelling entry.member).getD ""

/-- **The canonical order**: chain of names, then name, then type. -/
def Entry.order (a b : Entry μ) : Ordering :=
  (compare a.chainNames b.chainNames).then
    ((compare (Member.name a.member) (Member.name b.member)).then
      (compare a.spelling b.spelling))

/-- Entries in canonical order, those that it does not tell apart as they stood. -/
def sortEntries (entries : List (Entry μ)) : List (Entry μ) :=
  entries.mergeSort fun a b => (a.order b).isLE

/-- The class with both member lists in canonical order. -/
def Class.sortMembers (c : Class) : Class :=
  { c with methods := sortEntries c.methods, fields := sortEntries c.fields }

end ClassAtlas
