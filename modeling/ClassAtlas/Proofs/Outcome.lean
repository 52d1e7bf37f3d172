import ClassAtlas.Proofs.Inheritance.Limit
import ClassAtlas.Proofs.Walk.Requests
/-!
# Whether there is an atlas

Five things can stand in the way of an atlas: the compiler prints nothing, what it prints is no
dump, the dump is not that of a compilation unit, the unit is empty, or a class has too many bases
above it. `ClassAtlas.Atlas.FirstFailure` says of each what it takes for it to be the first, and
what has been asked of the demangler by then. The first of them decides the outcome, and when there
is none there is an atlas (`ClassAtlas.Atlas.first_failure_decides`); bases that are missing stand
in the way of nothing.

The demangler comes in between the fourth and the fifth. So either it was asked nothing, or about
every method of the unit.
-/

namespace ClassAtlas

open Inheritance

namespace Atlas

/-- **The compiler prints a tree** when it prints a dump of it. -/
def Prints (compile : List String → Option String) (arguments : List String) (root : Ast.Node) :
    Prop :=
  ∃ dump, compile arguments = some dump ∧ Ast.Node.ofDump dump = .ok root

/-- **The first failure on the way to an atlas**, and what was asked of the demangler before it. -/
inductive FirstFailure (compile : List String → Option String) (demangler : Demangler)
    (limit : Nat) (arguments : List String) : Error → List (Option String) → Prop
  /-- The compiler prints nothing. -/
  | notCompiled (hcompile : compile arguments = none) :
      FirstFailure compile demangler limit arguments .compileFailed []
  /-- What it prints is no dump. -/
  | notRead {dump : String} {fault : Json.Fault} (hcompile : compile arguments = some dump)
      (hdump : Ast.Node.ofDump dump = .error fault) :
      FirstFailure compile demangler limit arguments (.invalidDump dump fault) []
  /-- The dump is not that of a compilation unit. -/
  | notUnit {root : Ast.Node} (hprints : Prints compile arguments root)
      (hkind : root.kind ≠ "TranslationUnitDecl") :
      FirstFailure compile demangler limit arguments (.unexpectedRoot root.kind) []
  /-- The unit is empty. -/
  | empty {root : Ast.Node} (hprints : Prints compile arguments root)
      (hkind : root.kind = "TranslationUnitDecl") (hinner : root.inner = []) :
      FirstFailure compile demangler limit arguments .emptyUnit []
  /-- Some class has too many bases above it, and this is the first. By then the demangler was
  asked about every method of the unit, in document order. -/
  | tooDeep {root : Ast.Node} {collection : Collection} {before after : List Class} {c : Class}
      {methods : List (List Nat)} (hprints : Prints compile arguments root)
      (hkind : root.kind = "TranslationUnitDecl") (hinner : root.inner ≠ [])
      (hcollect : collect demangler root = .ok collection)
      (hsplit : collection.classes = before ++ c :: after)
      (hbefore : ∀ b ∈ before, ¬HasRun collection.classes b (limit + 1))
      (hdeep : HasRun collection.classes c (limit + 1))
      (hmethods : Ast.Lists Ast.ComesBefore
        (fun q => (root.nodeAt q).declKind.isFunction = true) methods) :
      FirstFailure compile demangler limit arguments (.tooDeep c.fullName limit)
        (methods.map fun q => (root.nodeAt q).symbol)

/-- **Nothing fails on the way to an atlas**: the compiler prints a unit that is not empty, and no
class of it starts a run of more bases than the limit. -/
def NothingFails (compile : List String → Option String) (demangler : Demangler) (limit : Nat)
    (arguments : List String) : Prop :=
  ∃ root collection, Prints compile arguments root ∧ root.kind = "TranslationUnitDecl" ∧
    root.inner ≠ [] ∧ collect demangler root = .ok collection ∧
    ∀ c ∈ collection.classes, ¬HasRun collection.classes c (limit + 1)

variable {compile : List String → Option String} {demangler : Demangler} {limit : Nat}
  {fileName : String} {arguments : List String} {root : Ast.Node} {e : Error}
  {requests : List (Option String)}

/-! ### After the dump -/

/-- From a tree that is printed, an atlas is made as from any tree. -/
theorem ofSource_eq_ofTree (h : Prints compile arguments root) :
    ofSource compile demangler limit fileName arguments =
      ofTree demangler limit fileName root := by
  obtain ⟨dump, hcompile, hdump⟩ := h
  simp only [ofSource, hcompile, ofDump, hdump]

/-- A unit that is not empty is collected. -/
theorem exists_collect_eq_ok (demangler : Demangler) (hkind : root.kind = "TranslationUnitDecl")
    (hinner : root.inner ≠ []) : ∃ collection, collect demangler root = .ok collection :=
  ⟨_, Walk.collect_eq (Ast.Kind.ofTag_eq_unit_iff.mpr hkind) hinner⟩

/-! ### The outcome -/

/-- **The first failure is the outcome.** -/
theorem FirstFailure.ofSource_eq (h : FirstFailure compile demangler limit arguments e requests) :
    ofSource compile demangler limit fileName arguments = ⟨.error e, requests⟩ := by
  cases h with
  | notCompiled hcompile => simp only [ofSource, hcompile]
  | notRead hcompile hdump => simp only [ofSource, hcompile, ofDump, hdump]
  | notUnit hprints hkind =>
    have hcollect : collect demangler _ = .error _ :=
      Walk.collect_eq_error_iff.mpr (.inl ⟨mt Ast.Kind.ofTag_eq_unit_iff.mp hkind, rfl⟩)
    rw [ofSource_eq_ofTree hprints, ofTree_of_refused hcollect]
  | empty hprints hkind hinner =>
    have hcollect : collect demangler _ = .error _ :=
      Walk.collect_eq_error_iff.mpr (.inr ⟨Ast.Kind.ofTag_eq_unit_iff.mpr hkind, hinner, rfl⟩)
    rw [ofSource_eq_ofTree hprints, ofTree_of_refused hcollect]
  | tooDeep hprints hkind hinner hcollect hsplit hbefore hdeep hmethods =>
    have hresolve := resolve_eq_error_iff.mpr ⟨_, _, _, hsplit, rfl, hdeep, hbefore⟩
    rw [ofSource_eq_ofTree hprints, ofTree_eq hcollect, map_eq_error_iff.mpr hresolve,
      Walk.requests_of_collect hcollect hmethods]

/-- **When nothing fails there is an atlas.** -/
theorem NothingFails.exists_ofSource_eq_ok (h : NothingFails compile demangler limit arguments)
    (fileName : String) :
    ∃ atlas, (ofSource compile demangler limit fileName arguments).result = .ok atlas := by
  obtain ⟨root, collection, hprints, -, -, hcollect, hshallow⟩ := h
  obtain ⟨r, hr⟩ := exists_resolve_eq_ok_iff.mpr hshallow
  exact ⟨_, by rw [ofSource_eq_ofTree hprints, ofTree_eq hcollect, hr]; rfl⟩

/-- Something fails first, or nothing fails. -/
theorem exists_firstFailure_or_nothingFails (compile : List String → Option String)
    (demangler : Demangler) (limit : Nat) (arguments : List String) :
    (∃ e requests, FirstFailure compile demangler limit arguments e requests) ∨
      NothingFails compile demangler limit arguments := by
  cases hcompile : compile arguments with
  | none => exact .inl ⟨_, _, .notCompiled hcompile⟩
  | some dump =>
    cases hdump : Ast.Node.ofDump dump with
    | error fault => exact .inl ⟨_, _, .notRead hcompile hdump⟩
    | ok root =>
      have hprints : Prints compile arguments root := ⟨dump, hcompile, hdump⟩
      by_cases hkind : root.kind = "TranslationUnitDecl"
      · by_cases hinner : root.inner = []
        · exact .inl ⟨_, _, .empty hprints hkind hinner⟩
        · obtain ⟨collection, hcollect⟩ := exists_collect_eq_ok demangler hkind hinner
          cases hresolve : resolve limit collection.classes with
          | error e =>
            obtain ⟨before, c, after, hsplit, rfl, hdeep, hbefore⟩ :=
              resolve_eq_error_iff.mp hresolve
            exact .inl ⟨_, _, .tooDeep hprints hkind hinner hcollect hsplit hbefore hdeep
              (Walk.lists_methodsOf root)⟩
          | ok r =>
            exact .inr ⟨root, collection, hprints, hkind, hinner, hcollect,
              exists_resolve_eq_ok_iff.mp ⟨r, hresolve⟩⟩
      · exact .inl ⟨_, _, .notUnit hprints hkind⟩

/-- The failures of a source file are those that come first. -/
theorem ofSource_eq_error_iff :
    ofSource compile demangler limit fileName arguments = ⟨.error e, requests⟩ ↔
      FirstFailure compile demangler limit arguments e requests := by
  refine ⟨fun hsource => ?_, fun hfirst => hfirst.ofSource_eq⟩
  obtain ⟨e', requests', hfirst⟩ | hnothing :=
    exists_firstFailure_or_nothingFails compile demangler limit arguments
  · have hsame : Traced.mk (.error e) requests = Traced.mk (.error e') requests' :=
      hsource.symm.trans hfirst.ofSource_eq
    cases hsame
    exact hfirst
  · obtain ⟨atlas, hatlas⟩ := hnothing.exists_ofSource_eq_ok fileName
    rw [hsource] at hatlas
    cases hatlas

/-- A source file has an atlas when nothing fails. -/
theorem exists_ofSource_eq_ok_iff :
    (∃ atlas, (ofSource compile demangler limit fileName arguments).result = .ok atlas) ↔
      NothingFails compile demangler limit arguments := by
  refine ⟨?_, fun hnothing => hnothing.exists_ofSource_eq_ok fileName⟩
  rintro ⟨atlas, hatlas⟩
  refine (exists_firstFailure_or_nothingFails compile demangler limit arguments).resolve_left ?_
  rintro ⟨e, requests, hfirst⟩
  rw [hfirst.ofSource_eq] at hatlas
  cases hatlas

/-- **The first failure decides.** There is an atlas exactly when nothing fails, and otherwise the
outcome is the failure that comes first, with nothing asked of the demangler or everything. A
missing base is never the failure. Once there is a unit that is not empty, its classes are
collected and all that is asked is asked, whatever comes of it. -/
theorem first_failure_decides (compile : List String → Option String) (demangler : Demangler)
    (limit : Nat) (fileName : String) (arguments : List String) :
    ((∃ atlas, (ofSource compile demangler limit fileName arguments).result = .ok atlas) ↔
      NothingFails compile demangler limit arguments) ∧
    (∀ e requests, ofSource compile demangler limit fileName arguments = ⟨.error e, requests⟩ ↔
      FirstFailure compile demangler limit arguments e requests) ∧
    (∀ missing, (ofSource compile demangler limit fileName arguments).result ≠
      .error (.baseNotFound missing)) ∧
    ∀ root, Prints compile arguments root → root.kind = "TranslationUnitDecl" → root.inner ≠ [] →
      ∃ collection, collect demangler root = .ok collection ∧
        (ofSource compile demangler limit fileName arguments).requests = collection.requests := by
  refine ⟨exists_ofSource_eq_ok_iff, fun e requests => ofSource_eq_error_iff, ?_, ?_⟩
  · intro missing hmissing
    have hfirst : FirstFailure compile demangler limit arguments (.baseNotFound missing) _ :=
      ofSource_eq_error_iff.mp (by rw [← hmissing])
    cases hfirst
  · intro root hprints hkind hinner
    obtain ⟨collection, hcollect⟩ := exists_collect_eq_ok demangler hkind hinner
    exact ⟨collection, hcollect, by rw [ofSource_eq_ofTree hprints, ofTree_eq hcollect]⟩

/-- A method, and a class with two bases, the first of which is missing. -/
def behindMethodDump : String :=
  "[\"TranslationUnitDecl\", null, [[\"CXXMethodDecl\", null, [], \"f\"],
    [\"CXXRecordDecl\", \"A\"],
    \x7b\"kind\": \"CXXRecordDecl\", \"name\": \"B\",
      \"bases\": [[\"\", [\"Z\"]], [\"\", [\"A\"]]]\x7d]]"

/-- A compiler that fails without arguments and else prints the same. -/
def compileBehindMethod : List String → Option String
  | [] => none
  | _ => some behindMethodDump

/-- With room for one base there is an atlas, although the other base is missing. Without room the
second class is too deep, after the method was asked about; without arguments nothing is asked. -/
theorem first_failure_decides_behindMethod :
    NothingFails compileBehindMethod Demangler.silent 1 ["b.cpp"] ∧
      FirstFailure compileBehindMethod Demangler.silent 0 ["b.cpp"] (.tooDeep "B" 0) [some "f"] ∧
      ofSource compileBehindMethod Demangler.silent 1 "" [] = ⟨.error .compileFailed, []⟩ := by
  have hvalues : ((Ast.Node.ofDump behindMethodDump).map fun root =>
      ((ofTree Demangler.silent 1 "" root).result.map Atlas.unresolved,
        (ofTree Demangler.silent 0 "" root).result.map Atlas.unresolved,
        (ofTree Demangler.silent 0 "" root).requests)) =
      .ok (.ok [⟨"Z", "B"⟩], .error (.tooDeep "B" 0), [some "f"]) := by
    decide +kernel
  cases hdump : Ast.Node.ofDump behindMethodDump with
  | error fault =>
    rw [hdump] at hvalues
    cases hvalues
  | ok root =>
    rw [hdump] at hvalues
    obtain ⟨hatlas, hfailure⟩ := Prod.mk.inj (Except.ok.inj hvalues)
    obtain ⟨hdeep, hrequests⟩ := Prod.mk.inj hfailure
    have hprints : Prints compileBehindMethod ["b.cpp"] root := ⟨_, rfl, hdump⟩
    refine ⟨(first_failure_decides compileBehindMethod _ _ "" _).1.mp ?_,
      ((first_failure_decides compileBehindMethod _ _ "" _).2.1 _ _).mp ?_,
      ((first_failure_decides compileBehindMethod _ _ "" _).2.1 _ _).mpr (.notCompiled rfl)⟩
    · rw [ofSource_eq_ofTree hprints]
      cases hresult : (ofTree Demangler.silent 1 "" root).result with
      | ok atlas => exact ⟨atlas, rfl⟩
      | error e =>
        rw [hresult] at hatlas
        cases hatlas
    · rw [ofSource_eq_ofTree hprints, ← map_eq_error_iff.mp hdeep, ← hrequests]

end Atlas

end ClassAtlas
