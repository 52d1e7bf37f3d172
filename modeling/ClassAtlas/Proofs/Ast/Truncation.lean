import Mathlib.Data.List.DropRight
import ClassAtlas.Atlas
import ClassAtlas.Proofs.Ast.Rendering
/-!
# Cut and continued dumps

A compiler that is stopped leaves the beginning of a dump, and one that prints on leaves a dump with
something behind it. Neither is taken for a smaller dump or for a whole one
(`ClassAtlas.Atlas.cut_or_continued_dump_is_rejected`).

A node is written as a list or as an object, and these two end with a bracket of their own. So one
that stands in front of a text is found there whatever the text goes on with
(`ClassAtlas.Json.scanValue_of_isBracketed`); this is where numbers and their unknown ends do not
matter any more. From the same text the scanner cannot find two different things, hence **no list or
object is the beginning of another one** (`ClassAtlas.Json.Tree.SpeltAs.append_inj`). The rest is
about the blanks around a value: a text that goes on behind a dump is a dump only if it goes on with
blanks (`ClassAtlas.Ast.Node.ofDump_append_eq_ok_iff`), and a cut text is one that goes on with what
was cut off.
-/

namespace ClassAtlas

namespace Json

variable {t t' : Tree} {s s' r r' text more : List Char}

/-! ### Values with an end of their own -/

/-- A value whose last character is a bracket or brace of its own. -/
def Tree.IsBracketed : Tree → Prop
  | .list _ _ => True
  | .object _ _ => True
  | _ => False

/-- **A list or an object is found in front of every text**, and what it leaves is that text. -/
theorem scanValue_of_isBracketed (h : t.SpeltAs s) (hbracket : t.IsBracketed) :
    ∃ c body, s = c :: body ∧ isSpace c = false ∧
      ∀ r, (scanValue c (body ++ r)).1 = t ∧ (scanValue c (body ++ r)).2.val = r := by
  cases h with
  | emptyList hblank =>
    exact ⟨'[', _, rfl, rfl, scanValue_of_scanItems (finds_scanItems_of_blank hblank)⟩
  | list hitems =>
    exact ⟨'[', _, rfl, rfl, scanValue_of_scanItems (finds_scanItems_of_item hitems.found)⟩
  | emptyObject hblank =>
    exact ⟨'\x7b', _, rfl, rfl, scanValue_of_scanMembers (finds_scanMembers_of_blank hblank)⟩
  | object hmembers =>
    exact ⟨'\x7b', _, rfl, rfl, scanValue_of_scanMembers (finds_scanMembers_of_key hmembers.found)⟩
  | _ => exact absurd hbracket id

/-- **No list or object is the beginning of another one.** If two texts that begin with a list or an
object, behind blanks, are the same, then they begin with the same value and go on with the same. -/
theorem Tree.SpeltAs.append_inj (h : t.SpeltAs s) (hbracket : t.IsBracketed) (h' : t'.SpeltAs s')
    (hbracket' : t'.IsBracketed) {blank blank' : List Char} (hblank : IsBlank blank)
    (hblank' : IsBlank blank') (heq : blank ++ (s ++ r) = blank' ++ (s' ++ r')) :
    t = t' ∧ r = r' := by
  obtain ⟨c, body, rfl, hspace, hscan⟩ := scanValue_of_isBracketed h hbracket
  obtain ⟨c', body', rfl, hspace', hscan'⟩ := scanValue_of_isBracketed h' hbracket'
  -- both values begin at the first character that is no blank, where the scanner finds one thing
  have hskip : skipSpace (blank ++ c :: (body ++ r)) = c :: (body ++ r) :=
    skipSpace_append hblank hspace _
  have hskip' : skipSpace (blank' ++ c' :: (body' ++ r')) = c' :: (body' ++ r') :=
    skipSpace_append hblank' hspace' _
  rw [List.cons_append, List.cons_append] at heq
  rw [heq, hskip'] at hskip
  obtain ⟨rfl, htail⟩ := List.cons.inj hskip
  obtain ⟨hvalue, hrest⟩ := hscan r
  obtain ⟨hvalue', hrest'⟩ := hscan' r'
  rw [← htail] at hvalue hrest
  exact ⟨hvalue.symm.trans hvalue', hrest.symm.trans hrest'⟩

/-! ### Whole texts -/

theorem IsBlank.append (h : IsBlank r) (h' : IsBlank r') : IsBlank (r ++ r') := by
  intro c hc
  rcases List.mem_append.mp hc with hc | hc
  · exact h c hc
  · exact h' c hc

theorem IsBlank.of_append_right (h : IsBlank (r ++ r')) : IsBlank r' :=
  fun c hc => h c (List.mem_append_right r hc)

/-- **A whole text goes on as a whole text only with blanks**, when it is a list or an object. -/
theorem IsDocument.append_iff (h : IsDocument text t) (hbracket : t.IsBracketed)
    (hbracket' : t'.IsBracketed) :
    IsDocument (text ++ more) t' ↔ IsBlank more ∧ t' = t := by
  obtain ⟨rfl, hbefore, hafter, hspelt⟩ := h
  constructor
  · rintro ⟨heq, hbefore', hafter', hspelt'⟩
    rw [List.append_assoc, List.append_assoc, List.append_assoc] at heq
    obtain ⟨rfl, hrest⟩ := hspelt.append_inj hbracket hspelt' hbracket' hbefore hbefore' heq
    rw [← hrest] at hafter'
    exact ⟨hafter'.of_append_right, rfl⟩
  · rintro ⟨hmore, rfl⟩
    exact ⟨List.append_assoc _ _ _, hbefore, hafter.append hmore, hspelt⟩

/-- A record is written with an end of its own. -/
theorem IsRecord.isBracketed {σ : Type} {rules : List (Rule σ)} {default record : σ}
    (h : IsRecord rules default t record) : t.IsBracketed := by
  cases h with
  | object => exact trivial
  | list => exact trivial

end Json

namespace Ast

open Json

theorem Node.IsRendering.isBracketed {t : Tree} {node : Node} (h : Node.IsRendering t node) :
    t.IsBracketed :=
  (Node.isRendering_iff.mp h).isBracketed

/-- **A dump goes on as a dump only with blanks**, and then as a dump of the same tree. -/
theorem Node.ofDump_append_eq_ok_iff {dump : String} {node node' : Node}
    (h : Node.ofDump dump = .ok node) {more : String} :
    Node.ofDump (dump ++ more) = .ok node' ↔ IsBlank more.toList ∧ node' = node := by
  obtain ⟨t, hdump, hnode⟩ := (Node.ofDump_eq_ok_iff_isRendering dump node).mp h
  rw [Node.ofDump_eq_ok_iff_isRendering, String.toList_append]
  constructor
  · rintro ⟨t', hdump', hnode'⟩
    obtain ⟨hmore, rfl⟩ := (hdump.append_iff hnode.isBracketed hnode'.isBracketed).mp hdump'
    exact ⟨hmore, (Node.reads_ofTree t').unique (scan_eq_iff.mpr hdump).2 hnode' hnode⟩
  · rintro ⟨hmore, rfl⟩
    exact ⟨t, (hdump.append_iff hnode.isBracketed hnode.isBracketed).mpr ⟨hmore, rfl⟩, hnode⟩

end Ast

namespace Atlas

open Json

/-- **A text is rejected as a dump**: no tree is read from it, and the outcome for every demangler,
limit and file name is this failure, before anything is asked. -/
def RejectsDump (text : String) : Prop :=
  ∃ fault, Ast.Node.ofDump text = .error fault ∧
    ∀ demangler limit fileName,
      ofDump demangler limit fileName text = ⟨.error (.invalidDump text fault), []⟩

/-- The characters of a text without the blanks at its end. -/
def dumpBody (text : String) : List Char :=
  text.toList.rdropWhile isSpace

theorem isPrefix_dumpBody (text : String) : dumpBody text <+: text.toList :=
  List.rdropWhile_prefix isSpace text.toList

theorem rejectsDump_iff {text : String} :
    RejectsDump text ↔ ∀ node, Ast.Node.ofDump text ≠ .ok node := by
  constructor
  · rintro ⟨fault, hfault, -⟩ node hnode
    cases hfault.symm.trans hnode
  · intro hnone
    cases hread : Ast.Node.ofDump text with
    | ok node => exact absurd hread (hnone node)
    | error fault => exact ⟨fault, hread, fun demangler limit fileName => by rw [ofDump, hread]⟩

/-- What is cut off before the end of a text, its last blanks apart, is not only blanks. -/
theorem not_isBlank_of_append_eq {text : String} {cut off : List Char}
    (hcut : cut <+: dumpBody text) (hne : cut ≠ dumpBody text) (heq : text.toList = cut ++ off) :
    ¬IsBlank off := by
  intro hblank
  obtain ⟨inside, hinside⟩ := hcut
  have hinside_ne : inside ≠ [] := by
    rintro rfl
    exact hne (List.append_nil cut ▸ hinside)
  have hbody_ne : dumpBody text ≠ [] := by
    rw [← hinside]
    exact List.append_ne_nil_of_right_ne_nil cut hinside_ne
  -- the last character of the body is one of those that were cut off, so it is a blank
  obtain ⟨after, hafter⟩ := isPrefix_dumpBody text
  have hoff : off = inside ++ after := by
    rw [← hafter, ← hinside, List.append_assoc] at heq
    exact (List.append_cancel_left heq).symm
  have hlast : (dumpBody text).getLast hbody_ne = inside.getLast hinside_ne := by
    simp only [← hinside]
    exact List.getLast_append_of_ne_nil _ hinside_ne
  have hmem : inside.getLast hinside_ne ∈ off := by
    rw [hoff]
    exact List.mem_append_left after (List.getLast_mem hinside_ne)
  have hspace : isSpace ((dumpBody text).getLast hbody_ne) := by
    rw [hlast]
    exact isBlank_iff.mp hblank _ hmem
  exact List.rdropWhile_last_not isSpace text.toList hbody_ne hspace

/-- **A dump that is cut or continued is rejected.** Of a text that is read as a dump, every part
from the beginning that ends before the last character which is no blank is rejected, be it empty,
and so is the text with anything behind it that is not only blanks. -/
theorem cut_or_continued_dump_is_rejected {dump : String} {node : Ast.Node}
    (h : Ast.Node.ofDump dump = .ok node) :
    (∀ cut, cut <+: dumpBody dump → cut ≠ dumpBody dump → RejectsDump (String.ofList cut)) ∧
      ∀ more : String, ¬IsBlank more.toList → RejectsDump (dump ++ more) := by
  constructor
  · intro cut hcut hne
    rw [rejectsDump_iff]
    intro node' hread
    -- the whole dump goes on behind the part with what was cut off
    obtain ⟨off, hoff⟩ := hcut.trans (isPrefix_dumpBody dump)
    have hdump : dump = String.ofList cut ++ String.ofList off := by
      rw [← String.ofList_append, hoff, String.ofList_toList]
    rw [hdump, Ast.Node.ofDump_append_eq_ok_iff hread, String.toList_ofList] at h
    exact not_isBlank_of_append_eq hcut hne hoff.symm h.1
  · intro more hmore
    rw [rejectsDump_iff]
    intro node' hread
    exact hmore ((Ast.Node.ofDump_append_eq_ok_iff h).mp hread).1

/-- A dump with blanks around it, in which a number is passed over and a node has a child. -/
def nestedDump : String :=
  " \x7b\"kind\": \"A\", \"loc\": [-1e25, \x7b\x7d], \"inner\": [[\"B\"]]\x7d \n"

/-- Without its brace, cut inside the number or down to nothing it is rejected, and so it is with
one more bracket or a second value behind it. -/
theorem cut_or_continued_dump_is_rejected_nested :
    ∃ node, Ast.Node.ofDump nestedDump = .ok node ∧
      RejectsDump (String.ofList (dumpBody nestedDump).dropLast) ∧
      RejectsDump (String.ofList (" \x7b\"kind\": \"A\", \"loc\": [-1e2".toList)) ∧
      RejectsDump (String.ofList []) ∧ RejectsDump (nestedDump ++ "]") ∧
      RejectsDump (nestedDump ++ " 1") := by
  have hkind : (Ast.Node.ofDump nestedDump).map Ast.Node.kind = .ok "A" := by decide +kernel
  obtain ⟨node, hnode, -⟩ := map_eq_ok_iff.mp hkind
  obtain ⟨hcut, hmore⟩ := cut_or_continued_dump_is_rejected hnode
  refine ⟨node, hnode, hcut _ (List.dropLast_prefix _) (by decide), hcut _ (by decide) (by decide),
    hcut _ List.nil_prefix (by decide), hmore _ ?_, hmore _ ?_⟩
  · exact fun hblank => absurd (hblank ']' (by decide)) (by decide)
  · exact fun hblank => absurd (hblank '1' (by decide)) (by decide)

end Atlas

end ClassAtlas
