import ClassAtlas.Main
import ClassAtlas.Proofs.DisplayedNames
import ClassAtlas.Proofs.Inheritance.Cycle
import ClassAtlas.Proofs.Inheritance.Enumeration
import ClassAtlas.Proofs.Inheritance.Flattening
import ClassAtlas.Proofs.Inheritance.Missing
import ClassAtlas.Proofs.Inheritance.Preference
import ClassAtlas.Proofs.Inheritance.Reordering
import ClassAtlas.Proofs.Inheritance.Insertion
import ClassAtlas.Proofs.Provenance
import ClassAtlas.Proofs.Ast.Rendering
import ClassAtlas.Proofs.Walk.Requests
import ClassAtlas.Proofs.Ast.Replacement
import ClassAtlas.Proofs.Walk.Frame
import ClassAtlas.Proofs.Walk.Transparency
import ClassAtlas.Proofs.Inheritance.Addition
import ClassAtlas.Proofs.Outcome
import ClassAtlas.Proofs.Ast.Truncation
import ClassAtlas.Proofs.Inheritance.NamedChains
import ClassAtlas.Proofs.Inheritance.Separators
import ClassAtlas.Proofs.Model.Sorting
import ClassAtlas.Proofs.Inheritance.SortedFirst
import ClassAtlas.Proofs.Inheritance.Repetition
import ClassAtlas.Proofs.Json.Printing
import ClassAtlas.Proofs.Configuration
import ClassAtlas.Proofs.PrintedAtlas
import ClassAtlas.Proofs.EntryPoints
import ClassAtlas.Proofs.FileTree
import ClassAtlas.Proofs.Inheritance.NameSearches
import ClassAtlas.Proofs.Demangling
import ClassAtlas.Proofs.Model.MemberOrder
import ClassAtlas.Proofs.Initialization
import ClassAtlas.Proofs.Walk.SelfRecords
import ClassAtlas.Proofs.Walk.Restoration
