import ClassAtlas.Config
import ClassAtlas.Proofs.FileTree
import ClassAtlas.Proofs.Json.Printing
import ClassAtlas.Proofs.Json.Records
/-!
# Configurations that are written and read

What the text of a configuration has to look like is said by the rules of its fields
(`ClassAtlas.Config.rules`): the members of an object in any order, of which those may be missing
whose field has its default, besides any others. Such a text is loaded exactly as the configuration
that it stands for, unless the limit is zero (`ClassAtlas.Config.ofText_eq_ok_iff`). What is saved
has every field, each with a value that stands for it
(`ClassAtlas.Config.isRendering_toJson`), and so it is loaded again as it was.
-/

namespace ClassAtlas

namespace Config

open Json

/-! ### The rules of a configuration -/

/-- A value that is the text of a path. -/
def IsPath (t : Tree) (path : Path) : Prop :=
  IsText t path.text

/-- **The fields of a configuration.** -/
def rules : List (Rule Config) :=
  [{ key := "clangPath", get := Config.clangPath, stands := IsOptional IsPath },
   { key := "demanglerPath", get := Config.demanglerPath, stands := IsOptional IsPath },
   { key := "maxInheritanceDepth", get := Config.maxInheritanceDepth, stands := IsCount },
   { key := "extraArgs", get := Config.extraArgs, stands := IsListOf IsText }]

/-- **A rendering of a configuration.** -/
def IsRendering (t : Tree) (config : Config) : Prop :=
  IsRecord rules {} t config

theorem reads_readPath {t : Tree} : Reads readPath IsPath t := by
  intro path
  rw [readPath, map_eq_ok_iff]
  constructor
  · rintro ⟨text, htext, rfl⟩
    exact (reads_readText text).mp htext
  · intro h
    exact ⟨path.text, (reads_readText path.text).mpr h, rfl⟩

theorem reads_shape {t : Tree} : Reads (shape.read {}) IsRendering t := by
  have h : shape.Follows (· ∈ t.parts) rules :=
    { slots := by
        refine .cons (Slot.of_follows (fun _ _ => reads_readPath.readOptional) (fun _ _ => rfl) ?_)
          (.cons (Slot.of_follows (fun _ _ => reads_readPath.readOptional) (fun _ _ => rfl) ?_)
          (.cons (Slot.of_follows (fun _ _ => reads_readCount) (fun _ _ => rfl) ?_)
          (.cons (Slot.of_follows (fun _ _ => reads_readList fun _ _ => reads_readString)
            (fun _ _ => rfl) ?_) .nil)))
        all_goals simp [rules]
      nodup := by decide
      ext := by
        intro r r' h
        cases r
        cases r'
        simpa [rules] using h }
  exact h.reads

/-- **A text is accepted** exactly when it is a rendering of a configuration with blanks around it
whose limit is not zero, and as that configuration. -/
theorem ofText_eq_ok_iff {text : String} {config : Config} :
    ofText text = .ok config ↔
      config.maxInheritanceDepth ≠ 0 ∧ ∃ t, IsDocument text.toList t ∧ IsRendering t config := by
  rw [← readDocument_eq_ok_iff fun t => reads_shape, ofText]
  rcases readDocument (shape.read {}) text with fault | found
  · simp
  · dsimp only
    split_ifs with hzero
    · simp only [Except.ok.injEq, false_iff, not_and]
      rintro hne rfl
      exact hne hzero
    · simp only [Except.ok.injEq, iff_and_self]
      rintro rfl
      exact hzero

/-! ### What is saved -/

theorem isOptional_pathJson (path : Option Path) : IsOptional IsPath (pathJson path).tree path := by
  rcases path with - | path
  · exact .none
  · exact .some (by simp [pathJson, Value.tree]) (isText_tree path.text)

/-- The members that are saved, with the trees of their values. -/
def savedMembers (config : Config) : List (String × Tree) :=
  [("clangPath", (pathJson config.clangPath).tree),
   ("demanglerPath", (pathJson config.demanglerPath).tree),
   ("maxInheritanceDepth", (Value.number config.maxInheritanceDepth).tree),
   ("extraArgs", (Value.list (config.extraArgs.map Value.string)).tree)]

/-- **A printed configuration stands for itself.** -/
theorem isRendering_toJson {config : Config} (h : config.maxInheritanceDepth ≤ maxCount) :
    IsRendering config.toJson.tree config := by
  have hfields : Fields rules config.savedMembers {} config := by
    simp only [Fields, rules, List.forall_mem_cons]
    exact ⟨Or.inl ⟨_, by simp [savedMembers], isOptional_pathJson config.clangPath⟩,
      Or.inl ⟨_, by simp [savedMembers], isOptional_pathJson config.demanglerPath⟩,
      Or.inl ⟨_, by simp [savedMembers], isCount_tree h⟩,
      Or.inl ⟨_, by simp [savedMembers], isListOf_tree isText_tree config.extraArgs⟩,
      List.forall_mem_nil _⟩
  refine .object ?_ ?_ hfields
  · exact .cons ⟨holds_writtenLexeme _, rfl⟩ (.cons ⟨holds_writtenLexeme _, rfl⟩
      (.cons ⟨holds_writtenLexeme _, rfl⟩ (.cons ⟨holds_writtenLexeme _, rfl⟩ .nil)))
  · simp only [savedMembers, List.map_cons, List.map_nil]
    decide

/-- **A printed configuration is accepted as itself**, unless its limit is zero. -/
theorem ofText_toJson {config : Config} (h : config.maxInheritanceDepth ≤ maxCount) :
    ofText config.toJson.text =
      if config.maxInheritanceDepth = 0 then .error .zeroDepth else .ok config := by
  have hread : readDocument (shape.read {}) config.toJson.text = .ok config :=
    (readDocument_eq_ok_iff fun t => reads_shape).mpr
      ⟨_, config.toJson.isDocument_text, isRendering_toJson h⟩
  rw [ofText, hread]

/-! ### Loading -/

/-- A configuration is loaded from the text in its file. -/
theorem load_eq_of_readText {files : FileTree} {root : Path} {text : String}
    (h : files.readText (pathIn root) = .ok text) :
    load files root = (ofText text).mapError (Error.config (pathIn root)) := by
  rw [load, if_neg (by rw [FileTree.contains_of_readText h]; decide), h]

/-- What is saved is the printed configuration. -/
theorem readText_of_save {config : Config} {files after : FileTree} {root path : Path}
    (h : config.save files root = (.ok path, after)) :
    after.readText (pathIn root) = .ok config.toJson.text := by
  rw [save] at h
  split at h
  · cases h
  · split at h
    · cases h
    · rename_i hwritten
      cases h
      exact FileTree.readText_of_writeText hwritten

/-- A configuration that is saved is loaded as itself, unless its limit is zero. -/
theorem load_of_save {config : Config} {files after : FileTree} {root path : Path}
    (hlimit : config.maxInheritanceDepth ≤ maxCount)
    (h : config.save files root = (.ok path, after)) :
    load after root =
      if config.maxInheritanceDepth = 0 then .error (.config (pathIn root) .zeroDepth)
      else .ok config := by
  rw [load_eq_of_readText (readText_of_save h), ofText_toJson hlimit]
  split_ifs <;> rfl

/-- **What is saved is loaded again**: the configuration itself, or an error if its limit is zero.
Otherwise a file is loaded as a configuration exactly when its text is a rendering of it: an object
with the fields in any order, of which those may be missing that have their defaults, and with any
other members. -/
theorem saved_configuration_is_loaded {config : Config} (root : Path)
    (h : config.maxInheritanceDepth ≤ maxCount) :
    (∀ files path after, config.save files root = (.ok path, after) →
      load after root =
        if config.maxInheritanceDepth = 0 then .error (.config (pathIn root) .zeroDepth)
        else .ok config) ∧
    ∀ files text, files.readText (pathIn root) = .ok text →
      (load files root = .ok config ↔ config.maxInheritanceDepth ≠ 0 ∧
        ∃ t, IsDocument text.toList t ∧ IsRendering t config) := by
  constructor
  · intro files path after hsave
    exact load_of_save h hsave
  · intro files text htext
    rw [load_eq_of_readText htext, ← ofText_eq_ok_iff]
    cases ofText text <;> simp [Except.mapError]

/-- A configuration with quotes, backslashes, a control character and a letter of two surrogates in
its texts, and with the greatest limit. -/
def quotedConfig : Config where
  clangPath := some ⟨"/opt/\"clang\""⟩
  maxInheritanceDepth := maxCount
  extraArgs := ["-DX=\\", "\x1b", "𝒜"]

/-- It is saved below a folder that is not there yet, and loaded again. -/
theorem saved_configuration_is_loaded_quoted :
    quotedConfig.maxInheritanceDepth ≤ maxCount ∧
      ∃ after, quotedConfig.save .empty ⟨"/p"⟩ = (.ok (pathIn ⟨"/p"⟩), after) ∧
        load after ⟨"/p"⟩ = .ok quotedConfig := by
  have hsave : quotedConfig.save .empty ⟨"/p"⟩ =
      (.ok (pathIn ⟨"/p"⟩), (quotedConfig.save .empty ⟨"/p"⟩).2) :=
    Prod.ext (by decide +kernel) rfl
  refine ⟨Nat.le_refl _, _, hsave, ?_⟩
  rw [(saved_configuration_is_loaded ⟨"/p"⟩ (Nat.le_refl _)).1 _ _ _ hsave]
  exact if_neg (by decide)

end Config

end ClassAtlas
