import ClassAtlas.FileTree
import ClassAtlas.Proofs.Json.Skipping
/-!
# Reading what was written

A text that has been written to a file is the text that is read from it afterwards
(`ClassAtlas.FileTree.readText_of_writeText`). A path is followed through folders, and nothing is
ever put in the place of a folder; so every folder is still there with all its names
(`ClassAtlas.Item.KeepsFolders`), and the path leads where it has led before.
-/

namespace ClassAtlas

/-! ### What is at a location -/

namespace Item

variable {item new old : Item} {name other : String} {names location : Location}
  {entries : List (String × Item)}

@[simp] theorem get?_nil : item.get? [] = some item := by
  cases item <;> rfl

@[simp] theorem get?_folder_cons :
    (folder entries).get? (name :: names) = (entries.lookup name).bind (get? names) := rfl

@[simp] theorem get?_file_cons {contents : ByteArray} {program : Option Program} :
    (file contents program).get? (name :: names) = none := rfl

/-- What is at the end of a location is an entry of a folder. -/
theorem get?_concat :
    old.get? (location ++ [name]) = some item ↔
      ∃ entries, old.get? location = some (folder entries) ∧ entries.lookup name = some item := by
  induction location generalizing old with
  | nil => cases old <;> simp
  | cons first location ih =>
    cases old with
    | file contents program => simp
    | folder entries =>
      simp only [List.cons_append, get?_folder_cons, Option.bind_eq_some_iff, ih]
      constructor
      · rintro ⟨child, hchild, entries', hfolder, hentry⟩
        exact ⟨entries', ⟨child, hchild, hfolder⟩, hentry⟩
      · rintro ⟨entries', ⟨child, hchild, hfolder⟩, hentry⟩
        exact ⟨child, hchild, entries', hfolder, hentry⟩

theorem lookup_cons_eq_ite :
    ((name, item) :: entries).lookup other =
      if other = name then some item else entries.lookup other := by
  by_cases h : other = name
  · simp [h]
  · rw [if_neg h, List.lookup_cons, beq_false_of_ne h]

/-- **Putting an entry changes what is found under its name**, and nothing else. -/
theorem lookup_putEntry :
    (putEntry name new entries).lookup other =
      if other = name then some new else entries.lookup other := by
  induction entries with
  | nil => rw [putEntry, lookup_cons_eq_ite]
  | cons entry entries ih =>
    obtain ⟨first, old⟩ := entry
    rw [putEntry, lookup_cons_eq_ite]
    by_cases hfirst : first = name
    · subst hfirst
      rw [if_pos rfl, lookup_cons_eq_ite]
      split_ifs <;> rfl
    · rw [if_neg hfirst, lookup_cons_eq_ite, ih]
      by_cases hother : other = first
      · rw [if_pos hother, if_neg (hother ▸ hfirst), if_pos hother]
      · rw [if_neg hother, if_neg hother]

/-- What is put into a folder is there afterwards. -/
theorem get?_put (new : Item) (name : String) (h : old.get? location = some (folder entries)) :
    (put new (location ++ [name]) old).get? (location ++ [name]) = some new := by
  induction location generalizing old with
  | nil =>
    rw [get?_nil] at h
    cases h
    simp [put, lookup_putEntry]
  | cons first location ih =>
    cases old with
    | file contents program => simp at h
    | folder entries' =>
      rw [get?_folder_cons, Option.bind_eq_some_iff] at h
      obtain ⟨child, hchild, h⟩ := h
      simp [put, lookup_putEntry, hchild, ih h]

/-- **Every folder stays a folder** and keeps its names. -/
def KeepsFolders (old new : Item) : Prop :=
  ∀ location entries, old.get? location = some (folder entries) →
    ∃ entries', new.get? location = some (folder entries') ∧
      ∀ name, (entries.lookup name).isSome → (entries'.lookup name).isSome

theorem KeepsFolders.refl (item : Item) : KeepsFolders item item :=
  fun _ entries h => ⟨entries, h, fun _ h => h⟩

/-- **What is put in the place of no folder** leaves all folders there. -/
theorem keepsFolders_put (new : Item)
    (h : ∀ entries, old.get? location ≠ some (folder entries)) :
    KeepsFolders old (put new location old) := by
  induction location generalizing old with
  | nil =>
    rintro (- | ⟨first, rest⟩) entries hfolder
    · exact absurd hfolder (h entries)
    · cases old with
      | file contents program => simp at hfolder
      | folder entries' => exact absurd get?_nil (h entries')
  | cons name names ih =>
    cases old with
    | file contents program => exact KeepsFolders.refl _
    | folder entries =>
      rintro (- | ⟨first, rest⟩) entries' hfolder
      · cases hfolder
        refine ⟨_, get?_nil, fun other hother => ?_⟩
        rw [lookup_putEntry]
        split_ifs
        · rfl
        · exact hother
      · rw [get?_folder_cons, Option.bind_eq_some_iff] at hfolder
        obtain ⟨child, hchild, hfolder⟩ := hfolder
        rw [put, get?_folder_cons, lookup_putEntry]
        by_cases hname : first = name
        · subst hname
          have hbelow : ∀ entries, child.get? names ≠ some (folder entries) := by
            simpa [hchild] using h
          simpa [hchild] using ih hbelow rest entries' hfolder
        · rw [if_neg hname, hchild]
          exact ⟨entries', hfolder, fun _ hthere => hthere⟩

end Item

namespace FileTree

/-! ### Following a path -/

variable {root root' : Item} {location target : Location} {parts : List Path.Part}
  {files after : FileTree} {path : Path}

/-- The part of a path is a name: it does not stay where it is and does not lead upwards. -/
def IsName (part : Path.Part) : Prop :=
  part ≠ [] ∧ part ≠ ['.'] ∧ part ≠ ['.', '.']

/-- **What one part of a path can do**: it stays, leads upwards, or leads to an entry of a
folder. -/
theorem follow_singleton_eq_ok_iff {part : Path.Part} :
    follow root location [part] = .ok target ↔
      ∃ entries, root.get? location = some (.folder entries) ∧
        ((part = [] ∨ part = ['.']) ∧ target = location ∨
          part = ['.', '.'] ∧ target = location.dropLast ∨
          IsName part ∧ (String.ofList part).utf8ByteSize ≤ maxPart ∧
            (entries.lookup (String.ofList part)).isSome ∧
            target = location ++ [String.ofList part]) := by
  rcases hitem : root.get? location with - | (⟨contents, program⟩ | entries)
  · simp [follow, hitem]
  · simp [follow, hitem]
  · simp only [follow, hitem, Option.some.injEq, Item.folder.injEq, exists_eq_left']
    constructor
    · intro h
      split_ifs at h with hstays hup hlong hthere
      · exact Or.inl ⟨hstays, (Except.ok.inj h).symm⟩
      · exact Or.inr (Or.inl ⟨hup, (Except.ok.inj h).symm⟩)
      · obtain ⟨hempty, hdot⟩ := not_or.mp hstays
        exact Or.inr (Or.inr ⟨⟨hempty, hdot, hup⟩, Nat.le_of_not_lt hlong, hthere,
          (Except.ok.inj h).symm⟩)
    · rintro (⟨hstays, rfl⟩ | ⟨rfl, rfl⟩ | ⟨⟨hempty, hdot, hup⟩, hlen, hthere, rfl⟩)
      · rw [if_pos hstays]
      · rw [if_neg (by decide), if_pos rfl]
      · rw [if_neg (not_or.mpr ⟨hempty, hdot⟩), if_neg hup, if_neg (Nat.not_lt.mpr hlen),
          if_pos hthere]

/-- A path is followed part by part. -/
theorem follow_append (parts parts' : List Path.Part) :
    follow root location (parts ++ parts') =
      (do follow root (← follow root location parts) parts') := by
  induction parts generalizing location with
  | nil => rfl
  | cons part parts ih =>
    simp only [List.cons_append, follow, ih]
    split
    · rfl
    · rfl
    · split_ifs <;> rfl

theorem follow_cons_eq_ok_iff {part : Path.Part} :
    follow root location (part :: parts) = .ok target ↔
      ∃ next, follow root location [part] = .ok next ∧ follow root next parts = .ok target := by
  have happend : follow root location (part :: parts) =
      (do follow root (← follow root location [part]) parts) :=
    follow_append [part] parts
  rw [happend, Json.bind_eq_ok_iff]

theorem follow_singleton_of_keepsFolders {part : Path.Part} (hkeeps : root.KeepsFolders root')
    (h : follow root location [part] = .ok target) : follow root' location [part] = .ok target := by
  obtain ⟨entries, hfolder, hcase⟩ := follow_singleton_eq_ok_iff.mp h
  obtain ⟨entries', hfolder', hnames⟩ := hkeeps location entries hfolder
  refine follow_singleton_eq_ok_iff.mpr ⟨entries', hfolder', ?_⟩
  rcases hcase with hstays | hup | ⟨hname, hlen, hthere, htarget⟩
  · exact Or.inl hstays
  · exact Or.inr (Or.inl hup)
  · exact Or.inr (Or.inr ⟨hname, hlen, hnames _ hthere, htarget⟩)

/-- **Where all folders are kept a path leads where it led.** -/
theorem follow_of_keepsFolders (hkeeps : root.KeepsFolders root')
    (h : follow root location parts = .ok target) : follow root' location parts = .ok target := by
  induction parts generalizing location with
  | nil => exact h
  | cons part parts ih =>
    obtain ⟨next, hstep, hrest⟩ := follow_cons_eq_ok_iff.mp h
    exact follow_cons_eq_ok_iff.mpr ⟨next, follow_singleton_of_keepsFolders hkeeps hstep, ih hrest⟩

/-! ### Writing and reading -/

theorem enclosing_eq_ok_iff :
    files.enclosing path parts = .ok location ↔
      ∃ start entries, files.start path = .ok start ∧
        follow files.root start parts = .ok location ∧
        files.root.get? location = some (.folder entries) := by
  simp only [enclosing, Json.bind_eq_ok_iff]
  constructor
  · rintro ⟨start, hstart, location', hfollow, hitem⟩
    split at hitem
    · rename_i entries hfolder
      cases hitem
      exact ⟨start, entries, hstart, hfollow, hfolder⟩
    · cases hitem
    · cases hitem
  · rintro ⟨start, entries, hstart, hfollow, hfolder⟩
    refine ⟨start, hstart, location, hfollow, ?_⟩
    rw [hfolder]
    rfl

/-- **Where a file is placed**: in the folder that the path leads to up to its last part, under the
name that this part is, and in the place of no folder. -/
theorem exists_of_placeFile {contents : ByteArray} {program : Option Program}
    (h : files.placeFile path contents program = .ok after) :
    ∃ location part, path.parts.getLast? = some part ∧ IsName part ∧
      (String.ofList part).utf8ByteSize ≤ maxPart ∧
      files.enclosing path path.parts.dropLast = .ok location ∧
      (∀ entries, files.root.get? (location ++ [String.ofList part]) ≠ some (.folder entries)) ∧
      after = files.put (location ++ [String.ofList part]) (.file contents program) := by
  rw [placeFile, Json.bind_eq_ok_iff] at h
  obtain ⟨_, -, h⟩ := h
  split at h
  · cases h
  · rename_i part hpart
    rw [Json.bind_eq_ok_iff] at h
    obtain ⟨location, henclosing, h⟩ := h
    by_cases hname : part = [] ∨ part = ['.'] ∨ part = ['.', '.']
    · rw [if_pos hname] at h
      cases h
    · rw [if_neg hname] at h
      by_cases hlong : maxPart < (String.ofList part).utf8ByteSize
      · rw [if_pos hlong] at h
        cases h
      · rw [if_neg hlong] at h
        dsimp only at h
        simp only [not_or] at hname
        split at h
        · cases h
        · rename_i hitem
          exact ⟨location, part, hpart, hname, Nat.le_of_not_lt hlong, henclosing, hitem,
            (Except.ok.inj h).symm⟩

theorem item_eq_ok_iff {item : Item} :
    files.item path = .ok item ↔
      ∃ location, files.locate path = .ok location ∧ files.root.get? location = some item := by
  rw [FileTree.item, Json.bind_eq_ok_iff]
  refine exists_congr fun location => and_congr_right fun _ => ?_
  cases files.root.get? location <;> simp [throw, throwThe, MonadExceptOf.throw, pure, Except.pure]

/-- **What is placed under a path is there afterwards.** -/
theorem item_of_placeFile {contents : ByteArray} {program : Option Program}
    (h : files.placeFile path contents program = .ok after) :
    after.item path = .ok (.file contents program) := by
  obtain ⟨location, part, hpart, hname, hlen, henclosing, hitem, rfl⟩ := exists_of_placeFile h
  obtain ⟨start, entries, hstart, hfollow, hfolder⟩ := enclosing_eq_ok_iff.mp henclosing
  have hkeeps := Item.keepsFolders_put (.file contents program) hitem
  have hput := Item.get?_put (.file contents program) (String.ofList part) hfolder
  -- the last part now leads to the new file
  obtain ⟨entries', hfolder', hentry⟩ := Item.get?_concat.mp hput
  have hlast : follow (Item.put (.file contents program) (location ++ [String.ofList part])
      files.root) location [part] = .ok (location ++ [String.ofList part]) :=
    follow_singleton_eq_ok_iff.mpr
      ⟨entries', hfolder', Or.inr (Or.inr ⟨hname, hlen, by rw [hentry]; rfl, rfl⟩)⟩
  refine item_eq_ok_iff.mpr ⟨_, ?_, hput⟩
  rw [locate, Json.bind_eq_ok_iff]
  refine ⟨start, hstart, ?_⟩
  rw [← List.dropLast_append_getLast? part hpart, follow_append, Json.bind_eq_ok_iff]
  exact ⟨location, follow_of_keepsFolders hkeeps hfollow, hlast⟩

theorem fromUTF8?_toUTF8 (text : String) : String.fromUTF8? text.toUTF8 = some text :=
  dif_pos text.isValidUTF8

/-- The text of a file is read from it. -/
theorem readText_of_item {text : String} {program : Option Program}
    (h : files.item path = .ok (.file text.toUTF8 program)) : files.readText path = .ok text := by
  rw [readText, readBytes, h]
  simp only [bind, Except.bind, pure, Except.pure, fromUTF8?_toUTF8]

/-- **A text that was written is read again.** -/
theorem readText_of_writeText {text : String} (h : files.writeText path text = .ok after) :
    after.readText path = .ok text :=
  readText_of_item (item_of_placeFile h)

/-- There is something under a path from which bytes are read. -/
theorem contains_of_readBytes {contents : ByteArray} (h : files.readBytes path = .ok contents) :
    files.contains path = true := by
  rw [readBytes, Json.bind_eq_ok_iff] at h
  obtain ⟨item, hitem, -⟩ := h
  rw [contains, hitem]
  rfl

theorem contains_of_readText {text : String} (h : files.readText path = .ok text) :
    files.contains path = true := by
  rw [readText, Json.bind_eq_ok_iff] at h
  obtain ⟨contents, hcontents, -⟩ := h
  exact contains_of_readBytes hcontents

end FileTree

end ClassAtlas
