import ClassAtlas.Command.Outcome
import ClassAtlas.Proofs.FileTree
/-!
# Two ways to one atlas

The commands `show` and `ast` come by a dump in different ways: the one has the compiler print it,
the other reads it from a file. Where both tools are there and the dump is the same, they make the
same atlas of it, or fail with the same failure; only the name of the source file is another one
(`ClassAtlas.Command.atlasOfSource_eq_map`). Where a tool is missing `show` fails, and `ast` makes
the atlas without any answer from the demangler.

The name of the source file is nothing but handed through
(`ClassAtlas.Atlas.result_ofDump_fileName`), so all that has to be compared is how the two commands
come to their compiler, demangler and limit.
-/

namespace ClassAtlas

/-! ### The name of the source file -/

namespace Atlas

/-- **The name of the source file is handed through**: it decides nothing else about an atlas. -/
theorem result_ofDump_fileName (demangler : Demangler) (limit : Nat)
    (fileName fileName' dump : String) :
    (ofDump demangler limit fileName' dump).result =
      (ofDump demangler limit fileName dump).result.map fun atlas =>
        { atlas with fileName := fileName' } := by
  rw [ofDump, ofDump]
  rcases Ast.Node.ofDump dump with fault | root
  · rfl
  · simp only [ofTree]
    rcases collectTraced demangler root with ⟨e | classes, requests⟩
    · rfl
    · rcases hresolve : Inheritance.resolve limit classes with e | resolution <;>
        simp [Except.bind, Except.map, hresolve]

theorem fileName_of_result {demangler : Demangler} {limit : Nat} {fileName dump : String}
    {atlas : Atlas} (h : (ofDump demangler limit fileName dump).result = .ok atlas) :
    atlas.fileName = fileName := by
  have hsame := result_ofDump_fileName demangler limit fileName fileName dump
  rw [h] at hsame
  exact congrArg Atlas.fileName (Except.ok.inj hsame)

/-- The members of the JSON form of an atlas besides the name of its source file. -/
def otherMembers (atlas : Atlas) : List (String × Json.Value) :=
  [("classes", .list (atlas.classes.map Class.toJson))] ++
    (if atlas.unresolved.isEmpty then []
      else [("unresolved", .list (atlas.unresolved.map UnresolvedBase.toJson))])

end Atlas

/-! ### The tools -/

namespace Toolchain

/-- **The tools that a configuration asks for.** -/
def chosen (config : Config) (given : Option Path) : Toolchain where
  clang := config.chooseClang given
  demangler := config.chooseDemangler (config.chooseClang given)

/-- **Both tools are there.** -/
def Present (files : FileTree) (tools : Toolchain) : Prop :=
  files.contains tools.clang = true ∧ files.contains tools.demangler = true

/-- **The compiler prints a text** as the dump for some arguments, and ends successfully. -/
def Prints (files : FileTree) (tools : Toolchain) (arguments : List String) (text : String) :
    Prop :=
  ∃ run, files.startProgram tools.clang [] (dumpArgs arguments) = some run ∧
    run.successful = true ∧ run.output = text.toUTF8

variable {files : FileTree} {config : Config} {given : Option Path} {tools : Toolchain}

theorem ofConfig_eq_find :
    ofConfig files config given =
      find files (chosen config given).clang (chosen config given).demangler :=
  rfl

theorem ofConfig_of_present (h : (chosen config given).Present files) :
    ofConfig files config given = .ok (chosen config given) := by
  rw [ofConfig_eq_find, find, h.1, h.2]
  rfl

/-- Where the tools are not both there the first that is missing is reported. -/
theorem ofConfig_of_not_present (h : ¬(chosen config given).Present files) :
    ∃ tool, (tool = (chosen config given).clang ∨ tool = (chosen config given).demangler) ∧
      files.contains tool = false ∧
        ofConfig files config given = .error (.toolNotFound tool) := by
  rw [ofConfig_eq_find, find]
  rcases hclang : files.contains (chosen config given).clang with - | -
  · exact ⟨_, Or.inl rfl, hclang, rfl⟩
  · rcases hdemangler : files.contains (chosen config given).demangler with - | -
    · exact ⟨_, Or.inr rfl, hdemangler, rfl⟩
    · exact absurd ⟨hclang, hdemangler⟩ h

theorem compile_of_prints {arguments : List String} {text : String}
    (h : tools.Prints files arguments text) : tools.compile files arguments = some text := by
  obtain ⟨run, hrun, hsuccessful, houtput⟩ := h
  rw [compile, hrun, Option.bind_some, printed, if_pos hsuccessful, houtput, Text.Utf8.lossy,
    FileTree.fromUTF8?_toUTF8, Option.getD_some]

end Toolchain

/-! ### The commands -/

namespace Command

open Toolchain Json

variable {files : FileTree} {config : Config} {root file : Path} {clang : Option Path}
  {arguments : List String} {dump : String}

/-- The compiler's dump becomes an atlas under the name of the source file. -/
theorem atlasOfSource_of_prints (hconfig : Config.load files root = .ok config)
    (hpresent : (chosen config clang).Present files)
    (hprints : (chosen config clang).Prints files (config.compileArgs arguments) dump) :
    atlasOfSource root clang arguments files =
      (Atlas.ofDump ((chosen config clang).demangle files) config.maxInheritanceDepth
        (sourceFile arguments) dump).result.mapError .error := by
  rw [atlasOfSource, hconfig]
  simp only [bind, Except.bind, Except.mapError, ofConfig_of_present hpresent, Atlas.ofSource,
    compile_of_prints hprints]

/-- A dump on hand becomes an atlas under the name of its file. -/
theorem atlasOfDump_of_present (hconfig : Config.load files root = .ok config)
    (hdump : files.readText file = .ok dump) (hpresent : (chosen config clang).Present files) :
    atlasOfDump root file clang files =
      (Atlas.ofDump ((chosen config clang).demangle files) config.maxInheritanceDepth file.text
        dump).result.mapError .error := by
  rw [atlasOfDump, hconfig, hdump]
  simp only [bind, Except.bind, Except.mapError, ofConfig_of_present hpresent]

theorem fileName_of_atlasOfDump (hconfig : Config.load files root = .ok config)
    (hdump : files.readText file = .ok dump) (hpresent : (chosen config clang).Present files)
    {atlas : Atlas} (h : atlasOfDump root file clang files = .ok atlas) :
    atlas.fileName = file.text := by
  rw [atlasOfDump_of_present hconfig hdump hpresent] at h
  rcases hresult : (Atlas.ofDump _ _ file.text dump).result with e | found
  · rw [hresult] at h
    cases h
  · rw [hresult] at h
    cases h
    exact Atlas.fileName_of_result hresult

/-- **The two atlases are the same** but for the name of the source file. -/
theorem atlasOfSource_eq_map (hconfig : Config.load files root = .ok config)
    (hdump : files.readText file = .ok dump) (hpresent : (chosen config clang).Present files)
    (hprints : (chosen config clang).Prints files (config.compileArgs arguments) dump) :
    atlasOfSource root clang arguments files =
      (atlasOfDump root file clang files).map fun atlas =>
        { atlas with fileName := sourceFile arguments } := by
  rw [atlasOfSource_of_prints hconfig hpresent hprints,
    atlasOfDump_of_present hconfig hdump hpresent,
    Atlas.result_ofDump_fileName _ _ file.text (sourceFile arguments)]
  rcases (Atlas.ofDump _ _ file.text dump).result with e | atlas <;> rfl

/-- Without tools no atlas is made of a source file. -/
theorem atlasOfSource_of_missing {cause : Error} (hconfig : Config.load files root = .ok config)
    (htools : ofConfig files config clang = .error cause) :
    atlasOfSource root clang arguments files = .error (.error cause) := by
  rw [atlasOfSource, hconfig]
  simp only [bind, Except.bind, Except.mapError, htools]

/-- Without tools the atlas of a dump is made with no request answered. -/
theorem atlasOfDump_of_missing {cause : Error} (hconfig : Config.load files root = .ok config)
    (hdump : files.readText file = .ok dump)
    (htools : ofConfig files config clang = .error cause) :
    atlasOfDump root file clang files =
      (Atlas.ofDump Demangler.silent config.maxInheritanceDepth file.text dump).result.mapError
        .error := by
  rw [atlasOfDump, hconfig, hdump]
  simp only [bind, Except.bind, Except.mapError, htools]

/-- **What is printed as JSON** under a name of the source file, with the other members. -/
def printedUnder (fileName : String) (others : List (String × Value)) : String :=
  (Value.object (("fileName", .string fileName) :: others)).text ++ "\n"

theorem report_eq (paint : Paint) (atlas : Atlas) :
    report paint true atlas = printedUnder atlas.fileName atlas.sortMembers.otherMembers :=
  rfl

theorem run_show (paint : Paint) (verbose : Bool) (root : Path) (clang : Option Path) (json : Bool)
    (arguments : List String) (files : FileTree) :
    run paint ⟨verbose, root, .show clang json arguments⟩ files =
      ((atlasOfSource root clang arguments files).map (report paint json), files) :=
  rfl

theorem run_ast (paint : Paint) (verbose : Bool) (root file : Path) (clang : Option Path)
    (json : Bool) (files : FileTree) :
    run paint ⟨verbose, root, .ast file clang json⟩ files =
      ((atlasOfDump root file clang files).map (report paint json), files) :=
  rfl

/-- A command that succeeds prints nothing about a failure. -/
theorem perform_of_run_eq_ok {locate : Json.Locator} {paint : Paint} {invocation : Invocation}
    {output : String} {after : FileTree} (h : run paint invocation files = (.ok output, after)) :
    perform locate paint invocation files = (⟨0, output, ""⟩, after) := by
  rw [perform, h]
  rfl

/-- Commands that fail with the same failure end the same way, with the same text printed. -/
theorem perform_of_run_eq_error {invocation invocation' : Invocation} {paint : Paint}
    {failure : Failure} (h : run paint invocation files = (.error failure, files))
    (h' : run paint invocation' files = (.error failure, files)) (locate : Json.Locator) :
    perform locate paint invocation files = perform locate paint invocation' files := by
  rw [perform, perform, h, h']

/-- **Two commands, one atlas.** Where both tools are there and the compiler prints what the file
holds, `show` and `ast` fail alike and end with the same text, whatever locator finds the places in
it, or print the same JSON but for the name of the source file. Where a tool is missing `show`
reports it, and `ast` goes on with no request answered. -/
theorem show_and_ast_agree (hconfig : Config.load files root = .ok config)
    (hdump : files.readText file = .ok dump) (clang : Option Path) (arguments : List String)
    (verbose : Bool) (paint : Paint) :
    ((chosen config clang).Present files →
      (chosen config clang).Prints files (config.compileArgs arguments) dump →
        (∃ failure,
          run paint ⟨verbose, root, .show clang true arguments⟩ files = (.error failure, files) ∧
          run paint ⟨verbose, root, .ast file clang true⟩ files = (.error failure, files) ∧
          ∀ locate,
            perform locate paint ⟨verbose, root, .show clang true arguments⟩ files =
              perform locate paint ⟨verbose, root, .ast file clang true⟩ files) ∨
        ∃ others,
          run paint ⟨verbose, root, .show clang true arguments⟩ files =
            (.ok (printedUnder (sourceFile arguments) others), files) ∧
          run paint ⟨verbose, root, .ast file clang true⟩ files =
            (.ok (printedUnder file.text others), files)) ∧
    (¬(chosen config clang).Present files → ∀ json,
      (∃ tool, (tool = (chosen config clang).clang ∨ tool = (chosen config clang).demangler) ∧
        files.contains tool = false ∧
        run paint ⟨verbose, root, .show clang json arguments⟩ files =
          (.error (.error (.toolNotFound tool)), files)) ∧
      run paint ⟨verbose, root, .ast file clang json⟩ files =
        (((Atlas.ofDump Demangler.silent config.maxInheritanceDepth file.text
          dump).result.mapError .error).map (report paint json), files)) := by
  refine ⟨fun hpresent hprints => ?_, fun habsent json => ?_⟩
  · rcases hatlas : atlasOfDump root file clang files with failure | atlas
    · have hshow : run paint ⟨verbose, root, .show clang true arguments⟩ files =
          (.error failure, files) := by
        rw [run_show, atlasOfSource_eq_map hconfig hdump hpresent hprints, hatlas]
        rfl
      have hast : run paint ⟨verbose, root, .ast file clang true⟩ files =
          (.error failure, files) := by
        rw [run_ast, hatlas]
        rfl
      exact Or.inl ⟨failure, hshow, hast, perform_of_run_eq_error hshow hast⟩
    · rw [run_show, run_ast, atlasOfSource_eq_map hconfig hdump hpresent hprints, hatlas]
      refine Or.inr ⟨atlas.sortMembers.otherMembers, rfl, ?_⟩
      rw [← fileName_of_atlasOfDump hconfig hdump hpresent hatlas, ← report_eq paint]
      rfl
  · obtain ⟨tool, htool, hmissing, htools⟩ := ofConfig_of_not_present habsent
    rw [run_show, run_ast, atlasOfSource_of_missing hconfig htools,
      atlasOfDump_of_missing hconfig hdump htools]
    exact ⟨⟨tool, htool, hmissing, rfl⟩, rfl⟩

/-- The dump of a unit with one class. -/
def oneClassDump : String :=
  "\x7b\"kind\": \"TranslationUnitDecl\",
    \"inner\": [\x7b\"kind\": \"CXXRecordDecl\", \"name\": \"A\"\x7d]\x7d"

/-- A compiler that always prints the same dump. -/
def printing (dump : String) : Program :=
  ⟨fun _ _ => ⟨dump.toUTF8, .exited 0⟩⟩

/-- A tree with a file that holds a dump and with tools, of which the compiler prints the dump. The
compiler is a program in a folder, and it is installed under a name that a file has too. -/
def toolsAndDump (dump : String) : FileTree where
  root := .folder
    [("bin", .folder
      [("clang", .file ByteArray.empty (some (printing dump))),
       ("llvm-cxxfilt", .file ByteArray.empty (some ⟨fun _ _ => ⟨ByteArray.empty, .exited 1⟩⟩))]),
     ("clang", .file ByteArray.empty none), ("llvm-cxxfilt", .file ByteArray.empty none),
     ("a.json", .file dump.toUTF8 none)]
  current := []
  installed := fun name => if name = "clang" then some (printing dump) else none

/-- The compiler by its path and by its name. -/
def waysToClang : List Path :=
  [⟨"/bin/clang"⟩, ⟨"clang"⟩]

/-- In both ways the tools are there and the atlas of the one class is printed by both commands.
When a dump breaks off they tell where. -/
theorem show_and_ast_agree_oneClass :
    Config.load (toolsAndDump oneClassDump) ⟨"."⟩ = .ok {} ∧
      (toolsAndDump oneClassDump).readText ⟨"a.json"⟩ = .ok oneClassDump ∧
      ∀ clang ∈ waysToClang,
        (chosen {} (some clang)).Present (toolsAndDump oneClassDump) ∧
        (chosen {} (some clang)).Prints (toolsAndDump oneClassDump) ["a.cpp"] oneClassDump ∧
        (∃ others,
          run false ⟨false, ⟨"."⟩, .show (some clang) true ["a.cpp"]⟩ (toolsAndDump oneClassDump) =
            (.ok (printedUnder "a.cpp" others), toolsAndDump oneClassDump) ∧
          run false ⟨false, ⟨"."⟩, .ast ⟨"a.json"⟩ (some clang) true⟩ (toolsAndDump oneClassDump) =
            (.ok (printedUnder "a.json" others), toolsAndDump oneClassDump)) ∧
        (perform (fun _ _ => ⟨1, 1⟩) false ⟨false, ⟨"."⟩, .show (some clang) true ["a.cpp"]⟩
            (toolsAndDump "\x7b")).1.errors =
          "error: compiler did not output valid AST json: " ++
            "EOF while parsing an object at line 1 column 1\n" := by
  have hconfig (dump : String) : Config.load (toolsAndDump dump) ⟨"."⟩ = .ok {} := rfl
  have hdump (dump : String) : (toolsAndDump dump).readText ⟨"a.json"⟩ = .ok dump :=
    FileTree.readText_of_item rfl
  have hpresent (dump : String) : ∀ clang ∈ waysToClang,
      (chosen {} (some clang)).Present (toolsAndDump dump) :=
    List.forall_mem_cons.mpr ⟨⟨rfl, rfl⟩, List.forall_mem_singleton.mpr ⟨rfl, rfl⟩⟩
  have hprints (dump : String) : ∀ clang ∈ waysToClang,
      (chosen {} (some clang)).Prints (toolsAndDump dump) ["a.cpp"] dump :=
    List.forall_mem_cons.mpr
      ⟨⟨_, rfl, rfl, rfl⟩, List.forall_mem_singleton.mpr ⟨_, rfl, rfl, rfl⟩⟩
  have hsource : sourceFile ["a.cpp"] = "a.cpp" := by decide +kernel
  have hok : ∀ clang ∈ waysToClang,
      (run false ⟨false, ⟨"."⟩, .ast ⟨"a.json"⟩ (some clang) true⟩
        (toolsAndDump oneClassDump)).1.isOk = true := by decide +kernel
  have herrors : ∀ clang ∈ waysToClang,
      (perform (fun _ _ => ⟨1, 1⟩) false ⟨false, ⟨"."⟩, .ast ⟨"a.json"⟩ (some clang) true⟩
          (toolsAndDump "\x7b")).1.errors =
        "error: compiler did not output valid AST json: " ++
          "EOF while parsing an object at line 1 column 1\n" := by decide +kernel
  refine ⟨hconfig _, hdump _, fun clang hclang => ?_⟩
  have hagree (dump : String) :=
    (show_and_ast_agree (hconfig dump) (hdump dump) (some clang) ["a.cpp"] false false).1
      (hpresent dump clang hclang) (hprints dump clang hclang)
  refine ⟨hpresent _ clang hclang, hprints _ clang hclang, ?_, ?_⟩
  · rcases hagree oneClassDump with ⟨failure, -, hast, -⟩ | ⟨others, hshow, hast⟩
    · have hatlas := hok clang hclang
      rw [hast] at hatlas
      cases hatlas
    · rw [hsource] at hshow
      exact ⟨others, hshow, hast⟩
  · rcases hagree "\x7b" with ⟨failure, -, -, hsame⟩ | ⟨others, -, hast⟩
    · rw [hsame]
      exact herrors clang hclang
    · have hnone := herrors clang hclang
      rw [perform_of_run_eq_ok hast] at hnone
      simp at hnone

end Command

end ClassAtlas
