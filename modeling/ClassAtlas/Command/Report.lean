import ClassAtlas.Model.Document
/-!
# Showing an atlas

An atlas is shown as JSON or as a listing. Parts of a listing may be coloured
(`ClassAtlas.Paint`); a colour that ends inside a coloured text, because the text ends one of its
own, is begun again.
-/

namespace ClassAtlas

/-- **The colours of a listing.** -/
inductive Colour where
  /-- Marks success. -/
  | green
  /-- Marks a warning, and the tag of a class. -/
  | yellow
  /-- Marks a count, and a word to be typed. -/
  | cyan
  /-- Marks the name of a class. -/
  | boldCyan
  /-- Marks what is missing. -/
  | red
  /-- Marks an error. -/
  | boldRed
  /-- Marks a virtual method. -/
  | magenta
  /-- Marks what matters less. -/
  | dimmed
  deriving DecidableEq, Repr, Inhabited

/-- The parameters of the control sequence that begins a colour. -/
def Colour.code : Colour → String
  | .green => "32"
  | .yellow => "33"
  | .cyan => "36"
  | .boldCyan => "1;36"
  | .red => "31"
  | .boldRed => "1;31"
  | .magenta => "35"
  | .dimmed => "2"

/-- The characters that begin a colour. -/
def Colour.begin (colour : Colour) : List Char :=
  ['\x1b', '['] ++ colour.code.toList ++ ['m']

/-- The characters that end every colour. -/
def colourEnd : List Char :=
  ['\x1b', '[', '0', 'm']

/-- A text in which a colour is begun again wherever it ends. -/
def beginAgain (colour : Colour) : List Char → List Char
  | '\x1b' :: '[' :: '0' :: 'm' :: r => colourEnd ++ colour.begin ++ beginAgain colour r
  | c :: r => c :: beginAgain colour r
  | [] => []

/-- Whether colours are shown. -/
abbrev Paint : Type := Bool

/-- A variable of the environment as a switch: every value but `0` turns it on. -/
def switchOf (value : Option String) : Option Bool :=
  value.map fun word => word ≠ "0"

/-- **Whether colours are shown** under some variables of the environment: always if they are
forced, never if they are otherwise unwanted, and else on a terminal. -/
def Paint.ofEnvironment (forced wanted unwanted : Option String) (terminal : Bool) : Paint :=
  if switchOf forced = some true then true
  else if unwanted.isSome then false
  else (switchOf wanted).getD true && terminal

/-- **A text in a colour**, if colours are shown. -/
def Paint.apply (paint : Paint) (colour : Colour) (text : String) : String :=
  match paint with
  | false => text
  | true =>
      String.ofList (colour.begin ++ beginAgain colour text.toList ++ colourEnd)

/-! ### The lines of a listing -/

variable {μ : Type} [Member μ]

/-- Where an inherited member comes from. -/
def origin (paint : Paint) (entry : Entry μ) : String :=
  if entry.isInherited then
    paint.apply .dimmed (" (via " ++ String.intercalate " → " entry.chainNames ++ ")")
  else ""

/-- The line of a field. -/
def fieldLine (paint : Paint) (entry : Entry Field) : String :=
  "  " ++ paint.apply .dimmed "field" ++ " " ++ entry.member.name ++ ": " ++
    Member.description entry.member ++ origin paint entry

/-- The mark of a virtual method. A pure one has a mark of its own. -/
def badge (paint : Paint) (info : MethodInfo) : String :=
  if info.isPure then paint.apply .magenta " [pure]"
  else if info.isVirtual then paint.apply .magenta " [virtual]"
  else ""

/-- The line of a method. -/
def methodLine (paint : Paint) (entry : Entry Method) : String :=
  "  " ++ paint.apply .dimmed "method" ++ " " ++ entry.member.name ++ ": " ++
    Member.description entry.member ++ badge paint entry.member.info ++ origin paint entry

/-- The bases of a class, after a colon. -/
def basesPart (bases : List Ast.BaseClause) : String :=
  if bases.isEmpty then ""
  else " : " ++ String.intercalate ", " (bases.map fun b => b.access ++ " " ++ b.declared)

/-- The line of a class. -/
def classLine (paint : Paint) (c : Class) : String :=
  paint.apply .yellow (c.info.tagUsed.getD "class") ++ " " ++ paint.apply .boldCyan c.fullName ++
    basesPart c.info.bases

/-- The lines of a class and its members, after an empty line. -/
def classLines (paint : Paint) (c : Class) : List String :=
  ["", classLine paint c] ++ c.fields.map (fieldLine paint) ++ c.methods.map (methodLine paint)

/-- The lines of the missing bases, after an empty line. -/
def unresolvedLines (paint : Paint) (unresolved : List UnresolvedBase) : List String :=
  if unresolved.isEmpty then []
  else
    ["", paint.apply .yellow "⚠" ++ " unresolved bases:"] ++
      unresolved.map fun missing =>
        "  " ++ paint.apply .red missing.base ++ " (base of " ++ missing.forClass ++ ")"

/-- The first line of a listing. -/
def headLine (paint : Paint) (atlas : Atlas) : String :=
  paint.apply .green "✓" ++ " " ++ paint.apply .cyan (toString atlas.classes.length) ++
    " classes in " ++ atlas.fileName

/-- The lines of a listing. -/
def listing (paint : Paint) (atlas : Atlas) : List String :=
  headLine paint atlas :: (atlas.classes.flatMap (classLines paint) ++
    unresolvedLines paint atlas.unresolved)

/-- Lines, each with its end. -/
def unlines (lines : List String) : String :=
  String.join (lines.map fun line => line ++ "\n")

/-- **What is printed for an atlas**: its members in canonical order, as JSON or as a listing. JSON
is never coloured. -/
def report (paint : Paint) (json : Bool) (atlas : Atlas) : String :=
  let sorted := atlas.sortMembers
  if json then sorted.toJson.text ++ "\n" else unlines (listing paint sorted)

end ClassAtlas
