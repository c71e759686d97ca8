import Codenaut.Indexing.ReceiverCalls
import Codenaut.Text.Python

/-!
# Relative imports

A relative import goes up from the directory of its file. The builder goes up in
the file's dotted module name instead, and strips dots at the ends of what it
gets.
-/

set_option autoImplicit false

namespace Codenaut.Indexing

open Codenaut.Db Codenaut.Relational Codenaut.Text

/-! ## Dots at the ends of a text -/

/-- `text.lstrip(".")`. -/
def lstripDots (text : String) : String :=
  String.ofList (text.toList.dropWhile (· = '.'))

def endsWithDot (text : String) : Bool :=
  text.toList.getLast? = some '.'

def isDot (char : Char) : Bool :=
  char = '.'

theorem toList_lstripDots (text : String) :
    (lstripDots text).toList = text.toList.dropWhile isDot := by
  rw [lstripDots, String.toList_ofList]
  rfl

theorem toList_stripDots (text : String) :
    (stripDots text).toList = (text.toList.dropWhile isDot).rdropWhile isDot := by
  rw [stripDots, String.toList_ofList]
  rfl

/-- A text below a dotted base. -/
def below (base text : List Char) : List Char :=
  if base = [] then text else base ++ '.' :: text

theorem below_inj {first second text : List Char} :
    below first text = below second text ↔ first = second := by
  unfold below
  constructor
  · intro same
    split at same
    case isTrue empty =>
      split at same
      case isTrue other => rw [empty, other]
      case isFalse =>
        have lengths := congrArg List.length same
        simp only [List.length_append, List.length_cons] at lengths
        omega
    case isFalse =>
      split at same
      case isTrue =>
        have lengths := congrArg List.length same
        simp only [List.length_append, List.length_cons] at lengths
        omega
      case isFalse => exact List.append_cancel_right same
  · rintro rfl
    rfl

/-- Leading dots go, up to a text that starts with none. -/
theorem dropWhile_before {base text : List Char} (plain : text.head? ≠ .some '.') :
    (base ++ '.' :: text).dropWhile isDot = below (base.dropWhile isDot) text := by
  have kept : ('.' :: text).dropWhile isDot = text := by
    rw [List.dropWhile_cons_of_pos (by decide)]
    cases text with
    | nil => rfl
    | cons head rest =>
        refine List.dropWhile_cons_of_neg ?_
        simpa [isDot] using plain
  rw [List.dropWhile_append, kept, below]
  simp only [List.isEmpty_iff]

theorem rdropWhile_below {base front : List Char} {last : Char} (plain : last ≠ '.') :
    (below base (front ++ [last])).rdropWhile isDot = below base (front ++ [last]) := by
  have kept : isDot last ≠ true := by simpa [isDot] using plain
  unfold below
  split
  · exact List.rdropWhile_concat_neg _ _ _ kept
  · rw [← List.cons_append, ← List.append_assoc]
    exact List.rdropWhile_concat_neg _ _ _ kept

/-- What is left of a text that ends in a dot is not that text. -/
theorem rdropWhile_ne_below {text base front : List Char} :
    text.rdropWhile isDot ≠ below base (front ++ ['.']) := by
  intro same
  have nonempty : text.rdropWhile isDot ≠ [] := by
    rw [same, below]
    split
    · simp
    · simp
  apply List.rdropWhile_last_not isDot text nonempty
  have last : (below base (front ++ ['.'])).getLast? = .some '.' := by
    unfold below
    split
    · simp
    · rw [← List.cons_append, ← List.append_assoc]
      exact List.getLast?_concat
  rw [← same, List.getLast?_eq_some_getLast nonempty] at last
  rw [Option.some.inj last]
  rfl

theorem joinText_append {pieces later : List String} (some : pieces ≠ []) (more : later ≠ []) :
    (joinText '.' (pieces ++ later)).toList =
      (joinText '.' pieces).toList ++ '.' :: (joinText '.' later).toList := by
  rw [joinText, String.intercalate_append_of_ne_nil some more]
  simp [joinText]

theorem joinText_ne_empty {pieces : List String} (named : ∀ piece ∈ pieces, piece ≠ "") :
    (joinText '.' pieces).toList = [] ↔ pieces = [] := by
  constructor
  · intro empty
    cases pieces with
    | nil => rfl
    | cons piece rest =>
        cases rest with
        | nil =>
            rw [joinText, String.intercalate_singleton] at empty
            exact absurd (String.toList_eq_nil_iff.mp empty) (named piece (.head _))
        | cons next rest =>
            rw [← List.singleton_append, joinText_append (by simp) (by simp)] at empty
            simp at empty
  · rintro rfl
    rfl

theorem splitText_ne_nil (text : String) : splitText '.' text ≠ [] := by
  simp [splitText, List.splitOn_ne_nil]

/-- A text split and joined below other pieces, without leading dots. -/
theorem dropWhile_joined (pieces : List String) {text : String}
    (plain : text.toList.head? ≠ some '.') :
    (joinText '.' (pieces ++ splitText '.' text)).toList.dropWhile isDot =
      below ((joinText '.' pieces).toList.dropWhile isDot) text.toList := by
  by_cases none : pieces = []
  · subst none
    rw [List.nil_append, splitText_join]
    have kept : text.toList.dropWhile isDot = text.toList := by
      cases chars : text.toList with
      | nil => rfl
      | cons head rest =>
          rw [chars] at plain
          refine List.dropWhile_cons_of_neg ?_
          simpa [isDot] using plain
    rw [kept]
    rfl
  · rw [joinText_append none (splitText_ne_nil text), splitText_join]
    exact dropWhile_before plain

/-- A module below the dotted path of named directories. -/
theorem joinText_below {pieces : List String} (named : ∀ piece ∈ pieces, piece ≠ "")
    (text : String) : (joinText '.' (pieces ++ [text])).toList =
      below (joinText '.' pieces).toList text.toList := by
  unfold below
  split
  case isTrue empty =>
    rw [(joinText_ne_empty named).mp empty, List.nil_append, joinText, String.intercalate_singleton]
  case isFalse filled =>
    have some : pieces ≠ [] := fun none => filled ((joinText_ne_empty named).mpr none)
    rw [joinText_append some (by simp)]
    simp [joinText, String.intercalate_singleton]

/-! ## Modules and directories -/

/-- The directories of a path, from the root on. -/
def directories (filePath : String) : List String :=
  (posixParts filePath).dropLast

/-- The directory of a file after going up, when there are that many. -/
def directoryAbove (filePath : String) (up : Nat) : List String :=
  (directories filePath).take ((directories filePath).length - up)

/-- The package of a file in its module name: all of it for an `__init__`, else
without its last dotted component. -/
def packageText (filePath : String) : String :=
  if pathStem filePath = "__init__" then moduleNameOf filePath
  else rpartitionHead '.' (moduleNameOf filePath)

/-- The dotted components of a package without the last ones. -/
def packageAbove (filePath : String) (up : Nat) : List String :=
  let parts := if packageText filePath = "" then [] else splitText '.' (packageText filePath)
  parts.take (parts.length - up)

/-- The levels that an import goes up from the directory of its file. -/
def ParsedImport.ascend (imported : ParsedImport) : Nat :=
  imported.relativeLevel - 1

/-! ## Written modules -/

/-- What may stand between two tokens: blanks, and a backslash with the line end
after it. -/
def isGap (char : Char) : Bool :=
  char ∈ [' ', '\t', '\x0c', '\\', '\n']

/-- The tokens in order, with gaps between them. -/
inductive Spaced : List String → List Char → Prop where
  | last (token : String) : Spaced [token] token.toList
  | next {token later : String} {tokens : List String} {gap rest : List Char} :
      (∀ char ∈ gap, isGap char = true) → Spaced (later :: tokens) rest →
      Spaced (token :: later :: tokens) (token.toList ++ gap ++ rest)

/-- The module of a relative import: its dots, and the names after them. -/
structure RelativeModule where
  level : Nat
  names : List String
  leveled : 0 < level
  named : ∀ name ∈ names, name ≠ "" ∧ ∀ char ∈ name.toList, char ≠ '.' ∧ isGap char = false

namespace RelativeModule

def tokens (module : RelativeModule) : List String :=
  List.replicate module.level "." ++ module.names.intersperse "."

/-- The text is the module as Python allows to write it. -/
def WrittenAs (module : RelativeModule) (text : String) : Prop :=
  Spaced module.tokens text.toList

/-- The module with nothing between its tokens. -/
def text (module : RelativeModule) : String :=
  String.ofList (List.replicate module.level '.') ++ joinText '.' module.names

/-- The levels that the import goes up from the directory of its file. -/
def ascend (module : RelativeModule) : Nat :=
  module.level - 1

end RelativeModule

section Statements

variable (parsed : ParsedFile) (imported : ParsedImport) (module : RelativeModule)

/-- The import resolves by directory: to the dotted path of the directory that
its module goes up to with the names of the module, or above the root to nothing. -/
def ResolvesByDirectory : Prop :=
  if module.ascend ≤ (directories parsed.filePath).length then
    absoluteModule parsed imported =
      joinText '.' (directoryAbove parsed.filePath module.ascend ++ module.names)
  else
    (∀ target, directImportCandidates { parsed with imports := [imported] } target = []) ∧
      ∀ head tail,
        qualifiedImportCandidates { parsed with imports := [imported] } head tail = []

end Statements

def dots (pieces : List String) : Nat :=
  (pieces.map fun piece => piece.toList.count '.').sum

/-- What the path has behind the directory reached: the directories left, and the
file without its suffix. -/
def behind (filePath : String) (up : Nat) : List String :=
  (directories filePath).drop ((directories filePath).length - up) ++ [pathStem filePath]

/-- The dotted path of the pieces starts with all the dots that are inside them. -/
def DotsInFront (pieces : List String) : Prop :=
  List.replicate (dots pieces) '.' <+: (joinText '.' pieces).toList

/-- An `__init__` file in no directory. -/
def RootInit (filePath : String) : Prop :=
  directories filePath = [] ∧ pathStem filePath = "__init__"

/-- Going up in the dotted name of the module is going up in its directories: the
file is no `__init__` at the root, the dots in what lies behind the directory are in
front, and the directory has none at its ends. Names after it allow no dots behind it. -/
structure PathFollows (filePath : String) (up : Nat) (names : List String) : Prop where
  package : ¬ RootInit filePath
  dotted : DotsInFront (behind filePath up)
  start : ∀ first, (directoryAbove filePath up).head? = some first →
    first.toList.head? ≠ some '.'
  finish : ∀ last, (directoryAbove filePath up).getLast? = some last →
    if names = [] then last.toList.getLast? ≠ some '.' else dots (behind filePath up) = 0

section Imports

variable {parsed : ParsedFile} {imported : ParsedImport} {module : RelativeModule}

theorem above_root_iff (relative : imported.relativeLevel ≠ 0) :
    ((∀ target, directImportCandidates { parsed with imports := [imported] } target = []) ∧
      ∀ head tail,
        qualifiedImportCandidates { parsed with imports := [imported] } head tail = []) ↔
      ∀ name ∈ imported.names, name.name = "*" := by
  have item : imported.isPlain = false := by
    simp [ParsedImport.isPlain, relative]
  constructor
  · rintro ⟨direct, -⟩ name member
    by_contra other
    have none := direct ((name.aliasName.filter (· ≠ "")).getD name.name)
    simp only [directImportCandidates, List.flatMap_cons, List.flatMap_nil, List.append_nil, item,
      Bool.false_eq_true, if_false, List.map_eq_nil_iff, List.filter_eq_nil_iff] at none
    exact none name member (by simp [ImportAlias.binds, other])
  · intro wild
    have unbound : ∀ target, imported.names.filter (·.binds target) = [] := by
      intro target
      rw [List.filter_eq_nil_iff]
      intro name member
      simp [ImportAlias.binds, wild name member]
    constructor
    · intro target
      simp [directImportCandidates, item, unbound]
    · intro head tail
      simp [qualifiedImportCandidates, item, unbound]

theorem directoryAbove_named (filePath : String) (up : Nat) :
    ∀ piece ∈ directoryAbove filePath up, piece ≠ "" := by
  intro piece member
  have part := List.mem_of_mem_dropLast (List.mem_of_mem_take member)
  exact (of_decide_eq_true (List.mem_filter.mp part).2).1

/-- With a module part, that part must end in no dot, and the rest match up to
leading dots. -/
theorem module_iff {kept reached : List String} (named : ∀ piece ∈ reached, piece ≠ "")
    {text : String} (filled : text ≠ "") (plain : text.toList.head? ≠ some '.') :
    stripDots (joinText '.' (kept ++ splitText '.' text)) = joinText '.' (reached ++ [text]) ↔
      endsWithDot text = false ∧ lstripDots (joinText '.' kept) = joinText '.' reached := by
  rw [← String.toList_inj, ← String.toList_inj, toList_stripDots, toList_lstripDots,
    dropWhile_joined kept plain, joinText_below named]
  obtain ⟨front, last, chars⟩ :=
    (List.eq_nil_or_concat text.toList).resolve_left (by simpa using filled)
  rw [List.concat_eq_append] at chars
  rw [endsWithDot, chars, List.getLast?_concat]
  by_cases dot : last = '.'
  · subst dot
    simp [rdropWhile_ne_below]
  · rw [rdropWhile_below dot, below_inj]
    simp [dot]

/-- Without a module part the dots at both ends go. -/
theorem stripDots_joined (kept : List String) :
    stripDots (joinText '.' (kept ++ splitText '.' "")) = stripDots (joinText '.' kept) := by
  rw [← String.toList_inj, toList_stripDots, toList_stripDots, dropWhile_joined kept (by decide)]
  unfold below
  split
  case isTrue empty =>
    rw [empty]
    rfl
  case isFalse => exact List.rdropWhile_concat_pos _ _ _ (by decide)

theorem absoluteModule_relative (named : parsed.moduleName = moduleNameOf parsed.filePath)
    (relative : imported.relativeLevel ≠ 0) :
    absoluteModule parsed imported =
      stripDots (joinText '.' (packageAbove parsed.filePath imported.ascend ++
        splitText '.' (imported.module.getD ""))) := by
  unfold absoluteModule
  rw [if_neg relative, named]
  rfl

end Imports

/-! ## Dotted components -/

def components (pieces : List String) : List String :=
  pieces.flatMap (splitText '.')

theorem joinText_cons (piece : String) {rest : List String} (more : rest ≠ []) :
    (joinText '.' (piece :: rest)).toList = piece.toList ++ '.' :: (joinText '.' rest).toList := by
  rw [← List.singleton_append, joinText_append (by simp) more, joinText,
    String.intercalate_singleton]

theorem components_ne_nil {pieces : List String} (some : pieces ≠ []) : components pieces ≠ [] := by
  cases pieces with
  | nil => exact absurd rfl some
  | cons piece rest =>
      rw [components, List.flatMap_cons]
      exact List.append_ne_nil_of_left_ne_nil (splitText_ne_nil piece) _

theorem joinText_components (pieces : List String) :
    joinText '.' (components pieces) = joinText '.' pieces := by
  induction pieces with
  | nil => rfl
  | cons piece rest ih =>
      rw [components, List.flatMap_cons, ← components]
      by_cases last : rest = []
      · rw [last, components, List.flatMap_nil, List.append_nil, splitText_join, joinText,
          String.intercalate_singleton]
      · rw [← String.toList_inj, joinText_append (splitText_ne_nil piece) (components_ne_nil last),
          joinText_cons piece last, ih, splitText_join]

theorem components_free {pieces : List String} : ∀ piece ∈ components pieces, '.' ∉ piece.toList := by
  intro piece member
  obtain ⟨text, -, inside⟩ := List.mem_flatMap.mp member
  exact splitText_free inside

theorem length_splitText (text : String) :
    (splitText '.' text).length = text.toList.count '.' + 1 := by
  rw [splitText, List.length_map]
  induction text.toList with
  | nil => rfl
  | cons char rest ih =>
      rw [List.splitOn_cons_eq_if_modifyHead, List.count_cons]
      split
      · rw [List.length_cons, ih]
      · rw [List.length_modifyHead, ih, Nat.add_zero]

theorem length_components (pieces : List String) :
    (components pieces).length = pieces.length + dots pieces := by
  induction pieces with
  | nil => rfl
  | cons piece rest ih =>
      rw [components, List.flatMap_cons, ← components, List.length_append, ih, length_splitText,
        dots, dots, List.map_cons, List.sum_cons, List.length_cons]
      omega

theorem splitText_joinText {pieces : List String} (some : pieces ≠ [])
    (free : ∀ piece ∈ pieces, '.' ∉ piece.toList) :
    splitText '.' (joinText '.' pieces) = pieces := by
  have split : (joinText '.' pieces).toList.splitOn '.' = pieces.map String.toList := by
    rw [joinText, String.toList_intercalate, String.toList_singleton]
    apply List.splitOn_intercalate
    · intro chars member
      obtain ⟨piece, listed, rfl⟩ := List.mem_map.mp member
      exact free piece listed
    · simpa using some
  rw [splitText, split, List.map_map]
  have restored : String.ofList ∘ String.toList = id := funext fun text => String.ofList_toList
  rw [restored, List.map_id]

theorem rpartitionHead_free {text : String} (free : '.' ∉ text.toList) :
    rpartitionHead '.' text = "" := by
  have dropped : text.toList.reverse.dropWhile (· ≠ '.') = [] := by
    rw [List.dropWhile_eq_nil_iff]
    intro char member
    have apart : char ≠ '.' := fun same => free (same ▸ List.mem_reverse.mp member)
    simpa using apart
  rw [rpartitionHead, dropped]
  rfl

theorem rpartitionHead_components (text : String) :
    rpartitionHead '.' text = joinText '.' (splitText '.' text).dropLast := by
  obtain ⟨front, last, split⟩ :=
    (List.eq_nil_or_concat (splitText '.' text)).resolve_left (splitText_ne_nil text)
  rw [List.concat_eq_append] at split
  have free : '.' ∉ last.toList := by
    have member : last ∈ splitText '.' text := by simp [split]
    exact splitText_free member
  have whole := splitText_join '.' text
  rw [split] at whole
  rw [split, List.dropLast_concat, ← whole]
  by_cases alone : front = []
  · rw [alone, List.nil_append, joinText, String.intercalate_singleton, rpartitionHead_free free]
    rfl
  · rw [joinText_concat alone]
    exact rpartitionHead_append free

/-! ## Going up in the module name -/

/-- A path without a name is empty. -/
theorem posixParts_unnamed {filePath : String} (unnamed : pathName filePath = "") :
    posixParts filePath = [] := by
  rcases List.eq_nil_or_concat (posixParts filePath) with none | ⟨front, last, parts⟩
  · exact none
  · rw [List.concat_eq_append] at parts
    have member : last ∈ posixParts filePath := by simp [parts]
    have filled := (of_decide_eq_true (List.mem_filter.mp member).2).1
    rw [pathName, parts, List.getLastD_concat] at unnamed
    exact absurd unnamed filled

/-- The module name is the dotted path of a package, or of the file. -/
theorem moduleNameOf_path (filePath : String) :
    moduleNameOf filePath = joinText '.'
      (if pathStem filePath = "__init__" ∧ directories filePath ≠ [] then directories filePath
        else directories filePath ++ [pathStem filePath]) := by
  unfold moduleNameOf
  by_cases unnamed : pathName filePath = ""
  · have empty := posixParts_unnamed unnamed
    have stem : pathStem filePath = "" := by
      rw [pathStem, unnamed]
      rfl
    rw [if_pos unnamed, directories, empty, stem]
    rfl
  · rw [if_neg unnamed, ← directories]
    dsimp only
    rw [List.getLast?_concat, List.dropLast_concat]
    by_cases init : pathStem filePath = "__init__"
    · rw [if_pos (congrArg some init)]
      by_cases root : directories filePath = []
      · rw [if_pos root, if_neg (fun inside => inside.2 root), root, List.nil_append, joinText,
          String.intercalate_singleton]
      · rw [if_neg root, if_pos ⟨init, root⟩]
    · rw [if_neg (fun same => init (Option.some.inj same)), if_neg (by simp),
        if_neg (fun inside => init inside.1)]

/-- The package is the dotted path of the file without its last component. -/
theorem packageText_components {filePath : String} (package : ¬ RootInit filePath) :
    packageText filePath = joinText '.'
      (components (directories filePath ++ [pathStem filePath])).dropLast := by
  have joined : components (directories filePath ++ [pathStem filePath]) =
      components (directories filePath) ++ splitText '.' (pathStem filePath) := by
    simp [components]
  unfold packageText
  rw [moduleNameOf_path]
  by_cases init : pathStem filePath = "__init__"
  · have nested : directories filePath ≠ [] := fun root => package ⟨root, init⟩
    have stem : splitText '.' (pathStem filePath) = ["__init__"] := by
      rw [init]
      decide
    rw [if_pos init, if_pos ⟨init, nested⟩, joined, stem, List.dropLast_concat, joinText_components]
  · have pieces : components (directories filePath ++ [pathStem filePath]) ≠ [] :=
      components_ne_nil (by simp)
    rw [if_neg init, if_neg (fun inside => init inside.1), rpartitionHead_components,
      ← joinText_components (_ ++ _), splitText_joinText pieces components_free]

theorem joinText_take_empty {pieces : List String} (empty : joinText '.' pieces = "") (kept : Nat) :
    joinText '.' (pieces.take kept) = "" := by
  match pieces, kept with
  | [], _ => rw [List.take_nil, empty]
  | _, 0 => rfl
  | [_], _ + 1 => rw [List.take_succ_cons, List.take_nil, empty]
  | piece :: next :: rest, _ =>
      rw [← String.toList_eq_nil_iff, joinText_cons piece (by simp)] at empty
      simp at empty

/-- What going up leaves of the package. -/
theorem packageAbove_components {filePath : String} (package : ¬ RootInit filePath) (up : Nat) :
    joinText '.' (packageAbove filePath up) =
      joinText '.' ((components (directories filePath ++ [pathStem filePath])).take
        ((components (directories filePath ++ [pathStem filePath])).length - 1 - up)) := by
  have short : ∀ pieces : List String,
      pieces.take (pieces.length - 1 - up) = pieces.dropLast.take (pieces.dropLast.length - up) := by
    intro pieces
    rw [List.length_dropLast, List.dropLast_eq_take, List.take_take]
    congr 1
    omega
  unfold packageAbove
  dsimp only
  rw [packageText_components package, short]
  have free : ∀ piece ∈ (components (directories filePath ++ [pathStem filePath])).dropLast,
      '.' ∉ piece.toList := fun piece member =>
    components_free piece (List.mem_of_mem_dropLast member)
  generalize (components (directories filePath ++ [pathStem filePath])).dropLast = pieces at free
  by_cases empty : joinText '.' pieces = ""
  · rw [if_pos empty, List.take_nil]
    exact (joinText_take_empty empty _).symm
  · have some : pieces ≠ [] := by
      rintro rfl
      exact empty rfl
    rw [if_neg empty, splitText_joinText some free]

theorem above_behind (filePath : String) (up : Nat) :
    directoryAbove filePath up ++ behind filePath up =
      directories filePath ++ [pathStem filePath] := by
  rw [directoryAbove, behind, ← List.append_assoc, List.take_append_drop]

theorem length_behind {filePath : String} {up : Nat} (inside : up ≤ (directories filePath).length) :
    (behind filePath up).length = up + 1 := by
  rw [behind, List.length_append, List.length_drop, List.length_singleton]
  omega

/-- Going up keeps the components of the directory reached, and as many more as
there are dots behind it. -/
theorem packageAbove_split {filePath : String} (package : ¬ RootInit filePath) {up : Nat}
    (inside : up ≤ (directories filePath).length) :
    joinText '.' (packageAbove filePath up) =
      joinText '.' (components (directoryAbove filePath up) ++
        (components (behind filePath up)).take (dots (behind filePath up))) := by
  rw [packageAbove_components package, ← above_behind filePath up, components, List.flatMap_append,
    ← components, ← components, List.length_append, length_components (behind filePath up),
    length_behind inside]
  have kept : (components (directoryAbove filePath up)).length + (up + 1 + dots (behind filePath up)) -
      1 - up = (components (directoryAbove filePath up)).length + dots (behind filePath up) := by
    omega
  rw [kept, List.take_length_add_append]

/-! ## Letters -/

/-- The characters of a text other than dots; stripping dots keeps them. -/
def letters (text : List Char) : Nat :=
  text.countP (!isDot ·)

theorem letters_dropWhile (text : List Char) : letters (text.dropWhile isDot) = letters text := by
  induction text with
  | nil => rfl
  | cons char rest ih =>
      by_cases dot : isDot char = true
      · rw [List.dropWhile_cons_of_pos dot, ih, letters, letters,
          List.countP_cons_of_neg (by simpa using dot)]
      · rw [List.dropWhile_cons_of_neg dot]

theorem letters_rdropWhile (text : List Char) : letters (text.rdropWhile isDot) = letters text := by
  rw [List.rdropWhile, letters, List.countP_reverse, ← letters, letters_dropWhile, letters,
    List.countP_reverse, letters]

theorem letters_append (front back : List Char) :
    letters (front ++ back) = letters front + letters back :=
  List.countP_append

theorem letters_join (pieces : List String) :
    letters (joinText '.' pieces).toList = (pieces.map fun piece => letters piece.toList).sum := by
  induction pieces with
  | nil => rfl
  | cons piece rest ih =>
      rw [List.map_cons, List.sum_cons]
      by_cases last : rest = []
      · rw [last, joinText, String.intercalate_singleton]
        rfl
      · rw [joinText_cons piece last, letters_append, ← ih, letters, letters, letters,
          List.countP_cons_of_neg (by decide)]

theorem letters_joined (front back : List String) :
    letters (joinText '.' (front ++ back)).toList =
      letters (joinText '.' front).toList + letters (joinText '.' back).toList := by
  rw [letters_join, letters_join, letters_join, List.map_append, List.sum_append]

theorem empty_of_letters {piece : String} (free : '.' ∉ piece.toList)
    (none : letters piece.toList = 0) : piece = "" := by
  rw [← String.toList_eq_nil_iff]
  cases chars : piece.toList with
  | nil => rfl
  | cons char rest =>
      rw [chars, letters, List.countP_eq_zero] at none
      have dot : char = '.' := by simpa [isDot] using none char (.head _)
      exact absurd (chars ▸ dot ▸ List.mem_cons_self) free

/-! ## Dots in front -/

/-- As many dots in front as there are empty components. -/
theorem replicate_prefix_iff {count : Nat} {pieces : List String} (room : count < pieces.length)
    (free : ∀ piece ∈ pieces, '.' ∉ piece.toList) :
    List.replicate count '.' <+: (joinText '.' pieces).toList ↔
      ∀ piece ∈ pieces.take count, piece = "" := by
  induction count generalizing pieces with
  | zero => simp
  | succ count ih =>
      match pieces with
      | [] => exact absurd room (Nat.not_lt_zero _)
      | [piece] => exact absurd (Nat.lt_of_succ_lt_succ room) (Nat.not_lt_zero _)
      | piece :: next :: rest =>
          have inner := @ih (next :: rest) (Nat.lt_of_succ_lt_succ room)
            fun other member => free other (.tail _ member)
          rw [joinText_cons piece (by simp), List.replicate_succ, List.take_succ_cons,
            List.forall_mem_cons, ← inner]
          cases chars : piece.toList with
          | nil =>
              rw [List.nil_append, List.cons_prefix_cons, ← String.toList_eq_nil_iff]
              simp [chars]
          | cons char tail =>
              have apart : '.' ≠ char := fun same => free piece (.head _) (by simp [chars, ← same])
              have filled : piece ≠ "" := by
                rintro rfl
                cases chars
              simp [List.cons_prefix_cons, apart, filled]

theorem dotsInFront_iff {pieces : List String} (some : pieces ≠ []) :
    DotsInFront pieces ↔ ∀ piece ∈ (components pieces).take (dots pieces), piece = "" := by
  rw [DotsInFront, ← joinText_components]
  apply replicate_prefix_iff _ components_free
  rw [length_components]
  have := List.length_pos_of_ne_nil some
  omega

/-- Empty components add dots behind a path. -/
theorem joinText_empties (front : List String) (count : Nat) :
    ∃ added, (joinText '.' (front ++ List.replicate count "")).toList =
        (joinText '.' front).toList ++ List.replicate added '.' ∧
      (front ≠ [] → added = count) := by
  induction count with
  | zero => exact ⟨0, by simp, fun _ => rfl⟩
  | succ count ih =>
      obtain ⟨added, before, all⟩ := ih
      rw [List.replicate_succ', ← List.append_assoc]
      by_cases none : front ++ List.replicate count "" = []
      · have alone := (List.append_eq_nil_iff.mp none).1
        rw [none, alone]
        exact ⟨0, rfl, fun some => absurd rfl some⟩
      · refine ⟨added + 1, ?_, fun some => congrArg (· + 1) (all some)⟩
        rw [joinText_append none (by simp), before, List.replicate_succ', List.append_assoc]
        rfl

theorem lstrip_added {base : List Char} {added : Nat} :
    (base ++ List.replicate added '.').dropWhile isDot = base ↔
      base = [] ∨ base.head? ≠ some '.' ∧ added = 0 := by
  cases base with
  | nil =>
      have gone : (List.replicate added '.').dropWhile isDot = [] := by
        rw [List.dropWhile_eq_nil_iff]
        intro char member
        rw [List.eq_of_mem_replicate member]
        rfl
      simp [gone]
  | cons char rest =>
      by_cases dot : char = '.'
      · subst dot
        refine iff_of_false (fun same => ?_) (by simp)
        have stopped := List.head?_dropWhile_not isDot ('.' :: rest ++ List.replicate added '.')
        rw [same] at stopped
        cases stopped
      · rw [List.cons_append, List.dropWhile_cons_of_neg (by simpa [isDot] using dot)]
        simp [dot]

theorem rdropWhile_added {base : List Char} (added : Nat) :
    (base ++ List.replicate added '.').rdropWhile isDot = base.rdropWhile isDot := by
  induction added with
  | zero => rw [List.replicate_zero, List.append_nil]
  | succ added ih =>
      rw [List.replicate_succ', ← List.append_assoc, List.rdropWhile_concat_pos _ _ _ (by decide), ih]

theorem rdropWhile_self {base : List Char} :
    base.rdropWhile isDot = base ↔ base.getLast? ≠ some '.' := by
  rw [List.rdropWhile_eq_self_iff]
  rcases List.eq_nil_or_concat base with rfl | ⟨front, last, rfl⟩
  · simp
  · simp [isDot]

theorem strip_added {base : List Char} {added : Nat} :
    ((base ++ List.replicate added '.').dropWhile isDot).rdropWhile isDot = base ↔
      base = [] ∨ base.head? ≠ some '.' ∧ base.getLast? ≠ some '.' := by
  cases base with
  | nil =>
      have gone := (@lstrip_added [] added).mpr (.inl rfl)
      rw [gone]
      simp
  | cons char rest =>
      by_cases dot : char = '.'
      · subst dot
        refine iff_of_false (fun same => ?_) (by simp)
        have stopped := List.head?_dropWhile_not isDot ('.' :: rest ++ List.replicate added '.')
        obtain ⟨more, whole⟩ := List.rdropWhile_prefix isDot
          (('.' :: rest ++ List.replicate added '.').dropWhile isDot)
        rw [same] at whole
        rw [← whole] at stopped
        cases stopped
      · have kept : isDot char ≠ true := by simpa [isDot] using dot
        rw [List.cons_append, List.dropWhile_cons_of_neg kept, ← List.cons_append, rdropWhile_added,
          rdropWhile_self]
        simp [dot]

/-! ## Directories reached -/

section Reached

variable {filePath : String} {up : Nat}

/-- What has no more letters than the directory reached has only empty components
behind it. -/
theorem dotsInFront_of_letters (package : ¬ RootInit filePath)
    (inside : up ≤ (directories filePath).length)
    (same : letters (joinText '.' (packageAbove filePath up)).toList =
      letters (joinText '.' (directoryAbove filePath up)).toList) :
    DotsInFront (behind filePath up) := by
  rw [packageAbove_split package inside, letters_joined, joinText_components] at same
  have none := Nat.add_eq_left.mp same
  rw [letters_join] at none
  refine (dotsInFront_iff (by simp [behind])).mpr fun piece member => ?_
  apply empty_of_letters (components_free piece (List.mem_of_mem_take member))
  exact List.sum_eq_zero_iff_forall_eq_nat.mp none _ (List.mem_map_of_mem member)

/-- With the dots behind the directory in front, going up leads to it and adds dots. -/
theorem packageAbove_added (package : ¬ RootInit filePath)
    (inside : up ≤ (directories filePath).length) (front : DotsInFront (behind filePath up)) :
    ∃ added, (joinText '.' (packageAbove filePath up)).toList =
        (joinText '.' (directoryAbove filePath up)).toList ++ List.replicate added '.' ∧
      (directoryAbove filePath up ≠ [] → added = dots (behind filePath up)) := by
  have some : behind filePath up ≠ [] := by simp [behind]
  have empties : (components (behind filePath up)).take (dots (behind filePath up)) =
      List.replicate (dots (behind filePath up)) "" := by
    rw [List.eq_replicate_iff]
    refine ⟨?_, (dotsInFront_iff some).mp front⟩
    rw [List.length_take, length_components]
    omega
  rw [packageAbove_split package inside, empties]
  obtain ⟨added, whole, all⟩ :=
    joinText_empties (components (directoryAbove filePath up)) (dots (behind filePath up))
  rw [joinText_components] at whole
  exact ⟨added, whole, fun reached => all (components_ne_nil reached)⟩

theorem joinText_head {pieces : List String} (named : ∀ piece ∈ pieces, piece ≠ "") :
    (joinText '.' pieces).toList.head? = some '.' ↔
      ∃ first, pieces.head? = some first ∧ first.toList.head? = some '.' := by
  cases pieces with
  | nil => simp [joinText]
  | cons piece rest =>
      have filled : piece.toList ≠ [] := mt String.toList_eq_nil_iff.mp (named piece (.head _))
      by_cases last : rest = []
      · simp [last, joinText]
      · rw [joinText_cons piece last, List.head?_append_of_ne_nil _ filled]
        simp

theorem joinText_last {pieces : List String} (named : ∀ piece ∈ pieces, piece ≠ "") :
    (joinText '.' pieces).toList.getLast? = some '.' ↔
      ∃ last, pieces.getLast? = some last ∧ last.toList.getLast? = some '.' := by
  rcases List.eq_nil_or_concat pieces with rfl | ⟨front, piece, rfl⟩
  · simp [joinText]
  · rw [List.concat_eq_append] at *
    have filled : piece.toList ≠ [] := mt String.toList_eq_nil_iff.mp (named piece (by simp))
    rw [joinText_below fun other member => named other (by simp [member]), List.getLast?_concat]
    unfold below
    split
    · simp
    · obtain ⟨head, tail, chars⟩ := List.exists_cons_of_ne_nil filled
      rw [List.getLast?_append_of_ne_nil _ (by simp), chars, List.getLast?_cons_cons, ← chars]
      simp

theorem not_follows_rootInit {names : List String} (root : RootInit filePath) :
    ¬ PathFollows filePath up names :=
  fun follows => follows.package root

theorem packageAbove_rootInit (root : RootInit filePath)
    (inside : up ≤ (directories filePath).length) :
    joinText '.' (packageAbove filePath up) = "__init__" ∧ directoryAbove filePath up = [] := by
  rw [root.1, List.length_nil, Nat.le_zero] at inside
  have text : packageText filePath = "__init__" := by
    rw [packageText, if_pos root.2, moduleNameOf_path, if_neg fun nested => nested.2 root.1, root.1,
      root.2]
    decide
  constructor
  · rw [packageAbove, text, inside]
    decide
  · rw [directoryAbove, root.1, List.take_nil]

/-- Below a directory with names after it: the path without leading dots. -/
theorem follows_named (inside : up ≤ (directories filePath).length) {names : List String}
    (some : names ≠ []) :
    lstripDots (joinText '.' (packageAbove filePath up)) =
        joinText '.' (directoryAbove filePath up) ↔ PathFollows filePath up names := by
  by_cases root : RootInit filePath
  · obtain ⟨package, reached⟩ := packageAbove_rootInit root inside
    refine iff_of_false ?_ (not_follows_rootInit root)
    rw [package, reached]
    decide
  · have named := directoryAbove_named filePath up
    rw [← String.toList_inj, toList_lstripDots]
    constructor
    · intro same
      have front := dotsInFront_of_letters root inside (by rw [← same, letters_dropWhile])
      obtain ⟨added, whole, all⟩ := packageAbove_added root inside front
      rw [whole, lstrip_added, joinText_ne_empty named, Ne, joinText_head named] at same
      refine ⟨root, front, ?_, ?_⟩
      · intro first heads dotted
        rcases same with none | ⟨plain, -⟩
        · simp [none] at heads
        · exact plain ⟨first, heads, dotted⟩
      · intro last lasts
        rw [if_neg some]
        rcases same with none | ⟨-, nothing⟩
        · simp [none] at lasts
        · have reached : directoryAbove filePath up ≠ [] := by
            intro none
            simp [none] at lasts
          rw [← all reached, nothing]
    · intro follows
      obtain ⟨added, whole, all⟩ := packageAbove_added root inside follows.dotted
      rw [whole, lstrip_added, joinText_ne_empty named, Ne, joinText_head named]
      by_cases none : directoryAbove filePath up = []
      · exact .inl none
      · refine .inr ⟨fun ⟨first, heads, dotted⟩ => follows.start first heads dotted, ?_⟩
        have finish := follows.finish _ (List.getLast?_eq_some_getLast none)
        rw [if_neg some] at finish
        rw [all none, finish]

/-- Below a directory alone: the path without dots at its ends. -/
theorem follows_alone (inside : up ≤ (directories filePath).length) :
    stripDots (joinText '.' (packageAbove filePath up)) =
        joinText '.' (directoryAbove filePath up) ↔ PathFollows filePath up [] := by
  by_cases root : RootInit filePath
  · obtain ⟨package, reached⟩ := packageAbove_rootInit root inside
    refine iff_of_false ?_ (not_follows_rootInit root)
    rw [package, reached]
    decide
  · have named := directoryAbove_named filePath up
    rw [← String.toList_inj, toList_stripDots]
    constructor
    · intro same
      have front := dotsInFront_of_letters root inside
        (by rw [← same, letters_rdropWhile, letters_dropWhile])
      obtain ⟨added, whole, -⟩ := packageAbove_added root inside front
      rw [whole, strip_added, joinText_ne_empty named, Ne, Ne, joinText_head named,
        joinText_last named] at same
      refine ⟨root, front, ?_, ?_⟩
      · intro first heads dotted
        rcases same with none | ⟨plain, -⟩
        · simp [none] at heads
        · exact plain ⟨first, heads, dotted⟩
      · intro last lasts
        rw [if_pos rfl]
        rcases same with none | ⟨-, plain⟩
        · simp [none] at lasts
        · exact fun dotted => plain ⟨last, lasts, dotted⟩
    · intro follows
      obtain ⟨added, whole, -⟩ := packageAbove_added root inside follows.dotted
      rw [whole, strip_added, joinText_ne_empty named, Ne, Ne, joinText_head named,
        joinText_last named]
      refine .inr ⟨fun ⟨first, heads, dotted⟩ => follows.start first heads dotted, ?_⟩
      rintro ⟨last, lasts, dotted⟩
      have finish := follows.finish last lasts
      rw [if_pos rfl] at finish
      exact finish dotted

end Reached

/-! ## Reading a written module -/

/-- Gaps add letters, and nothing else does. -/
theorem Spaced.letters {tokens : List String} {text : List Char} (spaced : Spaced tokens text) :
    text = tokens.flatMap String.toList ∨
      letters (tokens.flatMap String.toList) < Indexing.letters text := by
  induction spaced with
  | last token => exact .inl (by simp)
  | @next token later tokens gap rest gaps _ ih =>
      have least : Indexing.letters ((later :: tokens).flatMap String.toList) ≤
          Indexing.letters rest := by
        rcases ih with same | more
        · rw [same]
        · exact Nat.le_of_lt more
      rw [List.flatMap_cons]
      cases gap with
      | nil =>
          rw [List.append_nil]
          rcases ih with same | more
          · exact .inl (by rw [same])
          · exact .inr (by rw [letters_append, letters_append]; omega)
      | cons char gap =>
          have counted : 0 < Indexing.letters (char :: gap) := by
            have blank := gaps char (.head _)
            have apart : char ≠ '.' := by
              rintro rfl
              exact absurd blank (by decide)
            rw [Indexing.letters, List.countP_pos_iff]
            exact ⟨char, .head _, by simpa [isDot] using apart⟩
          exact .inr (by rw [letters_append, letters_append, letters_append]; omega)

theorem joinText_intersperse (names : List String) :
    (names.intersperse ".").flatMap String.toList = (joinText '.' names).toList := by
  induction names with
  | nil => rfl
  | cons name rest ih =>
      cases rest with
      | nil => simp [joinText]
      | cons next rest =>
          rw [List.intersperse_cons_cons, List.flatMap_cons, List.flatMap_cons, ih,
            joinText_cons name (by simp)]
          rfl

section Written

variable {module : RelativeModule} {text : String}

theorem flatMap_tokens : module.tokens.flatMap String.toList = module.text.toList := by
  rw [RelativeModule.tokens, RelativeModule.text, List.flatMap_append, joinText_intersperse,
    String.toList_append, String.toList_ofList]
  congr 1
  induction module.level with
  | zero => rfl
  | succ level ih =>
      rw [List.replicate_succ, List.replicate_succ, List.flatMap_cons, ih]
      rfl

theorem letters_text : letters module.text.toList = letters (joinText '.' module.names).toList := by
  have none : letters (List.replicate module.level '.') = 0 := by
    rw [letters, List.countP_eq_zero]
    intro char member
    rw [List.eq_of_mem_replicate member]
    decide
  rw [RelativeModule.text, String.toList_append, String.toList_ofList, letters_append, none,
    Nat.zero_add]

/-- A text with gaps has more letters than the names of the module. -/
theorem letters_written (written : module.WrittenAs text) (gaps : text ≠ module.text) :
    letters (joinText '.' module.names).toList < letters text.toList := by
  rcases Spaced.letters written with same | more
  · rw [flatMap_tokens] at same
    exact absurd (String.toList_inj.mp same) gaps
  · rwa [flatMap_tokens, letters_text] at more

/-- The first token that is no dot ends the leading dots. -/
theorem Spaced.leading {later : List String} {text : List Char} (level : Nat)
    (plain : ∀ token ∈ later.head?, ∃ char rest, token.toList = char :: rest ∧ char ≠ '.')
    (spaced : Spaced (List.replicate level "." ++ later) text) :
    (text.takeWhile isDot).length ≤ level := by
  induction level generalizing text with
  | zero =>
      rw [List.replicate_zero, List.nil_append] at spaced
      cases spaced with
      | last token =>
          obtain ⟨char, rest, chars, apart⟩ := plain token rfl
          rw [chars, List.takeWhile_cons_of_neg (by simpa [isDot] using apart)]
          exact Nat.le_refl _
      | @next token _ _ _ _ _ _ =>
          obtain ⟨char, rest, chars, apart⟩ := plain token rfl
          rw [chars, List.cons_append, List.cons_append,
            List.takeWhile_cons_of_neg (by simpa [isDot] using apart)]
          exact Nat.le_refl _
  | succ level ih =>
      rw [List.replicate_succ, List.cons_append] at spaced
      generalize tokens : List.replicate level "." ++ later = following at spaced
      cases spaced with
      | last _ => exact Nat.le_add_left 1 level
      | @next _ next following gap rest gaps inner =>
          have dot : (".".toList : List Char) = ['.'] := rfl
          rw [dot, List.append_assoc, List.singleton_append,
            List.takeWhile_cons_of_pos (by decide), List.length_cons]
          apply Nat.succ_le_succ
          cases gap with
          | nil => exact ih (tokens ▸ inner)
          | cons char gap =>
              have blank := gaps char (.head _)
              have apart : isDot char ≠ true := by
                intro same
                rw [of_decide_eq_true same] at blank
                exact absurd blank (by decide)
              rw [List.cons_append, List.takeWhile_cons_of_neg apart]
              exact Nat.zero_le _

theorem RelativeModule.WrittenAs.level_le (written : module.WrittenAs text) :
    (text.toList.takeWhile isDot).length ≤ module.level := by
  refine Spaced.leading module.level ?_ written
  intro token heads
  cases names : module.names with
  | nil => simp [names] at heads
  | cons name rest =>
      have same : token = name := by
        rw [names] at heads
        cases rest <;> simpa using heads.symm
      obtain ⟨filled, free⟩ := module.named name (by simp [names])
      obtain ⟨char, tail, chars⟩ := List.exists_cons_of_ne_nil (mt String.toList_eq_nil_iff.mp filled)
      exact ⟨char, tail, same ▸ chars, (free char (by simp [chars])).1⟩

theorem RelativeModule.WrittenAs.leads (written : module.WrittenAs text) :
    ∃ rest, text.toList = '.' :: rest := by
  have first : module.tokens = "." :: (List.replicate (module.level - 1) "." ++
      module.names.intersperse ".") := by
    rw [RelativeModule.tokens, ← List.cons_append, ← List.replicate_succ,
      Nat.sub_add_cancel module.leveled]
  unfold RelativeModule.WrittenAs at written
  rw [first] at written
  generalize List.replicate (module.level - 1) "." ++ module.names.intersperse "." = later at written
  generalize text.toList = chars at written
  cases written with
  | last _ => exact ⟨[], rfl⟩
  | next _ _ => exact ⟨_, by rw [List.append_assoc]; rfl⟩

end Written

/-! ## Resolving by directory -/

/-- The levels below the directory reached keep its letters. -/
theorem letters_reached_le {filePath : String} {fewer up : Nat} (le : fewer ≤ up)
    (inside : up ≤ (directories filePath).length) :
    letters (joinText '.' (directoryAbove filePath up)).toList ≤
      letters (joinText '.' (packageAbove filePath fewer)).toList := by
  by_cases root : RootInit filePath
  · rw [(packageAbove_rootInit root inside).2]
    exact Nat.zero_le _
  · rw [packageAbove_components root, ← above_behind filePath up, components, List.flatMap_append,
      ← components, ← components, List.length_append, length_components (behind filePath up),
      length_behind inside, List.take_append, List.take_of_length_le (by omega), letters_joined,
      joinText_components]
    exact Nat.le_add_right _ _

theorem joinText_nested (pieces : List String) {names : List String} (some : names ≠ []) :
    joinText '.' (pieces ++ [joinText '.' names]) = joinText '.' (pieces ++ names) := by
  by_cases none : pieces = []
  · rw [none, List.nil_append, List.nil_append, joinText, String.intercalate_singleton]
  · rw [← String.toList_inj, joinText_append none (by simp), joinText_append none some]
    rw [joinText, joinText, String.intercalate_singleton]

section Readings

variable {parsed : ParsedFile} {module : RelativeModule} {node moduleNode : Node}
  {source : List Char}

/-- Within the root, the module is written without gaps and the path is followed;
above it, the import binds only wildcards. -/
def FollowsDirectory (parsed : ParsedFile) (imported : ParsedImport) (module : RelativeModule)
    (text : String) : Prop :=
  if module.ascend ≤ (directories parsed.filePath).length then
    text = module.text ∧ PathFollows parsed.filePath module.ascend module.names
  else ∀ name ∈ imported.names, name.name = "*"

theorem importOf_level (child : node.childByFieldName "module_name" = some moduleNode) :
    (importOf node source).relativeLevel =
      ((nodeText moduleNode source).toList.takeWhile isDot).length := by
  rw [importOf, child]
  rfl

theorem importOf_relative (child : node.childByFieldName "module_name" = some moduleNode)
    (written : module.WrittenAs (nodeText moduleNode source)) :
    (importOf node source).relativeLevel ≠ 0 := by
  obtain ⟨rest, chars⟩ := written.leads
  rw [importOf_level child, chars, List.takeWhile_cons_of_pos (by decide)]
  exact Nat.succ_ne_zero _

theorem importOf_read (child : node.childByFieldName "module_name" = some moduleNode) :
    (importOf node source).module =
      (some (String.ofList ((nodeText moduleNode source).toList.dropWhile isDot))).filter
        (· ≠ "") := by
  rw [importOf, child]
  rfl

theorem importOf_module (child : node.childByFieldName "module_name" = some moduleNode) :
    ((importOf node source).module.getD "").toList =
      (nodeText moduleNode source).toList.dropWhile isDot := by
  rw [importOf_read child]
  by_cases none : (nodeText moduleNode source).toList.dropWhile isDot = []
  · rw [none]
    rfl
  · simp [Option.filter, none]

/-- With gaps the import keeps them in its module, and resolves to no directory. -/
theorem gaps_misread (named : parsed.moduleName = moduleNameOf parsed.filePath)
    (child : node.childByFieldName "module_name" = some moduleNode)
    (written : module.WrittenAs (nodeText moduleNode source))
    (gaps : nodeText moduleNode source ≠ module.text)
    (inside : module.ascend ≤ (directories parsed.filePath).length) :
    absoluteModule parsed (importOf node source) ≠
      joinText '.' (directoryAbove parsed.filePath module.ascend ++ module.names) := by
  have fewer : (importOf node source).ascend ≤ module.ascend := by
    rw [ParsedImport.ascend, RelativeModule.ascend, importOf_level child]
    exact Nat.sub_le_sub_right written.level_le 1
  have kept := letters_reached_le fewer inside
  have more := letters_written written gaps
  rw [absoluteModule_relative named (importOf_relative child written)]
  intro same
  have counted := congrArg (fun text => letters text.toList) same
  rw [toList_stripDots, letters_rdropWhile, letters_dropWhile, letters_joined, letters_joined,
    splitText_join, importOf_module child, letters_dropWhile] at counted
  omega

theorem RelativeModule.names_filled (module : RelativeModule) : ∀ name ∈ module.names, name ≠ "" :=
  fun name member => (module.named name member).1

theorem RelativeModule.head_ne (module : RelativeModule) :
    (joinText '.' module.names).toList.head? ≠ some '.' := by
  rw [Ne, joinText_head module.names_filled]
  rintro ⟨name, first, dotted⟩
  exact ((module.named name (List.mem_of_head? first)).2 '.' (List.mem_of_head? dotted)).1 rfl

theorem RelativeModule.last_ne (module : RelativeModule) :
    (joinText '.' module.names).toList.getLast? ≠ some '.' := by
  rw [Ne, joinText_last module.names_filled]
  rintro ⟨name, last, dotted⟩
  exact ((module.named name (List.mem_of_getLast? last)).2 '.' (List.mem_of_getLast? dotted)).1 rfl

/-- Without gaps the import reads the level and the names as they are. -/
theorem importOf_tight (child : node.childByFieldName "module_name" = some moduleNode)
    (tight : nodeText moduleNode source = module.text) :
    (importOf node source).relativeLevel = module.level ∧
      (importOf node source).module =
        if module.names = [] then none else some (joinText '.' module.names) := by
  have chars : (nodeText moduleNode source).toList =
      List.replicate module.level '.' ++ (joinText '.' module.names).toList := by
    rw [tight, RelativeModule.text, String.toList_append, String.toList_ofList]
  have dotted : ∀ char ∈ List.replicate module.level '.', isDot char = true := by
    intro char member
    rw [List.eq_of_mem_replicate member]
    rfl
  have stops : (joinText '.' module.names).toList.takeWhile isDot = [] ∧
      (joinText '.' module.names).toList.dropWhile isDot =
        (joinText '.' module.names).toList := by
    have head := module.head_ne
    cases text : (joinText '.' module.names).toList with
    | nil => exact ⟨rfl, rfl⟩
    | cons char rest =>
        have apart : isDot char ≠ true := by simpa [text, isDot] using head
        exact ⟨List.takeWhile_cons_of_neg apart, List.dropWhile_cons_of_neg apart⟩
  constructor
  · rw [importOf_level child, chars, List.takeWhile_append_of_pos dotted, stops.1, List.append_nil,
      List.length_replicate]
  · rw [importOf_read child, chars, List.dropWhile_append_of_pos dotted, stops.2, String.ofList_toList]
    have empty := joinText_ne_empty module.names_filled
    rw [String.toList_eq_nil_iff] at empty
    by_cases none : module.names = []
    · rw [none]
      rfl
    · simp [Option.filter, none, empty]

/-- A relative import resolves by directory exactly when its text and its path follow the
directories. -/
theorem relative_imports_iff (named : parsed.moduleName = moduleNameOf parsed.filePath)
    (child : node.childByFieldName "module_name" = some moduleNode)
    (written : module.WrittenAs (nodeText moduleNode source)) :
    ResolvesByDirectory parsed (importOf node source) module ↔
      FollowsDirectory parsed (importOf node source) module (nodeText moduleNode source) := by
  have relative := importOf_relative child written
  unfold ResolvesByDirectory FollowsDirectory
  by_cases inside : module.ascend ≤ (directories parsed.filePath).length
  · rw [if_pos inside, if_pos inside]
    by_cases tight : nodeText moduleNode source = module.text
    · obtain ⟨level, read⟩ := importOf_tight child tight
      have ascend : (importOf node source).ascend = module.ascend := by
        rw [ParsedImport.ascend, RelativeModule.ascend, level]
      rw [absoluteModule_relative named relative, ascend, read, and_iff_right tight]
      by_cases none : module.names = []
      · rw [if_pos none, none, List.append_nil]
        exact (congrArg (· = _) (stripDots_joined _)).to_iff.trans (follows_alone inside)
      · have closed : endsWithDot (joinText '.' module.names) = false :=
          decide_eq_false module.last_ne
        have filled : joinText '.' module.names ≠ "" := by
          rw [Ne, ← String.toList_eq_nil_iff, joinText_ne_empty module.names_filled]
          exact none
        rw [if_neg none, ← joinText_nested _ none, Option.getD_some,
          module_iff (directoryAbove_named _ _) filled module.head_ne, and_iff_right closed]
        exact follows_named inside none
    · exact iff_of_false (gaps_misread named child written tight inside) fun both => tight both.1
  · rw [if_neg inside, if_neg inside]
    exact above_root_iff relative

end Readings

/-! ## Paths without inner dots -/

/-- A path none of whose directories has a dot in its name, nor the file before its
suffix, and that is no `__init__` at the root. -/
structure PlainPath (filePath : String) : Prop where
  directories : ∀ piece ∈ directories filePath, '.' ∉ piece.toList
  stem : '.' ∉ (pathStem filePath).toList
  package : ¬ RootInit filePath

/-- On plain paths every way up follows the directories. -/
theorem PlainPath.follows {filePath : String} (plain : PlainPath filePath) (up : Nat)
    (names : List String) : PathFollows filePath up names := by
  have reached : ∀ piece ∈ directoryAbove filePath up, '.' ∉ piece.toList :=
    fun piece member => plain.directories piece (List.mem_of_mem_take member)
  have none : dots (behind filePath up) = 0 := by
    rw [dots, List.sum_eq_zero_iff_forall_eq_nat]
    intro count member
    obtain ⟨piece, inside, rfl⟩ := List.mem_map.mp member
    rw [List.count_eq_zero]
    rcases List.mem_append.mp inside with left | file
    · exact plain.directories piece (List.mem_of_mem_drop left)
    · exact List.mem_singleton.mp file ▸ plain.stem
  refine ⟨plain.package, ?_, ?_, ?_⟩
  · rw [DotsInFront, none]
    exact List.nil_prefix
  · exact fun first heads dotted =>
      reached first (List.mem_of_head? heads) (List.mem_of_head? dotted)
  · intro last lasts
    split
    · exact fun dotted =>
        reached last (List.mem_of_getLast? lasts) (List.mem_of_getLast? dotted)
    · exact none

/-! ## Two imports -/

namespace RelativeSamples

open ReceiverSamples

/-- An import that goes up from the root. -/
def climbing : ParsedSource where
  file := sourceFile "m.py" "from ..x import f\n".toList "commit"
  root := node "module" none (0, 18) ⟨0, 0⟩ ⟨1, 0⟩ [
    node "import_from_statement" none (0, 17) ⟨0, 0⟩ ⟨0, 17⟩ [
      node "relative_import" (some "module_name") (5, 8) ⟨0, 5⟩ ⟨0, 8⟩ [],
      node "dotted_name" (some "name") (16, 17) ⟨0, 16⟩ ⟨0, 17⟩ []]]

/-- An import from the directory above the file's. -/
def upward : ParsedSource where
  file := sourceFile "a/b/m.py" "from ..x import f\n".toList "commit"
  root := climbing.root

def parsedOf (source : ParsedSource) : ParsedFile :=
  source.parsed limits.pythonParser platform

/-- The module `..x`. -/
def twoUp : RelativeModule where
  level := 2
  names := ["x"]
  leveled := by decide
  named := by
    have text : "x".toList = ['x'] := by decide +kernel
    simp only [List.mem_singleton, forall_eq, text]
    decide

/-- The import statement of the file and its module. -/
def importNode (source : ParsedSource) : Node :=
  source.root.namedChildren.headD source.root

def importedModule (source : ParsedSource) : Node :=
  (importNode source).namedChildren.headD source.root

theorem twoUp_written : twoUp.WrittenAs "..x" := by
  have none : ∀ char ∈ ([] : List Char), isGap char = true := nofun
  exact .next none (.next none (.last "x"))

end RelativeSamples

open RelativeSamples in
/-- From the root `from ..x` still gives a candidate, `x.f`. -/
theorem climbing_gives_candidate : ∃ imported ∈ (parsedOf climbing).imports,
    twoUp.WrittenAs (nodeText (importedModule climbing) climbing.file.source) ∧
      imported = importOf (importNode climbing) climbing.file.source ∧
        ¬ ResolvesByDirectory (parsedOf climbing) imported twoUp := by
  let imported := importOf (importNode climbing) climbing.file.source
  have listed : imported ∈ (parsedOf climbing).imports := by decide +kernel
  have text : nodeText (importedModule climbing) climbing.file.source = "..x" := by decide +kernel
  refine ⟨imported, listed, text ▸ twoUp_written, rfl, fun resolves => ?_⟩
  have above : ¬ twoUp.ascend ≤ (directories (parsedOf climbing).filePath).length := by
    decide +kernel
  rw [ResolvesByDirectory, if_neg above] at resolves
  have candidate : directImportCandidates { parsedOf climbing with imports := [imported] } "f" =
      ["x.f"] := by
    decide +kernel
  rw [resolves.1 "f"] at candidate
  cases candidate

open RelativeSamples in
/-- From two directories down it leads to `a.x`. -/
theorem upward_import_resolves :
    ResolvesByDirectory (parsedOf upward) (importOf (importNode upward) upward.file.source)
      twoUp := by
  have named : (parsedOf upward).moduleName = moduleNameOf (parsedOf upward).filePath := by
    decide +kernel
  have child : (importNode upward).childByFieldName "module_name" =
      some (importedModule upward) := by
    rfl
  have text : nodeText (importedModule upward) upward.file.source = "..x" := by decide +kernel
  apply (relative_imports_iff named child (text ▸ twoUp_written)).mpr
  rw [FollowsDirectory, if_pos (by decide +kernel), text]
  refine ⟨by decide, PlainPath.follows ⟨?_, ?_, ?_⟩ _ _⟩
  · decide +kernel
  · decide +kernel
  · exact fun root => absurd root.1 (by decide +kernel)

end Codenaut.Indexing
