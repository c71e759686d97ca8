import Codenaut.Text.Separated
import Mathlib.Data.List.DropRight

/-!
# Python texts

The operations of Python's `str` that static analysis uses, on texts as lists
of characters.
-/

set_option autoImplicit false

namespace Codenaut.Text

/-! ## Lines -/

/-- The separators of `str.splitlines`. -/
def lineSeparators : List Char :=
  ['\n', '\r', '\x0b', '\x0c', '\x1c', '\x1d', '\x1e', '\u0085', '\u2028', '\u2029']

/-- The line of the first character is the first line of what follows it. -/
def prependChar (char : Char) : List (List Char) → List (List Char)
  | [] => [[char]]
  | line :: lines => (char :: line) :: lines

/-- `text.splitlines()`. The last line needs no separator. -/
def splitlines : List Char → List (List Char)
  | [] => []
  | '\r' :: '\n' :: rest => [] :: splitlines rest
  | char :: rest =>
      if char ∈ lineSeparators then [] :: splitlines rest
      else prependChar char (splitlines rest)

/-- `text.replace("\r\n", "\n")`. -/
def replaceCarriagePairs : List Char → List Char
  | [] => []
  | '\r' :: '\n' :: rest => '\n' :: replaceCarriagePairs rest
  | char :: rest => char :: replaceCarriagePairs rest

/-- `text.replace("\r\n", "\n").replace("\r", "\n")`. -/
def normalizeNewlines (text : List Char) : List Char :=
  (replaceCarriagePairs text).map fun char => if char = '\r' then '\n' else char

/-! ## Blanks -/

/-- `str.isspace` of one character. -/
def isSpace (char : Char) : Bool :=
  decide (char ∈ ['\t', '\n', '\x0b', '\x0c', '\r', '\x1c', '\x1d', '\x1e', '\x1f', ' ', '\u0085',
    '\u00a0', '\u1680', '\u2028', '\u2029', '\u202f', '\u205f', '\u3000']) ||
    decide ('\u2000' ≤ char ∧ char ≤ '\u200a')

/-- `text.rstrip()`. -/
def rstrip (text : List Char) : List Char :=
  text.rdropWhile isSpace

/-- `text.strip()`. -/
def strip (text : List Char) : List Char :=
  rstrip (text.dropWhile isSpace)

/-- `text.lower()` as far as a comparison with ASCII text sees it: beside the
ASCII capitals only the Kelvin sign lowers to an ASCII letter. -/
def lower (text : String) : String :=
  String.ofList (text.toList.map fun char => if char = '\u212a' then 'k' else char.toLower)

/-! ## Dotted names -/

/-- `text.split(separator)`. -/
def splitText (separator : Char) (text : String) : List String :=
  (text.toList.splitOn separator).map String.ofList

/-- `separator.join(pieces)`. -/
def joinText (separator : Char) (pieces : List String) : String :=
  String.intercalate (String.singleton separator) pieces

/-- `text.rpartition(separator)[0]`. -/
def rpartitionHead (separator : Char) (text : String) : String :=
  String.ofList ((text.toList.reverse.dropWhile (· ≠ separator)).drop 1).reverse

def startsWith (text front : String) : Bool :=
  front.toList.isPrefixOf text.toList

/-- `text.strip(".")`. -/
def stripDots (text : String) : String :=
  String.ofList ((text.toList.dropWhile (· = '.')).rdropWhile (· = '.'))

/-! ## Identifiers -/

/-- The Unicode tables of the interpreter, outside ASCII. -/
structure UnicodeTables where
  xidStart : Char → Bool
  xidContinue : Char → Bool

def UnicodeTables.startsIdentifier (unicode : UnicodeTables) (char : Char) : Bool :=
  if char.val < 128 then char.isAlpha || char == '_' else unicode.xidStart char

def UnicodeTables.continuesIdentifier (unicode : UnicodeTables) (char : Char) : Bool :=
  if char.val < 128 then char.isAlphanum || char == '_' else unicode.xidContinue char

/-- `text.isidentifier()`. -/
def isIdentifier (unicode : UnicodeTables) (text : String) : Bool :=
  match text.toList with
  | [] => false
  | head :: tail => unicode.startsIdentifier head && tail.all unicode.continuesIdentifier

/-! ## POSIX paths -/

/-- The parts of a relative `PurePosixPath`. -/
def posixParts (path : String) : List String :=
  (splitText '/' path).filter fun part => part ≠ "" ∧ part ≠ "."

/-- `PurePosixPath(path).name`. -/
def pathName (path : String) : String :=
  (posixParts path).getLastD ""

/-- The position of the last dot of a file name, when it starts a suffix. -/
def suffixStart (name : List Char) : Option Nat :=
  let tail := name.rtakeWhile (· ≠ '.')
  let before := name.length - tail.length
  if 1 < before ∧ tail ≠ [] then some (before - 1) else none

/-- `PurePosixPath(path).suffix`. -/
def pathSuffix (path : String) : String :=
  match suffixStart (pathName path).toList with
  | some start => String.ofList ((pathName path).toList.drop start)
  | none => ""

/-- `PurePosixPath(path).stem`. -/
def pathStem (path : String) : String :=
  match suffixStart (pathName path).toList with
  | some start => String.ofList ((pathName path).toList.take start)
  | none => pathName path

/-! ## Laws of dotted names -/

/-- The text before the last separator, when the rest is free of it. -/
theorem rpartitionHead_append {separator : Char} {front name : String}
    (free : separator ∉ name.toList) :
    rpartitionHead separator (front ++ String.singleton separator ++ name) = front := by
  have reversed : (front ++ String.singleton separator ++ name).toList.reverse =
      name.toList.reverse ++ separator :: front.toList.reverse := by
    simp
  have dropped : (name.toList.reverse ++ separator :: front.toList.reverse).dropWhile
      (· ≠ separator) = separator :: front.toList.reverse := by
    have passed : ∀ char ∈ name.toList.reverse, decide (char ≠ separator) = true := by
      intro char member
      have apart : char ≠ separator := fun same => free (same ▸ List.mem_reverse.mp member)
      simpa using apart
    rw [List.dropWhile_append_of_pos passed]
    simp
  rw [rpartitionHead, reversed, dropped]
  simp

theorem splitText_join (separator : Char) (text : String) :
    joinText separator (splitText separator text) = text := by
  apply String.toList_inj.mp
  rw [joinText, splitText, String.toList_intercalate, String.toList_singleton, List.map_map]
  have restored : String.toList ∘ String.ofList = id := funext fun chars => String.toList_ofList
  rw [restored, List.map_id, List.intercalate_splitOn]

theorem splitText_free {separator : Char} {text piece : String}
    (member : piece ∈ splitText separator text) : separator ∉ piece.toList := by
  obtain ⟨chars, inside, rfl⟩ := List.mem_map.mp member
  rw [String.toList_ofList]
  exact not_mem_of_mem_splitOn inside

theorem eq_of_splitText_singleton {separator : Char} {text name : String}
    (split : splitText separator text = [name]) : text = name := by
  have joined := splitText_join separator text
  rw [split] at joined
  simpa [joinText] using joined.symm

theorem mem_of_splitText_pair {separator : Char} {text head next : String} {tail : List String}
    (split : splitText separator text = head :: next :: tail) : separator ∈ text.toList := by
  have joined := splitText_join separator text
  rw [split, joinText, String.intercalate_cons_cons] at joined
  rw [← joined]
  simp

/-! ## Identifiers -/

/-- An identifier holds no dot. -/
theorem not_isIdentifier_of_dot (unicode : UnicodeTables) {text : String}
    (dot : '.' ∈ text.toList) : isIdentifier unicode text = false := by
  have continues : unicode.continuesIdentifier '.' = false := rfl
  have starts : unicode.startsIdentifier '.' = false := rfl
  unfold isIdentifier
  split
  · rfl
  case h_2 head tail chars =>
    rw [chars] at dot
    rcases List.mem_cons.mp dot with same | later
    · rw [← same, starts, Bool.false_and]
    · have stopped : tail.all unicode.continuesIdentifier = false := by
        rw [List.all_eq_false]
        exact ⟨'.', later, by simp [continues]⟩
      rw [stopped, Bool.and_false]

end Codenaut.Text
