import Codenaut.Text.Patterns
import Mathlib.Data.List.Chain
import Mathlib.Logic.Function.Iterate

/-!
# Highlighted Python

The tokenizer of displayed source (`src/utils/highlight.ts`). A text is a list of UTF-16
code units, as JavaScript's are. Whatever the patterns match, the tokens of a source are
the source, none of them is empty, no two plain ones are next to each other, and the
loop ends.
-/

set_option autoImplicit false

namespace Codenaut.Frontend

open Codenaut.Text

/-! ## Texts and patterns -/

/-- The UTF-16 code units of a text. -/
def codeUnits (text : String) : List UInt16 :=
  text.toList.flatMap fun char =>
    if char.toNat < 0x10000 then [char.toNat.toUInt16]
    else [(0xD800 + (char.toNat - 0x10000) / 0x400).toUInt16,
      (0xDC00 + (char.toNat - 0x10000) % 0x400).toUInt16]

def among (units : String) (unit : UInt16) : Bool := unit ∈ codeUnits units

def inRange (first last : Char) (unit : UInt16) : Bool :=
  decide (first.toNat ≤ unit.toNat ∧ unit.toNat ≤ last.toNat)

/-- `\d` -/
def isDigitUnit (unit : UInt16) : Bool := inRange '0' '9' unit

/-- `[A-Za-z_]` -/
def isNameStart (unit : UInt16) : Bool :=
  inRange 'A' 'Z' unit || inRange 'a' 'z' unit || among "_" unit

/-- `\w` -/
def isWordUnit (unit : UInt16) : Bool := isNameStart unit || isDigitUnit unit

def isLineTerminator (unit : UInt16) : Bool := among "\n\r\u2028\u2029" unit

/-- `\s` -/
def isSpaceUnit (unit : UInt16) : Bool :=
  isLineTerminator unit || among "\t\u000b\u000c \u00a0\ufeff\u1680\u202f\u205f\u3000" unit ||
    inRange '\u2000' '\u200a' unit

/-- The units of the text in their order. -/
def literal (text : String) : Pattern UInt16 :=
  .sequence ((codeUnits text).map fun expected => .letter (· == expected))

/-- What `exec` gives: where the match is, and its text. -/
structure RegExpMatch where
  index : Nat
  value : List UInt16
  deriving DecidableEq, Repr

/-- A regular expression; `exec` is given `lastIndex` too. -/
structure RegExp where
  exec : List UInt16 → Nat → Option RegExpMatch
  reads : ∀ {source lastIndex result}, exec source lastIndex = some result →
    result.value <+: source.drop result.index

/-- With the flag `y` a match is at `lastIndex`. -/
def stickyExec (pattern : Pattern UInt16) (source : List UInt16) (lastIndex : Nat) :
    Option RegExpMatch :=
  if lastIndex > source.length then none
  else (pattern.matchAt isWordUnit source lastIndex).map fun value => ⟨lastIndex, value⟩

def sticky (pattern : Pattern UInt16) : RegExp where
  exec := stickyExec pattern
  reads := by
    intro source lastIndex result found
    unfold stickyExec at found
    split at found
    · cases found
    · obtain ⟨value, matched, rfl⟩ := Option.map_eq_some_iff.mp found
      exact matchAt_prefix matched

/-! ## Tables -/

inductive TokenKind where
  | plain
  | keyword
  | string
  | comment
  | number
  | function
  deriving DecidableEq, Repr

structure HighlightToken where
  value : List UInt16
  kind : TokenKind
  deriving DecidableEq, Repr

def pythonKeywords : List (List UInt16) :=
  ["and", "as", "assert", "async", "await", "break", "class", "continue", "def", "del", "elif",
    "else", "except", "finally", "for", "from", "global", "if", "import", "in", "is", "lambda",
    "nonlocal", "not", "or", "pass", "raise", "return", "try", "while", "with", "yield", "None",
    "True", "False", "self", "cls"].map codeUnits

structure HighlightPattern where
  kind : TokenKind
  pattern : RegExp

/-- `#[^\n]*` -/
def commentPattern : Pattern UInt16 :=
  .sequence [literal "#", .star (.letter fun unit => !among "\n" unit)]

/-- `"""[\s\S]*?"""` with the given quotes. -/
def longString (quotes : String) : Pattern UInt16 :=
  .sequence [literal quotes, .lazyStar (.letter fun _ => true), literal quotes]

/-- `"(?:\\.|[^"\\\n])*"` with the given quote. -/
def shortString (quote : String) : Pattern UInt16 :=
  .sequence [literal quote,
    .star (.either
      (.sequence [literal "\\", .letter fun unit => !isLineTerminator unit])
      (.letter fun unit => !among quote unit && !among "\\\n" unit)),
    literal quote]

/-- `(?:[rbfu]{0,2})(...)` with the long and the short strings of both quotes. -/
def stringPattern : Pattern UInt16 :=
  .sequence [.atMost 2 (.letter (among "rbfu")),
    .either (longString "\"\"\"")
      (.either (longString "'''") (.either (shortString "\"") (shortString "'")))]

/-- `\d[\d_]*` -/
def digitsPattern : Pattern UInt16 :=
  .sequence [.letter isDigitUnit, .star (.letter fun unit => isDigitUnit unit || among "_" unit)]

/-- `\b\d[\d_]*(?:\.\d[\d_]*)?(?:[eE][+-]?\d+)?\b` -/
def numberPattern : Pattern UInt16 :=
  .sequence [.boundary, digitsPattern, .optional (.sequence [literal ".", digitsPattern]),
    .optional (.sequence [.letter (among "eE"), .optional (.letter (among "+-")),
      .plus (.letter isDigitUnit)]),
    .boundary]

/-- `\b[A-Za-z_][A-Za-z0-9_]*` -/
def namePattern : Pattern UInt16 :=
  .sequence [.boundary, .letter isNameStart, .star (.letter isWordUnit)]

/-- `\b[A-Za-z_][A-Za-z0-9_]*(?=\s*\()` -/
def functionPattern : Pattern UInt16 :=
  .sequence [namePattern, .ahead (.sequence [.star (.letter isSpaceUnit), literal "("])]

/-- `\b[A-Za-z_][A-Za-z0-9_]*\b` -/
def plainPattern : Pattern UInt16 := .sequence [namePattern, .boundary]

/-- `PATTERNS` -/
def highlightPatterns : List HighlightPattern :=
  [⟨.comment, sticky commentPattern⟩, ⟨.string, sticky stringPattern⟩,
    ⟨.number, sticky numberPattern⟩, ⟨.function, sticky functionPattern⟩,
    ⟨.plain, sticky plainPattern⟩]

def maxHighlightChars : Nat := 20000

/-! ## The scan -/

/-- The match of a pattern at an index, unless it is elsewhere or empty. -/
def candidate (source : List UInt16) (index : Nat) (entry : HighlightPattern) :
    Option (TokenKind × List UInt16) :=
  match entry.pattern.exec source index with
  | none => none
  | some result =>
      if result.index ≠ index ∨ result.value.length = 0 then none
      else some (entry.kind, result.value)

def resolved (kind : TokenKind) (value : List UInt16) : TokenKind :=
  if kind = .plain ∧ value ∈ pythonKeywords then .keyword
  else if kind = .function ∧ value ∈ pythonKeywords then .keyword
  else kind

/-- The variables of `tokenizePython`. -/
structure Scanner where
  tokens : List HighlightToken := []
  index : Nat := 0
  pending : List UInt16 := []
  deriving DecidableEq, Repr

namespace Scanner

def flushPending (scanner : Scanner) : Scanner :=
  if scanner.pending ≠ [] then
    { scanner with
      tokens := scanner.tokens ++ [⟨scanner.pending, .plain⟩]
      pending := [] }
  else scanner

/-- A plain match is buffered, another one is a token of its own. -/
def take (scanner : Scanner) (kind : TokenKind) (value : List UInt16) : Scanner :=
  let taken :=
    if kind = .plain then { scanner with pending := scanner.pending ++ value }
    else
      { scanner.flushPending with tokens := scanner.flushPending.tokens ++ [⟨value, kind⟩] }
  { taken with index := scanner.index + value.length }

/-- One iteration; the first pattern that matches decides. -/
def step (patterns : List HighlightPattern) (source : List UInt16) (scanner : Scanner) :
    Scanner :=
  match patterns.findSome? (candidate source scanner.index) with
  | some (kind, value) => scanner.take (resolved kind value) value
  | none =>
      { scanner with
        pending := scanner.pending ++ source[scanner.index]?.toList
        index := scanner.index + 1 }

end Scanner

section Progress

variable {patterns : List HighlightPattern} {source : List UInt16} {scanner : Scanner}

theorem candidate_reads {entry : HighlightPattern} {index : Nat} {kind : TokenKind}
    {value : List UInt16} (found : candidate source index entry = some (kind, value)) :
    value ≠ [] ∧ value <+: source.drop index := by
  unfold candidate at found
  split at found
  · cases found
  · next result matched =>
      split at found
      · cases found
      · next accepted =>
          cases found
          simp only [ne_eq, not_or, Decidable.not_not, List.length_eq_zero_iff] at accepted
          exact ⟨accepted.2, accepted.1 ▸ entry.pattern.reads matched⟩

/-- An iteration takes some of what is left, the next unit if nothing else. -/
theorem step_takes (inside : scanner.index < source.length) :
    ∃ kind value, value ≠ [] ∧ value <+: source.drop scanner.index ∧
      scanner.step patterns source = scanner.take kind value := by
  unfold Scanner.step
  split
  · next kind value found =>
      obtain ⟨entry, -, matched⟩ := List.exists_of_findSome?_eq_some found
      obtain ⟨nonempty, read⟩ := candidate_reads matched
      exact ⟨_, value, nonempty, read, rfl⟩
  · refine ⟨.plain, [source[scanner.index]], List.cons_ne_nil _ _, ?_, ?_⟩
    · rw [List.drop_eq_getElem_cons inside]
      exact List.prefix_append [_] _
    · rw [List.getElem?_eq_getElem inside]
      rfl

theorem step_index (inside : scanner.index < source.length) :
    scanner.index < (scanner.step patterns source).index ∧
      (scanner.step patterns source).index ≤ source.length := by
  obtain ⟨kind, value, nonempty, read, taken⟩ := @step_takes patterns source scanner inside
  have positive := List.length_pos_iff.mpr nonempty
  have bounded := read.length_le
  rw [List.length_drop] at bounded
  rw [taken]
  simp only [Scanner.take]
  omega

end Progress

/-- The loop of `tokenizePython`. -/
def Scanner.scan (patterns : List HighlightPattern) (source : List UInt16) (scanner : Scanner) :
    Scanner :=
  if _inside : scanner.index < source.length then
    (scanner.step patterns source).scan patterns source
  else scanner
termination_by source.length - scanner.index
decreasing_by
  have progress := @step_index patterns source scanner _inside
  omega

/-- `tokenizePython` with any table of patterns. -/
def tokenizeWith (patterns : List HighlightPattern) (source : List UInt16) :
    List HighlightToken :=
  if source.length > maxHighlightChars then [⟨source, .plain⟩]
  else (Scanner.scan patterns source {}).flushPending.tokens

def tokenizePython (source : List UInt16) : List HighlightToken :=
  tokenizeWith highlightPatterns source

/-! ## Nothing is lost -/

def Apart (first second : HighlightToken) : Prop :=
  ¬ (first.kind = .plain ∧ second.kind = .plain)

/-- The tokens cut a text. -/
structure Lossless (source : List UInt16) (tokens : List HighlightToken) : Prop where
  whole : tokens.flatMap (·.value) = source
  nonempty : ∀ token ∈ tokens, token.value ≠ []
  apart : tokens.IsChain Apart

/-- What the iterations keep: tokens and buffer are what was read, and the buffer
is not next to a plain token. -/
structure Scanning (source : List UInt16) (scanner : Scanner) : Prop where
  read : scanner.tokens.flatMap (·.value) ++ scanner.pending = source.take scanner.index
  inside : scanner.index ≤ source.length
  nonempty : ∀ token ∈ scanner.tokens, token.value ≠ []
  apart : scanner.tokens.IsChain Apart
  last : ∀ token ∈ scanner.tokens.getLast?, token.kind ≠ .plain

/-- The loop ends after this many iterations, in this state. -/
structure LoopEnds (patterns : List HighlightPattern) (source : List UInt16)
    (scanner last : Scanner) (iterations : Nat) : Prop where
  guarded : ∀ earlier < iterations,
    ((Scanner.step patterns source)^[earlier] scanner).index < source.length
  reached : (Scanner.step patterns source)^[iterations] scanner = last
  ended : ¬ last.index < source.length

section Scans

variable {patterns : List HighlightPattern} {source : List UInt16} {scanner : Scanner}

/-- The loop takes at most one iteration for each unit that is left. -/
theorem scan_ends (patterns : List HighlightPattern) (source : List UInt16) (scanner : Scanner) :
    ∃ iterations ≤ source.length - scanner.index,
      LoopEnds patterns source scanner (scanner.scan patterns source) iterations := by
  induction scanner using Scanner.scan.induct patterns source with
  | case1 scanner inside ih =>
      obtain ⟨iterations, bounded, loop⟩ := ih
      have progress := @step_index patterns source scanner inside
      refine ⟨iterations + 1, by omega, ?_, ?_, ?_⟩
      · intro earlier before
        cases earlier with
        | zero => exact inside
        | succ earlier => exact loop.guarded earlier (by omega)
      · rw [Scanner.scan, dif_pos inside]
        exact loop.reached
      · rw [Scanner.scan, dif_pos inside]
        exact loop.ended
  | case2 scanner outside =>
      refine ⟨0, Nat.zero_le _, ?_, ?_, ?_⟩
      · intro earlier before
        cases before
      · rw [Scanner.scan, dif_neg outside]
        rfl
      · rw [Scanner.scan, dif_neg outside]
        exact outside

theorem Scanning.start (source : List UInt16) : Scanning source {} where
  read := rfl
  inside := Nat.zero_le _
  nonempty := fun _ member => by cases member
  apart := .nil
  last := fun _ member => by cases member

theorem flushPending_pending (scanner : Scanner) : scanner.flushPending.pending = [] := by
  unfold Scanner.flushPending
  split
  · rfl
  · next empty => exact Decidable.not_not.mp empty

/-- With the buffer flushed the tokens cut what was read. -/
theorem Scanning.flushed (scanning : Scanning source scanner) :
    Lossless (source.take scanner.index) scanner.flushPending.tokens := by
  unfold Scanner.flushPending
  split
  · next pending =>
      refine ⟨?_, ?_, ?_⟩
      · rw [← scanning.read, List.flatMap_append]
        simp
      · intro token member
        rcases List.mem_append.mp member with old | new
        · exact scanning.nonempty token old
        · rw [List.mem_singleton.mp new]
          exact pending
      · refine List.isChain_append.mpr ⟨scanning.apart, .singleton _, ?_⟩
        intro before member next _ plain
        exact scanning.last before member plain.1
  · next empty =>
      have read := scanning.read
      rw [Decidable.not_not.mp empty, List.append_nil] at read
      exact ⟨read, scanning.nonempty, scanning.apart⟩

theorem take_further {index : Nat} {value : List UInt16} (ahead : value <+: source.drop index) :
    source.take index ++ value = source.take (index + value.length) := by
  rw [List.take_add, ← List.prefix_iff_eq_take.mp ahead]

theorem Scanning.take {kind : TokenKind} {value : List UInt16}
    (scanning : Scanning source scanner) (nonempty : value ≠ [])
    (ahead : value <+: source.drop scanner.index) :
    Scanning source (scanner.take kind value) := by
  have bounded := ahead.length_le
  rw [List.length_drop] at bounded
  have inside := scanning.inside
  unfold Scanner.take
  split
  · refine ⟨?_, by dsimp only; omega, scanning.nonempty, scanning.apart, scanning.last⟩
    rw [← take_further ahead, ← scanning.read, List.append_assoc]
  · next colored =>
      have cut := scanning.flushed
      refine ⟨?_, by dsimp only; omega, ?_, ?_, ?_⟩
      · dsimp only
        rw [List.flatMap_append, cut.whole, flushPending_pending, List.append_nil,
          ← take_further ahead]
        simp
      · intro token member
        rcases List.mem_append.mp member with old | new
        · exact cut.nonempty token old
        · rw [List.mem_singleton.mp new]
          exact nonempty
      · refine List.isChain_append.mpr ⟨cut.apart, .singleton _, ?_⟩
        intro before _ next member plain
        cases member
        exact colored plain.2
      · intro token member
        rw [List.getLast?_concat] at member
        cases member
        exact colored

theorem Scanning.step (scanning : Scanning source scanner)
    (inside : scanner.index < source.length) :
    Scanning source (scanner.step patterns source) := by
  obtain ⟨kind, value, nonempty, ahead, taken⟩ := @step_takes patterns source scanner inside
  rw [taken]
  exact scanning.take nonempty ahead

theorem Scanning.scan (scanning : Scanning source scanner) :
    Scanning source (scanner.scan patterns source) := by
  induction scanner using Scanner.scan.induct patterns source with
  | case1 scanner inside ih =>
      rw [Scanner.scan, dif_pos inside]
      exact ih (scanning.step inside)
  | case2 scanner outside =>
      rw [Scanner.scan, dif_neg outside]
      exact scanning

theorem tokenizeWith_lossless (patterns : List HighlightPattern) (source : List UInt16) :
    Lossless source (tokenizeWith patterns source) := by
  unfold tokenizeWith
  split
  · next large =>
      refine ⟨List.append_nil source, ?_, .singleton _⟩
      intro token member empty
      rw [List.mem_singleton.mp member] at empty
      rw [show source = [] from empty] at large
      exact Nat.not_lt_zero _ large
  · have scanning := @Scanning.scan patterns _ _ (Scanning.start source)
    obtain ⟨_, -, loop⟩ := scan_ends patterns source {}
    have all : source.length ≤ (Scanner.scan patterns source {}).index := Nat.not_lt.mp loop.ended
    have cut := scanning.flushed
    rw [List.take_of_length_le all] at cut
    exact cut

end Scans

/-- For the patterns of `tokenizePython`, and for any others. -/
theorem highlight_lossless :
    (∀ source, Lossless source (tokenizePython source)) ∧
      ∀ patterns source,
        Lossless source (tokenizeWith patterns source) ∧
          ∃ iterations ≤ source.length,
            LoopEnds patterns source {} (Scanner.scan patterns source {}) iterations :=
  ⟨tokenizeWith_lossless highlightPatterns, fun patterns source =>
    ⟨tokenizeWith_lossless patterns source, scan_ends patterns source {}⟩⟩

/-- A string without an end. -/
example :
    tokenizePython (codeUnits "if (x):\n \"a") =
      [⟨codeUnits "if", .keyword⟩, ⟨codeUnits " (x):\n \"a", .plain⟩] := by
  decide +kernel

end Codenaut.Frontend
