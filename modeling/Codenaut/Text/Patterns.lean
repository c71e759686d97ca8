import Mathlib.Data.List.Basic

/-!
# Backtracking patterns

Regular expressions as a backtracking matcher reads them: a pattern gives the ends of
its matches at an index in the order in which it tries them, and the first one counts.
-/

set_option autoImplicit false

namespace Codenaut.Text

inductive Pattern (Letter : Type) where
  | letter (accepts : Letter → Bool)
  | empty
  | followedBy (first second : Pattern Letter)
  | either (first second : Pattern Letter)
  /-- As often as possible, or as rarely, but not more often than the maximum. -/
  | repeated (greedy : Bool) (maximum : Option Nat) (body : Pattern Letter)
  /-- Between a letter of a word and one that is none. -/
  | boundary
  /-- What follows matches, but is not read. -/
  | ahead (body : Pattern Letter)

section Matching

variable {Letter : Type}

/-- The ends after at most `count` matches of a body, each of which reads something. -/
def repetitions (greedy : Bool) (body : Nat → List Nat) : Nat → Nat → List Nat
  | 0, index => [index]
  | count + 1, index =>
      let further := ((body index).filter (· ≠ index)).flatMap (repetitions greedy body count)
      if greedy then further ++ [index] else index :: further

def atBoundary (word : Letter → Bool) (text : List Letter) (index : Nat) : Bool :=
  let before := if index = 0 then none else text[index - 1]?
  before.any word != text[index]?.any word

namespace Pattern

/-- Where the matches at an index end. Each match of a body without maximum reads
something, so there are not more of them than letters left. -/
def ends (word : Letter → Bool) (text : List Letter) : Pattern Letter → Nat → List Nat
  | .letter accepts, index => if text[index]?.any accepts then [index + 1] else []
  | .empty, index => [index]
  | .followedBy first second, index => (first.ends word text index).flatMap (second.ends word text)
  | .either first second, index => first.ends word text index ++ second.ends word text index
  | .repeated greedy maximum body, index =>
      repetitions greedy (body.ends word text) (maximum.getD (text.length - index)) index
  | .boundary, index => if atBoundary word text index then [index] else []
  | .ahead body, index => if (body.ends word text index).isEmpty then [] else [index]

/-- The text of the match at an index. -/
def matchAt (word : Letter → Bool) (pattern : Pattern Letter) (text : List Letter)
    (index : Nat) : Option (List Letter) :=
  (pattern.ends word text index).head?.map fun stop => (text.drop index).take (stop - index)

def sequence (patterns : List (Pattern Letter)) : Pattern Letter :=
  patterns.foldr .followedBy .empty

/-- `body*` -/
def star (body : Pattern Letter) : Pattern Letter := .repeated true none body

/-- `body*?` -/
def lazyStar (body : Pattern Letter) : Pattern Letter := .repeated false none body

/-- `body+` -/
def plus (body : Pattern Letter) : Pattern Letter := .followedBy body body.star

/-- `body{0,maximum}` -/
def atMost (maximum : Nat) (body : Pattern Letter) : Pattern Letter :=
  .repeated true (some maximum) body

/-- `body?` -/
def optional (body : Pattern Letter) : Pattern Letter := body.atMost 1

end Pattern

variable {word : Letter → Bool} {text : List Letter}

theorem matchAt_prefix {pattern : Pattern Letter} {index : Nat} {value : List Letter}
    (matched : pattern.matchAt word text index = some value) : value <+: text.drop index := by
  obtain ⟨stop, -, rfl⟩ := Option.map_eq_some_iff.mp matched
  exact List.take_prefix _ _

/-! ## Unbounded repetition -/

/-- Ends of matches lie between their index and the end of the text. -/
def Within (size : Nat) (body : Nat → List Nat) : Prop :=
  ∀ index ≤ size, ∀ stop ∈ body index, index ≤ stop ∧ stop ≤ size

/-- At the end of the text nothing more is read. -/
theorem repetitions_last {size : Nat} {greedy : Bool} {body : Nat → List Nat}
    (within : Within size body) (count : Nat) :
    repetitions greedy body count size = [size] := by
  cases count with
  | zero => rfl
  | succ count =>
      have stuck : (body size).filter (· ≠ size) = [] := by
        apply List.filter_eq_nil_iff.mpr
        intro stop reached
        have between := within size (Nat.le_refl _) stop reached
        simpa using Nat.le_antisymm between.2 between.1
      rw [repetitions, stuck, List.flatMap_nil]
      cases greedy with
      | true => rfl
      | false => rfl

theorem repetitions_within {size : Nat} {greedy : Bool} {body : Nat → List Nat}
    (within : Within size body) (count : Nat) : Within size (repetitions greedy body count) := by
  induction count with
  | zero =>
      intro index inside stop reached
      rw [repetitions, List.mem_singleton] at reached
      omega
  | succ count ih =>
      intro index inside stop reached
      have either : stop = index ∨
          ∃ next, (next ∈ body index ∧ next ≠ index) ∧
            stop ∈ repetitions greedy body count next := by
        rw [repetitions] at reached
        cases greedy with
        | true => simpa [or_comm] using reached
        | false => simpa using reached
      rcases either with rfl | ⟨next, ⟨member, -⟩, later⟩
      · exact ⟨Nat.le_refl _, inside⟩
      · have first := within index inside next member
        have rest := ih next first.2 stop later
        omega

theorem Pattern.ends_within (pattern : Pattern Letter) :
    Within text.length (pattern.ends word text) := by
  induction pattern with
  | letter accepts =>
      intro index inside stop reached
      rw [ends] at reached
      split at reached
      · next accepted =>
          obtain ⟨found, here, -⟩ := (Option.any_eq_true _ _).mp accepted
          have below := (List.getElem?_eq_some_iff.mp here).1
          rw [List.mem_singleton] at reached
          omega
      · cases reached
  | empty =>
      intro index inside stop reached
      rw [ends, List.mem_singleton] at reached
      omega
  | followedBy first second firstWithin secondWithin =>
      intro index inside stop reached
      rw [ends] at reached
      obtain ⟨middle, member, later⟩ := List.mem_flatMap.mp reached
      have before := firstWithin index inside middle member
      have after := secondWithin middle before.2 stop later
      omega
  | either first second firstWithin secondWithin =>
      intro index inside stop reached
      rw [ends, List.mem_append] at reached
      exact reached.elim (firstWithin index inside stop) (secondWithin index inside stop)
  | repeated greedy maximum body bodyWithin =>
      exact fun index => repetitions_within bodyWithin _ index
  | boundary =>
      intro index inside stop reached
      rw [ends] at reached
      split at reached
      · rw [List.mem_singleton] at reached
        omega
      · cases reached
  | ahead body bodyWithin =>
      intro index inside stop reached
      rw [ends] at reached
      split at reached
      · cases reached
      · rw [List.mem_singleton] at reached
        omega

/-- More matches than letters left find no further ends. -/
theorem repetitions_enough {size : Nat} {greedy : Bool} {body : Nat → List Nat}
    (within : Within size body) {count other index : Nat} (inside : index ≤ size)
    (enough : size - index ≤ count) (otherEnough : size - index ≤ other) :
    repetitions greedy body count index = repetitions greedy body other index := by
  induction count generalizing index other with
  | zero =>
      obtain rfl : index = size := by omega
      rw [repetitions_last within, repetitions_last within]
  | succ count ih =>
      cases other with
      | zero =>
          obtain rfl : index = size := by omega
          rw [repetitions_last within, repetitions_last within]
      | succ other =>
          have further : ((body index).filter (· ≠ index)).flatMap (repetitions greedy body count) =
              ((body index).filter (· ≠ index)).flatMap (repetitions greedy body other) := by
            apply List.flatMap_congr
            intro next member
            obtain ⟨reached, moved⟩ := List.mem_filter.mp member
            have moved := of_decide_eq_true moved
            have between := within index inside next reached
            exact ih between.2 (by omega) (by omega)
          rw [repetitions, repetitions, further]

/-- A repetition without maximum matches its body and then itself, or reads nothing. -/
theorem Pattern.ends_unbounded {greedy : Bool} {body : Pattern Letter} {index : Nat}
    (inside : index ≤ text.length) :
    (Pattern.repeated greedy none body).ends word text index =
      let further := ((body.ends word text index).filter (· ≠ index)).flatMap
        ((Pattern.repeated greedy none body).ends word text)
      if greedy then further ++ [index] else index :: further := by
  have within : Within text.length (body.ends word text) := body.ends_within
  have further : ((body.ends word text index).filter (· ≠ index)).flatMap
        (repetitions greedy (body.ends word text) (text.length - index)) =
      ((body.ends word text index).filter (· ≠ index)).flatMap
        ((Pattern.repeated greedy none body).ends word text) := by
    apply List.flatMap_congr
    intro next member
    have between := within index inside next (List.mem_filter.mp member).1
    rw [ends, Option.getD_none]
    exact repetitions_enough within between.2 (by omega) (Nat.le_refl _)
  have more := @repetitions_enough _ greedy _ within _ _ _ inside (Nat.le_refl _)
    (Nat.le_succ (text.length - index))
  rw [ends, Option.getD_none, more, repetitions, further]

end Matching

end Codenaut.Text
