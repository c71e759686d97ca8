import Mathlib.Data.List.Basic
import Mathlib.Data.List.Chain
import Mathlib.Data.List.Flatten

/-!
# Packing of spans

Spans of numbers in order, cut into blocks of neighbours. The hulls of the
blocks keep the order, hold every span and, where neighbours adjoin, nothing
else. Greedy packing extends a block while its hull fits.
-/

set_option autoImplicit false

namespace Codenaut.Spans

/-- The first and the last number of a span. -/
abbrev Span : Type := Nat × Nat

def Within (number : Nat) (span : Span) : Prop :=
  span.1 ≤ number ∧ number ≤ span.2

instance (number : Nat) (span : Span) : Decidable (Within number span) :=
  inferInstanceAs (Decidable (_ ∧ _))

/-- Spans in order. A span may start at the last number of the one before. -/
structure Ordered (spans : List Span) : Prop where
  proper : ∀ span ∈ spans, span.1 ≤ span.2
  sorted : spans.Pairwise fun left right => left.2 ≤ right.1

/-- Spans in order, no two with a common number. -/
structure Separated (spans : List Span) : Prop where
  proper : ∀ span ∈ spans, span.1 ≤ span.2
  apart : spans.Pairwise fun left right => left.2 < right.1

/-- No number lies between a span and the next. -/
def Adjoining (spans : List Span) : Prop :=
  spans.IsChain fun left right => right.1 ≤ left.2 + 1

/-- From the start of the first span to the end of the last. -/
def hull (block : List Span) : Span :=
  ((block.headD (0, 0)).1, (block.getLastD (0, 0)).2)

/-- The blocks are neighbours, in order and without rest. -/
structure Partition (blocks : List (List Span)) (spans : List Span) : Prop where
  joined : blocks.flatten = spans
  filled : ∀ block ∈ blocks, block ≠ []

section Blocks

variable {spans block : List Span} {blocks : List (List Span)}

theorem Separated.ordered (separated : Separated spans) : Ordered spans :=
  ⟨separated.proper, separated.apart.imp Nat.le_of_lt⟩

theorem Ordered.sublist (ordered : Ordered spans) (inside : block.Sublist spans) :
    Ordered block :=
  ⟨fun span member => ordered.proper span (inside.mem member), ordered.sorted.sublist inside⟩

theorem Separated.sublist (separated : Separated spans) (inside : block.Sublist spans) :
    Separated block :=
  ⟨fun span member => separated.proper span (inside.mem member), separated.apart.sublist inside⟩

/-- A number in one of the spans is in no other. -/
theorem Separated.count_within (separated : Separated spans) {number : Nat}
    (within : ∃ span ∈ spans, Within number span) :
    spans.countP (fun span => Within number span) = 1 := by
  induction spans with
  | nil => simp at within
  | cons first rest ih =>
      obtain ⟨after, apart⟩ := List.pairwise_cons.mp separated.apart
      have later : Separated rest := separated.sublist (List.sublist_cons_self first rest)
      rw [List.countP_cons]
      by_cases here : Within number first
      · have others : rest.countP (fun span => Within number span) = 0 := by
          rw [List.countP_eq_zero]
          intro span member found
          have starts : span.1 ≤ number := (of_decide_eq_true found).1
          have ends := here.2
          have less := after span member
          omega
        rw [others, if_pos (decide_eq_true here)]
      · rw [List.exists_mem_cons_iff, or_iff_right here] at within
        rw [ih later within, if_neg fun found => here (of_decide_eq_true found)]

@[simp] theorem hull_singleton (span : Span) : hull [span] = span := rfl

@[simp] theorem hull_fst (first : Span) (rest : List Span) : (hull (first :: rest)).1 = first.1 :=
  rfl

theorem hull_append_singleton (front : List Span) (last : Span) :
    (hull (front ++ [last])).2 = last.2 := by
  simp [hull]

theorem hull_fst_append (filled : block ≠ []) (more : List Span) :
    (hull (block ++ more)).1 = (hull block).1 := by
  cases block with
  | nil => exact absurd rfl filled
  | cons first rest => rfl

/-- The ends of a hull are those of its first and its last span. -/
theorem hull_ends (filled : block ≠ []) : ∃ first ∈ block.head?, ∃ last ∈ block.getLast?,
    hull block = (first.1, last.2) := by
  refine ⟨block.head filled, List.head?_eq_some_head filled, block.getLast filled,
    List.getLast?_eq_some_getLast filled, ?_⟩
  cases block with
  | nil => exact absurd rfl filled
  | cons first rest =>
      simp only [hull, List.headD_cons, List.head_cons]
      rw [List.getLastD_eq_getLast?, List.getLast?_eq_some_getLast filled, Option.getD_some]

/-- A span of a block lies in its hull. -/
theorem Ordered.le_hull (ordered : Ordered block) {span : Span} (member : span ∈ block) :
    (hull block).1 ≤ span.1 ∧ span.2 ≤ (hull block).2 := by
  induction block generalizing span with
  | nil => cases member
  | cons first rest ih =>
      obtain ⟨after, sorted⟩ := List.pairwise_cons.mp ordered.sorted
      have proper := ordered.proper first (.head _)
      have later : Ordered rest := ordered.sublist (List.sublist_cons_self first rest)
      cases rest with
      | nil =>
          rw [List.mem_singleton.mp member]
          exact ⟨le_refl _, le_refl _⟩
      | cons second rest =>
          have tail : (hull (first :: second :: rest)).2 = (hull (second :: rest)).2 := by
            simp [hull, List.getLastD]
          have ends := ih later (.head _)
          have between := after second (.head _)
          have secondProper := later.proper second (.head _)
          rw [tail, hull_fst]
          rcases List.mem_cons.mp member with rfl | inside
          · exact ⟨le_refl _, by omega⟩
          · obtain ⟨starts, stops⟩ := ih later inside
            rw [hull_fst] at starts
            exact ⟨by omega, stops⟩

theorem Ordered.hull_proper (ordered : Ordered block) (filled : block ≠ []) :
    (hull block).1 ≤ (hull block).2 := by
  cases block with
  | nil => exact absurd rfl filled
  | cons first rest =>
      have inside := ordered.le_hull (List.mem_cons_self : first ∈ first :: rest)
      have proper := ordered.proper first (.head _)
      omega

/-- Where neighbours adjoin, a number in the hull is in one of the spans. -/
theorem Adjoining.within_hull (adjoining : Adjoining block) (filled : block ≠ []) {number : Nat}
    (within : Within number (hull block)) : ∃ span ∈ block, Within number span := by
  induction block with
  | nil => exact absurd rfl filled
  | cons first rest ih =>
      by_cases here : number ≤ first.2
      · exact ⟨first, .head _, within.1, here⟩
      · cases rest with
        | nil => exact absurd within.2 here
        | cons second rest =>
            obtain ⟨next, later⟩ := List.isChain_cons_cons.mp adjoining
            have tail : (hull (first :: second :: rest)).2 = (hull (second :: rest)).2 := by
              simp [hull, List.getLastD]
            have inside : Within number (hull (second :: rest)) :=
              ⟨by rw [hull_fst]; omega, tail ▸ within.2⟩
            obtain ⟨span, member, found⟩ := ih later (List.cons_ne_nil _ _) inside
            exact ⟨span, .tail _ member, found⟩

end Blocks

/-! ## Partitions -/

namespace Partition

variable {blocks : List (List Span)} {spans : List Span}

theorem ordered (partition : Partition blocks spans) (ordered : Ordered spans)
    {block : List Span} (member : block ∈ blocks) : Ordered block :=
  ordered.sublist (partition.joined ▸ List.sublist_flatten_of_mem member)

/-- A block and a later one hold spans in this order. -/
theorem pair_sublist (partition : Partition blocks spans) {left right : List Span}
    (later : [left, right].Sublist blocks) {first second : Span} (inLeft : first ∈ left)
    (inRight : second ∈ right) : [first, second].Sublist spans := by
  have joined := later.flatten
  rw [partition.joined] at joined
  refine List.Sublist.trans ?_ joined
  have leftOne := List.singleton_sublist.mpr inLeft
  have rightOne := List.singleton_sublist.mpr inRight
  simpa using leftOne.append rightOne

/-- Every span lies in a hull. -/
theorem covers (partition : Partition blocks spans) (ordered : Ordered spans) {span : Span}
    (member : span ∈ spans) :
    ∃ whole ∈ blocks.map hull, whole.1 ≤ span.1 ∧ span.2 ≤ whole.2 := by
  rw [← partition.joined] at member
  obtain ⟨block, listed, inside⟩ := List.mem_flatten.mp member
  exact ⟨hull block, List.mem_map_of_mem listed,
    (partition.ordered ordered listed).le_hull inside⟩

/-- Hulls come in order, and meet only where two spans do. -/
theorem hulls_meet (partition : Partition blocks spans) (ordered : Ordered spans) :
    (blocks.map hull).Pairwise fun left right => left.2 ≤ right.1 ∧
      (left.2 = right.1 → ∃ first second, [first, second].Sublist spans ∧
        first.2 = left.2 ∧ second.1 = left.2) := by
  rw [List.pairwise_map]
  apply List.pairwise_iff_forall_sublist.mpr
  intro left right later
  obtain ⟨_, _, last, ends, leftHull⟩ := hull_ends
    (partition.filled left (later.mem (by simp)))
  obtain ⟨first, starts, _, _, rightHull⟩ := hull_ends
    (partition.filled right (later.mem (by simp)))
  have pair := partition.pair_sublist later (List.mem_of_getLast? ends)
    (List.mem_of_head? starts)
  have apart := List.pairwise_pair.mp (ordered.sorted.sublist pair)
  rw [leftHull, rightHull]
  exact ⟨apart, fun meet => ⟨last, first, pair, rfl, meet.symm⟩⟩

theorem hulls_ordered (partition : Partition blocks spans) (ordered : Ordered spans) :
    Ordered (blocks.map hull) where
  proper := by
    intro whole member
    obtain ⟨block, listed, rfl⟩ := List.mem_map.mp member
    exact (partition.ordered ordered listed).hull_proper (partition.filled block listed)
  sorted := (partition.hulls_meet ordered).imp fun both => both.1

/-- Hulls stay within what holds the spans. -/
theorem hulls_inside (partition : Partition blocks spans) {outer : Span}
    (inside : ∀ span ∈ spans, outer.1 ≤ span.1 ∧ span.2 ≤ outer.2) :
    ∀ whole ∈ blocks.map hull, outer.1 ≤ whole.1 ∧ whole.2 ≤ outer.2 := by
  intro whole member
  obtain ⟨block, listed, rfl⟩ := List.mem_map.mp member
  obtain ⟨first, starts, last, ends, same⟩ := hull_ends (partition.filled block listed)
  have held : ∀ span ∈ block, span ∈ spans := fun span here =>
    partition.joined ▸ List.mem_flatten.mpr ⟨block, listed, here⟩
  rw [same]
  exact ⟨(inside first (held first (List.mem_of_head? starts))).1,
    (inside last (held last (List.mem_of_getLast? ends))).2⟩

theorem hulls_separated (partition : Partition blocks spans) (separated : Separated spans) :
    Separated (blocks.map hull) where
  proper := (partition.hulls_ordered separated.ordered).proper
  apart := by
    refine (partition.hulls_meet separated.ordered).imp fun both => ?_
    refine Nat.lt_of_le_of_ne both.1 fun meet => ?_
    obtain ⟨first, second, pair, ends, starts⟩ := both.2 meet
    have apart := List.pairwise_pair.mp (separated.apart.sublist pair)
    omega

end Partition

/-! ## Greedy packing -/

section Packing

variable (fits : Nat → Nat → Bool)

/-- The spans that are left, while the group from `start` to `stop` is open. -/
def groupsFrom (start stop : Nat) : List Span → List Span
  | [] => [(start, stop)]
  | span :: rest =>
      if fits start span.2 then groupsFrom start span.2 rest
      else (start, stop) :: groupsFrom span.1 span.2 rest

/-- Each group takes the spans on as long as it fits. -/
def groups : List Span → List Span
  | [] => []
  | span :: rest => groupsFrom fits span.1 span.2 rest

/-- The groups are the hulls of blocks that fit or hold one span. -/
structure Packed (blocks : List (List Span)) (spans packed : List Span) : Prop
    extends Partition blocks spans where
  hulls : packed = blocks.map hull
  fitting : ∀ block ∈ blocks, (∃ span, block = [span]) ∨
    fits (hull block).1 (hull block).2 = true

variable {fits}

theorem groupsFrom_packed {opened : List Span} (filled : opened ≠ [])
    (fitting : (∃ span, opened = [span]) ∨ fits (hull opened).1 (hull opened).2 = true)
    (spans : List Span) : ∃ blocks, Packed fits blocks (opened ++ spans)
      (groupsFrom fits (hull opened).1 (hull opened).2 spans) := by
  induction spans generalizing opened with
  | nil =>
      refine ⟨[opened], ⟨by simp, by simpa using filled⟩, rfl, ?_⟩
      simpa using fitting
  | cons span rest ih =>
      rw [groupsFrom]
      split
      case isTrue fit =>
        have starts : (hull (opened ++ [span])).1 = (hull opened).1 := hull_fst_append filled _
        have ends : (hull (opened ++ [span])).2 = span.2 := hull_append_singleton opened span
        have more := @ih (opened ++ [span]) (by simp) (.inr (by rw [starts, ends]; exact fit))
        rwa [starts, ends, List.append_assoc, List.singleton_append] at more
      case isFalse =>
        obtain ⟨blocks, packed⟩ := @ih [span] (by simp) (.inl ⟨span, rfl⟩)
        rw [hull_singleton] at packed
        refine ⟨opened :: blocks, ⟨?_, ?_⟩, ?_, ?_⟩
        · rw [List.flatten_cons, packed.joined, List.singleton_append]
        · exact List.forall_mem_cons.mpr ⟨filled, packed.filled⟩
        · rw [List.map_cons, ← packed.hulls]
        · exact List.forall_mem_cons.mpr ⟨fitting, packed.fitting⟩

theorem groups_packed (spans : List Span) :
    ∃ blocks, Packed fits blocks spans (groups fits spans) := by
  cases spans with
  | nil => exact ⟨[], ⟨rfl, by simp⟩, rfl, by simp⟩
  | cons span rest => exact groupsFrom_packed (List.cons_ne_nil span []) (.inl ⟨span, rfl⟩) rest

theorem groupsFrom_of_fits (fitting : ∀ start stop, fits start stop = true) (start stop : Nat)
    (spans : List Span) :
    groupsFrom fits start stop spans = [hull ((start, stop) :: spans)] := by
  induction spans generalizing stop with
  | nil => rfl
  | cons span rest ih =>
      rw [groupsFrom, if_pos (fitting start span.2), ih]
      cases rest <;> rfl

/-- Where every group fits there is one. -/
theorem groups_of_fits (fitting : ∀ start stop, fits start stop = true) {spans : List Span}
    (some : spans ≠ []) : groups fits spans = [hull spans] := by
  cases spans with
  | nil => exact absurd rfl some
  | cons span rest => exact groupsFrom_of_fits fitting span.1 span.2 rest

theorem Packed.append {left right leftPacked rightPacked : List Span}
    {leftBlocks rightBlocks : List (List Span)} (first : Packed fits leftBlocks left leftPacked)
    (second : Packed fits rightBlocks right rightPacked) :
    Packed fits (leftBlocks ++ rightBlocks) (left ++ right) (leftPacked ++ rightPacked) where
  joined := by rw [List.flatten_append, first.joined, second.joined]
  filled := List.forall_mem_append.mpr ⟨first.filled, second.filled⟩
  hulls := by rw [List.map_append, first.hulls, second.hulls]
  fitting := List.forall_mem_append.mpr ⟨first.fitting, second.fitting⟩

/-- Packing part by part, where the spans of each part adjoin. -/
theorem parts_packed {parts : List (List Span)} (adjoining : ∀ part ∈ parts, Adjoining part) :
    ∃ blocks, Packed fits blocks parts.flatten (parts.flatMap (groups fits)) ∧
      ∀ block ∈ blocks, Adjoining block := by
  induction parts with
  | nil => exact ⟨[], ⟨⟨rfl, by simp⟩, rfl, by simp⟩, by simp⟩
  | cons part parts ih =>
      obtain ⟨here, others⟩ := List.forall_mem_cons.mp adjoining
      obtain ⟨first, packed⟩ := @groups_packed fits part
      obtain ⟨rest, restPacked, restAdjoining⟩ := ih others
      refine ⟨first ++ rest, packed.append restPacked,
        List.forall_mem_append.mpr ⟨?_, restAdjoining⟩⟩
      intro block member
      exact here.infix (packed.joined ▸ List.infix_of_mem_flatten member)

end Packing

/-! ## Holding -/

/-- Spans of an outer span, apart and with all its marked numbers. -/
structure Holding (marked : Nat → Prop) (spans : List Span) (outer : Span) : Prop where
  separated : Separated spans
  inside : ∀ span ∈ spans, outer.1 ≤ span.1 ∧ span.2 ≤ outer.2
  held : ∀ number, Within number outer → marked number → ∃ span ∈ spans, Within number span

/-- Spans that hold every number. -/
abbrev Tiles (spans : List Span) (outer : Span) : Prop :=
  Holding (fun _ => True) spans outer

section Held

variable {marked : Nat → Prop} {spans wholes : List Span} {outer : Span}
  {blocks : List (List Span)}

theorem holding_nil (unmarked : ∀ number, Within number outer → ¬marked number) :
    Holding marked [] outer :=
  ⟨⟨by simp, .nil⟩, by simp, fun number within mark => absurd mark (unmarked number within)⟩

theorem holding_singleton (proper : outer.1 ≤ outer.2) : Holding marked [outer] outer :=
  ⟨⟨by simpa using proper, List.pairwise_singleton _ _⟩, by simp,
    fun _ within _ => ⟨outer, .head _, within⟩⟩

theorem Tiles.holding (tiles : Tiles spans outer) : Holding marked spans outer :=
  ⟨tiles.separated, tiles.inside, fun number within _ => tiles.held number within trivial⟩

/-- What the outer span loses at its start is not marked. -/
theorem Holding.widen {first next last : Nat} (before : first ≤ next)
    (between : ∀ number, first ≤ number → number < next → ¬marked number)
    (holding : Holding marked spans (next, last)) : Holding marked spans (first, last) where
  separated := holding.separated
  inside := fun span member =>
    ⟨before.trans (holding.inside span member).1, (holding.inside span member).2⟩
  held := by
    intro number within mark
    have later : next ≤ number := by
      by_contra early
      exact between number within.1 (Nat.not_le.mp early) mark
    exact holding.held number ⟨later, within.2⟩ mark

/-- A span before what holds the rest. -/
theorem Holding.cons {first stop last : Nat} (proper : first ≤ stop) (within : stop ≤ last)
    (holding : Holding marked spans (stop + 1, last)) :
    Holding marked ((first, stop) :: spans) (first, last) where
  separated := by
    refine ⟨List.forall_mem_cons.mpr ⟨proper, holding.separated.proper⟩, ?_⟩
    exact List.pairwise_cons.mpr
      ⟨fun span member => (holding.inside span member).1, holding.separated.apart⟩
  inside := by
    refine List.forall_mem_cons.mpr ⟨⟨le_refl first, within⟩, fun span member => ?_⟩
    obtain ⟨starts, ends⟩ := holding.inside span member
    dsimp only at starts ends ⊢
    omega
  held := by
    intro number inside mark
    rw [List.exists_mem_cons_iff]
    by_cases early : number ≤ stop
    · exact .inl ⟨inside.1, early⟩
    · exact .inr (holding.held number ⟨Nat.not_le.mp early, inside.2⟩ mark)

theorem Holding.hulls (holding : Holding marked spans outer) (partition : Partition blocks spans) :
    Holding marked (blocks.map hull) outer where
  separated := partition.hulls_separated holding.separated
  inside := partition.hulls_inside holding.inside
  held := by
    intro number within mark
    obtain ⟨span, member, found⟩ := holding.held number within mark
    obtain ⟨whole, listed, starts, ends⟩ := partition.covers holding.separated.ordered member
    exact ⟨whole, listed, starts.trans found.1, found.2.trans ends⟩

/-- Spans without marks may go. -/
theorem Holding.filter (holding : Holding marked spans outer) (kept : Span → Bool)
    (dropped : ∀ span ∈ spans, kept span = false → ∀ number, Within number span →
      ¬marked number) : Holding marked (spans.filter kept) outer where
  separated := holding.separated.sublist List.filter_sublist
  inside := fun span member => holding.inside span (List.mem_of_mem_filter member)
  held := by
    intro number within mark
    obtain ⟨span, member, found⟩ := holding.held number within mark
    refine ⟨span, List.mem_filter.mpr ⟨member, ?_⟩, found⟩
    by_contra lost
    exact dropped span member (Bool.not_eq_true _ ▸ lost) number found mark

theorem flatten_inside {parts : List (List Span)}
    (cut : List.Forall₂ (Holding marked) parts wholes) :
    ∀ span ∈ parts.flatten, ∃ whole ∈ wholes, whole.1 ≤ span.1 ∧ span.2 ≤ whole.2 := by
  induction cut with
  | nil => simp
  | cons first _ ih =>
      rw [List.flatten_cons, List.forall_mem_append]
      refine ⟨fun span member => ⟨_, .head _, first.inside span member⟩, fun span member => ?_⟩
      obtain ⟨whole, listed, within⟩ := ih span member
      exact ⟨whole, .tail _ listed, within⟩

theorem flatten_separated {parts : List (List Span)}
    (cut : List.Forall₂ (Holding marked) parts wholes) (separated : Separated wholes) :
    Separated parts.flatten := by
  induction cut with
  | nil => exact ⟨by simp, .nil⟩
  | cons first others ih =>
      obtain ⟨after, apart⟩ := List.pairwise_cons.mp separated.apart
      have rest := ih ⟨fun span member => separated.proper span (.tail _ member), apart⟩
      rw [List.flatten_cons]
      refine ⟨List.forall_mem_append.mpr ⟨first.separated.proper, rest.proper⟩, ?_⟩
      refine List.pairwise_append.mpr ⟨first.separated.apart, rest.apart, ?_⟩
      intro left leftMember right rightMember
      obtain ⟨other, listed, starts, -⟩ := flatten_inside others right rightMember
      have ends := (first.inside left leftMember).2
      have less := after other listed
      omega

theorem flatten_held {parts : List (List Span)} {number : Nat} {whole : Span}
    (cut : List.Forall₂ (Holding marked) parts wholes) (member : whole ∈ wholes)
    (within : Within number whole) (mark : marked number) :
    ∃ span ∈ parts.flatten, Within number span := by
  induction cut with
  | nil => cases member
  | cons first _ ih =>
      rw [List.flatten_cons]
      rcases List.mem_cons.mp member with rfl | later
      · obtain ⟨span, listed, found⟩ := first.held number within mark
        exact ⟨span, List.mem_append_left _ listed, found⟩
      · obtain ⟨span, listed, found⟩ := ih later
        exact ⟨span, List.mem_append_right _ listed, found⟩

/-- Each of the spans may be cut further. -/
theorem Holding.flatten {parts : List (List Span)} (holding : Holding marked wholes outer)
    (cut : List.Forall₂ (Holding marked) parts wholes) :
    Holding marked parts.flatten outer where
  separated := flatten_separated cut holding.separated
  inside := by
    intro span member
    obtain ⟨whole, listed, starts, ends⟩ := flatten_inside cut span member
    obtain ⟨first, last⟩ := holding.inside whole listed
    exact ⟨first.trans starts, ends.trans last⟩
  held := by
    intro number within mark
    obtain ⟨whole, listed, found⟩ := holding.held number within mark
    exact flatten_held cut listed found mark

/-- The numbers of a span, each as a span of its own. -/
def singles (whole : Span) : List Span :=
  (List.range' whole.1 (whole.2 + 1 - whole.1)).map fun number => (number, number)

theorem singles_tile (whole : Span) : Tiles (singles whole) whole := by
  refine ⟨⟨?_, ?_⟩, ?_, ?_⟩
  · intro span member
    obtain ⟨number, -, rfl⟩ := List.mem_map.mp member
    exact le_refl _
  · exact List.pairwise_map.mpr List.pairwise_lt_range'
  · intro span member
    obtain ⟨number, listed, rfl⟩ := List.mem_map.mp member
    rw [List.mem_range'_1] at listed
    dsimp only
    omega
  · rintro number ⟨first, last⟩ -
    refine ⟨(number, number), List.mem_map_of_mem ?_, le_refl _, le_refl _⟩
    rw [List.mem_range'_1]
    omega

end Held

end Codenaut.Spans
