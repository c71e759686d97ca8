import Codenaut.Relational.Table

/-!
# Evolution of a table

How one transaction may change a keyed table: every stored row takes a step
that keeps its key, and some fresh rows are appended. The rules build an
evolution from the statements of a transaction; the projections read it back
for one row.
-/

set_option autoImplicit false

namespace Codenaut.Relational

variable {Row Key : Type}

structure Evolves (key : Row → Key) (Step : Row → Row → Prop) (Fresh : Row → Prop)
    (old new : List Row) : Prop where
  rows : ∃ (change : Row → Row) (added : List Row), new = old.map change ++ added ∧
    (∀ row ∈ old, Step row (change row) ∧ key (change row) = key row) ∧ ∀ row ∈ added, Fresh row
  keys : UniqueKey key old → UniqueKey key new

namespace Evolves

variable {key : Row → Key} {Step : Row → Row → Prop} {Fresh : Row → Prop} {old mid new : List Row}

theorem refl (reflexive : ∀ row, Step row row) : Evolves key Step Fresh old old where
  rows := ⟨id, [], by simp, fun row _ => ⟨reflexive row, rfl⟩, by simp⟩
  keys := id

theorem ofEq (reflexive : ∀ row, Step row row) (same : new = old) :
    Evolves key Step Fresh old new :=
  same ▸ refl reflexive

theorem updateWhere {guard : Row → Bool} {change : Row → Row} (reflexive : ∀ row, Step row row)
    (step : ∀ row ∈ old, guard row = true → Step row (change row))
    (preserved : ∀ row, key (change row) = key row) :
    Evolves key Step Fresh old (updateWhere guard change old) where
  rows := by
    refine ⟨fun row => if guard row then change row else row, [], by simp [Relational.updateWhere],
      ?_, by simp⟩
    intro row member
    by_cases matched : guard row = true
    · simpa [matched] using ⟨step row member matched, preserved row⟩
    · simpa [matched] using reflexive row
  keys := fun unique => unique.updateWhere preserved

/-- An update that selects its row by key changes only the row that was read. -/
theorem updateRow [BEq Key] [LawfulBEq Key] {row : Row} {change : Row → Row}
    (reflexive : ∀ row, Step row row) (unique : UniqueKey key old) (member : row ∈ old)
    (step : Step row (change row)) (preserved : ∀ row, key (change row) = key row) :
    Evolves key Step Fresh old
      (Relational.updateWhere (fun other => key other == key row) change old) := by
  refine updateWhere reflexive ?_ preserved
  intro other otherMember matched
  have same : other = row := unique.row_eq otherMember member (by simpa using matched)
  exact same ▸ step

theorem insert {row : Row} (reflexive : ∀ row, Step row row) (fresh : Fresh row)
    (absent : ∀ other ∈ old, key other ≠ key row) : Evolves key Step Fresh old (old ++ [row]) where
  rows := ⟨id, [row], by simp, fun other _ => ⟨reflexive other, rfl⟩, by simpa using fresh⟩
  keys := fun unique => unique.insert absent

theorem mono {Step' : Row → Row → Prop} {Fresh' : Row → Prop}
    (evolves : Evolves key Step Fresh old new) (weaken : ∀ row row', Step row row' → Step' row row')
    (weakenFresh : ∀ row, Fresh row → Fresh' row) : Evolves key Step' Fresh' old new where
  rows := by
    obtain ⟨change, added, same, steps, fresh⟩ := evolves.rows
    exact ⟨change, added, same, fun row member => ⟨weaken _ _ (steps row member).1,
      (steps row member).2⟩, fun row member => weakenFresh row (fresh row member)⟩
  keys := evolves.keys

theorem trans (transitive : ∀ first second third, Step first second → Step second third →
      Step first third)
    (settled : ∀ row row', Fresh row → Step row row' → Fresh row')
    (left : Evolves key Step Fresh old mid) (right : Evolves key Step Fresh mid new) :
    Evolves key Step Fresh old new where
  rows := by
    obtain ⟨first, added, rfl, firstSteps, addedFresh⟩ := left.rows
    obtain ⟨second, more, rfl, secondSteps, moreFresh⟩ := right.rows
    refine ⟨second ∘ first, added.map second ++ more, by simp, ?_, ?_⟩
    · intro row member
      have inner := firstSteps row member
      have outer := secondSteps (first row)
        (List.mem_append_left _ (List.mem_map_of_mem member))
      exact ⟨transitive _ _ _ inner.1 outer.1, outer.2.trans inner.2⟩
    · intro row member
      rcases List.mem_append.mp member with changed | inserted
      · obtain ⟨origin, originMember, rfl⟩ := List.mem_map.mp changed
        exact settled origin _ (addedFresh origin originMember)
          (secondSteps origin (List.mem_append_right _ originMember)).1
      · exact moreFresh row inserted
  keys := right.keys ∘ left.keys

/-- Every row of the new table is the successor of a stored row, or fresh. -/
theorem origin (evolves : Evolves key Step Fresh old new) {row : Row} (member : row ∈ new) :
    (∃ prior ∈ old, Step prior row ∧ key row = key prior) ∨ Fresh row := by
  obtain ⟨change, added, rfl, steps, fresh⟩ := evolves.rows
  rcases List.mem_append.mp member with changed | inserted
  · obtain ⟨prior, priorMember, rfl⟩ := List.mem_map.mp changed
    exact .inl ⟨prior, priorMember, steps prior priorMember⟩
  · exact .inr (fresh row inserted)

/-- Every stored row has a successor. -/
theorem successor (evolves : Evolves key Step Fresh old new) {row : Row} (member : row ∈ old) :
    ∃ next ∈ new, Step row next ∧ key next = key row := by
  obtain ⟨change, added, rfl, steps, _⟩ := evolves.rows
  exact ⟨change row, List.mem_append_left _ (List.mem_map_of_mem member), steps row member⟩

/-- Under a unique key, the row with a stored row's key is its successor. -/
theorem step_of_key (evolves : Evolves key Step Fresh old new) (unique : UniqueKey key old)
    {row next : Row} (member : row ∈ old) (nextMember : next ∈ new) (same : key next = key row) :
    Step row next := by
  obtain ⟨found, foundMember, step, foundKey⟩ := evolves.successor member
  have equal := (evolves.keys unique).row_eq nextMember foundMember (same.trans foundKey.symm)
  exact equal ▸ step

/-- Under a unique key, a row is the successor of a stored row or has a new key. -/
theorem origin_of_key (evolves : Evolves key Step Fresh old new) (unique : UniqueKey key old)
    {row : Row} (member : row ∈ new) :
    (∃ prior ∈ old, Step prior row ∧ key row = key prior) ∨
      (Fresh row ∧ ∀ prior ∈ old, key prior ≠ key row) := by
  by_cases taken : ∃ prior ∈ old, key prior = key row
  · obtain ⟨prior, priorMember, same⟩ := taken
    exact .inl ⟨prior, priorMember, evolves.step_of_key unique priorMember member same.symm,
      same.symm⟩
  · rcases evolves.origin member with ⟨prior, priorMember, _, same⟩ | fresh
    · exact (taken ⟨prior, priorMember, same.symm⟩).elim
    · exact .inr ⟨fresh, fun prior priorMember same => taken ⟨prior, priorMember, same⟩⟩

end Evolves

/-! ## Conditions carried from row to row -/

/-- Every row that meets a condition has a successor that meets another one. -/
def Carries (key : Row → Key) (Before After : Row → Prop) (old new : List Row) : Prop :=
  ∀ row ∈ old, Before row → ∃ next ∈ new, key next = key row ∧ After next

namespace Carries

variable {key : Row → Key} {Before Between After : Row → Prop} {old mid new : List Row}

theorem refl (implies : ∀ row, Before row → After row) : Carries key Before After old old :=
  fun row member before => ⟨row, member, rfl, implies row before⟩

theorem ofEq (implies : ∀ row, Before row → After row) (same : new = old) :
    Carries key Before After old new :=
  same ▸ refl implies

theorem trans (left : Carries key Before Between old mid) (right : Carries key Between After mid new) :
    Carries key Before After old new := by
  intro row member before
  obtain ⟨middle, middleMember, middleKey, between⟩ := left row member before
  obtain ⟨next, nextMember, nextKey, after⟩ := right middle middleMember between
  exact ⟨next, nextMember, nextKey.trans middleKey, after⟩

theorem weaken (carries : Carries key Before Between old new)
    (implies : ∀ row, Between row → After row) : Carries key Before After old new :=
  carries.trans (refl implies)

theorem updateWhere {guard : Row → Bool} {change : Row → Row}
    (sameKey : ∀ row, key (change row) = key row) (kept : ∀ row, Before row → After row)
    (changed : ∀ row, guard row = true → Before row → After (change row)) :
    Carries key Before After old (Relational.updateWhere guard change old) := by
  intro row member before
  refine ⟨_, mem_updateWhere.mpr ⟨row, member, rfl⟩, ?_⟩
  split
  case isTrue matched => exact ⟨sameKey row, changed row matched before⟩
  case isFalse => exact ⟨rfl, kept row before⟩

theorem append (added : List Row) (implies : ∀ row, Before row → After row) :
    Carries key Before After old (old ++ added) :=
  fun row member before => ⟨row, List.mem_append_left _ member, rfl, implies row before⟩

end Carries

end Codenaut.Relational
