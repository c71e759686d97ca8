import Mathlib.Logic.Function.Basic

/-!
# Staged versions

A store that serves one active version while the next one is built beside it.
Records describe versions, contents are what a version serves, and a label
summarizes the active version. The steps are those of a build, switch and
retire cycle; the invariant says that exactly the labelled version is active
and that every record that is not retired is sound for its content.
-/

set_option autoImplicit false

namespace Codenaut.Versioning

variable {Record Content Label : Type}

inductive Phase where
  | building
  | ready
  | active
  | retired
  deriving DecidableEq, Repr

@[ext] structure Slots (Record Content Label : Type) where
  version : Nat
  label : Label
  record : Nat → Option Record
  content : Nat → Content

/-- How records are read: their phase, what they promise about their content,
and when a label describes an active record. -/
structure Discipline (Record Content Label : Type) where
  phase : Record → Phase
  Sound : Record → Content → Prop
  Labels : Label → Record → Prop

namespace Discipline

variable (discipline : Discipline Record Content Label)

/-- Under construction: not yet active and not given up. -/
def Pending (record : Record) : Prop :=
  discipline.phase record = .building ∨ discipline.phase record = .ready

inductive Step : Slots Record Content Label → Slots Record Content Label → Prop where
  | idle (slots : Slots Record Content Label) : Step slots slots
  | stage (slots : Slots Record Content Label) (record : Record) (content : Content)
      (building : discipline.phase record = .building)
      (sound : discipline.Sound record content) :
      Step slots { slots with
        record := Function.update slots.record (slots.version + 1) (some record)
        content := Function.update slots.content (slots.version + 1) content }
  | revise (slots : Slots Record Content Label) (version : Nat) (old new : Record)
      (found : slots.record version = some old)
      (pending : discipline.Pending old) (stays : discipline.Pending new)
      (sound : discipline.Sound old (slots.content version) →
        discipline.Sound new (slots.content version)) :
      Step slots { slots with record := Function.update slots.record version (some new) }
  | switch (slots : Slots Record Content Label) (old new : Record) (retire : Record → Record)
      (label : Label) (found : slots.record (slots.version + 1) = some old)
      (ready : discipline.phase old = .ready) (active : discipline.phase new = .active)
      (sound : discipline.Sound old (slots.content (slots.version + 1)) →
        discipline.Sound new (slots.content (slots.version + 1)))
      (labels : discipline.Labels label new)
      (retires : ∀ record, discipline.phase record = .active →
        discipline.phase (retire record) = .retired)
      (keeps : ∀ record, discipline.phase record ≠ .active → retire record = record) :
      Step slots { slots with
        version := slots.version + 1
        label := label
        record := Function.update
          (Function.update slots.record slots.version ((slots.record slots.version).map retire))
          (slots.version + 1) (some new) }
  | discard (slots : Slots Record Content Label) (version : Nat) (old new : Record)
      (content : Content) (found : slots.record version = some old)
      (inactive : discipline.phase old ≠ .active) (retired : discipline.phase new = .retired) :
      Step slots { slots with
        record := Function.update slots.record version (some new)
        content := Function.update slots.content version content }
  | clear (slots : Slots Record Content Label) (version : Nat) (change : Record → Record)
      (content : Content) (older : version < slots.version)
      (samePhase : ∀ record, discipline.phase (change record) = discipline.phase record) :
      Step slots { slots with
        record := Function.update slots.record version ((slots.record version).map change)
        content := Function.update slots.content version content }

structure Invariant (slots : Slots Record Content Label) : Prop where
  beyond : ∀ version, slots.version + 1 < version → slots.record version = none
  active : ∀ version record, slots.record version = some record →
    discipline.phase record = .active → version = slots.version
  pending : ∀ version record, slots.record version = some record →
    discipline.Pending record → version = slots.version + 1
  sound : ∀ version record, slots.record version = some record →
    discipline.phase record ≠ .retired → discipline.Sound record (slots.content version)
  current : 1 ≤ slots.version → ∃ record, slots.record slots.version = some record ∧
    discipline.phase record = .active ∧ discipline.Labels slots.label record

variable {discipline}

theorem Pending.not_active {record : Record} (pending : discipline.Pending record) :
    discipline.phase record ≠ .active := by
  rcases pending with building | ready <;> simp [*]

private theorem update_some {slot : Nat → Option Record} {version other : Nat}
    {new : Option Record} {record : Record}
    (found : Function.update slot version new other = some record) :
    (other = version ∧ new = some record) ∨ (other ≠ version ∧ slot other = some record) := by
  by_cases same : other = version
  · subst same
    exact .inl ⟨rfl, by simpa using found⟩
  · exact .inr ⟨same, by simpa [same] using found⟩

private theorem stage_invariant {slots : Slots Record Content Label} {record : Record}
    {content : Content} (invariant : discipline.Invariant slots)
    (building : discipline.phase record = .building) (sound : discipline.Sound record content) :
    discipline.Invariant { slots with
      record := Function.update slots.record (slots.version + 1) (some record)
      content := Function.update slots.content (slots.version + 1) content } where
  beyond := by
    intro version later
    have apart : version ≠ slots.version + 1 := by dsimp only at later; omega
    simpa [apart] using invariant.beyond version later
  active := by
    intro version found member phase
    rcases update_some member with ⟨_, same⟩ | ⟨_, kept⟩
    · cases same
      simp [building] at phase
    · exact invariant.active version found kept phase
  pending := by
    intro version found member pending
    rcases update_some member with ⟨same, _⟩ | ⟨_, kept⟩
    · exact same
    · exact invariant.pending version found kept pending
  sound := by
    intro version found member phase
    rcases update_some member with ⟨rfl, same⟩ | ⟨apart, kept⟩
    · cases same
      simpa using sound
    · simpa [apart] using invariant.sound version found kept phase
  current := by
    intro positive
    obtain ⟨found, member, facts⟩ := invariant.current positive
    exact ⟨found, by simpa using member, facts⟩

private theorem revise_invariant {slots : Slots Record Content Label} {version : Nat}
    {old new : Record} (invariant : discipline.Invariant slots)
    (located : slots.record version = some old) (pending : discipline.Pending old)
    (stays : discipline.Pending new)
    (sound : discipline.Sound old (slots.content version) →
      discipline.Sound new (slots.content version)) :
    discipline.Invariant
      { slots with record := Function.update slots.record version (some new) } where
  beyond := by
    intro other later
    have place := invariant.pending version old located pending
    have apart : other ≠ version := by dsimp only at later; omega
    simpa [apart] using invariant.beyond other later
  active := by
    intro other found member phase
    rcases update_some member with ⟨_, same⟩ | ⟨_, kept⟩
    · cases same
      exact (stays.not_active phase).elim
    · exact invariant.active other found kept phase
  pending := by
    intro other found member otherPending
    rcases update_some member with ⟨rfl, _⟩ | ⟨_, kept⟩
    · exact invariant.pending other old located pending
    · exact invariant.pending other found kept otherPending
  sound := by
    intro other found member phase
    rcases update_some member with ⟨rfl, same⟩ | ⟨_, kept⟩
    · cases same
      refine sound (invariant.sound other old located ?_)
      rcases pending with building | ready <;> simp [*]
    · exact invariant.sound other found kept phase
  current := by
    intro positive
    obtain ⟨found, member, facts⟩ := invariant.current positive
    have place := invariant.pending version old located pending
    have apart : slots.version ≠ version := by omega
    exact ⟨found, by simpa [apart] using member, facts⟩

private theorem switch_invariant {slots : Slots Record Content Label} {old new : Record}
    {retire : Record → Record} {label : Label} (invariant : discipline.Invariant slots)
    (located : slots.record (slots.version + 1) = some old)
    (ready : discipline.phase old = .ready) (active : discipline.phase new = .active)
    (sound : discipline.Sound old (slots.content (slots.version + 1)) →
      discipline.Sound new (slots.content (slots.version + 1)))
    (labels : discipline.Labels label new)
    (retires : ∀ record, discipline.phase record = .active →
      discipline.phase (retire record) = .retired)
    (keeps : ∀ record, discipline.phase record ≠ .active → retire record = record) :
    discipline.Invariant { slots with
      version := slots.version + 1
      label := label
      record := Function.update
        (Function.update slots.record slots.version ((slots.record slots.version).map retire))
        (slots.version + 1) (some new) } := by
  -- the formerly active record is the only one that the switch rewrites besides the new one
  have origin : ∀ version record, Function.update
      (Function.update slots.record slots.version ((slots.record slots.version).map retire))
      (slots.version + 1) (some new) version = some record →
      (version = slots.version + 1 ∧ record = new) ∨
        (version ≠ slots.version + 1 ∧ discipline.phase record = .retired) ∨
        (version ≠ slots.version + 1 ∧ slots.record version = some record ∧
          discipline.phase record ≠ .active) := by
    intro version record found
    rcases update_some found with ⟨same, new⟩ | ⟨apart, rest⟩
    · cases new
      exact .inl ⟨same, rfl⟩
    · rcases update_some rest with ⟨rfl, mapped⟩ | ⟨other, kept⟩
      · obtain ⟨previous, previousFound, rfl⟩ := Option.map_eq_some_iff.mp mapped
        by_cases wasActive : discipline.phase previous = .active
        · exact .inr (.inl ⟨apart, retires previous wasActive⟩)
        · rw [keeps previous wasActive]
          exact .inr (.inr ⟨apart, previousFound, wasActive⟩)
      · refine .inr (.inr ⟨apart, kept, fun isActive => ?_⟩)
        exact other (invariant.active version record kept isActive)
  refine ⟨?_, ?_, ?_, ?_, ?_⟩
  · intro version later
    dsimp only at later
    have apart : version ≠ slots.version + 1 := by omega
    have alsoApart : version ≠ slots.version := by omega
    simpa [apart, alsoApart] using invariant.beyond version (by omega)
  · intro version record found phase
    rcases origin version record found with ⟨same, _⟩ | ⟨_, retired⟩ | ⟨_, _, inactive⟩
    · exact same
    · simp [retired] at phase
    · exact (inactive phase).elim
  · intro version record found pending
    rcases origin version record found with ⟨_, rfl⟩ | ⟨_, retired⟩ | ⟨apart, kept, _⟩
    · exact (pending.not_active active).elim
    · rcases pending with building | ready <;> simp_all
    · exact (apart (invariant.pending version record kept pending)).elim
  · intro version record found phase
    rcases origin version record found with ⟨rfl, rfl⟩ | ⟨_, retired⟩ | ⟨_, kept, _⟩
    · exact sound (invariant.sound _ old located (by simp [ready]))
    · exact (phase retired).elim
    · exact invariant.sound version record kept phase
  · intro _
    exact ⟨new, by simp, active, labels⟩

private theorem discard_invariant {slots : Slots Record Content Label} {version : Nat}
    {old new : Record} {content : Content} (invariant : discipline.Invariant slots)
    (located : slots.record version = some old) (inactive : discipline.phase old ≠ .active)
    (retired : discipline.phase new = .retired) :
    discipline.Invariant { slots with
      record := Function.update slots.record version (some new)
      content := Function.update slots.content version content } where
  beyond := by
    intro other later
    have apart : other ≠ version := by
      rintro rfl
      simp [invariant.beyond other later] at located
    simpa [apart] using invariant.beyond other later
  active := by
    intro other found member phase
    rcases update_some member with ⟨_, same⟩ | ⟨_, kept⟩
    · cases same
      simp [retired] at phase
    · exact invariant.active other found kept phase
  pending := by
    intro other found member pending
    rcases update_some member with ⟨_, same⟩ | ⟨_, kept⟩
    · cases same
      rcases pending with building | ready <;> simp_all
    · exact invariant.pending other found kept pending
  sound := by
    intro other found member phase
    rcases update_some member with ⟨_, same⟩ | ⟨apart, kept⟩
    · cases same
      exact (phase retired).elim
    · simpa [apart] using invariant.sound other found kept phase
  current := by
    intro positive
    obtain ⟨found, member, phase, labels⟩ := invariant.current positive
    have apart : slots.version ≠ version := by
      rintro same
      rw [same, located] at member
      exact inactive (Option.some.inj member ▸ phase)
    exact ⟨found, by simpa [apart] using member, phase, labels⟩

private theorem clear_invariant {slots : Slots Record Content Label} {version : Nat}
    {change : Record → Record} {content : Content} (invariant : discipline.Invariant slots)
    (older : version < slots.version)
    (samePhase : ∀ record, discipline.phase (change record) = discipline.phase record) :
    discipline.Invariant { slots with
      record := Function.update slots.record version ((slots.record version).map change)
      content := Function.update slots.content version content } := by
  have origin : ∀ other record, Function.update slots.record version
      ((slots.record version).map change) other = some record →
      (∃ prior, slots.record other = some prior ∧ discipline.phase record = discipline.phase prior ∧
        other = version) ∨ (other ≠ version ∧ slots.record other = some record) := by
    intro other record found
    rcases update_some found with ⟨rfl, mapped⟩ | ⟨apart, kept⟩
    · obtain ⟨prior, priorFound, rfl⟩ := Option.map_eq_some_iff.mp mapped
      exact .inl ⟨prior, priorFound, samePhase prior, rfl⟩
    · exact .inr ⟨apart, kept⟩
  refine ⟨?_, ?_, ?_, ?_, ?_⟩
  · intro other later
    have apart : other ≠ version := by dsimp only at later; omega
    simpa [apart] using invariant.beyond other later
  · intro other record found phase
    rcases origin other record found with ⟨prior, kept, same, _⟩ | ⟨_, kept⟩
    · exact invariant.active other prior kept (same ▸ phase)
    · exact invariant.active other record kept phase
  · intro other record found pending
    rcases origin other record found with ⟨prior, kept, same, _⟩ | ⟨_, kept⟩
    · exact invariant.pending other prior kept (by simpa [Pending, same] using pending)
    · exact invariant.pending other record kept pending
  · intro other record found phase
    rcases origin other record found with ⟨prior, kept, same, rfl⟩ | ⟨apart, kept⟩
    · -- an older version holds neither the active nor a pending record
      exfalso
      rw [same] at phase
      cases priorPhase : discipline.phase prior with
      | active => have := invariant.active other prior kept priorPhase; omega
      | building => have := invariant.pending other prior kept (.inl priorPhase); omega
      | ready => have := invariant.pending other prior kept (.inr priorPhase); omega
      | retired => exact phase priorPhase
    · simpa [apart] using invariant.sound other record kept phase
  · intro positive
    obtain ⟨found, member, facts⟩ := invariant.current positive
    have apart : slots.version ≠ version := by omega
    exact ⟨found, by simpa [apart] using member, facts⟩

/-- Every step of the cycle preserves the invariant. -/
theorem Step.invariant {before after : Slots Record Content Label}
    (step : discipline.Step before after) (invariant : discipline.Invariant before) :
    discipline.Invariant after := by
  cases step with
  | idle => exact invariant
  | stage record content building sound => exact stage_invariant invariant building sound
  | revise version old new found pending stays sound =>
      exact revise_invariant invariant found pending stays sound
  | switch old new retire label found ready active sound labels retires keeps =>
      exact switch_invariant invariant found ready active sound labels retires keeps
  | discard version old new content found inactive retired =>
      exact discard_invariant invariant found inactive retired
  | clear version change content older samePhase =>
      exact clear_invariant invariant older samePhase

/-- A step that does not switch keeps the label and the active record. -/
theorem Step.active_kept {before after : Slots Record Content Label}
    (step : discipline.Step before after) (invariant : discipline.Invariant before)
    (same : after.version = before.version) :
    after.label = before.label ∧ ∀ record, before.record before.version = some record →
      discipline.phase record = .active → after.record before.version = some record := by
  cases step with
  | idle => exact ⟨rfl, fun _ found _ => found⟩
  | stage record content building sound =>
      refine ⟨rfl, fun active found _ => ?_⟩
      have apart : before.version ≠ before.version + 1 := by omega
      simpa [apart] using found
  | revise version old new located pending stays sound =>
      refine ⟨rfl, fun active found _ => ?_⟩
      have place := invariant.pending version old located pending
      have apart : before.version ≠ version := by omega
      simpa [apart] using found
  | switch => exact absurd same (Nat.succ_ne_self _)
  | discard version old new content located inactive retired =>
      refine ⟨rfl, fun active found isActive => ?_⟩
      have apart : before.version ≠ version := by
        rintro rfl
        rw [located] at found
        exact inactive (Option.some.inj found ▸ isActive)
      simpa [apart] using found
  | clear version change content older samePhase =>
      refine ⟨rfl, fun active found _ => ?_⟩
      have apart : before.version ≠ version := by omega
      simpa [apart] using found

/-- A store with no version and no record. -/
theorem Invariant.fresh {slots : Slots Record Content Label} (unversioned : slots.version = 0)
    (empty : ∀ version, slots.record version = none) : discipline.Invariant slots where
  beyond := fun version _ => empty version
  active := fun version _ found => by simp [empty version] at found
  pending := fun version _ found => by simp [empty version] at found
  sound := fun version _ found => by simp [empty version] at found
  current := fun positive => by omega

end Discipline

end Codenaut.Versioning
