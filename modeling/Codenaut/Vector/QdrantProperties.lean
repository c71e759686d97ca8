import Codenaut.Vector.Qdrant

/-!
# Scoped vector calls

A call on one scope leaves the points of every other index version alone.
-/

set_option autoImplicit false

namespace Codenaut.Vector

open Codenaut.Core Codenaut.Db Codenaut.Embeddings Codenaut.Indexing Codenaut.Relational

/-- Two scopes of different repositories or different versions. -/
def VectorScope.Apart (left right : VectorScope) : Prop :=
  left.repositoryId ≠ right.repositoryId ∨ left.indexVersion ≠ right.indexVersion

theorem scopeFilter_place {scope : VectorScope} {record : VectorRecord}
    (selected : scopeFilter scope record = true) :
    record.payload.repositoryId = scope.repositoryId ∧
      record.payload.indexVersion = scope.indexVersion := by
  simp only [scopeFilter, Bool.and_eq_true, beq_iff_eq] at selected
  exact ⟨selected.1.2, selected.2⟩

theorem recordInScope_place {scope : VectorScope} {record : VectorRecord}
    (inScope : recordInScope scope record = true) :
    record.payload.repositoryId = scope.repositoryId ∧
      record.payload.indexVersion = scope.indexVersion := by
  simp only [recordInScope, Bool.and_eq_true, beq_iff_eq] at inScope
  exact ⟨inScope.1.2, inScope.2⟩

theorem VectorScope.Apart.not_both {left right : VectorScope} (apart : left.Apart right)
    {record : VectorRecord}
    (inLeft : record.payload.repositoryId = left.repositoryId ∧
      record.payload.indexVersion = left.indexVersion) : scopeFilter right record = false := by
  cases selected : scopeFilter right record with
  | false => rfl
  | true =>
      obtain ⟨repository, version⟩ := scopeFilter_place selected
      cases apart with
      | inl different => exact (different (inLeft.1.symm.trans repository)).elim
      | inr different => exact (different (inLeft.2.symm.trans version)).elim

theorem scopePoints_deleteScope {scope other : VectorScope} (apart : scope.Apart other)
    (points : List VectorRecord) :
    scopePoints other (deleteWhere (scopeFilter scope) points) = scopePoints other points := by
  simp only [scopePoints, deleteWhere, List.filter_filter]
  apply List.filter_congr
  intro record _
  cases selected : scopeFilter scope record with
  | false => simp
  | true => simp [apart.not_both (scopeFilter_place selected)]

/-- The point it replaces has the same identifier, so the same version. -/
theorem scopePoints_putPoint {scope other : VectorScope} (apart : scope.Apart other)
    {record : VectorRecord} (inScope : recordInScope scope record = true)
    (points : List VectorRecord) :
    scopePoints other (putPoint points record) = scopePoints other points := by
  have place := recordInScope_place inScope
  have added : scopeFilter other record = false := apart.not_both place
  simp only [scopePoints, putPoint, List.filter_append, List.filter_cons, added, List.filter_nil]
  simp only [Bool.false_eq_true, if_false, List.append_nil, deleteWhere, List.filter_filter]
  apply List.filter_congr
  intro stored _
  by_cases same : stored.pointId = record.pointId
  · have replaced : scopeFilter other stored = false := by
      apply apart.not_both
      rw [← stored.placed.1, ← stored.placed.2, same, record.placed.1, record.placed.2]
      exact place
    simp [replaced]
  · simp [same]

theorem scopePoints_putPoints {scope other : VectorScope} (apart : scope.Apart other)
    {records : List VectorRecord} (inScope : ∀ record ∈ records, recordInScope scope record = true)
    (points : List VectorRecord) :
    scopePoints other (putPoints points records) = scopePoints other points := by
  induction records generalizing points with
  | nil => rfl
  | cons record rest ih =>
      have step := scopePoints_putPoint apart (inScope record (.head _)) points
      exact (ih (fun later member => inScope later (.tail _ member)) _).trans step

theorem validateRecord_ok {settings : Settings} {scope : VectorScope} {record : VectorRecord}
    (accepted : validateRecord settings scope record = .ok ()) :
    recordInScope scope record = true := by
  unfold validateRecord at accepted
  cases inScope : recordInScope scope record with
  | true => rfl
  | false => simp [inScope] at accepted

/-- The records that `upsert` accepts belong to its scope. -/
theorem validateRecords_ok {settings : Settings} {scope : VectorScope}
    {records : List VectorRecord} (accepted : validateRecords settings scope records = .ok ()) :
    ∀ record ∈ records, recordInScope scope record = true := by
  induction records with
  | nil => simp
  | cons record rest ih =>
      have sequenced : (validateRecord settings scope record >>= fun _ =>
          validateRecords settings scope rest) = .ok () := accepted
      cases checked : validateRecord settings scope record with
      | error failure =>
          rw [checked] at sequenced
          cases sequenced
      | ok _ =>
          rw [checked] at sequenced
          intro other member
          cases member with
          | head => exact validateRecord_ok checked
          | tail _ later => exact ih sequenced other later

theorem upsert_other (settings : Settings) (delivery : Delivery) {scope other : VectorScope}
    (apart : scope.Apart other) (records points : List VectorRecord) :
    scopePoints other (upsert settings delivery scope records points).2 =
      scopePoints other points := by
  unfold upsert
  split
  case h_1 => rfl
  case h_2 accepted =>
      have inScope := validateRecords_ok accepted
      cases delivery with
      | answered => exact scopePoints_putPoints apart inScope points
      | refused failure => rfl
      | interrupted batches failure =>
          exact scopePoints_putPoints apart
            (fun record member => inScope record (List.mem_of_mem_take member)) points

theorem deleteScope_other (delivery : Delivery) {scope other : VectorScope}
    (apart : scope.Apart other) (points : List VectorRecord) :
    scopePoints other (deleteScope delivery scope points).2 = scopePoints other points := by
  cases delivery with
  | answered => exact scopePoints_deleteScope apart points
  | refused failure => rfl
  | interrupted batches failure => exact scopePoints_deleteScope apart points

theorem VectorScope.make?_eq_some {installationId : Option InstallationId}
    {repositoryId : RepositoryId} {indexVersion : Nat} {accessMode : RepositoryAccessMode}
    {githubRepositoryId : Option Nat} {scope : VectorScope}
    (made : VectorScope.make? installationId repositoryId indexVersion accessMode
      githubRepositoryId = some scope) :
    scope.installationId = installationId ∧ scope.repositoryId = repositoryId ∧
      scope.indexVersion = indexVersion ∧ scope.accessMode = accessMode ∧
      scope.githubRepositoryId = githubRepositoryId := by
  unfold VectorScope.make? at made
  split at made
  · cases made
    exact ⟨rfl, rfl, rfl, rfl, rfl⟩
  · cases made

end Codenaut.Vector
