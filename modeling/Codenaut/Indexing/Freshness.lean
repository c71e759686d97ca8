import Codenaut.GitHub.Schemas
import Mathlib.Algebra.GroupWithZero.Nat
import Mathlib.Data.Finset.Card

/-!
# Refresh planning

Fail-closed planning of a refresh from one provider comparison
(`app/indexing/freshness.py`).
-/

set_option autoImplicit false

namespace Codenaut.Indexing

open Codenaut.Db Codenaut.GitHub

structure ChangedFileSet where
  targetPaths : Finset String := ∅
  removedPaths : Finset String := ∅
  counts : List (String × Nat) := []
  totalChanges : Nat := 0
  deriving DecidableEq

structure FreshnessPlan where
  actualMode : IndexingMode
  fallbackReason : Option String
  changes : ChangedFileSet
  deriving DecidableEq

/-- `PurePosixPath(value).parts` without the root: empty and `.` parts are dropped. -/
def pathParts (value : String) : List String :=
  (value.splitOn "/").filter fun part => part ≠ "" ∧ part ≠ "."

def maxRepositoryPathBytes : Nat := 4096

/-- `_validate_path`. -/
def validPath (value : String) : Bool :=
  !value.startsWith "/" && !(pathParts value).isEmpty &&
    decide (value.utf8ByteSize ≤ maxRepositoryPathBytes) &&
    (pathParts value).all (· != "..") &&
    value.toList.all fun char => char != '\x00' && char != '\x5c'

/-- The validation of one compared file; a rename names its previous path. -/
def validFile (file : CompareFile) : Bool :=
  validPath file.filename && file.previousFilename.all validPath &&
    (file.status != .renamed || file.previousFilename.isSome)

/-- The statuses in the order of their names. -/
def sortedStatuses : List CompareFileStatus :=
  [.added, .changed, .copied, .modified, .removed, .renamed]

def statusCounts (files : List CompareFile) : List (String × Nat) :=
  (sortedStatuses.map fun status => (status.value, files.countP (·.status == status))).filter
    (·.2 ≠ 0)

def targetPath (file : CompareFile) : Option String :=
  if file.status = .removed then none else some file.filename

def removedPath (file : CompareFile) : Option String :=
  if file.status = .removed then some file.filename
  else if file.status = .renamed then file.previousFilename
  else none

/-- `none` is a raised `ValueError`. The sets and sums do not depend on the
order in which the source visits the files. -/
def classifyComparison (comparison : CommitComparison) : Option ChangedFileSet :=
  if comparison.files.all validFile then
    some
      { targetPaths := (comparison.files.filterMap targetPath).toFinset
        removedPaths := (comparison.files.filterMap removedPath).toFinset
        counts := statusCounts comparison.files
        totalChanges := (comparison.files.map (·.changes)).sum }
  else none

def planRefresh (comparison : Option CommitComparison) (hasActiveIndex : Bool)
    (requestedMode : IndexingMode) (maxChangedFiles : Nat) : FreshnessPlan :=
  if !hasActiveIndex then ⟨.full, some "missing_active_index", {}⟩
  else if requestedMode = .full then ⟨.full, some "requested_full_rebuild", {}⟩
  else
    match comparison with
    | none => ⟨.full, some "comparison_unavailable", {}⟩
    | some compared =>
        if compared.status = .behind ∨ compared.status = .diverged then
          ⟨.full, some "non_fast_forward", {}⟩
        else
          match classifyComparison compared with
          | none => ⟨.full, some "unsafe_comparison", {}⟩
          | some changes =>
              if maxChangedFiles ≤ compared.files.length then
                ⟨.full, some "comparison_file_limit", changes⟩
              else ⟨.incremental, none, changes⟩

end Codenaut.Indexing
