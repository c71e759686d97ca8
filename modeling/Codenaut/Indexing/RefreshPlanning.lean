import Codenaut.Indexing.Freshness
import Codenaut.Relational.Sorting
import Mathlib.Data.Finset.Option
import Mathlib.Data.String.Basic

/-!
# Exactness of refresh plans

The loop of `classify_comparison` over the sorted files, what it computes, and
when a plan is incremental. The comparison has passed its schema
(`app/github/schemas.py`).
-/

set_option autoImplicit false

namespace Codenaut.Indexing

open Codenaut.Db Codenaut.GitHub Codenaut.Relational

/-! ## Schema -/

/-- `validate_compare_path`, after the bounds on the length. -/
def comparePath (value : String) : Bool :=
  decide (1 ≤ value.length ∧ value.length ≤ 4096) &&
    !value.startsWith "/" && !value.startsWith "\x5c" &&
    value.toList.all (fun char => char != '\x5c' && char != '\x00' && decide (32 ≤ char.toNat)) &&
    (value.splitOn "/").all fun part => part != "" && part != "." && part != ".."

def compareFile (file : CompareFile) : Bool :=
  comparePath file.filename && file.previousFilename.all comparePath

/-- `GitHubCommitComparison`. -/
structure ValidComparison extends CommitComparison where
  paths : ∀ file ∈ files, compareFile file = true
  atMost : files.length ≤ 3000

/-! ## The loop -/

/-- `counts[status] += 1`; a new status comes last. -/
def countStatus (status : String) : List (String × Nat) → List (String × Nat)
  | [] => [(status, 1)]
  | (name, count) :: rest =>
      if name = status then (name, count + 1) :: rest
      else (name, count) :: countStatus status rest

/-- `_validate_path`. -/
def validatePath (value : String) : Except String Unit :=
  if validPath value then .ok () else .error "unsafe_comparison_path"

/-- The validation of the path before a rename, if there is one. -/
def validatePrevious : Option String → Except String Unit
  | none => .ok ()
  | some previous => validatePath previous

/-- The paths of one file, filed by its status. -/
def filePaths (changes : ChangedFileSet) (file : CompareFile) : Except String ChangedFileSet :=
  match file.status, file.previousFilename with
  | .removed, _ => .ok { changes with removedPaths := insert file.filename changes.removedPaths }
  | .renamed, none => .error "rename_missing_previous_path"
  | .renamed, some previous => .ok { changes with
      removedPaths := insert previous changes.removedPaths
      targetPaths := insert file.filename changes.targetPaths }
  | _, _ => .ok { changes with targetPaths := insert file.filename changes.targetPaths }

/-- The body of the loop. -/
def classifyFile (changes : ChangedFileSet) (file : CompareFile) :
    Except String ChangedFileSet := do
  validatePath file.filename
  validatePrevious file.previousFilename
  filePaths { changes with
    counts := countStatus file.status.value changes.counts
    totalChanges := changes.totalChanges + file.changes } file

/-- The sort key of a compared file. -/
def fileKey (file : CompareFile) : String ×ₗ String ×ₗ String :=
  toLex (file.filename, toLex (file.previousFilename.getD "", file.status.value))

/-- `classify_comparison`. -/
def classifySorted (comparison : CommitComparison) : Except String ChangedFileSet :=
  ((sortOn fileKey comparison.files).foldlM classifyFile {}).map fun changes =>
    { changes with counts := sortOn Prod.fst changes.counts }

/-! ## Statuses -/

theorem mem_countStatus {status : String} {counts : List (String × Nat)}
    (distinct : (counts.map Prod.fst).Nodup) {name : String} {count : Nat} :
    (name, count) ∈ countStatus status counts ↔
      name ≠ status ∧ (name, count) ∈ counts ∨
      name = status ∧ ((∃ earlier, (status, earlier) ∈ counts ∧ count = earlier + 1) ∨
        status ∉ counts.map Prod.fst ∧ count = 1) := by
  induction counts with
  | nil => grind [countStatus]
  | cons entry rest ih =>
      obtain ⟨first, number⟩ := entry
      rw [List.map_cons, List.nodup_cons] at distinct
      have later := ih distinct.2
      have absent : ∀ other, (first, other) ∉ rest := fun other member =>
        distinct.1 (List.mem_map.mpr ⟨_, member, rfl⟩)
      unfold countStatus
      split
      case isTrue same =>
        subst same
        grind
      case isFalse apart =>
        grind

theorem countStatus_keys (status : String) (counts : List (String × Nat)) (name : String) :
    name ∈ (countStatus status counts).map Prod.fst ↔
      name = status ∨ name ∈ counts.map Prod.fst := by
  induction counts with
  | nil => simp [countStatus]
  | cons entry rest ih =>
      unfold countStatus
      split <;> grind

theorem countStatus_nodup {status : String} {counts : List (String × Nat)}
    (distinct : (counts.map Prod.fst).Nodup) :
    ((countStatus status counts).map Prod.fst).Nodup := by
  induction counts with
  | nil => simp [countStatus]
  | cons entry rest ih =>
      rw [List.map_cons, List.nodup_cons] at distinct
      unfold countStatus
      split
      case isTrue same => exact List.nodup_cons.mpr distinct
      case isFalse apart =>
        refine List.nodup_cons.mpr ⟨?_, ih distinct.2⟩
        rw [countStatus_keys]
        exact fun either => either.elim apart distinct.1

def countStatuses (counts : List (String × Nat)) (files : List CompareFile) :
    List (String × Nat) :=
  files.foldl (fun counts file => countStatus file.status.value counts) counts

/-- The counter holds each status that occurs, once, with its number of files. -/
theorem countStatuses_spec (files : List CompareFile) :
    ((countStatuses [] files).map Prod.fst).Nodup ∧
      ∀ name count, (name, count) ∈ countStatuses [] files ↔
        count = files.countP (fun file => file.status.value == name) ∧ count ≠ 0 := by
  induction files using List.reverseRecOn with
  | nil => simp [countStatuses]
  | append_singleton files file ih =>
      obtain ⟨distinct, counted⟩ := ih
      have next : countStatuses [] (files ++ [file]) =
          countStatus file.status.value (countStatuses [] files) := by
        simp [countStatuses]
      rw [next]
      refine ⟨countStatus_nodup distinct, fun name count => ?_⟩
      have absent : file.status.value ∉ (countStatuses [] files).map Prod.fst ↔
          files.countP (fun other => other.status.value == file.status.value) = 0 := by
        rw [List.mem_map]
        constructor
        · intro missing
          by_contra some
          exact missing ⟨(_, _), (counted _ _).mpr ⟨rfl, some⟩, rfl⟩
        · rintro zero ⟨⟨_, number⟩, member, rfl⟩
          exact ((counted _ _).mp member).2 (((counted _ _).mp member).1.trans zero)
      rw [mem_countStatus distinct, absent, List.countP_append, List.countP_singleton]
      simp only [counted]
      by_cases same : name = file.status.value
      · subst same
        grind
      · have apart : (file.status.value == name) = false := by
          simpa using fun equal => same equal.symm
        simp [same, apart]

theorem status_value_injective {left right : CompareFileStatus}
    (same : left.value = right.value) : left = right := by
  cases left <;> cases right <;> first | rfl | exact absurd same (by decide)

theorem mem_statusCounts {files : List CompareFile} {name : String} {count : Nat} :
    (name, count) ∈ statusCounts files ↔
      count = files.countP (fun file => file.status.value == name) ∧ count ≠ 0 := by
  have counts : ∀ status : CompareFileStatus,
      files.countP (·.status == status) = files.countP (fun file =>
        file.status.value == status.value) := by
    intro status
    congr 1
    funext file
    rw [Bool.eq_iff_iff, beq_iff_eq, beq_iff_eq]
    exact ⟨congrArg _, status_value_injective⟩
  simp only [statusCounts, List.mem_filter, List.mem_map, Prod.mk.injEq, decide_eq_true_eq, counts]
  constructor
  · rintro ⟨⟨status, -, rfl, rfl⟩, some⟩
    exact ⟨rfl, some⟩
  · rintro ⟨rfl, some⟩
    obtain ⟨file, -, named⟩ := List.countP_pos_iff.mp (Nat.pos_of_ne_zero some)
    refine ⟨⟨file.status, ?_, beq_iff_eq.mp named, by rw [beq_iff_eq.mp named]⟩, some⟩
    cases file.status <;> decide

/-- The sorted counter is the list of the statuses that occur. -/
theorem sorted_countStatuses (files : List CompareFile) :
    sortOn Prod.fst (countStatuses [] files) = statusCounts files := by
  obtain ⟨distinct, counted⟩ := countStatuses_spec files
  have names : (sortedStatuses.map CompareFileStatus.value).Pairwise (· < ·) := by decide
  have sorted : (statusCounts files).Pairwise fun left right => left.1 < right.1 := by
    refine List.Pairwise.filter _ (List.pairwise_map.mpr ?_)
    exact List.pairwise_map.mp names
  have unique : ((statusCounts files).map Prod.fst).Nodup :=
    List.pairwise_map.mpr (sorted.imp ne_of_lt)
  have perm : (sortOn Prod.fst (countStatuses [] files)).Perm (statusCounts files) := by
    refine (sortOn_perm _ _).trans ?_
    refine (List.perm_ext_iff_of_nodup distinct.of_map unique.of_map).mpr ?_
    rintro ⟨name, count⟩
    rw [counted, mem_statusCounts]
  refine perm.eq_of_pairwise ?_ (sortOn_pairwise _ _) (sorted.imp le_of_lt)
  intro left right leftMember rightMember first second
  exact List.inj_on_of_nodup_map unique (perm.mem_iff.mp leftMember) rightMember
    (le_antisymm first second)

/-! ## Result of the loop -/

/-- What a file that passes its validation adds. -/
def classified (changes : ChangedFileSet) (file : CompareFile) : ChangedFileSet where
  targetPaths := (targetPath file).toFinset ∪ changes.targetPaths
  removedPaths := (removedPath file).toFinset ∪ changes.removedPaths
  counts := countStatus file.status.value changes.counts
  totalChanges := changes.totalChanges + file.changes

theorem validatePrevious_ok {previous : Option String} (valid : previous.all validPath = true) :
    validatePrevious previous = .ok () := by
  cases previous with
  | none => rfl
  | some path => exact if_pos valid

theorem validatePrevious_error {previous : Option String} (invalid : previous.all validPath = false) :
    ∃ code, validatePrevious previous = .error code := by
  cases previous with
  | none => cases invalid
  | some path => exact ⟨_, if_neg (by simpa using invalid)⟩

theorem classifyFile_ok {file : CompareFile} (valid : validFile file = true)
    (changes : ChangedFileSet) : classifyFile changes file = .ok (classified changes file) := by
  simp only [validFile, Bool.and_eq_true] at valid
  obtain ⟨⟨path, previous⟩, renamed⟩ := valid
  have checked : validatePath file.filename = .ok () := if_pos path
  have checkedPrevious := validatePrevious_ok previous
  unfold classifyFile
  rw [checked, checkedPrevious]
  change filePaths _ file = _
  unfold filePaths classified targetPath removedPath
  cases status : file.status with
  | renamed =>
      rw [status] at renamed
      obtain ⟨before, named⟩ := Option.isSome_iff_exists.mp (by simpa using renamed)
      simp [named]
  | _ => simp

theorem classifyFile_error {file : CompareFile} (invalid : validFile file = false)
    (changes : ChangedFileSet) : ∃ code, classifyFile changes file = .error code := by
  unfold classifyFile
  cases path : validPath file.filename with
  | false =>
      have refused : validatePath file.filename = .error "unsafe_comparison_path" :=
        if_neg (by simp [path])
      exact ⟨_, by rw [refused]; rfl⟩
  | true =>
      have checked : validatePath file.filename = .ok () := if_pos path
      rw [checked]
      cases previous : file.previousFilename.all validPath with
      | false =>
          obtain ⟨code, refused⟩ := validatePrevious_error previous
          exact ⟨code, by rw [refused]; rfl⟩
      | true =>
          rw [validatePrevious_ok previous]
          have missing : file.status = .renamed ∧ file.previousFilename = none := by
            simpa [validFile, path, previous] using invalid
          exact ⟨"rename_missing_previous_path", by
            change filePaths _ file = _
            simp only [filePaths, missing]⟩

/-- The loop ends well exactly when every file passes, wherever it stands. -/
theorem foldlM_classifyFile (files : List CompareFile) (changes : ChangedFileSet) :
    (files.foldlM classifyFile changes).toOption =
      if files.all validFile then some (files.foldl classified changes) else none := by
  induction files generalizing changes with
  | nil => rfl
  | cons file rest ih =>
      rw [List.foldlM_cons, List.all_cons, List.foldl_cons]
      cases valid : validFile file with
      | false =>
          obtain ⟨code, refused⟩ := classifyFile_error valid changes
          rw [refused]
          rfl
      | true =>
          rw [classifyFile_ok valid, Bool.true_and]
          exact ih (classified changes file)

theorem foldl_classified (files : List CompareFile) (changes : ChangedFileSet) :
    files.foldl classified changes =
      { targetPaths := changes.targetPaths ∪ (files.filterMap targetPath).toFinset
        removedPaths := changes.removedPaths ∪ (files.filterMap removedPath).toFinset
        counts := countStatuses changes.counts files
        totalChanges := changes.totalChanges + (files.map (·.changes)).sum } := by
  induction files generalizing changes with
  | nil => simp [countStatuses]
  | cons file rest ih =>
      rw [List.foldl_cons, ih]
      have counts : countStatuses (classified changes file).counts rest =
          countStatuses changes.counts (file :: rest) := rfl
      rw [counts]
      congr 1
      · ext path
        cases target : targetPath file <;> simp [classified, target]
      · ext path
        cases removed : removedPath file <;> simp [classified, removed]
      · simp [classified, Nat.add_assoc]

theorem classifyComparison_perm {comparison : CommitComparison} {files : List CompareFile}
    (perm : files.Perm comparison.files) :
    classifyComparison { comparison with files } = classifyComparison comparison := by
  have checked : files.all validFile = comparison.files.all validFile := by
    rw [Bool.eq_iff_iff, List.all_eq_true, List.all_eq_true]
    exact forall_congr' fun file => by rw [perm.mem_iff]
  have counts : statusCounts files = statusCounts comparison.files := by
    unfold statusCounts
    congr 2
    funext status
    rw [perm.countP_eq]
  unfold classifyComparison
  rw [checked, counts, List.toFinset_eq_of_perm _ _ (perm.filterMap targetPath),
    List.toFinset_eq_of_perm _ _ (perm.filterMap removedPath), (perm.map (·.changes)).sum_eq]

/-- The sorted loop computes the classification, and fails where it has none. -/
theorem classifySorted_eq (comparison : CommitComparison) :
    (classifySorted comparison).toOption = classifyComparison comparison := by
  rw [← classifyComparison_perm (sortOn_perm fileKey comparison.files)]
  have looped := foldlM_classifyFile (sortOn fileKey comparison.files) {}
  unfold classifySorted classifyComparison
  cases result : (sortOn fileKey comparison.files).foldlM classifyFile {} with
  | error code =>
      rw [result] at looped
      split at looped
      · cases looped
      case isFalse invalid => rw [if_neg invalid]; rfl
  | ok changes =>
      rw [result] at looped
      split at looped
      case isTrue valid =>
        rw [if_pos valid]
        cases looped.trans (congrArg some (foldl_classified _ _))
        simp [Except.map, Except.toOption, sorted_countStatuses]
      · cases looped

/-- `plan_refresh` with the loop in its place. -/
def planSorted (comparison : Option CommitComparison) (hasActiveIndex : Bool)
    (requestedMode : IndexingMode) (maxChangedFiles : Nat) : FreshnessPlan :=
  if !hasActiveIndex then ⟨.full, some "missing_active_index", {}⟩
  else if requestedMode = .full then ⟨.full, some "requested_full_rebuild", {}⟩
  else
    match comparison with
    | none => ⟨.full, some "comparison_unavailable", {}⟩
    | some compared =>
        if compared.status = .behind ∨ compared.status = .diverged then
          ⟨.full, some "non_fast_forward", {}⟩
        else
          match classifySorted compared with
          | .error _ => ⟨.full, some "unsafe_comparison", {}⟩
          | .ok changes =>
              if maxChangedFiles ≤ compared.files.length then
                ⟨.full, some "comparison_file_limit", changes⟩
              else ⟨.incremental, none, changes⟩

theorem planSorted_eq (comparison : Option CommitComparison) (hasActiveIndex : Bool)
    (requestedMode : IndexingMode) (maxChangedFiles : Nat) :
    planSorted comparison hasActiveIndex requestedMode maxChangedFiles =
      planRefresh comparison hasActiveIndex requestedMode maxChangedFiles := by
  unfold planSorted planRefresh
  cases comparison with
  | none => rfl
  | some compared =>
      dsimp only
      rw [← classifySorted_eq]
      cases classifySorted compared <;> rfl

/-! ## Safe paths -/

/-- A relative path inside the repository that the byte limit admits. -/
structure SafePath (value : String) : Prop where
  relative : value.startsWith "/" = false
  filled : value ≠ ""
  inside : ".." ∉ value.splitOn "/"
  noNul : '\x00' ∉ value.toList
  noBackslash : '\x5c' ∉ value.toList
  bytes : value.utf8ByteSize ≤ maxRepositoryPathBytes

theorem splitOnAux_ne_nil (text separator : String) (start current matched : String.Pos.Raw)
    (pieces : List String) :
    String.splitOnAux text separator start current matched pieces ≠ [] := by
  fun_induction String.splitOnAux text separator start current matched pieces with
  | case1 => simp
  | _ => assumption

theorem splitOn_ne_nil (value : String) : value.splitOn "/" ≠ [] := by
  unfold String.splitOn
  split
  · exact List.cons_ne_nil _ _
  · exact splitOnAux_ne_nil value "/" 0 0 0 []

/-- On a path of the schema the validation demands no more than safety. -/
theorem validPath_iff {value : String} (checked : comparePath value = true) :
    validPath value = true ↔ SafePath value := by
  simp only [comparePath, Bool.and_eq_true, List.all_eq_true, bne_iff_ne, ne_eq] at checked
  obtain ⟨⟨⟨⟨length, relative⟩, _⟩, chars⟩, parts⟩ := checked
  have kept : pathParts value = value.splitOn "/" := by
    refine List.filter_eq_self.mpr fun part member => ?_
    simpa using (parts part member).1
  have listed : (pathParts value).isEmpty = false := by
    rw [kept]
    exact List.isEmpty_eq_false_iff.mpr (splitOn_ne_nil value)
  have inside : ".." ∉ value.splitOn "/" := fun member => (parts _ member).2 rfl
  have noNul : '\x00' ∉ value.toList := fun member => (chars _ member).1.2 rfl
  have noBackslash : '\x5c' ∉ value.toList := fun member => (chars _ member).1.1 rfl
  constructor
  · intro valid
    simp only [validPath, Bool.and_eq_true, decide_eq_true_eq] at valid
    refine ⟨by simpa using relative, ?_, inside, noNul, noBackslash, valid.1.1.2⟩
    rintro rfl
    simp at length
  · intro safe
    have plain : value.toList.all (fun char => char != '\x00' && char != '\x5c') = true := by
      refine List.all_eq_true.mpr fun char member => ?_
      have apart := chars char member
      simp [apart.1.1, apart.1.2]
    have parentless : (pathParts value).all (· != "..") = true := by
      rw [kept]
      refine List.all_eq_true.mpr fun part member => ?_
      simpa using (parts part member).2
    simp [validPath, safe.relative, listed, safe.bytes, parentless, plain]

/-! ## Plans -/

/-- The paths of a file are safe, and a rename names the path before it. -/
structure SafeFile (file : CompareFile) : Prop where
  path : SafePath file.filename
  previous : ∀ previous ∈ file.previousFilename, SafePath previous
  renamed : file.status = .renamed → ∃ previous, file.previousFilename = some previous

theorem validFile_iff {file : CompareFile} (checked : compareFile file = true) :
    validFile file = true ↔ SafeFile file := by
  simp only [compareFile, Bool.and_eq_true] at checked
  obtain ⟨path, previous⟩ := checked
  have paths : file.previousFilename.all validPath = true ↔
      ∀ previous ∈ file.previousFilename, SafePath previous := by
    cases named : file.previousFilename with
    | none => simp
    | some before =>
        rw [named] at previous
        simpa using validPath_iff previous
  have renames : (file.status != .renamed || file.previousFilename.isSome) = true ↔
      (file.status = .renamed → ∃ previous, file.previousFilename = some previous) := by
    rw [Bool.or_eq_true, bne_iff_ne, Option.isSome_iff_exists, ← imp_iff_not_or]
  rw [validFile, Bool.and_eq_true, Bool.and_eq_true, validPath_iff path, paths, renames]
  exact ⟨fun ⟨⟨path, previous⟩, renamed⟩ => ⟨path, previous, renamed⟩,
    fun safe => ⟨⟨safe.path, safe.previous⟩, safe.renamed⟩⟩

/-- The comparison of a fast-forward whose files are safe and below the limit. -/
structure AllowsIncremental (maxChangedFiles : Nat) (compared : CommitComparison) : Prop where
  forward : compared.status = .ahead ∨ compared.status = .identical
  safe : ∀ file ∈ compared.files, SafeFile file
  below : compared.files.length < maxChangedFiles

/-- The new paths of the files that stay, and the paths that are gone. -/
structure ExactPaths (compared : CommitComparison) (changes : ChangedFileSet) : Prop where
  target : ∀ path, path ∈ changes.targetPaths ↔
    ∃ file ∈ compared.files, file.status ≠ .removed ∧ file.filename = path
  removed : ∀ path, path ∈ changes.removedPaths ↔
    ∃ file ∈ compared.files, file.status = .removed ∧ file.filename = path ∨
      file.status = .renamed ∧ file.previousFilename = some path

/-- What a plan is, in terms of what it is made from. -/
structure PlannedExactly (comparison : Option ValidComparison) (hasActiveIndex : Bool)
    (requestedMode : IndexingMode) (maxChangedFiles : Nat) (plan : FreshnessPlan) : Prop where
  incremental : plan.actualMode = .incremental ↔
    hasActiveIndex = true ∧ requestedMode = .incremental ∧
      ∃ compared ∈ comparison, AllowsIncremental maxChangedFiles compared.toCommitComparison
  paths : plan.actualMode = .incremental →
    ∃ compared ∈ comparison, ExactPaths compared.toCommitComparison plan.changes
  otherwise : plan.actualMode ≠ .incremental → plan.actualMode = .full
  unordered : ∀ compared ∈ comparison, ∀ files : List CompareFile, files.Perm compared.files →
    planSorted (some { compared.toCommitComparison with files }) hasActiveIndex requestedMode
      maxChangedFiles = plan

theorem classifyComparison_paths {compared : CommitComparison} {changes : ChangedFileSet}
    (classified : classifyComparison compared = some changes) : ExactPaths compared changes := by
  unfold classifyComparison at classified
  split at classified
  · cases classified
    constructor
    · intro path
      simp [targetPath]
    · intro path
      simp only [List.mem_toFinset, List.mem_filterMap, removedPath]
      refine exists_congr fun file => and_congr_right fun _ => ?_
      cases file.status <;> simp
  · cases classified

theorem planRefresh_perm {compared : CommitComparison} {files : List CompareFile}
    (perm : files.Perm compared.files) (hasActiveIndex : Bool) (requestedMode : IndexingMode)
    (maxChangedFiles : Nat) :
    planRefresh (some { compared with files }) hasActiveIndex requestedMode maxChangedFiles =
      planRefresh (some compared) hasActiveIndex requestedMode maxChangedFiles := by
  unfold planRefresh
  dsimp only
  rw [classifyComparison_perm perm, perm.length_eq]

theorem classifyComparison_isSome (compared : ValidComparison) :
    (classifyComparison compared.toCommitComparison).isSome = true ↔
      ∀ file ∈ compared.files, SafeFile file := by
  have checked : compared.files.all validFile = true ↔ ∀ file ∈ compared.files, SafeFile file := by
    rw [List.all_eq_true]
    exact forall₂_congr fun file member => validFile_iff (compared.paths file member)
  rw [← checked]
  unfold classifyComparison
  split
  case isTrue valid => simp [valid]
  case isFalse invalid => simp [invalid]

/-- The one branch that refreshes incrementally. -/
theorem planRefresh_incremental_iff {comparison : Option CommitComparison} {hasActiveIndex : Bool}
    {requestedMode : IndexingMode} {maxChangedFiles : Nat} :
    (planRefresh comparison hasActiveIndex requestedMode maxChangedFiles).actualMode =
        .incremental ↔
      hasActiveIndex = true ∧ requestedMode = .incremental ∧ ∃ compared ∈ comparison,
        (compared.status = .ahead ∨ compared.status = .identical) ∧
          (classifyComparison compared).isSome = true ∧
          compared.files.length < maxChangedFiles := by
  unfold planRefresh
  cases hasActiveIndex with
  | false => simp
  | true =>
      cases requestedMode with
      | full => simp
      | incremental =>
          cases comparison with
          | none => simp
          | some compared =>
              cases status : compared.status <;>
                cases classified : classifyComparison compared <;>
                by_cases below : maxChangedFiles ≤ compared.files.length <;>
                simp [status, classified, below]
              all_goals omega

theorem planRefresh_changes {comparison : Option CommitComparison} {hasActiveIndex : Bool}
    {requestedMode : IndexingMode} {maxChangedFiles : Nat}
    (incremental : (planRefresh comparison hasActiveIndex requestedMode
      maxChangedFiles).actualMode = .incremental) :
    ∃ compared ∈ comparison, classifyComparison compared =
      some (planRefresh comparison hasActiveIndex requestedMode maxChangedFiles).changes := by
  obtain ⟨active, requested, compared, present, forward, classified, below⟩ :=
    planRefresh_incremental_iff.mp incremental
  obtain ⟨changes, found⟩ := Option.isSome_iff_exists.mp classified
  refine ⟨compared, present, ?_⟩
  have ahead : ¬(compared.status = .behind ∨ compared.status = .diverged) := by
    rcases forward with same | same <;> simp [same]
  rw [Option.mem_def.mp present, planRefresh]
  simp [active, requested, ahead, found, Nat.not_le.mpr below]

/-- A plan is incremental in one case alone, and then names exactly the changed paths. -/
theorem refresh_planned_exactly (comparison : Option ValidComparison) (hasActiveIndex : Bool)
    (requestedMode : IndexingMode) (maxChangedFiles : Nat) :
    PlannedExactly comparison hasActiveIndex requestedMode maxChangedFiles
      (planSorted (comparison.map (·.toCommitComparison)) hasActiveIndex requestedMode
        maxChangedFiles) := by
  rw [planSorted_eq]
  refine ⟨?_, fun incremental => ?_, fun other => ?_, fun compared present files perm => ?_⟩
  · rw [planRefresh_incremental_iff]
    refine and_congr_right fun _ => and_congr_right fun _ => ?_
    constructor
    · rintro ⟨_, present, forward, classified, below⟩
      obtain ⟨compared, given, rfl⟩ := Option.mem_map.mp present
      exact ⟨compared, given, forward, (classifyComparison_isSome compared).mp classified, below⟩
    · rintro ⟨compared, given, allowed⟩
      exact ⟨_, Option.mem_map_of_mem _ given, allowed.forward,
        (classifyComparison_isSome compared).mpr allowed.safe, allowed.below⟩
  · obtain ⟨_, present, classified⟩ := planRefresh_changes incremental
    obtain ⟨compared, given, rfl⟩ := Option.mem_map.mp present
    exact ⟨compared, given, classifyComparison_paths classified⟩
  · cases mode : (planRefresh (comparison.map (·.toCommitComparison)) hasActiveIndex requestedMode
      maxChangedFiles).actualMode with
    | incremental => exact absurd mode other
    | full => rfl
  · rw [planSorted_eq, planRefresh_perm perm, Option.mem_def.mp present, Option.map_some]

end Codenaut.Indexing
