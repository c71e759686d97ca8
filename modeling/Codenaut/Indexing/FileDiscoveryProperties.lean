import Codenaut.Indexing.FileDiscovery

/-!
# Accounts of a scan

The visits of a tree are what a scan meets in some order: the directories it opens
and their entries. The state of a scan is an account of the visits made so far,
and a scan stops only at visits that no order can get past.
-/

set_option autoImplicit false

namespace Codenaut.Indexing.FileDiscovery

inductive Visit where
  | scanned (path : Path) (readable : Bool)
  | entry (directory : Path) (name : Name) (node : Node)

mutual

/-- What a scan meets from a directory on. -/
def Node.visits (path : Path) : Node → List Visit
  | .directory readable entries => .scanned path readable :: entryVisits path entries
  | .file _ _ | .symlink _ | .special => []

def entryVisits (path : Path) : List (Name × Node) → List Visit
  | [] => []
  | (name, node) :: entries =>
      .entry path name node ::
        ((if name ∈ ignoredDirectories then [] else node.visits (path ++ [name])) ++
          entryVisits path entries)

end

def Directory.visits (directory : Directory) : List Visit :=
  .scanned directory.path directory.readable :: entryVisits directory.path directory.entries

/-- The filters that a readable regular file has to pass. -/
def Kept (discovery : FileDiscovery) (name : Name) (size : Nat) (content : List Nat) : Prop :=
  Supported name ∧ size ≤ discovery.maxFileBytes ∧ isBinary content = false

instance (discovery : FileDiscovery) (name : Name) (size : Nat) (content : List Nat) :
    Decidable (Kept discovery name size content) :=
  inferInstanceAs (Decidable (_ ∧ _ ∧ _))

namespace Visit

def isFile : Visit → Bool
  | .entry _ _ (.file _ _) => true
  | _ => false

section Effects

variable (discovery : FileDiscovery) (root : Path)

/-- What stops the scan whatever came before. -/
def Faulty : Visit → Prop
  | .scanned _ readable => readable = false
  | .entry directory name node =>
      isRelativeTo (directory ++ [name]) root = false ∨
      match node with
      | .symlink target => ∀ path, target = .resolved path → isRelativeTo path root = false
      | .file none _ => True
      | .file (some size) none => Supported name ∧ size ≤ discovery.maxFileBytes
      | .file (some _) (some _) | .directory _ _ | .special => False

def kept : Visit → Option DiscoveredFile
  | .entry directory name (.file (some size) (some content)) =>
      if Kept discovery name size content then
        some ⟨relativePosix root (directory ++ [name]), size⟩
      else none
  | _ => none

def reason : Visit → Option SkipReason
  | .scanned _ _ => none
  | .entry _ name node =>
      match node with
      | .symlink _ => some .symlink
      | .directory _ _ => if name ∈ ignoredDirectories then some .ignoredDirectory else none
      | .special => some .specialFile
      | .file size content =>
          if ¬ Supported name then some .unsupportedType
          else if discovery.maxFileBytes < size.getD 0 then some .oversizedFile
          else if isBinary (content.getD []) then some .binaryFile else none

/-- The path that the system opens or lists. -/
def accessed : Visit → Option Path
  | .scanned path _ => some path
  | .entry directory name (.file (some size) _) =>
      if Supported name ∧ size ≤ discovery.maxFileBytes then some (directory ++ [name]) else none
  | _ => none

end Effects

end Visit

section Accounts

variable (discovery : FileDiscovery) (root : Path)

/-- The visits that some order can make without being stopped. -/
structure Sound (visits : List Visit) : Prop where
  clean : ∀ visit ∈ visits, ¬ visit.Faulty discovery root
  counted : visits.countP Visit.isFile ≤ discovery.maxFileCount
  total : ((visits.filterMap (Visit.kept discovery root)).map DiscoveredFile.sizeBytes).sum ≤
    discovery.maxTotalBytes

/-- The state of a scan that has made the visits. -/
structure Accounted (visits : List Visit) (scan : Scan) : Prop where
  sound : Sound discovery root visits
  files : scan.files = visits.filterMap (Visit.kept discovery root)
  inspected : scan.inspected = visits.countP Visit.isFile
  totalBytes : scan.totalBytes =
    ((visits.filterMap (Visit.kept discovery root)).map DiscoveredFile.sizeBytes).sum
  skipped : scan.skipped = visits.filterMap (Visit.reason discovery)
  accessed : scan.accessed = visits.filterMap (Visit.accessed discovery)

/-- A scan that the visits stopped. -/
structure Broken (visits : List Visit) (stopped : Stopped) : Prop where
  unsound : ¬ Sound discovery root visits
  accessed : stopped.accessed ⊆ visits.filterMap (Visit.accessed discovery)

/-- A result of visiting one more. -/
def Advances (visits : List Visit) : Except Stopped Scan → Prop
  | .ok scan => Accounted discovery root visits scan
  | .error stopped => Broken discovery root visits stopped

variable {discovery root}

theorem Sound.left {first second : List Visit} (sound : Sound discovery root (first ++ second)) :
    Sound discovery root first where
  clean visit member := sound.clean visit (List.mem_append_left _ member)
  counted := by
    have counted := sound.counted
    rw [List.countP_append] at counted
    omega
  total := by
    have total := sound.total
    rw [List.filterMap_append, List.map_append, List.sum_append] at total
    omega

theorem Sound.perm {first second : List Visit} (sound : Sound discovery root first)
    (same : first.Perm second) : Sound discovery root second where
  clean visit member := sound.clean visit (same.mem_iff.mpr member)
  counted := same.countP_eq _ ▸ sound.counted
  total := ((same.filterMap _).map _).sum_nat ▸ sound.total

theorem Accounted.nil : Accounted discovery root [] {} where
  sound := ⟨by simp, Nat.zero_le _, Nat.zero_le _⟩
  files := rfl
  inspected := rfl
  totalBytes := rfl
  skipped := rfl
  accessed := rfl

theorem filterMap_snoc {α β : Type} (value : α → Option β) (items : List α) (item : α) :
    (items ++ [item]).filterMap value = items.filterMap value ++ (value item).toList := by
  rw [List.filterMap_append]
  cases found : value item <;> simp [found]

/-- The state after one more visit that is no fault and stays within the limits. -/
theorem Accounted.visit {visits : List Visit} {scan next : Scan} {visit : Visit}
    (accounted : Accounted discovery root visits scan) (clean : ¬ visit.Faulty discovery root)
    (counted : next.inspected ≤ discovery.maxFileCount)
    (total : next.totalBytes ≤ discovery.maxTotalBytes)
    (files : next.files = scan.files ++ (visit.kept discovery root).toList)
    (inspected : next.inspected = scan.inspected + if visit.isFile then 1 else 0)
    (totalBytes : next.totalBytes = scan.totalBytes +
      ((visit.kept discovery root).toList.map DiscoveredFile.sizeBytes).sum)
    (skipped : next.skipped = scan.skipped ++ (visit.reason discovery).toList)
    (accessed : next.accessed = scan.accessed ++ (visit.accessed discovery).toList) :
    Accounted discovery root (visits ++ [visit]) next := by
  have inspectedSame : next.inspected = (visits ++ [visit]).countP Visit.isFile := by
    rw [inspected, accounted.inspected, List.countP_append, List.countP_singleton]
  have totalSame : next.totalBytes = (((visits ++ [visit]).filterMap
      (Visit.kept discovery root)).map DiscoveredFile.sizeBytes).sum := by
    rw [totalBytes, accounted.totalBytes, filterMap_snoc, List.map_append, List.sum_append]
  exact {
    sound := {
      clean := by
        intro other member
        rcases List.mem_append.mp member with earlier | last
        · exact accounted.sound.clean other earlier
        · exact List.mem_singleton.mp last ▸ clean
      counted := inspectedSame ▸ counted
      total := totalSame ▸ total }
    files := by rw [files, accounted.files, filterMap_snoc]
    inspected := inspectedSame
    totalBytes := totalSame
    skipped := by rw [skipped, accounted.skipped, filterMap_snoc]
    accessed := by rw [accessed, accounted.accessed, filterMap_snoc] }

section Stops

variable {visits : List Visit} {scan : Scan} {visit : Visit} {stopped : Stopped}

theorem Accounted.accessed_subset (accounted : Accounted discovery root visits scan)
    (visit : Visit) :
    scan.accessed ⊆ (visits ++ [visit]).filterMap (Visit.accessed discovery) := by
  rw [accounted.accessed, filterMap_snoc]
  exact List.subset_append_left _ _

theorem Accounted.broken_of_faulty (accounted : Accounted discovery root visits scan)
    (faulty : visit.Faulty discovery root)
    (accessed : stopped.accessed = scan.accessed ∨
      stopped.accessed = scan.accessed ++ (visit.accessed discovery).toList) :
    Broken discovery root (visits ++ [visit]) stopped where
  unsound sound := sound.clean visit (by simp) faulty
  accessed := by
    rcases accessed with same | same
    · exact same ▸ accounted.accessed_subset visit
    · rw [same, accounted.accessed, filterMap_snoc]
      exact List.Subset.refl _

theorem Accounted.broken_of_count (accounted : Accounted discovery root visits scan)
    (isFile : visit.isFile) (full : discovery.maxFileCount < scan.inspected + 1)
    (accessed : stopped.accessed = scan.accessed) :
    Broken discovery root (visits ++ [visit]) stopped where
  unsound sound := by
    have counted := sound.counted
    rw [List.countP_append, List.countP_singleton, if_pos isFile, ← accounted.inspected] at counted
    omega
  accessed := accessed ▸ accounted.accessed_subset visit

theorem Accounted.broken_of_total (accounted : Accounted discovery root visits scan)
    {file : DiscoveredFile} (kept : visit.kept discovery root = some file)
    (full : discovery.maxTotalBytes < scan.totalBytes + file.sizeBytes)
    (accessed : stopped.accessed = scan.accessed ++ (visit.accessed discovery).toList) :
    Broken discovery root (visits ++ [visit]) stopped where
  unsound sound := by
    have total := sound.total
    rw [filterMap_snoc, kept, List.map_append, List.sum_append, ← accounted.totalBytes] at total
    simp at total
    omega
  accessed := by
    rw [accessed, accounted.accessed, filterMap_snoc]
    exact List.Subset.refl _

end Stops

/-! ## One entry -/

theorem inspectFile_advances {visits : List Visit} {scan : Scan} {directory : Path}
    (accounted : Accounted discovery root visits scan) (name : Name) (size : Option Nat)
    (content : Option (List Nat)) (inside : isRelativeTo (directory ++ [name]) root = true) :
    Advances discovery root (visits ++ [.entry directory name (.file size content)])
      (inspectFile discovery root (directory ++ [name]) name size content scan) := by
  have within := accounted.totalBytes ▸ accounted.sound.total
  unfold inspectFile
  dsimp only
  split
  · next full =>
      exact accounted.broken_of_count rfl full rfl
  next counted =>
  rw [Nat.not_lt] at counted
  cases size with
  | none =>
      exact accounted.broken_of_faulty (.inr trivial) (.inl rfl)
  | some size =>
  dsimp only
  by_cases supported : Supported name
  swap
  · rw [if_pos supported]
    refine accounted.visit ?_ counted within ?_ rfl ?_ ?_ ?_
    · cases content <;> simp [Visit.Faulty, inside, supported]
    · cases content <;> simp [Visit.kept, Kept, supported, Scan.skip]
    · cases content <;> simp [Visit.kept, Kept, supported, Scan.skip]
    · simp [Visit.reason, supported, Scan.skip]
    · simp [Visit.accessed, supported, Scan.skip]
  rw [if_neg (not_not.mpr supported)]
  by_cases oversized : discovery.maxFileBytes < size
  · rw [if_pos oversized]
    have large : ¬ size ≤ discovery.maxFileBytes := Nat.not_le.mpr oversized
    refine accounted.visit ?_ counted within ?_ rfl ?_ ?_ ?_
    · cases content <;> simp [Visit.Faulty, inside, large]
    · cases content <;> simp [Visit.kept, Kept, large, Scan.skip]
    · cases content <;> simp [Visit.kept, Kept, large, Scan.skip]
    · simp [Visit.reason, supported, oversized, Scan.skip]
    · simp [Visit.accessed, large, Scan.skip]
  rw [if_neg oversized]
  have small := Nat.not_lt.mp oversized
  have opened : Visit.accessed discovery (.entry directory name (.file (some size) content)) =
      some (directory ++ [name]) := by
    simp [Visit.accessed, supported, small]
  cases content with
  | none =>
      exact accounted.broken_of_faulty (.inr ⟨supported, small⟩)
        (.inr (by rw [opened]; rfl))
  | some content =>
  dsimp only
  by_cases binary : isBinary content
  · rw [if_pos binary]
    refine accounted.visit ?_ counted within ?_ rfl ?_ ?_ ?_
    · simp [Visit.Faulty, inside]
    · simp [Visit.kept, Kept, binary, Scan.skip, Scan.access]
    · simp [Visit.kept, Kept, binary, Scan.skip, Scan.access]
    · simp [Visit.reason, supported, oversized, binary, Scan.skip, Scan.access]
    · rw [opened]
      rfl
  rw [if_neg binary]
  have kept : Visit.kept discovery root
      (.entry directory name (.file (some size) (some content))) =
      some ⟨relativePosix root (directory ++ [name]), size⟩ := by
    rw [Bool.not_eq_true] at binary
    simp [Visit.kept, Kept, supported, small, binary]
  split
  · next full =>
      exact accounted.broken_of_total kept full (by rw [opened]; rfl)
  · next room =>
    refine accounted.visit ?_ counted (Nat.not_lt.mp room) ?_ rfl ?_ ?_ ?_
    · simp [Visit.Faulty, inside]
    · rw [kept]
      rfl
    · rw [kept]
      simp [Scan.access]
    · simp [Visit.reason, supported, oversized, binary, Scan.access]
    · rw [opened]
      rfl

theorem handleSymlink_advances {visits : List Visit} {scan : Scan} {directory : Path}
    (accounted : Accounted discovery root visits scan) (name : Name) (target : LinkTarget)
    (inside : isRelativeTo (directory ++ [name]) root = true) :
    Advances discovery root (visits ++ [.entry directory name (.symlink target)])
      (handleSymlink root target scan) := by
  unfold handleSymlink
  cases target with
  | filesystemError =>
      exact accounted.broken_of_faulty (.inr fun path same => by cases same) (.inl rfl)
  | loop =>
      exact accounted.broken_of_faulty (.inr fun path same => by cases same) (.inl rfl)
  | resolved path =>
      dsimp only
      split
      · next held =>
          refine accounted.visit ?_ ?_ ?_ ?_ rfl ?_ rfl ?_
          · simp [Visit.Faulty, inside, held]
          · exact accounted.inspected ▸ accounted.sound.counted
          · exact accounted.totalBytes ▸ accounted.sound.total
          · simp [Visit.kept, Scan.skip]
          · simp [Visit.kept, Scan.skip]
          · simp [Visit.accessed, Scan.skip]
      · next escaped =>
          refine accounted.broken_of_faulty (.inr fun other same => ?_) (.inl rfl)
          cases same
          exact Bool.eq_false_iff.mpr escaped

/-- A visit that counts and opens nothing. -/
theorem Accounted.passed {visits : List Visit} {scan next : Scan} {directory : Path} {name : Name}
    {node : Node} (accounted : Accounted discovery root visits scan)
    (inside : isRelativeTo (directory ++ [name]) root = true)
    (passed : (∃ readable entries, node = .directory readable entries) ∨ node = .special)
    (same : next = { scan with
      skipped := scan.skipped ++ (Visit.reason discovery (.entry directory name node)).toList }) :
    Accounted discovery root (visits ++ [.entry directory name node]) next := by
  subst same
  have counted := accounted.inspected ▸ accounted.sound.counted
  have within := accounted.totalBytes ▸ accounted.sound.total
  rcases passed with ⟨readable, entries, rfl⟩ | rfl
  · exact accounted.visit (by simp [Visit.Faulty, inside]) counted within (by simp [Visit.kept]) rfl
      (by simp [Visit.kept]) rfl (by simp [Visit.accessed])
  · exact accounted.visit (by simp [Visit.Faulty, inside]) counted within (by simp [Visit.kept]) rfl
      (by simp [Visit.kept]) rfl (by simp [Visit.accessed])

theorem inspectEntry_ok {visits : List Visit} {scan next : Scan} {directory : Path} {name : Name}
    {node : Node} {pushed : List Directory} (accounted : Accounted discovery root visits scan)
    (ran : inspectEntry discovery root directory name node scan = .ok (next, pushed)) :
    Accounted discovery root (visits ++ [.entry directory name node]) next ∧
      pushed.flatMap Directory.visits =
        if name ∈ ignoredDirectories then [] else node.visits (directory ++ [name]) := by
  unfold inspectEntry at ran
  dsimp only at ran
  split at ran
  · cases ran
  next inside =>
  rw [Bool.not_eq_true, Bool.not_eq_false] at inside
  cases node with
  | file size content =>
      obtain ⟨_, inspected, returned⟩ := bind_ok ran
      cases returned
      have advances := inspectFile_advances accounted name size content inside
      rw [inspected] at advances
      exact ⟨advances, by simp [Node.visits]⟩
  | directory readable entries =>
      dsimp only at ran
      split at ran
      · next ignored =>
          cases ran
          exact ⟨accounted.passed inside (.inl ⟨_, _, rfl⟩) (by simp [Visit.reason, ignored,
            Scan.skip]), by simp [ignored]⟩
      · next entered =>
          cases ran
          exact ⟨accounted.passed inside (.inl ⟨_, _, rfl⟩) (by simp [Visit.reason, entered]),
            by simp [entered, Node.visits, Directory.visits]⟩
  | symlink target =>
      obtain ⟨_, inspected, returned⟩ := bind_ok ran
      cases returned
      have advances := handleSymlink_advances accounted name target inside
      rw [inspected] at advances
      exact ⟨advances, by simp [Node.visits]⟩
  | special =>
      cases ran
      exact ⟨accounted.passed inside (.inr rfl) rfl, by simp [Node.visits]⟩

theorem inspectEntry_error {visits : List Visit} {scan : Scan} {directory : Path} {name : Name}
    {node : Node} {stopped : Stopped} (accounted : Accounted discovery root visits scan)
    (ran : inspectEntry discovery root directory name node scan = .error stopped) :
    Broken discovery root (visits ++ [.entry directory name node]) stopped := by
  unfold inspectEntry at ran
  dsimp only at ran
  split at ran
  · next outside =>
      cases ran
      exact accounted.broken_of_faulty (.inl (by simpa using outside)) (.inl rfl)
  next inside =>
  rw [Bool.not_eq_true, Bool.not_eq_false] at inside
  cases node with
  | file size content =>
      have advances := inspectFile_advances accounted name size content inside
      rcases bind_error ran with failed | ⟨_, _, returned⟩
      · rwa [failed] at advances
      · cases returned
  | directory readable entries =>
      dsimp only at ran
      split at ran <;> cases ran
  | symlink target =>
      have advances := handleSymlink_advances accounted name target inside
      rcases bind_error ran with failed | ⟨_, _, returned⟩
      · rwa [failed] at advances
      · cases returned
  | special => cases ran

/-! ## The entries of a directory -/

theorem inspectEntries_ok {visits : List Visit} {scan final : Scan} {directory : Path}
    {entries : List (Name × Node)} {pushed : List Directory}
    (accounted : Accounted discovery root visits scan)
    (ran : inspectEntries discovery root directory entries scan = .ok (final, pushed)) :
    ∃ own, Accounted discovery root (visits ++ own) final ∧
      (own ++ pushed.flatMap Directory.visits).Perm (entryVisits directory entries) := by
  induction entries generalizing visits scan final pushed with
  | nil =>
      cases ran
      exact ⟨[], by simpa using accounted, .refl _⟩
  | cons entry entries ih =>
      obtain ⟨⟨next, below⟩, first, rest⟩ := bind_ok ran
      obtain ⟨⟨last, above⟩, later, returned⟩ := bind_ok rest
      cases returned
      obtain ⟨advanced, belowVisits⟩ := inspectEntry_ok accounted first
      obtain ⟨own, accounted, same⟩ := ih advanced later
      refine ⟨.entry directory entry.1 entry.2 :: own, by simpa using accounted, ?_⟩
      simp only [List.flatMap_append, entryVisits, ← belowVisits, List.cons_append]
      refine List.Perm.cons _ ?_
      rw [← List.append_assoc]
      exact (same.append_right _).trans List.perm_append_comm

theorem inspectEntries_error {visits : List Visit} {scan : Scan} {directory : Path}
    {entries : List (Name × Node)} {stopped : Stopped}
    (accounted : Accounted discovery root visits scan)
    (ran : inspectEntries discovery root directory entries scan = .error stopped) :
    ∃ own later, Broken discovery root (visits ++ own) stopped ∧
      (own ++ later).Perm (entryVisits directory entries) := by
  induction entries generalizing visits scan with
  | nil => cases ran
  | cons entry entries ih =>
      rcases bind_error ran with failed | ⟨⟨next, below⟩, first, rest⟩
      · exact ⟨[.entry directory entry.1 entry.2], _, inspectEntry_error accounted failed, .refl _⟩
      · obtain ⟨advanced, -⟩ := inspectEntry_ok accounted first
        rcases bind_error rest with failed | ⟨_, _, returned⟩
        · obtain ⟨own, later, broken, same⟩ := ih advanced failed
          refine ⟨.entry directory entry.1 entry.2 :: own,
            later ++ if entry.1 ∈ ignoredDirectories then []
              else entry.2.visits (directory ++ [entry.1]), by simpa using broken, ?_⟩
          rw [entryVisits, List.cons_append, ← List.append_assoc]
          exact ((same.append_right _).trans List.perm_append_comm).cons _
        · cases returned

/-! ## The whole scan -/

theorem entryVisits_eq (path : Path) (entries : List (Name × Node)) :
    entryVisits path entries = entries.flatMap fun entry =>
      .entry path entry.1 entry.2 ::
        if entry.1 ∈ ignoredDirectories then [] else entry.2.visits (path ++ [entry.1]) := by
  induction entries with
  | nil => rfl
  | cons entry entries ih => simp [entryVisits, ih]

theorem entryVisits_perm {path : Path} {entries listed : List (Name × Node)}
    (same : entries.Perm listed) : (entryVisits path entries).Perm (entryVisits path listed) := by
  rw [entryVisits_eq, entryVisits_eq]
  exact same.flatMap_right _

theorem Accounted.opened {visits : List Visit} {scan : Scan}
    (accounted : Accounted discovery root visits scan) (path : Path) :
    Accounted discovery root (visits ++ [.scanned path true]) (scan.access path) :=
  accounted.visit (by simp [Visit.Faulty]) (accounted.inspected ▸ accounted.sound.counted)
    (accounted.totalBytes ▸ accounted.sound.total) (by simp [Visit.kept, Scan.access]) rfl
    (by simp [Visit.kept, Scan.access]) (by simp [Visit.reason, Scan.access]) rfl

/-- A scan tells the visits of the directories on its stack. -/
def account (discovery : FileDiscovery) (enumeration : Enumeration) (root : Path) :
    Worklist.Account (directories discovery enumeration root) Visit where
  events := Directory.visits
  Holds := Accounted discovery root
  Broken := Broken discovery root
  handled := by
    intro seen scan next directory pushed accounted ran
    simp only [directories, scanDirectory] at ran
    split at ran
    · next readable =>
        obtain ⟨own, final, same⟩ := inspectEntries_ok (accounted.opened directory.path) ran
        refine ⟨.scanned directory.path true :: own, by simpa using final, ?_⟩
        rw [Directory.visits, readable]
        exact (same.trans (entryVisits_perm (enumeration.perm _ _))).cons _
    · cases ran
  failed := by
    intro seen scan directory stopped accounted ran
    simp only [directories, scanDirectory] at ran
    split at ran
    · next readable =>
        obtain ⟨own, later, broken, same⟩ :=
          inspectEntries_error (accounted.opened directory.path) ran
        refine ⟨.scanned directory.path true :: own, later, by simpa using broken, ?_⟩
        rw [Directory.visits, readable]
        exact (same.trans (entryVisits_perm (enumeration.perm _ _))).cons _
    · next unreadable =>
        cases ran
        rw [Bool.not_eq_true] at unreadable
        refine ⟨[.scanned directory.path directory.readable], entryVisits directory.path
          directory.entries, accounted.broken_of_faulty unreadable (.inr rfl), .refl _⟩

end Accounts

end Codenaut.Indexing.FileDiscovery
