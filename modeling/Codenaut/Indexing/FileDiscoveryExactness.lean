import Codenaut.Indexing.FileDiscoveryProperties
import Codenaut.Text.Separated

/-!
# Exactness of discovery

What a scan visits are the nodes that the tree reaches through directories. A
discovery returns the files among them that pass the filters, and the order of the
scan decides neither whether it succeeds nor what it returns.
-/

set_option autoImplicit false

namespace Codenaut.Indexing.FileDiscovery

/-- The tree has the node at the path, through directories only. -/
inductive Node.Reaches (tree : Node) : Path → Node → Prop where
  | root : tree.Reaches [] tree
  | entry {path : Path} {readable : Bool} {entries : List (Name × Node)} {name : Name} {node : Node}
      (directory : tree.Reaches path (.directory readable entries))
      (listed : (name, node) ∈ entries) : tree.Reaches (path ++ [name]) node

/-- Induction over a tree with the path of each node. -/
theorem Node.tree_induction {holds : Path → Node → Prop}
    (leaf : ∀ path node, (∀ base, node.visits base = []) → holds path node)
    (directory : ∀ path readable entries,
      (∀ name node, (name, node) ∈ entries → holds (path ++ [name]) node) →
      holds path (.directory readable entries)) (path : Path) (node : Node) : holds path node := by
  refine (Node.visits.mutual_induct holds
    (fun path entries => ∀ name node, (name, node) ∈ entries → holds (path ++ [name]) node)
    directory ?_ ?_ ?_ ?_ ?_).1 path node
  · exact fun path size content => leaf _ _ fun _ => rfl
  · exact fun path target => leaf _ _ fun _ => rfl
  · exact fun path => leaf _ _ fun _ => rfl
  · intro path name node member
    cases member
  · intro path name node entries own rest other inner member
    rcases List.mem_cons.mp member with same | later
    · cases same
      exact own
    · exact rest other inner later

/-- No directory on the way is ignored. -/
def Unignored (path : Path) : Prop := ∀ name ∈ path, name ∉ ignoredDirectories

/-- A regular file that meets the filters under no ignored directory. -/
def Qualifies (discovery : FileDiscovery) (tree : Node) (file : DiscoveredFile) : Prop :=
  ∃ path name size content, tree.Reaches (path ++ [name]) (.file (some size) (some content)) ∧
    Unignored path ∧ Kept discovery name size content ∧
    file = ⟨[slash].intercalate (path ++ [name]), size⟩

section Reaching

variable {tree node : Node} {path : Path}

theorem Node.Reaches.under {readable : Bool} {entries : List (Name × Node)} {name : Name}
    {inner : Node} (listed : (name, node) ∈ entries) (reached : node.Reaches path inner) :
    (Node.directory readable entries).Reaches (name :: path) inner := by
  induction reached with
  | root => exact Node.Reaches.entry .root listed
  | entry directory inside ih => exact .entry ih inside

/-- What lies on the way to a node is a directory. -/
theorem Node.Reaches.initial (reached : tree.Reaches path node) {before : Path}
    (initial : before <+: path) :
    (before = path) ∨ ∃ readable entries, tree.Reaches before (.directory readable entries) := by
  induction reached with
  | root => exact .inl (List.prefix_nil.mp initial)
  | @entry path readable entries name node directory listed ih =>
      rcases List.prefix_concat_iff.mp initial with same | within
      · exact .inl same
      · rcases ih within with rfl | outer
        · exact .inr ⟨readable, entries, directory⟩
        · exact .inr outer

/-- A visit is made in a directory that is reached, to it or to one of its entries. -/
theorem mem_visits_of_reaches {base : Path} {visit : Visit} (reached : tree.Reaches path node)
    (unignored : Unignored path) (member : visit ∈ node.visits (base ++ path)) :
    visit ∈ tree.visits base := by
  induction reached generalizing visit with
  | root => simpa using member
  | @entry path readable entries name node directory listed ih =>
      have outer : Unignored path := fun other inside =>
        unignored other (List.mem_append_left _ inside)
      have own : name ∉ ignoredDirectories := unignored name (by simp)
      refine ih outer (List.mem_cons_of_mem _ ?_)
      rw [entryVisits_eq]
      refine List.mem_flatMap.mpr ⟨(name, node), listed, List.mem_cons_of_mem _ ?_⟩
      rw [if_neg own, List.append_assoc]
      exact member

/-- The visits made in one directory. -/
def Visit.In (path : Path) (readable : Bool) (entries : List (Name × Node))
    (visit : Visit) : Prop :=
  visit = .scanned path readable ∨
    ∃ name node, (name, node) ∈ entries ∧ visit = .entry path name node

theorem reaches_of_mem_visits (base : Path) (tree : Node) {visit : Visit}
    (member : visit ∈ tree.visits base) :
    ∃ path readable entries, tree.Reaches path (.directory readable entries) ∧
      Unignored path ∧ visit.In (base ++ path) readable entries := by
  induction base, tree using Node.tree_induction with
  | leaf base tree empty =>
      rw [empty base] at member
      cases member
  | directory base readable entries ih =>
      rw [Node.visits, entryVisits_eq] at member
      have here : ∀ own : visit.In base readable entries, ∃ path inside listed,
          (Node.directory readable entries).Reaches path (.directory inside listed) ∧
          Unignored path ∧ visit.In (base ++ path) inside listed := fun own =>
        ⟨[], readable, entries, .root, by simp [Unignored], by rwa [List.append_nil]⟩
      rcases List.mem_cons.mp member with scanned | member
      · exact here (.inl scanned)
      obtain ⟨⟨name, node⟩, listed, member⟩ := List.mem_flatMap.mp member
      rcases List.mem_cons.mp member with entry | member
      · exact here (.inr ⟨name, node, listed, entry⟩)
      by_cases ignored : name ∈ ignoredDirectories
      · rw [if_pos ignored] at member
        cases member
      · rw [if_neg ignored] at member
        obtain ⟨path, inside, inner, reached, unignored, own⟩ := ih name node listed member
        refine ⟨name :: path, inside, inner, reached.under listed, ?_, ?_⟩
        · intro other within
          rcases List.mem_cons.mp within with rfl | later
          · exact ignored
          · exact unignored other later
        · rwa [List.append_assoc] at own

theorem mem_visits_iff {base : Path} {tree : Node} {visit : Visit} :
    visit ∈ tree.visits base ↔ ∃ path readable entries,
      tree.Reaches path (.directory readable entries) ∧ Unignored path ∧
      visit.In (base ++ path) readable entries := by
  constructor
  · exact reaches_of_mem_visits base tree
  · rintro ⟨path, readable, entries, reached, unignored, own⟩
    refine mem_visits_of_reaches reached unignored ?_
    rcases own with rfl | ⟨name, node, listed, rfl⟩
    · exact List.mem_cons_self
    · refine List.mem_cons_of_mem _ ?_
      rw [entryVisits_eq]
      exact List.mem_flatMap.mpr ⟨(name, node), listed, List.mem_cons_self⟩

end Reaching

/-! ## Names -/

section Names

variable {tree node : Node} {path : Path}

theorem entriesNamed_iff {entries : List (Name × Node)} :
    entriesNamed entries = true ↔
      ∀ entry ∈ entries, validName entry.1 = true ∧ entry.2.wellNamed = true := by
  induction entries with
  | nil => simp [entriesNamed]
  | cons entry entries ih => simp [entriesNamed, ih, and_assoc]

theorem wellNamed_directory {readable : Bool} {entries : List (Name × Node)} :
    (Node.directory readable entries).wellNamed = true ↔ (entries.map Prod.fst).Nodup ∧
      ∀ entry ∈ entries, validName entry.1 = true ∧ entry.2.wellNamed = true := by
  rw [Node.wellNamed, Bool.and_eq_true, decide_eq_true_iff, entriesNamed_iff]

theorem Node.Reaches.wellNamed (named : tree.wellNamed = true) (reached : tree.Reaches path node) :
    node.wellNamed = true := by
  induction reached with
  | root => exact named
  | entry directory listed ih => exact ((wellNamed_directory.mp ih).2 _ listed).2

theorem slash_not_mem {name : Name} (valid : validName name = true) : slash ∉ name := by
  simp only [validName, Bool.and_eq_true, Bool.not_eq_true', List.contains_eq_mem,
    decide_eq_false_iff_not] at valid
  exact valid.1.1.1.2

theorem Node.Reaches.slash_free (named : tree.wellNamed = true)
    (reached : tree.Reaches path node) : ∀ name ∈ path, slash ∉ name := by
  induction reached with
  | root => simp
  | entry directory listed ih =>
      intro other member
      rcases List.mem_append.mp member with within | last
      · exact ih other within
      · rw [List.mem_singleton.mp last]
        exact slash_not_mem ((wellNamed_directory.mp (directory.wellNamed named)).2 _ listed).1

/-- A path leads to one node. -/
theorem Node.Reaches.unique (named : tree.wellNamed = true) {other : Node}
    (reached : tree.Reaches path node) (again : tree.Reaches path other) : node = other := by
  induction reached generalizing other with
  | root =>
      generalize same : ([] : Path) = path at again
      cases again with
      | root => rfl
      | entry directory listed => simp at same
  | @entry path readable entries name node directory listed ih =>
      generalize same : path ++ [name] = whole at again
      cases again with
      | root => simp at same
      | @entry outer also inside last inner another held =>
          obtain ⟨rfl, lasts⟩ := List.append_inj' same rfl
          obtain rfl := List.singleton_inj.mp lasts
          obtain ⟨rfl, rfl⟩ := Node.directory.inj (ih another)
          have apart := (wellNamed_directory.mp (directory.wellNamed named)).1
          exact congrArg Prod.snd (List.inj_on_of_nodup_map apart listed held rfl)

/-- No path that leads to a directory or a file crosses a symbolic link. -/
theorem Node.Reaches.no_symlink (named : tree.wellNamed = true) (reached : tree.Reaches path node)
    (solid : ∀ target, node ≠ .symlink target) {before : Path} (initial : before <+: path)
    (target : LinkTarget) : ¬ tree.Reaches before (.symlink target) := by
  intro link
  rcases reached.initial initial with rfl | ⟨readable, entries, directory⟩
  · exact solid target (reached.unique named link)
  · exact Node.noConfusion (directory.unique named link)

/-- `as_posix` tells paths of valid names apart. -/
theorem posix_injective {left right : Path} (leftFree : ∀ name ∈ left, slash ∉ name)
    (rightFree : ∀ name ∈ right, slash ∉ name) (leftSome : left ≠ []) (rightSome : right ≠ [])
    (same : [slash].intercalate left = [slash].intercalate right) : left = right := by
  rw [← List.splitOn_intercalate slash leftFree leftSome, same,
    List.splitOn_intercalate slash rightFree rightSome]

end Names

/-! ## Each path once -/

namespace Visit

/-- The path of an entry. -/
def path : Visit → Option Path
  | .scanned _ _ => none
  | .entry directory name _ => some (directory ++ [name])

end Visit

theorem visits_path_under {base : Path} {tree : Node} {path : Path}
    (member : path ∈ (tree.visits base).filterMap Visit.path) :
    ∃ inner name, path = base ++ inner ++ [name] := by
  obtain ⟨visit, visited, named⟩ := List.mem_filterMap.mp member
  obtain ⟨inner, readable, entries, -, -, own⟩ := mem_visits_iff.mp visited
  rcases own with rfl | ⟨name, node, -, rfl⟩
  · cases named
  · exact ⟨inner, name, (Option.some.inj named).symm⟩

theorem visits_path_nodup (base : Path) (tree : Node) (named : tree.wellNamed = true) :
    ((tree.visits base).filterMap Visit.path).Nodup := by
  induction base, tree using Node.tree_induction with
  | leaf base tree empty => simp [empty]
  | directory base readable entries ih =>
      obtain ⟨apart, inner⟩ := wellNamed_directory.mp named
      rw [Node.visits, entryVisits_eq]
      have below : ∀ entry ∈ entries, ∀ path, path ∈ (if entry.1 ∈ ignoredDirectories then []
          else entry.2.visits (base ++ [entry.1])).filterMap Visit.path →
          ∃ rest last, path = base ++ [entry.1] ++ rest ++ [last] := by
        intro entry _ path member
        split at member
        · cases member
        · exact visits_path_under member
      rw [List.filterMap_cons_none rfl, List.filterMap_flatMap, List.nodup_flatMap]
      have heads : ∀ name node (rest : List Visit),
          (Visit.entry base name node :: rest).filterMap Visit.path =
            (base ++ [name]) :: rest.filterMap Visit.path := fun _ _ _ => rfl
      simp only [heads]
      constructor
      · intro entry listed
        refine List.nodup_cons.mpr ⟨fun own => ?_, ?_⟩
        · obtain ⟨rest, last, same⟩ := below entry listed _ own
          simp at same
        · split
          · exact List.nodup_nil
          · exact ih entry.1 entry.2 listed (inner entry listed).2
      · refine (List.pairwise_map.mp apart).imp_of_mem ?_
        intro first second firstListed secondListed differ path firstMember secondMember
        have starts : ∀ entry ∈ entries, path ∈ (base ++ [entry.1]) ::
            (if entry.1 ∈ ignoredDirectories then []
              else entry.2.visits (base ++ [entry.1])).filterMap Visit.path →
            ∃ rest, path = base ++ entry.1 :: rest := by
          intro entry listed member
          rcases List.mem_cons.mp member with rfl | later
          · exact ⟨[], rfl⟩
          · obtain ⟨rest, last, rfl⟩ := below entry listed path later
            exact ⟨rest ++ [last], by simp⟩
        obtain ⟨rest, rfl⟩ := starts first firstListed firstMember
        obtain ⟨other, same⟩ := starts second secondListed secondMember
        exact differ (List.cons.inj (List.append_cancel_left same)).1

/-! ## The result -/

section Results

variable {discovery : FileDiscovery} {root : Path} {tree : Node} {visits : List Visit} {scan : Scan}

theorem kept_eq_some {visit : Visit} {file : DiscoveredFile} :
    visit.kept discovery root = some file ↔ ∃ directory name size content,
      visit = .entry directory name (.file (some size) (some content)) ∧
      Kept discovery name size content ∧
      file = ⟨relativePosix root (directory ++ [name]), size⟩ := by
  constructor
  · intro kept
    unfold Visit.kept at kept
    split at kept
    · next directory name size content =>
        split at kept
        · next filtered => exact ⟨directory, name, size, content, rfl, filtered,
            (Option.some.inj kept).symm⟩
        · cases kept
    · cases kept
  · rintro ⟨directory, name, size, content, rfl, filtered, rfl⟩
    exact if_pos filtered

theorem relativePosix_under (root path : Path) :
    relativePosix root (root ++ path) = [slash].intercalate path := by
  simp [relativePosix]

theorem kept_iff_qualifies {file : DiscoveredFile} :
    file ∈ (tree.visits root).filterMap (Visit.kept discovery root) ↔
      Qualifies discovery tree file := by
  constructor
  · intro member
    obtain ⟨visit, visited, kept⟩ := List.mem_filterMap.mp member
    obtain ⟨directory, name, size, content, rfl, filtered, rfl⟩ := kept_eq_some.mp kept
    obtain ⟨path, readable, entries, reached, unignored, own⟩ := mem_visits_iff.mp visited
    rcases own with same | ⟨inner, node, listed, same⟩
    · cases same
    · cases same
      refine ⟨path, name, size, content, .entry reached listed, unignored, filtered, ?_⟩
      rw [List.append_assoc, relativePosix_under]
  · rintro ⟨path, name, size, content, reached, unignored, filtered, rfl⟩
    generalize whole : path ++ [name] = inner at reached
    cases reached with
    | root => simp at whole
    | @entry outer readable entries last node directory listed =>
        obtain ⟨rfl, lasts⟩ := List.append_inj' whole rfl
        obtain rfl := List.singleton_inj.mp lasts
        refine List.mem_filterMap.mpr
          ⟨.entry (root ++ path) name (.file (some size) (some content)), ?_, ?_⟩
        · exact mem_visits_iff.mpr ⟨path, readable, entries, directory, unignored,
            .inr ⟨name, _, listed, rfl⟩⟩
        · refine kept_eq_some.mpr ⟨_, name, size, content, rfl, filtered, ?_⟩
          rw [List.append_assoc, relativePosix_under]

/-- No two files have one path. -/
theorem kept_nodup (named : tree.wellNamed = true) :
    (((tree.visits root).filterMap (Visit.kept discovery root)).map
      DiscoveredFile.relativePath).Nodup := by
  have apart := visits_path_nodup root tree named
  rw [List.Nodup, List.pairwise_filterMap] at apart
  rw [List.Nodup, List.pairwise_map, List.pairwise_filterMap]
  refine apart.imp_of_mem ?_
  intro first second firstVisited secondVisited differ left leftKept right rightKept same
  have located : ∀ visit ∈ tree.visits root, ∀ file, visit.kept discovery root = some file →
      ∃ inner, visit.path = some (root ++ inner) ∧ inner ≠ [] ∧ (∀ name ∈ inner, slash ∉ name) ∧
        file.relativePath = [slash].intercalate inner := by
    intro visit visited file kept
    obtain ⟨directory, name, size, content, rfl, -, rfl⟩ := kept_eq_some.mp kept
    obtain ⟨path, readable, entries, reached, -, own⟩ := mem_visits_iff.mp visited
    rcases own with same | ⟨inner, node, listed, same⟩
    · cases same
    · cases same
      refine ⟨path ++ [name], by simp [Visit.path], by simp,
        (Node.Reaches.entry reached listed).slash_free named, ?_⟩
      rw [List.append_assoc, relativePosix_under]
  obtain ⟨leftInner, leftPath, leftSome, leftFree, leftPosix⟩ :=
    located first firstVisited left leftKept
  obtain ⟨rightInner, rightPath, rightSome, rightFree, rightPosix⟩ :=
    located second secondVisited right rightKept
  refine differ _ leftPath _ rightPath (congrArg _ ?_)
  exact posix_injective leftFree rightFree leftSome rightSome
    (leftPosix.symm.trans (same.trans rightPosix))

theorem sortOn_strict {files : List DiscoveredFile}
    (apart : (files.map DiscoveredFile.relativePath).Nodup) :
    (Relational.sortOn DiscoveredFile.relativePath files).Pairwise
      fun left right => left.relativePath < right.relativePath := by
  have sorted := Relational.sortOn_pairwise DiscoveredFile.relativePath files
  have differ := ((Relational.sortOn_perm DiscoveredFile.relativePath files).map
    DiscoveredFile.relativePath).nodup_iff.mpr apart
  exact (sorted.and (List.pairwise_map.mp differ)).imp fun both => lt_of_le_of_ne both.1 both.2

/-- The order of the visits does not show in the result. -/
theorem Accounted.result_eq {other : Scan} {again : List Visit}
    (accounted : Accounted discovery root visits scan)
    (also : Accounted discovery root again other) (same : visits.Perm again)
    (apart : (scan.files.map DiscoveredFile.relativePath).Nodup) : scan.result = other.result := by
  have files : scan.files.Perm other.files := by
    rw [accounted.files, also.files]
    exact same.filterMap _
  have skipped : scan.skipped.Perm other.skipped := by
    rw [accounted.skipped, also.skipped]
    exact same.filterMap _
  have sorted : Relational.sortOn DiscoveredFile.relativePath scan.files =
      Relational.sortOn DiscoveredFile.relativePath other.files := by
    have perm := (Relational.sortOn_perm DiscoveredFile.relativePath scan.files).trans
      (files.trans (Relational.sortOn_perm DiscoveredFile.relativePath other.files).symm)
    refine perm.eq_of_pairwise (fun left right _ _ first second => ?_) (sortOn_strict apart)
      (sortOn_strict ((files.map _).nodup_iff.mp apart))
    exact (lt_asymm first second).elim
  have inspected : scan.inspected = other.inspected := by
    rw [accounted.inspected, also.inspected, same.countP_eq]
  have total : scan.totalBytes = other.totalBytes := by
    rw [accounted.totalBytes, also.totalBytes]
    exact ((same.filterMap _).map _).sum_nat
  simp only [Scan.result, sorted, inspected, total, skipped.mem_iff, skipped.count_eq]

end Results

section Discoveries

variable {discovery : FileDiscovery} {enumeration : Enumeration} {checkout : Checkout}

/-- A discovery accounts for the visits of the tree, in the order it made them. -/
structure Succeeds (discovery : FileDiscovery) (checkout : Checkout) (found : Discovery)
    (visits : List Visit) (scan : Scan) : Prop where
  directory : ∃ readable entries, checkout.tree = .directory readable entries
  outcome : found.outcome = .ok scan.result
  accessed : found.accessed = scan.accessed
  accounted : Accounted discovery checkout.root visits scan
  whole : visits.Perm (checkout.tree.visits checkout.root)

/-- A discovery that no order of the visits could carry through. -/
structure Fails (discovery : FileDiscovery) (checkout : Checkout) (found : Discovery) : Prop where
  outcome : ∃ failure, found.outcome = .error failure
  accessed : found.accessed ⊆
    (checkout.tree.visits checkout.root).filterMap (Visit.accessed discovery)
  reason : (∀ readable entries, checkout.tree ≠ .directory readable entries) ∨
    ¬ Sound discovery checkout.root (checkout.tree.visits checkout.root)

theorem discover_cases (discovery : FileDiscovery) (enumeration : Enumeration)
    (checkout : Checkout) :
    (∃ visits scan, Succeeds discovery checkout
      (discover discovery enumeration (some checkout)) visits scan) ∨
    Fails discovery checkout (discover discovery enumeration (some checkout)) := by
  unfold discover
  dsimp only
  cases shape : checkout.tree with
  | file _ _ | symlink _ | special =>
      refine .inr ⟨⟨_, rfl⟩, List.nil_subset _, .inl fun readable entries same => ?_⟩
      rw [shape] at same
      cases same
  | directory readable entries =>
      dsimp only
      have start : [(⟨checkout.root, readable, entries⟩ : Directory)].flatMap Directory.visits =
          checkout.tree.visits checkout.root := by
        simp [shape, Node.visits, Directory.visits]
      split
      · next scan ran =>
          obtain ⟨visits, accounted, whole⟩ :=
            (account discovery enumeration checkout.root).run_ok .nil ran
          exact .inl ⟨visits, scan, ⟨readable, entries, shape⟩, rfl, rfl, accounted,
            whole.trans (.of_eq start)⟩
      · next stopped ran =>
          obtain ⟨visits, later, broken, whole⟩ :=
            (account discovery enumeration checkout.root).run_error .nil ran
          have same := whole.trans (.of_eq start)
          refine .inr ⟨⟨_, rfl⟩, fun path member => ?_, .inr fun sound => ?_⟩
          · refine (same.filterMap _).mem_iff.mp ?_
            rw [List.filterMap_append]
            exact List.mem_append_left _ (broken.accessed member)
          · exact broken.unsound (sound.perm same.symm).left

theorem Succeeds.sound {found : Discovery} {visits : List Visit} {scan : Scan}
    (succeeds : Succeeds discovery checkout found visits scan) :
    Sound discovery checkout.root (checkout.tree.visits checkout.root) :=
  succeeds.accounted.sound.perm succeeds.whole

theorem Succeeds.files_nodup {found : Discovery} {visits : List Visit} {scan : Scan}
    (succeeds : Succeeds discovery checkout found visits scan) :
    (scan.files.map DiscoveredFile.relativePath).Nodup := by
  rw [succeeds.accounted.files]
  exact ((succeeds.whole.filterMap _).map _).nodup_iff.mpr (kept_nodup checkout.named)

/-- What a successful discovery returns. -/
structure Exact (discovery : FileDiscovery) (tree : Node) (result : DiscoveryResult) : Prop where
  files : ∀ file, file ∈ result.files ↔ Qualifies discovery tree file
  sorted : result.files.Pairwise fun left right => left.relativePath < right.relativePath
  totalBytes : result.totalBytes = (result.files.map DiscoveredFile.sizeBytes).sum
  totalLimit : result.totalBytes ≤ discovery.maxTotalBytes
  fileLimit : ∀ file ∈ result.files, file.sizeBytes ≤ discovery.maxFileBytes
  inspected : result.files.length ≤ result.inspectedFileCount
  countLimit : result.inspectedFileCount ≤ discovery.maxFileCount

theorem kept_length_le (visits : List Visit) :
    (visits.filterMap (Visit.kept discovery checkout.root)).length ≤
      visits.countP Visit.isFile := by
  rw [List.length_filterMap_eq_countP]
  refine List.countP_mono_left fun visit _ some => ?_
  obtain ⟨file, kept⟩ := Option.isSome_iff_exists.mp some
  obtain ⟨directory, name, size, content, rfl, -, -⟩ := kept_eq_some.mp kept
  rfl

theorem Succeeds.exact {found : Discovery} {visits : List Visit} {scan : Scan}
    (succeeds : Succeeds discovery checkout found visits scan) :
    Exact discovery checkout.tree scan.result := by
  have accounted := succeeds.accounted
  have sorting := Relational.sortOn_perm DiscoveredFile.relativePath scan.files
  have files : ∀ file, file ∈ scan.result.files ↔ Qualifies discovery checkout.tree file := by
    intro file
    have kept := succeeds.whole.filterMap (Visit.kept discovery checkout.root)
    rw [← accounted.files] at kept
    exact sorting.mem_iff.trans (kept.mem_iff.trans kept_iff_qualifies)
  exact {
    files
    sorted := sortOn_strict succeeds.files_nodup
    totalBytes := by
      rw [Scan.result, accounted.totalBytes, ← accounted.files]
      exact (sorting.symm.map _).sum_nat
    totalLimit := accounted.totalBytes.le.trans accounted.sound.total
    fileLimit := by
      intro file member
      obtain ⟨path, name, size, content, -, -, kept, rfl⟩ := (files file).mp member
      exact kept.2.1
    inspected := by
      rw [Scan.result, accounted.inspected, sorting.length_eq, accounted.files]
      exact kept_length_le visits
    countLimit := accounted.inspected.le.trans accounted.sound.counted }

theorem Succeeds.outcome_eq {found again : Discovery} {visits others : List Visit}
    {scan other : Scan} (succeeds : Succeeds discovery checkout found visits scan)
    (also : Succeeds discovery checkout again others other) : found.outcome = again.outcome := by
  rw [succeeds.outcome, also.outcome, succeeds.accounted.result_eq also.accounted
    (succeeds.whole.trans also.whole.symm) succeeds.files_nodup]

theorem Fails.not_succeeds {found again : Discovery} {visits : List Visit} {scan : Scan}
    (fails : Fails discovery checkout found)
    (succeeds : Succeeds discovery checkout again visits scan) : False := by
  rcases fails.reason with flat | unsound
  · obtain ⟨readable, entries, shape⟩ := succeeds.directory
    exact flat readable entries shape
  · exact unsound succeeds.sound

/-- One order succeeds with a result exactly when every other does. -/
theorem outcome_ok_of_other {result : DiscoveryResult} (other : Enumeration)
    (ran : (discover discovery enumeration (some checkout)).outcome = .ok result) :
    (discover discovery other (some checkout)).outcome = .ok result := by
  rcases discover_cases discovery enumeration checkout with ⟨visits, scan, succeeds⟩ | fails
  · rcases discover_cases discovery other checkout with ⟨others, final, also⟩ | fails
    · rw [← succeeds.outcome_eq also, ran]
    · exact (fails.not_succeeds succeeds).elim
  · obtain ⟨failure, failed⟩ := fails.outcome
    rw [failed] at ran
    cases ran

theorem accessed_visited {path : Path}
    (accessed : path ∈ (discover discovery enumeration (some checkout)).accessed) :
    path ∈ (checkout.tree.visits checkout.root).filterMap (Visit.accessed discovery) := by
  rcases discover_cases discovery enumeration checkout with ⟨visits, scan, succeeds⟩ | fails
  · rw [succeeds.accessed, succeeds.accounted.accessed] at accessed
    exact (succeeds.whole.filterMap _).mem_iff.mp accessed
  · exact fails.accessed accessed

/-- Only directories are listed and only files are opened. -/
theorem reaches_of_accessed {root path : Path} {tree : Node}
    (accessed : path ∈ (tree.visits root).filterMap (Visit.accessed discovery)) :
    ∃ inner node, path = root ++ inner ∧ tree.Reaches inner node ∧
      ∀ target, node ≠ .symlink target := by
  obtain ⟨visit, visited, touched⟩ := List.mem_filterMap.mp accessed
  obtain ⟨inner, readable, entries, reached, -, own⟩ := mem_visits_iff.mp visited
  rcases own with rfl | ⟨name, node, listed, rfl⟩
  · cases touched
    exact ⟨inner, .directory readable entries, rfl, reached, fun _ same => by cases same⟩
  · cases node with
    | file size content =>
        cases size with
        | none => cases touched
        | some size =>
            simp only [Visit.accessed, Option.ite_none_right_eq_some] at touched
            refine ⟨inner ++ [name], .file (some size) content, ?_, .entry reached listed,
              fun _ same => by cases same⟩
            rw [← Option.some.inj touched.2, List.append_assoc]
    | directory _ _ | symlink _ | special => cases touched

/-- A successful discovery returns exactly the files that qualify, sorted, with
their sum and within the limits; every order of the system's listings gives the
same result or none; and no path that is listed or opened crosses a symbolic link. -/
theorem discovery_exact (discovery : FileDiscovery) (enumeration other : Enumeration)
    (checkout : Checkout) :
    (∀ result, (discover discovery enumeration (some checkout)).outcome = .ok result →
      Exact discovery checkout.tree result) ∧
    (∀ result, (discover discovery enumeration (some checkout)).outcome = .ok result ↔
      (discover discovery other (some checkout)).outcome = .ok result) ∧
    ∀ path ∈ (discover discovery enumeration (some checkout)).accessed,
      ∃ inner node, path = checkout.root ++ inner ∧ checkout.tree.Reaches inner node ∧
        ∀ before, before <+: inner →
          ∀ target, ¬ checkout.tree.Reaches before (.symlink target) := by
  refine ⟨fun result ran => ?_, fun result => ?_, fun path accessed => ?_⟩
  · rcases discover_cases discovery enumeration checkout with ⟨visits, scan, succeeds⟩ | fails
    · obtain rfl := Except.ok.inj (succeeds.outcome.symm.trans ran)
      exact succeeds.exact
    · obtain ⟨failure, failed⟩ := fails.outcome
      rw [failed] at ran
      cases ran
  · exact ⟨outcome_ok_of_other other, outcome_ok_of_other enumeration⟩
  · obtain ⟨inner, node, located, reached, solid⟩ := reaches_of_accessed (accessed_visited accessed)
    exact ⟨inner, node, located, reached, fun before initial target =>
      reached.no_symlink checkout.named solid initial target⟩

/-- Listed backwards, the files are the same and sorted. -/
example :
    (discover {} ⟨fun _ entries => entries.reverse, fun _ _ => List.reverse_perm _⟩
      (some {
        root := [text "repository"]
        tree := .directory true [
          (text "README.md", .file (some 10) (some [35])),
          (text "build", .directory true [(text "made.py", .file (some 1) (some []))]),
          (text "source", .directory true [
            (text "main.PY", .file (some 2) (some [])),
            (text "table.json", .file (some 1) (some [0]))]),
          (text "link", .symlink (.resolved [text "repository", text "source"]))]
        named := by decide })).outcome.toOption.map DiscoveryResult.files =
      some [⟨text "README.md", 10⟩, ⟨text "source/main.PY", 2⟩] := by
  decide +kernel

end Discoveries

end Codenaut.Indexing.FileDiscovery
