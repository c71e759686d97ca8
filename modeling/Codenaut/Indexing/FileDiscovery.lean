import Codenaut.Indexing.Models
import Codenaut.Relational.Sorting
import Codenaut.Worklist.Loop
import Mathlib.Data.List.Lex

/-!
# Discovery of repository files

The scan of a checkout (`FileDiscovery` in `app/indexing/discovery.py`). A name is
the list of its code points, so that names which are no text are names as well. The
scan keeps the paths it hands to `os.scandir` and `open`, also where it stops.
-/

set_option autoImplicit false

namespace Codenaut.Indexing

namespace FileDiscovery

abbrev Name := List Nat

/-- The names on the way from the root of the file system. -/
abbrev Path := List Name

/-- What `Path.resolve(strict=False)` makes of a symbolic link. A loop raises
`RuntimeError` before Python 3.13. -/
inductive LinkTarget where
  | resolved (path : Path)
  | filesystemError
  | loop
  deriving DecidableEq, Repr

/-- A node of the tree. The size of a file is missing where `stat` fails and its
content where `open` does. -/
inductive Node where
  | file (size : Option Nat) (content : Option (List Nat))
  | directory (readable : Bool) (entries : List (Name × Node))
  | symlink (target : LinkTarget)
  | special

def text (string : String) : Name := string.toList.map Char.toNat

def dot : Nat := 46

def slash : Nat := 47

def supportedSuffixes : List Name :=
  [".py", ".pyi", ".md", ".markdown", ".txt", ".rst", ".toml", ".yaml", ".yml", ".json", ".ini",
    ".cfg"].map text

def ignoredDirectories : List Name :=
  [".git", ".mypy_cache", ".pytest_cache", ".ruff_cache", ".tox", ".venv", "__pycache__", "build",
    "coverage", "dist", "env", "node_modules", "site-packages", "target", "vendor", "venv"].map text

/-! ## Paths -/

/-- `name.rfind(char)`. -/
def rfind (char : Nat) (name : Name) : Option Nat :=
  (name.reverse.idxOf? char).map fun index => name.length - 1 - index

/-- `Path.suffix`. -/
def suffix (name : Name) : Name :=
  match rfind dot name with
  | some index => if 0 < index ∧ index < name.length - 1 then name.drop index else []
  | none => []

/-- `str.lower` as far as a comparison with ASCII text sees it: beside the ASCII
capitals only the Kelvin sign lowers to an ASCII letter. -/
def lower (name : Name) : Name :=
  name.map fun char =>
    if 65 ≤ char ∧ char ≤ 90 then char + 32 else if char = 8490 then 107 else char

def Supported (name : Name) : Prop := lower (suffix name) ∈ supportedSuffixes

instance (name : Name) : Decidable (Supported name) :=
  inferInstanceAs (Decidable (lower (suffix name) ∈ supportedSuffixes))

/-- `path.is_relative_to(root)`. -/
def isRelativeTo (path root : Path) : Bool := root.isPrefixOf path

/-- `path.relative_to(root).as_posix()`. -/
def relativePosix (root path : Path) : Name := [slash].intercalate (path.drop root.length)

/-! ## State -/

/-- The names under which files are counted as skipped, as `sorted` lists them. -/
inductive SkipReason where
  | binaryFile
  | ignoredDirectory
  | oversizedFile
  | specialFile
  | symlink
  | unsupportedType
  deriving DecidableEq, Repr

namespace SkipReason

def value : SkipReason → String
  | .binaryFile => "binary_file"
  | .ignoredDirectory => "ignored_directory"
  | .oversizedFile => "oversized_file"
  | .specialFile => "special_file"
  | .symlink => "symlink"
  | .unsupportedType => "unsupported_type"

def all : List SkipReason :=
  [.binaryFile, .ignoredDirectory, .oversizedFile, .specialFile, .symlink, .unsupportedType]

example : (all.map value).Pairwise (· < ·) := by decide

end SkipReason

structure DiscoveredFile where
  relativePath : Name
  sizeBytes : Nat
  deriving DecidableEq, Repr

structure DiscoveryResult where
  files : List DiscoveredFile
  inspectedFileCount : Nat
  totalBytes : Nat
  skipped : List (String × Nat)
  deriving DecidableEq, Repr

/-- The local variables of `discover`, and the paths handed to the system. -/
structure Scan where
  files : List DiscoveredFile := []
  inspected : Nat := 0
  totalBytes : Nat := 0
  skipped : List SkipReason := []
  accessed : List Path := []
  deriving DecidableEq, Repr

structure Stopped where
  failure : Failure
  accessed : List Path
  deriving DecidableEq, Repr

/-- A directory on the stack, with what the system holds at its path. -/
structure Directory where
  path : Path
  readable : Bool
  entries : List (Name × Node)

namespace Scan

def skip (scan : Scan) (reason : SkipReason) : Scan :=
  { scan with skipped := scan.skipped ++ [reason] }

def access (scan : Scan) (path : Path) : Scan :=
  { scan with accessed := scan.accessed ++ [path] }

def stop {α : Type} (scan : Scan) (failure : Failure) : Except Stopped α :=
  .error ⟨failure, scan.accessed⟩

def result (scan : Scan) : DiscoveryResult where
  files := Relational.sortOn DiscoveredFile.relativePath scan.files
  inspectedFileCount := scan.inspected
  totalBytes := scan.totalBytes
  skipped := SkipReason.all.filterMap fun reason =>
    if reason ∈ scan.skipped then some (reason.value, scan.skipped.count reason) else none

end Scan

/-! ## Errors -/

private def refusal (code message : String) : Failure := .indexing ⟨code, message, false⟩

def unsafeClonePath : Failure :=
  refusal "unsafe_clone_path" "Repository clone path is unsafe"

def discoveryFilesystemError : Failure :=
  refusal "discovery_filesystem_error" "Repository files could not be inspected"

def fileCountLimitExceeded : Failure :=
  refusal "file_count_limit_exceeded" "Repository exceeds the configured file-count limit"

def discoveredBytesLimitExceeded : Failure :=
  refusal "discovered_bytes_limit_exceeded"
    "Repository exceeds the configured discovery-size limit"

def unsafeRepositoryPath : Failure :=
  refusal "unsafe_repository_path" "Repository contains an unsafe path"

def unsafeSymlink : Failure :=
  refusal "unsafe_symlink" "Repository contains an unsafe symbolic link"

def symlinkEscape : Failure :=
  refusal "symlink_escape" "Repository contains a symbolic link outside its root"

end FileDiscovery

/-- The limits that `FileDiscovery` takes from the settings. -/
structure FileDiscovery where
  maxFileBytes : Nat := 2 * 1024 * 1024
  maxFileCount : Nat := 20000
  maxTotalBytes : Nat := 250 * 1024 * 1024
  deriving DecidableEq, Repr

namespace FileDiscovery

/-! ## One entry -/

def handleSymlink (root : Path) (target : LinkTarget) (scan : Scan) : Except Stopped Scan :=
  match target with
  | .filesystemError => scan.stop unsafeSymlink
  | .loop => scan.stop .internal
  | .resolved path =>
      if isRelativeTo path root then .ok (scan.skip .symlink) else scan.stop symlinkEscape

/-- `b"\x00" in file.read(8_192)`. -/
def isBinary (content : List Nat) : Bool := (content.take 8192).contains 0

def inspectFile (discovery : FileDiscovery) (root path : Path) (name : Name) (size : Option Nat)
    (content : Option (List Nat)) (scan : Scan) : Except Stopped Scan :=
  let counted := { scan with inspected := scan.inspected + 1 }
  if discovery.maxFileCount < counted.inspected then counted.stop fileCountLimitExceeded
  else
    match size with
    | none => counted.stop .internal
    | some size =>
        if ¬ Supported name then .ok (counted.skip .unsupportedType)
        else if discovery.maxFileBytes < size then .ok (counted.skip .oversizedFile)
        else
          let opened := counted.access path
          match content with
          | none => opened.stop discoveryFilesystemError
          | some content =>
              if isBinary content then .ok (opened.skip .binaryFile)
              else if discovery.maxTotalBytes < opened.totalBytes + size then
                opened.stop discoveredBytesLimitExceeded
              else
                .ok { opened with
                  files := opened.files ++ [⟨relativePosix root path, size⟩]
                  totalBytes := opened.totalBytes + size }

instance (name : Name) : Decidable (name ∈ ignoredDirectories) := inferInstance

/-- An entry of a directory, and the directory it puts on the stack. -/
def inspectEntry (discovery : FileDiscovery) (root directory : Path) (name : Name) (node : Node)
    (scan : Scan) : Except Stopped (Scan × List Directory) :=
  let path := directory ++ [name]
  if ¬ isRelativeTo path root then scan.stop unsafeRepositoryPath
  else
    match node with
    | .symlink target => do return (← handleSymlink root target scan, [])
    | .directory readable entries =>
        if name ∈ ignoredDirectories then .ok (scan.skip .ignoredDirectory, [])
        else .ok (scan, [⟨path, readable, entries⟩])
    | .special => .ok (scan.skip .specialFile, [])
    | .file size content => do
        return (← inspectFile discovery root path name size content scan, [])

/-- The entries in the order the system lists them. A later directory lies higher
on the stack. -/
def inspectEntries (discovery : FileDiscovery) (root directory : Path) :
    List (Name × Node) → Scan → Except Stopped (Scan × List Directory)
  | [], scan => .ok (scan, [])
  | (name, node) :: entries, scan => do
      let (next, below) ← inspectEntry discovery root directory name node scan
      let (final, pushed) ← inspectEntries discovery root directory entries next
      return (final, pushed ++ below)

/-! ## The scan -/

mutual

/-- The number of directories. -/
def Node.weight : Node → Nat
  | .directory _ entries => entriesWeight entries + 1
  | .file _ _ | .symlink _ | .special => 0

def entriesWeight : List (Name × Node) → Nat
  | [] => 0
  | (_, node) :: entries => node.weight + entriesWeight entries

end

def Directory.weight (directory : Directory) : Nat := entriesWeight directory.entries + 1

/-- The order in which the system lists the entries of each directory. -/
structure Enumeration where
  order : Path → List (Name × Node) → List (Name × Node)
  perm : ∀ path entries, (order path entries).Perm entries

def scanDirectory (discovery : FileDiscovery) (enumeration : Enumeration) (root : Path)
    (scan : Scan) (directory : Directory) : Except Stopped (Scan × List Directory) :=
  let opened := scan.access directory.path
  if directory.readable then
    inspectEntries discovery root directory.path
      (enumeration.order directory.path directory.entries) opened
  else opened.stop discoveryFilesystemError

theorem entriesWeight_eq (entries : List (Name × Node)) :
    entriesWeight entries = (entries.map fun entry => entry.2.weight).sum := by
  induction entries with
  | nil => rfl
  | cons entry entries ih => simp [entriesWeight, ih]

theorem entriesWeight_perm {entries listed : List (Name × Node)} (same : entries.Perm listed) :
    entriesWeight entries = entriesWeight listed := by
  rw [entriesWeight_eq, entriesWeight_eq]
  exact (same.map _).sum_nat

theorem bind_ok {α β ε : Type} {computation : Except ε α} {next : α → Except ε β} {result : β}
    (ran : computation >>= next = .ok result) :
    ∃ value, computation = .ok value ∧ next value = .ok result := by
  cases computation with
  | error error => cases ran
  | ok value => exact ⟨value, rfl, ran⟩

theorem bind_error {α β ε : Type} {computation : Except ε α} {next : α → Except ε β} {error : ε}
    (ran : computation >>= next = .error error) :
    computation = .error error ∨ ∃ value, computation = .ok value ∧ next value = .error error := by
  cases computation with
  | error failure => exact .inl (congrArg _ (Except.error.inj ran))
  | ok value => exact .inr ⟨value, rfl, ran⟩

/-- What an entry puts on the stack: itself, where it is a directory. -/
theorem inspectEntry_weight {discovery : FileDiscovery} {root directory : Path} {name : Name}
    {node : Node} {scan next : Scan} {pushed : List Directory}
    (ran : inspectEntry discovery root directory name node scan = .ok (next, pushed)) :
    (pushed.map Directory.weight).sum ≤ node.weight := by
  unfold inspectEntry at ran
  dsimp only at ran
  split at ran
  · cases ran
  cases node with
  | file size content =>
      obtain ⟨_, _, returned⟩ := bind_ok ran
      cases returned
      exact Nat.zero_le _
  | directory readable entries =>
      dsimp only at ran
      split at ran
      · cases ran
        exact Nat.zero_le _
      · cases ran
        simp [Directory.weight, Node.weight]
  | symlink target =>
      obtain ⟨_, _, returned⟩ := bind_ok ran
      cases returned
      exact Nat.zero_le _
  | special =>
      cases ran
      exact Nat.zero_le _

theorem inspectEntries_weight {discovery : FileDiscovery} {root directory : Path}
    {entries : List (Name × Node)} {scan final : Scan} {pushed : List Directory}
    (ran : inspectEntries discovery root directory entries scan = .ok (final, pushed)) :
    (pushed.map Directory.weight).sum ≤ entriesWeight entries := by
  induction entries generalizing scan final pushed with
  | nil =>
      cases ran
      exact Nat.zero_le _
  | cons entry entries ih =>
      obtain ⟨⟨next, below⟩, first, rest⟩ := bind_ok ran
      obtain ⟨⟨last, above⟩, later, returned⟩ := bind_ok rest
      cases returned
      have lower := inspectEntry_weight first
      have upper := ih later
      simp only [List.map_append, List.sum_append, entriesWeight]
      omega

/-- The stack of the scan. -/
def directories (discovery : FileDiscovery) (enumeration : Enumeration) (root : Path) :
    Worklist.Loop Directory Scan Stopped where
  weight := Directory.weight
  handle := scanDirectory discovery enumeration root
  lighter := by
    intro scan next directory pushed ran
    unfold scanDirectory at ran
    dsimp only at ran
    split at ran
    · have lighter := inspectEntries_weight ran
      rw [entriesWeight_perm (enumeration.perm _ _)] at lighter
      exact Nat.lt_succ_of_le lighter
    · cases ran

/-! ## Discovery -/

/-- A name that the system can hold. -/
def validName (name : Name) : Bool :=
  !name.isEmpty && !name.contains slash && !name.contains 0 && name != [dot] && name != [dot, dot]

mutual

/-- The entries of each directory have valid names, each its own. -/
def Node.wellNamed : Node → Bool
  | .directory _ entries => decide (entries.map Prod.fst).Nodup && entriesNamed entries
  | .file _ _ | .symlink _ | .special => true

def entriesNamed : List (Name × Node) → Bool
  | [] => true
  | (name, node) :: entries => validName name && node.wellNamed && entriesNamed entries

end

/-- What the system holds at the resolved path of a checkout. -/
structure Checkout where
  root : Path
  tree : Node
  named : tree.wellNamed = true

structure Discovery where
  outcome : Except Failure DiscoveryResult
  accessed : List Path

/-- `discover`. A checkout that is not there has no resolved path. -/
def discover (discovery : FileDiscovery) (enumeration : Enumeration) :
    Option Checkout → Discovery
  | none => ⟨.error .internal, []⟩
  | some checkout =>
      match checkout.tree with
      | .directory readable entries =>
          match (directories discovery enumeration checkout.root).run {}
              [⟨checkout.root, readable, entries⟩] with
          | .ok scan => ⟨.ok scan.result, scan.accessed⟩
          | .error stopped => ⟨.error stopped.failure, stopped.accessed⟩
      | .file _ _ | .symlink _ | .special => ⟨.error unsafeClonePath, []⟩

end FileDiscovery

end Codenaut.Indexing
