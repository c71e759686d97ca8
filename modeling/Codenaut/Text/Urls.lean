import Codenaut.Text.Partition
import Codenaut.Text.Python

/-!
# Splitting a URL

`urllib.parse.urlsplit` and the parts of a network location that its result gives.
-/

set_option autoImplicit false

namespace Codenaut.Text

/-- What `urlsplit` asks of a network location: whether a bracketed host is an
address, and the NFKC form of a text. -/
structure UrlLibrary where
  bracketed : List Char → Bool
  normalized : List Char → List Char

structure SplitResult where
  scheme : List Char
  netloc : List Char
  path : List Char
  query : List Char
  fragment : List Char
  deriving DecidableEq, Repr

/-- `_WHATWG_C0_CONTROL_OR_SPACE`. -/
def isControlOrSpace (char : Char) : Bool := char.toNat ≤ 32

/-- `_UNSAFE_URL_BYTES_TO_REMOVE`. -/
def unsafeChars : List Char := ['\t', '\r', '\n']

def isSchemeChar (char : Char) : Bool := char.isAlphanum || char ∈ ['+', '-', '.']

def splitScheme (url : List Char) : List Char × List Char :=
  match partition ':' url with
  | (head :: tail, some after) =>
      if head.isAlpha && (head :: tail).all isSchemeChar then
        ((head :: tail).map Char.toLower, after)
      else ([], url)
  | _ => ([], url)

def isNetloc (char : Char) : Bool := char ∉ ['/', '?', '#']

def splitNetloc : List Char → List Char × List Char
  | '/' :: '/' :: rest => (rest.takeWhile isNetloc, rest.dropWhile isNetloc)
  | url => ([], url)

/-- `_checknetloc` and the checks of a bracketed host. -/
def netlocRefused (library : UrlLibrary) (netloc : List Char) : Bool :=
  let bare := netloc.filter (· ∉ ['@', ':', '#', '?'])
  (netloc.contains '[' != netloc.contains ']') ||
    (netloc.contains '[' && !library.bracketed netloc) ||
    (!netloc.all (·.toNat < 128) && library.normalized bare != bare &&
      ['/', '?', '#', '@', ':'].any (library.normalized bare).contains)

/-- Path, query and fragment. -/
def splitTail (scheme netloc url : List Char) : SplitResult :=
  let (beforeFragment, fragment) := partition '#' url
  let (path, query) := partition '?' beforeFragment
  ⟨scheme, netloc, path, query.getD [], fragment.getD []⟩

/-- `urlsplit(url)`, or nothing where it raises. -/
def urlsplit (library : UrlLibrary) (value : List Char) : Option SplitResult :=
  let url := (value.dropWhile isControlOrSpace).filter (· ∉ unsafeChars)
  let (scheme, url) := splitScheme url
  let (netloc, url) := splitNetloc url
  if netlocRefused library netloc then none else some (splitTail scheme netloc url)

/-! ## Network locations -/

/-- `text.lower()` as far as a comparison with ASCII text sees it. -/
def lowerChars (text : List Char) : List Char :=
  text.map fun char => if char = '\u212a' then 'k' else char.toLower

/-- `username` and `password`. -/
def userInfo (netloc : List Char) : Option (List Char) × Option (List Char) :=
  match (rpartition '@' netloc).1 with
  | none => (none, none)
  | some info =>
      let (username, password) := partition ':' info
      (some username, password)

/-- The host and the text of the port. -/
def hostInfo (netloc : List Char) : List Char × Option (List Char) :=
  let hostinfo := (rpartition '@' netloc).2
  let (hostname, port) :=
    match partition '[' hostinfo with
    | (_, some bracketed) =>
        let (hostname, after) := partition ']' bracketed
        (hostname, (partition ':' (after.getD [])).2)
    | (_, none) => partition ':' hostinfo
  (hostname, port.filter (· ≠ []))

/-- A zone keeps its case. -/
def hostname (netloc : List Char) : Option (List Char) :=
  match (hostInfo netloc).1 with
  | [] => none
  | host =>
      match partition '%' host with
      | (before, none) => some (lowerChars before)
      | (before, some zone) => some (lowerChars before ++ '%' :: zone)

/-! ## Locations that are a name -/

/-- No character of a location marks credentials, a port, an address or a zone. -/
def IsName (netloc : List Char) : Prop :=
  ∀ char ∈ ['@', ':', '[', ']', '%'], char ∉ netloc

theorem IsName.userInfo {netloc : List Char} (name : IsName netloc) :
    userInfo netloc = (none, none) := by
  rw [Text.userInfo, rpartition_whole (name '@' (by simp))]

theorem IsName.hostInfo {netloc : List Char} (name : IsName netloc) :
    hostInfo netloc = (netloc, none) := by
  rw [Text.hostInfo, rpartition_whole (name '@' (by simp))]
  dsimp only
  rw [partition_whole (name '[' (by simp))]
  dsimp only
  rw [partition_whole (name ':' (by simp))]
  rfl

theorem IsName.hostname {netloc : List Char} (name : IsName netloc) (nonempty : netloc ≠ []) :
    hostname netloc = some (lowerChars netloc) := by
  unfold Text.hostname
  rw [name.hostInfo]
  cases netloc with
  | nil => exact (nonempty rfl).elim
  | cons head tail =>
      dsimp only
      rw [partition_whole (name '%' (by simp))]

theorem IsName.accepted {netloc : List Char} (name : IsName netloc)
    (ascii : ∀ char ∈ netloc, char.toNat < 128) (library : UrlLibrary) :
    netlocRefused library netloc = false := by
  have opening : '[' ∉ netloc := name '[' (by simp)
  have closing : ']' ∉ netloc := name ']' (by simp)
  have all : netloc.all (·.toNat < 128) = true := by simpa using ascii
  simp [netlocRefused, opening, closing, all]

end Codenaut.Text
