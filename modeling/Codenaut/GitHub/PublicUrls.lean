import Codenaut.Text.Urls

/-!
# Public repository URLs

The parser of the URLs that users give for public repositories
(`app/github/public_urls.py`), and the texts it accepts.
-/

set_option autoImplicit false

namespace Codenaut.GitHub

open Codenaut.Text

def https : List Char := "https".toList

def githubHost : List Char := "github.com".toList

def gitSuffix : List Char := ".git".toList

def isSegmentChar (char : Char) : Bool := char.isAlphanum || char ∈ ['.', '_', '-']

/-- `_SEGMENT.fullmatch`. -/
def isSegment : List Char → Bool
  | [] => false
  | head :: tail => head.isAlphanum && decide (tail.length ≤ 254) && tail.all isSegmentChar

structure PublicRepositoryUrl where
  owner : List Char
  repository : List Char
  deriving DecidableEq, Repr

def PublicRepositoryUrl.canonicalUrl (url : PublicRepositoryUrl) : List Char :=
  "https://github.com/".toList ++ (url.owner ++ '/' :: url.repository)

def maxRepositoryUrlLength : Nat := 2048

/-- The checks before the value is split. -/
def Unreadable (value : List Char) : Prop :=
  value = [] ∨ maxRepositoryUrlLength < value.length ∨ value ≠ strip value ∨
    (∃ char ∈ value, char.toNat < 32) ∨ '%' ∈ value ∨ '\\' ∈ value

instance (value : List Char) : Decidable (Unreadable value) :=
  haveI := List.decidableBEx (fun char : Char => char.toNat < 32) value
  inferInstanceAs (Decidable (_ ∨ _ ∨ _ ∨ _ ∨ _ ∨ _))

/-- The checks of the parts. A port that is no number raises as well. -/
def Foreign (parsed : SplitResult) : Prop :=
  parsed.scheme ≠ https ∨ hostname parsed.netloc ≠ some githubHost ∨
    lowerChars parsed.netloc ≠ githubHost ∨ (userInfo parsed.netloc).1 ≠ none ∨
    (userInfo parsed.netloc).2 ≠ none ∨ (hostInfo parsed.netloc).2 ≠ none ∨
    parsed.query ≠ [] ∨ parsed.fragment ≠ []

instance (parsed : SplitResult) : Decidable (Foreign parsed) :=
  inferInstanceAs (Decidable (_ ∨ _ ∨ _ ∨ _ ∨ _ ∨ _ ∨ _ ∨ _))

def parsePath (whole : List Char) : Option PublicRepositoryUrl :=
  let path := if whole.getLast? = some '/' then whole.dropLast else whole
  match path.splitOn '/' with
  | [first, owner, last] =>
      if first ≠ [] ∨ owner = [] ∨ last = [] then none
      else
        let repository := if gitSuffix <:+ last then last.take (last.length - 4) else last
        if repository = [] ∨ owner ∈ [['.'], ['.', '.']] ∨ repository ∈ [['.'], ['.', '.']] ∨
            isSegment owner = false ∨ isSegment repository = false then none
        else some ⟨owner, repository⟩
  | _ => none

/-- `parse_public_repository_url`, or nothing where it raises. -/
def parsePublicRepositoryUrl (library : UrlLibrary) (value : List Char) :
    Option PublicRepositoryUrl :=
  if Unreadable value then none
  else
    match urlsplit library value with
    | none => none
    | some parsed => if Foreign parsed then none else parsePath parsed.path

/-! ## The texts of a repository -/

/-- A text that names a repository on GitHub: the suffix is taken from the name
where it stands there, and what follows the path is empty. -/
structure Spelling where
  scheme : List Char
  host : List Char
  owner : List Char
  name : List Char
  suffix : List Char
  ending : List Char
  mark : List Char
  hash : List Char
  isHttps : scheme.map Char.toLower = https
  isGitHub : lowerChars host = githubHost
  ownerSegment : isSegment owner = true
  nameSegment : isSegment name = true
  suffixed : suffix = gitSuffix ∨ suffix = [] ∧ ¬ gitSuffix <:+ name
  ended : ending = [] ∨ ending = ['/']
  queried : mark = [] ∨ mark = ['?']
  fragmented : hash = [] ∨ hash = ['#']

namespace Spelling

def path (spelling : Spelling) : List Char :=
  '/' :: (spelling.owner ++ '/' :: (spelling.name ++ spelling.suffix)) ++ spelling.ending

def text (spelling : Spelling) : List Char :=
  spelling.scheme ++ ':' :: '/' :: '/' :: (spelling.host ++
    (spelling.path ++ spelling.mark ++ spelling.hash))

def repository (spelling : Spelling) : PublicRepositoryUrl := ⟨spelling.owner, spelling.name⟩

end Spelling

example :
    parsePublicRepositoryUrl ⟨fun _ => false, id⟩
      "https://GitHub.com/owner/repository.git/?".toList =
      some ⟨"owner".toList, "repository".toList⟩ := by
  decide +kernel

end Codenaut.GitHub
