import Codenaut.Frontend.Urls
import Codenaut.Text.Ascii

/-!
# Links

The links that the evidence inspector opens (`trustedGitHubUrl` in
`src/utils/format.ts`). One to GitHub whose segments are plain is read as these
segments and written back as it was.
-/

set_option autoImplicit false

namespace Codenaut.Frontend

open Codenaut.Text

/-! ## Trusted links -/

/-- `/^[A-Za-z0-9](?:[A-Za-z0-9-]{0,38})$/`. -/
def isOwner : List Char → Bool
  | [] => false
  | head :: tail =>
      head.isAlphanum && decide (tail.length ≤ 38) &&
        tail.all fun char => char.isAlphanum || char == '-'

/-- `/^[A-Za-z0-9._-]{1,100}$/`. -/
def isRepository (text : List Char) : Bool :=
  decide (1 ≤ text.length ∧ text.length ≤ 100) &&
    text.all fun char => char.isAlphanum || char ∈ ['.', '_', '-']

def isLowerHex (char : Char) : Bool := char.isDigit || ('a' ≤ char && char ≤ 'f')

/-- `/^[0-9a-f]{40}$/`. -/
def isSha (text : List Char) : Bool := decide (text.length = 40) && text.all isLowerHex

/-- `/^[1-9][0-9]*$/`. -/
def isNumber : List Char → Bool
  | [] => false
  | head :: tail => head.isDigit && head != '0' && tail.all Char.isDigit

def githubHost : List Char := "github.com".toList

def commitResource : List Char := "commit".toList

def pullResource : List Char := "pull".toList

/-- Owner, repository, resource and identifier. -/
def isEvidencePath : List (List Char) → Bool
  | [owner, repository, resource, identifier] =>
      isOwner owner && isRepository repository &&
        ((resource == commitResource && isSha identifier) ||
          (resource == pullResource && isNumber identifier))
  | _ => false

/-- The text of the link that is opened, if any. -/
def trustedGitHubUrl (hostParser : List Char → Option (List Char)) (value : List Char) :
    Option (List Char) :=
  match parseUrl hostParser value with
  | .failure => none
  | .other => none
  | .https url =>
      if url.host ≠ githubHost ∨ url.port ≠ none ∨ url.username ≠ [] ∨
          url.password ≠ [] ∨ url.query.getD [] ≠ [] ∨ url.fragment.getD [] ≠ [] then none
      else
        let parts := (url.pathname.splitOn '/').filter (· ≠ [])
        if isEvidencePath parts then some url.href else none

/-! ## Plain links -/

/-- A character that every part of a URL leaves as it is. -/
def isLinkChar (char : Char) : Bool := char.isAlphanum || char ∈ ['.', '_', '-']

theorem ascii_of_isLinkChar {char : Char} (link : isLinkChar char = true) : char.toNat < 128 := by
  simp only [isLinkChar, Bool.or_eq_true, decide_eq_true_eq] at link
  rcases link with alphanum | punctuation
  · exact ascii_of_isAlphanum alphanum
  · exact forall_mem_of_all (P := fun char => char.toNat < 128) (by decide) char punctuation

/-- It is no blank, no delimiter, and is not encoded. -/
theorem link_char_facts {char : Char} (link : isLinkChar char = true) :
    isControlOrSpace char = false ∧ char ∉ unsafeChars ∧ pathSet char = false ∧
      char ∉ ['/', '\\', '?', '#', ':', '@'] := by
  have ascii := ascii_of_isLinkChar link
  revert link
  exact of_ascii_table ascii (by decide +kernel)

/-- A segment of link characters that is not taken for a step in the path. -/
structure IsLinkSegment (segment : List Char) : Prop where
  plain : ∀ char ∈ segment, isLinkChar char = true
  noDot : isSingleDot segment = false
  noDots : isDoubleDot segment = false

theorem IsLinkSegment.free {segment : List Char} (link : IsLinkSegment segment) {char : Char}
    (delimiter : char ∈ ['/', '\\', '?', '#', ':', '@']) : char ∉ segment := fun member =>
  (link_char_facts (link.plain char member)).2.2.2 delimiter

theorem IsLinkSegment.nil : IsLinkSegment [] where
  plain := by simp
  noDot := by decide
  noDots := by decide

theorem IsLinkSegment.encoded {segment : List Char} (link : IsLinkSegment segment) :
    percentEncode pathSet segment = segment := by
  have kept : ∀ char ∈ segment, pathSet char = false := fun char member =>
    (link_char_facts (link.plain char member)).2.2.1
  clear link
  induction segment with
  | nil => rfl
  | cons head tail ih =>
      have rest := ih fun char member => kept char (List.mem_cons_of_mem _ member)
      rw [percentEncode] at rest
      simp [percentEncode, kept head List.mem_cons_self, rest]

section Paths

variable {segments : List (List Char)}

theorem addSegments_links (links : ∀ segment ∈ segments, IsLinkSegment segment)
    (path : List (List Char)) : addSegments path segments = path ++ segments := by
  induction segments generalizing path with
  | nil => simp [addSegments]
  | cons segment rest ih =>
      have first := links segment List.mem_cons_self
      have later := fun other member => links other (List.mem_cons_of_mem _ member)
      have added : ∀ slash, addSegment path segment slash = path ++ [segment] := by
        intro slash
        simp [addSegment, first.noDot, first.noDots]
      cases rest with
      | nil => exact added false
      | cons second rest =>
          rw [addSegments, added true, ih later]
          · simp
          · simp

/-- The segments, each after its slash. -/
def slashed (segments : List (List Char)) : List Char :=
  segments.flatMap fun segment => '/' :: segment

theorem slashed_eq (segments : List (List Char)) :
    slashed segments = ['/'].intercalate ([] :: segments) := by
  induction segments with
  | nil => rfl
  | cons segment rest ih =>
      simp only [slashed, List.flatMap_cons] at ih ⊢
      rw [ih]
      cases rest with
      | nil => simp
      | cons second rest => simp

theorem splitOn_slashed (free : ∀ segment ∈ segments, '/' ∉ segment) :
    (slashed segments).splitOn '/' = [] :: segments := by
  rw [slashed_eq]
  refine List.splitOn_intercalate '/' ?_ (by simp)
  intro segment member
  rcases List.mem_cons.mp member with rfl | listed
  · exact List.not_mem_nil
  · exact free segment listed

theorem slashed_free {char : Char} (delimiter : char ∈ ['\\', '?', '#', ':', '@'])
    (links : ∀ segment ∈ segments, IsLinkSegment segment) : char ∉ slashed segments := by
  intro member
  obtain ⟨segment, listed, inside⟩ := List.mem_flatMap.mp member
  rcases List.mem_cons.mp inside with rfl | within
  · revert delimiter
    decide
  · refine (links segment listed).free ?_ within
    exact List.mem_cons_of_mem _ delimiter

theorem parsePath_slashed (links : ∀ segment ∈ segments, IsLinkSegment segment)
    (nonempty : segments ≠ []) : parsePath (slashed segments) = segments := by
  have noBackslash : '\\' ∉ slashed segments := slashed_free (by simp) links
  have same : (slashed segments).map (fun char => if char = '\\' then '/' else char) =
      slashed segments := by
    conv_rhs => rw [← List.map_id (slashed segments)]
    refine List.map_congr_left fun char member => if_neg ?_
    rintro rfl
    exact noBackslash member
  obtain ⟨relative, whole⟩ : ∃ relative, slashed segments = '/' :: relative := by
    cases segments with
    | nil => exact (nonempty rfl).elim
    | cons segment rest => exact ⟨_, rfl⟩
  have split := splitOn_slashed fun segment listed =>
    @IsLinkSegment.free segment (links segment listed) '/' (by simp)
  rw [whole, List.splitOn_cons_eq_if_modifyHead, if_pos (by simp)] at split
  unfold parsePath
  dsimp only
  rw [same, whole]
  simp only [List.head?_cons, if_true, List.tail_cons, (List.cons.inj split).2]
  have encoded : segments.map (percentEncode pathSet) = segments := by
    conv_rhs => rw [← List.map_id segments]
    exact List.map_congr_left fun segment listed => (links segment listed).encoded
  rw [encoded, addSegments_links links, List.nil_append]

end Paths

/-! ## Links -/

/-- A link to GitHub, with what is left of an empty query and fragment. -/
def linkText (segments : List (List Char)) (query fragment : Bool) : List Char :=
  httpsFront ++ githubHost ++ slashed segments ++ (if query then ['?'] else []) ++
    if fragment then ['#'] else []

def afterScheme (segments : List (List Char)) (query fragment : Bool) : List Char :=
  '/' :: '/' :: (githubHost ++ (slashed segments ++ (if query then ['?'] else []) ++
    if fragment then ['#'] else []))

def linkRecord (segments : List (List Char)) (query fragment : Bool) : UrlRecord where
  host := githubHost
  path := segments
  query := if query then some [] else none
  fragment := if fragment then some [] else none

theorem linkRecord_href (segments : List (List Char)) (query fragment : Bool) :
    (linkRecord segments query fragment).href = linkText segments query fragment := by
  cases query <;> cases fragment <;>
    simp [linkRecord, UrlRecord.href, linkText, slashed, UrlRecord.pathname]

section Links

variable {segments : List (List Char)}

theorem linkText_visible (links : ∀ segment ∈ segments, IsLinkSegment segment)
    (query fragment : Bool) {char : Char} (member : char ∈ linkText segments query fragment) :
    isControlOrSpace char = false ∧ char ∉ unsafeChars := by
  have front : ∀ char ∈ httpsFront ++ githubHost ++ ['/', '?', '#'],
      isControlOrSpace char = false ∧ char ∉ unsafeChars :=
    forall_mem_of_all (by decide +kernel)
  simp only [linkText, List.mem_append] at member
  rcases member with (((scheme | host) | path) | mark) | hash
  · exact front char (List.mem_append_left _ (List.mem_append_left _ scheme))
  · exact front char (List.mem_append_left _ (List.mem_append_right _ host))
  · obtain ⟨segment, listed, inside⟩ := List.mem_flatMap.mp path
    rcases List.mem_cons.mp inside with rfl | within
    · exact front '/' (by simp)
    · have facts := link_char_facts ((links segment listed).plain char within)
      exact ⟨facts.1, facts.2.1⟩
  · cases query
    · cases mark
    · rw [List.mem_singleton.mp mark]
      exact front '?' (by simp)
  · cases fragment
    · cases hash
    · rw [List.mem_singleton.mp hash]
      exact front '#' (by simp)

theorem clean_of_visible {value : List Char}
    (visible : ∀ char ∈ value, isControlOrSpace char = false ∧ char ∉ unsafeChars) :
    clean value = value := by
  have front : value.dropWhile isControlOrSpace = value := by
    cases value with
    | nil => rfl
    | cons head tail => simp [(visible head List.mem_cons_self).1]
  have back : value.rdropWhile isControlOrSpace = value := by
    rw [List.rdropWhile_eq_self_iff]
    intro nonempty
    rw [(visible _ (List.getLast_mem nonempty)).1]
    decide
  rw [clean, front, back, List.filter_eq_self]
  intro char member
  simpa using (visible char member).2

theorem parseAuthority_github {hostParser : List Char → Option (List Char)}
    (github : hostParser githubHost = some githubHost) :
    parseAuthority hostParser githubHost = some ⟨[], [], githubHost, none⟩ := by
  have split : splitHost false githubHost = (githubHost, none) := by decide
  unfold parseAuthority
  rw [rpartition_whole (by decide)]
  dsimp only
  rw [split]
  dsimp only
  rw [if_neg (by decide), github]
  rfl

/-- What follows the host, cut at its delimiters. -/
def tailText (segments : List (List Char)) (query fragment : Bool) : List Char :=
  slashed segments ++ (if query then ['?'] else []) ++ if fragment then ['#'] else []

theorem authority_cut (nonempty : segments ≠ []) (query fragment : Bool) :
    (githubHost ++ tailText segments query fragment).takeWhile isAuthority = githubHost ∧
      (githubHost ++ tailText segments query fragment).dropWhile isAuthority =
        tailText segments query fragment := by
  refine takeWhile_dropWhile_iff.mpr ⟨rfl, forall_mem_of_all (by decide), fun char first => ?_⟩
  cases segments with
  | nil => exact (nonempty rfl).elim
  | cons segment rest =>
      obtain rfl : '/' = char := Option.some.inj first
      decide

theorem tail_cut (links : ∀ segment ∈ segments, IsLinkSegment segment) (query fragment : Bool) :
    partition '#' (tailText segments query fragment) =
        (slashed segments ++ (if query then ['?'] else []), if fragment then some [] else none) ∧
      partition '?' (slashed segments ++ (if query then ['?'] else [])) =
        (slashed segments, if query then some [] else none) := by
  have noHash : '#' ∉ slashed segments ++ (if query then ['?'] else []) := by
    have path := @slashed_free segments '#' (by simp) links
    cases query <;> simpa using path
  have noMark := @slashed_free segments '?' (by simp) links
  constructor
  · cases fragment
    · simp [tailText, partition_whole noHash]
    · exact partition_cut noHash []
  · cases query
    · simp [partition_whole noMark]
    · exact partition_cut noMark []

theorem parseHttps_link {hostParser : List Char → Option (List Char)}
    (github : hostParser githubHost = some githubHost) (nonempty : segments ≠ [])
    (links : ∀ segment ∈ segments, IsLinkSegment segment) (query fragment : Bool) :
    parseHttps hostParser (afterScheme segments query fragment) =
      some (linkRecord segments query fragment) := by
  have located : (afterScheme segments query fragment).dropWhile (· ∈ ['/', '\\']) =
      githubHost ++ tailText segments query fragment := rfl
  obtain ⟨authority, rest⟩ := authority_cut nonempty query fragment
  obtain ⟨outer, inner⟩ := tail_cut links query fragment
  unfold parseHttps
  dsimp only
  rw [located, authority, rest, outer]
  dsimp only
  rw [inner, parseAuthority_github github]
  simp only [Option.map_some, parsePath_slashed links nonempty]
  cases query <;> cases fragment <;> rfl

/-- A plain link is read as its segments. -/
theorem parseUrl_link {hostParser : List Char → Option (List Char)}
    (github : hostParser githubHost = some githubHost) (nonempty : segments ≠ [])
    (links : ∀ segment ∈ segments, IsLinkSegment segment) (query fragment : Bool) :
    parseUrl hostParser (linkText segments query fragment) =
      .https (linkRecord segments query fragment) := by
  have scheme : ':' ∉ ['h', 't', 't', 'p', 's'] := by decide
  have cut : partition ':' (linkText segments query fragment) =
      (['h', 't', 't', 'p', 's'], some (afterScheme segments query fragment)) :=
    partition_cut scheme _
  have alpha : ('h'.isAlpha && ['h', 't', 't', 'p', 's'].all isSchemeChar) = true := by decide
  have lowered : ['h', 't', 't', 'p', 's'].map Char.toLower = "https".toList := by decide
  unfold parseUrl
  rw [clean_of_visible fun _ => linkText_visible links query fragment, cut]
  dsimp only
  rw [if_pos alpha, if_pos lowered, parseHttps_link github nonempty links query fragment]

end Links

end Codenaut.Frontend
