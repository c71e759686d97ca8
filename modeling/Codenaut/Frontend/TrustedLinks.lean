import Codenaut.Frontend.Links

/-!
# Trusted links are plain

Whatever value is trusted, the link that is opened is a plain link to a commit or a
pull request on GitHub, and it is trusted itself.
-/

set_option autoImplicit false

namespace Codenaut.Frontend

open Codenaut.Text

/-! ## Segments of a parsed path -/

theorem percentEncode_free {segment : List Char} (free : '/' ∉ segment) :
    '/' ∉ percentEncode pathSet segment := by
  intro member
  obtain ⟨char, listed, encoded⟩ := List.mem_flatMap.mp member
  split at encoded
  · obtain ⟨byte, -, digits⟩ := List.mem_flatMap.mp encoded
    have noSlash : ∀ digit < 16, hexDigit digit ≠ '/' := by decide
    have high : byte.toNat / 16 < 16 := by
      have := byte.toNat_lt
      omega
    have low : byte.toNat % 16 < 16 := Nat.mod_lt _ (by decide)
    simp only [percentEncodeByte, List.mem_cons, List.not_mem_nil, or_false] at digits
    rcases digits with percent | first | second
    · exact absurd percent (by decide)
    · exact noSlash _ high first.symm
    · exact noSlash _ low second.symm
  · rw [← List.mem_singleton.mp encoded] at listed
    exact free listed

/-- A segment of a parsed path is no step in the path. -/
structure IsPathSegment (segment : List Char) : Prop where
  free : '/' ∉ segment
  noDot : isSingleDot segment = false
  noDots : isDoubleDot segment = false

theorem IsPathSegment.nil : IsPathSegment [] where
  free := List.not_mem_nil
  noDot := by decide
  noDots := by decide

theorem addSegment_segments {path : List (List Char)} {segment : List Char} {slash : Bool}
    (free : '/' ∉ segment) (path_segments : ∀ other ∈ path, IsPathSegment other) :
    ∀ other ∈ addSegment path segment slash, IsPathSegment other := by
  intro other member
  have last : other ∈ (if slash then [] else [[]] : List (List Char)) → IsPathSegment other := by
    intro added
    cases slash with
    | false => exact List.mem_singleton.mp added ▸ .nil
    | true => cases added
  unfold addSegment at member
  split at member
  · rcases List.mem_append.mp member with earlier | added
    · exact path_segments other ((List.dropLast_sublist _).subset earlier)
    · exact last added
  next noDots =>
  split at member
  · rcases List.mem_append.mp member with earlier | added
    · exact path_segments other earlier
    · exact last added
  next noDot =>
  rcases List.mem_append.mp member with earlier | added
  · exact path_segments other earlier
  · rw [List.mem_singleton.mp added]
    exact ⟨free, Bool.eq_false_iff.mpr noDot, Bool.eq_false_iff.mpr noDots⟩

theorem addSegments_segments {path segments : List (List Char)}
    (free : ∀ segment ∈ segments, '/' ∉ segment)
    (path_segments : ∀ other ∈ path, IsPathSegment other) :
    ∀ other ∈ addSegments path segments, IsPathSegment other := by
  induction segments generalizing path with
  | nil => exact path_segments
  | cons segment rest ih =>
      have own := free segment List.mem_cons_self
      cases rest with
      | nil => exact addSegment_segments own path_segments
      | cons second rest =>
          exact ih (fun other member => free other (List.mem_cons_of_mem _ member))
            (addSegment_segments own path_segments)

theorem parsePath_segments (text : List Char) : ∀ segment ∈ parsePath text,
    IsPathSegment segment := by
  refine addSegments_segments (fun segment member => ?_) fun _ member => by cases member
  obtain ⟨piece, listed, rfl⟩ := List.mem_map.mp member
  exact percentEncode_free (not_mem_of_mem_splitOn listed)

theorem parseUrl_segments {hostParser : List Char → Option (List Char)} {value : List Char}
    {record : UrlRecord} (parsed : parseUrl hostParser value = .https record) :
    ∀ segment ∈ record.path, IsPathSegment segment := by
  unfold parseUrl at parsed
  split at parsed
  · split at parsed
    · split at parsed
      · split at parsed
        · next found =>
            obtain rfl := Parsed.https.inj parsed
            unfold parseHttps at found
            obtain ⟨authority, -, rfl⟩ := Option.map_eq_some_iff.mp found
            exact parsePath_segments _
        · cases parsed
      · cases parsed
    · cases parsed
  · cases parsed

/-! ## Evidence paths -/

theorem isLinkChar_of_isAlphanum {char : Char} (alphanum : char.isAlphanum = true) :
    isLinkChar char = true := by
  simp [isLinkChar, alphanum]

theorem plain_of_isOwner {owner : List Char} (valid : isOwner owner = true) :
    ∀ char ∈ owner, isLinkChar char = true := by
  cases owner with
  | nil => simp
  | cons head tail =>
      simp only [isOwner, Bool.and_eq_true, List.all_eq_true, Bool.or_eq_true,
        beq_iff_eq] at valid
      intro char member
      rcases List.mem_cons.mp member with rfl | later
      · exact isLinkChar_of_isAlphanum valid.1.1
      · rcases valid.2 char later with alphanum | rfl
        · exact isLinkChar_of_isAlphanum alphanum
        · decide

theorem plain_of_isRepository {repository : List Char} (valid : isRepository repository = true) :
    ∀ char ∈ repository, isLinkChar char = true := by
  simp only [isRepository, Bool.and_eq_true, List.all_eq_true] at valid
  exact valid.2

theorem isAlphanum_of_isDigit {char : Char} (digit : char.isDigit = true) :
    char.isAlphanum = true := by
  simp [Char.isAlphanum, digit]

theorem isAlphanum_of_isLowerHex {char : Char} (hex : isLowerHex char = true) :
    char.isAlphanum = true := by
  simp only [isLowerHex, Bool.or_eq_true, Bool.and_eq_true, decide_eq_true_eq] at hex
  rcases hex with digit | ⟨from_a, to_f⟩
  · exact isAlphanum_of_isDigit digit
  · have letter : char.isLower = true := by
      unfold Char.isLower
      simp only [Bool.and_eq_true, decide_eq_true_eq]
      exact ⟨from_a, le_trans to_f (by decide)⟩
    unfold Char.isAlphanum Char.isAlpha
    simp [letter]

theorem alphanum_of_isSha {text : List Char} (valid : isSha text = true) :
    ∀ char ∈ text, char.isAlphanum = true := by
  simp only [isSha, Bool.and_eq_true, List.all_eq_true] at valid
  exact fun char member => isAlphanum_of_isLowerHex (valid.2 char member)

theorem alphanum_of_isNumber {text : List Char} (valid : isNumber text = true) :
    ∀ char ∈ text, char.isAlphanum = true := by
  cases text with
  | nil => simp
  | cons head tail =>
      simp only [isNumber, Bool.and_eq_true, List.all_eq_true] at valid
      intro char member
      rcases List.mem_cons.mp member with rfl | later
      · exact isAlphanum_of_isDigit valid.1.1
      · exact isAlphanum_of_isDigit (valid.2 char later)

theorem plain_of_isEvidencePath {parts : List (List Char)} (valid : isEvidencePath parts = true) :
    ∀ part ∈ parts, ∀ char ∈ part, isLinkChar char = true := by
  unfold isEvidencePath at valid
  split at valid
  · next owner repository resource identifier =>
      simp only [Bool.and_eq_true, Bool.or_eq_true, beq_iff_eq] at valid
      obtain ⟨⟨ownerValid, repositoryValid⟩, identified⟩ := valid
      have rest : (∀ char ∈ resource, isLinkChar char = true) ∧
          ∀ char ∈ identifier, isLinkChar char = true := by
        rcases identified with ⟨rfl, sha⟩ | ⟨rfl, number⟩
        · exact ⟨forall_mem_of_all (by decide), fun char member =>
            isLinkChar_of_isAlphanum (alphanum_of_isSha sha char member)⟩
        · exact ⟨forall_mem_of_all (by decide), fun char member =>
            isLinkChar_of_isAlphanum (alphanum_of_isNumber number char member)⟩
      simp only [List.mem_cons, List.not_mem_nil, or_false]
      rintro part (rfl | rfl | rfl | rfl)
      · exact plain_of_isOwner ownerValid
      · exact plain_of_isRepository repositoryValid
      · exact rest.1
      · exact rest.2
  · cases valid

/-! ## Trusted links -/

section Trusted

variable {hostParser : List Char → Option (List Char)} {segments : List (List Char)}

theorem parts_of_path (free : ∀ segment ∈ segments, '/' ∉ segment) :
    ((slashed segments).splitOn '/').filter (· ≠ []) = segments.filter (· ≠ []) := by
  rw [splitOn_slashed free]
  rfl

/-- A plain link is trusted for its segments. -/
theorem trusted_link (github : hostParser githubHost = some githubHost)
    (links : ∀ segment ∈ segments, IsLinkSegment segment) (nonempty : segments ≠ [])
    (query fragment : Bool) :
    trustedGitHubUrl hostParser (linkText segments query fragment) =
      if isEvidencePath (segments.filter (· ≠ [])) then some (linkText segments query fragment)
      else none := by
  have free : ∀ segment ∈ segments, '/' ∉ segment := fun segment listed =>
    (links segment listed).free (by simp)
  have known : ¬ ((linkRecord segments query fragment).host ≠ githubHost ∨
      (linkRecord segments query fragment).port ≠ none ∨
      (linkRecord segments query fragment).username ≠ [] ∨
      (linkRecord segments query fragment).password ≠ [] ∨
      (linkRecord segments query fragment).query.getD [] ≠ [] ∨
      (linkRecord segments query fragment).fragment.getD [] ≠ []) := by
    cases query <;> cases fragment <;> simp [linkRecord]
  unfold trustedGitHubUrl
  rw [parseUrl_link github nonempty links]
  dsimp only
  rw [if_neg known, linkRecord_href]
  exact congrArg (fun parts => if isEvidencePath parts then _ else none) (parts_of_path free)

/-- A value is trusted as a plain link. -/
structure Trusts (hostParser : List Char → Option (List Char)) (value link : List Char)
    (segments : List (List Char)) (query fragment : Bool) : Prop where
  links : ∀ segment ∈ segments, IsLinkSegment segment
  evidence : isEvidencePath (segments.filter (· ≠ [])) = true
  parsed : parseUrl hostParser value = .https (linkRecord segments query fragment)
  text : link = linkText segments query fragment

theorem exists_trusts {value link : List Char}
    (trusted : trustedGitHubUrl hostParser value = some link) :
    ∃ segments query fragment, Trusts hostParser value link segments query fragment := by
  unfold trustedGitHubUrl at trusted
  split at trusted
  · cases trusted
  · cases trusted
  next record parsed =>
  split at trusted
  · cases trusted
  next known =>
  dsimp only at trusted
  split at trusted
  swap
  · cases trusted
  next evidence =>
  have shapes := parseUrl_segments parsed
  obtain ⟨username, password, host, port, path, query, fragment⟩ := record
  simp only [not_or, not_not] at known
  obtain ⟨rfl, rfl, rfl, rfl, noQuery, noFragment⟩ := known
  have parts : isEvidencePath (path.filter (· ≠ [])) = true := by
    rw [← parts_of_path fun segment listed => (shapes segment listed).free]
    exact evidence
  have whole : UrlRecord.mk [] [] githubHost none path query fragment =
      linkRecord path query.isSome fragment.isSome := by
    cases query with
    | none =>
        cases fragment with
        | none => rfl
        | some fragment => simp_all [linkRecord]
    | some query =>
        cases fragment with
        | none => simp_all [linkRecord]
        | some fragment => simp_all [linkRecord]
  refine ⟨path, query.isSome, fragment.isSome,
    ⟨fun segment listed => ?_, parts, whole ▸ parsed, ?_⟩⟩
  · by_cases empty : segment = []
    · exact empty ▸ .nil
    · have plain := plain_of_isEvidencePath parts segment
        (List.mem_filter.mpr ⟨listed, by simpa using empty⟩)
      exact ⟨plain, (shapes segment listed).noDot, (shapes segment listed).noDots⟩
  · rw [← linkRecord_href, ← whole]
    exact (Option.some.inj trusted).symm

/-- The link that is opened is trusted as it is. -/
theorem Trusts.again {value link : List Char} {query fragment : Bool}
    (trusts : Trusts hostParser value link segments query fragment)
    (github : hostParser githubHost = some githubHost) :
    trustedGitHubUrl hostParser link = some link := by
  have nonempty : segments ≠ [] := by
    rintro rfl
    cases trusts.evidence
  rw [trusts.text, trusted_link github trusts.links nonempty, if_pos trusts.evidence]

end Trusted

end Codenaut.Frontend
