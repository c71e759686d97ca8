import Codenaut.Frontend.TrustedLinks
import Codenaut.GitHub.History
import Codenaut.Relational.Collected

/-!
# Links of accepted history

The links that the API client accepts are plain links to GitHub, so the inspector
trusts them exactly where it admits the names of owner and repository.
-/

set_option autoImplicit false

namespace Codenaut.Frontend

open Codenaut.Text

/-! ## Numbers in decimals -/

/-- A positive number begins with no zero. -/
theorem head_toDigits {number : Nat} (positive : 0 < number) :
    ∃ head tail, Nat.toDigits 10 number = head :: tail ∧ head ≠ '0' := by
  induction number using Nat.strongRecOn with
  | ind number ih =>
      by_cases small : number < 10
      · refine ⟨number.digitChar, [], Nat.toDigits_of_lt_base small, ?_⟩
        have table : ∀ digit < 10, 0 < digit → digit.digitChar ≠ '0' := by decide
        exact table number small positive
      · have base : 10 ≤ number := Nat.le_of_not_lt small
        obtain ⟨head, tail, digits, nonzero⟩ := ih (number / 10)
          (Nat.div_lt_self positive (by decide)) (Nat.div_pos base (by decide))
        refine ⟨head, tail ++ [(number % 10).digitChar], ?_, nonzero⟩
        rw [Nat.toDigits_of_base_le (by decide) base, digits]
        simp

theorem isNumber_toString {number : Nat} (positive : 0 < number) :
    isNumber (toString number).toList = true := by
  have digits : (toString number).toList = Nat.toDigits 10 number := Nat.toList_repr
  obtain ⟨head, tail, shape, nonzero⟩ := head_toDigits positive
  have all : ∀ char ∈ head :: tail, char.isDigit = true := by
    rw [← shape]
    exact fun char => Nat.isDigit_of_mem_toDigits (by decide) (by decide)
  rw [digits, shape]
  simp only [isNumber, Bool.and_eq_true, List.all_eq_true, bne_iff_ne]
  exact ⟨⟨all head List.mem_cons_self, nonzero⟩, fun char member =>
    all char (List.mem_cons_of_mem _ member)⟩

/-! ## Slashes at the end -/

theorem exists_slashes (text : List Char) :
    ∃ count, text = text.rdropWhile (· = '/') ++ List.replicate count '/' := by
  induction text using List.reverseRecOn with
  | nil => exact ⟨0, rfl⟩
  | append_singleton front last ih =>
      by_cases slash : last = '/'
      · obtain ⟨count, whole⟩ := ih
        refine ⟨count + 1, ?_⟩
        rw [List.rdropWhile_concat_pos _ _ _ (by simpa using slash), List.replicate_succ',
          ← List.append_assoc, ← whole, slash]
      · exact ⟨0, by rw [List.rdropWhile_concat_neg _ _ _ (by simpa using slash)]; simp⟩

/-! ## Plain segments -/

theorem IsLinkSegment.of_head {head : Char} {tail : List Char} (alphanum : head.isAlphanum = true)
    (plain : ∀ char ∈ head :: tail, isLinkChar char = true) : IsLinkSegment (head :: tail) := by
  obtain ⟨noDot, noPercent⟩ : head.toLower ≠ '.' ∧ head.toLower ≠ '%' := by
    have ascii := ascii_of_isAlphanum alphanum
    clear plain
    revert alphanum
    exact of_ascii_table ascii (by decide +kernel)
  refine ⟨plain, ?_, ?_⟩
  · simp [isSingleDot, noDot, noPercent]
  · simp [isDoubleDot, noDot, noPercent]

theorem IsLinkSegment.of_isSegment {segment : List Char}
    (valid : GitHub.isSegment segment = true) : IsLinkSegment segment := by
  cases segment with
  | nil => cases valid
  | cons head tail =>
      simp only [GitHub.isSegment, Bool.and_eq_true, List.all_eq_true] at valid
      refine .of_head valid.1.1 fun char member => ?_
      rcases List.mem_cons.mp member with rfl | later
      · exact isLinkChar_of_isAlphanum valid.1.1
      · exact valid.2 char later

theorem IsLinkSegment.of_alphanum {segment : List Char}
    (alphanum : ∀ char ∈ segment, char.isAlphanum = true) : IsLinkSegment segment := by
  cases segment with
  | nil => exact .nil
  | cons head tail =>
      exact .of_head (alphanum head List.mem_cons_self) fun char member =>
        isLinkChar_of_isAlphanum (alphanum char member)

/-! ## Accepted links -/

/-- The segments of a link, with the empty ones that slashes at its end leave. -/
def evidenceSegments (owner repository resource identifier : List Char) (count : Nat) :
    List (List Char) :=
  [owner, repository, resource, identifier] ++ List.replicate count []

theorem slashed_evidence (owner repository resource identifier : List Char) (count : Nat) :
    slashed (evidenceSegments owner repository resource identifier count) =
      '/' :: (owner ++ '/' :: (repository ++ '/' :: (resource ++ '/' :: identifier))) ++
        List.replicate count '/' := by
  have slashes : slashed (List.replicate count []) = List.replicate count '/' := by
    induction count with
    | zero => rfl
    | succ count ih => simpa [slashed, List.replicate_succ] using ih
  rw [evidenceSegments, slashed, List.flatMap_append]
  change _ ++ slashed _ = _
  rw [slashes]
  simp

theorem githubFront_eq (rest : List Char) :
    GitHub.githubFront ++ rest = httpsFront ++ githubHost ++ '/' :: rest := rfl

/-- A commit by its hash, or a pull request by its number. -/
def Identifies (resource identifier : List Char) : Prop :=
  resource = commitResource ∧ isSha identifier = true ∨
    resource = pullResource ∧ isNumber identifier = true

theorem Identifies.links {resource identifier : List Char}
    (identified : Identifies resource identifier) :
    IsLinkSegment resource ∧ IsLinkSegment identifier := by
  rcases identified with ⟨rfl, sha⟩ | ⟨rfl, number⟩
  · exact ⟨.of_alphanum (forall_mem_of_all (by decide)), .of_alphanum (alphanum_of_isSha sha)⟩
  · exact ⟨.of_alphanum (forall_mem_of_all (by decide)),
      .of_alphanum (alphanum_of_isNumber number)⟩

theorem Identifies.nonempty {resource identifier : List Char}
    (identified : Identifies resource identifier) : resource ≠ [] ∧ identifier ≠ [] := by
  rcases identified with ⟨rfl, sha⟩ | ⟨rfl, number⟩
  · refine ⟨by decide, ?_⟩
    rintro rfl
    cases sha
  · refine ⟨by decide, ?_⟩
    rintro rfl
    cases number

theorem isSegment_nonempty {segment : List Char} (valid : GitHub.isSegment segment = true) :
    segment ≠ [] := by
  rintro rfl
  cases valid

/-- The names that the inspector admits. -/
def Admitted (owner repository : List Char) : Prop :=
  isOwner owner = true ∧ isRepository repository = true

section Accepted

variable {hostParser : List Char → Option (List Char)} {owner repository resource identifier :
  List Char}

theorem evidence_links (ownerValid : GitHub.isSegment owner = true)
    (repositoryValid : GitHub.isSegment repository = true)
    (identified : Identifies resource identifier) (count : Nat) :
    ∀ segment ∈ evidenceSegments owner repository resource identifier count,
      IsLinkSegment segment := by
  intro segment member
  rcases List.mem_append.mp member with named | empty
  · simp only [List.mem_cons, List.not_mem_nil, or_false] at named
    rcases named with rfl | rfl | rfl | rfl
    · exact .of_isSegment ownerValid
    · exact .of_isSegment repositoryValid
    · exact identified.links.1
    · exact identified.links.2
  · exact List.eq_of_mem_replicate empty ▸ .nil

theorem evidence_parts (ownerValid : GitHub.isSegment owner = true)
    (repositoryValid : GitHub.isSegment repository = true)
    (identified : Identifies resource identifier) (count : Nat) :
    (evidenceSegments owner repository resource identifier count).filter (· ≠ []) =
      [owner, repository, resource, identifier] := by
  have ownerSome := isSegment_nonempty ownerValid
  have repositorySome := isSegment_nonempty repositoryValid
  simp [evidenceSegments, ownerSome, repositorySome, identified.nonempty]

theorem isEvidencePath_iff (identified : Identifies resource identifier) :
    isEvidencePath [owner, repository, resource, identifier] = true ↔
      Admitted owner repository := by
  have known : (resource == commitResource && isSha identifier ||
      resource == pullResource && isNumber identifier) = true := by
    rcases identified with ⟨rfl, sha⟩ | ⟨rfl, number⟩
    · simp [sha]
    · simp [number]
  simp only [isEvidencePath, known, Bool.and_true, Bool.and_eq_true, Admitted]

theorem trusted_evidence_iff (github : hostParser githubHost = some githubHost)
    (ownerValid : GitHub.isSegment owner = true)
    (repositoryValid : GitHub.isSegment repository = true)
    (identified : Identifies resource identifier) {url : List Char}
    (accepted : url.rdropWhile (· = '/') = GitHub.githubFront ++ (owner ++ '/' :: (repository ++
      '/' :: (resource ++ '/' :: identifier)))) :
    (trustedGitHubUrl hostParser url).isSome = true ↔ Admitted owner repository := by
  obtain ⟨count, whole⟩ := exists_slashes url
  have text : url = linkText (evidenceSegments owner repository resource identifier count)
      false false := by
    rw [whole, accepted, githubFront_eq, linkText, slashed_evidence]
    simp
  have links := evidence_links ownerValid repositoryValid identified count
  rw [text, trusted_link github links (by simp [evidenceSegments]),
    evidence_parts ownerValid repositoryValid identified]
  split
  · next valid => exact ⟨fun _ => (isEvidencePath_iff identified).mp valid, fun _ => rfl⟩
  · next invalid =>
      rw [isEvidencePath_iff identified] at invalid
      exact ⟨fun present => absurd present Bool.false_ne_true, fun admitted =>
        (invalid admitted).elim⟩

end Accepted

/-! ## Agreement -/

section Agreement

open Codenaut.GitHub

variable {hostParser : List Char → Option (List Char)} {owner repository revision : String}
  {limit : Nat} {answers : HistoryAnswers} {bundles : List HistoryBundle} {bundle : HistoryBundle}

/-- What a returned bundle has passed. -/
structure BundleChecked (owner repository : String) (bundle : HistoryBundle) : Prop where
  commit : bundle.commit.Named
  pulls : ∀ pull ∈ bundle.pullRequests, pull.Named
  commitLink : withoutSlashes bundle.commit.htmlUrl = commitUrl owner repository bundle.commit.sha
  pullLinks : ∀ pull ∈ bundle.pullRequests,
    withoutSlashes pull.htmlUrl = pullUrl owner repository pull.number

theorem readBundle_checked {summary : Commit}
    (read : readBundle owner repository answers summary = some bundle) :
    BundleChecked owner repository bundle := by
  unfold readBundle at read
  dsimp only at read
  split at read
  swap
  · cases read
  next checked =>
  obtain rfl := Option.some.inj read
  obtain ⟨commit, pulls, identity⟩ := checked
  simp only [validateHistoryIdentity, Bool.and_eq_true, decide_eq_true_eq,
    List.all_eq_true] at identity
  exact ⟨commit, pulls, identity.1.2, identity.2⟩

theorem history_checked
    (returned : getRepositoryHistory owner repository revision limit answers = some bundles) :
    isSegment owner.toList = true ∧ isSegment repository.toList = true ∧
      ∀ bundle ∈ bundles, BundleChecked owner repository bundle := by
  unfold getRepositoryHistory at returned
  split at returned
  · cases returned
  next requested =>
  split at returned
  swap
  · cases returned
  simp only [not_or, Bool.not_eq_false] at requested
  exact ⟨requested.1, requested.2.1,
    Relational.mapM_some_forall (fun _ _ => readBundle_checked) returned⟩

theorem trusted_url_iff (github : hostParser githubHost = some githubHost)
    (returned : getRepositoryHistory owner repository revision limit answers = some bundles)
    (member : bundle ∈ bundles) {url : String} (listed : url ∈ bundle.urls) :
    (trustedGitHubUrl hostParser url.toList).isSome = true ↔
      Admitted owner.toList repository.toList := by
  obtain ⟨ownerValid, repositoryValid, all⟩ := history_checked returned
  have checked := all bundle member
  rcases List.mem_cons.mp listed with rfl | pulled
  · exact trusted_evidence_iff github ownerValid repositoryValid
      (.inl ⟨rfl, checked.commit.1⟩) checked.commitLink
  · obtain ⟨pull, inside, rfl⟩ := List.mem_map.mp pulled
    exact trusted_evidence_iff github ownerValid repositoryValid
      (.inr ⟨rfl, isNumber_toString (checked.pulls pull inside).1⟩) (checked.pullLinks pull inside)

/-- A link of returned history is trusted exactly when the inspector admits the
names; and whatever value is trusted is read as an `https` URL of GitHub for one
commit or pull request, without credentials, port, query or fragment, and opened
as a link that is trusted itself. -/
theorem trusted_links_agree_iff (hostParser : List Char → Option (List Char))
    (github : hostParser githubHost = some githubHost) :
    (∀ owner repository revision limit answers bundles,
      getRepositoryHistory owner repository revision limit answers = some bundles →
      ∀ bundle ∈ bundles, ∀ url ∈ bundle.urls,
        ((trustedGitHubUrl hostParser url.toList).isSome = true ↔
          Admitted owner.toList repository.toList)) ∧
    ∀ value link, trustedGitHubUrl hostParser value = some link →
      trustedGitHubUrl hostParser link = some link ∧
      ∃ segments query fragment, Trusts hostParser value link segments query fragment := by
  constructor
  · intro owner repository revision limit answers bundles returned bundle member url listed
    exact trusted_url_iff github returned member listed
  · intro value link trusted
    obtain ⟨segments, query, fragment, trusts⟩ := exists_trusts trusted
    exact ⟨trusts.again github, segments, query, fragment, trusts⟩

/-- Answers with one commit and one pull request of the repository. -/
def answersOf (owner repository : String) : HistoryAnswers :=
  let sha := "0123456789abcdef0123456789abcdef01234567"
  let commit : Commit := {
    sha := sha
    htmlUrl := "https://github.com/" ++ owner ++ "/" ++ repository ++ "/commit/" ++ sha
    commit := { message := "Add an index" } }
  { summaries := [commit]
    detail := fun _ => commit
    pulls := fun _ => [{
      number := 42
      title := "Index"
      state := "closed"
      htmlUrl := "https://github.com/" ++ owner ++ "/" ++ repository ++ "/pull/42" }] }

/-- The host parser on the hosts without a character outside ASCII. -/
def lowerHost (host : List Char) : Option (List Char) := some (host.map Char.toLower)

theorem pull_of_repository_trusted :
    (trustedGitHubUrl lowerHost "https://github.com/codenaut/api/pull/42".toList).isSome = true :=
  ((trusted_links_agree_iff lowerHost (by decide)).1 "codenaut" "api" "0123456" 1
    (answersOf "codenaut" "api") _ rfl _ (List.mem_singleton.mpr rfl) _
    (List.mem_cons_of_mem _ (List.mem_singleton.mpr rfl))).mpr ⟨by decide, by decide⟩

/-- The login of a managed account has an underscore. -/
theorem underscored_owner_refused :
    (getRepositoryHistory "octo_acme" "api" "0123456" 1 (answersOf "octo_acme" "api")).map
        (List.flatMap HistoryBundle.urls) =
      some ["https://github.com/octo_acme/api/commit/0123456789abcdef0123456789abcdef01234567",
        "https://github.com/octo_acme/api/pull/42"] ∧
      trustedGitHubUrl lowerHost "https://github.com/octo_acme/api/pull/42".toList = none := by
  decide +kernel

end Agreement

end Codenaut.Frontend
