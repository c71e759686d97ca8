import Codenaut.Agent.Tools

/-!
# Texts of history

Every text of history evidence is the longest front, within its limit, of the text
that GitHub answered.
-/

set_option autoImplicit false

namespace Codenaut.Agent

open Codenaut.Core Codenaut.Db Codenaut.Interaction Codenaut.Rag Codenaut.Relational
open Codenaut.Text

/-- The piece is the longest front of the text within the limit. -/
def Cut (limit : Nat) (whole piece : String) : Prop :=
  LongestFront limit whole.toList piece.toList

/-- A text that is empty gives no excerpt. -/
def Excerpt (limit : Nat) (whole : String) : Option String → Prop
  | none => whole = ""
  | some piece => whole ≠ "" ∧ Cut limit whole piece

/-- The texts of an item, cut from those of a bundle. -/
def CutFrom (settings : Settings) (bundle : GitHub.HistoryBundle) : AgentEvidence → Prop
  | .commit item =>
      Cut settings.agentHistoryMaxMessageBytes bundle.commit.commit.message item.message ∧
        Excerpt settings.agentHistoryMaxPatchBytes (commitPatches bundle.commit) item.patchExcerpt
  | .pullRequest item =>
      ∃ pull ∈ bundle.pullRequests,
        Cut settings.agentHistoryMaxMessageBytes pull.title item.title ∧
          Excerpt settings.agentHistoryMaxMessageBytes (pull.body.getD "") item.bodyExcerpt
  | .code _ | .caller _ => False

/-- `_truncate` gives the longest front. -/
theorem truncate_cut (value : String) (maximumBytes : Nat) :
    Cut maximumBytes value (truncate value maximumBytes) := by
  unfold Cut truncate
  dsimp only
  split
  · next fits =>
      rw [length_utf8Encode] at fits
      exact .whole fits
  · rw [String.toList_ofList]
    exact decodeIgnoring_take maximumBytes value.toList

/-- The euro sign takes three bytes, of which two are left. -/
example : truncate "a€b" 3 = "a" := by decide +kernel

section Evidence

variable {settings : Settings} {step : Nat}

theorem commitEvidence_cut (position : Nat) (bundle : GitHub.HistoryBundle)
    (committedAt : String) :
    CutFrom settings bundle
      (.commit (commitEvidence settings step position bundle.commit committedAt)) := by
  refine ⟨truncate_cut _ _, ?_⟩
  unfold commitEvidence
  dsimp only
  split
  · next empty => exact empty
  · next present => exact ⟨present, truncate_cut _ _⟩

theorem pullRequestEvidence_cut (position pullPosition : Nat) {bundle : GitHub.HistoryBundle}
    {pull : GitHub.PullRequest} (member : pull ∈ bundle.pullRequests) :
    CutFrom settings bundle (.pullRequest
      (pullRequestEvidence settings step position pullPosition bundle.commit pull)) := by
  refine ⟨pull, member, truncate_cut _ _, ?_⟩
  unfold pullRequestEvidence
  dsimp only
  cases pull.body with
  | none => rfl
  | some body =>
      by_cases empty : body = ""
      · rw [Option.filter_some, if_neg (by simpa using empty)]
        exact empty
      · rw [Option.filter_some, if_pos (by simpa using empty)]
        exact ⟨empty, truncate_cut body settings.agentHistoryMaxMessageBytes⟩

theorem bundleEvidence_cut {position : Nat} {bundle : GitHub.HistoryBundle} {item : AgentEvidence}
    (member : item ∈ bundleEvidence settings step position bundle) :
    CutFrom settings bundle item := by
  unfold bundleEvidence at member
  split at member
  · cases member
  · rcases List.mem_cons.mp member with rfl | pulled
    · exact commitEvidence_cut position bundle _
    · obtain ⟨⟨pull, index⟩, indexed, rfl⟩ := List.mem_map.mp pulled
      exact pullRequestEvidence_cut position (index + 1)
        (List.fst_mem_of_mem_zipIdx indexed)

theorem historyEvidence_cut {ranked : List GitHub.HistoryBundle} {item : AgentEvidence}
    (member : item ∈ historyEvidence settings step ranked) :
    ∃ bundle ∈ ranked, CutFrom settings bundle item := by
  obtain ⟨⟨bundle, index⟩, indexed, produced⟩ := List.mem_flatMap.mp member
  exact ⟨bundle, List.fst_mem_of_mem_zipIdx indexed, bundleEvidence_cut produced⟩

end Evidence

/-! ## Runs of the tool -/

/-- The bundles that a call to GitHub answered. -/
def answeredBundles : QuestionEvent → Option (List GitHub.HistoryBundle)
  | ⟨.publicHistory .., .ok bundles⟩ => some bundles
  | ⟨.repositoryHistory .., .ok bundles⟩ => some bundles
  | _ => none

section Runs

variable {Locals : Type} {state : Locals} {history : List QuestionEvent}

/-- Bundles that a task returns were answered. -/
def Answered (seen : List QuestionEvent) (result : Except Raised (List GitHub.HistoryBundle)) :
    Prop :=
  ∀ bundles, result = .ok bundles → ∃ event ∈ seen, answeredBundles event = some bundles

theorem Answered.raised {seen : List QuestionEvent} {raised : Raised} :
    Answered seen (.error raised) :=
  fun _ same => by cases same

theorem fetchHistory_answered (settings : QuestionSettings) (context : ActiveRepositoryContext)
    (revision : String) :
    (fetchHistory settings context revision).Holds (historyContract fun _ _ => True) history state
      fun seen _ result => Answered seen result := by
  unfold fetchHistory
  dsimp only
  split
  · apply Task.holds_bind
    refine Task.holds_ask trivial fun reply => ?_
    cases reply with
    | error raised => exact .raised
    | ok bundles =>
        refine Task.holds_pure fun returned same => ?_
        cases same
        exact ⟨_, List.mem_cons_self, rfl⟩
  · exact Task.holds_throw .raised
  · apply Task.holds_bind
    refine Task.holds_ask trivial fun reply => ?_
    apply Task.holds_bind
    cases reply with
    | error raised => exact .raised
    | ok installation =>
        apply Task.holds_pure
        apply Task.holds_bind
        refine Task.holds_ask trivial fun reply => ?_
        apply Task.holds_bind
        cases reply with
        | error raised => exact .raised
        | ok token =>
            apply Task.holds_pure
            apply Task.holds_bind
            refine Task.holds_ask trivial fun reply => ?_
            cases reply with
            | error raised => exact .raised
            | ok bundles =>
                refine Task.holds_pure fun returned same => ?_
                cases same
                exact ⟨_, List.mem_cons_self, rfl⟩

/-- Every item that the tool returns is cut from a bundle that GitHub answered. -/
theorem executeGetHistory_cut (settings : QuestionSettings) (platform : QuestionPlatform)
    (context : ActiveRepositoryContext) (arguments : AgentToolArguments) (step : Nat) :
    (executeGetHistory settings platform context arguments step).Holds
      (historyContract fun _ _ => True) history state fun seen _ result =>
        ∀ evidence, result = .ok evidence → ∃ event ∈ seen, ∃ bundles,
          answeredBundles event = some bundles ∧
          ∀ item ∈ evidence, ∃ bundle ∈ bundles, CutFrom settings.toSettings bundle item := by
  unfold executeGetHistory
  split
  · exact Task.holds_throw fun evidence same => by cases same
  · apply Task.holds_bind
    apply Task.holds_tryCatch
    apply (fetchHistory_answered settings context _).mono
    intro seen left result answered
    cases result with
    | error raised =>
        cases raised with
        | github => exact fun evidence same => by cases same
        | timeout | cancelled | tool | indexing | value | access | provider | database | other =>
            exact fun evidence same => by cases same
    | ok bundles =>
        obtain ⟨event, member, fetched⟩ := answered bundles rfl
        refine Task.holds_pure fun evidence same => ?_
        cases same
        refine ⟨event, member, bundles, fetched, fun item produced => ?_⟩
        obtain ⟨bundle, ranked, cut⟩ := historyEvidence_cut produced
        exact ⟨bundle, mem_sortOn.mp ranked, cut⟩

end Runs

/-- Truncation keeps the longest front of whole characters within the budget; and
in every run of the history tool the texts of the evidence are those that GitHub
answered, each truncated to its limit. -/
theorem history_truncated_exactly :
    (∀ value maximumBytes, Cut maximumBytes value (truncate value maximumBytes)) ∧
    ∀ {Locals : Type} (settings : QuestionSettings) (platform : QuestionPlatform)
      (context : ActiveRepositoryContext) (arguments : AgentToolArguments) (step : Nat)
      (state left : Locals) (events : List QuestionEvent) (evidence : List AgentEvidence),
      ((executeGetHistory settings platform context arguments step).start state).Runs events
        (.ok evidence, left) →
      ∃ event ∈ events, ∃ bundles, answeredBundles event = some bundles ∧
        ∀ item ∈ evidence, ∃ bundle ∈ bundles, CutFrom settings.toSettings bundle item := by
  refine ⟨truncate_cut, ?_⟩
  intro Locals settings platform context arguments step state left events evidence runs
  have holds := @executeGetHistory_cut Locals state [] settings platform context arguments step
  obtain ⟨event, member, answered⟩ := Program.Safe.ends holds runs evidence rfl
  exact ⟨event, List.mem_reverse.mp (by simpa using member), answered⟩

/-! ## A public repository -/

namespace HistoryRun

/-- A message may take three bytes. -/
def settings : QuestionSettings where
  embeddingModelIdentifier := "model"
  embeddingModelRevision := "revision"
  embeddingDimension := 1
  agentHistoryMaxMessageBytes := 3

def platform : QuestionPlatform where
  sha256Hex := fun _ => "digest"
  uuid5 := fun _ _ => 0
  textLe := fun _ _ => true
  casefold := id
  isDecimal := Char.isDigit
  scoreText := fun _ => "1.0"
  isUnsupported := fun _ => false

def context : ActiveRepositoryContext where
  userId := 1
  repository :=
    { id := 2
      installationId := none
      accessMode := .publicAccess
      githubRepositoryId := 7
      githubOwner := "octo"
      githubName := "app"
      githubFullName := "octo/app"
      githubUrl := "url"
      isPrivate := false
      defaultBranch := "main" }
  indexVersion := 1
  commitSha := "commit"
  preprocessingFingerprint := "policy"
  originalQuestion := "why?"

def bundle : GitHub.HistoryBundle where
  commit :=
    { sha := "commit"
      htmlUrl := "url"
      commit := { message := "a€b", authorDate := some "2024-01-01" } }

def replies (_ : List QuestionEvent) : (request : QuestionRequest) → QuestionReply request
  | .publicHistory .. => .ok [bundle]
  | .authorize .. => .error .access
  | .loadBuild .. => .ok none
  | .decide _ | .generate .. => .error .other
  | .enter .. => ()
  | .embedQuery _ => .ok [1]
  | .searchVectors .. => .ok []
  | .authorizedInstallation .. => .error .access
  | .installationToken .. | .repositoryHistory .. => .error .github
  | .graphBuild .. => .ok none
  | .callerTargets .. => .ok []
  | .callerRows .. => .ok []

def run : (Except Raised (List AgentEvidence) × Unit) × List QuestionEvent :=
  ((executeGetHistory settings platform context { query := some "why" } 1).start ()).recorded
    replies

def evidence : List AgentEvidence := historyEvidence settings.toSettings 1 [bundle]

end HistoryRun

open HistoryRun in
theorem historyRun_truncated :
    evidence.length = 1 ∧ ∃ event ∈ run.2, ∃ bundles, answeredBundles event = some bundles ∧
      ∀ item ∈ evidence, ∃ bundle ∈ bundles, CutFrom settings.toSettings bundle item := by
  have ended : run.1 = (.ok evidence, ()) := rfl
  refine ⟨by decide +kernel, history_truncated_exactly.2 settings platform context
    { query := some "why" } 1 () () run.2 evidence ?_⟩
  rw [← ended]
  exact Program.runs_recorded replies _

end Codenaut.Agent
