import Codenaut.Indexing.Worker
import Codenaut.Interaction.Requests

/-!
# The policy of a worker's builds

A claimed run prepares its build under the fingerprint of the worker's own
settings, whatever the services answer.
-/

set_option autoImplicit false

namespace Codenaut.Indexing

open Codenaut.Core Codenaut.Db Codenaut.Embeddings Codenaut.Interaction Codenaut.Services
open Codenaut.Vector

/-- A build is prepared under this fingerprint. -/
def preparesUnder (fingerprint : String) : Request → Prop
  | .store (.prepareBuild _ _ _ prepared) => prepared = fingerprint
  | _ => True

section Methods

variable {fingerprint : String} {context : JobContext}

/-- Work that prepares no build under another fingerprint. -/
abbrev UnderPolicy {Result : Type} (fingerprint : String) (work : Work Result) : Prop :=
  Task.AsksOnly (preparesUnder fingerprint) work

theorem raising_policy {Result : Type} (reply : Except Failure Result) :
    UnderPolicy fingerprint (raising reply) := by
  cases reply with
  | ok result => exact .pure result
  | error failure => exact .throw failure

theorem store_policy {call : StoreCall} (allowed : preparesUnder fingerprint (.store call)) :
    UnderPolicy fingerprint (store call) :=
  .bind (.ask allowed) fun _ => raising_policy _

theorem scopeAt_policy (indexVersion : Nat) :
    UnderPolicy fingerprint (scopeAt context indexVersion) := by
  unfold scopeAt
  split
  · exact .pure _
  · exact .throw _

theorem withdrawPublic_policy {Result : Type} (code safeMessage : String) :
    UnderPolicy fingerprint (withdrawPublic context code safeMessage : Work Result) :=
  .bind (store_policy trivial) fun _ => .throw _

theorem cloneToken_policy : UnderPolicy fingerprint (cloneToken context) := by
  unfold cloneToken
  split
  case h_1 =>
      refine .bind (.ask trivial) fun reply => ?_
      split
      case h_1 => exact withdrawPublic_policy _ _
      case h_2 => exact withdrawPublic_policy _ _
      case h_3 => exact .throw _
      case h_4 => exact .throw _
      case h_5 =>
          split
          · exact withdrawPublic_policy _ _
          · exact .pure _
  case h_2 =>
      unfold installationCloneToken
      split
      case h_1 => exact .throw _
      case h_2 =>
          refine .bind (.ask trivial) fun reply => ?_
          split
          case h_1 => exact .pure _
          case h_2 => exact .throw _
          case h_3 => exact .throw _

theorem comparisonOf_policy (reply : Except GitHubFailure GitHub.CommitComparison) :
    UnderPolicy fingerprint (comparisonOf reply) := by
  unfold comparisonOf
  split
  case h_1 => exact .pure _
  case h_2 => exact .throw _
  case h_3 => exact .pure _

theorem compareWithActive_policy (token : Option Token) (head : CommitSha) :
    UnderPolicy fingerprint (compareWithActive context token head) := by
  unfold compareWithActive
  split
  case h_1 => exact .pure _
  case h_2 =>
      split
      case h_1 => exact .bind (.ask trivial) fun _ => comparisonOf_policy _
      case h_2 =>
          refine .bind ?_ fun _ => .bind (.ask trivial) fun _ => comparisonOf_policy _
          unfold requireInstallationToken
          split
          · exact .pure _
          · exact .throw _

theorem analyze_policy (cloned : ClonedRepository) :
    UnderPolicy fingerprint (analyze context cloned) := by
  refine .bind (store_policy trivial) fun _ => .bind (.ask trivial) fun _ =>
    .bind (raising_policy _) fun _ => .bind (store_policy trivial) fun _ =>
    .bind (.ask trivial) fun _ => .bind (raising_policy _) fun _ =>
    .bind (store_policy trivial) fun _ => .bind (.ask trivial) fun _ =>
    .bind (raising_policy _) fun _ => .bind (store_policy trivial) fun _ =>
    .bind (.ask trivial) fun _ => .bind (raising_policy _) fun _ => ?_
  split
  · exact .pure _
  · exact .throw _

theorem deleteVersion_policy (indexVersion : Nat) :
    UnderPolicy fingerprint (deleteVersion context indexVersion) :=
  .bind (scopeAt_policy indexVersion) fun _ => .bind (.ask trivial) fun _ => raising_policy _

theorem cleanupInactive_policy : UnderPolicy fingerprint (cleanupInactive context) := by
  refine .bind (store_policy trivial) fun eligible => ?_
  split
  case isFalse => exact .pure _
  case isTrue =>
      refine .bind (.tryCatch ?_ fun _ => .pure _) fun _ =>
        .bind (store_policy trivial) fun _ => .pure _
      exact .bind (deleteVersion_policy _) fun _ => .pure _

variable {settings : Settings} {platform : Platform}

theorem reuseVectors_policy (plan : FreshnessPlan) (prepared : List PreparedEmbedding) :
    UnderPolicy fingerprint (reuseVectors settings platform context plan prepared) := by
  unfold reuseVectors
  split
  case isFalse => exact .pure _
  case isTrue =>
      refine .bind (scopeAt_policy _) fun _ => .bind (.ask trivial) fun _ =>
        .bind (raising_policy _) fun _ => ?_
      split
      · exact .pure _
      · exact .bind (store_policy trivial) fun _ => .pure _

theorem storeVectors_policy (cloned : ClonedRepository)
    (prepared toEmbed : List PreparedEmbedding) (reused embeddings : VectorMap) :
    UnderPolicy fingerprint
      (storeVectors settings platform context cloned prepared toEmbed reused embeddings) := by
  refine .bind (store_policy trivial) fun _ => .bind (scopeAt_policy _) fun _ =>
    .bind (store_policy trivial) fun eligible => ?_
  split
  case isFalse => exact .throw _
  case isTrue =>
      exact .bind (.ask trivial) fun _ => .bind (raising_policy _) fun _ =>
        .bind (.ask trivial) fun _ => .bind (raising_policy _) fun _ =>
        .bind (.ask trivial) fun _ => .bind (raising_policy _) fun _ =>
        .bind (store_policy trivial) fun _ => .pure _

theorem embedAndStore_policy (cloned : ClonedRepository) (processing : ProcessingResult)
    (plan : FreshnessPlan) :
    UnderPolicy fingerprint (embedAndStore settings platform context cloned processing plan) := by
  refine .bind (store_policy trivial) fun _ => .bind (raising_policy _) fun _ =>
    .bind (reuseVectors_policy _ _) fun _ => .bind (.ask trivial) fun _ =>
    .bind (raising_policy _) fun _ => ?_
  split
  · exact storeVectors_policy _ _ _ _ _
  · exact .throw _

theorem activateAuthorized_policy (commitSha : CommitSha) (reauthorized : Option JobContext) :
    UnderPolicy fingerprint (activateAuthorized context commitSha reauthorized) := by
  unfold activateAuthorized
  split
  case h_1 => exact .bind cleanupInactive_policy fun _ => store_policy trivial
  case h_2 =>
      split
      case isFalse => exact .throw _
      case isTrue =>
          refine .bind (store_policy trivial) fun _ => .bind (store_policy trivial) fun _ => ?_
          split
          case isFalse => exact .pure _
          case isTrue =>
              refine .tryCatch ?_ fun _ => .pure _
              exact .bind (deleteVersion_policy _) fun _ => store_policy trivial

theorem validateAndActivate_policy (commitSha : CommitSha) (vectorCount : Nat) :
    UnderPolicy fingerprint
      (validateAndActivate settings platform context commitSha vectorCount) := by
  refine .bind (store_policy trivial) fun _ => .bind (scopeAt_policy _) fun _ =>
    .bind (.ask trivial) fun _ => .bind (raising_policy _) fun _ =>
    .bind (store_policy trivial) fun _ => .bind (store_policy trivial) fun _ =>
    .bind (store_policy trivial) fun current => ?_
  split
  case isTrue => exact .bind (store_policy trivial) fun _ => activateAuthorized_policy _ _
  case isFalse => exact .bind cleanupInactive_policy fun _ => store_policy trivial

theorem refreshFrom_policy (token : Option Token) (cloned : ClonedRepository) :
    UnderPolicy (policyFingerprint settings platform)
      (refreshFrom settings platform context token cloned) :=
  .bind (compareWithActive_policy _ _) fun _ => .bind (analyze_policy _) fun _ =>
    .bind (store_policy trivial) fun _ => .bind (store_policy rfl) fun _ =>
    .bind (.modify _) fun _ => .bind (embedAndStore_policy _ _ _) fun _ =>
    validateAndActivate_policy _ _

theorem attemptClaimed_policy :
    UnderPolicy (policyFingerprint settings platform) (attemptClaimed settings platform) := by
  refine .bind (store_policy trivial) fun authorized => .bind (.modify _) fun _ => ?_
  split
  case h_1 => exact store_policy trivial
  case h_2 =>
      refine .bind (store_policy trivial) fun current => ?_
      split
      case isFalse => exact store_policy trivial
      case isTrue =>
          refine .bind cloneToken_policy fun _ => .bind (.ask trivial) fun _ =>
            .bind (raising_policy _) fun _ => ?_
          split
          · exact store_policy trivial
          · exact refreshFrom_policy _ _

theorem failClaimed_policy (failure : Failure) :
    UnderPolicy fingerprint (failClaimed failure) := by
  refine .bind ?_ fun complete => ?_
  · refine .bind .get fun state => ?_
    split
    · split
      · exact cleanupInactive_policy
      · exact .pure _
    · exact .pure _
  · cases failure with
    | indexing error => exact .bind (store_policy trivial) fun _ => .pure _
    | internal => exact .bind (store_policy trivial) fun _ => .pure _

end Methods

/-- A claimed run prepares its build under the policy of its settings. -/
theorem runClaimed_policy (settings : Settings) (platform : Platform) :
    UnderPolicy (policyFingerprint settings platform) (runClaimed settings platform) :=
  .tryCatch attemptClaimed_policy failClaimed_policy

end Codenaut.Indexing
