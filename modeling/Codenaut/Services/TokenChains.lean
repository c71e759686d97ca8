import Codenaut.Services.RefreshTokens

/-!
# Linear refresh chains

In every interleaving of sign-ins, rotations, replays and logouts, a family has
at most one active token and a token at most one child. A child's parent is
used, and no commit makes a used token unused, so that none is rotated twice.
-/

set_option autoImplicit false

namespace Codenaut.Services

open Codenaut.Db Codenaut.Relational Codenaut.Transaction

/-- What a commit may do to a stored token. -/
structure TokenStep (old new : RefreshToken) : Prop where
  id : new.id = old.id
  familyId : new.familyId = old.familyId
  parent : new.parentTokenId = old.parentTokenId
  used : old.usedAt.isSome = true → new.usedAt.isSome = true
  revoked : old.revokedAt.isSome = true → new.revokedAt.isSome = true

theorem TokenStep.refl (token : RefreshToken) : TokenStep token token :=
  ⟨rfl, rfl, rfl, fun used => used, fun revoked => revoked⟩

theorem TokenStep.active {old new : RefreshToken} (step : TokenStep old new)
    (active : new.active = true) : old.active = true := by
  simp only [RefreshToken.active, Bool.and_eq_true, ← Option.not_isSome, Bool.not_eq_true']
    at active ⊢
  constructor
  · cases used : old.usedAt.isSome with
    | false => rfl
    | true => simp [step.used used] at active
  · cases revoked : old.revokedAt.isSome with
    | false => rfl
    | true => simp [step.revoked revoked] at active

theorem RefreshToken.unused_of_active {token : RefreshToken} (active : token.active = true) :
    token.usedAt.isSome = false ∧ token.revokedAt.isSome = false := by
  simpa [RefreshToken.active] using active

theorem RevokedFrom.step {base current : RefreshToken} (revoked : RevokedFrom base current) :
    TokenStep base current := by
  have rest := revoked.rest
  refine ⟨?_, ?_, ?_, ?_, revoked.revoked⟩
  all_goals rw [rest]
  exact fun used => used

theorem TokenCommit.step {writes : List (Write RefreshToken)} {notes : List TokenNote}
    (commit : TokenCommit writes notes) :
    ∀ write ∈ writes, TokenStep write.base write.current := by
  cases commit with
  | issued => simp
  | expired =>
      intro write member
      rw [List.mem_singleton.mp member]
      exact ⟨rfl, rfl, rfl, fun used => used, fun _ => rfl⟩
  | rotated =>
      intro write member
      rw [List.mem_singleton.mp member]
      exact ⟨rfl, rfl, rfl, fun _ => rfl, fun _ => rfl⟩
  | revoked kept => exact fun write member => (kept write member).step

/-! ## The invariant -/

structure Chained (table : List RefreshToken)
    (log : List (Commit RefreshToken TokenNote TokenCall)) : Prop where
  ids : UniqueKey (·.id) table
  single : ∀ left ∈ table, ∀ right ∈ table, left.familyId = right.familyId →
    left.active = true → right.active = true → left = right
  parents : ∀ child ∈ table, ∀ id, child.parentTokenId = some id →
    ∃ parent ∈ table, parent.id = id ∧ parent.usedAt.isSome = true
  children : ∀ left ∈ table, ∀ right ∈ table, left.parentTokenId.isSome = true →
    left.parentTokenId = right.parentTokenId → left = right
  rotated : ∀ id ∈ rotatedTokens log, ∃ token ∈ table, token.id = id ∧ token.usedAt.isSome = true
  once : (rotatedTokens log).Nodup

section Chains

variable {table : List RefreshToken} {log : List (Commit RefreshToken TokenNote TokenCall)}

/-- Rewriting stored tokens, and rotating none. -/
theorem Chained.rewritten {change : RefreshToken → RefreshToken} (chained : Chained table log)
    (steps : ∀ token ∈ table, TokenStep token (change token)) :
    Chained (table.map change) log where
  ids := by
    have same : (table.map change).map (·.id) = table.map (·.id) := by
      rw [List.map_map]
      exact List.map_congr_left fun token member => (steps token member).id
    unfold UniqueKey
    rw [same]
    exact chained.ids
  single := by
    intro _ leftMember _ rightMember family leftActive rightActive
    obtain ⟨left, leftIn, rfl⟩ := List.mem_map.mp leftMember
    obtain ⟨right, rightIn, rfl⟩ := List.mem_map.mp rightMember
    rw [(steps left leftIn).familyId, (steps right rightIn).familyId] at family
    rw [chained.single left leftIn right rightIn family ((steps left leftIn).active leftActive)
      ((steps right rightIn).active rightActive)]
  parents := by
    intro _ member id link
    obtain ⟨child, childIn, rfl⟩ := List.mem_map.mp member
    rw [(steps child childIn).parent] at link
    obtain ⟨parent, parentIn, same, used⟩ := chained.parents child childIn id link
    have step := steps parent parentIn
    exact ⟨change parent, List.mem_map_of_mem parentIn, step.id.trans same, step.used used⟩
  children := by
    intro _ leftMember _ rightMember linked same
    obtain ⟨left, leftIn, rfl⟩ := List.mem_map.mp leftMember
    obtain ⟨right, rightIn, rfl⟩ := List.mem_map.mp rightMember
    rw [(steps left leftIn).parent] at linked same
    rw [(steps right rightIn).parent] at same
    rw [chained.children left leftIn right rightIn linked same]
  rotated := by
    intro id member
    obtain ⟨token, tokenIn, same, used⟩ := chained.rotated id member
    have step := steps token tokenIn
    exact ⟨change token, List.mem_map_of_mem tokenIn, step.id.trans same, step.used used⟩
  once := chained.once

/-- A new token without a parent, or whose used parent has no child yet. -/
theorem Chained.inserted {token : RefreshToken} (chained : Chained table log)
    (fresh : token.id = freshKey (table.map (·.id)))
    (alone : ∀ other ∈ table, other.familyId = token.familyId → other.active = false)
    (linked : ∀ id, token.parentTokenId = some id →
      (∃ parent ∈ table, parent.id = id ∧ parent.usedAt.isSome = true) ∧
        ∀ other ∈ table, other.parentTokenId ≠ some id) : Chained (table ++ [token]) log where
  ids := by
    refine chained.ids.insert fun other member same => ?_
    have known : other.id ∈ table.map (·.id) := List.mem_map_of_mem member
    exact freshKey_not_mem _ (fresh ▸ same ▸ known)
  single := by
    have apart : ∀ other ∈ table, other.familyId = token.familyId → other.active = true →
        other = token := by
      intro other member family active
      simp [alone other member family] at active
    intro left leftMember right rightMember family leftActive rightActive
    rcases List.mem_append.mp leftMember with leftIn | leftNew <;>
      rcases List.mem_append.mp rightMember with rightIn | rightNew
    · exact chained.single left leftIn right rightIn family leftActive rightActive
    · obtain rfl := List.mem_singleton.mp rightNew
      exact apart left leftIn family leftActive
    · obtain rfl := List.mem_singleton.mp leftNew
      exact (apart right rightIn family.symm rightActive).symm
    · rw [List.mem_singleton.mp leftNew, List.mem_singleton.mp rightNew]
  parents := by
    intro child member id link
    have stored : ∃ parent ∈ table, parent.id = id ∧ parent.usedAt.isSome = true := by
      rcases List.mem_append.mp member with childIn | childNew
      · exact chained.parents child childIn id link
      · rw [List.mem_singleton.mp childNew] at link
        exact (linked id link).1
    obtain ⟨parent, parentIn, facts⟩ := stored
    exact ⟨parent, List.mem_append_left _ parentIn, facts⟩
  children := by
    have apart : ∀ other ∈ table, ∀ id, token.parentTokenId = some id →
        other.parentTokenId ≠ some id := fun other member id link => (linked id link).2 other member
    intro left leftMember right rightMember isLinked same
    obtain ⟨id, link⟩ := Option.isSome_iff_exists.mp isLinked
    rcases List.mem_append.mp leftMember with leftIn | leftNew <;>
      rcases List.mem_append.mp rightMember with rightIn | rightNew
    · exact chained.children left leftIn right rightIn isLinked same
    · obtain rfl := List.mem_singleton.mp rightNew
      exact (apart left leftIn id (same ▸ link) link).elim
    · obtain rfl := List.mem_singleton.mp leftNew
      exact (apart right rightIn id link (same ▸ link)).elim
    · rw [List.mem_singleton.mp leftNew, List.mem_singleton.mp rightNew]
  rotated := by
    intro id member
    obtain ⟨stored, storedIn, facts⟩ := chained.rotated id member
    exact ⟨stored, List.mem_append_left _ storedIn, facts⟩
  once := chained.once

theorem insertToken_some {token : RefreshToken} {rows : List RefreshToken}
    (inserted : insertToken table token = some rows) : rows = [token] := by
  unfold insertToken at inserted
  split at inserted <;> cases inserted
  rfl

theorem rotatedTokens_cons (commit : Commit RefreshToken TokenNote TokenCall)
    (log : List (Commit RefreshToken TokenNote TokenCall)) :
    rotatedTokens (commit :: log) = rotatedTokens [commit] ++ rotatedTokens log := by
  simp [rotatedTokens]

/-- A commit that rotates nothing. -/
theorem Chained.logged {commit : Commit RefreshToken TokenNote TokenCall}
    (chained : Chained table log) (silent : rotatedTokens [commit] = []) :
    Chained table (commit :: log) := by
  have same : rotatedTokens (commit :: log) = rotatedTokens log := by
    rw [rotatedTokens_cons, silent, List.nil_append]
  exact ⟨chained.ids, chained.single, chained.parents, chained.children, same ▸ chained.rotated,
    same ▸ chained.once⟩

variable {writes : List (Write RefreshToken)} {notes : List TokenNote}
  {rows : List RefreshToken} {label : TokenCall}

theorem TokenCommit.steps (commit : TokenCommit writes notes) (unique : UniqueKey tokenKey table)
    (committed : Committed tokenKey table
      (⟨label, writes, notes⟩ : Commit RefreshToken TokenNote TokenCall)) :
    ∀ token ∈ table, TokenStep token (own tokenKey writes token) := by
  intro token member
  have evolves := committed.evolves unique TokenStep TokenStep.refl commit.step
  exact evolves.step_of_key unique member (List.mem_map_of_mem member)
    (key_own committed.keyed token)

/-- A rotation: the locked token was active, and is used from now on. -/
theorem Chained.rotation {token : RefreshToken} {now : Timestamp} {tokenHash : String}
    {expiresAt : Timestamp} (chained : Chained table log) (unique : UniqueKey tokenKey table)
    (committed : Committed tokenKey table
      (⟨label, [⟨token, rotatedToken now token⟩], [.rotated token tokenHash expiresAt]⟩ :
        Commit RefreshToken TokenNote TokenCall))
    (active : token.active = true)
    (inserted : tokenInsertion (table.map (own tokenKey [⟨token, rotatedToken now token⟩]))
      [.rotated token tokenHash expiresAt] = some rows) :
    Chained (table.map (own tokenKey [⟨token, rotatedToken now token⟩]) ++ rows)
      (⟨label, [⟨token, rotatedToken now token⟩], [.rotated token tokenHash expiresAt]⟩ ::
        log) := by
  have stored : token ∈ table := committed.based ⟨token, rotatedToken now token⟩ (.head _)
  have steps := (TokenCommit.rotated active).steps unique committed
  have current : own tokenKey [⟨token, rotatedToken now token⟩] token = rotatedToken now token :=
    own_of_mem committed.distinct (.head _) rfl
  have written : rotatedToken now token ∈
      table.map (own tokenKey [⟨token, rotatedToken now token⟩]) :=
    List.mem_map.mpr ⟨token, stored, current⟩
  have unused := (RefreshToken.unused_of_active active).1
  -- A used token with this id would be the locked one.
  have unusedId : ∀ other ∈ table, other.id = token.id → other.usedAt.isSome = false := by
    intro other member same
    rw [chained.ids.row_eq member stored same]
    exact unused
  rw [insertToken_some inserted]
  have extended : Chained (table.map (own tokenKey [⟨token, rotatedToken now token⟩]) ++
      [childToken (table.map (own tokenKey [⟨token, rotatedToken now token⟩])) token tokenHash
        expiresAt]) log := by
    refine (chained.rewritten steps).inserted rfl ?alone ?linked
    case alone =>
        intro _ member family
        obtain ⟨other, otherIn, rfl⟩ := List.mem_map.mp member
        rw [(steps other otherIn).familyId] at family
        cases alive : (own tokenKey [⟨token, rotatedToken now token⟩] other).active with
        | false => rfl
        | true =>
            have same := chained.single other otherIn token stored family
              ((steps other otherIn).active alive) active
            rw [same, current] at alive
            cases alive
    case linked =>
        rintro _ ⟨⟩
        refine ⟨⟨rotatedToken now token, written, rfl, rfl⟩, ?_⟩
        intro _ member link
        obtain ⟨other, otherIn, rfl⟩ := List.mem_map.mp member
        rw [(steps other otherIn).parent] at link
        obtain ⟨parent, parentIn, same, used⟩ := chained.parents other otherIn token.id link
        simp [unusedId parent parentIn same] at used
  refine ⟨extended.ids, extended.single, extended.parents, extended.children, ?_, ?_⟩
  · intro id member
    rw [rotatedTokens_cons] at member
    rcases List.mem_append.mp member with here | earlier
    · obtain rfl : id = token.id := by simpa [rotatedTokens] using here
      exact ⟨rotatedToken now token, List.mem_append_left _ written, rfl, rfl⟩
    · exact extended.rotated id earlier
  · rw [rotatedTokens_cons]
    refine List.nodup_append.mpr ⟨by simp [rotatedTokens], chained.once, ?_⟩
    rintro left leftMember _ rightMember rfl
    obtain rfl : left = token.id := by simpa [rotatedTokens] using leftMember
    obtain ⟨other, otherIn, same, used⟩ := chained.rotated token.id rightMember
    simp [unusedId other otherIn same] at used

theorem Chained.committed (chained : Chained table log) (unique : UniqueKey tokenKey table)
    (committed : Committed tokenKey table
      (⟨label, writes, notes⟩ : Commit RefreshToken TokenNote TokenCall))
    (final : TokenCommit writes notes)
    (inserted : tokenInsertion (table.map (own tokenKey writes)) notes = some rows) :
    Chained (table.map (own tokenKey writes) ++ rows) (⟨label, writes, notes⟩ :: log) := by
  have rewritten := chained.rewritten (final.steps unique committed)
  cases final with
  | issued =>
      rw [insertToken_some inserted]
      refine (rewritten.inserted rfl ?_ (by simp [rootToken])).logged rfl
      intro other member family
      have known : other.familyId ∈ (table.map (own tokenKey [])).map (·.familyId) :=
        List.mem_map_of_mem member
      exact (freshKey_not_mem _ (family ▸ known)).elim
  | expired =>
      cases inserted
      rw [List.append_nil]
      exact rewritten.logged rfl
  | rotated active => exact chained.rotation unique committed active inserted
  | revoked =>
      cases inserted
      rw [List.append_nil]
      exact rewritten.logged rfl

end Chains

/-- The refresh chain of every family is linear. -/
structure LinearChains (state : TokenState) : Prop where
  single : ∀ left ∈ state.table, ∀ right ∈ state.table, left.familyId = right.familyId →
    left.active = true → right.active = true → left = right
  children : ∀ left ∈ state.table, ∀ right ∈ state.table, left.parentTokenId.isSome = true →
    left.parentTokenId = right.parentTokenId → left = right
  once : (rotatedTokens state.log).Nodup

theorem TokenPath.chained {service : TokenService}
    {condition : TokenState → Action TokenCall → Prop} {state : TokenState}
    (path : TokenPath service condition state) : Chained state.table state.log := by
  have unique : UniqueKey tokenKey ([] : List RefreshToken) := .nil
  have start : Chained [] [] :=
    ⟨by simp [UniqueKey], by simp, by simp, by simp, by simp [rotatedTokens], .nil⟩
  refine State.Path.rule tokenInsertion_lawful (tokenProgram_safe service) (.ofTable unique)
    Chained start ?_ path
  intro before after place session rows ok chained commits
  rw [commits.table, commits.log]
  exact chained.committed ok.unique commits.written commits.final commits.inserted

theorem refresh_chains_linear {service : TokenService} {state : TokenState}
    (path : TokenPath service (fun _ _ => True) state) : LinearChains state :=
  ⟨path.chained.single, path.chained.children, path.chained.once⟩

namespace Rotation

/-- Raw tokens are stored as they are. -/
def service : TokenService where
  hashOpaqueToken := id
  refreshTtlSeconds := 1

/-- Two calls rotate the first token; the second one waits for its lock. -/
def actions : List (Action TokenCall) :=
  [.start (.signIn 1 0 "first"), .step 0, .step 0,
    .start (.rotate 1 "first" true "second"), .start (.rotate 2 "first" true "third"),
    .step 1, .step 2, .step 1, .step 1, .step 1,
    .step 2, .step 2, .step 2, .step 2, .step 2, .step 2]

def rotated : TokenState :=
  State.advances tokenKey tokenInsertion { table := [] } (tokenProgram service) actions

end Rotation

open Rotation in
/-- The second call finds the token used and revokes the family. -/
theorem rotated_chain_linear :
    rotated.table.map (fun token => (token.tokenHash, token.parentTokenId, token.active)) =
      [("first", none, false), ("second", some 1, false)] ∧
    rotatedTokens rotated.log = [1] ∧ LinearChains rotated := by
  refine ⟨by decide, by decide, ?_⟩
  exact refresh_chains_linear (State.path_run _ actions)

end Codenaut.Services
