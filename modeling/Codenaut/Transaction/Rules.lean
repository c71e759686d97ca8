import Codenaut.Transaction.ReadCommitted
import Mathlib.Data.List.Induction

/-!
# Rules for READ COMMITTED sessions

A script is safe when, whatever rows its statements meet, it commits only
writes and notes that its specification allows. Row locks make this enough: in
a run whose flushes are fresh, every commit meets its specification.
-/

set_option autoImplicit false

namespace Codenaut.Transaction

open Codenaut.Relational

variable {Row Key Note Label : Type} [DecidableEq Key] {key : Row → Key}

/-! ## A session's own versions -/

section Writes

variable {writes : List (Write Row)} {row new : Row}

/-- The row is the session's own version, if it has one. -/
def Seen (key : Row → Key) (writes : List (Write Row)) (row : Row) : Prop :=
  ∀ write ∈ writes, key write.base = key row → write.current = row

def Keyed (key : Row → Key) (writes : List (Write Row)) : Prop :=
  ∀ write ∈ writes, key write.current = key write.base

theorem own_of_mem (distinct : (writes.map fun write => key write.base).Nodup)
    {write : Write Row} (member : write ∈ writes) (same : key write.base = key row) :
    own key writes row = write.current := by
  unfold own
  have found : writes.find? (fun other => key other.base == key row) = some write :=
    find?_eq_some_of_unique distinct member (by simpa using same)
      (fun other matched => (by simpa using matched : key other.base = key row).trans same.symm)
  rw [found]

theorem own_of_unlocked (unlocked : ∀ write ∈ writes, key write.base ≠ key row) :
    own key writes row = row := by
  unfold own
  have none : writes.find? (fun other => key other.base == key row) = none := by
    simpa using unlocked
  rw [none]

@[simp] theorem map_own_nil (rows : List Row) : rows.map (own key []) = rows := by
  have same : own key ([] : List (Write Row)) = id := rfl
  rw [same, List.map_id]

theorem key_own (keyed : Keyed key writes) (row : Row) : key (own key writes row) = key row := by
  unfold own
  split
  case h_1 write found =>
    have matched := List.find?_some found
    exact (keyed write (List.mem_of_find?_eq_some found)).trans (by simpa using matched)
  case h_2 => rfl

theorem mem_put {write : Write Row} (member : write ∈ put key writes row new) :
    (write.current = new ∧ key write.base = key row ∧
        ((∃ old ∈ writes, old.base = write.base) ∨
          write.base = row ∧ ∀ old ∈ writes, key old.base ≠ key row)) ∨
      (write ∈ writes ∧ key write.base ≠ key row) := by
  unfold put at member
  split at member
  case isTrue =>
    obtain ⟨old, oldMember, rewritten⟩ := List.mem_map.mp member
    by_cases same : key old.base = key row
    · rw [if_pos (by simpa using same)] at rewritten
      subst rewritten
      exact .inl ⟨rfl, same, .inl ⟨old, oldMember, rfl⟩⟩
    · rw [if_neg (by simpa using same)] at rewritten
      subst rewritten
      exact .inr ⟨oldMember, same⟩
  case isFalse unlocked =>
    have apart : ∀ old ∈ writes, key old.base ≠ key row := by simpa using unlocked
    rcases List.mem_cons.mp member with rfl | kept
    · exact .inl ⟨rfl, rfl, .inr ⟨rfl, apart⟩⟩
    · exact .inr ⟨kept, apart write kept⟩

/-- The written row is among the writes. -/
theorem put_current (key : Row → Key) (writes : List (Write Row)) (row new : Row) :
    ∃ write ∈ put key writes row new, key write.base = key row ∧ write.current = new := by
  unfold put
  split
  case isTrue locked =>
    obtain ⟨write, member, same⟩ := List.any_eq_true.mp locked
    refine ⟨{ write with current := new }, List.mem_map.mpr ⟨write, member, ?_⟩, ?_, rfl⟩
    · rw [if_pos same]
    · simpa using same
  case isFalse => exact ⟨⟨row, new⟩, .head _, rfl, rfl⟩

/-- A write stays, or takes the written version. -/
theorem mem_put_of_mem (key : Row → Key) (row new : Row) {write : Write Row}
    (member : write ∈ writes) :
    ∃ next ∈ put key writes row new, next.base = write.base ∧
      (next.current = new ∨ next.current = write.current) := by
  unfold put
  split
  case isTrue =>
    by_cases same : key write.base = key row
    · refine ⟨{ write with current := new }, List.mem_map.mpr ⟨write, member, ?_⟩, rfl, .inl rfl⟩
      rw [if_pos (by simpa using same)]
    · refine ⟨write, List.mem_map.mpr ⟨write, member, ?_⟩, rfl, .inr rfl⟩
      rw [if_neg (by simpa using same)]
  case isFalse => exact ⟨write, .tail _ member, rfl, .inr rfl⟩

/-- A relation between locked and own versions, after one more write. -/
theorem put_holds (Holds : Row → Row → Prop) (seen : Seen key writes row)
    (kept : ∀ write ∈ writes, Holds write.base write.current)
    (step : ∀ base, key base = key row → base = row ∨ Holds base row → Holds base new) :
    ∀ write ∈ put key writes row new, Holds write.base write.current := by
  intro write member
  rcases mem_put member with ⟨current, place, ⟨old, oldMember, base⟩ | ⟨base, _⟩⟩ | ⟨old, _⟩
  · have held : old.current = row := seen old oldMember (by rw [base, place])
    have related := kept old oldMember
    rw [held, base] at related
    rw [current]
    exact step write.base place (.inr related)
  · rw [current]
    exact step write.base place (.inl base)
  · exact kept write old

/-- A row that was locked first and is then written. -/
theorem put_locked (key : Row → Key) (row new : Row) :
    put key (put key [] row row) row new = [⟨row, new⟩] := by
  simp [put]

theorem put_keys : (put key writes row new).map (fun write => key write.base) =
    if writes.any (fun write => key write.base == key row) then
      writes.map fun write => key write.base
    else key row :: writes.map fun write => key write.base := by
  unfold put
  split
  · rw [List.map_map]
    apply List.map_congr_left
    intro write _
    simp only [Function.comp_apply]
    split <;> rfl
  · rfl

theorem put_nodup (distinct : (writes.map fun write => key write.base).Nodup) :
    ((put key writes row new).map fun write => key write.base).Nodup := by
  rw [put_keys]
  split
  · exact distinct
  case isFalse unlocked =>
    refine List.nodup_cons.mpr ⟨?_, distinct⟩
    intro again
    obtain ⟨write, member, same⟩ := List.mem_map.mp again
    exact unlocked (List.any_eq_true.mpr ⟨write, member, by simpa using same⟩)

theorem keyed_put (keyed : Keyed key writes) (same : key new = key row) :
    Keyed key (put key writes row new) := by
  intro write member
  rcases mem_put member with ⟨current, base, _⟩ | ⟨kept, _⟩
  · rw [current, same, base]
  · exact keyed write kept

end Writes

/-! ## Safe scripts -/

/-- Whatever versions its statements meet, the script commits only what `Final`
allows. -/
def Safe (key : Row → Key) (fresh : Row → Row → Bool)
    (Final : List (Write Row) → List Note → Prop) :
    Script Row Note → List (Write Row) → List Note → Prop
  | .commit, writes, notes => Final writes notes
  | .rollback, _, _ => True
  | .fetch guard next, writes, notes =>
      Safe key fresh Final (next none) writes notes ∧ ∀ row, guard row = true →
        Seen key writes row → Safe key fresh Final (next (some row)) writes notes
  | .scan guard next, writes, notes =>
      ∀ rows, (∀ row ∈ rows, guard row = true) → (rows.map key).Nodup →
        Safe key fresh Final (next rows) writes notes
  | .lock guard next, writes, notes =>
      Safe key fresh Final (next none) writes notes ∧ ∀ row, guard row = true →
        Seen key writes row →
        Safe key fresh Final (next (some row)) (put key writes row row) notes
  | .update guard change next, writes, notes =>
      Safe key fresh Final (next none) writes notes ∧ ∀ row, guard row = true →
        Seen key writes row → key (change row) = key row ∧
        Safe key fresh Final (next (some (change row))) (put key writes row (change row)) notes
  | .flush loaded change next, writes, notes =>
      ∀ row, key row = key loaded → Seen key writes row →
        ((∀ write ∈ writes, key write.base ≠ key loaded) → fresh loaded row = true) →
        key (change row) = key row ∧
          Safe key fresh Final next (put key writes row (change row)) notes
  | .note entry next, writes, notes => Safe key fresh Final next writes (entry :: notes)

section Invariant

variable (key) (fresh : Row → Row → Bool)
  (Final : Label → List (Write Row) → List Note → Prop)

structure SessionOk (table : List Row) (session : Session Row Note Label) : Prop where
  safe : Safe key fresh (Final session.label) session.script session.writes session.notes
  based : ∀ write ∈ session.writes, write.base ∈ table
  keyed : Keyed key session.writes
  distinct : (session.writes.map fun write => key write.base).Nodup

/-- Sessions hold disjoint locks on current rows, and committed as specified. -/
structure StateOk (state : State Row Note Label) : Prop where
  unique : UniqueKey key state.table
  sessions : ∀ session ∈ state.sessions, SessionOk key fresh Final state.table session
  apart : ∀ (i j : Nat) left right, i ≠ j → state.sessions[i]? = some left →
    state.sessions[j]? = some right → ∀ first ∈ left.writes, ∀ second ∈ right.writes,
      key first.base ≠ key second.base
  log : ∀ commit ∈ state.log, Final commit.label commit.writes commit.notes

end Invariant

variable {fresh : Row → Row → Bool} {Final : Label → List (Write Row) → List Note → Prop}
  {state : State Row Note Label}

theorem SessionOk.finished (table : List Row) (session : Session Row Note Label) :
    SessionOk key fresh Final table (State.finished session) :=
  ⟨trivial, by simp [State.finished], by simp [State.finished, Keyed], .nil⟩

theorem holds_iff {session : Session Row Note Label} {row : Key} :
    holds key session row = true ↔ ∃ write ∈ session.writes, key write.base = row := by
  simp [holds]

theorem unlocked_elsewhere {place : Nat} {row : Key}
    (free : state.lockedElsewhere key place row = false) {other : Nat}
    {session : Session Row Note Label} (apart : other ≠ place)
    (found : state.sessions[other]? = some session) :
    ∀ write ∈ session.writes, key write.base ≠ row := by
  intro write member same
  have inRange : other < state.sessions.length := (List.getElem?_eq_some_iff.mp found).1
  have held : holds key session row = true := holds_iff.mpr ⟨write, member, same⟩
  simp only [State.lockedElsewhere, List.any_eq_false, List.mem_range] at free
  exact free other inRange (by simp [apart, found, held])

/-- Replacing one session keeps the invariant when its locks stay apart. -/
theorem StateOk.setSession (ok : StateOk key fresh Final state) {place : Nat}
    {session next : Session Row Note Label} (found : state.sessions[place]? = some session)
    (nextOk : SessionOk key fresh Final state.table next)
    (locks : ∀ write ∈ next.writes, (∃ old ∈ session.writes, key old.base = key write.base) ∨
      state.lockedElsewhere key place (key write.base) = false) :
    StateOk key fresh Final (state.setSession place next) := by
  have others : ∀ (other : Nat) (third : Session Row Note Label), other ≠ place →
      state.sessions[other]? = some third → ∀ first ∈ next.writes, ∀ second ∈ third.writes,
        key first.base ≠ key second.base := by
    intro other third apart thirdFound first firstMember second secondMember same
    rcases locks first firstMember with ⟨old, oldMember, oldKey⟩ | free
    · exact ok.apart place other session third apart.symm found thirdFound old oldMember second
        secondMember (oldKey.trans same)
    · exact unlocked_elsewhere free apart thirdFound second secondMember same.symm
  refine ⟨ok.unique, ?_, ?_, ok.log⟩
  · intro other member
    rcases List.mem_or_eq_of_mem_set member with kept | rfl
    · exact ok.sessions other kept
    · exact nextOk
  · intro i j left right different leftFound rightFound
    simp only [State.setSession, List.getElem?_set] at leftFound rightFound
    split at leftFound
    case isTrue here =>
      split at leftFound
      case isTrue inRange =>
        cases leftFound
        rw [if_neg (by omega)] at rightFound
        exact others j right (by omega) rightFound
      case isFalse => cases leftFound
    case isFalse away =>
      split at rightFound
      case isTrue here =>
        split at rightFound
        case isTrue inRange =>
          cases rightFound
          intro first firstMember second secondMember same
          exact others i left (by omega) leftFound second secondMember first firstMember same.symm
        case isFalse => cases rightFound
      case isFalse => exact ok.apart i j left right different leftFound rightFound

/-- What a session can learn from one row of its view. -/
theorem seen_of_view {session : Session Row Note Label}
    (sessionOk : SessionOk key fresh Final state.table session) {row : Row}
    (member : row ∈ state.view key session) :
    Seen key session.writes row ∧
      ((∀ write ∈ session.writes, key write.base ≠ key row) → row ∈ state.table) := by
  obtain ⟨stored, storedMember, rfl⟩ := List.mem_map.mp member
  have sameKey := key_own sessionOk.keyed stored
  constructor
  · intro write writeMember same
    exact (own_of_mem sessionOk.distinct writeMember (same.trans sameKey)).symm
  · intro unlocked
    rw [own_of_unlocked fun write writeMember same =>
      unlocked write writeMember (same.trans sameKey.symm)]
    exact storedMember

theorem SessionOk.view_unique {session : Session Row Note Label}
    (sessionOk : SessionOk key fresh Final state.table session)
    (unique : UniqueKey key state.table) : UniqueKey key (state.view key session) := by
  have keys : (state.view key session).map key = state.table.map key := by
    simp only [State.view, List.map_map]
    exact List.map_congr_left fun row _ => key_own sessionOk.keyed row
  unfold UniqueKey
  rw [keys]
  exact unique

/-- A statement that locks the row it finds. -/
theorem StateOk.acquire (ok : StateOk key fresh Final state) {place : Nat}
    {session : Session Row Note Label} (located : state.sessions[place]? = some session)
    {found : Option Row} (visible : ∀ row, found = some row → row ∈ state.view key session)
    {change : Row → Row} {next : Option Row → Script Row Note}
    (absent : found = none →
      Safe key fresh (Final session.label) (next none) session.writes session.notes)
    (safe : ∀ row, found = some row → state.lockedElsewhere key place (key row) = false →
      Seen key session.writes row → key (change row) = key row ∧
        Safe key fresh (Final session.label) (next (some (change row)))
          (put key session.writes row (change row)) session.notes) :
    StateOk key fresh Final (state.acquire key place session found change next) := by
  have sessionOk := ok.sessions session (List.mem_of_getElem? located)
  unfold State.acquire
  split
  case h_1 =>
    exact ok.setSession located
      ⟨absent rfl, sessionOk.based, sessionOk.keyed, sessionOk.distinct⟩
      fun write member => .inl ⟨write, member, rfl⟩
  case h_2 row =>
    split
    case isTrue => exact ok
    case isFalse free =>
      have free : state.lockedElsewhere key place (key row) = false := by simpa using free
      obtain ⟨seen, current⟩ := seen_of_view sessionOk (visible row rfl)
      obtain ⟨sameKey, nextSafe⟩ := safe row rfl free seen
      refine ok.setSession located ⟨nextSafe, ?_, keyed_put sessionOk.keyed sameKey,
        put_nodup sessionOk.distinct⟩ ?_
      · intro write member
        rcases mem_put member with ⟨_, _, ⟨old, oldMember, same⟩ | ⟨same, unlocked⟩⟩ | ⟨kept, _⟩
        · exact same ▸ sessionOk.based old oldMember
        · exact same ▸ current unlocked
        · exact sessionOk.based write kept
      · intro write member
        rcases mem_put member with ⟨_, same, _⟩ | ⟨kept, _⟩
        · exact .inr (same ▸ free)
        · exact .inl ⟨write, kept, rfl⟩

theorem StateOk.commit (ok : StateOk key fresh Final state) {place : Nat}
    {session : Session Row Note Label} (located : state.sessions[place]? = some session)
    (final : Final session.label session.writes session.notes) :
    StateOk key fresh Final (state.commit key place session) := by
  have sessionOk := ok.sessions session (List.mem_of_getElem? located)
  have released := ok.setSession located (.finished state.table session)
    (by simp [State.finished])
  have unwritten : ∀ other ∈ (state.sessions.set place (State.finished session)),
      ∀ write ∈ other.writes, write.base ∈ state.view key session := by
    intro other member write writeMember
    obtain ⟨i, found⟩ := List.mem_iff_getElem?.mp member
    rw [List.getElem?_set] at found
    split at found
    case isTrue =>
      split at found
      case isTrue => cases found; simp [State.finished] at writeMember
      case isFalse => cases found
    case isFalse away =>
      have otherOk := ok.sessions other (List.mem_of_getElem? found)
      refine List.mem_map.mpr ⟨write.base, otherOk.based write writeMember, ?_⟩
      exact own_of_unlocked fun mine mineMember =>
        ok.apart place i session other away located found mine mineMember write writeMember
  refine ⟨?_, ?_, released.apart, ?_⟩
  · exact sessionOk.view_unique ok.unique
  · intro other member
    have otherOk := released.sessions other member
    exact ⟨otherOk.safe, unwritten other member, otherOk.keyed, otherOk.distinct⟩
  · exact List.forall_mem_cons.mpr ⟨final, ok.log⟩

theorem StateOk.execute (ok : StateOk key fresh Final state) {place : Nat}
    {session : Session Row Note Label} (located : state.sessions[place]? = some session)
    (current : state.freshStep key fresh (.step place) = true) :
    StateOk key fresh Final (state.execute key place session) := by
  have sessionOk := ok.sessions session (List.mem_of_getElem? located)
  have safe := sessionOk.safe
  have advance : ∀ script notes,
      Safe key fresh (Final session.label) script session.writes notes →
      StateOk key fresh Final
        (state.setSession place { session with script := script, notes := notes }) :=
    fun script notes nextSafe => ok.setSession located
      ⟨nextSafe, sessionOk.based, sessionOk.keyed, sessionOk.distinct⟩
      fun write member => .inl ⟨write, member, rfl⟩
  have guarded : ∀ guard row, (state.view key session).find? guard = some row →
      row ∈ state.view key session ∧ guard row = true := fun guard row found =>
    ⟨List.mem_of_find?_eq_some found, List.find?_some found⟩
  unfold State.execute
  split
  case h_1 script => exact ok.commit located (by rw [script] at safe; exact safe)
  case h_2 script =>
    exact ok.setSession located (.finished state.table session) (by simp [State.finished])
  case h_3 guard next script =>
    rw [script] at safe
    refine advance _ session.notes ?_
    cases found : (state.view key session).find? guard with
    | none => exact safe.1
    | some row =>
        obtain ⟨member, matched⟩ := guarded guard row found
        exact safe.2 row matched (seen_of_view sessionOk member).1
  case h_4 guard next script =>
    rw [script] at safe
    refine advance _ session.notes (safe _ (fun row member => (List.mem_filter.mp member).2) ?_)
    exact (sessionOk.view_unique ok.unique).sublist (List.filter_sublist.map key)
  case h_5 guard next script =>
    rw [script] at safe
    refine ok.acquire located (fun row found => (guarded guard row found).1)
      (fun _ => safe.1) ?_
    intro row found _ seen
    exact ⟨rfl, safe.2 row (guarded guard row found).2 seen⟩
  case h_6 guard change next script =>
    rw [script] at safe
    refine ok.acquire located (fun row found => (guarded guard row found).1)
      (fun _ => safe.1) ?_
    intro row found _ seen
    exact safe.2 row (guarded guard row found).2 seen
  case h_7 loaded change next script =>
    rw [script] at safe
    refine ok.acquire located (fun row found => (guarded _ row found).1) (fun _ => trivial) ?_
    intro row found free seen
    obtain ⟨member, matched⟩ := guarded _ row found
    have same : key row = key loaded := by simpa using matched
    refine safe row same seen fun unlocked => ?_
    have notHeld : holds key session (key loaded) = false := by
      simpa [holds] using unlocked
    have stored := (seen_of_view sessionOk member).2 (same ▸ unlocked)
    simp only [State.freshStep, located, script] at current
    rw [notHeld, ← same, free, Bool.false_or, Bool.false_or, List.all_eq_true] at current
    simpa using current row stored
  case h_8 entry next script =>
    rw [script] at safe
    exact advance next (entry :: session.notes) safe

/-- Programs are safe for their specification from the start. -/
def SafeProgram (key : Row → Key) (fresh : Row → Row → Bool)
    (Final : Label → List (Write Row) → List Note → Prop)
    (program : Label → Script Row Note) : Prop :=
  ∀ label, Safe key fresh (Final label) (program label) [] []

theorem StateOk.apply {program : Label → Script Row Note}
    (safe : SafeProgram key fresh Final program) (ok : StateOk key fresh Final state)
    {action : Action Label} (current : state.freshStep key fresh action = true) :
    StateOk key fresh Final (state.apply key program action) := by
  cases action with
  | start label =>
      have started : SessionOk key fresh Final state.table
          ({ label, script := program label } : Session Row Note Label) :=
        ⟨safe label, by simp, by simp [Keyed], .nil⟩
      refine ⟨ok.unique, ?_, ?_, ok.log⟩
      · intro session member
        rcases List.mem_append.mp member with kept | new
        · exact ok.sessions session kept
        · simp only [List.mem_singleton] at new
          exact new ▸ started
      · intro i j left right different leftFound rightFound first firstMember second secondMember
        simp only [State.apply, List.getElem?_append, List.getElem?_singleton] at leftFound rightFound
        split at leftFound
        case isTrue =>
          split at rightFound
          case isTrue =>
            exact ok.apart i j left right different leftFound rightFound first firstMember second
              secondMember
          case isFalse =>
            split at rightFound
            · cases rightFound; simp at secondMember
            · cases rightFound
        case isFalse =>
          split at leftFound
          · cases leftFound; simp at firstMember
          · cases leftFound
  | step place =>
      simp only [State.apply]
      split
      case h_1 => exact ok
      case h_2 session located => exact ok.execute located current
  | abort place =>
      simp only [State.apply]
      split
      case h_1 => exact ok
      case h_2 session located =>
        exact ok.setSession located (.finished state.table session) (by simp [State.finished])

/-! ## Runs -/

/-- One commit on a table: it rewrites current rows and keeps their keys. -/
structure Committed (key : Row → Key) (table : List Row) (commit : Commit Row Note Label) :
    Prop where
  based : ∀ write ∈ commit.writes, write.base ∈ table
  keyed : Keyed key commit.writes
  distinct : (commit.writes.map fun write => key write.base).Nodup

/-- A commit takes every row by the relation that its writes satisfy. -/
theorem Committed.evolves {table : List Row} {commit : Commit Row Note Label}
    (committed : Committed key table commit) (unique : UniqueKey key table)
    (Step : Row → Row → Prop) (reflexive : ∀ row, Step row row)
    (steps : ∀ write ∈ commit.writes, Step write.base write.current) :
    Evolves key Step (fun _ => False) table (table.map (own key commit.writes)) where
  rows := by
    refine ⟨own key commit.writes, [], by simp, ?_, by simp⟩
    intro row member
    refine ⟨?_, key_own committed.keyed row⟩
    by_cases locked : ∃ write ∈ commit.writes, key write.base = key row
    · obtain ⟨write, writeMember, same⟩ := locked
      have equal := unique.row_eq (committed.based write writeMember) member same
      rw [own_of_mem committed.distinct writeMember same, ← equal]
      exact steps write writeMember
    · rw [own_of_unlocked fun write writeMember same => locked ⟨write, writeMember, same⟩]
      exact reflexive row
  keys := by
    intro _
    have keys : (table.map (own key commit.writes)).map key = table.map key := by
      simp only [List.map_map]
      exact List.map_congr_left fun row _ => key_own committed.keyed row
    unfold UniqueKey
    rw [keys]
    exact unique

/-- A step either commits one session or leaves table and log alone. -/
theorem StateOk.apply_cases (program : Label → Script Row Note)
    (ok : StateOk key fresh Final state) (action : Action Label) :
    ((state.apply key program action).table = state.table ∧
      (state.apply key program action).log = state.log) ∨
    ∃ place session, ∃ commit : Commit Row Note Label, action = .step place ∧
      state.sessions[place]? = some session ∧ commit.label = session.label ∧
      Committed key state.table commit ∧ Final commit.label commit.writes commit.notes ∧
      (state.apply key program action).table = state.table.map (own key commit.writes) ∧
      (state.apply key program action).log = commit :: state.log := by
  cases action with
  | start label => exact .inl ⟨rfl, rfl⟩
  | abort place =>
      simp only [State.apply]
      split <;> exact .inl ⟨rfl, rfl⟩
  | step place =>
      simp only [State.apply]
      split
      case h_1 => exact .inl ⟨rfl, rfl⟩
      case h_2 session located =>
        have sessionOk := ok.sessions session (List.mem_of_getElem? located)
        unfold State.execute
        split
        case h_1 script =>
          have final := sessionOk.safe
          rw [script] at final
          exact .inr ⟨place, session, ⟨session.label, session.writes, session.notes⟩, rfl, located,
            rfl, ⟨sessionOk.based, sessionOk.keyed, sessionOk.distinct⟩, final, rfl, rfl⟩
        case h_5 | h_6 | h_7 =>
          unfold State.acquire
          split
          · exact .inl ⟨rfl, rfl⟩
          · split <;> exact .inl ⟨rfl, rfl⟩
        all_goals exact .inl ⟨rfl, rfl⟩

theorem State.run_snoc (program : Label → Script Row Note) (state : State Row Note Label)
    (actions : List (Action Label)) (action : Action Label) :
    state.run key program (actions ++ [action]) =
      (state.run key program actions).apply key program action := by
  simp [State.run]

theorem State.run_append (program : Label → Script Row Note) (state : State Row Note Label)
    (first second : List (Action Label)) :
    state.run key program (first ++ second) =
      (state.run key program first).run key program second := by
  simp [State.run]

theorem State.freshRun_append (program : Label → Script Row Note) (state : State Row Note Label)
    (first second : List (Action Label)) :
    State.freshRun key fresh program state (first ++ second) =
      (State.freshRun key fresh program state first &&
        State.freshRun key fresh program (state.run key program first) second) := by
  induction first generalizing state with
  | nil => simp [State.freshRun, State.run]
  | cons action rest ih =>
      rw [List.cons_append, State.freshRun, State.freshRun, ih, Bool.and_assoc]
      rfl

/-- Safe programs keep the invariant in every fresh run. -/
theorem StateOk.run {program : Label → Script Row Note}
    (safe : SafeProgram key fresh Final program) (ok : StateOk key fresh Final state)
    (actions : List (Action Label))
    (current : State.freshRun key fresh program state actions = true) :
    StateOk key fresh Final (state.run key program actions) := by
  induction actions using List.reverseRecOn with
  | nil => exact ok
  | append_singleton actions action ih =>
      rw [State.freshRun_append, Bool.and_eq_true] at current
      rw [State.run_snoc]
      refine (ih current.1).apply safe ?_
      simpa [State.freshRun] using current.2

/-- What every allowed commit preserves holds at the end of every fresh run. -/
theorem StateOk.run_rule {program : Label → Script Row Note}
    (safe : SafeProgram key fresh Final program) (ok : StateOk key fresh Final state)
    (Good : List Row → List (Commit Row Note Label) → Prop) (start : Good state.table state.log)
    (step : ∀ table log commit, Good table log → UniqueKey key table →
      Committed key table commit → Final commit.label commit.writes commit.notes →
      Good (table.map (own key commit.writes)) (commit :: log))
    (actions : List (Action Label))
    (current : State.freshRun key fresh program state actions = true) :
    Good (state.run key program actions).table (state.run key program actions).log := by
  induction actions using List.reverseRecOn with
  | nil => exact start
  | append_singleton actions action ih =>
      rw [State.freshRun_append, Bool.and_eq_true] at current
      have prior := ih current.1
      have priorOk := ok.run safe actions current.1
      rw [State.run_snoc]
      rcases StateOk.apply_cases program priorOk action with
        ⟨table, log⟩ | ⟨place, session, commit, _, _, _, committed, final, table, log⟩
      · rw [table, log]
        exact prior
      · rw [table, log]
        exact step _ _ commit prior priorOk.unique committed final

/-- A state without sessions and without a log. -/
theorem StateOk.ofTable {table : List Row} (unique : UniqueKey key table) :
    StateOk key fresh Final ({ table } : State Row Note Label) :=
  ⟨unique, by simp, by simp, by simp⟩

end Codenaut.Transaction
