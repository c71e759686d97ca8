import Mathlib.Data.List.Basic
import Mathlib.Data.List.Perm.Basic

/-!
# Pairing the turns of a dialogue

A dialogue is a list of asks and replies. Pairing keeps the latest unanswered
ask and gives it the next reply; it recovers a list of exchanges exactly when
the turns alternate as the exchanges do.
-/

set_option autoImplicit false

namespace Codenaut.Interaction

inductive Turn (Ask Reply : Type) where
  | ask (question : Ask)
  | reply (answer : Reply)
  deriving DecidableEq, Repr

variable {Ask Reply : Type}

def Turn.isReply : Turn Ask Reply → Bool
  | .ask _ => false
  | .reply _ => true

/-- The pairs that a reader of the turns forms. An ask replaces an earlier
unanswered one, and a reply without an ask is dropped. -/
def pairTurns : Option Ask → List (Turn Ask Reply) → List (Ask × Reply)
  | _, [] => []
  | _, .ask question :: rest => pairTurns (some question) rest
  | some question, .reply answer :: rest => (question, answer) :: pairTurns none rest
  | none, .reply _ :: rest => pairTurns none rest

/-- The two turns of each exchange, in order. -/
def interleaved (exchanges : List (Ask × Reply)) : List (Turn Ask Reply) :=
  exchanges.flatMap fun exchange => [.ask exchange.1, .reply exchange.2]

@[simp] theorem interleaved_nil : interleaved ([] : List (Ask × Reply)) = [] :=
  rfl

@[simp] theorem interleaved_cons (exchange : Ask × Reply) (rest : List (Ask × Reply)) :
    interleaved (exchange :: rest) =
      .ask exchange.1 :: .reply exchange.2 :: interleaved rest :=
  rfl

def replies (turns : List (Turn Ask Reply)) : Nat :=
  turns.countP (·.isReply)

def asks (turns : List (Turn Ask Reply)) : Nat :=
  turns.countP (!·.isReply)

@[simp] theorem replies_ask (question : Ask) (rest : List (Turn Ask Reply)) :
    replies (.ask question :: rest) = replies rest := by
  simp [replies, Turn.isReply]

@[simp] theorem replies_reply (answer : Reply) (rest : List (Turn Ask Reply)) :
    replies (.reply answer :: rest) = replies rest + 1 := by
  simp [replies, Turn.isReply]

@[simp] theorem asks_ask (question : Ask) (rest : List (Turn Ask Reply)) :
    asks (.ask question :: rest) = asks rest + 1 := by
  simp [asks, Turn.isReply]

@[simp] theorem asks_reply (answer : Reply) (rest : List (Turn Ask Reply)) :
    asks (.reply answer :: rest) = asks rest := by
  simp [asks, Turn.isReply]

@[simp] theorem replies_nil : replies ([] : List (Turn Ask Reply)) = 0 :=
  rfl

@[simp] theorem asks_nil : asks ([] : List (Turn Ask Reply)) = 0 :=
  rfl

theorem replies_interleaved (exchanges : List (Ask × Reply)) :
    replies (interleaved exchanges) = exchanges.length := by
  induction exchanges with
  | nil => rfl
  | cons exchange rest ih => simp [ih]

theorem asks_interleaved (exchanges : List (Ask × Reply)) :
    asks (interleaved exchanges) = exchanges.length := by
  induction exchanges with
  | nil => rfl
  | cons exchange rest ih => simp [ih]

/-- Every pair uses up a reply. -/
theorem length_pairTurns_le_replies (turns : List (Turn Ask Reply)) :
    ∀ pending, (pairTurns pending turns).length ≤ replies turns := by
  induction turns with
  | nil => intro pending; cases pending <;> simp [pairTurns]
  | cons turn rest ih =>
      intro pending
      cases turn with
      | ask question => simpa [pairTurns] using ih (some question)
      | reply answer =>
          have kept := ih none
          cases pending with
          | none => simp only [pairTurns, replies_reply]; omega
          | some question => simp only [pairTurns, replies_reply, List.length_cons]; omega

/-- Every pair uses up an ask, the pending one included. -/
theorem length_pairTurns_le_asks (turns : List (Turn Ask Reply)) :
    ∀ pending, (pairTurns pending turns).length ≤ asks turns + pending.toList.length := by
  induction turns with
  | nil => intro pending; cases pending <;> simp [pairTurns]
  | cons turn rest ih =>
      intro pending
      cases turn with
      | ask question =>
          have kept := ih (some question)
          simp only [Option.toList_some, List.length_singleton] at kept
          simp only [pairTurns, asks_ask]
          omega
      | reply answer =>
          have kept := ih none
          simp only [Option.toList_none, List.length_nil, Nat.add_zero] at kept
          cases pending with
          | none => simp only [pairTurns, asks_reply, Option.toList_none, List.length_nil]; omega
          | some question =>
              simp only [pairTurns, asks_reply, List.length_cons, Option.toList_some,
                List.length_nil]
              omega

theorem pairTurns_interleaved (exchanges : List (Ask × Reply)) :
    pairTurns none (interleaved exchanges) = exchanges := by
  induction exchanges with
  | nil => rfl
  | cons exchange rest ih => simp [pairTurns, ih]

/-- If no turn is lost, the turns alternate: a lost ask or reply shows in the
number of pairs. The pending ask counts as the first turn. -/
theorem alternates_of_length (turns : List (Turn Ask Reply)) :
    ∀ pending : Option Ask,
      (pairTurns pending turns).length = replies turns →
      (pairTurns pending turns).length = asks turns + pending.toList.length →
      pending.toList.map Turn.ask ++ turns = interleaved (pairTurns pending turns) := by
  induction turns with
  | nil =>
      intro pending noReply noAsk
      cases pending with
      | none => rfl
      | some question => simp [pairTurns] at noAsk
  | cons turn rest ih =>
      intro pending everyReply everyAsk
      cases turn with
      | ask question =>
          have bound := length_pairTurns_le_asks rest (some question)
          simp only [pairTurns, replies_ask, asks_ask] at everyReply everyAsk
          cases pending with
          | none => simpa [pairTurns] using ih (some question) everyReply everyAsk
          | some earlier =>
              -- the earlier ask is overwritten, so a pair is missing
              simp only [Option.toList_some, List.length_singleton] at bound everyAsk
              omega
      | reply answer =>
          cases pending with
          | none =>
              -- the reply is dropped, so a pair is missing
              have bound := length_pairTurns_le_replies rest none
              simp only [pairTurns, replies_reply] at everyReply
              omega
          | some question =>
              simp only [pairTurns, replies_reply, asks_reply, List.length_cons,
                Option.toList_some, List.length_nil] at everyReply everyAsk
              have alternate := ih none (by omega) (by simpa using everyAsk)
              simpa [pairTurns] using alternate

/-- Turns that hold what the exchanges hold are paired back into them exactly
when they come in their order. -/
theorem pairTurns_eq_iff {turns : List (Turn Ask Reply)} {exchanges : List (Ask × Reply)}
    (same : turns.Perm (interleaved exchanges)) :
    pairTurns none turns = exchanges ↔ turns = interleaved exchanges := by
  constructor
  · intro paired
    have everyReply : replies turns = exchanges.length :=
      (same.countP_eq _).trans (replies_interleaved exchanges)
    have everyAsk : asks turns = exchanges.length :=
      (same.countP_eq _).trans (asks_interleaved exchanges)
    have alternate := alternates_of_length turns none (by rw [paired, everyReply])
      (by rw [paired, everyAsk]; rfl)
    simpa [paired] using alternate
  · rintro rfl
    exact pairTurns_interleaved exchanges

end Codenaut.Interaction
