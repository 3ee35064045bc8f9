import GoshTransfer.ExactlyOnce
import GoshTransfer.Integrity

set_option autoImplicit false

namespace GoshTransfer

open InodeStore

-- One receiver process: both protocols over one download directory. The version
-- 2 registrations in peeked have read pending_transfers for their next step.
structure Receiver where
  durable : State
  legacy : Legacy
  ops : List LegacyOp
  log : List LegacyEntry
  peeked : Finset Nat

def State.onDisk (state : State) (disk : ReceiverDisk) : State :=
    { state with store := { state.store with disk := disk } }

-- What version 1 sees of the receiver.
def Receiver.version1 (receiver : Receiver) : LegacyState :=
  ⟨receiver.legacy, receiver.durable.store.disk, receiver.ops, receiver.log⟩

-- The id that durable.contains is asked about.
def LegacyOp.asks : LegacyOp → Option String
  | .ruling _ id .contains => some id
  | .request offer .contains => some offer.id
  | _ => none

-- durable.contains answers from the session map.
def Receiver.answers (receiver : Receiver) : LegacyLabel → Bool
  | .call _ => true
  | .advance o reading =>
      ((receiver.ops[o]?).bind LegacyOp.asks).all fun id =>
        reading.durable = (receiver.durable.store.sessions.lookup id).isSome

-- A version 2 registration looks for its session after it has read
-- pending_transfers.
def Receiver.permits (receiver : Receiver) : Label → Bool
  | .advance o _ =>
      match receiver.durable.ops[o]? with
      | some (.register _ .lookup) => o ∈ receiver.peeked
      | _ => true
  | _ => true

inductive ReceiverLabel where
  | durable (label : Label)
  | legacy (label : LegacyLabel)
  | peek (o : Nat)

-- Every step is a step of one of the protocols, or the read of pending_transfers
-- by a version 2 registration, whose answer the request carries. The end of the
-- process loses the maps and the operations of both.
def receiverStep (sha256 : Bytes → String) (receiver : Receiver) : ReceiverLabel → Option Receiver
  | .durable label =>
      if receiver.permits label then
        (step sha256 receiver.durable label).map fun next =>
          match label with
          | .crash => ⟨next, .empty, [], receiver.log, ∅⟩
          | _ => { receiver with durable := next }
      else none
  | .legacy label =>
      if receiver.durable.running && receiver.answers label then
        (legacyStep receiver.version1 label).map fun next =>
          ⟨receiver.durable.onDisk next.disk, next.legacy, next.ops, next.log, receiver.peeked⟩
      else none
  | .peek o =>
      match receiver.durable.ops[o]? with
      | some (.register request .lookup) =>
          if request.legacy = (receiver.legacy.ledger.pending.lookup request.id).isSome then
            some { receiver with peeked := insert o receiver.peeked }
          else none
      | _ => none

structure ReceiverInitial (receiver : Receiver) : Prop where
  durable : Initial receiver.durable
  legacy : LegacyInitial receiver.version1
  unread : receiver.peeked = ∅

theorem receiver_step_cases (sha256 : Bytes → String) (receiver next : Receiver) (label : ReceiverLabel)
    (stepped : receiverStep sha256 receiver label = some next) :
    (∃ inner after, label = .durable inner ∧ inner ≠ .crash ∧ receiver.permits inner = true ∧
      step sha256 receiver.durable inner = some after ∧ next = { receiver with durable := after }) ∨
    (∃ after, label = .durable .crash ∧ step sha256 receiver.durable .crash = some after ∧
      next = ⟨after, .empty, [], receiver.log, ∅⟩) ∨
    (∃ inner after, label = .legacy inner ∧ receiver.durable.running = true ∧ receiver.answers inner = true ∧
      legacyStep receiver.version1 inner = some after ∧
      next = ⟨receiver.durable.onDisk after.disk, after.legacy, after.ops, after.log, receiver.peeked⟩) ∨
    (∃ o request, label = .peek o ∧ receiver.durable.ops[o]? = some (.register request .lookup) ∧
      request.legacy = (receiver.legacy.ledger.pending.lookup request.id).isSome ∧
      next = { receiver with peeked := insert o receiver.peeked }) := by
  cases label with
  | durable inner =>
      simp only [receiverStep] at stepped
      split at stepped
      · rename_i permitted
        obtain ⟨after, made, same⟩ := Option.map_eq_some_iff.mp stepped
        cases inner with
        | crash => exact .inr (.inl ⟨after, rfl, made, same.symm⟩)
        | call call => exact .inl ⟨_, after, rfl, by simp, permitted, made, same.symm⟩
        | advance o fault => exact .inl ⟨_, after, rfl, by simp, permitted, made, same.symm⟩
        | start => exact .inl ⟨_, after, rfl, by simp, permitted, made, same.symm⟩
      · cases stepped
  | legacy inner =>
      simp only [receiverStep] at stepped
      split at stepped
      · rename_i permitted
        rw [Bool.and_eq_true] at permitted
        obtain ⟨after, made, same⟩ := Option.map_eq_some_iff.mp stepped
        exact .inr (.inr (.inl ⟨inner, after, rfl, permitted.1, permitted.2, made, same.symm⟩))
      · cases stepped
  | peek o =>
      simp only [receiverStep] at stepped
      split at stepped
      · rename_i request here
        split at stepped
        · rename_i read
          exact .inr (.inr (.inr ⟨o, request, rfl, here, read, by simpa using stepped.symm⟩))
        · cases stepped
      · cases stepped

theorem legacy_base_disk (state : LegacyState) (disk : ReceiverDisk) (base : LegacyBase state) :
    LegacyBase ⟨state.legacy, disk, state.ops, state.log⟩ :=
  ⟨⟨base.locked.held, base.locked.holder, base.locked.owned, base.locked.sole⟩, base.checked, base.drafted,
    base.lives⟩

theorem empty_legacy_base (disk : ReceiverDisk) (log : List LegacyEntry) : LegacyBase
    ⟨.empty, disk, [], log⟩ := by
  have initial : LegacyInitial ⟨.empty, ⟨∅, []⟩, [], []⟩ := empty_legacy_initial
  have base := initial_legacy_base _ initial
  exact ⟨⟨base.locked.held, base.locked.holder, base.locked.owned, base.locked.sole⟩, base.checked,
    base.drafted, base.lives⟩

theorem receiver_legacy_base (sha256 : Bytes → String) (receiver next : Receiver) (label : ReceiverLabel)
    (base : LegacyBase receiver.version1) (stepped : receiverStep sha256 receiver label = some next) :
    LegacyBase next.version1 := by
  rcases receiver_step_cases sha256 receiver next label stepped with
    ⟨_, after, _, _, _, _, rfl⟩ | ⟨after, _, _, rfl⟩ | ⟨inner, after, _, _, _, made, rfl⟩ |
      ⟨_, _, _, _, _, rfl⟩
  · exact legacy_base_disk receiver.version1 _ base
  · exact empty_legacy_base _ _
  · exact legacy_base_step receiver.version1 after inner base made
  · exact base

-- The smallest receiver, for runs on concrete inputs.
def emptyReceiver : Receiver := ⟨emptyState, .empty, [], [], ∅⟩

theorem empty_receiver_initial : ReceiverInitial emptyReceiver := ⟨empty_initial, empty_legacy_initial, rfl⟩

end GoshTransfer
