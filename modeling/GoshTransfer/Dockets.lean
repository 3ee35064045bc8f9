import GoshTransfer.DurableWaiting

set_option autoImplicit false

namespace GoshTransfer

open InodeStore Histories

-- Nothing but the operation whose turn it is is under way.
structure Alone (turn : Option (Nat ⊕ Nat)) (receiver : Receiver) : Prop where
  legacy : ∀ (o : Nat) (op : LegacyOp), receiver.ops[o]? = some op → turn ≠ some (.inl o) → op.ended = true
  durable : ∀ (o : Nat) (op : Op), receiver.durable.ops[o]? = some op → turn ≠ some (.inr o) → op.ended = true

def Receiver.turn (receiver : Receiver) (turn : Option (Nat ⊕ Nat)) : ReceiverLabel → Option (Nat ⊕ Nat)
  | .legacy (.call _) => some (.inl receiver.ops.length)
  | .durable (.call _) => some (.inr receiver.durable.ops.length)
  | _ => turn

def Receiver.legacyPromise (receiver : Receiver) (turn : Option (Nat ⊕ Nat)) : Option String :=
  match turn with
  | some (.inl o) => (receiver.ops[o]?).bind LegacyOp.promises
  | _ => none

def Receiver.durablePromise (receiver : Receiver) (turn : Option (Nat ⊕ Nat)) : Option String :=
  match turn with
  | some (.inr o) => (receiver.durable.ops[o]?).bind Op.promises
  | _ => none

-- The phases in which an upload has presented the token and can still complete
-- the transfer.
def ChunkPhase.admitted : ChunkPhase → Bool
  | .seat | .lock _ | .cancelled _ | .token _ | .remove _ _ _ _ | .rollback _ _ _ _ | .leave _ _ |
      .unlock _ _ _ | .vacate _ _ _
  | .done _ => false
  | _ => true

-- Only an approved transfer is complete.
def Ledger.Closed (ledger : Ledger) (id : String) : Prop := (ledger.receipts id).complete →
    (ledger.view id).approved ≠ none

structure Recounts (turn : Option (Nat ⊕ Nat)) (docket : Docket) : Prop where
  base : Base docket.state.durable
  apart : Apart docket.state
  alone : Alone turn docket.state
  current : ∀ (o : Nat) (op : Op) (s : Nat), docket.state.durable.ops[o]? = some op →
    (∀ id phase, op ≠ .forget id phase) →
    op.session = some s → docket.state.durable.store.sessions.lookup op.id = some s
  held : ∀ (s : Nat) (session : Session) (o : Nat), docket.state.durable.store.heap[s]? = some session →
    session.lock = some o →
    ∃ op, docket.state.durable.ops[o]? = some op ∧ op.holds = some s
  keyed : ∀ id transfer, docket.state.legacy.ledger.pending.lookup id = some transfer → transfer.id = id
  legacy : ∀ id, (docket.state.version1.settled.view id).waits =
    if docket.state.legacyPromise turn = some id then none else awaiting .legacy id docket.history
  durable : ∀ id, docket.state.durable.store.waits id =
    if docket.state.durablePromise turn = some id then none else awaiting .durable id docket.history
  closed : ∀ id, docket.state.version1.settled.Closed id
  granted : ∀ (o : Nat) (params : ChunkRequest) (phase : ChunkPhase), docket.state.ops[o]? =
    some (.chunk params phase) →
    phase.admitted = true → docket.state.legacy.ledger.approved.lookup params.transferId ≠ none
  unstarted : docket.state.durable.running = false →
    docket.history = [] ∧ ∀ path, docket.state.durable.store.disk.doc path = none

theorem legacy_ended_stuck (op : LegacyOp) (over_ : op.ended = true) (legacy : Legacy) (disk : ReceiverDisk)
    (reading : Reading) :
    op.next legacy disk reading = none := by
  cases op with
  | ruling verdict id phase => cases phase <;> first | rfl | cases over_
  | request offer phase => cases phase <;> first | rfl | cases over_
  | approval peer id phase => cases phase <;> first | rfl | cases over_
  | chunk params phase => cases phase <;> first | rfl | cases over_

theorem legacy_ended_free (op : LegacyOp) (over_ : op.ended = true) : op.holds = false ∧
    op.promises = none := by
  cases op with
  | ruling verdict id phase => cases phase <;> first | exact ⟨rfl, rfl⟩ | cases over_
  | request offer phase => cases phase <;> first | exact ⟨rfl, rfl⟩ | cases over_
  | approval peer id phase => exact ⟨rfl, rfl⟩
  | chunk params phase => cases phase <;> first | exact ⟨rfl, rfl⟩ | cases over_

theorem ended_unpromised (op : Op) (over_ : op.ended = true) : op.promises = none := by
  cases op with
  | accept id phase => cases phase <;> first | rfl | cases over_
  | reject id phase => cases phase <;> first | rfl | cases over_
  | cancel caller id phase => cases phase <;> first | rfl | cases over_
  | _ => rfl

section Alone

variable (turn : Option (Nat ⊕ Nat)) (receiver : Receiver) (alone : Alone turn receiver)

include alone

theorem legacy_turn (o : Nat) (op : LegacyOp) (here : receiver.ops[o]? = some op)
    (active : op.ended = false) :
    turn = some (.inl o) := by
  by_contra other
  rw [alone.legacy o op here other] at active
  cases active

theorem durable_turn (o : Nat) (op : Op) (here : receiver.durable.ops[o]? = some op)
    (active : op.ended = false) :
    turn = some (.inr o) := by
  by_contra other
  rw [alone.durable o op here other] at active
  cases active

theorem alone_keeps_apart (label : ReceiverLabel) : keepsApart receiver label = true := by
  cases label with
  | durable inner =>
      cases inner with
      | advance o fault =>
          simp only [keepsApart]
          split
          · rename_i request here
            have mine := durable_turn turn receiver alone o _ here rfl
            rw [List.all_eq_true]
            intro op member
            obtain ⟨p, there⟩ := List.mem_iff_getElem?.mp member
            have over_ := alone.legacy p op there (by simp [mine])
            cases op with
            | request offer phase =>
                cases phase with
                | done reply => simp [LegacyOp.registers, RequestPhase.checked]
                | _ => cases over_
            | _ => rfl
          · rfl
      | _ => rfl
  | legacy inner =>
      cases inner with
      | advance o reading =>
          simp only [keepsApart]
          split
          · rename_i offer total here
            have mine := legacy_turn turn receiver alone o _ here rfl
            rw [List.all_eq_true]
            intro p _
            simp only [Receiver.registers]
            split
            · rename_i request phase there
              have over_ := alone.durable p _ there (by simp [mine])
              cases phase with
              | done reply => simp [RegisterPhase.checked]
              | _ => cases over_
            · rfl
          · rfl
      | call call => rfl
  | peek o => rfl

end Alone

theorem idle_alone (receiver : Receiver) (idle : receiver.idle = true) : Alone none receiver := by
  simp only [Receiver.idle, Bool.and_eq_true, List.all_eq_true] at idle
  exact ⟨fun o op here _ => idle.1 op (List.mem_of_getElem? here), fun o op here _ => idle.2 op
    (List.mem_of_getElem? here)⟩

theorem alone_idle (turn : Option (Nat ⊕ Nat)) (receiver : Receiver) (alone : Alone turn receiver)
    (legacy : ∀ o op, turn = some (.inl o) → receiver.ops[o]? = some op → op.ended = true)
    (durable : ∀ o op, turn = some (.inr o) → receiver.durable.ops[o]? = some op → op.ended = true) :
    receiver.idle = true := by
  simp only [Receiver.idle, Bool.and_eq_true, List.all_eq_true]
  constructor
  · intro op member
    obtain ⟨o, here⟩ := List.mem_iff_getElem?.mp member
    by_cases mine : turn = some (.inl o)
    · exact legacy o op mine here
    · exact alone.legacy o op here mine
  · intro op member
    obtain ⟨o, here⟩ := List.mem_iff_getElem?.mp member
    by_cases mine : turn = some (.inr o)
    · exact durable o op mine here
    · exact alone.durable o op here mine

theorem legacy_tells_apart (op : LegacyOp) (reading : Reading) (id : String) (history : List Happening) :
    awaiting .durable id (history ++ op.tells reading) = awaiting .durable id history := by
  refine awaiting_silent .durable id history _ ?_
  intro happening member
  cases op with
  | ruling verdict key phase =>
      cases phase with
      | edit todo reply =>
          cases todo with
          | nil =>
              cases reply with
              | ok token =>
                  rw [List.mem_singleton.mp member]
                  cases verdict <;> simp [Ruling.happening, Happening.about]
              | error e => cases member
          | cons entry rest => cases member
      | _ => cases member
  | request offer phase =>
      cases phase with
      | select =>
          obtain ⟨key, _, rfl⟩ := List.mem_map.mp member
          simp [Happening.about]
      | pend total =>
          cases trusted : offer.trusted <;>
            simp only [LegacyOp.tells, registeredBy, trusted, List.mem_cons, if_true, if_false,
            List.not_mem_nil, or_false,
              Bool.false_eq_true] at member
          · subst member
            simp [Happening.about]
          · rcases member with rfl | rfl <;> simp [Happening.about]
      | _ => cases member
  | _ => cases member

theorem durable_tells_apart (op : Op) (id : String) (history : List Happening) :
    awaiting .legacy id (history ++ op.tells) = awaiting .legacy id history := by
  have ruled : ∀ happening, happening.about .legacy id = none →
    awaiting .legacy id (history ++ [happening]) = awaiting .legacy id history := by
    intro happening silent
    exact awaiting_silent .legacy id history _ (by simp [silent])
  have nothing : awaiting .legacy id (history ++ []) = awaiting .legacy id history := by rw [List.append_nil]
  cases op with
  | accept key phase =>
      cases phase with
      | leave s reply => cases reply <;> first | exact nothing | exact ruled _ (by simp [Happening.about])
      | _ => exact nothing
  | reject key phase =>
      cases phase with
      | leave s reply => cases reply <;> first | exact nothing | exact ruled _ (by simp [Happening.about])
      | _ => exact nothing
  | cancel caller key phase =>
      cases phase with
      | leave s reply => cases reply <;> first | exact nothing | exact ruled _ (by simp [Happening.about])
      | _ => exact nothing
  | forget key phase =>
      cases phase with
      | evict s => exact ruled _ (by simp [Happening.about])
      | _ => exact nothing
  | register request phase =>
      cases phase with
      | insert => exact (awaiting_registered .legacy .durable id history _ _).trans (if_neg (by simp))
      | _ => exact nothing
  | _ => exact nothing

end GoshTransfer
