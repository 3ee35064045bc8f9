import GoshTransfer.OneProtocol
import GoshTransfer.Restart
import GoshTransfer.Lib.Histories

set_option autoImplicit false

namespace GoshTransfer

open InodeStore Histories

def Record.waits (record : Record) : Option PendingTransfer :=
  if record.decision = .pending && !record.cancelled then some record.pending else none

-- DurableStore::pending. The iteration order of a map is arbitrary.
def Store.pending (store : Store) (order : List String) : List PendingTransfer :=
  ((order.filterMap fun id => store.sessions.lookup id).filterMap fun s => store.heap[s]?).filterMap
    fun session => session.record.waits

def Ledger.pendingTransfers (ledger : Ledger) (order : List String) : List PendingTransfer :=
  (order.filterMap fun id => ledger.pending.lookup id).filter fun transfer =>
    (ledger.approved.lookup transfer.id).isNone && (ledger.rejected.lookup transfer.id).isNone

-- ServerState::get_pending_transfers
def Receiver.getPendingTransfers (receiver : Receiver) (legacyOrder durableOrder : List String) :
    List PendingTransfer :=
  receiver.legacy.ledger.pendingTransfers legacyOrder ++ receiver.durable.store.pending durableOrder

structure Receiver.Iterates (receiver : Receiver) (legacyOrder durableOrder : List String) : Prop where
  legacyOnce : legacyOrder.Nodup
  durableOnce : durableOrder.Nodup
  legacy : ∀ id, id ∈ legacyOrder ↔ receiver.legacy.ledger.pending.lookup id ≠ none
  durable : ∀ id, id ∈ durableOrder ↔ receiver.durable.store.sessions.lookup id ≠ none

theorem keys_iterate (receiver : Receiver) (legacyOrder durableOrder : List String)
    (once : legacyOrder.Nodup ∧ durableOrder.Nodup)
    (legacy : legacyOrder.toFinset = receiver.legacy.ledger.pending.keys)
    (durable : durableOrder.toFinset = receiver.durable.store.sessions.keys.toFinset) :
    receiver.Iterates legacyOrder durableOrder := by
  refine ⟨once.1, once.2, ?_, ?_⟩
  · intro id
    rw [← List.mem_toFinset, legacy, Finmap.mem_keys, ← Finmap.lookup_isSome, Option.isSome_iff_ne_none]
  · intro id
    rw [← List.mem_toFinset, durable, List.mem_toFinset, ← AList.mem_keys, ← AList.lookup_isSome,
      Option.isSome_iff_ne_none]

inductive Protocol where
  | legacy
  | durable
deriving DecidableEq

-- What happens to the session of an id. Trust accepts a session as it is
-- registered; dropped is the expiry of version 1 and the forget of version 2.
inductive Happening where
  | registered (protocol : Protocol) (transfer : PendingTransfer)
  | accepted (protocol : Protocol) (id : String)
  | rejected (protocol : Protocol) (id : String)
  | cancelled (protocol : Protocol) (id : String)
  | dropped (protocol : Protocol) (id : String)
deriving DecidableEq

def Ruling.happening (verdict : Ruling) (id : String) : Happening :=
  match verdict with
  | .accept _ => .accepted .legacy id
  | .reject => .rejected .legacy id
  | .cancel => .cancelled .legacy id

def registeredBy (protocol : Protocol) (transfer : PendingTransfer) (trusted : Bool) : List Happening :=
  .registered protocol transfer :: if trusted then [.accepted protocol transfer.id] else []

-- What the next step of an operation brings about. A decision counts when it
-- returns Ok.
def LegacyOp.tells (reading : Reading) : LegacyOp → List Happening
  | .request _ .select => reading.order.map (Happening.dropped .legacy)
  | .request offer (.pend total) => registeredBy .legacy (offer.pending total) offer.trusted
  | .ruling verdict id (.edit [] (.ok _)) => [verdict.happening id]
  | _ => []

def Op.tells : Op → List Happening
  | .register request .insert => registeredBy .durable request.record.pending request.trusted
  | .accept id (.leave _ (.ok _)) => [.accepted .durable id]
  | .reject id (.leave _ (.ok _)) => [.rejected .durable id]
  | .cancel _ id (.leave _ (.ok _)) => [.cancelled .durable id]
  | .forget id (.evict _) => [.dropped .durable id]
  | _ => []

def Receiver.tells (receiver : Receiver) : ReceiverLabel → List Happening
  | .legacy (.advance o reading) => ((receiver.ops[o]?).map (LegacyOp.tells reading)).getD []
  | .durable (.advance o _) => ((receiver.durable.ops[o]?).map Op.tells).getD []
  | _ => []

abbrev Docket := Annotated Receiver Happening

def docketStep (sha256 : Bytes → String) : Docket → ReceiverLabel → Option Docket :=
  annotate (receiverStep sha256) Receiver.tells

structure DocketInitial (docket : Docket) : Prop where
  receiver : ReceiverInitial docket.state
  silent : docket.history = []

def LegacyOp.ended : LegacyOp → Bool
  | .ruling _ _ (.done _) | .ruling _ _ .durable | .request _ (.done _) | .approval _ _ (.done _) |
      .chunk _ (.done _) => true
  | _ => false

def Receiver.idle (receiver : Receiver) : Bool :=
    receiver.ops.all LegacyOp.ended && receiver.durable.ops.all Op.ended

-- One call after the other in one process, and no persist fails. A version 1
-- ruling that finds a version 2 session ends with the call it hands over to.
def oneByOne (docket : Docket) : ReceiverLabel → Bool
  | .durable (.call _) | .legacy (.call _) => docket.state.idle
  | .durable (.advance _ (some (.persist _))) | .durable .crash => false
  | _ => true

-- What a happening makes of the session of an id: one that waits, or none.
def Happening.about (protocol : Protocol) (id : String) : Happening → Option (Option PendingTransfer)
  | .registered party transfer => if party = protocol ∧ transfer.id = id then some (some transfer) else none
  | .accepted party key | .rejected party key | .cancelled party key | .dropped party key =>
      if party = protocol ∧ key = id then some none else none

-- Registered, and since its own registration neither accepted, rejected nor
-- cancelled, nor dropped.
def Undecided (history : List Happening) (protocol : Protocol) (transfer : PendingTransfer) : Prop :=
  ∃ before after, history = before ++ .registered protocol transfer :: after ∧
    ∀ later ∈ after, later.about protocol transfer.id = none

def awaiting (protocol : Protocol) (id : String) (history : List Happening) : Option PendingTransfer :=
  lastWord (Happening.about protocol id) history

theorem about_waits (protocol : Protocol) (id : String) (happening : Happening) (transfer : PendingTransfer) :
    happening.about protocol id = some (some transfer) ↔ happening = .registered protocol transfer ∧
      transfer.id = id := by
  cases happening with
  | registered party other =>
      simp only [Happening.about]
      constructor
      · intro said
        split at said
        · rename_i both
          obtain ⟨rfl, rfl⟩ := both
          cases said
          exact ⟨rfl, rfl⟩
        · cases said
      · rintro ⟨same, rfl⟩
        cases same
        simp
  | _ =>
      simp only [Happening.about]
      split <;> simp

theorem awaiting_iff (protocol : Protocol) (id : String) (history : List Happening)
    (transfer : PendingTransfer) :
    awaiting protocol id history = some transfer ↔ transfer.id = id ∧
      Undecided history protocol transfer := by
  rw [awaiting, last_word_iff]
  constructor
  · rintro ⟨before, event, after, rfl, said, silent⟩
    obtain ⟨rfl, rfl⟩ := (about_waits protocol id event transfer).mp said
    exact ⟨rfl, before, after, rfl, silent⟩
  · rintro ⟨rfl, before, after, rfl, silent⟩
    exact ⟨before, _, after, rfl, (about_waits protocol transfer.id _ transfer).mpr ⟨rfl, rfl⟩, silent⟩

theorem awaiting_append (protocol : Protocol) (id : String) (history more : List Happening) :
    awaiting protocol id (history ++ more) = more.foldl (hear (Happening.about protocol id))
    (awaiting protocol id history) :=
  last_word_append _ history more

theorem awaiting_silent (protocol : Protocol) (id : String) (history more : List Happening)
    (silent : ∀ happening ∈ more, happening.about protocol id = none) :
    awaiting protocol id (history ++ more) = awaiting protocol id history := by
  rw [awaiting_append, hear_silent _ more _ silent]

theorem awaiting_registered (protocol party : Protocol) (id : String) (history : List Happening)
    (transfer : PendingTransfer) (trusted : Bool) :
    awaiting protocol id (history ++ registeredBy party transfer trusted) =
      if party = protocol ∧ transfer.id = id then (if trusted then none else some transfer)
        else awaiting protocol id history := by
  rw [awaiting_append]
  by_cases same : party = protocol ∧
    transfer.id = id <;> cases trusted <;> simp [registeredBy, hear, Happening.about, same]

theorem awaiting_dropped (id : String) (history : List Happening) (ids : List String) :
    awaiting .legacy id (history ++ ids.map (Happening.dropped .legacy)) =
      if id ∈ ids then none else awaiting .legacy id history := by
  induction ids generalizing history with
  | nil => simp
  | cons head rest ih =>
      rw [List.map_cons, List.append_cons, ih, awaiting_append]
      by_cases same : head = id
      · simp [hear, Happening.about, same]
      · have other : ¬ id = head := fun equal => same equal.symm
        simp [hear, Happening.about, same, other]

end GoshTransfer
