import GoshTransfer.Register
import GoshTransfer.DecisionMove

set_option autoImplicit false

namespace GoshTransfer

open InodeStore

inductive RegisterMove (request : RegisterRequest) (store : Store) (fault : Option Fault) :
    RegisterPhase → Act → List Entry → RegisterPhase → Prop where
  | invalid (e : EngineError) (refused : request.manifest.validate = .error e) :
      RegisterMove request store fault .validate .tau [] (.done (errorResponse e))
  | valid (accepted : request.manifest.Valid) : RegisterMove request store fault .validate .tau [] .enroll
  | enrolled (free : store.registration = none) : RegisterMove request store fault .enroll .enroll [] .lookup
  | legacy (flag : request.legacy = true) :
      RegisterMove request store fault .lookup .tau [] (.retire ⟨409, .text "ID belongs to a legacy session"⟩)
  | found (s : Nat) (present : store.sessions.lookup request.id = some s) :
      RegisterMove request store fault .lookup .tau [] (.lock s)
  | fresh (flag : request.legacy = false) (absent : store.sessions.lookup request.id = none) :
      RegisterMove request store fault .lookup .tau [] .create
  | locked (s : Nat) (session : Session) (here : store.heap[s]? = some session) (free : session.lock = none) :
      RegisterMove request store fault (.lock s) (.acquire s) [] (.compare s)
  | conflict (s : Nat) : RegisterMove request store fault (.compare s) .tau []
      (.leave s ⟨409, .text "Manifest conflicts with an existing session"⟩)
  | existing (s : Nat) (session : Session) (here : store.heap[s]? = some session)
      (sameOwner : session.record.owner = owner request.peer)
      (sameManifest : session.record.manifest = request.manifest) :
      RegisterMove request store fault (.compare s) .tau []
        (.leave s (snapshotResponse (snapshot store.disk session.id session.record fault)))
  | full (limit : store.sessions.keys.length ≥ sessionLimit) (ok : fault = none) :
      RegisterMove request store fault .create .tau [] (.retire ⟨503, .text
        "Durable session limit reached; remove completed sessions through forget_received_transfer"⟩)
  | rootFailed (below : store.sessions.keys.length < sessionLimit) (broken : fault = some .root) :
      RegisterMove request store fault .create .tau [] (.retire (errorResponse (.io .root)))
  | created (below : store.sessions.keys.length < sessionLimit) (ok : fault = none) :
      RegisterMove request store fault .create (.journal request.record true) [] .insert
  | createFailed (saved : Bool) (below : store.sessions.keys.length < sessionLimit)
      (broken : fault = some (.persist saved)) :
      RegisterMove request store fault .create (.journal request.record saved) []
      (.retire (errorResponse (.io (.persist saved))))
  | inserted : RegisterMove request store fault .insert (.insert request.record)
      (if request.trusted then [] else [.event store.heap.length (.transferRequest request.record.pending)])
      .respond
  | responded : RegisterMove request store fault .respond .tau []
      (.retire (snapshotResponse (snapshot store.disk request.id request.record fault)))
  | left (s : Nat) (reply : Response) : RegisterMove request store fault (.leave s reply) (.release s) []
      (.retire reply)
  | retired (reply : Response) : RegisterMove request store fault (.retire reply) .retire [] (.done reply)

inductive StatusMove (peer : Peer) (id : String) (store : Store) (fault : Option Fault) :
    StatusPhase → Act → List Entry → StatusPhase → Prop where
  | missing (absent : store.sessions.lookup id = none) :
      StatusMove peer id store fault .lookup .tau [] (.done (errorResponse (.transferNotFound id)))
  | found (s : Nat) (present : store.sessions.lookup id = some s) :
      StatusMove peer id store fault .lookup .tau [] (.lock s)
  | locked (s : Nat) (session : Session) (here : store.heap[s]? = some session) (free : session.lock = none) :
      StatusMove peer id store fault (.lock s) (.acquire s) [] (.answer s)
  | foreign (s : Nat) : StatusMove peer id store fault (.answer s) .tau [] (.leave s (.plain 404))
  | answered (s : Nat) (session : Session) (here : store.heap[s]? = some session)
      (owned : session.record.owner = owner peer) :
      StatusMove peer id store fault (.answer s) .tau []
        (.leave s (snapshotResponse (snapshot store.disk session.id session.record fault)))
  | left (s : Nat) (reply : Response) : StatusMove peer id store fault (.leave s reply) (.release s) []
      (.done reply)

theorem register_next_move (request : RegisterRequest) (store : Store) (fault : Option Fault) (act : Act)
    (log : List Entry) (phase next : RegisterPhase)
    (moved : phase.next request store fault = some (act, log, next)) :
    RegisterMove request store fault phase act log next := by
  cases phase with
  | validate =>
      simp only [RegisterPhase.next] at moved
      split at moved
      · rename_i e refused
        obtain ⟨_, rfl, rfl, rfl⟩ := (plain_eq_some _ _ _ _ _ _ _).mp moved
        exact .invalid e refused
      · rename_i accepted
        obtain ⟨_, rfl, rfl, rfl⟩ := (plain_eq_some _ _ _ _ _ _ _).mp moved
        exact .valid accepted
  | enroll =>
      obtain ⟨rfl, rfl, rfl, free⟩ := enroll_step_cases store fault act log _ _ moved
      exact .enrolled free
  | lookup =>
      simp only [RegisterPhase.next] at moved
      split at moved
      · rename_i flag
        obtain ⟨_, rfl, rfl, rfl⟩ := (plain_eq_some _ _ _ _ _ _ _).mp moved
        exact .legacy flag
      · rename_i flag
        obtain ⟨rfl, rfl, ⟨s, present, rfl⟩ | ⟨absent, rfl⟩⟩ := lookup_step_cases _ _ _ _ _ _ _ _ moved
        · exact .found s present
        · exact .fresh (by simpa using flag) absent
  | lock s =>
      obtain ⟨rfl, rfl, rfl, session, here, free⟩ := lock_step_cases _ _ _ _ _ _ _ moved
      exact .locked s session here free
  | compare s =>
      obtain ⟨session, here, stepped⟩ := Option.bind_eq_some_iff.mp moved
      split at stepped
      · obtain ⟨_, rfl, rfl, rfl⟩ := (plain_eq_some _ _ _ _ _ _ _).mp stepped
        exact .conflict s
      · rename_i same
        have equal : session.record.owner = owner request.peer ∧
          session.record.manifest = request.manifest := by
          simpa [not_or] using same
        split at stepped
        · simp only [Option.some.injEq, Prod.mk.injEq] at stepped
          obtain ⟨rfl, rfl, rfl⟩ := stepped
          exact .existing s session here equal.1 equal.2
        · cases stepped
  | create =>
      simp only [RegisterPhase.next] at moved
      split at moved
      · rename_i limit
        obtain ⟨ok, rfl, rfl, rfl⟩ := (plain_eq_some _ _ _ _ _ _ _).mp moved
        exact .full limit ok
      · rename_i below
        have room : store.sessions.keys.length < sessionLimit := by omega
        split at moved
        · simp only [Option.some.injEq, Prod.mk.injEq] at moved
          obtain ⟨rfl, rfl, rfl⟩ := moved
          exact .created room rfl
        · rename_i saved
          simp only [Option.some.injEq, Prod.mk.injEq] at moved
          obtain ⟨rfl, rfl, rfl⟩ := moved
          exact .createFailed saved room rfl
        · simp only [Option.some.injEq, Prod.mk.injEq] at moved
          obtain ⟨rfl, rfl, rfl⟩ := moved
          exact .rootFailed room rfl
        · cases moved
  | insert =>
      obtain ⟨_, rfl, rfl, rfl⟩ := (plain_eq_some _ _ _ _ _ _ _).mp moved
      exact .inserted
  | respond =>
      simp only [RegisterPhase.next] at moved
      split at moved
      · simp only [Option.some.injEq, Prod.mk.injEq] at moved
        obtain ⟨rfl, rfl, rfl⟩ := moved
        exact .responded
      · cases moved
  | leave s reply =>
      obtain ⟨_, rfl, rfl, rfl⟩ := (plain_eq_some _ _ _ _ _ _ _).mp moved
      exact .left s reply
  | retire reply =>
      obtain ⟨_, rfl, rfl, rfl⟩ := (plain_eq_some _ _ _ _ _ _ _).mp moved
      exact .retired reply
  | done reply => cases moved

theorem status_next_move (peer : Peer) (id : String) (store : Store) (fault : Option Fault) (act : Act)
    (log : List Entry) (phase next : StatusPhase)
    (moved : phase.next peer id store fault = some (act, log, next)) :
    StatusMove peer id store fault phase act log next := by
  cases phase with
  | lookup =>
      obtain ⟨rfl, rfl, ⟨s, present, rfl⟩ | ⟨absent, rfl⟩⟩ := lookup_step_cases _ _ _ _ _ _ _ _ moved
      · exact .found s present
      · exact .missing absent
  | lock s =>
      obtain ⟨rfl, rfl, rfl, session, here, free⟩ := lock_step_cases _ _ _ _ _ _ _ moved
      exact .locked s session here free
  | answer s =>
      obtain ⟨session, here, stepped⟩ := Option.bind_eq_some_iff.mp moved
      split at stepped
      · obtain ⟨_, rfl, rfl, rfl⟩ := (plain_eq_some _ _ _ _ _ _ _).mp stepped
        exact .foreign s
      · rename_i owned
        split at stepped
        · simp only [Option.some.injEq, Prod.mk.injEq] at stepped
          obtain ⟨rfl, rfl, rfl⟩ := stepped
          exact .answered s session here (by simpa using owned)
        · cases stepped
  | leave s reply =>
      obtain ⟨_, rfl, rfl, rfl⟩ := (plain_eq_some _ _ _ _ _ _ _).mp moved
      exact .left s reply
  | done reply => cases moved

end GoshTransfer
