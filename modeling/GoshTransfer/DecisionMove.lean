import GoshTransfer.Decisions

set_option autoImplicit false

namespace GoshTransfer

open InodeStore

-- Everything one step of the local decisions can do, with its guards.
inductive AcceptMove (id : String) (store : Store) (fault : Option Fault) :
    AcceptPhase → Act → List Entry → AcceptPhase → Prop where
  | missing (absent : store.sessions.lookup id = none) :
      AcceptMove id store fault .lookup .tau [] (.done (.error (.transferNotFound id)))
  | found (s : Nat) (present : store.sessions.lookup id = some s) :
      AcceptMove id store fault .lookup .tau [] (.lock s)
  | locked (s : Nat) (session : Session) (here : store.heap[s]? = some session) (free : session.lock = none) :
      AcceptMove id store fault (.lock s) (.acquire s) [] (.decide s)
  | refuse (s : Nat) (session : Session) (e : EngineError) (here : store.heap[s]? = some session)
      (ended : session.record.terminal = true) (ok : fault = none) :
      AcceptMove id store fault (.decide s) .tau [] (.leave s (.error e))
  | accepted (s : Nat) (session : Session) (here : store.heap[s]? = some session)
      (open_ : session.record.terminal = false) (ok : fault = none) :
      AcceptMove id store fault (.decide s) (.persist s { session.record with decision := .accepted } true) []
        (.leave s (.ok session.record.token))
  | failed (s : Nat) (session : Session) (saved : Bool) (here : store.heap[s]? = some session)
      (open_ : session.record.terminal = false) (broken : fault = some (.persist saved)) :
      AcceptMove id store fault (.decide s) (.persist s { session.record with decision := .accepted } saved)
      []
        (.leave s (.error (.io (.persist saved))))
  | left (s : Nat) (reply : Except EngineError String) :
      AcceptMove id store fault (.leave s reply) (.release s) [] (.done reply)

inductive RejectMove (id : String) (store : Store) (fault : Option Fault) :
    RejectPhase → Act → List Entry → RejectPhase → Prop where
  | missing (absent : store.sessions.lookup id = none) :
      RejectMove id store fault .lookup .tau [] (.done (.error (.transferNotFound id)))
  | found (s : Nat) (present : store.sessions.lookup id = some s) :
      RejectMove id store fault .lookup .tau [] (.lock s)
  | locked (s : Nat) (session : Session) (here : store.heap[s]? = some session) (free : session.lock = none) :
      RejectMove id store fault (.lock s) (.acquire s) [] (.decide s)
  | refuse (s : Nat) (session : Session) (e : EngineError) (here : store.heap[s]? = some session)
      (decided : session.record.decision ≠ .pending) (ok : fault = none) :
      RejectMove id store fault (.decide s) .tau [] (.leave s (.error e))
  | rejected (s : Nat) (session : Session) (here : store.heap[s]? = some session)
      (undecided : session.record.decision = .pending) (ok : fault = none) :
      RejectMove id store fault (.decide s) (.persist s { session.record with decision := .rejected } true)
      [] (.announce s)
  | failed (s : Nat) (session : Session) (saved : Bool) (here : store.heap[s]? = some session)
      (undecided : session.record.decision = .pending) (broken : fault = some (.persist saved)) :
      RejectMove id store fault (.decide s) (.persist s { session.record with decision := .rejected } saved)
      []
        (.leave s (.error (.io (.persist saved))))
  | announced (s : Nat) (session : Session) (here : store.heap[s]? = some session) :
      RejectMove id store fault (.announce s) .tau
        [.history s ⟨session.record.pending, .rejected, 0, some "Rejected by user"⟩] (.leave s (.ok ()))
  | left (s : Nat) (reply : Except EngineError Unit) :
      RejectMove id store fault (.leave s reply) (.release s) [] (.done reply)

inductive CancelMove (caller : Option Peer) (id : String) (store : Store) (fault : Option Fault) :
    CancelPhase → Act → List Entry → CancelPhase → Prop where
  | unknown (phase : CancelPhase) (early : phase = .authorize ∨ phase = .lookup)
      (absent : store.sessions.lookup id = none) :
      CancelMove caller id store fault phase .tau [] (.done (.error (.transferNotFound id)))
  | authorized : CancelMove caller id store fault .authorize .tau [] .lookup
  | foreign : CancelMove caller id store fault .authorize .tau [] .foreign
  | found (s : Nat) (present : store.sessions.lookup id = some s) :
      CancelMove caller id store fault .lookup .tau [] (.finished s)
  | tooLate (s : Nat) (session : Session) (here : store.heap[s]? = some session)
      (finished : session.finished = true) :
      CancelMove caller id store fault (.finished s) .tau [] (.done (.error (.transferNotFound id)))
  | unfinished (s : Nat) (session : Session) (here : store.heap[s]? = some session)
      (running : session.finished = false) :
      CancelMove caller id store fault (.finished s) .tau [] (.trip s)
  | tripped (s : Nat) : CancelMove caller id store fault (.trip s) (.trip s) [] (.lock s)
  | locked (s : Nat) (session : Session) (here : store.heap[s]? = some session) (free : session.lock = none) :
      CancelMove caller id store fault (.lock s) (.acquire s) [] (.decide s)
  | complete (s : Nat) (session : Session) (here : store.heap[s]? = some session)
      (ended : session.record.complete = true) (ok : fault = none) :
      CancelMove caller id store fault (.decide s) .tau [] (.leave s (.error (.transferNotFound id)))
  | repeated (s : Nat) (session : Session) (here : store.heap[s]? = some session)
      (open_ : session.record.complete = false) (ended : session.record.cancelled = true)
      (ok : fault = none) :
      CancelMove caller id store fault (.decide s) .tau [] (.leave s (.ok ()))
  | unreadable (s : Nat) (session : Session) (e : EngineError) (here : store.heap[s]? = some session)
      (open_ : session.record.complete = false ∧ session.record.cancelled = false)
      (broken : checkpoints store.disk session.id session.record fault = .error e)
      (noPersist : fault = none ∨ fault = some .read) :
      CancelMove caller id store fault (.decide s) .tau [] (.leave s (.error e))
  | cancelled (s : Nat) (session : Session) (points : List FileCheckpoint)
      (here : store.heap[s]? = some session) (open_ : session.record.complete = false ∧
        session.record.cancelled = false)
      (read : checkpoints store.disk session.id session.record fault = .ok points) (ok : fault = none) :
      CancelMove caller id store fault (.decide s)
        (.persist s { session.record with cancelled := true } true) []
        (.discard s session.record.manifest.fileIds (offsetSum points))
  | failed (s : Nat) (session : Session) (saved : Bool) (here : store.heap[s]? = some session)
      (open_ : session.record.complete = false ∧ session.record.cancelled = false)
      (broken : fault = some (.persist saved)) :
      CancelMove caller id store fault (.decide s)
      (.persist s { session.record with cancelled := true } saved) []
        (.leave s (.error (.io (.persist saved))))
  | discarded (s : Nat) (session : Session) (file : String) (rest : List String) (bytes : Nat)
      (here : store.heap[s]? = some session) :
      CancelMove caller id store fault (.discard s (file :: rest) bytes)
      (removeAct (partPath session.id file) fault) []
        (.discard s rest bytes)
  | announced (s : Nat) (session : Session) (bytes : Nat) (here : store.heap[s]? = some session) :
      CancelMove caller id store fault (.discard s [] bytes) .tau
        [.event s (.transferFailed id "Transfer cancelled"),
          .history s ⟨session.record.pending, .failed, bytes, some "Transfer cancelled"⟩]
        (.leave s (.ok ()))
  | left (s : Nat) (reply : Except EngineError Unit) :
      CancelMove caller id store fault (.leave s reply) (.release s) [] (.done reply)

inductive ForgetMove (id : String) (store : Store) (fault : Option Fault) :
    ForgetPhase → Act → List Entry → ForgetPhase → Prop where
  | enrolled (free : store.registration = none) : ForgetMove id store fault .enroll .enroll [] .lookup
  | missing (absent : store.sessions.lookup id = none) :
      ForgetMove id store fault .lookup .tau [] (.retire (.error (.transferNotFound id)))
  | found (s : Nat) (present : store.sessions.lookup id = some s) :
      ForgetMove id store fault .lookup .tau [] (.lock s)
  | locked (s : Nat) (session : Session) (here : store.heap[s]? = some session) (free : session.lock = none) :
      ForgetMove id store fault (.lock s) (.acquire s) [] (.check s)
  | refuse (s : Nat) (session : Session) (e : EngineError) (here : store.heap[s]? = some session)
      (live : session.record.terminal = false) :
      ForgetMove id store fault (.check s) .tau [] (.leave s (.error e))
  | admitted (s : Nat) (session : Session) (here : store.heap[s]? = some session)
      (ended : session.record.terminal = true) :
      ForgetMove id store fault (.check s) .tau [] (.discard s session.record.manifest.fileIds)
  | discarded (s : Nat) (session : Session) (file : String) (rest : List String)
      (here : store.heap[s]? = some session) :
      ForgetMove id store fault (.discard s (file :: rest)) (removeAct (partPath session.id file) fault) []
      (.discard s rest)
  | erased (s : Nat) (present : (store.disk.node (journalPath id)).isSome = true) :
      ForgetMove id store fault (.discard s []) (.remove (journalPath id)) [] (.evict s)
  | stuck (s : Nat) : ForgetMove id store fault (.discard s []) .tau [] (.leave s (.error (.io .remove)))
  | evicted (s : Nat) : ForgetMove id store fault (.evict s) (.evict id) [] (.leave s (.ok ()))
  | left (s : Nat) (reply : Except EngineError Unit) :
      ForgetMove id store fault (.leave s reply) (.release s) [] (.retire reply)
  | retired (reply : Except EngineError Unit) :
      ForgetMove id store fault (.retire reply) .retire [] (.done reply)

section Inversion

variable (id : String) (store : Store) (fault : Option Fault) (act : Act) (log : List Entry)

theorem accept_next_move (phase next : AcceptPhase)
    (moved : phase.next id store fault = some (act, log, next)) :
    AcceptMove id store fault phase act log next := by
  cases phase with
  | lookup =>
      obtain ⟨rfl, rfl, ⟨s, present, rfl⟩ | ⟨absent, rfl⟩⟩ := lookup_step_cases _ _ _ _ _ _ _ _ moved
      · exact .found s present
      · exact .missing absent
  | lock s =>
      obtain ⟨rfl, rfl, rfl, session, here, free⟩ := lock_step_cases _ _ _ _ _ _ _ moved
      exact .locked s session here free
  | decide s =>
      obtain ⟨session, here, stepped⟩ := Option.bind_eq_some_iff.mp moved
      dsimp only at stepped
      split at stepped
      · rename_i ended
        obtain ⟨ok, rfl, rfl, rfl⟩ := (plain_eq_some _ _ _ _ _ _ _).mp stepped
        exact .refuse s session _ here (by simp [Record.terminal, ended]) ok
      · rename_i notCancelled
        split at stepped
        · rename_i ended
          obtain ⟨ok, rfl, rfl, rfl⟩ := (plain_eq_some _ _ _ _ _ _ _).mp stepped
          exact .refuse s session _ here (by simp [Record.terminal, ended]) ok
        · rename_i notComplete
          split at stepped
          · rename_i ended
            obtain ⟨ok, rfl, rfl, rfl⟩ := (plain_eq_some _ _ _ _ _ _ _).mp stepped
            exact .refuse s session _ here (by simp [Record.terminal, ended]) ok
          · rename_i notRejected
            have live : session.record.terminal = false := by
              simp [Record.terminal, notCancelled, notComplete, notRejected]
            obtain ⟨rfl, ⟨ok, rfl, rfl⟩ | ⟨saved, broken, rfl, rfl⟩⟩ :=
              persist_step_cases _ _ _ _ _ _ _ _ stepped
            · exact .accepted s session here live ok
            · exact .failed s session saved here live broken
  | leave s reply =>
      obtain ⟨_, rfl, rfl, rfl⟩ := (plain_eq_some _ _ _ _ _ _ _).mp moved
      exact .left s reply
  | done reply => cases moved

theorem reject_next_move (phase next : RejectPhase)
    (moved : phase.next id store fault = some (act, log, next)) :
    RejectMove id store fault phase act log next := by
  cases phase with
  | lookup =>
      obtain ⟨rfl, rfl, ⟨s, present, rfl⟩ | ⟨absent, rfl⟩⟩ := lookup_step_cases _ _ _ _ _ _ _ _ moved
      · exact .found s present
      · exact .missing absent
  | lock s =>
      obtain ⟨rfl, rfl, rfl, session, here, free⟩ := lock_step_cases _ _ _ _ _ _ _ moved
      exact .locked s session here free
  | decide s =>
      obtain ⟨session, here, stepped⟩ := Option.bind_eq_some_iff.mp moved
      dsimp only at stepped
      split at stepped
      · rename_i decided
        obtain ⟨ok, rfl, rfl, rfl⟩ := (plain_eq_some _ _ _ _ _ _ _).mp stepped
        exact .refuse s session _ here decided ok
      · rename_i undecided
        have pending : session.record.decision = .pending := by simpa using undecided
        obtain ⟨rfl, ⟨ok, rfl, rfl⟩ | ⟨saved, broken, rfl, rfl⟩⟩ := persist_step_cases _ _ _ _ _ _ _ _ stepped
        · exact .rejected s session here pending ok
        · exact .failed s session saved here pending broken
  | announce s =>
      obtain ⟨session, here, stepped⟩ := Option.bind_eq_some_iff.mp moved
      obtain ⟨_, rfl, rfl, rfl⟩ := (plain_eq_some _ _ _ _ _ _ _).mp stepped
      exact .announced s session here
  | leave s reply =>
      obtain ⟨_, rfl, rfl, rfl⟩ := (plain_eq_some _ _ _ _ _ _ _).mp moved
      exact .left s reply
  | done reply => cases moved

theorem cancel_decide_move (caller : Option Peer) (s : Nat) (session : Session)
    (here : store.heap[s]? = some session) (next : CancelPhase)
    (moved : (CancelPhase.decide s).next caller id store fault = some (act, log, next)) :
    CancelMove caller id store fault (.decide s) act log next := by
  simp only [CancelPhase.next, here, Option.bind_some] at moved
  split at moved
  · rename_i ended
    obtain ⟨ok, rfl, rfl, rfl⟩ := (plain_eq_some _ _ _ _ _ _ _).mp moved
    exact .complete s session here ended ok
  · rename_i notComplete
    split at moved
    · rename_i ended
      obtain ⟨ok, rfl, rfl, rfl⟩ := (plain_eq_some _ _ _ _ _ _ _).mp moved
      exact .repeated s session here (by simpa using notComplete) ended ok
    · rename_i notCancelled
      have live : session.record.complete = false ∧ session.record.cancelled = false :=
        ⟨by simpa using notComplete, by simpa using notCancelled⟩
      split at moved
      · rename_i e broken
        split at moved
        · rename_i noPersist
          simp only [Option.some.injEq, Prod.mk.injEq] at moved
          obtain ⟨rfl, rfl, rfl⟩ := moved
          exact .unreadable s session e here live broken noPersist
        · cases moved
      · rename_i points read
        obtain ⟨rfl, ⟨ok, rfl, rfl⟩ | ⟨saved, broken, rfl, rfl⟩⟩ := persist_step_cases _ _ _ _ _ _ _ _ moved
        · exact .cancelled s session points here live read ok
        · exact .failed s session saved here live broken

theorem cancel_next_move (caller : Option Peer) (phase next : CancelPhase)
    (moved : phase.next caller id store fault = some (act, log, next)) :
    CancelMove caller id store fault phase act log next := by
  cases phase with
  | authorize =>
      simp only [CancelPhase.next] at moved
      split at moved
      · rename_i absent
        obtain ⟨_, rfl, rfl, rfl⟩ := (plain_eq_some _ _ _ _ _ _ _).mp moved
        exact .unknown _ (.inl rfl) absent
      · obtain ⟨session, here, stepped⟩ := Option.bind_eq_some_iff.mp moved
        split at stepped
        · obtain ⟨_, rfl, rfl, rfl⟩ := (plain_eq_some _ _ _ _ _ _ _).mp stepped
          exact .authorized
        · obtain ⟨_, rfl, rfl, rfl⟩ := (plain_eq_some _ _ _ _ _ _ _).mp stepped
          exact .foreign
  | lookup =>
      obtain ⟨rfl, rfl, ⟨s, present, rfl⟩ | ⟨absent, rfl⟩⟩ := lookup_step_cases _ _ _ _ _ _ _ _ moved
      · exact .found s present
      · exact .unknown _ (.inr rfl) absent
  | finished s =>
      obtain ⟨session, here, stepped⟩ := Option.bind_eq_some_iff.mp moved
      split at stepped
      · rename_i finished
        obtain ⟨_, rfl, rfl, rfl⟩ := (plain_eq_some _ _ _ _ _ _ _).mp stepped
        exact .tooLate s session here finished
      · rename_i running
        obtain ⟨_, rfl, rfl, rfl⟩ := (plain_eq_some _ _ _ _ _ _ _).mp stepped
        exact .unfinished s session here (by simpa using running)
  | trip s =>
      obtain ⟨_, rfl, rfl, rfl⟩ := (plain_eq_some _ _ _ _ _ _ _).mp moved
      exact .tripped s
  | lock s =>
      obtain ⟨rfl, rfl, rfl, session, here, free⟩ := lock_step_cases _ _ _ _ _ _ _ moved
      exact .locked s session here free
  | decide s =>
      obtain ⟨session, here, _⟩ := Option.bind_eq_some_iff.mp moved
      exact cancel_decide_move id store fault act log caller s session here next moved
  | discard s files bytes =>
      cases files with
      | cons file rest =>
          obtain ⟨session, here, stepped⟩ := Option.bind_eq_some_iff.mp moved
          obtain ⟨_, rfl, rfl, rfl⟩ := remove_step_cases _ _ _ _ _ _ _ stepped
          exact .discarded s session file rest bytes here
      | nil =>
          obtain ⟨session, here, stepped⟩ := Option.bind_eq_some_iff.mp moved
          obtain ⟨_, rfl, rfl, rfl⟩ := (plain_eq_some _ _ _ _ _ _ _).mp stepped
          exact .announced s session bytes here
  | leave s reply =>
      obtain ⟨_, rfl, rfl, rfl⟩ := (plain_eq_some _ _ _ _ _ _ _).mp moved
      exact .left s reply
  | done reply => cases moved
  | foreign => cases moved

theorem enroll_step_cases {Phase : Type} (next next' : Phase)
    (moved : enrollStep store fault next = some (act, log, next')) :
    act = .enroll ∧ log = [] ∧ next = next' ∧ store.registration = none := by
  unfold enrollStep at moved
  split at moved
  · rename_i free
    obtain ⟨_, rfl, rfl, rfl⟩ := (plain_eq_some _ _ _ _ _ _ _).mp moved
    exact ⟨rfl, rfl, rfl, free⟩
  · cases moved

theorem forget_next_move (phase next : ForgetPhase)
    (moved : phase.next id store fault = some (act, log, next)) :
    ForgetMove id store fault phase act log next := by
  cases phase with
  | enroll =>
      obtain ⟨rfl, rfl, rfl, free⟩ := enroll_step_cases store fault act log _ _ moved
      exact .enrolled free
  | lookup =>
      obtain ⟨rfl, rfl, ⟨s, present, rfl⟩ | ⟨absent, rfl⟩⟩ := lookup_step_cases _ _ _ _ _ _ _ _ moved
      · exact .found s present
      · exact .missing absent
  | lock s =>
      obtain ⟨rfl, rfl, rfl, session, here, free⟩ := lock_step_cases _ _ _ _ _ _ _ moved
      exact .locked s session here free
  | check s =>
      obtain ⟨session, here, stepped⟩ := Option.bind_eq_some_iff.mp moved
      dsimp only at stepped
      split at stepped
      · rename_i live
        obtain ⟨_, rfl, rfl, rfl⟩ := (plain_eq_some _ _ _ _ _ _ _).mp stepped
        exact .refuse s session _ here (by simpa [Record.terminal, and_assoc] using live)
      · rename_i ended
        obtain ⟨_, rfl, rfl, rfl⟩ := (plain_eq_some _ _ _ _ _ _ _).mp stepped
        refine .admitted s session here ?_
        cases complete : session.record.complete <;> cases cancelled : session.record.cancelled <;>
          simp_all [Record.terminal]
  | discard s files =>
      cases files with
      | cons file rest =>
          obtain ⟨session, here, stepped⟩ := Option.bind_eq_some_iff.mp moved
          obtain ⟨_, rfl, rfl, rfl⟩ := remove_step_cases _ _ _ _ _ _ _ stepped
          exact .discarded s session file rest here
      | nil =>
          cases fault with
          | none =>
              simp only [ForgetPhase.next] at moved
              split at moved
              · rename_i present
                simp only [Option.some.injEq, Prod.mk.injEq] at moved
                obtain ⟨rfl, rfl, rfl⟩ := moved
                exact .erased s present
              · simp only [Option.some.injEq, Prod.mk.injEq] at moved
                obtain ⟨rfl, rfl, rfl⟩ := moved
                exact .stuck s
          | some fault =>
              cases fault <;> simp only [ForgetPhase.next, Option.some.injEq, Prod.mk.injEq,
                reduceCtorEq] at moved
              obtain ⟨rfl, rfl, rfl⟩ := moved
              exact .stuck s
  | evict s =>
      obtain ⟨_, rfl, rfl, rfl⟩ := (plain_eq_some _ _ _ _ _ _ _).mp moved
      exact .evicted s
  | leave s reply =>
      obtain ⟨_, rfl, rfl, rfl⟩ := (plain_eq_some _ _ _ _ _ _ _).mp moved
      exact .left s reply
  | retire reply =>
      obtain ⟨_, rfl, rfl, rfl⟩ := (plain_eq_some _ _ _ _ _ _ _).mp moved
      exact .retired reply
  | done reply => cases moved

end Inversion

end GoshTransfer
