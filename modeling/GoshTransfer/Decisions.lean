import GoshTransfer.Session

set_option autoImplicit false

namespace GoshTransfer

open InodeStore

-- One atomic step of an operation: its effect, what it reports and where the
-- operation stands afterwards.
abbrev Move (Phase : Type) := Act × List Entry × Phase

section Steps

variable {Phase : Type}

-- A step without a fallible call.
def plain (fault : Option Fault) (act : Act) (log : List Entry) (next : Phase) : Option (Move Phase) :=
  if fault = none then some (act, log, next) else none

-- self.sessions.read().await.get(id)
def lookupStep (store : Store) (id : String) (fault : Option Fault) (found : Nat → Phase) (missing : Phase) :
    Option (Move Phase) :=
  match store.sessions.lookup id with
  | some s => plain fault .tau [] (found s)
  | none => plain fault .tau [] missing

-- session.record.lock().await waits until the mutex is free.
def lockStep (store : Store) (s : Nat) (fault : Option Fault) (next : Phase) : Option (Move Phase) :=
  (store.heap[s]?).bind fun session => if session.lock = none then plain fault (.acquire s) [] next else none

-- The guarded record is assigned and then persisted.
def persistStep (s : Nat) (record : Record) (fault : Option Fault) (saved : Phase)
    (failed : EngineError → Phase) :
    Option (Move Phase) :=
  match fault with
  | none => some (.persist s record true, [], saved)
  | some (.persist replaced) => some (.persist s record replaced, [], failed (.io (.persist replaced)))
  | some _ => none

-- let _ = remove_file(path)
def removeStep (path : Path) (fault : Option Fault) (log : List Entry) (next : Phase) : Option (Move Phase) :=
  match fault with
  | none => some (.remove path, log, next)
  | some .remove => some (.tau, log, next)
  | some _ => none

def removeAct (path : Path) (fault : Option Fault) : Act :=
    if fault = some .remove then .tau else .remove path

theorem plain_eq_some (fault : Option Fault) (act act' : Act) (log log' : List Entry) (next next' : Phase) :
    plain fault act log next = some (act', log', next') ↔ fault = none ∧ act = act' ∧ log = log' ∧
      next = next' := by
  by_cases ok : fault = none <;> simp [plain, ok]

theorem lookup_step_cases (store : Store) (id : String) (fault : Option Fault) (found : Nat → Phase)
    (missing : Phase) (act : Act) (log : List Entry) (next : Phase)
    (moved : lookupStep store id fault found missing = some (act, log, next)) :
    act = .tau ∧ log = [] ∧
      ((∃ s, store.sessions.lookup id = some s ∧ next = found s) ∨
        (store.sessions.lookup id = none ∧ next = missing)) := by
  unfold lookupStep at moved
  split at moved
  · rename_i s present
    obtain ⟨_, rfl, rfl, rfl⟩ := (plain_eq_some _ _ _ _ _ _ _).mp moved
    exact ⟨rfl, rfl, .inl ⟨s, present, rfl⟩⟩
  · rename_i absent
    obtain ⟨_, rfl, rfl, rfl⟩ := (plain_eq_some _ _ _ _ _ _ _).mp moved
    exact ⟨rfl, rfl, .inr ⟨absent, rfl⟩⟩

theorem lock_step_cases (store : Store) (s : Nat) (fault : Option Fault) (next next' : Phase) (act : Act)
    (log : List Entry) (moved : lockStep store s fault next = some (act, log, next')) :
    act = .acquire s ∧ log = [] ∧ next = next' ∧ ∃ session, store.heap[s]? = some session ∧
      session.lock = none := by
  obtain ⟨session, here, locked⟩ := Option.bind_eq_some_iff.mp moved
  split at locked
  · rename_i free
    obtain ⟨_, rfl, rfl, rfl⟩ := (plain_eq_some _ _ _ _ _ _ _).mp locked
    exact ⟨rfl, rfl, rfl, session, here, free⟩
  · cases locked

theorem persist_step_cases (s : Nat) (record : Record) (fault : Option Fault) (saved : Phase)
    (failed : EngineError → Phase) (act : Act) (log : List Entry) (next : Phase)
    (moved : persistStep s record fault saved failed = some (act, log, next)) :
    log = [] ∧ ((fault = none ∧ act = .persist s record true ∧ next = saved) ∨
      ∃ replaced, fault = some (.persist replaced) ∧
        act = .persist s record replaced ∧ next = failed (.io (.persist replaced))) := by
  unfold persistStep at moved
  split at moved
  · simp only [Option.some.injEq, Prod.mk.injEq] at moved
    obtain ⟨rfl, rfl, rfl⟩ := moved
    exact ⟨rfl, .inl ⟨rfl, rfl, rfl⟩⟩
  · rename_i replaced
    simp only [Option.some.injEq, Prod.mk.injEq] at moved
    obtain ⟨rfl, rfl, rfl⟩ := moved
    exact ⟨rfl, .inr ⟨replaced, rfl, rfl, rfl⟩⟩
  · cases moved

theorem remove_step_cases (path : Path) (fault : Option Fault) (log log' : List Entry) (next next' : Phase)
    (act : Act) (moved : removeStep path fault log next = some (act, log', next')) :
    (fault = none ∨ fault = some .remove) ∧ act = removeAct path fault ∧ log = log' ∧ next = next' := by
  unfold removeStep at moved
  split at moved
  · simp only [Option.some.injEq, Prod.mk.injEq] at moved
    exact ⟨.inl rfl, moved.1.symm, moved.2⟩
  · simp only [Option.some.injEq, Prod.mk.injEq] at moved
    exact ⟨.inr rfl, moved.1.symm, moved.2⟩
  · cases moved

end Steps

inductive AcceptPhase where
  | lookup
  | lock (s : Nat)
  | decide (s : Nat)
  | leave (s : Nat) (reply : Except EngineError String)
  | done (reply : Except EngineError String)

def AcceptPhase.next (id : String) (store : Store) (fault : Option Fault) : AcceptPhase → Option
    (Move AcceptPhase)
  | .lookup => lookupStep store id fault .lock (.done (.error (.transferNotFound id)))
  | .lock s => lockStep store s fault (.decide s)
  | .decide s =>
      (store.heap[s]?).bind fun session =>
        let r := session.record
        if r.cancelled then plain fault .tau [] (.leave s (.error .transferCancelled))
        else if r.complete then plain fault .tau [] (.leave s (.error (.transferNotFound id)))
        else if r.decision = .rejected then plain fault .tau [] (.leave s (.error .transferRejected))
        else persistStep s { r with decision := .accepted } fault (.leave s (.ok r.token)) fun e => .leave s
          (.error e)
  | .leave s reply => plain fault (.release s) [] (.done reply)
  | .done _ => none

inductive RejectPhase where
  | lookup
  | lock (s : Nat)
  | decide (s : Nat)
  | announce (s : Nat)
  | leave (s : Nat) (reply : Except EngineError Unit)
  | done (reply : Except EngineError Unit)

def RejectPhase.next (id : String) (store : Store) (fault : Option Fault) : RejectPhase → Option
    (Move RejectPhase)
  | .lookup => lookupStep store id fault .lock (.done (.error (.transferNotFound id)))
  | .lock s => lockStep store s fault (.decide s)
  | .decide s =>
      (store.heap[s]?).bind fun session =>
        let r := session.record
        if r.decision ≠ .pending then
          plain fault .tau [] (.leave s (.error (.invalidConfig "Use cancellation for an accepted transfer")))
        else persistStep s { r with decision := .rejected } fault (.announce s) fun e => .leave s (.error e)
  | .announce s =>
      (store.heap[s]?).bind fun session =>
        plain fault .tau [.history s ⟨session.record.pending, .rejected, 0, some "Rejected by user"⟩]
          (.leave s (.ok ()))
  | .leave s reply => plain fault (.release s) [] (.done reply)
  | .done _ => none

-- The cancel endpoint first compares the caller with the owner kept in the
-- session and then runs cancel_transfer, which looks the session up again.
inductive CancelPhase where
  | authorize
  | lookup
  | finished (s : Nat)
  | trip (s : Nat)
  | lock (s : Nat)
  | decide (s : Nat)
  | discard (s : Nat) (files : List String) (bytes : Nat)
  | leave (s : Nat) (reply : Except EngineError Unit)
  | done (reply : Except EngineError Unit)
  | foreign

def CancelPhase.next (caller : Option Peer) (id : String) (store : Store) (fault : Option Fault) :
    CancelPhase → Option (Move CancelPhase)
  | .authorize =>
      match store.sessions.lookup id with
      | none => plain fault .tau [] (.done (.error (.transferNotFound id)))
      | some s =>
          (store.heap[s]?).bind fun session =>
            if caller.map owner = some session.owner then plain fault .tau [] .lookup else plain fault .tau
              [] .foreign
  | .lookup => lookupStep store id fault .finished (.done (.error (.transferNotFound id)))
  | .finished s =>
      (store.heap[s]?).bind fun session =>
        if session.finished then plain fault .tau [] (.done (.error (.transferNotFound id)))
        else plain fault .tau [] (.trip s)
  | .trip s => plain fault (.trip s) [] (.lock s)
  | .lock s => lockStep store s fault (.decide s)
  | .decide s =>
      (store.heap[s]?).bind fun session =>
        let r := session.record
        if r.complete then plain fault .tau [] (.leave s (.error (.transferNotFound id)))
        else if r.cancelled then plain fault .tau [] (.leave s (.ok ()))
        else
          match checkpoints store.disk session.id r fault with
          | .error e => if fault = none ∨ fault = some .read then some (.tau, [], .leave s (.error e))
              else none
          | .ok points =>
              persistStep s { r with cancelled := true } fault
                (.discard s r.manifest.fileIds (offsetSum points)) fun e => .leave s (.error e)
  | .discard s (file :: rest) bytes =>
      (store.heap[s]?).bind fun session => removeStep (partPath session.id file) fault []
        (.discard s rest bytes)
  | .discard s [] bytes =>
      (store.heap[s]?).bind fun session =>
        plain fault .tau
          [.event s (.transferFailed id "Transfer cancelled"),
            .history s ⟨session.record.pending, .failed, bytes, some "Transfer cancelled"⟩]
          (.leave s (.ok ()))
  | .leave s reply => plain fault (.release s) [] (.done reply)
  | .done _ => none
  | .foreign => none

inductive ForgetPhase where
  | enroll
  | lookup
  | lock (s : Nat)
  | check (s : Nat)
  | discard (s : Nat) (files : List String)
  | evict (s : Nat)
  | leave (s : Nat) (reply : Except EngineError Unit)
  | retire (reply : Except EngineError Unit)
  | done (reply : Except EngineError Unit)

def enrollStep {Phase : Type} (store : Store) (fault : Option Fault) (next : Phase) : Option (Move Phase) :=
  if store.registration = none then plain fault .enroll [] next else none

def ForgetPhase.next (id : String) (store : Store) (fault : Option Fault) : ForgetPhase → Option
    (Move ForgetPhase)
  | .enroll => enrollStep store fault .lookup
  | .lookup => lookupStep store id fault .lock (.retire (.error (.transferNotFound id)))
  | .lock s => lockStep store s fault (.check s)
  | .check s =>
      (store.heap[s]?).bind fun session =>
        let r := session.record
        if !r.complete && !r.cancelled && r.decision ≠ .rejected then
          plain fault .tau []
            (.leave s (.error (.invalidConfig "Cancel or finish a session before forgetting it")))
        else plain fault .tau [] (.discard s r.manifest.fileIds)
  | .discard s (file :: rest) =>
      (store.heap[s]?).bind fun session => removeStep (partPath session.id file) fault [] (.discard s rest)
  -- The journal is removed last, and here a failure is reported.
  | .discard s [] =>
      match fault with
      | none =>
          if (store.disk.node (journalPath id)).isSome then some (.remove (journalPath id), [], .evict s)
          else some (.tau, [], .leave s (.error (.io .remove)))
      | some .remove => some (.tau, [], .leave s (.error (.io .remove)))
      | some _ => none
  | .evict s => plain fault (.evict id) [] (.leave s (.ok ()))
  | .leave s reply => plain fault (.release s) [] (.retire reply)
  | .retire reply => plain fault .retire [] (.done reply)
  | .done _ => none

end GoshTransfer
