import GoshTransfer.RegisterMove
import GoshTransfer.UploadMove
import GoshTransfer.Lib.Transition

set_option autoImplicit false

namespace GoshTransfer

open InodeStore

-- A running operation with its arguments and the place it has reached.
inductive Op where
  | accept (id : String) (phase : AcceptPhase)
  | reject (id : String) (phase : RejectPhase)
  | cancel (caller : Option Peer) (id : String) (phase : CancelPhase)
  | forget (id : String) (phase : ForgetPhase)
  | register (request : RegisterRequest) (phase : RegisterPhase)
  | status (peer : Peer) (id : String) (phase : StatusPhase)
  | upload (request : UploadRequest) (phase : UploadPhase)

def Op.next (sha256 : Bytes → String) (store : Store) (fault : Option Fault) : Op → Option (Move Op)
  | .accept id phase => (phase.next id store fault).map fun (act, log, p) => (act, log, .accept id p)
  | .reject id phase => (phase.next id store fault).map fun (act, log, p) => (act, log, .reject id p)
  | .cancel caller id phase => (phase.next caller id store fault).map fun (act, log, p) =>
      (act, log, .cancel caller id p)
  | .forget id phase => (phase.next id store fault).map fun (act, log, p) => (act, log, .forget id p)
  | .register request phase => (phase.next request store fault).map fun (act, log, p) =>
      (act, log, .register request p)
  | .status peer id phase => (phase.next peer id store fault).map fun (act, log, p) =>
      (act, log, .status peer id p)
  | .upload request phase => (phase.next sha256 request store fault).map fun (act, log, p) =>
      (act, log, .upload request p)

-- cancel without a caller is the local DurableStore::cancel_transfer; with one
-- it is the request handler.
inductive Call where
  | accept (id : String)
  | reject (id : String)
  | cancel (caller : Option Peer) (id : String)
  | forget (id : String)
  | register (request : RegisterRequest)
  | status (peer : Peer) (id : String)
  | upload (request : UploadRequest)

def Call.op : Call → Op
  | .accept id => .accept id .lookup
  | .reject id => .reject id .lookup
  | .cancel caller id => .cancel caller id (if caller.isSome then .authorize else .lookup)
  | .forget id => .forget id .enroll
  | .register request => .register request .validate
  | .status peer id => .status peer id .lookup
  | .upload request => .upload request .lookup

-- A path with anything but Normal components is refused.
def normalPath (path : Path) : Bool := path.all fun c => c != "" && c != "." && c != ".."

def safeDestinations (paths : HashMap String Path) : Bool :=
  decide (∀ file ∈ paths.keys, (paths.lookup file).all normalPath)

def loadJournal (disk : ReceiverDisk) (name : String) : Except EngineError Record :=
  match disk.node [stateDir, name] with
  | some (.doc record) =>
      match record.manifest.validate with
      | .error e => .error e
      | .ok _ =>
          if (splitExtension name.toList).1 ≠ record.manifest.request.transferId.toList ∨
              record.pending.id ≠ record.manifest.request.transferId then
            .error (.fileIo "Invalid session journal identity")
          else if !(safeDestinations record.targets && safeDestinations record.published) then
            .error (.fileIo "Unsafe journal destination")
          else .ok record
  | _ => .error (.fileIo "Unsafe session journal")

-- The entries of the state directory with the extension json.
def journalName (path : Path) : Option String :=
  match path with
  | [dir, name] => if dir = stateDir ∧ (splitExtension name.toList).2 = some "json".toList then some name
      else none
  | _ => none

def journalNames (disk : ReceiverDisk) : List String := disk.names.keys.filterMap journalName

def loadJournals (store : Store) : List String → Except EngineError Store
  | [] => .ok store
  | name :: rest =>
      match loadJournal store.disk name with
      | .error e => .error e
      | .ok record => loadJournals (store.apply 0 (.insert record)) rest

def Store.empty (disk : ReceiverDisk) : Store := ⟨disk, [], ∅, none⟩

def Store.load (disk : ReceiverDisk) : Except EngineError Store := loadJournals (.empty disk)
    (journalNames disk)

structure State where
  store : Store
  ops : List Op
  log : List Entry
  running : Bool

-- start is refused while a journal cannot be loaded. The end of a process, by
-- a crash or by stop_server, loses everything but the disk.
inductive Label where
  | call (call : Call)
  | advance (o : Nat) (fault : Option Fault)
  | crash
  | start

def step (sha256 : Bytes → String) (state : State) : Label → Option State
  | .call call => if state.running then some { state with ops := state.ops ++ [call.op] } else none
  | .advance o fault =>
      (state.ops[o]?).bind fun op =>
        (op.next sha256 state.store fault).bind fun (act, log, op') =>
          some { state with store := state.store.apply o act, ops := state.ops.set o op', log := state.log ++ log }
  | .crash =>
      if state.running then
        some { state with store := .empty state.store.disk, ops := [], running := false } else none
  | .start =>
      if state.running then none
      else
        match Store.load state.store.disk with
        | .error _ => none
        | .ok store => some { state with store := store, running := true }

-- The first start of a receiver: any download directory without receiver state.
structure Initial (state : State) : Prop where
  fresh : state.store = .empty state.store.disk
  idle : state.ops = []
  silent : state.log = []
  stopped : state.running = false
  allocated : state.store.disk.Allocated
  noState : ∀ path, ¬ Outside path → state.store.disk.node path = none
  noJournal : ∀ path, state.store.disk.doc path = none

inductive OpMove (sha256 : Bytes → String) (store : Store) (fault : Option Fault) : Op → Act → List Entry →
    Op → Prop where
  | accept (id : String) (phase next : AcceptPhase) (act : Act) (log : List Entry)
      (moved : AcceptMove id store fault phase act log next) :
      OpMove sha256 store fault (.accept id phase) act log (.accept id next)
  | reject (id : String) (phase next : RejectPhase) (act : Act) (log : List Entry)
      (moved : RejectMove id store fault phase act log next) :
      OpMove sha256 store fault (.reject id phase) act log (.reject id next)
  | cancel (caller : Option Peer) (id : String) (phase next : CancelPhase) (act : Act) (log : List Entry)
      (moved : CancelMove caller id store fault phase act log next) :
      OpMove sha256 store fault (.cancel caller id phase) act log (.cancel caller id next)
  | forget (id : String) (phase next : ForgetPhase) (act : Act) (log : List Entry)
      (moved : ForgetMove id store fault phase act log next) :
      OpMove sha256 store fault (.forget id phase) act log (.forget id next)
  | register (request : RegisterRequest) (phase next : RegisterPhase) (act : Act) (log : List Entry)
      (moved : RegisterMove request store fault phase act log next) :
      OpMove sha256 store fault (.register request phase) act log (.register request next)
  | status (peer : Peer) (id : String) (phase next : StatusPhase) (act : Act) (log : List Entry)
      (moved : StatusMove peer id store fault phase act log next) :
      OpMove sha256 store fault (.status peer id phase) act log (.status peer id next)
  | upload (request : UploadRequest) (phase next : UploadPhase) (act : Act) (log : List Entry)
      (moved : UploadMove sha256 request store fault phase act log next) :
      OpMove sha256 store fault (.upload request phase) act log (.upload request next)

theorem op_next_move (sha256 : Bytes → String) (store : Store) (fault : Option Fault) (op op' : Op)
    (act : Act) (log : List Entry) (moved : op.next sha256 store fault = some (act, log, op')) :
    OpMove sha256 store fault op act log op' := by
  cases op <;> simp only [Op.next, Option.map_eq_some_iff, Prod.exists, Prod.mk.injEq] at moved <;>
    obtain ⟨_, _, _, moved, rfl, rfl, rfl⟩ := moved
  · exact .accept _ _ _ _ _ (accept_next_move _ _ _ _ _ _ _ moved)
  · exact .reject _ _ _ _ _ (reject_next_move _ _ _ _ _ _ _ moved)
  · exact .cancel _ _ _ _ _ _ (cancel_next_move _ _ _ _ _ _ _ _ moved)
  · exact .forget _ _ _ _ _ (forget_next_move _ _ _ _ _ _ _ moved)
  · exact .register _ _ _ _ _ (register_next_move _ _ _ _ _ _ _ moved)
  · exact .status _ _ _ _ _ _ (status_next_move _ _ _ _ _ _ _ _ moved)
  · exact .upload _ _ _ _ _ (upload_next_move _ _ _ _ _ _ _ _ moved)

theorem step_advance (sha256 : Bytes → String) (state next : State) (o : Nat) (fault : Option Fault)
    (stepped : step sha256 state (.advance o fault) = some next) :
    ∃ op act log op', state.ops[o]? = some op ∧ op.next sha256 state.store fault = some (act, log, op') ∧
      next = { state with store := state.store.apply o act, ops := state.ops.set o op', log := state.log ++ log } := by
  obtain ⟨op, here, stepped⟩ := Option.bind_eq_some_iff.mp stepped
  obtain ⟨⟨act, log, op'⟩, moved, stepped⟩ := Option.bind_eq_some_iff.mp stepped
  exact ⟨op, act, log, op', here, moved, by simpa using stepped.symm⟩

theorem step_call (sha256 : Bytes → String) (state next : State) (call : Call)
    (stepped : step sha256 state (.call call) = some next) :
    state.running = true ∧ next = { state with ops := state.ops ++ [call.op] } := by
  simp only [step] at stepped
  split at stepped
  · rename_i running
    exact ⟨running, (Option.some.inj stepped).symm⟩
  · cases stepped

theorem step_cases (sha256 : Bytes → String) (state next : State) (label : Label)
    (stepped : step sha256 state label = some next) :
    (∃ call, label = .call call ∧ state.running = true ∧
      next = { state with ops := state.ops ++ [call.op] }) ∨
    (∃ o fault op act log op', label = .advance o fault ∧ state.ops[o]? = some op ∧
      OpMove sha256 state.store fault op act log op' ∧
      next = { state with store := state.store.apply o act, ops := state.ops.set o op', log := state.log ++ log }) ∨
    (label = .crash ∧ state.running = true ∧
      next = { state with store := .empty state.store.disk, ops := [], running := false }) ∨
    (∃ store, label = .start ∧ state.running = false ∧ Store.load state.store.disk = .ok store ∧
      next = { state with store := store, running := true }) := by
  cases label with
  | call call =>
      simp only [step] at stepped
      split at stepped
      · rename_i running
        exact .inl ⟨call, rfl, running, by simpa using stepped.symm⟩
      · cases stepped
  | advance o fault =>
      obtain ⟨op, act, log, op', here, moved, same⟩ := step_advance sha256 state next o fault stepped
      exact .inr (.inl ⟨o, fault, op, act, log, op', rfl, here, op_next_move _ _ _ _ _ _ _ moved, same⟩)
  | crash =>
      simp only [step] at stepped
      split at stepped
      · rename_i running
        exact .inr (.inr (.inl ⟨rfl, running, by simpa using stepped.symm⟩))
      · cases stepped
  | start =>
      simp only [step] at stepped
      split at stepped
      · cases stepped
      · rename_i stopped
        split at stepped
        · cases stepped
        · rename_i store loaded
          exact .inr (.inr (.inr ⟨store, rfl, by simpa using stopped, loaded, by simpa using stepped.symm⟩))

-- The smallest session, for runs on concrete inputs: one file offered by a
-- trusted or an untrusted peer. The digest of the empty file is the real one.
def emptyDigest : String := "e3b0c44298fc1c149afbf4c8996fb92427ae41e4649b934ca495991b7852b855"

def emptyHash (bytes : Bytes) : String := if bytes = [] then emptyDigest else ""

def smallId : String := "00000000-0000-4000-8000-000000000001"

def smallFile : TransferFile := ⟨"a", 0, none, "00000000-0000-4000-8000-0000000000f1", none⟩

def smallManifest : TransferManifest :=
  ⟨⟨smallId, none, [smallFile], 0⟩, (∅ : HashMap String String).insert smallFile.id emptyDigest⟩

def smallPeer : Peer := ⟨"10.0.0.2", none⟩

def smallRegister (trusted : Bool) : RegisterRequest := ⟨smallPeer, smallManifest, false, trusted, "t", 0⟩

def smallUpload : UploadRequest := ⟨smallPeer, smallId, smallFile.id, 0, "t", [], .finished⟩

def advances (o count : Nat) : List Label := List.replicate count (.advance o none)

def emptyState : State := ⟨.empty ⟨∅, []⟩, [], [], false⟩

theorem empty_initial : Initial emptyState := by
  refine ⟨rfl, rfl, rfl, rfl, ?_, fun _ _ => rfl, fun _ => rfl⟩
  intro path inode found
  cases found

end GoshTransfer
