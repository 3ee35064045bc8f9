import GoshTransfer.Names
import GoshTransfer.Lib.InodeStore

set_option autoImplicit false

namespace GoshTransfer

open InodeStore

structure Record where
  manifest : TransferManifest
  pending : PendingTransfer
  owner : String
  token : String
  decision : TransferDecision
  cancelled : Bool
  complete : Bool
  published : HashMap String Path
  targets : HashMap String Path

-- A journal is written by save_json with an atomic rename and holds the record
-- it was written from; serde_json decodes what it encoded.
abbrev ReceiverDisk := Disk Path Record

-- The lock of the record mutex names the operation that holds it. The root is
-- fixed while the listener runs and is left out.
structure Session where
  id : String
  owner : String
  finished : Bool
  record : Record
  cancel : Bool
  lock : Option Nat

-- Arc<Session> is an index into the heap, so that an operation can keep a
-- session that has left the map.
structure Store where
  disk : ReceiverDisk
  heap : List Session
  sessions : AList (fun _ : String => Nat)
  registration : Option Nat

def Session.new (record : Record) : Session :=
  ⟨record.pending.id, record.owner, record.complete, record, record.cancelled, none⟩

def Store.update (store : Store) (s : Nat) (change : Session → Session) : Store :=
  { store with heap := store.heap.modify s change }

-- The atomic effects of the operations. Each operation is cut into steps with
-- at most one of them.
inductive Act where
  | tau
  | acquire (s : Nat)
  | release (s : Nat)
  | enroll
  | retire
  | trip (s : Nat)
  | finish (s : Nat)
  | assign (s : Nat) (record : Record)
  | persist (s : Nat) (record : Record) (saved : Bool)
  | openPart (path : Path)
  | append (inode : Nat) (bytes : Bytes)
  | remove (path : Path)
  | mkdirs (paths : List Path)
  | link (inode : Nat) (path : Path)
  | journal (record : Record) (saved : Bool)
  | insert (record : Record)
  | evict (id : String)

def Store.save (store : Store) (record : Record) (saved : Bool) : Store :=
  if saved then { store with disk := store.disk.save (journalPath record.pending.id) record } else store

def Store.apply (store : Store) (op : Nat) : Act → Store
  | .tau => store
  | .acquire s => store.update s fun session => { session with lock := some op }
  | .release s => store.update s fun session => { session with lock := none }
  | .enroll => { store with registration := some op }
  | .retire => { store with registration := none }
  | .trip s => store.update s fun session => { session with cancel := true }
  | .finish s => store.update s fun session => { session with finished := session.record.complete }
  | .assign s record => store.update s fun session => { session with record := record }
  | .persist s record saved =>
      (store.update s fun session => { session with record := record }).save record saved
  | .openPart path => { store with disk := store.disk.create path }
  | .append inode bytes => { store with disk := store.disk.append inode bytes }
  | .remove path => { store with disk := store.disk.remove path }
  | .mkdirs paths => { store with disk := paths.foldl Disk.mkdir store.disk }
  | .link inode path => { store with disk := store.disk.link inode path }
  | .journal record saved => store.save record saved
  | .insert record =>
      { store with
        heap := store.heap ++ [Session.new record]
        sessions := store.sessions.insert record.pending.id store.heap.length }
  | .evict id => { store with sessions := store.sessions.erase id }

-- What operations report: events and history records with the session they are
-- about, and, for the proofs only, every destination entry that is created.
inductive Entry where
  | event (session : Nat) (event : EngineEvent)
  | history (session : Nat) (record : HistoryRecord)
  | linked (id file : String) (target : Path)
deriving DecidableEq

-- metadata().len() of the partial, under the rules of checkpoints. A read fault
-- makes the first metadata call fail.
def partialLength (disk : ReceiverDisk) (path : Path) (fault : Option Fault) : Except EngineError Nat :=
  if fault = some .read then .error (.io .read)
  else
    match disk.node path with
    | none => .ok 0
    | some (.file inode) => .ok ((disk.inodes[inode]?).getD []).length
    | some _ => .error (.fileIo "Unsafe partial file")

def checkpoint (disk : ReceiverDisk) (id : String) (record : Record) (fault : Option Fault)
    (file : TransferFile) :
    Except EngineError FileCheckpoint :=
  let complete := (record.published.lookup file.id).isSome
  match (if complete then .ok file.size else partialLength disk (partPath id file.id) fault) with
  | .error e => .error e
  | .ok offset =>
      if offset > file.size then .error (.fileIo "Partial file exceeds declared size")
      else .ok ⟨file.id, offset, complete⟩

def checkpointsFrom (disk : ReceiverDisk) (id : String) (record : Record) (fault : Option Fault) :
    List TransferFile → Except EngineError (List FileCheckpoint)
  | [] => .ok []
  | file :: rest =>
      match checkpoint disk id record fault file with
      | .error e => .error e
      | .ok point =>
          match checkpointsFrom disk id record fault rest with
          | .error e => .error e
          | .ok points => .ok (point :: points)

def checkpoints (disk : ReceiverDisk) (id : String) (record : Record) (fault : Option Fault) :
    Except EngineError (List FileCheckpoint) :=
  checkpointsFrom disk id record fault record.manifest.request.files

def offsetSum (points : List FileCheckpoint) : Nat := (points.map FileCheckpoint.offset).sum

def snapshot (disk : ReceiverDisk) (id : String) (record : Record) (fault : Option Fault) :
    Except EngineError ResumeStatus :=
  match checkpoints disk id record fault with
  | .error e => .error e
  | .ok files => .ok {
      status := record.decision
      token := if record.decision = .accepted && !record.cancelled then some record.token else none
      cancelled := record.cancelled
      complete := record.complete
      files := files }

def snapshotResponse (result : Except EngineError ResumeStatus) : Response :=
  match result with
  | .ok status => ⟨200, .status status⟩
  | .error e => errorResponse e

theorem snapshot_response_status (disk : ReceiverDisk) (id : String) (record : Record)
    (fault : Option Fault) (code : Nat) (status : ResumeStatus)
    (answer : snapshotResponse (snapshot disk id record fault) = ⟨code, .status status⟩) :
    code = 200 ∧ snapshot disk id record fault = .ok status := by
  cases taken : snapshot disk id record fault with
  | error e =>
      rw [taken] at answer
      cases e <;> cases answer
  | ok status' =>
      rw [taken] at answer
      cases answer
      exact ⟨rfl, rfl⟩

theorem snapshot_fields (disk : ReceiverDisk) (id : String) (record : Record) (fault : Option Fault)
    (status : ResumeStatus) (taken : snapshot disk id record fault = .ok status) :
    status.status = record.decision ∧ status.cancelled = record.cancelled ∧
      status.complete = record.complete ∧
      checkpoints disk id record fault = .ok status.files := by
  unfold snapshot at taken
  split at taken
  · cases taken
  · rename_i files read
    cases taken
    exact ⟨rfl, rfl, rfl, read⟩

theorem partial_length_same (before after : ReceiverDisk) (path : Path) (fault : Option Fault)
    (node : after.node path = before.node path) (bytes : after.read path = before.read path) :
    partialLength after path fault = partialLength before path fault := by
  unfold partialLength
  unfold Disk.read at bytes
  rw [node] at bytes ⊢
  split
  · rfl
  · split
    · rfl
    · rename_i inode found
      rw [found] at bytes
      rw [show after.inodes[inode]? = before.inodes[inode]? from bytes]
    · rfl

theorem checkpoints_lengths (before after : ReceiverDisk) (id : String) (record : Record)
    (fault : Option Fault)
    (same : ∀ file, partialLength after (partPath id file) fault = partialLength before
      (partPath id file) fault) :
    checkpoints after id record fault = checkpoints before id record fault := by
  have each : ∀ file, checkpoint after id record fault file = checkpoint before id record fault file := by
    intro file
    unfold checkpoint
    rw [same file.id]
  unfold checkpoints
  induction record.manifest.request.files with
  | nil => rfl
  | cons file rest ih => simp only [checkpointsFrom, each, ih]

theorem checkpoints_same (before after : ReceiverDisk) (id : String) (record : Record) (fault : Option Fault)
    (same : ∀ file, after.node (partPath id file) = before.node (partPath id file) ∧
      after.read (partPath id file) = before.read (partPath id file)) :
    checkpoints after id record fault = checkpoints before id record fault :=
  checkpoints_lengths before after id record fault fun file =>
    partial_length_same before after (partPath id file) fault (same file).1 (same file).2

-- The three outcomes that make a session forgettable.
def Record.terminal (record : Record) : Bool :=
  record.complete || record.cancelled || record.decision = .rejected

-- What register fixes and no operation changes.
def Record.SameIdentity (a b : Record) : Prop :=
  a.manifest = b.manifest ∧ a.pending = b.pending ∧ a.owner = b.owner ∧ a.token = b.token

end GoshTransfer
