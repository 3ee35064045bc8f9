import GoshTransfer.Upload

set_option autoImplicit false

namespace GoshTransfer

open InodeStore

def UploadPhase.holds : UploadPhase → Option Nat
  | .lookup | .lock _ | .done _ => none
  | .entry s | .check s _ | .openPart s _ _ _ | .receive s _ _ | .interrupted s | .syncAll s _ | .hash s _
  | .recheck s _ | .prepare s _ | .choose s _ _ | .link s _ _ _ | .verify s _ _ _ | .syncParent s _ _
  | .commit s _ _ | .finish s _ | .discard s _ | .announce s _ | .leave s _ => some s

-- The phases that can end the request with an error and leave everything as it is.
def UploadPhase.fallible : UploadPhase → Bool
  | .entry _ | .check _ _ | .openPart _ _ _ _ | .receive _ _ _ | .interrupted _ | .syncAll _ _ | .hash _ _ |
      .prepare _ _ | .choose _ _ _
  | .link _ _ _ _ | .syncParent _ _ _ => true
  | _ => false

def opened (file : TransferFile) (fd baseline current : Nat) : Incoming :=
    ⟨file, fd, baseline, current, current, current, none⟩

def grown (s : Nat) (request : UploadRequest) (record : Record) (x : Incoming) (chunk : Bytes) : Incoming :=
  let y := { x with offset := x.offset + chunk.length }
  { y with last := if (progressLog s request record y).isEmpty then x.last else y.offset }

def grownLog (s : Nat) (request : UploadRequest) (record : Record) (x : Incoming) (chunk : Bytes) :
    List Entry :=
  progressLog s request record { x with offset := x.offset + chunk.length }

-- The same after a write that failed behind write_all's back.
def spoiled (s : Nat) (request : UploadRequest) (record : Record) (x : Incoming) (chunk : Bytes)
    (written : Nat) : Incoming :=
  { grown s request record x chunk with lastWriteErr := some written }

-- A file of this length is short of the offset exactly while a failure is unreported.
def Incoming.Filled (x : Incoming) (length : Nat) : Prop := length ≤ x.offset ∧
    (length = x.offset ↔ x.lastWriteErr = none)

theorem filled_opened (file : TransferFile) (fd baseline current : Nat) :
    (opened file fd baseline current).Filled current :=
  ⟨le_rfl, iff_of_true rfl rfl⟩

theorem filled_grown (s : Nat) (request : UploadRequest) (record : Record) (x : Incoming) (chunk : Bytes)
    (length : Nat) (filled : x.Filled length) :
    (grown s request record x chunk).Filled (length + chunk.length) := by
  obtain ⟨bound, exact_⟩ := filled
  refine ⟨Nat.add_le_add_right bound _, ?_⟩
  show length + chunk.length = x.offset + chunk.length ↔ x.lastWriteErr = none
  rw [← exact_]
  omega

theorem filled_spoiled (s : Nat) (request : UploadRequest) (record : Record) (x : Incoming) (chunk : Bytes)
    (written length : Nat) (filled : x.Filled length) (short : written < chunk.length) :
    (spoiled s request record x chunk written).Filled (length + (chunk.take written).length) := by
  have size : (chunk.take written).length = written := List.length_take_of_le (by omega)
  have bound := filled.1
  have less : length + written < x.offset + chunk.length := by omega
  rw [size]
  refine ⟨less.le, iff_of_false less.ne ?_⟩
  simp [spoiled]

def chosenRecord (record : Record) (file : TransferFile) (index : Nat) : Record :=
  { record with targets := record.targets.insert file.id (targetOf record file index) }

def droppedRecord (record : Record) (file : TransferFile) : Record :=
  { record with targets := record.targets.erase file.id }

-- Everything one step of upload can do, with the guards that led to it. The
-- refusals that change nothing and answer none of the codes 200, 410, 413 and
-- 422 share one constructor.
inductive UploadMove (sha256 : Bytes → String) (request : UploadRequest) (store : Store)
    (fault : Option Fault) :
    UploadPhase → Act → List Entry → UploadPhase → Prop where
  | missing (absent : store.sessions.lookup request.transferId = none) :
      UploadMove sha256 request store fault .lookup .tau []
      (.done (errorResponse (.transferNotFound request.transferId)))
  | found (s : Nat) (present : store.sessions.lookup request.transferId = some s) :
      UploadMove sha256 request store fault .lookup .tau [] (.lock s)
  | locked (s : Nat) (session : Session) (here : store.heap[s]? = some session) (free : session.lock = none) :
      UploadMove sha256 request store fault (.lock s) (.acquire s) [] (.entry s)
  | refuse (s : Nat) (phase : UploadPhase) (reply : Response) (held : phase.holds = some s)
      (fallible : phase.fallible = true)
      (code : reply.code ≠ 200 ∧ reply.code ≠ 410 ∧ reply.code ≠ 413 ∧ reply.code ≠ 422) :
      UploadMove sha256 request store fault phase .tau [] (.leave s reply)
  | gone (s : Nat) (session : Session) (here : store.heap[s]? = some session)
      (stopped : session.record.cancelled = true ∨ session.cancel = true) :
      UploadMove sha256 request store fault (.entry s) .tau [] (.leave s (.plain 410))
  | already (s : Nat) (session : Session) (file : TransferFile) (here : store.heap[s]? = some session)
      (live : session.record.cancelled = false ∧ session.cancel = false)
      (member : file ∈ session.record.manifest.request.files) (named : file.id = request.fileId)
      (receipt : (session.record.published.lookup file.id).isSome = true) :
      UploadMove sha256 request store fault (.entry s) .tau [] (.leave s (.plain 200))
  | admitted (s : Nat) (session : Session) (file : TransferFile) (here : store.heap[s]? = some session)
      (owned : session.record.owner = owner request.peer)
      (live : session.record.cancelled = false ∧ session.cancel = false)
      (accepted : session.record.decision = .accepted) (capability : request.token = session.record.token)
      (member : file ∈ session.record.manifest.request.files) (named : file.id = request.fileId)
      (missing : session.record.published.lookup file.id = none) :
      UploadMove sha256 request store fault (.entry s) .tau [] (.check s file)
  | checked (s : Nat) (session : Session) (file : TransferFile) (points : List FileCheckpoint)
      (point : FileCheckpoint) (here : store.heap[s]? = some session)
      (read : checkpoints store.disk session.id session.record fault = .ok points)
      (found : points.find? (·.fileId == file.id) = some point) (offset : request.offset = point.offset) :
      UploadMove sha256 request store fault (.check s file) .tau []
      (.openPart s file (offsetSum points) point.offset)
  | created (s : Nat) (session : Session) (file : TransferFile) (baseline current : Nat)
      (here : store.heap[s]? = some session) (absent : store.disk.node (partPath session.id file.id) = none) :
      UploadMove sha256 request store fault (.openPart s file baseline current)
      (.openPart (partPath session.id file.id)) []
        (.receive s (opened file store.disk.inodes.length baseline current) request.chunks)
  | reopened (s : Nat) (session : Session) (file : TransferFile) (baseline current inode : Nat)
      (here : store.heap[s]? = some session)
      (present : store.disk.node (partPath session.id file.id) = some (.file inode)) :
      UploadMove sha256 request store fault (.openPart s file baseline current) .tau []
        (.receive s (opened file inode baseline current) request.chunks)
  | stopped (s : Nat) (session : Session) (x : Incoming) (chunks : List Bytes)
      (here : store.heap[s]? = some session) (tripped : session.cancel = true) :
      UploadMove sha256 request store fault (.receive s x chunks)
      (removeAct (partPath session.id x.file.id) fault) []
        (.leave s (.plain 410))
  | tooLarge (s : Nat) (session : Session) (x : Incoming) (chunk : Bytes) (rest : List Bytes)
      (here : store.heap[s]? = some session) (excess : x.file.size - x.offset < chunk.length) :
      UploadMove sha256 request store fault (.receive s x (chunk :: rest))
      (removeAct (partPath session.id x.file.id) fault) []
        (.leave s (.plain 413))
  | appended (s : Nat) (session : Session) (x : Incoming) (chunk : Bytes) (rest : List Bytes)
      (here : store.heap[s]? = some session) (fits : chunk.length ≤ x.file.size - x.offset)
      (clear : x.lastWriteErr = none ∨ chunk = []) :
      UploadMove sha256 request store fault (.receive s x (chunk :: rest)) (.append x.fd chunk)
        (grownLog s request session.record x chunk) (.receive s (grown s request session.record x chunk) rest)
  | unseen (s : Nat) (session : Session) (x : Incoming) (chunk : Bytes) (rest : List Bytes) (written : Nat)
      (here : store.heap[s]? = some session) (fits : chunk.length ≤ x.file.size - x.offset)
      (clear : x.lastWriteErr = none) (short : written < chunk.length)
      (failed : fault = some (.write written))
      (last : unseen chunk written = true) :
      UploadMove sha256 request store fault (.receive s x (chunk :: rest)) (.append x.fd (chunk.take written))
        (grownLog s request session.record x chunk)
        (.receive s (spoiled s request session.record x chunk written) rest)
  | torn (s : Nat) (x : Incoming) (chunk : Bytes) (rest : List Bytes) (written : Nat)
      (fits : chunk.length ≤ x.file.size - x.offset) (clear : x.lastWriteErr = none)
      (short : written < chunk.length) :
      UploadMove sha256 request store fault (.receive s x (chunk :: rest))
      (.append x.fd (chunk.take written)) []
        (.leave s (errorResponse (.io (.write written))))
  | bodyEnd (s : Nat) (x : Incoming) :
      UploadMove sha256 request store fault (.receive s x []) .tau [] (.syncAll s x)
  | bodyBroken (s : Nat) (x : Incoming) :
      UploadMove sha256 request store fault (.receive s x []) .tau [] (.interrupted s)
  | synced (s : Nat) (x : Incoming) (full : x.offset = x.file.size) :
      UploadMove sha256 request store fault (.syncAll s x) .tau [] (.hash s x)
  | hashed (s : Nat) (session : Session) (x : Incoming) (bytes : Bytes) (here : store.heap[s]? = some session)
      (read : store.disk.read (partPath session.id x.file.id) = some bytes)
      (matching : verified sha256 session.record x.file bytes = true) :
      UploadMove sha256 request store fault (.hash s x) .tau [] (.recheck s x)
  | mismatch (s : Nat) (session : Session) (x : Incoming) (bytes : Bytes)
      (here : store.heap[s]? = some session) (read : store.disk.read (partPath session.id x.file.id) =
      some bytes)
      (different : verified sha256 session.record x.file bytes = false) :
      UploadMove sha256 request store fault (.hash s x) (removeAct (partPath session.id x.file.id) fault)
        [.event s (.transferFailed request.transferId "SHA-256 checksum mismatch; file discarded")]
        (.leave s (.plain 422))
  | stoppedLate (s : Nat) (session : Session) (x : Incoming) (here : store.heap[s]? = some session)
      (tripped : session.cancel = true) :
      UploadMove sha256 request store fault (.recheck s x) (removeAct (partPath session.id x.file.id) fault)
      []
        (.leave s (.plain 410))
  | rechecked (s : Nat) (session : Session) (x : Incoming) (here : store.heap[s]? = some session)
      (running : session.cancel = false) :
      UploadMove sha256 request store fault (.recheck s x) .tau [] (.prepare s x)
  | prepared (s : Nat) (x : Incoming)
      (allowed : reservedTarget ((receiveTarget x.file).1 ++ [(receiveTarget x.file).2]) = false) :
      UploadMove sha256 request store fault (.prepare s x) (.mkdirs (parentDirs (receiveTarget x.file).1))
      [] (.choose s x 0)
  | unprepared (s : Nat) (x : Incoming) (created : Nat)
      (allowed : reservedTarget ((receiveTarget x.file).1 ++ [(receiveTarget x.file).2]) = false) :
      UploadMove sha256 request store fault (.prepare s x)
      (.mkdirs (parentDirs ((receiveTarget x.file).1.take created))) []
        (.leave s (errorResponse (.io (.createDir created))))
  | chosen (s : Nat) (session : Session) (x : Incoming) (index : Nat) (here : store.heap[s]? = some session)
      (bounded : index < publishLimit) (ok : fault = none) :
      UploadMove sha256 request store fault (.choose s x index)
      (.persist s (chosenRecord session.record x.file index) true) []
        (.link s x index (targetOf session.record x.file index))
  | unchosen (s : Nat) (session : Session) (x : Incoming) (index : Nat) (saved : Bool)
      (here : store.heap[s]? = some session) (failed : fault = some (.persist saved)) :
      UploadMove sha256 request store fault (.choose s x index)
      (.persist s (chosenRecord session.record x.file index) saved) []
        (.leave s (errorResponse (.io (.persist saved))))
  | linked (s : Nat) (session : Session) (x : Incoming) (index : Nat) (target : Path) (inode : Nat)
      (here : store.heap[s]? = some session)
      (source : store.disk.node (partPath session.id x.file.id) = some (.file inode))
      (free : store.disk.node target = none) :
      UploadMove sha256 request store fault (.link s x index target) (.link inode target)
        [.linked session.id x.file.id target] (.syncParent s x target)
  | taken (s : Nat) (session : Session) (x : Incoming) (index : Nat) (target : Path) (inode : Nat)
      (node : Node Record) (here : store.heap[s]? = some session)
      (source : store.disk.node (partPath session.id x.file.id) = some (.file inode))
      (present : store.disk.node target = some node) :
      UploadMove sha256 request store fault (.link s x index target) .tau [] (.verify s x index target)
  | adopted (s : Nat) (session : Session) (x : Incoming) (index : Nat) (target : Path) (bytes : Bytes)
      (here : store.heap[s]? = some session) (read : store.disk.read target = some bytes)
      (matching : verified sha256 session.record x.file bytes = true) :
      UploadMove sha256 request store fault (.verify s x index target) .tau [] (.syncParent s x target)
  | conflict (s : Nat) (session : Session) (x : Incoming) (index : Nat) (target : Path)
      (here : store.heap[s]? = some session) (different : fault = some .read ∨
        (store.disk.read target).map (verified sha256 session.record x.file) ≠ some true) :
      UploadMove sha256 request store fault (.verify s x index target)
        (.assign s (droppedRecord session.record x.file)) [] (.choose s x (index + 1))
  | parentSynced (s : Nat) (x : Incoming) (target : Path) :
      UploadMove sha256 request store fault (.syncParent s x target) .tau [] (.commit s x target)
  | committed (s : Nat) (session : Session) (x : Incoming) (target : Path)
      (here : store.heap[s]? = some session) (ok : fault = none) :
      UploadMove sha256 request store fault (.commit s x target)
      (.persist s (receiptRecord session.record x.file target) true) []
        (.finish s x)
  | uncommitted (s : Nat) (session : Session) (x : Incoming) (target : Path) (saved : Bool)
      (here : store.heap[s]? = some session) (failed : fault = some (.persist saved)) :
      UploadMove sha256 request store fault (.commit s x target)
      (.persist s (receiptRecord session.record x.file target) saved) []
        (.leave s (errorResponse (.io (.persist saved))))
  | finished (s : Nat) (x : Incoming) :
      UploadMove sha256 request store fault (.finish s x) (.finish s) [] (.discard s x)
  | discarded (s : Nat) (session : Session) (x : Incoming) (here : store.heap[s]? = some session) :
      UploadMove sha256 request store fault (.discard s x) (removeAct (partPath session.id x.file.id) fault)
      [] (.announce s x)
  | announced (s : Nat) (session : Session) (x : Incoming) (here : store.heap[s]? = some session) :
      UploadMove sha256 request store fault (.announce s x) .tau (completionLog s request session.record x)
      (.leave s (.plain 200))
  | left (s : Nat) (reply : Response) :
      UploadMove sha256 request store fault (.leave s reply) (.release s) [] (.done reply)

theorem partial_length_error (disk : ReceiverDisk) (path : Path) (fault : Option Fault) (e : EngineError)
    (failed : partialLength disk path fault = .error e) : (errorResponse e).code = 500 := by
  unfold partialLength at failed
  split at failed
  · cases failed
    rfl
  · split at failed
    · cases failed
    · cases failed
    · cases failed
      rfl

theorem checkpoint_error (disk : ReceiverDisk) (id : String) (record : Record) (fault : Option Fault)
    (file : TransferFile) (e : EngineError) (failed : checkpoint disk id record fault file = .error e) :
    (errorResponse e).code = 500 := by
  unfold checkpoint at failed
  dsimp only at failed
  split at failed
  · rename_i measured
    cases failed
    split at measured
    · cases measured
    · exact partial_length_error disk _ fault _ measured
  · split at failed
    · cases failed
      rfl
    · cases failed

theorem checkpoints_error (disk : ReceiverDisk) (id : String) (record : Record) (fault : Option Fault)
    (e : EngineError) (failed : checkpoints disk id record fault = .error e) :
    (errorResponse e).code = 500 := by
  unfold checkpoints at failed
  generalize record.manifest.request.files = files at failed
  induction files with
  | nil => cases failed
  | cons file rest ih =>
      unfold checkpointsFrom at failed
      split at failed
      · rename_i first
        cases failed
        exact checkpoint_error disk id record fault file _ first
      · split at failed
        · rename_i later
          cases failed
          exact ih later
        · cases failed

section Inversion

variable (sha256 : Bytes → String) (request : UploadRequest) (store : Store) (fault : Option Fault)
variable (s : Nat) (session : Session) (here : store.heap[s]? = some session) (act : Act) (log : List Entry)
    (next : UploadPhase)
include here

theorem entry_step_move (moved : entryStep request fault s session = some (act, log, next)) :
    UploadMove sha256 request store fault (.entry s) act log next := by
  unfold entryStep at moved
  dsimp only at moved
  split at moved
  · obtain ⟨_, rfl, rfl, rfl⟩ := (plain_eq_some _ _ _ _ _ _ _).mp moved
    exact .refuse s _ _ rfl rfl (by decide)
  · rename_i owned
    split at moved
    · rename_i stopped
      obtain ⟨_, rfl, rfl, rfl⟩ := (plain_eq_some _ _ _ _ _ _ _).mp moved
      exact .gone s session here (by simpa using stopped)
    · rename_i live
      split at moved
      · obtain ⟨_, rfl, rfl, rfl⟩ := (plain_eq_some _ _ _ _ _ _ _).mp moved
        exact .refuse s _ _ rfl rfl (by decide)
      · rename_i granted
        have running : session.record.cancelled = false ∧ session.cancel = false := by simpa using live
        split at moved
        · obtain ⟨_, rfl, rfl, rfl⟩ := (plain_eq_some _ _ _ _ _ _ _).mp moved
          exact .refuse s _ _ rfl rfl (by decide)
        · rename_i file found
          have member := List.mem_of_find?_eq_some found
          have named : file.id = request.fileId := by simpa using List.find?_some found
          have rights : session.record.decision = .accepted ∧ request.token = session.record.token := by
            simpa [not_or] using granted
          split at moved
          · rename_i receipt
            obtain ⟨_, rfl, rfl, rfl⟩ := (plain_eq_some _ _ _ _ _ _ _).mp moved
            exact .already s session file here running member named receipt
          · rename_i missing
            obtain ⟨_, rfl, rfl, rfl⟩ := (plain_eq_some _ _ _ _ _ _ _).mp moved
            exact .admitted s session file here (by simpa using owned) running rights.1 rights.2 member
              named (by simpa using missing)

theorem check_step_move (file : TransferFile)
    (moved : checkStep request store fault s session file = some (act, log, next)) :
    UploadMove sha256 request store fault (.check s file) act log next := by
  unfold checkStep at moved
  split at moved
  · split at moved
    · rename_i e failed
      simp only [Option.some.injEq, Prod.mk.injEq] at moved
      obtain ⟨rfl, rfl, rfl⟩ := moved
      exact .refuse s _ _ rfl rfl (by simp [checkpoints_error _ _ _ _ e failed])
    · rename_i points read
      obtain ⟨point, found, decided⟩ := Option.bind_eq_some_iff.mp moved
      split at decided
      · simp only [Option.some.injEq, Prod.mk.injEq] at decided
        obtain ⟨rfl, rfl, rfl⟩ := decided
        exact .refuse s _ _ rfl rfl (by decide)
      · rename_i offset
        simp only [Option.some.injEq, Prod.mk.injEq] at decided
        obtain ⟨rfl, rfl, rfl⟩ := decided
        exact .checked s session file points point here read found (by simpa using offset)
  · cases moved

theorem open_step_move (file : TransferFile) (baseline current : Nat)
    (moved : openStep request store fault s session file baseline current = some (act, log, next)) :
    UploadMove sha256 request store fault (.openPart s file baseline current) act log next := by
  unfold openStep at moved
  dsimp only at moved
  split at moved
  · split at moved
    · rename_i absent
      simp only [Option.some.injEq, Prod.mk.injEq] at moved
      obtain ⟨rfl, rfl, rfl⟩ := moved
      exact .created s session file baseline current here absent
    · rename_i inode present
      simp only [Option.some.injEq, Prod.mk.injEq] at moved
      obtain ⟨rfl, rfl, rfl⟩ := moved
      exact .reopened s session file baseline current inode here present
    · simp only [Option.some.injEq, Prod.mk.injEq] at moved
      obtain ⟨rfl, rfl, rfl⟩ := moved
      exact .refuse s _ _ rfl rfl (by decide)
  · simp only [Option.some.injEq, Prod.mk.injEq] at moved
    obtain ⟨rfl, rfl, rfl⟩ := moved
    exact .refuse s _ _ rfl rfl (by decide)
  · cases moved

theorem write_step_move (x : Incoming) (chunk : Bytes) (rest : List Bytes)
    (fits : chunk.length ≤ x.file.size - x.offset) (clear : x.lastWriteErr = none ∨ chunk = [])
    (moved : writeStep request fault s session x chunk rest = some (act, log, next)) :
    UploadMove sha256 request store fault (.receive s x (chunk :: rest)) act log next := by
  unfold writeStep at moved
  dsimp only at moved
  split at moved
  · simp only [Option.some.injEq, Prod.mk.injEq] at moved
    obtain ⟨rfl, rfl, rfl⟩ := moved
    exact .appended s session x chunk rest here fits clear
  · rename_i written
    split at moved
    · cases moved
    · rename_i short
      have sound : x.lastWriteErr = none := by
        rcases clear with sound | rfl
        · exact sound
        · simp at short
      split at moved
      · rename_i last
        simp only [Option.some.injEq, Prod.mk.injEq] at moved
        obtain ⟨rfl, rfl, rfl⟩ := moved
        exact .unseen s session x chunk rest written here fits sound (by omega) rfl last
      · simp only [Option.some.injEq, Prod.mk.injEq] at moved
        obtain ⟨rfl, rfl, rfl⟩ := moved
        exact .torn s x chunk rest written fits sound (by omega)
  · cases moved

theorem receive_step_move (x : Incoming) (chunks : List Bytes)
    (moved : receiveStep request fault s session x chunks = some (act, log, next)) :
    UploadMove sha256 request store fault (.receive s x chunks) act log next := by
  unfold receiveStep at moved
  dsimp only at moved
  split at moved
  · rename_i tripped
    obtain ⟨_, rfl, rfl, rfl⟩ := remove_step_cases _ _ _ _ _ _ _ moved
    exact .stopped s session x chunks here tripped
  · cases chunks with
    | nil =>
        obtain ⟨_, rfl, rfl, rfl⟩ := (plain_eq_some _ _ _ _ _ _ _).mp moved
        split
        · exact .bodyEnd s x
        · exact .bodyBroken s x
    | cons chunk rest =>
        dsimp only at moved
        split at moved
        · rename_i excess
          obtain ⟨_, rfl, rfl, rfl⟩ := remove_step_cases _ _ _ _ _ _ _ moved
          exact .tooLarge s session x chunk rest here excess
        · rename_i fits
          have room : chunk.length ≤ x.file.size - x.offset := by omega
          have writes :=
            write_step_move sha256 request store fault s session here act log next x chunk rest room
          cases pending : x.lastWriteErr with
          | none =>
              simp only [pending] at moved
              exact writes (.inl pending) moved
          | some written =>
              cases chunk with
              | nil => exact writes (.inr rfl) (by simpa only [pending] using moved)
              | cons byte bytes =>
                  simp only [pending] at moved
                  obtain ⟨_, rfl, rfl, rfl⟩ := (plain_eq_some _ _ _ _ _ _ _).mp moved
                  exact .refuse s _ _ rfl rfl (by simp [errorResponse])

theorem hash_step_move (x : Incoming)
    (moved : hashStep sha256 request store fault s session x = some (act, log, next)) :
    UploadMove sha256 request store fault (.hash s x) act log next := by
  unfold hashStep at moved
  dsimp only at moved
  split at moved
  · simp only [Option.some.injEq, Prod.mk.injEq] at moved
    obtain ⟨rfl, rfl, rfl⟩ := moved
    exact .refuse s _ _ rfl rfl (by decide)
  · split at moved
    · obtain ⟨_, rfl, rfl, rfl⟩ := (plain_eq_some _ _ _ _ _ _ _).mp moved
      exact .refuse s _ _ rfl rfl (by decide)
    · rename_i bytes read
      split at moved
      · rename_i matching
        obtain ⟨_, rfl, rfl, rfl⟩ := (plain_eq_some _ _ _ _ _ _ _).mp moved
        exact .hashed s session x bytes here read matching
      · rename_i different
        obtain ⟨_, rfl, rfl, rfl⟩ := remove_step_cases _ _ _ _ _ _ _ moved
        exact .mismatch s session x bytes here read (by simpa using different)

theorem recheck_step_move (x : Incoming) (moved : recheckStep fault s session x = some (act, log, next)) :
    UploadMove sha256 request store fault (.recheck s x) act log next := by
  unfold recheckStep at moved
  split at moved
  · rename_i tripped
    obtain ⟨_, rfl, rfl, rfl⟩ := remove_step_cases _ _ _ _ _ _ _ moved
    exact .stoppedLate s session x here tripped
  · rename_i running
    obtain ⟨_, rfl, rfl, rfl⟩ := (plain_eq_some _ _ _ _ _ _ _).mp moved
    exact .rechecked s session x here (by simpa using running)

theorem choose_step_move (x : Incoming) (index : Nat)
    (moved : chooseStep fault s session x index = some (act, log, next)) :
    UploadMove sha256 request store fault (.choose s x index) act log next := by
  unfold chooseStep at moved
  dsimp only at moved
  split at moved
  · obtain ⟨_, rfl, rfl, rfl⟩ := (plain_eq_some _ _ _ _ _ _ _).mp moved
    exact .refuse s _ _ rfl rfl (by decide)
  · rename_i bounded
    obtain ⟨rfl, ⟨ok, rfl, rfl⟩ | ⟨saved, failed, rfl, rfl⟩⟩ := persist_step_cases _ _ _ _ _ _ _ _ moved
    · exact .chosen s session x index here (by omega) ok
    · exact .unchosen s session x index saved here failed

theorem link_step_move (x : Incoming) (index : Nat) (target : Path)
    (moved : linkStep store fault s session x index target = some (act, log, next)) :
    UploadMove sha256 request store fault (.link s x index target) act log next := by
  unfold linkStep at moved
  split at moved
  · split at moved
    · rename_i inode source
      split at moved
      · rename_i free
        simp only [Option.some.injEq, Prod.mk.injEq] at moved
        obtain ⟨rfl, rfl, rfl⟩ := moved
        exact .linked s session x index target inode here source free
      · rename_i node present
        simp only [Option.some.injEq, Prod.mk.injEq] at moved
        obtain ⟨rfl, rfl, rfl⟩ := moved
        exact .taken s session x index target inode node here source present
    · simp only [Option.some.injEq, Prod.mk.injEq] at moved
      obtain ⟨rfl, rfl, rfl⟩ := moved
      exact .refuse s _ _ rfl rfl (by decide)
  · simp only [Option.some.injEq, Prod.mk.injEq] at moved
    obtain ⟨rfl, rfl, rfl⟩ := moved
    exact .refuse s _ _ rfl rfl (by decide)
  · cases moved

theorem verify_step_move (x : Incoming) (index : Nat) (target : Path)
    (moved : verifyStep sha256 store fault s session x index target = some (act, log, next)) :
    UploadMove sha256 request store fault (.verify s x index target) act log next := by
  unfold verifyStep at moved
  dsimp only at moved
  split at moved
  · rename_i matching
    simp only [Option.some.injEq, Prod.mk.injEq] at moved
    obtain ⟨rfl, rfl, rfl⟩ := moved
    obtain ⟨bytes, read, same⟩ := Option.map_eq_some_iff.mp matching.2
    exact .adopted s session x index target bytes here read same
  · rename_i different
    split at moved
    · rename_i readable
      simp only [Option.some.injEq, Prod.mk.injEq] at moved
      obtain ⟨rfl, rfl, rfl⟩ := moved
      refine .conflict s session x index target here ?_
      rcases readable with ok | unread
      · exact .inr fun same => different ⟨ok, same⟩
      · exact .inl unread
    · cases moved

theorem commit_step_move (x : Incoming) (target : Path)
    (moved : commitStep fault s session x target = some (act, log, next)) :
    UploadMove sha256 request store fault (.commit s x target) act log next := by
  unfold commitStep at moved
  obtain ⟨rfl, ⟨ok, rfl, rfl⟩ | ⟨saved, failed, rfl, rfl⟩⟩ := persist_step_cases _ _ _ _ _ _ _ _ moved
  · exact .committed s session x target here ok
  · exact .uncommitted s session x target saved here failed

end Inversion

theorem prepare_step_move (sha256 : Bytes → String) (request : UploadRequest) (store : Store)
    (fault : Option Fault) (s : Nat) (x : Incoming) (act : Act) (log : List Entry) (next : UploadPhase)
    (moved : prepareStep store fault s x = some (act, log, next)) :
    UploadMove sha256 request store fault (.prepare s x) act log next := by
  unfold prepareStep at moved
  dsimp only at moved
  split at moved
  · obtain ⟨_, rfl, rfl, rfl⟩ := (plain_eq_some _ _ _ _ _ _ _).mp moved
    exact .refuse s _ _ rfl rfl (by decide)
  · rename_i allowed
    split at moved
    · split at moved
      · simp only [Option.some.injEq, Prod.mk.injEq] at moved
        obtain ⟨rfl, rfl, rfl⟩ := moved
        exact .prepared s x (by simpa using allowed)
      · simp only [Option.some.injEq, Prod.mk.injEq] at moved
        obtain ⟨rfl, rfl, rfl⟩ := moved
        exact .refuse s _ _ rfl rfl (by decide)
    · rename_i created
      split at moved
      · simp only [Option.some.injEq, Prod.mk.injEq] at moved
        obtain ⟨rfl, rfl, rfl⟩ := moved
        exact .unprepared s x created (by simpa using allowed)
      · cases moved
    · cases moved

theorem fault_refused (sha256 : Bytes → String) (request : UploadRequest) (store : Store)
    (fault : Option Fault) (s : Nat) (phase : UploadPhase) (held : phase.holds = some s)
    (fallible : phase.fallible = true) (failed : Fault) :
    UploadMove sha256 request store fault phase .tau [] (.leave s (errorResponse (.io failed))) :=
  .refuse s phase _ held fallible (by simp [errorResponse])

theorem interrupted_step_move (sha256 : Bytes → String) (request : UploadRequest) (store : Store)
    (fault : Option Fault) (s : Nat) (act : Act) (log : List Entry) (next : UploadPhase)
    (moved : interruptedStep request fault s = some (act, log, next)) :
    UploadMove sha256 request store fault (.interrupted s) act log next := by
  unfold interruptedStep at moved
  split at moved
  · simp only [Option.some.injEq, Prod.mk.injEq] at moved
    obtain ⟨rfl, rfl, rfl⟩ := moved
    refine .refuse s _ _ rfl rfl ?_
    dsimp only
    split <;> decide
  · simp only [Option.some.injEq, Prod.mk.injEq] at moved
    obtain ⟨rfl, rfl, rfl⟩ := moved
    exact fault_refused sha256 request store _ s _ rfl rfl .sync
  · cases moved

theorem sync_all_step_move (sha256 : Bytes → String) (request : UploadRequest) (store : Store)
    (fault : Option Fault) (s : Nat) (x : Incoming) (act : Act) (log : List Entry) (next : UploadPhase)
    (moved : syncAllStep fault s x = some (act, log, next)) :
    UploadMove sha256 request store fault (.syncAll s x) act log next := by
  unfold syncAllStep at moved
  split at moved
  · split at moved
    · simp only [Option.some.injEq, Prod.mk.injEq] at moved
      obtain ⟨rfl, rfl, rfl⟩ := moved
      exact .refuse s _ _ rfl rfl (by decide)
    · rename_i full
      simp only [Option.some.injEq, Prod.mk.injEq] at moved
      obtain ⟨rfl, rfl, rfl⟩ := moved
      exact .synced s x (by simpa using full)
  · simp only [Option.some.injEq, Prod.mk.injEq] at moved
    obtain ⟨rfl, rfl, rfl⟩ := moved
    exact fault_refused sha256 request store _ s _ rfl rfl .sync
  · cases moved

theorem sync_parent_step_move (sha256 : Bytes → String) (request : UploadRequest) (store : Store)
    (fault : Option Fault) (s : Nat) (x : Incoming) (target : Path) (act : Act) (log : List Entry)
    (next : UploadPhase) (moved : syncParentStep fault s x target = some (act, log, next)) :
    UploadMove sha256 request store fault (.syncParent s x target) act log next := by
  unfold syncParentStep at moved
  split at moved
  · simp only [Option.some.injEq, Prod.mk.injEq] at moved
    obtain ⟨rfl, rfl, rfl⟩ := moved
    exact .parentSynced s x target
  · simp only [Option.some.injEq, Prod.mk.injEq] at moved
    obtain ⟨rfl, rfl, rfl⟩ := moved
    exact fault_refused sha256 request store _ s _ rfl rfl .sync
  · cases moved

theorem upload_next_move (sha256 : Bytes → String) (request : UploadRequest) (store : Store)
    (fault : Option Fault) (phase : UploadPhase) (act : Act) (log : List Entry) (next : UploadPhase)
    (moved : phase.next sha256 request store fault = some (act, log, next)) :
    UploadMove sha256 request store fault phase act log next := by
  cases phase with
  | lookup =>
      obtain ⟨rfl, rfl, ⟨s, present, rfl⟩ | ⟨absent, rfl⟩⟩ := lookup_step_cases _ _ _ _ _ _ _ _ moved
      · exact .found s present
      · exact .missing absent
  | lock s =>
      obtain ⟨rfl, rfl, rfl, session, here, free⟩ := lock_step_cases _ _ _ _ _ _ _ moved
      exact .locked s session here free
  | entry s =>
      obtain ⟨session, here, stepped⟩ := Option.bind_eq_some_iff.mp moved
      exact entry_step_move sha256 request store fault s session here act log next stepped
  | check s file =>
      obtain ⟨session, here, stepped⟩ := Option.bind_eq_some_iff.mp moved
      exact check_step_move sha256 request store fault s session here act log next file stepped
  | openPart s file baseline current =>
      obtain ⟨session, here, stepped⟩ := Option.bind_eq_some_iff.mp moved
      exact open_step_move sha256 request store fault s session here act log next file baseline current
        stepped
  | receive s x chunks =>
      obtain ⟨session, here, stepped⟩ := Option.bind_eq_some_iff.mp moved
      exact receive_step_move sha256 request store fault s session here act log next x chunks stepped
  | interrupted s => exact interrupted_step_move sha256 request store fault s act log next moved
  | syncAll s x => exact sync_all_step_move sha256 request store fault s x act log next moved
  | hash s x =>
      obtain ⟨session, here, stepped⟩ := Option.bind_eq_some_iff.mp moved
      exact hash_step_move sha256 request store fault s session here act log next x stepped
  | recheck s x =>
      obtain ⟨session, here, stepped⟩ := Option.bind_eq_some_iff.mp moved
      exact recheck_step_move sha256 request store fault s session here act log next x stepped
  | prepare s x => exact prepare_step_move sha256 request store fault s x act log next moved
  | choose s x index =>
      obtain ⟨session, here, stepped⟩ := Option.bind_eq_some_iff.mp moved
      exact choose_step_move sha256 request store fault s session here act log next x index stepped
  | link s x index target =>
      obtain ⟨session, here, stepped⟩ := Option.bind_eq_some_iff.mp moved
      exact link_step_move sha256 request store fault s session here act log next x index target stepped
  | verify s x index target =>
      obtain ⟨session, here, stepped⟩ := Option.bind_eq_some_iff.mp moved
      exact verify_step_move sha256 request store fault s session here act log next x index target stepped
  | syncParent s x target =>
      exact sync_parent_step_move sha256 request store fault s x target act log next moved
  | commit s x target =>
      obtain ⟨session, here, stepped⟩ := Option.bind_eq_some_iff.mp moved
      exact commit_step_move sha256 request store fault s session here act log next x target stepped
  | finish s x =>
      obtain ⟨_, rfl, rfl, rfl⟩ := (plain_eq_some _ _ _ _ _ _ _).mp moved
      exact .finished s x
  | discard s x =>
      obtain ⟨session, here, stepped⟩ := Option.bind_eq_some_iff.mp moved
      obtain ⟨_, rfl, rfl, rfl⟩ := remove_step_cases _ _ _ _ _ _ _ stepped
      exact .discarded s session x here
  | announce s x =>
      obtain ⟨session, here, stepped⟩ := Option.bind_eq_some_iff.mp moved
      obtain ⟨_, rfl, rfl, rfl⟩ := (plain_eq_some _ _ _ _ _ _ _).mp stepped
      exact .announced s session x here
  | leave s reply =>
      obtain ⟨_, rfl, rfl, rfl⟩ := (plain_eq_some _ _ _ _ _ _ _).mp moved
      exact .left s reply
  | done reply => cases moved

end GoshTransfer
