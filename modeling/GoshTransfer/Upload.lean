import GoshTransfer.Decisions

set_option autoImplicit false

namespace GoshTransfer

open InodeStore

-- How the request body ends after its last chunk: the stream is exhausted, the
-- transport fails, or nothing arrives for 120 seconds.
inductive BodyEnd where
  | finished
  | failed
  | timedOut
deriving DecidableEq, Repr

-- token is the X-Transfer-Token header, empty when it is missing or unreadable.
structure UploadRequest where
  peer : Peer
  transferId : String
  fileId : String
  offset : Nat
  token : String
  chunks : List Bytes
  ending : BodyEnd

-- The local variables of the receive loop; fd is the inode behind the handle
-- that was opened in append mode, and lastWriteErr the failure that the handle
-- has not reported yet, with the number of bytes that reached the file.
structure Incoming where
  file : TransferFile
  fd : Nat
  baseline : Nat
  current : Nat
  offset : Nat
  last : Nat
  lastWriteErr : Option Nat
deriving DecidableEq, Repr

-- The handle takes a part of this size, answers at once and writes it behind the
-- caller's back; it reports a failure when it is given the next part.
def maxBufSize : Nat := 2097152

-- The failure of the last part of a chunk, which write_all does not see.
def unseen (chunk : Bytes) (written : Nat) : Bool := chunk.length ≤ (written / maxBufSize + 1) * maxBufSize

inductive UploadPhase where
  | lookup
  | lock (s : Nat)
  | entry (s : Nat)
  | check (s : Nat) (file : TransferFile)
  | openPart (s : Nat) (file : TransferFile) (baseline current : Nat)
  | receive (s : Nat) (x : Incoming) (chunks : List Bytes)
  | interrupted (s : Nat)
  | syncAll (s : Nat) (x : Incoming)
  | hash (s : Nat) (x : Incoming)
  | recheck (s : Nat) (x : Incoming)
  | prepare (s : Nat) (x : Incoming)
  | choose (s : Nat) (x : Incoming) (index : Nat)
  | link (s : Nat) (x : Incoming) (index : Nat) (target : Path)
  | verify (s : Nat) (x : Incoming) (index : Nat) (target : Path)
  | syncParent (s : Nat) (x : Incoming) (target : Path)
  | commit (s : Nat) (x : Incoming) (target : Path)
  | finish (s : Nat) (x : Incoming)
  | discard (s : Nat) (x : Incoming)
  | announce (s : Nat) (x : Incoming)
  | leave (s : Nat) (reply : Response)
  | done (reply : Response)

def progressEvent (request : UploadRequest) (record : Record) (x : Incoming) : EngineEvent :=
  .transferProgress ⟨request.transferId, some x.file.name, x.baseline + x.offset - x.current,
    record.pending.totalSize⟩

def progressLog (s : Nat) (request : UploadRequest) (record : Record) (x : Incoming) : List Entry :=
  if x.offset - x.last ≥ 32768 || x.offset == x.file.size then [.event s (progressEvent request record x)]
    else []

-- The file is verified when it has the declared size and the manifest's digest.
def verified (sha256 : Bytes → String) (record : Record) (file : TransferFile) (bytes : Bytes) : Bool :=
  record.manifest.sha256.lookup file.id == some (sha256 bytes) && bytes.length == file.size

-- The directories of create_receive_parent, outermost first.
def parentDirs (parent : Path) : List Path := parent.inits.drop 1

-- The walk stops at a component that exists and is not a plain directory.
def safeParent (disk : ReceiverDisk) (parent : Path) : Bool :=
  (parentDirs parent).all fun dir =>
    match disk.node dir with
    | none | some .dir => true
    | some _ => false

def receiptRecord (record : Record) (file : TransferFile) (target : Path) : Record :=
  let published := record.published.insert file.id target
  { record with
    published := published
    complete := published.keys.card == record.manifest.request.files.length }

def publishLimit : Nat := 1000

def targetOf (record : Record) (file : TransferFile) (index : Nat) : Path :=
  (record.targets.lookup file.id).getD (candidatePath file index)

def completionLog (s : Nat) (request : UploadRequest) (record : Record) (x : Incoming) : List Entry :=
  .event s (progressEvent request record x) ::
    if record.complete then
      [.history s ⟨record.pending, .completed, record.pending.totalSize, none⟩,
        .event s (.transferComplete request.transferId)]
    else []

section Upload

variable (sha256 : Bytes → String) (request : UploadRequest) (store : Store) (fault : Option Fault)

def withSession (s : Nat) (body : Session → Option (Move UploadPhase)) : Option (Move UploadPhase) :=
  (store.heap[s]?).bind body

-- Owner, cancellation, capability, file and receipt, in this order.
def entryStep (s : Nat) (session : Session) : Option (Move UploadPhase) :=
  let r := session.record
  if r.owner ≠ owner request.peer then plain fault .tau [] (.leave s (.plain 404))
  else if r.cancelled || session.cancel then plain fault .tau [] (.leave s (.plain 410))
  else if r.decision ≠ .accepted ∨ request.token ≠ r.token then plain fault .tau [] (.leave s (.plain 401))
  else
    match r.manifest.request.files.find? (·.id == request.fileId) with
    | none => plain fault .tau [] (.leave s (.plain 404))
    | some file =>
        if (r.published.lookup file.id).isSome then plain fault .tau [] (.leave s (.plain 200))
        else plain fault .tau [] (.check s file)

-- An absent checkpoint would be the panic of unwrap.
def checkStep (s : Nat) (session : Session) (file : TransferFile) : Option (Move UploadPhase) :=
  if fault = none ∨ fault = some .read then
    match checkpoints store.disk session.id session.record fault with
    | .error e => some (.tau, [], .leave s (errorResponse e))
    | .ok points =>
        (points.find? (·.fileId == file.id)).bind fun point =>
          if request.offset ≠ point.offset then
            some (.tau, [], .leave s ⟨409, .text "Offset changed; query status"⟩)
          else some (.tau, [], .openPart s file (offsetSum points) point.offset)
  else none

def openStep (s : Nat) (session : Session) (file : TransferFile) (baseline current : Nat) : Option
    (Move UploadPhase) :=
  let path := partPath session.id file.id
  let start (fd : Nat) : UploadPhase :=
    .receive s ⟨file, fd, baseline, current, current, current, none⟩ request.chunks
  match fault with
  | none =>
      match store.disk.node path with
      | none => some (.openPart path, [], start store.disk.inodes.length)
      | some (.file inode) => some (.tau, [], start inode)
      | some _ => some (.tau, [], .leave s (errorResponse (.io .openFile)))
  | some .openFile => some (.tau, [], .leave s (errorResponse (.io .openFile)))
  | some _ => none

-- write_all by a handle without a pending failure, and what follows it.
def writeStep (s : Nat) (session : Session) (x : Incoming) (chunk : Bytes) (rest : List Bytes) : Option
    (Move UploadPhase) :=
  let y := { x with offset := x.offset + chunk.length }
  let log := progressLog s request session.record y
  let z := { y with last := if log.isEmpty then x.last else y.offset }
  match fault with
  | none => some (.append x.fd chunk, log, .receive s z rest)
  | some (.write written) =>
      if chunk.length ≤ written then none
      else if unseen chunk written then
        some (.append x.fd (chunk.take written), log, .receive s { z with lastWriteErr := some written } rest)
      else some (.append x.fd (chunk.take written), [], .leave s (errorResponse (.io (.write written))))
  | some _ => none

-- The select is biased: a tripped token wins over the next chunk.
def receiveStep (s : Nat) (session : Session) (x : Incoming) : List Bytes → Option (Move UploadPhase)
  | chunks =>
    let path := partPath session.id x.file.id
    if session.cancel then removeStep path fault [] (.leave s (.plain 410))
    else
      match chunks with
      | [] => plain fault .tau [] (if request.ending = .finished then .syncAll s x else .interrupted s)
      | chunk :: rest =>
          if chunk.length > x.file.size - x.offset then removeStep path fault [] (.leave s (.plain 413))
          else
            match x.lastWriteErr, chunk with
            | some written, _ :: _ => plain fault .tau [] (.leave s (errorResponse (.io (.write written))))
            | _, _ => writeStep request fault s session x chunk rest

-- sync_data and sync_all wait for the last write and drop its failure.
def interruptedStep (s : Nat) : Option (Move UploadPhase) :=
  match fault with
  | none =>
      some (.tau, [], .leave s ⟨if request.ending = .timedOut then 408 else 400,
        .text "Upload interrupted; partial data retained"⟩)
  | some .sync => some (.tau, [], .leave s (errorResponse (.io .sync)))
  | some _ => none

def syncAllStep (s : Nat) (x : Incoming) : Option (Move UploadPhase) :=
  match fault with
  | none =>
      if x.offset ≠ x.file.size then
        some (.tau, [], .leave s ⟨400, .text "Partial upload retained; resume at the current offset"⟩)
      else some (.tau, [], .hash s x)
  | some .sync => some (.tau, [], .leave s (errorResponse (.io .sync)))
  | some _ => none

def hashStep (s : Nat) (session : Session) (x : Incoming) : Option (Move UploadPhase) :=
  let path := partPath session.id x.file.id
  if fault = some .read then some (.tau, [], .leave s (errorResponse (.io .read)))
  else
    match store.disk.read path with
    | none => plain fault .tau [] (.leave s (errorResponse (.io .read)))
    | some bytes =>
        if verified sha256 session.record x.file bytes then plain fault .tau [] (.recheck s x)
        else
          removeStep path fault
            [.event s (.transferFailed request.transferId "SHA-256 checksum mismatch; file discarded")]
            (.leave s (.plain 422))

def recheckStep (s : Nat) (session : Session) (x : Incoming) : Option (Move UploadPhase) :=
  if session.cancel then removeStep (partPath session.id x.file.id) fault [] (.leave s (.plain 410))
  else plain fault .tau [] (.prepare s x)

def prepareStep (s : Nat) (x : Incoming) : Option (Move UploadPhase) :=
  let (parent, base) := receiveTarget x.file
  if reservedTarget (parent ++ [base]) then plain fault .tau []
    (.leave s ⟨400, .text "Reserved state directory"⟩)
  else
    match fault with
    | none =>
        if safeParent store.disk parent then some (.mkdirs (parentDirs parent), [], .choose s x 0)
        else some (.tau, [], .leave s (errorResponse (.io (.createDir 0))))
    | some (.createDir created) =>
        if safeParent store.disk (parent.take created) then
          some (.mkdirs (parentDirs (parent.take created)), [],
            .leave s (errorResponse (.io (.createDir created))))
        else none
    | some _ => none

def chooseStep (s : Nat) (session : Session) (x : Incoming) (index : Nat) : Option (Move UploadPhase) :=
  if index ≥ publishLimit then plain fault .tau [] (.leave s ⟨409, .text "Too many filename conflicts"⟩)
  else
    let r := session.record
    let target := targetOf r x.file index
    persistStep s { r with targets := r.targets.insert x.file.id target } fault (.link s x index target)
      fun e => .leave s (errorResponse e)

def linkStep (s : Nat) (session : Session) (x : Incoming) (index : Nat) (target : Path) : Option
    (Move UploadPhase) :=
  match fault with
  | none =>
      match store.disk.node (partPath session.id x.file.id) with
      | some (.file inode) =>
          match store.disk.node target with
          | none => some (.link inode target, [.linked session.id x.file.id target], .syncParent s x target)
          | some _ => some (.tau, [], .verify s x index target)
      | _ => some (.tau, [], .leave s (errorResponse (.io .link)))
  | some .link => some (.tau, [], .leave s (errorResponse (.io .link)))
  | some _ => none

-- Recovers a crash between publication and the journal commit: an existing
-- regular file with the right content is adopted, any other one is skipped.
def verifyStep (s : Nat) (session : Session) (x : Incoming) (index : Nat) (target : Path) : Option
    (Move UploadPhase) :=
  let r := session.record
  if fault = none ∧ ((store.disk.read target).map (verified sha256 r x.file)) = some true then
    some (.tau, [], .syncParent s x target)
  else if fault = none ∨ fault = some .read then
    some (.assign s { r with targets := r.targets.erase x.file.id }, [], .choose s x (index + 1))
  else none

def syncParentStep (s : Nat) (x : Incoming) (target : Path) : Option (Move UploadPhase) :=
  match fault with
  | none => some (.tau, [], .commit s x target)
  | some .sync => some (.tau, [], .leave s (errorResponse (.io .sync)))
  | some _ => none

def commitStep (s : Nat) (session : Session) (x : Incoming) (target : Path) : Option (Move UploadPhase) :=
  persistStep s (receiptRecord session.record x.file target) fault (.finish s x) fun e => .leave s
    (errorResponse e)

def UploadPhase.next : UploadPhase → Option (Move UploadPhase)
  | .lookup => lookupStep store request.transferId fault .lock
      (.done (errorResponse (.transferNotFound request.transferId)))
  | .lock s => lockStep store s fault (.entry s)
  | .entry s => withSession store s (entryStep request fault s)
  | .check s file => withSession store s fun session => checkStep request store fault s session file
  | .openPart s file baseline current =>
      withSession store s fun session => openStep request store fault s session file baseline current
  | .receive s x chunks => withSession store s fun session => receiveStep request fault s session x chunks
  | .interrupted s => interruptedStep request fault s
  | .syncAll s x => syncAllStep fault s x
  | .hash s x => withSession store s fun session => hashStep sha256 request store fault s session x
  | .recheck s x => withSession store s fun session => recheckStep fault s session x
  | .prepare s x => prepareStep store fault s x
  | .choose s x index => withSession store s fun session => chooseStep fault s session x index
  | .link s x index target => withSession store s fun session => linkStep store fault s session x index target
  | .verify s x index target => withSession store s fun session =>
      verifyStep sha256 store fault s session x index target
  | .syncParent s x target => syncParentStep fault s x target
  | .commit s x target => withSession store s fun session => commitStep fault s session x target
  | .finish s x => plain fault (.finish s) [] (.discard s x)
  | .discard s x => withSession store s fun session => removeStep (partPath session.id x.file.id) fault []
      (.announce s x)
  | .announce s x =>
      withSession store s fun session => plain fault .tau (completionLog s request session.record x)
        (.leave s (.plain 200))
  | .leave s reply => plain fault (.release s) [] (.done reply)
  | .done _ => none

end Upload

end GoshTransfer
