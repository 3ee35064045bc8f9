import GoshTransfer.Legacy
import GoshTransfer.Lib.Transition

set_option autoImplicit false

namespace GoshTransfer

open InodeStore

-- rsplit_once('.') with a stem; without one the extension is empty.
def splitFileName (name : List Char) : List Char × List Char :=
  match name.reverse.dropWhile (· != '.') with
  | [] => (name, [])
  | _ :: before =>
      if before.isEmpty then (name, []) else (before.reverse, (name.reverse.takeWhile (· != '.')).reverse)

-- The names open_unique_file tries in turn.
def uniqueName (base : String) (index : Nat) : String :=
  if index == 0 then base
  else
    match splitFileName base.toList with
    | (stem, []) => .ofList (stem ++ (" (" ++ toString index ++ ")").toList)
    | (stem, ext) => .ofList (stem ++ (" (" ++ toString index ++ ").").toList ++ ext)

def uniquePath (file : TransferFile) (index : Nat) : Path :=
  (receiveTarget file).1 ++ [uniqueName (receiveTarget file).2 index]

structure ChunkRequest where
  source : String
  transferId : String
  fileId : String
  token : String
deriving DecidableEq

-- The local variables of the handler once its destination is open.
structure Writing where
  transfer : PendingTransfer
  file : TransferFile
  path : Path
  inode : Nat
  received : Nat
  reported : Nat
deriving DecidableEq

def Writing.storedName (x : Writing) : String := x.path.getLast?.getD x.file.id

def Writing.reply (x : Writing) : LegacyResponse := ⟨200, .stored x.storedName x.received⟩

def Writing.progress (x : Writing) (request : ChunkRequest) (cumulative : Nat) : LegacyEntry :=
  .event (.transferProgress ⟨request.transferId, some x.storedName, cumulative, x.transfer.totalSize⟩)

def Writing.progressDue (x : Writing) : Bool := x.received - x.reported ≥ 32768 || x.received == x.file.size

-- k is the seat of the handler. In remove and rollback, held says whether the
-- decisions guard is alive; in the last two phases, passed is for the proofs
-- only and says whether the token was accepted.
inductive ChunkPhase where
  | seat
  | lock (k : Nat)
  | cancelled (k : Nat)
  | token (k : Nat)
  | root (k : Nat)
  | lookup (k : Nat)
  | received (k : Nat) (transfer : PendingTransfer)
  | stamp (k : Nat) (transfer : PendingTransfer) (file : TransferFile)
  | prepare (k : Nat) (transfer : PendingTransfer) (file : TransferFile)
  | openFile (k : Nat) (transfer : PendingTransfer) (file : TransferFile) (index : Nat)
  | receive (k : Nat) (x : Writing)
  | count (k : Nat) (x : Writing) (amount : Nat)
  | flush (k : Nat) (x : Writing)
  | enter (k : Nat) (x : Writing)
  | restamp (k : Nat) (x : Writing)
  | recheck (k : Nat) (x : Writing)
  | report (k : Nat) (x : Writing)
  | commit (k : Nat) (x : Writing)
  | tally (k : Nat) (x : Writing)
  | complete (k : Nat) (x : Writing)
  | total (k : Nat) (x : Writing) (transfer : PendingTransfer)
  | uncount (k : Nat) (x : Writing)
  | remove (k : Nat) (held : Bool) (x : Writing) (reply : LegacyResponse)
  | rollback (k : Nat) (held : Bool) (x : Writing) (reply : LegacyResponse)
  | leave (k : Nat) (reply : LegacyResponse)
  | unlock (k : Nat) (passed : Bool) (reply : LegacyResponse)
  | vacate (k : Nat) (passed : Bool) (reply : LegacyResponse)
  | done (reply : LegacyResponse)

section Chunk

variable (request : ChunkRequest) (legacy : Legacy) (disk : ReceiverDisk) (reading : Reading)

def legacyPrepareStep (k : Nat) (transfer : PendingTransfer) (file : TransferFile) : Option
    (LegacyMove ChunkPhase) :=
  let (parent, base) := receiveTarget file
  if reservedTarget (parent ++ [base]) then
    some (.tau, [], .unlock k true ⟨400, .error "Reserved state directory"⟩)
  else
    match reading.fault with
    | some (.createDir created) =>
        if safeParent disk (parent.take created) then
          some (.mkdirs (parentDirs (parent.take created)), [],
            .unlock k true ⟨500, .failure "Failed to create directories: " (some (.createDir created))⟩)
        else none
    | _ =>
        if safeParent disk parent then some (.mkdirs (parentDirs parent), [], .openFile k transfer file 0)
        else some (.tau, [], .unlock k true ⟨500, .failure "Failed to create directories: " none⟩)

def openUniqueStep (k : Nat) (transfer : PendingTransfer) (file : TransferFile) (index : Nat) : Option
    (LegacyMove ChunkPhase) :=
  if index ≥ 1000 then
    some (.tau, [], .unlock k true ⟨500, .error "Failed to create file: Too many filename conflicts"⟩)
  else if reading.fault = some .openFile then
    some (.tau, [], .unlock k true ⟨500, .failure "Failed to create file: " (some .openFile)⟩)
  else
    let path := uniquePath file index
    match disk.node path with
    | some _ => some (.tau, [], .openFile k transfer file (index + 1))
    | none =>
        some (.create path, [.opened request.transferId file.id path disk.inodes.length],
          .receive k ⟨transfer, file, path, disk.inodes.length, 0, 0⟩)

-- The select is not biased: any branch that is ready may win.
def legacyReceiveStep (k : Nat) (x : Writing) : Option (LegacyMove ChunkPhase) :=
  match reading.body with
  | .stalled => some (.tau, [], .remove k false x ⟨408, .error "Upload stalled"⟩)
  | .noticed =>
      if request.transferId ∈ legacy.ledger.cancelled then
        some (.tau, [], .remove k false x ⟨410, .error "Transfer cancelled"⟩)
      else none
  | .broken => some (.tau, [], .remove k false x ⟨500, .failure "Stream error: " none⟩)
  | .finished => some (.tau, [], .flush k x)
  | .chunk data =>
      if x.received + data.length > x.file.size then
        some (.tau, [], .remove k false x ⟨413, .error "Received more data than expected"⟩)
      else
        match reading.fault with
        | some (.write written) =>
            some (.append x.inode (data.take written), [],
              .remove k false x ⟨500, .failure "Failed to write: " (some (.write written))⟩)
        | _ => some (.append x.inode data, [], .count k { x with received := x.received + data.length }
            data.length)

def legacyCompleteStep (k : Nat) (x : Writing) : Option (LegacyMove ChunkPhase) :=
  some (.edit (.complete request.transferId), [],
    if request.transferId ∈ legacy.ledger.completed then .leave k x.reply
    else
      match legacy.ledger.pending.lookup request.transferId with
      | some transfer => .total k x transfer
      | none => .leave k x.reply)

-- chunk_upload_handler. A failed flush is the fault sync.
def ChunkPhase.next : ChunkPhase → Option (LegacyMove ChunkPhase)
  | .seat => some (.claim request.transferId, [], .lock (legacy.seat request.transferId))
  | .lock k => (legacy.seats[k]?).bind fun seat =>
      if seat.holder = none then some (.lock k, [], .cancelled k) else none
  | .cancelled k =>
      if request.transferId ∈ legacy.ledger.cancelled then
        some (.tau, [], .unlock k false ⟨410, .error "Transfer was cancelled"⟩)
      else some (.tau, [], .token k)
  | .token k =>
      if legacy.ledger.approved.lookup request.transferId ≠ some request.token then
        some (.tau, [], .unlock k false ⟨401, .error "Invalid or expired token"⟩)
      else some (.tau, [], .root k)
  | .root k =>
      if reading.fault = some .root then
        some (.tau, [], .unlock k true ⟨500, .failure "Failed to create download directory: " (some .root)⟩)
      else some (.tau, [], .lookup k)
  | .lookup k =>
      match legacy.ledger.pending.lookup request.transferId with
      | none => some (.tau, [], .unlock k true ⟨404, .error "Transfer not found"⟩)
      | some transfer =>
          if transfer.sourceIp ≠ request.source then
            some (.tau, [], .unlock k true ⟨403, .error "Transfer belongs to another peer"⟩)
          else some (.tau, [], .received k transfer)
  | .received k transfer =>
      if request.fileId ∈ legacy.ledger.filesOf request.transferId then
        some (.tau, [], .unlock k true ⟨200, .alreadyReceived⟩)
      else
        match transfer.files.find? (·.id == request.fileId) with
        | none => some (.tau, [], .unlock k true ⟨404, .error "File not found in transfer"⟩)
        | some file => some (.tau, [], .stamp k transfer file)
  | .stamp k transfer file => some (.stamp request.transferId reading.now, [], .prepare k transfer file)
  | .prepare k transfer file => legacyPrepareStep disk reading k transfer file
  | .openFile k transfer file index => openUniqueStep request disk reading k transfer file index
  | .receive k x => legacyReceiveStep request legacy reading k x
  | .count k x amount =>
      some (.count request.transferId amount,
        if x.progressDue then
        [x.progress request ((legacy.bytes.lookup request.transferId).getD 0 + amount)] else [],
        .receive k { x with reported := if x.progressDue then x.received else x.reported })
  | .flush k x =>
      if reading.fault = some .sync then
        some (.tau, [], .remove k false x ⟨500, .failure "Failed to flush file: " (some .sync)⟩)
      else if x.received ≠ x.file.size then
        some (.tau, [], .remove k false x ⟨400, .error "Incomplete file received"⟩)
      else some (.tau, [], .enter k x)
  | .enter k x => enterStep legacy (.restamp k x)
  | .restamp k x => some (.stamp request.transferId reading.now, [], .recheck k x)
  | .recheck k x =>
      if request.transferId ∈ legacy.ledger.cancelled then
        some (.tau, [], .remove k true x ⟨410, .error "Transfer cancelled"⟩)
      else some (.tau, [], .report k x)
  | .report k x =>
      some (.tau, [x.progress request ((legacy.bytes.lookup request.transferId).getD x.received)],
        .commit k x)
  | .commit k x =>
      some (.edit (.receive request.transferId request.fileId),
        [.committed request.transferId request.fileId x.path x.inode],
        .tally k x)
  | .tally k x =>
      some (.tau, [],
        if (legacy.ledger.filesOf request.transferId).card ≥ x.transfer.files.length then .complete k x
        else .leave k x.reply)
  | .complete k x => legacyCompleteStep request legacy k x
  | .total k x transfer =>
      some (.tau,
        [.event (.transferComplete request.transferId),
          .history ⟨transfer, .completed, (legacy.bytes.lookup request.transferId).getD transfer.totalSize,
          none⟩],
        .uncount k x)
  | .uncount k x => some (.edit (.uncount request.transferId), [], .leave k x.reply)
  | .remove k held x reply =>
      some (if reading.fault = some .remove then .tau else .remove x.path, [], .rollback k held x reply)
  | .rollback k held x reply =>
      some (.rollback request.transferId x.received, [], if held then .leave k reply
        else .unlock k true reply)
  | .leave k reply => some (.leave, [], .unlock k true reply)
  | .unlock k passed reply => some (.unlock k, [], .vacate k passed reply)
  | .vacate k _ reply => some (.vacate k, [], .done reply)
  | .done _ => none

end Chunk

inductive LegacyOp where
  | ruling (ruling : Ruling) (id : String) (phase : RulingPhase)
  | request (offer : Offer) (phase : RequestPhase)
  | approval (peer id : String) (phase : ApprovalPhase)
  | chunk (request : ChunkRequest) (phase : ChunkPhase)

def LegacyOp.next (legacy : Legacy) (disk : ReceiverDisk) (reading : Reading) : LegacyOp → Option
    (LegacyMove LegacyOp)
  | .ruling verdict id phase => (phase.next verdict id legacy reading).map fun (act, log, p) =>
      (act, log, .ruling verdict id p)
  | .request offer phase => (phase.next offer legacy reading).map fun (act, log, p) =>
      (act, log, .request offer p)
  | .approval peer id phase => (phase.next peer id legacy).map fun (act, log, p) =>
      (act, log, .approval peer id p)
  | .chunk params phase => (phase.next params legacy disk reading).map fun (act, log, p) =>
      (act, log, .chunk params p)

-- The calls: three of the engine and three of the router.
def acceptTransfer (token id : String) : LegacyOp := .ruling (.accept token) id .contains

def rejectTransfer (id : String) : LegacyOp := .ruling .reject id .contains

def cancelTransfer (id : String) : LegacyOp := .ruling .cancel id .contains

def transferRequestHandler (offer : Offer) : LegacyOp := .request offer .enter

def transferStatusHandler (peer id : String) : LegacyOp := .approval peer id .owner

def chunkUploadHandler (request : ChunkRequest) : LegacyOp := .chunk request .seat

inductive LegacyCall where
  | accept (token id : String)
  | reject (id : String)
  | cancel (id : String)
  | request (offer : Offer)
  | status (peer id : String)
  | chunk (request : ChunkRequest)

def LegacyCall.op : LegacyCall → LegacyOp
  | .accept token id => acceptTransfer token id
  | .reject id => rejectTransfer id
  | .cancel id => cancelTransfer id
  | .request offer => transferRequestHandler offer
  | .status peer id => transferStatusHandler peer id
  | .chunk params => chunkUploadHandler params

structure LegacyState where
  legacy : Legacy
  disk : ReceiverDisk
  ops : List LegacyOp
  log : List LegacyEntry

inductive LegacyLabel where
  | call (call : LegacyCall)
  | advance (o : Nat) (reading : Reading)

def LegacyState.after (state : LegacyState) (o : Nat) (act : LegacyAct) (log : List LegacyEntry)
    (op : LegacyOp) : LegacyState :=
  ⟨state.legacy.apply o act, act.store state.disk, state.ops.set o op, state.log ++ log⟩

def legacyStep (state : LegacyState) : LegacyLabel → Option LegacyState
  | .call call => some { state with ops := state.ops ++ [call.op] }
  | .advance o reading =>
      (state.ops[o]?).bind fun op =>
        (op.next state.legacy state.disk reading).bind fun (act, log, op') => some (state.after o act log op')

def Ledger.empty : Ledger := ⟨∅, ∅, ∅, ∅, ∅, ∅⟩

def Legacy.empty : Legacy := ⟨.empty, none, ∅, ∅, [], []⟩

-- ServerState::new over any download directory.
structure LegacyInitial (state : LegacyState) : Prop where
  fresh : state.legacy = .empty
  idle : state.ops = []
  silent : state.log = []
  allocated : state.disk.Allocated

-- The smallest version 1 session, for runs on concrete inputs.
def calm : Reading := ⟨0, false, [], .finished, none⟩

def offerId : String := "v1"

def offerFile : TransferFile := ⟨"a", 0, none, "f", none⟩

def smallOffer (trusted : Bool) : Offer := ⟨"10.0.0.2", ⟨offerId, none, [offerFile], 0⟩, trusted, "t", 0⟩

def smallChunk : ChunkRequest := ⟨"10.0.0.2", offerId, offerFile.id, "t"⟩

def legacyAdvances (o count : Nat) : List LegacyLabel := List.replicate count (.advance o calm)

def emptyLegacy : LegacyState := ⟨.empty, ⟨∅, []⟩, [], []⟩

theorem empty_legacy_initial : LegacyInitial emptyLegacy := by
  refine ⟨rfl, rfl, rfl, ?_⟩
  intro path inode found
  cases found

end GoshTransfer
