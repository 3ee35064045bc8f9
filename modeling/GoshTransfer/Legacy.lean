import GoshTransfer.Upload

set_option autoImplicit false

namespace GoshTransfer

open InodeStore

-- The maps of the version 1 server that are written under the decisions mutex
-- only. Start times serve the speed of progress events and are left out.
structure Ledger where
  pending : HashMap String PendingTransfer
  approved : HashMap String String
  rejected : HashMap String String
  cancelled : Finset String
  received : HashMap String (Finset String)
  completed : Finset String

-- One write under the decisions mutex, of one of these maps or of the byte
-- counters and activity times, which uploads also write without it.
inductive Edit where
  | pend (transfer : PendingTransfer)
  | unpend (id : String)
  | approve (id token : String)
  | unapprove (id : String)
  | refuse (id reason : String)
  | unrefuse (id : String)
  | mark (id : String)
  | unmark (id : String)
  | receive (id file : String)
  | unreceive (id : String)
  | complete (id : String)
  | uncomplete (id : String)
  | uncount (id : String)
  | unstamp (id : String)

def Ledger.filesOf (ledger : Ledger) (id : String) : Finset String := (ledger.received.lookup id).getD ∅

def Edit.apply (ledger : Ledger) : Edit → Ledger
  | .pend transfer => { ledger with pending := ledger.pending.insert transfer.id transfer }
  | .unpend id => { ledger with pending := ledger.pending.erase id }
  | .approve id token => { ledger with approved := ledger.approved.insert id token }
  | .unapprove id => { ledger with approved := ledger.approved.erase id }
  | .refuse id reason => { ledger with rejected := ledger.rejected.insert id reason }
  | .unrefuse id => { ledger with rejected := ledger.rejected.erase id }
  | .mark id => { ledger with cancelled := insert id ledger.cancelled }
  | .unmark id => { ledger with cancelled := ledger.cancelled.erase id }
  | .receive id file =>
      { ledger with received := ledger.received.insert id (insert file (ledger.filesOf id)) }
  | .unreceive id => { ledger with received := ledger.received.erase id }
  | .complete id => { ledger with completed := insert id ledger.completed }
  | .uncomplete id => { ledger with completed := ledger.completed.erase id }
  | .uncount _ | .unstamp _ => ledger

def Edit.bytes (bytes : HashMap String Nat) : Edit → HashMap String Nat
  | .uncount id => bytes.erase id
  | _ => bytes

def Edit.activity (activity : HashMap String Nat) : Edit → HashMap String Nat
  | .unstamp id => activity.erase id
  | _ => activity

-- The Arc of an upload lock: the handlers that own a strong reference, and the
-- one that holds the mutex.
structure Seat where
  owners : Finset Nat
  holder : Option Nat
deriving DecidableEq

-- upload_locks keeps weak references, here indices into the seats.
structure Legacy where
  ledger : Ledger
  decisions : Option Nat
  bytes : HashMap String Nat
  activity : HashMap String Nat
  locks : List (String × Nat)
  seats : List Seat

-- strong_count() > 0
def Legacy.alive (legacy : Legacy) (k : Nat) : Bool := (legacy.seats[k]?).any fun seat => seat.owners ≠ ∅

-- locks.retain(|_, lock| lock.strong_count() > 0)
def Legacy.retained (legacy : Legacy) : List (String × Nat) :=
    legacy.locks.filter fun lock => legacy.alive lock.2

-- The seat a new upload gets: the one that can be upgraded, or a new one.
def Legacy.seat (legacy : Legacy) (id : String) : Nat := (legacy.retained.lookup id).getD legacy.seats.length

def Legacy.claim (legacy : Legacy) (o : Nat) (id : String) : Legacy :=
  { legacy with
    locks := (id, legacy.seat id) :: legacy.retained.filter fun lock => lock.1 ≠ id
    seats :=
      match legacy.retained.lookup id with
      | some k => legacy.seats.modify k fun seat => { seat with owners := insert o seat.owners }
      | none => legacy.seats ++ [⟨{o}, none⟩] }

inductive LegacyAct where
  | tau
  | enter
  | leave
  | edit (change : Edit)
  | count (id : String) (amount : Nat)
  | rollback (id : String) (amount : Nat)
  | stamp (id : String) (now : Nat)
  | claim (id : String)
  | lock (k : Nat)
  | unlock (k : Nat)
  | vacate (k : Nat)
  | create (path : Path)
  | append (inode : Nat) (bytes : Bytes)
  | remove (path : Path)
  | mkdirs (paths : List Path)

def LegacyAct.book (ledger : Ledger) : LegacyAct → Ledger
  | .edit change => change.apply ledger
  | _ => ledger

def Legacy.apply (legacy : Legacy) (o : Nat) : LegacyAct → Legacy
  | .enter => { legacy with decisions := some o }
  | .leave => { legacy with decisions := none }
  | .edit change =>
      { legacy with
        ledger := change.apply legacy.ledger
        bytes := change.bytes legacy.bytes
        activity := change.activity legacy.activity }
  | .count id amount =>
      { legacy with bytes := legacy.bytes.insert id ((legacy.bytes.lookup id).getD 0 + amount) }
  | .rollback id amount =>
      match legacy.bytes.lookup id with
      | some total => { legacy with bytes := legacy.bytes.insert id (total - amount) }
      | none => legacy
  | .stamp id now => { legacy with activity := legacy.activity.insert id now }
  | .claim id => legacy.claim o id
  | .lock k => { legacy with seats := legacy.seats.modify k fun seat => { seat with holder := some o } }
  | .unlock k => { legacy with seats := legacy.seats.modify k fun seat => { seat with holder := none } }
  | .vacate k =>
      { legacy with seats := legacy.seats.modify k fun seat => { seat with owners := seat.owners.erase o } }
  | _ => legacy

def LegacyAct.store (disk : ReceiverDisk) : LegacyAct → ReceiverDisk
  | .create path => disk.create path
  | .append inode bytes => disk.append inode bytes
  | .remove path => disk.remove path
  | .mkdirs paths => paths.foldl Disk.mkdir disk
  | _ => disk

-- Events and history records, and for the proofs only: insertions into
-- pending_transfers, the ids an expiry pass selects, the tokens that are given
-- out (to a peer, or to the caller of accept_transfer), and the destination
-- files that are created and committed.
inductive LegacyEntry where
  | event (event : EngineEvent)
  | history (record : HistoryRecord)
  | registered (transfer : PendingTransfer)
  | expired (ids : List String)
  | handed (id token : String) (peer : Option String)
  | opened (id file : String) (path : Path) (inode : Nat)
  | committed (id file : String) (path : Path) (inode : Nat)
deriving DecidableEq

-- What the select of the receive loop yields; noticed is the poll of the
-- cancelled set.
inductive BodyEvent where
  | chunk (data : Bytes)
  | finished
  | broken
  | stalled
  | noticed

-- What one step reads from outside: the clock in nanoseconds, the answer of
-- durable.contains, the iteration order of a hash map, the next event of the
-- request body, and a failing call.
structure Reading where
  now : Nat
  durable : Bool
  order : List String
  body : BodyEvent
  fault : Option Fault

-- cause stands for the text of an operating system or transport error that
-- ends the message.
inductive LegacyBody where
  | text (message : String)
  | transfer (accepted : Bool) (message token : Option String)
  | approval (status : TransferDecision) (token message : Option String)
  | error (message : String)
  | failure (message : String) (cause : Option Fault)
  | alreadyReceived
  | stored (file : String) (bytesReceived : Nat)
deriving DecidableEq

structure LegacyResponse where
  code : Nat
  body : LegacyBody
deriving DecidableEq

abbrev LegacyMove (Phase : Type) := LegacyAct × List LegacyEntry × Phase

-- Writes that are made one after the other without another look at the maps.
abbrev Todo := List (Edit × List LegacyEntry)

-- decisions.lock().await
def enterStep {Phase : Type} (legacy : Legacy) (next : Phase) : Option (LegacyMove Phase) :=
  if legacy.decisions = none then some (.enter, [], next) else none

inductive Ruling where
  | accept (token : String)
  | reject
  | cancel
deriving DecidableEq

inductive RulingPhase where
  | contains
  | enter
  | completed
  | cancelled
  | approved
  | pending
  | check
  | bytes (info : Option PendingTransfer)
  | edit (todo : Todo) (reply : Except EngineError (Option String))
  | done (reply : Except EngineError (Option String))
  | durable

def acceptEdits (id token : String) : Todo :=
  [(.approve id token, []), (.unrefuse id, [.handed id token none])]

def rejectEdits (id : String) : Todo :=
  [(.refuse id "Rejected by user", []), (.unapprove id, []), (.unpend id, [])]

def cancelLog (id : String) (info : Option PendingTransfer) (bytes : Nat) : List LegacyEntry :=
  .event (.transferFailed id "Transfer cancelled") ::
    match info with
    | some transfer => [.history ⟨transfer, .failed, bytes, some "Transfer cancelled"⟩]
    | none => []

def cancelEdits (id : String) (info : Option PendingTransfer) (bytes : Nat) : Todo :=
  [(.mark id, []), (.unpend id, []), (.unapprove id, []), (.unreceive id, []),
    (.uncount id, cancelLog id info bytes)]

-- The version 1 part of accept_transfer, reject_transfer and cancel_transfer:
-- the three share their frame, and cancel has tests of its own. In check, cancel
-- reads pending and approved with both guards held.
def RulingPhase.next (ruling : Ruling) (id : String) (legacy : Legacy) (reading : Reading) :
    RulingPhase → Option (LegacyMove RulingPhase)
  | .contains => some (.tau, [], if reading.durable then .durable else .enter)
  | .enter => enterStep legacy .completed
  | .completed =>
      if id ∈ legacy.ledger.completed then some (.tau, [], .edit [] (.error (.transferNotFound id)))
      else some (.tau, [], if ruling = .cancel then .check else .cancelled)
  | .cancelled =>
      if id ∈ legacy.ledger.cancelled then some (.tau, [], .edit [] (.error .transferCancelled))
      else some (.tau, [], .approved)
  | .approved =>
      match legacy.ledger.approved.lookup id, ruling with
      | none, _ => some (.tau, [], .pending)
      -- Accepting again must not rotate the token.
      | some token, .accept _ => some (.tau, [.handed id token none], .edit [] (.ok (some token)))
      | some _, _ =>
          some (.tau, [],
            .edit [] (.error (.invalidConfig "Transfer already accepted; use cancel_transfer to stop it")))
  | .pending =>
      match legacy.ledger.pending.lookup id, ruling with
      | none, _ => some (.tau, [], .edit [] (.error (.transferNotFound id)))
      | some _, .accept token => some (.tau, [], .edit (acceptEdits id token) (.ok (some token)))
      | some _, .reject => some (.tau, [], .edit (rejectEdits id) (.ok none))
      | some _, .cancel => none
  | .check =>
      if legacy.ledger.pending.lookup id = none ∧ legacy.ledger.approved.lookup id = none then
        some (.tau, [], .edit [] (.error (.transferNotFound id)))
      else some (.tau, [], .bytes (legacy.ledger.pending.lookup id))
  | .bytes info => some (.tau, [], .edit (cancelEdits id info ((legacy.bytes.lookup id).getD 0)) (.ok none))
  | .edit ((change, log) :: rest) reply => some (.edit change, log, .edit rest reply)
  | .edit [] reply => some (.leave, [], .done reply)
  | .done _ => none
  | .durable => none

-- A request of /transfer with the normalized address it comes from. Whether the
-- address is trusted, the token and the time are read by the handler.
structure Offer where
  source : String
  request : TransferRequest
  trusted : Bool
  token : String
  receivedAt : Nat

def Offer.id (offer : Offer) : String := offer.request.transferId

def Offer.pending (offer : Offer) (total : Nat) : PendingTransfer :=
  ⟨offer.id, offer.source, offer.request.senderName, offer.request.files, total, offer.receivedAt⟩

-- str::len counts bytes.
def unusableId (id : String) : Bool := id.isEmpty || id.utf8ByteSize > 128

def unusableFiles : List String → List TransferFile → Bool
  | _, [] => false
  | ids, file :: rest => unusableId file.id || ids.contains file.id || unusableFiles (file.id :: ids) rest

-- The tests on the request alone, which end in the computed total.
def checkTransfer (request : TransferRequest) : Except LegacyResponse Nat :=
  if unusableId request.transferId || unusableFiles [] request.files then
    .error ⟨400, .text "Invalid or duplicate transfer/file ID"⟩
  else if request.files.isEmpty then .error ⟨400, .transfer false (some "No files in transfer request") none⟩
  else
    match totalSize 0 request.files with
    | none => .error ⟨400, .text "Transfer size overflow"⟩
    | some total => .ok total

-- time.elapsed().as_secs(); an Instant in the future has elapsed zero.
def elapsedSecs (now time : Nat) : Nat := (now - time) / 1000000000

def Legacy.idle (legacy : Legacy) (now : Nat) (id : String) : Bool :=
  ((legacy.activity.lookup id).any fun time => elapsedSecs now time ≥ 3600) &&
    !(legacy.locks.lookup id).any legacy.alive

def pruneOne (id : String) : List Edit :=
  [.unpend id, .unapprove id, .unrefuse id, .unmark id, .unreceive id, .uncount id, .uncomplete id,
    .unstamp id]

def pruneEdits (ids : List String) : Todo := (ids.flatMap pruneOne).map fun change => (change, [])

inductive RequestPhase where
  | enter
  | select
  | prune (todo : Todo)
  | contains
  | used (total : Nat)
  | refused (total : Nat)
  | existing (total : Nat)
  | retry (total : Nat)
  | capacity (total : Nat)
  | stamp (total : Nat)
  | pend (total : Nat)
  | edit (todo : Todo) (reply : LegacyResponse)
  | done (reply : LegacyResponse)

def Offer.edits (offer : Offer) (transfer : PendingTransfer) : Todo :=
  if offer.trusted then
    [(.unrefuse offer.id, []), (.approve offer.id offer.token, []),
      (.unrefuse offer.id, [.handed offer.id offer.token (some offer.source)])]
  else [(.unrefuse offer.id, [.event (.transferRequest transfer)])]

def Offer.reply (offer : Offer) : LegacyResponse :=
  if offer.trusted then ⟨200, .transfer true (some "Auto-accepted from trusted host") (some offer.token)⟩
  else ⟨200, .transfer false (some "Awaiting user approval") none⟩

def handedTo (id : String) (token : Option String) (peer : String) : List LegacyEntry :=
  match token with
  | some token => [.handed id token (some peer)]
  | none => []

-- transfer_request_handler. The iteration order of last_activity is arbitrary,
-- and the three sizes of the capacity test are read with all guards held.
def RequestPhase.next (offer : Offer) (legacy : Legacy) (reading : Reading) : RequestPhase → Option
    (LegacyMove RequestPhase)
  | .enter => enterStep legacy .select
  | .select =>
      if reading.order.Nodup ∧ reading.order.toFinset = legacy.activity.keys.filter
        (legacy.idle reading.now · = true) then
        some (.tau, [.expired reading.order], .prune (pruneEdits reading.order))
      else none
  | .prune ((change, log) :: rest) => some (.edit change, log, .prune rest)
  | .prune [] => some (.tau, [], .contains)
  | .contains =>
      if reading.durable then some (.tau, [], .edit [] ⟨409, .text "ID belongs to a resumable transfer"⟩)
      else
        match checkTransfer offer.request with
        | .error reply => some (.tau, [], .edit [] reply)
        | .ok total => some (.tau, [], .used total)
  | .used total =>
      if offer.id ∈ legacy.ledger.cancelled then
        some (.tau, [], .edit [] ⟨409, .text "Transfer ID has already been used"⟩)
      else some (.tau, [], .refused total)
  | .refused total =>
      if (legacy.ledger.rejected.lookup offer.id).isSome then
        some (.tau, [], .edit [] ⟨409, .text "Transfer ID has already been used"⟩)
      else some (.tau, [], .existing total)
  | .existing total =>
      match legacy.ledger.pending.lookup offer.id with
      | none => some (.tau, [], .capacity total)
      | some transfer =>
          if transfer.sourceIp ≠ offer.source ∨ transfer.files ≠ offer.request.files ∨
              transfer.senderName ≠ offer.request.senderName then
            some (.tau, [], .edit [] ⟨409, .text "Transfer ID conflicts with an existing request"⟩)
          else some (.tau, [], .retry total)
  | .retry _ =>
      let token := legacy.ledger.approved.lookup offer.id
      some (.tau, handedTo offer.id token offer.source, .edit [] ⟨200, .transfer token.isSome none token⟩)
  | .capacity total =>
      if legacy.ledger.pending.keys.card + legacy.ledger.rejected.keys.card + legacy.ledger.cancelled.card ≥
        1024 then
        some (.tau, [], .edit [] ⟨503, .text "Session capacity reached; retry after idle sessions expire"⟩)
      else some (.tau, [], .stamp total)
  | .stamp total => some (.stamp offer.id reading.now, [], .pend total)
  | .pend total =>
      let transfer := offer.pending total
      some (.edit (.pend transfer), [.registered transfer], .edit (offer.edits transfer) offer.reply)
  | .edit ((change, log) :: rest) reply => some (.edit change, log, .edit rest reply)
  | .edit [] reply => some (.leave, [], .done reply)
  | .done _ => none

inductive ApprovalPhase where
  | owner
  | token
  | rejected
  | pending
  | done (reply : LegacyResponse)

def approvalReply (status : TransferDecision) (token message : Option String) : LegacyResponse :=
  ⟨200, .approval status token message⟩

-- transfer_status_handler
def ApprovalPhase.next (peer id : String) (legacy : Legacy) : ApprovalPhase → Option
    (LegacyMove ApprovalPhase)
  | .owner =>
      if (legacy.ledger.pending.lookup id).any fun transfer => transfer.sourceIp ≠ peer then
        some (.tau, [], .done (approvalReply .notFound none none))
      else some (.tau, [], .token)
  | .token =>
      match legacy.ledger.approved.lookup id with
      | some granted =>
          some (.tau, [.handed id granted (some peer)],
            .done (approvalReply .accepted (some granted) (some "Accepted")))
      | none => some (.tau, [], .rejected)
  | .rejected =>
      match legacy.ledger.rejected.lookup id with
      | some reason => some (.tau, [], .done (approvalReply .rejected none (some reason)))
      | none => some (.tau, [], .pending)
  | .pending =>
      if (legacy.ledger.pending.lookup id).isSome then
        some (.tau, [], .done (approvalReply .pending none (some "Awaiting user approval")))
      else some (.tau, [], .done (approvalReply .notFound none (some "Transfer not found")))
  | .done _ => none

end GoshTransfer
