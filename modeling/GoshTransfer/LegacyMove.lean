import GoshTransfer.LegacyUpload

set_option autoImplicit false

namespace GoshTransfer

open InodeStore

-- Everything one step of a version 1 operation can do. An operation that gives
-- up does so by quit, with any reply: the proofs use what a passed test says.
def RulingPhase.testing : RulingPhase → Bool
  | .completed | .cancelled | .approved | .pending | .check => true
  | _ => false

inductive RulingMove (ruling : Ruling) (id : String) (legacy : Legacy) :
    RulingPhase → LegacyAct → List LegacyEntry → RulingPhase → Prop where
  | durable : RulingMove ruling id legacy .contains .tau [] .durable
  | legacy : RulingMove ruling id legacy .contains .tau [] .enter
  | entered (free : legacy.decisions = none) : RulingMove ruling id legacy .enter .enter [] .completed
  | incomplete (open_ : id ∉ legacy.ledger.completed) (other : ruling ≠ .cancel) :
      RulingMove ruling id legacy .completed .tau [] .cancelled
  | cancellable (open_ : id ∉ legacy.ledger.completed) (same : ruling = .cancel) :
      RulingMove ruling id legacy .completed .tau [] .check
  | live (unmarked : id ∉ legacy.ledger.cancelled) : RulingMove ruling id legacy .cancelled .tau [] .approved
  | repeated (fresh token : String) (same : ruling = .accept fresh)
      (granted : legacy.ledger.approved.lookup id = some token) :
      RulingMove ruling id legacy .approved .tau [.handed id token none] (.edit [] (.ok (some token)))
  | undecided (none_ : legacy.ledger.approved.lookup id = none) : RulingMove ruling id legacy .approved .tau
      [] .pending
  | accepted (token : String) (transfer : PendingTransfer) (same : ruling = .accept token)
      (waiting : legacy.ledger.pending.lookup id = some transfer) :
      RulingMove ruling id legacy .pending .tau [] (.edit (acceptEdits id token) (.ok (some token)))
  | rejected (transfer : PendingTransfer) (same : ruling = .reject)
      (waiting : legacy.ledger.pending.lookup id = some transfer) :
      RulingMove ruling id legacy .pending .tau [] (.edit (rejectEdits id) (.ok none))
  | present (known : ¬ (legacy.ledger.pending.lookup id = none ∧ legacy.ledger.approved.lookup id = none)) :
      RulingMove ruling id legacy .check .tau [] (.bytes (legacy.ledger.pending.lookup id))
  | cancelled (info : Option PendingTransfer) :
      RulingMove ruling id legacy (.bytes info) .tau []
      (.edit (cancelEdits id info ((legacy.bytes.lookup id).getD 0)) (.ok none))
  | quit (phase : RulingPhase) (reply : Except EngineError (Option String)) (testing : phase.testing = true) :
      RulingMove ruling id legacy phase .tau [] (.edit [] reply)
  | edited (change : Edit) (log : List LegacyEntry) (rest : Todo)
      (reply : Except EngineError (Option String)) :
      RulingMove ruling id legacy (.edit ((change, log) :: rest) reply) (.edit change) log (.edit rest reply)
  | left (reply : Except EngineError (Option String)) : RulingMove ruling id legacy (.edit [] reply) .leave
      [] (.done reply)

def RequestPhase.testing : RequestPhase → Bool
  | .contains | .used _ | .refused _ | .existing _ | .capacity _ => true
  | _ => false

inductive RequestMove (offer : Offer) (legacy : Legacy) (reading : Reading) :
    RequestPhase → LegacyAct → List LegacyEntry → RequestPhase → Prop where
  | entered (free : legacy.decisions = none) : RequestMove offer legacy reading .enter .enter [] .select
  | selected (distinct : reading.order.Nodup) (idle : ∀ id, id ∈ reading.order →
      legacy.idle reading.now id = true) :
      RequestMove offer legacy reading .select .tau [.expired reading.order]
      (.prune (pruneEdits reading.order))
  | pruned (change : Edit) (log : List LegacyEntry) (rest : Todo) :
      RequestMove offer legacy reading (.prune ((change, log) :: rest)) (.edit change) log (.prune rest)
  | swept : RequestMove offer legacy reading (.prune []) .tau [] .contains
  | checked (total : Nat) (absent : reading.durable = false)
      (valid : checkTransfer offer.request = .ok total) :
      RequestMove offer legacy reading .contains .tau [] (.used total)
  | uncancelled (total : Nat) (unmarked : offer.id ∉ legacy.ledger.cancelled) :
      RequestMove offer legacy reading (.used total) .tau [] (.refused total)
  | unrefused (total : Nat) (none_ : legacy.ledger.rejected.lookup offer.id = none) :
      RequestMove offer legacy reading (.refused total) .tau [] (.existing total)
  | absent (total : Nat) (none_ : legacy.ledger.pending.lookup offer.id = none) :
      RequestMove offer legacy reading (.existing total) .tau [] (.capacity total)
  | repeated (total : Nat) (transfer : PendingTransfer)
      (found : legacy.ledger.pending.lookup offer.id = some transfer)
      (same : transfer.sourceIp = offer.source) : RequestMove offer legacy reading (.existing total) .tau []
      (.retry total)
  | retried (total : Nat) (reply : LegacyResponse) :
      RequestMove offer legacy reading (.retry total) .tau
        (handedTo offer.id (legacy.ledger.approved.lookup offer.id) offer.source) (.edit [] reply)
  | admitted (total : Nat) : RequestMove offer legacy reading (.capacity total) .tau [] (.stamp total)
  | stamped (total : Nat) : RequestMove offer legacy reading (.stamp total) (.stamp offer.id reading.now) []
      (.pend total)
  | registered (total : Nat) :
      RequestMove offer legacy reading (.pend total) (.edit (.pend (offer.pending total)))
      [.registered (offer.pending total)]
        (.edit (offer.edits (offer.pending total)) offer.reply)
  | quit (phase : RequestPhase) (reply : LegacyResponse) (testing : phase.testing = true) :
      RequestMove offer legacy reading phase .tau [] (.edit [] reply)
  | edited (change : Edit) (log : List LegacyEntry) (rest : Todo) (reply : LegacyResponse) :
      RequestMove offer legacy reading (.edit ((change, log) :: rest) reply) (.edit change) log
      (.edit rest reply)
  | left (reply : LegacyResponse) : RequestMove offer legacy reading (.edit [] reply) .leave [] (.done reply)

inductive ApprovalMove (peer id : String) (legacy : Legacy) :
    ApprovalPhase → LegacyAct → List LegacyEntry → ApprovalPhase → Prop where
  | owned (own : ∀ transfer, legacy.ledger.pending.lookup id = some transfer → transfer.sourceIp = peer) :
      ApprovalMove peer id legacy .owner .tau [] .token
  | foreign (reply : LegacyResponse) : ApprovalMove peer id legacy .owner .tau [] (.done reply)
  | disclosed (token : String) (reply : LegacyResponse)
      (granted : legacy.ledger.approved.lookup id = some token) :
      ApprovalMove peer id legacy .token .tau [.handed id token (some peer)] (.done reply)
  | ungranted : ApprovalMove peer id legacy .token .tau [] .rejected
  | unrefused : ApprovalMove peer id legacy .rejected .tau [] .pending
  | answered (phase : ApprovalPhase) (reply : LegacyResponse) (later : phase = .rejected ∨ phase = .pending) :
      ApprovalMove peer id legacy phase .tau [] (.done reply)

-- The phases that can give up before a destination is open, among them the ones
-- before the token is accepted, and the phases that discard a destination.
def ChunkPhase.early : ChunkPhase → Option Nat
  | .cancelled k | .token k | .root k | .lookup k | .received k _ | .prepare k _ _ | .openFile k _ _ _ =>
      some k
  | _ => none

def ChunkPhase.entering : ChunkPhase → Bool
  | .cancelled _ | .token _ => true
  | _ => false

def ChunkPhase.discarding : ChunkPhase → Option (Nat × Bool × Writing)
  | .receive k x | .flush k x => some (k, false, x)
  | .recheck k x => some (k, true, x)
  | _ => none

inductive ChunkMove (request : ChunkRequest) (legacy : Legacy) (disk : ReceiverDisk) (reading : Reading) :
    ChunkPhase → LegacyAct → List LegacyEntry → ChunkPhase → Prop where
  | seated : ChunkMove request legacy disk reading .seat (.claim request.transferId) []
      (.lock (legacy.seat request.transferId))
  | locked (k : Nat) (seat : Seat) (here : legacy.seats[k]? = some seat) (free : seat.holder = none) :
      ChunkMove request legacy disk reading (.lock k) (.lock k) [] (.cancelled k)
  | live (k : Nat) (unmarked : request.transferId ∉ legacy.ledger.cancelled) :
      ChunkMove request legacy disk reading (.cancelled k) .tau [] (.token k)
  | granted (k : Nat) (token : legacy.ledger.approved.lookup request.transferId = some request.token) :
      ChunkMove request legacy disk reading (.token k) .tau [] (.root k)
  | rooted (k : Nat) : ChunkMove request legacy disk reading (.root k) .tau [] (.lookup k)
  | found (k : Nat) (transfer : PendingTransfer) (here : legacy.ledger.pending.lookup request.transferId =
      some transfer) :
      ChunkMove request legacy disk reading (.lookup k) .tau [] (.received k transfer)
  | missing (k : Nat) (transfer : PendingTransfer) (file : TransferFile)
      (new : request.fileId ∉ legacy.ledger.filesOf request.transferId)
      (listed : transfer.files.find? (·.id == request.fileId) = some file) :
      ChunkMove request legacy disk reading (.received k transfer) .tau [] (.stamp k transfer file)
  | stamped (k : Nat) (transfer : PendingTransfer) (file : TransferFile) :
      ChunkMove request legacy disk reading (.stamp k transfer file) (.stamp request.transferId reading.now)
      []
        (.prepare k transfer file)
  | prepared (k : Nat) (transfer : PendingTransfer) (file : TransferFile)
      (allowed : reservedTarget ((receiveTarget file).1 ++ [(receiveTarget file).2]) = false)
      (safe : safeParent disk (receiveTarget file).1 = true) :
      ChunkMove request legacy disk reading (.prepare k transfer file)
      (.mkdirs (parentDirs (receiveTarget file).1)) []
        (.openFile k transfer file 0)
  | unprepared (k : Nat) (transfer : PendingTransfer) (file : TransferFile) (created : Nat)
      (reply : LegacyResponse)
      (allowed : reservedTarget ((receiveTarget file).1 ++ [(receiveTarget file).2]) = false)
      (safe : safeParent disk ((receiveTarget file).1.take created) = true) :
      ChunkMove request legacy disk reading (.prepare k transfer file)
        (.mkdirs (parentDirs ((receiveTarget file).1.take created))) [] (.unlock k true reply)
  | taken (k : Nat) (transfer : PendingTransfer) (file : TransferFile) (index : Nat) :
      ChunkMove request legacy disk reading (.openFile k transfer file index) .tau []
      (.openFile k transfer file (index + 1))
  | opened (k : Nat) (transfer : PendingTransfer) (file : TransferFile) (index : Nat)
      (free : disk.node (uniquePath file index) = none) :
      ChunkMove request legacy disk reading (.openFile k transfer file index)
      (.create (uniquePath file index))
        [.opened request.transferId file.id (uniquePath file index) disk.inodes.length]
        (.receive k ⟨transfer, file, uniquePath file index, disk.inodes.length, 0, 0⟩)
  | ended (k : Nat) (x : Writing) : ChunkMove request legacy disk reading (.receive k x) .tau [] (.flush k x)
  | appended (k : Nat) (x : Writing) (data : Bytes) (fits : x.received + data.length ≤ x.file.size) :
      ChunkMove request legacy disk reading (.receive k x) (.append x.inode data) []
        (.count k { x with received := x.received + data.length } data.length)
  | torn (k : Nat) (x : Writing) (data : Bytes) (reply : LegacyResponse) :
      ChunkMove request legacy disk reading (.receive k x) (.append x.inode data) [] (.remove k false x reply)
  | counted (k : Nat) (x : Writing) (amount : Nat) :
      ChunkMove request legacy disk reading (.count k x amount) (.count request.transferId amount)
        (if x.progressDue then
        [x.progress request ((legacy.bytes.lookup request.transferId).getD 0 + amount)] else [])
        (.receive k { x with reported := if x.progressDue then x.received else x.reported })
  | flushed (k : Nat) (x : Writing) (whole : x.received = x.file.size) :
      ChunkMove request legacy disk reading (.flush k x) .tau [] (.enter k x)
  | entered (k : Nat) (x : Writing) (free : legacy.decisions = none) :
      ChunkMove request legacy disk reading (.enter k x) .enter [] (.restamp k x)
  | restamped (k : Nat) (x : Writing) :
      ChunkMove request legacy disk reading (.restamp k x) (.stamp request.transferId reading.now) []
      (.recheck k x)
  | surviving (k : Nat) (x : Writing) (unmarked : request.transferId ∉ legacy.ledger.cancelled) :
      ChunkMove request legacy disk reading (.recheck k x) .tau [] (.report k x)
  | reported (k : Nat) (x : Writing) (cumulative : Nat) :
      ChunkMove request legacy disk reading (.report k x) .tau [x.progress request cumulative] (.commit k x)
  | committed (k : Nat) (x : Writing) :
      ChunkMove request legacy disk reading (.commit k x) (.edit (.receive request.transferId request.fileId))
        [.committed request.transferId request.fileId x.path x.inode] (.tally k x)
  | partway (k : Nat) (x : Writing) (fewer : (legacy.ledger.filesOf request.transferId).card <
      x.transfer.files.length) :
      ChunkMove request legacy disk reading (.tally k x) .tau [] (.leave k x.reply)
  | whole (k : Nat) (x : Writing)
      (all_ : (legacy.ledger.filesOf request.transferId).card ≥ x.transfer.files.length) :
      ChunkMove request legacy disk reading (.tally k x) .tau [] (.complete k x)
  | completed (k : Nat) (x : Writing) (transfer : PendingTransfer)
      (new : request.transferId ∉ legacy.ledger.completed)
      (here : legacy.ledger.pending.lookup request.transferId = some transfer) :
      ChunkMove request legacy disk reading (.complete k x) (.edit (.complete request.transferId)) []
      (.total k x transfer)
  | unannounced (k : Nat) (x : Writing)
      (lost : request.transferId ∈ legacy.ledger.completed ∨
        legacy.ledger.pending.lookup request.transferId = none) :
      ChunkMove request legacy disk reading (.complete k x) (.edit (.complete request.transferId)) []
        (.leave k x.reply)
  | announced (k : Nat) (x : Writing) (transfer : PendingTransfer) (bytes : Nat) :
      ChunkMove request legacy disk reading (.total k x transfer) .tau
        [.event (.transferComplete request.transferId), .history ⟨transfer, .completed, bytes, none⟩]
        (.uncount k x)
  | uncounted (k : Nat) (x : Writing) :
      ChunkMove request legacy disk reading (.uncount k x) (.edit (.uncount request.transferId)) []
      (.leave k x.reply)
  | removed (k : Nat) (held : Bool) (x : Writing) (reply : LegacyResponse)
      (ok : reading.fault ≠ some .remove) :
      ChunkMove request legacy disk reading (.remove k held x reply) (.remove x.path) []
      (.rollback k held x reply)
  | unremoved (k : Nat) (held : Bool) (x : Writing) (reply : LegacyResponse)
      (broken : reading.fault = some .remove) :
      ChunkMove request legacy disk reading (.remove k held x reply) .tau [] (.rollback k held x reply)
  | rolledBack (k : Nat) (x : Writing) (reply : LegacyResponse) :
      ChunkMove request legacy disk reading (.rollback k false x reply)
      (.rollback request.transferId x.received) [] (.unlock k true reply)
  | rolledBackHeld (k : Nat) (x : Writing) (reply : LegacyResponse) :
      ChunkMove request legacy disk reading (.rollback k true x reply)
      (.rollback request.transferId x.received) [] (.leave k reply)
  | left (k : Nat) (reply : LegacyResponse) : ChunkMove request legacy disk reading (.leave k reply) .leave
      [] (.unlock k true reply)
  | unlocked (k : Nat) (passed : Bool) (reply : LegacyResponse) :
      ChunkMove request legacy disk reading (.unlock k passed reply) (.unlock k) [] (.vacate k passed reply)
  | vacated (k : Nat) (passed : Bool) (reply : LegacyResponse) :
      ChunkMove request legacy disk reading (.vacate k passed reply) (.vacate k) [] (.done reply)
  | quit (phase : ChunkPhase) (k : Nat) (reply : LegacyResponse) (early : phase.early = some k) :
      ChunkMove request legacy disk reading phase .tau [] (.unlock k (!phase.entering) reply)
  | discarded (phase : ChunkPhase) (k : Nat) (held : Bool) (x : Writing) (reply : LegacyResponse)
      (discarding : phase.discarding = some (k, held, x)) :
      ChunkMove request legacy disk reading phase .tau [] (.remove k held x reply)

inductive LegacyOpMove (legacy : Legacy) (disk : ReceiverDisk) (reading : Reading) :
    LegacyOp → LegacyAct → List LegacyEntry → LegacyOp → Prop where
  | ruling (verdict : Ruling) (id : String) (phase next : RulingPhase) (act : LegacyAct)
      (log : List LegacyEntry) (moved : RulingMove verdict id legacy phase act log next) :
      LegacyOpMove legacy disk reading (.ruling verdict id phase) act log (.ruling verdict id next)
  | request (offer : Offer) (phase next : RequestPhase) (act : LegacyAct) (log : List LegacyEntry)
      (moved : RequestMove offer legacy reading phase act log next) :
      LegacyOpMove legacy disk reading (.request offer phase) act log (.request offer next)
  | approval (peer id : String) (phase next : ApprovalPhase) (act : LegacyAct) (log : List LegacyEntry)
      (moved : ApprovalMove peer id legacy phase act log next) :
      LegacyOpMove legacy disk reading (.approval peer id phase) act log (.approval peer id next)
  | chunk (request : ChunkRequest) (phase next : ChunkPhase) (act : LegacyAct) (log : List LegacyEntry)
      (moved : ChunkMove request legacy disk reading phase act log next) :
      LegacyOpMove legacy disk reading (.chunk request phase) act log (.chunk request next)

theorem enter_step_cases {Phase : Type} (legacy : Legacy) (next next' : Phase) (act : LegacyAct)
    (log : List LegacyEntry) (moved : enterStep legacy next = some (act, log, next')) :
    legacy.decisions = none ∧ act = .enter ∧ log = [] ∧ next' = next := by
  unfold enterStep at moved
  split at moved
  · rename_i free
    cases moved
    exact ⟨free, rfl, rfl, rfl⟩
  · cases moved

theorem ruling_next_move (ruling : Ruling) (id : String) (legacy : Legacy) (reading : Reading)
    (phase next : RulingPhase) (act : LegacyAct) (log : List LegacyEntry)
    (moved : phase.next ruling id legacy reading = some (act, log, next)) :
    RulingMove ruling id legacy phase act log next := by
  cases phase with
  | contains =>
      cases moved
      by_cases durable : reading.durable = true
      · rw [if_pos durable]
        exact .durable
      · rw [if_neg durable]
        exact .legacy
  | enter =>
      obtain ⟨free, rfl, rfl, rfl⟩ := enter_step_cases legacy _ _ _ _ moved
      exact .entered free
  | completed =>
      simp only [RulingPhase.next] at moved
      split at moved
      · cases moved
        exact .quit _ _ rfl
      · rename_i open_
        cases moved
        split
        · rename_i same
          exact .cancellable open_ same
        · rename_i other
          exact .incomplete open_ other
  | cancelled =>
      simp only [RulingPhase.next] at moved
      split at moved
      · cases moved
        exact .quit _ _ rfl
      · rename_i unmarked
        cases moved
        exact .live unmarked
  | approved =>
      simp only [RulingPhase.next] at moved
      split at moved
      · rename_i none_
        cases moved
        exact .undecided none_
      · rename_i token fresh granted
        cases moved
        exact .repeated fresh token rfl granted
      · cases moved
        exact .quit _ _ rfl
  | pending =>
      simp only [RulingPhase.next] at moved
      split at moved
      · cases moved
        exact .quit _ _ rfl
      · rename_i transfer token waiting
        cases moved
        exact .accepted token transfer rfl waiting
      · rename_i transfer waiting
        cases moved
        exact .rejected transfer rfl waiting
      · cases moved
  | check =>
      simp only [RulingPhase.next] at moved
      split at moved
      · cases moved
        exact .quit _ _ rfl
      · rename_i known
        cases moved
        exact .present known
  | bytes info =>
      cases moved
      exact .cancelled info
  | edit todo reply =>
      cases todo with
      | nil =>
          cases moved
          exact .left reply
      | cons head rest =>
          cases moved
          exact .edited _ _ rest reply
  | done reply => cases moved
  | durable => cases moved

theorem request_next_move (offer : Offer) (legacy : Legacy) (reading : Reading) (phase next : RequestPhase)
    (act : LegacyAct) (log : List LegacyEntry)
    (moved : phase.next offer legacy reading = some (act, log, next)) :
    RequestMove offer legacy reading phase act log next := by
  cases phase with
  | enter =>
      obtain ⟨free, rfl, rfl, rfl⟩ := enter_step_cases legacy _ _ _ _ moved
      exact .entered free
  | select =>
      simp only [RequestPhase.next] at moved
      split at moved
      · rename_i chosen
        cases moved
        refine .selected chosen.1 ?_
        intro id member
        have inside : id ∈ reading.order.toFinset := List.mem_toFinset.mpr member
        rw [chosen.2] at inside
        exact (Finset.mem_filter.mp inside).2
      · cases moved
  | prune todo =>
      cases todo with
      | nil =>
          cases moved
          exact .swept
      | cons head rest =>
          cases moved
          exact .pruned _ _ rest
  | contains =>
      simp only [RequestPhase.next] at moved
      split at moved
      · cases moved
        exact .quit _ _ rfl
      · rename_i absent
        split at moved
        · cases moved
          exact .quit _ _ rfl
        · rename_i total valid
          cases moved
          exact .checked total (by simpa using absent) valid
  | used total =>
      simp only [RequestPhase.next] at moved
      split at moved
      · cases moved
        exact .quit _ _ rfl
      · rename_i unmarked
        cases moved
        exact .uncancelled total unmarked
  | refused total =>
      simp only [RequestPhase.next] at moved
      split at moved
      · cases moved
        exact .quit _ _ rfl
      · rename_i none_
        cases moved
        exact .unrefused total (by simpa using none_)
  | existing total =>
      simp only [RequestPhase.next] at moved
      split at moved
      · rename_i none_
        cases moved
        exact .absent total none_
      · rename_i transfer found
        split at moved
        · cases moved
          exact .quit _ _ rfl
        · rename_i same
          cases moved
          simp only [not_or, not_not] at same
          exact .repeated total transfer found same.1
  | retry total =>
      cases moved
      exact .retried total _
  | capacity total =>
      simp only [RequestPhase.next] at moved
      split at moved
      · cases moved
        exact .quit _ _ rfl
      · cases moved
        exact .admitted total
  | stamp total =>
      cases moved
      exact .stamped total
  | pend total =>
      cases moved
      exact .registered total
  | edit todo reply =>
      cases todo with
      | nil =>
          cases moved
          exact .left reply
      | cons head rest =>
          cases moved
          exact .edited _ _ rest reply
  | done reply => cases moved

theorem approval_next_move (peer id : String) (legacy : Legacy) (phase next : ApprovalPhase) (act : LegacyAct)
    (log : List LegacyEntry) (moved : phase.next peer id legacy = some (act, log, next)) :
    ApprovalMove peer id legacy phase act log next := by
  cases phase with
  | owner =>
      simp only [ApprovalPhase.next] at moved
      split at moved
      · cases moved
        exact .foreign _
      · rename_i own
        cases moved
        refine .owned ?_
        intro transfer found
        simpa [found] using own
  | token =>
      simp only [ApprovalPhase.next] at moved
      split at moved
      · rename_i granted present
        cases moved
        exact .disclosed granted _ present
      · cases moved
        exact .ungranted
  | rejected =>
      simp only [ApprovalPhase.next] at moved
      split at moved
      · cases moved
        exact .answered _ _ (.inl rfl)
      · cases moved
        exact .unrefused
  | pending =>
      simp only [ApprovalPhase.next] at moved
      split at moved <;> cases moved <;> exact .answered _ _ (.inr rfl)
  | done reply => cases moved

section Chunk

variable (request : ChunkRequest) (legacy : Legacy) (disk : ReceiverDisk) (reading : Reading)

theorem legacy_prepare_move (k : Nat) (transfer : PendingTransfer) (file : TransferFile) (next : ChunkPhase)
    (act : LegacyAct) (log : List LegacyEntry)
    (moved : legacyPrepareStep disk reading k transfer file = some (act, log, next)) :
    ChunkMove request legacy disk reading (.prepare k transfer file) act log next := by
  simp only [legacyPrepareStep] at moved
  split at moved
  · cases moved
    exact .quit _ k _ rfl
  · rename_i allowed
    have free : reservedTarget ((receiveTarget file).1 ++ [(receiveTarget file).2]) =
      false := by simpa using allowed
    split at moved
    · rename_i created broken
      split at moved
      · rename_i safe
        cases moved
        exact .unprepared k transfer file created _ free safe
      · cases moved
    · split at moved
      · rename_i safe
        cases moved
        exact .prepared k transfer file free safe
      · cases moved
        exact .quit _ k _ rfl

theorem open_unique_move (k : Nat) (transfer : PendingTransfer) (file : TransferFile) (index : Nat)
    (next : ChunkPhase) (act : LegacyAct) (log : List LegacyEntry)
    (moved : openUniqueStep request disk reading k transfer file index = some (act, log, next)) :
    ChunkMove request legacy disk reading (.openFile k transfer file index) act log next := by
  simp only [openUniqueStep] at moved
  split at moved
  · cases moved
    exact .quit _ k _ rfl
  · split at moved
    · cases moved
      exact .quit _ k _ rfl
    · split at moved
      · cases moved
        exact .taken k transfer file index
      · rename_i free
        cases moved
        exact .opened k transfer file index free

theorem legacy_receive_move (k : Nat) (x : Writing) (next : ChunkPhase) (act : LegacyAct)
    (log : List LegacyEntry) (moved : legacyReceiveStep request legacy reading k x = some (act, log, next)) :
    ChunkMove request legacy disk reading (.receive k x) act log next := by
  simp only [legacyReceiveStep] at moved
  split at moved
  · cases moved
    exact .discarded _ k false x _ rfl
  · split at moved
    · cases moved
      exact .discarded _ k false x _ rfl
    · cases moved
  · cases moved
    exact .discarded _ k false x _ rfl
  · cases moved
    exact .ended k x
  · rename_i data arrived
    split at moved
    · cases moved
      exact .discarded _ k false x _ rfl
    · rename_i fits
      split at moved
      · cases moved
        exact .torn k x _ _
      · cases moved
        exact .appended k x data (by omega)

theorem legacy_complete_move (k : Nat) (x : Writing) (next : ChunkPhase) (act : LegacyAct)
    (log : List LegacyEntry) (moved : legacyCompleteStep request legacy k x = some (act, log, next)) :
    ChunkMove request legacy disk reading (.complete k x) act log next := by
  cases moved
  split
  · rename_i done
    exact .unannounced k x (.inl done)
  · rename_i new
    split
    · rename_i transfer here
      exact .completed k x transfer new here
    · rename_i none_
      exact .unannounced k x (.inr none_)

theorem chunk_next_move (phase next : ChunkPhase) (act : LegacyAct) (log : List LegacyEntry)
    (moved : phase.next request legacy disk reading = some (act, log, next)) :
    ChunkMove request legacy disk reading phase act log next := by
  cases phase with
  | seat =>
      cases moved
      exact .seated
  | lock k =>
      obtain ⟨seat, here, moved⟩ := Option.bind_eq_some_iff.mp moved
      split at moved
      · rename_i free
        cases moved
        exact .locked k seat here free
      · cases moved
  | cancelled k =>
      simp only [ChunkPhase.next] at moved
      split at moved
      · cases moved
        exact .quit _ k _ rfl
      · rename_i unmarked
        cases moved
        exact .live k unmarked
  | token k =>
      simp only [ChunkPhase.next] at moved
      split at moved
      · cases moved
        exact .quit _ k _ rfl
      · rename_i same
        cases moved
        exact .granted k (by simpa using same)
  | root k =>
      simp only [ChunkPhase.next] at moved
      split at moved
      · cases moved
        exact .quit _ k _ rfl
      · cases moved
        exact .rooted k
  | lookup k =>
      simp only [ChunkPhase.next] at moved
      split at moved
      · cases moved
        exact .quit _ k _ rfl
      · rename_i transfer here
        split at moved
        · cases moved
          exact .quit _ k _ rfl
        · cases moved
          exact .found k transfer here
  | received k transfer =>
      simp only [ChunkPhase.next] at moved
      split at moved
      · cases moved
        exact .quit _ k _ rfl
      · rename_i new
        split at moved
        · cases moved
          exact .quit _ k _ rfl
        · rename_i file listed
          cases moved
          exact .missing k transfer file new listed
  | stamp k transfer file =>
      cases moved
      exact .stamped k transfer file
  | prepare k transfer file =>
      exact legacy_prepare_move request legacy disk reading k transfer file next act log moved
  | openFile k transfer file index =>
      exact open_unique_move request legacy disk reading k transfer file index next act log moved
  | receive k x => exact legacy_receive_move request legacy disk reading k x next act log moved
  | count k x amount =>
      cases moved
      exact .counted k x amount
  | flush k x =>
      simp only [ChunkPhase.next] at moved
      split at moved
      · cases moved
        exact .discarded _ k false x _ rfl
      · split at moved
        · cases moved
          exact .discarded _ k false x _ rfl
        · rename_i whole
          cases moved
          exact .flushed k x (by simpa using whole)
  | enter k x =>
      obtain ⟨free, rfl, rfl, rfl⟩ := enter_step_cases legacy _ _ _ _ moved
      exact .entered k x free
  | restamp k x =>
      cases moved
      exact .restamped k x
  | recheck k x =>
      simp only [ChunkPhase.next] at moved
      split at moved
      · cases moved
        exact .discarded _ k true x _ rfl
      · rename_i unmarked
        cases moved
        exact .surviving k x unmarked
  | report k x =>
      cases moved
      exact .reported k x _
  | commit k x =>
      cases moved
      exact .committed k x
  | tally k x =>
      cases moved
      split
      · rename_i all_
        exact .whole k x all_
      · rename_i fewer
        exact .partway k x (by omega)
  | complete k x => exact legacy_complete_move request legacy disk reading k x next act log moved
  | total k x transfer =>
      cases moved
      exact .announced k x transfer _
  | uncount k x =>
      cases moved
      exact .uncounted k x
  | remove k held x reply =>
      cases moved
      split
      · rename_i broken
        exact .unremoved k held x reply broken
      · rename_i ok
        exact .removed k held x reply ok
  | rollback k held x reply =>
      cases moved
      cases held with
      | false => exact .rolledBack k x reply
      | true => exact .rolledBackHeld k x reply
  | leave k reply =>
      cases moved
      exact .left k reply
  | unlock k passed reply =>
      cases moved
      exact .unlocked k passed reply
  | vacate k passed reply =>
      cases moved
      exact .vacated k passed reply
  | done reply => cases moved

end Chunk

theorem legacy_op_move (legacy : Legacy) (disk : ReceiverDisk) (reading : Reading) (op op' : LegacyOp)
    (act : LegacyAct) (log : List LegacyEntry) (moved : op.next legacy disk reading = some (act, log, op')) :
    LegacyOpMove legacy disk reading op act log op' := by
  cases op <;> simp only [LegacyOp.next, Option.map_eq_some_iff, Prod.exists, Prod.mk.injEq] at moved <;>
    obtain ⟨_, _, _, moved, rfl, rfl, rfl⟩ := moved
  · exact .ruling _ _ _ _ _ _ (ruling_next_move _ _ _ _ _ _ _ _ moved)
  · exact .request _ _ _ _ _ (request_next_move _ _ _ _ _ _ _ moved)
  · exact .approval _ _ _ _ _ _ (approval_next_move _ _ _ _ _ _ _ moved)
  · exact .chunk _ _ _ _ _ (chunk_next_move _ _ _ _ _ _ _ _ moved)

theorem legacy_step_cases (state next : LegacyState) (label : LegacyLabel)
    (stepped : legacyStep state label = some next) :
    (∃ call, label = .call call ∧ next = { state with ops := state.ops ++ [call.op] }) ∨
    (∃ o reading op act log op', label = .advance o reading ∧ state.ops[o]? = some op ∧
      LegacyOpMove state.legacy state.disk reading op act log op' ∧ next = state.after o act log op') := by
  cases label with
  | call call => exact .inl ⟨call, rfl, by simpa [legacyStep] using stepped.symm⟩
  | advance o reading =>
      obtain ⟨op, here, stepped⟩ := Option.bind_eq_some_iff.mp stepped
      obtain ⟨⟨act, log, op'⟩, moved, stepped⟩ := Option.bind_eq_some_iff.mp stepped
      exact .inr ⟨o, reading, op, act, log, op', rfl, here, legacy_op_move _ _ _ _ _ _ _ moved,
        by simpa using stepped.symm⟩

end GoshTransfer
