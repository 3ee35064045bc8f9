import GoshTransfer.Conclusions
import GoshTransfer.Checkpoints

set_option autoImplicit false

namespace GoshTransfer

open InodeStore

-- The bytes of an upload that the counter of its transfer contains: a chunk is
-- written before it is counted, and a failed upload is taken out at once.
def ChunkPhase.counted : ChunkPhase → Nat
  | .receive _ x | .flush _ x | .enter _ x | .restamp _ x | .recheck _ x | .report _ x | .commit _ x |
      .remove _ _ x _
  | .rollback _ _ x _ => x.received
  | .count _ x amount => x.received - amount
  | _ => 0

def LegacyOp.inFlight (id : String) : LegacyOp → Nat
  | .chunk params phase => if params.transferId = id then phase.counted else 0
  | _ => 0

def LegacyState.inFlight (state : LegacyState) (id : String) : Nat :=
    (state.ops.map (LegacyOp.inFlight id)).sum

def PendingTransfer.committedSize (transfer : PendingTransfer) (received : Finset String) : Nat :=
  ((transfer.files.filter fun file => file.id ∈ received).map TransferFile.size).sum

def LegacyState.counter (state : LegacyState) (id : String) : Nat := (state.legacy.bytes.lookup id).getD 0

-- What an upload has received fits its file, and fills it once it is measured.
def ChunkPhase.Fits : ChunkPhase → Prop
  | .receive _ x | .flush _ x | .remove _ _ x _ | .rollback _ _ x _ => x.received ≤ x.file.size
  | .count _ x amount => x.received ≤ x.file.size ∧ amount ≤ x.received
  | .enter _ x | .restamp _ x | .recheck _ x | .report _ x | .commit _ x => x.received = x.file.size
  | _ => True

-- The phases between the announcement in the completed set and the end of the
-- counter.
def ChunkPhase.finishing : ChunkPhase → Bool
  | .total _ _ _ | .uncount _ _ => true
  | _ => false

def Finishing (id : String) (state : LegacyState) : Prop :=
  ∃ (o : Nat) (params : ChunkRequest) (phase : ChunkPhase), state.ops[o]? = some (.chunk params phase) ∧
    params.transferId = id ∧
    phase.finishing = true

theorem sum_set (id : String) (ops : List LegacyOp) (o : Nat) (op op' : LegacyOp) (here : ops[o]? = some op) :
    ((ops.set o op').map (LegacyOp.inFlight id)).sum + op.inFlight id =
    (ops.map (LegacyOp.inFlight id)).sum + op'.inFlight id := by
  induction ops generalizing o with
  | nil => simp at here
  | cons first rest ih =>
    cases o with
    | zero =>
      obtain rfl : first = op := by simpa using here
      simp only [List.set_cons_zero, List.map_cons, List.sum_cons]
      omega
    | succ o =>
      have later := ih o (by simpa using here)
      simp only [List.set_cons_succ, List.map_cons, List.sum_cons]
      omega

theorem in_flight_none (id : String) (ops : List LegacyOp) (idle : ∀ op ∈ ops, op.inFlight id = 0) :
    (ops.map (LegacyOp.inFlight id)).sum = 0 := by
  rw [List.sum_eq_zero_iff]
  intro n member
  obtain ⟨op, listed, rfl⟩ := List.mem_map.mp member
  exact idle op listed

theorem moved_fits (params : ChunkRequest) (legacy : Legacy) (disk : ReceiverDisk) (reading : Reading)
    (phase next : ChunkPhase) (act : LegacyAct) (log : List LegacyEntry)
    (moved : ChunkMove params legacy disk reading phase act log next) (fits : phase.Fits) :
    next.Fits := by
  cases moved with
  | opened k transfer file index free => exact Nat.zero_le _
  | appended k x data room => exact ⟨room, Nat.le_add_left _ _⟩
  | counted k x amount => exact fits.1
  | flushed k x whole => exact whole
  | discarded phase k held x reply discarding =>
    cases phase with
    | receive j y =>
      cases discarding
      exact fits
    | flush j y =>
      cases discarding
      exact fits
    | recheck j y =>
      cases discarding
      exact Nat.le_of_eq fits
    | _ => cases discarding
  | _ => first | exact fits | trivial

theorem counted_active (phase : ChunkPhase) (counts : phase.counted ≠ 0) : phase.active = true ∧
    phase.locked = true := by
  cases phase <;> first | exact ⟨rfl, rfl⟩ | exact absurd rfl counts

section Sizes

variable (transfer : PendingTransfer) (received : Finset String)

theorem committed_none : transfer.committedSize ∅ = 0 := by simp [PendingTransfer.committedSize]

theorem filter_insert_size (files : List TransferFile) (file : TransferFile)
    (distinct : (files.map TransferFile.id).Nodup) (listed : file ∈ files) (new : file.id ∉ received) :
    ((files.filter fun other => other.id ∈ insert file.id received).map TransferFile.size).sum =
      ((files.filter fun other => other.id ∈ received).map TransferFile.size).sum + file.size := by
  induction files with
  | nil => simp at listed
  | cons first rest ih =>
    obtain ⟨apart, later⟩ := List.nodup_cons.mp distinct
    obtain rfl | inRest := List.mem_cons.mp listed
    · have same : (rest.filter fun other => other.id ∈ insert file.id received) = rest.filter fun other =>
        other.id ∈ received := by
        refine List.filter_congr fun other member => ?_
        have different : other.id ≠ file.id := fun equal => apart (List.mem_map.mpr ⟨other, member, equal⟩)
        simp [different]
      simp only [List.filter_cons, Finset.mem_insert_self, decide_true, if_true, same, new, decide_false,
        Bool.false_eq_true, if_false,
        List.map_cons, List.sum_cons]
      omega
    · have different : first.id ≠ file.id := fun equal => apart (List.mem_map.mpr ⟨file, inRest, equal.symm⟩)
      have tail := ih later inRest
      by_cases known : first.id ∈ received
      · simp only [List.filter_cons, Finset.mem_insert, known, or_true, decide_true, if_true, List.map_cons,
          List.sum_cons] at tail ⊢
        omega
      · simpa only [List.filter_cons, Finset.mem_insert, different, known, or_self, decide_false,
          Bool.false_eq_true, if_false] using tail

theorem committed_insert (file : TransferFile) (distinct : (transfer.files.map TransferFile.id).Nodup)
    (listed : file ∈ transfer.files) (new : file.id ∉ received) :
    transfer.committedSize (insert file.id received) = transfer.committedSize received + file.size :=
  filter_insert_size received transfer.files file distinct listed new

theorem committed_le : transfer.committedSize received ≤ (transfer.files.map TransferFile.size).sum :=
  List.Sublist.sum_le_sum (List.filter_sublist.map _) (by simp)

theorem committed_whole (whole : transfer.fileIds ⊆ received) :
    transfer.committedSize received = (transfer.files.map TransferFile.size).sum := by
  have all : (transfer.files.filter fun file => file.id ∈ received) = transfer.files := by
    refine List.filter_eq_self.mpr fun file member => ?_
    exact decide_eq_true (whole (by simpa [PendingTransfer.fileIds] using ⟨file, member, rfl⟩))
  rw [PendingTransfer.committedSize, all]

end Sizes

-- The planned writes that take away what uploads have written.
def Edit.wipes (id : String) : Edit → Bool
  | .unreceive key | .uncount key | .uncomplete key => key = id
  | _ => false

-- What uploads report themselves.
def LegacyEntry.score : LegacyEntry → Bool
  | .event (.transferProgress _) => true
  | .history record => record.status = .completed
  | _ => false

def LegacyEntry.progressOf (id : String) : LegacyEntry → Option TransferProgress
  | .event (.transferProgress progress) => if progress.transferId = id then some progress else none
  | _ => none

def lastProgress (id : String) (log : List LegacyEntry) : Option TransferProgress :=
  (log.filterMap (LegacyEntry.progressOf id)).getLast?

-- From the progress at the end of a file to the announcement.
def ChunkPhase.concluding : ChunkPhase → Bool
  | .commit _ _ | .tally _ _ | .complete _ _ | .total _ _ _ => true
  | _ => false

theorem alone_in_flight (state : LegacyState) (locked : Locked state) (o : Nat) (params : ChunkRequest)
    (phase : ChunkPhase) (here : state.ops[o]? = some (.chunk params phase)) (inside : phase.locked = true) :
    state.inFlight params.transferId = phase.counted := by
  have others : ((state.ops.set o (.chunk params .seat)).map (LegacyOp.inFlight params.transferId)).sum =
    0 := by
    refine in_flight_none params.transferId _ fun op member => ?_
    obtain ⟨p, there⟩ := List.getElem?_of_mem member
    obtain ⟨rfl, rfl⟩ | ⟨other, before⟩ := Transition.set_cases state.ops o p _ op there
    · simp [LegacyOp.inFlight, ChunkPhase.counted]
    · cases op with
      | chunk params' phase' =>
        by_contra counts
        by_cases same : params'.transferId = params.transferId
        · simp only [LegacyOp.inFlight, if_pos same] at counts
          exact other (one_upload state locked p o params' params phase' phase before here same
            (counted_active phase' counts).2 inside)
        · simp [LegacyOp.inFlight, same] at counts
      | _ => rfl
  have parts := sum_set params.transferId state.ops o _ (.chunk params .seat) here
  have mine : LegacyOp.inFlight params.transferId (.chunk params phase) = phase.counted := if_pos rfl
  have rest : LegacyOp.inFlight params.transferId (.chunk params .seat) = 0 := if_pos rfl
  rw [others, mine, rest] at parts
  simp only [LegacyState.inFlight]
  omega

theorem idle_in_flight (id : String) (state : LegacyState)
    (idle : ∀ (o : Nat) (params : ChunkRequest) (phase : ChunkPhase),
      state.ops[o]? = some (.chunk params phase) →
      params.transferId = id → phase.active = false) : state.inFlight id = 0 := by
  refine in_flight_none id state.ops fun op member => ?_
  obtain ⟨p, there⟩ := List.getElem?_of_mem member
  cases op with
  | chunk params phase =>
    by_contra counts
    by_cases mine : params.transferId = id
    · simp only [LegacyOp.inFlight, if_pos mine] at counts
      have active := (counted_active phase counts).1
      rw [idle p params phase there mine] at active
      cases active
    · simp [LegacyOp.inFlight, mine] at counts
  | _ => rfl

theorem finishing_inside (phase : ChunkPhase) (finishing : phase.finishing = true) : phase.holds = true ∧
    phase.locked = true := by
  cases phase <;> first | exact ⟨rfl, rfl⟩ | cases finishing

theorem concluding_inside (phase : ChunkPhase) (concluding : phase.concluding = true) :
    phase.holds = true ∧ phase.locked = true ∧ phase.active = true := by
  cases phase <;> first | exact ⟨rfl, rfl, rfl⟩ | cases concluding

theorem registration_key (id : String) (log : List LegacyEntry) (transfer : PendingTransfer)
    (found : registration id log = some transfer) : transfer.id = id := by
  induction log using List.reverseRecOn with
  | nil => cases found
  | append_singleton log entry ih =>
    by_cases last : ∃ given, entry = .registered given ∧ given.id = id
    · obtain ⟨given, rfl, key⟩ := last
      rw [registration_new id log given key] at found
      cases found
      exact key
    · have quiet : ∀ given, .registered given ∈ [entry] → given.id ≠ id := by
        intro given member key
        exact last ⟨given, (List.mem_singleton.mp member).symm, key⟩
      rw [registration_quiet id log [entry] quiet] at found
      exact ih found

theorem checked_total (request : TransferRequest) (total : Nat) (valid : checkTransfer request = .ok total) :
    total = (request.files.map TransferFile.size).sum := by
  unfold checkTransfer at valid
  split at valid
  · cases valid
  · split at valid
    · cases valid
    · split at valid
      · cases valid
      · rename_i computed found
        cases valid
        simpa using (total_size_sum request.files 0 total found).1

-- While the transfer is approved, its counter is what has been committed and
-- what the upload under way has counted; when it is complete, it is gone.
structure Booked (id : String) (state : LegacyState) (transfer : PendingTransfer) : Prop where
  balanced : id ∉ state.legacy.ledger.completed ∨ Finishing id state →
    state.counter id = transfer.committedSize (state.legacy.ledger.filesOf id) + state.inFlight id
  cleared : id ∈ state.legacy.ledger.completed → ¬ Finishing id state → state.legacy.bytes.lookup id = none

structure Accounted (id : String) (state : LegacyState) : Prop where
  concluded : Concluded id state
  proclaimed : Proclaimed id state
  sums : ∀ transfer, .registered transfer ∈ state.log →
    transfer.totalSize = (transfer.files.map TransferFile.size).sum
  fits : ∀ (o : Nat) (params : ChunkRequest) (phase : ChunkPhase),
    state.ops[o]? = some (.chunk params phase) → phase.Fits
  finished : ∀ (o : Nat) (params : ChunkRequest) (phase : ChunkPhase),
    state.ops[o]? = some (.chunk params phase) →
    phase.finishing = true → params.transferId ∈ state.legacy.ledger.completed
  announces : ∀ (o k : Nat) (params : ChunkRequest) (x : Writing) (transfer : PendingTransfer),
    state.ops[o]? = some (.chunk params (.total k x transfer)) →
      state.legacy.ledger.pending.lookup params.transferId = some transfer
  wipes : ∀ (o : Nat) (op : LegacyOp), state.ops[o]? = some op → ∀ entry ∈ op.todo, entry.1.wipes id = true →
    state.settled.view id = Life.absent.view ∨ id ∈ state.settled.cancelled
  drafts : ∀ (o : Nat) (op : LegacyOp), state.ops[o]? = some op →
    ∀ entry ∈ op.todo, ∀ report ∈ entry.2, report.score = false
  idle : state.settled.approved.lookup id = none → id ∉ state.settled.cancelled → state.counter id = 0 ∨
    ∃ (o : Nat) (op : LegacyOp) (report : List LegacyEntry), state.ops[o]? = some op ∧
      (.uncount id, report) ∈ op.todo
  booked : ∀ transfer token, state.settled.view id = (Life.approved transfer token).view →
    Booked id state transfer
  progress : ∀ transfer, state.settled.pending.lookup id = some transfer →
    ∀ progress, .event (.transferProgress progress) ∈ since id state.log →
    progress.transferId = id → progress.bytesTransferred ≤ progress.totalBytes ∧
      progress.totalBytes = transfer.totalSize
  point : ∀ (o : Nat) (params : ChunkRequest) (phase : ChunkPhase),
    state.ops[o]? = some (.chunk params phase) → params.transferId = id →
    phase.concluding = true → ∃ progress, lastProgress id (since id state.log) = some progress ∧
      progress.bytesTransferred = state.counter id
  final : ∀ before after, since id state.log = before ++ completeEvent id :: after →
    ∃ progress, lastProgress id before = some progress ∧ progress.bytesTransferred = progress.totalBytes
  recorded : ∀ record, .history record ∈ state.log → record.transfer.id = id → record.status = .completed →
    record.bytesTransferred = record.transfer.totalSize

end GoshTransfer
