import GoshTransfer.ExactlyOnce
import GoshTransfer.Accounting
import GoshTransfer.LegacySender

set_option autoImplicit false

-- One version 1 send and the server it reaches.
namespace GoshTransfer

open InodeStore

def truthful (source : String → Bytes) (files : List TransferFile) : Bool :=
  files.all fun file => file.size == (source file.id).length

-- The sources are declared with their true sizes, and an upload of one of them is
-- handed its bytes from where it stands, cut anywhere.
def streamsSource (id : String) (source : String → Bytes) (state : LegacyState) : LegacyLabel → Bool
  | .call (.request offer) => offer.id ≠ id || truthful source offer.request.files
  | .call _ => true
  | .advance o reading =>
      match state.ops[o]?, reading.body with
      | some (.chunk params (.receive _ x)), .chunk data =>
          params.transferId ≠ id || data.isPrefixOf ((source params.fileId).drop x.received)
      | _, _ => true

-- What an upload answers once it has made up its mind.
def ChunkPhase.reply : ChunkPhase → Option LegacyResponse
  | .remove _ _ _ reply | .rollback _ _ _ reply | .leave _ reply | .unlock _ _ reply | .vacate _ _ reply |
      .done reply => some reply
  | _ => none

-- It has written its commit and has not made up its mind.
def ChunkPhase.filing : ChunkPhase → Bool
  | .tally _ _ | .complete _ _ | .total _ _ _ | .uncount _ _ => true
  | _ => false

def ChunkPhase.successful (phase : ChunkPhase) : Bool := phase.reply.any (isSuccess ·.code) || phase.filing

def CommittedIn (log : List LegacyEntry) (id file : String) : Prop :=
    ∃ path inode, .committed id file path inode ∈ log

theorem legacy_step_taken (state next : LegacyState) (label : LegacyLabel)
    (stepped : legacyStep state label = some next) :
    (∃ call, label = .call call ∧ next = { state with ops := state.ops ++ [call.op] }) ∨
    (∃ o reading op act log op', label = .advance o reading ∧ state.ops[o]? = some op ∧
      op.next state.legacy state.disk reading = some (act, log, op') ∧ next = state.after o act log op') := by
  cases label with
  | call call => exact .inl ⟨call, rfl, by simpa [legacyStep] using stepped.symm⟩
  | advance o reading =>
    obtain ⟨op, here, stepped⟩ := Option.bind_eq_some_iff.mp stepped
    obtain ⟨⟨act, log, op'⟩, taken, stepped⟩ := Option.bind_eq_some_iff.mp stepped
    exact .inr ⟨o, reading, op, act, log, op', rfl, here, taken, by simpa using stepped.symm⟩

theorem chunk_taken (legacy : Legacy) (disk : ReceiverDisk) (reading : Reading) (params : ChunkRequest)
    (phase : ChunkPhase) (op' : LegacyOp) (act : LegacyAct) (log : List LegacyEntry)
    (taken : (LegacyOp.chunk params phase).next legacy disk reading = some (act, log, op')) :
    ∃ next, phase.next params legacy disk reading = some (act, log, next) ∧ op' = .chunk params next := by
  obtain ⟨⟨act', log', next⟩, moved, same⟩ := Option.map_eq_some_iff.mp taken
  cases same
  exact ⟨next, moved, rfl⟩

section Chunk

variable (params : ChunkRequest) (legacy : Legacy) (disk : ReceiverDisk) (reading : Reading)
    (phase next : ChunkPhase) (act : LegacyAct)
  (log : List LegacyEntry)

omit next in
theorem stamp_unearned (k : Nat) (transfer : PendingTransfer) (file : TransferFile) (next : ChunkPhase)
    (taken : legacyPrepareStep disk reading k transfer file = some (act, log, next)) :
    next.successful = false := by
  simp only [legacyPrepareStep] at taken
  split at taken
  · cases taken
    rfl
  · split at taken <;> split at taken <;> cases taken <;> rfl

theorem open_unearned (k : Nat) (transfer : PendingTransfer) (file : TransferFile) (index : Nat)
    (taken : openUniqueStep params disk reading k transfer file index = some (act, log, next)) :
    next.successful = false := by
  simp only [openUniqueStep] at taken
  split at taken
  · cases taken
    rfl
  · split at taken
    · cases taken
      rfl
    · split at taken <;> cases taken <;> rfl

theorem receive_unearned (k : Nat) (x : Writing)
    (taken : legacyReceiveStep params legacy reading k x = some (act, log, next)) :
    next.successful = false := by
  simp only [legacyReceiveStep] at taken
  split at taken
  · cases taken
    rfl
  · split at taken <;> cases taken
    rfl
  · cases taken
    rfl
  · cases taken
    rfl
  · split at taken
    · cases taken
      rfl
    · split at taken <;> cases taken <;> rfl

theorem success_earned (taken : phase.next params legacy disk reading = some (act, log, next))
    (good : next.successful = true) :
    phase.successful = true ∨ params.fileId ∈ legacy.ledger.filesOf params.transferId ∨
      ∃ k x, phase = .commit k x := by
  cases phase with
  | commit k x => exact .inr (.inr ⟨k, x, rfl⟩)
  | tally k x => exact .inl rfl
  | complete k x => exact .inl rfl
  | total k x transfer => exact .inl rfl
  | uncount k x => exact .inl rfl
  | received k transfer =>
    simp only [ChunkPhase.next] at taken
    split at taken
    · exact .inr (.inl (by assumption))
    · split at taken <;> cases taken <;> cases good
  | prepare k transfer file => simp [stamp_unearned disk reading act log k transfer file next taken] at good
  | openFile k transfer file index =>
      simp [open_unearned params disk reading next act log k transfer file index taken] at good
  | receive k x => simp [receive_unearned params legacy reading next act log k x taken] at good
  | lock k =>
    obtain ⟨seat, -, taken⟩ := Option.bind_eq_some_iff.mp taken
    split at taken <;> cases taken
    cases good
  | lookup k =>
    simp only [ChunkPhase.next] at taken
    split at taken
    · cases taken
      cases good
    · split at taken <;> cases taken <;> cases good
  | flush k x =>
    simp only [ChunkPhase.next] at taken
    split at taken
    · cases taken
      cases good
    · split at taken <;> cases taken <;> cases good
  | enter k x =>
    obtain ⟨-, -, -, rfl⟩ := enter_step_cases _ _ _ _ _ taken
    cases good
  | cancelled k =>
    simp only [ChunkPhase.next] at taken
    split at taken <;> cases taken <;> cases good
  | token k =>
    simp only [ChunkPhase.next] at taken
    split at taken <;> cases taken <;> cases good
  | root k =>
    simp only [ChunkPhase.next] at taken
    split at taken <;> cases taken <;> cases good
  | recheck k x =>
    simp only [ChunkPhase.next] at taken
    split at taken <;> cases taken <;> cases good
  | rollback k held x reply =>
    cases taken
    cases held <;> exact .inl good
  | done reply => cases taken
  | _ =>
    cases taken
    exact .inl good

theorem write_streams (inode : Nat) (data : Bytes) (n : Nat)
    (taken : phase.next params legacy disk reading = some (.append inode data, log, next))
    (filled : next.filled = some n) : ∃ k x, phase = .receive k x ∧ reading.body = .chunk data ∧
      n = x.received + data.length := by
  have moved := chunk_next_move params legacy disk reading phase next (.append inode data) log taken
  cases moved with
  | torn k x data reply => cases filled
  | appended k x data fits =>
    cases filled
    refine ⟨k, x, rfl, ?_, rfl⟩
    simp only [ChunkPhase.next, legacyReceiveStep] at taken
    split at taken
    · cases taken
    · split at taken <;> cases taken
    · cases taken
    · cases taken
    · next body came =>
      split at taken
      · cases taken
      · split at taken <;> cases taken
        exact came

end Chunk

def LegacyEntry.deposit : LegacyEntry → Option Nat
  | .committed _ _ _ inode => some inode
  | _ => none

-- Where uploads and their answers come from, whatever is uploaded.
structure Tracked (state : LegacyState) : Prop where
  approvals : Approvals state
  filed : Filed state
  known : ∀ (o : Nat) (params : ChunkRequest) (phase : ChunkPhase) (transfer : PendingTransfer),
    state.ops[o]? = some (.chunk params phase) →
    phase.transfer = some transfer → .registered transfer ∈ state.log ∧ transfer.id = params.transferId
  listed : ∀ (o : Nat) (params : ChunkRequest) (phase : ChunkPhase) (transfer : PendingTransfer) (file :
    TransferFile),
    state.ops[o]? = some (.chunk params phase) → phase.listing = some (transfer, file) →
    transfer.files.find? (·.id == params.fileId) = some file
  measured : ∀ (o : Nat) (params : ChunkRequest) (phase : ChunkPhase) (x : Writing),
    state.ops[o]? = some (.chunk params phase) →
    phase.measured = some x → x.received = x.file.size
  distinct : (state.log.filterMap LegacyEntry.deposit).Nodup
  received : ∀ id file, file ∈ state.legacy.ledger.filesOf id → CommittedIn state.log id file
  served : ∀ (o : Nat) (params : ChunkRequest) (phase : ChunkPhase),
    state.ops[o]? = some (.chunk params phase) →
    phase.successful = true → CommittedIn state.log params.transferId params.fileId

section Step

variable (state : LegacyState) (tracked : Tracked state) (o : Nat) (reading : Reading) (op op' : LegacyOp)
    (act : LegacyAct) (log : List LegacyEntry)
  (here : state.ops[o]? = some op) (taken : op.next state.legacy state.disk reading = some (act, log, op'))

include tracked here taken

theorem step_recorded_transfer (p : Nat) (params : ChunkRequest) (phase : ChunkPhase)
    (transfer : PendingTransfer) (there : (state.after o act log op').ops[p]? = some (.chunk params phase))
    (has : phase.transfer = some transfer) :
    .registered transfer ∈ (state.after o act log op').log ∧ transfer.id = params.transferId := by
  rcases Transition.set_cases state.ops o p op' _ there with ⟨rfl, rfl⟩ | ⟨_, before⟩
  · cases legacy_op_move _ _ _ _ _ _ _ taken with
    | chunk params stage next act log moved =>
      rcases chunk_moved_transfer params _ _ _ stage phase act log moved transfer has with before |
        ⟨k, rfl, found⟩
      · obtain ⟨member, key⟩ := tracked.known p params stage transfer here before
        exact ⟨List.mem_append_left _ member, key⟩
      · have registered := tracked.approvals.issued.record _ transfer found
        exact ⟨List.mem_append_left _ (registration_member _ _ transfer registered),
          registration_key _ _ transfer registered⟩
  · obtain ⟨member, key⟩ := tracked.known p params phase transfer before has
    exact ⟨List.mem_append_left _ member, key⟩

theorem step_listed (p : Nat) (params : ChunkRequest) (phase : ChunkPhase) (transfer : PendingTransfer)
    (file : TransferFile) (there : (state.after o act log op').ops[p]? = some (.chunk params phase))
    (has : phase.listing = some (transfer, file)) :
    transfer.files.find? (·.id == params.fileId) = some file := by
  rcases Transition.set_cases state.ops o p op' _ there with ⟨rfl, rfl⟩ | ⟨_, before⟩
  · cases legacy_op_move _ _ _ _ _ _ _ taken with
    | chunk params stage next act log moved =>
      rcases moved_listed params _ _ _ stage phase act log moved transfer file has with before | found
      · exact tracked.listed p params stage transfer file here before
      · exact found
  · exact tracked.listed p params phase transfer file before has

theorem step_gauged (p : Nat) (params : ChunkRequest) (phase : ChunkPhase) (x : Writing)
    (there : (state.after o act log op').ops[p]? = some (.chunk params phase))
    (has : phase.measured = some x) :
    x.received = x.file.size := by
  rcases Transition.set_cases state.ops o p op' _ there with ⟨rfl, rfl⟩ | ⟨_, before⟩
  · cases legacy_op_move _ _ _ _ _ _ _ taken with
    | chunk params stage next act log moved =>
      have carried := tracked.measured p params stage x here
      cases moved with
      | flushed k x whole =>
        cases has
        exact whole
      | _ => first | exact carried has | cases has
  · exact tracked.measured p params phase x before has

theorem step_distinct : ((state.after o act log op').log.filterMap LegacyEntry.deposit).Nodup := by
  have moved := moved_file state tracked.approvals.base o reading op op' act log here
    (legacy_op_move _ _ _ _ _ _ _ taken)
  have quiet (silent : log.filterMap LegacyEntry.deposit = []) :
    ((state.log ++ log).filterMap LegacyEntry.deposit).Nodup := by
    rw [List.filterMap_append, silent, List.append_nil]
    exact tracked.distinct
  cases moved with
  | commit params k x =>
    have new : x.inode ∉ state.log.filterMap LegacyEntry.deposit := by
      intro member
      obtain ⟨entry, told, same⟩ := List.mem_filterMap.mp member
      cases entry with
      | committed id file path inode =>
        cases same
        exact (tracked.filed.stored id file path x.inode told).2.2 o _ x.path here rfl
      | _ => cases same
    change ((state.log ++ _).filterMap LegacyEntry.deposit).Nodup
    simp only [List.filterMap_append, List.filterMap_cons, List.filterMap_nil, LegacyEntry.deposit]
    refine List.nodup_append.mpr ⟨tracked.distinct, List.nodup_singleton _, ?_⟩
    intro inode old other last same
    rw [List.mem_singleton] at last
    exact new (last ▸ same ▸ old)
  | keep op op' act log quiet' same filled silent =>
    refine quiet (List.filterMap_eq_nil_iff.mpr ?_)
    intro entry member
    have plain := silent entry member
    cases entry <;> first | rfl | cases plain
  | _ => exact quiet rfl

theorem step_filed_receipt (id file : String)
    (now : file ∈ (state.after o act log op').legacy.ledger.filesOf id) :
    CommittedIn (state.after o act log op').log id file := by
  rw [show (state.after o act log op').legacy.ledger = act.book state.legacy.ledger from apply_ledger
    state.legacy o act] at now
  rcases book_files state.legacy.ledger act id file now with before | rfl
  · obtain ⟨path, inode, member⟩ := tracked.received id file before
    exact ⟨path, inode, List.mem_append_left _ member⟩
  · obtain ⟨k, x, params, rfl, rfl, rfl⟩ :=
      receive_commits state tracked.approvals.base o reading op op' log here id file
        (legacy_op_move _ _ _ _ _ _ _ taken)
    cases taken
    exact ⟨x.path, x.inode, List.mem_append_right _ (List.mem_singleton_self _)⟩

theorem step_served (p : Nat) (params : ChunkRequest) (phase : ChunkPhase)
    (there : (state.after o act log op').ops[p]? = some (.chunk params phase))
    (good : phase.successful = true) :
    CommittedIn (state.after o act log op').log params.transferId params.fileId := by
  have kept (before : CommittedIn state.log params.transferId params.fileId) :
      CommittedIn (state.after o act log op').log params.transferId params.fileId := by
    obtain ⟨path, inode, member⟩ := before
    exact ⟨path, inode, List.mem_append_left _ member⟩
  rcases Transition.set_cases state.ops o p op' _ there with ⟨rfl, rfl⟩ | ⟨_, before⟩
  · cases legacy_op_move _ _ _ _ _ _ _ taken with
    | chunk params stage next act log moved =>
      obtain ⟨next, stepped, same⟩ := chunk_taken _ _ _ params stage _ act log taken
      cases same
      rcases success_earned params _ _ _ stage phase act log stepped good with already | found | ⟨k, x, rfl⟩
      · exact kept (tracked.served p params stage here already)
      · exact kept (tracked.received _ _ found)
      · cases stepped
        exact ⟨x.path, x.inode, List.mem_append_right _ (List.mem_singleton_self _)⟩
  · exact kept (tracked.served p params phase before good)

end Step

theorem tracked_step (state next : LegacyState) (label : LegacyLabel) (tracked : Tracked state)
    (stepped : legacyStep state label = some next) : Tracked next := by
  have approvals := approvals_step state next label tracked.approvals stepped
  have filed := filed_step state next label tracked.approvals.base tracked.filed stepped
  rcases legacy_step_taken state next label stepped with ⟨call, _, rfl⟩ |
    ⟨o, reading, op, act, log, op', _, here, taken, rfl⟩
  · have old (p : Nat) (params : ChunkRequest) (phase : ChunkPhase)
      (there : (state.ops ++ [call.op])[p]? = some (.chunk params phase)) :
        state.ops[p]? = some (.chunk params phase) ∨ phase = .seat := by
      rcases Transition.append_cases state.ops p call.op _ there with before | new
      · exact .inl before
      · cases call <;> cases new
        exact .inr rfl
    refine ⟨approvals, filed, ?_, ?_, ?_, tracked.distinct, tracked.received, ?_⟩
    · intro p params phase transfer there has
      rcases old p params phase there with before | rfl
      · exact tracked.known p params phase transfer before has
      · cases has
    · intro p params phase transfer file there has
      rcases old p params phase there with before | rfl
      · exact tracked.listed p params phase transfer file before has
      · cases has
    · intro p params phase x there has
      rcases old p params phase there with before | rfl
      · exact tracked.measured p params phase x before has
      · cases has
    · intro p params phase there good
      rcases old p params phase there with before | rfl
      · exact tracked.served p params phase before good
      · cases good
  · exact ⟨approvals, filed, step_recorded_transfer state tracked o reading op op' act log here taken,
      step_listed state tracked o reading op op' act log here taken,
      step_gauged state tracked o reading op op' act log here taken,
      step_distinct state tracked o reading op op' act log here taken,
      step_filed_receipt state tracked o reading op op' act log here taken,
      step_served state tracked o reading op op' act log here taken⟩

theorem initial_tracked (state : LegacyState) (initial : LegacyInitial state) : Tracked state := by
  have idle (p : Nat) (op : LegacyOp) : state.ops[p]? ≠ some op := by simp [initial.idle]
  refine ⟨initial_approvals state initial, initial_filed state initial, ?_, ?_, ?_,
    by simp [initial.silent], ?_, ?_⟩
  · intro p params phase transfer there
    exact absurd there (idle p _)
  · intro p params phase transfer file there
    exact absurd there (idle p _)
  · intro p params phase x there
    exact absurd there (idle p _)
  · intro id file member
    rw [initial.fresh] at member
    cases member
  · intro p params phase there
    exact absurd there (idle p _)

-- What the uploads of a transfer with true sizes write are prefixes of its sources.
structure Streamed (id : String) (source : String → Bytes) (state : LegacyState) : Prop where
  tracked : Tracked state
  offers : ∀ (o : Nat) (offer : Offer) (phase : RequestPhase), state.ops[o]? = some (.request offer phase) →
    offer.id = id →
    truthful source offer.request.files = true
  records : ∀ transfer, .registered transfer ∈ state.log → transfer.id = id →
    truthful source transfer.files = true
  content : ∀ (o : Nat) (params : ChunkRequest) (phase : ChunkPhase) (path : Path) (inode n : Nat),
    state.ops[o]? = some (.chunk params phase) → params.transferId = id → phase.dest = some (path, inode) →
      phase.filled = some n →
    state.disk.inodes[inode]? = some ((source params.fileId).take n)
  stored : ∀ file path inode, .committed id file path inode ∈ state.log →
    state.disk.inodes[inode]? = some (source file)

section Step

variable (id : String) (source : String → Bytes) (state : LegacyState) (streamed : Streamed id source state)
    (o : Nat) (reading : Reading)
  (op op' : LegacyOp) (act : LegacyAct) (log : List LegacyEntry) (here : state.ops[o]? = some op)
  (taken : op.next state.legacy state.disk reading = some (act, log, op'))

include streamed here taken

theorem step_offers (p : Nat) (offer : Offer) (phase : RequestPhase)
    (there : (state.after o act log op').ops[p]? = some (.request offer phase)) (mine : offer.id = id) :
    truthful source offer.request.files = true := by
  rcases Transition.set_cases state.ops o p op' _ there with ⟨rfl, rfl⟩ | ⟨_, before⟩
  · cases legacy_op_move _ _ _ _ _ _ _ taken with
    | request offer stage next act log moved => exact streamed.offers p offer stage here mine
  · exact streamed.offers p offer phase before mine

theorem step_true_records (transfer : PendingTransfer)
    (told : .registered transfer ∈ (state.after o act log op').log) (mine : transfer.id = id) :
    truthful source transfer.files = true := by
  rcases List.mem_append.mp told with old | new
  · exact streamed.records transfer old mine
  · obtain ⟨offer, total, rfl, rfl⟩ := (moved_reports _ _ _ _ _ _ _ (legacy_op_move _ _ _ _ _ _ _ taken)
      (streamed.tracked.approvals.base.drafted o op here)).1 transfer new
    exact streamed.offers o offer _ here mine

theorem step_content (allowed : streamsSource id source state (.advance o reading) = true) (p : Nat)
    (params : ChunkRequest) (phase : ChunkPhase) (path : Path) (inode n : Nat)
    (there : (state.after o act log op').ops[p]? = some (.chunk params phase))
    (mine : params.transferId = id) (dest : phase.dest = some (path, inode))
    (filled : phase.filled = some n) :
    (act.store state.disk).inodes[inode]? = some ((source params.fileId).take n) := by
  have moved := moved_file state streamed.tracked.approvals.base o reading op op' act log here
    (legacy_op_move _ _ _ _ _ _ _ taken)
  have placed := streamed.tracked.filed.placed
  rcases Transition.set_cases state.ops o p op' _ there with ⟨rfl, rfl⟩ | ⟨different, before⟩
  · obtain ⟨stage, rfl⟩ : ∃ stage, op = .chunk params stage := by
      cases legacy_op_move _ _ _ _ _ _ _ taken with
      | chunk params stage next act log moved => exact ⟨stage, rfl⟩
    obtain ⟨next, stepped, same⟩ := chunk_taken _ _ _ params stage _ act log taken
    cases same
    cases moved with
    | create params stage next transfer file new free listing before now empty =>
      have equal : (new, state.disk.inodes.length) = (path, inode) := Option.some.inj (now.symm.trans dest)
      cases equal
      have zero : n = 0 := Option.some.inj (filled.symm.trans empty)
      simp [LegacyAct.store, zero]
    | grow op op' own own' data before now fills =>
      have equal : (own, own') = (path, inode) := Option.some.inj (now.symm.trans dest)
      cases equal
      obtain ⟨k, x, rfl, came, rfl⟩ := write_streams params _ _ _ stage phase _ inode data n stepped filled
      have prior := streamed.content p params _ path inode x.received here mine before rfl
      -- The bytes that have come are the next ones of the source.
      have prefixed : data <+: (source params.fileId).drop x.received := by
        simpa [streamsSource, here, came, mine] using allowed
      obtain ⟨rest, split⟩ := prefixed
      have appended := inode_append state.disk inode inode data _ prior
      rw [if_pos rfl] at appended
      rw [List.take_add, ← split, List.take_left]
      exact appended
    | drop op op' gone own before now empty =>
      rw [show phase.dest = none from now] at dest
      cases dest
    | abandon params k held x reply broken => cases dest
    | commit params k x => cases dest
    | dirs op op' paths before now none_ =>
      rw [show phase.dest = none from now] at dest
      cases dest
    | keep op op' act log quiet same fills silent =>
      rw [quiet]
      exact streamed.content p params stage path inode n here mine (same.symm.trans dest) (fills n filled)
  · refine foreign_bytes state reading.fault op op' act log moved inode _
      (streamed.content p params phase path inode n before mine dest filled) ?_
    intro path' own
    exact different (placed.apart p o _ op path path' inode before here dest own)

theorem step_deposits (file : String) (path : Path) (inode : Nat)
    (told : .committed id file path inode ∈ (state.after o act log op').log) :
    (act.store state.disk).inodes[inode]? = some (source file) := by
  have moved := moved_file state streamed.tracked.approvals.base o reading op op' act log here
    (legacy_op_move _ _ _ _ _ _ _ taken)
  rcases List.mem_append.mp told with old | new
  · refine foreign_bytes state reading.fault op op' act log moved inode _
      (streamed.stored file path inode old) ?_
    intro path'
    exact (streamed.tracked.filed.stored id file path inode old).2.2 o op path' here
  · cases moved with
    | commit params k x =>
      simp only [List.mem_singleton, LegacyEntry.committed.injEq] at new
      obtain ⟨rfl, rfl, rfl, rfl⟩ := new
      have written := streamed.content o params _ x.path x.inode x.received here rfl rfl rfl
      have found := streamed.tracked.listed o params _ x.transfer x.file here rfl
      obtain ⟨registered, key⟩ := streamed.tracked.known o params _ x.transfer here rfl
      have declared : x.file.size = (source x.file.id).length := by
        have all_ := streamed.records x.transfer registered key
        simpa using List.all_eq_true.mp all_ x.file (List.mem_of_find?_eq_some found)
      have named : x.file.id = params.fileId := by simpa using List.find?_some found
      rw [streamed.tracked.measured o params _ x here rfl, declared, named, List.take_length] at written
      exact written
    | keep op op' act log quiet same fills silent => cases silent _ new
    | create params phase next transfer listed new' free listing before now empty => simp at new
    | _ => cases new

end Step

theorem streamed_step (id : String) (source : String → Bytes) (state next : LegacyState)
    (label : LegacyLabel) (streamed : Streamed id source state)
    (allowed : streamsSource id source state label = true) (stepped : legacyStep state label = some next) :
    Streamed id source next := by
  have tracked := tracked_step state next label streamed.tracked stepped
  rcases legacy_step_taken state next label stepped with ⟨call, rfl, rfl⟩ |
    ⟨o, reading, op, act, log, op', rfl, here, taken, rfl⟩
  · refine ⟨tracked, ?_, streamed.records, ?_, streamed.stored⟩
    · intro p offer phase there mine
      rcases Transition.append_cases state.ops p call.op _ there with before | new
      · exact streamed.offers p offer phase before mine
      · cases call <;> cases new
        simpa [streamsSource, mine] using allowed
    · intro p params phase path inode n there mine dest filled
      exact streamed.content p params phase path inode n (called_dest state call p _ path inode there dest)
        mine dest filled
  · exact ⟨tracked, step_offers id source state streamed o reading op op' act log here taken,
      step_true_records id source state streamed o reading op op' act log here taken,
      step_content id source state streamed o reading op op' act log here taken allowed,
      step_deposits id source state streamed o reading op op' act log here taken⟩

theorem initial_streamed (id : String) (source : String → Bytes) (state : LegacyState)
    (initial : LegacyInitial state) :
    Streamed id source state := by
  refine ⟨initial_tracked state initial, ?_, ?_, ?_, ?_⟩
  · intro p offer phase there
    simp [initial.idle] at there
  · intro transfer told
    simp [initial.silent] at told
  · intro p params phase path inode n there
    simp [initial.idle] at there
  · intro file path inode told
    simp [initial.silent] at told

def SendAttempt.succeeds : SendAttempt → Bool
  | .opened _ _ (.answered code _ _) => isSuccess code
  | _ => false

section Sender

variable (client : TransferClient) (call : LegacySend)

theorem send_file_answered (file : TransferFile) (attempt : SendAttempt) (sender : LegacySender)
    (ok : (sendFile client call file attempt sender).2 = .ok ()) : attempt.succeeds = true := by
  unfold sendFile at ok
  split at ok
  · cases ok
  · split at ok
    · cases ok
    · split at ok
      · cases ok
      · split at ok
        · cases ok
        · next good => simpa [SendAttempt.succeeds] using good

-- Induction on the attempts that are left.
theorem retry_loop_answered (file : TransferFile) (tries : Nat → SendAttempt) (baseline left attempt : Nat)
    (sender : LegacySender)
    (ok : (retryLoop client call file tries baseline left attempt sender).2 = some (.ok ())) :
    ∃ n, (tries n).succeeds = true := by
  induction left generalizing attempt sender with
  | zero => cases ok
  | succ left ih =>
    rw [retryLoop] at ok
    split at ok
    · next answered =>
      exact ⟨attempt, send_file_answered client call file _ _ (congrArg Prod.snd answered)⟩
    · split at ok
      · exact ih (attempt + 1) _ ok
      · cases ok

theorem file_loop_answered (tries : Nat → Nat → SendAttempt) (files : List TransferFile) (k : Nat)
    (sender : LegacySender) (ok : (fileLoop client call tries k files sender).2 = some (.ok ())) :
    ∀ i < files.length, ∃ n, (tries (k + i) n).succeeds = true := by
  induction files generalizing k sender with
  | nil => simp
  | cons file rest ih =>
    rw [fileLoop] at ok
    split at ok
    · next sent =>
      intro i inside
      cases i with
      | zero => exact retry_loop_answered client call file (tries k) _ _ _ _ (congrArg Prod.snd sent)
      | succ i =>
        obtain ⟨n, good⟩ := ih (k + 1) _ ok i (by simpa using inside)
        exact ⟨n, by rwa [Nat.add_right_comm, Nat.add_assoc] at good⟩
    · next failed sent => exact (failed ok).elim

theorem send_answered (empty : SendError) (tries : Nat → Nat → SendAttempt)
    (ok : (sendListed client call empty tries).2 = some (.ok ())) :
    ∀ i < call.files.length, ∃ n, (tries i n).succeeds = true := by
  simp only [sendListed] at ok
  split at ok
  · cases ok
  · split at ok
    · cases ok
    · split at ok
      · cases ok
      · next sent =>
        intro i inside
        obtain ⟨n, good⟩ :=
          file_loop_answered client call tries call.files 0 _ (congrArg Prod.snd sent) i inside
        exact ⟨n, by simpa using good⟩
      · cases ok

end Sender

-- Every success the sender has seen is one that the server has answered to an
-- upload of that file.
def Acknowledged (state : LegacyState) (call : LegacySend) (tries : Nat → Nat → SendAttempt) : Prop :=
  ∀ k file n, call.files[k]? = some file → (tries k n).succeeds = true →
    ∃ (o : Nat) (params : ChunkRequest) (reply : LegacyResponse),
    state.ops[o]? = some (.chunk params (.done reply)) ∧ isSuccess reply.code = true ∧
      params.transferId = call.transferId ∧
      params.fileId = file.id

theorem deposit_unique (log : List LegacyEntry) (distinct : (log.filterMap LegacyEntry.deposit).Nodup)
    (entry other : LegacyEntry) (first : entry ∈ log) (second : other ∈ log) (inode : Nat)
    (here : entry.deposit = some inode) (there : other.deposit = some inode) :
    entry = other := by
  induction log with
  | nil => cases first
  | cons head rest ih =>
    have later (late : entry ∈ rest) (late' : other ∈ rest) : entry = other := by
      refine ih ?_ late late'
      exact (List.Sublist.filterMap _ (List.sublist_cons_self head rest)).nodup distinct
    have again (told : head.deposit = some inode) (late : LegacyEntry) (member : late ∈ rest) :
      late.deposit ≠ some inode := by
      intro same
      rw [List.filterMap_cons_some told] at distinct
      exact (List.nodup_cons.mp distinct).1 (List.mem_filterMap.mpr ⟨late, member, same⟩)
    rcases List.mem_cons.mp first with rfl | late <;> rcases List.mem_cons.mp second with rfl | late'
    · rfl
    · exact absurd there (again here other late')
    · exact absurd here (again there entry late)
    · exact later late late'

-- A send that succeeds has put every file where its commit says, with the
-- bytes of its source, and no two commits share a name.
theorem legacy_success_means_delivery (client : TransferClient) (call : LegacySend) (empty : SendError)
    (tries : Nat → Nat → SendAttempt) (source : String → Bytes) (start state : LegacyState)
    (initial : LegacyInitial start)
    (run : Transition.Run legacyStep
      (fun state label => streamsSource call.transferId source state label = true) start state)
    (acknowledged : Acknowledged state call tries)
    (ok : (sendListed client call empty tries).2 = some (.ok ())) :
    (∀ file ∈ call.files, ∃ path inode, .committed call.transferId file.id path inode ∈ state.log ∧
      state.disk.node path = some (.file inode) ∧ state.disk.inodes[inode]? = some (source file.id)) ∧
    ∀ id file path inode id' file' inode', .committed id file path inode ∈ state.log →
      .committed id' file' path inode' ∈ state.log → id = id' ∧ file = file' := by
  have streamed := Transition.run_invariant legacyStep _ (Streamed call.transferId source)
    (fun state label next streamed allowed stepped => streamed_step _ source state next label streamed
    allowed stepped)
    start state run (initial_streamed _ source start initial)
  have tracked := streamed.tracked
  refine ⟨?_, ?_⟩
  · intro file member
    obtain ⟨k, inside, rfl⟩ := List.mem_iff_getElem.mp member
    obtain ⟨n, good⟩ := send_answered client call empty tries ok k inside
    obtain ⟨o, params, reply, here, success, mine, named⟩ :=
      acknowledged k _ n (List.getElem?_eq_getElem inside) good
    obtain ⟨path, inode, told⟩ :=
      tracked.served o params _ here (by simp [ChunkPhase.successful, ChunkPhase.reply, success])
    rw [mine, named] at told
    exact ⟨path, inode, told, (tracked.filed.stored _ _ path inode told).1, streamed.stored _ path inode told⟩
  · intro id file path inode id' file' inode' told told'
    have same : inode = inode' := by
      have first := (tracked.filed.stored id file path inode told).1
      have second := (tracked.filed.stored id' file' path inode' told').1
      simpa [first] using second
    have equal := deposit_unique state.log tracked.distinct _ _ told told' inode rfl
      (by simp [LegacyEntry.deposit, same])
    cases equal
    exact ⟨rfl, rfl⟩

def sentFile : TransferFile := { offerFile with size := 2 }

def sentSource (_ : String) : Bytes := [71, 83]

def sentOffer : Offer := { smallOffer true with request := ⟨offerId, none, [sentFile], 2⟩ }

def sentCall : LegacySend := ⟨offerId, [sentFile], .granted, false⟩

def sentClient : TransferClient := ⟨false, 0, none⟩

def sentTries (_ _ : Nat) : SendAttempt := .opened 2 [2] (.answered 200 "200 OK" "")

def sentLabels : List LegacyLabel :=
  .call (.request sentOffer) :: legacyAdvances 0 14 ++ .call (.chunk smallChunk) :: legacyAdvances 1 10 ++
    .advance 1 { calm with body := .chunk [71, 83] } :: legacyAdvances 1 15

def LegacyOp.answersSent : LegacyOp → Bool
  | .chunk params (.done reply) => isSuccess reply.code && params.transferId == sentCall.transferId &&
      params.fileId == sentFile.id
  | _ => false

theorem answers_sent (state : LegacyState) (answered : state.ops.any LegacyOp.answersSent = true) :
    Acknowledged state sentCall sentTries := by
  intro k file n found _
  obtain ⟨op, member, answers⟩ := List.any_eq_true.mp answered
  obtain ⟨o, here⟩ := List.getElem?_of_mem member
  have named : file = sentFile := by
    have listed := List.mem_of_getElem? found
    simpa [sentCall] using listed
  unfold LegacyOp.answersSent at answers
  split at answers
  · next params reply =>
    simp only [Bool.and_eq_true, beq_iff_eq] at answers
    exact ⟨o, params, reply, here, answers.1.1, answers.1.2, by rw [named]; exact answers.2⟩
  · cases answers

theorem small_send_arrives : ∃ state path inode, Transition.Run legacyStep
      (fun state label => streamsSource offerId sentSource state label = true) emptyLegacy state ∧
    .committed offerId sentFile.id path inode ∈ state.log ∧ state.disk.node path = some (.file inode) ∧
      state.disk.inodes[inode]? = some [71, 83] := by
  obtain ⟨state, run, answered⟩ := Transition.replay_reaches legacyStep
    (fun state label => streamsSource offerId sentSource state label = true) sentLabels emptyLegacy
    (fun state => state.ops.any LegacyOp.answersSent) (by decide +kernel)
  obtain ⟨path, inode, told, named, content⟩ :=
    (legacy_success_means_delivery sentClient sentCall .transferTimeout sentTries sentSource
    emptyLegacy state empty_legacy_initial run (answers_sent state answered) rfl).1 sentFile
      (by simp [sentCall])
  exact ⟨state, path, inode, run, told, named, content⟩

end GoshTransfer
