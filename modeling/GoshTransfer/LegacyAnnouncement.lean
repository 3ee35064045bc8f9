import GoshTransfer.LegacyDelivery

set_option autoImplicit false

namespace GoshTransfer

open InodeStore

def LegacyEntry.registers (id : String) : LegacyEntry → Bool
  | .registered transfer => transfer.id = id
  | _ => false

-- An id that is registered once keeps its commits, and when all its files are
-- committed it is announced before it is dropped.
structure Rounded (id : String) (state : LegacyState) : Prop where
  proclaimed : Proclaimed id state
  concluded : Concluded id state
  founded : ∀ file, CommittedIn state.log id file → 0 < state.log.countP (LegacyEntry.registers id)
  kept : state.log.countP (LegacyEntry.registers id) ≤ 1 → ∀ file, CommittedIn state.log id file →
    CommittedIn (since id state.log) id file
  rounded : ∀ transfer, registration id state.log = some transfer → transfer.fileIds ≠ ∅ →
    (∀ file ∈ transfer.fileIds, CommittedIn (since id state.log) id file) →
      state.settled.pending.lookup id = none →
    completeEvent id ∈ since id state.log

theorem committed_append (log more : List LegacyEntry) (id file : String) :
    CommittedIn (log ++ more) id file ↔ CommittedIn log id file ∨ CommittedIn more id file := by
  simp only [CommittedIn, List.mem_append, exists_or]

theorem registers_registered (id : String) (log : List LegacyEntry) (transfer : PendingTransfer)
    (found : registration id log = some transfer) :
    0 < log.countP (LegacyEntry.registers id) := by
  refine List.countP_pos_iff.mpr ⟨_, registration_member id log transfer found, ?_⟩
  exact decide_eq_true (registration_key id log transfer found)

theorem pending_announced (id : String) (state : LegacyState) (proclaimed : Proclaimed id state)
    (concluded : Concluded id state) (transfer : PendingTransfer)
    (registered : registration id state.log = some transfer) (some_ : transfer.fileIds ≠ ∅)
    (whole : ∀ file ∈ transfer.fileIds, CommittedIn (since id state.log) id file)
    (pending : state.settled.pending.lookup id ≠ none) :
    completeEvent id ∈ since id state.log ∨ ∃ (p : Nat) (params : ChunkRequest) (phase : ChunkPhase),
      state.ops[p]? = some (.chunk params phase) ∧ state.legacy.decisions = some p := by
  obtain ⟨held, found⟩ := Option.ne_none_iff_exists'.mp pending
  have record := proclaimed.tallied.spared.approvals.issued.settledRecord id held found
  have equal : held = transfer := Option.some.inj (record.symm.trans registered)
  subst equal
  have received : held.fileIds ⊆ state.settled.filesOf id := by
    intro file member
    obtain ⟨path, inode, told⟩ := whole file member
    exact concluded.counted file path inode pending told
  have nonempty : state.settled.filesOf id ≠ ∅ := by
    intro none_
    exact some_ (Finset.subset_empty.mp (none_ ▸ received))
  rcases proclaimed.announced held found nonempty received with told |
    ⟨p, params, phase, there, -, announcing⟩
  · exact .inl told
  · have inside : (LegacyOp.chunk params phase).holds = true := by
      cases phase <;> first | rfl | cases announcing
    exact .inr ⟨p, params, phase, there, proclaimed.tallied.spared.approvals.base.locked.held p _ there
      inside⟩

section Step

variable (id : String) (state : LegacyState) (inv : Rounded id state) (o : Nat) (reading : Reading)
    (op op' : LegacyOp) (act : LegacyAct)
  (log : List LegacyEntry) (here : state.ops[o]? = some op)
    (moved : LegacyOpMove state.legacy state.disk reading op act log op')

include inv here moved

theorem chunk_keeps_view (params : ChunkRequest) (phase : ChunkPhase) (upload : op = .chunk params phase) :
    (state.after o act log op').settled.view id = state.settled.view id := by
  rcases settled_moved state inv.proclaimed.tallied.spared.approvals.base.locked o op reading op' act log
    here moved with
    ⟨same, _⟩ | ⟨_, _, before, after⟩
  · rw [same]
  · rw [before, after]
    cases moved with
    | chunk params stage next act log moved => cases moved <;> rfl
    | _ => cases upload

theorem commit_pending (file : String) (told : CommittedIn log id file) :
    state.settled.pending.lookup id ≠ none ∧
    (state.after o act log op').settled.pending.lookup id ≠ none := by
  obtain ⟨path, inode, told⟩ := told
  obtain ⟨params, k, x, rfl, mine, -⟩ :=
    commit_reported id state inv.concluded o reading op op' act log here moved file path inode told
  have tallied := inv.proclaimed.tallied
  obtain ⟨settled, pending, -⟩ := held_record id state tallied o params _ x.transfer here mine rfl rfl
    (tallied.tested o params _ here mine)
  have before : state.settled.pending.lookup id ≠ none := by
    rw [settled, ← mine, pending]
    simp
  have view := congrArg View.pending
    (chunk_keeps_view id state inv o reading _ op' act log here moved params _ rfl)
  exact ⟨before, fun gone => before (view.symm.trans gone)⟩

theorem step_founded (file : String) (told : CommittedIn (state.after o act log op').log id file) :
    0 < (state.after o act log op').log.countP (LegacyEntry.registers id) := by
  change 0 < (state.log ++ log).countP (LegacyEntry.registers id)
  rw [List.countP_append]
  rcases (committed_append state.log log id file).mp told with old | new
  · exact Nat.add_pos_left (inv.founded file old) _
  · obtain ⟨transfer, pending⟩ :=
      Option.ne_none_iff_exists'.mp
        (commit_pending id state inv o reading op op' act log here moved file new).1
    exact Nat.add_pos_left (registers_registered id state.log transfer
      (inv.proclaimed.tallied.spared.approvals.issued.settledRecord id transfer pending)) _

theorem step_kept (once : (state.after o act log op').log.countP (LegacyEntry.registers id) ≤ 1)
    (file : String) (told : CommittedIn (state.after o act log op').log id file) :
    CommittedIn (since id (state.after o act log op').log) id file := by
  change (state.log ++ log).countP (LegacyEntry.registers id) ≤ 1 at once
  change CommittedIn (since id (state.log ++ log)) id file
  rw [List.countP_append] at once
  rcases concluded_turn id state inv.concluded o reading op op' act log here moved with
    ⟨-, -, transfer, rfl, key⟩ | ⟨grown, -⟩
  · have again : (List.countP (LegacyEntry.registers id) [.registered transfer]) =
      1 := by simp [LegacyEntry.registers, key]
    rcases (committed_append state.log _ id file).mp told with old | ⟨path, inode, new⟩
    · have before := inv.founded file old
      omega
    · simp at new
  · rw [grown]
    refine (committed_append (since id state.log) log id file).mpr ?_
    exact ((committed_append state.log log id file).mp told).imp (inv.kept (by omega) file) fun new => new

theorem step_rounded (transfer : PendingTransfer)
    (registered : registration id (state.after o act log op').log = some transfer)
    (some_ : transfer.fileIds ≠ ∅)
    (whole : ∀ file ∈ transfer.fileIds, CommittedIn (since id (state.after o act log op').log) id file)
    (gone : (state.after o act log op').settled.pending.lookup id = none) : completeEvent id ∈ since id
      (state.after o act log op').log := by
  have locked := inv.proclaimed.tallied.spared.approvals.base.locked
  change registration id (state.log ++ log) = some transfer at registered
  change ∀ file ∈ transfer.fileIds, CommittedIn (since id (state.log ++ log)) id file at whole
  change completeEvent id ∈ since id (state.log ++ log)
  rcases concluded_turn id state inv.concluded o reading op op' act log here moved with ⟨new, -⟩ |
    ⟨grown, same, -⟩
  · obtain ⟨file, member⟩ := Finset.nonempty_iff_ne_empty.mpr some_
    obtain ⟨path, inode, told⟩ := whole file member
    rw [new] at told
    cases told
  · have before : ∀ file ∈ transfer.fileIds, CommittedIn (since id state.log) id file := by
      intro file member
      rcases (committed_append _ log id file).mp (grown ▸ whole file member) with old | new
      · exact old
      · exact absurd gone (commit_pending id state inv o reading op op' act log here moved file new).2
    rw [same] at registered
    rw [grown]
    refine List.mem_append_left _ ?_
    by_cases pending : state.settled.pending.lookup id = none
    · exact inv.rounded transfer registered some_ before pending
    · rcases pending_announced id state inv.proclaimed inv.concluded transfer registered some_ before
        pending with
        told | ⟨p, params, phase, there, taken⟩
      · exact told
      -- Whoever drops the transfer needs the mutex, too, and is no upload.
      · exfalso
        rcases settled_moved state locked o op reading op' act log here moved with ⟨unchanged, -⟩ | ⟨holds, -⟩
        · exact pending (unchanged ▸ gone)
        · have mine : p = o := Option.some.inj (taken.symm.trans (locked.held o op here holds))
          subst mine
          have upload : op = .chunk params phase := Option.some.inj (here.symm.trans there)
          have view := congrArg View.pending
            (chunk_keeps_view id state inv p reading op op' act log here moved params phase upload)
          exact pending (view.symm.trans gone)

end Step

theorem rounded_step (id : String) (state next : LegacyState) (label : LegacyLabel) (inv : Rounded id state)
    (allowed : sparesUploadsOf id state label = true) (stepped : legacyStep state label = some next) :
    Rounded id next := by
  have proclaimed := proclaimed_step id state next label inv.proclaimed allowed stepped
  have concluded := concluded_step id state next label inv.concluded allowed stepped
  rcases legacy_step_cases state next label stepped with ⟨call, _, rfl⟩ |
    ⟨o, reading, op, act, log, op', _, here, moved, rfl⟩
  · refine ⟨proclaimed, concluded, inv.founded, inv.kept, ?_⟩
    rw [call_settled state inv.proclaimed.tallied.spared.approvals.base.locked call]
    exact inv.rounded
  · exact ⟨proclaimed, concluded, step_founded id state inv o reading op op' act log here moved,
      step_kept id state inv o reading op op' act log here moved, step_rounded id state inv o reading op op'
      act log here moved⟩

theorem initial_rounded (id : String) (state : LegacyState) (initial : LegacyInitial state) :
    Rounded id state := by
  have silent (file : String) : ¬ CommittedIn state.log id file := by
    rintro ⟨path, inode, told⟩
    simp [initial.silent] at told
  refine ⟨initial_proclaimed id state initial, initial_concluded id state initial,
    fun file told => absurd told (silent file),
    fun _ file told => absurd told (silent file), ?_⟩
  intro transfer registered
  rw [initial.silent] at registered
  cases registered

-- The other end of a send that succeeds: once the mutex is free, the transfer is
-- announced, and was so once, however the uploads were repeated, unless its id
-- has expired and was registered anew.
theorem legacy_success_is_announced (client : TransferClient) (call : LegacySend) (empty : SendError)
    (tries : Nat → Nat → SendAttempt) (start state : LegacyState) (initial : LegacyInitial start)
    (run : Transition.Run legacyStep (fun state label => sparesUploadsOf call.transferId state label = true)
      start state)
    (acknowledged : Acknowledged state call tries)
    (ok : (sendListed client call empty tries).2 = some (.ok ())) (transfer : PendingTransfer)
    (registered : registration call.transferId state.log = some transfer)
    (same : transfer.files = call.files)
    (once : state.log.countP (LegacyEntry.registers call.transferId) ≤ 1)
    (free : state.legacy.decisions = none) :
    (since call.transferId state.log).count (completeEvent call.transferId) = 1 := by
  have rounded := Transition.run_invariant legacyStep _ (Rounded call.transferId)
    (fun state label next inv allowed stepped => rounded_step _ state next label inv allowed stepped)
    start state run (initial_rounded _ start initial)
  have tracked := Transition.run_invariant legacyStep _ Tracked
    (fun state label next tracked _ stepped => tracked_step state next label tracked stepped) start state
    run (initial_tracked start initial)
  have answered := send_answered client call empty tries ok
  have committed : ∀ file ∈ transfer.fileIds, CommittedIn (since call.transferId state.log) call.transferId
    file := by
    intro file member
    refine rounded.kept once file ?_
    obtain ⟨listed, inside, rfl⟩ := List.mem_map.mp (List.mem_toFinset.mp member)
    obtain ⟨k, bound, rfl⟩ := List.mem_iff_getElem.mp (same ▸ inside)
    obtain ⟨n, good⟩ := answered k bound
    obtain ⟨o, params, reply, here, success, mine, named⟩ :=
      acknowledged k _ n (List.getElem?_eq_getElem bound) good
    have told := tracked.served o params _ here (by simp [ChunkPhase.successful, ChunkPhase.reply, success])
    rwa [mine, named] at told
  have some_ : transfer.fileIds ≠ ∅ := by
    cases listed : call.files with
    | nil => simp [sendListed, listed] at ok
    | cons file rest => simp [PendingTransfer.fileIds, same, listed]
  have told : completeEvent call.transferId ∈ since call.transferId state.log := by
    by_cases pending : state.settled.pending.lookup call.transferId = none
    · exact rounded.rounded transfer registered some_ committed pending
    · rcases pending_announced _ state rounded.proclaimed rounded.concluded transfer registered some_
        committed pending with
        told | ⟨p, params, phase, there, taken⟩
      · exact told
      · rw [free] at taken
        cases taken
  exact Nat.le_antisymm rounded.concluded.single (List.count_pos_iff.mpr told)

def sentTransfer : PendingTransfer := sentOffer.pending 2

theorem small_send_is_announced : ∃ state,
    Transition.Run legacyStep
    (fun state label => sparesUploadsOf offerId state label = true) emptyLegacy state ∧
      (since offerId state.log).count (completeEvent offerId) = 1 := by
  obtain ⟨state, run, checked⟩ :=
    Transition.replay_reaches legacyStep (fun state label => sparesUploadsOf offerId state label = true)
    sentLabels emptyLegacy
    (fun state => state.ops.any LegacyOp.answersSent && registration offerId state.log == some sentTransfer &&
      decide (state.log.countP (LegacyEntry.registers offerId) ≤ 1) && state.legacy.decisions == none)
      (by decide +kernel)
  simp only [Bool.and_eq_true, beq_iff_eq, decide_eq_true_eq] at checked
  obtain ⟨⟨⟨answered, registered⟩, once⟩, free⟩ := checked
  exact ⟨state, run, legacy_success_is_announced sentClient sentCall .transferTimeout sentTries emptyLegacy
    state empty_legacy_initial run (answers_sent state answered) rfl sentTransfer registered rfl once free⟩

end GoshTransfer
