import GoshTransfer.LegacyAbandoned

set_option autoImplicit false

namespace GoshTransfer

open InodeStore

-- remove_file succeeds for the uploads of one transfer.
def removesFor (id : String) (state : LegacyState) : LegacyLabel → Bool
  | .advance o reading =>
      match state.ops[o]? with
      | some (.chunk params _) => params.transferId ≠ id || reading.fault ≠ some .remove
      | _ => true
  | .call _ => true

-- The phases after the byte count has been compared with the declared size.
def ChunkPhase.measured : ChunkPhase → Option Writing
  | .enter _ x | .restamp _ x | .recheck _ x | .report _ x | .commit _ x => some x
  | _ => none

def LegacyOp.target : LegacyOp → Option (String × String)
  | .chunk params _ => some (params.transferId, params.fileId)
  | _ => none

structure Deposited (id : String) (state : LegacyState) : Prop where
  concluded : Concluded id state
  filed : Filed state
  measured : ∀ (o : Nat) (params : ChunkRequest) (phase : ChunkPhase) (x : Writing),
    state.ops[o]? = some (.chunk params phase) →
    phase.measured = some x → x.received = x.file.size
  allocated : ∀ file path inode, .opened id file path inode ∈ since id state.log →
    inode < state.disk.inodes.length
  sizes : ∀ file path inode, .committed id file path inode ∈ since id state.log → ∃ transfer listed bytes,
    registration id state.log = some transfer ∧ transfer.files.find? (·.id == file) = some listed ∧
      state.disk.inodes[inode]? = some bytes ∧ bytes.length = listed.size
  opened : ∀ file path inode, .opened id file path inode ∈ since id state.log →
    .committed id file path inode ∈ since id state.log ∨
    (∃ (o : Nat) (op : LegacyOp), state.ops[o]? = some op ∧ op.target = some (id, file) ∧
      op.dest = some (path, inode)) ∨
    ∀ name, state.disk.node name ≠ some (.file inode)

theorem since_mem (id : String) (log : List LegacyEntry) (entry : LegacyEntry)
    (member : entry ∈ since id log) : entry ∈ log := by
  induction log using List.reverseRecOn with
  | nil => cases member
  | append_singleton log last ih =>
      by_cases new : ∃ transfer, last = .registered transfer ∧ transfer.id = id
      · obtain ⟨transfer, rfl, key⟩ := new
        rw [since_new id log transfer key] at member
        cases member
      · have quiet : ∀ transfer, .registered transfer ∈ [last] → transfer.id ≠ id := by
          intro transfer told key
          exact new ⟨transfer, (List.mem_singleton.mp told).symm, key⟩
        rw [since_quiet id log [last] quiet] at member
        rcases List.mem_append.mp member with before | at_
        · exact List.mem_append_left _ (ih before)
        · exact List.mem_append_right _ at_

theorem moved_target (legacy : Legacy) (disk : ReceiverDisk) (reading : Reading) (op op' : LegacyOp)
    (act : LegacyAct) (log : List LegacyEntry) (moved : LegacyOpMove legacy disk reading op act log op') :
    op'.target = op.target := by
  cases moved <;> rfl

section Step

variable (id : String) (state : LegacyState) (deposited : Deposited id state) (o : Nat) (reading : Reading)
    (op op' : LegacyOp)
  (act : LegacyAct) (log : List LegacyEntry) (here : state.ops[o]? = some op)
  (moved : LegacyOpMove state.legacy state.disk reading op act log op')

include deposited here moved

theorem step_measured (p : Nat) (params : ChunkRequest) (phase : ChunkPhase) (x : Writing)
    (there : (state.after o act log op').ops[p]? = some (.chunk params phase))
    (has : phase.measured = some x) :
    x.received = x.file.size := by
  rcases Transition.set_cases state.ops o p op' _ there with ⟨rfl, rfl⟩ | ⟨_, before⟩
  · cases moved with
    | chunk params stage next act log moved =>
        have carried := deposited.measured p params stage x here
        cases moved with
        | flushed k x whole =>
            cases has
            exact whole
        | unannounced k x lost => cases has
        | _ => first | exact carried has | cases has
  · exact deposited.measured p params phase x before has

theorem step_sizes (file : String) (path : Path) (inode : Nat)
    (told : .committed id file path inode ∈ since id (state.after o act log op').log) :
    ∃ transfer listed bytes, registration id (state.after o act log op').log = some transfer ∧
      transfer.files.find? (·.id == file) = some listed ∧ (act.store state.disk).inodes[inode]? = some bytes ∧
      bytes.length = listed.size := by
  have concluded := deposited.concluded
  have base := concluded.tallied.spared.approvals.base
  have filing := moved_file state base o reading op op' act log here moved
  rw [show (state.after o act log op').log = state.log ++ log from rfl] at told ⊢
  rcases concluded_turn id state concluded o reading op op' act log here moved with ⟨new, _⟩ |
    ⟨grown, same, _⟩
  · rw [new] at told
    cases told
  · rw [grown] at told
    rw [same]
    rcases List.mem_append.mp told with old | new
    · obtain ⟨transfer, listed, bytes, registered, found, present, size⟩ :=
        deposited.sizes file path inode old
      obtain ⟨_, _, free⟩ := deposited.filed.stored id file path inode (since_mem id state.log _ old)
      exact ⟨transfer, listed, bytes, registered, found,
        foreign_bytes state reading.fault op op' act log filing inode bytes present (free o op · here), size⟩
    · obtain ⟨params, k, x, rfl, key, rfl, rfl, rfl, _⟩ :=
        commit_reported id state concluded o reading op op' act log here moved file path inode new
      have unmarked := concluded.tallied.tested o params _ here key
      obtain ⟨_, pending, _⟩ :=
        held_record id state concluded.tallied o params _ x.transfer here key rfl rfl unmarked
      obtain ⟨bytes, present, size⟩ := deposited.filed.sized o _ x.path x.inode x.received here rfl rfl
      have whole := deposited.measured o params _ x here rfl
      have quiet : act.store state.disk = state.disk := by
        cases moved with
        | chunk params phase next act log moved =>
            cases moved with
            | committed k x => rfl
            | quit phase k reply early => cases early
            | discarded phase k held x reply discarding => cases discarding
      rw [quiet]
      exact ⟨x.transfer, x.file, bytes, concluded.tallied.spared.approvals.issued.record id x.transfer
        (key ▸ pending),
        concluded.tallied.listed o params _ x.transfer x.file here rfl, present, size.trans whole⟩

theorem opened_reported (file : String) (path : Path) (inode : Nat)
    (reported : .opened id file path inode ∈ log) :
    act = .create path ∧ inode = state.disk.inodes.length ∧ op'.target = some (id, file) ∧
      op'.dest = some (path, inode) := by
  have base := deposited.concluded.tallied.spared.approvals.base
  cases moved_file state base o reading op op' act log here moved with
  | create params phase next transfer listed new free listing before after empty =>
      simp only [List.mem_singleton, LegacyEntry.opened.injEq] at reported
      obtain ⟨rfl, rfl, rfl, rfl⟩ := reported
      have found := deposited.concluded.tallied.listed o params phase transfer listed here listing
      have key : listed.id = params.fileId := by simpa using List.find?_some found
      exact ⟨rfl, rfl, by rw [key]; rfl, after⟩
  | commit params k x => simp at reported
  | keep op op' act log quiet same filled silent => cases silent _ reported
  | _ => cases reported

theorem step_opened_within (file : String) (path : Path) (inode : Nat)
    (told : .opened id file path inode ∈ since id (state.after o act log op').log) :
    inode < (act.store state.disk).inodes.length := by
  have concluded := deposited.concluded
  have base := concluded.tallied.spared.approvals.base
  have grows :=
    inodes_grow state reading.fault op op' act log (moved_file state base o reading op op' act log here moved)
  rw [show (state.after o act log op').log = state.log ++ log from rfl] at told
  rcases concluded_turn id state concluded o reading op op' act log here moved with ⟨new, _⟩ | ⟨grown, _⟩
  · rw [new] at told
    cases told
  · rw [grown] at told
    rcases List.mem_append.mp told with old | new
    · exact Nat.lt_of_lt_of_le (deposited.allocated file path inode old) grows
    · obtain ⟨rfl, rfl, _⟩ :=
        opened_reported id state deposited o reading op op' act log here moved file path inode new
      simp [LegacyAct.store]

theorem moved_dest (allowed : removesFor id state (.advance o reading) = true) (file : String) (path : Path)
    (inode : Nat) (mine : op.target = some (id, file)) (dest : op.dest = some (path, inode)) :
    .committed id file path inode ∈ log ∨ op'.dest = some (path, inode) ∨
      ∀ name, (act.store state.disk).node name ≠ some (.file inode) := by
  have base := deposited.concluded.tallied.spared.approvals.base
  have filing := moved_file state base o reading op op' act log here moved
  cases filing with
  | create params phase next transfer listed new free listing before after empty =>
      exact absurd (dest.symm.trans before) (by simp)
  | grow op op' own number data before after filled =>
      exact .inr (.inl (after.trans (before.symm.trans dest)))
  | drop op op' gone number before after empty =>
      have equal : (gone, number) = (path, inode) := Option.some.inj (before.symm.trans dest)
      cases equal
      refine .inr (.inr ?_)
      intro name now
      rw [show LegacyAct.store state.disk (.remove path) = state.disk.remove path from rfl,
        node_remove] at now
      split at now
      · cases now
      · rename_i other
        exact other ((deposited.filed.placed.named o op path inode here dest).2 name now)
  | abandon params k held x reply broken =>
      have key : params.transferId = id := congrArg Prod.fst (Option.some.inj mine)
      simp [removesFor, here, key, broken] at allowed
  | commit params k x =>
      cases mine
      cases dest
      exact .inl (by simp)
  | dirs op op' paths before after none_ => exact absurd (dest.symm.trans before) (by simp)
  | keep op op' act log quiet same filled silent => exact .inr (.inl (same.trans dest))

theorem step_opened (allowed : removesFor id state (.advance o reading) = true) (file : String)
    (path : Path) (inode : Nat)
    (told : .opened id file path inode ∈ since id (state.after o act log op').log) :
    .committed id file path inode ∈ since id (state.after o act log op').log ∨
      (∃ (p : Nat) (q : LegacyOp), (state.after o act log op').ops[p]? = some q ∧
        q.target = some (id, file) ∧ q.dest = some (path, inode)) ∨
      ∀ name, (act.store state.disk).node name ≠ some (.file inode) := by
  have concluded := deposited.concluded
  have base := concluded.tallied.spared.approvals.base
  have filing := moved_file state base o reading op op' act log here moved
  have within : o < state.ops.length := (List.getElem?_eq_some_iff.mp here).1
  have self : (state.after o act log op').ops[o]? = some op' := List.getElem?_set_self within
  have target := moved_target state.legacy state.disk reading op op' act log moved
  rw [show (state.after o act log op').log = state.log ++ log from rfl] at told ⊢
  rcases concluded_turn id state concluded o reading op op' act log here moved with ⟨new, _⟩ | ⟨grown, _⟩
  · rw [new] at told
    cases told
  · rw [grown] at told ⊢
    rcases List.mem_append.mp told with old | new
    · rcases deposited.opened file path inode old with committed | ⟨p, q, there, mine, dest⟩ | gone
      · exact .inl (List.mem_append_left _ committed)
      · by_cases same : p = o
        · subst same
          rw [here] at there
          cases there
          rcases moved_dest id state deposited p reading op op' act log here moved allowed file path inode
            mine dest with reported | stays | gone
          · exact .inl (List.mem_append_right _ reported)
          · exact .inr (.inl ⟨p, op', self, target.trans mine, stays⟩)
          · exact .inr (.inr gone)
        · exact .inr (.inl ⟨p, q, (List.getElem?_set_ne (fun equal => same equal.symm)).trans there, mine,
            dest⟩)
      · refine .inr (.inr ?_)
        intro name now
        rcases names_origin state.disk reading.fault op op' act log filing name inode now with ⟨before, _⟩ |
          ⟨_, fresh⟩
        · exact gone name before
        · exact absurd (deposited.allocated file path inode old) (by omega)
    · obtain ⟨_, _, mine, dest⟩ :=
        opened_reported id state deposited o reading op op' act log here moved file path inode new
      exact .inr (.inl ⟨o, op', self, mine, dest⟩)

end Step

theorem deposited_step (id : String) (state next : LegacyState) (label : LegacyLabel)
    (deposited : Deposited id state) (spares : sparesUploadsOf id state label = true)
    (removes : removesFor id state label = true) (stepped : legacyStep state label = some next) :
    Deposited id next := by
  have concluded := concluded_step id state next label deposited.concluded spares stepped
  have filed :=
    filed_step state next label deposited.concluded.tallied.spared.approvals.base deposited.filed stepped
  rcases legacy_step_cases state next label stepped with ⟨call, _, rfl⟩ |
    ⟨o, reading, op, act, log, op', rfl, here, moved, rfl⟩
  · refine ⟨concluded, filed, ?_, deposited.allocated, deposited.sizes, ?_⟩
    · intro p params phase x there has
      rcases Transition.append_cases state.ops p call.op _ there with before | new
      · exact deposited.measured p params phase x before has
      · cases call <;> cases new
        cases has
    · intro file path inode told
      rcases deposited.opened file path inode told with committed | ⟨p, q, there, mine, dest⟩ | gone
      · exact .inl committed
      · have within : p < state.ops.length := (List.getElem?_eq_some_iff.mp there).1
        exact .inr (.inl ⟨p, q, by rw [List.getElem?_append_left within]; exact there, mine, dest⟩)
      · exact .inr (.inr gone)
  · exact ⟨concluded, filed, step_measured id state deposited o reading op op' act log here moved,
      step_opened_within id state deposited o reading op op' act log here moved,
      step_sizes id state deposited o reading op op' act log here moved,
      step_opened id state deposited o reading op op' act log here moved removes⟩

-- From the call that opens the destination to the commit of the file.
def ChunkPhase.depositing : ChunkPhase → Bool
  | .openFile _ _ _ _ => true
  | phase => phase.dest.isSome

def unexpiredUploads (id : String) (state : LegacyState) : LegacyHostLabel → Bool
  | .label label => sparesUploadsOf id state label && removesFor id state label
  | .abandon _ => true

-- Nor is one of them dropped with a file that is not committed.
def exactlyOnceRun (id : String) (state : LegacyState) (label : LegacyHostLabel) : Bool :=
  unexpiredUploads id state label &&
    match label with
    | .label _ => true
    | .abandon o =>
        match state.ops[o]? with
        | some (.chunk params phase) => params.transferId ≠ id || !phase.depositing
        | _ => true

theorem deposited_host_step (id : String) (state next : LegacyState) (label : LegacyHostLabel)
    (deposited : Deposited id state) (allowed : exactlyOnceRun id state label = true)
    (stepped : legacyHostStep state label = some next) : Deposited id next := by
  cases label with
  | label label =>
      obtain ⟨spares, removes⟩ : sparesUploadsOf id state label = true ∧
        removesFor id state label = true := by
        simpa [exactlyOnceRun, unexpiredUploads] using allowed
      exact deposited_step id state next label deposited spares removes stepped
  | abandon o =>
      obtain ⟨params, phase, here, rfl⟩ := legacy_let_go_cases state next o stepped
      refine ⟨concluded_dropped state o params phase here id deposited.concluded,
        filed_dropped state o params phase deposited.filed, ?_,
        deposited.allocated, deposited.sizes, ?_⟩
      · intro p params' phase' x there has
        rcases dropped_chunk state o params phase p params' phase' there with ⟨_, rfl⟩ | before
        · cases has
        · exact deposited.measured p params' phase' x before has
      · intro file path inode told
        rcases deposited.opened file path inode told with committed | ⟨p, q, there, mine, dest⟩ | gone
        · exact .inl committed
        · have other : o ≠ p := by
            rintro rfl
            cases here.symm.trans there
            have key : params.transferId = id := congrArg Prod.fst (Option.some.inj mine)
            have has : phase.dest = some (path, inode) := dest
            simp only [exactlyOnceRun, unexpiredUploads, Bool.true_and, here, key, ne_eq, not_true_eq_false,
              decide_false, Bool.false_or, Bool.not_eq_true'] at allowed
            unfold ChunkPhase.depositing at allowed
            split at allowed
            · cases allowed
            · simp [has] at allowed
          exact .inr (.inl ⟨p, q, (List.getElem?_set_ne other).trans there, mine, dest⟩)
        · exact .inr (.inr gone)

theorem initial_deposited (id : String) (state : LegacyState) (initial : LegacyInitial state) :
    Deposited id state := by
  have silent : since id state.log = [] := by
    rw [initial.silent]
    rfl
  refine ⟨initial_concluded id state initial, initial_filed state initial, ?_, by simp [silent],
    by simp [silent], by simp [silent]⟩
  intro p params phase x there
  rw [initial.idle] at there
  cases there

-- Since the last registration of an id: one upload at a time, one commit for each
-- file with one file of the declared size, one TransferComplete after all
-- commits, never together with the cancellation, and nothing left of an upload
-- that had not committed when its transfer was cancelled.
structure ExactlyOnce (id : String) (state : LegacyState) : Prop where
  exclusive : ∀ (o p : Nat) (params params' : ChunkRequest) (phase phase' : ChunkPhase),
    state.ops[o]? = some (.chunk params phase) →
    state.ops[p]? = some (.chunk params' phase') → params.transferId = id → params'.transferId = id →
    phase.locked = true → phase'.locked = true → o = p
  once : ∀ file, (since id state.log).countP (LegacyEntry.commits id file) ≤ 1
  stored : ∀ file path inode, .committed id file path inode ∈ since id state.log → ∃ transfer listed bytes,
    registration id state.log = some transfer ∧ transfer.files.find? (·.id == file) = some listed ∧
      state.disk.node path = some (.file inode) ∧ (∀ name, state.disk.node name = some (.file inode) →
        name = path) ∧
      state.disk.inodes[inode]? = some bytes ∧ bytes.length = listed.size
  sole : ∀ file path inode, .opened id file path inode ∈ since id state.log →
    .committed id file path inode ∈ since id state.log ∨
    (∃ (o : Nat) (op : LegacyOp), state.ops[o]? = some op ∧ op.target = some (id, file) ∧
      op.dest = some (path, inode)) ∨
    ∀ name, state.disk.node name ≠ some (.file inode)
  single : (since id state.log).count (completeEvent id) ≤ 1
  whole : completeEvent id ∈ since id state.log → ∃ transfer, registration id state.log = some transfer ∧
    ∀ file ∈ transfer.files, ∃ path inode, .committed id file.id path inode ∈ since id state.log
  either : ¬ (completeEvent id ∈ since id state.log ∧ cancelEvent id ∈ since id state.log)
  cleaned : ∀ before after file path inode, since id state.log = before ++ cancelEvent id :: after →
    .opened id file path inode ∈ since id state.log → .committed id file path inode ∉ before →
    (∀ (o : Nat) (op : LegacyOp), state.ops[o]? = some op → op.dest ≠ some (path, inode)) →
    ∀ name, state.disk.node name ≠ some (.file inode)

theorem uploads_are_exactly_once (id : String) (start state : LegacyState) (initial : LegacyInitial start)
    (run : Transition.Run legacyHostStep
      (fun state label => exactlyOnceRun id state label = true) start state) :
    ExactlyOnce id state := by
  have deposited := Transition.run_invariant legacyHostStep _ (Deposited id)
    (fun state label next deposited allowed stepped => deposited_host_step id state next label deposited
    allowed stepped)
    start state run (initial_deposited id start initial)
  have concluded := deposited.concluded
  refine ⟨?_, concluded.once, ?_, deposited.opened, concluded.single, ?_, ?_, ?_⟩
  · intro o p params params' phase phase' here there mine mine' inside inside'
    exact one_upload state concluded.tallied.spared.approvals.base.locked o p params params' phase phase'
      here there (mine.trans mine'.symm) inside inside'
  · intro file path inode told
    obtain ⟨transfer, listed, bytes, registered, found, present, size⟩ := deposited.sizes file path inode told
    obtain ⟨named, sole, _⟩ := deposited.filed.stored id file path inode (since_mem id state.log _ told)
    exact ⟨transfer, listed, bytes, registered, found, named, sole, present, size⟩
  · intro told
    obtain ⟨transfer, registered, all_⟩ := concluded.whole told
    refine ⟨transfer, registered, ?_⟩
    intro file member
    exact all_ file.id (by simpa [PendingTransfer.fileIds] using ⟨file, member, rfl⟩)
  · rintro ⟨complete, cancelled⟩
    exact (concluded.revoked cancelled).1 complete
  · intro before after file path inode split_ told uncommitted ended
    rcases deposited.opened file path inode told with committed | ⟨p, q, there, _, dest⟩ | gone
    · rw [split_] at committed
      rcases List.mem_append.mp committed with early | late
      · exact absurd early uncommitted
      · rcases List.mem_cons.mp late with equal | late
        · simp [cancelEvent] at equal
        · exact absurd late (concluded.closed before after split_ file path inode)
    · exact absurd dest (ended p q there)
    · exact gone

-- Three uploads of the same file: the first is dropped while it waits for the
-- lock of the second, and the third then finds the file received.
theorem repeated_upload_commits_once : ∃ state,
    Transition.Run legacyHostStep
    (fun state label => exactlyOnceRun offerId state label = true) emptyLegacy state ∧
      (since offerId state.log).countP (LegacyEntry.commits offerId offerFile.id) = 1 ∧
      (since offerId state.log).count (completeEvent offerId) = 1 := by
  obtain ⟨state, run, checked⟩ :=
    Transition.replay_reaches legacyHostStep (fun state label => exactlyOnceRun offerId state label = true)
    ((.call (.request (smallOffer true)) :: legacyAdvances 0 14 ++ .call (.chunk smallChunk) ::
      .call (.chunk smallChunk) ::
      .call (.chunk smallChunk) :: .advance 2 calm :: .advance 1 calm :: legacyAdvances 2 1).map .label ++
      [.abandon 1] ++
        (legacyAdvances 2 22 ++ legacyAdvances 3 9).map .label) emptyLegacy
    (fun state => (since offerId state.log).countP (LegacyEntry.commits offerId offerFile.id) != 0 &&
      (since offerId state.log).count (completeEvent offerId) != 0) (by decide +kernel)
  simp only [Bool.and_eq_true, bne_iff_ne] at checked
  have exactly := uploads_are_exactly_once offerId emptyLegacy state empty_legacy_initial run
  have few := exactly.once offerFile.id
  have one := exactly.single
  exact ⟨state, run, by omega, by omega⟩

def namesInode (disk : ReceiverDisk) (path : Path) (inode : Nat) : Bool :=
  match disk.node path with
  | some (.file number) => number == inode
  | _ => false

theorem names_inode (disk : ReceiverDisk) (path : Path) (inode : Nat)
    (named : namesInode disk path inode = true) :
    disk.node path = some (.file inode) := by
  unfold namesInode at named
  split at named
  · rename_i number at_
    rw [at_, beq_iff_eq.mp named]
  · cases named

-- The peer of an upload hangs up while its file is flushed, and its retry
-- leaves a second file for the same file id.
theorem dropped_upload_leaves_its_file : ∃ start state, LegacyInitial start ∧
    Transition.Run legacyHostStep
    (fun state label => unexpiredUploads offerId state label = true) start state ∧
    (∀ op ∈ state.ops, op.owned = none) ∧
    ∃ inode inode', inode ≠ inode' ∧
      .committed offerId offerFile.id (uniquePath offerFile 1) inode' ∈ since offerId state.log ∧
      .opened offerId offerFile.id (uniquePath offerFile 0) inode ∈ since offerId state.log ∧
      state.disk.node (uniquePath offerFile 0) = some (.file inode) ∧
        state.disk.node (uniquePath offerFile 1) = some (.file inode') := by
  obtain ⟨state, run, checked⟩ :=
    Transition.replay_reaches legacyHostStep (fun state label => unexpiredUploads offerId state label = true)
    ((.call (.request (smallOffer true)) :: legacyAdvances 0 14 ++ .call (.chunk smallChunk) ::
      legacyAdvances 1 11).map .label ++ [.abandon 1] ++
      (.call (.chunk smallChunk) :: legacyAdvances 2 25).map .label) emptyLegacy
    (fun state => state.ops.all (·.owned.isNone) &&
      ((since offerId state.log).any (· == .committed offerId offerFile.id (uniquePath offerFile 1) 1) &&
        ((since offerId state.log).any (· == .opened offerId offerFile.id (uniquePath offerFile 0) 0) &&
          (namesInode state.disk (uniquePath offerFile 0) 0 && namesInode state.disk
          (uniquePath offerFile 1) 1)))) (by decide +kernel)
  simp only [Bool.and_eq_true, List.all_eq_true, List.any_beq', List.contains_eq_mem, decide_eq_true_eq,
    Option.isNone_iff_eq_none] at checked
  obtain ⟨ended, committed, opened, first, second⟩ := checked
  exact ⟨emptyLegacy, state, empty_legacy_initial, run, ended, 0, 1, by decide, committed, opened,
    names_inode _ _ _ first,
    names_inode _ _ _ second⟩

end GoshTransfer
