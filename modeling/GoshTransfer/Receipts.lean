import GoshTransfer.Expiry

set_option autoImplicit false

namespace GoshTransfer

open InodeStore

-- The two entries of an id that uploads write.
@[ext] structure Receipts where
  files : Finset String
  complete : Prop

def Ledger.receipts (ledger : Ledger) (id : String) : Receipts := ⟨ledger.filesOf id, id ∈ ledger.completed⟩

def Receipts.none : Receipts := ⟨∅, False⟩

def Edit.receipts (receipts : Receipts) : Edit → Receipts
  | .receive _ file => { receipts with files := insert file receipts.files }
  | .unreceive _ => { receipts with files := ∅ }
  | .complete _ => { receipts with complete := True }
  | .uncomplete _ => { receipts with complete := False }
  | _ => receipts

theorem receipts_apply (ledger : Ledger) (change : Edit) (id : String) :
    (change.apply ledger).receipts id =
      if change.id = id then change.receipts (ledger.receipts id) else ledger.receipts id := by
  by_cases same : change.id = id
  · subst same
    cases change <;> simp [Edit.apply, Edit.receipts, Edit.id, Ledger.receipts, Ledger.filesOf]
  · have other : id ≠ change.id := fun equal => same equal.symm
    cases change <;>
      simp_all [Edit.apply, Edit.id, Ledger.receipts, Ledger.filesOf, Finmap.lookup_insert_of_ne,
      Finmap.lookup_erase_ne]

theorem settle_receipts (todo : Todo) (ledger : Ledger) (id : String) :
    (ledger.settle todo).receipts id =
      todo.foldl (fun receipts entry => if entry.1.id = id then entry.1.receipts receipts else receipts)
      (ledger.receipts id) := by
  induction todo generalizing ledger with
  | nil => rfl
  | cons entry rest ih =>
      rw [List.foldl_cons, ← receipts_apply]
      exact ih (entry.1.apply ledger)

theorem accept_receipts (ledger : Ledger) (id token other : String) :
    (ledger.settle (acceptEdits id token)).receipts other = ledger.receipts other := by
  rw [settle_receipts]
  simp [acceptEdits, Edit.receipts]

theorem reject_receipts (ledger : Ledger) (id other : String) :
    (ledger.settle (rejectEdits id)).receipts other = ledger.receipts other := by
  rw [settle_receipts]
  simp [rejectEdits, Edit.receipts]

theorem cancel_receipts (ledger : Ledger) (id other : String) (info : Option PendingTransfer) (bytes : Nat) :
    (ledger.settle (cancelEdits id info bytes)).receipts other =
      if id = other then ⟨∅, (ledger.receipts other).complete⟩ else ledger.receipts other := by
  rw [settle_receipts]
  by_cases same : id = other <;> simp [cancelEdits, Edit.receipts, Edit.id, same]

theorem register_receipts (ledger : Ledger) (offer : Offer) (total : Nat) (other : String) :
    (((Edit.pend (offer.pending total)).apply ledger).settle (offer.edits (offer.pending total))).receipts
      other = ledger.receipts other := by
  rw [settle_receipts, receipts_apply]
  by_cases trusted : offer.trusted = true <;> simp [Offer.edits, Edit.receipts, trusted]

theorem prune_receipts (ids : List String) (ledger : Ledger) (other : String) :
    (ledger.settle (pruneEdits ids)).receipts other = if other ∈ ids then Receipts.none
      else ledger.receipts other := by
  rw [settle_receipts]
  generalize ledger.receipts other = receipts
  induction ids generalizing receipts with
  | nil => simp [pruneEdits]
  | cons id rest ih =>
      have parts : pruneEdits (id :: rest) = ((pruneOne id).map fun change => (change, [])) ++
        pruneEdits rest := by
        simp [pruneEdits]
      have one : ((pruneOne id).map fun change => (change, ([] : List LegacyEntry))).foldl
          (fun receipts entry => if entry.1.id = other then entry.1.receipts receipts else receipts)
          receipts =
          if id = other then Receipts.none else receipts := by
        by_cases same : id = other <;> simp [pruneOne, Edit.id, Edit.receipts, same, Receipts.none]
      rw [parts, List.foldl_append, one, ih]
      by_cases same : id = other
      · simp [same]
      · have different : ¬ other = id := fun equal => same equal.symm
        simp [same, different]

def PendingTransfer.fileIds (transfer : PendingTransfer) : Finset String :=
    (transfer.files.map TransferFile.id).toFinset

-- Without a token nothing has been received; with one, only files of the record,
-- and all of them once the transfer is complete.
def Tallies (view : View) (receipts : Receipts) : Prop :=
  (view.approved = none → receipts = .none) ∧
    ∀ transfer, view.pending = some transfer →
      receipts.files ⊆ transfer.fileIds ∧ (receipts.complete → transfer.fileIds ⊆ receipts.files)

theorem empty_tallies (view : View) : Tallies view .none := by
  refine ⟨fun _ => rfl, ?_⟩
  intro transfer _
  simp [Receipts.none]

def Ledger.Sound (ledger : Ledger) (id : String) : Prop := Tallies (ledger.view id) (ledger.receipts id)

section Plans

variable (ledger : Ledger) (other : String) (sound : ledger.Sound other)

include sound

theorem accept_sound (id token : String) : (ledger.settle (acceptEdits id token)).Sound other := by
  rw [Ledger.Sound, accept_view, accept_receipts]
  split
  · exact ⟨by simp, sound.2⟩
  · exact sound

theorem reject_sound (id : String) (undecided : ledger.approved.lookup id = none) :
    (ledger.settle (rejectEdits id)).Sound other := by
  rw [Ledger.Sound, reject_view, reject_receipts]
  split
  · rename_i same
    subst same
    rw [sound.1 undecided]
    exact empty_tallies _
  · exact sound

theorem cancel_sound (id : String) (info : Option PendingTransfer) (bytes : Nat)
    (incomplete : id ∉ ledger.completed) :
    (ledger.settle (cancelEdits id info bytes)).Sound other := by
  rw [Ledger.Sound, cancel_view, cancel_receipts]
  split
  · rename_i same
    subst same
    have nothing : (⟨∅, (ledger.receipts id).complete⟩ : Receipts) =
      .none := by simp [Receipts.none, Ledger.receipts, incomplete]
    rw [nothing]
    exact empty_tallies _
  · exact sound

theorem register_sound (offer : Offer) (total : Nat) (unapproved : ledger.approved.lookup offer.id = none) :
    (((Edit.pend (offer.pending total)).apply ledger).settle (offer.edits (offer.pending total))).Sound
      other := by
  rw [Ledger.Sound, register_view, register_receipts]
  split
  · rename_i same
    subst same
    rw [sound.1 unapproved]
    exact empty_tallies _
  · exact sound

theorem prune_sound (ids : List String) : (ledger.settle (pruneEdits ids)).Sound other := by
  rw [Ledger.Sound, prune_view, prune_receipts]
  split
  · exact empty_tallies _
  · exact sound

theorem commit_sound (id file : String) (transfer : PendingTransfer)
    (record : id = other → ledger.approved.lookup id ≠ none ∧ ledger.pending.lookup id = some transfer ∧
      file ∈ transfer.fileIds) :
    ((Edit.receive id file).apply ledger).Sound other := by
  rw [Ledger.Sound, view_apply, receipts_apply]
  by_cases same : id = other
  · obtain ⟨granted, pending, listed⟩ := record same
    subst same
    simp only [Edit.id, if_true, Edit.see, Edit.receipts]
    refine ⟨fun none_ => absurd none_ granted, ?_⟩
    intro given found
    obtain ⟨inside, whole⟩ := sound.2 given found
    have equal : transfer = given := Option.some.inj (pending.symm.trans found)
    refine ⟨Finset.insert_subset (equal ▸ listed) inside, fun complete => (whole complete).trans
      (Finset.subset_insert _ _)⟩
  · have key : ¬ (Edit.receive id file).id = other := same
    rw [if_neg key, if_neg key]
    exact sound

theorem complete_sound (id : String) (transfer : PendingTransfer)
    (record : id = other → ledger.approved.lookup id ≠ none ∧ ledger.pending.lookup id = some transfer ∧
      transfer.fileIds ⊆ ledger.filesOf id) : ((Edit.complete id).apply ledger).Sound other := by
  rw [Ledger.Sound, view_apply, receipts_apply]
  by_cases same : id = other
  · obtain ⟨granted, pending, whole⟩ := record same
    subst same
    simp only [Edit.id, if_true, Edit.see, Edit.receipts]
    refine ⟨fun none_ => absurd none_ granted, ?_⟩
    intro given found
    have equal : transfer = given := Option.some.inj (pending.symm.trans found)
    exact ⟨(sound.2 given found).1, fun _ => equal ▸ whole⟩
  · have key : ¬ (Edit.complete id).id = other := same
    rw [if_neg key, if_neg key]
    exact sound

theorem full_count (transfer : PendingTransfer) (pending : ledger.pending.lookup other = some transfer)
    (count : (ledger.filesOf other).card ≥ transfer.files.length) :
    transfer.fileIds ⊆ ledger.filesOf other := by
  have inside : ledger.filesOf other ⊆ transfer.fileIds := (sound.2 transfer pending).1
  have few : transfer.fileIds.card ≤ transfer.files.length := by
    have bound := List.toFinset_card_le (transfer.files.map TransferFile.id)
    simpa [PendingTransfer.fileIds] using bound
  rw [Finset.eq_of_subset_of_card_le inside (few.trans count)]

end Plans

-- The file an upload writes, and whether it has yet to be committed.
def ChunkPhase.listing : ChunkPhase → Option (PendingTransfer × TransferFile)
  | .stamp _ transfer file | .prepare _ transfer file | .openFile _ transfer file _ => some (transfer, file)
  | .receive _ x | .count _ x _ | .flush _ x | .enter _ x | .restamp _ x | .recheck _ x | .report _ x |
      .commit _ x | .tally _ x
  | .complete _ x | .total _ x _ | .uncount _ x => some (x.transfer, x.file)
  | _ => none

def ChunkPhase.uncommitted : ChunkPhase → Bool
  | .stamp _ _ _ | .prepare _ _ _ | .openFile _ _ _ _ | .receive _ _ | .count _ _ _ | .flush _ _ |
      .enter _ _ | .restamp _ _
  | .recheck _ _ | .report _ _ | .commit _ _ | .remove _ _ _ _ => true
  | _ => false

-- What the upload has tested under the decisions mutex.
def ChunkPhase.Tested (params : ChunkRequest) (ledger : Ledger) : ChunkPhase → Prop
  | .report _ _ | .commit _ _ => params.transferId ∉ ledger.cancelled
  | .tally _ _ => params.transferId ∉ ledger.cancelled ∧ params.transferId ∉ ledger.completed
  | .complete _ x => params.transferId ∉ ledger.cancelled ∧ params.transferId ∉ ledger.completed ∧
      (ledger.filesOf params.transferId).card ≥ x.transfer.files.length
  | _ => True

structure Tallied (key : String) (state : LegacyState) : Prop where
  spared : Spared key state
  listed : ∀ (o : Nat) (params : ChunkRequest) (phase : ChunkPhase) (transfer : PendingTransfer) (file :
    TransferFile),
    state.ops[o]? = some (.chunk params phase) → phase.listing = some (transfer, file) →
    transfer.files.find? (·.id == params.fileId) = some file
  fresh : ∀ (o : Nat) (params : ChunkRequest) (phase : ChunkPhase),
    state.ops[o]? = some (.chunk params phase) →
    phase.uncommitted = true → params.fileId ∉ state.legacy.ledger.filesOf params.transferId
  tested : ∀ (o : Nat) (params : ChunkRequest) (phase : ChunkPhase),
    state.ops[o]? = some (.chunk params phase) →
    params.transferId = key → phase.Tested params state.legacy.ledger
  sound : state.settled.Sound key

section Moved

variable (params : ChunkRequest) (legacy : Legacy) (disk : ReceiverDisk) (reading : Reading)
    (phase next : ChunkPhase)
  (act : LegacyAct) (log : List LegacyEntry) (moved : ChunkMove params legacy disk reading phase act log next)

include moved

theorem moved_listed (transfer : PendingTransfer) (file : TransferFile)
    (has : next.listing = some (transfer, file)) :
    phase.listing = some (transfer, file) ∨ transfer.files.find? (·.id == params.fileId) = some file := by
  cases moved with
  | missing k given found new listed =>
      cases has
      exact .inr listed
  | _ => first | exact .inl has | cases has

theorem moved_uncommitted (pending : next.uncommitted = true) :
    act.book legacy.ledger = legacy.ledger ∧
    (phase.uncommitted = true ∨ params.fileId ∉ legacy.ledger.filesOf params.transferId) := by
  cases moved with
  | missing k given found new listed => exact ⟨rfl, .inr new⟩
  | discarded phase k held x reply discarding => cases phase <;> first | exact ⟨rfl, .inl rfl⟩ |
      cases discarding
  | _ => first | exact ⟨rfl, .inl rfl⟩ | cases pending

end Moved

theorem book_files (ledger : Ledger) (act : LegacyAct) (id file : String)
    (now : file ∈ (act.book ledger).filesOf id) :
    file ∈ ledger.filesOf id ∨ act = .edit (.receive id file) := by
  cases act with
  | edit change =>
      have receipts := congrArg Receipts.files (receipts_apply ledger change id)
      rw [show (LegacyAct.edit change).book ledger = change.apply ledger from rfl] at now
      rw [show ((change.apply ledger).receipts id).files = (change.apply ledger).filesOf id
        from rfl] at receipts
      rw [receipts] at now
      by_cases same : change.id = id
      · rw [if_pos same] at now
        cases change with
        | receive key given =>
            rcases Finset.mem_insert.mp now with rfl | before
            · exact .inr (by rw [show key = id from same])
            · exact .inl before
        | unreceive key => simp [Edit.receipts] at now
        | _ => exact .inl now
      · rw [if_neg same] at now
        exact .inl now
  | _ => exact .inl now

theorem one_upload (state : LegacyState) (locked : Locked state) (o p : Nat) (params params' : ChunkRequest)
    (phase phase' : ChunkPhase) (here : state.ops[o]? = some (.chunk params phase))
    (there : state.ops[p]? = some (.chunk params' phase')) (same : params.transferId = params'.transferId)
    (inside : phase.locked = true) (inside' : phase'.locked = true) : o = p := by
  have owns : ∀ (request : ChunkRequest) (stage : ChunkPhase), stage.locked = true →
      ∃ k, (LegacyOp.chunk request stage).owned = some (request.transferId, k) := by
    intro request stage within
    cases stage <;> first | exact ⟨_, rfl⟩ | cases within
  obtain ⟨k, owned⟩ := owns params phase inside
  obtain ⟨k', owned'⟩ := owns params' phase' inside'
  obtain ⟨lock, seat, at_, _⟩ := locked.owned o _ _ k here owned
  obtain ⟨lock', _⟩ := locked.owned p _ _ k' there owned'
  rw [same, lock'] at lock
  cases lock
  have first := locked.sole o _ _ k seat here owned inside at_
  have second := locked.sole p _ _ k seat there owned' inside' at_
  exact Option.some.inj (first.symm.trans second)

theorem uncommitted_locked (phase : ChunkPhase) (pending : phase.uncommitted = true) :
    phase.locked = true := by
  cases phase <;> first | rfl | cases pending

theorem tested_free (params : ChunkRequest) (ledger : Ledger) (phase : ChunkPhase)
    (free : phase.holds = false) :
    phase.Tested params ledger := by
  cases phase <;> trivial

theorem receive_commits (state : LegacyState) (base : LegacyBase state) (o : Nat) (reading : Reading)
    (op op' : LegacyOp) (log : List LegacyEntry) (here : state.ops[o]? = some op) (id file : String)
    (moved : LegacyOpMove state.legacy state.disk reading op (.edit (.receive id file)) log op') :
    ∃ k x params, op = .chunk params (.commit k x) ∧ params.transferId = id ∧ params.fileId = file := by
  generalize act : LegacyAct.edit (.receive id file) = written at moved
  cases moved with
  | ruling verdict key phase next act' log moved =>
      cases moved with
      | edited change log rest reply =>
          cases act
          exact absurd rfl (unplanned state base o _ log here (.receive id file) rest rfl)
      | _ => cases act
  | request offer phase next act' log moved =>
      cases moved with
      | pruned change log rest =>
          cases act
          exact absurd rfl (unplanned state base o _ log here (.receive id file) rest rfl)
      | edited change log rest reply =>
          cases act
          exact absurd rfl (unplanned state base o _ log here (.receive id file) rest rfl)
      | _ => cases act
  | approval peer key phase next act' log moved => cases moved <;> cases act
  | chunk params phase next act' log moved =>
      cases moved with
      | committed k x =>
          cases act
          exact ⟨k, x, params, rfl, rfl, rfl⟩
      | _ => cases act

section Step

variable (key : String) (state : LegacyState) (tallied : Tallied key state) (o : Nat) (reading : Reading)
    (op op' : LegacyOp) (act : LegacyAct)
  (log : List LegacyEntry) (here : state.ops[o]? = some op)
    (moved : LegacyOpMove state.legacy state.disk reading op act log op')

include tallied

theorem held_record (p : Nat) (params : ChunkRequest) (phase : ChunkPhase) (transfer : PendingTransfer)
    (there : state.ops[p]? = some (.chunk params phase)) (mine : params.transferId = key)
    (holds : phase.holds = true) (has : phase.transfer = some transfer)
    (unmarked : params.transferId ∉ state.legacy.ledger.cancelled) :
    state.settled = state.legacy.ledger ∧
      state.legacy.ledger.pending.lookup params.transferId = some transfer ∧
      state.legacy.ledger.approved.lookup params.transferId ≠ none := by
  have settled : state.settled = state.legacy.ledger :=
    settled_held state tallied.spared.approvals.base.locked p _ there holds
  have read := tallied.spared.read p params phase transfer there mine has
  have alive := tallied.spared.alive p params phase there mine (transfer_active phase transfer has)
  rw [settled] at read alive
  exact ⟨settled, read.resolve_left unmarked, alive.resolve_left unmarked⟩

theorem listed_file (p : Nat) (params : ChunkRequest) (phase : ChunkPhase) (transfer : PendingTransfer)
    (file : TransferFile) (there : state.ops[p]? = some (.chunk params phase))
    (has : phase.listing = some (transfer, file)) :
    params.fileId ∈ transfer.fileIds := by
  have found := tallied.listed p params phase transfer file there has
  have member := List.mem_of_find?_eq_some found
  have key : file.id = params.fileId := by simpa using List.find?_some found
  rw [PendingTransfer.fileIds, List.mem_toFinset, ← key]
  exact List.mem_map_of_mem member

theorem commit_incomplete (p k : Nat) (params : ChunkRequest) (x : Writing)
    (there : state.ops[p]? = some (.chunk params (.commit k x))) (mine : params.transferId = key) :
    params.transferId ∉ state.legacy.ledger.completed := by
  have unmarked := tallied.tested p params _ there mine
  obtain ⟨settled, pending, _⟩ :=
    held_record key state tallied p params _ x.transfer there mine rfl rfl unmarked
  intro complete
  have sound := tallied.sound
  rw [settled, ← mine] at sound
  have whole := (sound.2 x.transfer pending).2 complete
  exact tallied.fresh p params _ there rfl
    (whole (listed_file key state tallied p params _ x.transfer x.file there rfl))

include here moved

theorem step_fresh (p : Nat) (params : ChunkRequest) (phase : ChunkPhase)
    (there : (state.after o act log op').ops[p]? = some (.chunk params phase))
    (pending : phase.uncommitted = true) : params.fileId ∉ (state.after o act log op').legacy.ledger.filesOf
    params.transferId := by
  rw [show (state.after o act log op').legacy.ledger = act.book state.legacy.ledger from apply_ledger
    state.legacy o act]
  rcases Transition.set_cases state.ops o p op' _ there with ⟨rfl, rfl⟩ | ⟨other, before⟩
  · cases moved with
    | chunk params phase' next act log moved =>
        obtain ⟨same, was | new⟩ := moved_uncommitted params _ _ _ phase' _ act log moved pending
        · rw [same]
          exact tallied.fresh p params phase' here was
        · rw [same]
          exact new
  · intro member
    rcases book_files _ _ _ _ member with old | rfl
    · exact tallied.fresh p params phase before pending old
    · obtain ⟨k, x, params', rfl, key, _⟩ :=
        receive_commits state tallied.spared.approvals.base o reading op op' log here params.transferId
          params.fileId moved
      exact other (one_upload state tallied.spared.approvals.base.locked p o params params' phase _ before
        here key.symm (uncommitted_locked phase pending) rfl)

theorem step_tested (p : Nat) (params : ChunkRequest) (phase : ChunkPhase)
    (there : (state.after o act log op').ops[p]? = some (.chunk params phase))
    (mine : params.transferId = key) :
    phase.Tested params (state.after o act log op').legacy.ledger := by
  rw [show (state.after o act log op').legacy.ledger = act.book state.legacy.ledger from apply_ledger
    state.legacy o act]
  rcases Transition.set_cases state.ops o p op' _ there with ⟨rfl, rfl⟩ | ⟨other, before⟩
  · cases moved with
    | chunk params stage next act log moved =>
        have tested := tallied.tested p params stage here mine
        cases moved with
        | surviving k x unmarked => exact unmarked
        | reported k x cumulative => exact tested
        | committed k x => exact ⟨tested, commit_incomplete key state tallied p k params x here mine⟩
        | whole k x all_ => exact ⟨tested.1, tested.2, all_⟩
        | _ => trivial
  · by_cases inside : phase.holds = true
    · have free := others_free state tallied.spared.approvals.base.locked o op here p _ before inside other
      rw [moved_books state.legacy state.disk reading op op' act log moved free]
      exact tallied.tested p params phase before mine
    · exact tested_free params _ phase (by simpa using inside)

omit here moved in
theorem complete_whole (p k : Nat) (params : ChunkRequest) (x : Writing)
    (there : state.ops[p]? = some (.chunk params (.complete k x))) (mine : params.transferId = key) :
    x.transfer.fileIds ⊆ state.legacy.ledger.filesOf params.transferId := by
  obtain ⟨unmarked, _, count⟩ := tallied.tested p params _ there mine
  obtain ⟨settled, pending, _⟩ :=
    held_record key state tallied p params _ x.transfer there mine rfl rfl unmarked
  have sound := tallied.sound
  rw [settled, ← mine] at sound
  exact full_count _ _ sound x.transfer pending count

omit here moved in
theorem complete_record (p k : Nat) (params : ChunkRequest) (x : Writing)
    (there : state.ops[p]? = some (.chunk params (.complete k x))) (mine : params.transferId = key) :
    state.legacy.ledger.approved.lookup params.transferId ≠ none ∧
      state.legacy.ledger.pending.lookup params.transferId = some x.transfer ∧
      x.transfer.fileIds ⊆ state.legacy.ledger.filesOf params.transferId := by
  obtain ⟨_, pending, granted⟩ := held_record key state tallied p params _ x.transfer there mine rfl rfl
    (tallied.tested p params _ there mine).1
  exact ⟨granted, pending, complete_whole key state tallied p k params x there mine⟩

omit moved in
theorem chunk_sound (params : ChunkRequest) (phase next : ChunkPhase) (same : op = .chunk params phase)
    (step : ChunkMove params state.legacy state.disk reading phase act log next)
    (settled : state.settled = state.legacy.ledger) :
    (act.book state.legacy.ledger).Sound key := by
  subst same
  have sound := tallied.sound
  rw [settled] at sound
  cases step with
  | committed k x =>
      refine commit_sound _ _ sound _ _ x.transfer ?_
      intro mine
      obtain ⟨_, pending, granted⟩ := held_record key state tallied o params _ x.transfer here mine rfl rfl
        (tallied.tested o params _ here mine)
      exact ⟨granted, pending, listed_file key state tallied o params _ x.transfer x.file here rfl⟩
  | completed k x transfer new found =>
      exact complete_sound _ _ sound _ x.transfer (complete_record key state tallied o k params x here)
  | unannounced k x lost =>
      exact complete_sound _ _ sound _ x.transfer (complete_record key state tallied o k params x here)
  | _ => exact sound

theorem step_sound : (state.after o act log op').settled.Sound key := by
  have base := tallied.spared.approvals.base
  have checked := base.checked o op here
  rcases settled_moved state base.locked o op reading op' act log here moved with ⟨same, _⟩ |
    ⟨_, idle, before, after⟩
  · rw [same]
    exact tallied.sound
  · have sound := tallied.sound
    rw [before] at sound
    rw [after]
    cases moved with
    | ruling verdict id phase next act log moved =>
        cases moved with
        | accepted token transfer same waiting => exact accept_sound _ _ sound id token
        | rejected transfer same waiting => exact reject_sound _ _ sound id checked.2
        | cancelled info => exact cancel_sound _ _ sound id info _ checked.1
        | edited change log rest reply => cases idle
        | _ => exact sound
    | request offer phase next act log moved =>
        cases moved with
        | selected distinct idle => exact prune_sound _ _ sound reading.order
        | registered total =>
            refine register_sound _ _ sound offer total ?_
            obtain ⟨life, known⟩ := base.lives offer.id
            rw [before] at known
            have pending := (life_pending _ _ life known).symm.trans checked.2.2
            rw [life_approved _ _ life known]
            cases life <;> first | rfl | cases pending
        | pruned change log rest => cases idle
        | edited change log rest reply => cases idle
        | _ => exact sound
    | approval peer id phase next act log moved => cases moved <;> exact sound
    | chunk params phase next act log moved =>
        exact chunk_sound key state tallied o reading _ act log here params phase next rfl moved before

theorem step_tallied (spared : Spared key (state.after o act log op')) : Tallied key
    (state.after o act log op') := by
  refine ⟨spared, ?_, step_fresh key state tallied o reading op op' act log here moved,
    step_tested key state tallied o reading op op' act log here moved,
    step_sound key state tallied o reading op op' act log here moved⟩
  intro p params phase transfer file there has
  rcases Transition.set_cases state.ops o p op' _ there with ⟨rfl, rfl⟩ | ⟨_, before⟩
  · cases moved with
    | chunk params stage next act log moved =>
        rcases moved_listed params _ _ _ stage _ act log moved transfer file has with old | found
        · exact tallied.listed p params stage transfer file here old
        · exact found
  · exact tallied.listed p params phase transfer file before has

end Step

theorem tallied_step (key : String) (state next : LegacyState) (label : LegacyLabel)
    (tallied : Tallied key state) (allowed : sparesUploadsOf key state label = true)
    (stepped : legacyStep state label = some next) : Tallied key next := by
  have spared := spared_step key state next label tallied.spared allowed stepped
  rcases legacy_step_cases state next label stepped with ⟨call, _, rfl⟩ |
    ⟨o, reading, op, act, log, op', _, here, moved, rfl⟩
  · have old : ∀ (p : Nat) (params : ChunkRequest) (phase : ChunkPhase), (state.ops ++ [call.op])[p]? =
      some (.chunk params phase) →
        state.ops[p]? = some (.chunk params phase) ∨ phase = .seat := by
      intro p params phase there
      rcases Transition.append_cases state.ops p call.op _ there with before | new
      · exact .inl before
      · cases call <;> cases new
        exact .inr rfl
    refine ⟨spared, ?_, ?_, ?_, ?_⟩
    · intro p params phase transfer file there has
      rcases old p params phase there with before | rfl
      · exact tallied.listed p params phase transfer file before has
      · cases has
    · intro p params phase there pending
      rcases old p params phase there with before | rfl
      · exact tallied.fresh p params phase before pending
      · cases pending
    · intro p params phase there mine
      rcases old p params phase there with before | rfl
      · exact tallied.tested p params phase before mine
      · trivial
    · rw [call_settled state tallied.spared.approvals.base.locked call]
      exact tallied.sound
  · exact step_tallied key state tallied o reading op op' act log here moved spared

theorem initial_tallied (key : String) (state : LegacyState) (initial : LegacyInitial state) :
    Tallied key state := by
  have nobody : ∀ (p : Nat) (q : LegacyOp), state.ops[p]? ≠ some q := by
    intro p q there
    rw [initial.idle] at there
    cases there
  refine ⟨initial_spared key state initial, ?_, ?_, ?_, ?_⟩
  · intro p _ _ _ _ there
    exact absurd there (nobody p _)
  · intro p _ _ there
    exact absurd there (nobody p _)
  · intro p _ _ there
    exact absurd there (nobody p _)
  · have free : state.legacy.decisions = none := by
      rw [initial.fresh]
      rfl
    have nothing : Legacy.empty.ledger.receipts key = .none := by
      simp [Legacy.empty, Ledger.empty, Ledger.receipts, Ledger.filesOf, Receipts.none]
    rw [Ledger.Sound, settled_free state free, initial.fresh, nothing]
    exact empty_tallies _

end GoshTransfer
