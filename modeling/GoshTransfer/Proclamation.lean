import GoshTransfer.Receipts

set_option autoImplicit false

namespace GoshTransfer

open InodeStore

-- The computed total that a request carries once its fields have been checked.
def RequestPhase.total : RequestPhase → Option Nat
  | .used total | .refused total | .existing total | .retry total | .capacity total | .stamp total |
      .pend total => some total
  | _ => none

-- The upload has committed and has yet to find out whether it was the last one,
-- or to announce it.
def ChunkPhase.announcing : ChunkPhase → Bool
  | .tally _ _ | .complete _ _ | .total _ _ _ => true
  | _ => false

theorem unusable_files_sound (ids : List String) (files : List TransferFile)
    (usable : unusableFiles ids files = false) :
    (files.map TransferFile.id).Nodup ∧ ∀ file ∈ files, file.id ∉ ids := by
  induction files generalizing ids with
  | nil => simp
  | cons file rest ih =>
      simp only [unusableFiles, Bool.or_eq_false_iff] at usable
      obtain ⟨⟨_, new⟩, later⟩ := usable
      obtain ⟨distinct, apart⟩ := ih (file.id :: ids) later
      refine ⟨List.nodup_cons.mpr ⟨?_, distinct⟩, ?_⟩
      · intro member
        obtain ⟨other, inRest, same⟩ := List.mem_map.mp member
        exact apart other inRest (by simp [same])
      · intro other member
        rcases List.mem_cons.mp member with rfl | inRest
        · simpa using new
        · exact fun inIds => apart other inRest (List.mem_cons_of_mem _ inIds)

theorem checked_files (request : TransferRequest) (total : Nat) (valid : checkTransfer request = .ok total) :
    (request.files.map TransferFile.id).Nodup := by
  unfold checkTransfer at valid
  split at valid
  · cases valid
  · rename_i usable
    have files : unusableFiles [] request.files = false := by
      simp only [Bool.or_eq_true, not_or, Bool.not_eq_true] at usable
      exact usable.2
    exact (unusable_files_sound [] request.files files).1

theorem registration_member (id : String) (log : List LegacyEntry) (transfer : PendingTransfer)
    (found : registration id log = some transfer) : .registered transfer ∈ log := by
  induction log using List.reverseRecOn with
  | nil => cases found
  | append_singleton log entry ih =>
      by_cases last : ∃ given, entry = .registered given ∧ given.id = id
      · obtain ⟨given, rfl, key⟩ := last
        rw [registration_new id log given key] at found
        cases found
        simp
      · have quiet : ∀ given, .registered given ∈ [entry] → given.id ≠ id := by
          intro given member key
          exact last ⟨given, by simpa using (List.mem_singleton.mp member).symm, key⟩
        rw [registration_quiet id log [entry] quiet] at found
        exact List.mem_append_left _ (ih found)

theorem handed_to_unregistered (id : String) (token : Option String) (peer : String)
    (transfer : PendingTransfer) :
    .registered transfer ∉ handedTo id token peer := by
  cases token <;> simp [handedTo]

structure Proclaimed (id : String) (state : LegacyState) : Prop where
  tallied : Tallied id state
  totals : ∀ (o : Nat) (offer : Offer) (phase : RequestPhase) (total : Nat),
    state.ops[o]? = some (.request offer phase) →
    phase.total = some total → checkTransfer offer.request = .ok total
  records : ∀ transfer, .registered transfer ∈ state.log → (transfer.files.map TransferFile.id).Nodup
  announced : ∀ transfer, state.settled.pending.lookup id = some transfer → state.settled.filesOf id ≠ ∅ →
    transfer.fileIds ⊆ state.settled.filesOf id → .event (.transferComplete id) ∈ since id state.log ∨
      ∃ (o : Nat) (params : ChunkRequest) (phase : ChunkPhase), state.ops[o]? = some (.chunk params phase) ∧
        params.transferId = id ∧
        phase.announcing = true

section Step

variable (id : String) (state : LegacyState) (proclaimed : Proclaimed id state) (o : Nat)
    (reading : Reading) (op op' : LegacyOp) (act : LegacyAct)
  (log : List LegacyEntry) (here : state.ops[o]? = some op)
    (moved : LegacyOpMove state.legacy state.disk reading op act log op')

include proclaimed here moved

theorem step_totals (p : Nat) (offer : Offer) (phase : RequestPhase) (total : Nat)
    (there : (state.after o act log op').ops[p]? = some (.request offer phase))
    (has : phase.total = some total) :
    checkTransfer offer.request = .ok total := by
  rcases Transition.set_cases state.ops o p op' _ there with ⟨rfl, rfl⟩ | ⟨_, before⟩
  · cases moved with
    | request offer stage next act log moved =>
        have carried := proclaimed.totals p offer stage total here
        cases moved with
        | checked computed absent valid =>
            cases has
            exact valid
        | _ => first | exact carried has | cases has
  · exact proclaimed.totals p offer phase total before has

theorem step_records (transfer : PendingTransfer)
    (reported : .registered transfer ∈ (state.after o act log op').log) :
    (transfer.files.map TransferFile.id).Nodup := by
  rcases List.mem_append.mp reported with old | new
  · exact proclaimed.records transfer old
  · obtain ⟨offer, total, rfl, rfl⟩ := (moved_reports state.legacy state.disk reading op op' act log moved
      (proclaimed.tallied.spared.approvals.base.drafted o op here)).1 transfer new
    exact checked_files offer.request total (proclaimed.totals o offer _ total here rfl)

theorem plan_keeps (idle : op.todo = []) (other : ∀ params phase, op ≠ .chunk params phase)
    (before : state.settled = state.legacy.ledger) (transfer : PendingTransfer)
    (pending : ((act.book state.legacy.ledger).settle op'.todo).pending.lookup id = some transfer)
    (some_ : ((act.book state.legacy.ledger).settle op'.todo).filesOf id ≠ ∅) :
    state.legacy.ledger.pending.lookup id = some transfer ∧
      ((act.book state.legacy.ledger).settle op'.todo).filesOf id = state.legacy.ledger.filesOf id ∧
      ∀ given, .registered given ∈ log → given.id ≠ id := by
  have base := proclaimed.tallied.spared.approvals.base
  have checked := base.checked o op here
  have views : ∀ ledger : Ledger, ledger.pending.lookup id = (ledger.view id).pending := fun _ => rfl
  have files : ∀ ledger : Ledger, ledger.filesOf id = (ledger.receipts id).files := fun _ => rfl
  rw [views] at pending
  rw [files] at some_ ⊢
  cases moved with
  | ruling verdict key phase next act log moved =>
      cases moved with
      | accepted token given same waiting =>
          simp only [LegacyAct.book, LegacyOp.todo, accept_view, accept_receipts] at pending some_ ⊢
          refine ⟨?_, rfl, by simp⟩
          split at pending <;> exact pending
      | rejected given same waiting =>
          simp only [LegacyAct.book, LegacyOp.todo, reject_view, reject_receipts] at pending some_ ⊢
          split at pending
          · cases pending
          · exact ⟨pending, rfl, by simp⟩
      | cancelled info =>
          simp only [LegacyAct.book, LegacyOp.todo, cancel_view, cancel_receipts] at pending some_ ⊢
          split at pending
          · cases pending
          · rename_i different
            exact ⟨pending, by rw [if_neg different]; rfl, by simp⟩
      | edited change log rest reply => cases idle
      | _ => exact ⟨pending, rfl, by simp⟩
  | request offer phase next act log moved =>
      cases moved with
      | selected distinct idle =>
          simp only [LegacyAct.book, LegacyOp.todo, prune_view, prune_receipts] at pending some_ ⊢
          split at pending
          · cases pending
          · rename_i different
            exact ⟨pending, by rw [if_neg different]; rfl, by simp⟩
      | registered total =>
          simp only [LegacyAct.book, LegacyOp.todo, register_view, register_receipts] at pending some_ ⊢
          split at pending
          · rename_i same
            obtain ⟨life, known⟩ := base.lives id
            rw [before] at known
            have absent := (life_pending _ _ life known).symm.trans (same ▸ checked.2.2)
            have unapproved : state.legacy.ledger.approved.lookup id = none := by
              rw [life_approved _ _ life known]
              cases life <;> first | rfl | cases absent
            have sound := proclaimed.tallied.sound
            rw [before] at sound
            rw [sound.1 unapproved] at some_
            exact absurd rfl some_
          · rename_i different
            refine ⟨pending, rfl, ?_⟩
            intro given reported
            have equal : given = offer.pending total := by simpa using reported
            rw [equal]
            exact different
      | retried total reply =>
          refine ⟨pending, rfl, ?_⟩
          intro given reported
          exact absurd reported (handed_to_unregistered _ _ _ given)
      | pruned change log rest => cases idle
      | edited change log rest reply => cases idle
      | _ => exact ⟨pending, rfl, by simp⟩
  | approval peer key phase next act log moved => cases moved <;> exact ⟨pending, rfl, by simp⟩
  | chunk params phase next act log moved => exact absurd rfl (other params phase)

omit here moved in
theorem announcing_mine (here : state.ops[o]? = some op) (holds : op.holds = true)
    (told : .event (.transferComplete id) ∈ since id state.log ∨
      ∃ (p : Nat) (params : ChunkRequest) (phase : ChunkPhase), state.ops[p]? = some (.chunk params phase) ∧
        params.transferId = id ∧
        phase.announcing = true) :
    .event (.transferComplete id) ∈ since id state.log ∨
      ∃ params phase, op = .chunk params phase ∧ params.transferId = id ∧ phase.announcing = true := by
  rcases told with event | ⟨p, params, phase, there, key, announcing⟩
  · exact .inl event
  · have inside : (LegacyOp.chunk params phase).holds = true := by
      cases phase <;> first | rfl | cases announcing
    have base := proclaimed.tallied.spared.approvals.base
    have same : p = o := by
      have mine := base.locked.held o op here holds
      rw [base.locked.held p _ there inside] at mine
      exact Option.some.inj mine
    subst same
    rw [here] at there
    exact .inr ⟨params, phase, Option.some.inj there, key, announcing⟩

omit here moved in
theorem full_length (p : Nat) (params : ChunkRequest) (phase : ChunkPhase) (transfer : PendingTransfer)
    (there : state.ops[p]? = some (.chunk params phase)) (mine : params.transferId = id)
    (holds : phase.holds = true) (has : phase.transfer = some transfer)
    (unmarked : params.transferId ∉ state.legacy.ledger.cancelled)
    (whole : transfer.fileIds ⊆ state.legacy.ledger.filesOf params.transferId) :
    transfer.files.length ≤ (state.legacy.ledger.filesOf params.transferId).card := by
  obtain ⟨_, pending, _⟩ :=
    held_record id state proclaimed.tallied p params phase transfer there mine holds has unmarked
  have registered := proclaimed.tallied.spared.approvals.issued.record _ transfer pending
  have distinct := proclaimed.records transfer (registration_member _ _ transfer registered)
  calc transfer.files.length = transfer.fileIds.card := by
        rw [PendingTransfer.fileIds, List.toFinset_card_of_nodup distinct, List.length_map]
    _ ≤ (state.legacy.ledger.filesOf params.transferId).card := Finset.card_le_card whole

omit proclaimed here moved in
theorem chunk_other_files (params : ChunkRequest) (phase next : ChunkPhase)
    (step : ChunkMove params state.legacy state.disk reading phase act log next)
    (other : params.transferId ≠ id) :
    (act.book state.legacy.ledger).pending.lookup id = state.legacy.ledger.pending.lookup id ∧
      (act.book state.legacy.ledger).filesOf id = state.legacy.ledger.filesOf id := by
  cases step with
  | committed k x =>
      have receipts :=
        congrArg Receipts.files
          (receipts_apply state.legacy.ledger (.receive params.transferId params.fileId) id)
      rw [if_neg (show ¬ (Edit.receive params.transferId params.fileId).id = id from other)] at receipts
      exact ⟨rfl, receipts⟩
  | _ => exact ⟨rfl, rfl⟩

omit moved in
theorem chunk_announced (params : ChunkRequest) (phase next : ChunkPhase) (same : op = .chunk params phase)
    (step : ChunkMove params state.legacy state.disk reading phase act log next) (holds : phase.holds = true)
    (before : state.settled = state.legacy.ledger) (transfer : PendingTransfer)
    (pending : (act.book state.legacy.ledger).pending.lookup id = some transfer)
    (some_ : (act.book state.legacy.ledger).filesOf id ≠ ∅)
    (whole : transfer.fileIds ⊆ (act.book state.legacy.ledger).filesOf id) :
    .event (.transferComplete id) ∈ since id state.log ++ log ∨
    (params.transferId = id ∧ next.announcing = true) := by
  subst same
  have tallied := proclaimed.tallied
  -- The old state knew the answer unless this upload was the one to give it.
  have keeps : (act.book state.legacy.ledger).pending.lookup id = state.legacy.ledger.pending.lookup id →
      (act.book state.legacy.ledger).filesOf id = state.legacy.ledger.filesOf id →
      ¬ (params.transferId = id ∧ phase.announcing = true) →
        .event (.transferComplete id) ∈ since id state.log ++ log := by
    intro samePending sameFiles silent
    rw [samePending, ← before] at pending
    rw [sameFiles, ← before] at some_ whole
    have told := proclaimed.announced transfer pending some_ whole
    rcases announcing_mine id state proclaimed o _ here holds told with event | ⟨_, _, same, announcing⟩
    · exact List.mem_append_left _ event
    · cases same
      exact absurd announcing silent
  by_cases key : params.transferId = id
  · subst key
    cases step with
    | committed k x => exact .inr ⟨rfl, rfl⟩
    | whole k x all_ => exact .inr ⟨rfl, rfl⟩
    | completed k x given new found => exact .inr ⟨rfl, rfl⟩
    | announced k x given bytes => exact .inl (by simp)
    | partway k x fewer =>
        obtain ⟨unmarked, _⟩ := tallied.tested o params _ here rfl
        obtain ⟨_, found, _⟩ :=
          held_record params.transferId state tallied o params _ x.transfer here rfl rfl rfl unmarked
        have equal : x.transfer = transfer := Option.some.inj (found.symm.trans pending)
        have enough :=
          full_length params.transferId state proclaimed o params _ x.transfer here rfl rfl rfl unmarked
            (equal ▸ whole)
        omega
    | unannounced k x lost =>
        obtain ⟨unmarked, incomplete, _⟩ := tallied.tested o params _ here rfl
        obtain ⟨_, found, _⟩ :=
          held_record params.transferId state tallied o params _ x.transfer here rfl rfl rfl unmarked
        rcases lost with complete | none_
        · exact absurd complete incomplete
        · exact absurd (found.symm.trans none_) (by simp)
    | quit phase k reply early =>
        rw [(legacy_early_phase phase k early).1] at holds
        cases holds
    | discarded phase k held x reply discarding =>
        refine .inl (keeps rfl rfl ?_)
        rintro ⟨_, announcing⟩
        cases phase <;> first | (cases discarding; done) | cases announcing
    | _ => exact .inl (keeps rfl rfl (by simp [ChunkPhase.announcing]))
  · obtain ⟨samePending, sameFiles⟩ := chunk_other_files id state reading act log params phase next step key
    exact .inl (keeps samePending sameFiles fun both => key both.1)

theorem step_announced (transfer : PendingTransfer)
    (pending : (state.after o act log op').settled.pending.lookup id = some transfer)
    (some_ : (state.after o act log op').settled.filesOf id ≠ ∅)
    (whole : transfer.fileIds ⊆ (state.after o act log op').settled.filesOf id) :
    .event (.transferComplete id) ∈ since id (state.after o act log op').log ∨
      ∃ (p : Nat) (params : ChunkRequest) (phase : ChunkPhase), (state.after o act log op').ops[p]? = some (.chunk params phase) ∧
        params.transferId = id ∧ phase.announcing = true := by
  have base := proclaimed.tallied.spared.approvals.base
  have within : o < state.ops.length := (List.getElem?_eq_some_iff.mp here).1
  have self : (state.after o act log op').ops[o]? = some op' := List.getElem?_set_self within
  have grows : (∀ given, .registered given ∈ log → given.id ≠ id) →
      since id (state.after o act log op').log = since id state.log ++ log := fun quiet => since_quiet id state.log log quiet
  obtain ⟨registers, _⟩ := moved_reports state.legacy state.disk reading op op' act log moved (base.drafted o op here)
  rcases settled_moved state base.locked o op reading op' act log here moved with ⟨same, busy⟩ | ⟨holds, idle, before, after⟩
  · rw [same] at pending some_ whole
    have quiet : ∀ given, .registered given ∈ log → given.id ≠ id := by
      intro given reported
      obtain ⟨offer, total, rfl, _⟩ := registers given reported
      cases moved with
      | request offer phase next act log moved => cases moved <;> rcases busy rfl with held | held <;> cases held
    rcases proclaimed.announced transfer pending some_ whole with event | ⟨p, params, phase, there, key, announcing⟩
    · exact .inl (by rw [grows quiet]; exact List.mem_append_left _ event)
    · by_cases mine : p = o
      · subst mine
        rw [here] at there
        cases there
        cases moved with
        | chunk params stage next act log moved =>
            cases moved with
            | quit phase k reply early => cases phase <;> first | (cases early; done) | cases announcing
            | discarded phase k held x reply discarding => cases phase <;> first | (cases discarding; done) | cases announcing
            | _ => first | cases announcing; done | (rcases busy rfl with held | held <;> cases held)
      · exact .inr ⟨p, params, phase, (List.getElem?_set_ne (fun equal => mine equal.symm)).trans there, key, announcing⟩
  · rw [after] at pending some_ whole
    by_cases upload : ∃ params phase, op = .chunk params phase
    · obtain ⟨params, phase, rfl⟩ := upload
      have quiet : ∀ given, .registered given ∈ log → given.id ≠ id := by
        intro given reported
        obtain ⟨_, _, impossible, _⟩ := registers given reported
        cases impossible
      rw [grows quiet]
      cases moved with
      | chunk params stage next act log moved =>
          rcases chunk_announced id state proclaimed o reading _ act log here params _ next rfl moved holds
            before transfer pending some_ whole
            with event | ⟨key, announcing⟩
          · exact .inl event
          · exact .inr ⟨o, params, next, self, key, announcing⟩
    · obtain ⟨samePending, sameFiles, quiet⟩ := plan_keeps id state proclaimed o reading op op' act log here moved idle
        (fun params phase equal => upload ⟨params, phase, equal⟩) before transfer pending some_
      rw [sameFiles] at some_ whole
      rw [← before] at samePending some_ whole
      have told := proclaimed.announced transfer samePending some_ whole
      rcases announcing_mine id state proclaimed o op here holds told with event | ⟨params, phase, equal, _⟩
      · exact .inl (by rw [grows quiet]; exact List.mem_append_left _ event)
      · exact absurd ⟨params, phase, equal⟩ upload

end Step

theorem proclaimed_step (id : String) (state next : LegacyState) (label : LegacyLabel)
    (proclaimed : Proclaimed id state) (allowed : sparesUploadsOf id state label = true)
    (stepped : legacyStep state label = some next) : Proclaimed id next := by
  have tallied := tallied_step id state next label proclaimed.tallied allowed stepped
  rcases legacy_step_cases state next label stepped with ⟨call, _, rfl⟩ |
    ⟨o, reading, op, act, log, op', _, here, moved, rfl⟩
  · refine ⟨tallied, ?_, proclaimed.records, ?_⟩
    · intro p offer phase total there has
      rcases Transition.append_cases state.ops p call.op _ there with before | new
      · exact proclaimed.totals p offer phase total before has
      · cases call <;> cases new
        cases has
    · rw [call_settled state proclaimed.tallied.spared.approvals.base.locked call]
      intro transfer pending some_ whole
      rcases proclaimed.announced transfer pending some_ whole with event |
        ⟨p, params, phase, there, key, announcing⟩
      · exact .inl event
      · have within : p < state.ops.length := (List.getElem?_eq_some_iff.mp there).1
        exact .inr ⟨p, params, phase, by rw [List.getElem?_append_left within]; exact there, key, announcing⟩
  · exact ⟨tallied, step_totals id state proclaimed o reading op op' act log here moved,
      step_records id state proclaimed o reading op op' act log here moved,
      step_announced id state proclaimed o reading op op' act log here moved⟩

theorem initial_proclaimed (id : String) (state : LegacyState) (initial : LegacyInitial state) :
    Proclaimed id state := by
  have tallied := initial_tallied id state initial
  refine ⟨tallied, ?_, ?_, ?_⟩
  · intro p offer phase total there
    rw [initial.idle] at there
    cases there
  · intro transfer reported
    rw [initial.silent] at reported
    cases reported
  · intro transfer pending
    have registered := tallied.spared.approvals.issued.settledRecord id transfer pending
    rw [initial.silent] at registered
    cases registered

theorem run_proclaimed (id : String) (allow : LegacyState → LegacyLabel → Prop) (start state : LegacyState)
    (initial : LegacyInitial start)
    (spares : ∀ state label, allow state label → sparesUploadsOf id state label = true)
    (run : Transition.Run legacyStep allow start state) : Proclaimed id state :=
  Transition.run_invariant legacyStep allow (Proclaimed id)
    (fun state label next proclaimed allowed stepped => proclaimed_step id state next label proclaimed
    (spares state label allowed) stepped)
    start state run (initial_proclaimed id start initial)

-- What an active upload is promised: the expiry pass leaves its transfer alone,
-- its commit counts for the pending record it belongs to, and the last commit
-- leads to TransferComplete.
structure UploadsSpared (state : LegacyState) : Prop where
  unpruned : ∀ (o p : Nat) (params : ChunkRequest) (phase : ChunkPhase) (offer : Offer) (todo : Todo)
    (entry : Edit × List LegacyEntry),
    state.ops[o]? = some (.chunk params phase) → phase.active = true →
      state.ops[p]? = some (.request offer (.prune todo)) →
    entry ∈ todo → entry.1.id ≠ params.transferId
  own : ∀ (o k : Nat) (params : ChunkRequest) (x : Writing),
    state.ops[o]? = some (.chunk params (.commit k x)) →
    state.legacy.ledger.pending.lookup params.transferId = some x.transfer
  last : ∀ (o k : Nat) (params : ChunkRequest) (x : Writing),
    state.ops[o]? = some (.chunk params (.complete k x)) →
    ∀ reading, (LegacyOp.chunk params (.complete k x)).next state.legacy state.disk reading =
      some (.edit (.complete params.transferId), [], .chunk params (.total k x x.transfer))
  announced : state.legacy.decisions = none →
    ∀ id transfer, state.legacy.ledger.pending.lookup id = some transfer →
    state.legacy.ledger.filesOf id ≠ ∅ → transfer.fileIds ⊆ state.legacy.ledger.filesOf id →
    .event (.transferComplete id) ∈ since id state.log

theorem active_uploads_are_spared (start state : LegacyState) (initial : LegacyInitial start)
    (run : Transition.Run legacyStep (fun state label => sparesUploads state label = true) start state) :
    UploadsSpared state := by
  have proclaimed : ∀ id, Proclaimed id state := fun id =>
    run_proclaimed id _ start state initial (fun state label allowed => spares_each id state label allowed)
      run
  have tallied : ∀ id, Tallied id state := fun id => (proclaimed id).tallied
  refine ⟨?_, ?_, ?_, ?_⟩
  · intro o p params phase offer todo entry here active there member same
    exact (tallied _).spared.apart o p params phase _ here rfl active there
      (List.mem_map.mpr ⟨entry, member, same⟩)
  · intro o k params x here
    exact (held_record _ state (tallied _) o params _ x.transfer here rfl rfl rfl
      ((tallied _).tested o params _ here rfl)).2.1
  · intro o k params x here reading
    obtain ⟨unmarked, incomplete, _⟩ := (tallied _).tested o params _ here rfl
    obtain ⟨_, found, _⟩ := held_record _ state (tallied _) o params _ x.transfer here rfl rfl rfl unmarked
    simp [LegacyOp.next, ChunkPhase.next, legacyCompleteStep, incomplete, found]
  · intro free id transfer pending some_ whole
    rw [← settled_free state free] at pending some_ whole
    rcases (proclaimed id).announced transfer pending some_ whole with event |
      ⟨p, params, phase, there, _, announcing⟩
    · exact event
    · have inside : (LegacyOp.chunk params phase).holds = true := by
        cases phase <;> first | rfl | cases announcing
      have taken := (tallied id).spared.approvals.base.locked.held p _ there inside
      rw [free] at taken
      cases taken

-- One trusted offer and the upload of its only file.
theorem lone_upload_is_announced : ∃ state,
    Transition.Run legacyStep (fun state label => sparesUploads state label = true) emptyLegacy state ∧
      state.legacy.ledger.filesOf offerId = {offerFile.id} ∧
        .event (.transferComplete offerId) ∈ since offerId state.log := by
  obtain ⟨state, run, checked⟩ :=
    Transition.replay_reaches legacyStep (fun state label => sparesUploads state label = true)
    (.call (.request (smallOffer true)) :: legacyAdvances 0 14 ++ .call (.chunk smallChunk) ::
      legacyAdvances 1 24) emptyLegacy
    (fun state => state.legacy.decisions == none && state.legacy.ledger.filesOf offerId == {offerFile.id} &&
      state.legacy.ledger.pending.lookup offerId == some ((smallOffer true).pending 0)) (by decide +kernel)
  simp only [Bool.and_eq_true, beq_iff_eq] at checked
  obtain ⟨⟨free, files⟩, pending⟩ := checked
  have spared := active_uploads_are_spared emptyLegacy state empty_legacy_initial run
  refine ⟨state, run, files, spared.announced free offerId _ pending (by rw [files]; simp)
    (by rw [files]; decide)⟩

def lateReading : Reading := { calm with now := 3600000000000, order := [offerId] }

def otherOffer : Offer := { smallOffer false with request := ⟨"v2", none, [offerFile], 0⟩ }

def LegacyOp.opens (id : String) : LegacyOp → Bool
  | .chunk params (.root _) => params.transferId == id
  | _ => false

def LegacyOp.prunesNext (id : String) : LegacyOp → Bool
  | .request _ (.prune ((change, _) :: _)) => change.id == id
  | _ => false

theorem opens_chunk (id : String) (op : LegacyOp) (opens : op.opens id = true) :
    ∃ params k, op = .chunk params (.root k) ∧ params.transferId = id := by
  unfold LegacyOp.opens at opens
  split at opens
  · exact ⟨_, _, rfl, beq_iff_eq.mp opens⟩
  · cases opens

theorem prunes_request (id : String) (op : LegacyOp) (prunes : op.prunesNext id = true) :
    ∃ offer change report rest, op = .request offer (.prune ((change, report) :: rest)) ∧ change.id = id := by
  unfold LegacyOp.prunesNext at prunes
  split at prunes
  · exact ⟨_, _, _, _, rfl, beq_iff_eq.mp prunes⟩
  · cases prunes

-- The expiry pass of another registration has selected the id one hour later and
-- not yet deleted anything when the upload passes its token check.
theorem expiry_overtakes_an_upload : ¬ ∀ start state, LegacyInitial start → Transition.Run legacyStep
    (fun _ _ => True) start state →
    UploadsSpared state := by
  intro always
  obtain ⟨state, run, checked⟩ := Transition.replay_reaches legacyStep (fun _ _ => True)
    (.call (.request (smallOffer true)) :: legacyAdvances 0 14 ++ .call (.request otherOffer) ::
    .advance 1 calm :: .advance 1 lateReading ::
      .call (.chunk smallChunk) :: legacyAdvances 2 4) emptyLegacy
    (fun state : LegacyState => (state.ops[(2 : Nat)]?).any (LegacyOp.opens offerId) &&
      (state.ops[(1 : Nat)]?).any (LegacyOp.prunesNext offerId))
    (by decide +kernel)
  rw [Bool.and_eq_true, Option.any_eq_true, Option.any_eq_true] at checked
  obtain ⟨⟨upload, here, opens⟩, pass, there, prunes⟩ := checked
  obtain ⟨params, k, rfl, mine⟩ := opens_chunk offerId upload opens
  obtain ⟨offer, change, report, rest, rfl, same⟩ := prunes_request offerId pass prunes
  have spared := always emptyLegacy state empty_legacy_initial run
  have apart :=
    spared.unpruned 2 1 params (.root k) offer _ (change, report) here rfl there List.mem_cons_self
  rw [mine] at apart
  exact apart same

end GoshTransfer
