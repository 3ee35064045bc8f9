import GoshTransfer.Disclosure

set_option autoImplicit false

namespace GoshTransfer

open InodeStore

-- The handler has passed its token check and has not returned.
def ChunkPhase.active : ChunkPhase → Bool
  | .seat | .lock _ | .cancelled _ | .token _ | .done _ => false
  | .unlock _ passed _ | .vacate _ passed _ => passed
  | _ => true

-- The ids for which an expiry pass still has writes to make.
def LegacyOp.pruning : LegacyOp → List String
  | .request _ (.prune todo) => todo.map fun entry => entry.1.id
  | _ => []

-- No upload passes its token check while an expiry pass is about to delete its
-- transfer.
def sparesUploads (state : LegacyState) : LegacyLabel → Bool
  | .advance o _ =>
      match state.ops[o]? with
      | some (.chunk params (.token _)) =>
          state.legacy.ledger.approved.lookup params.transferId ≠ some params.token ||
            state.ops.all fun op => !op.pruning.contains params.transferId
      | _ => true
  | .call _ => true

-- The same for the uploads of one transfer.
def sparesUploadsOf (id : String) (state : LegacyState) : LegacyLabel → Bool
  | .advance o _ =>
      match state.ops[o]? with
      | some (.chunk params (.token _)) =>
          params.transferId ≠ id || state.legacy.ledger.approved.lookup params.transferId ≠
            some params.token ||
            state.ops.all fun op => !op.pruning.contains params.transferId
      | _ => true
  | .call _ => true

theorem spares_each (id : String) (state : LegacyState) (label : LegacyLabel)
    (allowed : sparesUploads state label = true) :
    sparesUploadsOf id state label = true := by
  cases label with
  | call call => rfl
  | advance o reading =>
      simp only [sparesUploads] at allowed
      simp only [sparesUploadsOf]
      split at allowed
      · rw [Bool.or_assoc, allowed, Bool.or_true]
      · rfl

-- The record the handler works with, once it has read one.
def ChunkPhase.transfer : ChunkPhase → Option PendingTransfer
  | .received _ transfer | .stamp _ transfer _ | .prepare _ transfer _ | .openFile _ transfer _ _ =>
      some transfer
  | .receive _ x | .count _ x _ | .flush _ x | .enter _ x | .restamp _ x | .recheck _ x | .report _ x |
      .commit _ x | .tally _ x
  | .complete _ x | .total _ x _ | .uncount _ x => some x.transfer
  | _ => none

theorem active_owned (phase : ChunkPhase) (active : phase.active = true) : ∃ k, phase.owned = some k := by
  cases phase <;> first | exact ⟨_, rfl⟩ | cases active

theorem transfer_active (phase : ChunkPhase) (transfer : PendingTransfer)
    (has : phase.transfer = some transfer) :
    phase.active = true := by
  cases phase <;> first | rfl | cases has

section Moved

variable (params : ChunkRequest) (legacy : Legacy) (disk : ReceiverDisk) (reading : Reading)
    (phase next : ChunkPhase)
  (act : LegacyAct) (log : List LegacyEntry) (moved : ChunkMove params legacy disk reading phase act log next)

include moved

theorem chunk_moved_active (active : next.active = true) :
    phase.active = true ∨ ∃ k, phase = .token k ∧
      legacy.ledger.approved.lookup params.transferId = some params.token := by
  cases moved with
  | granted k token => exact .inr ⟨k, rfl, token⟩
  | seated => cases active
  | locked k seat here free => cases active
  | live k unmarked => cases active
  | vacated k passed reply => cases active
  | unlocked k passed reply => exact .inl active
  | quit phase k reply early => cases phase <;> first | exact .inl rfl | (cases early; done) | cases active
  | discarded phase k held x reply discarding => cases phase <;> first | exact .inl rfl | cases discarding
  | _ => exact .inl rfl

theorem chunk_moved_transfer (transfer : PendingTransfer) (has : next.transfer = some transfer) :
    phase.transfer = some transfer ∨ ∃ k, phase = .lookup k ∧
      legacy.ledger.pending.lookup params.transferId = some transfer := by
  cases moved with
  | found k given here =>
      cases has
      exact .inr ⟨k, rfl, here⟩
  | unannounced k x lost => cases has
  | _ => first | exact .inl has | cases has

end Moved

-- A token that is still in the map will stay there, or its transfer has been
-- cancelled, or an expiry pass is about to delete it.
def TokenFate (state : LegacyState) : Prop :=
  ∀ id token, state.legacy.ledger.approved.lookup id = some token →
    state.settled.approved.lookup id = some token ∨ id ∈ state.settled.cancelled ∨
      ∃ (p : Nat) (q : LegacyOp) (report : List LegacyEntry), state.ops[p]? = some q ∧ id ∈ q.pruning ∧
        (.unapprove id, report) ∈ q.todo

section Step

variable (state : LegacyState) (inv : Approvals state) (o : Nat) (reading : Reading) (op op' : LegacyOp)
    (act : LegacyAct)
  (log : List LegacyEntry) (here : state.ops[o]? = some op)
    (moved : LegacyOpMove state.legacy state.disk reading op act log op')

include inv here moved

-- An upload that holds its seat is not selected.
theorem expired_apart (ids : List String) (reported : .expired ids ∈ log) (p : Nat) (params : ChunkRequest)
    (phase : ChunkPhase) (there : state.ops[p]? = some (.chunk params phase))
    (active : phase.active = true) : params.transferId ∉ ids := by
  obtain ⟨offer, rfl⟩ :=
    (moved_reports state.legacy state.disk reading op op' act log moved (inv.base.drafted o op here)).2 ids
      reported
  cases moved with
  | request offer phase' next act log moved =>
      cases moved with
      | selected distinct idle =>
          have same : ids = reading.order := by simpa using reported
          subst same
          intro member
          obtain ⟨k, owned⟩ := active_owned phase active
          have owns : (LegacyOp.chunk params phase).owned = some (params.transferId, k) := by
            simp [LegacyOp.owned, owned]
          obtain ⟨lock, seat, at_, owner⟩ := inv.base.locked.owned p _ _ k there owns
          have alive := owner_alive state.legacy k p seat at_ owner
          have chosen := idle params.transferId member
          simp [Legacy.idle, lock, alive] at chosen
      | _ => simp at reported

theorem selected_pruning (ids : List String) (reported : log = [.expired ids]) (id : String)
    (member : id ∈ ids) :
    id ∈ op'.pruning ∧ (.unapprove id, []) ∈ op'.todo := by
  obtain ⟨offer, rfl⟩ :=
    (moved_reports state.legacy state.disk reading op op' act log moved (inv.base.drafted o op here)).2 ids
      (by simp [reported])
  cases moved with
  | request offer phase' next act log moved =>
      cases moved with
      | selected distinct idle =>
          have same : reading.order = ids := by simpa using reported
          have planned : (Edit.unapprove id, ([] : List LegacyEntry)) ∈ pruneEdits reading.order := by
            simp only [pruneEdits, List.mem_map, List.mem_flatMap]
            exact ⟨.unapprove id, ⟨id, by rw [same]; exact member, by simp [pruneOne]⟩, rfl⟩
          exact ⟨List.mem_map.mpr ⟨_, planned, rfl⟩, planned⟩
      | _ => simp at reported

theorem step_token_fate (fate : TokenFate state) : TokenFate (state.after o act log op') := by
  intro id token now
  have within : o < state.ops.length := (List.getElem?_eq_some_iff.mp here).1
  have self : (state.after o act log op').ops[o]? = some op' := List.getElem?_set_self within
  have booked : (act.book state.legacy.ledger).approved.lookup id = some token := by
    rw [← apply_ledger state.legacy o act]
    exact now
  have before : state.settled.approved.lookup id = some token ∨ id ∈ state.settled.cancelled ∨
      ∃ (p : Nat) (q : LegacyOp) (report : List LegacyEntry),
        state.ops[p]? = some q ∧ id ∈ q.pruning ∧ (.unapprove id, report) ∈ q.todo := by
    rcases book_approved _ _ _ _ booked with before | rfl
    · exact fate id token before
    · have plan := moved_approve state.legacy state.disk reading op op' log id token moved
      have first := (inv.issued.planned o op here (.approve id token, log) (by simp [plan])).1 id token rfl
      exact .inl first.1
  obtain ⟨life, known⟩ := inv.base.lives id
  obtain ⟨life', after, turn⟩ := step_turns state inv.base o reading op op' act log here moved id life known
  have expires : ∀ ids, id ∈ ids → log = [.expired ids] →
    ∃ (p : Nat) (q : LegacyOp) (report : List LegacyEntry),
      (state.after o act log op').ops[p]? = some q ∧ id ∈ q.pruning ∧ (.unapprove id, report) ∈ q.todo := by
    intro ids member reported
    obtain ⟨pruning, planned⟩ :=
      selected_pruning state inv o reading op op' act log here moved ids reported id member
    exact ⟨o, op', [], self, pruning, planned⟩
  rcases before with granted | cancelled | ⟨p, q, report, there, pruning, planned⟩
  · rw [life_approved _ id life known] at granted
    cases turn with
    | stay life _ _ => exact .inl ((life_approved _ id life after).trans granted)
    | cancelApproved transfer token silent => exact .inr (.inl ((life_cancelled _ id _ after).mpr trivial))
    | expire life ids member reported => exact .inr (.inr (expires ids member reported))
    | _ => cases granted
  · rw [life_cancelled _ id life known] at cancelled
    cases turn with
    | stay life _ _ => exact .inr (.inl ((life_cancelled _ id life after).mpr cancelled))
    | expire life ids member reported => exact .inr (.inr (expires ids member reported))
    | _ => cases cancelled
  · right
    right
    by_cases same : p = o
    · subst same
      rw [here] at there
      cases there
      cases moved with
      | request offer phase next act log moved =>
          cases moved with
          | pruned change log rest =>
              rcases List.mem_cons.mp planned with equal | later
              · cases equal
                simp [LegacyAct.book, Edit.apply] at booked
              · exact ⟨p, _, report, self, List.mem_map.mpr ⟨_, later, rfl⟩, later⟩
          | swept => cases planned
          | quit phase reply testing => cases phase <;> first | cases pruning | cases testing
          | _ => cases pruning
      | _ => cases pruning
    · exact ⟨p, q, report, (List.getElem?_set_ne (fun equal => same equal.symm)).trans there, pruning,
        planned⟩

end Step

-- What an upload of the transfer can rely on past its token check: no expiry pass
-- works on the transfer, which is approved unless it has been cancelled, and the
-- record the upload has read is the pending one.
structure Spared (key : String) (state : LegacyState) : Prop where
  approvals : Approvals state
  fate : TokenFate state
  apart : ∀ (o p : Nat) (params : ChunkRequest) (phase : ChunkPhase) (q : LegacyOp),
    state.ops[o]? = some (.chunk params phase) →
    params.transferId = key → phase.active = true → state.ops[p]? = some q → params.transferId ∉ q.pruning
  alive : ∀ (o : Nat) (params : ChunkRequest) (phase : ChunkPhase),
    state.ops[o]? = some (.chunk params phase) →
    params.transferId = key → phase.active = true → params.transferId ∈ state.settled.cancelled ∨
      state.settled.approved.lookup params.transferId ≠ none
  read : ∀ (o : Nat) (params : ChunkRequest) (phase : ChunkPhase) (transfer : PendingTransfer),
    state.ops[o]? = some (.chunk params phase) → params.transferId = key → phase.transfer = some transfer →
    params.transferId ∈ state.settled.cancelled ∨
      state.settled.pending.lookup params.transferId = some transfer

section Step

variable (key : String) (state : LegacyState) (spared : Spared key state) (o : Nat) (reading : Reading)
    (op op' : LegacyOp) (act : LegacyAct)
  (log : List LegacyEntry) (here : state.ops[o]? = some op)
    (moved : LegacyOpMove state.legacy state.disk reading op act log op')
  (allowed : sparesUploadsOf key state (.advance o reading) = true)

include spared here moved

theorem active_turn (p : Nat) (params : ChunkRequest) (phase : ChunkPhase)
    (there : state.ops[p]? = some (.chunk params phase)) (mine : params.transferId = key)
    (active : phase.active = true) :
    (params.transferId ∈ (state.after o act log op').settled.cancelled) ∨
      ((state.after o act log op').settled.view params.transferId = state.settled.view params.transferId ∧
        ∀ transfer, .registered transfer ∈ log → transfer.id ≠ params.transferId) := by
  have base := spared.approvals.base
  obtain ⟨life, known⟩ := base.lives params.transferId
  obtain ⟨life', after, turn⟩ :=
    step_turns state base o reading op op' act log here moved params.transferId life known
  have fate := spared.alive p params phase there mine active
  rw [life_cancelled _ _ life known, life_approved _ _ life known] at fate
  cases turn with
  | stay life quiet _ => exact .inr ⟨after.trans known.symm, quiet⟩
  | cancelWaiting transfer silent => exact .inl ((life_cancelled _ _ _ after).mpr trivial)
  | cancelApproved transfer token silent => exact .inl ((life_cancelled _ _ _ after).mpr trivial)
  | expire life ids member reported =>
      exact absurd member (expired_apart state spared.approvals o reading op op' act log here moved ids
        (by simp [reported]) p params phase there active)
  | _ => simp [Life.view] at fate

theorem step_apart_other (p r : Nat) (params : ChunkRequest) (phase : ChunkPhase) (q : LegacyOp)
    (there : state.ops[p]? = some (.chunk params phase)) (mine : params.transferId = key)
    (active : phase.active = true) (at_ : (state.after o act log op').ops[r]? = some q) :
    params.transferId ∉ q.pruning := by
  rcases Transition.set_cases state.ops o r op' q at_ with ⟨rfl, rfl⟩ | ⟨_, before⟩
  · intro member
    have old := spared.apart p r params phase op there mine active here
    cases moved with
    | request offer phase' next act log moved =>
        cases moved with
        | selected distinct idle =>
            obtain ⟨entry, planned, key⟩ := List.mem_map.mp member
            simp only [pruneEdits, List.mem_map, List.mem_flatMap] at planned
            obtain ⟨change, ⟨id, chosen, one⟩, rfl⟩ := planned
            have same : change.id = id := by
              simp only [pruneOne, List.mem_cons, List.not_mem_nil, or_false] at one
              rcases one with rfl | rfl | rfl | rfl | rfl | rfl | rfl | rfl <;> rfl
            have apart := expired_apart state spared.approvals r reading _ _ _ _ here
              (.request offer .select _ _ _ (.selected distinct idle)) reading.order
              (by simp) p params phase there active
            rw [← key, same] at apart
            exact apart chosen
        | pruned change log rest => exact old (List.mem_cons_of_mem _ member)
        | _ => cases member
    | _ => cases member
  · exact spared.apart p r params phase q there mine active before

theorem step_alive_other (p : Nat) (params : ChunkRequest) (phase : ChunkPhase)
    (there : state.ops[p]? = some (.chunk params phase)) (mine : params.transferId = key)
    (active : phase.active = true) :
    params.transferId ∈ (state.after o act log op').settled.cancelled ∨
      (state.after o act log op').settled.approved.lookup params.transferId ≠ none := by
  rcases active_turn key state spared o reading op op' act log here moved p params phase there mine
    active with cancelled | ⟨same, _⟩
  · exact .inl cancelled
  · rcases spared.alive p params phase there mine active with cancelled | granted
    · exact .inl ((iff_of_eq (congrArg View.cancelled same)).mpr cancelled)
    · right
      rw [show (state.after o act log op').settled.approved.lookup params.transferId = _ from
        congrArg View.approved same]
      exact granted

theorem step_read_other (p : Nat) (params : ChunkRequest) (phase : ChunkPhase) (transfer : PendingTransfer)
    (there : state.ops[p]? = some (.chunk params phase)) (mine : params.transferId = key)
    (has : phase.transfer = some transfer) :
    params.transferId ∈ (state.after o act log op').settled.cancelled ∨
      (state.after o act log op').settled.pending.lookup params.transferId = some transfer := by
  have active := transfer_active phase transfer has
  rcases active_turn key state spared o reading op op' act log here moved p params phase there mine
    active with cancelled | ⟨same, _⟩
  · exact .inl cancelled
  · rcases spared.read p params phase transfer there mine has with cancelled | pending
    · exact .inl ((iff_of_eq (congrArg View.cancelled same)).mpr cancelled)
    · exact .inr ((congrArg View.pending same).trans pending)

omit spared in
theorem settled_unheld (base : LegacyBase state) (free : op.holds = false) :
    (state.after o act log op').settled = state.settled := by
  rcases settled_moved state base.locked o op reading op' act log here moved with ⟨same, _⟩ | ⟨holds, _⟩
  · exact same
  · rw [free] at holds
    cases holds

omit here moved in
theorem lookup_settled (p k : Nat) (params : ChunkRequest) (transfer : PendingTransfer)
    (there : state.ops[p]? = some (.chunk params (.lookup k))) (mine : params.transferId = key)
    (found : state.legacy.ledger.pending.lookup params.transferId = some transfer) :
    params.transferId ∈ state.settled.cancelled ∨
      state.settled.pending.lookup params.transferId = some transfer := by
  rcases spared.alive p params (.lookup k) there mine rfl with cancelled | granted
  · exact .inl cancelled
  · right
    obtain ⟨life, known⟩ := spared.approvals.base.lives params.transferId
    rw [life_approved _ _ life known] at granted
    have issued := spared.approvals.issued
    cases life with
    | approved given token =>
        have pending : state.settled.pending.lookup params.transferId = some given := life_pending _ _ _ known
        have registered := issued.settledRecord _ given pending
        rw [issued.record _ transfer found] at registered
        rw [pending, registered]
    | _ => exact absurd rfl granted

include allowed

theorem step_spared : Spared key (state.after o act log op') := by
  have base := spared.approvals.base
  have entered : ∀ (p : Nat) (params : ChunkRequest) (next : ChunkPhase),
    (state.after o act log op').ops[p]? = some (.chunk params next) →
      params.transferId = key → next.active = true → (∃ phase, state.ops[p]? = some (.chunk params phase) ∧
        phase.active = true) ∨
        ((state.after o act log op').settled = state.settled ∧
          state.legacy.ledger.approved.lookup params.transferId = some params.token ∧
          (∀ q ∈ state.ops, params.transferId ∉ q.pruning) ∧ op' = .chunk params next) := by
    intro p params next there mine active
    rcases Transition.set_cases state.ops o p op' _ there with ⟨rfl, rfl⟩ | ⟨_, before⟩
    · cases moved with
      | chunk params phase next act log moved =>
          rcases chunk_moved_active params _ _ _ phase next act log moved active with before |
            ⟨k, rfl, granted⟩
          · exact .inl ⟨phase, here, before⟩
          · right
            refine ⟨settled_unheld state p reading _ _ act log here (.chunk params _ _ _ _ moved) base rfl,
              granted, ?_, rfl⟩
            simp only [sparesUploadsOf, here, mine, granted, ne_eq, not_true_eq_false, decide_false,
              Bool.false_or, List.all_eq_true] at allowed
            intro q member
            rw [mine] at granted ⊢
            simpa [granted] using allowed q member
    · exact .inl ⟨next, before, active⟩
  refine ⟨⟨step_base state base o reading op op' act log here moved,
    step_issued state base spared.approvals.issued o reading op op' act log here moved⟩,
    step_token_fate state spared.approvals o reading op op' act log here moved spared.fate, ?_, ?_, ?_⟩
  · intro p r params next q there mine active at_
    rcases entered p params next there mine active with ⟨phase, before, was⟩ | ⟨_, _, apart, same⟩
    · exact step_apart_other key state spared o reading op op' act log here moved p r params phase q before
        mine was at_
    · rcases Transition.set_cases state.ops o r op' q at_ with ⟨_, rfl⟩ | ⟨_, before⟩
      · rw [same]
        simp [LegacyOp.pruning]
      · exact apart q (List.mem_of_getElem? before)
  · intro p params next there mine active
    rcases entered p params next there mine active with ⟨phase, before, was⟩ | ⟨settled, granted, apart, _⟩
    · exact step_alive_other key state spared o reading op op' act log here moved p params phase before mine
        was
    · rw [settled]
      rcases spared.fate _ _ granted with stays | cancelled | ⟨r, q, _, at_, pruning, _⟩
      · exact .inr (by simp [stays])
      · exact .inl cancelled
      · exact absurd pruning (apart q (List.mem_of_getElem? at_))
  · intro p params next transfer there mine has
    rcases Transition.set_cases state.ops o p op' _ there with ⟨rfl, rfl⟩ | ⟨_, before⟩
    · cases moved with
      | chunk params phase next act log moved =>
          rcases chunk_moved_transfer params _ _ _ phase next act log moved transfer has with before |
            ⟨k, rfl, found⟩
          · exact step_read_other key state spared p reading _ _ act log here
              (.chunk params _ _ _ _ moved) p params phase transfer here mine before
          · rw [settled_unheld state p reading _ _ act log here (.chunk params _ _ _ _ moved) base rfl]
            exact lookup_settled key state spared p k params transfer here mine found
    · exact step_read_other key state spared o reading op op' act log here moved p params next transfer
        before mine has

end Step

theorem spared_step (key : String) (state next : LegacyState) (label : LegacyLabel)
    (spared : Spared key state) (allowed : sparesUploadsOf key state label = true)
    (stepped : legacyStep state label = some next) : Spared key next := by
  have approvals := approvals_step state next label spared.approvals stepped
  rcases legacy_step_cases state next label stepped with ⟨call, _, rfl⟩ |
    ⟨o, reading, op, act, log, op', rfl, here, moved, rfl⟩
  · have same := call_settled state spared.approvals.base.locked call
    have old : ∀ (p : Nat) (params : ChunkRequest) (phase : ChunkPhase), (state.ops ++ [call.op])[p]? =
      some (.chunk params phase) →
        phase.active = true → state.ops[p]? = some (.chunk params phase) := by
      intro p params phase there active
      rcases Transition.append_cases state.ops p call.op _ there with before | new
      · exact before
      · cases call <;> cases new
        cases active
    refine ⟨approvals, ?_, ?_, ?_, ?_⟩
    · intro id token now
      rw [same]
      rcases spared.fate id token now with stays | cancelled | ⟨p, q, report, there, pruning, planned⟩
      · exact .inl stays
      · exact .inr (.inl cancelled)
      · have within : p < state.ops.length := (List.getElem?_eq_some_iff.mp there).1
        exact .inr (.inr ⟨p, q, report, by rw [List.getElem?_append_left within]; exact there, pruning,
          planned⟩)
    · intro p r params phase q there mine active at_
      rcases Transition.append_cases state.ops r call.op q at_ with before | rfl
      · exact spared.apart p r params phase q (old p params phase there active) mine active before
      · cases call <;> simp [LegacyCall.op, LegacyOp.pruning, acceptTransfer, rejectTransfer,
          cancelTransfer, transferRequestHandler,
          transferStatusHandler, chunkUploadHandler]
    · intro p params phase there mine active
      rw [same]
      exact spared.alive p params phase (old p params phase there active) mine active
    · intro p params phase transfer there mine has
      rw [same]
      exact spared.read p params phase transfer
        (old p params phase there (transfer_active phase transfer has)) mine has
  · exact step_spared key state spared o reading op op' act log here moved allowed

theorem initial_spared (key : String) (state : LegacyState) (initial : LegacyInitial state) :
    Spared key state := by
  have nobody : ∀ (p : Nat) (q : LegacyOp), state.ops[p]? ≠ some q := by
    intro p q there
    rw [initial.idle] at there
    cases there
  refine ⟨initial_approvals state initial, ?_, ?_, ?_, ?_⟩
  · intro id token now
    rw [initial.fresh] at now
    simp [Legacy.empty, Ledger.empty] at now
  · intro p _ _ _ _ there
    exact absurd there (nobody p _)
  · intro p _ _ there
    exact absurd there (nobody p _)
  · intro p _ _ _ there
    exact absurd there (nobody p _)

end GoshTransfer
