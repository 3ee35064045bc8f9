import GoshTransfer.Accounting

set_option autoImplicit false

namespace GoshTransfer

open InodeStore

theorem life_unique (life life' : Life) (same : life.view = life'.view) : life = life' := by
  cases life <;> cases life' <;> simp_all [Life.view]

theorem unwiped_edit (id : String) (change : Edit) (routine : change.routine = true)
    (kept : change.wipes id = false) (bytes : HashMap String Nat) (ledger : Ledger) :
    (change.bytes bytes).lookup id = bytes.lookup id ∧
    (change.apply ledger).receipts id = ledger.receipts id := by
  rw [receipts_apply]
  cases change with
  | pend transfer => cases routine
  | receive key file => cases routine
  | complete key => cases routine
  | uncount key =>
    have other : key ≠ id := of_decide_eq_false kept
    exact ⟨Finmap.lookup_erase_ne (Ne.symm other), if_neg other⟩
  | unreceive key =>
    have other : key ≠ id := of_decide_eq_false kept
    exact ⟨rfl, if_neg other⟩
  | uncomplete key =>
    have other : key ≠ id := of_decide_eq_false kept
    exact ⟨rfl, if_neg other⟩
  | _ => exact ⟨rfl, by simp [Edit.receipts]⟩

theorem settle_unwiped (id : String) (todo : Todo) (ledger : Ledger)
    (kept : ∀ entry ∈ todo, entry.1.routine = true ∧ entry.1.wipes id = false) :
    (ledger.settle todo).receipts id = ledger.receipts id := by
  induction todo generalizing ledger with
  | nil => rfl
  | cons entry rest ih =>
    obtain ⟨routine, quiet⟩ := kept entry List.mem_cons_self
    have first := (unwiped_edit id entry.1 routine quiet ∅ ledger).2
    exact (ih (entry.1.apply ledger) fun other member => kept other (List.mem_cons_of_mem _ member)).trans
      first

theorem known_receipts (id : String) (state : LegacyState) (accounted : Accounted id state) (life : Life)
    (known : state.settled.view id = life.view) (present : life ≠ .absent) (live : life ≠ .cancelled) :
    state.settled.receipts id = state.legacy.ledger.receipts id := by
  have base := accounted.concluded.tallied.spared.approvals.base
  by_cases free : state.legacy.decisions = none
  · rw [settled_free state free]
  · obtain ⟨o, taken⟩ := Option.ne_none_iff_exists'.mp free
    obtain ⟨op, here, holds⟩ := base.locked.holder o taken
    rw [settled_held state base.locked o op here holds]
    refine settle_unwiped id op.todo _ fun entry member => ⟨(base.drafted o op here entry member).1, ?_⟩
    by_contra wipes
    rcases accounted.wipes o op here entry member (by simpa using wipes) with gone | marked
    · exact present (life_unique life .absent (known.symm.trans gone))
    · rw [life_cancelled _ id life known] at marked
      cases life <;> first | exact live rfl | cases marked

section Moved

variable (state : LegacyState) (base : LegacyBase state) (o : Nat) (reading : Reading) (op op' : LegacyOp)
    (act : LegacyAct)
  (log : List LegacyEntry) (here : state.ops[o]? = some op)
    (moved : LegacyOpMove state.legacy state.disk reading op act log op')

include base here moved

theorem foreign_books (id : String) (foreign : ∀ params phase, op = .chunk params phase →
    params.transferId ≠ id) :
    ((state.legacy.apply o act).bytes.lookup id = state.legacy.bytes.lookup id ∧
      (act.book state.legacy.ledger).receipts id = state.legacy.ledger.receipts id) ∨
    ∃ change, act = .edit change ∧ op.todo = (change, log) :: op'.todo ∧ change.wipes id = true := by
  have planned : ∀ change, act = .edit change → op.todo = (change, log) :: op'.todo →
      ((state.legacy.apply o act).bytes.lookup id = state.legacy.bytes.lookup id ∧
        (act.book state.legacy.ledger).receipts id = state.legacy.ledger.receipts id) ∨
      ∃ change, act = .edit change ∧ op.todo = (change, log) :: op'.todo ∧ change.wipes id = true := by
    intro change same plan
    by_cases wipes : change.wipes id = true
    · exact .inr ⟨change, same, plan, wipes⟩
    · have routine := (base.drafted o op here (change, log) (by simp [plan])).1
      subst same
      exact .inl (unwiped_edit id change routine (by simpa using wipes) state.legacy.bytes
        state.legacy.ledger)
  cases moved with
  | ruling verdict key phase next act log moved =>
    cases moved with
    | edited change log rest reply => exact planned change rfl rfl
    | _ => exact .inl ⟨rfl, rfl⟩
  | request offer phase next act log moved =>
    cases moved with
    | pruned change log rest => exact planned change rfl rfl
    | edited change log rest reply => exact planned change rfl rfl
    | registered total =>
      have receipts := receipts_apply state.legacy.ledger (.pend (offer.pending total)) id
      exact .inl ⟨rfl, receipts.trans (by simp [Edit.receipts])⟩
    | _ => exact .inl ⟨rfl, rfl⟩
  | approval peer key phase next act log moved => cases moved <;> exact .inl ⟨rfl, rfl⟩
  | chunk params phase next act log moved =>
    have other := foreign params phase rfl
    have apart : id ≠ params.transferId := Ne.symm other
    left
    cases moved with
    | counted k x amount => exact ⟨by simp [Legacy.apply, Finmap.lookup_insert_of_ne _ apart], rfl⟩
    | rolledBack k x reply =>
      refine ⟨?_, rfl⟩
      simp only [Legacy.apply]
      split
      · exact Finmap.lookup_insert_of_ne _ apart
      · rfl
    | rolledBackHeld k x reply =>
      refine ⟨?_, rfl⟩
      simp only [Legacy.apply]
      split
      · exact Finmap.lookup_insert_of_ne _ apart
      · rfl
    | committed k x =>
        exact ⟨rfl, (receipts_apply _ (.receive params.transferId params.fileId) id).trans (if_neg other)⟩
    | completed k x transfer new found =>
        exact ⟨rfl, (receipts_apply _ (.complete params.transferId) id).trans (if_neg other)⟩
    | unannounced k x lost =>
        exact ⟨rfl, (receipts_apply _ (.complete params.transferId) id).trans (if_neg other)⟩
    | uncounted k x =>
      exact ⟨Finmap.lookup_erase_ne apart, (receipts_apply _ (.uncount params.transferId) id).trans
        (if_neg other)⟩
    | _ => exact ⟨rfl, rfl⟩

omit base here in
theorem foreign_next (id : String) (foreign : ∀ params phase, op = .chunk params phase →
    params.transferId ≠ id) :
    ∀ params phase, op' = .chunk params phase → params.transferId ≠ id := by
  intro params phase same
  cases moved with
  | chunk params phase next act log moved =>
    cases same
    exact foreign params _ rfl
  | _ => cases same

omit base moved in
theorem own_in_flight (id : String) (params : ChunkRequest) (phase next : ChunkPhase)
    (mine : params.transferId = id) (before : op = .chunk params phase) (after : op' = .chunk params next) :
    (state.after o act log op').inFlight id + phase.counted = state.inFlight id + next.counted := by
  subst before after
  have parts := sum_set id state.ops o _ (.chunk params next) here
  have first : LegacyOp.inFlight id (.chunk params phase) = phase.counted := if_pos mine
  have second : LegacyOp.inFlight id (.chunk params next) = next.counted := if_pos mine
  rw [first, second] at parts
  exact parts

omit base in
theorem foreign_in_flight (id : String) (foreign : ∀ params phase, op = .chunk params phase →
    params.transferId ≠ id) :
    (state.after o act log op').inFlight id = state.inFlight id := by
  have none_ : ∀ q : LegacyOp, (∀ params phase, q = .chunk params phase → params.transferId ≠ id) →
    q.inFlight id = 0 := by
    intro q apart
    cases q with
    | chunk params phase => exact if_neg (apart params phase rfl)
    | _ => rfl
  have parts := sum_set id state.ops o op op' here
  rw [none_ op foreign, none_ op' (foreign_next state reading op op' act log moved id foreign)] at parts
  exact parts

omit base moved in
theorem finishing_kept (id : String) (same : ∀ params phase, params.transferId = id → phase.finishing = true →
      (op' = .chunk params phase → ∃ before, op = .chunk params before ∧ before.finishing = true) ∧
      (op = .chunk params phase → ∃ after, op' = .chunk params after ∧ after.finishing = true)) :
    Finishing id (state.after o act log op') ↔ Finishing id state := by
  have within : o < state.ops.length := (List.getElem?_eq_some_iff.mp here).1
  have self : (state.after o act log op').ops[o]? = some op' := List.getElem?_set_self within
  constructor
  · rintro ⟨p, params, phase, there, mine, finishing⟩
    obtain ⟨rfl, now⟩ | ⟨-, before⟩ := Transition.set_cases state.ops o p op' _ there
    · obtain ⟨stage, was, ends⟩ := (same params phase mine finishing).1 now.symm
      exact ⟨p, params, stage, here.trans (by rw [was]), mine, ends⟩
    · exact ⟨p, params, phase, before, mine, finishing⟩
  · rintro ⟨p, params, phase, there, mine, finishing⟩
    by_cases at_ : p = o
    · subst at_
      rw [here, Option.some.injEq] at there
      obtain ⟨stage, now, ends⟩ := (same params phase mine finishing).2 there
      exact ⟨p, params, stage, by rw [self, now], mine, ends⟩
    · exact ⟨p, params, phase, (List.getElem?_set_ne (Ne.symm at_)).trans there, mine, finishing⟩

end Moved

section Step

variable (id : String) (state : LegacyState) (accounted : Accounted id state) (o : Nat) (reading : Reading)
    (op op' : LegacyOp)
  (act : LegacyAct) (log : List LegacyEntry) (here : state.ops[o]? = some op)
  (moved : LegacyOpMove state.legacy state.disk reading op act log op')

include accounted

theorem approved_files (transfer : PendingTransfer) (token : String)
    (known : state.settled.view id = (Life.approved transfer token).view) :
    state.legacy.ledger.filesOf id ⊆ transfer.fileIds ∧
      (id ∈ state.legacy.ledger.completed → transfer.fileIds ⊆ state.legacy.ledger.filesOf id) := by
  have same := known_receipts id state accounted _ known (by simp) (by simp)
  have sound := accounted.concluded.tallied.sound.2 transfer (life_pending _ _ _ known)
  rw [same] at sound
  exact sound

theorem record_sizes (transfer : PendingTransfer)
    (pending : state.settled.pending.lookup id = some transfer) :
    transfer.totalSize = (transfer.files.map TransferFile.size).sum ∧
    (transfer.files.map TransferFile.id).Nodup := by
  have registered := accounted.concluded.tallied.spared.approvals.issued.settledRecord id transfer pending
  have member := registration_member id state.log transfer registered
  exact ⟨accounted.sums transfer member, accounted.proclaimed.records transfer member⟩

theorem upload_file (params : ChunkRequest) (phase : ChunkPhase) (x : Writing)
    (there : state.ops[o]? = some (.chunk params phase)) (mine : params.transferId = id)
    (listing : phase.listing = some (x.transfer, x.file)) (pending : phase.uncommitted = true)
    (reads : phase.transfer = some x.transfer) (transfer : PendingTransfer) (token : String)
    (known : state.settled.view id = (Life.approved transfer token).view) :
    x.transfer = transfer ∧ x.file ∈ transfer.files ∧ x.file.id = params.fileId ∧
      x.file.id ∉ state.legacy.ledger.filesOf id ∧ id ∉ state.legacy.ledger.completed := by
  have tallied := accounted.concluded.tallied
  subst mine
  have same : x.transfer = transfer := by
    obtain marked | found := tallied.spared.read o params phase x.transfer there rfl reads
    · rw [life_cancelled _ _ _ known] at marked
      exact marked.elim
    · rw [life_pending _ _ _ known] at found
      exact (Option.some.inj found).symm
  have found := tallied.listed o params phase x.transfer x.file there listing
  have key : x.file.id = params.fileId := by simpa using List.find?_some found
  have new := tallied.fresh o params phase there pending
  have listed := listed_file _ state tallied o params phase x.transfer x.file there listing
  rw [same] at found listed
  refine ⟨same, List.mem_of_find?_eq_some found, key, by rw [key]; exact new, ?_⟩
  intro complete
  exact new ((approved_files _ state accounted transfer token known).2 complete listed)

theorem upload_within (params : ChunkRequest) (phase : ChunkPhase) (x : Writing)
    (there : state.ops[o]? = some (.chunk params phase)) (mine : params.transferId = id)
    (listing : phase.listing = some (x.transfer, x.file)) (pending : phase.uncommitted = true)
    (reads : phase.transfer = some x.transfer) (transfer : PendingTransfer) (token : String)
    (known : state.settled.view id = (Life.approved transfer token).view) (fits : x.received ≤ x.file.size) :
    transfer.committedSize (state.legacy.ledger.filesOf id) + x.received ≤ transfer.totalSize := by
  obtain ⟨-, listed, -, new, -⟩ :=
    upload_file id state accounted o params phase x there mine listing pending reads transfer token known
  obtain ⟨total, distinct⟩ := record_sizes id state accounted transfer (life_pending _ _ _ known)
  have grown := committed_insert transfer _ x.file distinct listed new
  have most := committed_le transfer (insert x.file.id (state.legacy.ledger.filesOf id))
  omega

theorem active_life (params : ChunkRequest) (phase : ChunkPhase)
    (there : state.ops[o]? = some (.chunk params phase)) (mine : params.transferId = id)
    (active : phase.active = true) (life : Life) (known : state.settled.view id = life.view)
    (live : life ≠ .cancelled) : ∃ transfer token, life = .approved transfer token := by
  subst mine
  have alive := accounted.concluded.tallied.spared.alive o params phase there rfl active
  rw [life_cancelled _ _ life known, life_approved _ _ life known] at alive
  cases life with
  | approved transfer token => exact ⟨transfer, token, rfl⟩
  | cancelled => exact absurd rfl live
  | _ => simp [Life.view] at alive

include here moved

theorem step_fits (p : Nat) (params : ChunkRequest) (phase : ChunkPhase)
    (there : (state.after o act log op').ops[p]? = some (.chunk params phase)) : phase.Fits := by
  obtain ⟨rfl, rfl⟩ | ⟨-, before⟩ := Transition.set_cases state.ops o p op' _ there
  · cases moved with
    | chunk params stage next act log moved =>
      exact moved_fits params _ _ reading stage phase act log moved (accounted.fits p params stage here)
  · exact accounted.fits p params phase before

theorem step_sums (transfer : PendingTransfer)
    (reported : .registered transfer ∈ (state.after o act log op').log) :
    transfer.totalSize = (transfer.files.map TransferFile.size).sum := by
  obtain old | new := List.mem_append.mp reported
  · exact accounted.sums transfer old
  · obtain ⟨offer, total, rfl, rfl⟩ := (moved_reports state.legacy state.disk reading op op' act log moved
      (accounted.concluded.tallied.spared.approvals.base.drafted o op here)).1 transfer new
    exact checked_total offer.request total (accounted.proclaimed.totals o offer _ total here rfl)

theorem step_finished (p : Nat) (params : ChunkRequest) (phase : ChunkPhase)
    (there : (state.after o act log op').ops[p]? = some (.chunk params phase))
    (finishing : phase.finishing = true) :
    params.transferId ∈ (state.after o act log op').legacy.ledger.completed := by
  rw [show (state.after o act log op').legacy.ledger = act.book state.legacy.ledger from apply_ledger
    state.legacy o act]
  obtain ⟨rfl, rfl⟩ | ⟨other, before⟩ := Transition.set_cases state.ops o p op' _ there
  · cases moved with
    | chunk params stage next act log moved =>
      have carried := accounted.finished p params stage here
      cases moved with
      | completed k x transfer new found => exact Finset.mem_insert_self _ _
      | announced k x transfer bytes => exact carried rfl
      | unannounced k x lost => cases finishing
      | _ => cases finishing
  · have base := accounted.concluded.tallied.spared.approvals.base
    have free := others_free state base.locked o op here p _ before (finishing_inside phase finishing).1 other
    rw [moved_books state.legacy state.disk reading op op' act log moved free]
    exact accounted.finished p params phase before finishing

theorem step_announces (p k : Nat) (params : ChunkRequest) (x : Writing) (transfer : PendingTransfer)
    (there : (state.after o act log op').ops[p]? = some (.chunk params (.total k x transfer))) :
    (state.after o act log op').legacy.ledger.pending.lookup params.transferId = some transfer := by
  rw [show (state.after o act log op').legacy.ledger = act.book state.legacy.ledger from apply_ledger
    state.legacy o act]
  obtain ⟨rfl, rfl⟩ | ⟨other, before⟩ := Transition.set_cases state.ops o p op' _ there
  · cases moved with
    | chunk params stage next act log moved =>
      cases moved with
      | completed k x transfer new found => exact found
  · have base := accounted.concluded.tallied.spared.approvals.base
    have free := others_free state base.locked o op here p _ before rfl other
    rw [moved_books state.legacy state.disk reading op op' act log moved free]
    exact accounted.announces p k params x transfer before

theorem step_wipes (p : Nat) (q : LegacyOp) (there : (state.after o act log op').ops[p]? = some q) (entry : Edit × List LegacyEntry)
    (member : entry ∈ q.todo) (wipes : entry.1.wipes id = true) :
    (state.after o act log op').settled.view id = Life.absent.view ∨ id ∈ (state.after o act log op').settled.cancelled := by
  have base := accounted.concluded.tallied.spared.approvals.base
  obtain ⟨rfl, rfl⟩ | ⟨other, before⟩ := Transition.set_cases state.ops o p op' q there
  · obtain ⟨same, busy⟩ | ⟨-, idle, -, after⟩ := settled_moved state base.locked p op reading q act log here moved
    · rw [same]
      obtain ⟨change, -, plan⟩ | idle := moved_todo state.legacy state.disk reading op q act log moved
      · exact accounted.wipes p op here entry (by rw [plan]; exact List.mem_cons_of_mem _ member) wipes
      · obtain free | free := busy idle
        · rw [entered_todo state op reading q act log moved free] at member
          cases member
        · rw [free_todo q free] at member
          cases member
    · rw [after]
      cases moved with
      | ruling verdict key phase next act log moved =>
        cases moved with
        | accepted token transfer same waiting =>
          simp only [LegacyOp.todo, acceptEdits, List.mem_cons, List.not_mem_nil, or_false] at member
          obtain rfl | rfl := member <;> cases wipes
        | rejected transfer same waiting =>
          simp only [LegacyOp.todo, rejectEdits, List.mem_cons, List.not_mem_nil, or_false] at member
          obtain rfl | rfl | rfl := member <;> cases wipes
        | cancelled info =>
          have mine : key = id := by
            simp only [LegacyOp.todo, cancelEdits, List.mem_cons, List.not_mem_nil, or_false] at member
            obtain rfl | rfl | rfl | rfl | rfl := member <;> first | exact of_decide_eq_true wipes | cases wipes
          have view := cancel_view state.legacy.ledger key id info ((state.legacy.bytes.lookup key).getD 0)
          rw [if_pos mine] at view
          exact .inr ((iff_of_eq (congrArg View.cancelled view)).mpr trivial)
        | edited change log rest reply => cases idle
        | _ => cases member
      | request offer phase next act log moved =>
        cases moved with
        | selected distinct chosen =>
          obtain ⟨change, pruned, rfl⟩ := List.mem_map.mp member
          obtain ⟨key, listed, written⟩ := List.mem_flatMap.mp pruned
          have mine : key = id := by
            simp only [pruneOne, List.mem_cons, List.not_mem_nil, or_false] at written
            obtain rfl | rfl | rfl | rfl | rfl | rfl | rfl | rfl := written <;> first | exact of_decide_eq_true wipes | cases wipes
          exact .inl ((prune_view reading.order _ id).trans (if_pos (mine ▸ listed)))
        | registered total =>
          by_cases trusted : offer.trusted = true
          · simp only [LegacyOp.todo, Offer.edits, if_pos trusted, List.mem_cons, List.not_mem_nil, or_false] at member
            obtain rfl | rfl | rfl := member <;> cases wipes
          · simp only [LegacyOp.todo, Offer.edits, if_neg trusted, List.mem_cons, List.not_mem_nil, or_false] at member
            obtain rfl := member
            cases wipes
        | pruned change log rest => cases idle
        | edited change log rest reply => cases idle
        | _ => cases member
      | approval peer key phase next act log moved => cases member
      | chunk params phase next act log moved => cases member
  · by_cases inside : q.holds = true
    · have free := others_free state base.locked o op here p q before inside other
      rw [settled_unheld state o reading op op' act log here moved base free]
      exact accounted.wipes p q before entry member wipes
    · rw [free_todo q (by simpa using inside)] at member
      cases member

theorem step_drafts (p : Nat) (q : LegacyOp) (there : (state.after o act log op').ops[p]? = some q)
    (entry : Edit × List LegacyEntry) (member : entry ∈ q.todo) (report : LegacyEntry)
    (listed : report ∈ entry.2) : report.score = false := by
  obtain ⟨rfl, rfl⟩ | ⟨-, before⟩ := Transition.set_cases state.ops o p op' q there
  · have carried := accounted.drafts p op here entry
    cases moved with
    | ruling verdict key phase next act log moved =>
      cases moved with
      | accepted token transfer same waiting =>
        simp only [LegacyOp.todo, acceptEdits, List.mem_cons, List.not_mem_nil, or_false] at member
        obtain rfl | rfl := member <;> simp only [List.mem_cons, List.not_mem_nil, or_false] at listed
        rw [listed]
        rfl
      | rejected transfer same waiting =>
        simp only [LegacyOp.todo, rejectEdits, List.mem_cons, List.not_mem_nil, or_false] at member
        obtain rfl | rfl | rfl := member <;> cases listed
      | cancelled info =>
        simp only [LegacyOp.todo, cancelEdits, List.mem_cons, List.not_mem_nil, or_false] at member
        obtain rfl | rfl | rfl | rfl | rfl := member <;> try cases listed
        · rfl
        · cases info with
          | none => rename_i later; cases later
          | some transfer =>
            rename_i later
            rw [List.mem_singleton.mp later]
            rfl
      | edited change log rest reply => exact carried (List.mem_cons_of_mem _ member) report listed
      | _ => cases member
    | request offer phase next act log moved =>
      cases moved with
      | selected distinct chosen =>
        obtain ⟨change, -, rfl⟩ := List.mem_map.mp member
        cases listed
      | registered total =>
        by_cases trusted : offer.trusted = true
        · simp only [LegacyOp.todo, Offer.edits, if_pos trusted, List.mem_cons, List.not_mem_nil,
            or_false] at member
          obtain rfl | rfl | rfl := member <;> simp only [List.mem_cons, List.not_mem_nil, or_false] at listed
          rw [listed]
          rfl
        · simp only [LegacyOp.todo, Offer.edits, if_neg trusted, List.mem_cons, List.not_mem_nil,
            or_false] at member
          obtain rfl := member
          rw [List.mem_singleton.mp listed]
          rfl
      | pruned change log rest => exact carried (List.mem_cons_of_mem _ member) report listed
      | edited change log rest reply => exact carried (List.mem_cons_of_mem _ member) report listed
      | _ => cases member
    | approval peer key phase next act log moved => cases member
    | chunk params phase next act log moved => cases member
  · exact accounted.drafts p q before entry member report listed

omit accounted here moved in
theorem inactive_bytes (params : ChunkRequest) (phase next : ChunkPhase) (legacy : Legacy)
    (step : ChunkMove params legacy state.disk reading phase act log next)
    (idle : phase.active = false ∨ phase.locked = false) :
    (legacy.apply o act).bytes = legacy.bytes ∧ log = [] := by
  cases step with
  | quit phase k reply early => exact ⟨rfl, rfl⟩
  | discarded phase k held x reply discarding => exact ⟨rfl, rfl⟩
  | _ => first | exact ⟨rfl, rfl⟩ | (obtain inactive | unlocked := idle; cases inactive; cases unlocked)

theorem step_bytes (quiet : ∀ params phase, op = .chunk params phase → params.transferId = id →
    phase.active = false ∨ phase.locked = false) :
    (state.after o act log op').legacy.bytes.lookup id = state.legacy.bytes.lookup id ∨
      (state.after o act log op').legacy.bytes.lookup id = none := by
  have base := accounted.concluded.tallied.spared.approvals.base
  by_cases own : ∃ params phase, op = .chunk params phase ∧ params.transferId = id
  · obtain ⟨params, phase, rfl, mine⟩ := own
    cases moved with
    | chunk params phase next act log moved =>
      have same := (inactive_bytes state o reading act log params phase next state.legacy moved
        (quiet params phase rfl mine)).1
      exact .inl (congrArg (Finmap.lookup id) same)
  · have foreign : ∀ params phase, op = .chunk params phase → params.transferId ≠ id :=
      fun params phase same mine => own ⟨params, phase, same, mine⟩
    obtain ⟨same, -⟩ | ⟨change, rfl, -, wipes⟩ :=
      foreign_books state base o reading op op' act log here moved id foreign
    · exact .inl same
    · cases change with
      | uncount key =>
        obtain rfl : key = id := of_decide_eq_true wipes
        exact .inr (Finmap.lookup_erase key _)
      | _ => exact .inl rfl

omit accounted in
theorem selected_plan (base : LegacyBase state) (ids : List String) (reported : log = [.expired ids])
    (member : id ∈ ids) (change : Edit) (one : change ∈ pruneOne id) : (change, []) ∈ op'.todo := by
  obtain ⟨offer, rfl⟩ :=
    (moved_reports state.legacy state.disk reading op op' act log moved (base.drafted o op here)).2 ids
      (by simp [reported])
  cases moved with
  | request offer phase' next act log moved =>
    cases moved with
    | selected distinct idle =>
      have same : reading.order = ids := by simpa using reported
      refine List.mem_map.mpr ⟨change, List.mem_flatMap.mpr ⟨id, by rw [same]; exact member, one⟩, rfl⟩
    | _ => simp at reported

theorem step_idle (undecided : (state.after o act log op').settled.approved.lookup id = none)
    (unmarked : id ∉ (state.after o act log op').settled.cancelled) :
    (state.after o act log op').counter id = 0 ∨
    ∃ (p : Nat) (q : LegacyOp) (report : List LegacyEntry), (state.after o act log op').ops[p]? = some q ∧
    (.uncount id, report) ∈ q.todo := by
  have base := accounted.concluded.tallied.spared.approvals.base
  have within : o < state.ops.length := (List.getElem?_eq_some_iff.mp here).1
  have self : (state.after o act log op').ops[o]? = some op' := List.getElem?_set_self within
  obtain ⟨life, known⟩ := base.lives id
  obtain ⟨life', after, turn⟩ := step_turns state base o reading op op' act log here moved id life known
  rw [life_approved _ _ life' after] at undecided
  rw [life_cancelled _ _ life' after] at unmarked
  have carried : life.view.approved = none → ¬ life.view.cancelled →
    (state.after o act log op').counter id = 0 ∨
      ∃ (p : Nat) (q : LegacyOp) (report : List LegacyEntry), (state.after o act log op').ops[p]? = some q ∧
        (.uncount id, report) ∈ q.todo := by
    intro approved cancelled
    have quiet : ∀ params phase, op = .chunk params phase → params.transferId = id → phase.active = false ∨
      phase.locked = false := by
      intro params phase same mine
      left
      by_contra active
      obtain ⟨transfer, token, rfl⟩ :=
      active_life id state accounted o params phase (here.trans (by rw [same])) mine
        (by simpa using active) life known (by rintro rfl; exact cancelled trivial)
      cases approved
    obtain zero | ⟨p, q, report, there, planned⟩ :=
      accounted.idle (by rw [life_approved _ _ life known]; exact approved)
      (by rw [life_cancelled _ _ life known]; exact cancelled)
    · left
      obtain same | gone := step_bytes id state accounted o reading op op' act log here moved quiet
      · simpa only [LegacyState.counter, same] using zero
      · simp [LegacyState.counter, gone]
    · by_cases mine : p = o
      · subst mine
        rw [here, Option.some.injEq] at there
        subst there
        obtain ⟨change, rfl, plan⟩ | idle := moved_todo state.legacy state.disk reading op op' act log moved
        · rw [plan] at planned
          obtain first | later := List.mem_cons.mp planned
          · cases first
            exact .inl (by simp [LegacyState.counter, LegacyState.after, Legacy.apply, Edit.bytes])
          · exact .inr ⟨p, op', report, self, later⟩
        · rw [idle] at planned
          cases planned
      · exact .inr ⟨p, q, report, (List.getElem?_set_ne (Ne.symm mine)).trans there, planned⟩
  cases turn with
  | stay life _ _ => exact carried undecided unmarked
  | register transfer key reported => exact carried rfl fun marked => marked
  | reject transfer reason silent => exact carried rfl fun marked => marked
  | welcome transfer token key reported => cases undecided
  | accept transfer token silent => cases undecided
  | cancelWaiting transfer silent => exact absurd trivial unmarked
  | cancelApproved transfer token silent => exact absurd trivial unmarked
  | expire life ids member reported =>
    exact .inr ⟨o, op', [], self, selected_plan id state o reading op op' act log here moved base ids
      reported member (.uncount id) (by simp [pruneOne])⟩

theorem booked_start (holds : op.holds = true) (idle : op.todo = [])
    (before : state.settled = state.legacy.ledger) (chunkless : ∀ params phase, op ≠ .chunk params phase)
    (life : Life) (known : state.settled.view id = life.view) (undecided : life.view.approved = none)
    (unmarked : life ≠ .cancelled) (transfer : PendingTransfer) :
    Booked id (state.after o act log op') transfer := by
  have base := accounted.concluded.tallied.spared.approvals.base
  have foreign : ∀ params phase, op = .chunk params phase → params.transferId ≠ id :=
    fun params phase same => absurd same (chunkless params phase)
  have live : id ∉ state.settled.cancelled := by
    rw [life_cancelled _ _ life known]
    cases life <;> first | exact absurd rfl unmarked | exact fun marked => marked
  have approved : state.settled.approved.lookup id = none := by
    rw [life_approved _ _ life known]; exact undecided
  have zero : state.counter id = 0 := by
    obtain zero | ⟨p, q, report, there, planned⟩ := accounted.idle approved live
    · exact zero
    · have inside := todo_holds q (List.ne_nil_of_mem planned)
      by_cases mine : p = o
      · subst mine
        rw [here, Option.some.injEq] at there
        rw [← there, idle] at planned
        cases planned
      · rw [others_free state base.locked o op here p q there inside mine] at holds
        cases holds
  have nothing : state.legacy.ledger.receipts id = .none := by
    rw [← before]
    exact accounted.concluded.tallied.sound.1 approved
  have silent : state.inFlight id = 0 := by
    refine idle_in_flight id state fun p params phase there mine => ?_
    by_contra active
    obtain ⟨given, token, rfl⟩ :=
      active_life id state accounted p params phase there mine (by simpa using active) life known unmarked
    cases undecided
  obtain ⟨bytes, receipts⟩ | ⟨change, -, plan, -⟩ :=
    foreign_books state base o reading op op' act log here moved id foreign
  · have ledger : (state.after o act log op').legacy.ledger = act.book state.legacy.ledger :=
      apply_ledger state.legacy o act
    have after : (state.after o act log op').legacy.ledger.receipts id =
      .none := by rw [ledger, receipts, nothing]
    have files : (state.after o act log op').legacy.ledger.filesOf id = ∅ := congrArg Receipts.files after
    have incomplete : id ∉ (state.after o act log op').legacy.ledger.completed :=
      (iff_of_eq (congrArg Receipts.complete after)).mp
    refine ⟨fun _ => ?_, fun complete => absurd complete incomplete⟩
    rw [files, committed_none, foreign_in_flight state o reading op op' act log here moved id foreign, silent]
    have same : (state.after o act log op').counter id = state.counter id :=
      congrArg (fun found : Option Nat => found.getD 0) bytes
    omega
  · rw [idle] at plan
    cases plan

omit accounted here moved in
theorem booked_kept (transfer : PendingTransfer) (booked : Booked id state transfer)
    (bytes : (state.legacy.apply o act).bytes.lookup id = state.legacy.bytes.lookup id)
    (receipts : (act.book state.legacy.ledger).receipts id = state.legacy.ledger.receipts id)
    (flight : (state.after o act log op').inFlight id = state.inFlight id)
    (ends : Finishing id (state.after o act log op') ↔ Finishing id state) :
    Booked id (state.after o act log op') transfer := by
  have ledger : (state.after o act log op').legacy.ledger = act.book state.legacy.ledger :=
    apply_ledger state.legacy o act
  have files : (state.after o act log op').legacy.ledger.filesOf id = state.legacy.ledger.filesOf id := by
    rw [ledger]
    exact congrArg Receipts.files receipts
  have complete : id ∈ (state.after o act log op').legacy.ledger.completed ↔
    id ∈ state.legacy.ledger.completed := by
    rw [ledger]
    exact iff_of_eq (congrArg Receipts.complete receipts)
  have same : (state.after o act log op').counter id = state.counter id :=
    congrArg (fun found : Option Nat => found.getD 0) bytes
  refine ⟨fun opened => ?_, fun done quiet => ?_⟩
  · rw [complete, ends] at opened
    rw [same, files, flight]
    exact booked.balanced opened
  · rw [complete] at done
    rw [ends] at quiet
    exact bytes.trans (booked.cleared done quiet)

omit accounted here moved in
theorem rollback_lookup (legacy : Legacy) (id : String) (amount o : Nat) :
    (legacy.apply o (.rollback id amount)).bytes.lookup id = (legacy.bytes.lookup id).map (· - amount) := by
  cases found : legacy.bytes.lookup id with
  | none => simp [Legacy.apply, found]
  | some total => simp [Legacy.apply, found]

omit accounted moved in
theorem booked_back (params : ChunkRequest) (phase next : ChunkPhase) (before : op = .chunk params phase)
    (now : op' = .chunk params next) (mine : params.transferId = id)
    (back : act = .rollback id phase.counted) (none_ : next.counted = 0) (quiet : phase.finishing = false)
    (later : next.finishing = false) (transfer : PendingTransfer) (booked : Booked id state transfer) :
    Booked id (state.after o act log op') transfer := by
  subst back
  have flight :=
    own_in_flight state o op op' (.rollback id phase.counted) log here id params phase next mine before now
  have ends := finishing_kept state o op op' (.rollback id phase.counted) log here id
    fun given stage _ finishing => by
    refine ⟨fun same => ?_, fun same => ?_⟩
    · rw [now] at same
      cases same
      rw [later] at finishing
      cases finishing
    · rw [before] at same
      cases same
      rw [quiet] at finishing
      cases finishing
  have found := rollback_lookup state.legacy id phase.counted o
  have ledger : (state.after o (.rollback id phase.counted) log op').legacy.ledger = state.legacy.ledger :=
    apply_ledger state.legacy o (.rollback id phase.counted)
  refine ⟨fun opened => ?_, fun complete unended => ?_⟩
  · rw [ledger, ends] at opened
    have balanced := booked.balanced opened
    have counter : (state.after o (.rollback id phase.counted) log op').counter id = state.counter id -
      phase.counted := by
      rw [LegacyState.counter, LegacyState.counter]
      rw [show (state.after o (.rollback id phase.counted) log op').legacy.bytes.lookup id = _ from found]
      cases state.legacy.bytes.lookup id <;> simp
    rw [ledger, counter]
    omega
  · rw [ledger] at complete
    rw [ends] at unended
    have gone := booked.cleared complete unended
    rw [gone] at found
    exact found

omit moved in
theorem booked_own (params : ChunkRequest) (phase next : ChunkPhase) (before : op = .chunk params phase)
    (now : op' = .chunk params next) (mine : params.transferId = id)
    (step : ChunkMove params state.legacy state.disk reading phase act log next)
    (transfer : PendingTransfer) (token : String)
    (known : state.settled.view id = (Life.approved transfer token).view) :
    Booked id (state.after o act log op') transfer := by
  have base := accounted.concluded.tallied.spared.approvals.base
  have booked := accounted.booked transfer token known
  have unmarked : id ∉ state.settled.cancelled := by
    rw [life_cancelled _ _ _ known]
    exact fun marked => marked
  have flight := own_in_flight state o op op' act log here id params phase next mine before now
  have carry : (state.legacy.apply o act).bytes.lookup id = state.legacy.bytes.lookup id →
      (act.book state.legacy.ledger).receipts id = state.legacy.ledger.receipts id →
        next.counted = phase.counted →
      next.finishing = phase.finishing → Booked id (state.after o act log op') transfer := by
    intro bytes receipts counted finishing
    refine booked_kept id state o op' act log transfer booked bytes receipts (by omega) ?_
    refine finishing_kept state o op op' act log here id fun given stage _ ends =>
      ⟨fun same => ?_, fun same => ?_⟩
    · rw [now] at same
      cases same
      exact ⟨phase, before, by rw [← finishing]; exact ends⟩
    · rw [before] at same
      cases same
      exact ⟨next, now, by rw [finishing]; exact ends⟩
  subst before now
  cases step with
  | quit phase k reply early => cases phase <;> first | (cases early; done) | exact carry rfl rfl rfl rfl
  | discarded phase k held x reply discarding =>
    cases phase <;> first | (cases discarding; done) | (cases discarding; exact carry rfl rfl rfl rfl)
  | appended k x data room => exact carry rfl rfl (Nat.add_sub_cancel _ _) rfl
  | counted k x amount =>
    obtain ⟨-, -, -, -, incomplete⟩ :=
      upload_file id state accounted o params _ x here mine rfl rfl rfl transfer token known
    have balanced := booked.balanced (.inl incomplete)
    simp only [ChunkPhase.counted] at flight
    have fits : x.received ≤ x.file.size ∧ amount ≤ x.received := accounted.fits o params _ here
    refine ⟨fun _ => ?_, fun complete => absurd complete incomplete⟩
    have counter : ((state.legacy.apply o (.count params.transferId amount)).bytes.lookup id).getD 0 =
      state.counter id + amount := by
      rw [← mine]
      simp [LegacyState.counter, Legacy.apply]
    change ((state.legacy.apply o (.count params.transferId amount)).bytes.lookup id).getD 0 =
      transfer.committedSize (state.legacy.ledger.filesOf id) + _
    omega
  | rolledBack k x reply =>
    exact booked_back id state o _ _ _ _ here params _ _ rfl rfl mine (by rw [mine]; rfl) rfl rfl rfl
      transfer booked
  | rolledBackHeld k x reply =>
    exact booked_back id state o _ _ _ _ here params _ _ rfl rfl mine (by rw [mine]; rfl) rfl rfl rfl
      transfer booked
  | committed k x =>
    obtain ⟨same, listed, key, new, incomplete⟩ :=
      upload_file id state accounted o params _ x here mine rfl rfl rfl transfer token known
    obtain ⟨-, distinct⟩ := record_sizes id state accounted transfer (life_pending _ _ _ known)
    have balanced := booked.balanced (.inl incomplete)
    simp only [ChunkPhase.counted] at flight
    have whole : x.received = x.file.size := accounted.fits o params _ here
    have grown := committed_insert transfer _ x.file distinct listed new
    have receipts :=
      (receipts_apply state.legacy.ledger (.receive params.transferId params.fileId) id).trans (if_pos mine)
    have files : ((Edit.receive params.transferId params.fileId).apply state.legacy.ledger).filesOf id =
        insert x.file.id (state.legacy.ledger.filesOf id) := by
      rw [key]
      exact congrArg Receipts.files receipts
    refine ⟨fun _ => ?_, fun complete => absurd complete incomplete⟩
    change state.counter id = transfer.committedSize
      (((Edit.receive params.transferId params.fileId).apply state.legacy.ledger).filesOf id) + _
    rw [files, grown]
    omega
  | completed k x given new found =>
    have balanced := booked.balanced (.inl (mine ▸ new))
    simp only [ChunkPhase.counted] at flight
    have within : o < state.ops.length := (List.getElem?_eq_some_iff.mp here).1
    have ends : Finishing id (state.after o (.edit (.complete params.transferId)) []
      (.chunk params (.total k x given))) :=
      ⟨o, params, _, List.getElem?_set_self within, mine, rfl⟩
    refine ⟨fun _ => ?_, fun _ quiet => absurd ends quiet⟩
    change state.counter id = transfer.committedSize (state.legacy.ledger.filesOf id) + _
    omega
  | unannounced k x lost =>
    have tallied := accounted.concluded.tallied
    obtain ⟨live, incomplete, -⟩ := tallied.tested o params _ here mine
    obtain ⟨-, found, -⟩ := held_record id state tallied o params _ x.transfer here mine rfl rfl live
    obtain complete | none_ := lost
    · exact absurd complete incomplete
    · rw [found] at none_
      cases none_
  | uncounted k x =>
    have done := accounted.finished o params _ here rfl
    refine ⟨fun opened => ?_, fun _ _ => ?_⟩
    · exfalso
      obtain incomplete | ⟨p, other, stage, there, same, finishing⟩ := opened
      · exact incomplete (mine ▸ done)
      · obtain ⟨rfl, now⟩ | ⟨apart, old⟩ := Transition.set_cases state.ops o p _ _ there
        · cases now
          cases finishing
        · exact apart (one_upload state base.locked p o other params stage _ old here (same.trans mine.symm)
            (finishing_inside stage finishing).2 rfl)
    · rw [← mine]
      exact Finmap.lookup_erase _ _
  | _ => exact carry rfl rfl rfl rfl

theorem step_booked (transfer : PendingTransfer) (token : String)
    (now : (state.after o act log op').settled.view id = (Life.approved transfer token).view) :
    Booked id (state.after o act log op') transfer := by
  have base := accounted.concluded.tallied.spared.approvals.base
  obtain ⟨life, known⟩ := base.lives id
  obtain ⟨life', after, turn⟩ := step_turns state base o reading op op' act log here moved id life known
  obtain rfl : life' = .approved transfer token := life_unique _ _ (after.symm.trans now)
  -- An approval is decided by the operation that holds decisions.
  have starts : life.view.approved = none → life ≠ .cancelled →
    Booked id (state.after o act log op') transfer := by
    intro undecided unmarked
    obtain ⟨same, -⟩ | ⟨holds, idle, before, settled⟩ :=
    settled_moved state base.locked o op reading op' act log here moved
    · rw [same] at after
      have equal := life_unique _ _ (known.symm.trans after)
      rw [equal] at undecided
      cases undecided
    · refine booked_start id state accounted o reading op op' act log here moved holds idle before ?_ life
        known undecided unmarked transfer
      rintro params phase rfl
      cases moved with
      | chunk params phase next act log moved =>
        have quiet : ((act.book state.legacy.ledger).settle []).view id = state.legacy.ledger.view id := by
          cases moved <;> rfl
        rw [settled] at after
        rw [before] at known
        have equal := life_unique _ _ (known.symm.trans (quiet.symm.trans after))
        rw [equal] at undecided
        cases undecided
  cases turn with
  | stay life _ _ =>
    by_cases own : ∃ params phase, op = .chunk params phase ∧ params.transferId = id
    · obtain ⟨params, phase, rfl, mine⟩ := own
      cases moved with
      | chunk params phase next act log moved =>
        exact booked_own id state accounted o reading _ _ act log here params phase next rfl rfl mine moved
          transfer token known
    · have foreign : ∀ params phase, op = .chunk params phase → params.transferId ≠ id :=
        fun params phase same mine => own ⟨params, phase, same, mine⟩
      obtain ⟨bytes, receipts⟩ | ⟨change, -, plan, wipes⟩ :=
        foreign_books state base o reading op op' act log here moved id foreign
      · refine booked_kept id state o op' act log transfer (accounted.booked transfer token known) bytes
          receipts (foreign_in_flight state o reading op op' act log here moved id foreign) ?_
        have foreign' := foreign_next state reading op op' act log moved id foreign
        exact finishing_kept state o op op' act log here id fun params phase mine _ =>
          ⟨fun same => absurd mine (foreign' params phase same), fun same => absurd mine
            (foreign params phase same)⟩
      · obtain gone | marked := accounted.wipes o op here (change, log) (by simp [plan]) wipes
        · cases life_unique _ .absent (known.symm.trans gone)
        · rw [life_cancelled _ _ _ known] at marked
          exact marked.elim
  | accept transfer token silent => exact starts rfl (by simp)
  | welcome transfer token key reported => exact starts rfl (by simp)

end Step

end GoshTransfer
