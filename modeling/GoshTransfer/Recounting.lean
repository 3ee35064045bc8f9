import GoshTransfer.Dockets

set_option autoImplicit false

namespace GoshTransfer

open InodeStore Histories

theorem legacy_store_doc (disk : ReceiverDisk) (act : LegacyAct) (path : Path) (record : Record)
    (there : (act.store disk).doc path = some record) : disk.doc path = some record := by
  cases act with
  | create new =>
      have node := (doc_node _ _ _).mp there
      simp only [LegacyAct.store, node_create] at node
      split at node
      · cases node
      · exact (doc_node _ _ _).mpr node
  | remove gone =>
      have node := (doc_node _ _ _).mp there
      simp only [LegacyAct.store, node_remove] at node
      split at node
      · cases node
      · exact (doc_node _ _ _).mpr node
  | append inode bytes => exact (doc_node _ _ _).mpr ((doc_node _ _ _).mp there)
  | mkdirs paths => exact mkdirs_doc paths disk path record there
  | _ => exact there

theorem disk_base (state : State) (disk : ReceiverDisk) (base : Base state)
    (docs : ∀ path record, disk.doc path = some record → state.store.disk.doc path = some record) :
    Base (state.onDisk disk) := by
  refine ⟨base.known, base.locked, base.enrolled, base.mapped, base.sound, base.gone, ?_, ?_, base.stopped⟩
  · intro path record written
    exact base.journals path record (docs path record written)
  · intro o op here
    refine facts_framed op state.store _ ⟨?_, ?_, fun _ => rfl⟩ (base.facts o op here)
    · intro s session _ at_
      exact ⟨session, at_, rfl⟩
    · intro s session _ at_
      exact ⟨session, at_, fun tripped => tripped⟩

section Plans

variable (ledger : Ledger) (other : String) (closed : ledger.Closed other)

include closed

theorem accept_closed (id token : String) : (ledger.settle (acceptEdits id token)).Closed other := by
  rw [Ledger.Closed, accept_view, accept_receipts]
  split
  · simp
  · exact closed

theorem reject_closed (id : String) (undecided : ledger.approved.lookup id = none) :
    (ledger.settle (rejectEdits id)).Closed other := by
  rw [Ledger.Closed, reject_view, reject_receipts]
  split
  · rename_i same
    subst same
    exact fun complete => absurd undecided (closed complete)
  · exact closed

theorem cancel_closed (id : String) (info : Option PendingTransfer) (bytes : Nat)
    (incomplete : id ∉ ledger.completed) :
    (ledger.settle (cancelEdits id info bytes)).Closed other := by
  rw [Ledger.Closed, cancel_view, cancel_receipts]
  split
  · rename_i same
    subst same
    exact fun complete => absurd complete incomplete
  · exact closed

theorem prune_closed (ids : List String) : (ledger.settle (pruneEdits ids)).Closed other := by
  rw [Ledger.Closed, prune_view, prune_receipts]
  split
  · exact fun complete => complete.elim
  · exact closed

theorem register_closed (offer : Offer) (total : Nat) :
    (((Edit.pend (offer.pending total)).apply ledger).settle (offer.edits (offer.pending total))).Closed
      other := by
  rw [Ledger.Closed, register_view, register_receipts]
  split
  · intro complete
    have granted := closed complete
    cases offer.trusted with
    | true => simp
    | false => exact granted
  · exact closed

theorem receive_closed (id file : String) : ((Edit.receive id file).apply ledger).Closed other := by
  rw [Ledger.Closed, view_apply, receipts_apply]
  split <;> exact closed

theorem complete_closed (id : String) (granted : ledger.approved.lookup id ≠ none) :
    ((Edit.complete id).apply ledger).Closed other := by
  rw [Ledger.Closed, view_apply, receipts_apply]
  by_cases same : (Edit.complete id).id = other
  · rw [if_pos same, if_pos same]
    obtain rfl : id = other := same
    exact fun _ => granted
  · rw [if_neg same, if_neg same]
    exact closed

end Plans

section Legacy

variable (turn : Option (Nat ⊕ Nat)) (docket : Docket) (recounts : Recounts turn docket) (o : Nat)
    (reading : Reading)
  (op op' : LegacyOp) (act : LegacyAct) (log : List LegacyEntry) (here : docket.state.ops[o]? = some op)
  (stepped : op.next docket.state.legacy docket.state.durable.store.disk reading = some (act, log, op'))

include recounts here stepped

theorem legacy_mover_turn : turn = some (.inl o) := by
  refine legacy_turn turn docket.state recounts.alone o op here ?_
  by_contra over_
  rw [legacy_ended_stuck op (by simpa using over_)] at stepped
  cases stepped

theorem legacy_others_ended (p : Nat) (q : LegacyOp) (other : p ≠ o)
    (there : docket.state.ops[p]? = some q) : q.ended = true := by
  refine recounts.alone.legacy p q there ?_
  rw [legacy_mover_turn turn docket recounts o reading op op' act log here stepped]
  simp [other.symm]

theorem step_granted (p : Nat) (params : ChunkRequest) (phase : ChunkPhase)
    (there : (docket.state.ops.set o op')[p]? = some (.chunk params phase))
    (admitted : phase.admitted = true) :
    (act.book docket.state.legacy.ledger).approved.lookup params.transferId ≠ none := by
  rcases Transition.set_cases docket.state.ops o p op' _ there with ⟨rfl, rfl⟩ | ⟨other, before⟩
  · have moved := legacy_op_move _ _ _ _ _ _ _ stepped
    cases moved with
    | chunk _ before _ _ _ moved =>
        have kept : before.admitted = true → docket.state.legacy.ledger.approved.lookup params.transferId ≠
          none :=
          recounts.granted p params before here
        cases moved with
        | granted k token => simp [LegacyAct.book, token]
        | quit _ k reply early => cases admitted
        | discarded _ k held x reply discarding => cases admitted
        | _ => first | exact kept rfl | cases admitted
  · have over_ :=
      legacy_others_ended turn docket recounts o reading op op' act log here stepped p _ other before
    cases phase with
    | done reply => cases admitted
    | _ => cases over_

theorem step_ledger_closed (id : String) : (docket.state.version1.after o act log op').settled.Closed id := by
  have base := recounts.apart.base
  have closed := recounts.closed id
  have moved := legacy_op_move _ _ _ _ _ _ _ stepped
  have checked := base.checked o op here
  rcases settled_moved docket.state.version1 base.locked o op reading op' act log here moved with
    ⟨same, _⟩ | ⟨_, idle, before, after⟩
  · rw [same]
    exact closed
  · rw [before] at closed
    rw [after]
    cases moved with
    | ruling verdict key phase next act log moved =>
        cases moved with
        | accepted token transfer same waiting => exact accept_closed _ id closed key token
        | rejected transfer same waiting => exact reject_closed _ id closed key checked.2
        | cancelled info => exact cancel_closed _ id closed key info _ checked.1
        | edited change log rest reply => cases idle
        | _ => exact closed
    | request offer phase next act log moved =>
        cases moved with
        | selected distinct expired => exact prune_closed _ id closed reading.order
        | registered total => exact register_closed _ id closed offer total
        | pruned change log rest => cases idle
        | edited change log rest reply => cases idle
        | _ => exact closed
    | approval peer key phase next act log moved => cases moved <;> exact closed
    | chunk params phase next act log moved =>
        have granted := recounts.granted o params phase here
        cases moved with
        | committed k x => exact receive_closed _ id closed params.transferId params.fileId
        | completed k x transfer new found => exact complete_closed _ id closed params.transferId (granted rfl)
        | unannounced k x lost => exact complete_closed _ id closed params.transferId (granted rfl)
        | _ => exact closed

omit here stepped in
theorem step_keyed (id : String) (transfer : PendingTransfer)
    (now : (act.book docket.state.legacy.ledger).pending.lookup id = some transfer) : transfer.id = id := by
  rcases book_pending _ act id transfer now with ⟨before, _⟩ | ⟨_, key⟩
  · exact recounts.keyed id transfer before
  · exact key

theorem legacy_alone (next : Receiver) (ops : next.ops = docket.state.ops.set o op')
    (same : next.durable.ops = docket.state.durable.ops) :
    Alone turn next := by
  refine ⟨?_, ?_⟩
  · intro p q there notMine
    rw [ops] at there
    rcases Transition.set_cases docket.state.ops o p op' q there with ⟨rfl, rfl⟩ | ⟨_, before⟩
    · exact absurd (legacy_mover_turn turn docket recounts p reading op q act log here stepped) notMine
    · exact recounts.alone.legacy p q before notMine
  · intro p q there notMine
    rw [same] at there
    exact recounts.alone.durable p q there notMine

theorem recounts_legacy (next : Receiver) (running : docket.state.durable.running = true) (apart : Apart next)
    (isNext : next = ⟨docket.state.durable.onDisk (act.store docket.state.durable.store.disk),
      docket.state.legacy.apply o act,
      docket.state.ops.set o op', docket.state.log ++ log, docket.state.peeked⟩) :
    Recounts turn ⟨next, docket.history ++ op.tells reading⟩ := by
  have mine := legacy_mover_turn turn docket recounts o reading op op' act log here stepped
  have within : o < docket.state.ops.length := (List.getElem?_eq_some_iff.mp here).1
  have promise : docket.state.legacyPromise turn = op.promises := by simp [Receiver.legacyPromise, mine, here]
  have ledger : (docket.state.legacy.apply o act).ledger = act.book docket.state.legacy.ledger :=
    apply_ledger _ _ _
  subst isNext
  refine ⟨?_, apart, ?_, recounts.current, recounts.held, ?_, ?_, ?_, ?_, ?_, ?_⟩
  · exact disk_base docket.state.durable _ recounts.base fun path record => legacy_store_doc _ act path record
  · exact legacy_alone turn docket recounts o reading op op' act log here stepped _ rfl rfl
  · intro id transfer now
    exact step_keyed turn docket recounts act id transfer (ledger ▸ now)
  · intro id
    have waits := recounts.legacy id
    rw [promise] at waits
    have after := step_waits docket.state.version1 recounts.apart.base o reading op op' act log here stepped
      id docket.history waits
    have promise' :
      Receiver.legacyPromise ⟨docket.state.durable.onDisk (act.store docket.state.durable.store.disk),
        docket.state.legacy.apply o act, docket.state.ops.set o op', docket.state.log ++ log,
        docket.state.peeked⟩ turn = op'.promises := by
      simp [Receiver.legacyPromise, mine, within]
    rw [promise']
    exact after
  · intro id
    have waits := recounts.durable id
    have silent := legacy_tells_apart op reading id docket.history
    simp only [Receiver.durablePromise, mine] at waits ⊢
    exact waits.trans (by rw [silent])
  · exact step_ledger_closed turn docket recounts o reading op op' act log here stepped
  · intro p params phase there admitted
    rw [show (docket.state.legacy.apply o act).ledger = act.book docket.state.legacy.ledger from ledger]
    exact step_granted turn docket recounts o reading op op' act log here stepped p params phase there
      admitted
  · intro stopped
    exact absurd (running.symm.trans stopped) (by simp)

end Legacy

section Durable

variable (sha256 : Bytes → String) (turn : Option (Nat ⊕ Nat)) (docket : Docket)
    (recounts : Recounts turn docket) (o : Nat)
  (fault : Option Fault) (op op' : Op) (act : Act) (log : List Entry)
    (here : docket.state.durable.ops[o]? = some op)
  (moved : OpMove sha256 docket.state.durable.store fault op act log op')

include recounts here moved

theorem durable_mover_turn : turn = some (.inr o) :=
  durable_turn turn docket.state recounts.alone o op here (moved_active sha256 _ fault op op' act log moved)

theorem step_current (p : Nat) (q : Op) (s : Nat) (there : (docket.state.durable.ops.set o op')[p]? = some q)
    (kind : ∀ id phase, q ≠ .forget id phase) (known : q.session = some s) :
    (docket.state.durable.store.apply o act).sessions.lookup q.id = some s := by
  have mine := durable_mover_turn sha256 turn docket recounts o fault op op' act log here moved
  rcases Transition.set_cases docket.state.durable.ops o p op' q there with ⟨rfl, rfl⟩ | ⟨other, before⟩
  · have rules := op_disciplined docket.state.durable.store fault act log sha256 op q moved
    have notForget : ∀ id phase, op ≠ .forget id phase := by
      rintro id phase rfl
      cases moved with
      | forget _ _ next _ _ _ => exact kind id next rfl
    have found : docket.state.durable.store.sessions.lookup op.id = some s := by
      rcases rules.session with same | none_ | ⟨t, found, present⟩
      · exact recounts.current p op s here notForget (same ▸ known)
      · rw [none_] at known
        cases known
      · rw [present, ← found, known]
    rw [rules.sameId]
    rcases lookup_kept sha256 docket.state.durable recounts.base p fault op q act log here moved op.id s
      found with kept | evicting
    · exact kept
    · exact absurd evicting (notForget _ _)
  · have over_ := recounts.alone.durable p q before (by simp [mine, other.symm])
    rw [ended_idle q over_] at known
    cases known

theorem step_held (s : Nat) (session : Session) (p : Nat)
    (there : (docket.state.durable.store.apply o act).heap[s]? = some session)
    (taken : session.lock = some p) : ∃ q, (docket.state.durable.ops.set o op')[p]? = some q ∧
      q.holds = some s := by
  have within : o < docket.state.durable.ops.length := (List.getElem?_eq_some_iff.mp here).1
  have self : (docket.state.durable.ops.set o op')[o]? = some op' := List.getElem?_set_self within
  have rules := (op_disciplined docket.state.durable.store fault act log sha256 op op' moved).holds
  rcases apply_heap_origin docket.state.durable.store o act s session there with ⟨before, at_, rfl⟩ |
    ⟨record, _, _, rfl⟩
  · by_cases acquired : act = .acquire s
    · subst acquired
      obtain rfl : o = p := by simpa [Act.on] using taken
      exact ⟨op', self, rules.2.1⟩
    · by_cases released : act = .release s
      · subst released
        simp [Act.on] at taken
      · rw [on_lock act o s before acquired released] at taken
        obtain ⟨q, holder, holds⟩ := recounts.held s before p at_ taken
        by_cases mine : p = o
        · subst mine
          obtain rfl : op = q := Option.some.inj (here.symm.trans holder)
          refine ⟨op', self, ?_⟩
          have known := holds_session op s holds
          cases act with
          | acquire t => exact absurd (by rw [Option.some.inj (rules.1.symm.trans known)]) acquired
          | release t => exact absurd (by rw [Option.some.inj (rules.1.symm.trans holds)]) released
          | _ => exact rules.trans holds
        · exact ⟨q, (List.getElem?_set_ne fun same => mine same.symm).trans holder, holds⟩
  · cases taken

theorem recounts_durable (next : Receiver) (unbroken : ∀ saved, fault ≠ some (.persist saved))
    (apart : Apart next) (isNext : next = { docket.state with durable := { docket.state.durable with
      store := docket.state.durable.store.apply o act, ops := docket.state.durable.ops.set o op',
      log := docket.state.durable.log ++ log } }) : Recounts turn ⟨next, docket.history ++ op.tells⟩ := by
  have mine := durable_mover_turn sha256 turn docket recounts o fault op op' act log here moved
  have within : o < docket.state.durable.ops.length := (List.getElem?_eq_some_iff.mp here).1
  have running := base_running docket.state.durable recounts.base o op here
  have settled : next.version1.settled = docket.state.version1.settled := by
    subst isNext
    rfl
  have promise : docket.state.durablePromise turn = op.promises := by
    simp [Receiver.durablePromise, mine, here]
  have promise' : next.durablePromise turn = op'.promises := by
    simp [Receiver.durablePromise, mine, isNext, within]
  have waits : ∀ id, next.durable.store.waits id = if next.durablePromise turn = some id then none
      else awaiting .durable id (docket.history ++ op.tells) := by
    intro id
    have before := recounts.durable id
    rw [promise] at before
    rw [promise', isNext]
    exact durable_waits sha256 docket.state.durable recounts.base o fault op op' act log here unbroken
      (fun s kind known => recounts.current o op s here kind known) id docket.history before moved
  refine ⟨?_, apart, ?_, ?_, ?_, ?_, ?_, waits, ?_, ?_, ?_⟩
  · rw [isNext]
    exact base_advance sha256 docket.state.durable recounts.base o fault op op' act log here moved
  · refine ⟨?_, ?_⟩
    · subst isNext
      exact recounts.alone.legacy
    · intro p q there notMine
      rw [isNext] at there
      rcases Transition.set_cases docket.state.durable.ops o p op' q there with ⟨rfl, rfl⟩ | ⟨_, before⟩
      · exact absurd mine notMine
      · exact recounts.alone.durable p q before notMine
  · rw [isNext]
    exact fun p q s there kind known => step_current sha256 turn docket recounts o fault op op' act log here
      moved p q s there kind known
  · rw [isNext]
    exact fun s session p there taken => step_held sha256 turn docket recounts o fault op op' act log here
      moved s session p there taken
  · subst isNext
    exact recounts.keyed
  · intro id
    have before := recounts.legacy id
    have silent := durable_tells_apart op id docket.history
    simp only [Receiver.legacyPromise, mine] at before ⊢
    rw [settled, before, silent]
  · intro id
    rw [settled]
    exact recounts.closed id
  · subst isNext
    exact recounts.granted
  · intro stopped
    subst isNext
    exact absurd (running.symm.trans stopped) (by simp)

end Durable

theorem idle_promises (turn : Option (Nat ⊕ Nat)) (receiver : Receiver) (idle : receiver.idle = true) :
    receiver.legacyPromise turn = none ∧ receiver.durablePromise turn = none := by
  have alone := idle_alone receiver idle
  constructor
  · cases turn with
    | none => rfl
    | some mover =>
        cases mover with
        | inr o => rfl
        | inl o =>
            cases here : receiver.ops[o]? with
            | none => simp [Receiver.legacyPromise, here]
            | some op => simp [Receiver.legacyPromise, here,
                (legacy_ended_free op (alone.legacy o op here (by simp))).2]
  · cases turn with
    | none => rfl
    | some mover =>
        cases mover with
        | inl o => rfl
        | inr o =>
            cases here : receiver.durable.ops[o]? with
            | none => simp [Receiver.durablePromise, here]
            | some op => simp [Receiver.durablePromise, here, ended_unpromised op
                (alone.durable o op here (by simp))]

theorem legacy_call_quiet (call : LegacyCall) : call.op.promises = none ∧
    ∀ params phase, call.op = .chunk params phase → phase.admitted = false := by
  cases call with
  | chunk params =>
      refine ⟨rfl, ?_⟩
      rintro _ _ ⟨rfl, rfl⟩
      rfl
  | _ => exact ⟨rfl, by rintro _ _ ⟨⟩⟩

theorem call_unpromised (call : Call) : call.op.promises = none := by
  cases call with
  | cancel caller id => cases caller <;> rfl
  | _ => rfl

section Calls

variable (turn : Option (Nat ⊕ Nat)) (docket : Docket) (recounts : Recounts turn docket)
    (idle : docket.state.idle = true)

include recounts idle

theorem recounts_legacy_call (call : LegacyCall) (next : Receiver) (apart : Apart next)
    (running : docket.state.durable.running = true)
    (isNext : next = ⟨docket.state.durable.onDisk docket.state.durable.store.disk, docket.state.legacy,
      docket.state.ops ++ [call.op],
      docket.state.log, docket.state.peeked⟩) : Recounts (some (.inl docket.state.ops.length))
      ⟨next, docket.history⟩ := by
  have alone := idle_alone docket.state idle
  have promises := idle_promises turn docket.state idle
  have promise : next.legacyPromise (some (.inl docket.state.ops.length)) = none := by
    subst isNext
    simp [Receiver.legacyPromise, (legacy_call_quiet call).1]
  have settled : next.version1.settled = docket.state.version1.settled := by
    subst isNext
    exact call_settled docket.state.version1 recounts.apart.base.locked call
  refine ⟨?_, apart, ?_, ?_, ?_, ?_, ?_, ?_, ?_, ?_, ?_⟩
  · subst isNext
    exact recounts.base
  · refine ⟨?_, ?_⟩
    · intro o op there notMine
      subst isNext
      have old : o ≠ docket.state.ops.length := fun last => notMine (by rw [last])
      exact alone.legacy o op (Transition.append_old docket.state.ops o call.op op there old) (by simp)
    · intro o op there _
      subst isNext
      exact alone.durable o op there (by simp)
  · subst isNext
    exact recounts.current
  · subst isNext
    exact recounts.held
  · subst isNext
    exact recounts.keyed
  · intro id
    have waits := recounts.legacy id
    rw [promises.1] at waits
    rw [promise, settled]
    exact waits
  · intro id
    have waits := recounts.durable id
    rw [promises.2] at waits
    subst isNext
    exact waits
  · intro id
    rw [settled]
    exact recounts.closed id
  · intro o params phase there admitted
    subst isNext
    rcases Transition.append_cases docket.state.ops o call.op _ there with before | new
    · exact recounts.granted o params phase before admitted
    · rw [(legacy_call_quiet call).2 params phase new.symm] at admitted
      cases admitted
  · intro stopped
    subst isNext
    exact absurd (running.symm.trans stopped) (by simp)

theorem recounts_durable_call (call : Call) (next : Receiver) (apart : Apart next)
    (running : docket.state.durable.running = true)
    (isNext : next =
    { docket.state with durable := { docket.state.durable with ops := docket.state.durable.ops ++ [call.op] } }) :
    Recounts (some (.inr docket.state.durable.ops.length)) ⟨next, docket.history⟩ := by
  have alone := idle_alone docket.state idle
  have promises := idle_promises turn docket.state idle
  have promise : next.durablePromise (some (.inr docket.state.durable.ops.length)) = none := by
    subst isNext
    simp [Receiver.durablePromise, call_unpromised call]
  refine ⟨?_, apart, ?_, ?_, ?_, ?_, ?_, ?_, ?_, ?_, ?_⟩
  · subst isNext
    exact base_call docket.state.durable recounts.base running call
  · refine ⟨?_, ?_⟩
    · intro o op there _
      subst isNext
      exact alone.legacy o op there (by simp)
    · intro o op there notMine
      subst isNext
      have old : o ≠ docket.state.durable.ops.length := fun last => notMine (by rw [last])
      exact alone.durable o op (Transition.append_old docket.state.durable.ops o call.op op there old)
        (by simp)
  · intro o op s there kind known
    subst isNext
    rcases Transition.append_cases docket.state.durable.ops o call.op op there with before | rfl
    · exact recounts.current o op s before kind known
    · rw [(call_idle call).1] at known
      cases known
  · intro s session o there taken
    subst isNext
    obtain ⟨op, holder, holds⟩ := recounts.held s session o there taken
    exact ⟨op, (List.getElem?_append_left (List.getElem?_eq_some_iff.mp holder).1).trans holder, holds⟩
  · subst isNext
    exact recounts.keyed
  · intro id
    have waits := recounts.legacy id
    rw [promises.1] at waits
    subst isNext
    exact waits
  · intro id
    have waits := recounts.durable id
    rw [promises.2] at waits
    rw [promise, isNext]
    exact waits
  · subst isNext
    exact recounts.closed
  · subst isNext
    exact recounts.granted
  · intro stopped
    subst isNext
    exact absurd (running.symm.trans stopped) (by simp)

end Calls

theorem unstarted_empty (turn : Option (Nat ⊕ Nat)) (docket : Docket) (recounts : Recounts turn docket)
    (store : Store) (stopped : docket.state.durable.running = false)
    (loaded : Store.load docket.state.durable.store.disk = .ok store) (id : String) :
    store.sessions.lookup id = none := by
  have spec := load_loaded docket.state.durable.store.disk store loaded
  cases found : store.sessions.lookup id with
  | none => rfl
  | some s =>
      obtain ⟨record, _, _, written⟩ := spec.mapped id s found
      rw [(recounts.unstarted stopped).2] at written
      cases written

theorem recounts_start (turn : Option (Nat ⊕ Nat)) (docket : Docket) (recounts : Recounts turn docket)
    (store : Store) (stopped : docket.state.durable.running = false)
    (loaded : Store.load docket.state.durable.store.disk = .ok store) (next : Receiver) (apart : Apart next)
    (isNext : next =
      { docket.state with durable := { docket.state.durable with store := store, running := true } }) :
    Recounts turn ⟨next, docket.history⟩ := by
  obtain ⟨silent, noDoc⟩ := recounts.unstarted stopped
  have spec := load_loaded docket.state.durable.store.disk store loaded
  have noSession := unstarted_empty turn docket recounts store stopped loaded
  have noOps := (recounts.base.stopped stopped).1
  have settled : next.version1.settled = docket.state.version1.settled := by
    subst isNext
    rfl
  refine ⟨?_, apart, ?_, ?_, ?_, ?_, ?_, ?_, ?_, ?_, ?_⟩
  · subst isNext
    exact base_start docket.state.durable recounts.base stopped store loaded
  · subst isNext
    exact ⟨recounts.alone.legacy, recounts.alone.durable⟩
  · intro o op s there
    subst isNext
    rw [show docket.state.durable.ops = [] from noOps] at there
    cases there
  · intro s session o there taken
    subst isNext
    rw [(loaded_session docket.state.durable.store.disk store spec s session there).1] at taken
    cases taken
  · subst isNext
    exact recounts.keyed
  · intro id
    have waits := recounts.legacy id
    rw [settled]
    subst isNext
    exact waits
  · intro id
    subst isNext
    simp [Store.waits, noSession, silent, awaiting, lastWord]
  · intro id
    rw [settled]
    exact recounts.closed id
  · subst isNext
    exact recounts.granted
  · intro still
    subst isNext
    cases still

theorem recounts_peek (turn : Option (Nat ⊕ Nat)) (docket : Docket) (recounts : Recounts turn docket)
    (peeked : Finset Nat) (next : Receiver) (apart : Apart next)
    (isNext : next = { docket.state with peeked := peeked }) :
    Recounts turn ⟨next, docket.history⟩ := by
  subst isNext
  exact ⟨recounts.base, apart, ⟨recounts.alone.legacy, recounts.alone.durable⟩, recounts.current,
    recounts.held,
    recounts.keyed, recounts.legacy,
    recounts.durable, recounts.closed, recounts.granted, recounts.unstarted⟩

theorem recounts_step (sha256 : Bytes → String) (turn : Option (Nat ⊕ Nat)) (docket next : Docket)
    (label : ReceiverLabel) (recounts : Recounts turn docket) (allowed : oneByOne docket label = true)
    (stepped : docketStep sha256 docket label = some next) :
    Recounts (docket.state.turn turn label) next := by
  obtain ⟨receiver, made, rfl⟩ :=
    annotate_cases (receiverStep sha256) Receiver.tells docket next label stepped
  have apart := apart_step sha256 docket.state receiver label recounts.apart
    (alone_keeps_apart turn docket.state recounts.alone label) made
  rcases receiver_step_cases sha256 docket.state receiver label made with
    ⟨inner, after, rfl, notCrash, _, durable, isNext⟩ | ⟨after, rfl, _, _⟩ |
      ⟨inner, after, rfl, running, _, legacy, isNext⟩ |
    ⟨o, request, rfl, _, _, isNext⟩
  · rcases step_cases sha256 docket.state.durable after inner durable with ⟨call, rfl, running, rfl⟩ |
      ⟨o, fault, op, act, log, op', rfl, here, moved, rfl⟩ | ⟨rfl, _, _⟩ | ⟨store, rfl, stopped, loaded, rfl⟩
    · simpa [Receiver.tells, Receiver.turn] using recounts_durable_call turn docket recounts allowed call
        receiver apart running isNext
    · have unbroken : ∀ saved, fault ≠ some (.persist saved) := by
        rintro saved rfl
        cases allowed
      have done := recounts_durable sha256 turn docket recounts o fault op op' act log here moved receiver
        unbroken apart isNext
      simpa [Receiver.tells, here, Receiver.turn] using done
    · exact absurd rfl notCrash
    · simpa [Receiver.tells, Receiver.turn] using recounts_start turn docket recounts store stopped loaded
        receiver apart isNext
  · cases allowed
  · cases inner with
    | call call =>
        obtain rfl : _ = after := Option.some.inj legacy
        simpa [Receiver.tells, Receiver.turn] using recounts_legacy_call turn docket recounts allowed call
          receiver apart running isNext
    | advance o reading =>
        obtain ⟨op, here, stepped⟩ := Option.bind_eq_some_iff.mp legacy
        obtain ⟨⟨act, log, op'⟩, moved, same⟩ := Option.bind_eq_some_iff.mp stepped
        obtain rfl := Option.some.inj same
        have done := recounts_legacy turn docket recounts o reading op op' act log here moved receiver
          running apart isNext
        have told : docket.state.tells (.legacy (.advance o reading)) = op.tells reading := by
          have there : docket.state.ops[o]? = some op := here
          simp [Receiver.tells, there]
        rw [told]
        exact done
  · simpa [Receiver.tells, Receiver.turn] using recounts_peek turn docket recounts _ receiver apart isNext

theorem initial_recounts (docket : Docket) (initial : DocketInitial docket) : Recounts none docket := by
  have durable := initial.receiver.durable
  have legacy := initial.receiver.legacy
  have noOps : docket.state.ops = [] := legacy.idle
  have empty : docket.state.legacy = .empty := legacy.fresh
  have free : docket.state.version1.legacy.decisions = none := by
    rw [show docket.state.version1.legacy = docket.state.legacy from rfl, empty]
    rfl
  have settled : docket.state.version1.settled = Ledger.empty := by
    rw [settled_free _ free, show docket.state.version1.legacy = docket.state.legacy from rfl, empty]
    rfl
  refine ⟨initial_base _ durable, initial_apart _ initial.receiver, ?_, ?_, ?_, ?_, ?_, ?_, ?_, ?_, ?_⟩
  · refine ⟨?_, ?_⟩
    · intro o op there
      rw [noOps] at there
      cases there
    · intro o op there
      rw [durable.idle] at there
      cases there
  · intro o op s there
    rw [durable.idle] at there
    cases there
  · intro s session o there
    rw [durable.fresh] at there
    cases there
  · intro id transfer now
    rw [empty] at now
    cases now
  · intro id
    rw [settled, initial.silent]
    rfl
  · intro id
    rw [initial.silent, durable.fresh]
    rfl
  · intro id complete
    rw [settled] at complete
    simp [Ledger.receipts, Ledger.empty] at complete
  · intro o params phase there
    rw [noOps] at there
    cases there
  · exact fun _ => ⟨initial.silent, durable.noJournal⟩

end GoshTransfer
