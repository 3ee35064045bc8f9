import GoshTransfer.Territory

set_option autoImplicit false

namespace GoshTransfer

open InodeStore

-- What a successful answer says about the session.
inductive Promise where
  | accepted
  | rejected
  | cancelled
  | received (file : String)
deriving DecidableEq

def Promise.On (promise : Promise) (record : Record) : Prop :=
  match promise with
  | .accepted => record.decision = .accepted
  | .rejected => record.decision = .rejected
  | .cancelled => record.cancelled = true
  | .received file => (record.published.lookup file).isSome = true

-- What a returned call has told its caller.
def Op.told : Op → Option Promise
  | .accept _ (.done (.ok _)) => some .accepted
  | .reject _ (.done (.ok _)) => some .rejected
  | .cancel _ _ (.done (.ok _)) => some .cancelled
  | .upload request (.done reply) => if reply.code = 200 then some (.received request.fileId) else none
  | _ => none

-- What a running call is certain to tell its caller, with the session it holds.
def Op.promise : Op → Option (Nat × Promise)
  | .accept _ (.leave s (.ok _)) => some (s, .accepted)
  | .reject _ (.announce s) | .reject _ (.leave s (.ok _)) => some (s, .rejected)
  | .cancel _ _ (.discard s _ _) | .cancel _ _ (.leave s (.ok _)) => some (s, .cancelled)
  | .upload request (.finish s _) | .upload request (.discard s _) | .upload request (.announce s _) =>
      some (s, .received request.fileId)
  | .upload request (.leave s reply) => if reply.code = 200 then some (s, .received request.fileId) else none
  | _ => none

-- cancel_transfer and the receipt commit save the journal they write, and no
-- call passes its checks on a session that has left the map.
def promisesKept (state : State) : Label → Bool
  | .advance o fault =>
      match state.ops[o]? with
      | some (.reject _ (.decide s)) =>
          state.store.current s || (state.store.heap[s]?).all fun session => session.record.decision !=
            .pending
      | some (.cancel _ _ (.decide s)) =>
          fault != some (.persist false) &&
            (state.store.current s || (state.store.heap[s]?).all fun session => session.record.complete)
      | some (.upload request (.entry s)) =>
          state.store.current s || (state.store.heap[s]?).all fun session => session.record.published.lookup
            request.fileId == none
      | some (.upload _ (.commit _ _ _)) => fault != some (.persist false)
      | _ => true
  | _ => true

theorem kept_stale_free (state : State) (label : Label) (kept : promisesKept state label = true) :
    staleFree state label = true := by
  cases label with
  | advance o fault =>
      simp only [promisesKept] at kept
      simp only [staleFree]
      split
      · rename_i id s here
        simpa only [here] using kept
      · rename_i caller id s here
        simp only [here, Bool.and_eq_true, Bool.or_eq_true] at kept
        rcases kept.2 with current | ended
        · simp [current]
        · refine Bool.or_eq_true_iff.mpr (.inr ?_)
          cases there : state.store.heap[s]? with
          | none => rfl
          | some session =>
              rw [there] at ended
              simp only [Option.all_some] at ended ⊢
              simp [ended]
      · rfl
  | _ => rfl

-- What has been recorded as cancelled or published in memory is in the journal.
structure Durable (state : State) : Prop where
  saved : ∀ (id : String) (s : Nat) (session : Session) (journal : Record), state.store.sessions.lookup id =
    some s →
    state.store.heap[s]? = some session → state.store.disk.doc (journalPath id) = some journal →
      (session.record.cancelled = true → journal.cancelled = true) ∧
        ∀ file path, session.record.published.lookup file = some path →
          journal.published.lookup file = some path
  promised : ∀ (o : Nat) (op : Op) (s : Nat) (promise : Promise), state.ops[o]? = some op →
    op.promise = some (s, promise) →
    state.store.sessions.lookup op.id = some s ∧
      ∃ journal, state.store.disk.doc (journalPath op.id) = some journal ∧ promise.On journal

theorem promise_holds (op : Op) (s : Nat) (promise : Promise) (promised : op.promise = some (s, promise)) :
    op.holds = some s := by
  cases op with
  | accept id phase =>
      cases phase with
      | leave t reply => cases reply <;> simp_all [Op.promise, Op.holds, AcceptPhase.holds]
      | _ => cases promised
  | reject id phase =>
      cases phase with
      | leave t reply => cases reply <;> simp_all [Op.promise, Op.holds, RejectPhase.holds]
      | announce t => simp_all [Op.promise, Op.holds, RejectPhase.holds]
      | _ => cases promised
  | cancel caller id phase =>
      cases phase with
      | leave t reply => cases reply <;> simp_all [Op.promise, Op.holds, CancelPhase.holds]
      | discard t files bytes => simp_all [Op.promise, Op.holds, CancelPhase.holds]
      | _ => cases promised
  | upload request phase =>
      cases phase with
      | leave t reply =>
          simp only [Op.promise] at promised
          split at promised <;> simp_all [Op.holds, UploadPhase.holds]
      | finish t x => simp_all [Op.promise, Op.holds, UploadPhase.holds]
      | discard t x => simp_all [Op.promise, Op.holds, UploadPhase.holds]
      | announce t x => simp_all [Op.promise, Op.holds, UploadPhase.holds]
      | _ => cases promised
  | _ => cases promised

section Step

variable (sha256 : Bytes → String) (state : State) (base : Base state) (owned : Owned state)
    (durable : Durable state) (o : Nat)
variable (fault : Option Fault) (op op' : Op) (act : Act) (log : List Entry) (here : state.ops[o]? = some op)
variable (kept : promisesKept state (.advance o fault) = true)
    (moved : OpMove sha256 state.store fault op act log op')

include here kept moved in
theorem unsaved_write (s : Nat) (session : Session) (record : Record)
    (at_ : state.store.heap[s]? = some session) (writes : act.writes = some (s, record))
    (unsaved : act ≠ .persist s record true) :
    record.cancelled = session.record.cancelled ∧ record.published = session.record.published := by
  obtain ⟨session', there, write⟩ := moved_write sha256 state.store fault op op' act log s record moved writes
  obtain rfl := Option.some.inj (at_.symm.trans there)
  cases write with
  | cancel caller id saved struck running live =>
      rcases struck with ⟨_, rfl⟩ | struck
      · exact absurd rfl unsaved
      · cases saved with
        | true => exact absurd rfl unsaved
        | false => simp [promisesKept, here, struck] at kept
  | receipt request x target saved struck =>
      rcases struck with ⟨_, rfl⟩ | struck
      · exact absurd rfl unsaved
      · cases saved with
        | true => exact absurd rfl unsaved
        | false => simp [promisesKept, here, struck] at kept
  | _ => exact ⟨rfl, rfl⟩

include base owned durable here kept moved in
theorem durable_saved : ∀ (id : String) (s : Nat) (session : Session) (journal : Record),
    (state.store.apply o act).sessions.lookup id = some s →
    (state.store.apply o act).heap[s]? = some session →
      (state.store.apply o act).disk.doc (journalPath id) = some journal →
      (session.record.cancelled = true → journal.cancelled = true) ∧
        ∀ file path, session.record.published.lookup file = some path →
          journal.published.lookup file = some path := by
  intro id s session' journal present after written
  have fresh := kept_stale_free state _ kept
  rcases apply_heap_origin state.store o act s session' after with ⟨session, at_, rfl⟩ |
    ⟨record, rfl, rfl, rfl⟩
  · have old := (List.getElem?_eq_some_iff.mp at_).1
    have found := lookup_origin sha256 state o fault op op' act log moved id s old present
    obtain ⟨session', at', named⟩ := base.mapped id s found
    obtain rfl := Option.some.inj (at_.symm.trans at')
    by_cases persisted : ∃ record, act = .persist s record true
    · obtain ⟨record, saved⟩ := persisted
      have now := persisted_journal sha256 state base o fault op op' act log here moved s session record
        saved at_
      rw [named, written] at now
      obtain rfl := Option.some.inj now
      subst saved
      simp [Act.on]
    · have memory : (act.on o s session).record.cancelled = session.record.cancelled ∧
          (act.on o s session).record.published = session.record.published := by
        rcases on_record_writes act o s session with ⟨record, writes, on⟩ | ⟨_, same⟩
        · rw [on]
          exact unsaved_write sha256 state o fault op op' act log here kept moved s session record at_ writes
            fun saved => persisted ⟨record, saved⟩
        · rw [same]
          exact ⟨rfl, rfl⟩
      rw [memory.1, memory.2]
      rcases journal_cases sha256 state base o fault op op' act log here moved id with
        same | ⟨t, other, record, rfl, mine, there, same, _, _⟩ | ⟨request, rfl, rfl, same, _⟩ |
          ⟨t, rfl, rfl, _, now⟩
      · exact durable.saved id s session journal found at_ (same.symm.trans written)
      · have mapped :=
          writer_current sha256 state base owned o fault op op' _ log here fresh moved rfl t other mine there
        obtain rfl : s = t := Option.some.inj (found.symm.trans (same ▸ mapped))
        exact absurd ⟨record, rfl⟩ persisted
      · have absent := (base.facts o _ here).2
        rw [same, found] at absent
        cases absent
      · rw [now] at written
        cases written
  · cases op_effect sha256 state.store fault op op' _ log moved with
    | quiet _ _ _ silent => cases silent
    | insert request =>
        have same : id = request.record.pending.id := by
          by_contra different
          have before : state.store.sessions.lookup id = some state.store.heap.length :=
            (AList.lookup_insert_ne different).symm.trans present
          obtain ⟨session, at_, _⟩ := base.mapped id _ before
          simp at at_
        subst same
        obtain rfl := Option.some.inj ((owned.inserting o request here).symm.trans written)
        exact ⟨id, fun _ _ => id⟩

include durable here in
theorem promise_carried (s : Nat) (promise : Promise) (before : op.promise = some (s, promise))
    (same : (state.store.apply o act).disk.doc (journalPath op.id) = state.store.disk.doc
      (journalPath op.id)) :
    state.store.sessions.lookup op.id = some s ∧
      ∃ journal, (state.store.apply o act).disk.doc (journalPath op.id) = some journal ∧
        promise.On journal := by
  rw [same]
  exact durable.promised o op s promise here before

include base here moved in
theorem promise_persisted (s : Nat) (session : Session) (record : Record) (promise : Promise)
    (mine : op.holds = some s) (saved : act = .persist s record true)
    (at_ : state.store.heap[s]? = some session) (present : state.store.sessions.lookup session.id = some s)
    (on : promise.On record) :
    state.store.sessions.lookup op.id = some s ∧
      ∃ journal, (state.store.apply o act).disk.doc (journalPath op.id) = some journal ∧
        promise.On journal := by
  obtain ⟨session', at', named⟩ := base.known o op s here (holds_session op s mine)
  obtain rfl := Option.some.inj (at_.symm.trans at')
  rw [← named]
  exact ⟨present, record, persisted_journal sha256 state base o fault op op' act log here moved s session
    record saved at_, on⟩

include base owned durable here in
theorem promise_remembered (s : Nat) (session : Session) (promise : Promise) (mine : op.holds = some s)
    (notForget : ∀ id, op ≠ .forget id (.evict s)) (at_ : state.store.heap[s]? = some session)
    (present : state.store.sessions.lookup session.id = some s)
    (on : ∀ journal : Record, (session.record.cancelled = true → journal.cancelled = true) →
      (∀ file path, session.record.published.lookup file = some path →
        journal.published.lookup file = some path) → promise.On journal)
    (same : (state.store.apply o act).disk.doc (journalPath op.id) = state.store.disk.doc
      (journalPath op.id)) :
    state.store.sessions.lookup op.id = some s ∧
      ∃ journal, (state.store.apply o act).disk.doc (journalPath op.id) = some journal ∧
        promise.On journal := by
  obtain ⟨session', at', named⟩ := base.known o op s here (holds_session op s mine)
  obtain rfl := Option.some.inj (at_.symm.trans at')
  rw [same, ← named]
  obtain ⟨journal, written, _⟩ := held_journal state base owned o op here s session mine notForget at_ present
  obtain ⟨cancelled, receipts⟩ := durable.saved session.id s session journal present at_ written
  exact ⟨present, journal, written, on journal cancelled receipts⟩

include base owned durable here kept moved in
theorem promise_made (s : Nat) (promise : Promise) (promised : op'.promise = some (s, promise)) :
    state.store.sessions.lookup op.id = some s ∧
      ∃ journal, (state.store.apply o act).disk.doc (journalPath op.id) = some journal ∧
        promise.On journal := by
  have fresh := kept_stale_free state _ kept
  have untouched := journal_untouched sha256 state base o fault op op' act log here moved op.id
  have carried := promise_carried state durable o op act here s promise
  have persisted := promise_persisted sha256 state base o fault op op' act log here moved s
  have remembered := promise_remembered state base owned durable o op act here s
  have current := writer_current sha256 state base owned o fault op op' act log here fresh moved
  cases moved with
  | accept id phase next _ _ moved =>
      cases moved with
      | accepted t session at_ open_ ok =>
          simp only [Op.promise, Option.some.injEq, Prod.mk.injEq] at promised
          obtain ⟨rfl, rfl⟩ := promised
          exact persisted session _ .accepted rfl rfl at_ (current rfl t session rfl at_) rfl
      | _ => simp [Op.promise] at promised
  | reject id phase next _ _ moved =>
      cases moved with
      | rejected t session at_ undecided ok =>
          simp only [Op.promise, Option.some.injEq, Prod.mk.injEq] at promised
          obtain ⟨rfl, rfl⟩ := promised
          exact persisted session _ .rejected rfl rfl at_ (current rfl t session rfl at_) rfl
      | announced t session at_ => exact carried promised (untouched (by simp) (by simp) (by simp))
      | _ => simp [Op.promise] at promised
  | cancel caller id phase next _ _ moved =>
      cases moved with
      | cancelled t session points at_ open_ read ok =>
          simp only [Op.promise, Option.some.injEq, Prod.mk.injEq] at promised
          obtain ⟨rfl, rfl⟩ := promised
          exact persisted session _ .cancelled rfl rfl at_ (current rfl t session rfl at_) rfl
      | repeated t session at_ open_ ended ok =>
          simp only [Op.promise, Option.some.injEq, Prod.mk.injEq] at promised
          obtain ⟨rfl, rfl⟩ := promised
          have present : state.store.sessions.lookup session.id = some t := by
            simpa [promisesKept, here, at_, open_, ok, current_iff _ _ _ at_] using kept
          exact remembered session .cancelled rfl (by simp) at_ present
            (fun journal cancelled _ => cancelled ended) (untouched (by simp) (by simp) (by simp))
      | discarded t session file rest bytes at_ =>
          refine carried promised ?_
          rcases remove_act_cases (partPath session.id file) fault with same |
            same <;> rw [same] at untouched ⊢
          · exact untouched (by simp) (by simp) (by simp)
          · exact untouched (by simp) (by simp) fun erased => part_ne_journal _ _ _ (Act.remove.inj erased)
      | announced t session bytes at_ => exact carried promised (untouched (by simp) (by simp) (by simp))
      | _ => simp [Op.promise] at promised
  | upload request phase next _ _ moved =>
      cases moved with
      | refuse t phase reply held fallible code => simp [Op.promise, code.1] at promised
      | already t session file at_ live member named receipt =>
          simp only [Op.promise, Response.plain, if_pos, Option.some.injEq, Prod.mk.injEq] at promised
          obtain ⟨rfl, rfl⟩ := promised
          obtain ⟨path, published⟩ := Option.isSome_iff_exists.mp receipt
          rw [named] at published
          have present : state.store.sessions.lookup session.id = some t := by
            simpa [promisesKept, here, at_, published, current_iff _ _ _ at_] using kept
          refine remembered session (.received request.fileId) rfl (by simp) at_ present ?_
            (untouched (by simp) (by simp) (by simp))
          intro journal _ receipts
          simp [Promise.On, receipts _ path published]
      | committed t session x target at_ ok =>
          simp only [Op.promise, Option.some.injEq, Prod.mk.injEq] at promised
          obtain ⟨rfl, rfl⟩ := promised
          have file := (base.facts o _ here t session rfl at_).2.1
          refine persisted session _ (.received request.fileId) rfl rfl at_ (current rfl t session rfl at_) ?_
          simp [Promise.On, ← file, receipt_lookup]
      | finished t x => exact carried promised (untouched (by simp) (by simp) (by simp))
      | discarded t session x at_ =>
          refine carried promised ?_
          rcases remove_act_cases (partPath session.id x.file.id) fault with same |
            same <;> rw [same] at untouched ⊢
          · exact untouched (by simp) (by simp) (by simp)
          · exact untouched (by simp) (by simp) fun erased => part_ne_journal _ _ _ (Act.remove.inj erased)
      | announced t session x at_ =>
          refine carried ?_ (untouched (by simp) (by simp) (by simp))
          simpa [Op.promise, Response.plain] using promised
      | _ => simp [Op.promise, Response.plain, errorResponse] at promised
  | forget id phase next _ _ moved => cases promised
  | register request phase next _ _ moved => cases promised
  | status peer id phase next _ _ moved => cases promised

include base owned durable here kept moved in
theorem durable_advance :
    Durable { state with store := state.store.apply o act, ops := state.ops.set o op', log := state.log ++ log } where
  saved := durable_saved sha256 state base owned durable o fault op op' act log here kept moved
  promised := by
    intro p q s promise there promised
    have fresh := kept_stale_free state _ kept
    rcases Transition.set_cases state.ops o p op' q there with ⟨rfl, rfl⟩ | ⟨other, before⟩
    · have rules := op_disciplined state.store fault act log sha256 op q moved
      obtain ⟨present, journal⟩ :=
        promise_made sha256 state base owned durable p fault op q act log here kept moved s promise promised
      rw [rules.sameId]
      refine ⟨?_, journal⟩
      rcases lookup_kept sha256 state base p fault op q act log here moved op.id s present with kept |
        forgetting
      · exact kept
      · rw [forgetting] at moved
        cases moved
        cases promised
    · obtain ⟨present, journal, written, on⟩ := durable.promised p q s promise before promised
      have yours := promise_holds q s promise promised
      obtain ⟨same, _⟩ :=
        files_guarded sha256 state base owned o fault op op' act log here fresh moved p q s other before
          yours q.id present
      exact ⟨lookup_kept_other sha256 state base o fault op op' act log here moved p q s other before yours
        q.id present,
        journal, same.trans written, on⟩

end Step

theorem durable_step (sha256 : Bytes → String) (state next : State) (label : Label) (base : Base state)
    (owned : Owned state) (durable : Durable state) (kept : promisesKept state label = true)
    (stepped : step sha256 state label = some next) : Durable next := by
  rcases step_cases sha256 state next label stepped with ⟨call, rfl, _, rfl⟩ |
    ⟨o, fault, op, act, log, op', rfl, here, moved, rfl⟩ |
    ⟨rfl, _, rfl⟩ | ⟨store, rfl, stopped, loaded, rfl⟩
  · refine ⟨durable.saved, ?_⟩
    intro o op s promise there promised
    rcases Transition.append_cases state.ops o call.op op there with before | rfl
    · exact durable.promised o op s promise before promised
    · have idle := (call_idle call).2.1
      rw [promise_holds _ s promise promised] at idle
      cases idle
  · exact durable_advance sha256 state base owned durable o fault op op' act log here kept moved
  · exact ⟨by simp [Store.empty], by simp⟩
  · have spec := load_loaded state.store.disk store loaded
    refine ⟨?_, by simp [(base.stopped stopped).1]⟩
    intro id s session journal present at_ written
    obtain ⟨record, made, _, source⟩ := spec.mapped id s present
    obtain rfl := Option.some.inj (at_.symm.trans made)
    rw [spec.same] at written
    obtain rfl := Option.some.inj (written.symm.trans source)
    exact ⟨fun cancelled => cancelled, fun _ _ published => published⟩

-- The step in which forget removes the journal of id.
def erases (id : String) (state : State) : Label → Bool
  | .advance o _ =>
      match state.ops[o]? with
      | some (.forget forgotten (.discard _ [])) => forgotten == id
      | _ => false
  | _ => false

theorem promise_forward (promise : Promise) (before after : Record) (forward : before.Forward after)
    (on : promise.On before) :
    promise.On after := by
  cases promise with
  | accepted => exact forward.accepted on
  | rejected => exact forward.rejected on
  | cancelled => exact forward.cancelled on
  | received file =>
      obtain ⟨path, published⟩ := Option.isSome_iff_exists.mp on
      simp [Promise.On, forward.receipts file path published]

-- What stays true of an acknowledged session until it is forgotten, for a
-- property that a record does not lose.
structure Recorded (id : String) (good : Record → Prop) (state : State) : Prop where
  journal : ∃ journal, state.store.disk.doc (journalPath id) = some journal ∧ good journal
  present : state.running = true → state.store.sessions.lookup id ≠ none
  unforgotten : ∀ (o s : Nat), state.ops[o]? ≠ some (.forget id (.evict s))
  canonical : id ≠ ""

theorem recorded_advance (sha256 : Bytes → String) (state : State) (base : Base state) (owned : Owned state)
    (o : Nat) (fault : Option Fault) (op op' : Op) (act : Act) (log : List Entry)
    (here : state.ops[o]? = some op) (fresh : staleFree state (.advance o fault) = true)
    (moved : OpMove sha256 state.store fault op act log op') (id : String) (good : Record → Prop)
    (stable : ∀ before after : Record, before.Forward after → good before → good after)
    (recorded : Recorded id good state) (kept : erases id state (.advance o fault) = false) :
    Recorded id good
    { state with store := state.store.apply o act, ops := state.ops.set o op', log := state.log ++ log } := by
  have running := base_running state base o op here
  obtain ⟨s, present⟩ := Option.ne_none_iff_exists'.mp (recorded.present running)
  obtain ⟨journal, written, on⟩ := recorded.journal
  refine ⟨?_, ?_, ?_, recorded.canonical⟩
  · rcases journal_cases sha256 state base o fault op op' act log here moved id with
      same | ⟨t, session, record, rfl, mine, at_, rfl, newer, now⟩ | ⟨request, rfl, rfl, named, now⟩ |
        ⟨t, rfl, rfl, _, now⟩
    · exact ⟨journal, same.trans written, on⟩
    · have current :=
        writer_current sha256 state base owned o fault op op' _ log here fresh moved rfl t session mine at_
      have notForget : ∀ id, op ≠ .forget id (.evict t) := by
        rintro id rfl
        cases moved with
        | forget _ _ _ _ _ moved => cases moved
      obtain ⟨older, written', forward⟩ :=
        held_journal state base owned o op here t session mine notForget at_ current
      obtain rfl := Option.some.inj (written.symm.trans written')
      exact ⟨record, now, stable _ _ (forward_trans _ _ _ forward newer) on⟩
    · have absent := (base.facts o _ here).2
      rw [named, present] at absent
      cases absent
    · simp [erases, here] at kept
  · intro _
    rcases lookup_kept sha256 state base o fault op op' act log here moved id s present with same | rfl
    · exact fun absent => Option.some_ne_none s (same.symm.trans absent)
    · exact absurd here (recorded.unforgotten o s)
  · intro p t there
    rcases Transition.set_cases state.ops o p op' _ there with ⟨rfl, rfl⟩ | ⟨_, before⟩
    · cases moved with
      | forget _ _ _ _ _ moved =>
          cases moved
          simp [erases, here] at kept
    · exact recorded.unforgotten p t before

theorem recorded_step (sha256 : Bytes → String) (state next : State) (label : Label) (base : Base state)
    (owned : Owned state) (fresh : staleFree state label = true) (id : String) (good : Record → Prop)
    (stable : ∀ before after : Record, before.Forward after → good before → good after)
    (recorded : Recorded id good state) (kept : erases id state label = false)
    (stepped : step sha256 state label = some next) : Recorded id good next := by
  rcases step_cases sha256 state next label stepped with ⟨call, rfl, _, rfl⟩ |
    ⟨o, fault, op, act, log, op', rfl, here, moved, rfl⟩ |
    ⟨rfl, _, rfl⟩ | ⟨store, rfl, stopped, loaded, rfl⟩
  · refine ⟨recorded.journal, recorded.present, ?_, recorded.canonical⟩
    intro o s there
    rcases Transition.append_cases state.ops o call.op _ there with before | new
    · exact recorded.unforgotten o s before
    · cases call <;> cases new
  · exact recorded_advance sha256 state base owned o fault op op' act log here fresh moved id good stable
      recorded kept
  · exact ⟨recorded.journal, by simp, by simp, recorded.canonical⟩
  · have spec := load_loaded state.store.disk store loaded
    obtain ⟨journal, written, on⟩ := recorded.journal
    obtain ⟨s, found, _⟩ := spec.covered id journal recorded.canonical written
    exact ⟨⟨journal, spec.same ▸ written, on⟩, by simp [found], by simp [(base.stopped stopped).1],
      recorded.canonical⟩

theorem recorded_memory (state : State) (base : Base state) (owned : Owned state) (id : String)
    (good : Record → Prop) (stable : ∀ before after : Record, before.Forward after → good before →
      good after) (recorded : Recorded id good state)
    (running : state.running = true) : ∃ s session, state.store.sessions.lookup id = some s ∧
      state.store.heap[s]? = some session ∧
      good session.record := by
  obtain ⟨s, present⟩ := Option.ne_none_iff_exists'.mp (recorded.present running)
  obtain ⟨session, at_, _⟩ := base.mapped id s present
  obtain ⟨journal, written, on⟩ := recorded.journal
  rcases owned.held id s session present at_ with ⟨p, forgetting⟩ | ⟨journal', written', forward⟩
  · exact absurd forgetting (recorded.unforgotten p s)
  · obtain rfl := Option.some.inj (written.symm.trans written')
    exact ⟨s, session, present, at_, stable _ _ forward on⟩

theorem told_recorded (sha256 : Bytes → String) (state next : State) (base : Base state)
    (durable : Durable state) (o : Nat) (fault : Option Fault) (op : Op) (promise : Promise)
    (stepped : step sha256 state (.advance o fault) = some next) (returned : next.ops[o]? = some op)
    (told : op.told = some promise) : Recorded op.id promise.On next := by
  obtain ⟨before, act, log, op', here, taken, rfl⟩ := step_advance sha256 state next o fault stepped
  have within := (List.getElem?_eq_some_iff.mp here).1
  obtain rfl : op' = op := by
    rw [List.getElem?_set_self within] at returned
    exact Option.some.inj returned
  have moved := op_next_move sha256 state.store fault before op' act log taken
  -- The last step only gives the lock back.
  obtain ⟨s, rfl, promised⟩ : ∃ s, act = .release s ∧ before.promise = some (s, promise) := by
    cases moved with
    | accept id phase next _ _ moved =>
        cases moved with
        | left s reply => cases reply <;> simp_all [Op.told, Op.promise]
        | _ => simp [Op.told] at told
    | reject id phase next _ _ moved =>
        cases moved with
        | left s reply => cases reply <;> simp_all [Op.told, Op.promise]
        | _ => simp [Op.told] at told
    | cancel caller id phase next _ _ moved =>
        cases moved with
        | left s reply => cases reply <;> simp_all [Op.told, Op.promise]
        | _ => simp [Op.told] at told
    | upload request phase next _ _ moved =>
        cases moved with
        | left s reply =>
            simp only [Op.told, Option.ite_none_right_eq_some, Option.some.injEq] at told
            exact ⟨s, rfl, by simp [Op.promise, told]⟩
        | _ => simp [Op.told, errorResponse] at told
    | forget id phase next _ _ moved => cases told
    | register request phase next _ _ moved => cases told
    | status peer id phase next _ _ moved => cases told
  obtain ⟨present, journal⟩ := durable.promised o before s promise here promised
  have rules := op_disciplined state.store fault _ log sha256 before op' moved
  rw [rules.sameId]
  refine ⟨journal, fun _ absent => ?_, ?_, ?_⟩
  · have same : (state.store.apply o (.release s)).sessions.lookup before.id = some s := present
    exact Option.some_ne_none s (same.symm.trans absent)
  · intro p t there
    rcases Transition.set_cases state.ops o p op' _ there with ⟨rfl, rfl⟩ | ⟨other, forgetting⟩
    · cases told
    · obtain rfl : t = s := Option.some.inj ((base.facts p _ forgetting).1.symm.trans present)
      exact other (holder_unique state base o p before _ t here forgetting
        (promise_holds before t promise promised) rfl)
  · intro empty
    have canonical := mapped_length state base before.id s present
    rw [empty] at canonical
    cases canonical

-- What a caller is told is in the journal at that moment, and stays there and
-- in memory, through any number of restarts, until the session is forgotten.
theorem acknowledged_is_durable (sha256 : Bytes → String) (start state next final : State)
    (initial : Initial start)
    (run : Transition.Run (step sha256) (fun state label => promisesKept state label = true) start state)
    (o : Nat) (fault : Option Fault) (op : Op) (promise : Promise)
    (allowed : promisesKept state (.advance o fault) = true)
    (stepped : step sha256 state (.advance o fault) = some next) (returned : next.ops[o]? = some op)
    (told : op.told = some promise)
    (later : Transition.Run (step sha256)
      (fun state label => promisesKept state label = true ∧ erases op.id state label = false)
      next final) :
    (∃ journal, next.store.disk.doc (journalPath op.id) = some journal ∧ promise.On journal) ∧
    (∃ journal, final.store.disk.doc (journalPath op.id) = some journal ∧ promise.On journal) ∧
    (final.running = true → ∃ s session, final.store.sessions.lookup op.id = some s ∧
      final.store.heap[s]? = some session ∧ promise.On session.record) := by
  have holds : ∀ state, (Base state ∧ Owned state ∧ Durable state) →
    ∀ label next, promisesKept state label = true →
      step sha256 state label = some next → Base next ∧ Owned next ∧ Durable next := by
    rintro state ⟨base, owned, durable⟩ label next kept stepped
    exact ⟨base_step sha256 state next label base stepped,
      owned_step sha256 state next label base owned (kept_stale_free state label kept) stepped,
      durable_step sha256 state next label base owned durable kept stepped⟩
  have first : Durable start := by
    refine ⟨?_, by simp [initial.idle]⟩
    rw [initial.fresh]
    simp [Store.empty]
  have good := Transition.run_invariant (step sha256) _ (fun state => Base state ∧ Owned state ∧
    Durable state)
    (fun state label next good kept stepped => holds state good label next kept stepped) start state run
    ⟨initial_base start initial, initial_owned start initial, first⟩
  have now := told_recorded sha256 state next good.1 good.2.2 o fault op promise stepped returned told
  obtain ⟨⟨base, owned, _⟩, recorded⟩ := Transition.run_invariant (step sha256) _
    (fun state => (Base state ∧ Owned state ∧ Durable state) ∧ Recorded op.id promise.On state)
    (fun state label next good kept stepped => ⟨holds state good.1 label next kept.1 stepped,
      recorded_step sha256 state next label good.1.1 good.1.2.1 (kept_stale_free state label kept.1) op.id
      promise.On
        (promise_forward promise) good.2 kept.2 stepped⟩)
    next final later ⟨holds state good _ next allowed stepped, now⟩
  refine ⟨now.journal, recorded.journal, ?_⟩
  exact recorded_memory final base owned op.id promise.On (promise_forward promise) recorded

-- The step with which a call on the small session reports success, and what is checked afterwards.
def tells (o : Nat) (promise : Promise) (good : State → Bool) (state : State) : Bool :=
  promisesKept state (.advance o none) && (step emptyHash state (.advance o none)).any fun next =>
    (next.ops[o]?).any (fun op => op.id == smallId && op.told == some promise) && good next

theorem tells_sound (o : Nat) (promise : Promise) (good : State → Bool) (state : State)
    (checked : tells o promise good state = true) :
    promisesKept state (.advance o none) = true ∧ ∃ next op,
      step emptyHash state (.advance o none) = some next ∧
      next.ops[o]? = some op ∧ op.id = smallId ∧ op.told = some promise ∧ good next = true := by
  simp only [tells, Bool.and_eq_true, Option.any_eq_true, beq_iff_eq] at checked
  obtain ⟨allowed, next, stepped, ⟨op, returned, named, told⟩, holds⟩ := checked
  exact ⟨allowed, next, op, stepped, returned, named, told, holds⟩

theorem accepted_session_survives_restart : ∃ final,
    Transition.Run (step emptyHash) (fun state label => promisesKept state label = true) emptyState final ∧
      final.running = true ∧
      ∃ s session, final.store.sessions.lookup smallId = some s ∧ final.store.heap[s]? = some session ∧
        session.record.decision = .accepted := by
  obtain ⟨state, run, checked⟩ :=
    Transition.replay_reaches (step emptyHash) (fun state label => promisesKept state label = true)
    (.start :: .call (.register (smallRegister false)) :: advances 0 7 ++ .call (.accept smallId) ::
      advances 1 3) emptyState
    (tells 1 .accepted fun next => (Transition.replay (step emptyHash)
      (fun state label => promisesKept state label = true ∧
        erases smallId state label = false) next [.crash, .start]).any (·.running))
    (by decide +kernel)
  obtain ⟨allowed, next, op, stepped, returned, named, told, restarted⟩ := tells_sound 1 _ _ state checked
  obtain ⟨final, later, running⟩ := Transition.replay_reaches (step emptyHash)
    (fun state label => promisesKept state label = true ∧ erases smallId state label = false)
    [.crash, .start] next (·.running) restarted
  have whole := Transition.run_trans (step emptyHash) (fun state label => promisesKept state label = true)
    emptyState next final (.tail state next _ run allowed stepped)
    (Transition.run_mono _ _ _ next final (fun _ _ kept => kept.1) later)
  have durable :=
    acknowledged_is_durable emptyHash emptyState state next final empty_initial run 1 none op .accepted
      allowed stepped
    returned told (named ▸ later)
  exact ⟨final, whole, running, named ▸ durable.2.2 running⟩

-- The persist of cancel_transfer fails and the retry answers Ok from memory.
theorem retried_cancel_is_not_saved : ∃ start state next o fault op promise, Initial start ∧
    Transition.Run (step emptyHash) (fun _ _ => True) start state ∧
      step emptyHash state (.advance o fault) = some next ∧
      next.ops[o]? = some op ∧ op.told = some promise ∧
        ¬ ∃ journal, next.store.disk.doc (journalPath op.id) = some journal ∧ promise.On journal := by
  obtain ⟨state, run, checked⟩ := Transition.replay_reaches (step emptyHash) (fun _ _ => True)
    (.start :: .call (.register (smallRegister false)) :: advances 0 7 ++ .call (.cancel none smallId) ::
    advances 1 4 ++
      .advance 1 (some (.persist false)) :: advances 1 1 ++ .call (.cancel none smallId) ::
      advances 2 5) emptyState
    (tells 2 .cancelled fun next => (next.store.disk.doc (journalPath smallId)).all fun journal =>
      !journal.cancelled) (by decide +kernel)
  obtain ⟨_, next, op, stepped, returned, named, told, unsaved⟩ := tells_sound 2 _ _ state checked
  refine ⟨emptyState, state, next, 2, none, op, .cancelled, empty_initial, run, stepped, returned, told, ?_⟩
  rintro ⟨journal, written, on⟩
  rw [named] at written
  rw [written] at unsaved
  simp [show journal.cancelled = true from on] at unsaved

end GoshTransfer
