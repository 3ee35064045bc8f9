import GoshTransfer.Base

set_option autoImplicit false

namespace GoshTransfer

open InodeStore

deriving instance DecidableEq for Record

-- Whether a call has returned, and if so whether it failed: Err, or a status that is no success.
def Op.failed : Op → Option Bool
  | .accept _ (.done reply) => some !reply.isOk
  | .reject _ (.done reply) => some !reply.isOk
  | .cancel _ _ (.done reply) => some !reply.isOk
  | .register _ (.done reply) => some (reply.code != 200)
  | _ => none

-- The session map, every record and every token.
def Store.memory (store : Store) : List (Sigma fun _ : String => Nat) × List (Record × Bool) :=
  (store.sessions.entries, store.heap.map fun session => (session.record, session.cancel))

def persistFails : Option Fault → Bool
  | some (.persist _) => true
  | _ => false

-- The steps with which a failing call leaves a trace in memory. cancel_transfer
-- leaves one as soon as it fails when it has tripped the token itself.
def Op.traces (store : Store) (fault : Option Fault) (altered : Bool) : Op → Bool
  | .accept _ (.decide s) => (store.heap[s]?).any fun session =>
      persistFails fault && !session.record.terminal && session.record.decision != .accepted
  | .reject _ (.decide s) => (store.heap[s]?).any fun session =>
      persistFails fault && session.record.decision == .pending
  | .cancel _ _ (.decide s) => (store.heap[s]?).any fun session =>
      if session.record.complete then altered
      else !session.record.cancelled &&
        (persistFails fault || (altered && !(checkpoints store.disk session.id session.record fault).isOk))
  | .register request .respond => !(checkpoints store.disk request.id request.record fault).isOk
  | _ => false

-- A receiver with an account of the calls one of whose own steps has altered
-- memory, and of those that have taken a step that leaves a trace.
structure Audit where
  state : State
  altered : List Nat
  traced : List Nat

def audit (sha256 : Bytes → String) (w : Audit) (label : Label) : Option Audit :=
  (step sha256 w.state label).map fun next =>
    match label with
    | .call _ | .start => ⟨next, w.altered, w.traced⟩
    | .crash => ⟨next, [], []⟩
    | .advance o fault =>
        ⟨next, if next.store.memory ≠ w.state.store.memory then o :: w.altered else w.altered,
          if (w.state.ops[o]?).any (·.traces w.state.store fault (w.altered.contains o)) then o :: w.traced
          else w.traced⟩

def Label.stepOf (o : Nat) : Label → Bool
  | .advance p _ => p == o
  | _ => false

-- Where a call stands: it has altered memory or it has left a trace.
def Op.Tally (altered traced : Prop) : Op → Prop
  | .accept _ (.leave _ reply) | .accept _ (.done reply) => reply.isOk = false → (altered ↔ traced)
  | .accept _ _ => ¬ altered ∧ ¬ traced
  | .reject _ (.leave _ reply) | .reject _ (.done reply) => reply.isOk = false → (altered ↔ traced)
  | .reject _ (.announce _) => True
  | .reject _ _ => ¬ altered ∧ ¬ traced
  | .cancel _ _ (.leave _ reply) | .cancel _ _ (.done reply) => reply.isOk = false → (altered ↔ traced)
  | .cancel _ _ (.discard _ _ _) => True
  | .cancel _ _ (.lock _) | .cancel _ _ (.decide _) => ¬ traced
  | .cancel _ _ _ => ¬ altered ∧ ¬ traced
  | .register _ .respond => altered ∧ ¬ traced
  | .register _ (.retire reply) | .register _ (.done reply) => reply.code ≠ 200 → (altered ↔ traced)
  | .register _ _ => ¬ altered ∧ ¬ traced
  | _ => True

theorem apply_place (store : Store) (o : Nat) (act : Act) (noInsert : ∀ record, act ≠ .insert record)
    (t : Nat) :
    (store.apply o act).heap[t]? = (store.heap[t]?).map (act.on o t) := by
  cases here : store.heap[t]? with
  | none =>
      have bound : store.heap.length ≤ t := List.getElem?_eq_none_iff.mp here
      exact List.getElem?_eq_none_iff.mpr (by rw [apply_length store o act noInsert]; exact bound)
  | some session => exact apply_heap store o act t session here

def Act.altersMemory : Act → Bool
  | .trip _ | .assign _ _ | .persist _ _ _ | .insert _ | .evict _ => true
  | _ => false

theorem memory_same (store : Store) (o : Nat) (act : Act) (noInsert : ∀ record, act ≠ .insert record)
    (noEvict : ∀ id, act ≠ .evict id) (kept : ∀ s session, store.heap[s]? = some session →
      (act.on o s session).record = session.record ∧ (act.on o s session).cancel = session.cancel) :
    (store.apply o act).memory = store.memory := by
  refine Prod.ext (congrArg AList.entries (apply_sessions store o act noInsert noEvict))
    (List.ext_getElem? fun t => ?_)
  simp only [Store.memory, List.getElem?_map, apply_place store o act noInsert t, Option.map_map]
  cases here : store.heap[t]? with
  | none => rfl
  | some session => simp [kept t session here]

theorem quiet_memory (store : Store) (o : Nat) (act : Act) (quiet : act.altersMemory = false) :
    (store.apply o act).memory = store.memory := by
  refine memory_same store o act (fun record isInsert => ?_) (fun id isEvict => ?_) fun t session at_ => ?_
  · rw [isInsert] at quiet
    cases quiet
  · rw [isEvict] at quiet
    cases quiet
  · cases act <;> first
      | exact ⟨rfl, rfl⟩
      | exact Bool.noConfusion quiet
      | (simp only [Act.on]; split <;> exact ⟨rfl, rfl⟩)

theorem persist_memory_iff (store : Store) (o s : Nat) (session : Session) (record : Record) (saved : Bool)
    (here : store.heap[s]? = some session) :
    (store.apply o (.persist s record saved)).memory = store.memory ↔ record = session.record := by
  constructor
  · intro same
    have place := congrArg (·.2[s]?) same
    simp only [Store.memory, List.getElem?_map, apply_place store o (.persist s record saved) (by simp) s,
      here] at place
    simpa [Act.on] using place
  · rintro rfl
    refine memory_same store o _ (by simp) (by simp) fun t other at_ => ?_
    by_cases same : t = s
    · subst same
      obtain rfl := Option.some.inj (here.symm.trans at_)
      simp [Act.on]
    · simp [Act.on, same]

theorem insert_alters (store : Store) (o : Nat) (record : Record) :
    (store.apply o (.insert record)).memory ≠ store.memory := by
  intro same
  have lengths := congrArg (·.2.length) same
  simp [Store.memory, Store.apply] at lengths

section Tally

variable (store : Store) (o : Nat) (fault : Option Fault) (act : Act) (log : List Entry) (altered : Bool)
    (traced : Prop)

theorem accept_tally (id : String) (phase next : AcceptPhase)
    (moved : AcceptMove id store fault phase act log next)
    (tally : (Op.accept id phase).Tally (altered = true) traced) :
    (Op.accept id next).Tally ((store.apply o act).memory ≠ store.memory ∨ altered = true)
      ((Op.accept id phase).traces store fault altered = true ∨ traced) := by
  cases moved with
  | failed s session saved here open_ broken =>
      intro _
      have alters :
        (store.apply o (.persist s { session.record with decision := .accepted } saved)).memory ≠
        store.memory ↔
          session.record.decision ≠ .accepted := by
        rw [ne_eq, persist_memory_iff store o s session _ saved here]
        exact not_congr ⟨fun same => by rw [← same], fun same => by rw [← same]⟩
      subst broken
      simp [alters, Op.traces, here, persistFails, open_, tally.1, tally.2]
  | accepted s session here open_ ok =>
      intro failed
      cases failed
  | refuse s session e here ended ok =>
      rw [quiet_memory store o _ rfl]
      subst ok
      simp [Op.Tally, Op.traces, here, persistFails, tally.1, tally.2]
  | missing absent =>
      rw [quiet_memory store o _ rfl]
      simp [Op.Tally, Op.traces, tally.1, tally.2]
  | _ =>
      rw [quiet_memory store o _ rfl]
      simpa [Op.Tally, Op.traces] using tally

theorem reject_tally (id : String) (phase next : RejectPhase)
    (moved : RejectMove id store fault phase act log next)
    (tally : (Op.reject id phase).Tally (altered = true) traced) :
    (Op.reject id next).Tally ((store.apply o act).memory ≠ store.memory ∨ altered = true)
      ((Op.reject id phase).traces store fault altered = true ∨ traced) := by
  cases moved with
  | failed s session saved here undecided broken =>
      intro _
      have alters :
        (store.apply o (.persist s { session.record with decision := .rejected } saved)).memory ≠
        store.memory := by
        rw [ne_eq, persist_memory_iff store o s session _ saved here]
        intro same
        rw [← same] at undecided
        cases undecided
      subst broken
      exact iff_of_true (.inl alters) (.inl (by simp [Op.traces, here, persistFails, undecided]))
  | rejected s session here undecided ok => trivial
  | announced s session here =>
      intro failed
      cases failed
  | refuse s session e here decided ok =>
      rw [quiet_memory store o _ rfl]
      subst ok
      simp [Op.Tally, Op.traces, here, persistFails, tally.1, tally.2]
  | missing absent =>
      rw [quiet_memory store o _ rfl]
      simp [Op.Tally, Op.traces, tally.1, tally.2]
  | _ =>
      rw [quiet_memory store o _ rfl]
      simpa [Op.Tally, Op.traces] using tally

theorem cancel_tally (caller : Option Peer) (id : String) (phase next : CancelPhase)
    (moved : CancelMove caller id store fault phase act log next)
    (tally : (Op.cancel caller id phase).Tally (altered = true) traced) :
    (Op.cancel caller id next).Tally ((store.apply o act).memory ≠ store.memory ∨ altered = true)
      ((Op.cancel caller id phase).traces store fault altered = true ∨ traced) := by
  cases moved with
  | failed s session saved here open_ broken =>
      intro _
      have alters : (store.apply o (.persist s { session.record with cancelled := true } saved)).memory ≠
        store.memory := by
        rw [ne_eq, persist_memory_iff store o s session _ saved here]
        intro same
        rw [← same] at open_
        cases open_.2
      subst broken
      exact iff_of_true (.inl alters) (.inl (by simp [Op.traces, here, persistFails, open_]))
  | unreadable s session e here open_ broken noPersist =>
      rw [quiet_memory store o _ rfl]
      have unstruck : persistFails fault = false := by rcases noPersist with rfl | rfl <;> rfl
      have untraced : ¬ traced := tally
      simp [Op.Tally, Op.traces, here, open_, broken, unstruck, untraced, Except.isOk, Except.toBool]
  | complete s session here ended ok =>
      rw [quiet_memory store o _ rfl]
      have untraced : ¬ traced := tally
      simp [Op.Tally, Op.traces, here, ended, untraced]
  | repeated s session here open_ ended ok =>
      intro failed
      cases failed
  | cancelled s session points here open_ read ok => trivial
  | discarded s session file rest bytes here => trivial
  | announced s session bytes here =>
      intro failed
      cases failed
  | tripped s => simpa [Op.Tally, Op.traces] using tally.2
  | unknown phase early absent =>
      rw [quiet_memory store o _ rfl]
      rcases early with rfl | rfl <;> simp [Op.Tally, Op.traces, tally.1, tally.2]
  | tooLate s session here finished =>
      rw [quiet_memory store o _ rfl]
      simp [Op.Tally, Op.traces, tally.1, tally.2]
  | _ =>
      rw [quiet_memory store o _ rfl]
      simpa [Op.Tally, Op.traces] using tally

theorem snapshot_failed (disk : ReceiverDisk) (id : String) (record : Record) :
    (snapshotResponse (snapshot disk id record fault)).code = 200 ↔
    (checkpoints disk id record fault).isOk = true := by
  unfold snapshot
  cases checkpoints disk id record fault with
  | ok points => simp [snapshotResponse, Except.isOk, Except.toBool]
  | error e => cases e <;> simp [snapshotResponse, errorResponse, Except.isOk, Except.toBool]

theorem register_tally (request : RegisterRequest) (phase next : RegisterPhase)
    (moved : RegisterMove request store fault phase act log next)
    (tally : (Op.register request phase).Tally (altered = true) traced) :
    (Op.register request next).Tally ((store.apply o act).memory ≠ store.memory ∨ altered = true)
      ((Op.register request phase).traces store fault altered = true ∨ traced) := by
  cases moved with
  | inserted =>
      refine ⟨.inl (insert_alters store o request.record), ?_⟩
      simpa [Op.traces] using tally.2
  | responded =>
      intro failed
      have unreadable : (checkpoints store.disk request.id request.record fault).isOk = false := by
        simpa [snapshot_failed] using failed
      simp [tally.1, Op.traces, unreadable]
  | retired reply =>
      rw [quiet_memory store o _ rfl]
      simpa [Op.Tally, Op.traces] using tally
  | left s reply =>
      rw [quiet_memory store o _ rfl]
      simp [Op.Tally, Op.traces, tally.1, tally.2]
  | _ =>
      rw [quiet_memory store o _ rfl]
      simp [Op.Tally, Op.traces, tally.1, tally.2]

end Tally

theorem move_tally (sha256 : Bytes → String) (store : Store) (o : Nat) (fault : Option Fault) (op op' : Op)
    (act : Act) (log : List Entry) (moved : OpMove sha256 store fault op act log op') (altered : Bool)
    (traced : Prop) (tally : op.Tally (altered = true) traced) :
    op'.Tally ((store.apply o act).memory ≠ store.memory ∨ altered = true)
    (op.traces store fault altered = true ∨ traced) := by
  cases moved with
  | accept id phase next act log moved =>
      exact accept_tally store o fault act log altered traced id phase next moved tally
  | reject id phase next act log moved =>
      exact reject_tally store o fault act log altered traced id phase next moved tally
  | cancel caller id phase next act log moved =>
      exact cancel_tally store o fault act log altered traced caller id phase next moved tally
  | register request phase next act log moved =>
      exact register_tally store o fault act log altered traced request phase next moved tally
  | forget id phase next act log moved => trivial
  | status peer id phase next act log moved => trivial
  | upload request phase next act log moved => trivial

-- The accounts of every call, and that they name no call to come.
structure Audit.Sound (w : Audit) : Prop where
  each : ∀ (o : Nat) (op : Op), w.state.ops[o]? = some op → op.Tally (o ∈ w.altered) (o ∈ w.traced)
  started : ∀ o, o ∈ w.altered ∨ o ∈ w.traced → o < w.state.ops.length

theorem call_tally (call : Call) (altered traced : Prop) (fresh : ¬ altered ∧ ¬ traced) :
    call.op.Tally altered traced := by
  cases call with
  | cancel caller id => cases caller <;> exact fresh
  | _ => first | exact fresh | trivial

theorem mem_noted (o p : Nat) (noted : List Nat) (note : Prop) [Decidable note] :
    p ∈ (if note then o :: noted else noted) ↔ (note ∧ p = o) ∨ p ∈ noted := by
  by_cases holds : note <;> simp [holds]

theorem audit_sound (sha256 : Bytes → String) (w next : Audit) (label : Label) (tallied : w.Sound)
    (watched : audit sha256 w label = some next) : next.Sound := by
  obtain ⟨after, stepped, rfl⟩ := Option.map_eq_some_iff.mp watched
  rcases step_cases sha256 w.state after label stepped with ⟨call, rfl, _, rfl⟩ |
    ⟨o, fault, op, act, log, op', rfl, here, moved, rfl⟩ |
    ⟨rfl, _, rfl⟩ | ⟨store, rfl, _, _, rfl⟩
  · refine ⟨fun p op there => ?_, fun p named => ?_⟩
    · by_cases new : p = w.state.ops.length
      · subst new
        obtain rfl : op = call.op := by simpa using there.symm
        exact call_tally call _ _ ⟨fun named => (tallied.started _ (.inl named)).false,
          fun named => (tallied.started _ (.inr named)).false⟩
      · exact tallied.each p op (Transition.append_old w.state.ops p call.op op there new)
    · have before := tallied.started p named
      simp only [List.length_append, List.length_singleton]
      omega
  · have bound : o < w.state.ops.length := (List.getElem?_eq_some_iff.mp here).1
    have carried := move_tally sha256 w.state.store o fault op op' act log moved (w.altered.contains o)
      (o ∈ w.traced) (by simpa using tallied.each o op here)
    refine ⟨fun p q there => ?_, fun p named => ?_⟩
    · simp only [mem_noted, here, Option.any_some]
      rcases Transition.set_cases w.state.ops o p op' q there with ⟨rfl, rfl⟩ | ⟨other, before⟩
      · simpa using carried
      · simpa [other] using tallied.each p q before
    · simp only [mem_noted] at named
      simp only [List.length_set]
      rcases named with (⟨_, rfl⟩ | before) | ⟨_, rfl⟩ | before
      · exact bound
      · exact tallied.started p (.inl before)
      · exact bound
      · exact tallied.started p (.inr before)
  · exact ⟨fun p op there => (by cases there),
      fun p named => (by rcases named with named | named <;> cases named)⟩
  · exact ⟨tallied.each, tallied.started⟩

theorem tally_failed (op : Op) (altered traced : Prop) (tally : op.Tally altered traced)
    (failed : op.failed = some true) :
    altered ↔ traced := by
  cases op with
  | accept id phase =>
      cases phase with
      | done reply => exact tally (by simpa [Op.failed] using failed)
      | _ => cases failed
  | reject id phase =>
      cases phase with
      | done reply => exact tally (by simpa [Op.failed] using failed)
      | _ => cases failed
  | cancel caller id phase =>
      cases phase with
      | done reply => exact tally (by simpa [Op.failed] using failed)
      | _ => cases failed
  | register request phase =>
      cases phase with
      | done reply => exact tally (by simpa [Op.failed] using failed)
      | _ => cases failed
  | _ => cases failed

theorem unaltered_alone (sha256 : Bytes → String) (o : Nat) (before after : Audit)
    (alone : Transition.Run (audit sha256) (fun _ label => label.stepOf o = true) before after)
    (unaltered : o ∉ after.altered) : after.state.store.memory = before.state.store.memory := by
  induction alone with
  | refl => rfl
  | tail middle final label _ own watched ih =>
      obtain ⟨next, _, rfl⟩ := Option.map_eq_some_iff.mp watched
      cases label with
      | advance p fault =>
          obtain rfl : p = o := beq_iff_eq.mp own
          simp only [mem_noted, and_true, not_or, not_not] at unaltered
          exact unaltered.1.trans (ih unaltered.2)
      | _ => cases own

-- Whatever else runs between its steps, a call that fails has left memory alone
-- exactly when none of its steps leaves a trace.
theorem failed_calls_leave_memory_alone_iff (sha256 : Bytes → String) (start : State) (w : Audit)
    (initial : Initial start) (run : Transition.Run (audit sha256) (fun _ _ => True) ⟨start, [], []⟩ w)
    (o : Nat) (op : Op) (here : w.state.ops[o]? = some op) (failed : op.failed = some true) :
    (o ∉ w.altered ↔ o ∉ w.traced) ∧
    ∀ before, Transition.Run (audit sha256) (fun _ label => label.stepOf o = true) before w → o ∉ w.altered →
      w.state.store.memory = before.state.store.memory := by
  have none_ : (⟨start, [], []⟩ : Audit).Sound := by
    refine ⟨fun p op there => ?_, fun p named => by rcases named with named | named <;> cases named⟩
    rw [show (⟨start, [], []⟩ : Audit).state.ops = [] from initial.idle] at there
    cases there
  have tallied : w.Sound := Transition.run_invariant (audit sha256) _ Audit.Sound
    (fun w label next good _ watched => audit_sound sha256 w next label good watched) _ w run none_
  exact ⟨not_congr (tally_failed op _ _ (tallied.each o op here) failed),
    fun before alone => unaltered_alone sha256 o before w alone⟩

-- An accepted session is not rejected, and the refusal leaves no trace.
theorem refused_reject_leaves_memory_alone : ∃ w op, Transition.Run (audit emptyHash) (fun _ _ => True)
    ⟨emptyState, [], []⟩ w ∧
    w.state.ops[1]? = some op ∧ op.failed = some true ∧ 1 ∉ w.altered := by
  obtain ⟨w, run, checked⟩ := Transition.replay_reaches (audit emptyHash) (fun _ _ => True)
    (.start :: .call (.register (smallRegister true)) :: advances 0 7 ++ .call (.reject smallId) ::
    advances 1 4) ⟨emptyState, [], []⟩
    (fun w => (w.state.ops[1]?).any fun op => op.failed == some true && !w.traced.contains 1)
    (by decide +kernel)
  obtain ⟨op, here, checked⟩ := (Option.any_eq_true _ _).mp checked
  simp only [Bool.and_eq_true, beq_iff_eq, Bool.not_eq_true', List.contains_eq_mem,
    decide_eq_false_iff_not] at checked
  exact ⟨w, op, run, here, checked.1,
    (failed_calls_leave_memory_alone_iff emptyHash emptyState w empty_initial run 1 op here checked.1).1.mpr
    checked.2⟩

def acceptStarts : Option Op → Bool
  | some (.accept id .lookup) => id == smallId
  | _ => false

theorem accept_starts (op : Option Op) (starts : acceptStarts op = true) :
    op = some (Call.accept smallId).op := by
  unfold acceptStarts at starts
  split at starts
  · rw [beq_iff_eq.mp starts]
    rfl
  · cases starts

-- The persist of accept_transfer fails: Err is returned, but the session counts as accepted.
theorem failed_accept_accepts : ∃ start before w op, Initial start ∧ Transition.Run (audit emptyHash)
    (fun _ _ => True) ⟨start, [], []⟩ before ∧
    before.state.ops[1]? = some (Call.accept smallId).op ∧
    Transition.Run (audit emptyHash) (fun _ label => label.stepOf 1 = true) before w ∧
      w.state.ops[1]? = some op ∧
    op.failed = some true ∧ w.state.store.memory ≠ before.state.store.memory := by
  obtain ⟨before, run, checked⟩ := Transition.replay_reaches (audit emptyHash) (fun _ _ => True)
    (.start :: .call (.register (smallRegister false)) :: advances 0 7 ++ [.call (.accept smallId)])
    ⟨emptyState, [], []⟩
    (fun before => acceptStarts before.state.ops[1]? &&
    (Transition.replay (audit emptyHash) (fun _ label => Label.stepOf 1 label = true) before
      [.advance 1 none, .advance 1 none, .advance 1 (some (.persist false)), .advance 1 none]).any fun w =>
        (w.state.ops[1]?).any (·.failed == some true) &&
          decide (w.state.store.memory ≠ before.state.store.memory)) (by decide +kernel)
  obtain ⟨starts, checked⟩ := Bool.and_eq_true _ _ |>.mp checked
  obtain ⟨w, alone, checked⟩ :=
    Transition.replay_reaches (audit emptyHash) (fun _ label => Label.stepOf 1 label = true) _ before _
      checked
  obtain ⟨failed, changed⟩ := Bool.and_eq_true _ _ |>.mp checked
  obtain ⟨op, here, failed⟩ := (Option.any_eq_true _ _).mp failed
  exact ⟨emptyState, before, w, op, empty_initial, run, accept_starts _ starts, alone, here,
    beq_iff_eq.mp failed, of_decide_eq_true changed⟩

end GoshTransfer
