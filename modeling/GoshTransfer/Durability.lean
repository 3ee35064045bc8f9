import GoshTransfer.Coherence

set_option autoImplicit false

namespace GoshTransfer

open InodeStore

-- A stopped receiver has its sessions in the journals only.
structure Refines (state : State) (catalogue : Catalogue) : Prop where
  running : catalogue.running = state.running
  sessions : state.running = true → catalogue.sessions = state.store.view
  stored : state.running = false →
    ∀ id, catalogue.sessions id = (state.store.disk.doc (journalPath id)).map Record.standing
  length : catalogue.calls.length = state.ops.length
  waiting : ∀ (o : Nat) (op : Op), state.ops[o]? = some op → op.taken = false →
    catalogue.calls[o]? = some (op.call, none)
  answered : ∀ (o : Nat) (op : Op), state.ops[o]? = some op → op.taken = true →
    ∃ finding, catalogue.calls[o]? = some (op.call, some finding) ∧ op.Found finding

theorem call_call (call : Call) : call.op.call = call ∧ call.op.taken = false := by
  cases call with
  | cancel caller id => cases caller <;> exact ⟨rfl, rfl⟩
  | _ => exact ⟨rfl, rfl⟩

theorem moved_call (sha256 : Bytes → String) (store : Store) (fault : Option Fault) (op op' : Op)
    (act : Act) (log : List Entry) (moved : OpMove sha256 store fault op act log op') :
    op'.call = op.call := by
  cases moved <;> rfl

section Advance

variable (sha256 : Bytes → String) (state : State) (coherent : Coherent state) (o : Nat)
    (fault : Option Fault) (op op' : Op) (act : Act)
  (log : List Entry) (here : state.ops[o]? = some op) (peace : peaceful state (.advance o fault) = true)
  (raw : op.next sha256 state.store fault = some (act, log, op'))

include coherent here peace raw

omit peace in
theorem foreign_found (caller : Option Peer) (id : String) (phase : CancelPhase)
    (isCancel : op = .cancel caller id phase) (foreign : op' = .cancel caller id .foreign) :
    ∃ standing, state.store.view id = some standing ∧ ¬ mayCancel caller standing := by
  have base := coherent.guarded.base
  subst isCancel foreign
  have opening : phase = .authorize := by
    have moved := op_next_move sha256 state.store fault _ _ act log raw
    cases moved with
    | cancel _ _ _ _ _ _ inner =>
        cases inner
        rfl
  subst opening
  simp only [Op.next, Option.map_eq_some_iff, Prod.exists, Prod.mk.injEq, Op.cancel.injEq, true_and] at raw
  obtain ⟨_, _, next, raw, _, _, rfl⟩ := raw
  simp only [CancelPhase.next] at raw
  split at raw
  · obtain ⟨_, _, _, equal⟩ := (plain_eq_some _ _ _ _ _ _ _).mp raw
    cases equal
  · rename_i s present
    obtain ⟨session, at_, raw⟩ := Option.bind_eq_some_iff.mp raw
    split at raw
    · obtain ⟨_, _, _, equal⟩ := (plain_eq_some _ _ _ _ _ _ _).mp raw
      cases equal
    · rename_i different
      refine ⟨_, sessions_at state id s session present at_, ?_⟩
      cases caller with
      | none => exact absurd rfl (coherent.remote o none id here)
      | some peer =>
          intro allowed
          have same : session.record.owner = owner peer := allowed peer rfl
          rw [(base.sound s session at_).owned, same] at different
          exact different rfl

theorem advance_linearizes : Linearizes state.store.view (state.store.apply o act).view op op' := by
  have base := coherent.guarded.base
  have facts := base.facts o op here
  have moved := op_next_move sha256 state.store fault op op' act log raw
  have unbroken := peaceful_persists state o fault peace
  have current : (∀ id reply s, op ≠ .forget id (.leave s reply)) → ∀ s, op.session = some s →
    state.store.sessions.lookup op.id = some s :=
    fun kind s known => coherent.current o op s here known fun id reply => kind id reply s
  have known : ∀ s session, op.session = some s → state.store.heap[s]? = some session →
    session.id = op.id := by
    intro s session refers at_
    obtain ⟨session', at', named⟩ := base.known o op s here refers
    obtain rfl := Option.some.inj (at_.symm.trans at')
    exact named
  cases moved with
  | accept id phase next _ _ moved =>
      exact accept_linearizes state base o fault act log id phase next unbroken
        (current (by simp)) known moved
  | reject id phase next _ _ moved =>
      exact reject_linearizes state base o fault act log id phase next unbroken
        (current (by simp)) known moved
  | cancel caller id phase next _ _ moved =>
      have vetted : ∀ s session, phase.session = some s → state.store.heap[s]? = some session →
        mayCancel caller session.record.standing := by
        rintro s session refers at_ peer rfl
        obtain ⟨t, holder, present, there, owned⟩ :=
        coherent.vetted o peer id phase here (.inr (by simp [refers]))
        obtain rfl := Option.some.inj ((current (by simp) s refers).symm.trans present)
        obtain rfl := Option.some.inj (at_.symm.trans there)
        exact owned
      exact cancel_linearizes state base o fault act log caller id phase next unbroken
        (current (by simp)) known vetted
        (fun same => foreign_found sha256 state coherent o fault _ _ act log here raw caller id phase rfl
        (by rw [same])) moved
  | forget id phase next _ _ moved =>
      exact forget_linearizes state base o fault act log id phase next facts moved
  | register request phase next _ _ moved =>
      exact register_linearizes state base o fault act log request phase next unbroken
        (current (by simp)) facts moved
  | status peer id phase next _ _ moved =>
      exact status_linearizes state base o fault act log peer id phase next (current (by simp)) moved
  | upload request phase next _ _ moved =>
      have granted : ∀ file s session, phase.file = some file → phase.holds = some s →
        state.store.heap[s]? = some session →
          Granted request session.record file := fun file s session works held at_ =>
        coherent.guarded.admitted.granted o request phase file s session here works held at_
      exact upload_linearizes state base o fault act log sha256 request phase next unbroken
        (current (by simp)) known granted facts moved

end Advance

section Simulation

variable (sha256 : Bytes → String) (state : State) (coherent : Coherent state) (catalogue : Catalogue)
    (refines : Refines state catalogue)

include refines

theorem refines_call (call : Call) :
    Refines { state with ops := state.ops ++ [call.op] }
    { catalogue with calls := catalogue.calls ++ [(call, none)] } := by
  refine ⟨refines.running, refines.sessions, refines.stored, by simp [refines.length], ?_, ?_⟩
  · intro o op there early
    rcases Transition.append_cases state.ops o call.op op there with before | rfl
    · have old := refines.waiting o op before early
      exact (List.getElem?_append_left (List.getElem?_eq_some_iff.mp old).1).trans old
    · by_cases last : o = state.ops.length
      · rw [(call_call call).1, last, ← refines.length]
        simp
      · have old := refines.waiting o _ (Transition.append_old state.ops o call.op _ there last) early
        exact (List.getElem?_append_left (List.getElem?_eq_some_iff.mp old).1).trans old
  · intro o op there late
    rcases Transition.append_cases state.ops o call.op op there with before | rfl
    · obtain ⟨finding, old, found⟩ := refines.answered o op before late
      exact ⟨finding, (List.getElem?_append_left (List.getElem?_eq_some_iff.mp old).1).trans old, found⟩
    · rw [(call_call call).2] at late
      cases late

include coherent

theorem refines_advance (o : Nat) (fault : Option Fault) (op op' : Op) (act : Act) (log : List Entry)
    (here : state.ops[o]? = some op) (peace : peaceful state (.advance o fault) = true)
    (raw : op.next sha256 state.store fault = some (act, log, op')) :
    ∃ after, Relation.ReflGen Catalogue.Move catalogue after ∧
      Refines { state with store := state.store.apply o act, ops := state.ops.set o op', log := state.log ++ log } after := by
  have running := base_running state coherent.guarded.base o op here
  have within : o < catalogue.calls.length := refines.length ▸ (List.getElem?_eq_some_iff.mp here).1
  have same := moved_call sha256 state.store fault op op' act log
    (op_next_move sha256 state.store fault op op' act log raw)
  have stopped : state.running = false →
    ∀ id, catalogue.sessions id = ((state.store.apply o act).disk.doc (journalPath id)).map Record.standing :=
    fun stopped => Bool.noConfusion (running.symm.trans stopped)
  cases advance_linearizes sha256 state coherent o fault op op' act log here peace raw with
  | silent early still unchanged =>
      refine ⟨catalogue, .refl, refines.running, fun up => (refines.sessions up).trans unchanged.symm,
        stopped, by simp [refines.length], ?_, ?_⟩
      · intro p q there earlyQ
        rcases Transition.set_cases state.ops o p op' q there with ⟨rfl, rfl⟩ | ⟨_, before⟩
        · rw [same]
          exact refines.waiting p op here early
        · exact refines.waiting p q before earlyQ
      · intro p q there late
        rcases Transition.set_cases state.ops o p op' q there with ⟨rfl, rfl⟩ | ⟨_, before⟩
        · rw [still] at late
          cases late
        · exact refines.answered p q before late
  | takes early late finding standing found allowed changed =>
      have waiting := refines.waiting o op here early
      rw [← refines.sessions running] at allowed changed
      refine ⟨_, .single (.take catalogue o op.call finding standing waiting allowed), refines.running,
        fun _ => changed.symm,
        fun down => Bool.noConfusion (running.symm.trans down), by simp [refines.length], ?_, ?_⟩
      · intro p q there earlyQ
        rcases Transition.set_cases state.ops o p op' q there with ⟨rfl, rfl⟩ | ⟨other, before⟩
        · rw [late] at earlyQ
          cases earlyQ
        · exact (List.getElem?_set_ne fun equal => other equal.symm).trans (refines.waiting p q before earlyQ)
      · intro p q there lateQ
        rcases Transition.set_cases state.ops o p op' q there with ⟨rfl, rfl⟩ | ⟨other, before⟩
        · exact ⟨finding, by rw [same]; exact List.getElem?_set_self within, found⟩
        · obtain ⟨earlier, old, foundQ⟩ := refines.answered p q before lateQ
          exact ⟨earlier, (List.getElem?_set_ne fun equal => other equal.symm).trans old, foundQ⟩
  | keeps late still carried unchanged =>
      refine ⟨catalogue, .refl, refines.running, fun up => (refines.sessions up).trans unchanged.symm,
        stopped, by simp [refines.length], ?_, ?_⟩
      · intro p q there earlyQ
        rcases Transition.set_cases state.ops o p op' q there with ⟨rfl, rfl⟩ | ⟨_, before⟩
        · rw [still] at earlyQ
          cases earlyQ
        · exact refines.waiting p q before earlyQ
      · intro p q there lateQ
        rcases Transition.set_cases state.ops o p op' q there with ⟨rfl, rfl⟩ | ⟨_, before⟩
        · obtain ⟨finding, old, found⟩ := refines.answered p op here late
          exact ⟨finding, same ▸ old, carried finding found⟩
        · exact refines.answered p q before lateQ

theorem refines_crash (running : state.running = true) :
    ∃ after, Catalogue.Move catalogue after ∧
      Refines { state with store := .empty state.store.disk, ops := [], running := false } after := by
  have base := coherent.guarded.base
  refine ⟨_, .crash catalogue (fun id => (state.store.disk.doc (journalPath id)).map Record.standing) ?_,
    ⟨rfl, by simp, fun _ _ => rfl, rfl, by simp, by simp⟩⟩
  intro id
  rw [refines.sessions running]
  cases found : state.store.sessions.lookup id with
  | none =>
      have absent := sessions_absent state id found
      cases written : state.store.disk.doc (journalPath id) with
      | none => exact .inl absent.symm
      | some record =>
          obtain ⟨o, request, inserting, named⟩ := coherent.covered running id record found written
          have journal := coherent.guarded.owned.inserting o request inserting
          rw [named, written] at journal
          obtain rfl := Option.some.inj journal
          exact .inr ⟨o, .register request, refines.waiting o _ inserting rfl,
            .registered request named absent (base.facts o _ inserting).1⟩
  | some s =>
      obtain ⟨session, here, _⟩ := base.mapped id s found
      have view := sessions_at state id s session found here
      rcases coherent.journaled id s session found here with ⟨o, forgetting⟩ | ⟨journal, written, agreed⟩
      · rw [coherent.erased o id s forgetting]
        have ended := (base.facts o _ forgetting).2 session here
        exact .inr ⟨o, .forget id, refines.waiting o _ forgetting rfl,
          .forgotten session.record.standing view ended⟩
      · rw [written, view]
        exact .inl (congrArg some agreed)

theorem refines_start (store : Store) (stopped : state.running = false)
    (loaded : Store.load state.store.disk = .ok store) :
    Refines { state with store := store, running := true } { catalogue with running := true } := by
  have base := coherent.guarded.base
  have idle := (base.stopped stopped).1
  have spec := load_loaded state.store.disk store loaded
  refine ⟨rfl, fun _ => ?_, by simp, refines.length, by simp [idle], by simp [idle]⟩
  funext id
  rw [refines.stored stopped id]
  cases found : store.sessions.lookup id with
  | some s =>
      obtain ⟨record, here, _, journal⟩ := spec.mapped id s found
      simp [Store.view, found, here, journal, Session.new]
  | none =>
      cases written : state.store.disk.doc (journalPath id) with
      | none => simp [Store.view, found]
      | some record =>
          obtain ⟨s, present, _⟩ :=
            spec.covered id record (journal_named state base id record written).2 written
          rw [found] at present
          cases present

theorem refines_step (next : State) (label : Label) (peace : peaceful state label = true)
    (stepped : step sha256 state label = some next) :
    ∃ after, Relation.ReflGen Catalogue.Move catalogue after ∧ Refines next after := by
  by_cases advancing : ∃ o fault, label = .advance o fault
  · obtain ⟨o, fault, rfl⟩ := advancing
    obtain ⟨op, act, log, op', here, raw, rfl⟩ := step_advance sha256 state next o fault stepped
    exact refines_advance sha256 state coherent catalogue refines o fault op op' act log here peace raw
  · rcases step_cases sha256 state next label stepped with ⟨call, _, running, rfl⟩ |
      ⟨o, fault, _, _, _, _, rfl, _⟩ | ⟨_, running, rfl⟩ |
      ⟨store, _, stopped, loaded, rfl⟩
    · exact ⟨_, .single (.call catalogue call (refines.running.trans running)),
        refines_call state catalogue refines call⟩
    · exact absurd ⟨o, fault, rfl⟩ advancing
    · obtain ⟨after, moved, refined⟩ := refines_crash state coherent catalogue refines running
      exact ⟨after, .single moved, refined⟩
    · exact ⟨_, .single (.start catalogue (refines.running.trans stopped)),
        refines_start state coherent catalogue refines store stopped loaded⟩

end Simulation

theorem initial_refines (state : State) (initial : Initial state) : Refines state .empty := by
  refine ⟨initial.stopped.symm, by simp [initial.stopped], fun _ id => ?_,
    by simp [initial.idle, Catalogue.empty], by simp [initial.idle],
    by simp [initial.idle]⟩
  simp [initial.noJournal, Catalogue.empty]

theorem peaceful_run_refines (sha256 : Bytes → String) (start state : State) (initial : Initial start)
    (run : Transition.Run (step sha256) (fun state label => peaceful state label = true) start state) :
    Coherent state ∧ ∃ catalogue, Relation.ReflTransGen Catalogue.Move .empty catalogue ∧
      Refines state catalogue := by
  have guarded := run_guarded sha256 start start initial .refl
  refine Refinement.run_refines (step sha256) _ Catalogue.Move Coherent Refines ?_ start state run
    (initial_coherent start initial guarded) .empty (initial_refines start initial)
  intro state label next catalogue coherent refines peace stepped
  obtain ⟨after, moved, refined⟩ :=
    refines_step sha256 state coherent catalogue refines next label peace stepped
  exact ⟨coherent_step sha256 state next label coherent peace stepped, after, moved.to_reflTransGen, refined⟩

-- Every run of the durable store, cut at its locks and its disk writes and ended
-- by any number of crashes, is a run of the catalogue: each further step is one
-- of its moves or none.
theorem store_refines_catalogue (sha256 : Bytes → String) (start state : State) (initial : Initial start)
    (run : Transition.Run (step sha256) (fun state label => peaceful state label = true) start state) :
    (∃ catalogue, Relation.ReflTransGen Catalogue.Move .empty catalogue ∧ Refines state catalogue) ∧
      ∀ catalogue label next, Refines state catalogue → peaceful state label = true →
        step sha256 state label = some next →
        ∃ after, Relation.ReflGen Catalogue.Move catalogue after ∧ Refines next after := by
  obtain ⟨coherent, reached⟩ := peaceful_run_refines sha256 start state initial run
  refine ⟨reached, ?_⟩
  intro catalogue label next refines peace stepped
  exact refines_step sha256 state coherent catalogue refines next label peace stepped

-- The process ends between the journal and the map of a registration, and the
-- next one finds the session.
theorem registration_lands : ∃ (state : State) (catalogue : Catalogue),
    Transition.Run (step emptyHash) (fun state label => peaceful state label = true) emptyState state ∧
      Relation.ReflTransGen Catalogue.Move .empty catalogue ∧ Refines state catalogue ∧
        catalogue.sessions smallId ≠ none := by
  obtain ⟨state, run, checked⟩ :=
    Transition.replay_reaches (step emptyHash) (fun state label => peaceful state label = true)
    (.start :: .call (.register (smallRegister false)) :: advances 0 4 ++ [.crash, .start]) emptyState
    (fun state => state.running && (state.store.view smallId).isSome) (by decide +kernel)
  obtain ⟨⟨catalogue, moves, refines⟩, _⟩ :=
    store_refines_catalogue emptyHash emptyState state empty_initial run
  rw [Bool.and_eq_true] at checked
  refine ⟨state, catalogue, run, moves, refines, ?_⟩
  rw [refines.sessions checked.1]
  exact Option.isSome_iff_ne_none.mp checked.2

end GoshTransfer
