import GoshTransfer.Territory

set_option autoImplicit false

namespace GoshTransfer

open InodeStore

def journals (id : String) (state : State) : Label → Bool
  | .advance o fault =>
      match state.ops[o]? with
      | some (.register request .create) =>
          request.id == id && state.store.sessions.keys.length < sessionLimit &&
            (fault == none || fault == some (.persist true))
      | _ => false
  | _ => false

section Step

variable (sha256 : Bytes → String) (state : State) (base : Base state) (owned : Owned state) (o : Nat)
    (fault : Option Fault)
variable (op op' : Op) (act : Act) (log : List Entry) (here : state.ops[o]? = some op)
variable (fresh : staleFree state (.advance o fault) = true)
    (moved : OpMove sha256 state.store fault op act log op')
include base owned here fresh moved

theorem forgotten_advance (id : String) (canonical : id.toList.length = 36)
    (forgotten : Forgotten id state.store) (unregistered : journals id state (.advance o fault) = false) :
    Forgotten id (state.store.apply o act) := by
  obtain ⟨⟨noJournal, noPart⟩, absent⟩ := forgotten
  have foreign : ∀ t session, op.holds = some t → state.store.heap[t]? = some session → session.id = id →
    act.files ≠ true := by
    rintro t session held at_ rfl files
    have present :=
    writer_current sha256 state base owned o fault op op' act log here fresh moved files t session held at_
    rw [absent] at present
    cases present
  refine ⟨⟨?_, ?_⟩, ?_⟩
  · rcases journal_cases sha256 state base o fault op op' act log here moved id with
      same | ⟨t, session, record, rfl, held, at_, same, _, _⟩ | ⟨request, rfl, rfl, rfl, _⟩ |
        ⟨t, rfl, rfl, _, now⟩
    · exact same.trans noJournal
    · exact absurd rfl (foreign t session held at_ same)
    · cases moved with
      | register _ _ _ _ _ moved =>
          generalize saved : Act.journal request.record true = act at moved
          cases moved with
          | created below ok => simp [journals, here, below, ok] at unregistered
          | createFailed written below broken =>
              cases saved
              simp [journals, here, below, broken] at unregistered
          | _ => cases saved
    · exact now
  · intro file
    rcases part_cases sha256 state base o fault op op' act log here moved id file canonical with
      same | ⟨request, t, session, declared, _, _, rfl, at_, same, _, rfl, _, _, _⟩ |
        ⟨t, session, held, at_, same, rfl, now⟩
    · exact same.trans (noPart file)
    · exact absurd rfl (foreign t session rfl at_ same)
    · exact now
  · by_cases inserted : ∃ record, act = .insert record
    · obtain ⟨record, rfl⟩ := inserted
      cases op_effect sha256 state.store fault op op' _ log moved with
      | quiet _ _ _ silent => cases silent
      | insert request =>
          have different : id ≠ request.record.pending.id := by
            rintro rfl
            have written := owned.inserting o request here
            exact absurd (written.symm.trans noJournal) (by simp)
          exact (AList.lookup_insert_ne different).trans absent
    · cases found : (state.store.apply o act).sessions.lookup id with
      | none => rfl
      | some s =>
          obtain ⟨session, at_, _⟩ := moved_mapped sha256 state base o fault op op' act log moved id s found
          have old : s < state.store.heap.length := by
            rw [← apply_length state.store o act (fun record same => inserted ⟨record, same⟩)]
            exact (List.getElem?_eq_some_iff.mp at_).1
          rw [lookup_origin sha256 state o fault op op' act log moved id s old found] at absent
          cases absent

theorem stale_harmless (s : Nat) (session : Session) (kept : op.session = some s)
    (at_ : state.store.heap[s]? = some session) (stale : state.store.sessions.lookup session.id ≠ some s) :
    (state.store.apply o act).disk.doc (journalPath session.id) =
      state.store.disk.doc (journalPath session.id) ∧
      ∀ file, (state.store.apply o act).disk.node (partPath session.id file) =
        state.store.disk.node (partPath session.id file) := by
  have idle : ∀ t, op.holds = some t → act.files ≠ true := by
    intro t held files
    obtain rfl : t = s := Option.some.inj ((holds_session op t held).symm.trans kept)
    exact stale (writer_current sha256 state base owned o fault op op' act log here fresh moved files t
      session held at_)
  have canonical := session_id_length state base s session at_
  constructor
  · rcases journal_cases sha256 state base o fault op op' act log here moved session.id with
      same | ⟨t, session', record, rfl, held, _, _, _, _⟩ | ⟨request, rfl, rfl, _, _⟩ | ⟨t, rfl, rfl, _, _⟩
    · exact same
    · exact absurd rfl (idle t held)
    · cases kept
    · exact absurd rfl (idle t rfl)
  · intro file
    rcases part_cases sha256 state base o fault op op' act log here moved session.id file canonical with
      same | ⟨request, t, session', declared, _, _, rfl, _, _, _, rfl, _, _, _⟩ |
        ⟨t, session', held, _, _, rfl, _⟩
    · exact same
    · exact absurd rfl (idle t rfl)
    · exact absurd rfl (idle t held)

end Step

theorem forgotten_step (sha256 : Bytes → String) (state next : State) (label : Label) (base : Base state)
    (owned : Owned state) (id : String) (canonical : id.toList.length = 36)
    (forgotten : Forgotten id state.store) (allowed : orderly state label = true)
    (unregistered : journals id state label = false) (stepped : step sha256 state label = some next) :
      Forgotten id next.store := by
  have fresh := orderly_fresh state label allowed
  rcases step_cases sha256 state next label stepped with ⟨call, rfl, _, rfl⟩ |
    ⟨o, fault, op, act, log, op', rfl, here, moved, rfl⟩ |
    ⟨rfl, _, rfl⟩ | ⟨store, rfl, stopped, loaded, rfl⟩
  · exact forgotten
  · exact forgotten_advance sha256 state base owned o fault op op' act log here fresh moved id canonical
      forgotten unregistered
  · exact ⟨forgotten.1, rfl⟩
  · have spec := load_loaded state.store.disk store loaded
    refine ⟨by rw [spec.same]; exact forgotten.1, ?_⟩
    cases found : store.sessions.lookup id with
    | none => rfl
    | some s =>
        obtain ⟨record, _, _, journal⟩ := spec.mapped id s found
        rw [forgotten.1.1] at journal
        cases journal

theorem forget_returned (sha256 : Bytes → String) (state next : State) (housed : Housed state) (o : Nat)
    (fault : Option Fault) (id : String) (stepped : step sha256 state (.advance o fault) = some next)
    (returned : next.ops[o]? = some (.forget id (.done (.ok ())))) : id.toList.length = 36 ∧
      Forgotten id next.store := by
  obtain ⟨op, act, log, op', here, moved, rfl⟩ := step_advance sha256 state next o fault stepped
  have within := (List.getElem?_eq_some_iff.mp here).1
  obtain rfl : op' = .forget id (.done (.ok ())) := by
    rw [List.getElem?_set_self within] at returned
    exact Option.some.inj returned
  cases op_next_move sha256 state.store fault op _ act log moved with
  | forget _ phase _ _ _ moved =>
      cases moved
      exact housed.dismissed o id _ here (.inr rfl)

-- After Ok nothing of the session is left until a register of the same id
-- writes its journal, and an operation on a forgotten session touches no file.
theorem forgetting_is_final (sha256 : Bytes → String) (start : State) (initial : Initial start) :
    (∀ (before middle final : State) (o : Nat) (fault : Option Fault) (id : String),
      Transition.Run (step sha256) (fun state label => orderly state label = true) start before →
      orderly before (.advance o fault) = true → step sha256 before (.advance o fault) = some middle →
      middle.ops[o]? = some (.forget id (.done (.ok ()))) →
      Transition.Run (step sha256)
        (fun state label => orderly state label = true ∧ journals id state label = false) middle final →
      Forgotten id final.store) ∧
    (∀ (state next : State) (o : Nat) (fault : Option Fault) (op : Op) (s : Nat) (session : Session),
      Transition.Run (step sha256) (fun state label => orderly state label = true) start state →
      orderly state (.advance o fault) = true → step sha256 state (.advance o fault) = some next →
      state.ops[o]? = some op → op.session = some s → state.store.heap[s]? = some session →
      state.store.sessions.lookup session.id ≠ some s →
      next.store.disk.doc (journalPath session.id) = state.store.disk.doc (journalPath session.id) ∧
        ∀ file, next.store.disk.node (partPath session.id file) =
          state.store.disk.node (partPath session.id file)) := by
  constructor
  · intro before middle final o fault id run allowed returns returned later
    have kempt := run_kempt sha256 start before initial run
    obtain ⟨canonical, forgotten⟩ :=
      forget_returned sha256 before middle kempt.housed o fault id returns returned
    refine (Transition.run_invariant (step sha256) _ (fun state => Kempt state ∧
      Forgotten id state.store) ?_ middle final
      later ⟨kempt_step sha256 before middle _ kempt allowed returns, forgotten⟩).2
    rintro state label next ⟨kempt, forgotten⟩ ⟨allowed, unregistered⟩ stepped
    exact ⟨kempt_step sha256 state next label kempt allowed stepped,
      forgotten_step sha256 state next label kempt.base kempt.owned id canonical forgotten allowed
      unregistered stepped⟩
  · intro state next o fault op s session run allowed stepped here kept at_ stale
    have kempt := run_kempt sha256 start state initial run
    obtain ⟨op', act, log, op'', here', moved, rfl⟩ := step_advance sha256 state next o fault stepped
    obtain rfl := Option.some.inj (here.symm.trans here')
    exact stale_harmless sha256 state kempt.base kempt.owned o fault op op'' act log here
      (orderly_fresh state _ allowed) (op_next_move sha256 state.store fault op op'' act log moved) s
      session kept at_ stale

def returnedOk (o : Nat) (state : State) : Bool :=
  match state.ops[o]? with
  | some (.forget id (.done (.ok ()))) => id == smallId
  | _ => false

-- The step with which forget of the small session returns Ok, and what is checked afterwards.
def forgets (o : Nat) (good : State → Bool) (state : State) : Bool :=
  orderly state (.advance o none) && (step emptyHash state (.advance o none)).any fun middle =>
    returnedOk o middle && good middle

theorem forgets_sound (o : Nat) (good : State → Bool) (state : State)
    (checked : forgets o good state = true) :
    orderly state (.advance o none) = true ∧ ∃ middle, step emptyHash state (.advance o none) = some middle ∧
      middle.ops[o]? = some (.forget smallId (.done (.ok ()))) ∧ good middle = true := by
  simp only [forgets, Bool.and_eq_true, Option.any_eq_true] at checked
  obtain ⟨allowed, middle, stepped, returned, holds⟩ := checked
  refine ⟨allowed, middle, stepped, ?_, holds⟩
  unfold returnedOk at returned
  split at returned
  · rename_i id there
    rw [there, beq_iff_eq.mp returned]
  · cases returned

-- A session that is registered and cancelled while its request waits for a decision.
def abandonedRun : List Label :=
  .start :: .call (.register (smallRegister false)) :: advances 0 7 ++ .call (.cancel none smallId) ::
    advances 1 8

theorem cancelled_session_is_forgotten : ∃ before middle,
    Transition.Run (step emptyHash) (fun state label => orderly state label = true) emptyState before ∧
      step emptyHash before (.advance 2 none) = some middle ∧
        middle.ops[2]? = some (.forget smallId (.done (.ok ()))) ∧
        Forgotten smallId middle.store := by
  obtain ⟨before, run, checked⟩ :=
    Transition.replay_reaches (step emptyHash) (fun state label => orderly state label = true)
    (abandonedRun ++ .call (.forget smallId) :: advances 2 8) emptyState (forgets 2 fun _ => true)
      (by decide +kernel)
  obtain ⟨allowed, middle, stepped, returned, _⟩ := forgets_sound 2 _ before checked
  exact ⟨before, middle, run, stepped, returned,
    (forgetting_is_final emptyHash emptyState empty_initial).1 before middle middle 2 none smallId run
    allowed stepped returned .refl⟩

-- reject_transfer looks the cancelled session up, forget runs to its end, and
-- then the rejection writes the journal of the forgotten session again.
theorem late_reject_revives_journal : ∃ start before middle final o fault id, Initial start ∧
    Transition.Run (step emptyHash) (fun _ _ => True) start before ∧
      step emptyHash before (.advance o fault) = some middle ∧
      middle.ops[o]? = some (.forget id (.done (.ok ()))) ∧
        Transition.Run (step emptyHash) (fun state label => journals id state label = false) middle final ∧
          ¬ Forgotten id final.store := by
  obtain ⟨before, run, checked⟩ := Transition.replay_reaches (step emptyHash) (fun _ _ => True)
    (abandonedRun ++ .call (.reject smallId) :: advances 2 1 ++ .call (.forget smallId) :: advances 3 8)
    emptyState
    (forgets 3 fun middle => (Transition.replay (step emptyHash)
    (fun state label => journals smallId state label = false) middle
      (advances 2 2)).any fun final => (final.store.disk.doc (journalPath smallId)).isSome)
      (by decide +kernel)
  obtain ⟨_, middle, stepped, returned, revived⟩ := forgets_sound 3 _ before checked
  obtain ⟨final, later, journal⟩ :=
    Transition.replay_reaches (step emptyHash) (fun state label => journals smallId state label = false)
    (advances 2 2) middle (fun final => (final.store.disk.doc (journalPath smallId)).isSome) revived
  refine ⟨emptyState, before, middle, final, 3, none, smallId, empty_initial, run, stepped, returned, later,
    ?_⟩
  rintro ⟨⟨absent, _⟩, _⟩
  rw [absent] at journal
  cases journal

end GoshTransfer
