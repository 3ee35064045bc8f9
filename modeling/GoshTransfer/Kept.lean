import GoshTransfer.DiskEffect

set_option autoImplicit false

namespace GoshTransfer

open InodeStore

-- Runs without forget. Every session object stays in the map, and a journal
-- holds an earlier or the present state of the record in memory.
def forgetFree : Label → Bool
  | .call (.forget _) => false
  | _ => true

structure Kept (state : State) : Prop where
  noForget : ∀ (o : Nat) (id : String) (phase : ForgetPhase), state.ops[o]? ≠ some (.forget id phase)
  mapped : ∀ (s : Nat) (session : Session), state.store.heap[s]? = some session →
    state.store.sessions.lookup session.id = some s
  behind : ∀ (s : Nat) (session : Session), state.store.heap[s]? = some session →
    ∃ journal, state.store.disk.doc (journalPath session.id) = some journal ∧ journal.Forward session.record
  inserting : ∀ (o : Nat) (request : RegisterRequest), state.ops[o]? = some (.register request .insert) →
    state.store.disk.doc (journalPath request.id) = some request.record

section Advance

variable (sha256 : Bytes → String) (state : State) (base : Base state) (kept : Kept state) (o : Nat)
    (fault : Option Fault)
variable (op op' : Op) (act : Act) (log : List Entry) (here : state.ops[o]? = some op)
variable (moved : OpMove sha256 state.store fault op act log op')
include base kept here moved

omit base in
theorem kept_no_evict (id : String) : act ≠ .evict id := by
  rintro rfl
  cases op_effect sha256 state.store fault op op' _ log moved with
  | quiet _ _ _ silent => cases silent
  | evict _ s => exact kept.noForget o id _ here

theorem kept_journal (id : String) :
    (state.store.apply o act).disk.doc (journalPath id) = state.store.disk.doc (journalPath id) ∨
    (∃ s session record, act = .persist s record true ∧ state.store.heap[s]? = some session ∧
      session.id = id ∧
      session.record.Forward record ∧ (state.store.apply o act).disk.doc (journalPath id) = some record) ∨
    (∃ request, op = .register request .create ∧ act = .journal request.record true ∧ request.id = id ∧
      (state.store.apply o act).disk.doc (journalPath id) = some request.record) := by
  rcases journal_cases sha256 state base o fault op op' act log here moved id with
    same | ⟨s, session, record, saved, _, there, named, forward, now⟩ | created | ⟨s, rfl, _, _, _⟩
  · exact .inl same
  · exact .inr (.inl ⟨s, session, record, saved, there, named, forward, now⟩)
  · exact .inr (.inr created)
  · exact absurd here (kept.noForget o _ _)

theorem kept_advance :
    Kept { state with store := state.store.apply o act, ops := state.ops.set o op', log := state.log ++ log } where
  noForget := by
    intro p id phase there
    rcases Transition.set_cases state.ops o p op' _ there with ⟨rfl, rfl⟩ | ⟨_, before⟩
    · cases moved with
      | forget _ phase _ _ _ moved => exact kept.noForget p id phase here
    · exact kept.noForget p id phase before
  mapped := by
    intro s session' there
    rcases apply_heap_origin state.store o act s session' there with ⟨session, before, rfl⟩ |
      ⟨record, rfl, rfl, rfl⟩
    · have present := kept.mapped s session before
      by_cases inserted : ∃ record, act = .insert record
      · obtain ⟨record, rfl⟩ := inserted
        have absent := (insert_fresh sha256 state base o fault op op' _ log here moved record rfl).2
        have different : session.id ≠ record.pending.id := by
          intro same
          rw [same, absent] at present
          cases present
        exact (AList.lookup_insert_ne different).trans present
      · show (state.store.apply o act).sessions.lookup _ = some s
        rw [apply_sessions state.store o act (fun r equal => inserted ⟨r, equal⟩)
          (kept_no_evict sha256 state kept o fault op op' act log here moved)]
        exact (congrArg (state.store.sessions.lookup ·) (on_id act o s session)).trans present
    · simp [Store.apply, Session.new]
  behind := by
    intro s session' there
    rcases apply_heap_origin state.store o act s session' there with ⟨session, before, rfl⟩ |
      ⟨record, rfl, rfl, rfl⟩
    · have forward := (moved_session sha256 state base o fault op op' act log here moved s session before).2
      obtain ⟨journal, written, older⟩ := kept.behind s session before
      rw [on_id]
      rcases kept_journal sha256 state base kept o fault op op' act log here moved session.id with
        same | ⟨t, other, record, rfl, present, named, newer, now⟩ | ⟨request, rfl, rfl, named, now⟩
      · exact ⟨journal, same.trans written, forward_trans _ _ _ older forward⟩
      · have found := kept.mapped t other present
        rw [named, kept.mapped s session before] at found
        obtain rfl : s = t := Option.some.inj found
        refine ⟨record, now, ?_⟩
        simpa [Act.on] using forward_refl record
      · have absent := (base.facts o _ here).2
        rw [named, kept.mapped s session before] at absent
        cases absent
    · cases op_effect sha256 state.store fault op op' _ log moved with
      | quiet _ _ _ silent => cases silent
      | insert request => exact ⟨request.record, kept.inserting o request here, forward_refl _⟩
  inserting := by
    intro p request there
    rcases Transition.set_cases state.ops o p op' _ there with ⟨rfl, rfl⟩ | ⟨other, before⟩
    · cases moved with
      | register _ phase _ _ _ moved =>
          cases moved with
          | created below ok =>
              exact (doc_node _ _ _).mpr ((node_save _ _ _ _).trans (if_pos rfl))
    · -- The registration mutex and the map keep every other writer away.
      have absent := (base.facts p _ before).2
      have written := kept.inserting p request before
      rcases kept_journal sha256 state base kept o fault op op' act log here moved request.id with
        same | ⟨t, session, record, rfl, present, named, newer, now⟩ | ⟨request', rfl, rfl, named, now⟩
      · exact same.trans written
      · rw [← named, kept.mapped t session present] at absent
        cases absent
      · have mine := base.enrolled p _ before rfl
        rw [base.enrolled o _ here rfl] at mine
        exact absurd (Option.some.inj mine).symm other

end Advance

theorem kept_step (sha256 : Bytes → String) (state next : State) (label : Label) (base : Base state)
    (kept : Kept state) (allowed : forgetFree label = true)
    (stepped : step sha256 state label = some next) : Kept next := by
  rcases step_cases sha256 state next label stepped with ⟨call, rfl, _, rfl⟩ |
    ⟨o, fault, op, act, log, op', rfl, here, moved, rfl⟩ |
    ⟨rfl, _, rfl⟩ | ⟨store, rfl, stopped, loaded, rfl⟩
  · refine ⟨?_, kept.mapped, kept.behind, ?_⟩
    · intro o id phase there
      rcases Transition.append_cases state.ops o call.op _ there with before | fresh
      · exact kept.noForget o id phase before
      · cases call with
        | forget _ => cases allowed
        | _ => cases fresh
    · intro o request there
      rcases Transition.append_cases state.ops o call.op _ there with before | fresh
      · exact kept.inserting o request before
      · cases call <;> cases fresh
  · exact kept_advance sha256 state base kept o fault op op' act log here moved
  · exact ⟨by simp, by simp [Store.empty], by simp [Store.empty], by simp⟩
  · have idle := (base.stopped stopped).1
    have spec := load_loaded state.store.disk store loaded
    refine ⟨by simp [idle], ?_, ?_, by simp [idle]⟩
    · intro s session here
      exact (loaded_session state.store.disk store spec s session here).2.1
    · intro s session here
      have journal := (loaded_session state.store.disk store spec s session here).2.2
      exact ⟨session.record, spec.same ▸ journal, forward_refl session.record⟩

theorem initial_kept (state : State) (initial : Initial state) : Kept state := by
  refine ⟨by simp [initial.idle], ?_, ?_, by simp [initial.idle]⟩
  · rw [initial.fresh]
    simp [Store.empty]
  · rw [initial.fresh]
    simp [Store.empty]

end GoshTransfer
