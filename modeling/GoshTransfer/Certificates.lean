import GoshTransfer.Promises
import GoshTransfer.Integrity
import GoshTransfer.Sender

set_option autoImplicit false

namespace GoshTransfer

open InodeStore

def forgetless (id : String) : Label → Bool
  | .call (.forget forgotten) => forgotten != id
  | _ => true

-- The receipt that completes the session of this id reaches the journal.
def finalReceiptSaved (id : String) (state : State) : Label → Bool
  | .advance o fault =>
      match state.ops[o]? with
      | some (.upload _ (.commit s x target)) =>
          fault != some (.persist false) || (state.store.heap[s]?).all fun session =>
            session.id != id || !(receiptRecord session.record x.file target).complete
      | _ => true
  | _ => true

-- The objects of a session that is never forgotten.
structure Retained (id : String) (state : State) : Prop where
  noForget : ∀ (o : Nat) (phase : ForgetPhase), state.ops[o]? ≠ some (.forget id phase)
  mapped : ∀ (s : Nat) (session : Session), state.store.heap[s]? = some session → session.id = id →
    state.store.sessions.lookup id = some s
  saved : ∀ (s : Nat) (session : Session) (journal : Record), state.store.heap[s]? = some session →
    session.id = id →
    state.store.disk.doc (journalPath id) = some journal → session.record.complete = true →
      journal.complete = true

section Retention

variable (sha256 : Bytes → String) (id : String) (state : State) (base : Base state) (owned : Owned state)
    (retained : Retained id state)
variable (o : Nat) (fault : Option Fault) (op op' : Op) (act : Act) (log : List Entry)
    (here : state.ops[o]? = some op)
variable (kept : finalReceiptSaved id state (.advance o fault) = true)
    (moved : OpMove sha256 state.store fault op act log op')
include retained here moved

theorem retained_no_forget (p : Nat) (phase : ForgetPhase) :
    (state.ops.set o op')[p]? ≠ some (.forget id phase) := by
  intro there
  rcases Transition.set_cases state.ops o p op' _ there with ⟨rfl, rfl⟩ | ⟨_, before⟩
  · cases moved with
    | forget _ earlier _ _ _ moved => exact retained.noForget p earlier here
  · exact retained.noForget p phase before

include base in
theorem retained_mapped (s : Nat) (session' : Session)
    (after : (state.store.apply o act).heap[s]? = some session') (named : session'.id = id) :
    (state.store.apply o act).sessions.lookup id = some s := by
  rcases apply_heap_origin state.store o act s session' after with ⟨session, at_, rfl⟩ |
    ⟨record, rfl, rfl, rfl⟩
  · rw [on_id] at named
    rcases lookup_kept sha256 state base o fault op op' act log here moved id s
      (retained.mapped s session at_ named) with same | rfl
    · exact same
    · exact absurd here (retained.noForget o _)
  · subst named
    simp [Store.apply, Session.new]

omit retained in
include kept in
theorem unsaved_completion (s : Nat) (session : Session) (record : Record)
    (at_ : state.store.heap[s]? = some session) (named : session.id = id)
    (writes : act.writes = some (s, record)) (unsaved : act ≠ .persist s record true)
    (complete : record.complete = true) : session.record.complete = true := by
  obtain ⟨session', there, write⟩ := moved_write sha256 state.store fault op op' act log s record moved writes
  obtain rfl := Option.some.inj (at_.symm.trans there)
  cases write with
  | receipt request x target saved struck =>
      rcases struck with ⟨_, rfl⟩ | struck
      · exact absurd rfl unsaved
      · cases saved with
        | true => exact absurd rfl unsaved
        | false => simp [finalReceiptSaved, here, struck, at_, named, complete] at kept
  | _ => exact complete

include base kept in
theorem retained_saved (s : Nat) (session' : Session) (journal : Record)
    (after : (state.store.apply o act).heap[s]? = some session') (named : session'.id = id)
    (written : (state.store.apply o act).disk.doc (journalPath id) = some journal)
    (complete : session'.record.complete = true) : journal.complete = true := by
  rcases apply_heap_origin state.store o act s session' after with ⟨session, at_, rfl⟩ |
    ⟨record, rfl, rfl, rfl⟩
  · rw [on_id] at named
    have present := retained.mapped s session at_ named
    by_cases persisted : ∃ record, act = .persist s record true
    · obtain ⟨record, saved⟩ := persisted
      have now := persisted_journal sha256 state base o fault op op' act log here moved s session record
        saved at_
      rw [named, written] at now
      obtain rfl := Option.some.inj now
      subst saved
      simpa [Act.on] using complete
    · have before : session.record.complete = true := by
        rcases on_record_writes act o s session with ⟨record, writes, on⟩ | ⟨_, same⟩
        · rw [on] at complete
          exact unsaved_completion sha256 id state o fault op op' act log here kept moved s session record
            at_ named writes (fun saved => persisted ⟨record, saved⟩) complete
        · rw [same] at complete
          exact complete
      rcases journal_cases sha256 state base o fault op op' act log here moved id with
        same | ⟨t, other, record, rfl, _, there, own, _, _⟩ | ⟨request, rfl, rfl, own, _⟩ | ⟨t, rfl, _, _, _⟩
      · exact retained.saved s session journal at_ named (same.symm.trans written) before
      · obtain rfl : s = t := Option.some.inj (present.symm.trans (retained.mapped t other there own))
        exact absurd ⟨record, rfl⟩ persisted
      · have absent := (base.facts o _ here).2
        rw [own, present] at absent
        cases absent
      · exact absurd here (retained.noForget o _)
  · cases op_effect sha256 state.store fault op op' _ log moved with
    | quiet _ _ _ silent => cases silent
    | insert request => cases complete

end Retention

theorem retained_step (sha256 : Bytes → String) (id : String) (state next : State) (label : Label)
    (base : Base state) (retained : Retained id state) (unforgotten : forgetless id label = true)
    (kept : finalReceiptSaved id state label = true) (stepped : step sha256 state label = some next) :
    Retained id next := by
  rcases step_cases sha256 state next label stepped with ⟨call, rfl, _, rfl⟩ |
    ⟨o, fault, op, act, log, op', rfl, here, moved, rfl⟩ |
    ⟨rfl, _, rfl⟩ | ⟨store, rfl, stopped, loaded, rfl⟩
  · refine ⟨?_, retained.mapped, retained.saved⟩
    intro o phase there
    rcases Transition.append_cases state.ops o call.op _ there with before | new
    · exact retained.noForget o phase before
    · cases call with
      | forget forgotten =>
          cases new
          simp [forgetless] at unforgotten
      | _ => cases new
  · exact ⟨retained_no_forget sha256 id state retained o fault op op' act log here moved,
      retained_mapped sha256 id state base retained o fault op op' act log here moved,
      retained_saved sha256 id state base retained o fault op op' act log here kept moved⟩
  · exact ⟨by simp, by simp [Store.empty], by simp [Store.empty]⟩
  · have spec := load_loaded state.store.disk store loaded
    refine ⟨by simp [(base.stopped stopped).1], ?_, ?_⟩
    · rintro s session at_ rfl
      exact (loaded_session state.store.disk store spec s session at_).2.1
    · rintro s session journal at_ rfl written complete
      have source := (loaded_session state.store.disk store spec s session at_).2.2
      rw [spec.same] at written
      obtain rfl := Option.some.inj (written.symm.trans source)
      exact complete

theorem initial_retained (id : String) (state : State) (initial : Initial state) : Retained id state := by
  refine ⟨by simp [initial.idle], ?_, ?_⟩ <;>
  · rw [initial.fresh]
    simp [Store.empty]

-- What a successful answer certifies about the session.
inductive Certificate where
  | registered (manifest : TransferManifest)
  | completed

def Certificate.On (certificate : Certificate) (record : Record) : Prop :=
  match certificate with
  | .registered manifest => record.manifest = manifest
  | .completed => record.complete = true

theorem certificate_forward (certificate : Certificate) (before after : Record)
    (forward : before.Forward after) (on : certificate.On before) : certificate.On after := by
  cases certificate with
  | registered manifest => exact forward.same.1.symm.trans on
  | completed => exact forward.complete on

def Response.registers (manifest : TransferManifest) (reply : Response) : Option Certificate :=
  if isSuccess reply.code then some (.registered manifest) else none

def Response.completes : Response → Option Certificate
  | ⟨_, .status status⟩ => if status.complete then some .completed else none
  | _ => none

-- What a call is certain to tell its caller.
def Op.certificate : Op → Option Certificate
  | .register request .respond => some (.registered request.manifest)
  | .register request (.leave _ reply) | .register request (.retire reply) |
      .register request (.done reply) =>
      reply.registers request.manifest
  | .status _ _ (.leave _ reply) | .status _ _ (.done reply) => reply.completes
  | _ => none

-- Every certificate of the id is in the journal.
def Certified (id : String) (state : State) : Prop :=
  ∀ (o : Nat) (op : Op) (certificate : Certificate), state.ops[o]? = some op → op.id = id →
    op.certificate = some certificate →
    Recorded id certificate.On state

theorem retained_unerased (id : String) (state : State) (retained : Retained id state) (label : Label) :
    erases id state label = false := by
  cases label with
  | advance o fault =>
      simp only [erases]
      split
      · rename_i forgotten s here
        by_contra same
        simp only [Bool.not_eq_false, beq_iff_eq] at same
        exact retained.noForget o _ (same ▸ here)
      · rfl
  | _ => rfl

theorem retained_recorded (id : String) (state : State) (base : Base state) (owned : Owned state)
    (retained : Retained id state) (s : Nat) (session : Session) (at_ : state.store.heap[s]? = some session)
    (named : session.id = id) :
    Recorded id (fun journal => journal.manifest = session.record.manifest ∧
      (session.record.complete = true → journal.complete = true))
      state := by
  have present := retained.mapped s session at_ named
  refine ⟨?_, by simp [present], fun o t => retained.noForget o _, ?_⟩
  · rcases owned.held id s session present at_ with ⟨o, forgetting⟩ | ⟨journal, written, forward⟩
    · exact absurd forgetting (retained.noForget o _)
    · exact ⟨journal, written, forward.same.1, retained.saved s session journal at_ named written⟩
  · rintro rfl
    have canonical := mapped_length state base "" s present
    cases canonical

theorem recorded_mono (id : String) (strong weak : Record → Prop) (state : State)
    (implied : ∀ record, strong record → weak record) (recorded : Recorded id strong state) :
    Recorded id weak state := by
  obtain ⟨journal, written, on⟩ := recorded.journal
  exact ⟨⟨journal, written, implied journal on⟩, recorded.present, recorded.unforgotten, recorded.canonical⟩

theorem certificate_made (sha256 : Bytes → String) (id : String) (state next : State) (base : Base state)
    (base' : Base next) (owned' : Owned next) (after : Retained id next) (o : Nat) (fault : Option Fault)
    (op op' : Op) (act : Act) (log : List Entry) (here : state.ops[o]? = some op)
    (moved : OpMove sha256 state.store fault op act log op')
    (result : next =
      { state with store := state.store.apply o act, ops := state.ops.set o op', log := state.log ++ log })
    (named : op.id = id) (certificate : Certificate) (certain : op'.certificate = some certificate) :
    op.certificate = some certificate ∨ Recorded id certificate.On next := by
  -- The record of a locked session, which the step leaves as it is.
  have locked : ∀ s session, op.session = some s → state.store.heap[s]? = some session → act = .tau →
    Recorded id
      (fun journal => journal.manifest = session.record.manifest ∧
        (session.record.complete = true → journal.complete = true)) next := by
    rintro s session mine at_ rfl
    obtain ⟨session', at', same⟩ := base.known o op s here mine
    obtain rfl := Option.some.inj (at_.symm.trans at')
    subst result
    exact retained_recorded id _ base' owned' after s session at_ (same.trans named)
  cases moved with
  | register request phase next' _ _ moved =>
      cases moved with
      | existing s session at_ sameOwner sameManifest =>
          simp only [Op.certificate, Response.registers, Option.ite_none_right_eq_some,
            Option.some.injEq] at certain
          obtain ⟨_, rfl⟩ := certain
          exact .inr (recorded_mono id _ _ next (fun journal both => both.1.trans sameManifest)
            (locked s session rfl at_ rfl))
      | inserted =>
          obtain rfl : Certificate.registered request.manifest = certificate := Option.some.inj certain
          subst result
          have there : ({ state with
              store := state.store.apply o (.insert request.record), ops :=
                state.ops.set o (.register request .respond),
              log := state.log ++ (if request.trusted then [] else
                [.event state.store.heap.length (.transferRequest request.record.pending)]) } :
                  State).store.heap[state.store.heap.length]? =
              some (Session.new request.record) := by
            simp [Store.apply]
          exact .inr (recorded_mono id _ _ _ (fun journal both => both.1)
            (retained_recorded id _ base' owned' after _ _ there named))
      | responded =>
          simp only [Op.certificate, Response.registers, Option.ite_none_right_eq_some,
            Option.some.injEq] at certain
          exact .inl (congrArg some certain.2)
      | left s reply => exact .inl certain
      | retired reply => exact .inl certain
      | invalid e refused => cases e <;> cases certain
      | _ => simp [Op.certificate, Response.registers, isSuccess, errorResponse] at certain
  | status peer named' phase next' _ _ moved =>
      cases moved with
      | answered s session at_ own =>
          cases taken : snapshot state.store.disk session.id session.record fault with
          | error e =>
              rw [taken] at certain
              cases e <;> cases certain
          | ok status =>
              rw [taken] at certain
              simp only [Op.certificate, snapshotResponse, Response.completes,
                Option.ite_none_right_eq_some, Option.some.injEq] at certain
              obtain ⟨complete, rfl⟩ := certain
              rw [(snapshot_fields _ _ _ _ _ taken).2.2.1] at complete
              exact .inr (recorded_mono id _ _ next (fun journal both => both.2 complete)
                (locked s session rfl at_ rfl))
      | left s reply => exact .inl certain
      | _ => simp [Op.certificate, Response.completes, errorResponse, Response.plain] at certain
  | _ => cases certain

theorem certified_step (sha256 : Bytes → String) (id : String) (state next : State) (label : Label)
    (base : Base state) (owned : Owned state)
    (fresh : staleFree state label = true) (retained : Retained id state) (after : Retained id next) (certified : Certified id state)
    (stepped : step sha256 state label = some next) : Certified id next := by
  have base' := base_step sha256 state next label base stepped
  have owned' := owned_step sha256 state next label base owned fresh stepped
  have carried : ∀ certificate : Certificate, Recorded id certificate.On state → Recorded id certificate.On next := by
    intro certificate recorded
    exact recorded_step sha256 state next label base owned fresh id certificate.On (certificate_forward certificate) recorded
      (retained_unerased id state retained label) stepped
  intro p q certificate there named certain
  rcases step_cases sha256 state next label stepped with ⟨call, rfl, _, rfl⟩ |
    ⟨o, fault, op, act, log, op', rfl, here, moved, result⟩ |
    ⟨rfl, _, rfl⟩ | ⟨store, rfl, stopped, loaded, rfl⟩
  · rcases Transition.append_cases state.ops p call.op q there with before | rfl
    · exact carried certificate (certified p q certificate before named certain)
    · cases call <;> cases certain
  · subst result
    rcases Transition.set_cases state.ops o p op' q there with ⟨rfl, rfl⟩ | ⟨_, before⟩
    · have rules := op_disciplined state.store fault act log sha256 op q moved
      have own : op.id = id := rules.sameId.symm.trans named
      rcases certificate_made sha256 id state _ base base' owned' after p fault op q act log here moved rfl own certificate certain with
        earlier | now
      · exact carried certificate (certified p op certificate here own earlier)
      · exact now
    · exact carried certificate (certified p q certificate before named certain)
  · simp at there
  · simp [(base.stopped stopped).1] at there

end GoshTransfer
