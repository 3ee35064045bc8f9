import GoshTransfer.Owners
import GoshTransfer.Territory

set_option autoImplicit false

namespace GoshTransfer

open InodeStore

-- The request handlers that run for an identity.
def Op.asks (caller : String) : Op → Prop
  | .register request _ => owner request.peer = caller
  | .status peer _ _ => owner peer = caller
  | .upload request _ => owner request.peer = caller
  | .cancel (some peer) _ _ => owner peer = caller
  | _ => False

-- Phases that read at most the owner of a session.
def Op.bystands : Op → Bool
  | .register _ .create | .register _ .insert => false
  | .register _ _ | .status _ _ _ => true
  | .upload _ phase => phase.works.isNone
  | .cancel _ _ .authorize | .cancel _ _ (.done _) | .cancel _ _ .foreign => true
  | _ => false

def Act.calm : Act → Bool
  | .tau | .acquire _ | .release _ | .enroll | .retire => true
  | _ => false

-- The session s under the id keeps its place, its record, its cancellation
-- token, its journal and its partials.
structure LeftAlone (id : String) (s : Nat) (before after : Store) : Prop where
  listed : after.sessions.lookup id = some s
  record : (after.heap[s]?).map Session.record = (before.heap[s]?).map Session.record
  token : (after.heap[s]?).map Session.cancel = (before.heap[s]?).map Session.cancel
  journal : after.disk.node (journalPath id) = before.disk.node (journalPath id)
  parts : ∀ file, after.disk.node (partPath id file) = before.disk.node (partPath id file) ∧
    after.disk.read (partPath id file) = before.disk.read (partPath id file)

-- A request of the caller, as long as the session s of somebody else is listed
-- under the id: it may wait for that session, and it works on no older one.
structure Aside (caller : String) (o : Nat) (id : String) (s : Nat) (state : State) : Prop where
  stranger : ∃ session, state.store.heap[s]? = some session ∧ session.owner ≠ caller
  asking : ∃ op, state.ops[o]? = some op ∧ op.asks caller ∧
    (op.id = id → state.store.sessions.lookup id = some s →
    op.bystands = true ∧ ∀ s', op.session = some s' → s' = s)

theorem calm_spares (id : String) (s : Nat) (session : Session) (store : Store) (o : Nat) (act : Act)
    (calm : act.calm = true) (listed : store.sessions.lookup id = some s)
    (here : store.heap[s]? = some session) : LeftAlone id s store (store.apply o act) := by
  have after := apply_heap store o act s session here
  have kept : (act.on o s session).record = session.record ∧
    (act.on o s session).cancel = session.cancel := by
    cases act with
    | acquire t | release t =>
        simp only [Act.on]
        split <;> exact ⟨rfl, rfl⟩
    | tau | enroll | retire => exact ⟨rfl, rfl⟩
    | _ => cases calm
  have disk : (store.apply o act).disk = store.disk := by cases act <;> first | rfl | cases calm
  refine ⟨?_, ?_, ?_, by rw [disk], fun file => by rw [disk]; exact ⟨rfl, rfl⟩⟩
  · rw [apply_sessions store o act (by rintro _ rfl; cases calm) (by rintro _ rfl; cases calm)]
    exact listed
  · rw [after, here, Option.map_some, Option.map_some, kept.1]
  · rw [after, here, Option.map_some, Option.map_some, kept.2]

section Step

variable (sha256 : Bytes → String) (caller : String) (state : State) (base : Base state) (o : Nat)
    (fault : Option Fault) (op op' : Op)
  (act : Act) (log : List Entry) (stepped : op.next sha256 state.store fault = some (act, log, op'))

theorem listed_before (id : String) (s : Nat) (session : Session) (at_ : state.store.heap[s]? = some session)
    (after : (state.store.apply o act).sessions.lookup id = some s) :
    state.store.sessions.lookup id = some s := by
  by_cases inserts : ∃ record, act = .insert record
  · obtain ⟨record, rfl⟩ := inserts
    by_cases same : id = record.pending.id
    · subst same
      obtain rfl := Option.some.inj ((AList.lookup_insert _).symm.trans after)
      exact absurd (List.getElem?_eq_some_iff.mp at_).1 (Nat.lt_irrefl _)
    · exact (AList.lookup_insert_ne same).symm.trans after
  · by_cases evicts : ∃ key, act = .evict key
    · obtain ⟨key, rfl⟩ := evicts
      by_cases same : id = key
      · subst same
        cases (AList.lookup_erase _ _).symm.trans after
      · exact (AList.lookup_erase_ne same).symm.trans after
    · rw [apply_sessions state.store o act (fun record same => inserts ⟨record, same⟩)
        (fun key same => evicts ⟨key, same⟩)] at after
      exact after

theorem authorize_refuses (peer : Peer) (mine : owner peer = caller) (id : String) (s : Nat)
    (session : Session) (at_ : state.store.heap[s]? = some session) (stranger : session.owner ≠ caller)
    (listed : state.store.sessions.lookup id = some s) (next : CancelPhase)
    (moved : CancelPhase.authorize.next (some peer) id state.store fault = some (act, log, next)) :
    act = .tau ∧ next = .foreign := by
  have refused : ¬ (some peer).map owner = some session.owner :=
    fun ours => stranger ((Option.some.inj ours).symm.trans mine)
  simp only [CancelPhase.next, listed, at_, Option.bind_some, if_neg refused] at moved
  obtain ⟨_, rfl, _, rfl⟩ := (plain_eq_some _ _ _ _ _ _ _).mp moved
  exact ⟨rfl, rfl⟩

include base stepped

theorem bystander_step (asking : op.asks caller) (s : Nat) (session : Session)
    (at_ : state.store.heap[s]? = some session) (stranger : session.owner ≠ caller)
    (listed : state.store.sessions.lookup op.id = some s) (stands : op.bystands = true)
    (only : ∀ s', op.session = some s' → s' = s) :
    act.calm = true ∧ op'.bystands = true ∧ ∀ s', op'.session = some s' → s' = s := by
  have found : ∀ s', state.store.sessions.lookup op.id = some s' → s' = s :=
    fun s' other => Option.some.inj (other.symm.trans listed)
  have foreign : session.record.owner ≠ caller := (base.sound s session at_).owned ▸ stranger
  cases op_next_move sha256 state.store fault op op' act log stepped with
  | accept | reject | forget => cases asking
  | register request phase next _ _ moved =>
      cases moved with
      | found s' present => exact ⟨rfl, rfl, fun _ same => Option.some.inj same ▸ found s' present⟩
      | fresh flag absent => cases absent.symm.trans listed
      | locked s' | conflict s' | existing s' => exact ⟨rfl, rfl, only⟩
      | full | rootFailed | created | createFailed | inserted => cases stands
      | _ => exact ⟨rfl, rfl, fun _ same => by cases same⟩
  | status peer id phase next _ _ moved =>
      cases moved with
      | found s' present => exact ⟨rfl, rfl, fun _ same => Option.some.inj same ▸ found s' present⟩
      | locked s' | foreign s' | answered s' => exact ⟨rfl, rfl, only⟩
      | _ => exact ⟨rfl, rfl, fun _ same => by cases same⟩
  | cancel asker id phase next _ _ moved =>
      cases phase with
      | authorize =>
          cases asker with
          | none => cases asking
          | some peer =>
              obtain ⟨_, _, _, run, rfl, rfl, same⟩ := by
                simpa only [Op.next, Option.map_eq_some_iff, Prod.exists, Prod.mk.injEq] using stepped
              cases same
              obtain ⟨rfl, rfl⟩ :=
                authorize_refuses caller state fault _ _ peer asking id s session at_ stranger listed _ run
              exact ⟨rfl, rfl, fun _ same => by cases same⟩
      | done reply => cases moved with | unknown _ early => rcases early with early | early <;> cases early
      | foreign => cases moved with | unknown _ early => rcases early with early | early <;> cases early
      | _ => cases stands
  | upload request phase next _ _ moved =>
      cases moved with
      | found s' present => exact ⟨rfl, rfl, fun _ same => Option.some.inj same ▸ found s' present⟩
      | locked s' | gone s' | already s' => exact ⟨rfl, rfl, only⟩
      | refuse s' _ reply held =>
          exact ⟨rfl, rfl, fun _ same => Option.some.inj same ▸ only s' (upload_session_held _ s' held)⟩
      | admitted s' session' file there owned =>
          obtain rfl := only s' rfl
          obtain rfl := Option.some.inj (at_.symm.trans there)
          exact absurd (owned.trans asking) foreign
      | missing | left => exact ⟨rfl, rfl, fun _ same => by cases same⟩
      | _ => cases stands

end Step

theorem asks_same (sha256 : Bytes → String) (caller : String) (store : Store) (fault : Option Fault)
    (op op' : Op) (act : Act) (log : List Entry) (moved : OpMove sha256 store fault op act log op')
    (asking : op.asks caller) : op'.asks caller ∧ op'.id = op.id := by
  cases moved with
  | cancel asker id phase next => cases asker <;> exact ⟨asking, rfl⟩
  | _ => exact ⟨asking, rfl⟩

theorem aside_step (sha256 : Bytes → String) (caller : String) (o : Nat) (id : String) (s : Nat)
    (state next : State) (label : Label) (base : Base state) (aside : Aside caller o id s state)
    (survives : label ≠ .crash) (stepped : step sha256 state label = some next) :
    Aside caller o id s next := by
  obtain ⟨⟨session, at_, stranger⟩, op, here, asking, waits⟩ := aside
  cases label with
  | crash => exact absurd rfl survives
  | call call =>
      rcases step_cases sha256 state next (.call call) stepped with ⟨_, _, _, rfl⟩ |
        ⟨_, _, _, _, _, _, same, _⟩ | ⟨same, _⟩ | ⟨_, same, _⟩
      · have within := (List.getElem?_eq_some_iff.mp here).1
        exact ⟨⟨session, at_, stranger⟩, op, (List.getElem?_append_left within).trans here, asking, waits⟩
      · cases same
      · cases same
      · cases same
  | start =>
      have running := base_running state base o op here
      simp [step, running] at stepped
  | advance p fault =>
      obtain ⟨mover, act, log, moved', there, moved, rfl⟩ := step_advance sha256 state next p fault stepped
      have after := apply_heap state.store p act s session at_
      refine ⟨⟨_, after, (on_owner act p s session).symm ▸ stranger⟩, ?_⟩
      have within := (List.getElem?_eq_some_iff.mp here).1
      by_cases own : p = o
      · subst own
        obtain rfl := Option.some.inj (here.symm.trans there)
        obtain ⟨asking', named⟩ := asks_same sha256 caller state.store fault op moved' act log
          (op_next_move _ _ _ _ _ _ _ moved) asking
        refine ⟨moved', List.getElem?_set_self within, asking', ?_⟩
        intro ours listed
        have earlier := listed_before state p act id s session at_ listed
        obtain ⟨stands, only⟩ := waits (named.symm.trans ours) earlier
        exact (bystander_step sha256 caller state base fault op moved' act log moved asking s session at_
          stranger (named.symm.trans ours ▸ earlier) stands only).2
      · refine ⟨op, (List.getElem?_set_ne own).trans here, asking, ?_⟩
        intro ours listed
        exact waits ours (listed_before state p act id s session at_ listed)

theorem aside_spares (sha256 : Bytes → String) (caller : String) (o : Nat) (id : String) (s : Nat)
    (state next : State) (fault : Option Fault) (inv : Separated state) (aside : Aside caller o id s state)
    (listed : state.store.sessions.lookup id = some s)
    (stepped : step sha256 state (.advance o fault) = some next) : LeftAlone id s state.store next.store := by
  obtain ⟨⟨session, at_, stranger⟩, op, here, asking, waits⟩ := aside
  obtain ⟨mover, act, log, op', there, moved, rfl⟩ := step_advance sha256 state next o fault stepped
  obtain rfl := Option.some.inj (here.symm.trans there)
  obtain ⟨known, at', named⟩ := inv.base.mapped id s listed
  obtain rfl := Option.some.inj (at_.symm.trans at')
  by_cases ours : op.id = id
  · subst ours
    obtain ⟨stands, only⟩ := waits rfl listed
    obtain ⟨calm, _⟩ :=
      bystander_step sha256 caller state inv.base fault op op' act log moved asking s session at_ stranger
        listed stands only
    exact calm_spares op.id s session state.store o act calm listed at_
  · have frame := isolated_advance sha256 state inv.base o fault op op' act log here
      (op_next_move _ _ _ _ _ _ _ moved) inv.parted inv.handled
    have different : session.id ≠ op.id := fun same => ours (same.symm.trans named)
    have canonical := named ▸ session_id_canonical session (inv.base.sound s session at_)
    have kept := frame.objects s session at_ different
    refine ⟨(frame.map id fun same => ours same.symm).trans listed, ?_, ?_, frame.journals id fun same =>
      ours same.symm, ?_⟩
    · rw [kept, at_]
    · rw [kept, at_]
    · intro file
      exact frame.parts id file canonical fun same => ours same.symm

-- Whatever runs beside it, the request of call leaves alone what belongs to
-- others in the state in which it arrives.
def Respectful (sha256 : Bytes → String) (caller : String) (state : State) (call : Call) : Prop :=
  ∀ (arrived middle final : State) (fault : Option Fault), step sha256 state (.call call) = some arrived →
    Transition.Run (step sha256) (fun _ label => label ≠ .crash) arrived middle →
      step sha256 middle (.advance state.ops.length fault) = some final →
        ∀ (id : String) (s : Nat) (session : Session), state.store.sessions.lookup id = some s →
          state.store.heap[s]? = some session → session.owner ≠ caller →
            middle.store.sessions.lookup id = some s →
            LeftAlone id s middle.store final.store

theorem call_respectful (sha256 : Bytes → String) (caller : String) (state : State) (inv : Separated state)
    (call : Call) (asking : call.op.asks caller) : Respectful sha256 caller state call := by
  intro arrived middle final fault opened ran advanced id s session listed at_ stranger still
  have stands : call.op.bystands = true ∧ ∀ s', call.op.session = some s' → s' = s := by
    cases call with
    | cancel asker id =>
        cases asker with
        | none => cases asking
        | some peer => exact ⟨rfl, fun _ same => by cases same⟩
    | accept | reject | forget => cases asking
    | _ => exact ⟨rfl, fun _ same => by cases same⟩
  have begun : Separated arrived ∧ Aside caller state.ops.length id s arrived := by
    refine ⟨separated_step sha256 state arrived _ inv opened, ?_⟩
    rcases step_cases sha256 state arrived (.call call) opened with ⟨_, same, _, rfl⟩ |
      ⟨_, _, _, _, _, _, same, _⟩ | ⟨same, _⟩ | ⟨_, same, _⟩
    · cases same
      exact ⟨⟨session, at_, stranger⟩, call.op, by simp, asking, fun _ _ => stands⟩
    · cases same
    · cases same
    · cases same
  have reached := Transition.run_invariant (step sha256) _ (fun state' => Separated state' ∧
    Aside caller state.ops.length id s state')
    (fun before label after good survives stepped => ⟨separated_step sha256 before after label good.1 stepped,
      aside_step sha256 caller _ id s before after label good.1.base good.2 survives stepped⟩) arrived
      middle ran begun
  exact aside_spares sha256 caller _ id s middle final fault reached.1 reached.2 still advanced

end GoshTransfer
