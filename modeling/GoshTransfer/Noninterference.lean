import GoshTransfer.Bystanders
import GoshTransfer.Delivery
import GoshTransfer.UploadUnwinding

set_option autoImplicit false

namespace GoshTransfer

open InodeStore

-- What a request handler answers in the end.
def Op.answer : Op → Option Response
  | .cancel (some _) _ (.done (.ok _)) => some (.plain 200)
  | .cancel (some _) _ (.done (.error e)) => some (errorResponse e)
  | .cancel (some _) _ .foreign => some (.plain 404)
  | op => op.reply

-- One request as two receivers get it: the token and the time of a registration
-- are drawn by the handler. The answers of the tests outside the store are the same.
inductive SameCall (caller : String) : Call → Call → Prop where
  | register (request request' : RegisterRequest) (mine : owner request.peer = caller)
      (same : request' = { request with token := request'.token, now := request'.now }) :
      SameCall caller (.register request) (.register request')
  | status (peer : Peer) (id : String) (mine : owner peer = caller) : SameCall caller (.status peer id)
      (.status peer id)
  | upload (request : UploadRequest) (mine : owner request.peer = caller) :
      SameCall caller (.upload request) (.upload request)
  | cancel (peer : Peer) (id : String) (mine : owner peer = caller) :
      SameCall caller (.cancel (some peer) id) (.cancel (some peer) id)

-- The request is served in the given state; nothing is answered while it waits.
def serve (sha256 : Bytes → String) (state : State) (call : Call) (faults : List (Option Fault)) : Option
    (Option Response) :=
  (Transition.replay (step sha256) (fun _ _ => True) state
    (.call call :: faults.map (Label.advance state.ops.length))).map fun final =>
    (final.ops[state.ops.length]?).bind Op.answer

-- Only the token of a session that did not exist before may differ.
inductive SameAnswer (before : Store) : Call → Call → Option Response → Option Response → Prop where
  | same (call call' : Call) (answer : Option Response) : SameAnswer before call call' answer answer
  | registered (request request' : RegisterRequest) (status : ResumeStatus)
      (new : before.sessions.lookup request.id = none) :
      SameAnswer before (.register request) (.register request')
        (some ⟨200, .status { status with token := some request.token }⟩)
        (some ⟨200, .status { status with token := some request'.token }⟩)

-- How far the request has come on the two sides.
inductive OpTwin (caller : String) (before left right : Store) : Call → Call → Op → Op → Prop where
  | register (request request' : RegisterRequest) (mine : owner request.peer = caller)
      (same : request' = { request with token := request'.token, now := request'.now }) (pair : Nat → Nat →
        Prop)
      (alike : StoreAlike caller pair left right) (phase phase' : RegisterPhase)
      (twin : RegisterTwin request (before.sessions.lookup request.id = none) left right phase phase') :
      OpTwin caller before left right (.register request) (.register request') (.register request phase)
        (.register request' phase')
  | late (request request' : RegisterRequest)
      (same : request' = { request with token := request'.token, now := request'.now })
      (phase phase' : RegisterPhase)
      (twin : RegisterLate request request' (before.sessions.lookup request.id = none) left right phase
      phase') :
      OpTwin caller before left right (.register request) (.register request') (.register request phase)
      (.register request' phase')
  | status (peer : Peer) (id : String) (mine : owner peer = caller) (pair : Nat → Nat →
      Prop) (alike : StoreAlike caller pair left right)
      (phase phase' : StatusPhase) (twin : StatusTwin id left right phase phase') :
      OpTwin caller before left right (.status peer id) (.status peer id) (.status peer id phase)
      (.status peer id phase')
  | upload (request : UploadRequest) (mine : owner request.peer = caller) (pair : Nat → Nat → Prop)
      (alike : StoreAlike caller pair left right) (phase phase' : UploadPhase)
      (twin : UploadTwin caller request pair left right phase phase') :
      OpTwin caller before left right (.upload request) (.upload request) (.upload request phase)
      (.upload request phase')
  | cancel (peer : Peer) (id : String) (mine : owner peer = caller) (pair : Nat → Nat →
      Prop) (alike : StoreAlike caller pair left right)
      (phase phase' : CancelPhase) (twin : CancelTwin caller id left right phase phase') :
      OpTwin caller before left right (.cancel (some peer) id) (.cancel (some peer) id)
      (.cancel (some peer) id phase) (.cancel (some peer) id phase')

structure Abreast (caller : String) (before : Store) (call call' : Call) (o p : Nat) (left right : State) :
    Prop where
  baseLeft : Base left
  baseRight : Base right
  running : ∃ op op', left.ops[o]? = some op ∧ right.ops[p]? = some op' ∧
    OpTwin caller before left.store right.store call call' op op'

section Apply

variable (pair : Nat → Nat → Prop) (left right : Store) (o p s t : Nat) (act act' : Act)
    (acts : ActAlike pair s t act act')
include acts

theorem status_twin_apply (id : String) (phase phase' : StatusPhase)
    (twin : StatusTwin id left right phase phase') :
    StatusTwin id (left.apply o act) (right.apply p act') phase phase' := by
  have kept := fun s' t' bond => bound_apply id s' t' left right bond pair s t act act' acts o p
  cases twin with
  | lookup => exact .lookup
  | lock s' t' bond => exact .lock s' t' (kept s' t' bond)
  | answer s' t' bond => exact .answer s' t' (kept s' t' bond)
  | leave s' t' reply bond => exact .leave s' t' reply (kept s' t' bond)
  | done reply => exact .done reply

theorem cancel_twin_apply (caller id : String) (phase phase' : CancelPhase)
    (twin : CancelTwin caller id left right phase phase') :
    CancelTwin caller id (left.apply o act) (right.apply p act') phase phase' := by
  have kept := fun s' t' bond => bound_apply id s' t' left right bond pair s t act act' acts o p
  obtain ⟨noInsert, noEvict, _⟩ := act_alike_map pair s t act act' acts
  have owned := owner_of_apply left o act noInsert noEvict id
  cases twin with
  | authorize => exact .authorize
  | lookup own => exact .lookup (owned.trans own)
  | finished s' t' bond own => exact .finished s' t' (kept s' t' bond) (owned.trans own)
  | trip s' t' bond own => exact .trip s' t' (kept s' t' bond) (owned.trans own)
  | lock s' t' bond own => exact .lock s' t' (kept s' t' bond) (owned.trans own)
  | decide s' t' bond own => exact .decide s' t' (kept s' t' bond) (owned.trans own)
  | discard s' t' files bytes bond own => exact .discard s' t' files bytes (kept s' t' bond) (owned.trans own)
  | leave s' t' reply bond => exact .leave s' t' reply (kept s' t' bond)
  | done reply => exact .done reply
  | foreign => exact .foreign

theorem register_twin_apply (request : RegisterRequest) (new : Prop) (phase phase' : RegisterPhase)
    (twin : RegisterTwin request new left right phase phase') :
    RegisterTwin request new (left.apply o act) (right.apply p act') phase phase' := by
  have kept := fun s' t' bond => bound_apply request.id s' t' left right bond pair s t act act' acts o p
  obtain ⟨noInsert, noEvict, _⟩ := act_alike_map pair s t act act' acts
  have map := apply_sessions left o act noInsert noEvict
  cases twin with
  | validate absent => exact .validate (map ▸ absent)
  | enroll absent => exact .enroll (map ▸ absent)
  | lookup absent => exact .lookup (map ▸ absent)
  | lock s' t' bond => exact .lock s' t' (kept s' t' bond)
  | compare s' t' bond => exact .compare s' t' (kept s' t' bond)
  | create absent fresh => exact .create (map ▸ absent) fresh
  | leave s' t' reply bond => exact .leave s' t' reply (kept s' t' bond)
  | retire reply => exact .retire reply
  | done reply => exact .done reply

theorem upload_twin_apply (caller : String) (request : UploadRequest) (wider : Nat → Nat → Prop) (phase phase' : UploadPhase)
    (twin : UploadTwin caller request wider left right phase phase') :
    UploadTwin caller request wider (left.apply o act) (right.apply p act') phase phase' := by
  have kept := fun s' t' bond => bound_apply request.transferId s' t' left right bond pair s t act act' acts o p
  obtain ⟨noInsert, noEvict, _⟩ := act_alike_map pair s t act act' acts
  have owned := owner_of_apply left o act noInsert noEvict request.transferId
  cases twin with
  | lookup => exact .lookup
  | lock s' t' bond => exact .lock s' t' (kept s' t' bond)
  | entry s' t' bond => exact .entry s' t' (kept s' t' bond)
  | working _ s' t' fd works bond own paired => exact .working phase s' t' fd works (kept s' t' bond) (owned.trans own) paired
  | leave s' t' reply bond => exact .leave s' t' reply (kept s' t' bond)
  | done reply => exact .done reply

end Apply

theorem lockstep_cases {Phase : Type} (caller : String) (pair : Nat → Nat → Prop) (left right : Store)
    (o p : Nat) (onward : Act → Phase → Phase → Prop) (m m' : Option (Move Phase))
    (alike : StoreAlike caller pair left right) (lockstep : Lockstep pair left right onward m m') :
    (m = none ∧ m' = none) ∨ ∃ act log next act' log' next', m = some (act, log, next) ∧
      m' = some (act', log', next') ∧
      onward act next next' ∧ (∃ s t, ActAlike pair s t act act') ∧
        StoreAlike caller (act.pairs pair left right) (left.apply o act) (right.apply p act') := by
  obtain ⟨s, t, together, twin⟩ := lockstep
  cases twin with
  | none => exact .inl ⟨rfl, rfl⟩
  | @some a b moved =>
      obtain ⟨act, log, next⟩ := a
      obtain ⟨act', log', next'⟩ := b
      exact .inr ⟨act, log, next, act', log', next', rfl, rfl, moved.2, ⟨s, t, moved.1⟩,
        store_alike caller pair s t act act' moved.1 left right o p together alike⟩

def OpsTwin (caller : String) (before : Store) (call call' : Call) (o p : Nat) (left right : Store)
    (m m' : Move Op) : Prop :=
  OpTwin caller before (left.apply o m.1) (right.apply p m'.1) call call' m.2.2 m'.2.2

theorem ops_lockstep {Phase : Type} (caller : String) (before : Store) (call call' : Call)
    (pair : Nat → Nat → Prop) (left right : Store) (o p : Nat) (onward : Act → Phase → Phase → Prop)
    (m m' : Option (Move Phase)) (wrap wrap' : Phase → Op) (alike : StoreAlike caller pair left right)
    (lockstep : Lockstep pair left right onward m m')
    (goes : ∀ s t act act' next next', ActAlike pair s t act act' → onward act next next' →
      StoreAlike caller (act.pairs pair left right) (left.apply o act) (right.apply p act') →
        OpTwin caller before (left.apply o act) (right.apply p act') call call' (wrap next) (wrap' next')) :
    Option.Rel (OpsTwin caller before call call' o p left right)
    (m.map fun (act, log, next) => (act, log, wrap next))
      (m'.map fun (act, log, next) => (act, log, wrap' next)) := by
  rcases lockstep_cases caller pair left right o p onward m m' alike lockstep with
    ⟨rfl, rfl⟩ | ⟨act, log, next, act', log', next', rfl, rfl, onto, ⟨s, t, acts⟩, kept⟩
  · exact .none
  · exact .some (goes s t act act' next next' acts onto kept)

theorem late_lockstep (caller : String) (before : Store) (left right : Store) (o p : Nat)
    (request request' : RegisterRequest)
    (same : request' = { request with token := request'.token, now := request'.now })
    (m m' : Option (Move RegisterPhase))
    (stepped : Option.Rel (fun a b => RegisterLate request request' (before.sessions.lookup request.id = none)
      (left.apply o a.1) (right.apply p b.1) a.2.2 b.2.2) m m') :
    Option.Rel (OpsTwin caller before (.register request) (.register request') o p left right)
      (m.map fun (act, log, next) => (act, log, .register request next))
      (m'.map fun (act, log, next) => (act, log, .register request' next)) := by
  cases stepped with
  | none => exact .none
  | some moved => exact .some (.late request request' same _ _ moved)

theorem op_lockstep (sha256 : Bytes → String) (caller : String) (before : Store) (call call' : Call)
    (o p : Nat) (left right : State) (baseLeft : Base left) (baseRight : Base right) (fault : Option Fault)
    (op op' : Op) (here : left.ops[o]? = some op)
    (twin : OpTwin caller before left.store right.store call call' op op') :
    Option.Rel (OpsTwin caller before call call' o p left.store right.store) (op.next sha256 left.store fault)
      (op'.next sha256 right.store fault) := by
  cases twin with
  | register request request' mine same pair alike phase phase' twin =>
      by_cases creates : phase = .create
      · subst creates
        cases twin with
        | create absent fresh =>
            have valid : request.manifest.Valid := (baseLeft.facts o _ here).1
            exact late_lockstep caller before _ _ o p request request' same _ _
              (create_late caller pair left right baseLeft alike fault request request' _ o p valid absent
              fresh)
      · refine ops_lockstep caller before _ _ pair _ _ o p _ _ _ _ _ alike
          (register_lockstep caller pair left right baseLeft baseRight alike fault request request' _ mine
          same phase phase' creates twin) ?_
        intro s t act act' next next' acts onto kept
        exact .register request request' mine same _ kept next next'
          (register_twin_apply pair _ _ o p s t act act' acts request _ next next' onto)
  | late request request' same phase phase' twin =>
      exact late_lockstep caller before _ _ o p request request' same _ _
        (late_twin fault request request' _ phase phase' same left.store right.store o p twin)
  | status peer id mine pair alike phase phase' twin =>
      refine ops_lockstep caller before _ _ pair _ _ o p _ _ _ _ _ alike
        (status_lockstep caller pair left right baseLeft baseRight alike fault peer mine id phase phase'
        twin) ?_
      intro s t act act' next next' acts onto kept
      exact .status peer id mine _ kept next next'
        (status_twin_apply pair _ _ o p s t act act' acts id next next' onto)
  | upload request mine pair alike phase phase' twin =>
      refine ops_lockstep caller before _ _ pair _ _ o p _ _ _ _ _ alike
        (upload_lockstep sha256 caller pair left right baseLeft baseRight alike request fault mine phase
        phase' twin (baseLeft.facts o _ here)) ?_
      intro s t act act' next next' acts onto kept
      exact .upload request mine _ kept next next'
        (upload_twin_apply pair _ _ o p s t act act' acts caller request _ next next' onto)
  | cancel peer id mine pair alike phase phase' twin =>
      refine ops_lockstep caller before _ _ pair _ _ o p _ _ _ _ _ alike
        (cancel_lockstep caller pair left right baseLeft baseRight alike fault peer mine id phase phase'
        twin) ?_
      intro s t act act' next next' acts onto kept
      exact .cancel peer id mine _ kept next next'
        (cancel_twin_apply pair _ _ o p s t act act' acts caller id next next' onto)

theorem abreast_step (sha256 : Bytes → String) (caller : String) (before : Store) (call call' : Call)
    (o p : Nat) (left right : State) (fault : Option Fault)
    (abreast : Abreast caller before call call' o p left right) :
    Option.Rel (Abreast caller before call call' o p) (step sha256 left (.advance o fault))
    (step sha256 right (.advance p fault)) := by
  obtain ⟨baseLeft, baseRight, op, op', here, there, twin⟩ := abreast
  have both := op_lockstep sha256 caller before call call' o p left right baseLeft baseRight fault op op'
    here twin
  have advance : ∀ (state : State) (q : Nat) (mover : Op), state.ops[q]? = some mover →
    step sha256 state (.advance q fault) =
      (mover.next sha256 state.store fault).bind fun move =>
        some { state with store := state.store.apply q move.1, ops := state.ops.set q move.2.2, log := state.log ++ move.2.1 } := by
    intro state q mover at_
    simp only [step, at_, Option.bind_some]
  have next := advance left o op here
  have next' := advance right p op' there
  generalize op.next sha256 left.store fault = m at both next
  generalize op'.next sha256 right.store fault = m' at both next'
  cases both with
  | none =>
      rw [next, next']
      exact .none
  | @some a b moved =>
      have baseNext := base_step sha256 left _ _ baseLeft next
      have baseNext' := base_step sha256 right _ _ baseRight next'
      rw [next, next']
      have within := (List.getElem?_eq_some_iff.mp here).1
      have within' := (List.getElem?_eq_some_iff.mp there).1
      exact .some ⟨baseNext, baseNext', a.2.2, b.2.2, List.getElem?_set_self within,
        List.getElem?_set_self within', moved⟩

theorem twin_answer (caller : String) (before left right : Store) (call call' : Call) (op op' : Op)
    (twin : OpTwin caller before left right call call' op op') :
    SameAnswer before call call' op.answer op'.answer := by
  cases twin with
  | register request request' mine same pair alike phase phase' twin => cases twin <;> exact .same _ _ _
  | late request request' same phase phase' twin =>
      cases twin with
      | done reply reply' fresh answers =>
          rcases answers with rfl | ⟨status, rfl, rfl⟩
          · exact .same _ _ _
          · exact .registered request request' status fresh
      | _ => exact .same _ _ _
  | status peer id mine pair alike phase phase' twin => cases twin <;> exact .same _ _ _
  | upload request mine pair alike phase phase' twin =>
      cases twin with
      | working _ s t fd => cases phase <;> exact .same _ _ _
      | _ => exact .same _ _ _
  | cancel peer id mine pair alike phase phase' twin =>
      cases twin with
      | done reply => cases reply <;> exact .same _ _ _
      | _ => exact .same _ _ _

theorem call_twin (caller : String) (left right : Store) (call call' : Call) (request : SameCall caller call call')
    (pair : Nat → Nat → Prop) (alike : StoreAlike caller pair left right) :
    OpTwin caller left left right call call' call.op call'.op := by
  cases request with
  | register request request' mine same => exact .register request request' mine same pair alike _ _ (.validate id)
  | status peer id mine => exact .status peer id mine pair alike _ _ .lookup
  | upload request mine => exact .upload request mine pair alike _ _ .lookup
  | cancel peer id mine => exact .cancel peer id mine pair alike _ _ .authorize

theorem call_asks (caller : String) (call call' : Call) (request : SameCall caller call call') :
    call.op.asks caller ∧ call'.op.asks caller := by
  cases request with
  | register request request' mine same =>
      exact ⟨mine, (congrArg (fun r : RegisterRequest => owner r.peer) same).trans mine⟩
  | status peer id mine => exact ⟨mine, mine⟩
  | upload request mine => exact ⟨mine, mine⟩
  | cancel peer id mine => exact ⟨mine, mine⟩

theorem rel_map {A B C D : Type} (before : A → B → Prop) (after : C → D → Prop) (f : A → C) (g : B → D)
    (each : ∀ a b, before a b → after (f a) (g b)) (x : Option A) (y : Option B)
    (related : Option.Rel before x y) :
    Option.Rel after (x.map f) (y.map g) := by
  cases related with
  | none => exact .none
  | some both => exact .some (each _ _ both)

theorem same_answers (sha256 : Bytes → String) (caller : String) (left right : State) (baseLeft : Base left)
    (baseRight : Base right) (alike : Alike caller left right) (call call' : Call)
    (request : SameCall caller call call') (faults : List (Option Fault)) :
    Option.Rel (SameAnswer left.store call call') (serve sha256 left call faults)
    (serve sha256 right call' faults) := by
  obtain ⟨pair, stores⟩ := alike.store
  have opens : ∀ (state : State) (asked : Call), state.running = true →
      step sha256 state (.call asked) = some { state with ops := state.ops ++ [asked.op] } := by
    intro state asked running
    simp only [step, running, if_true]
  unfold serve
  simp only [Transition.replay, if_true]
  by_cases running : left.running = true
  · rw [opens left call running, opens right call' (alike.running.symm.trans running), Option.bind_some,
      Option.bind_some]
    have start : Abreast caller left.store call call' left.ops.length right.ops.length
        { left with ops := left.ops ++ [call.op] } { right with ops := right.ops ++ [call'.op] } :=
      ⟨base_step sha256 left _ _ baseLeft (opens left call running),
        base_step sha256 right _ _ baseRight (opens right call' (alike.running.symm.trans running)),
        call.op, call'.op, by simp, by simp, call_twin caller _ _ call call' request pair stores⟩
    have runs := Transition.replay_lockstep (step sha256) _ _ _
      (fun a b fault => abreast_step sha256 caller left.store call call' left.ops.length right.ops.length a
      b fault) faults _ _ start
    refine rel_map _ _ _ _ ?_ _ _ runs
    rintro final final' ⟨_, _, op, op', here, there, twin⟩
    rw [here, there]
    exact twin_answer caller _ _ _ call call' op op' twin
  · have stopped : step sha256 left (.call call) = none := if_neg running
    have stopped' : step sha256 right (.call call') = none :=
      if_neg fun other => running (alike.running.trans other)
    rw [stopped, stopped']
    exact .none

theorem owners_do_not_interfere (sha256 : Bytes → String) (caller : String)
    (startLeft left startRight right : State) (initialLeft : Initial startLeft)
    (initialRight : Initial startRight)
    (reachedLeft : Transition.Run (step sha256) (fun _ _ => True) startLeft left)
    (reachedRight : Transition.Run (step sha256) (fun _ _ => True) startRight right)
    (alike : Alike caller left right) (call call' : Call) (request : SameCall caller call call') :
    (∀ faults, Option.Rel (SameAnswer left.store call call') (serve sha256 left call faults)
      (serve sha256 right call' faults)) ∧
      Respectful sha256 caller left call ∧ Respectful sha256 caller right call' := by
  have invLeft := run_separated sha256 _ startLeft left initialLeft reachedLeft
  have invRight := run_separated sha256 _ startRight right initialRight reachedRight
  obtain ⟨asks, asks'⟩ := call_asks caller call call' request
  exact ⟨same_answers sha256 caller left right invLeft.base invRight.base alike call call' request,
    call_respectful sha256 caller left invLeft call asks, call_respectful sha256 caller right invRight call'
    asks'⟩

-- One session, of another owner, and no name on the disk that is not its own.
def secluded (caller id file : String) (state : State) : Bool :=
  state.running && state.store.registration.isNone && state.store.sessions.keys == [id] &&
    ((state.store.sessions.lookup id).bind (state.store.heap[·]?)).any (fun session =>
      session.id == id && session.owner == owner smallPeer && session.lock.isNone) &&
        owner smallPeer != caller &&
    state.store.disk.names.keys.all fun path => path == journalPath id || path == partPath id file

theorem secluded_sound (caller id file : String) (state : State)
    (checked : secluded caller id file state = true) :
    state.running = true ∧ state.store.registration = none ∧
    (∀ key, state.store.sessions.lookup key = none ↔ key ≠ id) ∧
      (∃ s session, state.store.sessions.lookup id = some s ∧ state.store.heap[s]? = some session ∧
        session.id = id ∧
        session.owner = owner smallPeer ∧ session.lock = none) ∧
      ∀ path, path ≠ journalPath id → path ≠ partPath id file → state.store.disk.node path = none := by
  simp only [secluded, Bool.and_eq_true, beq_iff_eq, Option.isNone_iff_eq_none, Option.any_eq_true,
    List.all_eq_true, Bool.or_eq_true] at checked
  obtain ⟨⟨⟨⟨⟨running, free⟩, keys⟩, session, there, ⟨named, owned⟩, unlocked⟩, _⟩, names⟩ := checked
  obtain ⟨s, listed, here⟩ := Option.bind_eq_some_iff.mp there
  refine ⟨running, free, ?_, ⟨s, session, listed, here, named, owned, unlocked⟩, ?_⟩
  · intro key
    rw [AList.lookup_eq_none, AList.mem_keys, keys, List.mem_singleton]
  · intro path noJournal noPart
    refine AList.lookup_eq_none.mpr fun member => ?_
    rcases names path (AList.mem_keys.mp member) with same | same
    · exact noJournal same
    · exact noPart same

theorem secluded_alike (caller id file : String) (left right : State)
    (checked : secluded caller id file left = true) (checked' : secluded caller id file right = true) :
    Alike caller left right := by
  obtain ⟨running, free, ids, ⟨s, a, listed, here, named, owned, unlocked⟩, names⟩ :=
    secluded_sound caller id file left checked
  obtain ⟨running', free', ids', ⟨t, b, listed', there, named', owned', unlocked'⟩, names'⟩ :=
    secluded_sound caller id file right checked'
  have stranger : owner smallPeer ≠ caller := by
    simp only [secluded, Bool.and_eq_true, bne_iff_ne] at checked
    exact checked.1.2
  refine ⟨running.trans running'.symm, (fun _ _ => False), by simp [free, free'], fun key => (ids key).trans
    (ids' key).symm, ?_, ?_⟩
  · intro key s' t' found found'
    obtain rfl : key = id := by
      by_contra other
      rw [(ids key).mpr other] at found
      cases found
    obtain rfl := Option.some.inj (listed.symm.trans found)
    obtain rfl := Option.some.inj (listed'.symm.trans found')
    exact ⟨a, b, here, there, named.trans named'.symm, owned.trans owned'.symm, by simp [unlocked, unlocked'],
      fun mine => absurd (owned.symm.trans mine) stranger⟩
  · refine ⟨?_, (fun _ _ none => none.elim), (fun _ _ _ none => none.elim), (fun _ _ _ none => none.elim)⟩
    intro path seen
    have hidden : left.store.ownerOf id = some (owner smallPeer) := by
      simp [Store.ownerOf, listed, here, owned]
    have noJournal : path ≠ journalPath id := fun same => seen ⟨id, _, hidden, stranger, .inl same⟩
    have noPart : path ≠ partPath id file := fun same => seen ⟨id, _, hidden, stranger, .inr ⟨file, same⟩⟩
    rw [names path noJournal noPart, names' path noJournal noPart]
    exact .absent

def nosyPeer : Peer := ⟨"10.0.0.3", none⟩

def registeredRun : List Label := .start :: .call (.register (wideRegister smallId)) :: advances 0 7

-- A peer asks about the session of another one, which has a byte of its file on
-- one side and is cancelled on the other.
theorem nosy_peer_learns_nothing : ∃ left right,
    left.store.disk.read (partPath smallId wideFile.id) = some [7] ∧
      right.store.disk.read (partPath smallId wideFile.id) = none ∧
      (∀ faults, Option.Rel (SameAnswer left.store (.status nosyPeer smallId) (.status nosyPeer smallId))
        (serve emptyHash left (.status nosyPeer smallId) faults)
        (serve emptyHash right (.status nosyPeer smallId) faults)) ∧
      serve emptyHash left (.status nosyPeer smallId)
      [none, none, none, none] = some (some (.plain 404)) := by
  obtain ⟨left, reachedLeft, checked⟩ := Transition.replay_reaches (step emptyHash) (fun _ _ => True)
    (registeredRun ++ .call (.upload (brokenUpload smallId 7)) :: advances 1 9) emptyState
    (fun left => secluded (owner nosyPeer) smallId wideFile.id left &&
    (left.store.disk.read (partPath smallId wideFile.id) == some [7] &&
      serve emptyHash left (.status nosyPeer smallId) [none, none, none, none] == some (some (.plain 404))))
      (by decide +kernel)
  obtain ⟨right, reachedRight, checked'⟩ := Transition.replay_reaches (step emptyHash) (fun _ _ => True)
    (registeredRun ++ .call (.cancel none smallId) :: advances 1 8) emptyState
    (fun right => secluded (owner nosyPeer) smallId wideFile.id right &&
      (right.store.disk.read (partPath smallId wideFile.id) == none && right.store.heap.any
      (·.record.cancelled))) (by decide +kernel)
  simp only [Bool.and_eq_true, beq_iff_eq] at checked checked'
  obtain ⟨alone, stored, answered⟩ := checked
  obtain ⟨alone', empty, _⟩ := checked'
  have alike := secluded_alike (owner nosyPeer) smallId wideFile.id left right alone alone'
  exact ⟨left, right, stored, empty,
    (owners_do_not_interfere emptyHash (owner nosyPeer) emptyState left emptyState right empty_initial
    empty_initial reachedLeft
      reachedRight alike _ _ (.status nosyPeer smallId rfl)).1, answered⟩

end GoshTransfer
