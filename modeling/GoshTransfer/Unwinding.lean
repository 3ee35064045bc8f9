import GoshTransfer.Owners

set_option autoImplicit false

namespace GoshTransfer

open InodeStore

-- The next steps of one request on the two sides: both wait or fail to apply, or
-- both act alike and go on in phases that belong together.
def Twin {Phase : Type} (pair : Nat → Nat → Prop) (s t : Nat) (onward : Act → Phase → Phase → Prop)
    (m m' : Option (Move Phase)) : Prop :=
  Option.Rel (fun left right => ActAlike pair s t left.1 right.1 ∧ onward left.1 left.2.2 right.2.2) m m'

def Lockstep {Phase : Type} (pair : Nat → Nat → Prop) (left right : Store)
    (onward : Act → Phase → Phase → Prop) (m m' : Option (Move Phase)) : Prop :=
  ∃ s t, Together s t left right ∧ Twin pair s t onward m m'

section Steps

variable {Phase : Type} (pair : Nat → Nat → Prop) (s t : Nat) (onward : Act → Phase → Phase → Prop)

theorem twin_plain (fault : Option Fault) (act act' : Act) (log log' : List Entry) (next next' : Phase)
    (acts : ActAlike pair s t act act') (phases : onward act next next') :
    Twin pair s t onward (plain fault act log next) (plain fault act' log' next') := by
  cases fault with
  | none => exact .some ⟨acts, phases⟩
  | some fault => exact .none

theorem twin_ite (condition : Prop) [Decidable condition] (m n m' n' : Option (Move Phase))
    (holds : condition → Twin pair s t onward m m') (fails : ¬ condition → Twin pair s t onward n n') :
    Twin pair s t onward (if condition then m else n) (if condition then m' else n') := by
  by_cases decided : condition
  · rw [if_pos decided, if_pos decided]
    exact holds decided
  · rw [if_neg decided, if_neg decided]
    exact fails decided

theorem twin_persist (record : Record) (fault : Option Fault) (next next' : Phase)
    (failed failed' : EngineError → Phase) (saves : onward (.persist s record true) next next')
    (fails : ∀ saved e, onward (.persist s record saved) (failed e) (failed' e)) :
    Twin pair s t onward (persistStep s record fault next failed)
    (persistStep t record fault next' failed') := by
  cases fault with
  | none => exact .some ⟨.persist record true, saves⟩
  | some fault =>
      cases fault with
      | persist saved => exact .some ⟨.persist record saved, fails saved _⟩
      | _ => exact .none

theorem twin_remove (path : Path) (fault : Option Fault) (log log' : List Entry) (next next' : Phase)
    (removes : onward (.remove path) next next') (fails : onward .tau next next') :
    Twin pair s t onward (removeStep path fault log next) (removeStep path fault log' next') := by
  cases fault with
  | none => exact .some ⟨.remove path, removes⟩
  | some fault =>
      cases fault with
      | remove => exact .some ⟨.tau, fails⟩
      | _ => exact .none

theorem twin_lock (left right : Store) (a b : Session) (here : left.heap[s]? = some a)
    (there : right.heap[t]? = some b) (free : a.lock = none ↔ b.lock = none) (fault : Option Fault)
    (next next' : Phase) (phases : onward (.acquire s) next next') :
    Twin pair s t onward (lockStep left s fault next) (lockStep right t fault next') := by
  unfold lockStep
  rw [here, there]
  by_cases taken : a.lock = none
  · simp only [Option.bind_some, if_pos taken, if_pos (free.mp taken)]
    exact twin_plain pair s t onward fault _ _ _ _ _ _ .acquire phases
  · simp only [Option.bind_some, if_neg taken, if_neg fun empty => taken (free.mpr empty)]
    exact .none

theorem twin_lookup (caller : String) (left right : Store) (alike : StoreAlike caller pair left right)
    (id : String) (fault : Option Fault) (found found' : Nat → Phase) (missing missing' : Phase)
    (finds : ∀ s' t', Bound id s' t' left right → onward .tau (found s') (found' t'))
    (misses : left.sessions.lookup id = none → onward .tau missing missing') :
    Twin pair s t onward (lookupStep left id fault found missing)
    (lookupStep right id fault found' missing') := by
  unfold lookupStep
  cases here : left.sessions.lookup id with
  | none =>
      rw [(alike.ids id).mp here]
      exact twin_plain pair s t onward fault _ _ _ _ _ _ .tau (misses here)
  | some s' =>
      cases there : right.sessions.lookup id with
      | none => cases here.symm.trans ((alike.ids id).mpr there)
      | some t' => exact twin_plain pair s t onward fault _ _ _ _ _ _ .tau (finds s' t' ⟨here, there⟩)

end Steps

theorem bound_apply (id : String) (s t : Nat) (left right : Store) (bond : Bound id s t left right)
    (pair : Nat → Nat → Prop) (s' t' : Nat) (act act' : Act) (acts : ActAlike pair s' t' act act')
    (o p : Nat) : Bound id s t (left.apply o act) (right.apply p act') := by
  obtain ⟨noInsert, noEvict, noInsert', noEvict'⟩ := act_alike_map pair s' t' act act' acts
  refine ⟨?_, ?_⟩
  · rw [apply_sessions left o act noInsert noEvict]
    exact bond.left
  · rw [apply_sessions right p act' noInsert' noEvict']
    exact bond.right

theorem partial_length_alike (visible : Path → Prop) (pair : Nat → Nat → Prop) (left right : ReceiverDisk)
    (same : Matching visible pair left right) (path : Path) (seen : visible path) (fault : Option Fault) :
    partialLength left path fault = partialLength right path fault := by
  have named := same.names path seen
  unfold partialLength
  generalize left.node path = a at named
  generalize right.node path = b at named
  cases named with
  | file i j paired =>
      obtain ⟨bytes, here, there⟩ := same.contents i j paired
      simp only [here, there]
  | _ => rfl

theorem own_session (caller : String) (a b : Session) (alike : SessionAlike caller a b)
    (mine : a.owner = caller) :
    b = { a with lock := b.lock } := by
  obtain ⟨record, finished, cancel⟩ := alike.own mine
  have named := alike.named
  have owned := alike.owned
  cases a
  cases b
  simp_all

section Requests

variable (caller : String) (pair : Nat → Nat → Prop) (left right : State) (baseLeft : Base left)
    (baseRight : Base right)
  (alike : StoreAlike caller pair left.store right.store)

include baseLeft baseRight alike

theorem bound_sessions (id : String) (s t : Nat) (bond : Bound id s t left.store right.store) :
    ∃ a b, left.store.heap[s]? = some a ∧ right.store.heap[t]? = some b ∧ SessionAlike caller a b ∧
      a.id = id ∧
      a.record.owner = a.owner ∧ b.record.owner = a.owner ∧ left.store.ownerOf id = some a.owner := by
  obtain ⟨a, b, here, there, twins⟩ := alike.sessions id s t bond.left bond.right
  obtain ⟨known, at_, named⟩ := baseLeft.mapped id s bond.left
  obtain rfl := Option.some.inj (here.symm.trans at_)
  refine ⟨a, b, here, there, twins, named, (baseLeft.sound s a here).owned.symm, ?_, ?_⟩
  · exact (baseRight.sound t b there).owned.symm.trans twins.owned.symm
  · simp [Store.ownerOf, bond.left, here]

omit baseRight in
theorem own_checkpoints (id : String) (s : Nat) (a : Session) (here : left.store.heap[s]? = some a)
    (named : a.id = id) (mine : left.store.ownerOf id = some caller) (record : Record)
    (fault : Option Fault) :
    checkpoints left.store.disk a.id record fault = checkpoints right.store.disk a.id record fault := by
  refine checkpoints_lengths _ _ a.id record fault fun file => ?_
  refine partial_length_alike _ pair _ _ alike.disk _ (part_seen caller left baseLeft a.id file ?_ ?_) fault
  · exact session_id_length left baseLeft s a here
  · intro who owned
    rw [named, mine] at owned
    exact (Option.some.inj owned).symm

omit baseRight in
theorem own_snapshot (id : String) (s : Nat) (a : Session) (here : left.store.heap[s]? = some a)
    (named : a.id = id) (mine : left.store.ownerOf id = some caller) (fault : Option Fault) :
    snapshot left.store.disk a.id a.record fault = snapshot right.store.disk a.id a.record fault := by
  unfold snapshot
  rw [own_checkpoints caller pair left right baseLeft alike id s a here named mine]

end Requests

inductive StatusTwin (id : String) (left right : Store) : StatusPhase → StatusPhase → Prop where
  | lookup : StatusTwin id left right .lookup .lookup
  | lock (s t : Nat) (bond : Bound id s t left right) : StatusTwin id left right (.lock s) (.lock t)
  | answer (s t : Nat) (bond : Bound id s t left right) : StatusTwin id left right (.answer s) (.answer t)
  | leave (s t : Nat) (reply : Response) (bond : Bound id s t left right) :
      StatusTwin id left right (.leave s reply) (.leave t reply)
  | done (reply : Response) : StatusTwin id left right (.done reply) (.done reply)

section Status

variable (caller : String) (pair : Nat → Nat → Prop) (left right : State) (baseLeft : Base left)
    (baseRight : Base right)
  (alike : StoreAlike caller pair left.store right.store) (fault : Option Fault)

include baseLeft baseRight alike

theorem status_lockstep (peer : Peer) (mine : owner peer = caller) (id : String) (phase phase' : StatusPhase)
    (matched : StatusTwin id left.store right.store phase phase') :
    Lockstep pair left.store right.store (fun _ => StatusTwin id left.store right.store)
      (phase.next peer id left.store fault) (phase'.next peer id right.store fault) := by
  cases matched with
  | lookup =>
      refine ⟨_, _, unbound_together caller pair _ _ alike, ?_⟩
      exact twin_lookup pair _ _ _ caller _ _ alike id fault _ _ _ _ (fun s t bond => .lock s t bond)
        (fun _ => .done _)
  | lock s t bond =>
      refine ⟨s, t, bound_together left right baseLeft baseRight id s t bond, ?_⟩
      obtain ⟨a, b, here, there, twins, _⟩ :=
        bound_sessions caller pair left right baseLeft baseRight alike id s t bond
      exact twin_lock pair s t _ _ _ a b here there twins.free fault _ _ (.answer s t bond)
  | answer s t bond =>
      refine ⟨s, t, bound_together left right baseLeft baseRight id s t bond, ?_⟩
      obtain ⟨a, b, here, there, twins, named, owned, owned', held⟩ :=
        bound_sessions caller pair left right baseLeft baseRight alike id s t bond
      simp only [StatusPhase.next, here, there, Option.bind_some, owned, owned']
      refine twin_ite pair s t _ _ _ _ _ _ (fun _ => ?_) (fun ours => ?_)
      · exact twin_plain pair s t _ fault _ _ _ _ _ _ .tau (.leave s t _ bond)
      · have own : a.owner = caller := (not_not.mp ours).trans mine
        rw [own_session caller a b twins own,
          own_snapshot caller pair left right baseLeft alike id s a here named (own ▸ held) fault]
        exact twin_ite pair s t _ _ _ _ _ _ (fun _ => .some ⟨.tau, .leave s t _ bond⟩) (fun _ => .none)
  | leave s t reply bond =>
      refine ⟨s, t, bound_together left right baseLeft baseRight id s t bond, ?_⟩
      exact twin_plain pair s t _ fault _ _ _ _ _ _ .release (.done reply)
  | done reply => exact ⟨_, _, unbound_together caller pair _ _ alike, .none⟩

end Status

-- A caller that came past the owner check works on a session of its own.
inductive CancelTwin (caller id : String) (left right : Store) : CancelPhase → CancelPhase → Prop where
  | authorize : CancelTwin caller id left right .authorize .authorize
  | lookup (own : left.ownerOf id = some caller) : CancelTwin caller id left right .lookup .lookup
  | finished (s t : Nat) (bond : Bound id s t left right) (own : left.ownerOf id = some caller) :
      CancelTwin caller id left right (.finished s) (.finished t)
  | trip (s t : Nat) (bond : Bound id s t left right) (own : left.ownerOf id = some caller) :
      CancelTwin caller id left right (.trip s) (.trip t)
  | lock (s t : Nat) (bond : Bound id s t left right) (own : left.ownerOf id = some caller) :
      CancelTwin caller id left right (.lock s) (.lock t)
  | decide (s t : Nat) (bond : Bound id s t left right) (own : left.ownerOf id = some caller) :
      CancelTwin caller id left right (.decide s) (.decide t)
  | discard (s t : Nat) (files : List String) (bytes : Nat) (bond : Bound id s t left right)
      (own : left.ownerOf id = some caller) :
      CancelTwin caller id left right (.discard s files bytes) (.discard t files bytes)
  | leave (s t : Nat) (reply : Except EngineError Unit) (bond : Bound id s t left right) :
      CancelTwin caller id left right (.leave s reply) (.leave t reply)
  | done (reply : Except EngineError Unit) : CancelTwin caller id left right (.done reply) (.done reply)
  | foreign : CancelTwin caller id left right .foreign .foreign

section Cancel

variable (caller : String) (pair : Nat → Nat → Prop) (left right : State) (baseLeft : Base left)
    (baseRight : Base right)
  (alike : StoreAlike caller pair left.store right.store) (fault : Option Fault)

include baseLeft baseRight alike

theorem own_bound (id : String) (s t : Nat) (bond : Bound id s t left.store right.store)
    (own : left.store.ownerOf id = some caller) :
    ∃ a lock, left.store.heap[s]? = some a ∧ right.store.heap[t]? = some { a with lock := lock } ∧ a.id = id ∧
      (a.lock = none ↔ lock = none) := by
  obtain ⟨a, b, here, there, twins, named, _, _, held⟩ :=
    bound_sessions caller pair left right baseLeft baseRight alike id s t bond
  have mine : a.owner = caller := Option.some.inj (held.symm.trans own)
  exact ⟨a, b.lock, here, there.trans (congrArg some (own_session caller a b twins mine)), named, twins.free⟩

theorem authorize_lockstep (peer : Peer) (mine : owner peer = caller) (id : String) :
    Lockstep pair left.store right.store (fun _ => CancelTwin caller id left.store right.store)
      (CancelPhase.authorize.next (some peer) id left.store fault)
      (CancelPhase.authorize.next (some peer) id right.store fault) := by
  refine ⟨_, _, unbound_together caller pair _ _ alike, ?_⟩
  simp only [CancelPhase.next]
  cases here : left.store.sessions.lookup id with
  | none =>
      rw [(alike.ids id).mp here]
      exact twin_plain pair _ _ _ fault _ _ _ _ _ _ .tau (.done _)
  | some s =>
      cases there : right.store.sessions.lookup id with
      | none => cases here.symm.trans ((alike.ids id).mpr there)
      | some t =>
          obtain ⟨a, b, atS, atT, twins, _, _, _, held⟩ :=
            bound_sessions caller pair left right baseLeft baseRight alike id s t ⟨here, there⟩
          simp only [atS, atT, Option.bind_some, Option.map_some, ← twins.owned]
          refine twin_ite pair _ _ _ _ _ _ _ _ (fun ours => ?_) (fun _ => ?_)
          · have own : a.owner = caller := (Option.some.inj ours).symm.trans mine
            exact twin_plain pair _ _ _ fault _ _ _ _ _ _ .tau (.lookup (own ▸ held))
          · exact twin_plain pair _ _ _ fault _ _ _ _ _ _ .tau .foreign

theorem decide_lockstep (peer : Peer) (id : String) (s t : Nat) (bond : Bound id s t left.store right.store)
    (own : left.store.ownerOf id = some caller) :
    Lockstep pair left.store right.store (fun _ => CancelTwin caller id left.store right.store)
      ((CancelPhase.decide s).next (some peer) id left.store fault) ((CancelPhase.decide t).next (some peer) id right.store fault) := by
  obtain ⟨a, lock, here, there, named, _⟩ := own_bound caller pair left right baseLeft baseRight alike id s t bond own
  refine ⟨s, t, bound_together left right baseLeft baseRight id s t bond, ?_⟩
  simp only [CancelPhase.next, here, there, Option.bind_some]
  refine twin_ite pair s t _ _ _ _ _ _ (fun _ => ?_) (fun _ => ?_)
  · exact twin_plain pair s t _ fault _ _ _ _ _ _ .tau (.leave s t _ bond)
  · refine twin_ite pair s t _ _ _ _ _ _ (fun _ => ?_) (fun _ => ?_)
    · exact twin_plain pair s t _ fault _ _ _ _ _ _ .tau (.leave s t _ bond)
    · rw [own_checkpoints caller pair left right baseLeft alike id s a here named own a.record fault]
      cases checkpoints right.store.disk a.id a.record fault with
      | error e => exact twin_ite pair s t _ _ _ _ _ _ (fun _ => .some ⟨.tau, .leave s t _ bond⟩) (fun _ => .none)
      | ok points =>
          exact twin_persist pair s t _ _ fault _ _ _ _ (.discard s t _ _ bond own) (fun _ _ => .leave s t _ bond)

theorem cancel_lockstep (peer : Peer) (mine : owner peer = caller) (id : String) (phase phase' : CancelPhase)
    (matched : CancelTwin caller id left.store right.store phase phase') :
    Lockstep pair left.store right.store (fun _ => CancelTwin caller id left.store right.store)
      (phase.next (some peer) id left.store fault) (phase'.next (some peer) id right.store fault) := by
  cases matched with
  | authorize => exact authorize_lockstep caller pair left right baseLeft baseRight alike fault peer mine id
  | lookup own =>
      refine ⟨_, _, unbound_together caller pair _ _ alike, ?_⟩
      exact twin_lookup pair _ _ _ caller _ _ alike id fault _ _ _ _ (fun s t bond => .finished s t bond own) (fun _ => .done _)
  | finished s t bond own =>
      obtain ⟨a, lock, here, there, _⟩ := own_bound caller pair left right baseLeft baseRight alike id s t bond own
      refine ⟨s, t, bound_together left right baseLeft baseRight id s t bond, ?_⟩
      simp only [CancelPhase.next, here, there, Option.bind_some]
      refine twin_ite pair s t _ _ _ _ _ _ (fun _ => ?_) (fun _ => ?_)
      · exact twin_plain pair s t _ fault _ _ _ _ _ _ .tau (.done _)
      · exact twin_plain pair s t _ fault _ _ _ _ _ _ .tau (.trip s t bond own)
  | trip s t bond own =>
      refine ⟨s, t, bound_together left right baseLeft baseRight id s t bond, ?_⟩
      exact twin_plain pair s t _ fault _ _ _ _ _ _ .trip (.lock s t bond own)
  | lock s t bond own =>
      obtain ⟨a, lock, here, there, _, free⟩ := own_bound caller pair left right baseLeft baseRight alike id s t bond own
      refine ⟨s, t, bound_together left right baseLeft baseRight id s t bond, ?_⟩
      exact twin_lock pair s t _ _ _ _ _ here there free fault _ _ (.decide s t bond own)
  | decide s t bond own => exact decide_lockstep caller pair left right baseLeft baseRight alike fault peer id s t bond own
  | discard s t files bytes bond own =>
      obtain ⟨a, lock, here, there, _⟩ := own_bound caller pair left right baseLeft baseRight alike id s t bond own
      refine ⟨s, t, bound_together left right baseLeft baseRight id s t bond, ?_⟩
      cases files with
      | nil =>
          simp only [CancelPhase.next, here, there, Option.bind_some]
          exact twin_plain pair s t _ fault _ _ _ _ _ _ .tau (.leave s t _ bond)
      | cons file rest =>
          simp only [CancelPhase.next, here, there, Option.bind_some]
          exact twin_remove pair s t _ _ fault _ _ _ _ (.discard s t rest bytes bond own) (.discard s t rest bytes bond own)
  | leave s t reply bond =>
      refine ⟨s, t, bound_together left right baseLeft baseRight id s t bond, ?_⟩
      exact twin_plain pair s t _ fault _ _ _ _ _ _ .release (.done reply)
  | done reply => exact ⟨_, _, unbound_together caller pair _ _ alike, .none⟩
  | foreign => exact ⟨_, _, unbound_together caller pair _ _ alike, .none⟩

end Cancel

-- register up to the point where it writes a journal of its own; new says that
-- there is no session under the id.
inductive RegisterTwin (request : RegisterRequest) (new : Prop) (left right : Store) : RegisterPhase →
    RegisterPhase → Prop where
  | validate (absent : left.sessions.lookup request.id = none → new) :
      RegisterTwin request new left right .validate .validate
  | enroll (absent : left.sessions.lookup request.id = none → new) :
      RegisterTwin request new left right .enroll .enroll
  | lookup (absent : left.sessions.lookup request.id = none → new) :
      RegisterTwin request new left right .lookup .lookup
  | lock (s t : Nat) (bond : Bound request.id s t left right) :
      RegisterTwin request new left right (.lock s) (.lock t)
  | compare (s t : Nat) (bond : Bound request.id s t left right) :
      RegisterTwin request new left right (.compare s) (.compare t)
  | create (absent : left.sessions.lookup request.id = none) (fresh : new) :
      RegisterTwin request new left right .create .create
  | leave (s t : Nat) (reply : Response) (bond : Bound request.id s t left right) :
      RegisterTwin request new left right (.leave s reply) (.leave t reply)
  | retire (reply : Response) : RegisterTwin request new left right (.retire reply) (.retire reply)
  | done (reply : Response) : RegisterTwin request new left right (.done reply) (.done reply)

-- The answers to two registrations of one new session, which draw their tokens.
def FreshReply (token token' : String) (reply reply' : Response) : Prop :=
  reply = reply' ∨ ∃ status : ResumeStatus,
    reply = ⟨200, .status { status with token := some token }⟩ ∧
      reply' = ⟨200, .status { status with token := some token' }⟩

def SameParts (id : String) (left right : Store) : Prop :=
  ∀ file fault, partialLength left.disk (partPath id file) fault = partialLength right.disk
    (partPath id file) fault

-- register with a journal of its own.
inductive RegisterLate (request request' : RegisterRequest) (new : Prop) (left right : Store) :
    RegisterPhase → RegisterPhase → Prop where
  | insert (fresh : new) (parts : SameParts request.id left right) :
      RegisterLate request request' new left right .insert .insert
  | respond (fresh : new) (parts : SameParts request.id left right) :
      RegisterLate request request' new left right .respond .respond
  | retire (reply reply' : Response) (fresh : new)
      (same : FreshReply request.token request'.token reply reply') :
      RegisterLate request request' new left right (.retire reply) (.retire reply')
  | done (reply reply' : Response) (fresh : new)
      (same : FreshReply request.token request'.token reply reply') :
      RegisterLate request request' new left right (.done reply) (.done reply')

theorem keys_length_same (caller : String) (pair : Nat → Nat → Prop) (left right : Store)
    (alike : StoreAlike caller pair left right) :
    left.sessions.keys.length = right.sessions.keys.length := by
  refine List.Perm.length_eq
    ((List.perm_ext_iff_of_nodup left.sessions.nodupKeys right.sessions.nodupKeys).mpr ?_)
  intro id
  have listed := (alike.ids id).not
  rw [← ne_eq, ← ne_eq, Option.ne_none_iff_isSome, Option.ne_none_iff_isSome, AList.lookup_isSome,
    AList.lookup_isSome] at listed
  exact listed

section Register

variable (caller : String) (pair : Nat → Nat → Prop) (left right : State) (baseLeft : Base left)
    (baseRight : Base right)
  (alike : StoreAlike caller pair left.store right.store) (fault : Option Fault)
    (request request' : RegisterRequest) (new : Prop)
  (mine : owner request.peer = caller)
    (same : request' = { request with token := request'.token, now := request'.now })

section Early

include baseLeft baseRight alike mine same

theorem compare_lockstep (s t : Nat) (bond : Bound request.id s t left.store right.store) :
    Lockstep pair left.store right.store (fun _ => RegisterTwin request new left.store right.store)
      ((RegisterPhase.compare s).next request left.store fault)
      ((RegisterPhase.compare t).next request' right.store fault) := by
  rw [same]
  obtain ⟨a, b, here, there, twins, named, owned, owned', held⟩ :=
    bound_sessions caller pair left right baseLeft baseRight alike request.id s t bond
  refine ⟨s, t, bound_together left right baseLeft baseRight request.id s t bond, ?_⟩
  simp only [RegisterPhase.next, here, there, Option.bind_some, mine]
  by_cases own : a.owner = caller
  · rw [own_session caller a b twins own,
      own_snapshot caller pair left right baseLeft alike request.id s a here named (own ▸ held) fault]
    refine twin_ite pair s t _ _ _ _ _ _ (fun _ => ?_) (fun _ => ?_)
    · exact twin_plain pair s t _ fault _ _ _ _ _ _ .tau (.leave s t _ bond)
    · exact twin_ite pair s t _ _ _ _ _ _ (fun _ => .some ⟨.tau, .leave s t _ bond⟩) (fun _ => .none)
  -- A foreign session is refused before anything of it is read.
  · rw [if_pos (.inl fun equal => own (owned.symm.trans equal)),
      if_pos (.inl fun equal => own (owned'.symm.trans equal))]
    exact twin_plain pair s t _ fault _ _ _ _ _ _ .tau (.leave s t _ bond)

theorem register_lockstep (phase phase' : RegisterPhase) (notCreate : phase ≠ .create)
    (matched : RegisterTwin request new left.store right.store phase phase') :
    Lockstep pair left.store right.store (fun _ => RegisterTwin request new left.store right.store)
      (phase.next request left.store fault) (phase'.next request' right.store fault) := by
  cases matched with
  | validate absent =>
      rw [same]
      refine ⟨_, _, unbound_together caller pair _ _ alike, ?_⟩
      simp only [RegisterPhase.next]
      cases request.manifest.validate with
      | error e => exact twin_plain pair _ _ _ fault _ _ _ _ _ _ .tau (.done _)
      | ok _ => exact twin_plain pair _ _ _ fault _ _ _ _ _ _ .tau (.enroll absent)
  | enroll absent =>
      refine ⟨_, _, unbound_together caller pair _ _ alike, ?_⟩
      simp only [RegisterPhase.next, enrollStep, ← alike.registration]
      exact twin_ite pair _ _ _ _ _ _ _ _ (fun _ => twin_plain pair _ _ _ fault _ _ _ _ _ _ .enroll (.lookup absent)) (fun _ => .none)
  | lookup absent =>
      rw [same]
      refine ⟨_, _, unbound_together caller pair _ _ alike, ?_⟩
      simp only [RegisterPhase.next]
      refine twin_ite pair _ _ _ _ _ _ _ _ (fun _ => ?_) (fun _ => ?_)
      · exact twin_plain pair _ _ _ fault _ _ _ _ _ _ .tau (.retire _)
      · exact twin_lookup pair _ _ _ caller _ _ alike request.id fault _ _ _ _ (fun s t bond => .lock s t bond)
          (fun missing => .create missing (absent missing))
  | lock s t bond =>
      obtain ⟨a, b, here, there, twins, _⟩ := bound_sessions caller pair left right baseLeft baseRight alike request.id s t bond
      refine ⟨s, t, bound_together left right baseLeft baseRight request.id s t bond, ?_⟩
      exact twin_lock pair s t _ _ _ a b here there twins.free fault _ _ (.compare s t bond)
  | compare s t bond => exact compare_lockstep caller pair left right baseLeft baseRight alike fault request request' new mine same s t bond
  | create absent fresh => exact absurd rfl notCreate
  | leave s t reply bond =>
      refine ⟨s, t, bound_together left right baseLeft baseRight request.id s t bond, ?_⟩
      exact twin_plain pair s t _ fault _ _ _ _ _ _ .release (.retire reply)
  | retire reply =>
      refine ⟨_, _, unbound_together caller pair _ _ alike, ?_⟩
      exact twin_plain pair _ _ _ fault _ _ _ _ _ _ .retire (.done reply)
  | done reply => exact ⟨_, _, unbound_together caller pair _ _ alike, .none⟩

end Early

theorem parts_journal (id : String) (left right : Store) (parts : SameParts id left right) (o p : Nat)
    (record record' : Record) (saved : Bool) :
    SameParts id (left.apply o (.journal record saved)) (right.apply p (.journal record' saved)) := by
  have kept : ∀ (store : Store) (q : Nat) (written : Record) (file : String) (lost : Option Fault),
      partialLength (store.apply q (.journal written saved)).disk (partPath id file) lost =
        partialLength store.disk (partPath id file) lost := by
    intro store q written file lost
    cases saved with
    | false => rfl
    | true =>
        have node : (store.apply q (.journal written true)).disk.node (partPath id file) = store.disk.node
          (partPath id file) :=
          (node_save _ _ _ _).trans (if_neg (part_ne_journal _ _ _))
        refine partial_length_same _ _ _ lost node ?_
        unfold Disk.read
        rw [node]
        rfl
  intro file lost
  rw [kept, kept]
  exact parts file lost

include baseLeft alike in
theorem new_parts (sized : request.id.toList.length = 36)
    (absent : left.store.sessions.lookup request.id = none) :
    SameParts request.id left.store right.store := by
  intro file lost
  refine partial_length_alike _ pair _ _ alike.disk _
    (part_seen caller left baseLeft request.id file sized ?_) lost
  intro who owned
  simp [Store.ownerOf, absent] at owned

include baseLeft alike in
theorem create_late (o p : Nat) (valid : request.manifest.Valid)
    (absent : left.store.sessions.lookup request.id = none) (fresh : new) :
    Option.Rel (fun m m' => RegisterLate request request' new (left.store.apply o m.1)
      (right.store.apply p m'.1) m.2.2 m'.2.2)
      (RegisterPhase.create.next request left.store fault)
      (RegisterPhase.create.next request' right.store fault) := by
  have parts := new_parts caller pair left right baseLeft alike request (valid_id_length _ valid) absent
  have count := keys_length_same caller pair _ _ alike
  simp only [RegisterPhase.next, count]
  by_cases full : right.store.sessions.keys.length ≥ sessionLimit
  · rw [if_pos full, if_pos full]
    cases fault with
    | none => exact .some (.retire _ _ fresh (.inl rfl))
    | some fault => exact .none
  · rw [if_neg full, if_neg full]
    cases fault with
    | none => exact .some (.insert fresh (parts_journal request.id _ _ parts o p _ _ true))
    | some fault =>
        cases fault with
        | persist saved => exact .some (.retire _ _ fresh (.inl rfl))
        | root => exact .some (.retire _ _ fresh (.inl rfl))
        | _ => exact .none

theorem checkpoints_record (disk : ReceiverDisk) (id : String) (a b : Record) (lost : Option Fault)
    (manifest : a.manifest = b.manifest) (receipts : a.published = b.published) :
    checkpoints disk id a lost = checkpoints disk id b lost := by
  have each : ∀ file, checkpoint disk id a lost file = checkpoint disk id b lost file := by
    intro file
    unfold checkpoint
    rw [receipts]
  unfold checkpoints
  rw [manifest]
  induction b.manifest.request.files with
  | nil => rfl
  | cons file rest ih => simp only [checkpointsFrom, each, ih]

include same in
theorem fresh_snapshot (left right : Store) (parts : SameParts request.id left right) :
    FreshReply request.token request'.token
    (snapshotResponse (snapshot left.disk request.id request.record fault))
      (snapshotResponse (snapshot right.disk request'.id request'.record fault)) := by
  have named : request'.id = request.id := by
    rw [same]
    rfl
  have lengths : checkpoints left.disk request.id request.record fault = checkpoints right.disk request.id
    request.record fault :=
    checkpoints_lengths _ _ request.id request.record fault fun file => parts file fault
  have records : checkpoints right.disk request.id request'.record fault = checkpoints right.disk request.id
    request.record fault := by
    refine checkpoints_record right.disk request.id _ _ fault ?_ ?_ <;>
      · rw [same]
        rfl
  have trust : request'.trusted = request.trusted := by rw [same]
  unfold snapshot
  rw [named, lengths, records]
  cases checkpoints right.disk request.id request.record fault with
  | error e => exact .inl rfl
  | ok files =>
      cases given : request.trusted with
      | false =>
          left
          simp [snapshotResponse, RegisterRequest.record, trust, given]
      | true =>
          right
          refine ⟨⟨.accepted, none, false, false, files⟩, ?_, ?_⟩
            <;> simp [snapshotResponse, RegisterRequest.record, trust, given]

theorem late_twin (phase phase' : RegisterPhase)
    (same : request' = { request with token := request'.token, now := request'.now }) (left right : Store)
    (o p : Nat) (matched : RegisterLate request request' new left right phase phase') :
    Option.Rel (fun m m' => RegisterLate request request' new (left.apply o m.1)
    (right.apply p m'.1) m.2.2 m'.2.2)
      (phase.next request left fault) (phase'.next request' right fault) := by
  cases matched with
  | insert fresh parts =>
      cases fault with
      | none => exact .some (.respond fresh parts)
      | some fault => exact .none
  | respond fresh parts =>
      have answers := fresh_snapshot fault request request' same left right parts
      simp only [RegisterPhase.next]
      by_cases allowed : fault = none ∨ fault = some .read
      · rw [if_pos allowed, if_pos allowed]
        exact .some (.retire _ _ fresh answers)
      · rw [if_neg allowed, if_neg allowed]
        exact .none
  | retire reply reply' fresh answers =>
      cases fault with
      | none => exact .some (.done reply reply' fresh answers)
      | some fault => exact .none
  | done reply reply' fresh answers => exact .none

end Register

end GoshTransfer
