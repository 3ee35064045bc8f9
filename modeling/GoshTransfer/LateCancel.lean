import GoshTransfer.Kept
import GoshTransfer.Completion

set_option autoImplicit false

namespace GoshTransfer

open InodeStore

def lastReceipt (record : Record) (file : TransferFile) : Bool := (receiptRecord record file []).complete

-- From upload's last look at the token to its receipt commit.
def UploadPhase.publishing : UploadPhase → Option (Nat × TransferFile)
  | .prepare s x | .choose s x _ | .link s x _ _ | .verify s x _ _ | .syncParent s x _ | .commit s x _ =>
      some (s, x.file)
  | _ => none

def Op.completing (s : Nat) (record : Record) : Op → Bool
  | .upload _ phase => phase.publishing.any fun (t, file) => t == s && lastReceipt record file
  | _ => false

-- The token is tripped only when the record is not complete and no upload is
-- past its last check with the last missing file, and a cancel that gets the
-- lock can read its checkpoints.
def lateSafe (state : State) : Label → Bool
  | .advance o fault =>
      match state.ops[o]? with
      | some (.cancel _ _ (.trip s)) => (state.store.heap[s]?).all fun session =>
          !session.record.complete && state.ops.all fun op => !op.completing s session.record
      | some (.cancel _ _ (.decide s)) => (state.store.heap[s]?).all fun session =>
          (checkpoints state.store.disk session.id session.record fault).isOk
      | _ => true
  | _ => true

def persistSaved : Label → Bool
  | .advance _ (some (.persist _)) => false
  | _ => true

def lateRun (state : State) (label : Label) : Bool :=
  forgetFree label && crashFree label && persistSaved label && lateSafe state label

-- A cancel that has tripped the token and not yet decided.
def CancelWaits (state : State) (s : Nat) : Prop :=
  ∃ (p : Nat) (caller : Option Peer) (id : String) (phase : CancelPhase),
    state.ops[p]? = some (.cancel caller id phase) ∧ (phase = .lock s ∨ phase = .decide s)

structure Late (state : State) : Prop where
  token : ∀ (s : Nat) (session : Session), state.store.heap[s]? = some session → session.cancel = true →
    session.record.complete = false ∧ (session.record.cancelled = true ∨ CancelWaits state s)
  completing : ∀ (o : Nat) (op : Op) (s : Nat) (session : Session), state.ops[o]? = some op →
    state.store.heap[s]? = some session →
    op.completing s session.record = true → session.cancel = false
  refused : ∀ (o : Nat) (request : UploadRequest) (phase : UploadPhase),
    state.ops[o]? = some (.upload request phase) →
    (∃ s, phase = .leave s (.plain 410)) ∨ phase = .done (.plain 410) →
    ∃ s session, state.store.sessions.lookup request.transferId = some s ∧
      state.store.heap[s]? = some session ∧ session.cancel = true

theorem last_receipt_target (record : Record) (file : TransferFile) (target : Path) :
    (receiptRecord record file target).complete = lastReceipt record file := by
  have keys : (record.published.insert file.id target).keys = (record.published.insert file.id []).keys := by
    ext other
    rw [Finmap.mem_keys, Finmap.mem_keys, Finmap.mem_insert, Finmap.mem_insert]
  simp [lastReceipt, receiptRecord, keys]

theorem last_receipt_published (a b : Record) (file : TransferFile) (manifest : a.manifest = b.manifest)
    (published : a.published = b.published) : lastReceipt a file = lastReceipt b file := by
  simp [lastReceipt, receiptRecord, manifest, published]

theorem completing_holds (op : Op) (s : Nat) (record : Record)
    (completing : op.completing s record = true) : op.holds = some s := by
  cases op with
  | upload request phase =>
      cases phase <;> simp_all [Op.completing, UploadPhase.publishing, Op.holds, UploadPhase.holds]
  | _ => cases completing

theorem completing_begins (sha256 : Bytes → String) (store : Store) (fault : Option Fault) (op op' : Op)
    (act : Act) (log : List Entry) (o s : Nat) (session : Session)
    (moved : OpMove sha256 store fault op act log op') (there : store.heap[s]? = some session)
    (completing : op'.completing s (act.on o s session).record = true) :
    session.cancel = false ∨ op.completing s session.record = true := by
  cases moved with
  | upload request phase next _ _ moved =>
      have kept : ∀ record : Record, record.manifest = session.record.manifest →
        record.published = session.record.published →
          ∀ file, lastReceipt record file = lastReceipt session.record file :=
          fun record manifest published file =>
        last_receipt_published record session.record file manifest published
      cases moved with
      | rechecked t session' x there' running =>
          obtain ⟨rfl, _⟩ : t = s ∧ _ := by simpa [Op.completing, UploadPhase.publishing] using completing
          obtain rfl : session = session' := Option.some.inj (there.symm.trans there')
          exact .inl running
      | prepared t x allowed =>
          rw [quiet_record _ o s session rfl] at completing
          exact .inr completing
      | chosen t session' x index there' bounded ok =>
          obtain ⟨rfl, last⟩ : t = s ∧ _ := by simpa [Op.completing, UploadPhase.publishing] using completing
          obtain rfl : session = session' := Option.some.inj (there.symm.trans there')
          right
          rw [kept _ (by simp [Act.on, chosenRecord]) (by simp [Act.on, chosenRecord])] at last
          simp [Op.completing, UploadPhase.publishing, last]
      | linked t session' x index target inode there' source free =>
          rw [quiet_record _ o s session rfl] at completing
          exact .inr completing
      | taken t session' x index target inode node there' source present =>
          rw [quiet_record _ o s session rfl] at completing
          exact .inr completing
      | adopted t session' x index target bytes there' read matching =>
          rw [quiet_record _ o s session rfl] at completing
          exact .inr completing
      | conflict t session' x index target there' different =>
          obtain ⟨rfl, last⟩ : t = s ∧ _ := by simpa [Op.completing, UploadPhase.publishing] using completing
          obtain rfl : session = session' := Option.some.inj (there.symm.trans there')
          right
          rw [kept _ (by simp [Act.on, droppedRecord]) (by simp [Act.on, droppedRecord])] at last
          simp [Op.completing, UploadPhase.publishing, last]
      | parentSynced t x target =>
          rw [quiet_record _ o s session rfl] at completing
          exact .inr completing
      | _ => cases completing
  | _ => cases completing

theorem on_cancel_cases (act : Act) (o s : Nat) (session : Session)
    (tripped : (act.on o s session).cancel = true) :
    session.cancel = true ∨ act = .trip s := by
  cases act with
  | trip t =>
      by_cases same : s = t
      · exact .inr (by rw [same])
      · exact .inl (by simpa [Act.on, same] using tripped)
  | _ =>
      left
      simp only [Act.on] at tripped
      first
        | exact tripped
        | (split at tripped <;> exact tripped)

theorem trip_cancel (sha256 : Bytes → String) (store : Store) (fault : Option Fault) (op op' : Op)
    (log : List Entry) (s : Nat) (moved : OpMove sha256 store fault op (.trip s) log op') :
    ∃ caller id, op = .cancel caller id (.trip s) ∧ op' = .cancel caller id (.lock s) := by
  cases moved with
  | cancel caller id phase next _ _ moved =>
      generalize same : Act.trip s = act at moved
      cases moved with
      | tripped t =>
          cases same
          exact ⟨caller, id, rfl, rfl⟩
      | discarded t session file rest bytes here =>
          rcases remove_act_cases (partPath session.id file) fault with gone |
            gone <;> rw [gone] at same <;> cases same
      | _ => cases same
  | accept id phase next _ _ moved => cases moved
  | reject id phase next _ _ moved => cases moved
  | status peer id phase next _ _ moved => cases moved
  | register request phase next _ _ moved => cases moved
  | forget id phase next _ _ moved =>
      generalize same : Act.trip s = act at moved
      cases moved with
      | discarded t session file rest here =>
          rcases remove_act_cases (partPath session.id file) fault with gone |
            gone <;> rw [gone] at same <;> cases same
      | _ => cases same
  | upload request phase next _ _ moved =>
      generalize same : Act.trip s = act at moved
      cases moved <;> first | cases same | (rcases remove_act_cases _ fault with gone |
        gone <;> rw [gone] at same <;> cases same)

section Advance

variable (sha256 : Bytes → String) (state : State) (base : Base state) (kept : Kept state)
    (inv : Late state) (o : Nat)
variable (fault : Option Fault) (op op' : Op) (act : Act) (log : List Entry) (here : state.ops[o]? = some op)
variable (moved : OpMove sha256 state.store fault op act log op')
include base here moved

omit base in
theorem waits_step (saved : persistSaved (.advance o fault) = true)
    (safe : lateSafe state (.advance o fault) = true) (s : Nat) (session : Session)
    (there : state.store.heap[s]? = some session) (open_ : session.record.complete = false)
    (waits : CancelWaits state s) :
    (act.on o s session).record.cancelled = true ∨
      CancelWaits { state with store := state.store.apply o act, ops := state.ops.set o op', log := state.log ++ log } s := by
  obtain ⟨p, caller, id, phase, queued, waiting⟩ := waits
  by_cases mine : p = o
  · subst mine
    obtain rfl := Option.some.inj (here.symm.trans queued)
    have within : p < state.ops.length := (List.getElem?_eq_some_iff.mp here).1
    cases moved with
    | cancel _ _ _ next _ _ moved =>
        rcases waiting with rfl | rfl
        · cases moved with
          | unknown _ early _ => rcases early with same | same <;> cases same
          | locked _ session' there' free => exact .inr ⟨p, caller, id, .decide s, by simp [within], .inr rfl⟩
        · cases moved with
          | unknown _ early _ => rcases early with same | same <;> cases same
          | complete _ session' there' ended ok =>
              obtain rfl : session = session' := Option.some.inj (there.symm.trans there')
              rw [open_] at ended
              cases ended
          | repeated _ session' there' _ ended ok =>
              obtain rfl : session = session' := Option.some.inj (there.symm.trans there')
              exact .inl ended
          | unreadable _ session' e there' _ broken _ =>
              obtain rfl : session = session' := Option.some.inj (there.symm.trans there')
              simp [lateSafe, here, there, broken, Except.isOk, Except.toBool] at safe
          | cancelled _ session' points there' _ _ ok => exact .inl (by simp [Act.on])
          | failed _ session' replaced there' _ broken =>
              rw [broken] at saved
              cases saved
  · have other : o ≠ p := fun same => mine same.symm
    exact .inr ⟨p, caller, id, phase, by simpa [List.getElem?_set, other] using queued, waiting⟩

include kept in
theorem token_kept (id : String) (tripped : ∃ s session, state.store.sessions.lookup id = some s ∧
    state.store.heap[s]? = some session ∧
    session.cancel = true) : ∃ s session, (state.store.apply o act).sessions.lookup id = some s ∧
      (state.store.apply o act).heap[s]? = some session ∧ session.cancel = true := by
  obtain ⟨s, session, present, there, token⟩ := tripped
  obtain ⟨session', there', rfl⟩ := base.mapped id s present
  obtain rfl : session = session' := Option.some.inj (there.symm.trans there')
  have after := apply_heap state.store o act s session there
  refine ⟨s, act.on o s session, ?_, after, on_cancel act o s session token⟩
  have mapped := (kept_advance sha256 state base kept o fault op op' act log here moved).mapped s _ after
  exact (congrArg ((state.store.apply o act).sessions.lookup ·) (on_id act o s session)).symm.trans mapped

theorem refused_token (request : UploadRequest) (phase : UploadPhase) (reached : op' = .upload request phase)
    (kept : Kept state) (inv : Late state)
    (answer : (∃ s, phase = .leave s (.plain 410)) ∨ phase = .done (.plain 410)) :
    ∃ s session, state.store.sessions.lookup request.transferId = some s ∧
      state.store.heap[s]? = some session ∧
      session.cancel = true := by
  have tripped : ∀ (s : Nat) (session : Session), op.session = some s →
    state.store.heap[s]? = some session → session.cancel = true →
      op.id = request.transferId → ∃ s session, state.store.sessions.lookup request.transferId = some s ∧
        state.store.heap[s]? = some session ∧ session.cancel = true := by
    intro s session known there token named
    obtain ⟨session', there', owned⟩ := base.known o op s here known
    obtain rfl : session = session' := Option.some.inj (there.symm.trans there')
    exact ⟨s, session, (congrArg (state.store.sessions.lookup ·) (owned.trans named)).symm.trans
      (kept.mapped s session there), there, token⟩
  subst reached
  cases moved with
  | upload _ before _ _ _ moved =>
      cases moved with
      | gone s session there stopped =>
          refine tripped s session rfl there ?_ rfl
          rcases stopped with cancelled | token
          · exact (base.sound s session there).token cancelled
          · exact token
      | stopped s session x chunks there token => exact tripped s session rfl there token rfl
      | stoppedLate s session x there token => exact tripped s session rfl there token rfl
      | left s reply =>
          rcases answer with ⟨_, impossible⟩ | same
          · cases impossible
          · cases same
            exact inv.refused o request _ here (.inl ⟨s, rfl⟩)
      | refuse s before reply held fallible code =>
          rcases answer with ⟨_, same⟩ | impossible
          · cases same
            exact absurd rfl code.2.1
          · cases impossible
      | _ => rcases answer with ⟨_, same⟩ | same <;> cases same

include kept inv in
theorem late_advance (saved : persistSaved (.advance o fault) = true)
    (safe : lateSafe state (.advance o fault) = true) :
    Late { state with store := state.store.apply o act, ops := state.ops.set o op', log := state.log ++ log } where
  token := by
    intro s session' there token
    rcases apply_heap_origin state.store o act s session' there with ⟨session, before, rfl⟩ |
      ⟨record, rfl, rfl, rfl⟩
    · rcases on_cancel_cases act o s session token with already | rfl
      · obtain ⟨open_, cause⟩ := inv.token s session before already
        refine ⟨?_, ?_⟩
        · by_contra complete
          rcases on_record_writes act o s session with ⟨record, writes, on⟩ | ⟨_, same⟩
          · rw [on] at complete
            obtain ⟨request, x, target, rfl, rfl, _⟩ :=
              completing_commit sha256 state.store fault op op' act log s session record moved
              before writes open_ (by simpa using complete)
            have last : lastReceipt session.record x.file = true := by
              rw [← last_receipt_target session.record x.file target]
              simpa using complete
            have := inv.completing o _ s session here before
              (by simp [Op.completing, UploadPhase.publishing, last])
            rw [already] at this
            cases this
          · rw [same] at complete
            exact complete open_
        · rcases cause with cancelled | waits
          · exact .inl ((moved_session sha256 state base o fault op op' act log here moved s session
              before).2.cancelled cancelled)
          · exact waits_step sha256 state o fault op op' act log here moved saved safe s session before
              open_ waits
      · obtain ⟨caller, id, rfl, rfl⟩ := trip_cancel sha256 state.store fault op op' log s moved
        have within : o < state.ops.length := (List.getElem?_eq_some_iff.mp here).1
        refine ⟨?_, .inr ⟨o, caller, id, .lock s, by simp [within], .inl rfl⟩⟩
        rw [quiet_record _ o s session rfl]
        simp only [lateSafe, here, before, Option.all_some, Bool.and_eq_true, Bool.not_eq_true'] at safe
        exact safe.1
    · cases op_effect sha256 state.store fault op op' _ log moved with
      | quiet _ _ _ silent => cases silent
      | insert request => cases token
  completing := by
    intro p q s session' queued there completing
    have held := completing_holds q s _ completing
    have origin : ∃ session, state.store.heap[s]? = some session ∧ session' = act.on o s session := by
      rcases apply_heap_origin state.store o act s session' there with old | ⟨record, rfl, rfl, rfl⟩
      · exact old
      · cases op_effect sha256 state.store fault op op' _ log moved with
        | quiet _ _ _ silent => cases silent
        | insert request =>
            rcases Transition.set_cases state.ops o p _ q queued with ⟨rfl, rfl⟩ | ⟨_, before⟩
            · cases held
            · obtain ⟨session, old, _⟩ := base.locked p q _ before held
              have within := (List.getElem?_eq_some_iff.mp old).1
              omega
    obtain ⟨session, before, rfl⟩ := origin
    by_contra tripped
    rcases Transition.set_cases state.ops o p op' q queued with ⟨rfl, rfl⟩ | ⟨other, waiting⟩
    · have quiet : session.cancel = false := by
        rcases completing_begins sha256 state.store fault op q act log p s session moved before
          completing with running | already
        · exact running
        · exact inv.completing p op s session here before already
      rcases on_cancel_cases act p s session (by simpa using tripped) with token | rfl
      · rw [quiet] at token
        cases token
      · obtain ⟨caller, id, rfl, rfl⟩ := trip_cancel sha256 state.store fault op q log s moved
        cases completing
    · obtain ⟨session', before', same⟩ :=
        (others_framed sha256 state base o fault op op' act log here moved p q other waiting).record s _
        held there
      obtain rfl : session = session' := Option.some.inj (before.symm.trans before')
      rw [same] at completing
      have quiet := inv.completing p q s session waiting before completing
      rcases on_cancel_cases act o s session (by simpa using tripped) with token | rfl
      · rw [quiet] at token
        cases token
      · obtain ⟨caller, id, rfl, rfl⟩ := trip_cancel sha256 state.store fault op op' log s moved
        simp only [lateSafe, here, before, Option.all_some, Bool.and_eq_true, List.all_eq_true] at safe
        have := safe.2 q (List.mem_of_getElem? waiting)
        rw [completing] at this
        cases this
  refused := by
    intro p request phase queued answer
    refine token_kept sha256 state base kept o fault op op' act log here moved request.transferId ?_
    rcases Transition.set_cases state.ops o p op' _ queued with ⟨rfl, reached⟩ | ⟨_, waiting⟩
    · exact refused_token sha256 state base p fault op op' act log here moved request phase reached.symm
        kept inv answer
    · exact inv.refused p request phase waiting answer

end Advance

theorem late_step (sha256 : Bytes → String) (state next : State) (label : Label) (base : Base state)
    (kept : Kept state) (inv : Late state) (allowed : lateRun state label = true)
    (stepped : step sha256 state label = some next) :
    Late next := by
  obtain ⟨⟨⟨_, noCrash⟩, saved⟩, safe⟩ : ((forgetFree label = true ∧ crashFree label = true) ∧
    persistSaved label = true) ∧
      lateSafe state label = true := by simpa [lateRun] using allowed
  rcases step_cases sha256 state next label stepped with ⟨call, rfl, _, rfl⟩ |
    ⟨o, fault, op, act, log, op', rfl, here, moved, rfl⟩ |
    ⟨rfl, _, rfl⟩ | ⟨store, rfl, stopped, loaded, rfl⟩
  · refine ⟨?_, ?_, ?_⟩
    · intro s session there token
      obtain ⟨open_, cause⟩ := inv.token s session there token
      refine ⟨open_, cause.imp id ?_⟩
      rintro ⟨p, caller, id, phase, queued, waiting⟩
      exact ⟨p, caller, id, phase, (List.getElem?_append_left (List.getElem?_eq_some_iff.mp queued).1).trans
        queued, waiting⟩
    · intro o op s session there present completing
      rcases Transition.append_cases state.ops o call.op op there with before | rfl
      · exact inv.completing o op s session before present completing
      · have held := completing_holds call.op s _ completing
        rw [(call_idle call).2.1] at held
        cases held
    · intro o request phase there answer
      rcases Transition.append_cases state.ops o call.op _ there with before | fresh
      · exact inv.refused o request phase before answer
      · cases call with
        | upload _ =>
            cases fresh
            rcases answer with ⟨_, same⟩ | same <;> cases same
        | _ => cases fresh
  · exact late_advance sha256 state base kept inv o fault op op' act log here moved saved safe
  · cases noCrash
  · have idle := (base.stopped stopped).1
    have spec := load_loaded state.store.disk store loaded
    have baseNext := base_start state base stopped store loaded
    refine ⟨?_, by simp [idle], by simp [idle]⟩
    intro s session there token
    have sound := baseNext.sound s session there
    obtain ⟨record, rfl, _⟩ := spec.made s session there
    have cancelled : record.cancelled = true := token
    refine ⟨?_, .inl cancelled⟩
    by_contra complete
    have := (sound.record.complete (by simpa using complete)).2.2
    rw [show (Session.new record).record.cancelled = true from cancelled] at this
    cases this

-- A request of the owner with the capability for a file of the manifest.
structure Entitled (id : String) (record : Record) (request : UploadRequest) : Prop where
  addressed : request.transferId = id
  owned : record.owner = owner request.peer
  granted : request.token = record.token
  listed : request.fileId ∈ record.manifest.fileIds

-- The way of an upload that is answered 200 at once.
def UploadPhase.Prompt (s : Nat) : UploadPhase → Prop
  | .lookup => True
  | .lock t | .entry t => t = s
  | .leave t reply => t = s ∧ reply = .plain 200
  | .done reply => reply = .plain 200
  | _ => False

theorem entry_settled (request : UploadRequest) (fault : Option Fault) (s : Nat) (id : String)
    (session : Session) (entitled : Entitled id session.record request) (sound : session.record.Sound)
    (complete : session.record.complete = true) (untripped : session.cancel = false) :
    entryStep request fault s session = plain fault .tau [] (.leave s (.plain 200)) := by
  obtain ⟨receipts, accepted, live⟩ := sound.complete complete
  obtain ⟨file, member, named⟩ := List.mem_map.mp entitled.listed
  cases found : session.record.manifest.request.files.find? (·.id == request.fileId) with
  | none =>
      have := List.find?_eq_none.mp found file member
      simp [named] at this
  | some other =>
      have published := receipts other.id (List.mem_map_of_mem (List.mem_of_find?_eq_some found))
      simp [entryStep, entitled.owned, live, untripped, accepted, entitled.granted, found, published]

theorem prompt_step (sha256 : Bytes → String) (state : State) (base : Base state) (inv : Late state)
    (request : UploadRequest) (fault : Option Fault) (s : Nat) (session : Session)
    (phase next : UploadPhase) (act : Act) (log : List Entry)
    (present : state.store.sessions.lookup request.transferId = some s)
    (there : state.store.heap[s]? = some session) (complete : session.record.complete = true)
    (entitled : Entitled request.transferId session.record request) (prompt : phase.Prompt s)
    (moved : phase.next sha256 request state.store fault = some (act, log, next)) :
    next.Prompt s ∧ log = [] ∧ (act = .tau ∨ act = .acquire s ∨ act = .release s) := by
  have untripped : session.cancel = false := by
    by_contra tripped
    rw [(inv.token s session there (by simpa using tripped)).1] at complete
    cases complete
  cases phase with
  | lookup =>
      obtain ⟨rfl, rfl, ⟨t, found, rfl⟩ | ⟨absent, rfl⟩⟩ := lookup_step_cases _ _ _ _ _ _ _ _ moved
      · exact ⟨Option.some.inj (found.symm.trans present), rfl, .inl rfl⟩
      · rw [present] at absent
        cases absent
  | lock t =>
      obtain rfl : t = s := prompt
      obtain ⟨rfl, rfl, rfl, _⟩ := lock_step_cases _ _ _ _ _ _ _ moved
      exact ⟨rfl, rfl, .inr (.inl rfl)⟩
  | entry t =>
      obtain rfl : t = s := prompt
      have stepped : entryStep request fault t session = some (act, log, next) := by
        simpa [UploadPhase.next, withSession, there] using moved
      rw [entry_settled request fault t request.transferId session entitled
        (base.sound t session there).record complete untripped] at stepped
      obtain ⟨_, rfl, rfl, rfl⟩ := (plain_eq_some _ _ _ _ _ _ _).mp stepped
      exact ⟨⟨rfl, rfl⟩, rfl, .inl rfl⟩
  | leave t reply =>
      obtain ⟨rfl, rfl⟩ : t = s ∧ reply = .plain 200 := prompt
      obtain ⟨_, rfl, rfl, rfl⟩ := (plain_eq_some _ _ _ _ _ _ _).mp moved
      exact ⟨rfl, rfl, .inr (.inr rfl)⟩
  | done reply => cases moved
  | _ => exact False.elim prompt

theorem prompt_enabled (sha256 : Bytes → String) (state : State) (base : Base state) (inv : Late state)
    (request : UploadRequest) (s : Nat) (session : Session) (phase : UploadPhase)
    (present : state.store.sessions.lookup request.transferId = some s)
    (there : state.store.heap[s]? = some session) (complete : session.record.complete = true)
    (entitled : Entitled request.transferId session.record request) (prompt : phase.Prompt s) :
    phase = .done (.plain 200) ∨ (phase = .lock s ∧ session.lock ≠ none) ∨
    (phase.next sha256 request state.store none).isSome = true := by
  have untripped : session.cancel = false := by
    by_contra tripped
    rw [(inv.token s session there (by simpa using tripped)).1] at complete
    cases complete
  cases phase with
  | lookup => exact .inr (.inr (by simp [UploadPhase.next, lookupStep, present, plain]))
  | lock t =>
      obtain rfl : t = s := prompt
      by_cases free : session.lock = none
      · exact .inr (.inr (by simp [UploadPhase.next, lockStep, there, free, plain]))
      · exact .inr (.inl ⟨rfl, free⟩)
  | entry t =>
      obtain rfl : t = s := prompt
      refine .inr (.inr ?_)
      simp [UploadPhase.next, withSession, there,
        entry_settled request none t request.transferId session entitled (base.sound t session there).record
        complete untripped, plain]
  | leave t reply => exact .inr (.inr (by simp [UploadPhase.next, plain]))
  | done reply =>
      obtain rfl : reply = .plain 200 := prompt
      exact .inl rfl
  | _ => exact False.elim prompt

-- From the moment a session is complete, with n requests made until then.
structure Settled (n s : Nat) (id : String) (first : Record) (state : State) : Prop where
  count : n ≤ state.ops.length
  present : state.store.sessions.lookup id = some s
  session : ∃ session, state.store.heap[s]? = some session ∧ first.Forward session.record ∧
    session.record.complete = true
  prompt : ∀ (o : Nat) (request : UploadRequest) (phase : UploadPhase), n ≤ o →
    state.ops[o]? = some (.upload request phase) →
    Entitled id first request → phase.Prompt s

theorem entitled_forward (id : String) (first record : Record) (request : UploadRequest)
    (forward : first.Forward record) (entitled : Entitled id first request) : Entitled id record request := by
  obtain ⟨manifest, _, owned, token⟩ := forward.same
  exact ⟨entitled.addressed, owned ▸ entitled.owned, token ▸ entitled.granted, manifest ▸ entitled.listed⟩

theorem settled_advance (sha256 : Bytes → String) (state next : State) (base : Base state)
    (kept : Kept state) (inv : Late state) (n s : Nat) (id : String) (first : Record)
    (settled : Settled n s id first state) (o : Nat) (fault : Option Fault)
    (stepped : step sha256 state (.advance o fault) = some next) : Settled n s id first next := by
  obtain ⟨op, act, log, op', here, taken, rfl⟩ := step_advance sha256 state next o fault stepped
  have moved := op_next_move sha256 state.store fault op op' act log taken
  obtain ⟨session, there, forward, complete⟩ := settled.session
  obtain ⟨session', there', named⟩ := base.mapped id s settled.present
  obtain rfl : session = session' := Option.some.inj (there.symm.trans there')
  have after := apply_heap state.store o act s session there
  have mapped := (kept_advance sha256 state base kept o fault op op' act log here moved).mapped s _ after
  have onward := (moved_session sha256 state base o fault op op' act log here moved s session there).2
  refine ⟨by simpa using settled.count, ?_, ⟨_, after, forward_trans _ _ _ forward onward,
    onward.complete complete⟩, ?_⟩
  · exact (congrArg ((state.store.apply o act).sessions.lookup ·)
      ((on_id act o s session).trans named)).symm.trans mapped
  · intro p request phase late queued entitled
    rcases Transition.set_cases state.ops o p op' _ queued with ⟨rfl, rfl⟩ | ⟨_, waiting⟩
    · cases op with
      | upload request' before =>
          simp only [Op.next, Option.map_eq_some_iff, Prod.exists, Prod.mk.injEq, Op.upload.injEq] at taken
          obtain ⟨_, _, _, taken, rfl, rfl, rfl, rfl⟩ := taken
          obtain rfl : request'.transferId = id := entitled.addressed
          exact (prompt_step sha256 state base inv request' fault s session before _ _ _ settled.present
            there complete (entitled_forward _ first session.record request' forward entitled)
            (settled.prompt p request' before late here entitled) taken).1
      | _ =>
          simp only [Op.next, Option.map_eq_some_iff, Prod.mk.injEq, reduceCtorEq, and_false,
            exists_false] at taken
    · exact settled.prompt p request phase late waiting entitled

theorem settled_step (sha256 : Bytes → String) (state next : State) (label : Label) (base : Base state)
    (kept : Kept state) (inv : Late state) (n s : Nat) (id : String) (first : Record)
    (settled : Settled n s id first state) (running : state.running = true)
    (noCrash : crashFree label = true) (stepped : step sha256 state label = some next) :
    Settled n s id first next ∧ next.running = true := by
  cases label with
  | call call =>
      rcases step_cases sha256 state next _ stepped with ⟨_, same, _, rfl⟩ | ⟨_, _, _, _, _, _, same, _⟩ |
        ⟨same, _⟩ | ⟨_, same, _⟩ <;> cases same
      refine ⟨⟨by simp [settled.count.trans (Nat.le_succ _)], settled.present, settled.session, ?_⟩, running⟩
      intro o request phase late there entitled
      rcases Transition.append_cases state.ops o call.op _ there with before | fresh
      · exact settled.prompt o request phase late before entitled
      · cases call with
        | upload _ =>
            cases fresh
            trivial
        | _ => cases fresh
  | advance o fault =>
      refine ⟨settled_advance sha256 state next base kept inv n s id first settled o fault stepped, ?_⟩
      obtain ⟨_, _, _, _, _, _, rfl⟩ := step_advance sha256 state next o fault stepped
      exact running
  | crash => cases noCrash
  | start =>
      rcases step_cases sha256 state next _ stepped with ⟨_, same, _⟩ | ⟨_, _, _, _, _, _, same, _⟩ |
        ⟨same, _⟩ | ⟨_, _, stopped, _⟩
      · cases same
      · cases same
      · cases same
      · rw [running] at stopped
        cases stopped

structure LateInvariant (state : State) : Prop where
  base : Base state
  kept : Kept state
  late : Late state

theorem late_invariant_step (sha256 : Bytes → String) (state next : State) (label : Label)
    (inv : LateInvariant state) (allowed : lateRun state label = true)
    (stepped : step sha256 state label = some next) : LateInvariant next := by
  have free : forgetFree label = true := by
    simp only [lateRun, Bool.and_eq_true] at allowed
    exact allowed.1.1.1
  exact ⟨base_step sha256 state next label inv.base stepped, kept_step sha256 state next label inv.base
    inv.kept free stepped,
    late_step sha256 state next label inv.base inv.kept inv.late allowed stepped⟩

theorem initial_late (state : State) (initial : Initial state) : LateInvariant state := by
  have empty : state.store.heap = [] := by
    rw [initial.fresh]
    rfl
  exact ⟨initial_base state initial, initial_kept state initial, by simp [empty], by simp [empty],
    by simp [initial.idle]⟩

theorem late_run (sha256 : Bytes → String) (a b : State) (inv : LateInvariant a)
    (run : Transition.Run (step sha256) (fun state label => lateRun state label = true) a b) :
    LateInvariant b :=
  Transition.run_invariant (step sha256) _ LateInvariant
    (fun state label next inv allowed stepped => late_invariant_step sha256 state next label inv allowed
    stepped) a b run inv

-- Part one: after completion every entitled request is on its way to 200 and
-- touches nothing but the lock. Part two: a 410 means that the session is
-- cancelled, or will be as soon as a waiting cancel gets the lock.
theorem completion_stable_against_cancels (sha256 : Bytes → String) (start middle final : State)
    (initial : Initial start)
    (earlier : Transition.Run (step sha256) (fun state label => lateRun state label = true) start middle)
    (later : Transition.Run (step sha256) (fun state label => lateRun state label = true) middle final) :
    (∀ (id : String) (s : Nat) (session : Session), middle.store.sessions.lookup id = some s →
      middle.store.heap[s]? = some session → session.record.complete = true →
      ∀ (o : Nat) (request : UploadRequest) (phase : UploadPhase), middle.ops.length ≤ o →
        final.ops[o]? = some (.upload request phase) → Entitled id session.record request →
        phase.Prompt s ∧
        (phase = .done (.plain 200) ∨ phase = .lock s ∨
          (phase.next sha256 request final.store none).isSome = true) ∧
        ∀ fault act log next, phase.next sha256 request final.store fault = some (act, log, next) →
          log = [] ∧ (act = .tau ∨ act = .acquire s ∨ act = .release s)) ∧
    (∀ (o : Nat) (request : UploadRequest) (phase : UploadPhase),
      final.ops[o]? = some (.upload request phase) →
      (∃ s, phase = .leave s (.plain 410)) ∨ phase = .done (.plain 410) →
      ∃ s session, final.store.sessions.lookup request.transferId = some s ∧
        final.store.heap[s]? = some session ∧
        session.record.complete = false ∧ (session.record.cancelled = true ∨ CancelWaits final s)) := by
  have inv := late_run sha256 start middle (initial_late start initial) earlier
  have invFinal := late_run sha256 middle final inv later
  refine ⟨?_, ?_⟩
  · intro id s session present there complete o request phase fresh queued entitled
    have running : middle.running = true := by
      by_contra stopped
      rw [(inv.base.stopped (by simpa using stopped)).2] at present
      cases present
    have start : Settled middle.ops.length s id session.record middle := by
      refine ⟨le_rfl, present, ⟨session, there, forward_refl _, complete⟩, ?_⟩
      intro p request phase late queued
      have := (List.getElem?_eq_some_iff.mp queued).1
      omega
    have settled := (Transition.run_invariant (step sha256) (fun state label => lateRun state label = true)
      (fun state => LateInvariant state ∧ Settled middle.ops.length s id session.record state ∧
        state.running = true)
      (fun state label next good allowed stepped =>
        ⟨late_invariant_step sha256 state next label good.1 allowed stepped,
        settled_step sha256 state next label good.1.base good.1.kept good.1.late _ s id _ good.2.1 good.2.2
          (by simp only [lateRun, Bool.and_eq_true] at allowed; exact allowed.1.1.2) stepped⟩)
      middle final later ⟨inv, start, running⟩).2.1
    obtain ⟨session', there', forward, complete'⟩ := settled.session
    have prompt := settled.prompt o request phase fresh queued entitled
    obtain rfl : request.transferId = id := entitled.addressed
    have still := entitled_forward _ session.record session'.record request forward entitled
    refine ⟨prompt, ?_, ?_⟩
    · rcases prompt_enabled sha256 final invFinal.base invFinal.late request s session' phase
        settled.present there' complete' still prompt with done | waiting | enabled
      · exact .inl done
      · exact .inr (.inl waiting.1)
      · exact .inr (.inr enabled)
    · intro fault act log next moved
      exact (prompt_step sha256 final invFinal.base invFinal.late request fault s session' phase next act
        log settled.present there' complete' still prompt moved).2
  · intro o request phase queued answer
    obtain ⟨s, session, present, there, token⟩ := invFinal.late.refused o request phase queued answer
    exact ⟨s, session, present, there, invFinal.late.token s session there token⟩

-- The request at place o of the final state, entitled by the record of the first session.
def answersLate (record : Record) (o : Nat) (expected : UploadPhase → Bool) (final : State) : Bool :=
  match final.ops[o]? with
  | some (.upload request phase) =>
      decide (request.transferId = smallId ∧ record.owner = owner request.peer ∧
        request.token = record.token ∧
        request.fileId ∈ record.manifest.fileIds) && expected phase
  | _ => false

theorem answers_late_sound (record : Record) (o : Nat) (expected : UploadPhase → Bool) (final : State)
    (answered : answersLate record o expected final = true) :
    ∃ request phase, final.ops[o]? = some (.upload request phase) ∧ Entitled smallId record request ∧
      expected phase = true := by
  unfold answersLate at answered
  split at answered
  · rename_i request phase queued
    simp only [Bool.and_eq_true, decide_eq_true_eq] at answered
    obtain ⟨⟨addressed, owned, granted, listed⟩, phaseOk⟩ := answered
    exact ⟨request, phase, queued, ⟨addressed, owned, granted, listed⟩, phaseOk⟩
  · cases answered

def completesFirst (rest : Record → Nat → State → Bool) (middle : State) : Bool :=
  middle.store.sessions.lookup smallId == some 0 &&
    (middle.store.heap[0]?).any fun session => session.record.complete &&
    rest session.record middle.ops.length middle

theorem completes_first_sound (rest : Record → Nat → State → Bool) (middle : State)
    (checked : completesFirst rest middle = true) :
    ∃ session, middle.store.sessions.lookup smallId = some 0 ∧ middle.store.heap[0]? = some session ∧
      session.record.complete = true ∧ rest session.record middle.ops.length middle = true := by
  simp only [completesFirst, Bool.and_eq_true, beq_iff_eq] at checked
  cases there : middle.store.heap[0]? with
  | none => simp [there] at checked
  | some session =>
      have both : session.record.complete = true ∧ rest session.record middle.ops.length middle = true := by
        simpa [there] using checked.2
      exact ⟨session, checked.1, rfl, both.1, both.2⟩

def repeatedUpload (o count : Nat) : List Label := .call (.upload smallUpload) :: advances o count

theorem small_completion_stable : ∃ middle final session request phase,
    Transition.Run (step emptyHash) (fun state label => lateRun state label = true) emptyState middle ∧
    Transition.Run (step emptyHash) (fun state label => lateRun state label = true) middle final ∧
    middle.store.heap[0]? = some session ∧ session.record.complete = true ∧
    final.ops[middle.ops.length]? = some (.upload request phase) ∧ Entitled smallId session.record request ∧
      phase.Prompt 0 := by
  obtain ⟨middle, earlier, checked⟩ :=
    Transition.replay_reaches (step emptyHash) (fun state label => lateRun state label = true)
    (.start :: .call (.register (smallRegister true)) :: advances 0 7 ++ .call (.upload smallUpload) ::
      advances 1 18) emptyState
    (completesFirst fun record o middle => (Transition.replay (step emptyHash)
      (fun state label => lateRun state label = true) middle (repeatedUpload 2 4)).any
      (answersLate record o fun _ => true)) (by decide +kernel)
  obtain ⟨session, present, there, complete, rest⟩ := completes_first_sound _ middle checked
  obtain ⟨final, later, answered⟩ :=
    Transition.replay_reaches (step emptyHash) (fun state label => lateRun state label = true) _ middle _ rest
  obtain ⟨request, phase, queued, entitled, _⟩ := answers_late_sound _ _ _ final answered
  have prompt :=
    ((completion_stable_against_cancels emptyHash emptyState middle final empty_initial earlier later).1
      smallId 0 session
    present there complete _ request phase le_rfl queued entitled).1
  exact ⟨middle, final, session, request, phase, earlier, later, there, complete, queued, entitled, prompt⟩

def claimedRun (label : Label) : Bool := forgetFree label && crashFree label && persistSaved label

-- The cancel trips the token while the upload commits the last file, and then
-- gives way to the completion; the token stays tripped.
theorem late_cancel_spoils_completion : ∃ start middle final session request, Initial start ∧
    Transition.Run (step emptyHash) (fun _ label => claimedRun label = true) start middle ∧
    Transition.Run (step emptyHash) (fun _ label => claimedRun label = true) middle final ∧
    middle.store.sessions.lookup smallId = some 0 ∧ middle.store.heap[0]? = some session ∧
      session.record.complete = true ∧
    Entitled smallId session.record request ∧
      final.ops[middle.ops.length]? = some (.upload request (.leave 0 (.plain 410))) := by
  obtain ⟨middle, earlier, checked⟩ :=
    Transition.replay_reaches (step emptyHash) (fun _ label => claimedRun label = true)
    (.start :: .call (.register (smallRegister true)) :: advances 0 7 ++ .call (.upload smallUpload) ::
      advances 1 9 ++ .call (.cancel none smallId) :: advances 2 3 ++ advances 1 9) emptyState
    (completesFirst fun record o middle => (Transition.replay (step emptyHash)
      (fun _ label => claimedRun label = true) middle (repeatedUpload 3 3)).any
      (answersLate record o fun phase => match phase with
        | .leave 0 reply => reply == .plain 410
        | _ => false)) (by decide +kernel)
  obtain ⟨session, present, there, complete, rest⟩ := completes_first_sound _ middle checked
  obtain ⟨final, later, answered⟩ :=
    Transition.replay_reaches (step emptyHash) (fun _ label => claimedRun label = true) _ middle _ rest
  obtain ⟨request, phase, queued, entitled, gone⟩ := answers_late_sound _ _ _ final answered
  refine ⟨emptyState, middle, final, session, request, empty_initial, earlier, later, present, there,
    complete, entitled, ?_⟩
  split at gone
  · obtain rfl := beq_iff_eq.mp gone
    exact queued
  · cases gone

end GoshTransfer
