import GoshTransfer.Lib.Waiting
import GoshTransfer.PanicFree
import GoshTransfer.Restart

set_option autoImplicit false

namespace GoshTransfer

open InodeStore

-- The mutexes of the durable store: one for each session, and the one that
-- register and forget take first.
inductive Mutex where
  | record (s : Nat)
  | registration
deriving DecidableEq

-- The await an operation stands at.
def Op.awaits : Op → Option Mutex
  | .accept _ (.lock s) | .reject _ (.lock s) | .cancel _ _ (.lock s) | .forget _ (.lock s) |
      .register _ (.lock s)
  | .status _ _ (.lock s) | .upload _ (.lock s) => some (.record s)
  | .forget _ .enroll | .register _ .enroll => some .registration
  | _ => none

def Store.owner (store : Store) : Mutex → Option Nat
  | .record s => (store.heap[s]?).bind Session.lock
  | .registration => store.registration

-- Registration is taken before a record, and no second record is taken.
def Mutex.rank : Mutex → Nat
  | .record _ => 1
  | .registration => 2

def Op.rank (op : Op) : Nat := op.awaits.elim 0 Mutex.rank

def State.Unfinished (state : State) (o : Nat) : Prop := ∃ op : Op, state.ops[o]? = some op ∧ op.ended = false

-- o stands at the lock of a mutex that p holds.
def State.Waits (state : State) (o p : Nat) : Prop :=
    ((state.ops[o]?).bind Op.awaits).bind state.store.owner = some p

def State.Able (sha256 : Bytes → String) (state : State) (o : Nat) : Prop :=
    (step sha256 state (.advance o none)).isSome = true

-- A mutex that is taken is held by a running operation.
structure Staffed (state : State) : Prop where
  record : ∀ (s : Nat) (session : Session) (p : Nat), state.store.heap[s]? = some session →
    session.lock = some p →
    ∃ op : Op, state.ops[p]? = some op ∧ op.holds = some s
  registration : ∀ p : Nat, state.store.registration = some p → ∃ op : Op, state.ops[p]? = some op ∧
    op.enrolled = true

theorem holds_awaits (op : Op) (s : Nat) (held : op.holds = some s) : op.awaits = none := by
  cases op with
  | accept id phase => cases phase <;> first | rfl | cases held
  | reject id phase => cases phase <;> first | rfl | cases held
  | cancel caller id phase => cases phase <;> first | rfl | cases held
  | forget id phase => cases phase <;> first | rfl | cases held
  | register request phase => cases phase <;> first | rfl | cases held
  | status peer id phase => cases phase <;> first | rfl | cases held
  | upload request phase => cases phase <;> first | rfl | cases held

theorem enrolled_awaits (op : Op) (enrolled : op.enrolled = true) : op.awaits ≠ some .registration ∧
    op.ended = false := by
  cases op with
  | forget id phase => cases phase <;> simp_all [Op.awaits, Op.enrolled, ForgetPhase.enrolled, Op.ended]
  | register request phase =>
      cases phase <;> simp_all [Op.awaits, Op.enrolled, RegisterPhase.enrolled, Op.ended]
  | _ => cases enrolled

theorem remove_act_enroll (path : Path) (fault : Option Fault) : removeAct path fault ≠ .enroll := by
  rcases remove_act_cases path fault with same | same <;> rw [same] <;> simp

theorem enroll_enrolls (sha256 : Bytes → String) (store : Store) (fault : Option Fault) (op op' : Op)
    (act : Act) (log : List Entry) (moved : OpMove sha256 store fault op act log op')
    (entering : act = .enroll) : op'.enrolled = true := by
  cases moved with
  | accept id phase next _ _ moved => cases moved <;> cases entering
  | reject id phase next _ _ moved => cases moved <;> cases entering
  | cancel caller id phase next _ _ moved =>
      cases moved with
      | discarded => exact absurd entering (remove_act_enroll _ fault)
      | _ => cases entering
  | forget id phase next _ _ moved =>
      cases moved with
      | discarded => exact absurd entering (remove_act_enroll _ fault)
      | enrolled => rfl
      | _ => cases entering
  | register request phase next _ _ moved =>
      cases moved with
      | enrolled => rfl
      | _ => cases entering
  | status peer id phase next _ _ moved => cases moved <;> cases entering
  | upload request phase next _ _ moved =>
      cases moved <;> first | cases entering | exact absurd entering (remove_act_enroll _ fault)

section Advance

variable (sha256 : Bytes → String) (state : State) (base : Base state) (staffed : Staffed state) (o : Nat)
    (fault : Option Fault)
  (op op' : Op) (act : Act) (log : List Entry) (here : state.ops[o]? = some op)
  (moved : OpMove sha256 state.store fault op act log op')

include staffed here moved

theorem moved_record (s : Nat) (session : Session) (p : Nat) (there : (state.store.apply o act).heap[s]? = some session)
    (taken : session.lock = some p) : ∃ q : Op, (state.ops.set o op')[p]? = some q ∧ q.holds = some s := by
  have self : (state.ops.set o op')[o]? = some op' := List.getElem?_set_self (List.getElem?_eq_some_iff.mp here).1
  have rules := (op_disciplined state.store fault act log sha256 op op' moved).holds
  rcases apply_heap_origin state.store o act s session there with ⟨before, at_, same⟩ | ⟨record, _, _, fresh⟩
  · by_cases acquired : act = .acquire s
    · have mine : o = p := by simpa [same, acquired, Act.on] using taken
      rw [acquired] at rules
      exact ⟨op', mine ▸ self, rules.2.1⟩
    · by_cases released : act = .release s
      · simp [same, released, Act.on] at taken
      · rw [same, on_lock act o s before acquired released] at taken
        obtain ⟨q, holder, holds⟩ := staffed.record s before p at_ taken
        by_cases mine : p = o
        · rw [mine] at holder ⊢
          have known : op = q := Option.some.inj (here.symm.trans holder)
          rw [← known] at holds
          refine ⟨op', self, ?_⟩
          cases act with
          | acquire t => exact absurd (congrArg Act.acquire (Option.some.inj (rules.1.symm.trans (holds_session op s holds)))) acquired
          | release t => exact absurd (congrArg Act.release (Option.some.inj (rules.1.symm.trans holds))) released
          | _ => exact rules.trans holds
        · exact ⟨q, (List.getElem?_set_ne fun same => mine same.symm).trans holder, holds⟩
  · rw [fresh] at taken
    cases taken

theorem moved_registration (p : Nat) (taken : (state.store.apply o act).registration = some p) :
    ∃ q : Op, (state.ops.set o op')[p]? = some q ∧ q.enrolled = true := by
  have self : (state.ops.set o op')[o]? = some op' :=
    List.getElem?_set_self (List.getElem?_eq_some_iff.mp here).1
  have rules := (op_disciplined state.store fault act log sha256 op op' moved).enrolled
  by_cases entering : act = .enroll
  · rw [entering] at taken
    obtain rfl : o = p := Option.some.inj taken
    exact ⟨op', self, enroll_enrolls sha256 state.store fault op op' act log moved entering⟩
  · by_cases leaving : act = .retire
    · rw [leaving] at taken
      cases taken
    · rw [apply_registration state.store o act entering leaving] at taken
      obtain ⟨q, holder, enrolled⟩ := staffed.registration p taken
      by_cases mine : p = o
      · rw [mine] at holder ⊢
        have known : op = q := Option.some.inj (here.symm.trans holder)
        rw [← known] at enrolled
        refine ⟨op', self, ?_⟩
        cases act with
        | enroll => exact absurd rfl entering
        | retire => exact absurd rfl leaving
        | _ => exact rules.trans enrolled
      · exact ⟨q, (List.getElem?_set_ne fun same => mine same.symm).trans holder, enrolled⟩

end Advance

theorem staffed_append (state : State) (staffed : Staffed state) (op : Op) : Staffed
    { state with ops := state.ops ++ [op] } := by
  have kept : ∀ (p : Nat) (q : Op), state.ops[p]? = some q → (state.ops ++ [op])[p]? = some q :=
    fun p q there =>
    (List.getElem?_append_left (List.getElem?_eq_some_iff.mp there).1).trans there
  constructor
  · intro s session p there taken
    obtain ⟨q, holder, holds⟩ := staffed.record s session p there taken
    exact ⟨q, kept p q holder, holds⟩
  · intro p taken
    obtain ⟨q, holder, enrolled⟩ := staffed.registration p taken
    exact ⟨q, kept p q holder, enrolled⟩

theorem staffed_step (sha256 : Bytes → String) (state next : State) (label : Label) (staffed : Staffed state)
    (stepped : step sha256 state label = some next) : Staffed next := by
  rcases step_cases sha256 state next label stepped with ⟨call, _, _, rfl⟩ |
    ⟨o, fault, op, act, log, op', _, here, moved, rfl⟩ |
    ⟨_, _, rfl⟩ | ⟨store, _, _, loaded, rfl⟩
  · exact staffed_append state staffed call.op
  · exact ⟨moved_record sha256 state staffed o fault op op' act log here moved,
      moved_registration sha256 state staffed o fault op op' act log here moved⟩
  · exact ⟨by simp [Store.empty], by simp [Store.empty]⟩
  · have spec := load_loaded state.store.disk store loaded
    constructor
    · intro s session p there taken
      rw [(loaded_session state.store.disk store spec s session there).1] at taken
      cases taken
    · intro p taken
      rw [show store.registration = none from spec.free] at taken
      cases taken

theorem initial_staffed (state : State) (initial : Initial state) : Staffed state := by
  constructor <;> rw [initial.fresh] <;> simp [Store.empty]

theorem run_staffed (sha256 : Bytes → String) (allow : State → Label → Prop) (start final : State)
    (initial : Initial start) (run : Transition.Run (step sha256) allow start final) : Staffed final :=
  Transition.run_invariant (step sha256) allow Staffed
    (fun state label next good _ stepped => staffed_step sha256 state next label good stepped) start final
    run (initial_staffed start initial)

-- Without a fault every phase goes on, or it stands at a mutex that is taken.
section Moves

variable (store : Store)

def Store.Taken (mutex : Mutex) : Prop := ∃ p, store.owner mutex = some p

theorem lookup_moves {Phase : Type} (id : String) (found : Nat → Phase) (missing : Phase) :
    (lookupStep store id none found missing).isSome = true := by
  unfold lookupStep
  split <;> rfl

theorem lock_moves {Phase : Type} (s : Nat) (session : Session) (here : store.heap[s]? = some session)
    (next : Phase) :
    (lockStep store s none next).isSome = true ∨ store.Taken (.record s) := by
  cases taken : session.lock with
  | none => exact .inl (by simp [lockStep, here, taken, plain])
  | some p => exact .inr ⟨p, by simp [Store.owner, here, taken]⟩

theorem enroll_moves {Phase : Type} (next : Phase) : (enrollStep store none next).isSome = true ∨
    store.Taken .registration := by
  cases taken : store.registration with
  | none => exact .inl (by simp [enrollStep, taken, plain])
  | some p => exact .inr ⟨p, taken⟩

theorem accept_moves (id : String) (phase : AcceptPhase)
    (known : ∀ s, phase.session = some s → ∃ session : Session, store.heap[s]? = some session)
    (active : (Op.accept id phase).ended = false) :
    (phase.next id store none).isSome = true ∨ ∃ mutex, (Op.accept id phase).awaits = some mutex ∧
      store.Taken mutex := by
  cases phase with
  | lookup => exact .inl (lookup_moves store id _ _)
  | lock s =>
      obtain ⟨session, here⟩ := known s rfl
      exact (lock_moves store s session here _).imp_right fun taken => ⟨.record s, rfl, taken⟩
  | decide s =>
      obtain ⟨session, here⟩ := known s rfl
      left
      simp only [AcceptPhase.next, here, Option.bind_some]
      split_ifs <;> rfl
  | leave s reply => exact .inl rfl
  | done reply => cases active

theorem reject_moves (id : String) (phase : RejectPhase)
    (known : ∀ s, phase.session = some s → ∃ session : Session, store.heap[s]? = some session)
    (active : (Op.reject id phase).ended = false) :
    (phase.next id store none).isSome = true ∨ ∃ mutex, (Op.reject id phase).awaits = some mutex ∧
      store.Taken mutex := by
  cases phase with
  | lookup => exact .inl (lookup_moves store id _ _)
  | lock s =>
      obtain ⟨session, here⟩ := known s rfl
      exact (lock_moves store s session here _).imp_right fun taken => ⟨.record s, rfl, taken⟩
  | decide s =>
      obtain ⟨session, here⟩ := known s rfl
      left
      simp only [RejectPhase.next, here, Option.bind_some]
      split_ifs <;> rfl
  | announce s =>
      obtain ⟨session, here⟩ := known s rfl
      exact .inl (by simp [RejectPhase.next, here, plain])
  | leave s reply => exact .inl rfl
  | done reply => cases active

theorem cancel_moves (caller : Option Peer) (id : String) (phase : CancelPhase)
    (known : ∀ s, phase.session = some s → ∃ session : Session, store.heap[s]? = some session)
    (mapped : ∀ s, store.sessions.lookup id = some s → ∃ session : Session, store.heap[s]? = some session)
    (active : (Op.cancel caller id phase).ended = false) :
    (phase.next caller id store none).isSome = true ∨
      ∃ mutex, (Op.cancel caller id phase).awaits = some mutex ∧ store.Taken mutex := by
  cases phase with
  | authorize =>
      left
      cases found : store.sessions.lookup id with
      | none => simp [CancelPhase.next, found, plain]
      | some s =>
          obtain ⟨session, here⟩ := mapped s found
          simp only [CancelPhase.next, found, here, Option.bind_some]
          split_ifs <;> rfl
  | lookup => exact .inl (lookup_moves store id _ _)
  | finished s =>
      obtain ⟨session, here⟩ := known s rfl
      left
      simp only [CancelPhase.next, here, Option.bind_some]
      split_ifs <;> rfl
  | trip s => exact .inl rfl
  | lock s =>
      obtain ⟨session, here⟩ := known s rfl
      exact (lock_moves store s session here _).imp_right fun taken => ⟨.record s, rfl, taken⟩
  | decide s =>
      obtain ⟨session, here⟩ := known s rfl
      left
      simp only [CancelPhase.next, here, Option.bind_some]
      cases checkpoints store.disk session.id session.record none <;> split_ifs <;> first | rfl | simp_all
  | discard s files bytes =>
      obtain ⟨session, here⟩ := known s rfl
      cases files <;> exact .inl (by simp [CancelPhase.next, here, plain, removeStep])
  | leave s reply => exact .inl rfl
  | done reply => cases active
  | foreign => cases active

theorem forget_moves (id : String) (phase : ForgetPhase)
    (known : ∀ s, phase.session = some s → ∃ session : Session, store.heap[s]? = some session)
    (active : (Op.forget id phase).ended = false) :
    (phase.next id store none).isSome = true ∨ ∃ mutex, (Op.forget id phase).awaits = some mutex ∧
      store.Taken mutex := by
  cases phase with
  | enroll => exact (enroll_moves store _).imp_right fun taken => ⟨.registration, rfl, taken⟩
  | lookup => exact .inl (lookup_moves store id _ _)
  | lock s =>
      obtain ⟨session, here⟩ := known s rfl
      exact (lock_moves store s session here _).imp_right fun taken => ⟨.record s, rfl, taken⟩
  | check s =>
      obtain ⟨session, here⟩ := known s rfl
      left
      simp only [ForgetPhase.next, here, Option.bind_some]
      split_ifs <;> rfl
  | discard s files =>
      obtain ⟨session, here⟩ := known s rfl
      left
      cases files with
      | nil =>
          simp only [ForgetPhase.next]
          split_ifs <;> rfl
      | cons file rest => simp [ForgetPhase.next, here, removeStep]
  | evict s => exact .inl rfl
  | leave s reply => exact .inl rfl
  | retire reply => exact .inl rfl
  | done reply => cases active

theorem register_moves (request : RegisterRequest) (phase : RegisterPhase)
    (known : ∀ s, phase.session = some s → ∃ session : Session, store.heap[s]? = some session)
    (active : (Op.register request phase).ended = false) :
    (phase.next request store none).isSome = true ∨
      ∃ mutex, (Op.register request phase).awaits = some mutex ∧ store.Taken mutex := by
  cases phase with
  | validate =>
      left
      simp only [RegisterPhase.next]
      cases request.manifest.validate <;> rfl
  | enroll => exact (enroll_moves store _).imp_right fun taken => ⟨.registration, rfl, taken⟩
  | lookup =>
      left
      simp only [RegisterPhase.next]
      split_ifs
      · rfl
      · exact lookup_moves store _ _ _
  | lock s =>
      obtain ⟨session, here⟩ := known s rfl
      exact (lock_moves store s session here _).imp_right fun taken => ⟨.record s, rfl, taken⟩
  | compare s =>
      obtain ⟨session, here⟩ := known s rfl
      left
      simp only [RegisterPhase.next, here, Option.bind_some]
      split_ifs <;> first | rfl | simp_all
  | create =>
      left
      simp only [RegisterPhase.next]
      split_ifs <;> rfl
  | insert => exact .inl rfl
  | respond => exact .inl (by simp [RegisterPhase.next])
  | leave s reply => exact .inl rfl
  | retire reply => exact .inl rfl
  | done reply => cases active

theorem status_moves (peer : Peer) (id : String) (phase : StatusPhase)
    (known : ∀ s, phase.session = some s → ∃ session : Session, store.heap[s]? = some session)
    (active : (Op.status peer id phase).ended = false) :
    (phase.next peer id store none).isSome = true ∨ ∃ mutex, (Op.status peer id phase).awaits = some mutex ∧
      store.Taken mutex := by
  cases phase with
  | lookup => exact .inl (lookup_moves store id _ _)
  | lock s =>
      obtain ⟨session, here⟩ := known s rfl
      exact (lock_moves store s session here _).imp_right fun taken => ⟨.record s, rfl, taken⟩
  | answer s =>
      obtain ⟨session, here⟩ := known s rfl
      left
      simp only [StatusPhase.next, here, Option.bind_some]
      split_ifs <;> first | rfl | simp_all
  | leave s reply => exact .inl rfl
  | done reply => cases active

-- The checkpoint of the file is listed, because the file is in the manifest.
theorem upload_moves (sha256 : Bytes → String) (request : UploadRequest) (phase : UploadPhase)
    (known : ∀ s, phase.session = some s → ∃ session : Session, store.heap[s]? = some session)
    (facts : (Op.upload request phase).Facts store) (active : (Op.upload request phase).ended = false) :
    (phase.next sha256 request store none).isSome = true ∨
      ∃ mutex, (Op.upload request phase).awaits = some mutex ∧ store.Taken mutex := by
  have locked : ∀ s, phase.holds = some s → ∃ session : Session, store.heap[s]? = some session ∧
    phase.Facts request session.record := by
    intro s held
    obtain ⟨session, here⟩ := known s (upload_session_held phase s held)
    exact ⟨session, here, facts s session held here⟩
  cases phase with
  | lookup => exact .inl (lookup_moves store _ _ _)
  | lock s =>
      obtain ⟨session, here⟩ := known s rfl
      exact (lock_moves store s session here _).imp_right fun taken => ⟨.record s, rfl, taken⟩
  | check s file =>
      obtain ⟨session, here, working, _⟩ := locked s rfl
      left
      simp only [UploadPhase.next, withSession, here, Option.bind_some, checkStep, true_or, if_true]
      cases read : checkpoints store.disk session.id session.record none with
      | error e => rfl
      | ok points =>
          obtain ⟨point, found⟩ :=
            checkpoint_found store.disk session.id session.record none points read file working.member
          simp only [found, Option.bind_some]
          split_ifs <;> rfl
  | entry s =>
      obtain ⟨session, here, _⟩ := locked s rfl
      left
      simp only [UploadPhase.next, withSession, here, Option.bind_some, entryStep]
      split_ifs
      · rfl
      · rfl
      · rfl
      · cases session.record.manifest.request.files.find? (·.id == request.fileId) with
        | none => rfl
        | some file =>
            dsimp only
            split_ifs <;> rfl
  | openPart s file baseline current =>
      obtain ⟨session, here, _⟩ := locked s rfl
      left
      simp only [UploadPhase.next, withSession, here, Option.bind_some, openStep]
      cases store.disk.node (partPath session.id file.id) with
      | none => rfl
      | some node => cases node <;> rfl
  | receive s x chunks =>
      obtain ⟨session, here, _⟩ := locked s rfl
      left
      cases chunks with
      | nil =>
          simp only [UploadPhase.next, withSession, here, Option.bind_some, receiveStep]
          split_ifs <;> rfl
      | cons chunk rest =>
          simp only [UploadPhase.next, withSession, here, Option.bind_some, receiveStep]
          cases x.lastWriteErr <;> cases chunk <;> split_ifs <;> rfl
  | syncAll s x =>
      left
      simp only [UploadPhase.next, syncAllStep]
      split_ifs <;> rfl
  | hash s x =>
      obtain ⟨session, here, _⟩ := locked s rfl
      left
      simp only [UploadPhase.next, withSession, here, Option.bind_some, hashStep, reduceCtorEq, if_false]
      cases store.disk.read (partPath session.id x.file.id) with
      | none => rfl
      | some bytes =>
          dsimp only
          split_ifs <;> rfl
  | recheck s x =>
      obtain ⟨session, here, _⟩ := locked s rfl
      left
      simp only [UploadPhase.next, withSession, here, Option.bind_some, recheckStep]
      split_ifs <;> rfl
  | prepare s x =>
      left
      simp only [UploadPhase.next, prepareStep]
      split_ifs <;> rfl
  | choose s x index =>
      obtain ⟨session, here, _⟩ := locked s rfl
      left
      simp only [UploadPhase.next, withSession, here, Option.bind_some, chooseStep]
      split_ifs <;> rfl
  | link s x index target =>
      obtain ⟨session, here, _⟩ := locked s rfl
      left
      simp only [UploadPhase.next, withSession, here, Option.bind_some, linkStep]
      cases store.disk.node (partPath session.id x.file.id) with
      | none => rfl
      | some node =>
          cases node with
          | file inode => cases store.disk.node target <;> rfl
          | _ => rfl
  | verify s x index target =>
      obtain ⟨session, here, _⟩ := locked s rfl
      left
      simp only [UploadPhase.next, withSession, here, Option.bind_some, verifyStep, true_and, true_or,
        if_true]
      split_ifs <;> rfl
  | commit s x target =>
      obtain ⟨session, here, _⟩ := locked s rfl
      exact .inl (by simp [UploadPhase.next, withSession, here, commitStep, persistStep])
  | discard s x =>
      obtain ⟨session, here, _⟩ := locked s rfl
      exact .inl (by simp [UploadPhase.next, withSession, here, removeStep])
  | announce s x =>
      obtain ⟨session, here, _⟩ := locked s rfl
      exact .inl (by simp [UploadPhase.next, withSession, here, plain])
  | interrupted s => exact .inl rfl
  | syncParent s x target => exact .inl rfl
  | finish s x => exact .inl rfl
  | leave s reply => exact .inl rfl
  | done reply => cases active

end Moves

section Running

variable (sha256 : Bytes → String) (state : State) (base : Base state)

theorem op_able (o : Nat) (op : Op) (here : state.ops[o]? = some op)
    (moves : (op.next sha256 state.store none).isSome = true) :
    state.Able sha256 o := by
  obtain ⟨⟨act, log, op'⟩, moved⟩ := Option.isSome_iff_exists.mp moves
  simp [State.Able, step, here, moved]

include base

theorem op_moves (o : Nat) (op : Op) (here : state.ops[o]? = some op) (active : op.ended = false) :
    (op.next sha256 state.store none).isSome = true ∨ ∃ mutex, op.awaits = some mutex ∧ state.store.Taken mutex := by
  have known : ∀ s, op.session = some s → ∃ session : Session, state.store.heap[s]? = some session := fun s session =>
    (base.known o op s here session).imp fun _ found => found.1
  have facts := base.facts o op here
  cases op with
  | accept id phase => exact (accept_moves state.store id phase known active).imp_left (by simp [Op.next])
  | reject id phase => exact (reject_moves state.store id phase known active).imp_left (by simp [Op.next])
  | cancel caller id phase =>
      have mapped : ∀ s, state.store.sessions.lookup id = some s → ∃ session : Session, state.store.heap[s]? = some session :=
        fun s found => (base.mapped id s found).imp fun _ there => there.1
      exact (cancel_moves state.store caller id phase known mapped active).imp_left (by simp [Op.next])
  | forget id phase => exact (forget_moves state.store id phase known active).imp_left (by simp [Op.next])
  | register request phase => exact (register_moves state.store request phase known active).imp_left (by simp [Op.next])
  | status peer id phase => exact (status_moves state.store peer id phase known active).imp_left (by simp [Op.next])
  | upload request phase => exact (upload_moves state.store sha256 request phase known facts active).imp_left (by simp [Op.next])

-- Holders of a record wait for nothing, and the holder of the registration at
-- most for a record.
theorem waits_ordered (staffed : Staffed state) : Waiting.Ordered state.Unfinished
    (state.Able sha256) state.Waits (fun o => (state.ops[o]?).elim 0 Op.rank) := by
  constructor
  · rintro o ⟨op, here, active⟩ stuck
    rcases op_moves sha256 state base o op here active with moves | ⟨mutex, standing, p, taken⟩
    · exact absurd (op_able sha256 state o op here moves) stuck
    · exact ⟨p, by simp [State.Waits, here, standing, taken]⟩
  · intro o p waiting
    obtain ⟨mutex, standing, taken⟩ := Option.bind_eq_some_iff.mp waiting
    obtain ⟨op, here, standing⟩ := Option.bind_eq_some_iff.mp standing
    cases mutex with
    | record s =>
        obtain ⟨session, there, locked⟩ := Option.bind_eq_some_iff.mp taken
        obtain ⟨q, holder, holds⟩ := staffed.record s session p there locked
        refine ⟨⟨q, holder, session_active q s (holds_session q s holds)⟩, ?_⟩
        simp [here, holder, Op.rank, standing, holds_awaits q s holds, Mutex.rank]
    | registration =>
        obtain ⟨q, holder, enrolled⟩ := staffed.registration p taken
        obtain ⟨notSame, active⟩ := enrolled_awaits q enrolled
        refine ⟨⟨q, holder, active⟩, ?_⟩
        cases waiting : q.awaits with
        | none => simp [here, holder, Op.rank, standing, waiting, Mutex.rank]
        | some mutex =>
            cases mutex with
            | record s => simp [here, holder, Op.rank, standing, waiting, Mutex.rank]
            | registration => exact absurd waiting notSame

end Running

end GoshTransfer
