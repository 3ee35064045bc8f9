import GoshTransfer.Load

set_option autoImplicit false

namespace GoshTransfer

open InodeStore

-- session is the reference an operation keeps, holds the record mutex it owns
-- and enrolled whether it owns the registration mutex.
def AcceptPhase.session : AcceptPhase → Option Nat
  | .lock s | .decide s | .leave s _ => some s
  | .lookup | .done _ => none

def AcceptPhase.holds : AcceptPhase → Option Nat
  | .decide s | .leave s _ => some s
  | .lookup | .lock _ | .done _ => none

def RejectPhase.session : RejectPhase → Option Nat
  | .lock s | .decide s | .announce s | .leave s _ => some s
  | .lookup | .done _ => none

def RejectPhase.holds : RejectPhase → Option Nat
  | .decide s | .announce s | .leave s _ => some s
  | .lookup | .lock _ | .done _ => none

def CancelPhase.session : CancelPhase → Option Nat
  | .finished s | .trip s | .lock s | .decide s | .discard s _ _ | .leave s _ => some s
  | .authorize | .lookup | .done _ | .foreign => none

def CancelPhase.holds : CancelPhase → Option Nat
  | .decide s | .discard s _ _ | .leave s _ => some s
  | .authorize | .lookup | .finished _ | .trip _ | .lock _ | .done _ | .foreign => none

def ForgetPhase.session : ForgetPhase → Option Nat
  | .lock s | .check s | .discard s _ | .evict s | .leave s _ => some s
  | .enroll | .lookup | .retire _ | .done _ => none

def ForgetPhase.holds : ForgetPhase → Option Nat
  | .check s | .discard s _ | .evict s | .leave s _ => some s
  | .enroll | .lookup | .lock _ | .retire _ | .done _ => none

def ForgetPhase.enrolled : ForgetPhase → Bool
  | .enroll | .done _ => false
  | _ => true

def RegisterPhase.session : RegisterPhase → Option Nat
  | .lock s | .compare s | .leave s _ => some s
  | _ => none

def RegisterPhase.holds : RegisterPhase → Option Nat
  | .compare s | .leave s _ => some s
  | _ => none

def RegisterPhase.enrolled : RegisterPhase → Bool
  | .validate | .enroll | .done _ => false
  | _ => true

def StatusPhase.session : StatusPhase → Option Nat
  | .lock s | .answer s | .leave s _ => some s
  | .lookup | .done _ => none

def StatusPhase.holds : StatusPhase → Option Nat
  | .answer s | .leave s _ => some s
  | .lookup | .lock _ | .done _ => none

def UploadPhase.session (phase : UploadPhase) : Option Nat :=
  match phase with
  | .lock s => some s
  | _ => phase.holds

def Op.id : Op → String
  | .accept id _ | .reject id _ | .cancel _ id _ | .forget id _ | .status _ id _ => id
  | .register request _ => request.id
  | .upload request _ => request.transferId

def Op.session : Op → Option Nat
  | .accept _ phase => phase.session
  | .reject _ phase => phase.session
  | .cancel _ _ phase => phase.session
  | .forget _ phase => phase.session
  | .register _ phase => phase.session
  | .status _ _ phase => phase.session
  | .upload _ phase => phase.session

def Op.holds : Op → Option Nat
  | .accept _ phase => phase.holds
  | .reject _ phase => phase.holds
  | .cancel _ _ phase => phase.holds
  | .forget _ phase => phase.holds
  | .register _ phase => phase.holds
  | .status _ _ phase => phase.holds
  | .upload _ phase => phase.holds

def Op.enrolled : Op → Bool
  | .forget _ phase => phase.enrolled
  | .register _ phase => phase.enrolled
  | _ => false

theorem holds_session (op : Op) (s : Nat) (held : op.holds = some s) : op.session = some s := by
  cases op with
  | accept id phase => cases phase <;> simp_all [Op.holds, Op.session, AcceptPhase.holds, AcceptPhase.session]
  | reject id phase => cases phase <;> simp_all [Op.holds, Op.session, RejectPhase.holds, RejectPhase.session]
  | cancel caller id phase =>
      cases phase <;> simp_all [Op.holds, Op.session, CancelPhase.holds, CancelPhase.session]
  | forget id phase => cases phase <;> simp_all [Op.holds, Op.session, ForgetPhase.holds, ForgetPhase.session]
  | register request phase =>
      cases phase <;> simp_all [Op.holds, Op.session, RegisterPhase.holds, RegisterPhase.session]
  | status peer id phase =>
      cases phase <;> simp_all [Op.holds, Op.session, StatusPhase.holds, StatusPhase.session]
  | upload request phase =>
      cases phase <;> simp_all [Op.holds, Op.session, UploadPhase.holds, UploadPhase.session]

-- The lock rules every step obeys: which mutexes it takes and gives back, where
-- its session reference comes from, and which mutex guards what it writes.
structure Disciplined (store : Store) (op : Op) (act : Act) (op' : Op) : Prop where
  sameId : op'.id = op.id
  session : op'.session = op.session ∨ op'.session = none ∨
    ∃ s, op'.session = some s ∧ store.sessions.lookup op.id = some s
  holds : match act with
    | .acquire s => op.session = some s ∧ op'.holds = some s ∧ ∃ session, store.heap[s]? = some session ∧
        session.lock = none
    | .release s => op.holds = some s ∧ op'.holds = none
    | _ => op'.holds = op.holds
  enrolled : match act with
    | .enroll => store.registration = none
    | .retire => op.enrolled = true ∧ op'.enrolled = false
    | _ => op'.enrolled = op.enrolled
  guarded : match act with
    | .trip s => op.session = some s
    | .finish s | .assign s _ | .persist s _ _ => op.holds = some s
    | .insert _ | .evict _ => op.enrolled = true
    | _ => True

theorem remove_act_cases (path : Path) (fault : Option Fault) : removeAct path fault = .tau ∨
    removeAct path fault = .remove path := by
  unfold removeAct
  split
  · exact .inl rfl
  · exact .inr rfl

section Discipline

variable (store : Store) (fault : Option Fault) (act : Act) (log : List Entry)

theorem accept_disciplined (id : String) (phase next : AcceptPhase)
    (moved : AcceptMove id store fault phase act log next) :
    Disciplined store (.accept id phase) act (.accept id next) := by
  cases moved <;> constructor <;>
    simp_all [Op.id, Op.session, Op.holds, Op.enrolled, AcceptPhase.session, AcceptPhase.holds]

theorem reject_disciplined (id : String) (phase next : RejectPhase)
    (moved : RejectMove id store fault phase act log next) :
    Disciplined store (.reject id phase) act (.reject id next) := by
  cases moved <;> constructor <;>
    simp_all [Op.id, Op.session, Op.holds, Op.enrolled, RejectPhase.session, RejectPhase.holds]

theorem cancel_disciplined (caller : Option Peer) (id : String) (phase next : CancelPhase)
    (moved : CancelMove caller id store fault phase act log next) :
    Disciplined store (.cancel caller id phase) act (.cancel caller id next) := by
  cases moved with
  | unknown phase early absent =>
      rcases early with rfl |
        rfl <;> constructor <;> simp [Op.id, Op.session, Op.holds, Op.enrolled, CancelPhase.session,
        CancelPhase.holds]
  | discarded s session file rest bytes here =>
      rcases remove_act_cases (partPath session.id file) fault with same |
        same <;> rw [same] <;> constructor <;>
        simp [Op.id, Op.session, Op.holds, Op.enrolled, CancelPhase.session, CancelPhase.holds]
  | _ => constructor <;> simp_all [Op.id, Op.session, Op.holds, Op.enrolled, CancelPhase.session,
      CancelPhase.holds]

theorem forget_disciplined (id : String) (phase next : ForgetPhase)
    (moved : ForgetMove id store fault phase act log next) :
    Disciplined store (.forget id phase) act (.forget id next) := by
  cases moved with
  | discarded s session file rest here =>
      rcases remove_act_cases (partPath session.id file) fault with same |
        same <;> rw [same] <;> constructor <;> simp [Op.id, Op.session, Op.holds, Op.enrolled,
        ForgetPhase.session, ForgetPhase.holds, ForgetPhase.enrolled]
  | _ =>
      constructor <;>
        simp_all [Op.id, Op.session, Op.holds, Op.enrolled, ForgetPhase.session, ForgetPhase.holds,
        ForgetPhase.enrolled]

theorem register_disciplined (request : RegisterRequest) (phase next : RegisterPhase)
    (moved : RegisterMove request store fault phase act log next) :
    Disciplined store (.register request phase) act (.register request next) := by
  cases moved <;> constructor <;>
    simp_all [Op.id, Op.session, Op.holds, Op.enrolled, RegisterPhase.session, RegisterPhase.holds,
    RegisterPhase.enrolled]

theorem status_disciplined (peer : Peer) (id : String) (phase next : StatusPhase)
    (moved : StatusMove peer id store fault phase act log next) :
    Disciplined store (.status peer id phase) act (.status peer id next) := by
  cases moved <;> constructor <;>
    simp_all [Op.id, Op.session, Op.holds, Op.enrolled, StatusPhase.session, StatusPhase.holds]

theorem upload_session_held (phase : UploadPhase) (s : Nat) (held : phase.holds = some s) :
    phase.session = some s := by
  cases phase <;> simp_all [UploadPhase.session, UploadPhase.holds]

theorem upload_disciplined (sha256 : Bytes → String) (request : UploadRequest) (phase next : UploadPhase)
    (moved : UploadMove sha256 request store fault phase act log next) :
    Disciplined store (.upload request phase) act (.upload request next) := by
  cases moved with
  | refuse s phase reply held fallible code =>
      constructor <;> simp [Op.id, Op.session, Op.holds, Op.enrolled, held,
        upload_session_held phase s held] <;>
        simp [UploadPhase.session, UploadPhase.holds]
  | stopped s session x chunks here tripped =>
      rcases remove_act_cases (partPath session.id x.file.id) fault with same |
        same <;> rw [same] <;> constructor <;>
        simp [Op.id, Op.session, Op.holds, Op.enrolled, UploadPhase.session, UploadPhase.holds]
  | tooLarge s session x chunk rest here excess =>
      rcases remove_act_cases (partPath session.id x.file.id) fault with same |
        same <;> rw [same] <;> constructor <;>
        simp [Op.id, Op.session, Op.holds, Op.enrolled, UploadPhase.session, UploadPhase.holds]
  | mismatch s session x bytes here read different =>
      rcases remove_act_cases (partPath session.id x.file.id) fault with same |
        same <;> rw [same] <;> constructor <;>
        simp [Op.id, Op.session, Op.holds, Op.enrolled, UploadPhase.session, UploadPhase.holds]
  | stoppedLate s session x here tripped =>
      rcases remove_act_cases (partPath session.id x.file.id) fault with same |
        same <;> rw [same] <;> constructor <;>
        simp [Op.id, Op.session, Op.holds, Op.enrolled, UploadPhase.session, UploadPhase.holds]
  | discarded s session x here =>
      rcases remove_act_cases (partPath session.id x.file.id) fault with same |
        same <;> rw [same] <;> constructor <;>
        simp [Op.id, Op.session, Op.holds, Op.enrolled, UploadPhase.session, UploadPhase.holds]
  | _ => constructor <;> simp_all [Op.id, Op.session, Op.holds, Op.enrolled, UploadPhase.session,
      UploadPhase.holds]

theorem op_disciplined (sha256 : Bytes → String) (op op' : Op)
    (moved : OpMove sha256 store fault op act log op') :
    Disciplined store op act op' := by
  cases moved with
  | accept id phase next _ _ moved => exact accept_disciplined store fault act log id phase next moved
  | reject id phase next _ _ moved => exact reject_disciplined store fault act log id phase next moved
  | cancel caller id phase next _ _ moved =>
      exact cancel_disciplined store fault act log caller id phase next moved
  | forget id phase next _ _ moved => exact forget_disciplined store fault act log id phase next moved
  | register request phase next _ _ moved =>
      exact register_disciplined store fault act log request phase next moved
  | status peer id phase next _ _ moved =>
      exact status_disciplined store fault act log peer id phase next moved
  | upload request phase next _ _ moved =>
      exact upload_disciplined store fault act log sha256 request phase next moved

end Discipline

-- The acts that change neither the disk nor the map.
def Act.quiet : Act → Bool
  | .tau | .acquire _ | .release _ | .enroll | .retire | .trip _ | .finish _ | .assign _ _ => true
  | _ => false

-- Who makes which change to the disk and to the map, and at which phase.
inductive Effect (store : Store) (fault : Option Fault) : Op → Act → Op → Prop where
  | quiet (op op' : Op) (act : Act) (silent : act.quiet = true) : Effect store fault op act op'
  | insert (request : RegisterRequest) :
      Effect store fault (.register request .insert) (.insert request.record) (.register request .respond)
  | evict (id : String) (s : Nat) : Effect store fault (.forget id (.evict s)) (.evict id)
      (.forget id (.leave s (.ok ())))
  | journal (request : RegisterRequest) (saved : Bool) (op' : Op) :
      Effect store fault (.register request .create) (.journal request.record saved) op'
  | persist (op op' : Op) (s : Nat) (session : Session) (record : Record) (saved : Bool)
      (held : op.holds = some s) (here : store.heap[s]? = some session) :
      Effect store fault op (.persist s record saved) op'
  | openPart (request : UploadRequest) (s : Nat) (session : Session) (file : TransferFile)
      (baseline current : Nat) (here : store.heap[s]? = some session)
      (absent : store.disk.node (partPath session.id file.id) = none) :
      Effect store fault (.upload request (.openPart s file baseline current))
      (.openPart (partPath session.id file.id))
        (.upload request (.receive s (opened file store.disk.inodes.length baseline current) request.chunks))
  | append (request : UploadRequest) (s : Nat) (x : Incoming) (chunk : Bytes) (rest : List Bytes)
      (bytes : Bytes) (op' : Op) (start : bytes <+: chunk) (fits : chunk.length ≤ x.file.size - x.offset)
      (clear : x.lastWriteErr = none ∨ bytes = []) :
      Effect store fault (.upload request (.receive s x (chunk :: rest))) (.append x.fd bytes) op'
  | removePart (op op' : Op) (s : Nat) (session : Session) (file : String) (held : op.holds = some s)
      (here : store.heap[s]? = some session) : Effect store fault op (.remove (partPath session.id file)) op'
  | removeJournal (id : String) (s : Nat) :
      Effect store fault (.forget id (.discard s [])) (.remove (journalPath id)) (.forget id (.evict s))
  | mkdirs (op op' : Op) (parent : Path) (file : TransferFile)
      (allowed : reservedTarget ((receiveTarget file).1 ++ [(receiveTarget file).2]) = false)
      (start : parent <+: (receiveTarget file).1) :
      Effect store fault op (.mkdirs (parentDirs parent)) op'
  | link (request : UploadRequest) (s : Nat) (session : Session) (x : Incoming) (index : Nat)
      (target : Path) (inode : Nat) (here : store.heap[s]? = some session)
      (source : store.disk.node (partPath session.id x.file.id) = some (.file inode))
      (free : store.disk.node target = none) :
      Effect store fault (.upload request (.link s x index target)) (.link inode target)
      (.upload request (.syncParent s x target))

theorem remove_part_effect (store : Store) (fault : Option Fault) (op op' : Op) (s : Nat)
    (session : Session) (file : String) (held : op.holds = some s) (here : store.heap[s]? = some session) :
    Effect store fault op (removeAct (partPath session.id file) fault) op' := by
  rcases remove_act_cases (partPath session.id file) fault with same | same <;> rw [same]
  · exact .quiet op op' .tau rfl
  · exact .removePart op op' s session file held here

theorem op_effect (sha256 : Bytes → String) (store : Store) (fault : Option Fault) (op op' : Op) (act : Act)
    (log : List Entry) (moved : OpMove sha256 store fault op act log op') :
    Effect store fault op act op' := by
  cases moved with
  | accept id phase next _ _ moved =>
      cases moved with
      | accepted s session here open_ ok => exact .persist _ _ s session _ _ rfl here
      | failed s session saved here open_ broken => exact .persist _ _ s session _ _ rfl here
      | _ => exact .quiet _ _ _ rfl
  | reject id phase next _ _ moved =>
      cases moved with
      | rejected s session here undecided ok => exact .persist _ _ s session _ _ rfl here
      | failed s session saved here undecided broken => exact .persist _ _ s session _ _ rfl here
      | _ => exact .quiet _ _ _ rfl
  | cancel caller id phase next _ _ moved =>
      cases moved with
      | cancelled s session points here open_ read ok => exact .persist _ _ s session _ _ rfl here
      | failed s session saved here open_ broken => exact .persist _ _ s session _ _ rfl here
      | discarded s session file rest bytes here =>
          exact remove_part_effect store fault _ _ s session file rfl here
      | _ => exact .quiet _ _ _ rfl
  | forget id phase next _ _ moved =>
      cases moved with
      | discarded s session file rest here => exact remove_part_effect store fault _ _ s session file rfl here
      | erased s present => exact .removeJournal id s
      | evicted s => exact .evict id s
      | _ => exact .quiet _ _ _ rfl
  | register request phase next _ _ moved =>
      cases moved with
      | created below ok => exact .journal request true _
      | createFailed saved below broken => exact .journal request saved _
      | inserted => exact .insert request
      | _ => exact .quiet _ _ _ rfl
  | status peer id phase next _ _ moved => cases moved <;> exact .quiet _ _ _ rfl
  | upload request phase next _ _ moved =>
      cases moved with
      | created s session file baseline current here absent =>
          exact .openPart request s session file baseline current here absent
      | stopped s session x chunks here tripped =>
          exact remove_part_effect store fault _ _ s session _ rfl here
      | tooLarge s session x chunk rest here excess =>
          exact remove_part_effect store fault _ _ s session _ rfl here
      | appended s session x chunk rest here fits clear =>
          exact .append request s x chunk rest chunk _ List.prefix_rfl fits clear
      | unseen s session x chunk rest written here fits clear short failed last =>
          exact .append request s x chunk rest _ _ (List.take_prefix _ _) fits (.inl clear)
      | torn s x chunk rest written fits clear short =>
          exact .append request s x chunk rest _ _ (List.take_prefix _ _) fits (.inl clear)
      | mismatch s session x bytes here read different =>
          exact remove_part_effect store fault _ _ s session _ rfl here
      | stoppedLate s session x here tripped => exact remove_part_effect store fault _ _ s session _ rfl here
      | prepared s x allowed => exact .mkdirs _ _ _ x.file allowed List.prefix_rfl
      | unprepared s x created allowed => exact .mkdirs _ _ _ x.file allowed (List.take_prefix _ _)
      | chosen s session x index here bounded ok => exact .persist _ _ s session _ _ rfl here
      | unchosen s session x index saved here failed => exact .persist _ _ s session _ _ rfl here
      | linked s session x index target inode here source free =>
          exact .link request s session x index target inode here source free
      | committed s session x target here ok => exact .persist _ _ s session _ _ rfl here
      | uncommitted s session x target saved here failed => exact .persist _ _ s session _ _ rfl here
      | discarded s session x here => exact remove_part_effect store fault _ _ s session _ rfl here
      | _ => exact .quiet _ _ _ rfl

-- What an act makes of one session object.
def Act.on (act : Act) (op s : Nat) (session : Session) : Session :=
  match act with
  | .acquire t => if s = t then { session with lock := some op } else session
  | .release t => if s = t then { session with lock := none } else session
  | .trip t => if s = t then { session with cancel := true } else session
  | .finish t => if s = t then { session with finished := session.record.complete } else session
  | .assign t record => if s = t then { session with record := record } else session
  | .persist t record _ => if s = t then { session with record := record } else session
  | _ => session

theorem update_heap (store : Store) (t s : Nat) (change : Session → Session) (session : Session)
    (here : store.heap[s]? = some session) :
    (store.update t change).heap[s]? = some (if s = t then change session else session) := by
  by_cases same : s = t
  · subst same
    simp [Store.update, here]
  · have other : t ≠ s := fun equal => same equal.symm
    simp [Store.update, other, same, here]

theorem save_heap (store : Store) (record : Record) (saved : Bool) :
    (store.save record saved).heap = store.heap := by
  unfold Store.save
  split <;> rfl

theorem save_sessions (store : Store) (record : Record) (saved : Bool) :
    (store.save record saved).sessions = store.sessions := by
  unfold Store.save
  split <;> rfl

theorem save_registration (store : Store) (record : Record) (saved : Bool) :
    (store.save record saved).registration = store.registration := by
  unfold Store.save
  split <;> rfl

theorem apply_heap (store : Store) (op : Nat) (act : Act) (s : Nat) (session : Session)
    (here : store.heap[s]? = some session) :
    (store.apply op act).heap[s]? = some (act.on op s session) := by
  cases act with
  | acquire t => exact update_heap store t s _ session here
  | release t => exact update_heap store t s _ session here
  | trip t => exact update_heap store t s _ session here
  | finish t => exact update_heap store t s _ session here
  | assign t record => exact update_heap store t s _ session here
  | persist t record saved =>
      simp only [Store.apply, save_heap]
      exact update_heap store t s _ session here
  | insert record =>
      have bound := (List.getElem?_eq_some_iff.mp here).1
      simpa [Store.apply, Act.on, List.getElem?_append_left bound] using here
  | journal record saved => simpa [Store.apply, Act.on, save_heap] using here
  | _ => simpa [Store.apply, Act.on] using here

theorem apply_length (store : Store) (op : Nat) (act : Act) (noInsert : ∀ record, act ≠ .insert record) :
    (store.apply op act).heap.length = store.heap.length := by
  cases act with
  | insert record => exact absurd rfl (noInsert record)
  | persist t record saved => simp [Store.apply, save_heap, Store.update]
  | journal record saved => simp [Store.apply, save_heap]
  | _ => simp [Store.apply, Store.update]

theorem apply_heap_origin (store : Store) (op : Nat) (act : Act) (s : Nat) (session' : Session)
    (there : (store.apply op act).heap[s]? = some session') :
    (∃ session, store.heap[s]? = some session ∧ session' = act.on op s session) ∨
    (∃ record, act = .insert record ∧ s = store.heap.length ∧ session' = Session.new record) := by
  by_cases old : s < store.heap.length
  · obtain ⟨session, here⟩ : ∃ session, store.heap[s]? = some session := ⟨_, List.getElem?_eq_getElem old⟩
    exact .inl ⟨session, here, Option.some.inj (there.symm.trans (apply_heap store op act s session here))⟩
  · right
    have within := (List.getElem?_eq_some_iff.mp there).1
    cases act with
    | insert record =>
        have last : s = store.heap.length := by
          simp [Store.apply] at within
          omega
        subst last
        exact ⟨record, rfl, rfl, by simpa [Store.apply] using there.symm⟩
    | _ =>
        rw [apply_length store op _ (by simp)] at within
        exact absurd within old

@[simp] theorem on_id (act : Act) (op s : Nat) (session : Session) :
    (act.on op s session).id = session.id := by
  cases act <;> simp only [Act.on] <;> split <;> rfl

theorem on_cancel (act : Act) (op s : Nat) (session : Session) (tripped : session.cancel = true) :
    (act.on op s session).cancel = true := by
  cases act <;> simp only [Act.on] <;> first | exact tripped | (split <;> first | exact tripped | rfl)

end GoshTransfer
