import GoshTransfer.Discipline
import GoshTransfer.Records

set_option autoImplicit false

namespace GoshTransfer

open InodeStore

-- What an operation knows at each phase, beyond the locks it holds.
def UploadPhase.Facts (request : UploadRequest) (record : Record) : UploadPhase → Prop
  | .check _ file | .openPart _ file _ _ => Working record file ∧ file.id = request.fileId
  | .receive _ x _ | .syncAll _ x | .hash _ x | .recheck _ x | .prepare _ x => Working record x.file ∧
      x.file.id = request.fileId
  | .choose _ x _ => Working record x.file ∧ x.file.id = request.fileId ∧ Publishable x.file
  | .link _ x _ target | .verify _ x _ target | .syncParent _ x target | .commit _ x target =>
      Working record x.file ∧ x.file.id = request.fileId ∧ Publishable x.file ∧
        record.targets.lookup x.file.id = some target
  | .finish _ x | .discard _ x | .announce _ x => (record.published.lookup x.file.id).isSome = true ∧
      x.file.id = request.fileId
  | .lookup | .lock _ | .entry _ | .interrupted _ | .leave _ _ | .done _ => True

def RejectPhase.Facts (store : Store) : RejectPhase → Prop
  | .announce s => ∀ session, store.heap[s]? = some session → session.record.decision = .rejected
  | _ => True

def CancelPhase.Facts (store : Store) : CancelPhase → Prop
  | .lock s | .decide s => ∀ session, store.heap[s]? = some session → session.cancel = true
  | .discard s files _ => ∀ session, store.heap[s]? = some session →
      session.record.cancelled = true ∧ ∀ file ∈ files, file ∈ session.record.manifest.fileIds
  | _ => True

def ForgetPhase.Facts (id : String) (store : Store) : ForgetPhase → Prop
  | .lock s | .check s => store.sessions.lookup id = some s
  | .discard s files => store.sessions.lookup id = some s ∧ ∀ session, store.heap[s]? = some session →
      session.record.terminal = true ∧ ∀ file ∈ files, file ∈ session.record.manifest.fileIds
  | .evict s => store.sessions.lookup id = some s ∧ ∀ session, store.heap[s]? = some session →
      session.record.terminal = true
  | _ => True

def RegisterPhase.Facts (request : RegisterRequest) (store : Store) : RegisterPhase → Prop
  | .enroll | .lookup => request.manifest.Valid
  | .create | .insert => request.manifest.Valid ∧ store.sessions.lookup request.id = none
  | _ => True

def Op.Facts (store : Store) : Op → Prop
  | .accept _ _ | .status _ _ _ => True
  | .reject _ phase => phase.Facts store
  | .cancel _ _ phase => phase.Facts store
  | .forget id phase => phase.Facts id store
  | .register request phase => phase.Facts request store
  | .upload request phase => ∀ s session, phase.holds = some s → store.heap[s]? = some session →
      phase.Facts request session.record

-- What the locks of an operation keep from changing under it.
structure Framed (op : Op) (before after : Store) : Prop where
  record : ∀ s session', op.holds = some s → after.heap[s]? = some session' →
    ∃ session, before.heap[s]? = some session ∧ session'.record = session.record
  token : ∀ s session', op.session = some s → after.heap[s]? = some session' →
    ∃ session, before.heap[s]? = some session ∧ (session.cancel = true → session'.cancel = true)
  map : op.enrolled = true → after.sessions = before.sessions

theorem facts_framed (op : Op) (before after : Store) (framed : Framed op before after)
    (facts : op.Facts before) :
    op.Facts after := by
  cases op with
  | accept id phase => trivial
  | status peer id phase => trivial
  | reject id phase =>
      cases phase with
      | announce s =>
          intro session' there
          obtain ⟨session, here, same⟩ := framed.record s session' rfl there
          rw [same]
          exact facts session here
      | _ => trivial
  | cancel caller id phase =>
      cases phase with
      | lock s =>
          intro session' there
          obtain ⟨session, here, kept⟩ := framed.token s session' rfl there
          exact kept (facts session here)
      | decide s =>
          intro session' there
          obtain ⟨session, here, kept⟩ := framed.token s session' rfl there
          exact kept (facts session here)
      | discard s files bytes =>
          intro session' there
          obtain ⟨session, here, same⟩ := framed.record s session' rfl there
          rw [same]
          exact facts session here
      | _ => trivial
  | forget id phase =>
      cases phase with
      | lock s => exact (congrArg (AList.lookup id) (framed.map rfl)).trans facts
      | check s => exact (congrArg (AList.lookup id) (framed.map rfl)).trans facts
      | discard s files =>
          refine ⟨(congrArg (AList.lookup id) (framed.map rfl)).trans facts.1, ?_⟩
          intro session' there
          obtain ⟨session, here, same⟩ := framed.record s session' rfl there
          rw [same]
          exact facts.2 session here
      | evict s =>
          refine ⟨(congrArg (AList.lookup id) (framed.map rfl)).trans facts.1, ?_⟩
          intro session' there
          obtain ⟨session, here, same⟩ := framed.record s session' rfl there
          rw [same]
          exact facts.2 session here
      | _ => trivial
  | register request phase =>
      cases phase with
      | create => exact ⟨facts.1, (congrArg (AList.lookup request.id) (framed.map rfl)).trans facts.2⟩
      | insert => exact ⟨facts.1, (congrArg (AList.lookup request.id) (framed.map rfl)).trans facts.2⟩
      | enroll => exact facts
      | lookup => exact facts
      | _ => trivial
  | upload request phase =>
      intro s session' held there
      obtain ⟨session, here, same⟩ := framed.record s session' held there
      rw [same]
      exact facts s session held here

def Act.writes : Act → Option (Nat × Record)
  | .assign s record | .persist s record _ => some (s, record)
  | _ => none

@[simp] theorem remove_act_writes (path : Path) (fault : Option Fault) :
    (removeAct path fault).writes = none := by
  rcases remove_act_cases path fault with same | same <;> rw [same] <;> rfl

theorem on_record_writes (act : Act) (op s : Nat) (session : Session) :
    (∃ record, act.writes = some (s, record) ∧ act.on op s session = { session with record := record }) ∨
    (act.writes.map Prod.fst ≠ some s ∧ (act.on op s session).record = session.record) := by
  cases act with
  | assign t record =>
      by_cases same : s = t
      · exact .inl ⟨record, by simp [Act.writes, same], by simp [Act.on, same]⟩
      · exact .inr ⟨by simpa [Act.writes] using fun equal => same equal.symm, by simp [Act.on, same]⟩
  | persist t record saved =>
      by_cases same : s = t
      · exact .inl ⟨record, by simp [Act.writes, same], by simp [Act.on, same]⟩
      · exact .inr ⟨by simpa [Act.writes] using fun equal => same equal.symm, by simp [Act.on, same]⟩
  | _ =>
      refine .inr ⟨by simp [Act.writes], ?_⟩
      simp only [Act.on]
      try split <;> rfl

theorem quiet_record (act : Act) (op s : Nat) (session : Session) (quiet : act.writes = none) :
    (act.on op s session).record = session.record := by
  rcases on_record_writes act op s session with ⟨record, writes, _⟩ | ⟨_, kept⟩
  · rw [quiet] at writes
    cases writes
  · exact kept

-- How a persist ends: without a fault it saves, a failed one may have saved.
def Struck (fault : Option Fault) (saved : Bool) : Prop := (fault = none ∧ saved = true) ∨
    fault = some (.persist saved)

-- Who assigns what to a record, and at which phase.
inductive Write (fault : Option Fault) (s : Nat) (session : Session) : Op → Act → Record → Prop where
  | accept (id : String) (saved : Bool) (struck : Struck fault saved)
      (open_ : session.record.terminal = false) :
      Write fault s session (.accept id (.decide s))
      (.persist s { session.record with decision := .accepted } saved)
        { session.record with decision := .accepted }
  | reject (id : String) (saved : Bool) (struck : Struck fault saved)
      (undecided : session.record.decision = .pending) :
      Write fault s session (.reject id (.decide s))
      (.persist s { session.record with decision := .rejected } saved)
        { session.record with decision := .rejected }
  | cancel (caller : Option Peer) (id : String) (saved : Bool) (struck : Struck fault saved)
      (running : session.record.complete = false) (live : session.record.cancelled = false) :
      Write fault s session (.cancel caller id (.decide s))
      (.persist s { session.record with cancelled := true } saved)
        { session.record with cancelled := true }
  | choose (request : UploadRequest) (x : Incoming) (index : Nat) (saved : Bool)
      (struck : Struck fault saved) :
      Write fault s session (.upload request (.choose s x index))
      (.persist s (chosenRecord session.record x.file index) saved)
        (chosenRecord session.record x.file index)
  | drop (request : UploadRequest) (x : Incoming) (index : Nat) (target : Path) :
      Write fault s session (.upload request (.verify s x index target))
      (.assign s (droppedRecord session.record x.file))
        (droppedRecord session.record x.file)
  | receipt (request : UploadRequest) (x : Incoming) (target : Path) (saved : Bool)
      (struck : Struck fault saved) :
      Write fault s session (.upload request (.commit s x target))
      (.persist s (receiptRecord session.record x.file target) saved)
        (receiptRecord session.record x.file target)

theorem moved_write (sha256 : Bytes → String) (store : Store) (fault : Option Fault) (op op' : Op)
    (act : Act) (log : List Entry) (s : Nat) (record : Record)
    (moved : OpMove sha256 store fault op act log op') (writes : act.writes = some (s, record)) :
    ∃ session, store.heap[s]? = some session ∧ Write fault s session op act record := by
  cases moved with
  | accept id phase next _ _ moved =>
      cases moved <;> simp only [Act.writes, Option.some.injEq, Prod.mk.injEq, reduceCtorEq] at writes
      case accepted t session here open_ ok =>
        obtain ⟨rfl, rfl⟩ := writes
        exact ⟨session, here, .accept id true (.inl ⟨ok, rfl⟩) open_⟩
      case failed t session saved here open_ broken =>
        obtain ⟨rfl, rfl⟩ := writes
        exact ⟨session, here, .accept id saved (.inr broken) open_⟩
  | reject id phase next _ _ moved =>
      cases moved <;> simp only [Act.writes, Option.some.injEq, Prod.mk.injEq, reduceCtorEq] at writes
      case rejected t session here undecided ok =>
        obtain ⟨rfl, rfl⟩ := writes
        exact ⟨session, here, .reject id true (.inl ⟨ok, rfl⟩) undecided⟩
      case failed t session saved here undecided broken =>
        obtain ⟨rfl, rfl⟩ := writes
        exact ⟨session, here, .reject id saved (.inr broken) undecided⟩
  | cancel caller id phase next _ _ moved =>
      cases moved <;> (try simp only [remove_act_writes, reduceCtorEq] at writes) <;>
        simp only [Act.writes, Option.some.injEq, Prod.mk.injEq, reduceCtorEq] at writes
      case cancelled t session points here open_ read ok =>
        obtain ⟨rfl, rfl⟩ := writes
        exact ⟨session, here, .cancel caller id true (.inl ⟨ok, rfl⟩) open_.1 open_.2⟩
      case failed t session saved here open_ broken =>
        obtain ⟨rfl, rfl⟩ := writes
        exact ⟨session, here, .cancel caller id saved (.inr broken) open_.1 open_.2⟩
  | forget id phase next _ _ moved =>
      cases moved <;> (try simp only [remove_act_writes, reduceCtorEq] at writes) <;>
        simp only [Act.writes, reduceCtorEq] at writes
  | register request phase next _ _ moved =>
      cases moved <;> simp only [Act.writes, reduceCtorEq] at writes
  | status peer id phase next _ _ moved =>
      cases moved <;> simp only [Act.writes, reduceCtorEq] at writes
  | upload request phase next _ _ moved =>
      cases moved <;> (try simp only [remove_act_writes, reduceCtorEq] at writes) <;>
        simp only [Act.writes, Option.some.injEq, Prod.mk.injEq, reduceCtorEq] at writes
      case chosen t session x index here bounded ok =>
        obtain ⟨rfl, rfl⟩ := writes
        exact ⟨session, here, .choose request x index true (.inl ⟨ok, rfl⟩)⟩
      case unchosen t session x index saved here failed =>
        obtain ⟨rfl, rfl⟩ := writes
        exact ⟨session, here, .choose request x index saved (.inr failed)⟩
      case conflict t session x index target here different =>
        obtain ⟨rfl, rfl⟩ := writes
        exact ⟨session, here, .drop request x index target⟩
      case committed t session x target here ok =>
        obtain ⟨rfl, rfl⟩ := writes
        exact ⟨session, here, .receipt request x target true (.inl ⟨ok, rfl⟩)⟩
      case uncommitted t session x target saved here failed =>
        obtain ⟨rfl, rfl⟩ := writes
        exact ⟨session, here, .receipt request x target saved (.inr failed)⟩

theorem moved_change (sha256 : Bytes → String) (store : Store) (fault : Option Fault) (op op' : Op)
    (act : Act) (log : List Entry) (s : Nat) (record : Record) (facts : op.Facts store)
    (moved : OpMove sha256 store fault op act log op') (writes : act.writes = some (s, record)) :
    ∃ session, store.heap[s]? = some session ∧ Change session record := by
  obtain ⟨session, here, write⟩ := moved_write sha256 store fault op op' act log s record moved writes
  refine ⟨session, here, ?_⟩
  cases write with
  | accept id saved struck open_ => exact .accept open_
  | reject id saved struck undecided => exact .reject undecided
  | cancel caller id saved struck running live => exact .cancel running live (facts session here)
  | choose request x index saved struck =>
      obtain ⟨working, _, allowed⟩ := facts s session rfl here
      exact .choose x.file index working allowed
  | drop request x index target => exact .drop x.file (facts s session rfl here).1
  | receipt request x target saved struck =>
      obtain ⟨working, _, _, planned⟩ := facts s session rfl here
      exact .receipt x.file target working planned

end GoshTransfer
