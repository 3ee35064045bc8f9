import GoshTransfer.Catalogue
import GoshTransfer.Restart

set_option autoImplicit false

namespace GoshTransfer

open InodeStore

def Record.standing (record : Record) : Standing where
  manifest := record.manifest
  owner := record.owner
  token := record.token
  decision := record.decision
  cancelled := record.cancelled
  complete := record.complete
  received := record.published.keys

def Store.view (store : Store) : Sessions := fun id =>
  ((store.sessions.lookup id).bind fun s => store.heap[s]?).map fun session => session.record.standing

def Op.call : Op → Call
  | .accept id _ => .accept id
  | .reject id _ => .reject id
  | .cancel caller id _ => .cancel caller id
  | .forget id _ => .forget id
  | .register request _ => .register request
  | .status peer id _ => .status peer id
  | .upload request _ => .upload request

def Op.taken : Op → Bool
  | .accept _ (.leave _ _) | .accept _ (.done _) => true
  | .reject _ (.announce _) | .reject _ (.leave _ _) | .reject _ (.done _) => true
  | .cancel _ _ (.discard _ _ _) | .cancel _ _ (.leave _ _) | .cancel _ _ (.done _) |
      .cancel _ _ .foreign => true
  | .forget _ (.leave _ _) | .forget _ (.retire _) | .forget _ (.done _) => true
  | .register _ .respond | .register _ (.leave _ _) | .register _ (.retire _) | .register _ (.done _) => true
  | .status _ _ (.leave _ _) | .status _ _ (.done _) => true
  | .upload _ (.finish _ _) | .upload _ (.discard _ _) | .upload _ (.announce _ _) |
      .upload _ (.leave _ _) | .upload _ (.done _) => true
  | _ => false

def ResumeStatus.Of (status : ResumeStatus) (standing : Standing) : Prop :=
  status.status = standing.decision ∧ status.cancelled = standing.cancelled ∧
    status.complete = standing.complete ∧
    status.token = if standing.decision = .accepted && !standing.cancelled then some standing.token else none

-- A response tells what the call has found, or that the checkpoints could not be read.
def Finding.Conveyed (finding : Finding) (reply : Response) : Prop :=
  match finding with
  | .answered answer => reply = answer
  | .shown standing => (∃ status : ResumeStatus, reply = ⟨200, .status status⟩ ∧ status.Of standing) ∨
      ∃ e, reply = errorResponse e
  | _ => False

-- What the rest of a call carries of its finding.
def Op.Found (finding : Finding) : Op → Prop
  | .accept _ (.leave _ reply) | .accept _ (.done reply) => finding = .granted reply
  | .reject _ (.announce _) => finding = .settled (.ok ())
  | .reject _ (.leave _ reply) | .reject _ (.done reply) => finding = .settled reply
  | .cancel _ _ (.discard _ _ _) => finding = .settled (.ok ())
  | .cancel _ _ (.leave _ reply) | .cancel _ _ (.done reply) => finding = .settled reply
  | .cancel _ _ .foreign => finding = .foreign
  | .forget _ (.leave _ reply) | .forget _ (.retire reply) | .forget _ (.done reply) =>
      finding = .settled reply
  | .register request .respond => finding = .shown request.standing
  | .register _ (.leave _ reply) | .register _ (.retire reply) | .register _ (.done reply) =>
      finding.Conveyed reply
  | .status _ _ (.leave _ reply) | .status _ _ (.done reply) => finding.Conveyed reply
  | .upload _ (.finish _ _) | .upload _ (.discard _ _) | .upload _ (.announce _ _) =>
      finding = .answered (.plain 200)
  | .upload _ (.leave _ reply) | .upload _ (.done reply) => finding = .answered reply
  | _ => False

-- One step of a call: nothing the catalogue sees, its effect, or a step on the
-- way to its answer.
inductive Linearizes (before after : Sessions) (op op' : Op) : Prop where
  | silent (early : op.taken = false) (still : op'.taken = false) (same : after = before)
  | takes (early : op.taken = false) (late : op'.taken = true) (finding : Finding)
      (standing : Option Standing) (found : op'.Found finding)
      (allowed : Takes before op.call finding standing)
      (changed : after = Function.update before op.call.id standing)
  | keeps (late : op.taken = true) (still : op'.taken = true) (carried : ∀ finding, op.Found finding →
      op'.Found finding)
      (same : after = before)

theorem chosen_standing (record : Record) (file : TransferFile) (index : Nat) :
    (chosenRecord record file index).standing = record.standing := rfl

theorem dropped_standing (record : Record) (file : TransferFile) :
    (droppedRecord record file).standing = record.standing := rfl

theorem receipt_standing (record : Record) (file : TransferFile) (target : Path) :
    (receiptRecord record file target).standing = record.standing.receive file.id := by
  have keys : (record.published.insert file.id target).keys = insert file.id record.published.keys := by
    ext id
    simp [Finmap.mem_keys, Finmap.mem_insert]
  simp [Record.standing, Standing.receive, receiptRecord, keys]

section View

variable (state : State) (base : Base state) (o : Nat) (act : Act)

theorem sessions_at (id : String) (s : Nat) (session : Session)
    (found : state.store.sessions.lookup id = some s) (here : state.store.heap[s]? = some session) :
    state.store.view id = some session.record.standing := by
  simp [Store.view, found, here]

theorem sessions_absent (id : String) (absent : state.store.sessions.lookup id = none) :
    state.store.view id = none := by
  simp [Store.view, absent]

include base

theorem view_kept (unwritten : act.writes = none) (noInsert : ∀ record, act ≠ .insert record)
    (noEvict : ∀ id, act ≠ .evict id) :
    (state.store.apply o act).view = state.store.view := by
  funext id
  have map := apply_sessions state.store o act noInsert noEvict
  cases found : state.store.sessions.lookup id with
  | none => simp [Store.view, map, found]
  | some s =>
      obtain ⟨session, here, _⟩ := base.mapped id s found
      have after := apply_heap state.store o act s session here
      simp [Store.view, map, found, here, after, quiet_record act o s session unwritten]

theorem view_written (s : Nat) (record : Record) (session : Session)
    (here : state.store.heap[s]? = some session) (current : state.store.sessions.lookup session.id = some s)
    (writes : act.writes = some (s, record)) :
    (state.store.apply o act).view = Function.update state.store.view session.id (some record.standing) := by
  funext id
  have map := apply_sessions state.store o act (by rintro r rfl; cases writes) (by rintro i rfl; cases writes)
  by_cases same : id = session.id
  · subst same
    have after := apply_heap state.store o act s session here
    have on : (act.on o s session).record = record := by
      rcases on_record_writes act o s session with ⟨written, equal, on⟩ | ⟨other, _⟩
      · rw [on]
        simpa [writes] using equal.symm
      · simp [writes] at other
    simp [Store.view, map, current, after, on]
  · rw [Function.update_of_ne same]
    cases found : state.store.sessions.lookup id with
    | none => simp [Store.view, map, found]
    | some t =>
        obtain ⟨other, there, named⟩ := base.mapped id t found
        have apart : t ≠ s := by
          rintro rfl
          rw [here] at there
          exact same (named.symm.trans (congrArg Session.id (Option.some.inj there).symm))
        have kept : (act.on o t other).record = other.record := by
          rcases on_record_writes act o t other with ⟨written, equal, _⟩ | ⟨_, kept⟩
          · rw [writes] at equal
            exact absurd (congrArg Prod.fst (Option.some.inj equal)).symm apart
          · exact kept
        have after := apply_heap state.store o act t other there
        simp [Store.view, map, found, there, after, kept]

theorem view_inserted (record : Record) : (state.store.apply o (.insert record)).view =
    Function.update state.store.view record.pending.id (some record.standing) := by
  funext id
  by_cases same : id = record.pending.id
  · subst same
    simp [Store.view, Store.apply, Session.new]
  · rw [Function.update_of_ne same]
    cases found : state.store.sessions.lookup id with
    | none => simp [Store.view, Store.apply, AList.lookup_insert_ne same, found]
    | some t =>
        obtain ⟨session, here, _⟩ := base.mapped id t found
        have within := (List.getElem?_eq_some_iff.mp here).1
        simp [Store.view, Store.apply, AList.lookup_insert_ne same, found, List.getElem?_append_left within]

omit base in
theorem view_evicted (id : String) :
    (state.store.apply o (.evict id)).view = Function.update state.store.view id none := by
  funext other
  by_cases same : other = id
  · subst same
    simp [Store.view, Store.apply]
  · rw [Function.update_of_ne same]
    simp [Store.view, Store.apply, AList.lookup_erase_ne same]

end View

theorem update_same (sessions : Sessions) (id : String) (standing : Option Standing)
    (same : standing = sessions id) :
    sessions = Function.update sessions id standing := by
  rw [same, Function.update_eq_self]

theorem snapshot_conveyed (disk : ReceiverDisk) (id : String) (record : Record) (fault : Option Fault) :
    (Finding.shown record.standing).Conveyed (snapshotResponse (snapshot disk id record fault)) := by
  unfold snapshot
  cases checkpoints disk id record fault with
  | error e => exact .inr ⟨e, rfl⟩
  | ok files => exact .inl ⟨_, rfl, rfl, rfl, rfl, rfl⟩

theorem error_response_code (e : EngineError) : (errorResponse e).code ≠ 200 := by
  cases e <;> simp [errorResponse]

theorem fallible_early (request : UploadRequest) (phase : UploadPhase) (fallible : phase.fallible = true) :
    (Op.upload request phase).taken = false := by
  cases phase <;> first | rfl | cases fallible

section Steps

variable (state : State) (base : Base state) (o : Nat) (fault : Option Fault) (act : Act) (log : List Entry)

include base

theorem remove_kept (path : Path) : (state.store.apply o (removeAct path fault)).view = state.store.view := by
  rcases remove_act_cases path fault with same | same <;> rw [same]
  · rfl
  · exact view_kept state base o _ rfl (by simp) (by simp)

theorem locked_kept (s : Nat) : (state.store.apply o (.acquire s)).view = state.store.view ∧
    (state.store.apply o (.release s)).view = state.store.view :=
  ⟨view_kept state base o _ rfl (by simp) (by simp), view_kept state base o _ rfl (by simp) (by simp)⟩

theorem accept_linearizes (id : String) (phase next : AcceptPhase)
    (unbroken : ∀ saved, fault ≠ some (.persist saved))
    (current : ∀ s, phase.session = some s → state.store.sessions.lookup id = some s)
    (known : ∀ s session, phase.session = some s → state.store.heap[s]? = some session → session.id = id)
    (moved : AcceptMove id state.store fault phase act log next) :
    Linearizes state.store.view (state.store.apply o act).view (.accept id phase) (.accept id next) := by
  cases moved with
  | missing absent =>
      have view := sessions_absent state id absent
      exact .takes rfl rfl _ none rfl (.acceptUnknown id view) (update_same _ id _ view.symm)
  | found s present => exact .silent rfl rfl rfl
  | locked s session here free => exact .silent rfl rfl (locked_kept state base o s).1
  | refuse s session e here ended ok =>
      have view := sessions_at state id s session (current s rfl) here
      exact .takes rfl rfl _ _ rfl (.acceptRefused id _ e view ended) (update_same _ id _ view.symm)
  | accepted s session here open_ ok =>
      have view := sessions_at state id s session (current s rfl) here
      have named := known s session rfl here
      have written :=
        view_written state base o (.persist s { session.record with decision := .accepted } true) s _
          session here
        (named ▸ current s rfl) rfl
      rw [named] at written
      exact .takes rfl rfl _ _ rfl (.accepted id _ view open_) written
  | failed s session saved here open_ broken => exact absurd broken (unbroken saved)
  | left s reply => exact .keeps rfl rfl (fun _ found => found) (locked_kept state base o s).2

theorem reject_linearizes (id : String) (phase next : RejectPhase)
    (unbroken : ∀ saved, fault ≠ some (.persist saved))
    (current : ∀ s, phase.session = some s → state.store.sessions.lookup id = some s)
    (known : ∀ s session, phase.session = some s → state.store.heap[s]? = some session → session.id = id)
    (moved : RejectMove id state.store fault phase act log next) :
    Linearizes state.store.view (state.store.apply o act).view (.reject id phase) (.reject id next) := by
  cases moved with
  | missing absent =>
      have view := sessions_absent state id absent
      exact .takes rfl rfl _ none rfl (.rejectUnknown id view) (update_same _ id _ view.symm)
  | found s present => exact .silent rfl rfl rfl
  | locked s session here free => exact .silent rfl rfl (locked_kept state base o s).1
  | refuse s session e here decided ok =>
      have view := sessions_at state id s session (current s rfl) here
      exact .takes rfl rfl _ _ rfl (.rejectRefused id _ e view decided) (update_same _ id _ view.symm)
  | rejected s session here undecided ok =>
      have view := sessions_at state id s session (current s rfl) here
      have named := known s session rfl here
      have written :=
        view_written state base o (.persist s { session.record with decision := .rejected } true) s _
          session here
        (named ▸ current s rfl) rfl
      rw [named] at written
      exact .takes rfl rfl _ _ rfl (.rejected id _ view undecided) written
  | failed s session saved here undecided broken => exact absurd broken (unbroken saved)
  | announced s session here => exact .keeps rfl rfl (fun _ found => found) rfl
  | left s reply => exact .keeps rfl rfl (fun _ found => found) (locked_kept state base o s).2

theorem forget_linearizes (id : String) (phase next : ForgetPhase) (facts : phase.Facts id state.store)
    (moved : ForgetMove id state.store fault phase act log next) :
    Linearizes state.store.view (state.store.apply o act).view (.forget id phase) (.forget id next) := by
  have refused : ∀ e, Takes state.store.view (.forget id) (.settled (.error e)) (state.store.view id) :=
    fun e => .forgetRefused id e
  have kept := view_kept state base o
  cases moved with
  | enrolled free => exact .silent rfl rfl (kept _ rfl (by simp) (by simp))
  | missing absent => exact .takes rfl rfl _ _ rfl (refused _) (update_same _ id _ rfl)
  | found s present => exact .silent rfl rfl rfl
  | locked s session here free => exact .silent rfl rfl (locked_kept state base o s).1
  | refuse s session e here live => exact .takes rfl rfl _ _ rfl (refused e) (update_same _ id _ rfl)
  | admitted s session here ended => exact .silent rfl rfl rfl
  | discarded s session file rest here => exact .silent rfl rfl (remove_kept state base o fault _)
  | erased s present => exact .silent rfl rfl (kept _ rfl (by simp) (by simp))
  | stuck s => exact .takes rfl rfl _ _ rfl (refused _) (update_same _ id _ rfl)
  | evicted s =>
      obtain ⟨session, here, _⟩ := base.mapped id s facts.1
      exact .takes rfl rfl _ none rfl (.forgotten id _ (sessions_at state id s session facts.1 here)
        (facts.2 session here)) (view_evicted state o id)
  | left s reply => exact .keeps rfl rfl (fun _ found => found) (locked_kept state base o s).2
  | retired reply => exact .keeps rfl rfl (fun _ found => found) (kept _ rfl (by simp) (by simp))

theorem status_linearizes (peer : Peer) (id : String) (phase next : StatusPhase)
    (current : ∀ s, phase.session = some s → state.store.sessions.lookup id = some s)
    (moved : StatusMove peer id state.store fault phase act log next) :
    Linearizes state.store.view (state.store.apply o act).view (.status peer id phase) (.status peer id next) := by
  cases moved with
  | missing absent =>
      exact .takes rfl rfl (.answered (errorResponse (.transferNotFound id))) _ rfl (.statusRefused peer id _ (error_response_code _))
        (update_same _ id _ rfl)
  | found s present => exact .silent rfl rfl rfl
  | locked s session here free => exact .silent rfl rfl (locked_kept state base o s).1
  | foreign s =>
    exact .takes rfl rfl (.answered (.plain 404)) _ rfl (.statusRefused peer id _ (by simp [Response.plain]))
      (update_same _ id _ rfl)
  | answered s session here owned =>
      have view := sessions_at state id s session (current s rfl) here
      exact .takes rfl rfl (.shown session.record.standing) _ (snapshot_conveyed _ _ _ _) (.statusKnown peer id _ view owned)
        (update_same _ id _ view.symm)
  | left s reply => exact .keeps rfl rfl (fun _ found => found) (locked_kept state base o s).2

theorem register_linearizes (request : RegisterRequest) (phase next : RegisterPhase) (unbroken : ∀ saved, fault ≠ some (.persist saved))
    (current : ∀ s, phase.session = some s → state.store.sessions.lookup request.id = some s)
    (facts : phase.Facts request state.store) (moved : RegisterMove request state.store fault phase act log next) :
    Linearizes state.store.view (state.store.apply o act).view (.register request phase) (.register request next) := by
  have kept := view_kept state base o
  have refused : ∀ reply : Response, reply.code ≠ 200 → ∀ after : RegisterPhase, (Op.register request phase).taken = false →
      (Op.register request after).taken = true → (Op.register request after).Found (.answered reply) →
      Linearizes state.store.view state.store.view (.register request phase) (.register request after) :=
    fun reply code after early late found =>
    .takes early late _ _ found (.registerRefused request reply code) (update_same _ request.id _ rfl)
  cases moved with
  | invalid e failed => exact refused _ (error_response_code e) _ rfl rfl rfl
  | valid accepted => exact .silent rfl rfl rfl
  | enrolled free => exact .silent rfl rfl (kept _ rfl (by simp) (by simp))
  | legacy flag => exact refused ⟨409, .text "ID belongs to a legacy session"⟩ (by simp) _ rfl rfl rfl
  | found s present => exact .silent rfl rfl rfl
  | fresh flag absent => exact .silent rfl rfl rfl
  | locked s session here free => exact .silent rfl rfl (locked_kept state base o s).1
  | conflict s => exact refused ⟨409, .text "Manifest conflicts with an existing session"⟩ (by simp) _ rfl rfl rfl
  | existing s session here sameOwner sameManifest =>
      have view := sessions_at state request.id s session (current s rfl) here
      exact .takes rfl rfl (.shown session.record.standing) _ (snapshot_conveyed _ _ _ _)
        (.registerKnown request _ view sameOwner sameManifest) (update_same _ request.id _ view.symm)
  | full limit ok => exact refused ⟨503, _⟩ (by simp) _ rfl rfl rfl
  | rootFailed below broken => exact refused _ (error_response_code _) _ rfl rfl rfl
  | created below ok => exact .silent rfl rfl (kept _ rfl (by simp) (by simp))
  | createFailed saved below broken => exact absurd broken (unbroken saved)
  | inserted =>
      exact .takes rfl rfl _ _ rfl (.registered request (sessions_absent state request.id facts.2) facts.1)
        (view_inserted state base o request.record)
  | responded =>
      refine .keeps rfl rfl ?_ rfl
      intro finding found
      rw [show finding = .shown request.record.standing from found]
      exact snapshot_conveyed _ _ _ _
  | left s reply => exact .keeps rfl rfl (fun _ found => found) (locked_kept state base o s).2
  | retired reply => exact .keeps rfl rfl (fun _ found => found) (kept _ rfl (by simp) (by simp))

theorem cancel_linearizes (caller : Option Peer) (id : String) (phase next : CancelPhase)
    (unbroken : ∀ saved, fault ≠ some (.persist saved))
    (current : ∀ s, phase.session = some s → state.store.sessions.lookup id = some s)
    (known : ∀ s session, phase.session = some s → state.store.heap[s]? = some session → session.id = id)
    (vetted : ∀ s session, phase.session = some s → state.store.heap[s]? = some session →
      mayCancel caller session.record.standing)
    (foreign : next = .foreign → ∃ standing, state.store.view id = some standing ∧
        ¬ mayCancel caller standing)
    (moved : CancelMove caller id state.store fault phase act log next) :
    Linearizes state.store.view (state.store.apply o act).view (.cancel caller id phase)
    (.cancel caller id next) := by
  have refused : ∀ e, Takes state.store.view (.cancel caller id) (.settled (.error e))
    (state.store.view id) := fun e => .cancelRefused caller id e
  cases moved with
  | unknown phase early absent =>
      rcases early with rfl | rfl <;> exact .takes rfl rfl _ _ rfl (refused _) (update_same _ id _ rfl)
  | authorized => exact .silent rfl rfl rfl
  | foreign =>
      obtain ⟨standing, view, other⟩ := foreign rfl
      exact .takes rfl rfl _ _ rfl (.cancelForeign caller id standing view other)
        (update_same _ id _ view.symm)
  | found s present => exact .silent rfl rfl rfl
  | tooLate s session here finished => exact .takes rfl rfl _ _ rfl (refused _) (update_same _ id _ rfl)
  | unfinished s session here running => exact .silent rfl rfl rfl
  | tripped s => exact .silent rfl rfl (view_kept state base o _ rfl (by simp) (by simp))
  | locked s session here free => exact .silent rfl rfl (locked_kept state base o s).1
  | complete s session here ended ok => exact .takes rfl rfl _ _ rfl (refused _) (update_same _ id _ rfl)
  | repeated s session here open_ ended ok =>
      have view := sessions_at state id s session (current s rfl) here
      exact .takes rfl rfl _ _ rfl (.cancelRepeated caller id _ view (vetted s session rfl here) ended)
        (update_same _ id _ view.symm)
  | unreadable s session e here open_ broken noPersist =>
      exact .takes rfl rfl _ _ rfl (refused e) (update_same _ id _ rfl)
  | cancelled s session points here open_ read ok =>
      have view := sessions_at state id s session (current s rfl) here
      have named := known s session rfl here
      have written :=
        view_written state base o (.persist s { session.record with cancelled := true } true) s _ session here
        (named ▸ current s rfl) rfl
      rw [named] at written
      exact .takes rfl rfl _ _ rfl (.cancelled caller id _ view (vetted s session rfl here) open_.1) written
  | failed s session saved here open_ broken => exact absurd broken (unbroken saved)
  | discarded s session file rest bytes here =>
      exact .keeps rfl rfl (fun _ found => found) (remove_kept state base o fault _)
  | announced s session bytes here => exact .keeps rfl rfl (fun _ found => found) rfl
  | left s reply => exact .keeps rfl rfl (fun _ found => found) (locked_kept state base o s).2

theorem upload_linearizes (sha256 : Bytes → String) (request : UploadRequest) (phase next : UploadPhase)
    (unbroken : ∀ saved, fault ≠ some (.persist saved))
    (current : ∀ s, phase.session = some s → state.store.sessions.lookup request.transferId = some s)
    (known : ∀ s session, phase.session = some s → state.store.heap[s]? = some session →
      session.id = request.transferId)
    (granted : ∀ file s session, phase.file = some file → phase.holds = some s →
      state.store.heap[s]? = some session →
      Granted request session.record file)
    (facts : (Op.upload request phase).Facts state.store)
    (moved : UploadMove sha256 request state.store fault phase act log next) :
    Linearizes state.store.view (state.store.apply o act).view (.upload request phase)
    (.upload request next) := by
  have kept := view_kept state base o
  have refused : ∀ reply : Response, reply.code ≠ 200 →
      Takes state.store.view (.upload request) (.answered reply) (state.store.view request.transferId) :=
      fun reply code =>
    .uploadRefused request reply code
  have same := update_same state.store.view request.transferId _ rfl
  -- A write to the planned destinations is nothing to the catalogue.
  have planned : ∀ s session (record : Record) (act : Act), phase.session = some s →
    state.store.heap[s]? = some session →
      act.writes = some (s, record) → record.standing = session.record.standing →
      (state.store.apply o act).view = state.store.view := by
    intro s session record act mine here writes standing
    have named := known s session mine here
    have view := sessions_at state session.id s session (named ▸ current s mine) here
    rw [view_written state base o act s record session here (named ▸ current s mine) writes, standing,
      ← view, Function.update_eq_self]
  cases moved with
  | missing absent => exact .takes rfl rfl _ _ rfl (refused _ (error_response_code _)) same
  | found s present => exact .silent rfl rfl rfl
  | locked s session here free => exact .silent rfl rfl (locked_kept state base o s).1
  | refuse s phase reply held fallible code =>
      exact .takes (fallible_early request phase fallible) rfl _ _ rfl (refused reply code.1) same
  | gone s session here stopped => exact .takes rfl rfl _ _ rfl (refused _ (by simp [Response.plain])) same
  | already s session file here live member named receipt =>
      have view := sessions_at state request.transferId s session (current s rfl) here
      have listed : request.fileId ∈ session.record.standing.received := by
        rw [← named]
        exact Finmap.mem_keys.mpr (Finmap.lookup_isSome.mp receipt)
      exact .takes rfl rfl _ _ rfl (.uploadRepeated request _ view listed)
        (update_same _ request.transferId _ view.symm)
  | admitted s session file => exact .silent rfl rfl rfl
  | checked s session file points point => exact .silent rfl rfl rfl
  | created s session file baseline current here absent =>
      exact .silent rfl rfl (kept _ rfl (by simp) (by simp))
  | reopened s session file baseline current inode => exact .silent rfl rfl rfl
  | stopped s session x chunks here tripped =>
      exact .takes rfl rfl _ _ rfl (refused _ (by simp [Response.plain]))
        ((remove_kept state base o fault _).trans same)
  | tooLarge s session x chunk rest here excess =>
      exact .takes rfl rfl _ _ rfl (refused _ (by simp [Response.plain]))
        ((remove_kept state base o fault _).trans same)
  | appended s session x chunk rest here fits clear => exact .silent rfl rfl (kept _ rfl (by simp) (by simp))
  | unseen s session x chunk rest written here fits clear short failed last =>
      exact .silent rfl rfl (kept _ rfl (by simp) (by simp))
  | torn s x chunk rest written fits clear short =>
      exact .takes rfl rfl _ _ rfl (refused _ (error_response_code _))
        ((kept _ rfl (by simp) (by simp)).trans same)
  | bodyEnd s x => exact .silent rfl rfl rfl
  | bodyBroken s x => exact .silent rfl rfl rfl
  | synced s x full => exact .silent rfl rfl rfl
  | hashed s session x bytes here read matching => exact .silent rfl rfl rfl
  | mismatch s session x bytes here read different =>
      exact .takes rfl rfl _ _ rfl (refused _ (by simp [Response.plain]))
        ((remove_kept state base o fault _).trans same)
  | stoppedLate s session x here tripped =>
      exact .takes rfl rfl _ _ rfl (refused _ (by simp [Response.plain]))
        ((remove_kept state base o fault _).trans same)
  | rechecked s session x here running => exact .silent rfl rfl rfl
  | prepared s x allowed => exact .silent rfl rfl (kept _ rfl (by simp) (by simp))
  | unprepared s x created allowed =>
      exact .takes rfl rfl _ _ rfl (refused _ (error_response_code _))
        ((kept _ rfl (by simp) (by simp)).trans same)
  | chosen s session x index here bounded ok =>
      exact .silent rfl rfl (planned s session _ _ rfl here rfl (chosen_standing _ _ _))
  | unchosen s session x index saved here failed => exact absurd failed (unbroken saved)
  | linked s session x index target inode here source free =>
      exact .silent rfl rfl (kept _ rfl (by simp) (by simp))
  | taken s session x index target inode node here source present => exact .silent rfl rfl rfl
  | adopted s session x index target bytes here read matching => exact .silent rfl rfl rfl
  | conflict s session x index target here different =>
      exact .silent rfl rfl (planned s session _ _ rfl here rfl (dropped_standing _ _))
  | parentSynced s x target => exact .silent rfl rfl rfl
  | committed s session x target here ok =>
      have view := sessions_at state request.transferId s session (current s rfl) here
      have named := known s session rfl here
      have grant := granted x.file s session rfl rfl here
      have working := (facts s session rfl here).1
      have declared : request.fileId ∈ session.record.manifest.fileIds :=
        grant.named ▸ List.mem_map_of_mem grant.member
      have missing : request.fileId ∉ session.record.standing.received := by
        rw [← grant.named]
        exact fun listed => by
          simpa [working.missing] using Finmap.lookup_isSome.mpr (Finmap.mem_keys.mp listed)
      have written :=
        view_written state base o (.persist s (receiptRecord session.record x.file target) true) s _ session
          here
        (named ▸ current s rfl) rfl
      rw [named, receipt_standing, grant.named] at written
      exact .takes rfl rfl _ _ rfl
        (.uploaded request _ view grant.identity grant.token grant.accepted grant.live declared missing)
        written
  | uncommitted s session x target saved here failed => exact absurd failed (unbroken saved)
  | finished s x => exact .keeps rfl rfl (fun _ found => found) (kept _ rfl (by simp) (by simp))
  | discarded s session x here =>
      exact .keeps rfl rfl (fun _ found => found) (remove_kept state base o fault _)
  | announced s session x here => exact .keeps rfl rfl (fun _ found => found) rfl
  | left s reply => exact .keeps rfl rfl (fun _ found => found) (locked_kept state base o s).2

end Steps

end GoshTransfer
