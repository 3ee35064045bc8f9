import GoshTransfer.Integrity

set_option autoImplicit false

namespace GoshTransfer

open InodeStore

-- The manifest tells the truth about the source of one file.
def Truthful (sha256 : Bytes → String) (file : String) (source : Bytes) (manifest : TransferManifest) :
    Prop :=
  ∀ declared ∈ manifest.request.files, declared.id = file →
    declared.size = source.length ∧ manifest.sha256.lookup file = some (sha256 source)

instance (sha256 : Bytes → String) (file : String) (source : Bytes) (manifest : TransferManifest) :
    Decidable (Truthful sha256 file source manifest) :=
  inferInstanceAs (Decidable (∀ declared ∈ manifest.request.files, declared.id = file →
    declared.size = source.length ∧ manifest.sha256.lookup file = some (sha256 source)))

-- What is sent for the file: a truthful manifest, and bodies that are prefixes
-- of the source from the offset of the request on.
def honest (sha256 : Bytes → String) (id file : String) (source : Bytes) : Label → Bool
  | .call (.register request) => decide (request.id = id → Truthful sha256 file source request.manifest)
  | .call (.upload request) =>
      decide (request.transferId = id → request.fileId = file →
        request.chunks.flatten <+: source.drop request.offset)
  | .call (.forget _) => false
  | _ => true

def partialBytes (disk : ReceiverDisk) (id file : String) : Bytes := (disk.read (partPath id file)).getD []

theorem honest_forget_free (sha256 : Bytes → String) (id file : String) (source : Bytes) (label : Label)
    (allowed : honest sha256 id file source label = true) : forgetFree label = true := by
  cases label with
  | call call => cases call <;> first | rfl | cases allowed
  | _ => rfl

-- What an honest request knows at each phase.
def UploadPhase.Honest (source : Bytes) (request : UploadRequest) : UploadPhase → Prop
  | .openPart _ _ _ current => current = request.offset
  | .receive _ x chunks => chunks.flatten <+: source.drop x.offset
  | .leave _ reply | .done reply => reply.code ≠ 413
  | _ => True

-- A request whose writes were not lost unseen before the end of the file.
def UploadPhase.Unbroken : UploadPhase → Prop
  | .receive _ x _ | .syncAll _ x => x.lastWriteErr ≠ none → x.offset ≠ x.file.size
  | .hash _ x => x.lastWriteErr = none
  | .leave _ reply | .done reply => reply.code ≠ 422
  | _ => True

-- A write that brings the file to its declared size fails, and write_all answers Ok.
def lostEnd (id file : String) (state : State) : Label → Bool
  | .advance o (some (.write written)) =>
      match state.ops[o]? with
      | some (.upload request (.receive _ x (chunk :: _))) =>
          request.transferId == id && request.fileId == file && unseen chunk written &&
            x.offset + chunk.length == x.file.size
      | _ => false
  | _ => false

-- What a status answer says while the record is still locked.
def ResumeStatus.Exact (disk : ReceiverDisk) (session : Session) (status : ResumeStatus) : Prop :=
  (∀ point ∈ status.files, session.record.published.lookup point.fileId = none →
    partialLength disk (partPath session.id point.fileId) none = .ok point.offset) ∧
  ∀ declared ∈ session.record.manifest.request.files, ∃ point ∈ status.files, point.fileId = declared.id

structure Faithful (sha256 : Bytes → String) (id file : String) (source : Bytes) (state : State) : Prop where
  declared : ∀ record, Listed state.store record → record.pending.id = id →
    Truthful sha256 file source record.manifest
  registering : ∀ (o : Nat) (request : RegisterRequest) (phase : RegisterPhase),
    state.ops[o]? = some (.register request phase) →
    request.id = id → Truthful sha256 file source request.manifest
  part : ∀ (inode : Nat) (bytes : Bytes), state.store.disk.node (partPath id file) = some (.file inode) →
    state.store.disk.inodes[inode]? = some bytes → bytes <+: source
  requests : ∀ (o : Nat) (request : UploadRequest) (phase : UploadPhase),
    state.ops[o]? = some (.upload request phase) →
    request.transferId = id → request.fileId = file →
      request.chunks.flatten <+: source.drop request.offset ∧ phase.Honest source request
  answers : ∀ (o : Nat) (peer : Peer) (named : String) (s code : Nat) (status : ResumeStatus) (session :
    Session),
    state.ops[o]? = some (.status peer named (.leave s ⟨code, .status status⟩)) →
      state.store.heap[s]? = some session →
      status.Exact state.store.disk session

theorem append_within_source (bytes chunk source : Bytes) (start : bytes <+: source)
    (next : chunk <+: source.drop bytes.length) :
    bytes ++ chunk <+: source := by
  have split : source = bytes ++ source.drop bytes.length := by
    conv_lhs => rw [← List.take_append_drop bytes.length source, ← List.prefix_iff_eq_take.mp start]
  rw [split]
  exact (List.prefix_append_right_inj bytes).mpr next

theorem rest_within_source (chunk rest source : Bytes) (offset : Nat)
    (whole : chunk ++ rest <+: source.drop offset) :
    rest <+: source.drop (offset + chunk.length) := by
  have dropped := whole.drop chunk.length
  simpa [List.drop_drop] using dropped

theorem checkpoints_from_covers (disk : ReceiverDisk) (id : String) (record : Record) (fault : Option Fault)
    (files : List TransferFile) (points : List FileCheckpoint)
    (read : checkpointsFrom disk id record fault files = .ok points) (file : TransferFile)
    (member : file ∈ files) : ∃ point ∈ points, point.fileId = file.id := by
  induction files generalizing points with
  | nil => cases member
  | cons first rest ih =>
      simp only [checkpointsFrom] at read
      split at read
      · cases read
      · rename_i point taken
        split at read
        · cases read
        · rename_i others remaining
          obtain rfl := Except.ok.inj read
          rcases List.mem_cons.mp member with rfl | later
          · exact ⟨point, by simp, (checkpoint_offset disk id record fault file point taken).1⟩
          · obtain ⟨found, listed, named⟩ := ih others remaining later
            exact ⟨found, List.mem_cons_of_mem _ listed, named⟩

theorem snapshot_exact (disk : ReceiverDisk) (session : Session) (fault : Option Fault)
    (status : ResumeStatus) (taken : snapshot disk session.id session.record fault = .ok status) :
    status.Exact disk session := by
  have read := (snapshot_fields disk session.id session.record fault status taken).2.2.2
  exact ⟨fun point member missing => checkpoints_offset disk session.id session.record fault status.files
    read point member missing,
    fun declared member => checkpoints_from_covers disk session.id session.record fault _ status.files read
    declared member⟩

section Step

variable (sha256 : Bytes → String) (id file : String) (source : Bytes) (canonical : id.toList.length = 36)
    (state : State)
variable (steady : Steady sha256 state) (inv : Faithful sha256 id file source state) (o : Nat)
    (fault : Option Fault)
variable (op op' : Op) (act : Act) (log : List Entry) (here : state.ops[o]? = some op)
variable (moved : OpMove sha256 state.store fault op act log op')
include steady inv here moved

theorem faithful_declared : ∀ record, Listed (state.store.apply o act) record → record.pending.id = id →
    Truthful sha256 file source record.manifest := by
  intro record listed named
  rcases listed_origin sha256 state steady.kempt.base o fault op op' act log here moved record listed with
    old | ⟨s, session, at_, write⟩ | ⟨request, phase, rfl, rfl⟩
  · exact inv.declared record old named
  · have old := inv.declared session.record (.inl ⟨s, session, at_, rfl⟩)
    cases write <;> exact old named
  · exact inv.registering o request phase here named

omit moved in
theorem upload_declared (request : UploadRequest) (phase : UploadPhase) (isOp : op = .upload request phase)
    (forId : request.transferId = id) (forFile : request.fileId = file) (s : Nat) (session : Session)
    (declared : TransferFile) (held : phase.holds = some s) (at_ : state.store.heap[s]? = some session)
    (working : Working session.record declared) (named : declared.id = request.fileId) : session.id = id ∧
      declared.size = source.length ∧
      session.record.manifest.sha256.lookup declared.id = some (sha256 source) := by
  subst isOp
  obtain ⟨session', at', owned⟩ := steady.kempt.base.known o _ s here (holds_session _ s held)
  obtain rfl := Option.some.inj (at_.symm.trans at')
  have sessionId : session.id = id := owned.trans forId
  have identity := (steady.kempt.base.sound s session at_).named
  obtain ⟨size, digest⟩ :=
    inv.declared session.record (.inl ⟨s, session, at_, rfl⟩) (identity.symm.trans sessionId) declared
    working.member (named.trans forFile)
  exact ⟨sessionId, size, by rw [named, forFile]; exact digest⟩

omit moved in
theorem own_honest (request : UploadRequest) (phase next : UploadPhase) (isOp : op = .upload request phase)
    (forId : request.transferId = id) (forFile : request.fileId = file)
    (step_ : UploadMove sha256 request state.store fault phase act log next) :
    next.Honest source request := by
  obtain ⟨body, before⟩ := inv.requests o request phase (isOp ▸ here) forId forFile
  have facts : ∀ s session, phase.holds = some s → state.store.heap[s]? = some session →
    phase.Facts request session.record := by
    subst isOp
    exact fun s session held at_ => steady.kempt.base.facts o _ here s session held at_
  have known :=
    upload_declared sha256 id file source state steady inv o op here request phase isOp forId forFile
  cases step_ with
  | refuse s _ reply held fallible code => exact code.2.2.1
  | checked s session declared points point at_ read found offset => exact offset.symm
  | created s session declared baseline current at_ absent =>
      obtain rfl : current = request.offset := before
      exact body
  | reopened s session declared baseline current inode at_ present =>
      obtain rfl : current = request.offset := before
      exact body
  | tooLarge s session x chunk rest at_ excess =>
      -- The chunk is a piece of the source behind the offset, and that much is declared.
      obtain ⟨working, named⟩ := facts s session rfl at_
      obtain ⟨_, size, _⟩ := known s session x.file rfl at_ working named
      have whole : chunk ++ rest.flatten <+: source.drop x.offset := by
        simpa [UploadPhase.Honest] using before
      have bound := whole.length_le
      simp only [List.length_append, List.length_drop] at bound
      omega
  | appended s session x chunk rest at_ fits clear =>
      have whole : chunk ++ rest.flatten <+: source.drop x.offset := by
        simpa [UploadPhase.Honest] using before
      exact rest_within_source chunk rest.flatten source x.offset whole
  | unseen s session x chunk rest written at_ fits clear short failed last =>
      have whole : chunk ++ rest.flatten <+: source.drop x.offset := by
        simpa [UploadPhase.Honest] using before
      exact rest_within_source chunk rest.flatten source x.offset whole
  | left s reply => exact before
  | _ => first | trivial | simp [UploadPhase.Honest, errorResponse, Response.plain]

omit moved in
theorem own_unbroken (request : UploadRequest) (phase next : UploadPhase) (isOp : op = .upload request phase)
    (forId : request.transferId = id) (forFile : request.fileId = file)
    (kept : lostEnd id file state (.advance o fault) = false) (before : phase.Unbroken)
    (step_ : UploadMove sha256 request state.store fault phase act log next) : next.Unbroken := by
  subst isOp
  cases step_ with
  | refuse s _ reply held fallible code => exact code.2.2.2
  | created s session declared baseline current at_ absent => exact fun broken => absurd rfl broken
  | reopened s session declared baseline current inode at_ present => exact fun broken => absurd rfl broken
  | appended s session x chunk rest at_ fits clear =>
      intro broken
      rcases clear with clear | rfl
      · exact absurd clear broken
      · exact before broken
  | unseen s session x chunk rest written at_ fits clear short failed last =>
      -- Otherwise this is the write that the condition excludes.
      intro _ full
      subst failed
      have ends : x.offset + chunk.length = x.file.size := full
      simp [lostEnd, here, forId, forFile, last, ends] at kept
  | bodyEnd s x => exact before
  | synced s x full =>
      by_contra broken
      exact before broken full
  | mismatch s session x bytes at_ read different =>
      -- The partial is a prefix of the source and as long as the source.
      obtain ⟨working, named⟩ := steady.kempt.base.facts o _ here s session rfl at_
      obtain ⟨sessionId, size, digest⟩ :=
        upload_declared sha256 id file source state steady inv o _ here request _ rfl forId forFile s
          session x.file rfl at_ working named
      obtain ⟨⟨content, node, stored, filled⟩, full⟩ :=
        steady.intact.phases o request _ s session here rfl at_
      obtain ⟨inode, found, stored'⟩ := (read_eq_some _ _ _).mp read
      obtain rfl : x.fd = inode := by simpa using node.symm.trans found
      obtain rfl := Option.some.inj (stored.symm.trans stored')
      have fileId : x.file.id = file := named.trans forFile
      rw [sessionId, fileId] at node
      have start := inv.part x.fd content node stored
      have length := filled.2.mpr before
      have same : content = source := start.eq_of_length (by omega)
      simp [verified, digest, same, size] at different
  | left s reply => exact before
  | _ => first | trivial | simp [UploadPhase.Unbroken, errorResponse, Response.plain]

include canonical in
theorem faithful_part : ∀ (inode : Nat) (bytes : Bytes), (state.store.apply o act).disk.node
    (partPath id file) = some (.file inode) →
    (state.store.apply o act).disk.inodes[inode]? = some bytes → bytes <+: source := by
  intro inode bytes present stored
  have kempt := steady.kempt
  rcases part_origin sha256 state kempt.base o fault op op' act log here moved id file inode canonical
    present with before | ⟨opens, new⟩
  · obtain ⟨old, stored'⟩ : ∃ old, state.store.disk.inodes[inode]? = some old :=
      ⟨_, List.getElem?_eq_getElem (steady.intact.allocated _ _ before)⟩
    have start := inv.part inode old before stored'
    by_cases appends : ∃ more, act = .append inode more
    · obtain ⟨more, rfl⟩ := appends
      obtain ⟨request, s, x, chunk, rest, session, content, rfl, rfl, at_, piece, _, node, held, length⟩ :=
        append_receives sha256 state kempt steady.intact o fault op op' _ log here moved inode more rfl
      obtain ⟨rfl, rfl⟩ :=
        steady.intact.separate _ _ _ _ _ canonical (session_id_length state kempt.base s session at_) before
          node
      obtain rfl := Option.some.inj (stored'.symm.trans held)
      obtain ⟨session', at', owned⟩ := kempt.base.known o _ s here rfl
      obtain rfl := Option.some.inj (at_.symm.trans at')
      have named := (kempt.base.facts o _ here s session rfl at_).2
      obtain ⟨_, honest⟩ := inv.requests o request _ here owned.symm named.symm
      have next : more <+: source.drop old.length := by
        rcases length with rfl | length
        · exact List.nil_prefix
        rw [length]
        exact piece.trans ((List.prefix_append chunk rest.flatten).trans
          (by simpa [UploadPhase.Honest] using honest))
      have grown : old ++ more = bytes := by
        rw [apply_inodes] at stored
        have place := inode_append state.store.disk x.fd x.fd more old stored'
        simp only [if_true] at place
        exact Option.some.inj (place.symm.trans stored)
      rw [← grown]
      exact append_within_source old more source start next
    · have same := inode_kept state.store o act inode old stored' fun more appends' => absurd
        ⟨more, appends'⟩ appends
      obtain rfl := Option.some.inj (same.symm.trans stored)
      exact start
  · subst new opens
    rw [apply_inodes] at stored
    obtain rfl : [] = bytes := by simpa [Act.inodes] using stored
    exact List.nil_prefix

theorem faithful_requests : ∀ (p : Nat) (request : UploadRequest) (phase : UploadPhase),
    (state.ops.set o op')[p]? = some (.upload request phase) →
    request.transferId = id → request.fileId = file →
      request.chunks.flatten <+: source.drop request.offset ∧ phase.Honest source request := by
  intro p request phase there forId forFile
  rcases Transition.set_cases state.ops o p op' _ there with ⟨rfl, same⟩ | ⟨_, before⟩
  · cases moved with
    | upload request' earlier next _ _ moved =>
        obtain ⟨rfl, rfl⟩ := Op.upload.inj same
        exact ⟨(inv.requests p request earlier here forId forFile).1,
          own_honest sha256 id file source state steady inv p fault _ act log here request earlier phase rfl
          forId forFile moved⟩
    | _ => cases same
  · exact inv.requests p request phase before forId forFile

omit inv in
theorem faithful_answers
    (answers : ∀ (o : Nat) (peer : Peer) (named : String) (s code : Nat) (status : ResumeStatus) (session :
    Session),
    state.ops[o]? = some (.status peer named (.leave s ⟨code, .status status⟩)) →
      state.store.heap[s]? = some session →
      status.Exact state.store.disk session) :
    ∀ (p : Nat) (peer : Peer) (named : String) (s code : Nat) (status : ResumeStatus) (session : Session),
      (state.ops.set o op')[p]? = some (.status peer named (.leave s ⟨code, .status status⟩)) →
        (state.store.apply o act).heap[s]? = some session →
          status.Exact (state.store.apply o act).disk session := by
  intro p peer named s code status session' there after
  rcases Transition.set_cases state.ops o p op' _ there with ⟨rfl, rfl⟩ | ⟨other, before⟩
  · cases moved with
    | status _ _ phase next _ _ moved =>
        generalize reply : StatusPhase.leave s ⟨code, .status status⟩ = next at moved
        cases moved with
        | answered t session at_ owned =>
            obtain ⟨rfl, answer⟩ := StatusPhase.leave.inj reply
            obtain rfl := Option.some.inj (at_.symm.trans after)
            have taken :=
              (snapshot_response_status state.store.disk session.id session.record fault code status
                answer.symm).2
            exact snapshot_exact state.store.disk session fault status taken
        | foreign t =>
            have answer := (StatusPhase.leave.inj reply).2
            cases answer
        | _ => cases reply
  · have fresh := orderly_fresh state _ (kept_orderly state steady.kept (.advance o fault))
    obtain ⟨session, at_, _⟩ := steady.kempt.base.locked p _ s before rfl
    obtain ⟨nodes, contents⟩ :=
      parts_guarded sha256 state steady.kempt steady.intact o fault op op' act log here fresh moved p _ s
        session
      other before rfl at_ (steady.kept.mapped s session at_)
    obtain ⟨session'', at', record⟩ :=
      (others_framed sha256 state steady.kempt.base o fault op op' act log here moved p _ other
        before).record s session' rfl after
    obtain rfl := Option.some.inj (at_.symm.trans at')
    obtain rfl := Option.some.inj (after.symm.trans (apply_heap state.store o act s session at_))
    obtain ⟨offsets, covers⟩ := answers p peer named s code status session before at_
    refine ⟨?_, by rw [record]; exact covers⟩
    intro point member missing
    rw [record] at missing
    rw [on_id]
    exact partial_length_kept state.store.disk _ _ _ steady.intact.allocated (nodes _) (contents _)
      (offsets point member missing)

end Step

theorem faithful_step (sha256 : Bytes → String) (id file : String) (source : Bytes)
    (canonical : id.toList.length = 36) (state next : State) (label : Label) (steady : Steady sha256 state)
    (inv : Faithful sha256 id file source state) (allowed : honest sha256 id file source label = true)
    (stepped : step sha256 state label = some next) :
    Faithful sha256 id file source next := by
  rcases step_cases sha256 state next label stepped with ⟨call, rfl, _, rfl⟩ |
    ⟨o, fault, op, act, log, op', rfl, here, moved, rfl⟩ |
    ⟨rfl, _, rfl⟩ | ⟨store, rfl, stopped, loaded, rfl⟩
  · refine ⟨inv.declared, ?_, inv.part, ?_, ?_⟩
    · intro o request phase there forId
      rcases Transition.append_cases state.ops o call.op _ there with before | new
      · exact inv.registering o request phase before forId
      · cases call with
        | register request' =>
            cases new
            exact of_decide_eq_true allowed forId
        | _ => cases new
    · intro o request phase there forId forFile
      rcases Transition.append_cases state.ops o call.op _ there with before | new
      · exact inv.requests o request phase before forId forFile
      · cases call with
        | upload request' =>
            cases new
            exact ⟨of_decide_eq_true allowed forId forFile, trivial⟩
        | _ => cases new
    · intro o peer named s code status session there at_
      rcases Transition.append_cases state.ops o call.op _ there with before | new
      · exact inv.answers o peer named s code status session before at_
      · cases call <;> cases new
  · refine ⟨faithful_declared sha256 id file source state steady inv o fault op op' act log here moved, ?_,
      faithful_part sha256 id file source canonical state steady inv o fault op op' act log here moved,
      faithful_requests sha256 id file source state steady inv o fault op op' act log here moved,
      faithful_answers sha256 state steady o fault op op' act log here moved inv.answers⟩
    intro p request phase there forId
    rcases Transition.set_cases state.ops o p op' _ there with ⟨rfl, same⟩ | ⟨_, before⟩
    · cases moved with
      | register request' earlier next _ _ moved =>
          obtain ⟨rfl, rfl⟩ := Op.register.inj same
          exact inv.registering p request earlier here forId
      | _ => cases same
    · exact inv.registering p request phase before forId
  · refine ⟨?_, by simp, inv.part, by simp, by simp⟩
    intro record listed named
    exact inv.declared record (listed_crashed state.store record listed) named
  · have spec := load_loaded state.store.disk store loaded
    have idle := (steady.kempt.base.stopped stopped).1
    refine ⟨?_, by simp [idle], ?_, by simp [idle], by simp [idle]⟩
    · intro record listed named
      exact inv.declared record (listed_restarted state.store store spec record listed) named
    · rw [spec.same]
      exact inv.part

theorem initial_faithful (sha256 : Bytes → String) (id file : String) (source : Bytes) (state : State)
    (initial : Initial state) :
    Faithful sha256 id file source state := by
  refine ⟨?_, by simp [initial.idle], ?_, by simp [initial.idle], by simp [initial.idle]⟩
  · intro record listed
    exact absurd listed (initial_unlisted state initial record)
  · intro inode bytes present
    rw [initial.noState _ (part_inside id file)] at present
    cases present

theorem partial_length_bytes (disk : ReceiverDisk) (id file : String)
    (plain : ∀ node, disk.node (partPath id file) = some node → ∃ inode, node = .file inode) :
    partialLength disk (partPath id file) none = .ok (partialBytes disk id file).length := by
  unfold partialLength partialBytes Disk.read
  simp only [reduceCtorEq, if_false]
  cases present : disk.node (partPath id file) with
  | none => simp
  | some node =>
      obtain ⟨inode, rfl⟩ := plain node present
      simp

theorem partial_within_source (sha256 : Bytes → String) (id file : String) (source : Bytes) (state : State)
    (inv : Faithful sha256 id file source state) :
    partialBytes state.store.disk id file <+: source := by
  unfold partialBytes
  cases read : state.store.disk.read (partPath id file) with
  | none => exact List.nil_prefix
  | some bytes =>
      obtain ⟨inode, present, stored⟩ := (read_eq_some _ _ _).mp read
      exact inv.part inode bytes present stored

theorem faithful_checkpoint (sha256 : Bytes → String) (id file : String) (source : Bytes)
    (canonical : id.toList.length = 36) (state : State) (steady : Steady sha256 state)
    (inv : Faithful sha256 id file source state) (s : Nat) (session : Session)
    (at_ : state.store.heap[s]? = some session) (owned : session.id = id) (declared : TransferFile)
    (member : declared ∈ session.record.manifest.request.files) (named : declared.id = file)
    (missing : session.record.published.lookup file = none) :
    checkpoint state.store.disk session.id session.record none declared =
      .ok ⟨file, (partialBytes state.store.disk id file).length, false⟩ := by
  have identity := (steady.kempt.base.sound s session at_).named
  obtain ⟨size, _⟩ :=
    inv.declared session.record (.inl ⟨s, session, at_, rfl⟩) (identity.symm.trans owned) declared member
      named
  have bound := (partial_within_source sha256 id file source state inv).length_le
  have length :=
    partial_length_bytes state.store.disk id file fun node present => steady.intact.plain id file node
      canonical present
  subst named owned
  have fits : ¬ (partialBytes state.store.disk session.id declared.id).length > declared.size := by omega
  simp [checkpoint, missing, length, fits]

theorem unbroken_step (sha256 : Bytes → String) (id file : String) (source : Bytes) (state next : State)
    (label : Label) (steady : Steady sha256 state) (inv : Faithful sha256 id file source state)
    (kept : lostEnd id file state label = false)
    (unbroken : ∀ (o : Nat) (request : UploadRequest) (phase : UploadPhase),
      state.ops[o]? = some (.upload request phase) →
      request.transferId = id → request.fileId = file → phase.Unbroken)
    (stepped : step sha256 state label = some next) :
    ∀ (o : Nat) (request : UploadRequest) (phase : UploadPhase), next.ops[o]? = some (.upload request phase) →
      request.transferId = id → request.fileId = file → phase.Unbroken := by
  intro p request phase there forId forFile
  rcases step_cases sha256 state next label stepped with ⟨call, rfl, _, rfl⟩ |
    ⟨o, fault, op, act, log, op', rfl, here, moved, rfl⟩ |
    ⟨rfl, _, rfl⟩ | ⟨store, rfl, stopped, _, rfl⟩
  · rcases Transition.append_cases state.ops p call.op _ there with before | new
    · exact unbroken p request phase before forId forFile
    · cases call <;> cases new
      trivial
  · rcases Transition.set_cases state.ops o p op' _ there with ⟨rfl, same⟩ | ⟨_, before⟩
    · cases moved with
      | upload request' earlier later _ _ moved =>
          obtain ⟨rfl, rfl⟩ := Op.upload.inj same
          exact own_unbroken sha256 id file source state steady inv p fault _ act log here request earlier
            phase rfl forId forFile kept (unbroken p request earlier here forId forFile) moved
      | _ => cases same
    · exact unbroken p request phase before forId forFile
  · cases there
  · rw [(steady.kempt.base.stopped stopped).1] at there
    cases there

theorem run_faithful (sha256 : Bytes → String) (id file : String) (source : Bytes)
    (canonical : id.toList.length = 36) (start final : State) (initial : Initial start)
    (run : Transition.Run (step sha256)
      (fun state label => honest sha256 id file source label = true ∧
        lostEnd id file state label = false) start final) :
    (Steady sha256 final ∧ Faithful sha256 id file source final) ∧
      ∀ (o : Nat) (request : UploadRequest) (phase : UploadPhase),
        final.ops[o]? = some (.upload request phase) →
        request.transferId = id → request.fileId = file → phase.Unbroken := by
  refine Transition.run_invariant (step sha256) _
    (fun state => (Steady sha256 state ∧ Faithful sha256 id file source state) ∧
      ∀ (o : Nat) (request : UploadRequest) (phase : UploadPhase),
      state.ops[o]? = some (.upload request phase) →
        request.transferId = id → request.fileId = file → phase.Unbroken) ?_ start final run ?_
  · rintro state label next ⟨⟨steady, inv⟩, unbroken⟩ ⟨allowed, kept⟩ stepped
    exact ⟨⟨steady_step sha256 state next label steady
      (honest_forget_free sha256 id file source label allowed) stepped,
        faithful_step sha256 id file source canonical state next label steady inv allowed stepped⟩,
      unbroken_step sha256 id file source state next label steady inv kept unbroken stepped⟩
  · exact ⟨⟨initial_steady sha256 start initial, initial_faithful sha256 id file source start initial⟩,
      by simp [initial.idle]⟩

-- A file of two bytes under its real digest.
def pairSource : Bytes := [1, 2]

def pairDigest : String := "a12871fee210fb8619291eaea194581cbd2531e4b23759d225f6806923f63222"

def pairHash (bytes : Bytes) : String := if bytes = pairSource then pairDigest else ""

def pairFile : TransferFile := { smallFile with size := 2 }

def pairManifest : TransferManifest :=
    ⟨⟨smallId, none, [pairFile], 2⟩, (∅ : HashMap String String).insert pairFile.id pairDigest⟩

-- The upload breaks off after one byte and the receiver restarts. A repetition
-- from the stale offset is refused, and status is asked for.
def resumedRun : List Label :=
  .start :: .call (.register { smallRegister true with manifest := pairManifest }) :: advances 0 7 ++
    .call (.upload { smallUpload with chunks := [[1]], ending := .failed }) :: advances 1 9 ++
    .crash :: .start :: .call (.upload { smallUpload with chunks := [[1, 2]] }) :: advances 0 5 ++
    .call (.status smallPeer smallId) :: advances 1 3

def reportsByte : Option Op → Bool
  | some (.status _ _ (.leave 0 ⟨_, .status status⟩)) => status.files == [⟨pairFile.id, 1, false⟩]
  | _ => false

-- The disk refuses the second byte of the only chunk. write_all has answered Ok
-- and sync_all drops the error, so that the digest is taken of one byte.
def lostEndRun : List Label :=
  .start :: .call (.register { smallRegister true with manifest := pairManifest }) :: advances 0 7 ++
    .call (.upload { smallUpload with chunks := [[1, 2]] }) :: advances 1 5 ++
    .advance 1 (some (.write 1)) :: advances 1 3

def answersMismatch : Option Op → Bool
  | some (.upload request (.leave _ reply)) =>
      request.transferId == smallId && request.fileId == pairFile.id && reply.code == 422
  | _ => false

end GoshTransfer
