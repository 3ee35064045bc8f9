import GoshTransfer.Authority
import GoshTransfer.Isolation
import GoshTransfer.Sandbox
import GoshTransfer.Tally
import GoshTransfer.Validation

set_option autoImplicit false

namespace GoshTransfer

open InodeStore UnixPath

-- ensure_root: the session root below the canonical download directory.
def sessionRoot (download : Components) : Components := join download (parse stateDir)

-- The destination of the publication loop as the code computes it. A journaled
-- target is a relative path of Normal components.
def targetIn (download : Components) (record : Record) (file : TransferFile) (index : Nat) : Components :=
  match record.targets.lookup file.id with
  | some target => join download (target.map .normal)
  | none => join (receiveTargetIn download file).1
      (parse (candidateName (receiveTargetIn download file).2 index))

theorem root_has_parent (download : Components) : parent (sessionRoot download) = some download := by
  have single : Single stateDir := ⟨by decide, by decide, by decide, by decide⟩
  rw [sessionRoot, join_single download stateDir single, parent_append]

theorem target_in (download : Components) (record : Record) (file : TransferFile) (index : Nat) :
    targetIn download record file index = download ++ (targetOf record file index).map .normal := by
  unfold targetIn targetOf
  cases record.targets.lookup file.id with
  | some target => exact join_normal download target
  | none =>
      have base : SafeName (receiveTarget file).2 := receive_target_safe file _ (by simp)
      have name := safe_single _ (candidate_name_safe _ index base)
      rw [receive_target_in, join_single _ _ name]
      simp [candidatePath]

theorem target_stripped (download : Components) (record : Record) (file : TransferFile) (index : Nat) :
    stripPrefix (targetIn download record file index) download =
      some ((targetOf record file index).map .normal) := by
  rw [target_in]
  exact strip_prefix_append download _

theorem journaled_stripped (download : Components) (target : Path) :
    stripPrefix (join download (target.map .normal)) download = some (target.map .normal) := by
  rw [join_normal]
  exact strip_prefix_append download _

-- The sums of upload and cancel_transfer.
structure Summed (record : Record) (points : List FileCheckpoint) : Prop where
  below : offsetSum points ≤ record.manifest.request.totalSize
  fits : record.manifest.request.totalSize < 2 ^ 64

-- The numbers of the receive loop: offset - last, offset - current and size -
-- offset are differences, and so is the reported number of bytes.
structure Incoming.Measured (x : Incoming) (total : Nat) : Prop where
  last : x.current ≤ x.last
  offset : x.last ≤ x.offset
  size : x.offset ≤ x.file.size
  room : x.baseline + x.file.size ≤ total + x.current

def UploadPhase.measures : UploadPhase → Option Incoming
  | .openPart _ file baseline current => some (opened file 0 baseline current)
  | .receive _ x _ | .syncAll _ x | .hash _ x | .recheck _ x | .prepare _ x | .choose _ x _ |
      .link _ x _ _ | .verify _ x _ _
  | .syncParent _ x _ | .commit _ x _ | .finish _ x | .discard _ x | .announce _ x => some x
  | _ => none

-- What keeps the panicking operations of each phase from panicking.
def UploadPhase.Safe (download : Components) (disk : ReceiverDisk) (session : Session)
    (phase : UploadPhase) : Prop :=
  (∀ x, phase.measures = some x → x.Measured session.record.manifest.request.totalSize) ∧
    match phase with
    | .check _ file => ∀ fault points, checkpoints disk session.id session.record fault = .ok points →
        (∃ point, points.find? (·.fileId == file.id) = some point) ∧ Summed session.record points
    | .hash _ x | .verify _ x _ _ => ∃ digest, session.record.manifest.sha256.lookup x.file.id = some digest
    | .prepare _ _ => parent (sessionRoot download) = some download
    | .choose _ x index =>
        stripPrefix (targetIn download session.record x.file index) download =
          some ((targetOf session.record x.file index).map .normal)
    | .commit _ _ target =>
        stripPrefix (join download (target.map .normal)) download = some (target.map .normal)
    | _ => True

def CancelPhase.Safe (disk : ReceiverDisk) (session : Session) : CancelPhase → Prop
  | .decide _ => ∀ fault points, checkpoints disk session.id session.record fault = .ok points →
      Summed session.record points
  | _ => True

-- Status and forget use the checkpoints without adding or looking anything up.
def Op.Safe (download : Components) (store : Store) : Op → Prop
  | .upload _ phase => ∀ s session, phase.holds = some s → store.heap[s]? = some session →
      phase.Safe download store.disk session
  | .cancel _ _ phase => ∀ s session, phase.holds = some s → store.heap[s]? = some session →
      phase.Safe store.disk session
  | _ => True

theorem checkpoints_summed (disk : ReceiverDisk) (id : String) (record : Record) (sound : record.Sound)
    (fault : Option Fault) (points : List FileCheckpoint)
    (read : checkpoints disk id record fault = .ok points) : Summed record points := by
  obtain ⟨sum, within⟩ := checkpoints_received disk id record fault points read
  refine ⟨?_, (total_size_sum _ _ _ (valid_total record.manifest sound.valid)).2 (by decide)⟩
  rw [sum, valid_size record.manifest sound.valid]
  exact received_bounded disk id record within

theorem checkpoint_found (disk : ReceiverDisk) (id : String) (record : Record) (fault : Option Fault)
    (points : List FileCheckpoint) (read : checkpoints disk id record fault = .ok points)
    (file : TransferFile) (member : file ∈ record.manifest.request.files) :
    ∃ point, points.find? (·.fileId == file.id) = some point := by
  obtain ⟨point, listed, named⟩ := checkpoints_from_covers disk id record fault _ points read file member
  refine Option.isSome_iff_exists.mp (List.find?_isSome.mpr ⟨point, listed, ?_⟩)
  simp [named]

theorem digest_found (record : Record) (sound : record.Sound) (file : TransferFile)
    (member : file ∈ record.manifest.request.files) :
    ∃ digest, record.manifest.sha256.lookup file.id = some digest := by
  obtain ⟨_, _, hashed⟩ :=
    check_files_sound record.manifest.sha256 _ [] (valid_parts record.manifest sound.valid).2
  obtain ⟨_, digest, found, _⟩ := hashed file member
  exact ⟨digest, found⟩

theorem checked_measured (disk : ReceiverDisk) (id : String) (record : Record) (sound : record.Sound)
    (fault : Option Fault) (points : List FileCheckpoint)
    (read : checkpoints disk id record fault = .ok points) (file : TransferFile)
    (member : file ∈ record.manifest.request.files) (point : FileCheckpoint)
    (found : points.find? (·.fileId == file.id) = some point) (fd : Nat) :
    (opened file fd (offsetSum points) point.offset).Measured record.manifest.request.totalSize := by
  obtain ⟨sum, within⟩ := checkpoints_received disk id record fault points read
  obtain ⟨file', listed, taken⟩ := checkpoints_from_file disk id record fault _ points read point
    (List.mem_of_find?_eq_some found)
  have named : point.fileId = file.id := by simpa using List.find?_some found
  have own := (checkpoint_offset disk id record fault file' point taken).1
  obtain rfl := valid_file_unique record.manifest sound.valid file' file listed member (own.symm.trans named)
  obtain ⟨offset, fits⟩ := checkpoint_stored disk id record fault file' point taken
  -- The received bytes of this file give way to its size.
  have changed := sum_changed record.manifest.request.files (stored disk id record)
    (fun other => if other = file' then file'.size else stored disk id record other) file'
    (valid_files_nodup _ sound.valid) member
    fun other _ different => if_neg different
  have bounded : (record.manifest.request.files.map fun other => if other = file' then file'.size
    else stored disk id record other).sum ≤
      declaredSize record.manifest := by
    refine List.sum_le_sum fun other later => ?_
    split
    · rename_i same
      rw [same]
    · exact within other later
  have total := valid_size record.manifest sound.valid
  simp only [if_true] at changed
  change _ = received disk id record + file'.size at changed
  refine ⟨Nat.le_refl _, Nat.le_refl _, ?_, ?_⟩
  · change point.offset ≤ file'.size
    omega
  · change offsetSum points + file'.size ≤ _ + point.offset
    omega

theorem grown_measured (s : Nat) (request : UploadRequest) (record : Record) (x : Incoming) (chunk : Bytes)
    (total : Nat) (fits : chunk.length ≤ x.file.size - x.offset) (measured : x.Measured total) :
    (grown s request record x chunk).Measured total := by
  obtain ⟨last, offset, size, room⟩ := measured
  have reported : (grown s request record x chunk).last = x.last ∨
    (grown s request record x chunk).last = x.offset + chunk.length := by
    simp only [grown]
    split
    · exact .inl rfl
    · exact .inr rfl
  have moved : (grown s request record x chunk).offset = x.offset + chunk.length := rfl
  refine ⟨?_, ?_, ?_, room⟩
  · change x.current ≤ _
    omega
  · omega
  · change x.offset + chunk.length ≤ x.file.size
    omega

def Measuring (state : State) : Prop :=
  ∀ (o : Nat) (request : UploadRequest) (phase : UploadPhase) (x : Incoming) (s : Nat) (session : Session),
    state.ops[o]? = some (.upload request phase) → phase.measures = some x → phase.holds = some s →
    state.store.heap[s]? = some session → x.Measured session.record.manifest.request.totalSize

section Advance

variable (sha256 : Bytes → String) (state : State) (base : Base state) (measuring : Measuring state)
    (o : Nat) (fault : Option Fault)
variable (op op' : Op) (act : Act) (log : List Entry) (here : state.ops[o]? = some op)
variable (moved : OpMove sha256 state.store fault op act log op')
include base measuring here moved

theorem measured_own (request : UploadRequest) (phase next : UploadPhase) (isOp : op = .upload request phase)
    (step_ : UploadMove sha256 request state.store fault phase act log next) (x : Incoming) (s : Nat)
    (session : Session) (measures : next.measures = some x) (held : next.holds = some s)
    (at_ : state.store.heap[s]? = some session) :
    x.Measured session.record.manifest.request.totalSize := by
  subst isOp
  have before := measuring o request phase
  have facts := base.facts o _ here s session
  cases step_ with
  | checked t session' file points point at' read found offset =>
      obtain rfl := Option.some.inj measures
      obtain rfl : t = s := Option.some.inj held
      obtain rfl := Option.some.inj (at_.symm.trans at')
      exact checked_measured state.store.disk session.id session.record (base.sound t session at_).record
        fault points read file (facts rfl at_).1.member point found 0
  | created t session' file baseline current at' absent =>
      obtain rfl := Option.some.inj measures
      obtain ⟨last, offset, size, room⟩ := before _ s session here rfl held at_
      exact ⟨last, offset, size, room⟩
  | reopened t session' file baseline current inode at' present =>
      obtain rfl := Option.some.inj measures
      obtain ⟨last, offset, size, room⟩ := before _ s session here rfl held at_
      exact ⟨last, offset, size, room⟩
  | appended t session' y chunk rest at' fits clear =>
      obtain rfl := Option.some.inj measures
      exact grown_measured t request session'.record y chunk _ fits (before y s session here rfl held at_)
  | unseen t session' y chunk rest written at' fits clear short failed last =>
      obtain rfl := Option.some.inj measures
      obtain ⟨last, offset, size, room⟩ :=
        grown_measured t request session'.record y chunk _ fits (before y s session here rfl held at_)
      exact ⟨last, offset, size, room⟩
  | _ => first | cases measures; done | exact before x s session here measures held at_

theorem advance_measuring : Measuring
    { state with store := state.store.apply o act, ops := state.ops.set o op', log := state.log ++ log } := by
  intro p request phase x s session' there measures held after
  rcases Transition.set_cases state.ops o p op' _ there with ⟨rfl, rfl⟩ | ⟨other, before⟩
  · obtain ⟨session, at_, rfl⟩ :=
      held_origin sha256 state.store p fault op _ act log moved s session' held after
    cases moved with
    | upload _ earlier _ _ _ step_ =>
        obtain ⟨identity, _⟩ :=
          upload_record_kept sha256 state p fault _ _ act log (.upload request earlier phase act log step_)
          request earlier rfl s session at_
        rw [← identity.1]
        exact measured_own sha256 state base measuring p fault _ _ act log here
          (.upload request earlier phase act log step_) request earlier phase rfl step_ x s session measures
          held at_
  · obtain ⟨session, at_, same⟩ :=
      (others_framed sha256 state base o fault op op' act log here moved p _ other before).record s session'
        held after
    rw [same]
    exact measuring p request phase x s session before measures held at_

end Advance

theorem step_measuring (sha256 : Bytes → String) (state next : State) (label : Label) (base : Base state)
    (measuring : Measuring state) (stepped : step sha256 state label = some next) : Measuring next := by
  rcases step_cases sha256 state next label stepped with ⟨call, _, running, rfl⟩ |
    ⟨o, fault, op, act, log, op', _, here, moved, rfl⟩ |
    ⟨_, _, rfl⟩ | ⟨store, _, stopped, loaded, rfl⟩
  · intro p request phase x s session there measures held at_
    rcases Transition.append_cases state.ops p call.op _ there with before | fresh
    · exact measuring p request phase x s session before measures held at_
    · cases call <;> cases fresh
      cases measures
  · exact advance_measuring sha256 state base measuring o fault op op' act log here moved
  · intro p request phase x s session there
    cases there
  · intro p request phase x s session there
    change state.ops[p]? = _ at there
    rw [(base.stopped stopped).1] at there
    cases there

theorem run_measuring (sha256 : Bytes → String) (allow : State → Label → Prop) (start final : State)
    (initial : Initial start) (run : Transition.Run (step sha256) allow start final) : Measuring final := by
  refine (Transition.run_invariant (step sha256) allow (fun state => Base state ∧
    Measuring state) ?_ start final run
    ⟨initial_base start initial, ?_⟩).2
  · intro state label next good _ stepped
    exact ⟨base_step sha256 state next label good.1 stepped, step_measuring sha256 state next label good.1
      good.2 stepped⟩
  · intro p request phase x s session there
    rw [initial.idle] at there
    cases there

theorem uploads_do_not_panic (sha256 : Bytes → String) (start final : State) (initial : Initial start)
    (download : String) (run : Transition.Run (step sha256) (fun _ _ => True) start final)
    (o : Nat) (op : Op) (here : final.ops[o]? = some op) :
    op.Safe (parse download) final.store := by
  have base := run_base sha256 _ start final initial run
  have measuring := run_measuring sha256 _ start final initial run
  cases op with
  | upload request phase =>
      intro s session held at_
      have sound := (base.sound s session at_).record
      have facts := base.facts o _ here s session held at_
      refine ⟨fun x measures => measuring o request phase x s session here measures held at_, ?_⟩
      cases phase with
      | check t file =>
          intro fault points read
          exact ⟨checkpoint_found _ _ _ fault points read file facts.1.member,
            checkpoints_summed _ _ _ sound fault points read⟩
      | hash t x => exact digest_found session.record sound x.file facts.1.member
      | verify t x index target => exact digest_found session.record sound x.file facts.1.member
      | prepare t x => exact root_has_parent (parse download)
      | choose t x index => exact target_stripped (parse download) session.record x.file index
      | commit t x target => exact journaled_stripped (parse download) target
      | _ => trivial
  | cancel caller id phase =>
      intro s session held at_
      cases phase with
      | decide t =>
          intro fault points read
          exact checkpoints_summed _ _ _ (base.sound s session at_).record fault points read
      | _ => trivial
  | _ => trivial

def checksSecond (state : State) : Bool :=
  (state.ops[0]?).any fun op => match op with
    | .upload _ (.check 0 file) => file.id == wideFile.id && (state.store.heap[0]?).any fun session =>
        match checkpoints state.store.disk session.id session.record none with
        | .ok points => points.map FileCheckpoint.offset == [1]
        | .error _ => false
    | _ => false

-- A restart between two uploads of the file: the second one finds the byte of
-- the first.
theorem restored_session_is_safe : ∃ (state : State) (op : Op),
    Transition.Run (step emptyHash) (fun _ _ => True) emptyState state ∧ state.ops[0]? = some op ∧
      checksSecond state = true ∧
      op.Safe (parse "/home/u/in") state.store := by
  obtain ⟨state, run, checked⟩ := Transition.replay_reaches (step emptyHash) (fun _ _ => True)
    (.start :: .call (.register (wideRegister smallId)) :: advances 0 7 ++
    .call (.upload (brokenUpload smallId 7)) :: advances 1 9 ++
      .crash :: .start :: .call (.upload (brokenUpload smallId 7)) :: advances 0 3) emptyState checksSecond
      (by decide +kernel)
  obtain ⟨op, here, _⟩ := (Option.any_eq_true _ _).mp checked
  exact ⟨state, op, run, here, checked, uploads_do_not_panic emptyHash emptyState state empty_initial
    "/home/u/in" run 0 op here⟩

end GoshTransfer
