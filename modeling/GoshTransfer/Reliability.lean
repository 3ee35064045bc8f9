import GoshTransfer.Resumption

set_option autoImplicit false

-- What an honest sender can rely on.
namespace GoshTransfer

open InodeStore

theorem reported_offset (disk : ReceiverDisk) (id : String) (record : Record) (sound : record.Sound)
    (file : TransferFile) (member : file ∈ record.manifest.request.files)
    (missing : record.published.lookup file.id = none) (points : List FileCheckpoint)
    (read : checkpoints disk id record none = .ok points) :
    ∃ point ∈ points, point.fileId = file.id ∧
      partialLength disk (partPath id file.id) none = .ok point.offset ∧ point.offset ≤ file.size := by
  obtain ⟨point, found⟩ := checkpoint_found disk id record none points read file member
  have listed := List.mem_of_find?_eq_some found
  have meant : point.fileId = file.id := by simpa using List.find?_some found
  obtain ⟨other, declared, taken⟩ := checkpoints_from_file disk id record none _ points read point listed
  have own := (checkpoint_offset disk id record none other point taken).1
  obtain rfl := valid_file_unique record.manifest sound.valid other file declared member
    (own.symm.trans meant)
  obtain ⟨offset, fits⟩ := checkpoint_stored disk id record none other point taken
  have measured := checkpoints_offset disk id record none points read point listed (meant ▸ missing)
  exact ⟨point, listed, meant, meant ▸ measured, offset ▸ fits⟩

theorem checkpoints_survive (disk later : ReceiverDisk) (id : String) (record after : Record)
    (files : List TransferFile)
    (each : ∀ file ∈ files, ∀ point, checkpoint disk id record none file = .ok point →
      ∃ point, checkpoint later id after none file = .ok point) (points : List FileCheckpoint)
    (read : checkpointsFrom disk id record none files = .ok points) :
    ∃ points, checkpointsFrom later id after none files = .ok points := by
  induction files generalizing points with
  | nil => exact ⟨[], rfl⟩
  | cons file rest ih =>
      simp only [checkpointsFrom] at read ⊢
      split at read
      · cases read
      · rename_i point taken
        split at read
        · cases read
        · rename_i remaining found
          obtain ⟨others, reported⟩ :=
            ih (fun other member => each other (List.mem_cons_of_mem _ member)) remaining found
          obtain ⟨first, here⟩ := each file (List.mem_cons_self ..) point taken
          exact ⟨first :: others, by rw [here, reported]⟩

theorem checkpoints_without (disk later : ReceiverDisk) (id name : String) (record : Record)
    (own : later.node (partPath id name) = none)
    (others : ∀ other, other ≠ name → partialLength later (partPath id other) none = partialLength disk
      (partPath id other) none) (files : List TransferFile) (points : List FileCheckpoint)
    (read : checkpointsFrom disk id record none files = .ok points) :
    ∃ points, checkpointsFrom later id record none files = .ok points := by
  refine checkpoints_survive disk later id record record files ?_ points read
  intro file _ point taken
  unfold checkpoint at taken ⊢
  by_cases same : file.id = name
  · cases receipt : record.published.lookup file.id with
    | none => exact ⟨⟨file.id, 0, false⟩, by simp [same, partialLength, own]⟩
    | some target => exact ⟨⟨file.id, file.size, true⟩, by simp⟩
  · rw [others file.id same]
    exact ⟨point, taken⟩

theorem refused_lengths (disk later : ReceiverDisk) (id name : String)
    (beside : ∀ path, path ≠ partPath id name → later.node path = disk.node path)
    (others : ∀ (other : String) (inode : Nat), other ≠ name →
      disk.node (partPath id other) = some (.file inode) →
      later.inodes[inode]? = disk.inodes[inode]?) (other : String) (different : other ≠ name) :
    partialLength later (partPath id other) none = partialLength disk (partPath id other) none := by
  have apart : partPath id other ≠ partPath id name :=
    fun same => different (part_path_inj id id other name rfl same).2
  unfold partialLength
  rw [beside _ apart]
  cases found : disk.node (partPath id other) with
  | none => rfl
  | some node =>
      cases node with
      | file inode => simp only [others other inode different found]
      | _ => rfl

theorem run_parted (sha256 : Bytes → String) (start state : State) (initial : Initial start)
    (run : Transition.Run (step sha256) (fun _ _ => True) start state) : Base state ∧
      Parted state.store.disk :=
  Transition.run_invariant (step sha256) _ (fun state => Base state ∧ Parted state.store.disk)
    (fun state label next good _ stepped => ⟨base_step sha256 state next label good.1 stepped,
    parted_step sha256 state next label good.1 good.2 stepped⟩)
    start state run ⟨initial_base start initial, initial_parted start initial⟩

theorem parted_stored (disk : ReceiverDisk) (parted : Parted disk) (id name : String)
    (canonical : id.toList.length = 36) :
    Stored disk (partPath id name) (partialBytes disk id name) := by
  unfold Stored partialBytes
  cases found : disk.node (partPath id name) with
  | none => exact .inl ⟨rfl, by simp [Disk.read, found]⟩
  | some node =>
      obtain ⟨inode, rfl⟩ := parted.plain id name node canonical found
      obtain ⟨bytes, content⟩ : ∃ bytes, disk.inodes[inode]? = some bytes :=
        ⟨_, List.getElem?_eq_getElem (parted.allocated _ inode found)⟩
      have read : disk.read (partPath id name) = some bytes :=
        (read_eq_some _ _ _).mpr ⟨inode, found, content⟩
      exact .inr ⟨inode, rfl, by rw [read, Option.getD_some]; exact content⟩

theorem answers_run (sha256 : Bytes → String) (request : UploadRequest) (reply : Response)
    (start state final : State) (run : Transition.Run (step sha256) (fun _ _ => True) start state)
    (answers : Answers sha256 request reply state final) :
    Transition.Run (step sha256) (fun _ _ => True) start final := by
  obtain ⟨called, made, rest, _⟩ := answers
  exact Transition.run_trans (step sha256) _ start called final (.tail state called _ run trivial made)
    (Transition.run_mono (step sha256) _ _ called final (fun _ _ _ => trivial) rest)

-- The request that sends the rest of a file from an offset on.
def resuming (peer : Peer) (session : Session) (file : TransferFile) (offset : Nat) (chunks : List Bytes) :
    UploadRequest :=
  ⟨peer, session.id, file.id, offset, session.record.token, chunks, .finished⟩

-- A session that waits for a file, with a name to spare for it, and whose
-- status can be reported. Nobody holds its record.
structure Awaits (state : State) (s : Nat) (session : Session) (file : TransferFile) : Prop where
  running : state.running = true
  mapped : state.store.sessions.lookup session.id = some s
  here : state.store.heap[s]? = some session
  free : session.lock = none
  live : session.record.cancelled = false ∧ session.cancel = false
  accepted : session.record.decision = .accepted
  member : file ∈ session.record.manifest.request.files
  missing : session.record.published.lookup file.id = none
  publishable : Publishable file
  safe : safeParent state.store.disk (receiveTarget file).1 = true
  room : ∃ j, 1 ≤ j ∧ j < publishLimit ∧ state.store.disk.node (candidatePath file j) = none
  reported : ∃ points, checkpoints state.store.disk session.id session.record none = .ok points

-- The file has a receipt, and its declared content is where the receipt says.
def Arrived (sha256 : Bytes → String) (store : Store) (s : Nat) (session : Session) (file : TransferFile) :
    Prop :=
  ∃ (after : Session) (target : Path) (bytes : Bytes), store.heap[s]? = some after ∧ after.id = session.id ∧
    after.record.published.lookup file.id = some target ∧ store.disk.read target = some bytes ∧
      bytes.length = file.size ∧
      session.record.manifest.sha256.lookup file.id = some (sha256 bytes)

theorem receipted_arrived (sha256 : Bytes → String) (request : UploadRequest) (store : Store) (s : Nat)
    (session : Session) (file : TransferFile) (named : request.transferId = session.id)
    (receipted : store.Receipted sha256 request s session.record file) :
    Arrived sha256 store s session file := by
  obtain ⟨after, targets, target, here, id', known, _, bytes, read, matching⟩ := receipted
  obtain ⟨digest, size⟩ : session.record.manifest.sha256.lookup file.id = some (sha256 bytes) ∧
    bytes.length = file.size := by
    simpa [verified] using matching
  exact ⟨after, target, bytes, here, id'.trans named, by simp [known, receiptRecord], read, size, digest⟩

section Sender

variable (sha256 : Bytes → String) (state : State) (s : Nat) (session : Session) (file : TransferFile)
    (peer : Peer)
  (awaits : Awaits state s session file) (owned : session.record.owner = owner peer) (base : Base state)
    (parted : Parted state.store.disk)
include awaits owned base parted

theorem awaits_resumable (chunks : List Bytes)
    (fills : (partialBytes state.store.disk session.id file.id ++ chunks.flatten).length = file.size) :
    Resumable (resuming peer session file (partialBytes state.store.disk session.id file.id).length chunks)
      session.record state.store.disk
      file (partialBytes state.store.disk session.id file.id) where
  sound := (base.sound s session awaits.here).record
  owned := owned
  live := awaits.live.1
  accepted := awaits.accepted
  capability := rfl
  member := awaits.member
  named := rfl
  missing := awaits.missing
  publishable := awaits.publishable
  safe := awaits.safe
  room := awaits.room
  reported := awaits.reported
  parted := parted
  canonical := session_id_length state base s session awaits.here
  stored := parted_stored state.store.disk parted session.id file.id
    (session_id_length state base s session awaits.here)
  offset := rfl
  whole := rfl
  fills := fills

omit owned in
theorem rest_fills (source : Bytes) (size : source.length = file.size) (chunks : List Bytes)
    (body : chunks.flatten = source.drop (partialBytes state.store.disk session.id file.id).length) :
    (partialBytes state.store.disk session.id file.id ++ chunks.flatten).length = file.size := by
  obtain ⟨points, read⟩ := awaits.reported
  have sound := (base.sound s session awaits.here).record
  obtain ⟨point, _, _, measured, fits⟩ :=
    reported_offset state.store.disk session.id session.record sound file awaits.member awaits.missing
      points read
  have kept := parted_stored state.store.disk parted session.id file.id
    (session_id_length state base s session awaits.here)
  rw [stored_length _ _ _ kept] at measured
  have offset := Except.ok.inj measured
  rw [List.length_append, body, List.length_drop]
  omega

omit owned base parted in
theorem refused_awaits (request : UploadRequest) (named : request.transferId = session.id) (final : State)
    (running : final.running = true) (mapped : final.store.sessions.lookup session.id = some s)
    (free : ∃ after, final.store.heap[s]? = some after ∧ after.lock = none)
    (refused : final.store.Refused sha256 request s session.record state.store.disk file
      (partialBytes state.store.disk session.id file.id)) :
    ∃ after, Awaits final s after file ∧ after.id = session.id ∧ after.record = session.record ∧
      partialBytes final.store.disk session.id file.id = [] := by
  obtain ⟨_, ⟨after, here, id', untripped, known⟩, absent, beside, others⟩ := refused
  rw [named] at id' absent beside others
  obtain ⟨same, there, unlocked⟩ := free
  obtain rfl := Option.some.inj (here.symm.trans there)
  have lengths := refused_lengths state.store.disk final.store.disk session.id file.id beside others
  obtain ⟨j, positive, bounded, empty⟩ := awaits.room
  obtain ⟨points, read⟩ := awaits.reported
  refine ⟨after, ⟨running, id' ▸ mapped, here, unlocked, ⟨known ▸ awaits.live.1, untripped⟩,
    known ▸ awaits.accepted, known ▸ awaits.member,
    known ▸ awaits.missing, awaits.publishable, safe_beside _ _ file session.id awaits.publishable beside
    awaits.safe,
    ⟨j, positive, bounded, (candidate_beside _ _ file session.id awaits.publishable beside j).trans empty⟩,
    ?_⟩, id', known, ?_⟩
  · rw [id', known]
    exact checkpoints_without state.store.disk final.store.disk session.id file.id session.record absent
      lengths _ points read
  · simp [partialBytes, Disk.read, absent]

end Sender

-- A sender that has the declared content and goes on from the reported offset
-- publishes the file with its next upload, or, if something else had been
-- received, with the one after it.
theorem honest_sender_gets_through (sha256 : Bytes → String) (start state : State) (initial : Initial start)
    (run : Transition.Run (step sha256) (fun _ _ => True) start state) (s : Nat) (session : Session)
    (file : TransferFile) (awaits : Awaits state s session file) (peer : Peer)
    (owned : session.record.owner = owner peer) (source : Bytes) (size : source.length = file.size)
    (digest : session.record.manifest.sha256.lookup file.id = some (sha256 source)) (chunks : List Bytes)
    (body : chunks.flatten = source.drop (partialBytes state.store.disk session.id file.id).length) :
    ∃ reply final, Answers sha256
      (resuming peer session file (partialBytes state.store.disk session.id file.id).length chunks) reply
      state final ∧
      ((reply = .plain 200 ∧ Arrived sha256 final.store s session file) ∨
        (reply = .plain 422 ∧ ¬ partialBytes state.store.disk session.id file.id <+: source ∧
          ∀ again : List Bytes, again.flatten = source →
            ∃ last, Answers sha256 (resuming peer session file 0 again) (.plain 200) final last ∧
            Arrived sha256 last.store s session file)) := by
  obtain ⟨base, parted⟩ := run_parted sha256 start state initial run
  have fills := rest_fills state s session file awaits base parted source size chunks body
  have resumable := awaits_resumable state s session file peer awaits owned base parted chunks fills
  obtain ⟨reply, final, answers, running, mapped, concluded, free⟩ :=
    upload_concludes sha256 _ s session file _ state awaits.running
    awaits.mapped awaits.here rfl awaits.free awaits.live.2 resumable
  refine ⟨reply, final, answers, ?_⟩
  rcases concluded with ⟨code, receipted⟩ | ⟨code, refused⟩
  · exact .inl ⟨code, receipted_arrived sha256 _ final.store s session file rfl receipted⟩
  · have whole : ∀ bytes, bytes = source → verified sha256 session.record file bytes = true := by
      rintro bytes rfl
      simp [verified, digest, size]
    refine .inr ⟨code, ?_, ?_⟩
    · intro start
      have complete : partialBytes state.store.disk session.id file.id ++ chunks.flatten = source := by
        rw [body]
        conv_rhs => rw [← List.take_append_drop (partialBytes state.store.disk session.id file.id).length
          source,
          ← List.prefix_iff_eq_take.mp start]
      have different : verified sha256 session.record file
        (partialBytes state.store.disk session.id file.id ++ chunks.flatten) = false :=
        refused.1
      rw [whole _ complete] at different
      cases different
    · intro again all
      obtain ⟨after, waits, id', known, empty⟩ :=
        refused_awaits sha256 state s session file awaits _ rfl final running mapped free refused
      obtain ⟨base', parted'⟩ :=
        run_parted sha256 start final initial (answers_run sha256 _ reply start state final run answers)
      have fills' : (partialBytes final.store.disk after.id file.id ++ again.flatten).length = file.size := by
        rw [id', empty, all]
        exact size
      have resumable' :=
        awaits_resumable final s after file peer waits (known ▸ owned) base' parted' again fills'
      obtain ⟨reply', last, answers', _, _, concluded', _⟩ :=
        upload_concludes sha256 _ s after file _ final waits.running waits.mapped
        waits.here rfl waits.free waits.live.2 resumable'
      have asked : resuming peer after file (partialBytes final.store.disk after.id file.id).length again =
        resuming peer session file 0 again := by
        simp [resuming, id', known, empty]
      rw [asked] at answers' concluded'
      rcases concluded' with ⟨code', receipted⟩ | ⟨_, refused'⟩
      · rw [known] at receipted
        exact ⟨last, code' ▸ answers', receipted_arrived sha256 _ last.store s session file rfl receipted⟩
      · have different : verified sha256 after.record file
          (partialBytes final.store.disk after.id file.id ++ again.flatten) = false :=
          refused'.1
        rw [known, whole _ (by rw [id', empty, all]; rfl)] at different
        cases different

-- Something else than the first byte of the file has been received.
def spoiltRun : List Label :=
  .start :: .call (.register { smallRegister true with manifest := pairManifest }) :: advances 0 7 ++
    .call (.upload { smallUpload with chunks := [[9]], ending := .failed }) :: advances 1 9

def waitsForPair (state : State) : Bool :=
  state.running && state.store.sessions.lookup smallId == some 0 &&
    (state.store.disk.node (candidatePath pairFile 1)).isNone && (state.store.heap[0]?).any fun session =>
    session.id == smallId && session.lock.isNone && !session.record.cancelled && !session.cancel &&
      session.record.decision == .accepted && session.record.owner == owner smallPeer &&
      session.record.manifest.request.files == [pairFile] &&
      session.record.manifest.sha256.lookup pairFile.id == some pairDigest &&
      (session.record.published.lookup pairFile.id).isNone &&
      partialBytes state.store.disk session.id pairFile.id == [9] &&
      (checkpoints state.store.disk session.id session.record none).isOk

theorem spoilt_partial_is_sent_again :
    ∃ (state : State) (session : Session), Awaits state 0 session pairFile ∧
    partialBytes state.store.disk session.id pairFile.id = [9] ∧
      ∃ reply final, Answers pairHash (resuming smallPeer session pairFile 1 [[2]]) reply state final ∧
        ((reply = .plain 200 ∧ Arrived pairHash final.store 0 session pairFile) ∨
          (reply = .plain 422 ∧ ¬ [9] <+: pairSource ∧
            ∀ again : List Bytes, again.flatten = pairSource →
              ∃ last, Answers pairHash (resuming smallPeer session pairFile 0 again) (.plain 200) final last ∧
                Arrived pairHash last.store 0 session pairFile)) := by
  obtain ⟨state, run, checked⟩ :=
    Transition.replay_reaches (step pairHash) (fun _ _ => True) spoiltRun emptyState waitsForPair
      (by decide +kernel)
  simp only [waitsForPair, Bool.and_eq_true, beq_iff_eq, Option.any_eq_true, Option.isNone_iff_eq_none,
    Bool.not_eq_true'] at checked
  obtain ⟨⟨⟨running, mapped⟩, empty⟩, session, here, fields⟩ := checked
  obtain ⟨⟨⟨⟨⟨⟨⟨⟨⟨⟨named, free⟩, live⟩, untripped⟩, accepted⟩, owned⟩, files⟩, digest⟩, missing⟩, bytes⟩,
    reported⟩ := fields
  have publishable : Publishable pairFile := by
    rw [Publishable]
    decide
  have points : ∃ points, checkpoints state.store.disk session.id session.record none = .ok points := by
    cases read : checkpoints state.store.disk session.id session.record none with
    | error e => simp [read, Except.isOk, Except.toBool] at reported
    | ok points => exact ⟨points, rfl⟩
  have awaits : Awaits state 0 session pairFile :=
    ⟨running, named ▸ mapped, here, free, ⟨live, untripped⟩, accepted, by simp [files], missing,
      publishable, rfl,
      ⟨1, Nat.le_refl 1, by decide, empty⟩, points⟩
  have answered :=
    honest_sender_gets_through pairHash emptyState state empty_initial run 0 session pairFile awaits
      smallPeer owned pairSource rfl
    digest [[2]] (by rw [bytes]; rfl)
  rw [bytes] at answered
  exact ⟨state, session, awaits, bytes, answered⟩

end GoshTransfer
