import GoshTransfer.Draining
import GoshTransfer.PanicFree
import GoshTransfer.Numbering

set_option autoImplicit false

-- An upload that continues a partial at the reported offset and completes it is
-- followed through all its steps.
namespace GoshTransfer

open InodeStore

-- The partial of a file as a call finds it: absent, or a file of its own.
def Stored (disk : ReceiverDisk) (path : Path) (old : Bytes) : Prop :=
  (disk.node path = none ∧ old = []) ∨ ∃ inode, disk.node path = some (.file inode) ∧
    disk.inodes[inode]? = some old

-- The request of the owner of an accepted session that fills the partial up.
structure Resumable (request : UploadRequest) (record : Record) (disk : ReceiverDisk) (file : TransferFile)
    (old : Bytes) : Prop where
  sound : record.Sound
  owned : record.owner = owner request.peer
  live : record.cancelled = false
  accepted : record.decision = .accepted
  capability : request.token = record.token
  member : file ∈ record.manifest.request.files
  named : file.id = request.fileId
  missing : record.published.lookup file.id = none
  publishable : Publishable file
  safe : safeParent disk (receiveTarget file).1 = true
  room : ∃ j, 1 ≤ j ∧ j < publishLimit ∧ disk.node (candidatePath file j) = none
  reported : ∃ points, checkpoints disk request.transferId record none = .ok points
  parted : Parted disk
  canonical : request.transferId.toList.length = 36
  stored : Stored disk (partPath request.transferId file.id) old
  offset : request.offset = old.length
  whole : request.ending = .finished
  fills : (old ++ request.chunks.flatten).length = file.size

theorem stored_length (disk : ReceiverDisk) (path : Path) (old : Bytes) (stored : Stored disk path old) :
    partialLength disk path none = .ok old.length := by
  unfold partialLength
  rcases stored with ⟨absent, rfl⟩ | ⟨inode, present, content⟩
  · simp [absent]
  · simp [present, content]

theorem part_not_parent (file : TransferFile) (publishable : Publishable file) (id : String) :
    partPath id file.id ∉ parentDirs (receiveTarget file).1 :=
  fun member => part_inside id file.id (parent_dirs_outside file _ publishable (List.prefix_refl _) _ member)

theorem safe_beside (disk later : ReceiverDisk) (file : TransferFile) (id : String)
    (publishable : Publishable file)
    (beside : ∀ path, path ≠ partPath id file.id → later.node path = disk.node path)
    (safe : safeParent disk (receiveTarget file).1 = true) :
    safeParent later (receiveTarget file).1 = true := by
  refine List.all_eq_true.mpr fun dir member => ?_
  have other : dir ≠ partPath id file.id := fun same => part_not_parent file publishable id (same ▸ member)
  rw [beside dir other]
  exact List.all_eq_true.mp safe dir member

theorem candidate_beside (disk later : ReceiverDisk) (file : TransferFile) (id : String)
    (publishable : Publishable file)
    (beside : ∀ path, path ≠ partPath id file.id → later.node path = disk.node path) (j : Nat) :
    later.node (candidatePath file j) = disk.node (candidatePath file j) :=
  beside _ (outside_ne_part _ id file.id (candidate_outside file j publishable))

theorem declared_found (record : Record) (sound : record.Sound) (file : TransferFile)
    (member : file ∈ record.manifest.request.files) :
    record.manifest.request.files.find? (·.id == file.id) = some file := by
  obtain ⟨other, found⟩ := Option.isSome_iff_exists.mp
    (List.find?_isSome.mpr ⟨file, member, by simp⟩ : (record.manifest.request.files.find?
    (·.id == file.id)).isSome)
  have same : other.id = file.id := by simpa using List.find?_some found
  rw [found, valid_file_unique record.manifest sound.valid other file (List.mem_of_find?_eq_some found)
    member same]

section Upload

variable (sha256 : Bytes → String) (request : UploadRequest) (o s : Nat) (record : Record)
    (disk : ReceiverDisk) (file : TransferFile)
  (old : Bytes)

-- The session while the record is as it was.
def Store.Untouched (store : Store) : Prop :=
  ∃ session : Session, store.heap[s]? = some session ∧ session.id = request.transferId ∧
    session.cancel = false ∧ session.record = record

-- The body goes into the partial, and nothing else has changed on the disk.
structure Filling (store : Store) (x : Incoming) (bytes : Bytes) : Prop where
  meant : x.file = file
  untouched : store.Untouched request s record
  beside : ∀ path, path ≠ partPath request.transferId file.id → store.disk.node path = disk.node path
  others : ∀ (name : String) (inode : Nat), name ≠ file.id →
    disk.node (partPath request.transferId name) = some (.file inode) →
    inode ≠ x.fd ∧ store.disk.inodes[inode]? = disk.inodes[inode]?
  node : store.disk.node (partPath request.transferId file.id) = some (.file x.fd)
  content : store.disk.inodes[x.fd]? = some bytes

-- The body is complete and verified, and a name is looked for.
structure Placing (store : Store) (x : Incoming) (targets : HashMap String Path) : Prop where
  meant : x.file = file
  session : ∃ session : Session, store.heap[s]? = some session ∧ session.id = request.transferId ∧
    session.record = { record with targets := targets }
  planned : ∀ path, targets.lookup file.id = some path → Outside path
  node : store.disk.node (partPath request.transferId file.id) = some (.file x.fd)
  content : store.disk.inodes[x.fd]? = some (old ++ request.chunks.flatten)

def Store.Holding (store : Store) (target : Path) : Prop :=
  Outside target ∧ ∃ bytes, store.disk.read target = some bytes ∧ verified sha256 record file bytes = true

-- The receipt is in the record, and the file is where it says.
def Store.Receipted (store : Store) : Prop :=
  ∃ (session : Session) (targets : HashMap String Path) (target : Path), store.heap[s]? = some session ∧
    session.id = request.transferId ∧
    session.record = receiptRecord { record with targets := targets } file target ∧
      store.Holding sha256 record file target

-- The mismatch: the partial is gone and nothing else has changed.
def Store.Refused (store : Store) : Prop :=
  verified sha256 record file (old ++ request.chunks.flatten) = false ∧ store.Untouched request s record ∧
    store.disk.node (partPath request.transferId file.id) = none ∧
      (∀ path, path ≠ partPath request.transferId file.id → store.disk.node path = disk.node path) ∧
      ∀ (name : String) (inode : Nat), name ≠ file.id →
        disk.node (partPath request.transferId name) = some (.file inode) →
        store.disk.inodes[inode]? = disk.inodes[inode]?

def Replied (store : Store) (reply : Response) : Prop :=
  (reply = .plain 200 ∧ store.Receipted sha256 request s record file) ∨
    (reply = .plain 422 ∧ store.Refused sha256 request s record disk file old)

def UploadPhase.OnTrack (store : Store) : UploadPhase → Prop
  | .lookup => store.sessions.lookup request.transferId = some s ∧ store.disk = disk ∧
      store.Untouched request s record ∧
      ∃ session, store.heap[s]? = some session ∧ session.lock = none
  | .lock t => t = s ∧ store.disk = disk ∧ store.Untouched request s record ∧
      ∃ session, store.heap[s]? = some session ∧ session.lock = none
  | .entry t => t = s ∧ store.disk = disk ∧ store.Untouched request s record
  | .check t f => t = s ∧ f = file ∧ store.disk = disk ∧ store.Untouched request s record
  | .openPart t f _ current => t = s ∧ f = file ∧ current = old.length ∧ store.disk = disk ∧
      store.Untouched request s record
  | .receive t x chunks => t = s ∧ ∃ bytes, Filling request s record disk file store x bytes ∧
      (x.offset = bytes.length ∧ x.lastWriteErr = none) ∧
        bytes ++ chunks.flatten = old ++ request.chunks.flatten
  | .interrupted _ => False
  | .syncAll t x => t = s ∧ x.offset = file.size ∧
      Filling request s record disk file store x (old ++ request.chunks.flatten)
  | .hash t x => t = s ∧ Filling request s record disk file store x (old ++ request.chunks.flatten)
  | .recheck t x | .prepare t x => t = s ∧
      Filling request s record disk file store x (old ++ request.chunks.flatten) ∧
      verified sha256 record file (old ++ request.chunks.flatten) = true
  | .choose t x index => t = s ∧ verified sha256 record file (old ++ request.chunks.flatten) = true ∧
      ∃ targets, Placing request s record file old store x targets ∧ ∃ j, index ≤ j ∧ j < publishLimit ∧
        store.disk.node (candidatePath file j) = none ∧ ∀ path, targets.lookup file.id = some path → index < j
  | .link t x index target => t = s ∧ verified sha256 record file (old ++ request.chunks.flatten) = true ∧
      Outside target ∧
      ∃ targets, Placing request s record file old store x targets ∧ ∃ j, index ≤ j ∧ j < publishLimit ∧
        store.disk.node (candidatePath file j) = none ∧ (store.disk.node target ≠ none → index < j)
  | .verify t x index target => t = s ∧ verified sha256 record file (old ++ request.chunks.flatten) = true ∧
      Outside target ∧
      ∃ targets, Placing request s record file old store x targets ∧ ∃ j, index < j ∧ j < publishLimit ∧
        store.disk.node (candidatePath file j) = none
  | .syncParent t x target | .commit t x target => t = s ∧ store.Holding sha256 record file target ∧
      ∃ targets, Placing request s record file old store x targets
  | .finish t x | .discard t x | .announce t x => t = s ∧ x.file = file ∧
      store.Receipted sha256 request s record file
  | .leave t reply => t = s ∧ Replied sha256 request s record disk file old store reply
  | .done reply => Replied sha256 request s record disk file old store reply ∧
      ∃ session, store.heap[s]? = some session ∧ session.lock = none

-- The step is taken, and the next phase is on track as well.
def UploadPhase.Advances (store : Store) (phase : UploadPhase) : Prop :=
  ∃ act log next, phase.next sha256 request store none = some (act, log, next) ∧
    next.OnTrack sha256 request s record disk file old (store.apply o act)

theorem session_frame (store : Store) (act : Act) (session : Session) (here : store.heap[s]? = some session)
    (quiet : act.writes = none) (gentle : act ≠ .trip s) : ∃ after :
    Session, (store.apply o act).heap[s]? = some after ∧ after.id = session.id ∧
      after.record = session.record ∧ after.cancel = session.cancel := by
  refine ⟨act.on o s session, apply_heap store o act s session here, on_id act o s session,
    quiet_record act o s session quiet, ?_⟩
  cases act with
  | trip t =>
      have other : s ≠ t := fun same => gentle (by rw [same])
      simp [Act.on, other]
  | _ =>
      simp only [Act.on]
      try split <;> rfl

theorem untouched_frame (store : Store) (act : Act) (untouched : store.Untouched request s record)
    (quiet : act.writes = none) (gentle : act ≠ .trip s) :
    (store.apply o act).Untouched request s record := by
  obtain ⟨session, here, named, running, same⟩ := untouched
  obtain ⟨after, there, id, kept, cancel⟩ := session_frame o s store act session here quiet gentle
  exact ⟨after, there, id.trans named, cancel.trans running, kept.trans same⟩

theorem lookup_advances (store : Store)
    (track : UploadPhase.OnTrack sha256 request s record disk file old store .lookup) :
    UploadPhase.Advances sha256 request o s record disk file old store .lookup := by
  obtain ⟨mapped, same, untouched, free⟩ := track
  exact ⟨.tau, [], .lock s, by simp [UploadPhase.next, lookupStep, mapped, plain], rfl, same, untouched, free⟩

theorem lock_advances (store : Store) (t : Nat)
    (track : UploadPhase.OnTrack sha256 request s record disk file old store (.lock t)) :
    UploadPhase.Advances sha256 request o s record disk file old store (.lock t) := by
  obtain ⟨rfl, same, untouched, session, here, free⟩ := track
  exact ⟨.acquire t, [], .entry t, by simp [UploadPhase.next, lockStep, here, free, plain], rfl, same,
    untouched_frame request o t record store (.acquire t) untouched rfl (by simp)⟩

theorem sync_advances (store : Store) (t : Nat) (x : Incoming)
    (track : UploadPhase.OnTrack sha256 request s record disk file old store (.syncAll t x)) :
    UploadPhase.Advances sha256 request o s record disk file old store (.syncAll t x) := by
  obtain ⟨rfl, full, filling⟩ := track
  refine ⟨.tau, [], .hash t x, ?_, rfl, filling⟩
  have size : x.offset = x.file.size := by rw [full, filling.meant]
  simp [UploadPhase.next, syncAllStep, size]

theorem hash_advances (store : Store) (t : Nat) (x : Incoming)
    (track : UploadPhase.OnTrack sha256 request s record disk file old store (.hash t x)) :
    UploadPhase.Advances sha256 request o s record disk file old store (.hash t x) := by
  obtain ⟨rfl, filling⟩ := track
  obtain ⟨session, here, named, _, known⟩ := id filling.untouched
  have read : store.disk.read (partPath request.transferId file.id) = some (old ++ request.chunks.flatten) :=
    (read_eq_some _ _ _).mpr ⟨x.fd, filling.node, filling.content⟩
  cases matching : verified sha256 record file (old ++ request.chunks.flatten) with
  | true =>
      refine ⟨.tau, [], .recheck t x, ?_, rfl, filling, matching⟩
      simp only [UploadPhase.next, withSession, here, Option.bind_some, hashStep, reduceCtorEq, if_false,
        known, named, filling.meant,
        read, matching, if_true, plain]
  | false =>
      refine ⟨.remove (partPath request.transferId file.id),
        [.event t (.transferFailed request.transferId "SHA-256 checksum mismatch; file discarded")],
        .leave t (.plain 422), ?_, rfl,
        .inr ⟨rfl, matching, ?_, ?_, ?_, ?_⟩⟩
      · simp only [UploadPhase.next, withSession, here, Option.bind_some, hashStep, reduceCtorEq, if_false,
          known, named, filling.meant,
          read, matching, Bool.false_eq_true, removeStep]
      · exact untouched_frame request o t record store (.remove _) filling.untouched rfl (by simp)
      · rw [apply_node]
        simp [Act.node]
      · intro path other
        rw [apply_node]
        simpa [Act.node, other] using filling.beside path other
      · intro name inode other there
        rw [apply_inodes]
        exact (filling.others name inode other there).2

theorem recheck_advances (store : Store) (t : Nat) (x : Incoming)
    (track : UploadPhase.OnTrack sha256 request s record disk file old store (.recheck t x)) :
    UploadPhase.Advances sha256 request o s record disk file old store (.recheck t x) := by
  obtain ⟨rfl, filling, matching⟩ := track
  obtain ⟨session, here, _, running, _⟩ := id filling.untouched
  exact ⟨.tau, [], .prepare t x, by simp [UploadPhase.next, withSession, here, recheckStep, running, plain],
    rfl, filling, matching⟩

theorem candidate_not_parent (index : Nat) (parent : Path) (start : parent = (receiveTarget file).1) :
    candidatePath file index ∉ parentDirs parent := by
  intro member
  have shorter := ((List.mem_inits _ _).mp (List.mem_of_mem_drop member)).length_le
  simp [candidatePath, start] at shorter

theorem persist_outside (store : Store) (written : Record) (path : Path) (outside : Outside path) :
    (store.apply o (.persist s written true)).disk.node path = store.disk.node path := by
  rw [apply_node]
  simp [Act.node, outside_ne_journal path written.pending.id outside]

theorem persist_part (store : Store) (written : Record) (id name : String) :
    (store.apply o (.persist s written true)).disk.node (partPath id name) =
      store.disk.node (partPath id name) := by
  rw [apply_node]
  simp [Act.node, part_ne_journal]

theorem link_advances (store : Store) (t : Nat) (x : Incoming) (index : Nat) (target : Path)
    (track : UploadPhase.OnTrack sha256 request s record disk file old store (.link t x index target)) :
    UploadPhase.Advances sha256 request o s record disk file old store (.link t x index target) := by
  obtain ⟨rfl, matching, outside, targets, placing, j, _, bounded, free, beyond⟩ := track
  obtain ⟨session, here, named, known⟩ := placing.session
  have different : partPath request.transferId file.id ≠ target := (outside_ne_part target _ _ outside).symm
  cases found : store.disk.node target with
  | none =>
      refine ⟨.link x.fd target, [.linked session.id x.file.id target], .syncParent t x target, ?_, rfl,
        ⟨outside, ?_⟩, targets,
        placing.meant, ⟨session, ?_, named, known⟩, placing.planned, ?_, ?_⟩
      · simp [UploadPhase.next, withSession, here, linkStep, named, placing.meant, placing.node, found]
      · refine ⟨old ++ request.chunks.flatten, (read_eq_some _ _ _).mpr ⟨x.fd, ?_, ?_⟩, matching⟩
        · rw [apply_node]
          simp [Act.node]
        · rw [apply_inodes]
          exact placing.content
      · simpa [Act.on] using apply_heap store o (.link x.fd target) t session here
      · rw [apply_node]
        simp [Act.node, different, placing.node]
      · rw [apply_inodes]
        exact placing.content
  | some node =>
      refine ⟨.tau, [], .verify t x index target, ?_, rfl, matching, outside, targets, placing, j,
        beyond (by simp [found]), bounded, free⟩
      simp [UploadPhase.next, withSession, here, linkStep, named, placing.meant, placing.node, found]

theorem verify_advances (store : Store) (t : Nat) (x : Incoming) (index : Nat) (target : Path)
    (track : UploadPhase.OnTrack sha256 request s record disk file old store (.verify t x index target)) :
    UploadPhase.Advances sha256 request o s record disk file old store (.verify t x index target) := by
  obtain ⟨rfl, matching, outside, targets, placing, j, later, bounded, free⟩ := track
  obtain ⟨session, here, named, known⟩ := placing.session
  have check : verified sha256 session.record x.file = verified sha256 record file := by
    funext bytes
    rw [verified_same sha256 session.record record x.file bytes (by rw [known]), placing.meant]
  by_cases good : (store.disk.read target).map (verified sha256 record file) = some true
  · obtain ⟨bytes, read, same⟩ := Option.map_eq_some_iff.mp good
    refine ⟨.tau, [], .syncParent t x target, ?_, rfl, ⟨outside, bytes, read, same⟩, targets, placing⟩
    simp only [UploadPhase.next, withSession, here, Option.bind_some, verifyStep, check, good, and_self,
      if_true]
  · refine ⟨.assign t (droppedRecord session.record x.file), [], .choose t x (index + 1), ?_, rfl, matching,
      targets.erase file.id,
      ⟨placing.meant, ⟨_, apply_heap store o _ t session here, by simpa using named, ?_⟩, ?_, placing.node,
      placing.content⟩, j, later,
      bounded, free, ?_⟩
    · simp only [UploadPhase.next, withSession, here, Option.bind_some, verifyStep, check, good, and_false,
        if_false, true_or, if_true,
        droppedRecord]
    · simp [Act.on, droppedRecord, known, placing.meant]
    · intro path found
      rw [Finmap.lookup_erase] at found
      cases found
    · intro path found
      rw [Finmap.lookup_erase] at found
      cases found

theorem sync_parent_advances (store : Store) (t : Nat) (x : Incoming) (target : Path)
    (track : UploadPhase.OnTrack sha256 request s record disk file old store (.syncParent t x target)) :
    UploadPhase.Advances sha256 request o s record disk file old store (.syncParent t x target) := by
  obtain ⟨rfl, holding, placing⟩ := track
  exact ⟨.tau, [], .commit t x target, rfl, rfl, holding, placing⟩

theorem holding_frame (store : Store) (act : Act) (target : Path)
    (holding : store.Holding sha256 record file target)
    (node : act.node store.disk target = store.disk.node target)
    (inodes : act.inodes store.disk = store.disk.inodes) :
    (store.apply o act).Holding sha256 record file target := by
  obtain ⟨outside, bytes, read, same⟩ := holding
  refine ⟨outside, bytes, ?_, same⟩
  obtain ⟨inode, there, content⟩ := (read_eq_some _ _ _).mp read
  exact (read_eq_some _ _ _).mpr ⟨inode, (apply_node store o act target).trans (node.trans there),
    by rw [apply_inodes, inodes]; exact content⟩

theorem commit_advances (store : Store) (t : Nat) (x : Incoming) (target : Path)
    (track : UploadPhase.OnTrack sha256 request s record disk file old store (.commit t x target)) :
    UploadPhase.Advances sha256 request o s record disk file old store (.commit t x target) := by
  obtain ⟨rfl, holding, targets, placing⟩ := track
  obtain ⟨session, here, named, known⟩ := placing.session
  refine ⟨.persist t (receiptRecord session.record x.file target) true, [], .finish t x, ?_, rfl,
    placing.meant, _, targets, target,
    apply_heap store o _ t session here,
    by simpa using named, ?_, holding_frame sha256 o record file store _ target holding ?_ rfl⟩
  · simp [UploadPhase.next, withSession, here, commitStep, persistStep]
  · simp [Act.on, known, placing.meant]
  · simp [Act.node, outside_ne_journal target _ holding.1]

theorem receipted_frame (store : Store) (act : Act)
    (receipted : store.Receipted sha256 request s record file) (quiet : act.writes = none)
    (gentle : act ≠ .trip s)
    (node : ∀ target, Outside target → act.node store.disk target = store.disk.node target)
    (inodes : act.inodes store.disk = store.disk.inodes) :
      (store.apply o act).Receipted sha256 request s record file := by
  obtain ⟨session, targets, target, here, named, known, holding⟩ := receipted
  obtain ⟨after, there, id', kept, _⟩ := session_frame o s store act session here quiet gentle
  exact ⟨after, targets, target, there, id'.trans named, kept.trans known,
    holding_frame sha256 o record file store act target holding (node target holding.1) inodes⟩

theorem receipted_session (store : Store) (receipted : store.Receipted sha256 request s record file) :
    ∃ session : Session, store.heap[s]? = some session ∧ session.id = request.transferId := by
  obtain ⟨session, _, _, here, named, _⟩ := receipted
  exact ⟨session, here, named⟩

theorem finish_advances (store : Store) (t : Nat) (x : Incoming)
    (track : UploadPhase.OnTrack sha256 request s record disk file old store (.finish t x)) :
    UploadPhase.Advances sha256 request o s record disk file old store (.finish t x) := by
  obtain ⟨rfl, meant, receipted⟩ := track
  exact ⟨.finish t, [], .discard t x, rfl, rfl, meant,
    receipted_frame sha256 request o t record file store (.finish t) receipted rfl (by simp)
    (fun _ _ => rfl) rfl⟩

theorem discard_advances (store : Store) (t : Nat) (x : Incoming)
    (track : UploadPhase.OnTrack sha256 request s record disk file old store (.discard t x)) :
    UploadPhase.Advances sha256 request o s record disk file old store (.discard t x) := by
  obtain ⟨rfl, meant, receipted⟩ := track
  obtain ⟨session, here, _⟩ := receipted_session sha256 request t record file store receipted
  refine ⟨.remove (partPath session.id x.file.id), [], .announce t x,
    by simp [UploadPhase.next, withSession, here, removeStep], rfl, meant,
    receipted_frame sha256 request o t record file store (.remove _) receipted rfl (by simp) ?_ rfl⟩
  intro target outside
  simp [Act.node, outside_ne_part target session.id x.file.id outside]

theorem announce_advances (store : Store) (t : Nat) (x : Incoming)
    (track : UploadPhase.OnTrack sha256 request s record disk file old store (.announce t x)) :
    UploadPhase.Advances sha256 request o s record disk file old store (.announce t x) := by
  obtain ⟨rfl, meant, receipted⟩ := track
  obtain ⟨session, here, _⟩ := receipted_session sha256 request t record file store receipted
  exact ⟨.tau, completionLog t request session.record x, .leave t (.plain 200),
    by simp [UploadPhase.next, withSession, here, plain], rfl,
    .inl ⟨rfl, receipted⟩⟩

theorem leave_advances (store : Store) (t : Nat) (reply : Response)
    (track : UploadPhase.OnTrack sha256 request s record disk file old store (.leave t reply)) :
    UploadPhase.Advances sha256 request o s record disk file old store (.leave t reply) := by
  obtain ⟨rfl, concluded⟩ := track
  refine ⟨.release t, [], .done reply, by simp [UploadPhase.next, plain], ?_, ?_⟩
  · rcases concluded with ⟨code, receipted⟩ | ⟨code, different, untouched, absent, beside, others⟩
    · exact .inl ⟨code, receipted_frame sha256 request o t record file store (.release t) receipted rfl
        (by simp) (fun _ _ => rfl) rfl⟩
    · exact .inr ⟨code, different, untouched_frame request o t record store (.release t) untouched rfl
        (by simp), absent, beside,
        fun name inode other there => by rw [apply_inodes]; exact others name inode other there⟩
  · obtain ⟨session, here⟩ : ∃ session : Session, store.heap[t]? = some session := by
      rcases concluded with ⟨_, receipted⟩ | ⟨_, _, ⟨session, here, _⟩, _⟩
      · obtain ⟨session, here, _⟩ := receipted_session sha256 request t record file store receipted
        exact ⟨session, here⟩
      · exact ⟨session, here⟩
    exact ⟨_, apply_heap store o (.release t) t session here, by simp [Act.on]⟩

variable (resumable : Resumable request record disk file old)
include resumable

theorem entry_advances (store : Store) (t : Nat)
    (track : UploadPhase.OnTrack sha256 request s record disk file old store (.entry t)) :
    UploadPhase.Advances sha256 request o s record disk file old store (.entry t) := by
  obtain ⟨rfl, same, untouched⟩ := track
  obtain ⟨session, here, _, running, known⟩ := id untouched
  have declared := declared_found record resumable.sound file resumable.member
  rw [resumable.named] at declared
  refine ⟨.tau, [], .check t file, ?_, rfl, rfl, same, untouched⟩
  simp [UploadPhase.next, withSession, here, entryStep, known, resumable.owned, resumable.live, running,
    resumable.accepted,
    resumable.capability, declared, resumable.missing, plain]

theorem check_advances (store : Store) (t : Nat) (f : TransferFile)
    (track : UploadPhase.OnTrack sha256 request s record disk file old store (.check t f)) :
    UploadPhase.Advances sha256 request o s record disk file old store (.check t f) := by
  obtain ⟨rfl, rfl, same, untouched⟩ := track
  obtain ⟨session, here, named, _, known⟩ := id untouched
  obtain ⟨points, read⟩ := resumable.reported
  obtain ⟨point, found⟩ := checkpoint_found disk request.transferId record none points read f resumable.member
  have meant : point.fileId = f.id := by simpa using List.find?_some found
  have measured := checkpoints_offset disk request.transferId record none points read point
    (List.mem_of_find?_eq_some found) (meant ▸ resumable.missing)
  rw [meant, stored_length disk _ old resumable.stored] at measured
  have offset : point.offset = old.length := (Except.ok.inj measured).symm
  refine ⟨.tau, [], .openPart t f (offsetSum points) point.offset, ?_, rfl, rfl, offset, same, untouched⟩
  simp [UploadPhase.next, withSession, here, checkStep, named, known, same, read, found, offset,
    resumable.offset]

theorem open_advances (store : Store) (t : Nat) (f : TransferFile) (baseline current : Nat)
    (track : UploadPhase.OnTrack sha256 request s record disk file old store
      (.openPart t f baseline current)) :
    UploadPhase.Advances sha256 request o s record disk file old store (.openPart t f baseline current) := by
  obtain ⟨rfl, rfl, rfl, same, untouched⟩ := track
  obtain ⟨session, here, named, _, known⟩ := id untouched
  rcases resumable.stored with ⟨absent, empty⟩ | ⟨inode, present, content⟩
  · refine ⟨.openPart (partPath request.transferId f.id), [],
      .receive t (opened f store.disk.inodes.length baseline old.length) request.chunks, ?_, rfl, old, ?_,
      ⟨rfl, rfl⟩, rfl⟩
    · simp [UploadPhase.next, withSession, here, openStep, named, same, absent, opened]
    · refine ⟨rfl, untouched_frame request o t record store (.openPart _) untouched rfl (by simp), ?_, ?_,
        ?_, ?_⟩
      · intro path other
        rw [apply_node]
        simp [Act.node, other, same]
      · intro name inode other there
        have within := resumable.parted.allocated _ inode there
        have new : inode ≠ (opened f store.disk.inodes.length baseline old.length).fd := by
          simp only [opened, same]
          omega
        refine ⟨new, ?_⟩
        rw [apply_inodes, same]
        exact List.getElem?_append_left within
      · rw [apply_node]
        simp [Act.node, opened]
      · rw [apply_inodes]
        simp [Act.inodes, opened, empty]
  · refine ⟨.tau, [], .receive t (opened f inode baseline old.length) request.chunks, ?_, rfl, old, ?_,
      ⟨rfl, rfl⟩, rfl⟩
    · simp [UploadPhase.next, withSession, here, openStep, named, same, present, opened]
    · subst same
      refine ⟨rfl, untouched, fun _ _ => rfl, ?_, present, content⟩
      intro name other different there
      refine ⟨?_, rfl⟩
      rintro rfl
      exact different (resumable.parted.separate _ _ _ _ _ resumable.canonical resumable.canonical there
        present).2

theorem receive_advances (store : Store) (t : Nat) (x : Incoming) (chunks : List Bytes)
    (track : UploadPhase.OnTrack sha256 request s record disk file old store (.receive t x chunks)) :
    UploadPhase.Advances sha256 request o s record disk file old store (.receive t x chunks) := by
  obtain ⟨rfl, bytes, filling, ⟨offset, clear⟩, rest⟩ := track
  obtain ⟨session, here, named, running, known⟩ := id filling.untouched
  have fills := congrArg List.length rest
  rw [resumable.fills] at fills
  cases chunks with
  | nil =>
      have complete : bytes = old ++ request.chunks.flatten := by simpa using rest
      refine ⟨.tau, [], .syncAll t x, ?_, rfl, ?_, complete ▸ filling⟩
      · simp [UploadPhase.next, withSession, here, receiveStep, running, resumable.whole, plain]
      · rw [offset, complete, resumable.fills]
  | cons chunk later =>
      have fits : ¬ chunk.length > x.file.size - x.offset := by
        simp only [List.flatten_cons, List.length_append] at fills
        rw [filling.meant, offset]
        omega
      refine ⟨.append x.fd chunk, grownLog t request session.record x chunk, .receive t
        (grown t request session.record x chunk) later, ?_,
        rfl, bytes ++ chunk, ?_, ?_, by simpa [List.append_assoc] using rest⟩
      · simp [UploadPhase.next, withSession, here, receiveStep, writeStep, running, if_neg fits, grown,
          grownLog, clear]
      · refine ⟨filling.meant, untouched_frame request o t record store
          (.append x.fd chunk) filling.untouched rfl (by simp), ?_, ?_, ?_, ?_⟩
        · exact fun path other => filling.beside path other
        · intro name inode other there
          obtain ⟨apart, same⟩ := filling.others name inode other there
          refine ⟨apart, ?_⟩
          rw [apply_inodes, ← same]
          simp [Act.inodes, apart.symm]
        · exact filling.node
        · rw [apply_inodes]
          simp [Act.inodes, grown, filling.content]
      · simp [grown, offset, clear]

theorem prepare_advances (store : Store) (t : Nat) (x : Incoming)
    (track : UploadPhase.OnTrack sha256 request s record disk file old store (.prepare t x)) :
    UploadPhase.Advances sha256 request o s record disk file old store (.prepare t x) := by
  obtain ⟨rfl, filling, matching⟩ := track
  obtain ⟨session, here, named, _, known⟩ := id filling.untouched
  have safe := safe_beside disk store.disk file request.transferId resumable.publishable filling.beside
    resumable.safe
  have allowed := resumable.publishable
  rw [Publishable] at allowed
  obtain ⟨after, there, id', kept, _⟩ :=
    session_frame o t store (.mkdirs (parentDirs (receiveTarget file).1)) session here rfl (by simp)
  obtain ⟨j, positive, bounded, free⟩ := resumable.room
  refine ⟨.mkdirs (parentDirs (receiveTarget file).1), [], .choose t x 0, ?_, rfl, matching, record.targets,
    ⟨filling.meant, ⟨after, there, id'.trans named, kept.trans known⟩, resumable.sound.targets file.id, ?_,
    ?_⟩, j, Nat.zero_le j, bounded, ?_,
    fun _ _ => positive⟩
  · simp [UploadPhase.next, prepareStep, filling.meant, allowed, safe]
  · rw [apply_node]
    simp [Act.node, part_not_parent file resumable.publishable request.transferId, filling.node]
  · rw [apply_inodes]
    exact filling.content
  · rw [apply_node]
    simp only [Act.node, if_neg (candidate_not_parent file j _ rfl)]
    exact (candidate_beside disk store.disk file request.transferId resumable.publishable filling.beside
      j).trans free

theorem choose_advances (store : Store) (t : Nat) (x : Incoming) (index : Nat)
    (track : UploadPhase.OnTrack sha256 request s record disk file old store (.choose t x index)) :
    UploadPhase.Advances sha256 request o s record disk file old store (.choose t x index) := by
  obtain ⟨rfl, matching, targets, placing, j, least, bounded, free, stored⟩ := track
  obtain ⟨session, here, named, known⟩ := placing.session
  obtain ⟨f, fd, baseline, current, offset, last, pending⟩ := x
  obtain rfl : f = file := placing.meant
  have inside : ¬ index ≥ publishLimit := by omega
  let target := (targets.lookup f.id).getD (candidatePath f index)
  have outside : Outside target := by
    cases found : targets.lookup f.id with
    | none => simpa [target, found] using candidate_outside f index resumable.publishable
    | some path => simpa [target, found] using placing.planned path found
  refine ⟨.persist t { record with targets := targets.insert f.id target } true, [],
    .link t ⟨f, fd, baseline, current, offset, last, pending⟩ index target, ?_, rfl, matching, outside,
    targets.insert f.id target, ⟨rfl, ?_, ?_, ?_, ?_⟩, j, least, bounded, ?_, ?_⟩
  · simp only [UploadPhase.next, withSession, here, Option.bind_some, chooseStep, if_neg inside,
      persistStep, targetOf, known, target]
  · exact ⟨_, apply_heap store o _ t session here, by simpa using named, by simp [Act.on]⟩
  · intro path found
    rw [Finmap.lookup_insert] at found
    exact Option.some.inj found ▸ outside
  · rw [persist_part]
    exact placing.node
  · rw [apply_inodes]
    exact placing.content
  · rw [persist_outside o t store _ _ (candidate_outside f j resumable.publishable)]
    exact free
  · intro taken
    rw [persist_outside o t store _ _ outside] at taken
    cases found : targets.lookup f.id with
    | none =>
        have different : index ≠ j := by
          rintro rfl
          exact taken (by simpa [target, found] using free)
        omega
    | some path => exact stored path found

theorem on_track_advances (store : Store) (phase : UploadPhase) (going : ∀ reply, phase ≠ .done reply)
    (track : phase.OnTrack sha256 request s record disk file old store) : phase.Advances sha256 request o s record disk file old store := by
  cases phase with
  | lookup => exact lookup_advances sha256 request o s record disk file old store track
  | lock t => exact lock_advances sha256 request o s record disk file old store t track
  | entry t => exact entry_advances sha256 request o s record disk file old resumable store t track
  | check t f => exact check_advances sha256 request o s record disk file old resumable store t f track
  | openPart t f baseline current => exact open_advances sha256 request o s record disk file old resumable store t f baseline current track
  | receive t x chunks => exact receive_advances sha256 request o s record disk file old resumable store t x chunks track
  | interrupted t => exact track.elim
  | syncAll t x => exact sync_advances sha256 request o s record disk file old store t x track
  | hash t x => exact hash_advances sha256 request o s record disk file old store t x track
  | recheck t x => exact recheck_advances sha256 request o s record disk file old store t x track
  | prepare t x => exact prepare_advances sha256 request o s record disk file old resumable store t x track
  | choose t x index => exact choose_advances sha256 request o s record disk file old resumable store t x index track
  | link t x index target => exact link_advances sha256 request o s record disk file old store t x index target track
  | verify t x index target => exact verify_advances sha256 request o s record disk file old store t x index target track
  | syncParent t x target => exact sync_parent_advances sha256 request o s record disk file old store t x target track
  | commit t x target => exact commit_advances sha256 request o s record disk file old store t x target track
  | finish t x => exact finish_advances sha256 request o s record disk file old store t x track
  | discard t x => exact discard_advances sha256 request o s record disk file old store t x track
  | announce t x => exact announce_advances sha256 request o s record disk file old store t x track
  | leave t reply => exact leave_advances sha256 request o s record disk file old store t reply track
  | done reply => exact absurd rfl (going reply)

end Upload

theorem upload_keeps_map (sha256 : Bytes → String) (request : UploadRequest) (store : Store)
    (fault : Option Fault) (o : Nat) (phase next : UploadPhase) (act : Act) (log : List Entry)
    (moved : UploadMove sha256 request store fault phase act log next) :
    (store.apply o act).sessions = store.sessions := by
  refine apply_sessions store o act ?_ ?_ <;> intro _ same <;> cases moved <;>
    first | cases same | (unfold removeAct at same; split at same <;> cases same)

-- One whole upload, which no fault disturbs.
def Answers (sha256 : Bytes → String) (request : UploadRequest) (reply : Response) (state final : State) :
    Prop :=
  ∃ called, step sha256 state (.call (.upload request)) = some called ∧
    Transition.Run (step sha256) (fun _ label => label = .advance state.ops.length none) called final ∧
      final.ops[state.ops.length]? = some (.upload request (.done reply))

structure Underway (sha256 : Bytes → String) (request : UploadRequest) (s : Nat) (record : Record)
    (disk : ReceiverDisk) (file : TransferFile) (old : Bytes) (o n : Nat) (state : State) : Prop where
  running : state.running = true
  mapped : state.store.sessions.lookup request.transferId = some s
  phase : ∃ phase : UploadPhase, state.ops[o]? = some (.upload request phase) ∧ phase.remaining request = n ∧
    phase.OnTrack sha256 request s record disk file old state.store

theorem underway_step (sha256 : Bytes → String) (request : UploadRequest) (s : Nat) (record : Record)
    (disk : ReceiverDisk) (file : TransferFile) (old : Bytes) (o n : Nat) (state : State)
    (resumable : Resumable request record disk file old)
    (underway : Underway sha256 request s record disk file old o n state)
    (going : ¬ ∃ reply, state.ops[o]? = some (.upload request (.done reply))) :
    ∃ next m, step sha256 state (.advance o none) = some next ∧ m < n ∧
      Underway sha256 request s record disk file old o m next := by
  obtain ⟨phase, here, rfl, track⟩ := underway.phase
  have active : ∀ reply, phase ≠ .done reply := by
    rintro reply rfl
    exact going ⟨reply, here⟩
  obtain ⟨act, log, next, made, later⟩ :=
    on_track_advances sha256 request o s record disk file old resumable state.store phase active track
  have moved := upload_next_move sha256 request state.store none phase act log next made
  refine ⟨{ state with store := state.store.apply o act, ops := state.ops.set o (.upload request next), log := state.log ++ log },
    next.remaining request, ?_, upload_lowers sha256 state.store none act log request phase next moved,
    underway.running, ?_, next, ?_,
    rfl, later⟩
  · simp only [step, here, Op.next, made, Option.map_some, Option.bind_some]
  · exact (congrArg (fun map => AList.lookup request.transferId map)
      (upload_keeps_map sha256 request state.store none o phase next act log moved)).trans underway.mapped
  · exact List.getElem?_set_self (List.getElem?_eq_some_iff.mp here).1

theorem upload_concludes (sha256 : Bytes → String) (request : UploadRequest) (s : Nat) (session : Session)
    (file : TransferFile) (old : Bytes) (state : State) (running : state.running = true)
    (mapped : state.store.sessions.lookup request.transferId = some s)
    (here : state.store.heap[s]? = some session) (named : session.id = request.transferId)
    (free : session.lock = none) (untripped : session.cancel = false)
    (resumable : Resumable request session.record state.store.disk file old) :
    ∃ reply final, Answers sha256 request reply state final ∧ final.running = true ∧
      final.store.sessions.lookup request.transferId = some s ∧
      Replied sha256 request s session.record state.store.disk file old final.store reply ∧
      ∃ after, final.store.heap[s]? = some after ∧ after.lock = none := by
  have begun : Underway sha256 request s session.record state.store.disk file old state.ops.length
      (UploadPhase.remaining request .lookup) { state with ops := state.ops ++ [.upload request .lookup] } :=
    ⟨running, mapped, .lookup, by simp, rfl, mapped, rfl, ⟨session, here, named, untripped, rfl⟩, session,
      here, free⟩
  obtain ⟨final, n, rest, underway, reply, answered⟩ := Transition.run_ends (step sha256)
    (fun _ label => label = .advance state.ops.length none)
    (fun n next => Underway sha256 request s session.record state.store.disk file old state.ops.length n next)
    (fun next => ∃ reply, next.ops[state.ops.length]? = some (.upload request (.done reply)))
    (by
      intro n next underway going
      obtain ⟨after, m, stepped, lower, carried⟩ :=
        underway_step sha256 request s session.record state.store.disk file old state.ops.length n
        next resumable underway going
      exact ⟨_, after, m, rfl, stepped, lower, carried⟩)
    _ _ begun
  obtain ⟨phase, there, _, track⟩ := underway.phase
  obtain rfl : phase = .done reply := by simpa using there.symm.trans answered
  exact ⟨reply, final, ⟨_, by simp [step, running, Call.op], rest, answered⟩, underway.running,
    underway.mapped, track.1, track.2⟩

end GoshTransfer
