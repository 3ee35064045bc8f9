import GoshTransfer.Territory
import GoshTransfer.Parts

set_option autoImplicit false

namespace GoshTransfer

open InodeStore

def PartVerified (sha256 : Bytes → String) (disk : ReceiverDisk) (session : Session) (file : TransferFile) :
    Prop :=
  ∃ bytes, disk.read (partPath session.id file.id) = some bytes ∧
    verified sha256 session.record file bytes = true

def TargetVerified (sha256 : Bytes → String) (disk : ReceiverDisk) (session : Session) (file : TransferFile)
    (target : Path) : Prop :=
  ∃ bytes, disk.read target = some bytes ∧ verified sha256 session.record file bytes = true

-- The partial behind the handle, as far as the writes have come.
def Incoming.Stored (x : Incoming) (disk : ReceiverDisk) (id : String) : Prop :=
  ∃ bytes, disk.node (partPath id x.file.id) = some (.file x.fd) ∧ disk.inodes[x.fd]? = some bytes ∧
    x.Filled bytes.length

-- What an upload knows about the files it works on.
def UploadPhase.Content (sha256 : Bytes → String) (disk : ReceiverDisk) (session : Session) : UploadPhase →
    Prop
  | .openPart _ file _ current => partialLength disk (partPath session.id file.id) none = .ok current
  | .receive _ x _ | .syncAll _ x => x.Stored disk session.id
  | .hash _ x => x.Stored disk session.id ∧ x.offset = x.file.size
  | .recheck _ x | .prepare _ x | .choose _ x _ | .link _ x _ _ | .verify _ x _ _ =>
      PartVerified sha256 disk session x.file
  | .syncParent _ x target | .commit _ x target =>
      PartVerified sha256 disk session x.file ∧ TargetVerified sha256 disk session x.file target
  | _ => True

-- A receipt is backed by a file with the declared size and digest.
def Delivered (sha256 : Bytes → String) (disk : ReceiverDisk) (record : Record) : Prop :=
  ∀ file path, record.published.lookup file = some path →
    ∃ declared bytes, declared ∈ record.manifest.request.files ∧
    declared.id = file ∧ disk.read path = some bytes ∧ verified sha256 record declared bytes = true

-- Partials do not share their bytes with each other. One that shares them with a
-- destination has its full content, so that nothing can be appended to it.
structure Intact (sha256 : Bytes → String) (state : State) : Prop where
  allocated : state.store.disk.Allocated
  plain : ∀ (id file : String) (node : Node Record), id.toList.length = 36 →
    state.store.disk.node (partPath id file) = some node → ∃ inode, node = .file inode
  separate : ∀ (id file id' file' : String) (inode : Nat), id.toList.length = 36 → id'.toList.length = 36 →
    state.store.disk.node (partPath id file) = some (.file inode) →
      state.store.disk.node (partPath id' file') = some (.file inode) → id = id' ∧ file = file'
  shared : ∀ (id file : String) (inode : Nat) (path : Path), id.toList.length = 36 → Outside path →
    state.store.disk.node (partPath id file) = some (.file inode) →
      state.store.disk.node path = some (.file inode) →
      ∃ journal declared bytes, state.store.disk.doc (journalPath id) = some journal ∧
        declared ∈ journal.manifest.request.files ∧ declared.id = file ∧
          state.store.disk.inodes[inode]? = some bytes ∧
        verified sha256 journal declared bytes = true
  delivered : ∀ (s : Nat) (session : Session), state.store.heap[s]? = some session →
    Delivered sha256 state.store.disk session.record
  journalled : ∀ (id : String) (journal : Record), state.store.disk.doc (journalPath id) = some journal →
    Delivered sha256 state.store.disk journal
  phases : ∀ (o : Nat) (request : UploadRequest) (phase : UploadPhase) (s : Nat) (session : Session),
    state.ops[o]? = some (.upload request phase) → phase.holds = some s →
      state.store.heap[s]? = some session →
      phase.Content sha256 state.store.disk session

theorem intact_parted (sha256 : Bytes → String) (state : State) (intact : Intact sha256 state) :
    Parted state.store.disk :=
  ⟨intact.allocated, intact.plain, intact.separate⟩

theorem verified_size (sha256 : Bytes → String) (record : Record) (file : TransferFile) (bytes : Bytes)
    (matching : verified sha256 record file bytes = true) :
    record.manifest.sha256.lookup file.id = some (sha256 bytes) ∧ bytes.length = file.size := by
  simpa [verified] using matching

theorem verified_same (sha256 : Bytes → String) (record other : Record) (file : TransferFile) (bytes : Bytes)
    (same : record.manifest = other.manifest) :
    verified sha256 record file bytes = verified sha256 other file bytes := by
  simp [verified, same]

theorem checkpoint_offset (disk : ReceiverDisk) (id : String) (record : Record) (fault : Option Fault)
    (file : TransferFile) (point : FileCheckpoint)
    (read : checkpoint disk id record fault file = .ok point) : point.fileId = file.id ∧
      (record.published.lookup file.id = none →
        partialLength disk (partPath id file.id) none = .ok point.offset) := by
  unfold checkpoint at read
  dsimp only at read
  split at read
  · cases read
  · rename_i offset length
    split at read
    · cases read
    · obtain rfl := Except.ok.inj read
      refine ⟨rfl, fun missing => ?_⟩
      rw [missing] at length
      simp only [Option.isSome_none, Bool.false_eq_true, if_false] at length
      unfold partialLength at length ⊢
      split at length
      · cases length
      · simpa using length

theorem checkpoints_from_file (disk : ReceiverDisk) (id : String) (record : Record) (fault : Option Fault)
    (files : List TransferFile) (points : List FileCheckpoint)
    (read : checkpointsFrom disk id record fault files = .ok points) (point : FileCheckpoint)
    (member : point ∈ points) : ∃ file ∈ files, checkpoint disk id record fault file = .ok point := by
  induction files generalizing points with
  | nil =>
      obtain rfl := Except.ok.inj read
      cases member
  | cons file rest ih =>
      simp only [checkpointsFrom] at read
      split at read
      · cases read
      · rename_i first taken
        split at read
        · cases read
        · rename_i others remaining
          obtain rfl := Except.ok.inj read
          rcases List.mem_cons.mp member with rfl | later
          · exact ⟨file, by simp, taken⟩
          · obtain ⟨other, listed, found⟩ := ih others remaining later
            exact ⟨other, List.mem_cons_of_mem _ listed, found⟩

theorem checkpoints_offset (disk : ReceiverDisk) (id : String) (record : Record) (fault : Option Fault)
    (points : List FileCheckpoint) (read : checkpoints disk id record fault = .ok points)
    (point : FileCheckpoint) (member : point ∈ points)
    (missing : record.published.lookup point.fileId = none) :
    partialLength disk (partPath id point.fileId) none = .ok point.offset := by
  obtain ⟨file, _, found⟩ := checkpoints_from_file disk id record fault _ points read point member
  obtain ⟨named, offset⟩ := checkpoint_offset disk id record fault file point found
  rw [named] at missing ⊢
  exact offset missing

theorem partial_length_eq (disk : ReceiverDisk) (path : Path) (length : Nat)
    (read : partialLength disk path none = .ok length) :
    (disk.node path = none ∧ length = 0) ∨
      ∃ inode, disk.node path = some (.file inode) ∧ length = ((disk.inodes[inode]?).getD []).length := by
  unfold partialLength at read
  simp only [reduceCtorEq, if_false] at read
  split at read
  · rename_i absent
    exact .inl ⟨absent, (Except.ok.inj read).symm⟩
  · rename_i inode present
    exact .inr ⟨inode, present, (Except.ok.inj read).symm⟩
  · cases read

section Step

variable (sha256 : Bytes → String) (state : State) (kempt : Kempt state) (intact : Intact sha256 state)
    (o : Nat)
variable (fault : Option Fault) (op op' : Op) (act : Act) (log : List Entry) (here : state.ops[o]? = some op)
variable (moved : OpMove sha256 state.store fault op act log op')
include kempt here

theorem working_journal (s : Nat) (session : Session) (working : op.works = some s)
    (at_ : state.store.heap[s]? = some session) :
    state.store.sessions.lookup session.id = some s ∧
      ∃ journal, state.store.disk.doc (journalPath session.id) = some journal ∧
        journal.manifest = session.record.manifest := by
  have present := kempt.owned.working o op s session here working at_
  have notForget : ∀ id, op ≠ .forget id (.evict s) := by
    rintro id rfl
    cases working
  obtain ⟨journal, written, forward⟩ :=
    held_journal state kempt.base kempt.owned o op here s session (works_holds op s working) notForget at_
      present
  exact ⟨present, journal, written, forward.same.1⟩

include intact moved

theorem append_receives (fd : Nat) (bytes : Bytes) (appends : act = .append fd bytes) :
    ∃ request s x chunk rest session content, op = .upload request (.receive s x (chunk :: rest)) ∧
      x.fd = fd ∧
      state.store.heap[s]? = some session ∧ bytes <+: chunk ∧ chunk.length ≤ x.file.size - x.offset ∧
      state.store.disk.node (partPath session.id x.file.id) = some (.file fd) ∧
      state.store.disk.inodes[fd]? = some content ∧ (bytes = [] ∨ content.length = x.offset) := by
  subst appends
  cases op_effect sha256 state.store fault op op' _ log moved with
  | quiet _ _ _ silent => cases silent
  | append request s x chunk rest _ _ start fits clear =>
      obtain ⟨session, at_, _⟩ := kempt.base.locked o _ s here rfl
      obtain ⟨content, node, stored, filled⟩ := intact.phases o request _ s session here rfl at_
      exact ⟨request, s, x, chunk, rest, session, content, rfl, rfl, at_, start, fits, node, stored,
        clear.symm.imp_right filled.2.mpr⟩

-- A partial that a destination shares is full, and only the empty chunk fits.
theorem shared_grows_nothing (id file : String) (inode : Nat) (path : Path)
    (canonical : id.toList.length = 36) (outside : Outside path)
    (part : state.store.disk.node (partPath id file) = some (.file inode))
    (name : state.store.disk.node path = some (.file inode)) (bytes : Bytes)
    (appends : act = .append inode bytes) : bytes = [] := by
  obtain ⟨request, s, x, chunk, rest, session, content, rfl, _, at_, start, fits, node, stored, length⟩ :=
    append_receives sha256 state kempt intact o fault op op' act log here moved inode bytes appends
  rcases length with nothing | length
  · exact nothing
  have sized := session_id_length state kempt.base s session at_
  obtain ⟨rfl, rfl⟩ := intact.separate _ _ _ _ inode canonical sized part node
  obtain ⟨journal, declared, full, written, member, named, stored', matching⟩ :=
    intact.shared _ _ inode path sized outside part name
  obtain ⟨_, journal', written', manifest⟩ := working_journal state kempt o _ here s session rfl at_
  obtain rfl := Option.some.inj (written.symm.trans written')
  obtain rfl := Option.some.inj (stored.symm.trans stored')
  have working := (kempt.base.facts o _ here s session rfl at_).1
  rw [manifest] at member
  have same : declared = x.file :=
    valid_file_unique _ (kempt.base.sound s session at_).record.valid declared x.file member working.member
      named
  have size := (verified_size sha256 journal declared content matching).2
  rw [same] at size
  have empty : chunk = [] := List.length_eq_zero_iff.mp (by omega)
  subst empty
  exact List.prefix_nil.mp start

omit kempt intact here in
theorem outside_node_kept (path : Path) (node : Node Record) (outside : Outside path)
    (present : state.store.disk.node path = some node) :
    (state.store.apply o act).disk.node path = some node := by
  rw [apply_node]
  cases op_effect sha256 state.store fault op op' act log moved with
  | quiet _ _ _ silent => cases act <;> first | exact present | cases silent
  | insert request => exact present
  | evict _ s => exact present
  | journal request saved =>
      cases saved with
      | false => exact present
      | true => exact (if_neg (outside_ne_journal path _ outside)).trans present
  | persist _ _ s session record saved held there =>
      cases saved with
      | false => exact present
      | true => exact (if_neg (outside_ne_journal path _ outside)).trans present
  | openPart request s session file baseline current there absent =>
      exact (if_neg (outside_ne_part path _ _ outside)).trans present
  | append request s x chunk rest bytes _ start fits => exact present
  | removePart _ _ s session file held there =>
      exact (if_neg (outside_ne_part path _ _ outside)).trans present
  | removeJournal _ s => exact (if_neg (outside_ne_journal path _ outside)).trans present
  | mkdirs _ _ parent file allowed start =>
      simp only [Act.node, present, Option.getD_some]
      exact ite_self _
  | link request s session x index target inode there source free =>
      refine (if_neg ?_).trans present
      rintro rfl
      rw [free] at present
      cases present

theorem outside_read_kept (path : Path) (bytes : Bytes) (outside : Outside path)
    (present : state.store.disk.read path = some bytes) :
    (state.store.apply o act).disk.read path = some bytes := by
  obtain ⟨inode, name, stored⟩ := (read_eq_some _ _ _).mp present
  refine (read_eq_some _ _ _).mpr ⟨inode, outside_node_kept sha256 state o fault op op' act log moved path _
    outside name, ?_⟩
  refine inode_kept state.store o act inode bytes stored ?_
  intro more appends
  obtain ⟨request, s, x, chunk, rest, session, content, rfl, _, at_, _, _, node, _, _⟩ :=
    append_receives sha256 state kempt intact o fault op op' act log here moved inode more appends
  exact shared_grows_nothing sha256 state kempt intact o fault _ op' act log here moved session.id x.file.id
    inode path (session_id_length state kempt.base s session at_) outside node name more appends

theorem delivered_kept (record : Record) (sound : record.Sound)
    (delivered : Delivered sha256 state.store.disk record) :
    Delivered sha256 (state.store.apply o act).disk record := by
  intro file path published
  obtain ⟨declared, bytes, member, named, read, matching⟩ := delivered file path published
  exact ⟨declared, bytes, member, named,
    outside_read_kept sha256 state kempt intact o fault op op' act log here moved path bytes
    (sound.published file path published).2 read, matching⟩

omit kempt intact here in
theorem name_origin (path : Path) (inode : Nat) (outside : Outside path)
    (present : (state.store.apply o act).disk.node path = some (.file inode)) :
    state.store.disk.node path = some (.file inode) ∨
      ∃ request s session x index, op = .upload request (.link s x index path) ∧ act = .link inode path ∧
        state.store.heap[s]? = some session ∧
          state.store.disk.node (partPath session.id x.file.id) = some (.file inode) := by
  rw [apply_node] at present
  cases op_effect sha256 state.store fault op op' act log moved with
  | quiet _ _ _ silent => cases act <;> first | exact .inl present | cases silent
  | insert request => exact .inl present
  | evict _ s => exact .inl present
  | journal request saved =>
      cases saved with
      | false => exact .inl present
      | true => exact .inl ((if_neg (outside_ne_journal path _ outside)).symm.trans present)
  | persist _ _ s session record saved held there =>
      cases saved with
      | false => exact .inl present
      | true => exact .inl ((if_neg (outside_ne_journal path _ outside)).symm.trans present)
  | openPart request s session file baseline current there absent =>
      exact .inl ((if_neg (outside_ne_part path _ _ outside)).symm.trans present)
  | append request s x chunk rest bytes _ start fits => exact .inl present
  | removePart _ _ s session file held there =>
      exact .inl ((if_neg (outside_ne_part path _ _ outside)).symm.trans present)
  | removeJournal _ s => exact .inl ((if_neg (outside_ne_journal path _ outside)).symm.trans present)
  | mkdirs _ _ parent file allowed start =>
      simp only [Act.node] at present
      split at present
      · cases before : state.store.disk.node path with
        | none => simp [before] at present
        | some node =>
            rw [before] at present
            exact .inl present
      · exact .inl present
  | link request s session x index target linked there source free =>
      simp only [Act.node] at present
      split at present
      · rename_i same
        subst same
        obtain rfl : linked = inode := by simpa using present
        exact .inr ⟨request, s, session, x, index, rfl, rfl, there, source⟩
      · exact .inl present

theorem intact_shared (fresh : staleFree state (.advance o fault) = true) :
    ∀ (id file : String) (inode : Nat) (path : Path),
    id.toList.length = 36 → Outside path →
    (state.store.apply o act).disk.node (partPath id file) = some (.file inode) →
    (state.store.apply o act).disk.node path = some (.file inode) →
      ∃ journal declared bytes, (state.store.apply o act).disk.doc (journalPath id) = some journal ∧
        declared ∈ journal.manifest.request.files ∧ declared.id = file ∧
        (state.store.apply o act).disk.inodes[inode]? = some bytes ∧
        verified sha256 journal declared bytes = true := by
  intro id file inode path canonical outside part name
  rcases part_origin sha256 state kempt.base o fault op op' act log here moved id file inode canonical
    part with before | ⟨opens, new⟩
  · rcases name_origin sha256 state o fault op op' act log moved path inode outside name with name |
      ⟨request, s, session, x, index, rfl, rfl, at_, source⟩
    · obtain ⟨journal, declared, bytes, written, member, named, stored, matching⟩ :=
        intact.shared id file inode path canonical outside before name
      obtain ⟨journal', now, manifest⟩ :=
        part_journal_kept sha256 state kempt.base kempt.owned kempt.housed o fault op op' act log here fresh
        moved id file canonical journal (by simp [before]) written
      refine ⟨journal', declared, bytes, now, manifest ▸ member, named, ?_,
        (verified_same sha256 _ _ declared bytes manifest).trans matching⟩
      exact inode_kept state.store o act inode bytes stored
        (shared_grows_nothing sha256 state kempt intact o fault op op' act log here moved id file inode path
        canonical outside before name)
    · have sized := session_id_length state kempt.base s session at_
      obtain ⟨rfl, rfl⟩ := intact.separate _ _ _ _ inode canonical sized before source
      obtain ⟨bytes, read, matching⟩ := intact.phases o request _ s session here rfl at_
      obtain ⟨other, found, stored⟩ := (read_eq_some _ _ _).mp read
      obtain rfl : inode = other := by simpa using before.symm.trans found
      obtain ⟨_, journal, written, manifest⟩ := working_journal state kempt o _ here s session rfl at_
      have untouched := journal_untouched sha256 state kempt.base o fault _ _ _ log here moved session.id
        (by simp) (by simp) (by simp)
      have working := (kempt.base.facts o _ here s session rfl at_).1
      exact ⟨journal, x.file, bytes, untouched.trans written, manifest ▸ working.member, rfl, stored,
        (verified_same sha256 _ _ x.file bytes manifest).trans matching⟩
  · rcases name_origin sha256 state o fault op op' act log moved path inode outside name with name |
      ⟨_, _, _, _, _, _, links, _, _⟩
    · exact absurd (intact.allocated _ _ name) (by omega)
    · rw [opens] at links
      cases links

theorem delivered_write (s : Nat) (session : Session) (record : Record)
    (at_ : state.store.heap[s]? = some session) (write : Write fault s session op act record) :
    Delivered sha256 (state.store.apply o act).disk record := by
  have sound := (kempt.base.sound s session at_).record
  have old := delivered_kept sha256 state kempt intact o fault op op' act log here moved session.record
    sound (intact.delivered s session at_)
  cases write with
  | receipt request x target saved struck =>
      intro file path published
      rw [receipt_lookup] at published
      split at published
      · rename_i same
        obtain rfl := Option.some.inj published
        obtain ⟨working, _, _, planned⟩ := kempt.base.facts o _ here s session rfl at_
        obtain ⟨_, bytes, read, matching⟩ := intact.phases o request _ s session here rfl at_
        exact ⟨x.file, bytes, working.member, same.symm,
          outside_read_kept sha256 state kempt intact o fault _ op' _ log here moved target bytes
          (sound.targets _ _ planned) read, matching⟩
      · exact old file path published
  | _ => exact old

theorem intact_delivered : ∀ (s : Nat) (session : Session), (state.store.apply o act).heap[s]? =
    some session →
    Delivered sha256 (state.store.apply o act).disk session.record := by
  intro s session' after
  rcases apply_heap_origin state.store o act s session' after with ⟨session, at_, rfl⟩ |
    ⟨record, rfl, rfl, rfl⟩
  · rcases on_record_writes act o s session with ⟨record, writes, on⟩ | ⟨_, same⟩
    · obtain ⟨session', at', write⟩ :=
        moved_write sha256 state.store fault op op' act log s record moved writes
      obtain rfl := Option.some.inj (at_.symm.trans at')
      rw [on]
      exact delivered_write sha256 state kempt intact o fault op op' act log here moved s session record at_
        write
    · rw [same]
      exact delivered_kept sha256 state kempt intact o fault op op' act log here moved session.record
        (kempt.base.sound s session at_).record (intact.delivered s session at_)
  · cases op_effect sha256 state.store fault op op' _ log moved with
    | quiet _ _ _ silent => cases silent
    | insert request =>
        intro file path published
        simp [Session.new, RegisterRequest.record] at published

theorem intact_journalled : ∀ (id : String) (journal : Record), (state.store.apply o act).disk.doc
    (journalPath id) = some journal →
    Delivered sha256 (state.store.apply o act).disk journal := by
  intro id journal written
  rcases journal_cases sha256 state kempt.base o fault op op' act log here moved id with
    same | ⟨s, session, record, rfl, _, at_, _, _, now⟩ | ⟨request, rfl, rfl, _, now⟩ | ⟨_, _, _, _, now⟩
  · rw [same] at written
    exact delivered_kept sha256 state kempt intact o fault op op' act log here moved journal
      (kempt.base.journals _ journal written).1 (intact.journalled id journal written)
  · obtain rfl := Option.some.inj (now.symm.trans written)
    have after := intact_delivered sha256 state kempt intact o fault op op' _ log here moved s _
      (apply_heap state.store o _ s session at_)
    simpa [Act.on] using after
  · obtain rfl := Option.some.inj (now.symm.trans written)
    intro file path published
    simp [RegisterRequest.record] at published
  · rw [now] at written
    cases written

end Step

theorem partial_length_kept (disk disk' : ReceiverDisk) (path : Path) (length : Nat)
    (allocated : disk.Allocated) (node : disk'.node path = disk.node path)
    (contents : ∀ inode bytes, disk.node path = some (.file inode) → disk.inodes[inode]? = some bytes →
      disk'.inodes[inode]? = some bytes)
    (read : partialLength disk path none = .ok length) : partialLength disk' path none = .ok length := by
  rcases partial_length_eq disk path length read with ⟨absent, rfl⟩ | ⟨inode, present, rfl⟩
  · simp [partialLength, node, absent]
  · obtain ⟨bytes, stored⟩ : ∃ bytes, disk.inodes[inode]? = some bytes :=
      ⟨_, List.getElem?_eq_getElem (allocated _ _ present)⟩
    simp [partialLength, node, present, contents inode bytes present stored, stored]

theorem content_kept (sha256 : Bytes → String) (disk disk' : ReceiverDisk) (session session' : Session)
    (phase : UploadPhase) (sameId : session'.id = session.id)
    (sameManifest : session'.record.manifest = session.record.manifest) (allocated : disk.Allocated)
    (nodes : ∀ file, disk'.node (partPath session.id file) = disk.node (partPath session.id file))
    (contents : ∀ file inode bytes, disk.node (partPath session.id file) = some (.file inode) →
      disk.inodes[inode]? = some bytes →
      disk'.inodes[inode]? = some bytes)
    (targets : ∀ s x target bytes, phase = .syncParent s x target ∨ phase = .commit s x target →
      disk.read target = some bytes →
      disk'.read target = some bytes)
    (content : phase.Content sha256 disk session) : phase.Content sha256 disk' session' := by
  have part : ∀ file, PartVerified sha256 disk session file → PartVerified sha256 disk' session' file := by
    rintro file ⟨bytes, read, matching⟩
    obtain ⟨inode, node, stored⟩ := (read_eq_some _ _ _).mp read
    refine ⟨bytes, (read_eq_some _ _ _).mpr ⟨inode, ?_, contents _ inode bytes node stored⟩, ?_⟩
    · rw [sameId, nodes, node]
    · rw [verified_same sha256 _ session.record file bytes sameManifest]
      exact matching
  have target : ∀ s x target, phase = .syncParent s x target ∨ phase = .commit s x target →
      TargetVerified sha256 disk session x.file target →
        TargetVerified sha256 disk' session' x.file target := by
    rintro s x target isPhase ⟨bytes, read, matching⟩
    refine ⟨bytes, targets s x target bytes isPhase read, ?_⟩
    rw [verified_same sha256 _ session.record x.file bytes sameManifest]
    exact matching
  have incoming : ∀ x : Incoming, x.Stored disk session.id → x.Stored disk' session'.id := by
    rintro x ⟨bytes, node, stored, filled⟩
    exact ⟨bytes, by rw [sameId, nodes, node], contents _ _ bytes node stored, filled⟩
  cases phase with
  | openPart s file baseline current =>
      simp only [UploadPhase.Content, sameId] at content ⊢
      exact partial_length_kept disk disk' _ current allocated (nodes _) (contents _) content
  | receive s x chunks => exact incoming x content
  | syncAll s x => exact incoming x content
  | hash s x => exact ⟨incoming x content.1, content.2⟩
  | recheck s x => exact part x.file content
  | prepare s x => exact part x.file content
  | choose s x index => exact part x.file content
  | link s x index path => exact part x.file content
  | verify s x index path => exact part x.file content
  | syncParent s x path => exact ⟨part x.file content.1, target s x path (.inl rfl) content.2⟩
  | commit s x path => exact ⟨part x.file content.1, target s x path (.inr rfl) content.2⟩
  | _ => trivial

section Phases

variable (sha256 : Bytes → String) (state : State) (kempt : Kempt state) (intact : Intact sha256 state)
    (o : Nat)
variable (fault : Option Fault) (op op' : Op) (act : Act) (log : List Entry) (here : state.ops[o]? = some op)
variable (fresh : staleFree state (.advance o fault) = true)
    (moved : OpMove sha256 state.store fault op act log op')
include kempt intact here fresh moved

theorem parts_guarded (p : Nat) (q : Op) (s : Nat) (session : Session) (other : p ≠ o)
    (there : state.ops[p]? = some q) (held : q.holds = some s) (at_ : state.store.heap[s]? = some session)
    (present : state.store.sessions.lookup session.id = some s) :
    (∀ file, (state.store.apply o act).disk.node (partPath session.id file) = state.store.disk.node
      (partPath session.id file)) ∧
    ∀ file inode bytes, state.store.disk.node (partPath session.id file) = some (.file inode) →
      state.store.disk.inodes[inode]? = some bytes →
      (state.store.apply o act).disk.inodes[inode]? = some bytes := by
  refine ⟨(files_guarded sha256 state kempt.base kempt.owned o fault op op' act log here fresh moved p q s
    other there held session.id present).2, ?_⟩
  intro file inode bytes node stored
  refine inode_kept state.store o act inode bytes stored ?_
  intro more appends
  obtain ⟨request', t, x, chunk, rest, session'', _, rfl, _, at', _, _, node', _, _⟩ :=
    append_receives sha256 state kempt intact o fault op op' act log here moved inode more appends
  obtain ⟨same, _⟩ := intact.separate _ _ _ _ inode (session_id_length state kempt.base s session at_)
    (session_id_length state kempt.base t session'' at') node node'
  have mine := kempt.owned.working o _ t session'' here rfl at'
  rw [← same, present] at mine
  obtain rfl := Option.some.inj mine
  exact absurd (holder_unique state kempt.base o p _ _ s here there rfl held) other

theorem content_other (p : Nat) (request : UploadRequest) (phase : UploadPhase) (s : Nat)
    (session' : Session) (other : p ≠ o) (there : state.ops[p]? = some (.upload request phase))
    (held : phase.holds = some s) (after : (state.store.apply o act).heap[s]? = some session') :
    phase.Content sha256 (state.store.apply o act).disk session' := by
  obtain ⟨session, at_, _⟩ := kempt.base.locked p _ s there held
  obtain rfl := Option.some.inj (after.symm.trans (apply_heap state.store o act s session at_))
  have forward := (moved_session sha256 state kempt.base o fault op op' act log here moved s session at_).2
  have content := intact.phases p request phase s session there held at_
  by_cases working : phase.works = some s
  · obtain ⟨nodes, contents⟩ :=
      parts_guarded sha256 state kempt intact o fault op op' act log here fresh moved p _ s session other
        there held
      at_ (kempt.owned.working p _ s session there working at_)
    refine content_kept sha256 state.store.disk _ session _ phase
      (on_id act o s session) forward.same.1.symm intact.allocated nodes contents ?_ content
    intro t x target bytes isPhase read
    have outside : Outside target := by
      have facts := kempt.base.facts p _ there s session held at_
      rcases isPhase with rfl | rfl <;> exact (kempt.base.sound s session at_).record.targets _ _ facts.2.2.2
    exact outside_read_kept sha256 state kempt intact o fault op op' act log here moved target bytes outside
      read
  · cases phase <;> trivial

omit fresh in
theorem content_own_kept (s : Nat) (session : Session) (next : UploadPhase)
    (at_ : state.store.heap[s]? = some session) (noOpen : ∀ path, act ≠ .openPart path)
    (noRemove : ∀ path, act ≠ .remove path) (noAppend : ∀ inode bytes, act ≠ .append inode bytes)
    (targets : ∀ t x target, next = .syncParent t x target ∨ next = .commit t x target → Outside target)
    (content : next.Content sha256 state.store.disk session) :
    next.Content sha256 (state.store.apply o act).disk (act.on o s session) := by
  have forward := (moved_session sha256 state kempt.base o fault op op' act log here moved s session at_).2
  refine content_kept sha256 state.store.disk _ session _ next (on_id act o s session) forward.same.1.symm
    intact.allocated ?_ ?_ ?_ content
  · intro file
    rcases part_cases sha256 state kempt.base o fault op op' act log here moved session.id file
      (session_id_length state kempt.base s session at_) with same |
      ⟨_, _, _, _, _, _, _, _, _, _, opens, _⟩ | ⟨_, _, _, _, _, removes, _⟩
    · exact same
    · exact absurd opens (noOpen _)
    · exact absurd removes (noRemove _)
  · intro file inode bytes _ stored
    exact inode_kept state.store o act inode bytes stored fun more appends => absurd appends
      (noAppend inode more)
  · intro t x target bytes isPhase read
    exact outside_read_kept sha256 state kempt intact o fault op op' act log here moved target bytes
      (targets t x target isPhase) read

omit fresh in
theorem content_own (request : UploadRequest) (phase next : UploadPhase) (isOp : op = .upload request phase)
    (isNext : op' = .upload request next)
    (step_ : UploadMove sha256 request state.store fault phase act log next) (s : Nat) (session : Session)
    (held : next.holds = some s) (at_ : state.store.heap[s]? = some session) :
    next.Content sha256 (state.store.apply o act).disk (act.on o s session) := by
  subst isOp isNext
  have before : ∀ t, phase.holds = some t → s = t → phase.Content sha256 state.store.disk session := by
    rintro t holding rfl
    exact intact.phases o request phase s session here holding at_
  have kept := content_own_kept sha256 state kempt intact o fault _ _ act log here moved s session
  cases step_ with
  | checked t session' file points point there read found offset =>
      obtain rfl := Option.some.inj held
      obtain rfl := Option.some.inj (at_.symm.trans there)
      have working := (kempt.base.facts o _ here _ session rfl at_).1
      have named : point.fileId = file.id := by simpa using List.find?_some found
      have length := checkpoints_offset state.store.disk session.id session.record fault points read point
        (List.mem_of_find?_eq_some found) (named ▸ working.missing)
      rw [named] at length
      exact length
  | created t session' file baseline current there absent =>
      obtain rfl := Option.some.inj held
      obtain rfl := Option.some.inj (at_.symm.trans there)
      have start : current = 0 := by
        rcases partial_length_eq _ _ current (before _ rfl rfl) with ⟨_, zero⟩ | ⟨inode, present, _⟩
        · exact zero
        · rw [absent] at present
          cases present
      refine ⟨[], (node_create _ _ _).trans (if_pos rfl), ?_, start ▸ filled_opened _ _ _ _⟩
      show (state.store.disk.inodes ++ [[]])[state.store.disk.inodes.length]? = some []
      simp
  | reopened t session' file baseline current inode there present =>
      obtain rfl := Option.some.inj held
      obtain rfl := Option.some.inj (at_.symm.trans there)
      rcases partial_length_eq _ _ current (before _ rfl rfl) with ⟨absent, _⟩ | ⟨other, found, length⟩
      · rw [absent] at present
        cases present
      · obtain rfl : inode = other := by simpa using present.symm.trans found
        obtain ⟨bytes, stored⟩ : ∃ bytes, state.store.disk.inodes[inode]? = some bytes :=
          ⟨_, List.getElem?_eq_getElem (intact.allocated _ _ present)⟩
        rw [stored] at length
        exact ⟨bytes, present, stored, length ▸ filled_opened _ _ _ _⟩
  | appended t session' x chunk rest there fits clear =>
      obtain rfl := Option.some.inj held
      obtain rfl := Option.some.inj (at_.symm.trans there)
      obtain ⟨bytes, node, stored, filled⟩ := before _ rfl rfl
      refine ⟨bytes ++ chunk, node, ?_, List.length_append ▸ filled_grown _ _ _ x chunk _ filled⟩
      exact (inode_append state.store.disk x.fd x.fd chunk bytes stored).trans (by simp)
  | unseen t session' x chunk rest written there fits clear short failed last =>
      obtain rfl := Option.some.inj held
      obtain rfl := Option.some.inj (at_.symm.trans there)
      obtain ⟨bytes, node, stored, filled⟩ := before _ rfl rfl
      refine ⟨bytes ++ chunk.take written, node, ?_, List.length_append ▸ filled_spoiled _ _ _ x chunk
        written _ filled short⟩
      exact (inode_append state.store.disk x.fd x.fd _ bytes stored).trans (by simp)
  | bodyEnd t x =>
      obtain rfl := Option.some.inj held
      exact before _ rfl rfl
  | synced t x full =>
      obtain rfl := Option.some.inj held
      exact ⟨before _ rfl rfl, full⟩
  | hashed t session' x bytes there read matching =>
      obtain rfl := Option.some.inj held
      obtain rfl := Option.some.inj (at_.symm.trans there)
      exact ⟨bytes, read, matching⟩
  | rechecked t session' x there running =>
      obtain rfl := Option.some.inj held
      exact before _ rfl rfl
  | prepared t x allowed =>
      obtain rfl := Option.some.inj held
      exact kept (.choose t x 0) at_ (by simp) (by simp) (by simp) (by simp) (before _ rfl rfl)
  | chosen t session' x index there bounded ok =>
      obtain rfl := Option.some.inj held
      exact kept (.link t x index _) at_ (by simp) (by simp) (by simp) (by simp) (before _ rfl rfl)
  | taken t session' x index target inode node there source present =>
      obtain rfl := Option.some.inj held
      exact before _ rfl rfl
  | conflict t session' x index target there different =>
      obtain rfl := Option.some.inj held
      exact kept (.choose t x (index + 1)) at_ (by simp) (by simp) (by simp) (by simp) (before _ rfl rfl)
  | linked t session' x index target inode there source free =>
      obtain rfl := Option.some.inj held
      obtain rfl := Option.some.inj (at_.symm.trans there)
      have part := before _ rfl rfl
      obtain ⟨bytes, read, matching⟩ := part
      obtain ⟨other, found, stored⟩ := (read_eq_some _ _ _).mp read
      obtain rfl : inode = other := by simpa using source.symm.trans found
      refine ⟨kept (.recheck t x) at_ (by simp) (by simp) (by simp) (by simp) (before _ rfl rfl), bytes, ?_,
        matching⟩
      exact (read_eq_some _ _ _).mpr ⟨inode, (node_link _ _ _ _).trans (if_pos rfl), stored⟩
  | adopted t session' x index target bytes there read matching =>
      obtain rfl := Option.some.inj held
      obtain rfl := Option.some.inj (at_.symm.trans there)
      exact ⟨before _ rfl rfl, bytes, read, matching⟩
  | parentSynced t x target =>
      obtain rfl := Option.some.inj held
      exact before _ rfl rfl
  | _ => trivial

theorem intact_phases : ∀ (p : Nat) (request : UploadRequest) (phase : UploadPhase) (s : Nat)
    (session : Session),
    (state.ops.set o op')[p]? = some (.upload request phase) → phase.holds = some s →
      (state.store.apply o act).heap[s]? = some session →
        phase.Content sha256 (state.store.apply o act).disk session := by
  intro p request phase s session' there held after
  rcases Transition.set_cases state.ops o p op' _ there with ⟨rfl, same⟩ | ⟨other, before⟩
  · cases moved with
    | upload request' earlier next _ _ moved =>
        obtain ⟨rfl, rfl⟩ := Op.upload.inj same
        have step_ : OpMove sha256 state.store fault (.upload request earlier) act log
          (.upload request phase) := .upload _ _ _ _ _ moved
        obtain ⟨session, at_, rfl⟩ :=
          held_origin sha256 state.store p fault _ _ act log step_ s session' held after
        exact content_own sha256 state kempt intact p fault _ _ act log here step_ request earlier phase rfl
          rfl moved s session held at_
    | _ => cases same
  · exact content_other sha256 state kempt intact o fault op op' act log here fresh moved p request phase s
      session' other before held after

theorem intact_advance :
    Intact sha256
    { state with store := state.store.apply o act, ops := state.ops.set o op', log := state.log ++ log } where
  allocated := (parted_advance sha256 state kempt.base o fault op op' act log here moved
    (intact_parted sha256 state intact)).allocated
  plain := (parted_advance sha256 state kempt.base o fault op op' act log here moved
    (intact_parted sha256 state intact)).plain
  separate := (parted_advance sha256 state kempt.base o fault op op' act log here moved
    (intact_parted sha256 state intact)).separate
  shared := intact_shared sha256 state kempt intact o fault op op' act log here moved fresh
  delivered := intact_delivered sha256 state kempt intact o fault op op' act log here moved
  journalled := intact_journalled sha256 state kempt intact o fault op op' act log here moved
  phases := intact_phases sha256 state kempt intact o fault op op' act log here fresh moved

end Phases

theorem intact_step (sha256 : Bytes → String) (state next : State) (label : Label) (kempt : Kempt state)
    (intact : Intact sha256 state) (fresh : staleFree state label = true)
    (stepped : step sha256 state label = some next) : Intact sha256 next := by
  rcases step_cases sha256 state next label stepped with ⟨call, rfl, _, rfl⟩ |
    ⟨o, fault, op, act, log, op', rfl, here, moved, rfl⟩ |
    ⟨rfl, _, rfl⟩ | ⟨store, rfl, stopped, loaded, rfl⟩
  · refine ⟨intact.allocated, intact.plain, intact.separate, intact.shared, intact.delivered,
      intact.journalled, ?_⟩
    intro o request phase s session there held at_
    rcases Transition.append_cases state.ops o call.op _ there with before | new
    · exact intact.phases o request phase s session before held at_
    · have idle := (call_idle call).2.1
      rw [← new] at idle
      exact absurd (idle.symm.trans held) (by simp)
  · exact intact_advance sha256 state kempt intact o fault op op' act log here fresh moved
  · exact ⟨intact.allocated, intact.plain, intact.separate, intact.shared, by simp [Store.empty],
      intact.journalled, by simp⟩
  · have idle := (kempt.base.stopped stopped).1
    have spec := load_loaded state.store.disk store loaded
    have disk := spec.same
    refine ⟨?_, ?_, ?_, ?_, ?_, ?_, by simp [idle]⟩ <;> simp only [disk]
    · exact intact.allocated
    · exact intact.plain
    · exact intact.separate
    · exact intact.shared
    · intro s session at_
      exact intact.journalled _ session.record (loaded_session state.store.disk store spec s session at_).2.2
    · exact intact.journalled

theorem initial_intact (sha256 : Bytes → String) (state : State) (initial : Initial state) :
    Intact sha256 state := by
  obtain ⟨allocated, plain, separate⟩ := initial_parted state initial
  refine ⟨allocated, plain, separate, ?_, ?_, ?_, by simp [initial.idle]⟩
  · intro id file inode path _ _ present
    rw [initial.noState _ (part_inside id file)] at present
    cases present
  · rw [initial.fresh]
    simp [Store.empty]
  · intro id journal written
    rw [initial.noJournal] at written
    cases written

end GoshTransfer
