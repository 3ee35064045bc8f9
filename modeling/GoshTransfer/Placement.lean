import GoshTransfer.Resumption
import GoshTransfer.Validation

set_option autoImplicit false

-- Where the files of a session are put, and what an upload leaves alone.
namespace GoshTransfer

open InodeStore

-- The targets and receipts of a record are numbered variants of what
-- receive_target gives for the file.
def Record.Placed (record : Record) : Prop :=
  ∀ file ∈ record.manifest.request.files, ∀ path,
    record.targets.lookup file.id = some path ∨ record.published.lookup file.id = some path →
      ∃ index, path = candidatePath file index

-- A session whose files all have receipts is complete.
def Record.Finishes (record : Record) : Prop :=
  (∀ file ∈ record.manifest.fileIds, (record.published.lookup file).isSome = true) → record.complete = true

theorem write_change (store : Store) (fault : Option Fault) (op : Op) (act : Act) (s : Nat)
    (session : Session) (record : Record) (facts : op.Facts store) (at_ : store.heap[s]? = some session)
    (write : Write fault s session op act record) : Change session record := by
  cases write with
  | accept id saved struck open_ => exact .accept open_
  | reject id saved struck undecided => exact .reject undecided
  | cancel caller id saved struck running live => exact .cancel running live (facts session at_)
  | choose request x index saved struck =>
      obtain ⟨working, _, allowed⟩ := facts s session rfl at_
      exact .choose x.file index working allowed
  | drop request x index target => exact .drop x.file (facts s session rfl at_).1
  | receipt request x target saved struck =>
      obtain ⟨working, _, _, planned⟩ := facts s session rfl at_
      exact .receipt x.file target working planned

-- The rule for records: what a new record has and every change keeps, every record
-- in memory and on the disk has.
theorem records_step (good : Record → Prop) (fresh : ∀ request : RegisterRequest, request.record.Sound →
    good request.record)
    (kept : ∀ session record, session.record.Sound → good session.record → Change session record →
      good record)
    (sha256 : Bytes → String) (state next : State) (label : Label) (base : Base state)
    (all : ∀ record, Listed state.store record → good record)
    (stepped : step sha256 state label = some next) : ∀ record, Listed next.store record → good record := by
  intro record listed
  have sound := listed_sound next (base_step sha256 state next label base stepped) record listed
  rcases step_cases sha256 state next label stepped with ⟨call, rfl, _, rfl⟩ |
    ⟨o, fault, op, act, log, op', rfl, here, moved, rfl⟩ |
    ⟨rfl, _, rfl⟩ | ⟨store, rfl, stopped, loaded, rfl⟩
  · exact all record listed
  · rcases listed_origin sha256 state base o fault op op' act log here moved record listed with
      old | ⟨s, session, at_, write⟩ | ⟨request, _, _, rfl⟩
    · exact all record old
    · exact kept session record (base.sound s session at_).record
        (all session.record (.inl ⟨s, session, at_, rfl⟩))
        (write_change state.store fault op act s session record (base.facts o op here) at_ write)
    · exact fresh request sound
  · exact all record (listed_crashed state.store record listed)
  · exact all record (listed_restarted state.store store (load_loaded state.store.disk store loaded) record
      listed)

theorem change_placed (session : Session) (after : Record) (sound : session.record.Sound)
    (placed : session.record.Placed) (change : Change session after) : after.Placed := by
  cases change with
  | choose chosen index working allowed =>
      intro file member path found
      rw [chosen_lookup] at found
      rcases found with planned | published
      · split at planned
        · next same =>
          obtain rfl :=
            valid_file_unique session.record.manifest sound.valid file chosen member working.member same
          obtain rfl := Option.some.inj planned
          unfold targetOf
          cases before : session.record.targets.lookup file.id with
          | none => exact ⟨index, rfl⟩
          | some target => exact placed file member target (.inl before)
        · exact placed file member path (.inl planned)
      · exact placed file member path (.inr published)
  | drop dropped working =>
      intro file member path found
      rw [dropped_lookup] at found
      rcases found with planned | published
      · split at planned
        · cases planned
        · exact placed file member path (.inl planned)
      · exact placed file member path (.inr published)
  | receipt received target working planned =>
      intro file member path found
      rw [receipt_lookup] at found
      rcases found with before | published
      · exact placed file member path (.inl before)
      · split at published
        · next same =>
          obtain rfl := Option.some.inj published
          exact placed file member target (.inl (same ▸ planned))
        · exact placed file member path (.inr published)
  | _ => exact placed

theorem request_placed (request : RegisterRequest) : request.record.Placed := by
  intro file member path found
  simp [RegisterRequest.record] at found

theorem change_finishes (session : Session) (after : Record) (sound : session.record.Sound)
    (finishes : session.record.Finishes) (change : Change session after) : after.Finishes := by
  cases change with
  | receipt file target working planned =>
      intro all
      have later :=
        (receipt_sound session.record file target sound working (sound.targets file.id target planned))
      have subset : (receiptRecord session.record file target).published.keys ⊆
        session.record.manifest.fileIds.toFinset := by
        intro other member
        obtain ⟨path, here⟩ := Finmap.mem_iff.mp (Finmap.mem_keys.mp member)
        exact List.mem_toFinset.mpr (later.published other path here).1
      have full := (full_receipts session.record.manifest sound.valid _ subset).mpr all
      simpa [receiptRecord] using full
  | _ => exact finishes

theorem request_unfinished (request : RegisterRequest) (sound : request.record.Sound) :
    request.record.Finishes := by
  intro all
  obtain ⟨file, member⟩ :=
    List.exists_mem_of_length_pos ((validate_well_formed request.manifest).mp sound.valid).nonempty
  have received := all file.id (List.mem_map_of_mem member)
  simp [RegisterRequest.record] at received

theorem manifest_files (plan : PreparedTransfer) (manifest : TransferManifest)
    (planned : plan.manifest = .ok manifest) :
    manifest.request.files = plan.files.map PreparedFile.info := by
  unfold PreparedTransfer.manifest at planned
  split at planned
  · cases planned
  · cases planned
    rfl

-- The names that an upload of a file may change.
def Touched (id : String) (file : TransferFile) (path : Path) : Prop :=
  path = partPath id file.id ∨ path = journalPath id ∨ path ∈ parentDirs (receiveTarget file).1 ∨
    ∃ index, path = candidatePath file index

-- A directory is there or can be made.
def Walkable (disk : ReceiverDisk) (dir : Path) : Prop := disk.node dir = none ∨ disk.node dir = some .dir

structure Beside (id : String) (file : TransferFile) (before after : ReceiverDisk) : Prop where
  nodes : ∀ path, ¬ Touched id file path → after.node path = before.node path
  dirs : ∀ dir ∈ parentDirs (receiveTarget file).1, Walkable before dir → Walkable after dir
  contents : ∀ (name : String) (inode : Nat), name ≠ file.id →
    before.node (partPath id name) = some (.file inode) →
    after.inodes[inode]? = before.inodes[inode]?

theorem mem_parent_dirs (parent dir : Path) : dir ∈ parentDirs parent ↔ dir ≠ [] ∧ dir <+: parent := by
  cases parent with
  | nil => simp [parentDirs]
  | cons head tail =>
      cases dir with
      | nil => simp [parentDirs]
      | cons name rest => simp [parentDirs, List.cons_prefix_cons, eq_comm, and_comm]

section Footprint

variable (id : String) (file : TransferFile) (publishable : Publishable file)

include publishable in
theorem part_untouched (name : String) (other : name ≠ file.id) : ¬ Touched id file (partPath id name) := by
  rintro (same | same | made | ⟨index, same⟩)
  · exact other (part_path_inj id id name file.id rfl same).2
  · exact part_ne_journal _ _ _ same
  · exact part_inside id name (parent_dirs_outside file _ publishable (List.prefix_refl _) _ made)
  · exact part_inside id name (same ▸ candidate_outside file index publishable)

theorem beside_refl (disk : ReceiverDisk) : Beside id file disk disk :=
    ⟨fun _ _ => rfl, fun _ _ walkable => walkable, fun _ _ _ _ => rfl⟩

include publishable in
theorem beside_trans (a b c : ReceiverDisk) (first : Beside id file a b) (second : Beside id file b c) :
    Beside id file a c := by
  refine ⟨fun path apart => (second.nodes path apart).trans (first.nodes path apart),
    fun dir member walkable => second.dirs dir member (first.dirs dir member walkable), ?_⟩
  intro name inode other present
  have kept := (first.nodes _ (part_untouched id file publishable name other)).trans present
  exact (second.contents name inode other kept).trans (first.contents name inode other present)

section Acts

variable (store : Store) (o : Nat)

theorem quiet_beside (act : Act) (quiet : act.quiet = true) : Beside id file store.disk
    (store.apply o act).disk := by
  have same : (store.apply o act).disk = store.disk := by cases act <;> first | rfl | cases quiet
  rw [same]
  exact beside_refl id file store.disk

theorem named_beside (act : Act) (changed : Path) (own : Touched id file changed)
    (notDir : changed ∉ parentDirs (receiveTarget file).1)
    (others : ∀ path, path ≠ changed → act.node store.disk path = store.disk.node path)
    (inodes : ∀ inode, inode < store.disk.inodes.length →
      (act.inodes store.disk)[inode]? = store.disk.inodes[inode]?) (allocated : store.disk.Allocated) :
      Beside id file store.disk (store.apply o act).disk := by
  refine ⟨?_, ?_, ?_⟩
  · intro path apart
    rw [apply_node]
    exact others path fun same => apart (same ▸ own)
  · intro dir member walkable
    unfold Walkable
    rw [apply_node, others dir fun same => notDir (same ▸ member)]
    exact walkable
  · intro name inode other present
    rw [apply_inodes]
    exact inodes inode (allocated _ inode present)

include publishable in
theorem journal_not_dir : journalPath id ∉ parentDirs (receiveTarget file).1 :=
  fun member => journal_inside id (parent_dirs_outside file _ publishable (List.prefix_refl _) _ member)

include publishable in
theorem persist_beside (allocated : store.disk.Allocated) (s : Nat) (record : Record) (saved : Bool)
    (own : record.pending.id = id) :
    Beside id file store.disk (store.apply o (.persist s record saved)).disk := by
  refine named_beside id file store o _ (journalPath id) (.inr (.inl rfl))
    (journal_not_dir id file publishable) ?_ (fun _ _ => rfl) allocated
  intro path other
  cases saved with
  | false => rfl
  | true => exact if_neg (own ▸ other)

include publishable in
theorem open_beside (allocated : store.disk.Allocated) : Beside id file store.disk
    (store.apply o (.openPart (partPath id file.id))).disk := by
  refine named_beside id file store o _ (partPath id file.id) (.inl rfl)
    (part_not_parent file publishable id) (fun _ other => if_neg other) ?_ allocated
  intro inode inside
  exact List.getElem?_append_left inside

include publishable in
theorem remove_beside (allocated : store.disk.Allocated) (fault : Option Fault) :
    Beside id file store.disk (store.apply o (removeAct (partPath id file.id) fault)).disk := by
  rcases remove_act_cases (partPath id file.id) fault with same | same <;> rw [same]
  · exact beside_refl id file store.disk
  · exact named_beside id file store o _ (partPath id file.id) (.inl rfl)
      (part_not_parent file publishable id) (fun _ other => if_neg other) (fun _ _ => rfl) allocated

theorem link_beside (allocated : store.disk.Allocated) (inode index : Nat) :
    Beside id file store.disk (store.apply o (.link inode (candidatePath file index))).disk :=
  named_beside id file store o _ (candidatePath file index) (.inr (.inr (.inr ⟨index, rfl⟩)))
    (candidate_not_parent file index _ rfl) (fun _ other => if_neg other) (fun _ _ => rfl) allocated

theorem append_beside (parted : Parted store.disk) (canonical : id.toList.length = 36) (fd : Nat)
    (bytes : Bytes) (open_ : store.disk.node (partPath id file.id) = some (.file fd)) :
    Beside id file store.disk (store.apply o (.append fd bytes)).disk := by
  refine ⟨fun _ _ => apply_node store o _ _, ?_, ?_⟩
  · intro dir _ walkable
    unfold Walkable
    rw [apply_node]
    exact walkable
  · intro name inode other present
    have apart : fd ≠ inode := by
      rintro rfl
      exact other (parted.separate id name id file.id fd canonical canonical present open_).2
    rw [apply_inodes]
    exact List.getElem?_modify_ne _ _ apart

theorem mkdirs_beside (parent : Path) (start : parent <+: (receiveTarget file).1) :
    Beside id file store.disk (store.apply o (.mkdirs (parentDirs parent))).disk := by
  have below : ∀ dir ∈ parentDirs parent, dir ∈ parentDirs (receiveTarget file).1 := by
    intro dir member
    obtain ⟨named, leads⟩ := (mem_parent_dirs parent dir).mp member
    exact (mem_parent_dirs _ dir).mpr ⟨named, leads.trans start⟩
  refine ⟨?_, ?_, ?_⟩
  · intro path apart
    rw [apply_node]
    exact if_neg fun member => apart (.inr (.inr (.inl (below path member))))
  · intro dir _ walkable
    unfold Walkable
    rw [apply_node]
    simp only [Act.node]
    split
    · rcases walkable with absent | present
      · exact .inr (by simp [absent])
      · exact .inr (by simp [present])
    · exact walkable
  · intro name inode _ _
    rw [apply_inodes]
    rfl

end Acts

end Footprint

theorem upload_beside (sha256 : Bytes → String) (request : UploadRequest) (o s : Nat) (record : Record)
    (disk : ReceiverDisk) (file : TransferFile) (old : Bytes) (publishable : Publishable file)
    (canonical : request.transferId.toList.length = 36) (state : State) (base : Base state)
    (parted : Parted state.store.disk) (placed : ∀ record, Listed state.store record → record.Placed)
    (phase next : UploadPhase) (act : Act) (log : List Entry)
    (here : state.ops[o]? = some (.upload request phase))
    (track : phase.OnTrack sha256 request s record disk file old state.store)
    (moved : UploadMove sha256 request state.store none phase act log next) :
    Beside request.transferId file state.store.disk (state.store.apply o act).disk := by
  have own : ∀ t session, phase.session = some t → state.store.heap[t]? = some session →
    session.id = request.transferId := by
    intro t session mine at_
    obtain ⟨known, there, named⟩ := base.known o _ t here mine
    obtain rfl := Option.some.inj (there.symm.trans at_)
    exact named
  have journal : ∀ t session, phase.session = some t → state.store.heap[t]? = some session →
    session.record.pending.id = request.transferId :=
    fun t session mine at_ => (base.sound t session at_).named.symm.trans (own t session mine at_)
  have remove := remove_beside request.transferId file publishable state.store o parted.allocated none
  cases moved with
  | created t session f baseline current at_ absent =>
      obtain ⟨rfl, rfl, _⟩ := track
      rw [own _ session rfl at_]
      exact open_beside request.transferId _ publishable state.store o parted.allocated
  | stopped t session x chunks at_ tripped =>
      obtain ⟨rfl, _, filling, _⟩ := track
      rw [own _ session rfl at_, filling.meant]
      exact remove
  | tooLarge t session x chunk rest at_ excess =>
      obtain ⟨rfl, _, filling, _⟩ := track
      rw [own _ session rfl at_, filling.meant]
      exact remove
  | mismatch t session x bytes at_ read different =>
      obtain ⟨rfl, filling⟩ := track
      rw [own _ session rfl at_, filling.meant]
      exact remove
  | stoppedLate t session x at_ tripped =>
      obtain ⟨rfl, filling, _⟩ := track
      rw [own _ session rfl at_, filling.meant]
      exact remove
  | discarded t session x at_ =>
      obtain ⟨rfl, meant, _⟩ := track
      rw [own _ session rfl at_, meant]
      exact remove
  | appended t session x chunk rest at_ fits clear =>
      obtain ⟨rfl, _, filling, _⟩ := track
      exact append_beside request.transferId file state.store o parted canonical x.fd chunk filling.node
  | unseen t session x chunk rest written at_ fits clear short failed last =>
      obtain ⟨rfl, _, filling, _⟩ := track
      exact append_beside request.transferId file state.store o parted canonical x.fd _ filling.node
  | torn t x chunk rest written fits clear short =>
      obtain ⟨rfl, _, filling, _⟩ := track
      exact append_beside request.transferId file state.store o parted canonical x.fd _ filling.node
  | prepared t x allowed =>
      obtain ⟨rfl, filling, _⟩ := track
      rw [filling.meant]
      exact mkdirs_beside request.transferId file state.store o _ (List.prefix_refl _)
  | unprepared t x created allowed =>
      obtain ⟨rfl, filling, _⟩ := track
      rw [filling.meant]
      exact mkdirs_beside request.transferId file state.store o _ (List.take_prefix _ _)
  | chosen t session x index at_ bounded ok =>
      exact persist_beside request.transferId file publishable state.store o parted.allocated t _ true
        (journal t session rfl at_)
  | unchosen t session x index saved at_ failed => cases failed
  | committed t session x target at_ ok =>
      exact persist_beside request.transferId file publishable state.store o parted.allocated t _ true
        (journal t session rfl at_)
  | uncommitted t session x target saved at_ failed => cases failed
  | linked t session x index target inode at_ source free =>
      obtain ⟨rfl, _, _, _, placing, _⟩ := track
      obtain ⟨working, _, _, planned⟩ := base.facts o _ here _ session rfl at_
      obtain ⟨chosen, rfl⟩ :=
        placed session.record (.inl ⟨_, session, at_, rfl⟩) x.file working.member target (.inl planned)
      rw [placing.meant]
      exact link_beside request.transferId file state.store o parted.allocated inode chosen
  | _ => exact quiet_beside request.transferId file state.store o _ rfl

end GoshTransfer
