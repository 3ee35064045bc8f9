import GoshTransfer.Authority
import GoshTransfer.Checkpoints
import GoshTransfer.Completion
import GoshTransfer.Resume

set_option autoImplicit false

namespace GoshTransfer

open InodeStore

-- What has been received of one file: all of it once it is published.
def stored (disk : ReceiverDisk) (id : String) (record : Record) (file : TransferFile) : Nat :=
  if (record.published.lookup file.id).isSome then file.size else (partialBytes disk id file.id).length

def received (disk : ReceiverDisk) (id : String) (record : Record) : Nat :=
  (record.manifest.request.files.map (stored disk id record)).sum

def Within (disk : ReceiverDisk) (id : String) (record : Record) : Prop :=
  ∀ file ∈ record.manifest.request.files, stored disk id record file ≤ file.size

def declaredSize (manifest : TransferManifest) : Nat := (manifest.request.files.map TransferFile.size).sum

theorem sum_changed {α : Type} [DecidableEq α] (items : List α) (before after : α → Nat) (item : α)
    (distinct : items.Nodup) (member : item ∈ items)
    (others : ∀ other ∈ items, other ≠ item → after other = before other) :
    (items.map after).sum + before item = (items.map before).sum + after item := by
  have split : ∀ f : α → Nat, (items.map f).sum = f item + ((items.erase item).map f).sum :=
    fun f => by rw [((List.perm_cons_erase member).map f).sum_eq, List.map_cons, List.sum_cons]
  have rest : (items.erase item).map after = (items.erase item).map before := by
    refine List.map_congr_left fun other later => ?_
    obtain ⟨different, listed⟩ := distinct.mem_erase_iff.mp later
    exact others other listed different
  rw [split after, split before, rest]
  omega

theorem valid_total (manifest : TransferManifest) (valid : manifest.Valid) :
    totalSize 0 manifest.request.files = some manifest.request.totalSize := by
  unfold TransferManifest.Valid TransferManifest.validate at valid
  split at valid
  · cases valid
  · split at valid
    · cases valid
    · split at valid
      · cases valid
      · split at valid
        · cases valid
        · rename_i checked
          simp only [Bool.or_eq_true, not_or, bne_iff_ne, ne_eq, not_not] at checked
          exact checked.2

theorem valid_size (manifest : TransferManifest) (valid : manifest.Valid) :
    manifest.request.totalSize = declaredSize manifest := by
  have total := (total_size_sum _ _ _ (valid_total manifest valid)).1
  rwa [Nat.zero_add] at total

theorem valid_files_nodup (manifest : TransferManifest) (valid : manifest.Valid) :
    manifest.request.files.Nodup :=
  (valid_ids_nodup manifest valid).of_map

theorem partial_length_size (disk : ReceiverDisk) (id file : String) (fault : Option Fault) (length : Nat)
    (read : partialLength disk (partPath id file) fault = .ok length) :
    length = (partialBytes disk id file).length := by
  unfold partialLength at read
  unfold partialBytes Disk.read
  split at read
  · cases read
  · split at read
    · rename_i absent
      simp [absent, (Except.ok.inj read).symm]
    · rename_i inode present
      simp [present, (Except.ok.inj read).symm]
    · cases read

theorem checkpoint_stored (disk : ReceiverDisk) (id : String) (record : Record) (fault : Option Fault)
    (file : TransferFile) (point : FileCheckpoint) (read : checkpoint disk id record fault file = .ok point) :
    point.offset = stored disk id record file ∧ stored disk id record file ≤ file.size := by
  unfold checkpoint at read
  dsimp only at read
  split at read
  · cases read
  · rename_i offset length
    have same : offset = stored disk id record file := by
      unfold stored
      split at length
      · rename_i receipt
        rw [if_pos receipt]
        exact (Except.ok.inj length).symm
      · rename_i missing
        rw [if_neg missing]
        exact partial_length_size disk id file.id fault offset length
    split at read
    · cases read
    · obtain rfl := Except.ok.inj read
      exact ⟨same, by omega⟩

theorem checkpoints_received (disk : ReceiverDisk) (id : String) (record : Record) (fault : Option Fault)
    (points : List FileCheckpoint) (read : checkpoints disk id record fault = .ok points) :
    offsetSum points = received disk id record ∧ Within disk id record := by
  unfold checkpoints at read
  unfold received Within offsetSum
  generalize record.manifest.request.files = files at read
  induction files generalizing points with
  | nil =>
      obtain rfl := Except.ok.inj read
      simp
  | cons file rest ih =>
      simp only [checkpointsFrom] at read
      split at read
      · cases read
      · rename_i point taken
        split at read
        · cases read
        · rename_i others remaining
          obtain rfl := Except.ok.inj read
          obtain ⟨offset, fits⟩ := checkpoint_stored disk id record fault file point taken
          obtain ⟨sum, within⟩ := ih others remaining
          refine ⟨by simp [offset, sum], ?_⟩
          intro other member
          rcases List.mem_cons.mp member with rfl | later
          · exact fits
          · exact within other later

theorem received_bounded (disk : ReceiverDisk) (id : String) (record : Record)
    (within : Within disk id record) :
    received disk id record ≤ declaredSize record.manifest := List.sum_le_sum within

theorem received_full (disk : ReceiverDisk) (id : String) (record : Record)
    (all : ∀ file ∈ record.manifest.fileIds, (record.published.lookup file).isSome = true) :
    received disk id record = declaredSize record.manifest := by
  unfold received declaredSize
  refine congrArg List.sum (List.map_congr_left fun file member => ?_)
  exact if_pos (all file.id (List.mem_map_of_mem member))

section Same

variable (disk disk' : ReceiverDisk) (id : String) (record record' : Record)
    (manifest : record'.manifest = record.manifest)
variable (each : ∀ file ∈ record.manifest.request.files, stored disk' id record' file =
    stored disk id record file)
include manifest each

theorem received_same : received disk' id record' = received disk id record := by
  unfold received
  rw [manifest]
  exact congrArg List.sum (List.map_congr_left each)

theorem within_same (within : Within disk id record) : Within disk' id record' := by
  intro file member
  rw [manifest] at member
  rw [each file member]
  exact within file member

end Same

theorem stored_same (disk disk' : ReceiverDisk) (id : String) (record record' : Record) (file : TransferFile)
    (receipt : record'.published.lookup file.id = record.published.lookup file.id)
    (part : record.published.lookup file.id = none →
      partialBytes disk' id file.id = partialBytes disk id file.id) :
    stored disk' id record' file = stored disk id record file := by
  unfold stored
  rw [receipt]
  cases found : record.published.lookup file.id with
  | none => simp [part found]
  | some path => rfl

theorem partial_bytes_kept (disk disk' : ReceiverDisk) (allocated : disk.Allocated) (id file : String)
    (node : disk'.node (partPath id file) = disk.node (partPath id file))
    (content : ∀ inode bytes, disk.node (partPath id file) = some (.file inode) →
      disk.inodes[inode]? = some bytes →
      disk'.inodes[inode]? = some bytes) : partialBytes disk' id file = partialBytes disk id file := by
  unfold partialBytes Disk.read
  rw [node]
  split
  · rename_i inode found
    have bound := allocated _ _ found
    rw [content inode _ found (List.getElem?_eq_getElem bound), List.getElem?_eq_getElem bound]
  · rfl

-- What every record has: the total of its manifest, and receipts only after
-- it has been accepted.
structure Record.Tallied (record : Record) : Prop where
  total : record.pending.totalSize = record.manifest.request.totalSize
  earned : ∀ file path, record.published.lookup file = some path → record.decision = .accepted

theorem tallied_size (record : Record) (sound : record.Sound) (tallied : record.Tallied) :
    record.pending.totalSize = declaredSize record.manifest :=
  tallied.total.trans (valid_size record.manifest sound.valid)

def TalliedStore (store : Store) : Prop := ∀ record, Listed store record → record.Tallied

theorem tallied_store_advance (sha256 : Bytes → String) (state : State) (base : Base state)
    (tallied : TalliedStore state.store) (o : Nat) (fault : Option Fault) (op op' : Op) (act : Act)
    (log : List Entry) (here : state.ops[o]? = some op)
    (moved : OpMove sha256 state.store fault op act log op') : TalliedStore (state.store.apply o act) := by
  intro record listed
  rcases listed_origin sha256 state base o fault op op' act log here moved record listed with
    before | ⟨s, session, at_, write⟩ | ⟨request, phase, rfl, rfl⟩
  · exact tallied record before
  · obtain ⟨total, earned⟩ := tallied session.record (.inl ⟨s, session, at_, rfl⟩)
    cases write with
    | accept id saved struck open_ => exact ⟨total, fun _ _ _ => rfl⟩
    | reject id saved struck undecided =>
        refine ⟨total, ?_⟩
        intro file path published
        have accepted := earned file path published
        rw [undecided] at accepted
        cases accepted
    | cancel caller id saved struck running live => exact ⟨total, earned⟩
    | choose request x index saved struck => exact ⟨total, earned⟩
    | drop request x index target => exact ⟨total, earned⟩
    | receipt request x target saved struck =>
        exact ⟨total, fun _ _ _ => (base.facts o _ here s session rfl at_).1.accepted⟩
  · exact ⟨rfl, by simp [RegisterRequest.record]⟩

theorem tallied_store_step (sha256 : Bytes → String) (state next : State) (label : Label) (base : Base state)
    (tallied : TalliedStore state.store) (stepped : step sha256 state label = some next) :
    TalliedStore next.store := by
  rcases step_cases sha256 state next label stepped with ⟨call, _, _, rfl⟩ |
    ⟨o, fault, op, act, log, op', _, here, moved, rfl⟩ |
    ⟨_, _, rfl⟩ | ⟨store, _, _, loaded, rfl⟩
  · exact tallied
  · exact tallied_store_advance sha256 state base tallied o fault op op' act log here moved
  · exact fun record listed => tallied record (listed_crashed state.store record listed)
  · exact fun record listed => tallied record
      (listed_restarted state.store store (load_loaded _ _ loaded) record listed)

end GoshTransfer
