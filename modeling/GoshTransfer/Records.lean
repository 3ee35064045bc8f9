import GoshTransfer.UploadMove
import GoshTransfer.RegisterMove

set_option autoImplicit false

namespace GoshTransfer

open InodeStore

-- What holds of every record in memory and in every journal.
structure Record.Sound (record : Record) : Prop where
  valid : record.manifest.Valid
  identity : record.pending.id = record.manifest.request.transferId
  published : ∀ file path, record.published.lookup file = some path → file ∈ record.manifest.fileIds ∧
    Outside path
  targets : ∀ file path, record.targets.lookup file = some path → Outside path
  complete : record.complete = true →
    (∀ file ∈ record.manifest.fileIds, (record.published.lookup file).isSome = true) ∧
      record.decision = .accepted ∧ record.cancelled = false

def Publishable (file : TransferFile) : Prop :=
  reservedTarget ((receiveTarget file).1 ++ [(receiveTarget file).2]) = false

-- The checks of upload's entry, which last as long as the record is locked.
structure Working (record : Record) (file : TransferFile) : Prop where
  member : file ∈ record.manifest.request.files
  missing : record.published.lookup file.id = none
  accepted : record.decision = .accepted
  live : record.cancelled = false

-- The assignments the operations make to a locked record.
inductive Change (session : Session) : Record → Prop where
  | accept (open_ : session.record.terminal = false) :
      Change session { session.record with decision := .accepted }
  | reject (undecided : session.record.decision = .pending) :
      Change session { session.record with decision := .rejected }
  | cancel (running : session.record.complete = false) (live : session.record.cancelled = false)
      (tripped : session.cancel = true) :
      Change session { session.record with cancelled := true }
  | choose (file : TransferFile) (index : Nat) (working : Working session.record file)
      (allowed : Publishable file) :
      Change session (chosenRecord session.record file index)
  | drop (file : TransferFile) (working : Working session.record file) :
      Change session (droppedRecord session.record file)
  | receipt (file : TransferFile) (target : Path) (working : Working session.record file)
      (planned : session.record.targets.lookup file.id = some target) :
      Change session (receiptRecord session.record file target)

-- A record only moves forward: its identity is fixed, receipts and outcomes stay.
structure Record.Forward (before after : Record) : Prop where
  same : before.SameIdentity after
  receipts : ∀ file path, before.published.lookup file = some path → after.published.lookup file = some path
  complete : before.complete = true → after.complete = true
  cancelled : before.cancelled = true → after.cancelled = true
  rejected : before.decision = .rejected → after.decision = .rejected
  accepted : before.decision = .accepted → after.decision = .accepted

theorem forward_refl (record : Record) : record.Forward record :=
  ⟨⟨rfl, rfl, rfl, rfl⟩, fun _ _ here => here, id, id, id, id⟩

theorem forward_trans (a b c : Record) (first : a.Forward b) (second : b.Forward c) : a.Forward c := by
  obtain ⟨m, p, o, t⟩ := first.same
  obtain ⟨m', p', o', t'⟩ := second.same
  exact ⟨⟨m.trans m', p.trans p', o.trans o', t.trans t'⟩, fun f path here => second.receipts f path
    (first.receipts f path here),
    fun h => second.complete (first.complete h), fun h => second.cancelled (first.cancelled h),
    fun h => second.rejected (first.rejected h), fun h => second.accepted (first.accepted h)⟩

theorem forward_terminal (before after : Record) (forward : before.Forward after)
    (ended : before.terminal = true) :
    after.terminal = true := by
  simp only [Record.terminal, Bool.or_eq_true, decide_eq_true_eq] at ended ⊢
  rcases ended with (complete | cancelled) | rejected
  · exact .inl (.inl (forward.complete complete))
  · exact .inl (.inr (forward.cancelled cancelled))
  · exact .inr (forward.rejected rejected)

theorem terminal_false (record : Record) (open_ : record.terminal = false) :
    record.complete = false ∧ record.cancelled = false ∧ record.decision ≠ .rejected := by
  simpa [Record.terminal, and_assoc] using open_

theorem working_open (record : Record) (file : TransferFile) (sound : record.Sound)
    (working : Working record file) :
    record.complete = false := by
  by_contra complete
  have all := (sound.complete (by simpa using complete)).1 file.id (List.mem_map_of_mem working.member)
  rw [working.missing] at all
  cases all

-- The length comparison that decides completion counts receipts of distinct files.
theorem full_receipts (manifest : TransferManifest) (valid : manifest.Valid) (published : HashMap String Path)
    (subset : published.keys ⊆ manifest.fileIds.toFinset) :
    published.keys.card = manifest.request.files.length ↔
      ∀ file ∈ manifest.fileIds, (published.lookup file).isSome = true := by
  have size : manifest.fileIds.toFinset.card = manifest.request.files.length := by
    rw [List.toFinset_card_of_nodup (valid_ids_nodup manifest valid)]
    simp [TransferManifest.fileIds]
  constructor
  · intro full file member
    have same : published.keys = manifest.fileIds.toFinset := Finset.eq_of_subset_of_card_le subset (by omega)
    rw [Finmap.lookup_isSome, ← Finmap.mem_keys, same]
    simpa using member
  · intro all
    have same : published.keys = manifest.fileIds.toFinset := by
      refine Finset.Subset.antisymm subset ?_
      intro file member
      exact Finmap.mem_keys.mpr (Finmap.lookup_isSome.mp (all file (by simpa using member)))
    rw [same, size]

theorem receipt_lookup (record : Record) (file : TransferFile) (target : Path) (other : String) :
    (receiptRecord record file target).published.lookup other =
      if other = file.id then some target else record.published.lookup other := by
  by_cases same : other = file.id
  · subst same
    simp [receiptRecord]
  · simp [receiptRecord, Finmap.lookup_insert_of_ne _ same, same]

theorem chosen_lookup (record : Record) (file : TransferFile) (index : Nat) (other : String) :
    (chosenRecord record file index).targets.lookup other =
      if other = file.id then some (targetOf record file index) else record.targets.lookup other := by
  by_cases same : other = file.id
  · subst same
    simp [chosenRecord]
  · simp [chosenRecord, Finmap.lookup_insert_of_ne _ same, same]

theorem dropped_lookup (record : Record) (file : TransferFile) (other : String) :
    (droppedRecord record file).targets.lookup other = if other = file.id then
      none else record.targets.lookup other := by
  by_cases same : other = file.id
  · subst same
    simp [droppedRecord]
  · simp [droppedRecord, Finmap.lookup_erase_ne same, same]

theorem target_of_outside (record : Record) (file : TransferFile) (index : Nat) (sound : record.Sound)
    (allowed : Publishable file) :
    Outside (targetOf record file index) := by
  unfold targetOf
  cases planned : record.targets.lookup file.id with
  | none => exact candidate_outside file index allowed
  | some target => exact sound.targets file.id target planned

theorem receipt_sound (record : Record) (file : TransferFile) (target : Path) (sound : record.Sound)
    (working : Working record file) (outside : Outside target) :
    (receiptRecord record file target).Sound := by
  have published : ∀ other path, (receiptRecord record file target).published.lookup other = some path →
      other ∈ record.manifest.fileIds ∧ Outside path := by
    intro other path here
    rw [receipt_lookup] at here
    split at here
    · rename_i same
      obtain rfl : target = path := by simpa using here
      exact ⟨same ▸ List.mem_map_of_mem working.member, outside⟩
    · exact sound.published other path here
  have subset : (receiptRecord record file target).published.keys ⊆ record.manifest.fileIds.toFinset := by
    intro other member
    obtain ⟨path, here⟩ := Finmap.mem_iff.mp (Finmap.mem_keys.mp member)
    simpa using (published other path here).1
  refine ⟨sound.valid, sound.identity, published, sound.targets, ?_⟩
  intro complete
  have full : (receiptRecord record file target).published.keys.card =
    record.manifest.request.files.length := by
    simpa [receiptRecord] using complete
  exact ⟨(full_receipts record.manifest sound.valid _ subset).mp full, working.accepted, working.live⟩

theorem change_sound (session : Session) (after : Record) (sound : session.record.Sound)
    (change : Change session after) :
    after.Sound := by
  cases change with
  | accept open_ =>
      obtain ⟨running, _, _⟩ := terminal_false session.record open_
      exact ⟨sound.valid, sound.identity, sound.published, sound.targets, by simp [running]⟩
  | reject undecided =>
      refine ⟨sound.valid, sound.identity, sound.published, sound.targets, ?_⟩
      intro complete
      have accepted := (sound.complete complete).2.1
      rw [undecided] at accepted
      cases accepted
  | cancel running live tripped =>
      exact ⟨sound.valid, sound.identity, sound.published, sound.targets, by simp [running]⟩
  | choose file index working allowed =>
      refine ⟨sound.valid, sound.identity, sound.published, ?_, sound.complete⟩
      intro other path here
      rw [chosen_lookup] at here
      split at here
      · obtain rfl : targetOf session.record file index = path := by simpa using here
        exact target_of_outside session.record file index sound allowed
      · exact sound.targets other path here
  | drop file working =>
      refine ⟨sound.valid, sound.identity, sound.published, ?_, sound.complete⟩
      intro other path here
      rw [dropped_lookup] at here
      split at here
      · cases here
      · exact sound.targets other path here
  | receipt file target working planned =>
      exact receipt_sound session.record file target sound working (sound.targets file.id target planned)

theorem change_forward (session : Session) (after : Record) (sound : session.record.Sound)
    (change : Change session after) :
    session.record.Forward after := by
  cases change with
  | accept open_ =>
      obtain ⟨_, _, notRejected⟩ := terminal_false session.record open_
      exact ⟨⟨rfl, rfl, rfl, rfl⟩, fun _ _ here => here, id, id,
        fun rejected => absurd rejected notRejected, fun _ => rfl⟩
  | reject undecided =>
      exact ⟨⟨rfl, rfl, rfl, rfl⟩, fun _ _ here => here, id, id, fun _ => rfl,
        fun accepted => by simp [undecided] at accepted⟩
  | cancel running live tripped =>
      exact ⟨⟨rfl, rfl, rfl, rfl⟩, fun _ _ here => here, id, fun _ => rfl, id, id⟩
  | choose file index working allowed => exact ⟨⟨rfl, rfl, rfl, rfl⟩, fun _ _ here => here, id, id, id, id⟩
  | drop file working => exact ⟨⟨rfl, rfl, rfl, rfl⟩, fun _ _ here => here, id, id, id, id⟩
  | receipt file target working planned =>
      have open_ := working_open session.record file sound working
      refine ⟨⟨rfl, rfl, rfl, rfl⟩, ?_, by simp [open_], id, id, id⟩
      intro other path here
      have different : other ≠ file.id := by
        rintro rfl
        rw [working.missing] at here
        cases here
      rw [receipt_lookup, if_neg different]
      exact here

-- A session object in memory.
structure Session.Sound (session : Session) : Prop where
  record : session.record.Sound
  named : session.id = session.record.pending.id
  owned : session.owner = session.record.owner
  finished : session.finished = true → session.record.complete = true
  token : session.record.cancelled = true → session.cancel = true

theorem session_new_sound (record : Record) (sound : record.Sound) : (Session.new record).Sound :=
  ⟨sound, rfl, rfl, id, id⟩

theorem session_change_sound (session : Session) (after : Record) (sound : session.Sound)
    (change : Change session after) :
    ({ session with record := after } : Session).Sound := by
  have forward := change_forward session after sound.record change
  obtain ⟨_, pending, owner, _⟩ := forward.same
  refine ⟨change_sound session after sound.record change, ?_, ?_, fun f => forward.complete
    (sound.finished f), ?_⟩
  · exact sound.named.trans (congrArg PendingTransfer.id pending)
  · exact sound.owned.trans owner
  · intro cancelled
    cases change with
    | cancel _ _ tripped => exact tripped
    | _ => exact sound.token cancelled

theorem request_record_sound (request : RegisterRequest) (valid : request.manifest.Valid) :
    request.record.Sound :=
  ⟨valid, rfl, by simp [RegisterRequest.record], by simp [RegisterRequest.record],
    by simp [RegisterRequest.record]⟩

end GoshTransfer
