import GoshTransfer.Placement
import GoshTransfer.Reliability

set_option autoImplicit false

-- From one file of a session to the next: what an upload leaves for the others.
namespace GoshTransfer

open InodeStore

theorem stop_flag_kept (act : Act) (o s : Nat) (session : Session) (gentle : ∀ t, act ≠ .trip t) :
    (act.on o s session).cancel = session.cancel := by
  cases act with
  | trip t => exact absurd rfl (gentle t)
  | _ =>
      simp only [Act.on]
      try split <;> rfl

theorem upload_gentle (sha256 : Bytes → String) (request : UploadRequest) (store : Store)
    (fault : Option Fault) (phase next : UploadPhase) (act : Act) (log : List Entry)
    (moved : UploadMove sha256 request store fault phase act log next) (t : Nat) : act ≠ .trip t := by
  intro same
  cases moved <;> first | cases same | (unfold removeAct at same; split at same <;> cases same)

-- The invariants that need no assumption about the run.
structure Grounded (state : State) : Prop where
  base : Base state
  parted : Parted state.store.disk
  placed : ∀ record, Listed state.store record → record.Placed
  finishes : ∀ record, Listed state.store record → record.Finishes

theorem grounded_step (sha256 : Bytes → String) (state next : State) (label : Label)
    (grounded : Grounded state) (stepped : step sha256 state label = some next) : Grounded next :=
  ⟨base_step sha256 state next label grounded.base stepped,
    parted_step sha256 state next label grounded.base grounded.parted stepped,
    records_step _ (fun request _ => request_placed request) change_placed sha256 state next label
    grounded.base grounded.placed stepped,
    records_step _ request_unfinished change_finishes sha256 state next label grounded.base
    grounded.finishes stepped⟩

theorem initial_grounded (state : State) (initial : Initial state) : Grounded state :=
  ⟨initial_base state initial, initial_parted state initial, fun record listed => absurd listed
    (initial_unlisted state initial record),
    fun record listed => absurd listed (initial_unlisted state initial record)⟩

theorem run_grounded (sha256 : Bytes → String) (allow : State → Label → Prop) (start final : State)
    (run : Transition.Run (step sha256) allow start final) (grounded : Grounded start) : Grounded final :=
  Transition.run_invariant (step sha256) allow Grounded
    (fun state label next good _ stepped => grounded_step sha256 state next label good stepped) start final
    run grounded

-- At every moment, in memory and in the journals, a session is complete exactly
-- when each file of its manifest has a receipt.
theorem complete_iff_received (sha256 : Bytes → String) (start state : State) (initial : Initial start)
    (run : Transition.Run (step sha256) (fun _ _ => True) start state) (record : Record)
    (listed : Listed state.store record) :
    record.complete = true ↔
      ∀ file ∈ record.manifest.fileIds, (record.published.lookup file).isSome = true := by
  have grounded := run_grounded sha256 _ start state run (initial_grounded start initial)
  have sound := listed_sound state grounded.base record listed
  exact ⟨fun whole => (sound.complete whole).1, grounded.finishes record listed⟩

theorem whole_session_is_received : ∃ (state : State) (session : Session),
    Transition.Run (step emptyHash) (fun _ _ => True) emptyState state ∧
      state.store.heap[0]? = some session ∧ session.record.complete = true ∧
        ∀ file ∈ session.record.manifest.fileIds, (session.record.published.lookup file).isSome = true := by
  obtain ⟨state, run, checked⟩ := Transition.replay_reaches (step emptyHash) (fun _ _ => True)
    (.start :: .call (.register (smallRegister true)) :: advances 0 7 ++ .call (.upload smallUpload) ::
    advances 1 18) emptyState
    (fun state => (state.store.heap[0]?).any fun session => session.record.complete) (by decide +kernel)
  obtain ⟨session, here, complete⟩ := (Option.any_eq_true _ _).mp checked
  exact ⟨state, session, run, here, complete,
    (complete_iff_received emptyHash emptyState state empty_initial run session.record
    (.inl ⟨0, session, here, rfl⟩)).mp complete⟩

section Upload

variable (sha256 : Bytes → String) (request : UploadRequest) (s : Nat) (session : Session)
    (file : TransferFile) (old : Bytes) (state : State)

structure Solitary (next : State) : Prop where
  grounded : Grounded next
  underway : ∃ n, Underway sha256 request s session.record state.store.disk file old state.ops.length n next
  untripped : ∃ after : Session, next.store.heap[s]? = some after ∧ after.cancel = false
  beside : Beside request.transferId file state.store.disk next.store.disk

theorem solitary_step (resumable : Resumable request session.record state.store.disk file old)
    (before after : State) (alone : Solitary sha256 request s session file old state before)
    (stepped : step sha256 before (.advance state.ops.length none) = some after) :
    Solitary sha256 request s session file old state after := by
  obtain ⟨grounded, ⟨n, underway⟩, ⟨session', at_, untripped⟩, beside⟩ := alone
  obtain ⟨phase, here, _, track⟩ := underway.phase
  obtain ⟨op, act, log, op', there, moved, same⟩ := step_advance sha256 before after _ none stepped
  obtain rfl := Option.some.inj (here.symm.trans there)
  obtain ⟨⟨act', log', next⟩, taken, known⟩ := Option.map_eq_some_iff.mp moved
  obtain ⟨rfl, rfl, rfl⟩ : act' = act ∧ log' = log ∧ Op.upload request next = op' := by simpa using known
  have move := upload_next_move sha256 request before.store none phase act' log' next taken
  have going : ¬ ∃ reply, before.ops[state.ops.length]? = some (.upload request (.done reply)) := by
    rintro ⟨reply, ended⟩
    obtain ⟨rfl⟩ : phase = .done reply := by simpa using here.symm.trans ended
    cases taken
  obtain ⟨after', m, made, _, carried⟩ :=
    underway_step sha256 request s session.record state.store.disk file old _ n before resumable underway
      going
  obtain rfl := Option.some.inj (made.symm.trans stepped)
  have further :=
    upload_beside sha256 request _ s session.record state.store.disk file old resumable.publishable
      resumable.canonical before
    grounded.base grounded.parted grounded.placed phase next act' log' here track move
  refine ⟨grounded_step sha256 before after' _ grounded stepped, ⟨m, carried⟩, ?_, ?_⟩
  · rw [same]
    exact ⟨_, apply_heap before.store _ act' s session' at_,
      (stop_flag_kept act' _ s session'
      (upload_gentle sha256 request _ none phase next act' log' move)).trans untripped⟩
  · rw [same]
    exact beside_trans request.transferId file resumable.publishable _ _ _ beside further

theorem upload_concludes_beside (grounded : Grounded state) (running : state.running = true)
    (mapped : state.store.sessions.lookup request.transferId = some s)
    (here : state.store.heap[s]? = some session) (named : session.id = request.transferId)
    (free : session.lock = none) (untripped : session.cancel = false)
    (resumable : Resumable request session.record state.store.disk file old) :
    ∃ reply final, Answers sha256 request reply state final ∧ Grounded final ∧ final.running = true ∧
      final.store.sessions.lookup request.transferId = some s ∧
      Replied sha256 request s session.record state.store.disk file old final.store reply ∧
      (∃ after, final.store.heap[s]? = some after ∧ after.lock = none ∧ after.cancel = false) ∧
      Beside request.transferId file state.store.disk final.store.disk := by
  obtain ⟨reply, final, ⟨called, called_, rest, answered⟩, alive, mapped', replied, after, there, unlocked⟩ :=
    upload_concludes sha256 request s session file old state running mapped here named free untripped
      resumable
  obtain ⟨_, rfl⟩ := step_call sha256 state called _ called_
  have begun : Solitary sha256 request s session file old state
    { state with ops := state.ops ++ [(Call.upload request).op] } := by
    refine ⟨grounded_step sha256 state _ _ grounded called_,
    ⟨_, running, mapped, .lookup, by simp [Call.op], rfl, mapped, rfl,
      ⟨session, here, named, untripped, rfl⟩, session, here, free⟩, ⟨session, here, untripped⟩,
      beside_refl _ _ _⟩
  have alone := Transition.run_invariant (step sha256) _ (Solitary sha256 request s session file old state)
    (by
      rintro before label after alone rfl stepped
      exact solitary_step sha256 request s session file old state resumable before after alone stepped)
    _ final rest begun
  obtain ⟨same, at_, token⟩ := alone.untripped
  obtain rfl := Option.some.inj (there.symm.trans at_)
  exact ⟨reply, final, ⟨_, called_, rest, answered⟩, alone.grounded, alive, mapped', replied,
    ⟨after, there, unlocked, token⟩, alone.beside⟩

end Upload

section Ripe

variable (sha256 : Bytes → String) (source : String → Bytes)

-- A name that no other file of the session asks for.
def Spare (disk : ReceiverDisk) (files : List TransferFile) (file : TransferFile) (path : Path) : Prop :=
  disk.node path = none ∧ ∀ other ∈ files, other.id ≠ file.id →
    (∀ index, path ≠ candidatePath other index) ∧ path ∉ parentDirs (receiveTarget other).1

-- What a file without a receipt still needs. Its partial is a part of the source.
structure Outstanding (disk : ReceiverDisk) (session : Session) (file : TransferFile) : Prop where
  publishable : Publishable file
  safe : ∀ dir ∈ parentDirs (receiveTarget file).1, Walkable disk dir
  room : ∃ j, 1 ≤ j ∧ j < publishLimit ∧ Spare disk session.record.manifest.request.files file
    (candidatePath file j)
  begun : partialBytes disk session.id file.id <+: source file.id
  size : (source file.id).length = file.size
  digest : session.record.manifest.sha256.lookup file.id = some (sha256 (source file.id))

-- An accepted session that can be completed. No file is to be put where another
-- one needs a directory.
structure Ripe (state : State) (s : Nat) (session : Session) : Prop where
  running : state.running = true
  mapped : state.store.sessions.lookup session.id = some s
  here : state.store.heap[s]? = some session
  free : session.lock = none
  live : session.record.cancelled = false ∧ session.cancel = false
  accepted : session.record.decision = .accepted
  reported : ∃ points, checkpoints state.store.disk session.id session.record none = .ok points
  apart : ∀ file ∈ session.record.manifest.request.files, ∀ other ∈ session.record.manifest.request.files,
    other.id ≠ file.id →
    ∀ dir ∈ parentDirs (receiveTarget file).1, ∀ index, dir ≠ candidatePath other index
  waiting : ∀ file ∈ session.record.manifest.request.files, session.record.published.lookup file.id = none →
    Outstanding sha256 source state.store.disk session file

theorem walkable_safe (disk : ReceiverDisk) (parent : Path)
    (walkable : ∀ dir ∈ parentDirs parent, Walkable disk dir) :
    safeParent disk parent = true := by
  refine List.all_eq_true.mpr fun dir member => ?_
  rcases walkable dir member with absent | present
  · rw [absent]
  · rw [present]

theorem ripe_awaits (state : State) (s : Nat) (session : Session)
    (ripe : Ripe sha256 source state s session) (file : TransferFile)
    (member : file ∈ session.record.manifest.request.files)
    (missing : session.record.published.lookup file.id = none) :
    Awaits state s session file := by
  have outstanding := ripe.waiting file member missing
  obtain ⟨j, positive, bounded, empty, _⟩ := outstanding.room
  exact ⟨ripe.running, ripe.mapped, ripe.here, ripe.free, ripe.live, ripe.accepted, member, missing,
    outstanding.publishable,
    walkable_safe _ _ outstanding.safe, ⟨j, positive, bounded, empty⟩, ripe.reported⟩

theorem beside_partial (id : String) (file : TransferFile) (publishable : Publishable file)
    (before after : ReceiverDisk) (beside : Beside id file before after) (name : String)
    (other : name ≠ file.id) :
    after.node (partPath id name) = before.node (partPath id name) ∧
      after.read (partPath id name) = before.read (partPath id name) := by
  have node := beside.nodes _ (part_untouched id file publishable name other)
  refine ⟨node, ?_⟩
  unfold Disk.read
  rw [node]
  cases present : before.node (partPath id name) with
  | none => rfl
  | some found =>
      cases found with
      | file inode => exact beside.contents name inode other present
      | _ => rfl

theorem checkpoints_receipted (disk later : ReceiverDisk) (id : String) (record : Record)
    (file : TransferFile) (targets : HashMap String Path) (target : Path)
    (lengths : ∀ name, name ≠ file.id → partialLength later (partPath id name) none = partialLength disk
      (partPath id name) none) (distinct : ∀ other ∈ record.manifest.request.files, other.id = file.id →
        other = file)
    (read : ∃ points, checkpoints disk id record none = .ok points) :
    ∃ points, checkpoints later id
    (receiptRecord { record with targets := targets } file target) none = .ok points := by
  obtain ⟨points, read⟩ := read
  refine checkpoints_survive disk later id record _ _ ?_ points read
  intro other member point taken
  unfold checkpoint at taken ⊢
  rw [receipt_lookup]
  by_cases same : other.id = file.id
  · obtain rfl := distinct other member same
    exact ⟨⟨other.id, other.size, true⟩, by simp⟩
  · rw [if_neg same, lengths other.id same]
    exact ⟨point, taken⟩

theorem ripe_receipted (state : State) (base : Base state) (s : Nat) (session : Session)
    (ripe : Ripe sha256 source state s session) (file : TransferFile)
    (member : file ∈ session.record.manifest.request.files) (publishable : Publishable file) (final : State)
    (running : final.running = true) (after : Session)
    (mapped : final.store.sessions.lookup session.id = some s) (here : final.store.heap[s]? = some after)
    (free : after.lock = none) (untripped : after.cancel = false)
    (beside : Beside session.id file state.store.disk final.store.disk) (named : after.id = session.id)
    (targets : HashMap String Path) (target : Path)
    (known : after.record = receiptRecord { session.record with targets := targets } file target) :
    Ripe sha256 source final s after := by
  have valid := (base.sound s session ripe.here).record.valid
  have partials := beside_partial session.id file publishable state.store.disk final.store.disk beside
  have lengths : ∀ name, name ≠ file.id → partialLength final.store.disk (partPath session.id name) none =
      partialLength state.store.disk (partPath session.id name) none :=
    fun name other => partial_length_same _ _ _ none (partials name other).1 (partials name other).2
  refine ⟨running, named ▸ mapped, here, free, ⟨known ▸ ripe.live.1, untripped⟩, known ▸ ripe.accepted, ?_,
    known ▸ ripe.apart, ?_⟩
  · rw [named, known]
    exact checkpoints_receipted _ _ session.id session.record file targets target lengths
      (fun other listed same => valid_file_unique session.record.manifest valid other file listed member
      same) ripe.reported
  · intro other listed missing
    rw [known] at listed missing
    rw [receipt_lookup] at missing
    split at missing
    · cases missing
    · next different =>
      obtain ⟨allowed, safe, ⟨j, positive, bounded, empty, spare⟩, begun, size, digest⟩ :=
        ripe.waiting other listed missing
      have untouched : ∀ path, Outside path → path ∉ parentDirs (receiveTarget file).1 →
        (∀ index, path ≠ candidatePath file index) →
          final.store.disk.node path = state.store.disk.node path := by
        intro path outside notDir notCandidate
        refine beside.nodes path ?_
        rintro (same | same | made | ⟨index, same⟩)
        · exact part_inside session.id file.id (same ▸ outside)
        · exact journal_inside session.id (same ▸ outside)
        · exact notDir made
        · exact notCandidate index same
      refine ⟨allowed, ?_, ⟨j, positive, bounded, ?_, known ▸ spare⟩, ?_, size, known ▸ digest⟩
      · intro dir above
        by_cases shared : dir ∈ parentDirs (receiveTarget file).1
        · exact beside.dirs dir shared (safe dir above)
        · unfold Walkable
          rw [untouched dir (parent_dirs_outside other _ allowed (List.prefix_refl _) dir above) shared
            (ripe.apart other listed file member (fun same => different same.symm) dir above)]
          exact safe dir above
      · obtain ⟨notCandidate, notDir⟩ := spare file member fun same => different same.symm
        rw [untouched _ (candidate_outside other j allowed) notDir notCandidate]
        exact empty
      · unfold partialBytes
        rw [named, (partials other.id different).2]
        exact begun

theorem ripe_upload (state : State) (grounded : Grounded state) (s : Nat) (session : Session)
    (ripe : Ripe sha256 source state s session) (file : TransferFile)
    (member : file ∈ session.record.manifest.request.files)
    (missing : session.record.published.lookup file.id = none) (peer : Peer)
    (owned : session.record.owner = owner peer) (chunks : List Bytes)
    (body : chunks.flatten = (source file.id).drop
      (partialBytes state.store.disk session.id file.id).length) :
    ∃ final after targets target,
      Answers sha256
      (resuming peer session file (partialBytes state.store.disk session.id file.id).length chunks)
      (.plain 200) state final ∧
        Grounded final ∧ Ripe sha256 source final s after ∧ after.id = session.id ∧
          after.record = receiptRecord { session.record with targets := targets } file target := by
  have outstanding := ripe.waiting file member missing
  have awaits := ripe_awaits sha256 source state s session ripe file member missing
  have whole : partialBytes state.store.disk session.id file.id ++ chunks.flatten = source file.id := by
    rw [body]
    conv_rhs => rw [← List.take_append_drop (partialBytes state.store.disk session.id file.id).length
      (source file.id),
      ← List.prefix_iff_eq_take.mp outstanding.begun]
  have resumable :=
    awaits_resumable state s session file peer awaits owned grounded.base grounded.parted chunks
      (by rw [whole, outstanding.size])
  obtain ⟨reply, final, answers, kept, running, mapped, replied, ⟨after, here, free, untripped⟩, beside⟩ :=
    upload_concludes_beside sha256 _ s session file _ state grounded ripe.running ripe.mapped ripe.here rfl
      ripe.free ripe.live.2 resumable
  have verified_ : verified sha256 session.record file (partialBytes state.store.disk session.id file.id ++
    chunks.flatten) = true := by
    simp [verified, whole, outstanding.digest, outstanding.size]
  rcases replied with ⟨rfl, receipted⟩ | ⟨_, refused, _⟩
  · obtain ⟨after', targets, target, at_, named, known, _⟩ := receipted
    obtain rfl := Option.some.inj (here.symm.trans at_)
    exact ⟨final, after, targets, target, answers, kept, ripe_receipted sha256 source state grounded.base s
      session ripe file member outstanding.publishable final running after mapped here free untripped beside
      named targets target known, named, known⟩
  · exact absurd (verified_.symm.trans refused) (by simp)

end Ripe

end GoshTransfer
