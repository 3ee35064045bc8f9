import GoshTransfer.Contents
import GoshTransfer.Exhaustion

set_option autoImplicit false

namespace GoshTransfer

open InodeStore

-- All candidates of the file are names of directories.
def Blocked (disk : ReceiverDisk) (file : TransferFile) : Prop := ∀ i < 1000, disk.node
    (candidatePath file i) = some .dir

theorem legacy_advance (state : LegacyState) (o : Nat) (reading : Reading) (op op' : LegacyOp)
    (act : LegacyAct) (log : List LegacyEntry) (here : state.ops[o]? = some op)
    (moved : op.next state.legacy state.disk reading = some (act, log, op')) :
    ∃ next, legacyStep state (.advance o reading) = some next ∧ next.ops[o]? = some op' ∧
      next.disk = act.store state.disk := by
  have within := (List.getElem?_eq_some_iff.mp here).1
  exact ⟨state.after o act log op', by simp [legacyStep, here, moved], by simp [LegacyState.after, within],
    rfl⟩

theorem blocked_open_fails (state : LegacyState) (o : Nat) (request : ChunkRequest) (k : Nat)
    (transfer : PendingTransfer) (file : TransferFile)
    (here : state.ops[o]? = some (.chunk request (.openFile k transfer file 0)))
    (blocked : Blocked state.disk file) :
    ∃ final, Transition.Run legacyStep (fun _ _ => True) state final ∧
      final.ops[o]? = some (.chunk request (.done tooManyConflicts)) := by
  have rounds : ∀ n ≤ 1000, ∃ middle, Transition.Run legacyStep (fun _ _ => True) state middle ∧
    middle.disk = state.disk ∧
      middle.ops[o]? = some (.chunk request (.openFile k transfer file n)) := by
    intro n
    induction n with
    | zero => exact fun _ => ⟨state, .refl, rfl, here⟩
    | succ n ih =>
        intro low
        obtain ⟨middle, run, same, at_⟩ := ih (by omega)
        have taken : middle.disk.node (uniquePath file n) = some .dir := by
          rw [same, unique_path_eq]
          exact blocked n low
        have bounded : ¬ n ≥ 1000 := by omega
        have moved : LegacyOp.next middle.legacy middle.disk calm
          (.chunk request (.openFile k transfer file n)) =
            some (.tau, [], .chunk request (.openFile k transfer file (n + 1))) := by
          simp [LegacyOp.next, ChunkPhase.next, openUniqueStep, bounded, taken, calm]
        obtain ⟨next, stepped, after, kept⟩ := legacy_advance middle o calm _ _ _ _ at_ moved
        exact ⟨next, .tail middle next _ run trivial stepped, kept.trans same, after⟩
  obtain ⟨middle, run, _, at_⟩ := rounds 1000 (Nat.le_refl _)
  obtain ⟨failed, given, atFailed, _⟩ :=
    legacy_advance middle o calm _ (.chunk request (.unlock k true tooManyConflicts)) .tau [] at_ (by
    simp [LegacyOp.next, ChunkPhase.next, openUniqueStep, tooManyConflicts])
  obtain ⟨unlocked, released, atUnlocked, _⟩ := legacy_advance failed o calm _ _ (.unlock k) [] atFailed rfl
  obtain ⟨final, vacated, atFinal, _⟩ := legacy_advance unlocked o calm _ _ (.vacate k) [] atUnlocked rfl
  exact ⟨final, .tail unlocked final _
    (.tail failed unlocked _ (.tail middle failed _ run trivial given) trivial released) trivial vacated,
    atFinal⟩

theorem state_advance (sha256 : Bytes → String) (state : State) (o : Nat) (fault : Option Fault)
    (op op' : Op) (act : Act) (log : List Entry) (here : state.ops[o]? = some op)
    (moved : op.next sha256 state.store fault = some (act, log, op')) :
    ∃ next, step sha256 state (.advance o fault) = some next ∧ next.ops[o]? = some op' ∧
      next.store = state.store.apply o act := by
  have within := (List.getElem?_eq_some_iff.mp here).1
  refine ⟨{ state with store := state.store.apply o act, ops := state.ops.set o op', log := state.log ++ log }, ?_, ?_, rfl⟩
  · simp [step, here, moved]
  · simp [within]

structure Cornered (state : State) (o : Nat) (request : UploadRequest) (s : Nat) (x : Incoming) (n : Nat) :
    Prop where
  here : state.ops[o]? = some (.upload request (.choose s x n))
  session : ∃ session inode, state.store.heap[s]? = some session ∧
    session.record.targets.lookup x.file.id = none ∧
    state.store.disk.node (partPath session.id x.file.id) = some (.file inode)
  blocked : Blocked state.store.disk x.file

theorem cornered_round (sha256 : Bytes → String) (state : State) (o : Nat) (request : UploadRequest)
    (s : Nat) (x : Incoming) (n : Nat) (low : n < 1000) (allowed : Publishable x.file)
    (cornered : Cornered state o request s x n) :
    ∃ next, Transition.Run (step sha256) alive state next ∧ Cornered next o request s x (n + 1) := by
  obtain ⟨here, ⟨session, inode, at_, unplanned, part⟩, blocked⟩ := cornered
  have bounded : ¬ n ≥ publishLimit := by
    simp only [publishLimit]
    omega
  have computed : targetOf session.record x.file n = candidatePath x.file n := by
    rw [targetOf, unplanned]
    rfl
  -- choose persists the candidate in the journal.
  obtain ⟨planned, chosen, hereP, storeP⟩ :=
    state_advance sha256 state o none _ (.upload request (.link s x n (candidatePath x.file n)))
    (.persist s (chosenRecord session.record x.file n) true) [] here (by
      simp [Op.next, UploadPhase.next, withSession, at_, chooseStep, bounded, persistStep, chosenRecord,
        computed])
  have atP : planned.store.heap[s]? =
    some { session with record := chosenRecord session.record x.file n } := by
    rw [storeP, apply_heap state.store o _ s session at_]
    simp [Act.on]
  have keptP : ∀ path, path ≠ journalPath session.record.pending.id →
    planned.store.disk.node path = state.store.disk.node path := by
    intro path other
    rw [storeP, apply_node]
    exact if_neg other
  have partP : planned.store.disk.node (partPath session.id x.file.id) = some (.file inode) := by
    rw [keptP _ (part_ne_journal _ _ _), part]
  have blockedP : Blocked planned.store.disk x.file := by
    intro i small
    rw [keptP _ (outside_ne_journal _ _ (candidate_outside x.file i allowed)), blocked i small]
  -- The link finds the name taken.
  obtain ⟨refused, linked, hereR, storeR⟩ :=
    state_advance sha256 planned o none _ (.upload request (.verify s x n (candidatePath x.file n)))
    .tau [] hereP (by simp [Op.next, UploadPhase.next, withSession, atP, linkStep, partP, blockedP n low])
  have same : refused.store = planned.store := storeR
  have unread : refused.store.disk.read (candidatePath x.file n) =
    none := by simp [Disk.read, same, blockedP n low]
  have atR : refused.store.heap[s]? =
    some { session with record := chosenRecord session.record x.file n } := by rw [same, atP]
  -- A directory is not the file, and the candidate is dropped.
  obtain ⟨next, dropped, hereN, storeN⟩ :=
    state_advance sha256 refused o none _ (.upload request (.choose s x (n + 1)))
    (.assign s (droppedRecord (chosenRecord session.record x.file n) x.file)) [] hereR (by
      simp [Op.next, UploadPhase.next, withSession, atR, verifyStep, unread, droppedRecord])
  have running : ∀ current : State, alive current (.advance o none) := fun _ same => by cases same
  have run := Transition.Run.tail planned refused _ (.tail state planned _ .refl (running state) chosen)
    (running planned) linked
  refine ⟨next, .tail refused next _ run (running refused) dropped, hereN, ?_, ?_⟩
  · refine ⟨_, inode, by rw [storeN]; exact apply_heap refused.store o _ s _ atR,
      by simp [Act.on, droppedRecord], ?_⟩
    rw [on_id, storeN, apply_node, same]
    exact partP
  · intro i small
    rw [storeN, apply_node, same]
    exact blockedP i small

theorem cornered_upload_fails (sha256 : Bytes → String) (state : State) (o : Nat) (request : UploadRequest)
    (s : Nat) (x : Incoming) (allowed : Publishable x.file) (cornered : Cornered state o request s x 0) :
    ∃ final, Transition.Run (step sha256) alive state final ∧
      final.ops[o]? = some (.upload request (.done publishConflict)) := by
  have rounds : ∀ n ≤ 1000, ∃ middle, Transition.Run (step sha256) alive state middle ∧
    Cornered middle o request s x n := by
    intro n
    induction n with
    | zero => exact fun _ => ⟨state, .refl, cornered⟩
    | succ n ih =>
        intro low
        obtain ⟨middle, run, there⟩ := ih (by omega)
        obtain ⟨next, round, after⟩ := cornered_round sha256 middle o request s x n low allowed there
        exact ⟨next, Transition.run_trans _ _ _ _ _ run round, after⟩
  obtain ⟨middle, run, there⟩ := rounds 1000 (Nat.le_refl _)
  obtain ⟨session, inode, at_, _⟩ := there.session
  obtain ⟨failed, refused, atFailed, _⟩ :=
    state_advance sha256 middle o none _ (.upload request (.leave s publishConflict)) .tau [] there.here (by
    simp [Op.next, UploadPhase.next, withSession, at_, chooseStep, publishLimit, plain, publishConflict])
  obtain ⟨final, left, atFinal, _⟩ :=
    state_advance sha256 failed o none _ (.upload request (.done publishConflict)) (.release s) [] atFailed
      (by
    simp [Op.next, UploadPhase.next, plain])
  exact ⟨final, .tail failed final _ (.tail middle failed _ run (by simp [alive]) refused)
    (by simp [alive]) left, atFinal⟩

theorem blocked_run (sha256 : Bytes → String) (allow : State → Label → Prop) (file : TransferFile)
    (allowed : Publishable file) (start final : State)
    (run : Transition.Run (step sha256) allow start final) (blocked : Blocked start.store.disk file) :
    Blocked final.store.disk file := by
  refine Transition.run_invariant (step sha256) allow (fun state => Blocked state.store.disk file) ?_ start
    final run blocked
  intro state label next held _ stepped i low
  rcases step_cases sha256 state next label stepped with ⟨call, rfl, _, rfl⟩ |
    ⟨o, fault, op, act, log, op', rfl, here, moved, rfl⟩ |
    ⟨rfl, _, rfl⟩ | ⟨store, rfl, stopped, loaded, rfl⟩
  · exact held i low
  · exact outside_node_kept sha256 state o fault op op' act log moved _ _ (candidate_outside file i allowed)
      (held i low)
  · exact held i low
  · rw [(load_loaded state.store.disk store loaded).same]
    exact held i low

theorem protocols_number_alike :
    (∀ (file : TransferFile) (index : Nat), index < 1000 →
      uniqueName (receiveTarget file).2 index = candidateName (receiveTarget file).2 index ∧
      uniquePath file index = candidatePath file index) ∧
    (∀ (file : TransferFile) (i j : Nat), i < 1000 → j < 1000 → i ≠ j →
      candidateName (receiveTarget file).2 i ≠ candidateName (receiveTarget file).2 j ∧
        candidatePath file i ≠ candidatePath file j) ∧
    (∀ (start final : LegacyState) (o : Nat) (request : ChunkRequest) (k : Nat) (transfer : PendingTransfer)
      (file : TransferFile),
      start.ops[o]? = some (.chunk request (.openFile k transfer file 0)) →
      Transition.Run legacyStep (fun _ _ => True) start final →
      final.ops[o]? = some (.chunk request (.done tooManyConflicts)) →
      ∀ i < 1000, LegacyAttempt start final o request k transfer file i) ∧
    (∀ (sha256 : Bytes → String) (initial start final : State) (o : Nat) (request : UploadRequest) (s : Nat)
      (x : Incoming), Initial initial →
      Transition.Run (step sha256) (fun _ _ => True) initial start →
      start.ops[o]? = some (.upload request (.choose s x 0)) →
      (∀ session, start.store.heap[s]? = some session → session.record.targets.lookup x.file.id = none) →
      Transition.Run (step sha256) alive start final →
      final.ops[o]? = some (.upload request (.done publishConflict)) →
      ∀ i < 1000, UploadAttempt sha256 start final o request s x i) := by
  refine ⟨?_, ?_, ?_, ?_⟩
  · intro file index _
    exact ⟨(candidate_eq_unique _ index (receive_target_last file)).symm, unique_path_eq file index⟩
  · intro file i j _ _ different
    exact ⟨candidate_names_distinct _ i j different, candidate_paths_distinct file i j different⟩
  · intro start final o request k transfer file at_ run failed
    exact legacy_conflict_needs_all start o request k transfer file final at_ run failed
  · intro sha256 initial start final o request s x clean before at_ unplanned run failed
    exact publish_conflict_needs_all sha256 start o request s x final
      (run_base sha256 _ initial start clean before) at_ unplanned run failed

-- A download directory in which every candidate of the file d/a is a directory.
def blockedFile : TransferFile := { smallFile with relativePath := some "d/a" }

def blockedManifest : TransferManifest :=
  ⟨⟨smallId, none, [blockedFile], 0⟩, (∅ : HashMap String String).insert blockedFile.id emptyDigest⟩

def blockedEntries : List (Sigma fun _ : Path => Node Record) :=
  ⟨["d"], .dir⟩ :: (List.range 1000).map fun i => ⟨candidatePath blockedFile i, .dir⟩

theorem blocked_candidate (i : Nat) : candidatePath blockedFile i = ["d", candidateName "a" i] := by
  have target : receiveTarget blockedFile = (["d"], "a") := by decide +kernel
  simp [candidatePath, target]

theorem blocked_entries_distinct : blockedEntries.NodupKeys := by
  have keys : blockedEntries.keys = ["d"] :: (List.range 1000).map
    (candidatePath blockedFile) := by simp [blockedEntries, List.keys]
  rw [List.NodupKeys, keys]
  refine List.nodup_cons.mpr ⟨?_, List.nodup_range.map ?_⟩
  · intro member
    obtain ⟨i, _, same⟩ := List.mem_map.mp member
    simp [blocked_candidate] at same
  · intro i j same
    by_contra different
    exact candidate_paths_distinct blockedFile i j different same

def blockedDisk : ReceiverDisk := ⟨⟨blockedEntries, blocked_entries_distinct⟩, []⟩

def blockedState : State := ⟨.empty blockedDisk, [], [], false⟩

theorem blocked_disk_node (path : Path) (node : Node Record) (found : blockedDisk.node path = some node) :
    node = .dir ∧ path.head? = some "d" := by
  have member : (⟨path, node⟩ : Sigma fun _ : Path => Node Record) ∈ blockedEntries :=
    List.of_mem_dlookup found
  rcases List.mem_cons.mp member with same | later
  · cases same
    exact ⟨rfl, rfl⟩
  · obtain ⟨i, _, same⟩ := List.mem_map.mp later
    cases same
    exact ⟨rfl, by rw [blocked_candidate]; rfl⟩

theorem blocked_disk_blocked : Blocked blockedDisk blockedFile := by
  intro i low
  refine List.mem_dlookup blocked_entries_distinct ?_
  exact List.mem_cons_of_mem _ (List.mem_map.mpr ⟨i, List.mem_range.mpr low, rfl⟩)

theorem blocked_initial : Initial blockedState := by
  refine ⟨rfl, rfl, rfl, rfl, ?_, ?_, ?_⟩
  · intro path inode found
    cases (blocked_disk_node path _ found).1
  · intro path inside
    cases found : blockedDisk.node path with
    | none => exact found
    | some node =>
        have outside : Outside path := by
          rw [Outside, (blocked_disk_node path node found).2]
          decide
        exact absurd outside inside
  · intro path
    cases found : blockedDisk.node path with
    | none => simp [blockedState, Store.empty, Disk.doc, found]
    | some node =>
        obtain rfl := (blocked_disk_node path node found).1
        simp [blockedState, Store.empty, Disk.doc, found]

def blockedTransfer : PendingTransfer := ⟨offerId, "10.0.0.2", none, [blockedFile], 0, 0⟩

def blockedLegacy : LegacyState :=
    ⟨.empty, blockedDisk, [.chunk smallChunk (.openFile 0 blockedTransfer blockedFile 0)], []⟩

-- The upload has its partial and no journaled target, and looks for a name.
def choosing (state : State) : Bool :=
  match (state.ops[1]? : Option Op) with
  | some (Op.upload _ (.choose 0 x 0)) =>
      x.file == blockedFile && (state.store.heap[0]?).any fun session =>
        session.record.targets.lookup x.file.id == none &&
          match state.store.disk.node (partPath session.id x.file.id) with
          | some (.file _) => true
          | _ => false
  | _ => false

theorem choosing_sound (state : State) (checked : choosing state = true)
    (blocked : Blocked state.store.disk blockedFile) :
    ∃ request x, x.file = blockedFile ∧ Cornered state 1 request 0 x 0 := by
  unfold choosing at checked
  split at checked
  · rename_i request x here
    simp only [Bool.and_eq_true, beq_iff_eq, Option.any_eq_true] at checked
    obtain ⟨named, session, at_, unplanned, part⟩ := checked
    split at part
    · rename_i inode node
      exact ⟨request, x, named, here, ⟨session, inode, at_, unplanned, node⟩, named ▸ blocked⟩
    · cases part
  · cases checked

theorem blocked_names_conflict : candidateName (receiveTarget blockedFile).2 7 = uniqueName
    (receiveTarget blockedFile).2 7 ∧
    (∃ start final k transfer, Transition.Run legacyStep (fun _ _ => True) start final ∧
      ∀ i < 1000, LegacyAttempt start final 0 smallChunk k transfer blockedFile i) ∧
    ∃ start final request x, Transition.Run (step emptyHash) alive start final ∧
      final.ops[1]? = some (.upload request (.done publishConflict)) ∧
        ∀ i < 1000, UploadAttempt emptyHash start final 1 request 0 x i := by
  refine ⟨((protocols_number_alike.1 blockedFile 7 (by decide)).1).symm, ?_, ?_⟩
  · obtain ⟨final, run, failed⟩ :=
      blocked_open_fails blockedLegacy 0 smallChunk 0 blockedTransfer blockedFile rfl blocked_disk_blocked
    exact ⟨blockedLegacy, final, 0, blockedTransfer, run,
      protocols_number_alike.2.2.1 blockedLegacy final 0 smallChunk 0 blockedTransfer blockedFile rfl run
      failed⟩
  · have allowed : Publishable blockedFile := by
      rw [Publishable]
      decide +kernel
    obtain ⟨start, before, checked⟩ := Transition.replay_reaches (step emptyHash) (fun _ _ => True)
      (.start :: .call (.register ⟨smallPeer, blockedManifest, false, true, "t", 0⟩) :: advances 0 7 ++
      .call (.upload smallUpload) ::
        advances 1 10) blockedState choosing (by decide +kernel)
    have blocked := blocked_run emptyHash _ blockedFile allowed blockedState start before blocked_disk_blocked
    obtain ⟨request, x, named, cornered⟩ := choosing_sound start checked blocked
    obtain ⟨final, run, failed⟩ :=
      cornered_upload_fails emptyHash start 1 request 0 x (named ▸ allowed) cornered
    have unplanned : ∀ session, start.store.heap[0]? = some session →
      session.record.targets.lookup x.file.id = none := by
      intro session there
      obtain ⟨session', _, at_, absent, _⟩ := cornered.session
      obtain rfl := Option.some.inj (there.symm.trans at_)
      exact absent
    exact ⟨start, final, request, x, run, failed, protocols_number_alike.2.2.2 emptyHash blockedState start
      final 1 request 0 x blocked_initial before cornered.here unplanned run failed⟩

end GoshTransfer
