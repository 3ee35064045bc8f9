import GoshTransfer.Contents

set_option autoImplicit false

namespace GoshTransfer

open InodeStore

-- The records in memory and in the journals.
def Listed (store : Store) (record : Record) : Prop :=
  (∃ (s : Nat) (session : Session), store.heap[s]? = some session ∧ session.record = record) ∨
    ∃ id, store.disk.doc (journalPath id) = some record

theorem listed_sound (state : State) (base : Base state) (record : Record)
    (listed : Listed state.store record) : record.Sound := by
  rcases listed with ⟨s, session, at_, rfl⟩ | ⟨id, written⟩
  · exact (base.sound s session at_).record
  · exact (base.journals _ record written).1

theorem listed_delivered (sha256 : Bytes → String) (state : State) (intact : Intact sha256 state)
    (record : Record) (listed : Listed state.store record) : Delivered sha256 state.store.disk record := by
  rcases listed with ⟨s, session, at_, rfl⟩ | ⟨id, written⟩
  · exact intact.delivered s session at_
  · exact intact.journalled id record written

theorem listed_restarted (before store : Store) (spec : Loaded before.disk store) (record : Record)
    (listed : Listed store record) :
    Listed before record := by
  rcases listed with ⟨s, session, at_, rfl⟩ | ⟨id, written⟩
  · exact .inr ⟨session.id, (loaded_session before.disk store spec s session at_).2.2⟩
  · exact .inr ⟨id, spec.same ▸ written⟩

theorem listed_crashed (before : Store) (record : Record) (listed : Listed (.empty before.disk) record) :
    Listed before record := by
  rcases listed with ⟨s, session, at_, _⟩ | ⟨id, written⟩
  · simp [Store.empty] at at_
  · exact .inr ⟨id, written⟩

theorem initial_unlisted (state : State) (initial : Initial state) (record : Record) :
    ¬ Listed state.store record := by
  rintro (⟨s, session, at_, rfl⟩ | ⟨id, written⟩)
  · rw [initial.fresh] at at_
    simp [Store.empty] at at_
  · rw [initial.noJournal] at written
    cases written

theorem listed_origin (sha256 : Bytes → String) (state : State) (base : Base state) (o : Nat)
    (fault : Option Fault) (op op' : Op) (act : Act) (log : List Entry) (here : state.ops[o]? = some op)
    (moved : OpMove sha256 state.store fault op act log op') (record : Record)
    (listed : Listed (state.store.apply o act) record) :
    Listed state.store record ∨ (∃ s session, state.store.heap[s]? = some session ∧
      Write fault s session op act record) ∨
      ∃ (request : RegisterRequest) (phase : RegisterPhase), op = .register request phase ∧
        record = request.record := by
  have written : ∀ s session record, state.store.heap[s]? = some session → act.writes = some (s, record) →
      ∃ s session, state.store.heap[s]? = some session ∧ Write fault s session op act record := by
    intro s session record at_ writes
    obtain ⟨session', at', write⟩ := moved_write sha256 state.store fault op op' act log s record moved writes
    exact ⟨s, session', at', write⟩
  rcases listed with ⟨s, session', after, rfl⟩ | ⟨id, after⟩
  · rcases apply_heap_origin state.store o act s session' after with ⟨session, at_, rfl⟩ |
      ⟨record, rfl, rfl, rfl⟩
    · rcases on_record_writes act o s session with ⟨record, writes, on⟩ | ⟨_, same⟩
      · rw [on]
        exact .inr (.inl (written s session record at_ writes))
      · exact .inl (.inl ⟨s, session, at_, same.symm⟩)
    · cases op_effect sha256 state.store fault op op' _ log moved with
      | quiet _ _ _ silent => cases silent
      | insert request => exact .inr (.inr ⟨request, _, rfl, rfl⟩)
  · rcases journal_cases sha256 state base o fault op op' act log here moved id with
      same | ⟨s, session, saved, rfl, _, at_, _, _, now⟩ | ⟨request, rfl, rfl, _, now⟩ | ⟨_, _, _, _, now⟩
    · exact .inl (.inr ⟨id, same.symm.trans after⟩)
    · obtain rfl := Option.some.inj (now.symm.trans after)
      exact .inr (.inl (written s session _ at_ rfl))
    · exact .inr (.inr ⟨request, _, rfl, (Option.some.inj (now.symm.trans after)).symm⟩)
    · rw [now] at after
      cases after

theorem outside_read_step (sha256 : Bytes → String) (state next : State) (label : Label) (kempt : Kempt state)
    (intact : Intact sha256 state) (stepped : step sha256 state label = some next) (path : Path)
    (bytes : Bytes) (outside : Outside path) (present : state.store.disk.read path = some bytes) :
    next.store.disk.read path = some bytes := by
  rcases step_cases sha256 state next label stepped with ⟨call, rfl, _, rfl⟩ |
    ⟨o, fault, op, act, log, op', rfl, here, moved, rfl⟩ |
    ⟨rfl, _, rfl⟩ | ⟨store, rfl, stopped, loaded, rfl⟩
  · exact present
  · exact outside_read_kept sha256 state kempt intact o fault op op' act log here moved path bytes outside
      present
  · exact present
  · rw [(load_loaded state.store.disk store loaded).same]
    exact present

theorem run_intact (sha256 : Bytes → String) (start final : State) (initial : Initial start)
    (run : Transition.Run (step sha256) (fun state label => orderly state label = true) start final) :
    Kempt final ∧ Intact sha256 final := by
  refine Transition.run_invariant (step sha256) _ (fun state => Kempt state ∧
    Intact sha256 state) ?_ start final run
    ⟨⟨initial_base start initial, initial_owned start initial, initial_housed start initial⟩,
    initial_intact sha256 start initial⟩
  rintro state label next ⟨kempt, intact⟩ allowed stepped
  have fresh := orderly_fresh state label allowed
  exact ⟨kempt_step sha256 state next label kempt allowed stepped, intact_step sha256 state next label kempt
    intact fresh stepped⟩

theorem outside_read_run (sha256 : Bytes → String) (middle final : State) (kempt : Kempt middle)
    (intact : Intact sha256 middle)
    (run : Transition.Run (step sha256) (fun state label => orderly state label = true) middle final)
    (path : Path) (bytes : Bytes) (outside : Outside path)
    (present : middle.store.disk.read path = some bytes) : final.store.disk.read path = some bytes := by
  refine (Transition.run_invariant (step sha256) _
    (fun state => (Kempt state ∧ Intact sha256 state) ∧ state.store.disk.read path = some bytes) ?_ middle
    final run
    ⟨⟨kempt, intact⟩, present⟩).2
  rintro state label next ⟨⟨kempt, intact⟩, present⟩ allowed stepped
  have fresh := orderly_fresh state label allowed
  exact ⟨⟨kempt_step sha256 state next label kempt allowed stepped,
    intact_step sha256 state next label kempt intact fresh stepped⟩,
    outside_read_step sha256 state next label kempt intact stepped path bytes outside present⟩

-- The invariants of runs without forget, where nothing has to be assumed of the steps.
structure Steady (sha256 : Bytes → String) (state : State) : Prop where
  kept : Kept state
  kempt : Kempt state
  intact : Intact sha256 state

theorem steady_step (sha256 : Bytes → String) (state next : State) (label : Label)
    (steady : Steady sha256 state) (allowed : forgetFree label = true)
    (stepped : step sha256 state label = some next) : Steady sha256 next := by
  have ordered := kept_orderly state steady.kept label
  have fresh := orderly_fresh state label ordered
  exact ⟨kept_step sha256 state next label steady.kempt.base steady.kept allowed stepped,
    kempt_step sha256 state next label steady.kempt ordered stepped,
    intact_step sha256 state next label steady.kempt steady.intact fresh stepped⟩

theorem initial_steady (sha256 : Bytes → String) (state : State) (initial : Initial state) :
    Steady sha256 state :=
  ⟨initial_kept state initial, ⟨initial_base state initial, initial_owned state initial,
    initial_housed state initial⟩,
    initial_intact sha256 state initial⟩

-- A published file has the declared size and digest from its receipt on, and no
-- file of the download directory is ever changed or removed.
theorem published_files_stay_intact (sha256 : Bytes → String) (start middle final : State)
    (initial : Initial start)
    (run : Transition.Run (step sha256) (fun state label => orderly state label = true) start middle)
    (later : Transition.Run (step sha256) (fun state label => orderly state label = true) middle final) :
    (∀ record, Listed middle.store record → ∀ file path, record.published.lookup file = some path →
      ∃ declared bytes, declared ∈ record.manifest.request.files ∧ declared.id = file ∧
        bytes.length = declared.size ∧
        record.manifest.sha256.lookup file = some (sha256 bytes) ∧ middle.store.disk.read path = some bytes ∧
          final.store.disk.read path = some bytes) ∧
    (∀ path bytes, Outside path → middle.store.disk.read path = some bytes →
      final.store.disk.read path = some bytes) := by
  obtain ⟨kempt, intact⟩ := run_intact sha256 start middle initial run
  have stays := outside_read_run sha256 middle final kempt intact later
  refine ⟨?_, stays⟩
  intro record listed file path published
  obtain ⟨declared, bytes, member, rfl, read, matching⟩ :=
    listed_delivered sha256 middle intact record listed file path published
  obtain ⟨digest, size⟩ := verified_size sha256 record declared bytes matching
  have outside := ((listed_sound middle kempt.base record listed).published _ path published).2
  exact ⟨declared, bytes, member, rfl, size, digest, read, stays path bytes outside read⟩

-- The small session in the state in which its only file has been published at
-- the path of its name.
def publishedSmall (s : Nat) (bytes : Bytes) (state : State) : Bool :=
  (state.store.heap[s]?).any fun session =>
    session.record.published.lookup smallFile.id == some ["a"] && state.store.disk.read ["a"] == some bytes

theorem published_small_sound (s : Nat) (bytes : Bytes) (state : State)
    (checked : publishedSmall s bytes state = true) :
    ∃ session, state.store.heap[s]? = some session ∧
      session.record.published.lookup smallFile.id = some ["a"] ∧
      state.store.disk.read ["a"] = some bytes := by
  simp only [publishedSmall, Option.any_eq_true, Bool.and_eq_true, beq_iff_eq] at checked
  exact checked

-- The upload of the small file crashes after its receipt and before its partial
-- is removed; after the restart the session is queried.
theorem small_file_stays_intact : ∃ middle final,
    Transition.Run (step emptyHash) (fun state label => orderly state label = true) emptyState middle ∧
      Transition.Run (step emptyHash) (fun state label => orderly state label = true) middle final ∧
        middle.store.disk.read ["a"] = some [] ∧ final.store.disk.read ["a"] = some [] := by
  obtain ⟨middle, run, checked⟩ :=
    Transition.replay_reaches (step emptyHash) (fun state label => orderly state label = true)
    (.start :: .call (.register (smallRegister true)) :: advances 0 7 ++ .call (.upload smallUpload) ::
      advances 1 14) emptyState
    (fun middle => publishedSmall 0 [] middle &&
      (Transition.replay (step emptyHash) (fun state label => orderly state label = true) middle
      (.crash :: .start :: .call (.status smallPeer smallId) :: advances 0 3)).any fun _ => true)
      (by decide +kernel)
  rw [Bool.and_eq_true] at checked
  obtain ⟨final, later, _⟩ :=
    Transition.replay_reaches (step emptyHash) (fun state label => orderly state label = true)
    (.crash :: .start :: .call (.status smallPeer smallId) :: advances 0 3) middle (fun _ => true) checked.2
  obtain ⟨session, at_, published, read⟩ := published_small_sound 0 [] middle checked.1
  obtain ⟨receipts, _⟩ :=
    published_files_stay_intact emptyHash emptyState middle final empty_initial run later
  obtain ⟨_, bytes, _, _, _, _, before, after⟩ :=
    receipts session.record (.inl ⟨0, session, at_, rfl⟩) smallFile.id ["a"] published
  obtain rfl := Option.some.inj (read.symm.trans before)
  exact ⟨middle, final, run, later, read, after⟩

-- Three manifests under one id: the first has another file, the third declares
-- the file of the second with one byte.
def otherFile : TransferFile := ⟨"b", 0, none, "00000000-0000-4000-8000-0000000000f2", none⟩

def otherManifest : TransferManifest :=
    ⟨⟨smallId, none, [otherFile], 0⟩, (∅ : HashMap String String).insert otherFile.id emptyDigest⟩

def longFile : TransferFile := { smallFile with size := 1 }

def longManifest : TransferManifest :=
    ⟨⟨smallId, none, [longFile], 1⟩, (∅ : HashMap String String).insert longFile.id emptyDigest⟩

-- The first session is cancelled, a rejection of it looks it up, and it is
-- forgotten. The second publishes its file.
def revivalRun : List Label :=
  .start :: .call (.register { smallRegister false with manifest := otherManifest }) :: advances 0 7 ++
    .call (.cancel none smallId) :: advances 1 8 ++ .call (.reject smallId) :: advances 2 1 ++
    .call (.forget smallId) :: advances 3 9 ++ .call (.register (smallRegister true)) :: advances 4 7 ++
    .call (.upload smallUpload) :: advances 5 14

-- The rejection writes the first journal over the second and the receiver
-- crashes. Forgetting the first session leaves the partial of the second, which
-- is the published file, to the upload of the third.
def orphanRun : List Label :=
  advances 2 2 ++ .crash :: .start :: .call (.forget smallId) :: advances 0 9 ++
    .call (.register { smallRegister true with manifest := longManifest }) :: advances 1 7 ++
    .call (.upload { smallUpload with chunks := [[1]] }) :: advances 2 6

def faultless : Label → Bool
  | .advance _ fault => fault == none
  | _ => true

theorem revived_journal_spoils_published_file : ∃ start middle final, Initial start ∧
    Transition.Run (step emptyHash) (fun _ label => faultless label = true) start middle ∧
      Transition.Run (step emptyHash) (fun _ label => faultless label = true) middle final ∧
        ∃ (s : Nat) (session : Session) (file : String) (path : Path) (bytes : Bytes),
          middle.store.heap[s]? = some session ∧
          session.record.published.lookup file = some path ∧ Outside path ∧
            middle.store.disk.read path = some bytes ∧
            final.store.disk.read path ≠ some bytes := by
  obtain ⟨middle, run, checked⟩ :=
    Transition.replay_reaches (step emptyHash) (fun _ label => faultless label = true)
    revivalRun emptyState (fun middle => publishedSmall 1 [] middle && (Transition.replay (step emptyHash)
      (fun _ label => faultless label = true) middle orphanRun).any fun final => final.store.disk.read
      ["a"] == some [1]) (by decide +kernel)
  rw [Bool.and_eq_true] at checked
  obtain ⟨final, later, changed⟩ :=
    Transition.replay_reaches (step emptyHash) (fun _ label => faultless label = true)
    orphanRun middle (fun final => final.store.disk.read ["a"] == some [1]) checked.2
  obtain ⟨session, at_, published, read⟩ := published_small_sound 1 [] middle checked.1
  refine ⟨emptyState, middle, final, empty_initial, run, later, 1, session, smallFile.id, ["a"], [], at_,
    published, ?_, read, ?_⟩
  · simp [Outside, stateDir]
  · rw [beq_iff_eq.mp changed]
    simp

end GoshTransfer
