import GoshTransfer.Parts

set_option autoImplicit false

namespace GoshTransfer

open InodeStore

-- The file that guards the state directory against a second receiver.
def lockPath : Path := [stateDir, "receiver.lock"]

-- The steps of calls on one transfer id.
def concerns (id : String) (state : State) : Label → Bool
  | .call call => call.op.id == id
  | .advance o _ => (state.ops[o]?).any (·.id == id)
  | .crash | .start => false

-- The names in the state directory, for all ids that validate accepts.
structure NamesApart : Prop where
  journals : ∀ id id', journalPath id = journalPath id' → id = id'
  parts : ∀ id file id' file', canonicalUuid id = true → canonicalUuid id' = true →
    partPath id file = partPath id' file' →
    id = id' ∧ file = file'
  apart : ∀ id file id', partPath id file ≠ journalPath id'
  lock : ∀ id file, journalPath id ≠ lockPath ∧ partPath id file ≠ lockPath

-- Everything that belongs to the sessions with another id is as before.
structure Isolated (id : String) (before after : Store) : Prop where
  objects : ∀ (s : Nat) (session : Session), before.heap[s]? = some session → session.id ≠ id →
    after.heap[s]? = some session
  map : ∀ other, other ≠ id → after.sessions.lookup other = before.sessions.lookup other
  journals : ∀ other, other ≠ id → after.disk.node (journalPath other) = before.disk.node (journalPath other)
  parts : ∀ other file, canonicalUuid other = true → other ≠ id →
    after.disk.node (partPath other file) = before.disk.node (partPath other file) ∧
      after.disk.read (partPath other file) = before.disk.read (partPath other file)
  offsets : ∀ other record fault, canonicalUuid other = true → other ≠ id →
    checkpoints after.disk other record fault = checkpoints before.disk other record fault
  lock : after.disk.node lockPath = before.disk.node lockPath

-- The handle of an upload leads to no partial but its own.
def Handled (state : State) : Prop :=
  ∀ (o : Nat) (request : UploadRequest) (s : Nat) (x : Incoming) (chunks : List Bytes),
    state.ops[o]? = some (.upload request (.receive s x chunks)) → x.fd < state.store.disk.inodes.length ∧
      ∀ id file, id.toList.length = 36 → state.store.disk.node (partPath id file) = some (.file x.fd) →
        id = request.transferId

theorem canonical_length (id : String) (canonical : canonicalUuid id = true) : id.toList.length = 36 := by
  simp only [canonicalUuid, Bool.and_eq_true, beq_iff_eq] at canonical
  exact canonical.1

theorem session_id_canonical (session : Session) (sound : session.Sound) :
    canonicalUuid session.id = true := by
  rw [sound.named, sound.record.identity]
  exact (valid_parts _ sound.record.valid).1

theorem journal_ne_lock (id : String) : journalPath id ≠ lockPath := by
  intro same
  have names : id ++ ".json" = "receiver.lock" := by simpa [journalPath, lockPath] using same
  have reversed := congrArg (fun name => name.toList.reverse.head?) names
  simp at reversed

theorem part_ne_lock (id file : String) : partPath id file ≠ lockPath := by
  intro same
  have names : id ++ "-" ++ file ++ ".part" = "receiver.lock" := by simpa [partPath, lockPath] using same
  have reversed := congrArg (fun name => name.toList.reverse.head?) names
  simp at reversed

theorem names_apart : NamesApart where
  journals := journal_path_inj
  parts := by
    intro id file id' file' canonical canonical' same
    exact part_path_inj id id' file file'
      ((canonical_length id canonical).trans (canonical_length id' canonical').symm) same
  apart := fun id file id' => part_ne_journal id id' file
  lock := fun id file => ⟨journal_ne_lock id, part_ne_lock id file⟩

theorem isolated_refl (id : String) (store : Store) : Isolated id store store :=
  ⟨fun _ _ here _ => here, fun _ _ => rfl, fun _ _ => rfl, fun _ _ _ _ => ⟨rfl, rfl⟩, fun _ _ _ _ _ => rfl,
    rfl⟩

theorem isolated_trans (id : String) (a b c : Store) (first : Isolated id a b) (second : Isolated id b c) :
    Isolated id a c where
  objects := fun s session here other => second.objects s session (first.objects s session here other) other
  map := fun other different => (second.map other different).trans (first.map other different)
  journals := fun other different => (second.journals other different).trans (first.journals other different)
  parts := fun other file canonical different =>
    ⟨(second.parts other file canonical different).1.trans (first.parts other file canonical different).1,
      (second.parts other file canonical different).2.trans (first.parts other file canonical different).2⟩
  offsets := fun other record fault canonical different =>
    (second.offsets other record fault canonical different).trans
      (first.offsets other record fault canonical different)
  lock := second.lock.trans first.lock

section Advance

variable (sha256 : Bytes → String) (state : State) (base : Base state) (o : Nat) (fault : Option Fault)
    (op op' : Op) (act : Act)
variable (log : List Entry) (here : state.ops[o]? = some op)
    (moved : OpMove sha256 state.store fault op act log op')
include base here moved

theorem acts_on_own (s : Nat) (session : Session) (before : state.store.heap[s]? = some session) (other : session.id ≠ op.id) :
    act.on o s session = session := by
  have rules := op_disciplined state.store fault act log sha256 op op' moved
  have foreign : op.session ≠ some s := by
    intro mine
    obtain ⟨known, at_, named⟩ := base.known o op s here mine
    obtain rfl := Option.some.inj (before.symm.trans at_)
    exact other named
  cases act with
  | acquire t => exact if_neg fun (same : s = t) => foreign (same ▸ rules.holds.1)
  | release t => exact if_neg fun (same : s = t) => foreign (same ▸ holds_session op t rules.holds.1)
  | trip t => exact if_neg fun (same : s = t) => foreign (same ▸ rules.guarded)
  | finish t => exact if_neg fun (same : s = t) => foreign (same ▸ holds_session op t rules.guarded)
  | assign t record => exact if_neg fun (same : s = t) => foreign (same ▸ holds_session op t rules.guarded)
  | persist t record saved => exact if_neg fun (same : s = t) => foreign (same ▸ holds_session op t rules.guarded)
  | _ => rfl

omit base here in
theorem maps_own (id : String) (other : id ≠ op.id) :
    (state.store.apply o act).sessions.lookup id = state.store.sessions.lookup id := by
  cases op_effect sha256 state.store fault op op' act log moved with
  | insert request => exact AList.lookup_insert_ne other
  | evict _ s => exact AList.lookup_erase_ne other
  | quiet _ _ _ silent =>
      refine congrArg (AList.lookup id) (apply_sessions state.store o act ?_ ?_)
        <;> (rintro _ rfl; cases silent)
  | _ => exact congrArg (AList.lookup id) (apply_sessions state.store o _ (by simp) (by simp))

theorem persist_own (s : Nat) (session : Session) (record : Record) (saved : Bool)
    (persists : act = .persist s record saved) (at_ : state.store.heap[s]? = some session) :
    record.pending.id = op.id := by
  subst persists
  have forward := (moved_session sha256 state base o fault op op' _ log here moved s session at_).2
  have onRecord : ((Act.persist s record saved).on o s session).record = record := by simp [Act.on]
  rw [onRecord] at forward
  have held := (op_disciplined state.store fault _ log sha256 op op' moved).guarded
  obtain ⟨known, there, named⟩ := base.known o op s here (holds_session op s held)
  obtain rfl := Option.some.inj (at_.symm.trans there)
  rw [← named]
  exact journal_id record session (base.sound s session at_).named forward

theorem names_own (path : Path) (inside : ¬ Outside path) (noJournal : path ≠ journalPath op.id)
    (noPart : ∀ file, op.id.toList.length = 36 → path ≠ partPath op.id file) :
    (state.store.apply o act).disk.node path = state.store.disk.node path := by
  have node := inside_node sha256 state base o fault op op' act log here moved path inside
  have notOurs : ∀ s session file, op.holds = some s → state.store.heap[s]? = some session →
    path ≠ partPath session.id file := by
    intro s session file held at_
    obtain ⟨known, there, named⟩ := base.known o op s here (holds_session op s held)
    obtain rfl := Option.some.inj (at_.symm.trans there)
    rw [named]
    exact noPart file (named ▸ session_id_length state base s session at_)
  cases op_effect sha256 state.store fault op op' act log moved with
  | quiet _ _ _ silent => cases act <;> first | exact node | cases silent
  | journal request saved =>
      cases saved with
      | false => exact node
      | true => exact node.trans (if_neg noJournal)
  | persist _ _ s session record saved held there =>
      cases saved with
      | false => exact node
      | true =>
          have named :=
            persist_own sha256 state base o fault op op' _ log here moved s session record true rfl there
          exact node.trans (if_neg (named ▸ noJournal))
  | openPart request s session file baseline current there absent =>
      exact node.trans (if_neg (notOurs s session file.id rfl there))
  | removePart _ _ s session file held there => exact node.trans (if_neg (notOurs s session file held there))
  | removeJournal _ s => exact node.trans (if_neg noJournal)
  | _ => exact node

theorem parts_own (parted : Parted state.store.disk) (handled : Handled state) (id file : String)
    (canonical : id.toList.length = 36) (other : id ≠ op.id) :
    (state.store.apply o act).disk.node (partPath id file) = state.store.disk.node (partPath id file) ∧
      (state.store.apply o act).disk.read (partPath id file) = state.store.disk.read (partPath id file) := by
  have node := names_own sha256 state base o fault op op' act log here moved (partPath id file)
    (part_inside id file) (part_ne_journal _ _ _)
    (fun file' sized same => other (part_path_inj _ _ _ _ (canonical.trans sized.symm) same).1)
  refine ⟨node, ?_⟩
  unfold Disk.read
  rw [node]
  split
  · rename_i inode found
    obtain ⟨content, stored⟩ : ∃ content, state.store.disk.inodes[inode]? = some content :=
      ⟨_, List.getElem?_eq_getElem (parted.allocated _ _ found)⟩
    rw [stored]
    refine inode_kept state.store o act inode content stored ?_
    -- An append goes through the handle of an upload with its own id.
    rintro bytes rfl
    cases op_effect sha256 state.store fault op op' _ log moved with
    | quiet _ _ _ silent => cases silent
    | append request s x chunk rest _ _ start fits =>
        exact absurd ((handled o request s x _ here).2 id file canonical found) other
  · rfl

theorem handled_advance (parted : Parted state.store.disk) (handled : Handled state) :
    Handled { state with store := state.store.apply o act, ops := state.ops.set o op', log := state.log ++ log } := by
  have longer : state.store.disk.inodes.length ≤ (state.store.apply o act).disk.inodes.length := by
    rw [apply_inodes]
    cases act <;> simp [Act.inodes]
  -- A handle that was right before leads to no partial that is new.
  have kept : ∀ fd t, fd < state.store.disk.inodes.length →
      (∀ id file, id.toList.length = 36 → state.store.disk.node (partPath id file) = some (.file fd) →
        id = t) →
      fd < (state.store.apply o act).disk.inodes.length ∧
        ∀ id file, id.toList.length = 36 →
          (state.store.apply o act).disk.node (partPath id file) = some (.file fd) → id = t := by
    intro fd t bound right
    refine ⟨Nat.lt_of_lt_of_le bound longer, ?_⟩
    intro id file canonical present
    rcases part_origin sha256 state base o fault op op' act log here moved id file fd canonical present with
      before | ⟨_, new⟩
    · exact right id file canonical before
    · exact absurd bound (by omega)
  intro p request s x chunks there
  rcases Transition.set_cases state.ops o p op' _ there with ⟨rfl, same⟩ | ⟨_, before⟩
  · cases moved with
    | upload _ phase next _ _ step_ =>
        cases same
        cases step_ with
        | created s session file baseline current at_ absent =>
            obtain ⟨_, at', named⟩ := base.known p _ s here rfl
            obtain rfl := Option.some.inj (at_.symm.trans at')
            refine ⟨by simp [Store.apply, opened], ?_⟩
            intro id other canonical present
            rcases part_origin sha256 state base p fault _ _ _ _ here
              (.upload _ _ _ _ _ (.created s session file baseline current at_ absent)) id other _ canonical
              present with before | ⟨opens, _⟩
            · exact absurd (parted.allocated _ _ before) (Nat.lt_irrefl _)
            · have sized := session_id_length state base s session at_
              exact (part_path_inj _ _ _ _ (sized.trans canonical.symm)
                (Act.openPart.inj opens)).1.symm.trans named
        | reopened s session file baseline current inode at_ present =>
            obtain ⟨_, at', named⟩ := base.known p _ s here rfl
            obtain rfl := Option.some.inj (at_.symm.trans at')
            have sized := session_id_length state base s session at_
            refine kept inode _ (parted.allocated _ _ present) ?_
            intro id other canonical before
            exact (parted.separate id other session.id file.id inode canonical sized before present).1.trans
              named
        | appended s session x chunk rest at_ fits clear =>
            obtain ⟨bound, right⟩ := handled p request s x _ here
            exact kept x.fd request.transferId bound right
        | unseen s session x chunk rest written at_ fits clear short failed last =>
            obtain ⟨bound, right⟩ := handled p request s x _ here
            exact kept x.fd request.transferId bound right
    | _ => cases same
  · obtain ⟨bound, right⟩ := handled p request s x chunks before
    exact kept x.fd request.transferId bound right

theorem isolated_advance (parted : Parted state.store.disk) (handled : Handled state) :
    Isolated op.id state.store (state.store.apply o act) where
  objects := by
    intro s session before other
    rw [← acts_on_own sha256 state base o fault op op' act log here moved s session before other]
    exact apply_heap state.store o act s session before
  map := maps_own sha256 state o fault op op' act log moved
  journals := by
    intro id other
    exact names_own sha256 state base o fault op op' act log here moved (journalPath id) (journal_inside id)
      (fun same => other (journal_path_inj _ _ same)) (fun file _ same => part_ne_journal _ _ _ same.symm)
  parts := by
    intro id file canonical other
    exact parts_own sha256 state base o fault op op' act log here moved parted handled id file
      (canonical_length id canonical) other
  offsets := by
    intro id record lost canonical other
    exact checkpoints_same _ _ id record lost fun file =>
      parts_own sha256 state base o fault op op' act log here moved parted handled id file
        (canonical_length id canonical) other
  lock := names_own sha256 state base o fault op op' act log here moved lockPath (by simp [Outside, lockPath])
    (journal_ne_lock _).symm (fun file _ => (part_ne_lock _ file).symm)

end Advance

-- The invariant behind the frame.
structure Separated (state : State) : Prop where
  base : Base state
  parted : Parted state.store.disk
  handled : Handled state

theorem separated_step (sha256 : Bytes → String) (state next : State) (label : Label) (inv : Separated state)
    (stepped : step sha256 state label = some next) : Separated next := by
  refine ⟨base_step sha256 state next label inv.base stepped, parted_step sha256 state next label inv.base
    inv.parted stepped, ?_⟩
  rcases step_cases sha256 state next label stepped with ⟨call, _, _, rfl⟩ |
    ⟨o, fault, op, act, log, op', _, here, moved, rfl⟩ |
    ⟨_, _, rfl⟩ | ⟨store, _, stopped, _, rfl⟩
  · intro o request s x chunks there
    rcases Transition.append_cases state.ops o call.op _ there with before | new
    · exact inv.handled o request s x chunks before
    · cases call <;> cases new
  · exact handled_advance sha256 state inv.base o fault op op' act log here moved inv.parted inv.handled
  · simp [Handled]
  · simp [Handled, (inv.base.stopped stopped).1]

theorem run_separated (sha256 : Bytes → String) (allow : State → Label → Prop) (start final : State)
    (initial : Initial start) (run : Transition.Run (step sha256) allow start final) : Separated final :=
  Transition.run_invariant (step sha256) allow Separated
    (fun state label next good _ stepped => separated_step sha256 state next label good stepped) start final
    run
    ⟨initial_base start initial, initial_parted start initial, by simp [Handled, initial.idle]⟩

theorem isolated_step (sha256 : Bytes → String) (id : String) (state next : State) (label : Label)
    (inv : Separated state) (ours : concerns id state label = true)
    (stepped : step sha256 state label = some next) : Isolated id state.store next.store := by
  rcases step_cases sha256 state next label stepped with ⟨call, rfl, _, rfl⟩ |
    ⟨o, fault, op, act, log, op', rfl, here, moved, rfl⟩ |
    ⟨rfl, _, rfl⟩ | ⟨store, rfl, _, _, rfl⟩
  · exact isolated_refl id state.store
  · obtain rfl : op.id = id := by simpa [concerns, here] using ours
    exact isolated_advance sha256 state inv.base o fault op op' act log here moved inv.parted inv.handled
  · cases ours
  · cases ours

theorem sessions_are_isolated (sha256 : Bytes → String) (id : String) (start middle final : State)
    (initial : Initial start) (reached : Transition.Run (step sha256) (fun _ _ => True) start middle)
    (acted : Transition.Run (step sha256) (fun state label => concerns id state label = true) middle final) :
    Isolated id middle.store final.store ∧ NamesApart := by
  refine ⟨?_, names_apart⟩
  exact (Transition.run_relation (step sha256) _ Separated (fun a b => Isolated id a.store b.store)
    (fun state => isolated_refl id state.store) (fun a b c => isolated_trans id a.store b.store c.store)
    (fun state label next inv ours stepped => ⟨separated_step sha256 state next label inv stepped,
      isolated_step sha256 id state next label inv ours stepped⟩)
    middle final acted (run_separated sha256 _ start middle initial reached)).2

-- Two sessions that declare the same file id.
def wideFile : TransferFile := { smallFile with size := 2 }

def wideManifest (id : String) : TransferManifest :=
  ⟨⟨id, none, [wideFile], 2⟩, (∅ : HashMap String String).insert wideFile.id emptyDigest⟩

def twinId : String := "00000000-0000-4000-8000-000000000002"

def wideRegister (id : String) : RegisterRequest := { smallRegister true with manifest := wideManifest id }

def brokenUpload (id : String) (byte : UInt8) : UploadRequest :=
  { smallUpload with transferId := id, chunks := [[byte]], ending := .failed }

def twinRun : List Label :=
  .call (.register (wideRegister twinId)) :: advances 2 7 ++ .call (.upload (brokenUpload twinId 8)) ::
    advances 3 9

-- Each session receives one byte of the file; the second does not see the first.
theorem twin_partial_is_untouched : ∃ middle final,
    Transition.Run (step emptyHash) (fun _ _ => True) emptyState middle ∧
      Transition.Run (step emptyHash) (fun state label => concerns twinId state label = true) middle final ∧
        middle.store.disk.read (partPath smallId wideFile.id) = some [7] ∧
          final.store.disk.read (partPath twinId wideFile.id) = some [8] ∧
            final.store.disk.read (partPath smallId wideFile.id) = some [7] := by
  obtain ⟨middle, reached, checked⟩ := Transition.replay_reaches (step emptyHash) (fun _ _ => True)
    (.start :: .call (.register (wideRegister smallId)) :: advances 0 7 ++
    .call (.upload (brokenUpload smallId 7)) :: advances 1 9) emptyState
    (fun middle => middle.store.disk.read (partPath smallId wideFile.id) == some [7] &&
      (Transition.replay (step emptyHash) (fun state label => concerns twinId state label = true) middle
      twinRun).any
        fun final => final.store.disk.read (partPath twinId wideFile.id) == some [8]) (by decide +kernel)
  rw [Bool.and_eq_true, beq_iff_eq] at checked
  obtain ⟨final, acted, written⟩ :=
    Transition.replay_reaches (step emptyHash) (fun state label => concerns twinId state label = true)
    twinRun middle (fun final => final.store.disk.read (partPath twinId wideFile.id) == some [8]) checked.2
  have frame := (sessions_are_isolated emptyHash twinId emptyState middle final empty_initial reached acted).1
  have kept := (frame.parts smallId wideFile.id (by decide) (by decide)).2
  exact ⟨middle, final, reached, acted, checked.1, beq_iff_eq.mp written, kept.trans checked.1⟩

end GoshTransfer
