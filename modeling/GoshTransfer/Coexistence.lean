import GoshTransfer.OneProtocol
import GoshTransfer.Sandbox

set_option autoImplicit false

namespace GoshTransfer

open InodeStore

def LegacyOp.writesTo (path : Path) (op : LegacyOp) : Bool := op.dest.any fun dest => dest.1 = path

-- A version 2 upload is about to take an existing file for its own while a
-- version 1 upload has that file open.
def adoptsUnfinished (sha256 : Bytes → String) (receiver : Receiver) : ReceiverLabel → Bool
  | .durable (.advance o fault) =>
      match receiver.durable.ops[o]? with
      | some (.upload _ (.verify s x _ target)) =>
          fault == none && (receiver.durable.store.heap[s]?).any (fun session =>
            (receiver.durable.store.disk.read target).any (verified sha256 session.record x.file)) &&
            receiver.ops.any (LegacyOp.writesTo target)
      | _ => false
  | _ => false

def durableOrderly (receiver : Receiver) : ReceiverLabel → Bool
  | .durable label => orderly receiver.durable label
  | _ => true

theorem unique_outside (file : TransferFile) (index : Nat) (allowed : Publishable file) : Outside
    (uniquePath file index) := by
  intro reserved
  unfold Publishable at allowed
  cases parent : (receiveTarget file).1 with
  | cons first rest =>
      have here : first = stateDir := by simpa [uniquePath, parent] using reserved
      simp [parent, reservedTarget, here, state_dir_reserved] at allowed
  | nil =>
      have here : uniqueName (receiveTarget file).2 index = stateDir := by
        simpa [uniquePath, parent] using reserved
      by_cases numbered : index = 0
      · have base : (receiveTarget file).2 = stateDir := by simpa [uniqueName, numbered] using here
        simp [parent, reservedTarget, base, state_dir_reserved] at allowed
      · have space := unique_name_has_space (receiveTarget file).2 index numbered
        rw [here] at space
        exact absurd space (by decide)

-- A version 1 upload opens files for which it has checked the name.
def LegacyOp.Ready : LegacyOp → Prop
  | .chunk _ (.openFile _ _ file _) => Publishable file
  | _ => True

theorem moved_outside (legacy : Legacy) (disk : ReceiverDisk) (reading : Reading) (op op' : LegacyOp)
    (act : LegacyAct) (log : List LegacyEntry) (moved : LegacyOpMove legacy disk reading op act log op')
    (ready : op.Ready) :
    (∀ path, act = .create path → Outside path) ∧
    (∀ paths, act = .mkdirs paths → ∀ dir ∈ paths, Outside dir) ∧ op'.Ready := by
  cases moved with
  | ruling verdict id phase next act log moved => cases moved <;> exact ⟨by simp, by simp, trivial⟩
  | request offer phase next act log moved => cases moved <;> exact ⟨by simp, by simp, trivial⟩
  | approval peer id phase next act log moved => cases moved <;> exact ⟨by simp, by simp, trivial⟩
  | chunk params phase next act log moved =>
      cases moved with
      | prepared k transfer file allowed safe =>
          refine ⟨by simp, ?_, allowed⟩
          rintro _ ⟨rfl⟩
          exact parent_dirs_outside file _ allowed (List.prefix_refl _)
      | unprepared k transfer file created reply allowed safe =>
          refine ⟨by simp, ?_, trivial⟩
          rintro _ ⟨rfl⟩
          exact parent_dirs_outside file _ allowed (List.take_prefix _ _)
      | taken k transfer file index => exact ⟨by simp, by simp, ready⟩
      | opened k transfer file index free =>
          refine ⟨?_, by simp, trivial⟩
          rintro _ ⟨rfl⟩
          exact unique_outside file index ready
      | _ => exact ⟨by simp, by simp, trivial⟩

theorem created_free (disk : ReceiverDisk) (fault : Option Fault) (op op' : LegacyOp)
    (log : List LegacyEntry) (path : Path) (moved : FileMove disk fault op (.create path) log op') :
    disk.node path = none := by
  generalize created : LegacyAct.create path = act at moved
  cases moved with
  | create params phase next transfer file new free listing before after empty =>
      cases created
      exact free
  | keep op op' act log quiet same filled silent =>
      subst created
      have lengths := congrArg (fun disk => disk.inodes.length) quiet
      simp [LegacyAct.store] at lengths
  | _ => cases created

section Disk

variable (state : LegacyState) (placed : Placed state) (fault : Option Fault) (o : Nat) (op op' : LegacyOp)
    (act : LegacyAct)
  (log : List LegacyEntry) (here : state.ops[o]? = some op) (moved : FileMove state.disk fault op act log op')

include placed here moved

theorem legacy_docs (path : Path) : (act.store state.disk).doc path = state.disk.doc path := by
  cases moved with
  | create params phase next transfer file new free listing before after empty =>
      by_cases same : path = new
      · subst same
        simp [Disk.doc, LegacyAct.store, node_create, free]
      · exact doc_of_node _ _ _ ((node_create _ _ _).trans (if_neg same))
  | drop op op' gone inode before after none_ =>
      by_cases same : path = gone
      · subst same
        have named := (placed.named o op path inode here before).1
        simp [Disk.doc, LegacyAct.store, node_remove, named]
      · exact doc_of_node _ _ _ ((node_remove _ _ _).trans (if_neg same))
  | dirs op op' paths before after none_ =>
      have node := mkdirs_node paths state.disk path
      by_cases member : path ∈ paths
      · rw [if_pos member] at node
        cases found : state.disk.node path <;> simp_all [Disk.doc, LegacyAct.store]
      · exact doc_of_node _ _ _ (node.trans (if_neg member))
  | keep op op' act log quiet same filled silent => rw [quiet]
  | _ => rfl

omit placed here in
theorem legacy_inside (creates : ∀ path, act = .create path → Outside path)
    (makes : ∀ paths, act = .mkdirs paths → ∀ dir ∈ paths, Outside dir)
    (own : ∀ path inode, op.dest = some (path, inode) → Outside path) (path : Path)
    (inside : ¬ Outside path) :
    (act.store state.disk).node path = state.disk.node path := by
  cases moved with
  | create params phase next transfer file new free listing before after empty =>
      have different : path ≠ new := by
        rintro rfl
        exact inside (creates path rfl)
      exact (node_create _ _ _).trans (if_neg different)
  | drop op op' gone inode before after none_ =>
      have different : path ≠ gone := by
        rintro rfl
        exact inside (own path inode before)
      exact (node_remove _ _ _).trans (if_neg different)
  | dirs op op' paths before after none_ =>
      exact (mkdirs_node paths state.disk path).trans
        (if_neg fun member => inside (makes paths rfl path member))
  | keep op op' act log quiet same filled silent => rw [quiet]
  | _ => rfl

theorem legacy_read_kept (path : Path) (bytes : Bytes) (present : state.disk.read path = some bytes)
    (free : ∀ inode, op.dest ≠ some (path, inode)) : (act.store state.disk).read path = some bytes := by
  obtain ⟨inode, named, stored⟩ := (read_eq_some _ _ _).mp present
  have foreign : ∀ path', op.dest ≠ some (path', inode) := by
    intro path' dest
    have same := (placed.named o op path' inode here dest).2 path named
    exact free inode (same ▸ dest)
  exact (read_eq_some _ _ _).mpr ⟨inode, kept_name state placed fault o op op' act log here moved path inode
    named foreign,
    foreign_bytes state fault op op' act log moved inode bytes stored foreign⟩

end Disk

theorem kempt_disk (state : State) (disk : ReceiverDisk) (kempt : Kempt state)
    (inside : ∀ path, ¬ Outside path → disk.node path = state.store.disk.node path)
    (docs : ∀ path, disk.doc path = state.store.disk.doc path) : Kempt (state.onDisk disk) := by
  have parts : ∀ id file, disk.node (partPath id file) = state.store.disk.node (partPath id file) :=
    fun id file => inside _ (part_inside id file)
  have cleared : ∀ id, Cleared id state.store.disk → Cleared id disk :=
    fun id clear => ⟨(docs _).trans clear.1, fun file => (parts id file).trans (clear.2 file)⟩
  obtain ⟨base, owned, housed⟩ := kempt
  refine ⟨⟨base.known, base.locked, base.enrolled, base.mapped, base.sound, base.gone, ?_, ?_,
    base.stopped⟩, ⟨?_, owned.working, ?_⟩, ⟨?_, ?_, ?_, ?_, ?_⟩⟩
  · intro path record written
    exact base.journals path record ((docs path).symm.trans written)
  · intro o op here
    refine facts_framed op state.store _ ⟨?_, ?_, fun _ => rfl⟩ (base.facts o op here)
    · intro s session _ at_
      exact ⟨session, at_, rfl⟩
    · intro s session _ at_
      exact ⟨session, at_, fun tripped => tripped⟩
  · intro id s session present at_
    rcases owned.held id s session present at_ with evicting | ⟨journal, written, forward⟩
    · exact .inl evicting
    · exact .inr ⟨journal, (docs _).trans written, forward⟩
  · intro o request here
    exact (docs _).trans (owned.inserting o request here)
  · intro id file canonical present
    obtain ⟨journal, written, member⟩ := housed.parts id file canonical ((parts id file).symm ▸ present)
    exact ⟨journal, (docs _).trans written, member⟩
  · intro running id file canonical present
    exact housed.homed running id file canonical ((parts id file).symm ▸ present)
  · intro o id s files here file present
    exact housed.discarding o id s files here file ((parts id file).symm ▸ present)
  · intro o id s here
    obtain ⟨canonical, clear⟩ := housed.erased o id s here
    exact ⟨canonical, cleared id clear⟩
  · intro o id phase here dismissed
    obtain ⟨canonical, clear, gone⟩ := housed.dismissed o id phase here dismissed
    exact ⟨canonical, cleared id clear, gone⟩

-- The upload has verified its target and has not written the receipt.
def Op.verifiedTarget : Op → Option Path
  | .upload _ (.syncParent _ _ target) | .upload _ (.commit _ _ target) => some target
  | _ => none

theorem intact_disk (sha256 : Bytes → String) (state : State) (disk : ReceiverDisk)
    (intact : Intact sha256 state) (allocated : disk.Allocated)
    (inside : ∀ path, ¬ Outside path → disk.node path = state.store.disk.node path)
    (docs : ∀ path, disk.doc path = state.store.disk.doc path)
    (contents : ∀ id file inode bytes, state.store.disk.node (partPath id file) = some (.file inode) →
      state.store.disk.inodes[inode]? = some bytes → disk.inodes[inode]? = some bytes)
    (names : ∀ path inode, disk.node path = some (.file inode) →
      state.store.disk.node path = some (.file inode) ∨
      inode = state.store.disk.inodes.length)
    (receipts : ∀ record, Listed state.store record →
      ∀ file path bytes, record.published.lookup file = some path →
      state.store.disk.read path = some bytes → disk.read path = some bytes)
    (targets : ∀ (o : Nat) (op : Op) (target : Path) (bytes : Bytes), state.ops[o]? = some op →
      op.verifiedTarget = some target →
      state.store.disk.read target = some bytes → disk.read target = some bytes) :
    Intact sha256 (state.onDisk disk) := by
  have parts : ∀ id file, disk.node (partPath id file) = state.store.disk.node (partPath id file) :=
    fun id file => inside _ (part_inside id file)
  have delivered : ∀ record, Listed state.store record → Delivered sha256 state.store.disk record →
    Delivered sha256 disk record := by
    intro record listed old file path published
    obtain ⟨declared, bytes, member, named, read, matching⟩ := old file path published
    exact ⟨declared, bytes, member, named, receipts record listed file path bytes published read, matching⟩
  refine ⟨allocated, ?_, ?_, ?_, ?_, ?_, ?_⟩
  · intro id file node canonical present
    exact intact.plain id file node canonical ((parts id file).symm.trans present)
  · intro id file id' file' inode canonical canonical' part part'
    exact intact.separate id file id' file' inode canonical canonical' ((parts id file).symm.trans part)
      ((parts id' file').symm.trans part')
  · intro id file inode path canonical outside part name
    have before := (parts id file).symm.trans part
    rcases names path inode name with old | new
    · obtain ⟨journal, declared, bytes, written, member, named, stored, matching⟩ :=
        intact.shared id file inode path canonical outside before old
      exact ⟨journal, declared, bytes, (docs _).trans written, member, named,
        contents id file inode bytes before stored, matching⟩
    · exact absurd (intact.allocated _ _ before) (by omega)
  · intro s session at_
    exact delivered session.record (.inl ⟨s, session, at_, rfl⟩) (intact.delivered s session at_)
  · intro id journal written
    have before := (docs _).symm.trans written
    exact delivered journal (.inr ⟨id, before⟩) (intact.journalled id journal before)
  · intro o request phase s session there held at_
    refine content_kept sha256 state.store.disk disk session session phase rfl rfl intact.allocated
      (parts session.id) (contents session.id) ?_ (intact.phases o request phase s session there held at_)
    intro t x target bytes isPhase read
    rcases isPhase with rfl | rfl <;> exact targets o _ target bytes there rfl read

theorem adoption_faultless (sha256 : Bytes → String) (store : Store) (fault : Option Fault)
    (request : UploadRequest) (s t : Nat) (x y : Incoming) (index : Nat) (target way : Path) (act : Act)
    (log : List Entry)
    (moved : (Op.upload request (.verify s x index target)).next sha256 store fault =
      some (act, log, .upload request (.syncParent t y way))) :
    fault = none := by
  simp only [Op.next, UploadPhase.next, withSession, Option.map_eq_some_iff] at moved
  obtain ⟨_, found, same⟩ := moved
  obtain ⟨session, _, found⟩ := Option.bind_eq_some_iff.mp found
  simp only [verifyStep] at found
  by_cases both : fault = none ∧ (store.disk.read target).map (verified sha256 session.record x.file) =
    some true
  · exact both.1
  · rw [if_neg both] at found
    split at found
    · cases found
      cases same
    · cases found

-- Version 2 relies on no file that a version 1 upload in flight may still change.
structure Coexisting (sha256 : Bytes → String) (receiver : Receiver) : Prop where
  base : LegacyBase receiver.version1
  kempt : Kempt receiver.durable
  intact : Intact sha256 receiver.durable
  placed : Placed receiver.version1
  ready : ∀ (o : Nat) (op : LegacyOp), receiver.ops[o]? = some op → op.Ready
  outside : ∀ (o : Nat) (op : LegacyOp) (path : Path) (inode : Nat), receiver.ops[o]? = some op →
    op.dest = some (path, inode) → Outside path
  receipts : ∀ (o : Nat) (op : LegacyOp) (path : Path) (inode : Nat), receiver.ops[o]? = some op →
    op.dest = some (path, inode) →
    ∀ record, Listed receiver.durable.store record → ∀ file, record.published.lookup file ≠ some path
  targets : ∀ (o p : Nat) (op : LegacyOp) (q : Op) (path : Path) (inode : Nat), receiver.ops[o]? = some op →
    op.dest = some (path, inode) →
    receiver.durable.ops[p]? = some q → q.verifiedTarget ≠ some path

section Durable

variable (sha256 : Bytes → String) (receiver : Receiver) (coexisting : Coexisting sha256 receiver) (o : Nat)
    (fault : Option Fault)
  (op op' : Op) (act : Act) (log : List Entry) (here : receiver.durable.ops[o]? = some op)
  (moved : OpMove sha256 receiver.durable.store fault op act log op')

include coexisting here moved

theorem durable_names (path : Path) (inode : Nat)
    (now : (receiver.durable.store.apply o act).disk.node path = some (.file inode)) :
    receiver.durable.store.disk.node path = some (.file inode) ∨
      inode = receiver.durable.store.disk.inodes.length ∨
      ∃ id file, receiver.durable.store.disk.node (partPath id file) = some (.file inode) := by
  by_cases outside : Outside path
  · rcases name_origin sha256 receiver.durable o fault op op' act log moved path inode outside now with
      before | ⟨_, s, session, x, _, _, _, _, source⟩
    · exact .inl before
    · exact .inr (.inr ⟨session.id, x.file.id, source⟩)
  · rw [inside_node sha256 receiver.durable coexisting.kempt.base o fault op op' act log here moved path
      outside] at now
    cases act with
    | openPart part =>
        simp only at now
        split at now
        · exact .inr (.inl (by simpa using now.symm))
        · exact .inl now
    | remove gone =>
        simp only at now
        split at now
        · cases now
        · exact .inl now
    | persist s record saved =>
        cases saved with
        | false => exact .inl now
        | true =>
            simp only at now
            split at now
            · cases now
            · exact .inl now
    | journal record saved =>
        cases saved with
        | false => exact .inl now
        | true =>
            simp only at now
            split at now
            · cases now
            · exact .inl now
    | _ => exact .inl now

theorem durable_placed (allocated : (receiver.durable.store.apply o act).disk.Allocated) :
    Placed ⟨receiver.legacy, (receiver.durable.store.apply o act).disk, receiver.ops, receiver.log⟩ := by
  refine ⟨allocated, ?_, coexisting.placed.apart⟩
  intro p q path inode there dest
  obtain ⟨named, sole⟩ := coexisting.placed.named p q path inode there dest
  have outside := coexisting.outside p q path inode there dest
  refine ⟨outside_node_kept sha256 receiver.durable o fault op op' act log moved path _ outside named, ?_⟩
  intro other now
  rcases durable_names sha256 receiver coexisting o fault op op' act log here moved other inode now with
    before | fresh | ⟨id, file, part⟩
  · exact sole other before
  · have within : inode < receiver.durable.store.disk.inodes.length :=
      coexisting.placed.allocated path inode named
    omega
  · exact absurd (sole _ part).symm (outside_ne_part path id file outside)

theorem durable_receipts (p : Nat) (q : LegacyOp) (path : Path) (inode : Nat)
    (there : receiver.ops[p]? = some q) (dest : q.dest = some (path, inode)) (record : Record)
    (listed : Listed (receiver.durable.store.apply o act) record) (file : String) :
    record.published.lookup file ≠ some path := by
  rcases listed_origin sha256 receiver.durable coexisting.kempt.base o fault op op' act log here moved
    record listed with
    before | ⟨s, session, at_, write⟩ | ⟨request, phase, rfl, rfl⟩
  · exact coexisting.receipts p q path inode there dest record before file
  · have old := coexisting.receipts p q path inode there dest session.record (.inl ⟨s, session, at_, rfl⟩)
    cases write with
    | receipt request x target saved struck =>
        rw [receipt_lookup]
        split
        · intro same
          exact coexisting.targets p o q _ path inode there dest here
            (by simpa [Op.verifiedTarget] using same)
        · exact old file
    | _ => exact old file
  · simp [RegisterRequest.record]

theorem durable_targets (made : op.next sha256 receiver.durable.store fault = some (act, log, op'))
    (safe : adoptsUnfinished sha256 receiver (.durable (.advance o fault)) = false) (p r : Nat)
    (q : LegacyOp) (t : Op) (path : Path) (inode : Nat) (there : receiver.ops[p]? = some q)
    (dest : q.dest = some (path, inode)) (at_ : (receiver.durable.ops.set o op')[r]? = some t) :
    t.verifiedTarget ≠ some path := by
  rcases Transition.set_cases receiver.durable.ops o r op' t at_ with ⟨rfl, rfl⟩ | ⟨_, before⟩
  · have old := coexisting.targets p r q op path inode there dest here
    intro now
    cases moved with
    | upload request phase next act log moved =>
        cases moved with
        | linked s session x index target number there' source free =>
            obtain rfl : target = path := by simpa [Op.verifiedTarget] using now
            have named : receiver.durable.store.disk.node target = some (.file inode) :=
              (coexisting.placed.named p q target inode there dest).1
            rw [free] at named
            cases named
        | adopted s session x index target bytes there' read matching =>
            obtain rfl : target = path := by simpa [Op.verifiedTarget] using now
            have writes : receiver.ops.any (LegacyOp.writesTo target) = true :=
              List.any_eq_true.mpr ⟨q, List.mem_of_getElem? there, by simp [LegacyOp.writesTo, dest]⟩
            have ok := adoption_faultless sha256 _ fault request s s x x index target target _ _ made
            simp [adoptsUnfinished, here, there', read, matching, writes, ok] at safe
        | parentSynced s x target => exact old now
        | _ => cases now
    | _ => cases now
  · exact coexisting.targets p r q t path inode there dest before

end Durable

section Legacy

variable (sha256 : Bytes → String) (receiver : Receiver) (coexisting : Coexisting sha256 receiver) (o : Nat)
    (reading : Reading)
  (op op' : LegacyOp) (act : LegacyAct) (log : List LegacyEntry) (here : receiver.ops[o]? = some op)
  (moved : LegacyOpMove receiver.legacy receiver.durable.store.disk reading op act log op')

include coexisting here moved

omit here moved in
theorem receipt_present (record : Record) (listed : Listed receiver.durable.store record) (file : String)
    (path : Path) (published : record.published.lookup file = some path) :
    receiver.durable.store.disk.node path ≠ none := by
  obtain ⟨_, bytes, _, _, read, _⟩ :=
    listed_delivered sha256 receiver.durable coexisting.intact record listed file path published
  obtain ⟨inode, named, _⟩ := (read_eq_some _ _ _).mp read
  simp [named]

omit here moved in
theorem target_present (p : Nat) (q : Op) (path : Path) (there : receiver.durable.ops[p]? = some q)
    (has : q.verifiedTarget = some path) :
    receiver.durable.store.disk.node path ≠ none := by
  have present : ∀ request phase s x, q = .upload request phase → phase.holds = some s →
      (∀ session, phase.Content sha256 receiver.durable.store.disk session →
        TargetVerified sha256 receiver.durable.store.disk session x path) →
          receiver.durable.store.disk.node path ≠ none := by
    rintro request phase s x rfl held content
    obtain ⟨session, at_, _⟩ := coexisting.kempt.base.locked p _ s there held
    obtain ⟨bytes, read, _⟩ :=
      content session (coexisting.intact.phases p request phase s session there held at_)
    obtain ⟨inode, named, _⟩ := (read_eq_some _ _ _).mp read
    simp [named]
  cases q with
  | upload request phase =>
      cases phase with
      | syncParent s x target =>
          obtain rfl : target = path := by simpa [Op.verifiedTarget] using has
          exact present request _ s x.file rfl rfl fun session content => content.2
      | commit s x target =>
          obtain rfl : target = path := by simpa [Op.verifiedTarget] using has
          exact present request _ s x.file rfl rfl fun session content => content.2
      | _ => cases has
  | _ => cases has

theorem dest_origin (p : Nat) (q : LegacyOp) (path : Path) (inode : Nat)
    (there : (receiver.ops.set o op')[p]? = some q) (dest : q.dest = some (path, inode)) :
    (∃ q', receiver.ops[p]? = some q' ∧ q'.dest = some (path, inode)) ∨
      (act = .create path ∧ receiver.durable.store.disk.node path = none) := by
  have filing := moved_file receiver.version1 coexisting.base o reading op op' act log here moved
  rcases Transition.set_cases receiver.ops o p op' q there with ⟨rfl, rfl⟩ | ⟨_, before⟩
  · rcases same_dest receiver.version1 coexisting.placed reading.fault p op q act log here filing path inode
      dest with ⟨old, _⟩ | ⟨rfl, _⟩
    · exact .inl ⟨op, here, old⟩
    · exact .inr ⟨rfl, created_free _ _ op q log path filing⟩
  · exact .inl ⟨q, before, dest⟩

theorem legacy_coexisting (base : LegacyBase (receiver.version1.after o act log op')) :
    Coexisting sha256
    ⟨receiver.durable.onDisk (act.store receiver.durable.store.disk), receiver.legacy.apply o act,
      receiver.ops.set o op', receiver.log ++ log, receiver.peeked⟩ := by
  have filing := moved_file receiver.version1 coexisting.base o reading op op' act log here moved
  have placed := step_placed receiver.version1 coexisting.placed reading.fault o op op' act log here filing
  obtain ⟨creates, makes, ready⟩ := moved_outside receiver.legacy _ reading op op' act log moved
    (coexisting.ready o op here)
  have inside := legacy_inside receiver.version1 reading.fault op op' act log filing creates makes
    (fun path inode dest => coexisting.outside o op path inode here dest)
  have docs := legacy_docs receiver.version1 coexisting.placed reading.fault o op op' act log here filing
  have kept := legacy_read_kept receiver.version1 coexisting.placed reading.fault o op op' act log here filing
  have origin := dest_origin sha256 receiver coexisting o reading op op' act log here moved
  have listed : ∀ record, Listed (receiver.durable.onDisk (act.store receiver.durable.store.disk)).store
    record →
      Listed receiver.durable.store record := by
    rintro record (inMemory | ⟨id, written⟩)
    · exact .inl inMemory
    · exact .inr ⟨id, (docs _).symm.trans written⟩
  refine ⟨base, kempt_disk receiver.durable _ coexisting.kempt inside docs,
    intact_disk sha256 receiver.durable _ coexisting.intact placed.allocated inside docs ?_ ?_ ?_ ?_,
    placed, ?_, ?_, ?_, ?_⟩
  · intro id file inode bytes part stored
    refine foreign_bytes receiver.version1 reading.fault op op' act log filing inode bytes stored ?_
    intro path dest
    have same := (coexisting.placed.named o op path inode here dest).2 _ part
    exact outside_ne_part path id file (coexisting.outside o op path inode here dest) same.symm
  · intro path inode now
    rcases names_origin _ reading.fault op op' act log filing path inode now with ⟨before, _⟩ | ⟨_, fresh⟩
    · exact .inl before
    · exact .inr fresh
  · intro record inRecords file path bytes published read
    exact kept path bytes read fun inode dest => coexisting.receipts o op path inode here dest record
      inRecords file published
  · intro p q target bytes there has read
    exact kept target bytes read fun inode dest => coexisting.targets o p op q target inode here dest there
      has
  · intro p q there
    rcases Transition.set_cases receiver.ops o p op' q there with ⟨rfl, rfl⟩ | ⟨_, before⟩
    · exact ready
    · exact coexisting.ready p q before
  · intro p q path inode there dest
    rcases origin p q path inode there dest with ⟨q', before, old⟩ | ⟨created, _⟩
    · exact coexisting.outside p q' path inode before old
    · exact creates path created
  · intro p q path inode there dest record inRecords file
    rcases origin p q path inode there dest with ⟨q', before, old⟩ | ⟨_, free⟩
    · exact coexisting.receipts p q' path inode before old record (listed record inRecords) file
    · intro published
      exact receipt_present sha256 receiver coexisting record (listed record inRecords) file path published
        free
  · intro p r q t path inode there dest at_
    rcases origin p q path inode there dest with ⟨q', before, old⟩ | ⟨_, free⟩
    · exact coexisting.targets p r q' t path inode before old at_
    · intro has
      exact target_present sha256 receiver coexisting r t path at_ has free

end Legacy

theorem call_ready (call : LegacyCall) : call.op.Ready := by cases call <;> trivial

theorem call_unverified (call : Call) : call.op.verifiedTarget = none := by cases call <;> rfl

theorem coexisting_step (sha256 : Bytes → String) (receiver next : Receiver) (label : ReceiverLabel)
    (coexisting : Coexisting sha256 receiver) (safe : adoptsUnfinished sha256 receiver label = false)
    (ordered : durableOrderly receiver label = true)
    (stepped : receiverStep sha256 receiver label = some next) : Coexisting sha256 next := by
  have base := receiver_legacy_base sha256 receiver next label coexisting.base stepped
  rcases receiver_step_cases sha256 receiver next label stepped with
    ⟨inner, after, rfl, notCrash, _, made, rfl⟩ | ⟨after, rfl, made, rfl⟩ |
      ⟨inner, after, rfl, _, _, made, rfl⟩ | ⟨o, request, rfl, _, _, rfl⟩
  · have kempt := kempt_step sha256 receiver.durable after inner coexisting.kempt ordered made
    have intact := intact_step sha256 receiver.durable after inner coexisting.kempt coexisting.intact
      (orderly_fresh receiver.durable inner ordered) made
    cases inner with
    | crash => exact absurd rfl notCrash
    | advance o fault =>
        obtain ⟨op, act, log, op', here, raw, rfl⟩ := step_advance sha256 receiver.durable after o fault made
        have moved := op_next_move sha256 _ fault op op' act log raw
        exact ⟨base, kempt, intact, durable_placed sha256 receiver coexisting o fault op op' act log here
          moved intact.allocated,
          coexisting.ready, coexisting.outside, durable_receipts sha256 receiver coexisting o fault op op'
          act log here moved,
          durable_targets sha256 receiver coexisting o fault op op' act log here moved raw safe⟩
    | call call =>
        rcases step_cases sha256 receiver.durable after (.call call) made with ⟨_, same, _, rfl⟩ |
          ⟨_, _, _, _, _, _, same, _⟩ |
          ⟨same, _⟩ | ⟨_, same, _⟩
        · cases same
          refine ⟨base, kempt, intact, coexisting.placed, coexisting.ready, coexisting.outside,
            coexisting.receipts, ?_⟩
          intro p r q t path inode there dest at_
          rcases Transition.append_cases receiver.durable.ops r call.op t at_ with before | rfl
          · exact coexisting.targets p r q t path inode there dest before
          · rw [call_unverified]
            simp
        all_goals cases same
    | start =>
        rcases step_cases sha256 receiver.durable after .start made with ⟨_, same, _⟩ |
          ⟨_, _, _, _, _, _, same, _⟩ | ⟨same, _⟩ |
          ⟨store, _, stopped, loaded, rfl⟩
        · cases same
        · cases same
        · cases same
        · have spec := load_loaded receiver.durable.store.disk store loaded
          refine ⟨base, kempt, intact, ?_, coexisting.ready, coexisting.outside, ?_, coexisting.targets⟩
          · show Placed ⟨receiver.legacy, store.disk, receiver.ops, receiver.log⟩
            rw [spec.same]
            exact coexisting.placed
          · intro p q path inode there dest record listed file
            exact coexisting.receipts p q path inode there dest record
              (listed_restarted receiver.durable.store store spec record listed) file
  · have kempt := kempt_step sha256 receiver.durable after .crash coexisting.kempt ordered made
    have intact := intact_step sha256 receiver.durable after .crash coexisting.kempt coexisting.intact
      (orderly_fresh receiver.durable .crash ordered) made
    refine ⟨base, kempt, intact, ⟨intact.allocated, ?_, ?_⟩, ?_, ?_, ?_, ?_⟩
    · intro p q _ _ there
      cases there
    · intro p _ q _ _ _ _ there
      cases there
    · intro p q there
      cases there
    · intro p q _ _ there
      cases there
    · intro p q _ _ there
      cases there
    · intro p _ q _ _ _ there
      cases there
  · rcases legacy_step_cases receiver.version1 after inner made with ⟨call, rfl, rfl⟩ |
      ⟨o, reading, op, act, log, op', rfl, here, moved, rfl⟩
    · have old := called_dest receiver.version1 call
      refine ⟨base, coexisting.kempt, coexisting.intact, placed_step receiver.version1 _
        (.call call) coexisting.base coexisting.placed made,
        ?_, ?_, ?_, ?_⟩
      · intro p q there
        rcases Transition.append_cases receiver.ops p call.op q there with before | rfl
        · exact coexisting.ready p q before
        · exact call_ready call
      · intro p q path inode there dest
        exact coexisting.outside p q path inode (old p q path inode there dest) dest
      · intro p q path inode there dest
        exact coexisting.receipts p q path inode (old p q path inode there dest) dest
      · intro p r q t path inode there dest
        exact coexisting.targets p r q t path inode (old p q path inode there dest) dest
    · exact legacy_coexisting sha256 receiver coexisting o reading op op' act log here moved base
  · exact ⟨base, coexisting.kempt, coexisting.intact, coexisting.placed, coexisting.ready,
      coexisting.outside, coexisting.receipts, coexisting.targets⟩

theorem initial_coexisting (sha256 : Bytes → String) (receiver : Receiver)
    (initial : ReceiverInitial receiver) : Coexisting sha256 receiver := by
  have idle : receiver.ops = [] := initial.legacy.idle
  have steady := initial_steady sha256 receiver.durable initial.durable
  refine ⟨initial_legacy_base _ initial.legacy, steady.kempt, steady.intact,
    initial_placed _ initial.legacy, ?_, ?_, ?_, ?_⟩
  · intro p q there
    rw [idle] at there
    cases there
  · intro p q _ _ there
    rw [idle] at there
    cases there
  · intro p q _ _ there
    rw [idle] at there
    cases there
  · intro p _ q _ _ _ there
    rw [idle] at there
    cases there

-- A name that is taken, and not by the file of a version 1 upload in flight.
def Unclaimed (path : Path) (receiver : Receiver) : Prop :=
  receiver.durable.store.disk.node path ≠ none ∧
    ∀ (o : Nat) (op : LegacyOp) (inode : Nat), receiver.ops[o]? = some op → op.dest ≠ some (path, inode)

theorem durable_node_step (sha256 : Bytes → String) (state next : State) (label : Label)
    (stepped : step sha256 state label = some next) (path : Path) (outside : Outside path)
    (present : state.store.disk.node path ≠ none) : next.store.disk.node path ≠ none := by
  obtain ⟨node, named⟩ := Option.ne_none_iff_exists'.mp present
  rcases step_cases sha256 state next label stepped with ⟨call, rfl, _, rfl⟩ |
    ⟨o, fault, op, act, log, op', rfl, here, moved, rfl⟩ |
    ⟨rfl, _, rfl⟩ | ⟨store, rfl, stopped, loaded, rfl⟩
  · exact present
  · have stays : (state.store.apply o act).disk.node path = some node :=
      outside_node_kept sha256 state o fault op op' act log moved path node outside named
    simp [stays]
  · exact present
  · rw [(load_loaded state.store.disk store loaded).same]
    exact present

theorem unclaimed_step (sha256 : Bytes → String) (receiver next : Receiver) (label : ReceiverLabel)
    (coexisting : Coexisting sha256 receiver) (stepped : receiverStep sha256 receiver label = some next)
    (path : Path) (outside : Outside path) (unclaimed : Unclaimed path receiver) :
    Unclaimed path next := by
  obtain ⟨present, free⟩ := unclaimed
  rcases receiver_step_cases sha256 receiver next label stepped with
    ⟨inner, after, rfl, _, _, made, rfl⟩ | ⟨after, rfl, made, rfl⟩ | ⟨inner, after, rfl, _, _, made, rfl⟩ |
      ⟨o, request, rfl, _, _, rfl⟩
  · exact ⟨durable_node_step sha256 receiver.durable after inner made path outside present, free⟩
  · refine ⟨durable_node_step sha256 receiver.durable after .crash made path outside present, ?_⟩
    intro p q _ there
    cases there
  · rcases legacy_step_cases receiver.version1 after inner made with ⟨call, rfl, rfl⟩ |
      ⟨o, reading, op, act, log, op', rfl, here, moved, rfl⟩
    · exact ⟨present, fun p q inode there dest => free p q inode
        (called_dest receiver.version1 call p q path inode there dest) dest⟩
    · have filing := moved_file receiver.version1 coexisting.base o reading op op' act log here moved
      refine ⟨?_, ?_⟩
      · obtain ⟨node, named⟩ := Option.ne_none_iff_exists'.mp present
        have spared : act ≠ .remove path := by
          rintro rfl
          generalize removed : LegacyAct.remove path = act at filing
          cases filing with
          | drop op op' gone own before after empty =>
              cases removed
              exact free o op own here before
          | keep op op' act log quiet same filled silent =>
              subst removed
              have gone := node_remove receiver.version1.disk path path
              rw [if_pos rfl, show receiver.version1.disk.remove path = receiver.version1.disk
                from quiet] at gone
              exact present gone
          | _ => cases removed
        have stays : (act.store receiver.durable.store.disk).node path = some node :=
          names_kept receiver.durable.store.disk reading.fault op op' act log filing path node named spared
        show (act.store receiver.durable.store.disk).node path ≠ none
        simp [stays]
      · intro p q inode there dest
        rcases dest_origin sha256 receiver coexisting o reading op op' act log here moved p q path inode
          there dest with
          ⟨q', before, old⟩ | ⟨_, absent⟩
        · exact free p q' inode before old
        · exact present absent
  · exact ⟨present, free⟩

theorem unclaimed_read_step (sha256 : Bytes → String) (receiver next : Receiver) (label : ReceiverLabel)
    (coexisting : Coexisting sha256 receiver) (stepped : receiverStep sha256 receiver label = some next)
    (path : Path) (bytes : Bytes) (outside : Outside path) (unclaimed : Unclaimed path receiver)
    (read : receiver.durable.store.disk.read path = some bytes) :
    next.durable.store.disk.read path = some bytes := by
  have stays := outside_read_step sha256 receiver.durable
  rcases receiver_step_cases sha256 receiver next label stepped with
    ⟨inner, after, rfl, _, _, made, rfl⟩ | ⟨after, rfl, made, rfl⟩ | ⟨inner, after, rfl, _, _, made, rfl⟩ |
      ⟨o, request, rfl, _, _, rfl⟩
  · exact stays after inner coexisting.kempt coexisting.intact made path bytes outside read
  · exact stays after .crash coexisting.kempt coexisting.intact made path bytes outside read
  · rcases legacy_step_cases receiver.version1 after inner made with ⟨call, rfl, rfl⟩ |
      ⟨o, reading, op, act, log, op', rfl, here, moved, rfl⟩
    · exact read
    · have filing := moved_file receiver.version1 coexisting.base o reading op op' act log here moved
      exact legacy_read_kept receiver.version1 coexisting.placed reading.fault o op op' act log here filing
        path bytes read (unclaimed.2 o op · here)
  · exact read

-- The upload has found its target taken and is about to compare it.
def Op.comparedTarget : Op → Option Path
  | .upload _ (.verify _ _ _ target) => some target
  | _ => none

theorem compared_outside (state : State) (base : Base state) (o : Nat) (op : Op) (target : Path)
    (here : state.ops[o]? = some op) (compares : op.comparedTarget = some target) : Outside target := by
  cases op with
  | upload request phase =>
      cases phase with
      | verify s x index way =>
          cases compares
          obtain ⟨session, at_, _⟩ := base.locked o _ s here rfl
          exact (base.sound s session at_).record.targets _ _ (base.facts o _ here s session rfl at_).2.2.2
      | _ => cases compares
  | _ => cases compares

-- The hard_link of a version 2 upload tries a name that a version 1 upload in
-- flight has created: it fails with AlreadyExists, and the recovery compares a
-- file that is still being written.
def meetsUnfinished (receiver : Receiver) : ReceiverLabel → Bool
  | .durable (.advance o _) =>
      match receiver.durable.ops[o]? with
      | some (.upload _ (.link _ _ _ target)) => receiver.ops.any (LegacyOp.writesTo target)
      | _ => false
  | _ => false

def Recovering (receiver : Receiver) : Prop :=
  ∀ (o : Nat) (op : Op) (target : Path), receiver.durable.ops[o]? = some op →
    op.comparedTarget = some target → Unclaimed target receiver

theorem recovering_step (sha256 : Bytes → String) (receiver next : Receiver) (label : ReceiverLabel)
    (coexisting : Coexisting sha256 receiver) (recovering : Recovering receiver)
    (clear : meetsUnfinished receiver label = false)
    (stepped : receiverStep sha256 receiver label = some next) : Recovering next := by
  have base := coexisting.kempt.base
  have stays : ∀ (o : Nat) (op : Op) (target : Path), receiver.durable.ops[o]? = some op →
    op.comparedTarget = some target →
      Unclaimed target next := by
    intro o op target here compares
    exact unclaimed_step sha256 receiver next label coexisting stepped target
      (compared_outside receiver.durable base o op target here compares)
      (recovering o op target here compares)
  intro o q target now compares
  rcases receiver_step_cases sha256 receiver next label stepped with
    ⟨inner, after, rfl, _, _, made, rfl⟩ | ⟨after, rfl, made, rfl⟩ | ⟨inner, after, rfl, _, _, made, rfl⟩ |
      ⟨_, _, rfl, _, _, rfl⟩
  · rcases step_cases sha256 receiver.durable after inner made with ⟨call, rfl, _, rfl⟩ |
      ⟨p, fault, op, act, log, op', rfl, here, moved, rfl⟩ | ⟨_, _, rfl⟩ | ⟨store, _, stopped, _, rfl⟩
    · rcases Transition.append_cases receiver.durable.ops o call.op q now with before | rfl
      · exact stays o q target before compares
      · cases call <;> cases compares
    · rcases Transition.set_cases receiver.durable.ops p o op' q now with ⟨rfl, rfl⟩ | ⟨_, before⟩
      · cases moved with
        | upload request phase next act log moved =>
            cases moved with
            | taken s session x index way inode node at_ source present =>
                obtain rfl : way = target := by simpa [Op.comparedTarget] using compares
                have outside : Outside way :=
                  (base.sound s session at_).record.targets _ _ (base.facts o _ here s session rfl at_).2.2.2
                refine unclaimed_step sha256 receiver _ _ coexisting stepped way outside
                  ⟨by simp [present], ?_⟩
                intro p op inode there dest
                have writes : receiver.ops.any (LegacyOp.writesTo way) = true :=
                  List.any_eq_true.mpr ⟨op, List.mem_of_getElem? there, by simp [LegacyOp.writesTo, dest]⟩
                simp [meetsUnfinished, here, writes] at clear
            | _ => cases compares
        | _ => cases compares
      · exact stays o q target before compares
    · cases now
    · have idle : receiver.durable.ops = [] := (base.stopped stopped).1
      have started : receiver.durable.ops[o]? = some q := now
      rw [idle] at started
      cases started
  · rcases step_cases sha256 receiver.durable after .crash made with ⟨_, same, _⟩ |
      ⟨_, _, _, _, _, _, same, _⟩ | ⟨_, _, rfl⟩ | ⟨_, same, _⟩
    · cases same
    · cases same
    · cases now
    · cases same
  · exact stays o q target now compares
  · exact stays o q target now compares

theorem recovering_adopts_nothing (sha256 : Bytes → String) (receiver : Receiver)
    (recovering : Recovering receiver) (label : ReceiverLabel) :
    adoptsUnfinished sha256 receiver label = false := by
  unfold adoptsUnfinished
  split
  · rename_i o fault
    split
    · rename_i request s x index target here
      have unwritten : receiver.ops.any (LegacyOp.writesTo target) = false := by
        simp only [List.any_eq_false]
        intro op member writes
        obtain ⟨p, there⟩ := List.getElem?_of_mem member
        simp only [LegacyOp.writesTo, Option.any_eq_true, decide_eq_true_eq] at writes
        obtain ⟨⟨path, inode⟩, dest, rfl⟩ := writes
        exact (recovering o _ path here rfl).2 p op inode there dest
      rw [unwritten, Bool.and_false]
    · rfl
  · rfl

-- What version 2 has recorded as published has the declared size and digest, and
-- keeps its bytes whatever both protocols do.
def DeliveriesKept (sha256 : Bytes → String) (middle final : Receiver) : Prop :=
  ∀ record, Listed middle.durable.store record → ∀ file path, record.published.lookup file = some path →
    ∃ declared bytes, declared ∈ record.manifest.request.files ∧ declared.id = file ∧
      bytes.length = declared.size ∧
      record.manifest.sha256.lookup file = some (sha256 bytes) ∧
        middle.durable.store.disk.read path = some bytes ∧
      final.durable.store.disk.read path = some bytes

structure Unspoiled (sha256 : Bytes → String) (middle final : Receiver) : Prop where
  kept : DeliveriesKept sha256 middle final
  unadopted : ∀ label, adoptsUnfinished sha256 final label = false

def passesUnfinished (receiver : Receiver) (label : ReceiverLabel) : Bool :=
  !meetsUnfinished receiver label && durableOrderly receiver label

def adoptsFinished (sha256 : Bytes → String) (receiver : Receiver) (label : ReceiverLabel) : Bool :=
  !adoptsUnfinished sha256 receiver label && durableOrderly receiver label

theorem coexisting_run (sha256 : Bytes → String) (start final : Receiver)
    (coexisting : Coexisting sha256 start)
    (run : Transition.Run (receiverStep sha256)
      (fun receiver label => adoptsFinished sha256 receiver label = true) start final) :
    Coexisting sha256 final := by
  refine Transition.run_invariant (receiverStep sha256) _ (Coexisting sha256) ?_ start final run coexisting
  intro receiver label next coexisting allowed stepped
  simp only [adoptsFinished, Bool.and_eq_true, Bool.not_eq_true'] at allowed
  exact coexisting_step sha256 receiver next label coexisting allowed.1 allowed.2 stepped

-- For the published bytes alone it is enough that no file is adopted while a
-- version 1 upload has it open.
theorem published_bytes_kept (sha256 : Bytes → String) (start middle final : Receiver)
    (initial : ReceiverInitial start)
    (run : Transition.Run (receiverStep sha256)
      (fun receiver label => adoptsFinished sha256 receiver label = true) start middle)
    (later : Transition.Run (receiverStep sha256)
        (fun receiver label => adoptsFinished sha256 receiver label = true) middle final) :
    DeliveriesKept sha256 middle final := by
  have coexisting := coexisting_run sha256 start middle (initial_coexisting sha256 start initial) run
  intro record listed file path published
  obtain ⟨declared, bytes, member, rfl, read, matching⟩ :=
    listed_delivered sha256 middle.durable coexisting.intact record listed file path published
  obtain ⟨digest, size⟩ := verified_size sha256 record declared bytes matching
  have outside :=
    ((listed_sound middle.durable coexisting.kempt.base record listed).published _ path published).2
  have unclaimed : Unclaimed path middle :=
    ⟨receipt_present sha256 middle coexisting record listed declared.id path published,
      fun o op inode there dest => coexisting.receipts o op path inode there dest record listed declared.id
      published⟩
  have still := Transition.run_invariant (receiverStep sha256) _
    (fun receiver => Coexisting sha256 receiver ∧ Unclaimed path receiver ∧
      receiver.durable.store.disk.read path = some bytes) ?_
    middle final later ⟨coexisting, unclaimed, read⟩
  · exact ⟨declared, bytes, member, rfl, size, digest, read, still.2.2⟩
  · rintro receiver label next ⟨coexisting, unclaimed, read⟩ allowed stepped
    exact ⟨coexisting_run sha256 receiver next coexisting (.tail receiver next label .refl allowed stepped),
      unclaimed_step sha256 receiver next label coexisting stepped path outside unclaimed,
      unclaimed_read_step sha256 receiver next label coexisting stepped path bytes outside unclaimed read⟩

-- A name that no version 1 upload has open when it is found taken is adopted by
-- none.
theorem recovering_kept (sha256 : Bytes → String) (receiver : Receiver) (label : ReceiverLabel)
    (next : Receiver) (before : Coexisting sha256 receiver ∧ Recovering receiver)
    (allowed : passesUnfinished receiver label = true)
    (stepped : receiverStep sha256 receiver label = some next) :
    (Coexisting sha256 next ∧ Recovering next) ∧ adoptsFinished sha256 receiver label = true := by
  obtain ⟨coexisting, recovering⟩ := before
  simp only [passesUnfinished, Bool.and_eq_true, Bool.not_eq_true'] at allowed
  have nothing := recovering_adopts_nothing sha256 receiver recovering label
  exact ⟨⟨coexisting_step sha256 receiver next label coexisting nothing allowed.2 stepped,
    recovering_step sha256 receiver next label coexisting recovering allowed.1 stepped⟩,
    by simp [adoptsFinished, nothing, allowed.2]⟩

theorem initial_recovering (receiver : Receiver) (initial : ReceiverInitial receiver) :
    Recovering receiver := by
  intro o op target here
  rw [initial.durable.idle] at here
  cases here

theorem deliveries_survive_version1 (sha256 : Bytes → String) (start middle final : Receiver)
    (initial : ReceiverInitial start)
    (run : Transition.Run (receiverStep sha256)
      (fun receiver label => passesUnfinished receiver label = true) start middle)
    (later : Transition.Run (receiverStep sha256)
      (fun receiver label => passesUnfinished receiver label = true) middle final) :
    Unspoiled sha256 middle final := by
  have strengthened :=
    Transition.run_strengthened (receiverStep sha256)
      (fun receiver label => passesUnfinished receiver label = true)
    (fun receiver label => adoptsFinished sha256 receiver label = true)
      (fun receiver => Coexisting sha256 receiver ∧ Recovering receiver)
    (recovering_kept sha256)
  obtain ⟨good, run⟩ :=
    strengthened start middle run ⟨initial_coexisting sha256 start initial, initial_recovering start initial⟩
  obtain ⟨⟨_, recovering⟩, later⟩ := strengthened middle final later good
  exact ⟨published_bytes_kept sha256 start middle final initial run later,
    recovering_adopts_nothing sha256 final recovering⟩

-- A version 1 offer of a file of one byte under the name of the small file.
def wideOffer : Offer :=
    { smallOffer true with request := ⟨offerId, none, [{ offerFile with size := 1 }], 1⟩ }

def openUpload : List ReceiverLabel :=
  legacies (.call (.request wideOffer) :: legacyAdvances 0 14 ++ .call (.chunk smallChunk) ::
    legacyAdvances 1 10)

def deliverSmall (steps : Nat) : List ReceiverLabel :=
  durables (.call (.register (smallRegister true)) :: advances 0 2) ++ .peek 0 ::
    durables (advances 0 5 ++ .call (.upload smallUpload) :: advances 1 steps)

def growUpload : List ReceiverLabel := legacies [.advance 1 { calm with body := .chunk [1] }]

-- The small file has been delivered: a version 1 upload of the same name writes
-- another file.
theorem delivery_survives_a_version1_upload : ∃ middle final,
    Transition.Run (receiverStep emptyHash)
    (fun receiver label => passesUnfinished receiver label = true) emptyReceiver middle ∧
      Transition.Run (receiverStep emptyHash)
      (fun receiver label => passesUnfinished receiver label = true) middle final ∧
        middle.durable.store.disk.read ["a"] = some [] ∧ final.durable.store.disk.read ["a"] = some [] ∧
          final.durable.store.disk.read ["a (1)"] = some [1] := by
  obtain ⟨middle, run, checked⟩ := Transition.replay_reaches (receiverStep emptyHash)
    (fun receiver label => passesUnfinished receiver label = true) (durables [.start] ++ deliverSmall 14)
    emptyReceiver
    (fun middle => publishedSmall 0 [] middle.durable && (Transition.replay (receiverStep emptyHash)
      (fun receiver label => passesUnfinished receiver label = true) middle
        (openUpload ++ legacies (legacyAdvances 1 1) ++ growUpload)).any fun final =>
        final.durable.store.disk.read ["a (1)"] == some [1])
    (by decide +kernel)
  rw [Bool.and_eq_true] at checked
  obtain ⟨final, later, written⟩ := Transition.replay_reaches (receiverStep emptyHash)
    (fun receiver label => passesUnfinished receiver label = true) _ middle _ checked.2
  obtain ⟨session, at_, published, read⟩ := published_small_sound 0 [] middle.durable checked.1
  have unspoiled :=
    deliveries_survive_version1 emptyHash emptyReceiver middle final empty_receiver_initial run later
  obtain ⟨_, bytes, _, _, _, _, before, after⟩ :=
    unspoiled.kept session.record (.inl ⟨0, session, at_, rfl⟩) smallFile.id ["a"] published
  obtain rfl := Option.some.inj (read.symm.trans before)
  exact ⟨middle, final, run, later, read, after, beq_iff_eq.mp written⟩

-- A version 1 upload has created its file and received nothing, the version 2
-- upload of an empty file takes it for its own, and then the body arrives.
theorem version1_upload_spoils_a_delivery : ¬ ∀ (sha256 : Bytes → String) (start middle final : Receiver),
    ReceiverInitial start →
    Transition.Run (receiverStep sha256)
    (fun receiver label => durableOrderly receiver label = true) start middle →
    Transition.Run (receiverStep sha256)
    (fun receiver label => durableOrderly receiver label = true) middle final →
    Unspoiled sha256 middle final := by
  intro always
  obtain ⟨middle, run, checked⟩ := Transition.replay_reaches (receiverStep emptyHash)
    (fun receiver label => durableOrderly receiver label = true) (durables [.start] ++ openUpload ++
    deliverSmall 15) emptyReceiver
    (fun middle => publishedSmall 0 [] middle.durable && (Transition.replay (receiverStep emptyHash)
      (fun receiver label => durableOrderly receiver label = true) middle growUpload).any fun final =>
        final.durable.store.disk.read ["a"] == some [1]) (by decide +kernel)
  rw [Bool.and_eq_true] at checked
  obtain ⟨final, later, written⟩ := Transition.replay_reaches (receiverStep emptyHash)
    (fun receiver label => durableOrderly receiver label = true) growUpload middle _ checked.2
  obtain ⟨session, at_, published, read⟩ := published_small_sound 0 [] middle.durable checked.1
  have unspoiled := always emptyHash emptyReceiver middle final empty_receiver_initial run later
  obtain ⟨_, bytes, _, _, _, _, before, after⟩ :=
    unspoiled.kept session.record (.inl ⟨0, session, at_, rfl⟩) smallFile.id ["a"] published
  obtain rfl := Option.some.inj (read.symm.trans before)
  rw [beq_iff_eq.mp written] at after
  cases after

end GoshTransfer
