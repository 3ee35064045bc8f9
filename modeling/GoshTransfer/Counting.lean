import GoshTransfer.Tally

set_option autoImplicit false

namespace GoshTransfer

open InodeStore

-- The phases that report progress or lead to a report.
def UploadPhase.counts : UploadPhase → Option Incoming
  | .receive _ x _ | .syncAll _ x | .hash _ x | .recheck _ x | .prepare _ x | .choose _ x _ |
      .link _ x _ _ | .verify _ x _ _
  | .syncParent _ x _ | .commit _ x _ | .finish _ x | .discard _ x | .announce _ x => some x
  | _ => none

def UploadPhase.whole : UploadPhase → Option Incoming
  | .hash _ x | .recheck _ x | .prepare _ x | .choose _ x _ | .link _ x _ _ | .verify _ x _ _ |
      .syncParent _ x _ | .commit _ x _ => some x
  | _ => none

-- The snapshot taken at the start of a call still accounts for every byte, until
-- a write fails unseen.
structure Counted (disk : ReceiverDisk) (id : String) (record : Record) (x : Incoming) : Prop where
  balance : x.lastWriteErr = none → x.baseline + x.offset = x.current + received disk id record
  within : Within disk id record

-- A receipt that a failed commit has left in memory only is backed by a full partial.
def Backed (disk : ReceiverDisk) (id : String) (record journal : Record) : Prop :=
  ∀ file ∈ record.manifest.request.files, (record.published.lookup file.id).isSome = true →
    journal.published.lookup file.id = none →
    (partialBytes disk id file.id).length = file.size

structure Reckoned (state : State) : Prop where
  tallied : TalliedStore state.store
  opening : ∀ (o : Nat) (request : UploadRequest) (s : Nat) (file : TransferFile) (baseline current : Nat)
    (session : Session),
    state.ops[o]? = some (.upload request (.openPart s file baseline current)) →
      state.store.heap[s]? = some session →
      baseline = received state.store.disk session.id session.record ∧
        Within state.store.disk session.id session.record
  counted : ∀ (o : Nat) (request : UploadRequest) (phase : UploadPhase) (x : Incoming) (s : Nat) (session :
    Session),
    state.ops[o]? = some (.upload request phase) → phase.counts = some x → phase.holds = some s →
      state.store.heap[s]? = some session →
      Counted state.store.disk session.id session.record x
  whole : ∀ (o : Nat) (request : UploadRequest) (phase : UploadPhase) (x : Incoming),
    state.ops[o]? = some (.upload request phase) →
    phase.whole = some x → x.offset = x.file.size
  sealed : ∀ (o : Nat) (request : UploadRequest) (phase : UploadPhase) (s : Nat) (session : Session),
    state.ops[o]? = some (.upload request phase) → phase.announcing = some s →
      state.store.heap[s]? = some session →
      state.store.disk.doc (journalPath session.id) = some session.record
  backed : ∀ (s : Nat) (session : Session) (journal : Record), state.store.heap[s]? = some session →
    state.store.sessions.lookup session.id = some s → session.record.complete = false →
      session.record.cancelled = false →
      state.store.disk.doc (journalPath session.id) = some journal →
        Backed state.store.disk session.id session.record journal

theorem counts_works (phase : UploadPhase) (x : Incoming) (s : Nat) (counts : phase.counts = some x)
    (held : phase.holds = some s) :
    phase.works = some s ∧ phase.file = some x.file := by
  cases phase <;> first | (cases counts; exact ⟨held, rfl⟩) | cases counts

theorem announcing_works (phase : UploadPhase) (s : Nat) (announcing : phase.announcing = some s) :
    phase.works = some s ∧ phase.holds = some s := by
  cases phase <;> first | exact ⟨announcing, announcing⟩ | cases announcing

theorem file_facts (request : UploadRequest) (record : Record) (phase : UploadPhase) (file : TransferFile)
    (s : Nat) (works : phase.file = some file) (held : phase.holds = some s)
    (facts : phase.Facts request record) :
    Working record file ∨ phase.announcing = some s := by
  cases phase <;> first | (cases works; exact .inl facts.1) | exact .inr held | cases works

theorem counted_same (disk disk' : ReceiverDisk) (id : String) (record record' : Record) (x : Incoming)
    (manifest : record'.manifest = record.manifest)
    (each : ∀ file ∈ record.manifest.request.files, stored disk' id record' file = stored disk id record file)
    (counted : Counted disk id record x) : Counted disk' id record' x := by
  refine ⟨?_, within_same disk disk' id record record' manifest each counted.within⟩
  rw [received_same disk disk' id record record' manifest each]
  exact counted.balance

theorem moved_receipts (sha256 : Bytes → String) (store : Store) (fault : Option Fault) (op op' : Op)
    (act : Act) (log : List Entry) (moved : OpMove sha256 store fault op act log op') (o s : Nat)
    (session : Session) (at_ : store.heap[s]? = some session) :
    (act.on o s session).record.published = session.record.published ∨
      ∃ request x target saved, op = .upload request (.commit s x target) ∧
        act = .persist s (receiptRecord session.record x.file target) saved ∧
        (act.on o s session).record = receiptRecord session.record x.file target := by
  rcases on_record_writes act o s session with ⟨record, writes, on⟩ | ⟨_, kept⟩
  · obtain ⟨session', at', write⟩ := moved_write sha256 store fault op op' act log s record moved writes
    obtain rfl := Option.some.inj (at_.symm.trans at')
    rw [on]
    cases write with
    | receipt request x target saved struck => exact .inr ⟨request, x, target, saved, rfl, rfl, rfl⟩
    | _ => exact .inl rfl
  · rw [kept]
    exact .inl rfl

section Own

variable (sha256 : Bytes → String) (state : State) (inv : Guarded state) (o : Nat) (fault : Option Fault)
    (request : UploadRequest)
variable (phase next : UploadPhase) (act : Act) (log : List Entry)
    (here : state.ops[o]? = some (.upload request phase))
variable (moved : UploadMove sha256 request state.store fault phase act log next) (s : Nat)
    (session : Session)
variable (held : phase.holds = some s) (at_ : state.store.heap[s]? = some session)
include inv here moved at_

theorem own_part_spared (noOpen : ∀ path, act ≠ .openPart path) (noRemove : ∀ path, act ≠ .remove path)
    (noAppend : ∀ inode bytes, act ≠ .append inode bytes) (file : String) :
    partialBytes (state.store.apply o act).disk session.id file = partialBytes state.store.disk session.id
      file := by
  refine partial_bytes_kept _ _ inv.parted.allocated session.id file ?_ ?_
  · exact partial_spared sha256 state inv.base o fault _ _ act log here (.upload _ _ _ _ _ moved) s session
      file at_ noOpen noRemove
  · intro inode bytes _ stored_
    exact inode_kept state.store o act inode bytes stored_ fun more appends => absurd appends
      (noAppend inode more)

include held

theorem own_part_confined (file : TransferFile) (works : phase.file = some file) (other : String)
    (different : other ≠ file.id) :
    partialBytes (state.store.apply o act).disk session.id other = partialBytes state.store.disk session.id
      other := by
  have confined :=
    upload_confined sha256 state inv.base inv.parted inv.admitted o fault request phase next act log here
      moved file s session
    works held at_
  unfold partialBytes
  rw [(confined session.id other (session_id_canonical session (inv.base.sound s session at_)) fun same =>
    different same.2).2]

end Own

section Count

variable (sha256 : Bytes → String) (state : State) (inv : Guarded state) (reckoned : Reckoned state)
    (o : Nat) (fault : Option Fault)
variable (request : UploadRequest) (phase next : UploadPhase) (act : Act) (log : List Entry)
variable (here : state.ops[o]? = some (.upload request phase))
    (moved : UploadMove sha256 request state.store fault phase act log next)
variable (s : Nat) (session : Session) (at_ : state.store.heap[s]? = some session)
include inv here moved at_

omit inv here in
theorem own_manifest : (act.on o s session).record.manifest = session.record.manifest :=
  (upload_record_kept sha256 state o fault _ _ act log (.upload _ _ _ _ _ moved) request phase rfl s session
    at_).1.1.symm

omit here moved in
theorem own_file_unique (x file : TransferFile) (member : file ∈ session.record.manifest.request.files)
    (listed : x ∈ session.record.manifest.request.files) (named : file.id = x.id) : file = x :=
  valid_file_unique _ (inv.base.sound s session at_).record.valid file x member listed named

theorem stored_appended (x : Incoming) (chunk bytes : Bytes) (rest : List Bytes)
    (isPhase : phase = .receive s x (chunk :: rest)) (isAct : act = .append x.fd bytes) :
    ∃ length, x.Filled length ∧ stored state.store.disk session.id session.record x.file = length ∧
      stored (state.store.apply o act).disk session.id session.record x.file = length + bytes.length ∧
      (∀ file ∈ session.record.manifest.request.files, file ≠ x.file →
        stored (state.store.apply o act).disk session.id session.record file = stored state.store.disk
          session.id session.record file) ∧
      received (state.store.apply o act).disk session.id session.record =
        received state.store.disk session.id session.record + bytes.length := by
  subst isPhase
  have working := (inv.base.facts o _ here s session rfl at_).1
  obtain ⟨_, content, _, node, held, filled, _⟩ :=
    inv.admitted.incoming o request _ x (chunk :: rest) s session here rfl rfl at_
  have before : partialBytes state.store.disk session.id x.file.id = content := by
    simp [partialBytes, (read_eq_some _ _ _).mpr ⟨x.fd, node, held⟩]
  have after : partialBytes (state.store.apply o act).disk session.id x.file.id = content ++ bytes := by
    subst isAct
    have grown_ := inode_append state.store.disk x.fd x.fd bytes content held
    rw [if_pos rfl] at grown_
    simp [partialBytes, Store.apply, (read_eq_some _ _ _).mpr
      ⟨x.fd, (node_append state.store.disk x.fd bytes _).trans node, grown_⟩]
  have mine : stored state.store.disk session.id session.record x.file = content.length := by
    simp [stored, working.missing, before]
  have mine' : stored (state.store.apply o act).disk session.id session.record x.file =
    content.length + bytes.length := by
    simp [stored, working.missing, after]
  have others : ∀ file ∈ session.record.manifest.request.files, file ≠ x.file →
      stored (state.store.apply o act).disk session.id session.record file = stored state.store.disk
      session.id session.record file := by
    intro file member different
    refine stored_same _ _ _ _ _ file rfl fun _ => ?_
    refine own_part_confined sha256 state inv o fault request _ next act log here moved s session rfl at_
      x.file rfl file.id ?_
    exact fun named => different (own_file_unique state inv s session at_ x.file file member working.member
      named)
  have sum := sum_changed _ _ _ x.file (valid_files_nodup _ (inv.base.sound s session at_).record.valid)
    working.member others
  rw [mine, mine'] at sum
  refine ⟨content.length, filled, mine, mine', others, ?_⟩
  unfold received
  omega

theorem within_appended (x : Incoming) (chunk bytes : Bytes) (rest : List Bytes)
    (isPhase : phase = .receive s x (chunk :: rest)) (isAct : act = .append x.fd bytes)
    (part : bytes.length ≤ chunk.length) (fits : chunk.length ≤ x.file.size - x.offset)
    (within : Within state.store.disk session.id session.record) :
    Within (state.store.apply o act).disk session.id session.record := by
  obtain ⟨length, filled, mine, mine', others, _⟩ :=
    stored_appended sha256 state inv o fault request phase next act log here moved s session at_ x chunk
      bytes rest isPhase isAct
  have bound := filled.1
  intro file member
  by_cases same : file = x.file
  · subst same
    have below := within x.file member
    rw [mine] at below
    rw [mine']
    omega
  · rw [others file member same]
    exact within file member

theorem counted_appended (x : Incoming) (chunk : Bytes) (rest : List Bytes)
    (isPhase : phase = .receive s x (chunk :: rest)) (isAct : act = .append x.fd chunk)
    (fits : chunk.length ≤ x.file.size - x.offset)
    (counted : Counted state.store.disk session.id session.record x) :
    Counted (state.store.apply o act).disk session.id session.record
    (grown s request session.record x chunk) := by
  obtain ⟨_, _, _, _, _, sum⟩ :=
    stored_appended sha256 state inv o fault request phase next act log here moved s session at_ x chunk
      chunk rest isPhase isAct
  refine ⟨fun clear => ?_, within_appended sha256 state inv o fault request phase next act log here moved s
    session at_ x chunk chunk rest isPhase isAct le_rfl fits counted.within⟩
  have balance := counted.balance clear
  show x.baseline + (x.offset + chunk.length) = x.current + received _ _ _
  rw [sum]
  omega

theorem counted_spared (x : Incoming) (noOpen : ∀ path, act ≠ .openPart path)
    (noRemove : ∀ path, act ≠ .remove path) (noAppend : ∀ inode bytes, act ≠ .append inode bytes)
    (noCommit : ∀ x target, phase ≠ .commit s x target)
    (counted : Counted state.store.disk session.id session.record x) :
    Counted (state.store.apply o act).disk session.id (act.on o s session).record x := by
  have parts := own_part_spared sha256 state inv o fault request phase next act log here moved s session at_
    noOpen noRemove noAppend
  refine counted_same _ _ _ _ _ x
    (own_manifest sha256 state o fault request phase next act log moved s session at_) ?_ counted
  intro file member
  rcases moved_receipts sha256 state.store fault _ _ act log (.upload _ _ _ _ _ moved) o s session at_ with
    same | ⟨_, y, target, _, commits, _⟩
  · exact stored_same _ _ _ _ _ file (by rw [same]) fun _ => parts file.id
  · exact absurd (Op.upload.inj commits).2 (noCommit y target)

theorem created_empty (file : TransferFile) (baseline current : Nat)
    (isPhase : phase = .openPart s file baseline current)
    (isAct : act = .openPart (partPath session.id file.id))
    (absent : state.store.disk.node (partPath session.id file.id) = none) (other : String) :
    partialBytes (state.store.apply o act).disk session.id other = partialBytes state.store.disk session.id
      other := by
  by_cases same : other = file.id
  · subst same isAct
    have before : state.store.disk.read (partPath session.id file.id) = none := by simp [Disk.read, absent]
    have after : (state.store.disk.create (partPath session.id file.id)).read
      (partPath session.id file.id) = some [] :=
      (read_eq_some _ _ _).mpr ⟨state.store.disk.inodes.length, (node_create _ _ _).trans (if_pos rfl),
      by simp [Disk.create]⟩
    simp [partialBytes, Store.apply, before, after]
  · subst isPhase
    exact own_part_confined sha256 state inv o fault request _ next act log here moved s session rfl at_
      file rfl other same

include reckoned

theorem committed_stored (x : Incoming) (target : Path) (isPhase : phase = .commit s x target) (saved : Bool)
    (isAct : act = .persist s (receiptRecord session.record x.file target) saved) :
    ∀ file ∈ session.record.manifest.request.files,
      stored (state.store.apply o act).disk session.id (receiptRecord session.record x.file target) file =
        stored state.store.disk session.id session.record file := by
  have parts := own_part_spared sha256 state inv o fault request phase next act log here moved s session at_
    (by simp [isAct]) (by simp [isAct]) (by simp [isAct])
  subst isPhase
  have working := (inv.base.facts o _ here s session rfl at_).1
  obtain ⟨_, bytes, _, node, content, filled, _⟩ :=
    inv.admitted.incoming o request _ x [] s session here rfl rfl at_
  have length := filled.2.mpr (inv.admitted.clear o request _ here)
  have whole := reckoned.whole o request _ x here rfl
  intro file member
  by_cases named : file.id = x.file.id
  · obtain rfl := own_file_unique state inv s session at_ x.file file member working.member named
    have before : (partialBytes state.store.disk session.id x.file.id).length = x.offset := by
      simp [partialBytes, (read_eq_some _ _ _).mpr ⟨x.fd, node, content⟩, length]
    simp [stored, receipt_lookup, working.missing, before, whole]
  · refine stored_same _ _ _ _ _ file ?_ fun _ => parts file.id
    rw [receipt_lookup, if_neg named]

omit reckoned in
theorem counted_discarded (x : Incoming) (isPhase : phase = .discard s x)
    (kept : (act.on o s session).record = session.record)
    (counted : Counted state.store.disk session.id session.record x) :
    Counted (state.store.apply o act).disk session.id (act.on o s session).record x := by
  subst isPhase
  have published := (inv.base.facts o _ here s session rfl at_).1
  rw [kept]
  refine counted_same _ _ _ _ _ x rfl ?_ counted
  intro file _
  refine stored_same _ _ _ _ _ file rfl fun missing => ?_
  refine own_part_confined sha256 state inv o fault request _ next act log here moved s session rfl at_
    x.file rfl file.id ?_
  intro named
  rw [← named, missing] at published
  cases published

theorem counted_own (x : Incoming) (counts : next.counts = some x) (later : next.holds = some s) :
    Counted (state.store.apply o act).disk session.id (act.on o s session).record x := by
  have before : ∀ y, phase.counts = some y → phase.holds = some s →
    Counted state.store.disk session.id session.record y :=
    fun y earlier holding => reckoned.counted o request phase y s session here earlier holding at_
  have spared := counted_spared sha256 state inv o fault request phase next act log here moved s session at_ x
  cases moved with
  | created t session' file baseline current there absent =>
      obtain rfl := Option.some.inj counts
      obtain rfl := Option.some.inj later
      obtain rfl := Option.some.inj (at_.symm.trans there)
      obtain ⟨rfl, within⟩ := reckoned.opening o request _ file baseline current session here at_
      have empty := created_empty sha256 state inv o fault request _ _ _ _ here
        (.created _ session file _ current there absent) _ session at_ file
        _ current rfl rfl absent
      refine counted_same _ _ _ session.record _ _ rfl ?_ ⟨fun _ => Nat.add_comm _ _, within⟩
      exact fun other _ => stored_same _ _ _ _ _ other rfl fun _ => empty other.id
  | reopened t session' file baseline current inode there present =>
      obtain rfl := Option.some.inj counts
      obtain rfl := Option.some.inj later
      obtain ⟨rfl, within⟩ := reckoned.opening o request _ file baseline current session here at_
      exact ⟨fun _ => Nat.add_comm _ _, within⟩
  | appended t session' y chunk rest there fits clear =>
      obtain rfl := Option.some.inj counts
      obtain rfl := Option.some.inj later
      obtain rfl := Option.some.inj (at_.symm.trans there)
      exact counted_appended sha256 state inv o fault request _ _ _ _ here
        (.appended _ session y chunk rest there fits clear) _ session at_ y chunk rest rfl rfl fits
        (before y rfl rfl)
  | unseen t session' y chunk rest written there fits clear short failed last =>
      obtain rfl := Option.some.inj counts
      obtain rfl := Option.some.inj later
      obtain rfl := Option.some.inj (at_.symm.trans there)
      refine ⟨fun clear => absurd clear (by simp [spoiled]), ?_⟩
      exact within_appended sha256 state inv o fault request _ _ _ _ here
        (.unseen _ session y chunk rest written there fits clear short failed last) _ session at_ y chunk _
        rest rfl rfl
        (List.length_take_le' _ _) fits (before y rfl rfl).within
  | committed t session' y target there ok =>
      obtain rfl := Option.some.inj counts
      obtain rfl := Option.some.inj later
      obtain rfl := Option.some.inj (at_.symm.trans there)
      have each := committed_stored sha256 state inv reckoned o fault request _ _ _ _ here
        (.committed _ session y target there ok) _ session at_ y target rfl true rfl
      have written :=
        counted_same _ _ _ session.record (receiptRecord session.record y.file target) y rfl each
          (before y rfl rfl)
      simpa [Act.on] using written
  | discarded t session' y there =>
      obtain rfl := Option.some.inj counts
      obtain rfl := Option.some.inj later
      exact counted_discarded sha256 state inv o fault request _ _ _ _ here (.discarded _ session' y there)
        _ session at_ y rfl (quiet_record _ _ _ _ (by simp)) (before y rfl rfl)
  | _ => first | exact spared (by simp) (by simp) (by simp) (by simp) (before x counts later) | cases counts

end Count

section Advance

variable (sha256 : Bytes → String) (state : State) (inv : Guarded state) (reckoned : Reckoned state)
    (o : Nat) (fault : Option Fault)
variable (op op' : Op) (act : Act) (log : List Entry) (here : state.ops[o]? = some op)
variable (fresh : staleFree state (.advance o fault) = true)
    (moved : OpMove sha256 state.store fault op act log op')
include inv here fresh moved

theorem stored_guarded (p : Nat) (request : UploadRequest) (phase : UploadPhase) (s : Nat)
    (session : Session) (other : p ≠ o) (there : state.ops[p]? = some (.upload request phase))
    (working : phase.works = some s) (at_ : state.store.heap[s]? = some session) (file : TransferFile) :
    stored (state.store.apply o act).disk session.id session.record file = stored state.store.disk
      session.id session.record file := by
  obtain ⟨nodes, contents⟩ :=
    partials_guarded sha256 state inv.base inv.owned inv.parted inv.admitted o fault op op' act log here
      fresh moved
    p request phase s session other there working at_
  exact stored_same _ _ _ _ _ file rfl fun _ =>
    partial_bytes_kept _ _ inv.parted.allocated session.id file.id (nodes file.id) (contents file.id)

include reckoned

theorem opening_advance : ∀ (p : Nat) (request : UploadRequest) (s : Nat) (file : TransferFile)
    (baseline current : Nat) (session : Session),
    (state.ops.set o op')[p]? = some (.upload request (.openPart s file baseline current)) →
    (state.store.apply o act).heap[s]? = some session →
      baseline = received (state.store.apply o act).disk session.id session.record ∧
        Within (state.store.apply o act).disk session.id session.record := by
  intro p request s file baseline current session' there after
  rcases Transition.set_cases state.ops o p op' _ there with ⟨rfl, rfl⟩ | ⟨other, before⟩
  · obtain ⟨session, at_, rfl⟩ :=
      held_origin sha256 state.store p fault op _ act log moved s session' rfl after
    cases moved with
    | upload _ earlier _ _ _ step_ =>
        cases step_ with
        | checked _ session' _ points point at' read found offset =>
            obtain rfl := Option.some.inj (at_.symm.trans at')
            exact checkpoints_received state.store.disk session.id session.record fault points read
  · obtain ⟨session, at_, same⟩ :=
      (others_framed sha256 state inv.base o fault op op' act log here moved p _ other before).record s
        session' rfl after
    obtain rfl := Option.some.inj (after.symm.trans (apply_heap state.store o act s session at_))
    obtain ⟨baseline_, within⟩ := reckoned.opening p request s file baseline current session before at_
    have each := stored_guarded sha256 state inv o fault op op' act log here fresh moved p request _ s
      session other before rfl at_
    rw [on_id, same]
    exact ⟨baseline_.trans (received_same _ _ _ _ _ rfl fun other _ => each other).symm,
      within_same _ _ _ _ _ rfl (fun other _ => each other) within⟩

theorem counted_advance : ∀ (p : Nat) (request : UploadRequest) (phase : UploadPhase) (x : Incoming)
    (s : Nat) (session : Session),
    (state.ops.set o op')[p]? = some (.upload request phase) → phase.counts = some x → phase.holds = some s →
      (state.store.apply o act).heap[s]? = some session →
        Counted (state.store.apply o act).disk session.id session.record x := by
  intro p request phase x s session' there counts held after
  rcases Transition.set_cases state.ops o p op' _ there with ⟨rfl, rfl⟩ | ⟨other, before⟩
  · obtain ⟨session, at_, rfl⟩ :=
      held_origin sha256 state.store p fault op _ act log moved s session' held after
    rw [on_id]
    cases moved with
    | upload _ earlier _ _ _ step_ =>
        exact counted_own sha256 state inv reckoned p fault request earlier phase act log here step_ s
          session at_ x counts held
  · obtain ⟨session, at_, same⟩ :=
      (others_framed sha256 state inv.base o fault op op' act log here moved p _ other before).record s
        session' held after
    obtain rfl := Option.some.inj (after.symm.trans (apply_heap state.store o act s session at_))
    have working := (counts_works phase x s counts held).1
    rw [on_id, same]
    exact counted_same _ _ _ _ _ x rfl
      (fun file _ => stored_guarded sha256 state inv o fault op op' act log here fresh moved p request phase
      s session other before working at_ file)
      (reckoned.counted p request phase x s session before counts held at_)

omit inv fresh in
theorem whole_advance : ∀ (p : Nat) (request : UploadRequest) (phase : UploadPhase) (x : Incoming),
    (state.ops.set o op')[p]? = some (.upload request phase) → phase.whole = some x →
      x.offset = x.file.size := by
  intro p request phase x there whole
  rcases Transition.set_cases state.ops o p op' _ there with ⟨rfl, rfl⟩ | ⟨_, before⟩
  · cases moved with
    | upload _ earlier _ _ _ step_ =>
        have kept := reckoned.whole p request earlier x here
        cases step_ with
        | synced s y full =>
            obtain rfl := Option.some.inj whole
            exact full
        | _ => first | exact kept whole | cases whole
  · exact reckoned.whole p request phase x before whole

theorem sealed_advance : ∀ (p : Nat) (request : UploadRequest) (phase : UploadPhase) (s : Nat)
    (session : Session),
    (state.ops.set o op')[p]? = some (.upload request phase) → phase.announcing = some s →
    (state.store.apply o act).heap[s]? = some session →
      (state.store.apply o act).disk.doc (journalPath session.id) = some session.record := by
  intro p request phase s session' there announcing after
  obtain ⟨working, held⟩ := announcing_works phase s announcing
  rcases Transition.set_cases state.ops o p op' _ there with ⟨rfl, rfl⟩ | ⟨other, before⟩
  · obtain ⟨session, at_, rfl⟩ :=
      held_origin sha256 state.store p fault op _ act log moved s session' held after
    have untouched := journal_untouched sha256 state inv.base p fault op _ act log here moved session.id
    have persisted := persisted_journal sha256 state inv.base p fault op _ act log here moved s session
    have quiet := quiet_record act p s session
    rw [on_id]
    cases moved with
    | upload _ earlier _ _ _ step_ =>
        have sealed := reckoned.sealed p request earlier s session here
        cases step_ with
        | committed t session' x target there' ok =>
            obtain rfl := Option.some.inj announcing
            obtain rfl := Option.some.inj (at_.symm.trans there')
            simpa [Act.on] using persisted _ rfl at_
        | finished t x => rw [untouched (by simp) (by simp) (by simp), quiet rfl, sealed announcing at_]
        | discarded t session' x there' =>
            have kept := remove_act_cases (partPath session'.id x.file.id) fault
            rw [untouched, quiet (by simp), sealed announcing at_]
            · rcases kept with same | same <;> simp [same]
            · rcases kept with same | same <;> simp [same]
            · rcases kept with same | same <;> rw [same]
              · simp
              · exact fun erased => part_ne_journal _ _ _ (Act.remove.inj erased)
        | _ => cases announcing
  · obtain ⟨session, at_, same⟩ :=
      (others_framed sha256 state inv.base o fault op op' act log here moved p _ other before).record s
        session' held after
    obtain rfl := Option.some.inj (after.symm.trans (apply_heap state.store o act s session at_))
    have present := inv.owned.working p _ s session before working at_
    obtain ⟨journal, _⟩ :=
      files_guarded sha256 state inv.base inv.owned o fault op op' act log here fresh moved p _ s other
        before held
      session.id present
    rw [on_id, same, journal]
    exact reckoned.sealed p request phase s session before announcing at_

omit reckoned in
theorem same_object (t s : Nat) (session session' : Session) (mine : op.holds = some t)
    (at' : state.store.heap[t]? = some session') (files : act.files = true)
    (named : session'.id = session.id) (present : state.store.sessions.lookup session.id = some s) :
    t = s := by
  have current :=
    writer_current sha256 state inv.base inv.owned o fault op op' act log here fresh moved files t session'
      mine at'
  rw [named] at current
  exact Option.some.inj (current.symm.trans present)

theorem backing_kept (s : Nat) (session : Session) (journal : Record)
    (at_ : state.store.heap[s]? = some session) (present : state.store.sessions.lookup session.id = some s)
    (open_ : session.record.complete = false) (live : session.record.cancelled = false)
    (written : state.store.disk.doc (journalPath session.id) = some journal) (file : String)
    (receipt : (session.record.published.lookup file).isSome = true)
    (missing : journal.published.lookup file = none) :
    partialBytes (state.store.apply o act).disk session.id file = partialBytes state.store.disk session.id
      file := by
  have sized := session_id_length state inv.base s session at_
  have same := same_object sha256 state inv o fault op op' act log here fresh moved
  -- The file an upload works on has no receipt, or one in the journal too.
  have apart : ∀ request phase declared, op = .upload request phase → phase.file = some declared →
    phase.holds = some s → declared.id ≠ file := by
    rintro request phase declared rfl works held rfl
    have facts := inv.base.facts o _ here s session held at_
    rcases file_facts request session.record phase declared s works held facts with working | announcing
    · rw [working.missing] at receipt
      cases receipt
    · have sealed := reckoned.sealed o request phase s session here announcing at_
      obtain rfl := Option.some.inj (sealed.symm.trans written)
      rw [missing] at receipt
      cases receipt
  refine partial_bytes_kept _ _ inv.parted.allocated session.id file ?_ ?_
  · rcases part_cases sha256 state inv.base o fault op op' act log here moved session.id file sized with
      kept | ⟨request, t, session', declared, baseline, current, rfl, at', named, declares, rfl, _, _, _⟩ |
        ⟨t, session', mine, at', named, rfl, _⟩
    · exact kept
    · obtain rfl := same t s session session' rfl at' rfl named present
      exact absurd declares (apart request _ declared rfl rfl rfl)
    · obtain rfl := same t s session session' mine at' rfl named present
      obtain rfl := Option.some.inj (at_.symm.trans at')
      generalize isAct : Act.remove (partPath session.id file) = act at moved
      cases moved with
      | upload request phase next _ _ step_ =>
          obtain ⟨declared, works, path⟩ :=
            upload_paths sha256 request state.store fault phase next _ log step_ t session mine at_
            (partPath session.id file) (.inr isAct.symm)
          exact absurd (part_path_inj _ _ _ _ rfl path).2.symm (apart request phase declared rfl works mine)
      | cancel caller id phase next _ _ step_ =>
          cases step_ with
          | discarded t' session' other rest bytes there =>
              obtain rfl := Option.some.inj mine
              have cancelled := ((inv.base.facts o _ here) session at_).1
              rw [live] at cancelled
              cases cancelled
          | _ => cases isAct
      | forget id phase next _ _ step_ =>
          cases step_ with
          | discarded t' session' other rest there =>
              obtain rfl := Option.some.inj mine
              have ended := ((inv.base.facts o _ here).2 session at_).1
              obtain ⟨path, published⟩ := Option.isSome_iff_exists.mp receipt
              have accepted :=
                (reckoned.tallied session.record (.inl ⟨_, session, at_, rfl⟩)).earned file path published
              simp [Record.terminal, open_, live, accepted] at ended
          | erased t' there => exact absurd (Act.remove.inj isAct) (part_ne_journal _ _ _)
          | _ => cases isAct
      | register request phase next _ _ step_ => cases step_ <;> cases isAct
      | accept id phase next _ _ step_ => cases step_ <;> cases isAct
      | reject id phase next _ _ step_ => cases step_ <;> cases isAct
      | status peer id phase next _ _ step_ => cases step_ <;> cases isAct
  · intro inode bytes node stored_
    refine inode_kept state.store o act inode bytes stored_ ?_
    rintro more rfl
    cases op_effect sha256 state.store fault op op' _ log moved with
    | quiet _ _ _ silent => cases silent
    | append request t x chunk rest _ _ start fits =>
        obtain ⟨session', at', _⟩ := inv.base.locked o _ t here rfl
        obtain ⟨_, _, _, node', _⟩ :=
          inv.admitted.incoming o request _ x (chunk :: rest) t session' here rfl rfl at'
        obtain ⟨named, declares⟩ :=
          inv.parted.separate _ _ _ _ _ (session_id_length state inv.base t session' at') sized node' node
        obtain rfl := same t s session session' rfl at' rfl named present
        exact absurd declares (apart request _ x.file rfl rfl rfl)

theorem backed_advance : ∀ (s : Nat) (session : Session) (journal : Record),
    (state.store.apply o act).heap[s]? = some session →
    (state.store.apply o act).sessions.lookup session.id = some s → session.record.complete = false →
      session.record.cancelled = false →
      (state.store.apply o act).disk.doc (journalPath session.id) = some journal →
        Backed (state.store.apply o act).disk session.id session.record journal := by
  intro s session' journal' after present' open' live' written' file member receipt missing
  rcases apply_heap_origin state.store o act s session' after with ⟨session, at_, rfl⟩ | ⟨record, rfl, _, rfl⟩
  · rw [on_id] at present' written' ⊢
    have present := lookup_origin sha256 state o fault op op' act log moved session.id s
      (List.getElem?_eq_some_iff.mp at_).1 present'
    have forward := (moved_session sha256 state inv.base o fault op op' act log here moved s session at_).2
    have open_ : session.record.complete = false := by
      by_contra complete
      rw [forward.complete (by simpa using complete)] at open'
      cases open'
    have live : session.record.cancelled = false := by
      by_contra cancelled
      rw [forward.cancelled (by simpa using cancelled)] at live'
      cases live'
    rw [← forward.same.1] at member
    rcases journal_cases sha256 state inv.base o fault op op' act log here moved session.id with
      same | ⟨t, other, record, rfl, mine, at', named, _, now⟩ | ⟨request, rfl, rfl, named, _⟩ |
        ⟨t, _, _, _, now⟩
    · have written := same.symm.trans written'
      by_cases earlier : (session.record.published.lookup file.id).isSome = true
      · rw [backing_kept sha256 state inv reckoned o fault op op' act log here fresh moved s session
          journal' at_ present open_ live written file.id earlier missing]
        exact reckoned.backed s session journal' at_ present open_ live written file member earlier missing
      · -- The receipt is that of a commit that has just failed.
        rcases moved_receipts sha256 state.store fault op op' act log moved o s session at_ with
          kept | ⟨request, x, target, saved, rfl, rfl, on⟩
        · rw [kept] at receipt
          exact absurd receipt earlier
        · cases moved with
          | upload _ _ next _ _ step_ =>
              have working := (inv.base.facts o _ here s session rfl at_).1
              obtain ⟨_, bytes, _, node, content, filled, _⟩ :=
                inv.admitted.incoming o request _ x [] s session here rfl rfl at_
              have length := filled.2.mpr (inv.admitted.clear o request _ here)
              have named : file.id = x.file.id := by
                by_contra different
                rw [on, receipt_lookup, if_neg different] at receipt
                exact earlier receipt
              obtain rfl := own_file_unique state inv s session at_ x.file file member working.member named
              rw [own_part_spared sha256 state inv o fault request _ next _ log here step_ s session at_
                (by simp) (by simp) (by simp)]
              have whole := reckoned.whole o request _ x here rfl
              simp [partialBytes, (read_eq_some _ _ _).mpr ⟨x.fd, node, content⟩, length, whole]
    · obtain rfl :=
        same_object sha256 state inv o fault op op' _ log here fresh moved t s session other mine at' rfl
          named present
      obtain rfl := Option.some.inj (now.symm.trans written')
      have recorded : ((Act.persist t record true).on o t session).record = record := by simp [Act.on]
      rw [recorded, missing] at receipt
      cases receipt
    · have absent := (inv.base.facts o _ here).2
      rw [named, present] at absent
      cases absent
    · rw [now] at written'
      cases written'
  · cases op_effect sha256 state.store fault op op' _ log moved with
    | quiet _ _ _ silent => cases silent
    | insert request => simp [Session.new, RegisterRequest.record] at receipt

end Advance

theorem reckoned_call (state : State) (reckoned : Reckoned state) (call : Call) : Reckoned
    { state with ops := state.ops ++ [call.op] } := by
  have idle : ∀ (o : Nat) (request : UploadRequest) (phase : UploadPhase), (state.ops ++ [call.op])[o]? =
    some (.upload request phase) →
      state.ops[o]? = some (.upload request phase) ∨ phase = .lookup := by
    intro o request phase there
    rcases Transition.append_cases state.ops o call.op _ there with before | new
    · exact .inl before
    · cases call <;> cases new
      exact .inr rfl
  refine ⟨reckoned.tallied, ?_, ?_, ?_, ?_, reckoned.backed⟩
  · intro o request s file baseline current session there at_
    rcases idle o request _ there with before | new
    · exact reckoned.opening o request s file baseline current session before at_
    · cases new
  · intro o request phase x s session there counts held at_
    rcases idle o request phase there with before | rfl
    · exact reckoned.counted o request phase x s session before counts held at_
    · cases counts
  · intro o request phase x there whole
    rcases idle o request phase there with before | rfl
    · exact reckoned.whole o request phase x before whole
    · cases whole
  · intro o request phase s session there announcing at_
    rcases idle o request phase there with before | rfl
    · exact reckoned.sealed o request phase s session before announcing at_
    · cases announcing

theorem reckoned_step (sha256 : Bytes → String) (state next : State) (label : Label) (inv : Guarded state)
    (reckoned : Reckoned state) (fresh : staleFree state label = true)
    (stepped : step sha256 state label = some next) : Reckoned next := by
  have tallied := tallied_store_step sha256 state next label inv.base reckoned.tallied stepped
  rcases step_cases sha256 state next label stepped with ⟨call, _, _, rfl⟩ |
    ⟨o, fault, op, act, log, op', rfl, here, moved, rfl⟩ |
    ⟨_, _, rfl⟩ | ⟨store, _, stopped, loaded, rfl⟩
  · exact reckoned_call state reckoned call
  · exact ⟨tallied, opening_advance sha256 state inv reckoned o fault op op' act log here fresh moved,
      counted_advance sha256 state inv reckoned o fault op op' act log here fresh moved,
      whole_advance sha256 state reckoned o fault op op' act log here moved,
      sealed_advance sha256 state inv reckoned o fault op op' act log here fresh moved,
      backed_advance sha256 state inv reckoned o fault op op' act log here fresh moved⟩
  · exact ⟨tallied, by simp, by simp, by simp, by simp, by simp [Store.empty]⟩
  · have idle := (inv.base.stopped stopped).1
    refine ⟨tallied, by simp [idle], by simp [idle], by simp [idle], by simp [idle], ?_⟩
    -- What has just been loaded is what the journal says.
    intro s session journal at_ _ _ _ written file _ receipt missing
    have source := (loaded_session state.store.disk store (load_loaded _ _ loaded) s session at_).2.2
    rw [(load_loaded _ _ loaded).same] at written
    obtain rfl := Option.some.inj (source.symm.trans written)
    rw [missing] at receipt
    cases receipt

theorem run_reckoned (sha256 : Bytes → String) (start final : State) (initial : Initial start)
    (run : Transition.Run (step sha256) (fun state label => staleFree state label = true) start final) :
    Guarded final ∧ Reckoned final :=
  Transition.run_invariant (step sha256) _ (fun state => Guarded state ∧ Reckoned state)
    (fun state label next good fresh stepped => ⟨guarded_step sha256 state next label good.1 fresh stepped,
      reckoned_step sha256 state next label good.1 good.2 fresh stepped⟩) start final run
    ⟨run_guarded sha256 start start initial .refl,
      fun record listed => absurd listed (initial_unlisted start initial record),
      by simp [initial.idle], by simp [initial.idle],
      by simp [initial.idle], by simp [initial.idle], by
        rw [initial.fresh]
        simp [Store.empty]⟩

end GoshTransfer
