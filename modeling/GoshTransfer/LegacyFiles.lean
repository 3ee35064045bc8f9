import GoshTransfer.Proclamation

set_option autoImplicit false

namespace GoshTransfer

open InodeStore

-- The destination an upload has created and neither committed nor removed.
def ChunkPhase.writing : ChunkPhase → Option Writing
  | .receive _ x | .count _ x _ | .flush _ x | .enter _ x | .restamp _ x | .recheck _ x | .report _ x |
      .commit _ x
  | .remove _ _ x _ => some x
  | _ => none

def ChunkPhase.dest (phase : ChunkPhase) : Option (Path × Nat) := phase.writing.map fun x => (x.path, x.inode)

-- The number of bytes in it, while it has not been given up.
def ChunkPhase.filled : ChunkPhase → Option Nat
  | .receive _ x | .count _ x _ | .flush _ x | .enter _ x | .restamp _ x | .recheck _ x | .report _ x |
      .commit _ x => some x.received
  | _ => none

def LegacyOp.dest : LegacyOp → Option (Path × Nat)
  | .chunk _ phase => phase.dest
  | _ => none

def LegacyOp.filled : LegacyOp → Option Nat
  | .chunk _ phase => phase.filled
  | _ => none

def LegacyEntry.filing : LegacyEntry → Bool
  | .opened _ _ _ _ | .committed _ _ _ _ => true
  | _ => false

-- Everything a step of an operation can do to files.
inductive FileMove (disk : ReceiverDisk) (fault : Option Fault) : LegacyOp → LegacyAct → List LegacyEntry →
    LegacyOp → Prop where
  | create (params : ChunkRequest) (phase next : ChunkPhase) (transfer : PendingTransfer)
      (file : TransferFile) (path : Path) (free : disk.node path = none)
      (listing : phase.listing = some (transfer, file)) (before : phase.dest = none)
      (after : next.dest = some (path, disk.inodes.length)) (empty : next.filled = some 0) :
      FileMove disk fault (.chunk params phase) (.create path)
      [.opened params.transferId file.id path disk.inodes.length] (.chunk params next)
  | grow (op op' : LegacyOp) (path : Path) (inode : Nat) (data : Bytes)
      (before : op.dest = some (path, inode)) (after : op'.dest = some (path, inode))
      (filled : ∀ n, op'.filled = some n → ∃ m, op.filled = some m ∧ n = m + data.length) :
      FileMove disk fault op (.append inode data) [] op'
  | drop (op op' : LegacyOp) (path : Path) (inode : Nat) (before : op.dest = some (path, inode))
      (after : op'.dest = none) (gone : op'.filled = none) : FileMove disk fault op (.remove path) [] op'
  | abandon (params : ChunkRequest) (k : Nat) (held : Bool) (x : Writing) (reply : LegacyResponse)
      (broken : fault = some .remove) :
      FileMove disk fault (.chunk params (.remove k held x reply)) .tau []
      (.chunk params (.rollback k held x reply))
  | commit (params : ChunkRequest) (k : Nat) (x : Writing) :
      FileMove disk fault (.chunk params (.commit k x)) (.edit (.receive params.transferId params.fileId))
        [.committed params.transferId params.fileId x.path x.inode] (.chunk params (.tally k x))
  | dirs (op op' : LegacyOp) (paths : List Path) (before : op.dest = none) (after : op'.dest = none)
      (none_ : op'.filled = none) :
      FileMove disk fault op (.mkdirs paths) [] op'
  | keep (op op' : LegacyOp) (act : LegacyAct) (log : List LegacyEntry) (quiet : act.store disk = disk)
      (same : op'.dest = op.dest) (filled : ∀ n, op'.filled = some n → op.filled = some n)
      (silent : ∀ entry ∈ log, entry.filing = false) :
      FileMove disk fault op act log op'

theorem chunk_moved_file (params : ChunkRequest) (legacy : Legacy) (disk : ReceiverDisk) (reading : Reading) (phase next : ChunkPhase)
    (act : LegacyAct) (log : List LegacyEntry) (moved : ChunkMove params legacy disk reading phase act log next) :
    FileMove disk reading.fault (.chunk params phase) act log (.chunk params next) := by
  cases moved with
  | opened k transfer file index free => exact .create params _ _ transfer file _ free rfl rfl rfl rfl
  | appended k x data fits =>
      refine .grow _ _ x.path x.inode data rfl rfl ?_
      intro n filled
      cases filled
      exact ⟨x.received, rfl, rfl⟩
  | torn k x data reply => exact .grow _ _ x.path x.inode data rfl rfl (by intro n filled; cases filled)
  | removed k held x reply ok => exact .drop _ _ x.path x.inode rfl rfl rfl
  | unremoved k held x reply broken => exact .abandon params k held x reply broken
  | committed k x => exact .commit params k x
  | prepared k transfer file allowed safe => exact .dirs _ _ _ rfl rfl rfl
  | unprepared k transfer file created reply allowed safe => exact .dirs _ _ _ rfl rfl rfl
  | counted k x amount =>
      refine .keep _ _ _ _ rfl rfl (fun n filled => filled) ?_
      intro entry member
      by_cases due : x.progressDue = true
      · rw [if_pos due] at member
        rw [List.mem_singleton.mp member]
        rfl
      · rw [if_neg due] at member
        cases member
  | quit phase k reply early =>
      refine .keep _ _ _ _ rfl ?_ (by intro n filled; cases filled) (by simp)
      cases phase <;> first | rfl | cases early
  | discarded phase k held x reply discarding =>
      refine .keep _ _ _ _ rfl ?_ (by intro n filled; cases filled) (by simp)
      cases phase <;> cases discarding <;> rfl
  | reported k x cumulative => exact .keep _ _ _ _ rfl rfl (fun n filled => filled) (by simp [Writing.progress, LegacyEntry.filing])
  | announced k x transfer bytes => exact .keep _ _ _ _ rfl rfl (fun n filled => filled) (by simp [LegacyEntry.filing])
  | _ => exact .keep _ _ _ _ rfl rfl (fun n filled => filled) (by simp)

theorem routine_silent (log : List LegacyEntry) (routine : ∀ entry ∈ log, entry.routine = true) :
    ∀ entry ∈ log, entry.filing = false := by
  intro entry member
  have plain := routine entry member
  cases entry <;> first | rfl | cases plain

theorem moved_file (state : LegacyState) (base : LegacyBase state) (o : Nat) (reading : Reading)
    (op op' : LegacyOp) (act : LegacyAct) (log : List LegacyEntry) (here : state.ops[o]? = some op)
    (moved : LegacyOpMove state.legacy state.disk reading op act log op') :
    FileMove state.disk reading.fault op act log op' := by
  have planned : ∀ change rest, op.todo = (change, log) :: rest → ∀ entry ∈ log, entry.filing = false := by
    intro change rest plan
    exact routine_silent log (base.drafted o op here (change, log) (by simp [plan])).2
  cases moved with
  | ruling verdict id phase next act log moved =>
      refine .keep _ _ _ _ ?_ rfl (by intro n filled; cases filled) ?_
      · cases moved <;> rfl
      · cases moved with
        | edited change log rest reply => exact planned change rest rfl
        | _ => simp [LegacyEntry.filing]
  | request offer phase next act log moved =>
      refine .keep _ _ _ _ ?_ rfl (by intro n filled; cases filled) ?_
      · cases moved <;> rfl
      · cases moved with
        | pruned change log rest => exact planned change rest rfl
        | edited change log rest reply => exact planned change rest rfl
        | retried total reply => cases state.legacy.ledger.approved.lookup offer.id
            <;> simp [handedTo, LegacyEntry.filing]
        | _ => simp [LegacyEntry.filing]
  | approval peer id phase next act log moved =>
      refine .keep _ _ _ _ ?_ rfl (by intro n filled; cases filled) ?_
      · cases moved <;> rfl
      · cases moved <;> simp [LegacyEntry.filing]
  | chunk params phase next act log moved => exact chunk_moved_file params _ _ _ phase next act log moved

theorem names_kept (disk : ReceiverDisk) (fault : Option Fault) (op op' : LegacyOp) (act : LegacyAct)
    (log : List LegacyEntry) (moved : FileMove disk fault op act log op') (path : Path) (node : Node Record)
    (named : disk.node path = some node) (stays : act ≠ .remove path) :
    (act.store disk).node path = some node := by
  cases moved with
  | create params phase next transfer file new free listing before after empty =>
      have other : path ≠ new := by
        rintro rfl
        rw [free] at named
        cases named
      exact (node_create disk new path).trans (by rw [if_neg other]; exact named)
  | grow op op' own inode data before after filled => exact named
  | drop op op' gone own before after empty =>
      have other : path ≠ gone := fun equal => stays (by rw [equal])
      exact (node_remove disk gone path).trans (by rw [if_neg other]; exact named)
  | abandon params k held x reply broken => exact named
  | commit params k x => exact named
  | dirs op op' paths before after none_ =>
      refine (mkdirs_node paths disk path).trans ?_
      split
      · rw [named]
        rfl
      · exact named
  | keep op op' act log quiet same filled silent =>
      rw [quiet]
      exact named

theorem quiet_act (disk : ReceiverDisk) (act : LegacyAct) (quiet : act.store disk = disk) (path : Path)
    (inode : Nat) (named : disk.node path = some (.file inode)) : act ≠ .remove path := by
  rintro rfl
  have gone := node_remove disk path path
  rw [if_pos rfl, show disk.remove path = disk from quiet, named] at gone
  cases gone

theorem names_origin (disk : ReceiverDisk) (fault : Option Fault) (op op' : LegacyOp) (act : LegacyAct)
    (log : List LegacyEntry) (moved : FileMove disk fault op act log op') (path : Path) (inode : Nat)
    (named : (act.store disk).node path = some (.file inode)) :
    (disk.node path = some (.file inode) ∧ act ≠ .remove path) ∨
    (act = .create path ∧ inode = disk.inodes.length) := by
  cases moved with
  | create params phase next transfer file new free listing before after empty =>
      rw [show LegacyAct.store disk (.create new) = disk.create new from rfl, node_create] at named
      split at named
      · rename_i equal
        cases named
        exact .inr ⟨by rw [equal], rfl⟩
      · exact .inl ⟨named, by simp⟩
  | grow op op' own inode data before after filled => exact .inl ⟨named, by simp⟩
  | drop op op' gone own before after empty =>
      rw [show LegacyAct.store disk (.remove gone) = disk.remove gone from rfl, node_remove] at named
      split at named
      · cases named
      · rename_i other
        exact .inl ⟨named, fun equal => other (LegacyAct.remove.inj equal).symm⟩
  | abandon params k held x reply broken => exact .inl ⟨named, by simp⟩
  | commit params k x => exact .inl ⟨named, by simp⟩
  | dirs op op' paths before after none_ =>
      rw [show LegacyAct.store disk (.mkdirs paths) = paths.foldl Disk.mkdir disk from rfl,
        mkdirs_node] at named
      refine .inl ⟨?_, by simp⟩
      split at named
      · cases found : disk.node path with
        | none => simp [found] at named
        | some node => simpa [found] using named
      · exact named
  | keep op op' act log quiet same filled silent =>
      rw [quiet] at named
      exact .inl ⟨named, quiet_act disk act quiet path inode named⟩

-- Every destination in progress has its own inode under one name.
structure Placed (state : LegacyState) : Prop where
  allocated : state.disk.Allocated
  named : ∀ (o : Nat) (op : LegacyOp) (path : Path) (inode : Nat), state.ops[o]? = some op →
    op.dest = some (path, inode) →
    state.disk.node path = some (.file inode) ∧ ∀ other, state.disk.node other = some (.file inode) →
      other = path
  apart : ∀ (o p : Nat) (op q : LegacyOp) (path path' : Path) (inode : Nat), state.ops[o]? = some op →
    state.ops[p]? = some q →
    op.dest = some (path, inode) → q.dest = some (path', inode) → o = p

-- It has as many bytes as the upload has counted, and a committed file has its own
-- inode under one name, too.
structure Filed (state : LegacyState) : Prop where
  placed : Placed state
  sized : ∀ (o : Nat) (op : LegacyOp) (path : Path) (inode n : Nat), state.ops[o]? = some op →
    op.dest = some (path, inode) →
    op.filled = some n → ∃ bytes, state.disk.inodes[inode]? = some bytes ∧ bytes.length = n
  stored : ∀ (id file : String) (path : Path) (inode : Nat), .committed id file path inode ∈ state.log →
    state.disk.node path = some (.file inode) ∧ (∀ other, state.disk.node other = some (.file inode) →
      other = path) ∧
      ∀ (o : Nat) (op : LegacyOp) (path' : Path), state.ops[o]? = some op → op.dest ≠ some (path', inode)

section Step

variable (state : LegacyState) (placed : Placed state) (fault : Option Fault) (o : Nat) (op op' : LegacyOp)
    (act : LegacyAct) (log : List LegacyEntry)
  (here : state.ops[o]? = some op) (moved : FileMove state.disk fault op act log op')

include placed here moved

theorem kept_name (path : Path) (inode : Nat) (named : state.disk.node path = some (.file inode))
    (foreign : ∀ path', op.dest ≠ some (path', inode)) :
    (act.store state.disk).node path = some (.file inode) := by
  refine names_kept state.disk fault op op' act log moved path _ named ?_
  rintro rfl
  cases moved with
  | drop op op' gone own before after empty =>
      have mine := (placed.named o op path own here before).1
      rw [named] at mine
      cases mine
      exact foreign path before
  | keep op op' act log quiet same filled silent => exact quiet_act state.disk _ quiet path inode named rfl

theorem same_dest (path : Path) (inode : Nat) (after : op'.dest = some (path, inode)) :
    (op.dest = some (path, inode) ∧ act ≠ .remove path) ∨
    (act = .create path ∧ inode = state.disk.inodes.length) := by
  cases moved with
  | create params phase next transfer file new free listing before now empty =>
      have equal : (new, state.disk.inodes.length) = (path, inode) := Option.some.inj (now.symm.trans after)
      cases equal
      exact .inr ⟨rfl, rfl⟩
  | grow op op' own own' data before now filled => exact .inl ⟨before.trans (now.symm.trans after), by simp⟩
  | drop op op' gone own before now empty =>
      rw [now] at after
      cases after
  | abandon params k held x reply broken => cases after
  | commit params k x => cases after
  | dirs op op' paths before now none_ =>
      rw [now] at after
      cases after
  | keep op op' act log quiet same filled silent =>
      have before := same.symm.trans after
      exact .inl ⟨before, quiet_act state.disk act quiet path inode
        (placed.named o op path inode here before).1⟩

omit here moved in
theorem dest_within (p : Nat) (q : LegacyOp) (path : Path) (inode : Nat) (there : state.ops[p]? = some q)
    (dest : q.dest = some (path, inode)) : inode < state.disk.inodes.length :=
  placed.allocated path inode (placed.named p q path inode there dest).1

omit placed here in
theorem stored_inodes : (act.store state.disk).inodes = state.disk.inodes ∨
    (act.store state.disk).inodes = state.disk.inodes ++ [[]] ∨
    ∃ path inode data, op.dest = some (path, inode) ∧ act = .append inode data := by
  cases moved with
  | create params phase next transfer file new free listing before now empty => exact .inr (.inl rfl)
  | grow op op' own own' data before now filled => exact .inr (.inr ⟨own, own', data, before, rfl⟩)
  | drop op op' gone own before now empty => exact .inl rfl
  | abandon params k held x reply broken => exact .inl rfl
  | commit params k x => exact .inl rfl
  | dirs op op' paths before now none_ => exact .inl (mkdirs_inodes paths state.disk)
  | keep op op' act log quiet same filled silent => exact .inl (by rw [quiet])

omit placed here in
theorem inodes_grow : state.disk.inodes.length ≤ (act.store state.disk).inodes.length := by
  rcases stored_inodes state fault op op' act log moved with same | more | ⟨_, inode, data, _, rfl⟩
  · rw [same]
  · simp [more]
  · simp [LegacyAct.store]

omit placed here in
theorem foreign_bytes (inode : Nat) (bytes : Bytes) (present : state.disk.inodes[inode]? = some bytes)
    (foreign : ∀ path, op.dest ≠ some (path, inode)) :
    (act.store state.disk).inodes[inode]? = some bytes := by
  have within : inode < state.disk.inodes.length := (List.getElem?_eq_some_iff.mp present).1
  rcases stored_inodes state fault op op' act log moved with same | more | ⟨path, own, data, dest, rfl⟩
  · rw [same]
    exact present
  · rw [more, List.getElem?_append_left within]
    exact present
  · have other : inode ≠ own := by
      rintro rfl
      exact foreign path dest
    have kept := inode_append state.disk own inode data bytes present
    rw [if_neg other] at kept
    exact kept

omit here in
theorem placed_allocated : (act.store state.disk).Allocated := by
  intro path inode named
  rcases names_origin state.disk fault op op' act log moved path inode named with ⟨before, _⟩ | ⟨rfl, rfl⟩
  · exact Nat.lt_of_lt_of_le (placed.allocated path inode before)
      (inodes_grow state fault op op' act log moved)
  · simp [LegacyAct.store]

theorem placed_named (p : Nat) (q : LegacyOp) (path : Path) (inode : Nat)
    (there : (state.ops.set o op')[p]? = some q) (dest : q.dest = some (path, inode)) :
    (act.store state.disk).node path = some (.file inode) ∧
      ∀ other, (act.store state.disk).node other = some (.file inode) → other = path := by
  rcases Transition.set_cases state.ops o p op' q there with ⟨rfl, rfl⟩ | ⟨different, before⟩
  · rcases same_dest state placed fault p op q act log here moved path inode dest with ⟨before, stays⟩ |
      ⟨rfl, rfl⟩
    · obtain ⟨named, sole⟩ := placed.named p op path inode here before
      refine ⟨names_kept state.disk fault op q act log moved path _ named stays, ?_⟩
      intro other now
      rcases names_origin state.disk fault op q act log moved other inode now with ⟨old, _⟩ | ⟨_, fresh⟩
      · exact sole other old
      · exact absurd (placed.allocated path inode named) (by omega)
    · refine ⟨(node_create _ _ _).trans (if_pos rfl), ?_⟩
      intro other now
      rcases names_origin state.disk fault op q _ log moved other _ now with ⟨old, _⟩ | ⟨equal, _⟩
      · exact absurd (placed.allocated other _ old) (by omega)
      · exact (LegacyAct.create.inj equal).symm
  · obtain ⟨named, sole⟩ := placed.named p q path inode before dest
    refine ⟨kept_name state placed fault o op op' act log here moved path inode named ?_, ?_⟩
    · intro path' mine
      exact different (placed.apart p o q op path path' inode before here dest mine)
    · intro other now
      rcases names_origin state.disk fault op op' act log moved other inode now with ⟨old, _⟩ | ⟨_, fresh⟩
      · exact sole other old
      · exact absurd (placed.allocated path inode named) (by omega)

theorem placed_apart (p r : Nat) (q t : LegacyOp) (path path' : Path) (inode : Nat)
    (there : (state.ops.set o op')[p]? = some q) (yonder : (state.ops.set o op')[r]? = some t)
    (dest : q.dest = some (path, inode)) (dest' : t.dest = some (path', inode)) : p = r := by
  -- A destination of the moving operation is its old one, or newer than all others.
  have clash : ∀ (s : Nat) (u : LegacyOp) (way way' : Path), s ≠ o → state.ops[s]? = some u →
    u.dest = some (way, inode) →
      op'.dest = some (way', inode) → False := by
    intro s u way way' different before mine now
    rcases same_dest state placed fault o op op' act log here moved way' inode now with ⟨old, _⟩ | ⟨_, fresh⟩
    · exact different (placed.apart s o u op way way' inode before here mine old)
    · exact absurd (dest_within state placed s u way inode before mine) (by omega)
  rcases Transition.set_cases state.ops o p op' q there with ⟨rfl, rfl⟩ | ⟨different, before⟩
  · rcases Transition.set_cases state.ops p r q t yonder with ⟨rfl, _⟩ | ⟨other, old⟩
    · rfl
    · exact (clash r t path' path other old dest' dest).elim
  · rcases Transition.set_cases state.ops o r op' t yonder with ⟨rfl, rfl⟩ | ⟨_, old⟩
    · exact (clash p q path path' different before dest dest').elim
    · exact placed.apart p r q t path path' inode before old dest dest'

theorem step_placed : Placed (state.after o act log op') :=
  ⟨placed_allocated state placed fault op op' act log moved, placed_named state placed fault o op op' act
    log here moved,
    placed_apart state placed fault o op op' act log here moved⟩

end Step

section Step

variable (state : LegacyState) (filed : Filed state) (fault : Option Fault) (o : Nat) (op op' : LegacyOp)
    (act : LegacyAct)
  (log : List LegacyEntry) (here : state.ops[o]? = some op) (moved : FileMove state.disk fault op act log op')

include filed here moved

theorem filed_sized (p : Nat) (q : LegacyOp) (path : Path) (inode n : Nat)
    (there : (state.ops.set o op')[p]? = some q) (dest : q.dest = some (path, inode))
    (filled : q.filled = some n) :
    ∃ bytes, (act.store state.disk).inodes[inode]? = some bytes ∧ bytes.length = n := by
  rcases Transition.set_cases state.ops o p op' q there with ⟨rfl, rfl⟩ | ⟨different, before⟩
  · cases moved with
    | create params phase next transfer file new free listing before now empty =>
        have equal : (new, state.disk.inodes.length) = (path, inode) := Option.some.inj (now.symm.trans dest)
        cases equal
        have zero : n = 0 := Option.some.inj (filled.symm.trans empty)
        exact ⟨[], by simp [LegacyAct.store], zero.symm⟩
    | grow op op' own own' data before now fills =>
        have equal : (own, own') = (path, inode) := Option.some.inj (now.symm.trans dest)
        cases equal
        obtain ⟨m, was, rfl⟩ := fills n filled
        obtain ⟨bytes, present, size⟩ := filed.sized p op path inode m here before was
        have appended := inode_append state.disk inode inode data bytes present
        rw [if_pos rfl] at appended
        exact ⟨bytes ++ data, appended, by simp [size]⟩
    | drop op op' gone own before now empty =>
        rw [now] at dest
        cases dest
    | abandon params k held x reply broken => cases dest
    | commit params k x => cases dest
    | dirs op op' paths before now none_ =>
        rw [now] at dest
        cases dest
    | keep op op' act log quiet same fills silent =>
        rw [quiet]
        exact filed.sized p op path inode n here (same.symm.trans dest) (fills n filled)
  · obtain ⟨bytes, present, size⟩ := filed.sized p q path inode n before dest filled
    refine ⟨bytes, foreign_bytes state fault op op' act log moved inode bytes present ?_, size⟩
    intro path' mine
    exact different (filed.placed.apart p o q op path path' inode before here dest mine)

theorem filed_stored (id file : String) (path : Path) (inode : Nat)
    (reported : .committed id file path inode ∈ state.log ++ log) :
    (act.store state.disk).node path = some (.file inode) ∧
      (∀ other, (act.store state.disk).node other = some (.file inode) → other = path) ∧
      ∀ (p : Nat) (q : LegacyOp) (path' : Path), (state.ops.set o op')[p]? = some q →
        q.dest ≠ some (path', inode) := by
  rcases List.mem_append.mp reported with old | new
  · obtain ⟨named, sole, free⟩ := filed.stored id file path inode old
    refine ⟨kept_name state filed.placed fault o op op' act log here moved path inode named
      (free o op · here), ?_, ?_⟩
    · intro other now
      rcases names_origin state.disk fault op op' act log moved other inode now with ⟨before, _⟩ | ⟨_, fresh⟩
      · exact sole other before
      · exact absurd (filed.placed.allocated path inode named) (by omega)
    · intro p q path' there dest
      rcases Transition.set_cases state.ops o p op' q there with ⟨rfl, rfl⟩ | ⟨_, before⟩
      · rcases same_dest state filed.placed fault p op q act log here moved path' inode dest with ⟨was, _⟩ |
          ⟨_, fresh⟩
        · exact free p op path' here was
        · exact absurd (filed.placed.allocated path inode named) (by omega)
      · exact free p q path' before dest
  · cases moved with
    | commit params k x =>
        simp only [List.mem_singleton, LegacyEntry.committed.injEq] at new
        obtain ⟨rfl, rfl, rfl, rfl⟩ := new
        obtain ⟨named, sole⟩ := filed.placed.named o _ x.path x.inode here rfl
        refine ⟨named, sole, ?_⟩
        intro p q path' there dest
        rcases Transition.set_cases state.ops o p _ q there with ⟨rfl, rfl⟩ | ⟨different, before⟩
        · cases dest
        · exact different (filed.placed.apart p o q _ path' x.path x.inode before here dest rfl)
    | keep op op' act log quiet same fills silent => cases silent _ new
    | create params phase next transfer listed new' free listing before now empty => simp at new
    | _ => cases new

theorem step_filed : Filed (state.after o act log op') :=
  ⟨step_placed state filed.placed fault o op op' act log here moved,
    filed_sized state filed fault o op op' act log here moved,
    filed_stored state filed fault o op op' act log here moved⟩

end Step

theorem called_dest (state : LegacyState) (call : LegacyCall) (p : Nat) (q : LegacyOp) (path : Path)
    (inode : Nat) (there : (state.ops ++ [call.op])[p]? = some q) (dest : q.dest = some (path, inode)) :
    state.ops[p]? = some q := by
  rcases Transition.append_cases state.ops p call.op q there with before | rfl
  · exact before
  · cases call <;> cases dest

theorem placed_step (state next : LegacyState) (label : LegacyLabel) (base : LegacyBase state)
    (placed : Placed state) (stepped : legacyStep state label = some next) : Placed next := by
  rcases legacy_step_cases state next label stepped with ⟨call, _, rfl⟩ |
    ⟨o, reading, op, act, log, op', _, here, moved, rfl⟩
  · refine ⟨placed.allocated, ?_, ?_⟩
    · intro p q path inode there dest
      exact placed.named p q path inode (called_dest state call p q path inode there dest) dest
    · intro p r q t path path' inode there yonder dest dest'
      exact placed.apart p r q t path path' inode (called_dest state call p q path inode there dest)
        (called_dest state call r t path' inode yonder dest') dest dest'
  · exact step_placed state placed reading.fault o op op' act log here
      (moved_file state base o reading op op' act log here moved)

theorem filed_step (state next : LegacyState) (label : LegacyLabel) (base : LegacyBase state)
    (filed : Filed state) (stepped : legacyStep state label = some next) : Filed next := by
  have placed := placed_step state next label base filed.placed stepped
  rcases legacy_step_cases state next label stepped with ⟨call, _, rfl⟩ |
    ⟨o, reading, op, act, log, op', _, here, moved, rfl⟩
  · refine ⟨placed, ?_, ?_⟩
    · intro p q path inode n there dest filled
      exact filed.sized p q path inode n (called_dest state call p q path inode there dest) dest filled
    · intro id file path inode reported
      obtain ⟨named, sole, free⟩ := filed.stored id file path inode reported
      exact ⟨named, sole, fun p q path' there dest => free p q path'
        (called_dest state call p q path' inode there dest) dest⟩
  · exact step_filed state filed reading.fault o op op' act log here
      (moved_file state base o reading op op' act log here moved)

theorem initial_placed (state : LegacyState) (initial : LegacyInitial state) : Placed state := by
  refine ⟨initial.allocated, ?_, ?_⟩
  · intro p q _ _ there
    rw [initial.idle] at there
    cases there
  · intro p _ q _ _ _ _ there
    rw [initial.idle] at there
    cases there

theorem initial_filed (state : LegacyState) (initial : LegacyInitial state) : Filed state := by
  refine ⟨initial_placed state initial, ?_, ?_⟩
  · intro p q _ _ _ there
    rw [initial.idle] at there
    cases there
  · intro id file path inode reported
    rw [initial.silent] at reported
    cases reported

end GoshTransfer
