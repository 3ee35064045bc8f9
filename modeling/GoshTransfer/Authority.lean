import GoshTransfer.Promises
import GoshTransfer.Integrity
import GoshTransfer.Isolation

set_option autoImplicit false

namespace GoshTransfer

open InodeStore

-- The tests of upload's prologue on the record of the session.
structure Granted (request : UploadRequest) (record : Record) (file : TransferFile) : Prop where
  identity : record.owner = owner request.peer
  token : request.token = record.token
  accepted : record.decision = .accepted
  live : record.cancelled = false
  member : file ∈ record.manifest.request.files
  named : file.id = request.fileId

-- The partial ends where the request says, counted from its offset over the
-- chunks that have been taken, unless the last write failed unseen.
def Continues (request : UploadRequest) (disk : ReceiverDisk) (id : String) (x : Incoming)
    (rest : List Bytes) : Prop :=
  ∃ written bytes, request.chunks = written ++ rest ∧ disk.node (partPath id x.file.id) = some (.file x.fd) ∧
    disk.inodes[x.fd]? = some bytes ∧ x.Filled bytes.length ∧
      x.offset = request.offset + written.flatten.length

def UploadPhase.file : UploadPhase → Option TransferFile
  | .check _ file | .openPart _ file _ _ => some file
  | .receive _ x _ | .syncAll _ x | .hash _ x | .recheck _ x | .prepare _ x | .choose _ x _ |
      .link _ x _ _ | .verify _ x _ _
  | .syncParent _ x _ | .commit _ x _ | .finish _ x | .discard _ x | .announce _ x => some x.file
  | .lookup | .lock _ | .entry _ | .interrupted _ | .leave _ _ | .done _ => none

-- The phases with an open partial, and the chunks still to come.
def UploadPhase.incoming : UploadPhase → Option (Incoming × List Bytes)
  | .receive _ x chunks => some (x, chunks)
  | .syncAll _ x | .hash _ x | .recheck _ x | .prepare _ x | .choose _ x _ | .link _ x _ _ | .verify _ x _ _
  | .syncParent _ x _ | .commit _ x _ | .finish _ x | .discard _ x => some (x, [])
  | _ => none

-- A file that fell short of its offset does not get past the digest.
def UploadPhase.Clear : UploadPhase → Prop
  | .hash _ x => x.offset = x.file.size
  | .recheck _ x | .prepare _ x | .choose _ x _ | .link _ x _ _ | .verify _ x _ _ | .syncParent _ x _ |
      .commit _ x _ | .finish _ x
  | .discard _ x | .announce _ x => x.lastWriteErr = none
  | _ => True

structure Admitted (state : State) : Prop where
  granted : ∀ (o : Nat) (request : UploadRequest) (phase : UploadPhase) (file : TransferFile) (s : Nat)
    (session : Session),
    state.ops[o]? = some (.upload request phase) → phase.file = some file → phase.holds = some s →
      state.store.heap[s]? = some session → Granted request session.record file
  opening : ∀ (o : Nat) (request : UploadRequest) (s : Nat) (file : TransferFile) (baseline current : Nat)
    (session : Session),
    state.ops[o]? = some (.upload request (.openPart s file baseline current)) →
      state.store.heap[s]? = some session →
      current = request.offset ∧ partialLength state.store.disk (partPath session.id file.id) none =
      .ok current
  incoming : ∀ (o : Nat) (request : UploadRequest) (phase : UploadPhase) (x : Incoming) (rest : List Bytes)
    (s : Nat) (session : Session),
    state.ops[o]? = some (.upload request phase) → phase.incoming = some (x, rest) → phase.holds = some s →
      state.store.heap[s]? = some session → Continues request state.store.disk session.id x rest
  clear : ∀ (o : Nat) (request : UploadRequest) (phase : UploadPhase),
    state.ops[o]? = some (.upload request phase) → phase.Clear

theorem granted_same (request : UploadRequest) (before after : Record) (file : TransferFile)
    (identity : before.SameIdentity after) (decision : after.decision = before.decision)
    (cancelled : after.cancelled = before.cancelled) (granted : Granted request before file) :
    Granted request after file := by
  obtain ⟨manifest, _, owner_, token⟩ := identity
  exact ⟨owner_ ▸ granted.identity, token ▸ granted.token, decision.trans granted.accepted,
    cancelled.trans granted.live,
    manifest ▸ granted.member, granted.named⟩

theorem incoming_works (phase : UploadPhase) (x : Incoming) (rest : List Bytes) (s : Nat)
    (open_ : phase.incoming = some (x, rest)) (held : phase.holds = some s) : phase.works = some s := by
  cases phase <;> first | exact held | cases open_

theorem continues_kept (request : UploadRequest) (before after : ReceiverDisk) (id : String) (x : Incoming)
    (rest : List Bytes) (node : after.node (partPath id x.file.id) = before.node (partPath id x.file.id))
    (content : ∀ bytes, before.inodes[x.fd]? = some bytes → after.inodes[x.fd]? = some bytes)
    (continues : Continues request before id x rest) : Continues request after id x rest := by
  obtain ⟨written, bytes, chunks, open_, stored, length, offset⟩ := continues
  exact ⟨written, bytes, chunks, node.trans open_, content bytes stored, length, offset⟩

section Advance

variable (sha256 : Bytes → String) (state : State) (base : Base state) (owned : Owned state)
    (parted : Parted state.store.disk)
variable (admitted : Admitted state) (o : Nat) (fault : Option Fault) (op op' : Op) (act : Act)
    (log : List Entry)
variable (here : state.ops[o]? = some op) (fresh : staleFree state (.advance o fault) = true)
variable (moved : OpMove sha256 state.store fault op act log op')
include base owned parted admitted here fresh moved

theorem partials_guarded (p : Nat) (request : UploadRequest) (phase : UploadPhase) (s : Nat)
    (session : Session) (other : p ≠ o) (there : state.ops[p]? = some (.upload request phase))
    (working : phase.works = some s) (at_ : state.store.heap[s]? = some session) :
    (∀ file, (state.store.apply o act).disk.node (partPath session.id file) = state.store.disk.node
      (partPath session.id file)) ∧
    ∀ file inode bytes, state.store.disk.node (partPath session.id file) = some (.file inode) →
      state.store.disk.inodes[inode]? = some bytes →
      (state.store.apply o act).disk.inodes[inode]? = some bytes := by
  have held := works_holds (.upload request phase) s working
  have present := owned.working p _ s session there working at_
  refine ⟨(files_guarded sha256 state base owned o fault op op' act log here fresh moved p _ s other there
    held session.id present).2, ?_⟩
  intro file inode bytes node stored
  refine inode_kept state.store o act inode bytes stored ?_
  rintro more rfl
  cases op_effect sha256 state.store fault op op' _ log moved with
  | quiet _ _ _ silent => cases silent
  | append request' t x chunk rest _ _ start fits =>
      obtain ⟨session', at', _⟩ := base.locked o _ t here rfl
      obtain ⟨_, _, _, node', _⟩ :=
        admitted.incoming o request' _ x (chunk :: rest) t session' here rfl rfl at'
      obtain ⟨same, _⟩ := parted.separate _ _ _ _ x.fd (session_id_length state base s session at_)
        (session_id_length state base t session' at') node node'
      have mine := owned.working o _ t session' here rfl at'
      rw [← same, present] at mine
      obtain rfl := Option.some.inj mine
      exact absurd (holder_unique state base o p _ _ s here there rfl held) other

omit owned parted admitted fresh in
theorem partial_spared (s : Nat) (session : Session) (file : String)
    (at_ : state.store.heap[s]? = some session) (noOpen : ∀ path, act ≠ .openPart path)
    (noRemove : ∀ path, act ≠ .remove path) :
    (state.store.apply o act).disk.node (partPath session.id file) =
      state.store.disk.node (partPath session.id file) := by
  rcases part_cases sha256 state base o fault op op' act log here moved session.id file
    (session_id_length state base s session at_) with
    same | ⟨_, _, _, _, _, _, _, _, _, _, opens, _⟩ | ⟨_, _, _, _, _, removes, _⟩
  · exact same
  · exact absurd opens (noOpen _)
  · exact absurd removes (noRemove _)

omit base owned parted admitted here fresh in
theorem upload_record_kept (request : UploadRequest) (phase : UploadPhase)
    (isOp : op = .upload request phase) (s : Nat) (session : Session)
    (at_ : state.store.heap[s]? = some session) : session.record.SameIdentity (act.on o s session).record ∧
      (act.on o s session).record.decision = session.record.decision ∧
      (act.on o s session).record.cancelled = session.record.cancelled := by
  subst isOp
  rcases on_record_writes act o s session with ⟨record, writes, on⟩ | ⟨_, kept⟩
  · obtain ⟨session', at', write⟩ := moved_write sha256 state.store fault _ _ act log s record moved writes
    obtain rfl := Option.some.inj (at_.symm.trans at')
    rw [on]
    cases write <;> exact ⟨⟨rfl, rfl, rfl, rfl⟩, rfl, rfl⟩
  · rw [kept]
    exact ⟨⟨rfl, rfl, rfl, rfl⟩, rfl, rfl⟩

omit base owned parted fresh in
theorem granted_own (request : UploadRequest) (phase next : UploadPhase) (isOp : op = .upload request phase)
    (step_ : UploadMove sha256 request state.store fault phase act log next) (file : TransferFile) (s : Nat)
    (session : Session) (works : next.file = some file) (held : next.holds = some s)
    (at_ : state.store.heap[s]? = some session) :
    Granted request (act.on o s session).record file := by
  obtain ⟨identity, decision, cancelled⟩ :=
    upload_record_kept sha256 state o fault op op' act log moved request phase isOp s session at_
  refine granted_same request session.record _ file identity decision cancelled ?_
  subst isOp
  by_cases entering : phase.file = some file
  · refine admitted.granted o request phase file s session here entering ?_ at_
    cases step_ <;> first | exact held | cases entering | cases works
  · cases step_ with
    | admitted t session' file' there identity live accepted capability member named missing =>
        obtain rfl := Option.some.inj works
        obtain rfl := Option.some.inj held
        obtain rfl := Option.some.inj (at_.symm.trans there)
        exact ⟨identity, capability, accepted, live.1, member, named⟩
    | _ => first | exact absurd works entering | cases works

omit owned fresh in
theorem continues_own (request : UploadRequest) (phase next : UploadPhase) (isOp : op = .upload request phase)
    (isNext : op' = .upload request next)
    (step_ : UploadMove sha256 request state.store fault phase act log next) (x : Incoming)
    (rest : List Bytes) (s : Nat) (session : Session) (open_ : next.incoming = some (x, rest))
    (held : next.holds = some s) (at_ : state.store.heap[s]? = some session) :
      Continues request (state.store.apply o act).disk session.id x rest := by
  subst isOp isNext
  have before : ∀ y left, phase.incoming = some (y, left) → phase.holds = some s →
    Continues request state.store.disk session.id y left :=
    fun y left earlier holding => admitted.incoming o request phase y left s session here earlier holding at_
  -- The steps that neither open, write nor remove the partial.
  have spared : phase.incoming = some (x, rest) → phase.holds = some s → (∀ path, act ≠ .openPart path) →
    (∀ path, act ≠ .remove path) →
      (∀ inode bytes, act ≠ .append inode bytes) →
        Continues request (state.store.apply o act).disk session.id x rest := by
    intro earlier holding noOpen noRemove noAppend
    refine continues_kept request state.store.disk _ session.id x rest ?_ ?_ (before x rest earlier holding)
    · exact partial_spared sha256 state base o fault _ _ act log here moved s session x.file.id at_ noOpen
        noRemove
    · intro bytes stored
      exact inode_kept state.store o act x.fd bytes stored fun more appends => absurd appends
        (noAppend x.fd more)
  cases step_ with
  | created t session' file baseline current there absent =>
      obtain ⟨rfl, rfl⟩ := Prod.mk.inj (Option.some.inj open_)
      obtain rfl := Option.some.inj held
      obtain rfl := Option.some.inj (at_.symm.trans there)
      obtain ⟨requested, length⟩ := admitted.opening o request _ file baseline current session here at_
      have start : current = 0 := by
        rcases partial_length_eq _ _ current length with ⟨_, zero⟩ | ⟨inode, present, _⟩
        · exact zero
        · rw [absent] at present
          cases present
      refine ⟨[], [], rfl, (node_create _ _ _).trans (if_pos rfl), ?_, start ▸ filled_opened _ _ _ _,
        requested⟩
      show (state.store.disk.inodes ++ [[]])[state.store.disk.inodes.length]? = some []
      simp
  | reopened t session' file baseline current inode there present =>
      obtain ⟨rfl, rfl⟩ := Prod.mk.inj (Option.some.inj open_)
      obtain rfl := Option.some.inj held
      obtain rfl := Option.some.inj (at_.symm.trans there)
      obtain ⟨requested, length⟩ := admitted.opening o request _ file baseline current session here at_
      rcases partial_length_eq _ _ current length with ⟨absent, _⟩ | ⟨other, found, measured⟩
      · rw [absent] at present
        cases present
      · obtain rfl : inode = other := by simpa using present.symm.trans found
        obtain ⟨bytes, stored⟩ : ∃ bytes, state.store.disk.inodes[inode]? = some bytes :=
          ⟨_, List.getElem?_eq_getElem (parted.allocated _ _ present)⟩
        rw [stored] at measured
        exact ⟨[], bytes, rfl, present, stored, measured ▸ filled_opened _ _ _ _, requested⟩
  | appended t session' y chunk left there fits clear =>
      obtain ⟨rfl, rfl⟩ := Prod.mk.inj (Option.some.inj open_)
      obtain rfl := Option.some.inj held
      obtain ⟨written, bytes, chunks, node, stored, filled, offset⟩ := before y (chunk :: left) rfl rfl
      refine ⟨written ++ [chunk], bytes ++ chunk, by simp [chunks], node, ?_,
        List.length_append ▸ filled_grown _ _ _ y chunk _ filled, ?_⟩
      · exact (inode_append state.store.disk y.fd y.fd chunk bytes stored).trans (by simp)
      · simp [grown, offset, Nat.add_assoc]
  | unseen t session' y chunk left part there fits clear short failed last =>
      obtain ⟨rfl, rfl⟩ := Prod.mk.inj (Option.some.inj open_)
      obtain rfl := Option.some.inj held
      obtain ⟨written, bytes, chunks, node, stored, filled, offset⟩ := before y (chunk :: left) rfl rfl
      refine ⟨written ++ [chunk], bytes ++ chunk.take part, by simp [chunks], node, ?_,
        List.length_append ▸ filled_spoiled _ _ _ y chunk part _ filled short, ?_⟩
      · exact (inode_append state.store.disk y.fd y.fd _ bytes stored).trans (by simp)
      · simp [spoiled, grown, offset, Nat.add_assoc]
  | _ => first | exact spared open_ held (by simp) (by simp) (by simp) | cases open_

omit base owned parted fresh moved in
theorem clear_own (request : UploadRequest) (phase next : UploadPhase) (isOp : op = .upload request phase)
    (step_ : UploadMove sha256 request state.store fault phase act log next) : next.Clear := by
  subst isOp
  have before := admitted.clear o request phase here
  cases step_ with
  | synced s x full => exact full
  | hashed s session x bytes at_ read matching =>
      obtain ⟨_, content, _, node, stored, filled, _⟩ :=
        admitted.incoming o request _ x [] s session here rfl rfl at_
      obtain ⟨inode, found, held⟩ := (read_eq_some _ _ _).mp read
      obtain rfl : x.fd = inode := by simpa using node.symm.trans found
      obtain rfl := Option.some.inj (stored.symm.trans held)
      have full : x.offset = x.file.size := before
      exact filled.2.mp ((verified_size sha256 session.record x.file content matching).2.trans full.symm)
  | _ => first | exact before | trivial

theorem admitted_advance :
    Admitted { state with store := state.store.apply o act, ops := state.ops.set o op', log := state.log ++ log } where
  granted := by
    intro p request phase file s session' there works held after
    rcases Transition.set_cases state.ops o p op' _ there with ⟨rfl, rfl⟩ | ⟨other, before⟩
    · obtain ⟨session, at_, rfl⟩ :=
        held_origin sha256 state.store p fault op _ act log moved s session' held after
      cases moved with
      | upload _ earlier _ _ _ step_ =>
          exact granted_own sha256 state admitted p fault _ _ act log here (.upload _ _ _ _ _ step_) request
            earlier phase rfl step_ file s session works held at_
    · obtain ⟨session, at_, same⟩ :=
        (others_framed sha256 state base o fault op op' act log here moved p _ other before).record s
          session' held after
      rw [same]
      exact admitted.granted p request phase file s session before works held at_
  opening := by
    intro p request s file baseline current session' there after
    rcases Transition.set_cases state.ops o p op' _ there with ⟨rfl, rfl⟩ | ⟨other, before⟩
    · obtain ⟨session, at_, rfl⟩ :=
        held_origin sha256 state.store p fault op _ act log moved s session' rfl after
      cases moved with
      | upload _ earlier _ _ _ step_ =>
          cases step_ with
          | checked _ session' _ points point at' read found offset =>
              obtain rfl := Option.some.inj (at_.symm.trans at')
              have working := (base.facts p _ here _ session rfl at_).1
              have named : point.fileId = file.id := by simpa using List.find?_some found
              have length :=
                checkpoints_offset state.store.disk session.id session.record fault points read point
                (List.mem_of_find?_eq_some found) (named ▸ working.missing)
              rw [named] at length
              exact ⟨offset.symm, length⟩
    · obtain ⟨session, at_, _⟩ := base.locked p _ s before rfl
      obtain rfl := Option.some.inj (after.symm.trans (apply_heap state.store o act s session at_))
      obtain ⟨nodes, contents⟩ :=
        partials_guarded sha256 state base owned parted admitted o fault op op' act log here fresh moved p
        request _ s session other before rfl at_
      obtain ⟨requested, length⟩ := admitted.opening p request s file baseline current session before at_
      rw [on_id]
      exact ⟨requested, partial_length_kept state.store.disk _ _ current parted.allocated (nodes file.id)
        (contents file.id) length⟩
  incoming := by
    intro p request phase x rest s session' there open_ held after
    rcases Transition.set_cases state.ops o p op' _ there with ⟨rfl, rfl⟩ | ⟨other, before⟩
    · obtain ⟨session, at_, rfl⟩ :=
        held_origin sha256 state.store p fault op _ act log moved s session' held after
      rw [on_id]
      cases moved with
      | upload _ earlier _ _ _ step_ =>
          exact continues_own sha256 state base parted admitted p fault _ _ act log here
            (.upload _ _ _ _ _ step_) request earlier phase rfl rfl step_ x rest s session open_ held at_
    · obtain ⟨session, at_, _⟩ := base.locked p _ s before held
      obtain rfl := Option.some.inj (after.symm.trans (apply_heap state.store o act s session at_))
      obtain ⟨nodes, contents⟩ :=
        partials_guarded sha256 state base owned parted admitted o fault op op' act log here fresh moved p
        request phase s session other before (incoming_works phase x rest s open_ held) at_
      obtain ⟨written, bytes, chunks, node, stored, length, offset⟩ :=
        admitted.incoming p request phase x rest s session before open_ held at_
      rw [on_id]
      exact ⟨written, bytes, chunks, (nodes x.file.id).trans node,
        contents x.file.id x.fd bytes node stored, length, offset⟩
  clear := by
    intro p request phase there
    rcases Transition.set_cases state.ops o p op' _ there with ⟨rfl, rfl⟩ | ⟨_, before⟩
    · cases moved with
      | upload _ earlier _ _ _ step_ =>
          exact clear_own sha256 state admitted p fault _ act log here request earlier phase rfl step_
    · exact admitted.clear p request phase before

end Advance

structure Untouched (before after : Store) : Prop where
  disk : after.disk = before.disk
  map : after.sessions = before.sessions
  objects : ∀ (s : Nat) (session : Session), before.heap[s]? = some session →
    ∃ session' : Session, after.heap[s]? = some session' ∧
    session'.record = session.record ∧ session'.finished = session.finished ∧ session'.cancel = session.cancel

-- What a request must have shown before it changes anything: who it is, that
-- the session in the map admits it, and that it continues the partial.
def Authorized (request : UploadRequest) (store : Store) (file : TransferFile) : Prop :=
  ∃ s session, store.sessions.lookup request.transferId = some s ∧ store.heap[s]? = some session ∧
    Granted request session.record file ∧
      ∃ written rest, request.chunks = written ++ rest ∧
        partialLength store.disk (partPath request.transferId file.id) none = .ok
        (request.offset + written.flatten.length)

-- The request has passed the same tests, and all it does is to remove the partial.
def Withdrawn (request : UploadRequest) (before after : Store) (file : TransferFile) : Prop :=
  ∃ s session, before.sessions.lookup request.transferId = some s ∧ before.heap[s]? = some session ∧
    Granted request session.record file ∧
      after.disk = before.disk.remove (partPath request.transferId file.id)

-- No partial but the one of this file has changed.
def Confined (id file : String) (before after : ReceiverDisk) : Prop :=
  ∀ id' file', canonicalUuid id' = true → ¬ (id' = id ∧ file' = file) →
    after.node (partPath id' file') = before.node (partPath id' file') ∧
      after.read (partPath id' file') = before.read (partPath id' file')

theorem idle_untouched (store : Store) (o : Nat) (act : Act)
    (idle : act = .tau ∨ (∃ s, act = .acquire s) ∨ ∃ s, act = .release s) :
    Untouched store (store.apply o act) := by
  refine ⟨?_, ?_, ?_⟩
  · rcases idle with rfl | ⟨s, rfl⟩ | ⟨s, rfl⟩ <;> rfl
  · rcases idle with rfl | ⟨s, rfl⟩ | ⟨s, rfl⟩ <;> rfl
  · intro s session at_
    refine ⟨act.on o s session, apply_heap store o act s session at_, ?_⟩
    rcases idle with rfl | ⟨t, rfl⟩ | ⟨t, rfl⟩
    · exact ⟨rfl, rfl, rfl⟩
    · by_cases same : s = t <;> simp [Act.on, same]
    · by_cases same : s = t <;> simp [Act.on, same]

theorem acting_phase (sha256 : Bytes → String) (request : UploadRequest) (store : Store)
    (fault : Option Fault) (phase next : UploadPhase) (act : Act) (log : List Entry)
    (moved : UploadMove sha256 request store fault phase act log next) :
    (act = .tau ∨ (∃ s, act = .acquire s) ∨ ∃ s, act = .release s) ∨
      (∃ s file baseline current, phase = .openPart s file baseline current) ∨
        ∃ x rest, phase.incoming = some (x, rest) := by
  cases moved <;> first
    | exact .inl (.inl rfl)
    | exact .inl (.inr (.inl ⟨_, rfl⟩))
    | exact .inl (.inr (.inr ⟨_, rfl⟩))
    | exact .inr (.inl ⟨_, _, _, _, rfl⟩)
    | exact .inr (.inr ⟨_, _, rfl⟩)

theorem incoming_file (phase : UploadPhase) (x : Incoming) (rest : List Bytes)
    (open_ : phase.incoming = some (x, rest)) :
    phase.file = some x.file ∧ ∃ s, phase.works = some s := by
  cases phase <;> first | (cases open_; exact ⟨rfl, _, rfl⟩) | cases open_

theorem continues_length (request : UploadRequest) (disk : ReceiverDisk) (id : String) (x : Incoming)
    (rest : List Bytes) (continues : Continues request disk id x rest) (clear : x.lastWriteErr = none) :
    ∃ written left, request.chunks = written ++ left ∧
      partialLength disk (partPath id x.file.id) none = .ok (request.offset + written.flatten.length) := by
  obtain ⟨written, bytes, chunks, node, stored, filled, offset⟩ := continues
  exact ⟨written, rest, chunks, by simp [partialLength, node, stored, filled.2.mpr clear, offset]⟩

theorem spoiled_act (sha256 : Bytes → String) (request : UploadRequest) (store : Store)
    (fault : Option Fault) (phase next : UploadPhase) (act : Act) (log : List Entry)
    (moved : UploadMove sha256 request store fault phase act log next) (x : Incoming) (rest : List Bytes)
    (open_ : phase.incoming = some (x, rest)) (notClear : x.lastWriteErr ≠ none) (clear : phase.Clear)
    (s : Nat) (session : Session) (held : phase.holds = some s) (at_ : store.heap[s]? = some session) :
    act = .tau ∨ act = .append x.fd [] ∨ act = .remove (partPath session.id x.file.id) := by
  have removed : removeAct (partPath session.id x.file.id) fault = .tau ∨
    removeAct (partPath session.id x.file.id) fault = .append x.fd [] ∨
      removeAct (partPath session.id x.file.id) fault = .remove (partPath session.id x.file.id) := by
    rcases remove_act_cases (partPath session.id x.file.id) fault with same | same
    · exact .inl same
    · exact .inr (.inr same)
  cases moved with
  | stopped t session' y chunks there tripped =>
      obtain ⟨rfl, rfl⟩ := Prod.mk.inj (Option.some.inj open_)
      obtain rfl := Option.some.inj held
      obtain rfl := Option.some.inj (at_.symm.trans there)
      exact removed
  | tooLarge t session' y chunk left there excess =>
      obtain ⟨rfl, rfl⟩ := Prod.mk.inj (Option.some.inj open_)
      obtain rfl := Option.some.inj held
      obtain rfl := Option.some.inj (at_.symm.trans there)
      exact removed
  | appended t session' y chunk left there fits sound =>
      obtain ⟨rfl, rfl⟩ := Prod.mk.inj (Option.some.inj open_)
      rcases sound with sound | rfl
      · exact absurd sound notClear
      · exact .inr (.inl rfl)
  | unseen t session' y chunk left written there fits sound short failed last =>
      obtain ⟨rfl, rfl⟩ := Prod.mk.inj (Option.some.inj open_)
      exact absurd sound notClear
  | torn t y chunk left written fits sound short =>
      obtain ⟨rfl, rfl⟩ := Prod.mk.inj (Option.some.inj open_)
      exact absurd sound notClear
  | mismatch t session' y bytes there read different =>
      obtain ⟨rfl, rfl⟩ := Prod.mk.inj (Option.some.inj open_)
      obtain rfl := Option.some.inj held
      obtain rfl := Option.some.inj (at_.symm.trans there)
      exact removed
  | _ => first | exact .inl rfl | (cases open_; done) | (cases open_; exact absurd clear notClear)

theorem upload_paths (sha256 : Bytes → String) (request : UploadRequest) (store : Store)
    (fault : Option Fault) (phase next : UploadPhase) (act : Act) (log : List Entry)
    (moved : UploadMove sha256 request store fault phase act log next) (s : Nat) (session : Session)
    (held : phase.holds = some s) (at_ : store.heap[s]? = some session) (path : Path)
    (touches : act = .openPart path ∨ act = .remove path) :
    ∃ file, phase.file = some file ∧ path = partPath session.id file.id := by
  have removed : ∀ own, removeAct own fault = .openPart path ∨ removeAct own fault = .remove path →
    path = own := by
    intro own touches
    rcases remove_act_cases own fault with same | same <;> rw [same] at touches
    · simp at touches
    · have equal : own = path := by simpa using touches
      exact equal.symm
  cases moved with
  | created t session' file baseline current there absent =>
      obtain rfl := Option.some.inj held
      obtain rfl := Option.some.inj (at_.symm.trans there)
      have opens : partPath session.id file.id = path := by simpa using touches
      exact ⟨file, rfl, opens.symm⟩
  | stopped t session' x chunks there tripped =>
      obtain rfl := Option.some.inj held
      obtain rfl := Option.some.inj (at_.symm.trans there)
      exact ⟨x.file, rfl, removed _ touches⟩
  | tooLarge t session' x chunk rest there excess =>
      obtain rfl := Option.some.inj held
      obtain rfl := Option.some.inj (at_.symm.trans there)
      exact ⟨x.file, rfl, removed _ touches⟩
  | mismatch t session' x bytes there read different =>
      obtain rfl := Option.some.inj held
      obtain rfl := Option.some.inj (at_.symm.trans there)
      exact ⟨x.file, rfl, removed _ touches⟩
  | stoppedLate t session' x there tripped =>
      obtain rfl := Option.some.inj held
      obtain rfl := Option.some.inj (at_.symm.trans there)
      exact ⟨x.file, rfl, removed _ touches⟩
  | discarded t session' x there =>
      obtain rfl := Option.some.inj held
      obtain rfl := Option.some.inj (at_.symm.trans there)
      exact ⟨x.file, rfl, removed _ touches⟩
  | _ => simp at touches

section Upload

variable (sha256 : Bytes → String) (state : State) (base : Base state) (owned : Owned state)
    (parted : Parted state.store.disk)
variable (admitted : Admitted state) (o : Nat) (fault : Option Fault) (request : UploadRequest)
    (phase later : UploadPhase) (act : Act)
variable (log : List Entry) (here : state.ops[o]? = some (.upload request phase))
variable (moved : UploadMove sha256 request state.store fault phase act log later)
include base parted admitted here moved

theorem upload_confined (file : TransferFile) (s : Nat) (session : Session) (works : phase.file = some file) (held : phase.holds = some s)
    (at_ : state.store.heap[s]? = some session) : Confined session.id file.id state.store.disk (state.store.apply o act).disk := by
  intro id other canonical different
  have sized := session_id_length state base s session at_
  have ours : ∀ path, act = .openPart path ∨ act = .remove path → partPath id other ≠ path := by
    intro path touches same
    obtain ⟨named, isFile, isPath⟩ :=
      upload_paths sha256 request state.store fault phase later act log moved s session held at_ path touches
    obtain rfl := Option.some.inj (works.symm.trans isFile)
    exact different (part_path_inj _ _ _ _ ((canonical_length id canonical).trans sized.symm) (same.trans isPath))
  have node : (state.store.apply o act).disk.node (partPath id other) = state.store.disk.node (partPath id other) := by
    rcases part_cases sha256 state base o fault _ _ act log here (.upload _ _ _ _ _ moved) id other (canonical_length id canonical) with
      same | ⟨_, _, _, _, _, _, _, _, _, _, opens, _⟩ | ⟨_, _, _, _, _, removes, _⟩
    · exact same
    · exact absurd rfl (ours _ (.inl opens))
    · exact absurd rfl (ours _ (.inr removes))
  refine ⟨node, ?_⟩
  unfold Disk.read
  rw [node]
  split
  · rename_i inode found
    obtain ⟨content, stored⟩ : ∃ content, state.store.disk.inodes[inode]? = some content :=
      ⟨_, List.getElem?_eq_getElem (parted.allocated _ _ found)⟩
    rw [stored]
    refine inode_kept state.store o act inode content stored ?_
    rintro bytes rfl
    cases op_effect sha256 state.store fault _ _ _ log (.upload _ _ _ _ _ moved) with
    | quiet _ _ _ silent => cases silent
    | append _ t x chunk rest _ _ start fits =>
        obtain rfl := Option.some.inj held
        obtain rfl := Option.some.inj works
        obtain ⟨_, _, _, open_, _⟩ := admitted.incoming o request _ x (chunk :: rest) _ session here rfl rfl at_
        exact absurd (parted.separate id other session.id x.file.id x.fd (canonical_length id canonical) sized found open_) different
  · rfl

include owned

theorem upload_authorized : Untouched state.store (state.store.apply o act) ∨
    ∃ file, (Authorized request state.store file ∨
      Withdrawn request state.store (state.store.apply o act) file) ∧
      Confined request.transferId file.id state.store.disk (state.store.apply o act).disk := by
  have admitted_ : ∀ s file, phase.works = some s → phase.file = some file →
    ∃ session, state.store.heap[s]? = some session ∧
      session.id = request.transferId ∧ state.store.sessions.lookup request.transferId = some s ∧
        Granted request session.record file ∧ Confined request.transferId file.id state.store.disk
        (state.store.apply o act).disk := by
    intro s file working works
    have held := works_holds (.upload request phase) s working
    obtain ⟨session, at_, named⟩ := base.known o _ s here (holds_session _ s held)
    have found := owned.working o _ s session here working at_
    have confined :=
      upload_confined sha256 state base parted admitted o fault request phase later act log here moved file
        s session works held at_
    rw [show session.id = request.transferId from named] at found confined
    exact ⟨session, at_, named, found, admitted.granted o request phase file s session here works held at_,
      confined⟩
  rcases acting_phase sha256 request state.store fault phase later act log moved with
    idle | ⟨s, file, baseline, length, rfl⟩ | ⟨x, rest, open_⟩
  · exact .inl (idle_untouched state.store o act idle)
  · obtain ⟨session, at_, named, found, granted, confined⟩ := admitted_ s file rfl rfl
    obtain ⟨rfl, measured⟩ := admitted.opening o request s file baseline length session here at_
    rw [named] at measured
    exact .inr ⟨file, .inl ⟨s, session, found, at_, granted, [], request.chunks, rfl, measured⟩, confined⟩
  · obtain ⟨works, s, working⟩ := incoming_file phase x rest open_
    obtain ⟨session, at_, named, found, granted, confined⟩ := admitted_ s x.file working works
    have held := works_holds (.upload request phase) s working
    by_cases clear : x.lastWriteErr = none
    · have continues := admitted.incoming o request phase x rest s session here open_ held at_
      rw [named] at continues
      exact .inr ⟨x.file,
        .inl ⟨s, session, found, at_, granted, continues_length request _ _ x rest continues clear⟩, confined⟩
    · rcases spoiled_act sha256 request state.store fault phase later act log moved x rest open_ clear
        (admitted.clear o request phase here) s session held at_ with rfl | rfl | rfl
      · exact .inl (idle_untouched state.store o .tau (.inl rfl))
      · refine .inl ⟨append_nothing state.store.disk x.fd, rfl, fun t other there => ⟨other, there, rfl,
          rfl, rfl⟩⟩
      · exact .inr ⟨x.file, .inr ⟨s, session, found, at_, granted, by rw [named]; rfl⟩, confined⟩

end Upload

-- The invariant of the runs in which no late decision reaches a forgotten session.
structure Guarded (state : State) : Prop where
  base : Base state
  owned : Owned state
  parted : Parted state.store.disk
  admitted : Admitted state

theorem guarded_step (sha256 : Bytes → String) (state next : State) (label : Label) (inv : Guarded state)
    (fresh : staleFree state label = true) (stepped : step sha256 state label = some next) :
    Guarded next := by
  refine ⟨base_step sha256 state next label inv.base stepped, owned_step sha256 state next label inv.base
    inv.owned fresh stepped,
    parted_step sha256 state next label inv.base inv.parted stepped, ?_⟩
  rcases step_cases sha256 state next label stepped with ⟨call, _, _, rfl⟩ |
    ⟨o, fault, op, act, log, op', rfl, here, moved, rfl⟩ |
    ⟨_, _, rfl⟩ | ⟨store, _, stopped, _, rfl⟩
  · -- A call starts with the lookup of its session.
    have idle : ∀ (o : Nat) (request : UploadRequest) (phase : UploadPhase), (state.ops ++ [call.op])[o]? =
      some (.upload request phase) →
        state.ops[o]? = some (.upload request phase) ∨ phase = .lookup := by
      intro o request phase there
      rcases Transition.append_cases state.ops o call.op _ there with before | new
      · exact .inl before
      · cases call <;> cases new
        exact .inr rfl
    refine ⟨?_, ?_, ?_, ?_⟩
    · intro o request phase file s session there works held at_
      rcases idle o request phase there with before | rfl
      · exact inv.admitted.granted o request phase file s session before works held at_
      · cases works
    · intro o request s file baseline current session there at_
      rcases idle o request _ there with before | new
      · exact inv.admitted.opening o request s file baseline current session before at_
      · cases new
    · intro o request phase x rest s session there open_ held at_
      rcases idle o request phase there with before | rfl
      · exact inv.admitted.incoming o request phase x rest s session before open_ held at_
      · cases open_
    · intro o request phase there
      rcases idle o request phase there with before | rfl
      · exact inv.admitted.clear o request phase before
      · trivial
  · exact admitted_advance sha256 state inv.base inv.owned inv.parted inv.admitted o fault op op' act log
      here fresh moved
  · exact ⟨by simp, by simp, by simp, by simp⟩
  · have none_ := (inv.base.stopped stopped).1
    exact ⟨by simp [none_], by simp [none_], by simp [none_], by simp [none_]⟩

theorem run_guarded (sha256 : Bytes → String) (start final : State) (initial : Initial start)
    (run : Transition.Run (step sha256) (fun state label => staleFree state label = true) start final) :
    Guarded final :=
  Transition.run_invariant (step sha256) _ Guarded
    (fun state label next good fresh stepped => guarded_step sha256 state next label good fresh stepped)
    start final run
    ⟨initial_base start initial, initial_owned start initial, initial_parted start initial,
      by simp [initial.idle], by simp [initial.idle], by simp [initial.idle], by simp [initial.idle]⟩

theorem identity_forward (original before after : Record) (forward : before.Forward after)
    (same : original.SameIdentity before) :
    original.SameIdentity after := by
  obtain ⟨manifest, pending, owner_, token⟩ := same
  obtain ⟨manifest', pending', owner', token'⟩ := forward.same
  exact ⟨manifest.trans manifest', pending.trans pending', owner_.trans owner', token.trans token'⟩

-- Calls that could accept a session of id: a local accept, or a registration
-- from a trusted source.
def grantless (id : String) : Label → Bool
  | .call (.accept other) => other != id
  | .call (.register request) => !(request.trusted && request.id == id)
  | _ => true

structure Ungranted (id : String) (state : State) : Prop where
  noAccept : ∀ (o : Nat) (phase : AcceptPhase), state.ops[o]? ≠ some (.accept id phase)
  untrusted : ∀ (o : Nat) (request : RegisterRequest) (phase : RegisterPhase),
    state.ops[o]? = some (.register request phase) →
    request.id = id → request.trusted = false
  undecided : ∀ record, Listed state.store record → record.pending.id = id → record.decision ≠ .accepted

theorem ungranted_step (sha256 : Bytes → String) (id : String) (state next : State) (label : Label)
    (base : Base state) (ungranted : Ungranted id state) (allowed : grantless id label = true)
    (stepped : step sha256 state label = some next) :
    Ungranted id next := by
  rcases step_cases sha256 state next label stepped with ⟨call, rfl, _, rfl⟩ |
    ⟨o, fault, op, act, log, op', rfl, here, moved, rfl⟩ |
    ⟨rfl, _, rfl⟩ | ⟨store, rfl, stopped, loaded, rfl⟩
  · refine ⟨?_, ?_, ungranted.undecided⟩
    · intro o phase there
      rcases Transition.append_cases state.ops o call.op _ there with before | new
      · exact ungranted.noAccept o phase before
      · cases call with
        | accept other =>
            cases new
            simp [grantless] at allowed
        | _ => cases new
    · intro o request phase there named
      rcases Transition.append_cases state.ops o call.op _ there with before | new
      · exact ungranted.untrusted o request phase before named
      · cases call with
        | register other =>
            cases new
            simpa [grantless, named] using allowed
        | _ => cases new
  · refine ⟨?_, ?_, ?_⟩
    · intro p phase there
      rcases Transition.set_cases state.ops o p op' _ there with ⟨rfl, rfl⟩ | ⟨_, before⟩
      · cases moved with
        | accept _ earlier _ _ _ _ => exact ungranted.noAccept p earlier here
      · exact ungranted.noAccept p phase before
    · intro p request phase there named
      rcases Transition.set_cases state.ops o p op' _ there with ⟨rfl, rfl⟩ | ⟨_, before⟩
      · cases moved with
        | register _ earlier _ _ _ _ => exact ungranted.untrusted p request earlier here named
      · exact ungranted.untrusted p request phase before named
    · intro record listed named
      rcases listed_origin sha256 state base o fault op op' act log here moved record listed with
        before | ⟨s, session, at_, write⟩ | ⟨request, phase, rfl, rfl⟩
      · exact ungranted.undecided record before named
      · have earlier := ungranted.undecided session.record (.inl ⟨s, session, at_, rfl⟩)
        cases write with
        | accept other saved struck open_ =>
            obtain ⟨known, at', owned⟩ := base.known o _ s here rfl
            obtain rfl := Option.some.inj (at_.symm.trans at')
            have ours : other = id := owned.symm.trans ((base.sound s session at_).named.trans named)
            exact absurd (ours ▸ here) (ungranted.noAccept o _)
        | reject other saved struck undecided => simp
        | _ => exact earlier named
      · simp [RegisterRequest.record, ungranted.untrusted o request phase here named]
  · exact ⟨by simp, by simp, fun record listed => ungranted.undecided record
      (listed_crashed state.store record listed)⟩
  · have none_ := (base.stopped stopped).1
    have spec := load_loaded state.store.disk store loaded
    exact ⟨by simp [none_], by simp [none_],
      fun record listed => ungranted.undecided record (listed_restarted state.store store spec record listed)⟩

theorem run_ungranted (sha256 : Bytes → String) (id : String) (start final : State) (initial : Initial start)
    (run : Transition.Run (step sha256) (fun _ label => grantless id label = true) start final) :
    Ungranted id final :=
  (Transition.run_invariant (step sha256) _ (fun state => Base state ∧ Ungranted id state)
    (fun state label next good allowed stepped => ⟨base_step sha256 state next label good.1 stepped,
      ungranted_step sha256 id state next label good.1 good.2 allowed stepped⟩) start final run
    ⟨initial_base start initial, by simp [initial.idle], by simp [initial.idle],
      fun record listed => absurd listed (initial_unlisted start initial record)⟩).2

-- Who changes what by an upload, what a registration fixes, and where acceptance comes from.
theorem uploads_need_authority (sha256 : Bytes → String) (start state : State) (initial : Initial start)
    (run : Transition.Run (step sha256) (fun state label => staleFree state label = true) start state) :
    (∀ (o : Nat) (fault : Option Fault) (request : UploadRequest) (phase : UploadPhase) (next : State),
      state.ops[o]? = some (.upload request phase) → step sha256 state (.advance o fault) = some next →
        Untouched state.store next.store ∨
          ∃ file, (Authorized request state.store file ∨ Withdrawn request state.store next.store file) ∧
            Confined request.transferId file.id state.store.disk next.store.disk) ∧
    (∀ (id : String) (s : Nat) (session : Session) (final : State), state.store.sessions.lookup id = some s →
      state.store.heap[s]? = some session → (∀ o : Nat, state.ops[o]? ≠ some (.forget id (.evict s))) →
        Transition.Run (step sha256) (fun state label => staleFree state label = true ∧
          erases id state label = false) state final →
          (∃ journal, final.store.disk.doc (journalPath id) = some journal ∧
            session.record.SameIdentity journal) ∧
          (final.running = true → ∃ s' session', final.store.sessions.lookup id = some s' ∧
            final.store.heap[s']? = some session' ∧
            session.record.SameIdentity session'.record)) ∧
    (∀ id, Transition.Run (step sha256) (fun _ label => grantless id label = true) start state →
      ∀ (s : Nat) (session : Session), state.store.heap[s]? = some session → session.id = id →
        session.record.decision ≠ .accepted) := by
  have inv := run_guarded sha256 start state initial run
  refine ⟨?_, ?_, ?_⟩
  · intro o fault request phase next here stepped
    obtain ⟨op, act, log, op', here', taken, rfl⟩ := step_advance sha256 state next o fault stepped
    obtain rfl := Option.some.inj (here.symm.trans here')
    cases op_next_move sha256 state.store fault _ op' act log taken with
    | upload _ _ later _ _ moved =>
        exact upload_authorized sha256 state inv.base inv.owned inv.parted inv.admitted o fault request
          phase later act log here moved
  · intro id s session final present at_ unforgotten later
    have recorded : Recorded id session.record.SameIdentity state := by
      refine ⟨?_, fun _ => by simp [present], ?_, ?_⟩
      · rcases inv.owned.held id s session present at_ with ⟨o, forgetting⟩ | ⟨journal, written, forward⟩
        · exact absurd forgetting (unforgotten o)
        · obtain ⟨manifest, pending, owner_, token⟩ := forward.same
          exact ⟨journal, written, manifest.symm, pending.symm, owner_.symm, token.symm⟩
      · intro o t forgetting
        obtain rfl : t = s := Option.some.inj ((inv.base.facts o _ forgetting).1.symm.trans present)
        exact unforgotten o forgetting
      · rintro rfl
        exact absurd (mapped_length state inv.base "" s present) (by decide)
    obtain ⟨kept, fixed⟩ := Transition.run_invariant (step sha256) _ (fun state => Guarded state ∧
      Recorded id session.record.SameIdentity state)
      (fun state label next good allowed stepped =>
      ⟨guarded_step sha256 state next label good.1 allowed.1 stepped,
        recorded_step sha256 state next label good.1.base good.1.owned allowed.1 id
        session.record.SameIdentity
          (identity_forward session.record) good.2 allowed.2 stepped⟩) state final later ⟨inv, recorded⟩
    exact ⟨fixed.journal, recorded_memory final kept.base kept.owned id _ (identity_forward session.record)
      fixed⟩
  · intro id unaccepted s session at_ named
    have ungranted := run_ungranted sha256 id start state initial unaccepted
    exact ungranted.undecided session.record (.inl ⟨s, session, at_, rfl⟩)
      ((inv.base.sound s session at_).named.symm.trans named)

def settled (id : String) (s : Nat) (state : State) : Bool :=
  state.store.sessions.lookup id == some s && state.ops.all fun op => match op with
    | .forget _ (.evict _) => false
    | _ => true

theorem settled_sound (id : String) (s : Nat) (state : State) (checked : settled id s state = true) :
    state.store.sessions.lookup id = some s ∧ ∀ o : Nat, state.ops[o]? ≠ some (.forget id (.evict s)) := by
  simp only [settled, Bool.and_eq_true, beq_iff_eq, List.all_eq_true] at checked
  refine ⟨checked.1, fun o forgetting => ?_⟩
  have idle := checked.2 _ (List.mem_of_getElem? forgetting)
  cases idle

def appendsFirst (state : State) : Bool :=
  ((state.ops[1]?).any fun op => match op with
    | .upload request _ => request.transferId == smallId
    | _ => false) &&
  (step emptyHash state (.advance 1 none)).any fun next =>
    state.store.disk.read (partPath smallId wideFile.id) == some [] && next.store.disk.read
      (partPath smallId wideFile.id) == some [7]

theorem appends_first_sound (state : State) (checked : appendsFirst state = true) : ∃ request phase next,
    state.ops[1]? = some (.upload request phase) ∧
      request.transferId = smallId ∧ step emptyHash state (.advance 1 none) = some next ∧
      state.store.disk.read (partPath smallId wideFile.id) = some [] ∧
        next.store.disk.read (partPath smallId wideFile.id) = some [7] := by
  simp only [appendsFirst, Bool.and_eq_true, Option.any_eq_true, beq_iff_eq] at checked
  obtain ⟨⟨op, here, uploads⟩, next, stepped, before, after⟩ := checked
  cases op with
  | upload request phase => exact ⟨request, phase, next, here, by simpa using uploads, stepped, before, after⟩
  | _ => cases uploads

-- The upload of one byte is at its first chunk; the session keeps its identity over a restart.
theorem first_chunk_is_authorized : ∃ (state next final : State) (request : UploadRequest)
    (file : TransferFile) (session : Session),
    Transition.Run (step emptyHash) (fun state label => staleFree state label = true) emptyState state ∧
      step emptyHash state (.advance 1 none) = some next ∧
        next.store.disk.read (partPath smallId wideFile.id) = some [7] ∧
        Authorized request state.store file ∧ request.transferId = smallId ∧
          state.store.heap[0]? = some session ∧
          final.running = true ∧ ∃ (s : Nat) (restored : Session), final.store.sessions.lookup smallId =
            some s ∧
            final.store.heap[s]? = some restored ∧ session.record.SameIdentity restored.record := by
  obtain ⟨state, run, checked⟩ :=
    Transition.replay_reaches (step emptyHash) (fun state label => staleFree state label = true)
    (.start :: .call (.register (wideRegister smallId)) :: advances 0 7 ++
      .call (.upload (brokenUpload smallId 7)) :: advances 1 5) emptyState
    (fun state => appendsFirst state && settled smallId 0 state && (state.store.heap[0]?).isSome &&
      (Transition.replay (step emptyHash) (fun state label => staleFree state label = true ∧
        erases smallId state label = false) state
        [.crash, .start]).any (·.running)) (by decide +kernel)
  simp only [Bool.and_eq_true] at checked
  obtain ⟨⟨⟨appends, ready⟩, exists_⟩, restarted⟩ := checked
  obtain ⟨final, later, running⟩ := Transition.replay_reaches (step emptyHash)
    (fun state label => staleFree state label = true ∧ erases smallId state label = false)
    [.crash, .start] state (·.running) restarted
  obtain ⟨request, phase, next, here, named, stepped, before, after⟩ := appends_first_sound state appends
  obtain ⟨present, unforgotten⟩ := settled_sound smallId 0 state ready
  obtain ⟨session, at_⟩ := Option.isSome_iff_exists.mp exists_
  obtain ⟨authority, fixed, _⟩ := uploads_need_authority emptyHash emptyState state empty_initial run
  rcases authority 1 none request phase next here stepped with untouched |
    ⟨file, authorized | ⟨_, _, _, _, _, gone⟩, _⟩
  · rw [untouched.disk, before] at after
    cases after
  · exact ⟨state, next, final, request, file, session, run, stepped, after, authorized, named, at_, running,
      (fixed smallId 0 session final present at_ unforgotten later).2 running⟩
  · rw [gone] at after
    have remains := read_remove _ _ _ _ after
    rw [before] at remains
    cases remains

-- An untrusted peer offers another file under the id, cancels it, and a late
-- rejection has looked the session up when it is forgotten. A trusted peer
-- registers the id anew.
def supersededRun : List Label :=
  .start :: .call
    (.register { smallRegister false with manifest := otherManifest, token := "u", peer := ⟨"10.0.0.3", none⟩ }) ::
    advances 0 7 ++ .call (.cancel none smallId) :: advances 1 8 ++ .call (.reject smallId) :: advances 2 1 ++
    .call (.forget smallId) :: advances 3 9 ++ .call (.register (smallRegister true)) :: advances 4 7

def recordOf (s : Nat) (address token file : String) (store : Store) : Bool :=
  (store.heap[s]?).any fun session =>
    session.record.owner == address && session.record.token == token && session.record.manifest.fileIds ==
      [file]

theorem record_of_sound (s : Nat) (address token file : String) (store : Store)
    (checked : recordOf s address token file store = true) :
    ∃ session : Session, store.heap[s]? = some session ∧ session.record.owner = address ∧
      session.record.token = token ∧
      session.record.manifest.fileIds = [file] := by
  simp only [recordOf, Option.any_eq_true, Bool.and_eq_true, beq_iff_eq] at checked
  obtain ⟨session, at_, ⟨owner_, token_⟩, files⟩ := checked
  exact ⟨session, at_, owner_, token_, files⟩

-- The rejection persists the old session, and the restart loads it.
theorem late_reject_replaces_session : ∃ start state final, Initial start ∧
    Transition.Run (step emptyHash) (fun _ label => faultless label = true) start state ∧
      Transition.Run (step emptyHash)
      (fun state label => faultless label = true ∧ erases smallId state label = false) state final ∧
        ∃ (s s' : Nat) (session session' : Session), state.store.sessions.lookup smallId = some s ∧
          state.store.heap[s]? = some session ∧
          (∀ o : Nat, state.ops[o]? ≠ some (.forget smallId (.evict s))) ∧ final.running = true ∧
            final.store.sessions.lookup smallId = some s' ∧ final.store.heap[s']? = some session' ∧
              session'.record.owner ≠ session.record.owner ∧ session'.record.token ≠ session.record.token ∧
                session'.record.manifest ≠ session.record.manifest := by
  obtain ⟨state, run, checked⟩ :=
    Transition.replay_reaches (step emptyHash) (fun _ label => faultless label = true)
    supersededRun emptyState (fun state => recordOf 1 "ip:10.0.0.2" "t" smallFile.id state.store &&
      settled smallId 1 state &&
      (Transition.replay (step emptyHash) (fun state label => faultless label = true ∧
        erases smallId state label = false) state (advances 2 2 ++ [.crash, .start])).any fun final =>
        final.running && recordOf 0 "ip:10.0.0.3" "u" otherFile.id final.store &&
        final.store.sessions.lookup smallId == some 0) (by decide +kernel)
  simp only [Bool.and_eq_true] at checked
  obtain ⟨⟨new, ready⟩, restarted⟩ := checked
  obtain ⟨final, later, ended⟩ := Transition.replay_reaches (step emptyHash)
    (fun state label => faultless label = true ∧ erases smallId state label = false)
    (advances 2 2 ++ [.crash, .start]) state _ restarted
  simp only [Bool.and_eq_true, beq_iff_eq] at ended
  obtain ⟨⟨running, old⟩, found⟩ := ended
  obtain ⟨present, unforgotten⟩ := settled_sound smallId 1 state ready
  obtain ⟨session, at_, owner_, token, files⟩ := record_of_sound 1 _ _ _ state.store new
  obtain ⟨session', at', owner', token', files'⟩ := record_of_sound 0 _ _ _ final.store old
  refine ⟨emptyState, state, final, empty_initial, run, later, 1, 0, session, session', present, at_,
    unforgotten, running, found, at', ?_, ?_, ?_⟩
  · rw [owner_, owner']
    decide
  · rw [token, token']
    decide
  · intro same
    rw [same, files] at files'
    exact absurd files' (by decide)

end GoshTransfer
