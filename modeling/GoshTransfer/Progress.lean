import GoshTransfer.Counting

set_option autoImplicit false

namespace GoshTransfer

open InodeStore

def Entry.progressFor (s : Nat) : Entry → Option TransferProgress
  | .event t (.transferProgress progress) => if t = s then some progress else none
  | _ => none

def latestProgress (s : Nat) (log : List Entry) : Option TransferProgress :=
    (log.filterMap (Entry.progressFor s)).getLast?

-- The step reports this progress of a session.
def Emits (state next : State) (s : Nat) (progress : TransferProgress) : Prop :=
  ∃ log, next.log = state.log ++ log ∧ .event s (.transferProgress progress) ∈ log

-- A progress event that says how much of its session has been received.
def Accurate (store : Store) (s : Nat) (progress : TransferProgress) : Prop :=
  ∃ session, store.heap[s]? = some session ∧ session.id = progress.transferId ∧
    store.sessions.lookup progress.transferId = some s ∧
    progress.bytesTransferred = received store.disk session.id session.record ∧
      progress.totalBytes = declaredSize session.record.manifest ∧
        progress.bytesTransferred ≤ progress.totalBytes

-- Every TransferComplete is preceded by a progress event that tells the total.
def ToldInFull (log : List Entry) : Prop := ∀ before after s id, log = before ++ .event s
    (.transferComplete id) :: after →
  ∃ progress, latestProgress s before = some progress ∧ progress.transferId = id ∧
    progress.bytesTransferred = progress.totalBytes

-- The places that are reached by discarding partials of a session, or on the way to it.
def Op.discards (id : String) : Op → Bool
  | .upload request (.leave _ reply) =>
      request.transferId == id && (reply.code == 410 || reply.code == 413 || reply.code == 422)
  | .cancel _ other (.discard _ _ _) => other == id
  | .forget other (.discard _ _) => other == id
  | _ => false

-- No upload of the session is answered 410, 413 or 422, and nobody cancels or forgets it.
def spares (sha256 : Bytes → String) (id : String) (state : State) (label : Label) : Bool :=
  !erases id state label && match label with
    | .advance o fault => (state.ops[o]?).all fun op =>
        (op.next sha256 state.store fault).all fun (_, _, op') => !op'.discards id
    | _ => true

-- Progress is reported for this offset.
def Incoming.due (x : Incoming) (offset : Nat) : Bool := offset - x.last ≥ 32768 || offset == x.file.size

-- A write fails unseen on a chunk for which progress is reported.
def lostReport (state : State) : Label → Bool
  | .advance o (some (.write written)) =>
      match state.ops[o]? with
      | some (.upload _ (.receive _ x (chunk :: _))) =>
          unseen chunk written && x.due (x.offset + chunk.length)
      | _ => false
  | _ => false

-- After a write that failed unseen nothing is reported any more.
def Quiet (state : State) : Prop :=
  ∀ (o : Nat) (request : UploadRequest) (s : Nat) (x : Incoming) (chunks : List Bytes),
    state.ops[o]? = some (.upload request (.receive s x chunks)) →
    x.lastWriteErr ≠ none → x.due x.offset = false

theorem grown_last (s : Nat) (request : UploadRequest) (record : Record) (x : Incoming) (chunk : Bytes)
    (silent : x.due (x.offset + chunk.length) = false) : (grown s request record x chunk).last = x.last := by
  simp only [Incoming.due, Bool.or_eq_false_iff, decide_eq_false_iff_not, beq_eq_false_iff_ne] at silent
  simp [grown, progressLog, silent.1, silent.2]

theorem quiet_own (sha256 : Bytes → String) (state : State) (quiet : Quiet state) (o : Nat)
    (fault : Option Fault) (request : UploadRequest) (phase : UploadPhase) (act : Act) (log : List Entry)
    (here : state.ops[o]? = some (.upload request phase)) (s : Nat) (x : Incoming) (chunks : List Bytes)
    (moved : UploadMove sha256 request state.store fault phase act log (.receive s x chunks))
    (seen : lostReport state (.advance o fault) = false) (broken : x.lastWriteErr ≠ none) :
      x.due x.offset = false := by
  generalize isNext : UploadPhase.receive s x chunks = next at moved
  cases moved with
  | created t session file baseline current at_ absent =>
      cases isNext
      exact absurd rfl broken
  | reopened t session file baseline current inode at_ present =>
      cases isNext
      exact absurd rfl broken
  | appended t session y chunk rest at_ fits clear =>
      cases isNext
      rcases clear with clear | rfl
      · exact absurd clear broken
      · have silent := quiet o request s y _ here broken
        have last := grown_last s request session.record y [] silent
        unfold Incoming.due
        rw [last]
        exact silent
  | unseen t session y chunk rest written at_ fits clear short failed ended =>
      cases isNext
      have silent :
        y.due (y.offset + chunk.length) = false := by simpa [lostReport, here, failed, ended] using seen
      have last : (spoiled s request session.record y chunk written).last = y.last :=
        grown_last s request session.record y chunk silent
      unfold Incoming.due
      rw [last]
      exact silent
  | _ => cases isNext

theorem quiet_step (sha256 : Bytes → String) (state next : State) (label : Label) (inv : Guarded state)
    (quiet : Quiet state) (seen : lostReport state label = false)
    (stepped : step sha256 state label = some next) : Quiet next := by
  intro p request s x chunks there
  rcases step_cases sha256 state next label stepped with ⟨call, _, _, rfl⟩ |
    ⟨o, fault, op, act, log, op', rfl, here, moved, rfl⟩ |
    ⟨_, _, rfl⟩ | ⟨store, _, stopped, _, rfl⟩
  · rcases Transition.append_cases state.ops p call.op _ there with before | new
    · exact quiet p request s x chunks before
    · cases call <;> cases new
  · rcases Transition.set_cases state.ops o p op' _ there with ⟨rfl, rfl⟩ | ⟨_, before⟩
    · cases moved with
      | upload _ earlier _ _ _ moved =>
          exact quiet_own sha256 state quiet p fault request earlier act log here s x chunks moved seen
    · exact quiet p request s x chunks before
  · cases there
  · rw [(inv.base.stopped stopped).1] at there
    cases there

-- Where progress is reported: after a chunk has been taken, and when a file is published.
inductive Emission (store : Store) (fault : Option Fault) (s : Nat) (progress : TransferProgress) :
    Op → Act → Op → Prop where
  | chunk (request : UploadRequest) (session : Session) (x : Incoming) (chunk : Bytes) (rest : List Bytes)
      (here : store.heap[s]? = some session) (clear : x.lastWriteErr = none ∨ chunk = [])
      (due : x.due (x.offset + chunk.length) = true)
      (told : progressEvent request session.record (grown s request session.record x chunk) =
      .transferProgress progress) :
      Emission store fault s progress (.upload request (.receive s x (chunk :: rest))) (.append x.fd chunk)
        (.upload request (.receive s (grown s request session.record x chunk) rest))
  | unseen (request : UploadRequest) (session : Session) (x : Incoming) (chunk : Bytes) (rest : List Bytes)
      (written : Nat) (here : store.heap[s]? = some session) (failed : fault = some (.write written))
      (last : unseen chunk written = true)
      (due : x.due (x.offset + chunk.length) = true) :
      Emission store fault s progress (.upload request (.receive s x (chunk :: rest)))
      (.append x.fd (chunk.take written))
        (.upload request (.receive s (spoiled s request session.record x chunk written) rest))
  | published (request : UploadRequest) (session : Session) (x : Incoming)
      (here : store.heap[s]? = some session)
      (told : progressEvent request session.record x = .transferProgress progress) :
      Emission store fault s progress (.upload request (.announce s x)) .tau
      (.upload request (.leave s (.plain 200)))

theorem grown_told (s t : Nat) (request : UploadRequest) (record : Record) (x : Incoming) (chunk : Bytes)
    (progress : TransferProgress)
    (told : .event s (.transferProgress progress) ∈ grownLog t request record x chunk) :
    s = t ∧ x.due (x.offset + chunk.length) = true ∧
      progressEvent request record (grown t request record x chunk) = .transferProgress progress := by
  unfold grownLog progressLog at told
  split at told
  · rename_i due
    obtain ⟨same, event⟩ : s = t ∧ _ = _ := by simpa only [List.mem_singleton, Entry.event.injEq] using told
    exact ⟨same, due, event.symm⟩
  · cases told

theorem op_emission (sha256 : Bytes → String) (store : Store) (fault : Option Fault) (op op' : Op)
    (act : Act) (log : List Entry) (s : Nat) (progress : TransferProgress)
    (moved : OpMove sha256 store fault op act log op') (told : .event s (.transferProgress progress) ∈ log) :
    Emission store fault s progress op act op' := by
  cases moved with
  | accept id phase next _ _ moved => cases moved <;> simp at told
  | reject id phase next _ _ moved => cases moved <;> simp at told
  | cancel caller id phase next _ _ moved => cases moved <;> simp at told
  | forget id phase next _ _ moved => cases moved <;> simp at told
  | register request phase next _ _ moved =>
      cases moved with
      | inserted => split at told <;> simp at told
      | _ => simp at told
  | status peer id phase next _ _ moved => cases moved <;> simp at told
  | upload request phase next _ _ moved =>
      cases moved with
      | appended t session x chunk rest here fits clear =>
          obtain ⟨rfl, due, event⟩ := grown_told s t request session.record x chunk progress told
          exact .chunk request session x chunk rest here clear due event
      | unseen t session x chunk rest written here fits clear short failed last =>
          obtain ⟨rfl, due, _⟩ := grown_told s t request session.record x chunk progress told
          exact .unseen request session x chunk rest written here failed last due
      | announced t session x here =>
          unfold completionLog at told
          rcases List.mem_cons.mp told with event | later
          · obtain ⟨rfl, same⟩ := Entry.event.inj event
            exact .published request session x here same.symm
          · split at later <;> simp at later
      | _ => simp at told

-- What the journal on disk says has been received.
def banked (disk : ReceiverDisk) (id : String) : Nat :=
  match disk.doc (journalPath id) with
  | some journal => received disk id journal
  | none => 0

theorem banked_journal (disk : ReceiverDisk) (id : String) (journal : Record)
    (written : disk.doc (journalPath id) = some journal) :
    banked disk id = received disk id journal := by
  simp [banked, written]

theorem backed_received (disk : ReceiverDisk) (id : String) (record journal : Record)
    (forward : journal.Forward record) (backed : Backed disk id record journal) :
    received disk id journal = received disk id record := by
  refine received_same disk disk id record journal forward.same.1 fun file member => ?_
  unfold stored
  cases saved : journal.published.lookup file.id with
  | some path => simp [forward.receipts file.id path saved]
  | none =>
      cases known : record.published.lookup file.id with
      | none => rfl
      | some path => simpa using backed file member (by simp [known]) saved

section Counted

variable (state : State) (inv : Guarded state) (reckoned : Reckoned state) (o : Nat)
    (request : UploadRequest) (phase : UploadPhase)
variable (x : Incoming) (s : Nat) (session : Session) (here : state.ops[o]? = some (.upload request phase))
    (counts : phase.counts = some x)
variable (held : phase.holds = some s) (at_ : state.store.heap[s]? = some session)
include inv reckoned here counts held at_

theorem counted_accurate (clear : x.lastWriteErr = none) (progress : TransferProgress)
    (told : progressEvent request session.record x = .transferProgress progress) :
    Accurate state.store s progress := by
  obtain rfl := EngineEvent.transferProgress.inj told
  obtain ⟨session', at', named⟩ := inv.base.known o _ s here (holds_session _ s held)
  obtain rfl := Option.some.inj (at_.symm.trans at')
  have present := inv.owned.working o _ s session here (counts_works phase x s counts held).1 at_
  obtain ⟨balance, within⟩ := reckoned.counted o request phase x s session here counts held at_
  have total := tallied_size session.record (inv.base.sound s session at_).record
    (reckoned.tallied _ (.inl ⟨s, session, at_, rfl⟩))
  have bytes : x.baseline + x.offset - x.current = received state.store.disk session.id session.record := by
    have exact_ := balance clear
    omega
  have sameId : session.id = request.transferId := named
  refine ⟨session, at_, sameId, sameId ▸ present, bytes, total, ?_⟩
  show x.baseline + x.offset - x.current ≤ session.record.pending.totalSize
  rw [bytes, total]
  exact received_bounded _ _ _ within

theorem counted_banked :
    banked state.store.disk session.id = received state.store.disk session.id session.record := by
  have present := inv.owned.working o _ s session here (counts_works phase x s counts held).1 at_
  obtain ⟨journal, written, forward⟩ := held_journal state inv.base inv.owned o _ here s session held
    (by simp) at_ present
  rw [banked_journal _ _ journal written]
  refine backed_received _ _ _ _ forward ?_
  have facts := inv.base.facts o _ here s session held at_
  rcases file_facts request session.record phase x.file s (counts_works phase x s counts held).2 held
    facts with working | announcing
  · have open_ := working_open session.record x.file (inv.base.sound s session at_).record working
    exact reckoned.backed s session journal at_ present open_ working.live written
  · obtain rfl :=
      Option.some.inj (written.symm.trans (reckoned.sealed o request phase s session here announcing at_))
    intro file _ receipt missing
    rw [missing] at receipt
    cases receipt

end Counted

theorem emits_step (sha256 : Bytes → String) (state next : State) (label : Label)
    (stepped : step sha256 state label = some next) (s : Nat) (progress : TransferProgress)
    (emits : Emits state next s progress) :
    ∃ o fault op act log op', label = .advance o fault ∧ state.ops[o]? = some op ∧
      OpMove sha256 state.store fault op act log op' ∧
      next = { state with store := state.store.apply o act, ops := state.ops.set o op', log := state.log ++ log } ∧
        Emission state.store fault s progress op act op' := by
  obtain ⟨more, extended, told⟩ := emits
  have nothing : next.log = state.log → False := by
    intro same
    rw [same] at extended
    rw [List.append_right_eq_self.mp extended.symm] at told
    cases told
  rcases step_cases sha256 state next label stepped with ⟨call, _, _, rfl⟩ |
    ⟨o, fault, op, act, log, op', rfl, here, moved, rfl⟩ |
    ⟨_, _, rfl⟩ | ⟨store, _, stopped, _, rfl⟩
  · exact (nothing rfl).elim
  · obtain rfl := List.append_cancel_left extended
    exact ⟨o, fault, op, act, log, op', rfl, here, moved, rfl, op_emission sha256 state.store fault op op'
      act log s progress moved told⟩
  · exact (nothing rfl).elim
  · exact (nothing rfl).elim

theorem emits_accurate (sha256 : Bytes → String) (state next : State) (label : Label) (inv : Guarded state)
    (reckoned : Reckoned state) (quiet : Quiet state) (seen : lostReport state label = false)
    (stepped : step sha256 state label = some next) (s : Nat) (progress : TransferProgress)
    (emits : Emits state next s progress) :
    Accurate next.store s progress ∧
      progress.bytesTransferred = banked next.store.disk progress.transferId := by
  have told : ∀ (state : State) (o : Nat) (request : UploadRequest) (phase : UploadPhase) (x : Incoming)
    (session : Session), Guarded state →
      Reckoned state → state.ops[o]? = some (.upload request phase) → phase.counts = some x →
        x.lastWriteErr = none → phase.holds = some s →
        state.store.heap[s]? = some session →
          progressEvent request session.record x = .transferProgress progress →
          Accurate state.store s progress ∧
            progress.bytesTransferred = banked state.store.disk progress.transferId := by
    intro state o request phase x session inv reckoned here counts clear held at_ event
    have accurate :=
      counted_accurate state inv reckoned o request phase x s session here counts held at_ clear progress
        event
    refine ⟨accurate, ?_⟩
    obtain ⟨session', at', named, _, bytes, _⟩ := accurate
    obtain rfl := Option.some.inj (at_.symm.trans at')
    rw [← named, counted_banked state inv reckoned o request phase x s session here counts held at_]
    exact bytes
  obtain ⟨o, fault, op, act, log, op', rfl, here, moved, rfl, emission⟩ :=
    emits_step sha256 state next label stepped s progress emits
  have within := (List.getElem?_eq_some_iff.mp here).1
  cases emission with
  | chunk request session x chunk rest at_ sound due event =>
      have fresh : staleFree state (.advance o fault) = true := by simp [staleFree, here]
      have at' := apply_heap state.store o (.append x.fd chunk) s session at_
      have clear : x.lastWriteErr = none := by
        rcases sound with clear | rfl
        · exact clear
        · by_contra broken
          exact Bool.noConfusion ((quiet o request s x _ here broken).symm.trans due)
      exact told _ o request _ _ session (guarded_step sha256 state _ _ inv fresh stepped)
        (reckoned_step sha256 state _ _ inv reckoned fresh stepped) (List.getElem?_set_self within) rfl
        clear rfl at' event
  | unseen request session x chunk rest written at_ failed last due =>
      simp [lostReport, here, failed, last, due] at seen
  | published request session x at_ event =>
      exact told state o request _ x session inv reckoned here rfl (inv.admitted.clear o request _ here) rfl
        at_ event

section Bank

variable (sha256 : Bytes → String) (state : State) (inv : Guarded state) (reckoned : Reckoned state)
    (o : Nat) (fault : Option Fault)
variable (op op' : Op) (act : Act) (log : List Entry) (here : state.ops[o]? = some op)
variable (fresh : staleFree state (.advance o fault) = true)
    (moved : OpMove sha256 state.store fault op act log op')
include inv here moved

omit inv here moved in
theorem inode_grows (inode : Nat) (content : Bytes)
    (stored_ : state.store.disk.inodes[inode]? = some content) :
    ∃ more, (state.store.apply o act).disk.inodes[inode]? = some (content ++ more) := by
  by_cases appends : ∃ bytes, act = .append inode bytes
  · obtain ⟨bytes, rfl⟩ := appends
    exact ⟨bytes, (inode_append state.store.disk inode inode bytes content stored_).trans (by simp)⟩
  · refine ⟨[], (inode_kept state.store o act inode content stored_ ?_).trans (by simp)⟩
    exact fun bytes same => absurd ⟨bytes, same⟩ appends

include reckoned

theorem removed_published (t : Nat) (session : Session) (at_ : state.store.heap[t]? = some session)
    (mine : op.holds = some t) (file : String) (removes : act = .remove (partPath session.id file))
    (journal : Record) (written : state.store.disk.doc (journalPath session.id) = some journal)
    (kept : op'.discards session.id = false) :
    (journal.published.lookup file).isSome = true := by
  obtain ⟨known, there, named⟩ := inv.base.known o op t here (holds_session op t mine)
  obtain rfl := Option.some.inj (at_.symm.trans there)
  have apart : ∀ path fault, removeAct (partPath session.id path) fault = .remove
    (partPath session.id file) → path = file := by
    intro path fault same
    rcases remove_act_cases (partPath session.id path) fault with quiet | removed
    · rw [quiet] at same
      cases same
    · rw [removed] at same
      exact (part_path_inj _ _ _ _ rfl (Act.remove.inj same)).2
  cases moved with
  | upload request phase next _ _ step_ =>
      have sameId : request.transferId = session.id := named.symm
      cases step_ with
      | discarded t' session' x there' =>
          obtain rfl := Option.some.inj mine
          obtain rfl := Option.some.inj (at_.symm.trans there')
          obtain rfl :=
            Option.some.inj ((reckoned.sealed o request _ _ session here rfl at_).symm.trans written)
          obtain rfl := apart x.file.id fault removes
          exact (inv.base.facts o _ here _ session rfl at_).1
      | stopped t' session' x chunks there' tripped => simp [Op.discards, Response.plain, sameId] at kept
      | tooLarge t' session' x chunk rest there' excess => simp [Op.discards, Response.plain, sameId] at kept
      | mismatch t' session' x bytes there' read different =>
          simp [Op.discards, Response.plain, sameId] at kept
      | stoppedLate t' session' x there' tripped => simp [Op.discards, Response.plain, sameId] at kept
      | _ => cases removes
  | cancel caller id phase next _ _ step_ =>
      have sameId : id = session.id := named.symm
      cases step_ with
      | discarded t' session' other rest bytes there' => simp [Op.discards, sameId] at kept
      | _ => cases removes
  | forget id phase next _ _ step_ =>
      have sameId : id = session.id := named.symm
      cases step_ with
      | discarded t' session' other rest there' => simp [Op.discards, sameId] at kept
      | erased t' there' => exact absurd (Act.remove.inj removes) fun same => part_ne_journal _ _ _ same.symm
      | _ => cases removes
  | register request phase next _ _ step_ => cases step_ <;> cases removes
  | accept id phase next _ _ step_ => cases step_ <;> cases removes
  | reject id phase next _ _ step_ => cases step_ <;> cases removes
  | status peer id phase next _ _ step_ => cases step_ <;> cases removes

theorem part_grows (id file : String) (canonical : id.toList.length = 36) (journal : Record)
    (written : state.store.disk.doc (journalPath id) = some journal) (kept : op'.discards id = false)
    (missing : journal.published.lookup file = none) :
    (partialBytes state.store.disk id file).length ≤
    (partialBytes (state.store.apply o act).disk id file).length := by
  rcases part_cases sha256 state inv.base o fault op op' act log here moved id file canonical with
    same | ⟨_, _, _, _, _, _, _, _, _, _, _, _, absent, _⟩ | ⟨t, session, mine, at_, rfl, removes, _⟩
  · unfold partialBytes Disk.read
    rw [same]
    split
    · rename_i inode found
      have bound := inv.parted.allocated _ _ found
      obtain ⟨more, grown_⟩ := inode_grows state o act inode _ (List.getElem?_eq_getElem bound)
      rw [grown_, List.getElem?_eq_getElem bound]
      simp
    · exact Nat.le_refl _
  · simp [partialBytes, Disk.read, absent]
  · have published :=
      removed_published sha256 state inv reckoned o fault op op' act log here moved t session at_ mine file
        removes journal written kept
    rw [missing] at published
    cases published

theorem written_backed (s : Nat) (session : Session) (record : Record) (saved : Bool)
    (persists : act = .persist s record saved) (at_ : state.store.heap[s]? = some session)
    (present : state.store.sessions.lookup session.id = some s) (journal : Record)
    (written : state.store.disk.doc (journalPath session.id) = some journal) :
      Backed state.store.disk session.id session.record journal := by
  subst persists
  obtain ⟨session', at', write⟩ := moved_write sha256 state.store fault op op' _ log s record moved rfl
  obtain rfl := Option.some.inj (at_.symm.trans at')
  have backed : session.record.complete = false → session.record.cancelled = false →
    Backed state.store.disk session.id session.record journal :=
    fun open_ live => reckoned.backed s session journal at_ present open_ live written
  have sound := (inv.base.sound s session at_).record
  cases write with
  | accept id saved struck open_ =>
      obtain ⟨running, live, _⟩ := terminal_false session.record open_
      exact backed running live
  | reject id saved struck undecided =>
      intro file _ receipt _
      obtain ⟨path, published⟩ := Option.isSome_iff_exists.mp receipt
      have accepted :=
        (reckoned.tallied session.record (.inl ⟨s, session, at_, rfl⟩)).earned file.id path published
      rw [undecided] at accepted
      cases accepted
  | cancel caller id saved struck running live => exact backed running live
  | choose request x index saved struck =>
      have working := (inv.base.facts o _ here s session rfl at_).1
      exact backed (working_open session.record x.file sound working) working.live
  | receipt request x target saved struck =>
      have working := (inv.base.facts o _ here s session rfl at_).1
      exact backed (working_open session.record x.file sound working) working.live

theorem persist_received (s : Nat) (session : Session) (record : Record)
    (persists : act = .persist s record true) (at_ : state.store.heap[s]? = some session)
    (mine : op.holds = some s) :
    received (state.store.apply o act).disk session.id record = received state.store.disk session.id
      session.record := by
  have sized := session_id_length state inv.base s session at_
  have on : (act.on o s session).record = record := by simp [persists, Act.on]
  have forward := (moved_session sha256 state inv.base o fault op op' act log here moved s session at_).2
  rw [on] at forward
  rcases moved_receipts sha256 state.store fault op op' act log moved o s session at_ with
    same | ⟨request, x, target, saved, rfl, isAct, written⟩
  · rw [on] at same
    refine received_same _ _ _ _ _ forward.same.1.symm fun file _ => stored_same _ _ _ _ _ file
      (by rw [same]) fun _ => ?_
    refine partial_bytes_kept _ _ inv.parted.allocated session.id file.id ?_ ?_
    · rcases part_cases sha256 state inv.base o fault op op' act log here moved session.id file.id sized with
        kept | ⟨_, _, _, _, _, _, _, _, _, _, opens, _⟩ | ⟨_, _, _, _, _, removes, _⟩
      · exact kept
      · rw [persists] at opens
        cases opens
      · rw [persists] at removes
        cases removes
    · exact fun inode bytes _ content => inode_kept state.store o act inode bytes content (by simp [persists])
  · rw [on] at written
    subst written
    cases moved with
    | upload _ _ next _ _ step_ =>
        exact received_same _ _ _ session.record _ rfl
          (committed_stored sha256 state inv reckoned o fault request _ next act log here step_ s session
          at_ x target rfl saved isAct)

include fresh

theorem banked_advance (id : String) (recorded : Recorded id (fun _ => True) state)
    (unerased : erases id state (.advance o fault) = false) (kept : op'.discards id = false) :
    banked state.store.disk id ≤ banked (state.store.apply o act).disk id := by
  have running := base_running state inv.base o op here
  obtain ⟨s, present⟩ := Option.ne_none_iff_exists'.mp (recorded.present running)
  obtain ⟨session, at_, rfl⟩ := inv.base.mapped id s present
  obtain ⟨journal, written, _⟩ := recorded.journal
  have forward : journal.Forward session.record := by
    rcases inv.owned.held session.id s session present at_ with ⟨p, forgetting⟩ |
      ⟨journal', written', forward⟩
    · exact absurd forgetting (recorded.unforgotten p s)
    · obtain rfl := Option.some.inj (written.symm.trans written')
      exact forward
  rw [banked_journal _ _ journal written]
  rcases journal_cases sha256 state inv.base o fault op op' act log here moved session.id with
    same | ⟨t, other, record, rfl, mine, at', named, _, now⟩ | ⟨request, rfl, rfl, named, _⟩ |
      ⟨t, rfl, rfl, rfl, _⟩
  · rw [banked_journal _ _ journal (same.trans written)]
    refine List.sum_le_sum fun file _ => ?_
    unfold stored
    cases missing : journal.published.lookup file.id with
    | some path => exact Nat.le_refl _
    | none =>
        exact part_grows sha256 state inv reckoned o fault op op' act log here moved session.id file.id
          (session_id_length state inv.base s session at_) journal written kept missing
  · obtain rfl :=
      same_object sha256 state inv o fault op op' _ log here fresh moved t s session other mine at' rfl
        named present
    obtain rfl := Option.some.inj (at_.symm.trans at')
    rw [banked_journal _ _ record now,
      persist_received sha256 state inv reckoned o fault op op' _ log here moved t session record rfl at_
      mine,
      backed_received _ _ _ _ forward
        (written_backed sha256 state inv reckoned o fault op op' _ log here moved t session record true rfl
        at_ present journal written)]
  · have absent := (inv.base.facts o _ here).2
    rw [named, present] at absent
    cases absent
  · simp [erases, here] at unerased

end Bank

theorem emission_spares (store : Store) (fault : Option Fault) (s : Nat) (progress : TransferProgress)
    (op op' : Op) (act : Act) (emission : Emission store fault s progress op act op') (id : String) :
    op'.discards id = false := by
  cases emission with
  | chunk | unseen => rfl
  | published request session x here told => simp [Op.discards, Response.plain]

theorem emits_recorded (sha256 : Bytes → String) (state next : State) (label : Label) (inv : Guarded state)
    (reckoned : Reckoned state) (quiet : Quiet state) (seen : lostReport state label = false)
    (stepped : step sha256 state label = some next) (s : Nat) (progress : TransferProgress)
    (emits : Emits state next s progress) :
    Guarded next ∧ Reckoned next ∧ Recorded progress.transferId (fun _ => True) next := by
  obtain ⟨session, at_, named, present, _⟩ :=
    (emits_accurate sha256 state next label inv reckoned quiet seen stepped s progress emits).1
  obtain ⟨o, fault, op, act, log, op', rfl, here, _, same, emission⟩ :=
    emits_step sha256 state next label stepped s progress emits
  have fresh : staleFree state (.advance o fault) = true := by cases emission <;> simp [staleFree, here]
  have later := guarded_step sha256 state next _ inv fresh stepped
  have there : next.ops[o]? = some op' := by
    rw [same]
    exact List.getElem?_set_self (List.getElem?_eq_some_iff.mp here).1
  have held : op'.holds = some s ∧
    ∀ id phase, op' ≠ .forget id phase := by cases emission <;> simp [Op.holds, UploadPhase.holds]
  refine ⟨later, reckoned_step sha256 state next _ inv reckoned fresh stepped, ?_, by simp [present], ?_, ?_⟩
  · obtain ⟨journal, written, _⟩ := held_journal next later.base later.owned o op' there s session held.1
      (fun id => held.2 id _) at_ (named ▸ present)
    exact ⟨journal, named ▸ written, trivial⟩
  · intro p t forgetting
    obtain rfl := Option.some.inj ((later.base.facts p _ forgetting).1.symm.trans present)
    obtain rfl := holder_unique next later.base o p op' _ t there forgetting held.1 rfl
    exact held.2 _ _ (Option.some.inj (there.symm.trans forgetting))
  · intro empty
    have sized := mapped_length next later.base _ s present
    rw [empty] at sized
    cases sized

theorem banked_step (sha256 : Bytes → String) (id : String) (state next : State) (label : Label)
    (inv : Guarded state) (reckoned : Reckoned state) (recorded : Recorded id (fun _ => True) state)
    (fresh : staleFree state label = true) (spared : spares sha256 id state label = true)
    (stepped : step sha256 state label = some next) :
    (Guarded next ∧ Reckoned next ∧ Recorded id (fun _ => True) next) ∧
      banked state.store.disk id ≤ banked next.store.disk id := by
  obtain ⟨unerased, spared⟩ : erases id state label = false ∧
    _ := by simpa only [spares, Bool.and_eq_true, Bool.not_eq_true'] using spared
  have kept : banked state.store.disk id ≤ banked next.store.disk id := by
    cases label with
    | advance o fault =>
        obtain ⟨op, act, log, op', here, taken, rfl⟩ := step_advance sha256 state next o fault stepped
        have moved := op_next_move sha256 state.store fault op op' act log taken
        have unspent : op'.discards id = false := by simpa [here, taken] using spared
        exact banked_advance sha256 state inv reckoned o fault op op' act log here fresh moved id recorded
          unerased unspent
    | _ =>
        refine Nat.le_of_eq (congrArg (fun disk => banked disk id) ?_)
        rcases step_cases sha256 state next _ stepped with ⟨call, _, _, rfl⟩ |
          ⟨_, _, _, _, _, _, isLabel, _⟩ | ⟨_, _, rfl⟩ |
          ⟨store, _, _, loaded, rfl⟩
        · rfl
        · cases isLabel
        · rfl
        · exact (load_loaded _ _ loaded).same.symm
  exact ⟨⟨guarded_step sha256 state next label inv fresh stepped, reckoned_step sha256 state next label inv
    reckoned fresh stepped,
    recorded_step sha256 state next label inv.base inv.owned fresh id _ (fun _ _ _ _ => trivial) recorded
    unerased stepped⟩, kept⟩

theorem banked_run (sha256 : Bytes → String) (id : String) (a b : State) (inv : Guarded a)
    (reckoned : Reckoned a) (recorded : Recorded id (fun _ => True) a)
    (run : Transition.Run (step sha256) (fun state label => staleFree state label = true ∧
      spares sha256 id state label = true) a b) :
    (Guarded b ∧ Reckoned b ∧ Recorded id (fun _ => True) b) ∧
      banked a.store.disk id ≤ banked b.store.disk id :=
  Transition.run_relation (step sha256) _ (fun state => Guarded state ∧ Reckoned state ∧
    Recorded id (fun _ => True) state)
    (fun a b => banked a.store.disk id ≤ banked b.store.disk id) (fun _ => Nat.le_refl _)
    (fun _ _ _ => Nat.le_trans)
    (fun state label next good allowed stepped =>
      banked_step sha256 id state next label good.1 good.2.1 good.2.2 allowed.1 allowed.2 stepped) a b run
        ⟨inv, reckoned, recorded⟩

theorem quiet_run (sha256 : Bytes → String) (start final : State) (allow : State → Label → Prop)
    (fair : ∀ state label, allow state label → staleFree state label = true ∧ lostReport state label = false)
    (run : Transition.Run (step sha256) allow start final) (inv : Guarded start) (quiet : Quiet start) :
    Guarded final ∧ Quiet final :=
  Transition.run_invariant (step sha256) allow (fun state => Guarded state ∧ Quiet state)
    (fun state label next good allowed stepped =>
      ⟨guarded_step sha256 state next label good.1 (fair state label allowed).1 stepped,
        quiet_step sha256 state next label good.1 good.2 (fair state label allowed).2 stepped⟩) start final
        run ⟨inv, quiet⟩

theorem reports_grow (sha256 : Bytes → String) (state next middle final : State) (label label' : Label)
    (s s' : Nat) (earlier later : TransferProgress) (inv : Guarded state) (reckoned : Reckoned state)
    (quiet : Quiet state) (seen : lostReport state label = false)
    (stepped : step sha256 state label = some next) (first : Emits state next s earlier)
    (run : Transition.Run (step sha256) (fun state label => (staleFree state label = true ∧
      lostReport state label = false) ∧
      spares sha256 earlier.transferId state label = true) next middle)
    (seen' : lostReport middle label' = false) (stepped' : step sha256 middle label' = some final)
    (second : Emits middle final s' later) (same : later.transferId = earlier.transferId) :
    earlier.bytesTransferred ≤ later.bytesTransferred := by
  have before := (emits_accurate sha256 state next label inv reckoned quiet seen stepped s earlier first).2
  obtain ⟨guarded, counted, recorded⟩ :=
    emits_recorded sha256 state next label inv reckoned quiet seen stepped s earlier first
  obtain ⟨⟨guarded', counted', recorded'⟩, grows⟩ :=
    banked_run sha256 earlier.transferId next middle guarded counted recorded
    (Transition.run_mono (step sha256) _ _ next middle (fun _ _ allowed => ⟨allowed.1.1, allowed.2⟩) run)
  have quiet' := (quiet_run sha256 next middle _ (fun _ _ allowed => allowed.1) run guarded
    (quiet_step sha256 state next label inv quiet seen stepped)).2
  have after :=
    (emits_accurate sha256 middle final label' guarded' counted' quiet' seen' stepped' s' later second).2
  obtain ⟨o, fault, op, act, log, op', rfl, here, moved, rfl, emission⟩ :=
    emits_step sha256 middle final label' stepped' s' later second
  have fresh : staleFree middle (.advance o fault) = true := by cases emission <;> simp [staleFree, here]
  have unerased : erases earlier.transferId middle (.advance o fault) =
    false := by cases emission <;> simp [erases, here]
  have last := banked_advance sha256 middle guarded' counted' o fault op op' act log here fresh moved
    earlier.transferId recorded' unerased (emission_spares middle.store fault s' later op op' act emission _)
  rw [before, after, same]
  exact Nat.le_trans grows last

theorem told_none (log : List Entry) (nothing : ∀ s id, .event s (.transferComplete id) ∉ log) :
    ToldInFull log := by
  rintro before after s id rfl
  exact absurd (by simp) (nothing s id)

theorem told_append (log more : List Entry) (old : ToldInFull log) (new : ToldInFull more) : ToldInFull
    (log ++ more) := by
  intro before after s id same
  rcases List.append_eq_append_iff.mp same with ⟨mid, rfl, inMore⟩ | ⟨mid, rfl, inLog⟩
  · obtain ⟨progress, last, told⟩ := new mid after s id inMore
    refine ⟨progress, ?_, told⟩
    unfold latestProgress at last ⊢
    rw [List.filterMap_append, List.getLast?_append, last]
    rfl
  · cases mid with
    | nil =>
        obtain ⟨progress, last, _⟩ := new [] after s id inLog.symm
        cases last
    | cons entry rest =>
        obtain ⟨rfl, _⟩ := List.cons.inj inLog
        exact old before rest s id rfl

theorem told_completion (s : Nat) (request : UploadRequest) (record : Record) (x : Incoming)
    (whole : record.complete = true → x.baseline + x.offset - x.current = record.pending.totalSize) :
    ToldInFull (completionLog s request record x) := by
  unfold completionLog
  by_cases complete : record.complete
  · rw [if_pos complete]
    intro before after t id same
    rcases before with _ | ⟨first, _ | ⟨second, _ | ⟨third, rest⟩⟩⟩
    · cases same
    · cases same
    · obtain ⟨rfl, tail⟩ := List.cons.inj same
      obtain ⟨rfl, last⟩ := List.cons.inj tail
      obtain ⟨rfl, event⟩ := Entry.event.inj (List.cons.inj last).1
      refine ⟨⟨request.transferId, some x.file.name, x.baseline + x.offset - x.current,
        record.pending.totalSize⟩, ?_,
        EngineEvent.transferComplete.inj event, whole complete⟩
      simp [latestProgress, List.filterMap_cons, Entry.progressFor, progressEvent]
    · simp at same
  · rw [if_neg complete]
    refine told_none _ ?_
    simp [progressEvent]

theorem told_step (sha256 : Bytes → String) (state next : State) (label : Label) (inv : Guarded state)
    (reckoned : Reckoned state) (told : ToldInFull state.log)
    (stepped : step sha256 state label = some next) : ToldInFull next.log := by
  rcases step_cases sha256 state next label stepped with ⟨call, _, _, rfl⟩ |
    ⟨o, fault, op, act, log, op', rfl, here, moved, rfl⟩ |
    ⟨_, _, rfl⟩ | ⟨store, _, _, _, rfl⟩
  · exact told
  · refine told_append _ _ told ?_
    cases op_report sha256 state.store fault op op' act log moved with
    | silent _ _ _ _ nothing =>
        refine told_none _ fun s id member => ?_
        cases nothing _ member
    | completed request s session x at_ =>
        refine told_completion s request session.record x fun complete => ?_
        have sound := (inv.base.sound s session at_).record
        have balance := (reckoned.counted o request _ x s session here rfl rfl at_).balance
          (inv.admitted.clear o request _ here)
        rw [received_full _ _ _ (sound.complete complete).1] at balance
        rw [tallied_size session.record sound (reckoned.tallied _ (.inl ⟨s, session, at_, rfl⟩))]
        omega
    | cancelled caller id s session bytes at_ => exact told_none _ (by simp)
    | rejected id s session at_ => exact told_none _ (by simp)
  · exact told
  · exact told

theorem run_told (sha256 : Bytes → String) (start final : State) (initial : Initial start)
    (run : Transition.Run (step sha256) (fun state label => staleFree state label = true) start final) :
    Guarded final ∧ Reckoned final ∧ ToldInFull final.log :=
  Transition.run_invariant (step sha256) _ (fun state => Guarded state ∧ Reckoned state ∧
    ToldInFull state.log)
    (fun state label next good fresh stepped => ⟨guarded_step sha256 state next label good.1 fresh stepped,
      reckoned_step sha256 state next label good.1 good.2.1 fresh stepped,
      told_step sha256 state next label good.1 good.2.1 good.2.2 stepped⟩)
    start final run (by
      obtain ⟨guarded, reckoned⟩ := run_reckoned sha256 start start initial .refl
      exact ⟨guarded, reckoned, by rw [initial.silent]; exact told_none _ (by simp)⟩)

def emits (state next : State) (s : Nat) (progress : TransferProgress) : Bool :=
  next.log == state.log ++ next.log.drop state.log.length && (next.log.drop state.log.length).contains
    (.event s (.transferProgress progress))

theorem emits_sound (state next : State) (s : Nat) (progress : TransferProgress)
    (checked : emits state next s progress = true) :
    Emits state next s progress := by
  simp only [emits, Bool.and_eq_true, beq_iff_eq, List.contains_iff_mem] at checked
  exact ⟨_, checked.1, checked.2⟩

def bothBytes : TransferProgress := ⟨smallId, some "a", 2, 2⟩

-- The first attempt breaks off after its last byte, and the receiver restarts
-- before the second one publishes the file.
def secondAttempt : List Label :=
  .advance 1 none :: .advance 1 (some .sync) :: .advance 1 none :: .crash :: .start ::
    .call (.upload { smallUpload with offset := 2 }) :: advances 0 16

def reportsAgain (next : State) : Bool :=
  (Transition.replay (step pairHash)
    (fun state label => (staleFree state label = true ∧ lostReport state label = false) ∧
      spares pairHash smallId state label = true)
    next secondAttempt).any fun middle =>
      (step pairHash middle (.advance 0 none)).any fun final => emits middle final 0 bothBytes

-- cancel_transfer has looked up a session that is rejected and forgotten while
-- it waits. It removes the partial of the session that has taken the id, under
-- the upload that is writing it.
def undercutRun : List Label :=
  .start :: .call (.register { wideRegister smallId with trusted := false }) :: advances 0 7 ++
    .call (.cancel none smallId) :: advances 1 2 ++ .call (.reject smallId) :: advances 2 5 ++
    .call (.forget smallId) :: advances 3 9 ++ .call (.register (wideRegister smallId)) :: advances 4 7 ++
    .call (.upload { smallUpload with chunks := [[7], [8]] }) :: advances 5 6 ++ advances 1 4

end GoshTransfer
