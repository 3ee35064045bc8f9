import GoshTransfer.Checkpoints
import GoshTransfer.Finishing
import GoshTransfer.TreeDelivery

set_option autoImplicit false

-- The sender's loop over the files against a receiver that works undisturbed.
namespace GoshTransfer

open InodeStore

theorem checkpoint_shape (disk : ReceiverDisk) (id : String) (record : Record) (fault : Option Fault)
    (file : TransferFile) (point : FileCheckpoint)
    (taken : checkpoint disk id record fault file = .ok point) :
    point.fileId = file.id ∧ point.complete = (record.published.lookup file.id).isSome ∧
      point.offset ≤ file.size ∧
      (point.complete = true → point.offset = file.size) := by
  unfold checkpoint at taken
  dsimp only at taken
  split at taken
  · cases taken
  · next offset measured =>
    split at taken
    · cases taken
    · next fits =>
      cases taken
      refine ⟨rfl, rfl, Nat.le_of_not_lt fits, ?_⟩
      intro receipt
      rw [if_pos receipt] at measured
      exact (Except.ok.inj measured).symm

theorem checkpoints_shapes (disk : ReceiverDisk) (id : String) (record : Record) (fault : Option Fault)
    (files : List TransferFile) (points : List FileCheckpoint)
    (read : checkpointsFrom disk id record fault files = .ok points) :
    List.Forall₂ (fun file point => checkpoint disk id record fault file = .ok point) files points := by
  induction files generalizing points with
  | nil =>
      cases read
      exact .nil
  | cons file rest ih =>
      simp only [checkpointsFrom] at read
      split at read
      · cases read
      · next point taken =>
        split at read
        · cases read
        · next others found =>
          cases read
          exact .cons taken (ih others found)

theorem good_points (plan : PreparedTransfer) (points : List FileCheckpoint) (ids : List String)
    (distinct : (points.map FileCheckpoint.fileId).Nodup) (fresh : ∀ point ∈ points, point.fileId ∉ ids)
    (allowed : ∀ point ∈ points, plan.allows point = true) : badPoints plan ids points = false := by
  induction points generalizing ids with
  | nil => rfl
  | cons point rest ih =>
      obtain ⟨apart, distinct⟩ := List.nodup_cons.mp distinct
      simp only [badPoints, Bool.or_eq_false_iff, Bool.not_eq_false']
      refine ⟨⟨by simpa using fresh point (List.mem_cons_self ..), allowed point (List.mem_cons_self ..)⟩, ?_⟩
      refine ih _ distinct ?_ fun other member => allowed other (List.mem_cons_of_mem _ member)
      intro other member seen
      rcases List.mem_cons.mp seen with same | earlier
      · exact apart (List.mem_map.mpr ⟨other, member, same⟩)
      · exact fresh other (List.mem_cons_of_mem _ member) earlier

theorem snapshot_accepted (plan : PreparedTransfer) (disk : ReceiverDisk) (id : String) (record : Record)
    (fault : Option Fault) (sound : record.Sound) (planned : plan.manifest = .ok record.manifest)
    (status : ResumeStatus) (taken : snapshot disk id record fault = .ok status) :
    checkpointStatus plan ⟨200, .status status⟩ true = .ok status := by
  obtain ⟨_, _, complete, read⟩ := snapshot_fields disk id record fault status taken
  have shapes := checkpoints_shapes disk id record fault _ _ read
  have files : record.manifest.request.files = plan.files.map PreparedFile.info :=
    manifest_files plan record.manifest planned
  have ids : status.files.map FileCheckpoint.fileId = record.manifest.fileIds := by
    refine List.ext_getElem ?_ ?_
    · simp [TransferManifest.fileIds, shapes.length_eq]
    · intro k inside inside'
      simp only [TransferManifest.fileIds, List.getElem_map]
      exact (checkpoint_shape disk id record fault _ _
        ((List.forall₂_iff_get.mp shapes).2 k (by simpa [shapes.length_eq] using inside)
        (by simpa using inside))).1
  have shaped : ∀ point ∈ status.files, ∃ file ∈ record.manifest.request.files,
    checkpoint disk id record fault file = .ok point :=
    checkpoints_from_file disk id record fault _ status.files read
  have whole : (status.complete && status.files.any fun point => !point.complete) = false := by
    cases finished : status.complete with
    | false => rfl
    | true =>
        rw [Bool.true_and, List.any_eq_false]
        intro point member
        obtain ⟨file, listed, here⟩ := shaped point member
        obtain ⟨_, receipt, _⟩ := checkpoint_shape disk id record fault file point here
        rw [receipt, (sound.complete (complete.symm.trans finished)).1 file.id (List.mem_map_of_mem listed)]
        simp
  have lengths : (status.files.length != plan.files.length) = false := by
    rw [← shapes.length_eq, files, List.length_map]
    simp
  have points : badPoints plan [] status.files = false := by
    refine good_points plan status.files [] (ids ▸ valid_ids_nodup record.manifest sound.valid) (by simp) ?_
    intro point member
    obtain ⟨file, listed, here⟩ := shaped point member
    obtain ⟨named, _, fits, full⟩ := checkpoint_shape disk id record fault file point here
    rw [files] at listed
    obtain ⟨prepared, inPlan, rfl⟩ := List.mem_map.mp listed
    refine List.any_eq_true.mpr ⟨prepared, inPlan, ?_⟩
    cases finished : point.complete with
    | false => simp [named, fits]
    | true => simp [named, full finished]
  simp [checkpointStatus, whole, lengths, points]

-- Nothing fails, nobody interferes, and the receiver does not restart.
def smooth : WorldLabel → Bool
  | .receiver (.advance _ none) | .deliver _ _ | .reply _ => true
  | .receiver _ => false
  | .sender (.outcome (.response _ whole)) => whole
  | .sender (.outcome (.failed _)) | .sender (.source (.error _)) | .sender .timeout => false
  | .sender _ => true

section World

variable (sha256 : Bytes → String) (client : TransferClient) (plan : PreparedTransfer)

abbrev SmoothRun (world final : World) : Prop := Transition.Run (worldStep sha256 client plan)
    (fun _ label => smooth label = true) world final

theorem advance_running (state next : State) (o : Nat) (fault : Option Fault)
    (stepped : step sha256 state (.advance o fault) = some next) :
    next.running = state.running := by
  obtain ⟨_, _, _, _, _, _, rfl⟩ := step_advance sha256 state next o fault stepped
  rfl

theorem world_advances (world : World) (o : Nat) (start final : State) (running : start.running = true)
    (run : Transition.Run (step sha256) (fun _ label => label = .advance o none) start final) :
    final.running = true ∧ SmoothRun sha256 client plan { world with receiver := start }
    { world with receiver := final } := by
  induction run with
  | refl => exact ⟨running, .refl⟩
  | tail middle final label _ allowed stepped ih =>
      subst allowed
      have alive := (advance_running sha256 middle final o none stepped).trans ih.1
      refine ⟨alive, .tail _ _ (.receiver (.advance o none)) ih.2 rfl ?_⟩
      simp [worldStep, stepped, alive]

theorem world_exchange (world : World) (request : Request) (arrival : Arrival) (called final : State)
    (response : Response) (sent : request ∈ world.sent) (carried : request.carries arrival = true)
    (called_ : step sha256 world.receiver (.call (request.call arrival)) = some called)
    (run : Transition.Run (step sha256) (fun _ label => label = .advance world.receiver.ops.length none)
      called final)
    (answered : (final.ops[world.receiver.ops.length]?).bind Op.reply = some response) :
    SmoothRun sha256 client plan world
      { world with
        receiver := final
        serving := (world.receiver.ops.length, request) :: world.serving
        replies := (request, response) :: world.replies } := by
  obtain ⟨running, made⟩ := step_call sha256 world.receiver called _ called_
  have alive : called.running = true := by rw [made]; exact running
  have delivered : SmoothRun sha256 client plan world
      { world with receiver := called, serving := (world.receiver.ops.length, request) :: world.serving } := by
    refine .tail _ _ (.deliver request arrival) .refl rfl ?_
    simp [worldStep, sent, carried, called_]
  have worked :=
    (world_advances sha256 client plan
      { world with serving := (world.receiver.ops.length, request) :: world.serving }
    world.receiver.ops.length called final alive run).2
  refine .tail _ _ (.reply world.receiver.ops.length) (Transition.run_trans _ _ _ _ _ delivered worked) rfl ?_
  simp [worldStep, answered]

theorem world_sends (world : World) (input : Input) (sender : Sender) (requests : List Request)
    (allowed : smooth (.sender input) = true) (admitted : world.admits plan input = true)
    (moved : world.sender.next sha256 client plan input = some (sender, requests)) :
    SmoothRun sha256 client plan world { world with sender := sender, sent := requests ++ world.sent } := by
  refine .tail _ _ (.sender input) .refl allowed ?_
  simp [worldStep, admitted, moved]

end World

theorem advance_last (sha256 : Bytes → String) (store : Store) (ops : List Op) (log more : List Entry)
    (running : Bool) (op op' : Op) (act : Act) (moved : op.next sha256 store none = some (act, more, op')) :
    step sha256 ⟨store, ops ++ [op], log, running⟩ (.advance ops.length none) =
      some ⟨store.apply ops.length act, ops ++ [op'], log ++ more, running⟩ := by
  simp [step, moved]

theorem relocked (store : Store) (o s : Nat) (session : Session) (here : store.heap[s]? = some session)
    (free : session.lock = none) :
    (store.apply o (.acquire s)).apply o (.release s) = store := by
  have heap : (store.heap.modify s fun session => { session with lock := some o }).modify s
    (fun session => { session with lock := none }) =
      store.heap := by
    refine List.ext_getElem? fun t => ?_
    simp only [List.getElem?_modify]
    by_cases same : s = t
    · subst same
      simp [here, ← free]
    · simp [same]
  simp only [Store.apply, Store.update, heap]

theorem status_concludes (sha256 : Bytes → String) (state : State) (s : Nat) (session : Session)
    (peer : Peer) (running : state.running = true)
    (mapped : state.store.sessions.lookup session.id = some s) (here : state.store.heap[s]? = some session)
    (free : session.lock = none) (owned : session.record.owner = owner peer) :
    ∃ called final, step sha256 state (.call (.status peer session.id)) = some called ∧
      Transition.Run (step sha256) (fun _ label => label = .advance state.ops.length none) called final ∧
      (final.ops[state.ops.length]?).bind Op.reply =
        some (snapshotResponse (snapshot state.store.disk session.id session.record none)) ∧
      final.store = state.store ∧ final.running = true := by
  obtain ⟨store, ops, log, alive⟩ := state
  obtain rfl : alive = true := running
  let reply := snapshotResponse (snapshot store.disk session.id session.record none)
  have locked : (store.apply ops.length (.acquire s)).heap[s]? =
    some { session with lock := some ops.length } := by
    simpa [Act.on] using apply_heap store ops.length (.acquire s) s session here
  have found := advance_last sha256 store ops log [] true (.status peer session.id .lookup)
    (.status peer session.id (.lock s)) .tau (by simp [Op.next, StatusPhase.next, lookupStep, mapped, plain])
  have acquired := advance_last sha256 store ops (log ++ []) [] true (.status peer session.id (.lock s))
    (.status peer session.id (.answer s)) (.acquire s)
    (by simp [Op.next, StatusPhase.next, lockStep, here, free, plain])
  have answered := advance_last sha256 (store.apply ops.length (.acquire s)) ops (log ++ [] ++ []) [] true
    (.status peer session.id (.answer s)) (.status peer session.id (.leave s reply)) .tau
    (by simp [Op.next, StatusPhase.next, locked, owned, reply]; rfl)
  have left := advance_last sha256 (store.apply ops.length (.acquire s)) ops (log ++ [] ++ [] ++ []) [] true
    (.status peer session.id (.leave s reply)) (.status peer session.id (.done reply)) (.release s)
    (by simp [Op.next, StatusPhase.next, plain])
  refine ⟨⟨store, ops ++ [.status peer session.id .lookup], log, true⟩, _, by simp [step, Call.op],
    .tail _ _ _ (.tail _ _ _ (.tail _ _ _ (.tail _ _ _ .refl rfl found) rfl acquired) rfl answered) rfl
    left, by simp [Op.reply, reply],
    relocked store ops.length s session here free, rfl⟩

section Send

variable (sha256 : Bytes → String) (client : TransferClient) (plan : PreparedTransfer)
    (source : String → Bytes) (peer : Peer)

structure Ready (receiver : State) (s : Nat) (session : Session) : Prop where
  grounded : Grounded receiver
  ripe : Ripe sha256 source receiver s session
  own : session.id = plan.transferId
  planned : plan.manifest = .ok session.record.manifest
  owned : session.record.owner = owner peer

def arriving (chunks : List Bytes) : Arrival := ⟨peer, false, false, "", 0, chunks, .finished⟩

variable (able : client.configError = none)
include able

theorem query_answered (world : World) (s : Nat) (session : Session)
    (ready : Ready sha256 plan source peer world.receiver s session) (stage : Stage) (attempt : Nat)
    (phase : world.sender.phase = .running session.record.manifest (.query stage attempt)) :
    ∃ next status sender, SmoothRun sha256 client plan world next ∧
      Ready sha256 plan source peer next.receiver s session ∧
      next.receiver.store = world.receiver.store ∧
        snapshot world.receiver.store.disk session.id session.record none = .ok status ∧
      next.sender = checkpointStep plan sender session.record.manifest status stage := by
  obtain ⟨grounded, ripe, own, planned, owned⟩ := ready
  obtain ⟨called, final, called_, rest, replied, kept, alive⟩ :=
    status_concludes sha256 world.receiver s session peer ripe.running ripe.mapped
    ripe.here ripe.free owned
  obtain ⟨points, read⟩ := ripe.reported
  obtain ⟨status, taken⟩ : ∃ status, snapshot world.receiver.store.disk session.id session.record none =
    .ok status := by
    simp [snapshot, read]
  have accepted :=
    snapshot_accepted plan world.receiver.store.disk session.id session.record
      none (grounded.base.sound s session ripe.here).record
    planned status taken
  let asking := world.sender.move (.running session.record.manifest (.querying stage attempt))
  have asked := world_sends sha256 client plan world .go asking [.status plan.transferId] rfl rfl
    (by cases stage <;> simp [Sender.next, phase, pointStep, send, able, asking])
  rw [taken, snapshotResponse] at replied
  have exchanged :=
    world_exchange sha256 client plan
      { world with sender := asking, sent := [.status plan.transferId] ++ world.sent }
    (.status plan.transferId) (arriving peer []) called final ⟨200, .status status⟩ (by simp) rfl
    (by simpa [Request.call, arriving, own] using called_) rest replied
  have answered := world_sends sha256 client plan
    { world with
      receiver := final
      sender := asking
      sent := [.status plan.transferId] ++ world.sent
      serving := (world.receiver.ops.length, .status plan.transferId) :: world.serving
      replies := (.status plan.transferId, ⟨200, .status status⟩) :: world.replies }
    (.outcome (.response ⟨200, .status status⟩ true))
      (checkpointStep plan asking session.record.manifest status stage) [] rfl
    (by simp [World.admits, isSuccess, asking, Sender.move, SendPhase.awaits, SendPoint.awaits])
    (by cases stage <;> simp [Sender.next, asking, Sender.move, pointStep, retryRequest, judge, isSuccess, accepted])
  refine ⟨_, status, asking, Transition.run_trans _ _ _ _ _ (Transition.run_trans _ _ _ _ _ asked exchanged)
    answered, ?_, kept, taken, rfl⟩
  refine ⟨run_grounded sha256 _ called final rest
    (grounded_step sha256 world.receiver called _ grounded called_), ?_, own, planned, owned⟩
  exact ⟨alive, kept ▸ ripe.mapped, kept ▸ ripe.here, ripe.free, ripe.live, ripe.accepted,
    kept ▸ ripe.reported, ripe.apart, kept ▸ ripe.waiting⟩

omit able in
theorem reported_point (receiver : State) (s : Nat) (session : Session)
    (ready : Ready sha256 plan source peer receiver s session) (status : ResumeStatus)
    (taken : snapshot receiver.store.disk session.id session.record none = .ok status) (file : TransferFile)
    (member : file ∈ session.record.manifest.request.files) : ∃ point, status.files.find?
    (·.fileId == file.id) = some point ∧
      point.complete = (session.record.published.lookup file.id).isSome ∧ point.offset ≤ file.size ∧
        (point.complete = false →
          point.offset = (partialBytes receiver.store.disk session.id file.id).length) := by
  have sound := (ready.grounded.base.sound s session ready.ripe.here).record
  have read := (snapshot_fields _ _ _ _ status taken).2.2.2
  obtain ⟨point, found⟩ := checkpoint_found _ _ _ _ status.files read file member
  have meant : point.fileId = file.id := by simpa using List.find?_some found
  obtain ⟨other, declared, here⟩ :=
    checkpoints_from_file _ _ _ _ _ status.files read point (List.mem_of_find?_eq_some found)
  obtain ⟨named, receipt, fits, _⟩ := checkpoint_shape _ _ _ none other point here
  obtain rfl := valid_file_unique session.record.manifest sound.valid other file declared member
    (named.symm.trans meant)
  refine ⟨point, found, receipt, fits, ?_⟩
  intro open_
  have missing : session.record.published.lookup other.id = none := by simpa [receipt] using open_
  have measured := (checkpoint_offset _ _ _ none other point here).2 missing
  have kept := parted_stored receiver.store.disk ready.grounded.parted session.id other.id
    (session_id_length receiver ready.grounded.base s session ready.ripe.here)
  rw [stored_length _ _ _ kept] at measured
  exact (Except.ok.inj measured).symm

theorem chunk_answered (world : World) (s : Nat) (session : Session)
    (ready : Ready sha256 plan source peer world.receiver s session) (file : PreparedFile)
    (rest : List PreparedFile) (attempt : Nat) (listed : file.info ∈ session.record.manifest.request.files)
    (missing : session.record.published.lookup file.info.id = none)
    (phase : world.sender.phase = .running session.record.manifest
      (.openSource session.record.token file rest attempt
      (partialBytes world.receiver.store.disk session.id file.info.id).length)) :
    ∃ next after targets target, SmoothRun sha256 client plan world next ∧
      Ready sha256 plan source peer next.receiver s after ∧
      after.record = receiptRecord { session.record with targets := targets } file.info target ∧
      next.sender.phase = .running session.record.manifest (nextFile session.record.token rest) := by
  obtain ⟨grounded, ripe, own, planned, owned⟩ := ready
  let offset := (partialBytes world.receiver.store.disk session.id file.info.id).length
  let body := (source file.info.id).drop offset
  let request : Request := .chunk plan.transferId file.info.id offset session.record.token body
  let posting :=
    world.sender.move
      (.running session.record.manifest
      (.posting session.record.token file rest attempt offset body 0 world.sender.progress))
  obtain ⟨final, after, targets, target, ⟨called, called_, work, answered⟩, kept, ripened, named, known⟩ :=
    ripe_upload sha256 source world.receiver
    grounded s session ripe file.info listed missing peer owned [body] (by simp [body, offset])
  have opened_ := world_sends sha256 client plan world (.source (.ok (source file.info.id))) posting
    [request] rfl rfl (by simp [Sender.next, phase, pointStep, send, able, posting, body, offset, request])
  have exchanged :=
    world_exchange sha256 client plan { world with sender := posting, sent := [request] ++ world.sent }
      request
    (arriving peer [body]) called final (.plain 200) (by simp) (by simp [Request.carries, request, arriving])
    (by simpa [Request.call, arriving, request, resuming, own, offset] using called_) work
      (by simp [answered, Op.reply])
  have done := world_sends sha256 client plan
    { world with
      receiver := final
      sender := posting
      sent := [request] ++ world.sent
      serving := (world.receiver.ops.length, request) :: world.serving
      replies := (request, .plain 200) :: world.replies }
    (.outcome (.response (.plain 200) true))
      (posting.move (.running session.record.manifest (nextFile session.record.token rest))) [] rfl
    (by simp [World.admits, isSuccess, posting, request, Sender.move, SendPhase.awaits, SendPoint.awaits])
    (by simp [Sender.next, posting, Sender.move, pointStep, retryChunk, judge, isSuccess, Response.plain])
  exact ⟨_, after, targets, target, Transition.run_trans _ _ _ _ _
    (Transition.run_trans _ _ _ _ _ opened_ exchanged) done,
    ⟨kept, ripened, named.trans own, by rw [known]; exact planned, by rw [known]; exact owned⟩, known, rfl⟩

theorem file_sent (world : World) (s : Nat) (session : Session)
    (ready : Ready sha256 plan source peer world.receiver s session) (file : PreparedFile)
    (rest : List PreparedFile) (member : file ∈ plan.files)
    (phase : world.sender.phase = .running session.record.manifest
      (nextFile session.record.token (file :: rest))) :
    ∃ next after, SmoothRun sha256 client plan world next ∧
      Ready sha256 plan source peer next.receiver s after ∧
      after.record.manifest = session.record.manifest ∧ after.record.token = session.record.token ∧
      next.sender.phase = .running session.record.manifest (nextFile session.record.token rest) ∧
      (∀ name, (session.record.published.lookup name).isSome = true ∨ name = file.info.id →
        (after.record.published.lookup name).isSome = true) := by
  obtain ⟨next, status, sender, asked, ready', kept, taken, replied⟩ :=
    query_answered sha256 client plan source peer able world s session ready
    (.file session.record.token file rest 0) 0 phase
  have listed : file.info ∈ session.record.manifest.request.files := by
    rw [manifest_files plan session.record.manifest ready.planned]
    exact List.mem_map_of_mem member
  obtain ⟨point, found, receipt, fits, partly⟩ :=
    reported_point sha256 plan source peer world.receiver s session ready status taken file.info listed
  obtain ⟨_, cancelled, _, _⟩ := snapshot_fields _ _ _ _ status taken
  have live : status.cancelled = false := cancelled.trans ready.ripe.live.1
  cases received : point.complete with
  | true =>
      refine ⟨next, session, asked, ready', rfl, rfl, ?_, ?_⟩
      · simp [replied, checkpointStep, fileStep, live, found, received, Sender.move]
      · rintro name (old | rfl)
        · exact old
        · exact receipt.symm.trans received
  | false =>
      have missing : session.record.published.lookup file.info.id = none := by simpa [receipt] using received
      have phase' : next.sender.phase = .running session.record.manifest
        (.openSource session.record.token file rest 0
          (partialBytes next.receiver.store.disk session.id file.info.id).length) := by
        rw [kept, ← partly received]
        simp [replied, checkpointStep, fileStep, live, found, received, Sender.move, Nat.not_lt.mpr fits]
      obtain ⟨last, after, targets, target, sent, ready'', known, phase''⟩ :=
        chunk_answered sha256 client plan source peer able next s session
        ready' file rest 0 listed missing phase'
      refine ⟨last, after, Transition.run_trans _ _ _ _ _ asked sent, ready'', by rw [known]; rfl,
        by rw [known]; rfl, phase'', ?_⟩
      intro name got
      rw [known, receipt_lookup]
      split
      · rfl
      · next different => exact got.resolve_right different

-- The loop over the files that are left, by induction on them.
theorem files_sent (manifest : TransferManifest) (token : String) (rest : List PreparedFile) (world : World)
    (s : Nat) (session : Session) (ready : Ready sha256 plan source peer world.receiver s session)
    (same : session.record.manifest = manifest) (own : session.record.token = token)
    (members : ∀ file ∈ rest, file ∈ plan.files)
    (received : ∀ file ∈ plan.files, file ∉ rest →
      (session.record.published.lookup file.info.id).isSome = true)
    (phase : world.sender.phase = .running manifest (nextFile token rest)) :
    ∃ final after, SmoothRun sha256 client plan world final ∧ final.receiver.store.heap[s]? = some after ∧
      after.id = plan.transferId ∧ after.record.complete = true ∧
      final.sender.phase = .returned (.ok ()) := by
  subst same own
  induction rest generalizing world session with
  | nil =>
      obtain ⟨next, status, sender, asked, ready', kept, taken, replied⟩ :=
        query_answered sha256 client plan source peer able world s session ready
        .completion 0 phase
      have whole : session.record.complete = true := by
        refine ready.grounded.finishes session.record (.inl ⟨s, session, ready.ripe.here, rfl⟩) ?_
        intro name member
        rw [TransferManifest.fileIds, manifest_files plan session.record.manifest ready.planned,
          List.map_map] at member
        obtain ⟨file, inside, rfl⟩ := List.mem_map.mp member
        exact received file inside (by simp)
      have told : status.complete = true := (snapshot_fields _ _ _ _ status taken).2.2.1.trans whole
      exact ⟨next, session, asked, ready'.ripe.here, ready'.own, whole,
        by simp [replied, checkpointStep, completionStep, told, finish]⟩
  | cons file rest ih =>
      obtain ⟨next, after, sent, ready', manifest', token', phase', receipts⟩ :=
        file_sent sha256 client plan source peer able world s session ready
        file rest (members file (List.mem_cons_self ..)) phase
      obtain ⟨final, last, later, concluded⟩ :=
        ih next after ready' (fun other member => members other (List.mem_cons_of_mem _ member))
        (by
          intro other inside left
          by_cases mine : other = file
          · exact receipts _ (.inr (by rw [mine]))
          · exact receipts _ (.inl (received other inside (by simp [mine, left]))))
        (by rw [manifest', token']; exact phase')
      exact ⟨final, last, Transition.run_trans _ _ _ _ _ sent later, concluded⟩

-- From any state in which the sender waits for the approval of a session that is
-- accepted and can be completed, the send can come to its success by the requests
-- of the sender alone.
theorem accepted_sends_can_succeed (start world : World) (initial : start.Initial)
    (run : Transition.Run (worldStep sha256 client plan) (fun _ _ => True) start world) (s : Nat)
    (session : Session) (ripe : Ripe sha256 source world.receiver s session)
    (own : session.id = plan.transferId) (planned : plan.manifest = .ok session.record.manifest)
    (owned : session.record.owner = owner peer) (attempt : Nat)
    (phase : world.sender.phase = .running session.record.manifest (.query .approval attempt)) :
    ∃ final after, SmoothRun sha256 client plan world final ∧ final.receiver.store.heap[s]? = some after ∧
      after.id = plan.transferId ∧ after.record.complete = true ∧
      final.sender.phase = .returned (.ok ()) := by
  have grounded : Grounded world.receiver := by
    refine Transition.run_invariant (worldStep sha256 client plan) _ (fun world => Grounded world.receiver)
      ?_ start world run (initial_grounded start.receiver initial.receiver)
    intro before label next grounded _ stepped
    rcases world_receiver sha256 client plan before next label stepped with same | ⟨label, moved⟩
    · rw [same]
      exact grounded
    · exact grounded_step sha256 before.receiver next.receiver label grounded moved
  obtain ⟨next, status, sender, asked, ready, kept, taken, replied⟩ :=
    query_answered sha256 client plan source peer able world s session
    ⟨grounded, ripe, own, planned, owned⟩ .approval attempt phase
  obtain ⟨decision, cancelled, complete, _⟩ := snapshot_fields _ _ _ _ status taken
  have accepted : status.status = .accepted := decision.trans ripe.accepted
  have live : status.cancelled = false := cancelled.trans ripe.live.1
  have token : status.token = some session.record.token := by
    simp only [snapshot] at taken
    split at taken
    · cases taken
    · cases taken
      simp [ripe.accepted, ripe.live.1]
  cases whole : session.record.complete with
  | true =>
      have told : status.complete = true := complete.trans whole
      exact ⟨next, session, asked, ready.ripe.here, own, whole,
        by simp [replied, checkpointStep, approvalStep, live, accepted, told, finish]⟩
  | false =>
      have told : status.complete = false := complete.trans whole
      obtain ⟨final, after, sent, ended⟩ :=
        files_sent sha256 client plan source peer able session.record.manifest session.record.token plan.files
        next s session ready rfl rfl (fun _ member => member) (fun file member left => absurd member left)
        (by simp [replied, checkpointStep, approvalStep, live, accepted, told, token, Sender.move])
      exact ⟨final, after, Transition.run_trans _ _ _ _ _ asked sent, ended⟩

end Send

-- An earlier sender of the same peer has sent one byte of the second file.
def partialRun : List WorldLabel :=
  pairOpening ++
    (.call (.upload ⟨smallPeer, pairPlan.transferId, pairPlanFile.info.id, 0, "t", [[1]], .failed⟩) ::
    advances 1 9).map .receiver

def pairContent (file : String) : Bytes := if file = pairPlanFile.info.id then pairSource else []

def asksApproval (phase : SendPhase) : Bool :=
  match phase with
  | .running manifest (.query .approval 0) => manifest == pairPlanManifest
  | _ => false

def waitsForPlan (world : World) : Bool :=
  asksApproval world.sender.phase && world.receiver.running &&
    world.receiver.store.sessions.lookup pairPlan.transferId == some 0 &&
    (world.receiver.store.heap[0]?).any fun session => session.id == pairPlan.transferId &&
    session.lock.isNone && !session.record.cancelled &&
      !session.cancel && session.record.decision == .accepted && session.record.owner == owner smallPeer &&
      session.record.manifest == pairPlanManifest &&
      (checkpoints world.receiver.store.disk session.id session.record none).isOk &&
      pairPlan.files.all fun file =>
        (world.receiver.store.disk.node (candidatePath file.info 1)).isNone &&
          partialBytes world.receiver.store.disk session.id file.info.id == (pairContent file.info.id).take 1

theorem asks_approval (phase : SendPhase) (asks : asksApproval phase = true) :
    phase = .running pairPlanManifest (.query .approval 0) := by
  unfold asksApproval at asks
  split at asks
  · next manifest =>
    have same : manifest = pairPlanManifest := by simpa using asks
    rw [same]
  · cases asks

theorem candidate_starts (base : String) (first : Char) (rest : List Char)
    (chars : base.toList = first :: rest) (plain : (splitExtension base.toList).2 = none) (index : Nat) :
    (candidateName base index).toList.head? = some first := by
  unfold candidateName
  split
  · rw [chars]
    rfl
  · split
    · next ext split_ =>
      rw [split_] at plain
      cases plain
    · simp [String.toList_append, chars]

theorem pair_apart (file other : TransferFile) (member : file ∈ pairPlanManifest.request.files)
    (member' : other ∈ pairPlanManifest.request.files) (different : other.id ≠ file.id) (i j : Nat) :
    candidatePath file i ≠ candidatePath other j := by
  have first (index : Nat) := candidate_starts "a" 'a' [] rfl rfl index
  have second (index : Nat) := candidate_starts "b" 'b' [] rfl rfl index
  intro same
  rcases List.mem_pair.mp member with rfl | rfl <;> rcases List.mem_pair.mp member' with rfl | rfl
  · exact different rfl
  · have heads :=
      (first i).symm.trans ((congrArg (fun path => (path.getLastD "").toList.head?) same).trans (second j))
    simp at heads
  · have heads :=
      (second i).symm.trans ((congrArg (fun path => (path.getLastD "").toList.head?) same).trans (first j))
    simp at heads
  · exact different rfl

theorem pair_plan_can_succeed :
    ∃ (world final : World) (after : Session),
      world.sender.phase = .running pairPlanManifest (.query .approval 0) ∧
    SmoothRun pairPlanHash retryingClient pairPlan world final ∧ after.record.complete = true ∧
      final.sender.phase = .returned (.ok ()) := by
  obtain ⟨world, run, checked⟩ := Transition.replay_reaches (worldStep pairPlanHash retryingClient pairPlan)
    (fun _ _ => True) partialRun smallWorld waitsForPlan (by decide +kernel)
  simp only [waitsForPlan, Bool.and_eq_true, beq_iff_eq, Option.any_eq_true, Option.isNone_iff_eq_none,
    Bool.not_eq_true',
    List.all_eq_true] at checked
  obtain ⟨⟨⟨asks, running⟩, mapped⟩, session, here, fields⟩ := checked
  obtain ⟨⟨⟨⟨⟨⟨⟨⟨named, free⟩, live⟩, untripped⟩, accepted⟩, owned⟩, manifest⟩, reported⟩, each⟩ := fields
  have phase := asks_approval world.sender.phase asks
  have points : ∃ points, checkpoints world.receiver.store.disk session.id session.record none =
    .ok points := by
    cases read : checkpoints world.receiver.store.disk session.id session.record none with
    | error e => simp [read, Except.isOk, Except.toBool] at reported
    | ok points => exact ⟨points, rfl⟩
  have flat : ∀ file ∈ pairPlanManifest.request.files, parentDirs (receiveTarget file).1 = [] := by
    intro file member
    rcases List.mem_pair.mp member with rfl | rfl <;> rfl
  have ripe : Ripe pairPlanHash pairContent world.receiver 0 session := by
    refine ⟨running, named ▸ mapped, here, free, ⟨live, untripped⟩, accepted, points, ?_, ?_⟩
      <;> rw [manifest]
    · intro file member other _ _ dir above
      rw [flat file member] at above
      cases above
    · intro file member _
      obtain ⟨source, inside, rfl⟩ : ∃ source ∈ pairPlan.files, source.info = file := List.mem_map.mp member
      obtain ⟨empty, received⟩ := each source inside
      have room : Spare world.receiver.store.disk session.record.manifest.request.files source.info
        (candidatePath source.info 1) := by
        rw [manifest]
        exact ⟨empty, fun other member' different =>
          ⟨pair_apart source.info other member member' different 1,
            by rw [flat other member']; exact List.not_mem_nil⟩⟩
      have begun := List.take_prefix 1 (pairContent source.info.id)
      rw [← received] at begun
      have made : Publishable source.info ∧ (pairContent source.info.id).length = source.info.size ∧
          session.record.manifest.sha256.lookup source.info.id =
          some (pairPlanHash (pairContent source.info.id)) := by
        rw [manifest, Publishable]
        rcases List.mem_pair.mp inside with rfl | rfl <;> decide +kernel
      refine ⟨made.1, ?_, ⟨1, Nat.le_refl 1, by decide, room⟩, begun, made.2.1, made.2.2⟩
      rw [flat source.info member]
      simp
  obtain ⟨final, after, smoothly, _, _, whole, success⟩ :=
    accepted_sends_can_succeed pairPlanHash retryingClient pairPlan pairContent smallPeer rfl
    smallWorld world small_world_initial run 0 session ripe named (manifest ▸ rfl) owned 0 (manifest ▸ phase)
  exact ⟨world, final, after, phase, smoothly, whole, success⟩

end GoshTransfer
