import GoshTransfer.Certificates
import GoshTransfer.Publication
import GoshTransfer.Resume

set_option autoImplicit false

namespace GoshTransfer

open InodeStore

-- What a request becomes at the receiver: the address it seems to come from,
-- the answers of the tests outside the store, the values drawn by register, and
-- how much of the body arrives, in which pieces.
structure Arrival where
  peer : Peer
  legacy : Bool
  trusted : Bool
  token : String
  now : Nat
  chunks : List Bytes
  ending : BodyEnd

def Request.call (arrival : Arrival) : Request → Call
  | .transfer manifest =>
      .register ⟨arrival.peer, manifest, arrival.legacy, arrival.trusted, arrival.token, arrival.now⟩
  | .status transferId => .status arrival.peer transferId
  | .chunk transferId fileId offset token _ =>
      .upload ⟨arrival.peer, transferId, fileId, offset, token, arrival.chunks, arrival.ending⟩

-- A body arrives in part at most; the other requests arrive whole or not at all.
def Request.carries (arrival : Arrival) : Request → Bool
  | .chunk _ _ _ _ body => arrival.chunks.flatten.isPrefixOf body
  | _ => true

def Op.reply : Op → Option Response
  | .register _ (.done reply) | .status _ _ (.done reply) | .upload _ (.done reply) => some reply
  | _ => none

-- One sender and one receiver. Whatever was sent or answered once stays in the
-- network: it may be delivered late, often, in any order or never. serving has
-- the handlers that run for requests of the sender.
structure World where
  receiver : State
  sender : Sender
  sent : List Request
  serving : List (Nat × Request)
  replies : List (Request × Response)

-- The calls of other clients and of the local user are labels of the receiver.
inductive WorldLabel where
  | receiver (label : Label)
  | deliver (request : Request) (arrival : Arrival)
  | reply (o : Nat)
  | sender (input : Input)

-- A success is an answer of the receiver to this request. Failures may come from
-- the network and from the layers before the handlers as well.
def World.admits (plan : PreparedTransfer) (world : World) : Input → Bool
  | .outcome (.response response _) =>
      !isSuccess response.code || (world.sender.phase.awaits plan).any fun request =>
        decide ((request, response) ∈ world.replies)
  | _ => true

def worldStep (sha256 : Bytes → String) (client : TransferClient) (plan : PreparedTransfer)
    (world : World) : WorldLabel → Option World
  | .receiver label =>
      (step sha256 world.receiver label).map fun receiver =>
        { world with receiver := receiver, serving := if receiver.running then world.serving else [] }
  | .deliver request arrival =>
      if request ∈ world.sent ∧ request.carries arrival = true then
        (step sha256 world.receiver (.call (request.call arrival))).map fun receiver =>
          { world with receiver := receiver, serving := (world.receiver.ops.length, request) :: world.serving }
      else none
  | .reply o =>
      (world.serving.lookup o).bind fun request =>
        ((world.receiver.ops[o]?).bind Op.reply).map fun response =>
          { world with replies := (request, response) :: world.replies }
  | .sender input =>
      if world.admits plan input then
        (world.sender.next sha256 client plan input).map fun (sender, requests) =>
          { world with sender := sender, sent := requests ++ world.sent }
      else none

structure World.Initial (world : World) : Prop where
  receiver : GoshTransfer.Initial world.receiver
  sender : world.sender.phase = .begin
  sent : world.sent = []
  serving : world.serving = []
  replies : world.replies = []

-- Nobody forgets the id of the plan, no stale reject_transfer or cancel_transfer
-- writes a journal, forget removes every partial, and the completing receipt of
-- the plan's session is saved.
def careful (plan : PreparedTransfer) (world : World) : WorldLabel → Bool
  | .receiver label =>
      forgetless plan.transferId label && orderly world.receiver label &&
        finalReceiptSaved plan.transferId world.receiver label
  | _ => true

def SendPoint.registered : SendPoint → Bool
  | .hash _ | .register _ | .registering _ => false
  | _ => true

-- What the sender may rely on, from what it has been told.
def SendPhase.Certain (plan : PreparedTransfer) (registered : TransferManifest → Prop) (completed : Prop) :
    SendPhase → Prop
  | .begin => True
  | .running manifest point => plan.manifest = .ok manifest ∧ (point.registered = true → registered manifest)
  | .returned (.ok _) => completed ∧ ∃ manifest, plan.manifest = .ok manifest ∧ registered manifest
  | .returned (.error _) => True

theorem judge_success (client : TransferClient) (transient : Nat → Bool) (attempt : Nat) (outcome : Outcome)
    (response : Response) (whole : Bool)
    (judged : judge client transient attempt outcome = .success response whole) :
    outcome = .response response whole ∧ isSuccess response.code = true := by
  cases outcome with
  | failed message =>
      simp only [judge] at judged
      split at judged <;> cases judged
  | response response' whole' =>
      simp only [judge] at judged
      split at judged
      · rename_i success
        cases judged
        exact ⟨rfl, success⟩
      · split at judged <;> cases judged

theorem checkpoint_status_body (plan : PreparedTransfer) (response : Response) (whole : Bool)
    (status : ResumeStatus) (accepted : checkpointStatus plan response whole = .ok status) :
    response.body = .status status := by
  obtain ⟨code, body⟩ := response
  cases body with
  | status reported =>
      cases whole with
      | true =>
          simp only [checkpointStatus] at accepted
          split at accepted
          · cases accepted
          · cases accepted
            rfl
      | false => cases accepted
  | _ => cases whole <;> cases accepted

section Sender

variable (sha256 : Bytes → String) (client : TransferClient) (plan : PreparedTransfer) (sender : Sender)
variable (registered : TransferManifest → Prop) (completed : Prop)

theorem send_certain (request : Request) (phase : SendPhase) (sender' : Sender) (requests : List Request)
    (moved : send client sender request phase = (sender', requests))
    (certain : phase.Certain plan registered completed) :
    sender'.phase.Certain plan registered completed := by
  unfold send at moved
  split at moved
  · cases moved
    trivial
  · cases moved
    exact certain

theorem begin_certain : (beginStep client plan sender).phase.Certain plan registered completed := by
  unfold beginStep
  split
  · trivial
  · split
    · trivial
    · rename_i manifest planned
      split
      · trivial
      · exact ⟨planned, by simp [SendPoint.registered]⟩

theorem checkpoint_certain (manifest : TransferManifest) (planned : plan.manifest = .ok manifest)
    (known : registered manifest) (status : ResumeStatus) (told : status.complete = true → completed)
    (stage : Stage) :
    (checkpointStep plan sender manifest status stage).phase.Certain plan registered completed := by
  have done : status.complete = true → (finish sender manifest).phase.Certain plan registered completed :=
    fun complete => ⟨told complete, manifest, planned, known⟩
  have going : ∀ (sender : Sender) (point : SendPoint),
    (sender.move (.running manifest point)).phase.Certain plan registered completed :=
    fun _ _ => ⟨planned, fun _ => known⟩
  cases stage with
  | approval =>
      simp only [checkpointStep, approvalStep]
      split
      · trivial
      · split
        · split
          · rename_i complete
            exact done complete
          · split
            · trivial
            · exact going _ _
        · trivial
        · trivial
        · exact going _ _
  | file token file rest attempt =>
      simp only [checkpointStep, fileStep]
      split
      · trivial
      · split
        · trivial
        · split
          · exact going _ _
          · split
            · trivial
            · exact going _ _
  | completion =>
      simp only [checkpointStep, completionStep]
      split
      · trivial
      · rename_i complete
        exact done (by simpa using complete)

theorem point_certain (manifest : TransferManifest) (planned : plan.manifest = .ok manifest)
    (point : SendPoint) (known : point.registered = true → registered manifest) (input : Input)
    (answers : ∀ response whole request, input = .outcome (.response response whole) →
      isSuccess response.code = true →
      point.awaits plan manifest = some request → (request = .transfer manifest → registered manifest) ∧
        (request = .status plan.transferId → response.completes = some .completed → completed))
    (sender' : Sender) (requests : List Request)
    (moved : pointStep sha256 client plan sender manifest point input = some (sender', requests)) :
    sender'.phase.Certain plan registered completed := by
  have going : ∀ (sender : Sender) (next : SendPoint), (next.registered = true → registered manifest) →
      (sender.move (.running manifest next)).phase.Certain plan registered completed :=
      fun _ _ told => ⟨planned, told⟩
  unfold pointStep at moved
  split at moved
  · rename_i file rest content
    cases moved
    cases content with
    | error message => trivial
    | ok bytes =>
        simp only [hashSource]
        split
        · trivial
        · exact going _ _ (by simp [SendPoint.registered])
  · cases moved
    exact going _ _ (by simp [SendPoint.registered])
  · exact send_certain client plan sender registered completed _ _ sender' requests (Option.some.inj moved)
      ⟨planned, by simp [SendPoint.registered]⟩
  · rename_i attempt outcome
    split at moved
    · rename_i response whole judged
      cases moved
      obtain ⟨rfl, success⟩ := judge_success _ _ _ _ _ _ judged
      exact going _ _ fun _ => (answers response whole _ rfl success rfl).1 rfl
    · cases moved
      exact ⟨planned, by simp [SendPoint.registered]⟩
    · cases moved
      trivial
  · exact send_certain client plan sender registered completed _ _ sender' requests (Option.some.inj moved)
      ⟨planned, fun _ => known rfl⟩
  · rename_i stage attempt outcome
    split at moved
    · rename_i response whole judged
      obtain ⟨rfl, success⟩ := judge_success _ _ _ _ _ _ judged
      split at moved
      · cases moved
        trivial
      · rename_i status accepted
        cases moved
        refine checkpoint_certain plan sender registered completed manifest planned
          (known rfl) status ?_ stage
        intro complete
        have body := checkpoint_status_body plan response whole status accepted
        refine (answers response whole _ rfl success rfl).2 rfl ?_
        obtain ⟨code, _⟩ := response
        simp only at body
        simp [body, Response.completes, complete]
    · cases moved
      exact ⟨planned, fun _ => known rfl⟩
    · cases moved
      trivial
  · cases moved
    trivial
  · cases moved
    trivial
  · cases moved
    trivial
  · exact send_certain client plan sender registered completed _ _ sender' requests (Option.some.inj moved)
      ⟨planned, fun _ => known rfl⟩
  · split at moved
    · cases moved
    · cases moved
      exact going _ _ fun _ => known rfl
  · split at moved
    · cases moved
      exact going _ _ fun _ => known rfl
    · cases moved
      exact ⟨planned, fun _ => known rfl⟩
    · cases moved
      trivial
  · cases moved

theorem sender_certain (input : Input) (before : sender.phase.Certain plan registered completed)
    (answers : ∀ response whole request, input = .outcome (.response response whole) →
      isSuccess response.code = true →
      sender.phase.awaits plan = some request → (∀ manifest, plan.manifest = .ok manifest →
        request = .transfer manifest → registered manifest) ∧
        (request = .status plan.transferId → response.completes = some .completed → completed))
    (sender' : Sender) (requests : List Request)
    (moved : sender.next sha256 client plan input = some (sender', requests)) :
    sender'.phase.Certain plan registered completed := by
  unfold Sender.next at moved
  split at moved
  · cases moved
    exact begin_certain client plan sender registered completed
  · rename_i manifest point running
    rw [running] at before answers
    refine point_certain sha256 client plan sender registered completed manifest before.1 point before.2 _
      ?_ sender' requests moved
    intro response whole request arrived success awaited
    obtain ⟨first, second⟩ := answers response whole request arrived success awaited
    exact ⟨first manifest before.1, second⟩
  · cases moved

end Sender

theorem certain_mono (plan : PreparedTransfer) (registered registered' : TransferManifest → Prop)
    (completed completed' : Prop) (known : ∀ manifest, registered manifest → registered' manifest)
    (told : completed → completed') (phase : SendPhase)
    (certain : phase.Certain plan registered completed) : phase.Certain plan registered' completed' := by
  cases phase with
  | begin => trivial
  | running manifest point => exact ⟨certain.1, fun past => known manifest (certain.2 past)⟩
  | returned result =>
      cases result with
      | error e => trivial
      | ok value =>
          obtain ⟨complete, manifest, planned, registered⟩ := certain
          exact ⟨told complete, manifest, planned, known manifest registered⟩

def Request.id : Request → String
  | .transfer manifest => manifest.request.transferId
  | .status transferId | .chunk transferId _ _ _ _ => transferId

-- The handler that a request starts.
def Request.Asks : Request → Op → Prop
  | .transfer manifest, .register request _ => request.manifest = manifest
  | .status transferId, .status _ id _ => id = transferId
  | .chunk _ _ _ _ _, .upload _ _ => True
  | _, _ => False

def Request.certificate (response : Response) : Request → Option Certificate
  | .transfer manifest => response.registers manifest
  | .status _ => response.completes
  | .chunk _ _ _ _ _ => none

theorem asks_call (request : Request) (arrival : Arrival) : request.Asks (request.call arrival).op := by
  cases request <;> simp [Request.call, Call.op, Request.Asks]

theorem asks_kept (sha256 : Bytes → String) (store : Store) (fault : Option Fault) (op op' : Op) (act : Act)
    (log : List Entry) (moved : OpMove sha256 store fault op act log op') (request : Request)
    (asks : request.Asks op) : request.Asks op' := by
  cases request <;> cases moved <;> exact asks

theorem asks_reply (request : Request) (op : Op) (response : Response) (certificate : Certificate)
    (asks : request.Asks op) (replied : op.reply = some response)
    (certain : request.certificate response = some certificate) :
    op.id = request.id ∧ op.certificate = some certificate := by
  cases request with
  | transfer manifest =>
      cases op with
      | register arrived phase =>
          obtain rfl : arrived.manifest = manifest := asks
          cases phase with
          | done reply =>
              obtain rfl := Option.some.inj replied
              exact ⟨rfl, certain⟩
          | _ => cases replied
      | _ => cases asks
  | status transferId =>
      cases op with
      | status peer id phase =>
          obtain rfl : id = transferId := asks
          cases phase with
          | done reply =>
              obtain rfl := Option.some.inj replied
              exact ⟨rfl, certain⟩
          | _ => cases replied
      | _ => cases asks
  | chunk transferId fileId offset token body => cases certain

structure Sure (sha256 : Bytes → String) (plan : PreparedTransfer) (world : World) : Prop where
  kempt : Kempt world.receiver
  intact : Intact sha256 world.receiver
  retained : Retained plan.transferId world.receiver
  certified : Certified plan.transferId world.receiver
  serving : ∀ o request, (o, request) ∈ world.serving → ∃ op, world.receiver.ops[o]? = some op ∧
    request.Asks op
  replies : ∀ request response certificate, (request, response) ∈ world.replies →
    request.id = plan.transferId →
    request.certificate response = some certificate → Recorded plan.transferId certificate.On world.receiver
  sender : world.sender.phase.Certain plan (fun manifest => Recorded plan.transferId
    (Certificate.registered manifest).On world.receiver)
    (Recorded plan.transferId Certificate.completed.On world.receiver)

theorem sure_receiver (sha256 : Bytes → String) (plan : PreparedTransfer) (world : World)
    (sure : Sure sha256 plan world) (label : Label) (receiver : State) (serving : List (Nat × Request))
    (allowed : careful plan world (.receiver label) = true)
    (stepped : step sha256 world.receiver label = some receiver)
    (served : ∀ o request, (o, request) ∈ serving → ∃ op, receiver.ops[o]? = some op ∧ request.Asks op) :
    Sure sha256 plan { world with receiver := receiver, serving := serving } := by
  simp only [careful, Bool.and_eq_true] at allowed
  obtain ⟨⟨unforgotten, ordered⟩, saved⟩ := allowed
  have fresh := orderly_fresh world.receiver label ordered
  have base := sure.kempt.base
  have retained :=
    retained_step sha256 plan.transferId world.receiver receiver label base sure.retained unforgotten saved
      stepped
  have carried : ∀ certificate : Certificate, Recorded plan.transferId certificate.On world.receiver →
      Recorded plan.transferId certificate.On receiver := by
    intro certificate recorded
    exact recorded_step sha256 world.receiver receiver label base sure.kempt.owned fresh plan.transferId
      certificate.On (certificate_forward certificate) recorded
      (retained_unerased plan.transferId world.receiver sure.retained label) stepped
  exact ⟨kempt_step sha256 world.receiver receiver label sure.kempt ordered stepped,
    intact_step sha256 world.receiver receiver label sure.kempt sure.intact fresh stepped, retained,
    certified_step sha256 plan.transferId world.receiver receiver label base sure.kempt.owned fresh
    sure.retained retained sure.certified stepped,
    served, fun request response certificate member named certain => carried certificate
    (sure.replies request response certificate member named certain),
    certain_mono plan _ _ _ _ (fun manifest => carried (.registered manifest))
    (carried .completed) _ sure.sender⟩

theorem served_step (sha256 : Bytes → String) (state next : State) (label : Label) (base : Base state)
    (stepped : step sha256 state label = some next) (running : next.running = true) (o : Nat)
    (request : Request) (served : ∃ op, state.ops[o]? = some op ∧ request.Asks op) :
    ∃ op, next.ops[o]? = some op ∧ request.Asks op := by
  obtain ⟨op, there, asks⟩ := served
  have within := (List.getElem?_eq_some_iff.mp there).1
  rcases step_cases sha256 state next label stepped with ⟨call, rfl, _, rfl⟩ |
    ⟨p, fault, q, act, log, q', rfl, here, moved, rfl⟩ |
    ⟨rfl, _, rfl⟩ | ⟨store, rfl, stopped, loaded, rfl⟩
  · exact ⟨op, (List.getElem?_append_left within).trans there, asks⟩
  · by_cases same : p = o
    · subst same
      obtain rfl := Option.some.inj (here.symm.trans there)
      exact ⟨q', List.getElem?_set_self within, asks_kept sha256 state.store fault q q' act log moved
        request asks⟩
    · exact ⟨op, (List.getElem?_set_ne same).trans there, asks⟩
  · cases running
  · rw [(base.stopped stopped).1] at there
    cases there

theorem manifest_id (plan : PreparedTransfer) (manifest : TransferManifest)
    (planned : plan.manifest = .ok manifest) :
    manifest.request.transferId = plan.transferId := by
  unfold PreparedTransfer.manifest at planned
  split at planned
  · cases planned
  · cases planned
    rfl

theorem sure_step (sha256 : Bytes → String) (client : TransferClient) (plan : PreparedTransfer)
    (world next : World) (label : WorldLabel) (sure : Sure sha256 plan world)
    (allowed : careful plan world label = true)
    (stepped : worldStep sha256 client plan world label = some next) : Sure sha256 plan next := by
  have base := sure.kempt.base
  cases label with
  | receiver label =>
      obtain ⟨receiver, moved, rfl⟩ := Option.map_eq_some_iff.mp stepped
      refine sure_receiver sha256 plan world sure label receiver _ allowed moved ?_
      intro o request member
      split at member
      · rename_i running
        exact served_step sha256 world.receiver receiver label base moved running o request
          (sure.serving o request member)
      · cases member
  | deliver request arrival =>
      simp only [worldStep, Option.ite_none_right_eq_some] at stepped
      obtain ⟨_, stepped⟩ := stepped
      obtain ⟨receiver, moved, rfl⟩ := Option.map_eq_some_iff.mp stepped
      have quiet : careful plan world (.receiver (.call (request.call arrival))) =
        true := by cases request <;> rfl
      refine sure_receiver sha256 plan world sure _ receiver _ quiet moved ?_
      obtain ⟨running, rfl⟩ := step_call sha256 world.receiver receiver (request.call arrival) moved
      intro o asked member
      rcases List.mem_cons.mp member with same | old
      · obtain ⟨rfl, rfl⟩ := Prod.mk.inj same
        exact ⟨_, by simp, asks_call asked arrival⟩
      · exact served_step sha256 world.receiver _ _ base moved running o asked (sure.serving o asked old)
  | reply o =>
      obtain ⟨request, serving, stepped⟩ := Option.bind_eq_some_iff.mp stepped
      obtain ⟨response, replied, rfl⟩ := Option.map_eq_some_iff.mp stepped
      obtain ⟨op, there, replied⟩ := Option.bind_eq_some_iff.mp replied
      obtain ⟨before, after, split, _⟩ := List.lookup_eq_some_iff.mp serving
      obtain ⟨op', there', asks⟩ := sure.serving o request (by simp [split])
      obtain rfl := Option.some.inj (there.symm.trans there')
      refine ⟨sure.kempt, sure.intact, sure.retained, sure.certified, sure.serving, ?_, sure.sender⟩
      intro asked answer certificate member named certain
      rcases List.mem_cons.mp member with same | old
      · obtain ⟨rfl, rfl⟩ := Prod.mk.inj same
        obtain ⟨own, certified⟩ := asks_reply asked op answer certificate asks replied certain
        exact sure.certified o op certificate there (own.trans named) certified
      · exact sure.replies asked answer certificate old named certain
  | sender input =>
      simp only [worldStep, Option.ite_none_right_eq_some] at stepped
      obtain ⟨admitted, stepped⟩ := stepped
      obtain ⟨⟨sender, requests⟩, moved, rfl⟩ := Option.map_eq_some_iff.mp stepped
      refine ⟨sure.kempt, sure.intact, sure.retained, sure.certified, sure.serving, sure.replies, ?_⟩
      refine sender_certain sha256 client plan world.sender _ _ input sure.sender ?_ sender requests moved
      rintro response whole request rfl success awaited
      have answered :
        (request, response) ∈ world.replies := by simpa [World.admits, success, awaited] using admitted
      refine ⟨?_, ?_⟩
      · rintro manifest planned rfl
        exact sure.replies _ response (.registered manifest) answered (manifest_id plan manifest planned)
          (by simp [Request.certificate, Response.registers, success])
      · rintro rfl complete
        exact sure.replies _ response .completed answered rfl complete

theorem initial_sure (sha256 : Bytes → String) (plan : PreparedTransfer) (world : World)
    (initial : world.Initial) : Sure sha256 plan world := by
  obtain ⟨receiver, sender, _, serving, replies⟩ := initial
  refine ⟨⟨initial_base _ receiver, initial_owned _ receiver, initial_housed _ receiver⟩,
    initial_intact sha256 _ receiver,
    initial_retained plan.transferId _ receiver, ?_,
    by simp [serving], by simp [replies], by rw [sender]; trivial⟩
  intro o op certificate there
  rw [receiver.idle] at there
  cases there

theorem digests_other (files : List PreparedFile) (map : HashMap String String) (id : String)
    (other : id ∉ files.map fun f => f.info.id) : (digests files map).lookup id = map.lookup id := by
  induction files generalizing map with
  | nil => rfl
  | cons f rest ih =>
      simp only [List.map_cons, List.mem_cons, not_or] at other
      exact (ih _ other.2).trans (Finmap.lookup_insert_of_ne _ other.1)

theorem digests_lookup (files : List PreparedFile) (map : HashMap String String)
    (distinct : (files.map fun f => f.info.id).Nodup) (file : PreparedFile) (member : file ∈ files) :
    (digests files map).lookup file.info.id = some file.sha256 := by
  induction files generalizing map with
  | nil => cases member
  | cons f rest ih =>
      obtain ⟨apart, distinct⟩ := List.nodup_cons.mp distinct
      rcases List.mem_cons.mp member with rfl | later
      · exact (digests_other rest _ _ apart).trans (Finmap.lookup_insert _)
      · exact ih _ distinct later

-- The record is complete and its receipts lead to the files of the plan.
def Record.Holds (sha256 : Bytes → String) (plan : PreparedTransfer) (disk : ReceiverDisk)
    (record : Record) : Prop :=
  record.complete = true ∧ ∀ file ∈ plan.files, ∃ path bytes, record.published.lookup file.info.id =
    some path ∧
    disk.read path = some bytes ∧ bytes.length = file.info.size ∧ sha256 bytes = file.sha256

theorem complete_holds (sha256 : Bytes → String) (plan : PreparedTransfer) (state : State)
    (base : Base state) (intact : Intact sha256 state) (record : Record)
    (listed : Listed state.store record) (planned : plan.manifest = .ok record.manifest)
    (complete : record.complete = true) :
    record.Holds sha256 plan state.store.disk := by
  have sound := listed_sound state base record listed
  have files : record.manifest.request.files = plan.files.map PreparedFile.info := by
    unfold PreparedTransfer.manifest at planned
    split at planned
    · cases planned
    · rw [← Except.ok.inj planned]
  have sums : record.manifest.sha256 = digests plan.files ∅ := by
    unfold PreparedTransfer.manifest at planned
    split at planned
    · cases planned
    · rw [← Except.ok.inj planned]
  have distinct := valid_ids_nodup record.manifest sound.valid
  have distinct' : (plan.files.map fun f => f.info.id).Nodup := by
    simpa [TransferManifest.fileIds, files, Function.comp_def] using distinct
  refine ⟨complete, ?_⟩
  intro file member
  have info : file.info ∈ record.manifest.request.files := files ▸ List.mem_map_of_mem member
  obtain ⟨path, published⟩ :=
    Option.isSome_iff_exists.mp ((sound.complete complete).1 file.info.id (List.mem_map_of_mem info))
  obtain ⟨declared, bytes, there, named, read, matching⟩ :=
    listed_delivered sha256 state intact record listed file.info.id path published
  obtain rfl : declared = file.info :=
    valid_file_unique record.manifest sound.valid declared file.info there info named
  obtain ⟨digest, size⟩ := verified_size sha256 record file.info bytes matching
  rw [sums, digests_lookup plan.files ∅ distinct' file member] at digest
  exact ⟨path, bytes, published, read, size, (Option.some.inj digest).symm⟩

-- When send_plan has returned Ok, the journal of the plan's session is complete,
-- and so is the session when the receiver is up; both lead to the files of the plan.
theorem sender_success_means_delivery (sha256 : Bytes → String) (client : TransferClient)
    (plan : PreparedTransfer) (start final : World) (initial : start.Initial)
    (run : Transition.Run (worldStep sha256 client plan)
      (fun world label => careful plan world label = true) start final)
    (success : final.sender.phase = .returned (.ok ())) :
    (∃ journal, final.receiver.store.disk.doc (journalPath plan.transferId) = some journal ∧
      journal.Holds sha256 plan final.receiver.store.disk) ∧
    (final.receiver.running = true →
      ∃ s session, final.receiver.store.sessions.lookup plan.transferId = some s ∧
        final.receiver.store.heap[s]? = some session ∧
        session.record.Holds sha256 plan final.receiver.store.disk) := by
  have sure := Transition.run_invariant (worldStep sha256 client plan) _ (Sure sha256 plan)
    (fun world label next sure allowed stepped => sure_step sha256 client plan world next label sure allowed
    stepped)
    start final run (initial_sure sha256 plan start initial)
  have base := sure.kempt.base
  have certain := sure.sender
  rw [success] at certain
  obtain ⟨completed, manifest, planned, registered⟩ := certain
  obtain ⟨journal, written, complete⟩ := completed.journal
  obtain ⟨same, written', own⟩ := registered.journal
  obtain rfl := Option.some.inj (written.symm.trans written')
  obtain rfl : journal.manifest = manifest := own
  refine ⟨⟨journal, written, complete_holds sha256 plan final.receiver base sure.intact journal
    (.inr ⟨_, written⟩) planned complete⟩, ?_⟩
  intro running
  obtain ⟨s, present⟩ := Option.ne_none_iff_exists'.mp (completed.present running)
  obtain ⟨session, at_, _⟩ := base.mapped plan.transferId s present
  rcases sure.kempt.owned.held plan.transferId s session present at_ with ⟨o, forgetting⟩ |
    ⟨journal', written', forward⟩
  · exact absurd forgetting (sure.retained.noForget o _)
  · obtain rfl := Option.some.inj (written.symm.trans written')
    exact ⟨s, session, present, at_, complete_holds sha256 plan final.receiver base sure.intact
      session.record (.inl ⟨s, session, at_, rfl⟩) (forward.same.1 ▸ planned) (forward.complete complete)⟩

-- A plan with one empty file named as the small one.
def planFile : PreparedFile :=
    ⟨"/home/a", { smallFile with id := "00000000-0000-4000-8000-0000000000f3" }, emptyDigest⟩

def smallPlan : PreparedTransfer :=
    ⟨"10.0.0.1", 53317, "00000000-0000-4000-8000-000000000002", none, [planFile]⟩

def planManifest : TransferManifest :=
  ⟨⟨smallPlan.transferId, none, [planFile.info], 0⟩, (∅ : HashMap String String).insert planFile.info.id
    emptyDigest⟩

def smallClient : TransferClient := ⟨false, 0, none⟩

def smallArrival : Arrival := ⟨smallPeer, false, true, "t", 0, [], .finished⟩

def smallWorld : World := ⟨emptyState, ⟨.begin, 0, []⟩, [], [], []⟩

theorem small_world_initial : smallWorld.Initial := ⟨empty_initial, rfl, rfl, rfl, rfl⟩

def statusReply (complete : Bool) : Response :=
  ⟨200, .status ⟨.accepted, some "t", false, complete, [⟨planFile.info.id, 0, complete⟩]⟩⟩

-- One request as operation o of the receiver, and its answer.
def exchange (o count : Nat) (request : Request) (reply : Response) : List WorldLabel :=
  .deliver request smallArrival :: (advances o count).map .receiver ++
    [.reply o, .sender (.outcome (.response reply true))]

-- send_plan up to the answer to the chunk. The second query is answered with a
-- copy of the first answer.
def sendingRun (o chunkSteps : Nat) : List WorldLabel :=
  .sender .go :: .sender (.source (.ok [])) :: .sender .go :: .sender .go ::
    exchange o 7 (.transfer planManifest) (statusReply false) ++ .sender .go ::
    exchange (o + 1) 4 (.status smallPlan.transferId) (statusReply false) ++
    .sender .go :: .sender (.outcome (.response (statusReply false) true)) :: .sender (.source (.ok [])) ::
    exchange (o + 2) chunkSteps (.chunk smallPlan.transferId planFile.info.id 0 "t" []) (.plain 200)

def confirmingRun (o : Nat) : List WorldLabel :=
  .sender .go :: exchange o 4 (.status smallPlan.transferId) (statusReply true)

def succeeded (world : World) : Bool :=
  match world.sender.phase with
  | .returned (.ok _) => true
  | _ => false

theorem succeeded_sound (world : World) (checked : succeeded world = true) : world.sender.phase = .returned
    (.ok ()) := by
  unfold succeeded at checked
  split at checked
  · rename_i value phase
    exact phase
  · cases checked

-- A plan of two files, with a hash that is right on both.
def pairPlanFile : PreparedFile :=
  ⟨"/home/b", { pairFile with name := "b", id := "00000000-0000-4000-8000-0000000000f4" }, pairDigest⟩

def pairPlan : PreparedTransfer := { smallPlan with files := [planFile, pairPlanFile] }

def pairPlanManifest : TransferManifest :=
  ⟨⟨pairPlan.transferId, none, [planFile.info, pairPlanFile.info], 2⟩,
    ((∅ : HashMap String String).insert planFile.info.id emptyDigest).insert pairPlanFile.info.id pairDigest⟩

def pairPlanHash (bytes : Bytes) : String := if bytes = pairSource then pairDigest else emptyDigest

def retryingClient : TransferClient := { smallClient with maxRetries := 1 }

def pairReply (first : Bool) (received : Nat) (complete : Bool) : Response :=
  ⟨200, .status ⟨.accepted, some "t", false, complete,
    [⟨planFile.info.id, 0, first⟩, ⟨pairPlanFile.info.id, received, complete⟩]⟩⟩

def pairQuery (o : Nat) (reply : Response) : List WorldLabel := .sender .go :: exchange o 4
    (.status pairPlan.transferId) reply

def pairOpening : List WorldLabel :=
  .receiver .start :: .sender .go :: .sender (.source (.ok [])) :: .sender (.source (.ok pairSource)) ::
    .sender .go :: .sender .go ::
    exchange 0 7 (.transfer pairPlanManifest) (pairReply false 0 false)

-- The connection breaks off within the second file.
def pairFirst : List WorldLabel :=
  pairQuery 1 (pairReply false 0 false) ++ pairQuery 2 (pairReply false 0 false) ++
    .sender (.source (.ok [])) ::
    exchange 3 18 (.chunk pairPlan.transferId planFile.info.id 0 "t" []) (.plain 200) ++
    pairQuery 4 (pairReply true 0 false) ++ .sender (.source (.ok pairSource)) ::
    .deliver (.chunk pairPlan.transferId pairPlanFile.info.id 0 "t" pairSource)
      { smallArrival with chunks := [[1]], ending := .failed } ::
    (advances 5 9).map .receiver ++ [.sender (.outcome (.failed "connection reset"))]

def pairRest : List WorldLabel :=
  pairQuery 6 (pairReply true 1 false) ++ .sender (.source (.ok pairSource)) ::
    .deliver (.chunk pairPlan.transferId pairPlanFile.info.id 1 "t" [2])
    { smallArrival with chunks := [[2]] } ::
    (advances 7 19).map .receiver ++ [.reply 7, .sender (.outcome (.response (.plain 200) true))]

theorem two_files_are_delivered : ∃ final,
    Transition.Run (worldStep pairPlanHash retryingClient pairPlan)
    (fun world label => careful pairPlan world label = true)
      smallWorld final ∧
      final.sender.phase = .returned (.ok ()) ∧
        ∃ journal, final.receiver.store.disk.doc (journalPath pairPlan.transferId) = some journal ∧
          journal.Holds pairPlanHash pairPlan final.receiver.store.disk := by
  obtain ⟨final, run, checked⟩ := Transition.replay_reaches (worldStep pairPlanHash retryingClient pairPlan)
    (fun world label => careful pairPlan world label = true)
    (pairOpening ++ pairFirst ++ pairRest ++ .receiver .crash :: .receiver .start ::
    pairQuery 0 (pairReply true 2 true)) smallWorld
    succeeded (by decide +kernel)
  have success := succeeded_sound final checked
  exact ⟨final, run, success,
    (sender_success_means_delivery pairPlanHash retryingClient pairPlan smallWorld final small_world_initial
    run success).1⟩

-- No call fails and nobody forgets the id of the plan.
def undisturbed (plan : PreparedTransfer) : WorldLabel → Bool
  | .receiver label => forgetless plan.transferId label && faultless label
  | _ => true

-- Another id leaves a partial behind that is also the published file, which
-- the upload of the plan then adopts as its own.
def adoptingRun : List WorldLabel :=
  (revivalRun ++ advances 2 2 ++ .crash :: .start :: .call (.forget smallId) :: advances 0 9).map
    .receiver ++ sendingRun 1 19

-- The other id grows the left-over partial before the plan is confirmed.
def growingRun : List WorldLabel :=
  (.call (.register { smallRegister true with manifest := longManifest }) :: advances 4 7 ++
    .call (.upload { smallUpload with chunks := [[1]] }) :: advances 5 6).map .receiver ++ confirmingRun 6

theorem confirmed_plan_is_spoilt : (∀ a b, plainHash a = plainHash b → a = b) ∧
    ∃ start final, World.Initial start ∧
    Transition.Run (worldStep plainHash smallClient smallPlan)
    (fun _ label => undisturbed smallPlan label = true) start final ∧
      final.sender.phase = .returned (.ok ()) ∧ final.receiver.running = true ∧
        ¬ ∃ s session, final.receiver.store.sessions.lookup smallPlan.transferId = some s ∧
          final.receiver.store.heap[s]? = some session ∧
            session.record.Holds plainHash smallPlan final.receiver.store.disk := by
  obtain ⟨final, run, checked⟩ := Transition.replay_reaches (worldStep plainHash smallClient smallPlan)
    (fun _ label => undisturbed smallPlan label = true) (adoptingRun ++ growingRun) smallWorld
    (fun final => succeeded final && final.receiver.running && final.receiver.store.disk.read
    ["a"] == some [1] &&
      (final.receiver.store.sessions.lookup smallPlan.transferId).any fun s =>
      (final.receiver.store.heap[s]?).any fun session =>
        session.record.published.lookup planFile.info.id == some ["a"]) (by decide +kernel)
  simp only [Bool.and_eq_true, Option.any_eq_true, beq_iff_eq] at checked
  obtain ⟨⟨⟨success, running⟩, spoilt⟩, s, present, session, at_, published⟩ := checked
  refine ⟨plain_hash_injective, smallWorld, final, small_world_initial, run, succeeded_sound final success,
    running, ?_⟩
  rintro ⟨t, other, found, there, _, receipts⟩
  obtain rfl := Option.some.inj (present.symm.trans found)
  obtain rfl := Option.some.inj (at_.symm.trans there)
  obtain ⟨path, bytes, listed, read, size, _⟩ := receipts planFile (by simp [smallPlan])
  obtain rfl := Option.some.inj (published.symm.trans listed)
  obtain rfl := Option.some.inj (spoilt.symm.trans read)
  cases size

end GoshTransfer
