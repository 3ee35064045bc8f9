import GoshTransfer.Fulfilment

set_option autoImplicit false

-- What a receiver reports about a session, and that the sender believes it.
namespace GoshTransfer

open InodeStore

-- The answer was read off the record of a session with this manifest.
inductive Response.Tells (id : String) (manifest : TransferManifest) : Response → Prop where
  | read (disk : ReceiverDisk) (record : Record) (fault : Option Fault) (status : ResumeStatus)
      (sound : record.Sound) (decided : record.decision ≠ .notFound) (own : record.manifest = manifest)
      (taken : snapshot disk id record fault = .ok status) :
      Response.Tells id manifest ⟨200, .status status⟩

def Op.report : Op → Option Response
  | .status _ _ (.leave _ reply) | .status _ _ (.done reply) => some reply
  | _ => none

-- A success is about the session that is on record.
def Response.Vouched (id : String) (state : State) (reply : Response) : Prop :=
  isSuccess reply.code = true → ∃ manifest, Recorded id (Certificate.registered manifest).On state ∧
    reply.Tells id manifest

def Candid (id : String) (state : State) : Prop :=
  ∀ (o : Nat) (op : Op) (reply : Response), state.ops[o]? = some op → op.id = id → op.report = some reply →
    reply.Vouched id state

theorem request_decided (request : RegisterRequest) : request.record.decision ≠ .notFound := by
  cases trusted : request.trusted <;> simp [RegisterRequest.record, trusted]

theorem change_decided (session : Session) (after : Record) (_ : session.record.Sound)
    (decided : session.record.decision ≠ .notFound) (change : Change session after) :
    after.decision ≠ .notFound := by
  cases change with
  | accept | reject => simp
  | _ => exact decided

theorem report_made (sha256 : Bytes → String) (id : String) (state : State) (base : Base state)
    (decided : ∀ record, Listed state.store record → record.decision ≠ .notFound) (o : Nat)
    (fault : Option Fault) (op op' : Op) (act : Act) (log : List Entry) (here : state.ops[o]? = some op)
    (moved : OpMove sha256 state.store fault op act log op') (named : op.id = id)
    (base' : Base
      { state with store := state.store.apply o act, ops := state.ops.set o op', log := state.log ++ log })
    (owned' : Owned
      { state with store := state.store.apply o act, ops := state.ops.set o op', log := state.log ++ log })
    (after : Retained id
      { state with store := state.store.apply o act, ops := state.ops.set o op', log := state.log ++ log })
    (reply : Response) (reported : op'.report = some reply) :
    op.report = some reply ∨
      reply.Vouched id
      { state with store := state.store.apply o act, ops := state.ops.set o op', log := state.log ++ log } := by
  cases moved with
  | status peer asked phase next _ _ moved =>
      cases moved with
      | missing | foreign =>
          obtain rfl := Option.some.inj reported
          exact .inr fun success => by cases success
      | left s answer => exact .inl reported
      | answered s session at_ own =>
          refine .inr fun success => ?_
          obtain rfl := Option.some.inj reported
          obtain ⟨session', at', same⟩ := base.known o _ s here rfl
          obtain rfl := Option.some.inj (at_.symm.trans at')
          obtain rfl : session.id = id := same.trans named
          cases taken : snapshot state.store.disk session.id session.record fault with
          | error e =>
              rw [taken] at success
              cases e <;> cases success
          | ok status =>
              refine ⟨session.record.manifest, ?_, ?_⟩
              · have recorded := retained_recorded session.id _ base' owned' after s session at_ rfl
                rw [taken] at recorded
                refine recorded_mono session.id _ (Certificate.registered session.record.manifest).On _ ?_
                  recorded
                exact fun journal both => both.1
              · exact .read state.store.disk session.record fault status (base.sound s session at_).record
                  (decided session.record (.inl ⟨s, session, at_, rfl⟩)) rfl taken
      | _ => cases reported
  | _ => cases reported

theorem vouched_carried (id : String) (state next : State) (reply : Response)
    (carried : ∀ certificate : Certificate, Recorded id certificate.On state →
      Recorded id certificate.On next) (vouched : reply.Vouched id state) :
    reply.Vouched id next := by
  intro success
  obtain ⟨manifest, recorded, tells⟩ := vouched success
  exact ⟨manifest, carried (.registered manifest) recorded, tells⟩

theorem candid_step (sha256 : Bytes → String) (id : String) (state next : State) (label : Label)
    (base : Base state) (base' : Base next) (owned' : Owned next) (after : Retained id next)
    (decided : ∀ record, Listed state.store record → record.decision ≠ .notFound)
    (carried : ∀ certificate : Certificate, Recorded id certificate.On state →
      Recorded id certificate.On next) (candid : Candid id state)
    (stepped : step sha256 state label = some next) : Candid id next := by
  intro p q reply there named reported
  rcases step_cases sha256 state next label stepped with ⟨call, rfl, _, rfl⟩ |
    ⟨o, fault, op, act, log, op', rfl, here, moved, rfl⟩ |
    ⟨rfl, _, rfl⟩ | ⟨store, rfl, stopped, loaded, rfl⟩
  · rcases Transition.append_cases state.ops p call.op q there with before | rfl
    · exact vouched_carried id state _ reply carried (candid p q reply before named reported)
    · cases call with
      | cancel caller asked => cases caller <;> cases reported
      | _ => cases reported
  · rcases Transition.set_cases state.ops o p op' q there with ⟨rfl, rfl⟩ | ⟨_, before⟩
    · have own : op.id = id :=
        (op_disciplined state.store fault act log sha256 op q moved).sameId.symm.trans named
      rcases report_made sha256 id state base decided p fault op q act log here moved own base' owned' after
        reply reported with earlier | now
      · exact vouched_carried id state _ reply carried (candid p op reply here own earlier)
      · exact now
    · exact vouched_carried id state _ reply carried (candid p q reply before named reported)
  · simp at there
  · simp [(base.stopped stopped).1] at there

theorem asks_report (op : Op) (id : String) (response : Response) (asks : (Request.status id).Asks op)
    (replied : op.reply = some response) :
    op.id = id ∧ op.report = some response := by
  cases op with
  | status peer asked phase =>
      obtain rfl : asked = id := asks
      cases phase with
      | done reply => exact ⟨rfl, replied⟩
      | _ => cases replied
  | _ => cases asks

structure Forthright (sha256 : Bytes → String) (plan : PreparedTransfer) (world : World) : Prop where
  sure : Sure sha256 plan world
  decided : ∀ record, Listed world.receiver.store record → record.decision ≠ .notFound
  candid : Candid plan.transferId world.receiver
  replies : ∀ response, (Request.status plan.transferId, response) ∈ world.replies →
    response.Vouched plan.transferId world.receiver
  sender : world.sender.phase.Fits plan

theorem forthright_receiver (sha256 : Bytes → String) (plan : PreparedTransfer) (world next : World)
    (forthright : Forthright sha256 plan world) (label : Label)
    (allowed : careful plan world (.receiver label) = true) (sure : Sure sha256 plan next)
    (stepped : step sha256 world.receiver label = some next.receiver)
    (replies : next.replies = world.replies) (sender : next.sender = world.sender) :
      Forthright sha256 plan next := by
  obtain ⟨before, decided, candid, told, fits⟩ := forthright
  simp only [careful, Bool.and_eq_true] at allowed
  have base := before.kempt.base
  have carried : ∀ certificate : Certificate, Recorded plan.transferId certificate.On world.receiver →
      Recorded plan.transferId certificate.On next.receiver := fun certificate recorded =>
    recorded_step sha256 world.receiver next.receiver label base before.kempt.owned
      (orderly_fresh world.receiver label allowed.1.2) plan.transferId certificate.On
      (certificate_forward certificate) recorded
      (retained_unerased plan.transferId world.receiver before.retained label) stepped
  refine ⟨sure, ?_, ?_, ?_, by rw [sender]; exact fits⟩
  · exact records_step _ (fun request _ => request_decided request) change_decided sha256 world.receiver
      next.receiver label base decided stepped
  · exact candid_step sha256 plan.transferId world.receiver next.receiver label base sure.kempt.base
      sure.kempt.owned sure.retained decided carried candid stepped
  · intro response member
    exact vouched_carried plan.transferId world.receiver next.receiver response carried
      (told response (replies ▸ member))

theorem forthright_step (sha256 : Bytes → String) (client : TransferClient) (plan : PreparedTransfer)
    (world next : World) (label : WorldLabel) (forthright : Forthright sha256 plan world)
    (allowed : careful plan world label = true)
    (stepped : worldStep sha256 client plan world label = some next) : Forthright sha256 plan next := by
  have sure := sure_step sha256 client plan world next label forthright.sure allowed stepped
  cases label with
  | receiver label =>
      obtain ⟨receiver, moved, rfl⟩ := Option.map_eq_some_iff.mp stepped
      exact forthright_receiver sha256 plan world _ forthright label allowed sure moved rfl rfl
  | deliver request arrival =>
      simp only [worldStep, Option.ite_none_right_eq_some] at stepped
      obtain ⟨_, stepped⟩ := stepped
      obtain ⟨receiver, moved, rfl⟩ := Option.map_eq_some_iff.mp stepped
      have quiet : careful plan world (.receiver (.call (request.call arrival))) =
        true := by cases request <;> rfl
      exact forthright_receiver sha256 plan world _ forthright _ quiet sure moved rfl rfl
  | reply o =>
      obtain ⟨request, serving, stepped⟩ := Option.bind_eq_some_iff.mp stepped
      obtain ⟨response, replied, rfl⟩ := Option.map_eq_some_iff.mp stepped
      obtain ⟨op, there, answer⟩ := Option.bind_eq_some_iff.mp replied
      obtain ⟨before, after, split, _⟩ := List.lookup_eq_some_iff.mp serving
      obtain ⟨op', there', asks⟩ := forthright.sure.serving o request (by simp [split])
      obtain rfl := Option.some.inj (there.symm.trans there')
      refine ⟨sure, forthright.decided, forthright.candid, ?_, forthright.sender⟩
      intro told member
      rcases List.mem_cons.mp member with same | old
      · obtain ⟨rfl, rfl⟩ := Prod.mk.inj same
        obtain ⟨named, reported⟩ := asks_report op plan.transferId told asks answer
        exact forthright.candid o op told there named reported
      · exact forthright.replies told old
  | sender input =>
      simp only [worldStep, Option.ite_none_right_eq_some] at stepped
      obtain ⟨_, stepped⟩ := stepped
      obtain ⟨⟨sender, requests⟩, moved, rfl⟩ := Option.map_eq_some_iff.mp stepped
      have follows := sender_follows sha256 client plan world.sender sender input forthright.sender
        (by simp [senderStep, moved])
      exact ⟨sure, forthright.decided, forthright.candid, forthright.replies,
        follows_fits plan input _ follows⟩

theorem run_forthright (sha256 : Bytes → String) (client : TransferClient) (plan : PreparedTransfer)
    (start world : World) (initial : start.Initial)
    (run : Transition.Run (worldStep sha256 client plan)
      (fun world label => careful plan world label = true) start world) :
    Forthright sha256 plan world := by
  refine Transition.run_invariant (worldStep sha256 client plan) _ (Forthright sha256 plan) ?_ start world run
    ⟨initial_sure sha256 plan start initial, fun record listed => absurd listed
    (initial_unlisted start.receiver initial.receiver record),
      ?_, by simp [initial.replies], by rw [initial.sender]; trivial⟩
  · exact fun world label next forthright allowed stepped => forthright_step sha256 client plan world
      next label forthright allowed stepped
  · intro o op reply there
    rw [initial.receiver.idle] at there
    cases there

-- Where an answer that is believed leaves send_plan: it goes on, it is done, or it
-- reports what the user or the receiver decided.
def SendPhase.Believing (manifest : TransferManifest) : SendPhase → Prop
  | .begin => False
  | .running known _ => known = manifest
  | .returned result =>
      result ∈ [.ok (), .error .transferCancelled, .error .transferRejected,
        .error (.network "Receiver has not verified completion")]

theorem snapshot_token (disk : ReceiverDisk) (id : String) (record : Record) (fault : Option Fault)
    (status : ResumeStatus) (taken : snapshot disk id record fault = .ok status)
    (accepted : record.decision = .accepted) (live : record.cancelled = false) :
    status.token = some record.token := by
  unfold snapshot at taken
  split at taken
  · cases taken
  · cases taken
    simp [accepted, live]

theorem checkpoint_believed (plan : PreparedTransfer) (sender : Sender) (manifest : TransferManifest)
    (status : ResumeStatus) (stage : Stage) (sound : SoundStatus plan manifest status)
    (fits : stage.Fits plan) (decided : status.status ≠ .notFound)
    (token : status.status = .accepted → status.cancelled = false → ∃ token, status.token = some token) :
    (checkpointStep plan sender manifest status stage).phase.Believing manifest := by
  cases stage with
  | approval =>
      simp only [checkpointStep, approvalStep]
      split
      · simp [Sender.fail, Sender.move, SendPhase.Believing]
      · next running =>
        split
        · next accepted =>
          split
          · simp [finish, SendPhase.Believing]
          · obtain ⟨key, here⟩ := token accepted (by simpa using running)
            rw [here]
            rfl
        · simp [Sender.fail, Sender.move, SendPhase.Believing]
        · next absent => exact absurd absent decided
        · rfl
  | file key file rest attempt =>
      simp only [checkpointStep, fileStep]
      split
      · simp [Sender.fail, Sender.move, SendPhase.Believing]
      · obtain ⟨point, found, _, inside, _⟩ := sound.found file (fits file List.mem_cons_self)
        rw [found]
        simp only [Nat.not_lt.mpr inside, if_false]
        split <;> rfl
  | completion =>
      simp only [checkpointStep, completionStep]
      split <;> simp [Sender.fail, Sender.move, finish, SendPhase.Believing]

-- Whatever a receiver answers to a status query, now or long ago, before or after a
-- restart, its sender does not take it for a breach of the protocol.
theorem honest_answers_are_believed (sha256 : Bytes → String) (client : TransferClient)
    (plan : PreparedTransfer) (start world : World) (initial : start.Initial)
    (run : Transition.Run (worldStep sha256 client plan)
      (fun world label => careful plan world label = true) start world) (manifest : TransferManifest)
    (stage : Stage) (attempt : Nat)
    (phase : world.sender.phase = .running manifest (.querying stage attempt))
    (response : Response) (told : (Request.status plan.transferId, response) ∈ world.replies)
    (success : isSuccess response.code = true) :
    ∃ next, world.sender.next sha256 client plan (.outcome (.response response true)) = some (next, []) ∧
      next.phase.Believing manifest := by
  have forthright := run_forthright sha256 client plan start world initial run
  obtain ⟨manifest', recorded, tells⟩ := forthright.replies response told success
  have certain := forthright.sure.sender
  have fits := forthright.sender
  rw [phase] at certain fits
  obtain ⟨planned, registered⟩ := certain
  obtain ⟨_, written, own⟩ := (registered rfl).journal
  obtain ⟨_, written', own'⟩ := recorded.journal
  obtain rfl := Option.some.inj (written.symm.trans written')
  obtain rfl : manifest = manifest' := Eq.trans (Eq.symm own) own'
  cases tells with
  | read disk record fault status sound decided same taken =>
      subst same
      have accepted := snapshot_accepted plan disk plan.transferId record fault sound planned status taken
      obtain ⟨ruling, cancelled, _, _⟩ := snapshot_fields disk plan.transferId record fault status taken
      refine ⟨checkpointStep plan world.sender record.manifest status stage, ?_, ?_⟩
      · simp [Sender.next, phase, pointStep, retryRequest, judge, isSuccess, accepted]
      · refine checkpoint_believed plan world.sender record.manifest status stage
          (accepted_sound plan record.manifest planned sound.valid _ true status accepted) fits.2.2
          (ruling ▸ decided) ?_
        intro accepted live
        exact ⟨_, snapshot_token disk plan.transferId record fault status taken (ruling ▸ accepted)
          (cancelled ▸ live)⟩

def reportingRun : List WorldLabel :=
  partialRun ++ .sender .go :: .deliver (.status pairPlan.transferId) smallArrival ::
    (advances 2 4).map .receiver ++ [.reply 2]

def awaitsReport (world : World) : Bool :=
  match world.sender.phase with
  | .running manifest (.querying .approval 0) =>
      manifest == pairPlanManifest && world.replies.any fun told => told ==
        (Request.status pairPlan.transferId, pairReply false 1 false)
  | _ => false

theorem awaits_report (world : World) (awaits : awaitsReport world = true) :
    world.sender.phase = .running pairPlanManifest (.querying .approval 0) ∧
      (Request.status pairPlan.transferId, pairReply false 1 false) ∈ world.replies := by
  unfold awaitsReport at awaits
  split at awaits
  · next manifest phase =>
    simp only [Bool.and_eq_true, beq_iff_eq, List.any_eq_true] at awaits
    obtain ⟨rfl, told, member, rfl⟩ := awaits
    exact ⟨phase, member⟩
  · cases awaits

theorem pair_report_is_believed :
    ∃ (world : World) (next : Sender),
      world.sender.phase = .running pairPlanManifest (.querying .approval 0) ∧
    world.sender.next pairPlanHash retryingClient pairPlan
    (.outcome (.response (pairReply false 1 false) true)) = some (next, []) ∧
      next.phase.Believing pairPlanManifest := by
  obtain ⟨world, run, checked⟩ := Transition.replay_reaches (worldStep pairPlanHash retryingClient pairPlan)
    (fun world label => careful pairPlan world label = true) reportingRun smallWorld awaitsReport
    (by decide +kernel)
  obtain ⟨phase, told⟩ := awaits_report world checked
  obtain ⟨next, moved, believing⟩ :=
    honest_answers_are_believed pairPlanHash retryingClient pairPlan smallWorld world small_world_initial
      run pairPlanManifest .approval 0 phase (pairReply false 1 false) told rfl
  exact ⟨world, next, phase, moved, believing⟩

end GoshTransfer
