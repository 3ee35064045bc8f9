import GoshTransfer.Checkpoints
import GoshTransfer.Lib.Waiting
import Mathlib.Tactic.Ring
import Mathlib.Algebra.BigOperators.Ring.List

set_option autoImplicit false

-- send_prepared: send_plan, the cancellation of its handle, and the report.
namespace GoshTransfer

open InodeStore

structure SentRecord where
  id : String
  status : TransferStatus
  peerAddress : String
  files : List TransferFile
  totalSize : Nat
  bytesTransferred : Nat
  error : Option EngineError

inductive SendReport where
  | transferComplete (transferId : String)
  | transferFailed (transferId : String) (error : EngineError)

-- withdrawing waits for the answer to /v2/cancel, for three seconds at most.
inductive DispatchPhase where
  | working
  | withdrawing
  | returned (result : Except EngineError Unit)

-- cancelled is the token of the handle, requests and withdrawals is what has
-- been written to the wire.
structure Dispatch where
  sender : Sender
  cancelled : Bool
  requests : List Request
  withdrawals : List String
  phase : DispatchPhase
  history : List SentRecord
  events : List SendReport

inductive DispatchLabel where
  | cancel
  | work (input : Input)
  | conclude
  | withdrawn

def sentStatus : Except EngineError Unit → TransferStatus
  | .ok _ => .completed
  | .error .transferRejected => .rejected
  | .error _ => .failed

def sentError : Except EngineError Unit → Option EngineError
  | .ok _ => none
  | .error error => some error

def PreparedTransfer.total (plan : PreparedTransfer) : Nat :=
    (totalSize 0 (plan.files.map PreparedFile.info)).getD 0

def sentRecord (plan : PreparedTransfer) (bytes : Nat) (result : Except EngineError Unit) : SentRecord where
  id := plan.transferId
  status := sentStatus result
  peerAddress := plan.address
  files := plan.files.map PreparedFile.info
  totalSize := plan.total
  bytesTransferred := min bytes plan.total
  error := sentError result

def sentEnd (plan : PreparedTransfer) : Except EngineError Unit → SendReport
  | .ok _ => .transferComplete plan.transferId
  | .error error => .transferFailed plan.transferId error

-- The end of send_prepared_cancel; keeps tells whether the client has a history.
def Dispatch.report (dispatch : Dispatch) (plan : PreparedTransfer) (keeps : Bool)
    (result : Except EngineError Unit) : Dispatch :=
  { dispatch with
    phase := .returned result
    history := if keeps then dispatch.history ++ [sentRecord plan dispatch.sender.progress result]
      else dispatch.history
    events := dispatch.events ++ [sentEnd plan result] }

-- What follows the select: a cancelled transfer is withdrawn at the receiver.
def Dispatch.settle (dispatch : Dispatch) (client : TransferClient) (plan : PreparedTransfer) (keeps : Bool)
    (result : Except EngineError Unit) :
    Dispatch :=
  if result = .error .transferCancelled ∧ client.configError = none then
    { dispatch with phase := .withdrawing, withdrawals := dispatch.withdrawals ++ [plan.transferId] }
  else dispatch.report plan keeps result

-- The select is biased: nothing is done any more once the token is cancelled.
def dispatchStep (sha256 : Bytes → String) (client : TransferClient) (plan : PreparedTransfer)
    (keeps : Bool) (dispatch : Dispatch) :
    DispatchLabel → Option Dispatch
  | .cancel => some { dispatch with cancelled := true }
  | .work input =>
      match dispatch.phase with
      | .working =>
          if dispatch.cancelled then none
          else (dispatch.sender.next sha256 client plan input).map fun (sender, requests) =>
            { dispatch with sender := sender, requests := dispatch.requests ++ requests }
      | _ => none
  | .conclude =>
      match dispatch.phase with
      | .working =>
          if dispatch.cancelled then some (dispatch.settle client plan keeps (.error .transferCancelled))
          else
            match dispatch.sender.phase with
            | .returned result => some (dispatch.settle client plan keeps result)
            | _ => none
      | _ => none
  | .withdrawn =>
      match dispatch.phase with
      | .withdrawing => some (dispatch.report plan keeps (.error .transferCancelled))
      | _ => none

def freshDispatch : Dispatch := ⟨freshSender, false, [], [], .working, [], []⟩

-- How many requests send_plan may still send, if no further answer leaves the
-- decision pending: a request has maxRetries + 1 attempts, and so has a file.
def TransferClient.tries (client : TransferClient) : Nat := client.maxRetries + 1

def fileTries (client : TransferClient) : Nat := client.tries * (client.tries + 1)

def Stage.later (client : TransferClient) (plan : PreparedTransfer) : Stage → Nat
  | .approval => plan.files.length * fileTries client + client.tries
  | .file _ _ rest attempt =>
      1 + (client.maxRetries - attempt) * (client.tries + 1) + rest.length * fileTries client + client.tries
  | .completion => 0

def SendPoint.later (client : TransferClient) (plan : PreparedTransfer) : SendPoint → Nat
  | .hash _ => 2 * client.tries + Stage.later client plan .approval
  | .register attempt => client.tries - attempt + client.tries + Stage.later client plan .approval
  | .registering attempt => client.maxRetries - attempt + client.tries + Stage.later client plan .approval
  | .query stage attempt => client.tries - attempt + stage.later client plan
  | .querying stage attempt => client.maxRetries - attempt + stage.later client plan
  | .openSource token file rest attempt _ => Stage.later client plan (.file token file rest attempt)
  | .posting _ _ rest attempt _ _ _ _ =>
      (client.maxRetries - attempt) * (client.tries + 1) + rest.length * fileTries client + client.tries

def SendPhase.later (client : TransferClient) (plan : PreparedTransfer) : SendPhase → Nat
  | .begin => SendPoint.later client plan (.hash plan.files)
  | .running _ point => point.later client plan
  | .returned _ => 0

-- No attempt is numbered beyond the configured retries.
def Stage.Tried (client : TransferClient) : Stage → Prop
  | .file _ _ _ attempt => attempt ≤ client.maxRetries
  | _ => True

def SendPoint.Tried (client : TransferClient) : SendPoint → Prop
  | .hash _ => True
  | .register attempt | .registering attempt => attempt ≤ client.maxRetries
  | .query stage attempt | .querying stage attempt => attempt ≤ client.maxRetries ∧ stage.Tried client
  | .openSource _ _ _ attempt _ | .posting _ _ _ attempt _ _ _ _ => attempt ≤ client.maxRetries

def SendPhase.Tried (client : TransferClient) : SendPhase → Prop
  | .running _ point => point.Tried client
  | _ => True

-- An answer that leaves the decision pending.
def Input.pending (plan : PreparedTransfer) : Input → Bool
  | .outcome (.response response whole) =>
      match checkpointStatus plan response whole with
      | .ok status => !status.cancelled && status.status == .pending
      | .error _ => false
  | _ => false

def Input.polls (plan : PreparedTransfer) (input : Input) : Nat := if input.pending plan then 1 else 0

section Effort

variable (sha256 : Bytes → String) (client : TransferClient) (plan : PreparedTransfer)
    (manifest : TransferManifest)

-- What a step leaves to be done is paid by what was left before.
structure Paid (input : Input) (before : Nat) (sender' : Sender) (requests : List Request) : Prop where
  tried : sender'.phase.Tried client
  paid : sender'.phase.later client plan + requests.length ≤ before + client.tries * input.polls plan

theorem failed_paid (input : Input) (before : Nat) (sender : Sender) (error : EngineError) :
    Paid client plan input before (sender.fail error) [] :=
  ⟨trivial, by simp [Sender.fail, Sender.move, SendPhase.later]⟩

theorem moved_paid (input : Input) (before : Nat) (sender : Sender) (point : SendPoint)
    (tried : point.Tried client) (lower : point.later client plan ≤ before) :
    Paid client plan input before (sender.move (.running manifest point)) [] :=
  ⟨tried, by simp only [Sender.move, SendPhase.later, List.length_nil]; omega⟩

theorem sent_paid (input : Input) (before : Nat) (sender sender' : Sender) (request : Request)
    (requests : List Request) (point : SendPoint) (tried : point.Tried client)
    (lower : point.later client plan + 1 ≤ before)
    (made : send client sender request (.running manifest point) = (sender', requests)) :
      Paid client plan input before sender' requests := by
  unfold send at made
  split at made
  · cases made
    exact failed_paid client plan input before sender _
  · cases made
    exact ⟨tried, by simp only [Sender.move, SendPhase.later, List.length_singleton]; omega⟩

theorem retried_paid (input : Input) (before : Nat) (sender : Sender) (attempt : Nat) (cause : RetryCause)
    (point : SendPoint) (tried : point.Tried client) (lower : point.later client plan ≤ before) :
    Paid client plan input before (sender.retry client plan attempt cause (.running manifest point)) [] :=
  ⟨tried, by simp only [Sender.retry, SendPhase.later, List.length_nil]; omega⟩

theorem judge_retry (transient : Nat → Bool) (attempt : Nat) (outcome : Outcome) (cause : RetryCause)
    (judged : judge client transient attempt outcome = .retry cause) : attempt < client.maxRetries := by
  unfold judge at judged
  split at judged
  · split at judged
    · cases judged
    · split at judged
      · rename_i again
        simp only [Bool.and_eq_true, decide_eq_true_eq] at again
        exact again.2
      · cases judged
  · split at judged
    · assumption
    · cases judged

theorem next_file_later (token : String) (files : List PreparedFile) :
    (nextFile token files).later client plan = files.length * fileTries client + client.tries ∧
    (nextFile token files).Tried client := by
  cases files with
  | nil => exact ⟨by simp [nextFile, SendPoint.later, Stage.later], Nat.zero_le _, trivial⟩
  | cons file rest =>
      refine ⟨?_, Nat.zero_le _, Nat.zero_le _⟩
      simp only [nextFile, SendPoint.later, Stage.later, List.length_cons, fileTries, TransferClient.tries,
        Nat.sub_zero]
      ring

theorem checkpoint_paid (sender : Sender) (response : Response) (whole : Bool) (status : ResumeStatus)
    (stage : Stage) (accepted : checkpointStatus plan response whole = .ok status)
    (tried : stage.Tried client) :
    Paid client plan (.outcome (.response response whole)) (stage.later client plan)
    (checkpointStep plan sender manifest status stage) [] := by
  have failed := failed_paid client plan (.outcome (.response response whole)) (stage.later client plan)
  have moved := fun sender point => moved_paid client plan manifest (.outcome (.response response whole))
    (stage.later client plan) sender point
  have finished : Paid client plan (.outcome (.response response whole)) (stage.later client plan)
    (finish sender manifest) [] :=
    ⟨trivial, by simp [finish, SendPhase.later]⟩
  cases stage with
  | approval =>
      simp only [checkpointStep, approvalStep]
      split
      · exact failed sender _
      · rename_i live
        split
        · split
          · exact finished
          · split
            · exact failed sender _
            · rename_i token _
              obtain ⟨later, fresh⟩ := next_file_later client plan token plan.files
              exact moved sender _ fresh (Nat.le_of_eq later)
        · exact failed sender _
        · exact failed sender _
        · rename_i waiting
          have pending : (Input.outcome (.response response whole)).polls plan = 1 := by
            simp [Input.polls, Input.pending, accepted, live, waiting]
          refine ⟨⟨Nat.zero_le _, trivial⟩, ?_⟩
          simp only [Sender.move, SendPhase.later, SendPoint.later, pending, List.length_nil]
          omega
  | file token file rest attempt =>
      simp only [checkpointStep, fileStep]
      split
      · exact failed sender _
      · split
        · exact failed sender _
        · split
          · obtain ⟨later, fresh⟩ := next_file_later client plan token rest
            refine moved _ _ fresh ?_
            simp only [Stage.later]
            omega
          · split
            · exact failed _ _
            · exact moved _ _ tried (Nat.le_refl _)
  | completion =>
      simp only [checkpointStep, completionStep]
      split
      · exact failed sender _
      · exact finished

theorem more_paid (input : Input) (before more : Nat) (sender' : Sender) (requests : List Request)
    (lower : before ≤ more) (paid : Paid client plan input before sender' requests) :
    Paid client plan input more sender' requests :=
  ⟨paid.tried, by have enough := paid.paid; omega⟩

theorem retry_again (file : PreparedFile) (token : String) (rest : List PreparedFile) (attempt : Nat)
    (more : attempt < client.maxRetries) :
    SendPoint.later client plan (.query (.file token file rest (attempt + 1)) 0) ≤
      (client.maxRetries - attempt) * (client.tries + 1) + rest.length * fileTries client + client.tries := by
  have now : client.maxRetries - attempt = client.maxRetries - (attempt + 1) + 1 := by omega
  refine Nat.le_of_eq ?_
  simp only [SendPoint.later, Stage.later, now, Nat.sub_zero]
  ring

theorem point_paid (sender sender' : Sender) (point : SendPoint) (input : Input) (requests : List Request)
    (tried : point.Tried client)
    (made : pointStep sha256 client plan sender manifest point input = some (sender', requests)) :
    Paid client plan input (point.later client plan) sender' requests := by
  have failed := failed_paid client plan input (point.later client plan)
  unfold pointStep at made
  split at made
  · rename_i file rest content
    cases made
    cases content with
    | error message => exact failed sender _
    | ok bytes =>
        simp only [hashSource]
        split
        · exact failed sender _
        · exact moved_paid client plan manifest _ _ sender _ trivial (Nat.le_refl _)
  · cases made
    refine moved_paid client plan manifest _ _ sender _ (Nat.zero_le _) ?_
    simp only [SendPoint.later]
    omega
  · refine sent_paid client plan manifest _ _ sender sender' _ requests _ ?_ ?_ (Option.some.inj made)
    · exact tried
    · have bounded : _ ≤ client.maxRetries := tried
      simp only [SendPoint.later, TransferClient.tries]
      omega
  · split at made
    · cases made
      refine moved_paid client plan manifest _ _ sender _ ⟨Nat.zero_le _, trivial⟩ ?_
      simp only [SendPoint.later]
      omega
    · rename_i cause judged
      have more := judge_retry client _ _ _ _ judged
      cases made
      refine retried_paid client plan manifest _ _ sender _ _ _ (Nat.succ_le_of_lt more) ?_
      simp only [SendPoint.later, TransferClient.tries]
      omega
    · cases made
      exact failed sender _
  · refine sent_paid client plan manifest _ _ sender sender' _ requests _ ?_ ?_ (Option.some.inj made)
    · exact tried
    · have bounded := tried.1
      simp only [SendPoint.later, TransferClient.tries]
      omega
  · split at made
    · rename_i response whole judged
      obtain ⟨rfl, success⟩ := judge_success _ _ _ _ _ _ judged
      split at made
      · cases made
        exact failed sender _
      · rename_i status accepted
        cases made
        refine more_paid client plan _ _ _ _ _ ?_
          (checkpoint_paid client plan manifest sender response whole status _ accepted tried.2)
        simp only [SendPoint.later]
        omega
    · rename_i cause judged
      have more := judge_retry client _ _ _ _ judged
      cases made
      refine retried_paid client plan manifest _ _ sender _ _ _ ⟨Nat.succ_le_of_lt more, tried.2⟩ ?_
      simp only [SendPoint.later, TransferClient.tries]
      omega
    · cases made
      exact failed sender _
  · cases made
    exact failed sender _
  · cases made
    exact failed sender _
  · cases made
    exact failed sender _
  · refine sent_paid client plan manifest _ _ sender sender' _ requests _ ?_ ?_ (Option.some.inj made)
    · exact tried
    · simp only [SendPoint.later, Stage.later]
      omega
  · split at made
    · cases made
    · cases made
      refine ⟨tried, ?_⟩
      simp only [Sender.move, SendPhase.later, SendPoint.later, List.length_nil]
      omega
  · split at made
    · cases made
      obtain ⟨later, fresh⟩ := next_file_later client plan _ _
      refine moved_paid client plan manifest _ _ sender _ fresh ?_
      rw [later]
      simp only [SendPoint.later]
      omega
    · rename_i cause judged
      have more := judge_retry client _ _ _ _ judged
      cases made
      exact retried_paid client plan manifest _ _ sender _ _ _ ⟨Nat.zero_le _, Nat.succ_le_of_lt more⟩
        (retry_again client plan _ _ _ _ more)
    · cases made
      exact failed sender _
  · cases made

theorem sender_paid (sender sender' : Sender) (input : Input) (requests : List Request)
    (tried : sender.phase.Tried client)
    (made : sender.next sha256 client plan input = some (sender', requests)) :
    Paid client plan input (sender.phase.later client plan) sender' requests := by
  unfold Sender.next at made
  split at made
  · rename_i fresh
    cases made
    rw [fresh]
    have failed := failed_paid client plan .go (SendPhase.later client plan .begin) sender
    unfold beginStep
    split
    · exact failed _
    · split
      · exact failed _
      · split
        · exact failed _
        · exact moved_paid client plan _ _ _ sender _ trivial (Nat.le_refl _)
  · rename_i manifest point running
    rw [running] at tried ⊢
    exact point_paid sha256 client plan manifest sender sender' point _ requests tried made
  · cases made

end Effort

def DispatchLabel.polls (plan : PreparedTransfer) : DispatchLabel → Nat
  | .work input => input.polls plan
  | _ => 0

theorem dispatch_cases (sha256 : Bytes → String) (client : TransferClient) (plan : PreparedTransfer)
    (keeps : Bool) (dispatch next : Dispatch) (label : DispatchLabel)
    (stepped : dispatchStep sha256 client plan keeps dispatch label = some next) :
    (label = .cancel ∧ next = { dispatch with cancelled := true }) ∨
    (∃ input sender requests, label = .work input ∧ dispatch.phase = .working ∧ dispatch.cancelled = false ∧
      dispatch.sender.next sha256 client plan input = some (sender, requests) ∧
      next = { dispatch with sender := sender, requests := dispatch.requests ++ requests }) ∨
    (∃ result, label = .conclude ∧ dispatch.phase = .working ∧
      (result = .error .transferCancelled ∨ dispatch.sender.phase = .returned result) ∧
        next = dispatch.settle client plan keeps result) ∨
    (label = .withdrawn ∧ dispatch.phase = .withdrawing ∧
      next = dispatch.report plan keeps (.error .transferCancelled)) := by
  cases label with
  | cancel => exact .inl ⟨rfl, (Option.some.inj stepped).symm⟩
  | work input =>
      simp only [dispatchStep] at stepped
      split at stepped
      · rename_i working
        split at stepped
        · cases stepped
        · rename_i going
          obtain ⟨⟨sender, requests⟩, made, rfl⟩ := Option.map_eq_some_iff.mp stepped
          exact .inr (.inl ⟨input, sender, requests, rfl, working, by simpa using going, made, rfl⟩)
      · cases stepped
  | conclude =>
      simp only [dispatchStep] at stepped
      split at stepped
      · rename_i working
        split at stepped
        · exact .inr (.inr (.inl ⟨_, rfl, working, .inl rfl, (Option.some.inj stepped).symm⟩))
        · split at stepped
          · rename_i result returned
            exact .inr (.inr (.inl ⟨result, rfl, working, .inr returned, (Option.some.inj stepped).symm⟩))
          · cases stepped
      · cases stepped
  | withdrawn =>
      simp only [dispatchStep] at stepped
      split at stepped
      · rename_i withdrawing
        exact .inr (.inr (.inr ⟨rfl, withdrawing, (Option.some.inj stepped).symm⟩))
      · cases stepped

@[simp] theorem settle_sender (dispatch : Dispatch) (client : TransferClient) (plan : PreparedTransfer)
    (keeps : Bool) (result : Except EngineError Unit) :
    (dispatch.settle client plan keeps result).sender = dispatch.sender ∧
      (dispatch.settle client plan keeps result).requests = dispatch.requests := by
  unfold Dispatch.settle
  split <;> exact ⟨rfl, rfl⟩

theorem dispatch_paid (sha256 : Bytes → String) (client : TransferClient) (plan : PreparedTransfer)
    (keeps : Bool) (dispatch next : Dispatch) (label : DispatchLabel)
    (tried : dispatch.sender.phase.Tried client)
    (stepped : dispatchStep sha256 client plan keeps dispatch label = some next) :
    next.sender.phase.Tried client ∧ next.sender.phase.later client plan + next.requests.length ≤
      dispatch.sender.phase.later client plan + dispatch.requests.length + client.tries * label.polls
        plan := by
  rcases dispatch_cases sha256 client plan keeps dispatch next label stepped with
    ⟨rfl, rfl⟩ | ⟨input, sender, requests, rfl, _, _, made, rfl⟩ | ⟨result, rfl, _, _, rfl⟩ | ⟨rfl, _, rfl⟩
  · exact ⟨tried, Nat.le_add_right _ _⟩
  · obtain ⟨later, paid⟩ := sender_paid sha256 client plan dispatch.sender sender input requests tried made
    refine ⟨later, ?_⟩
    simp only [DispatchLabel.polls, List.length_append]
    omega
  · obtain ⟨sender, requests⟩ := settle_sender dispatch client plan keeps result
    rw [sender, requests]
    exact ⟨tried, Nat.le_add_right _ _⟩
  · exact ⟨tried, Nat.le_add_right _ _⟩

theorem requests_bounded (sha256 : Bytes → String) (client : TransferClient) (plan : PreparedTransfer)
    (keeps : Bool) (labels : List DispatchLabel) (dispatch : Dispatch)
    (replayed : Transition.replay (dispatchStep sha256 client plan keeps) (fun _ _ => True) freshDispatch
      labels = some dispatch) :
    dispatch.requests.length ≤
      (client.maxRetries + 1) *
      (3 + plan.files.length * (client.maxRetries + 2) + (labels.map (·.polls plan)).sum) := by
  obtain ⟨_, paid⟩ := Waiting.replay_paid (dispatchStep sha256 client plan keeps) (fun _ _ => True)
    (fun dispatch => dispatch.sender.phase.Tried client)
    (fun dispatch => dispatch.sender.phase.later client plan + dispatch.requests.length)
    (fun _ => 0) (fun label => client.tries * label.polls plan)
    (by
      intro dispatch label next tried _ stepped
      exact dispatch_paid sha256 client plan keeps dispatch next label tried stepped)
    labels freshDispatch dispatch trivial replayed
  have sum : (labels.map fun label => client.tries * label.polls plan).sum = client.tries *
    (labels.map (·.polls plan)).sum :=
    List.sum_map_mul_left _ _ _
  have whole : SendPhase.later client plan .begin =
      (client.maxRetries + 1) * (3 + plan.files.length * (client.maxRetries + 2)) := by
    simp only [SendPhase.later, SendPoint.later, Stage.later, fileTries, TransferClient.tries]
    ring
  simp only [freshDispatch, freshSender, List.length_nil, Nat.add_zero, List.map_const', List.sum_replicate,
    sum, whole] at paid
  have total : (client.maxRetries + 1) * (3 + plan.files.length * (client.maxRetries + 2) +
    (labels.map (·.polls plan)).sum) =
      (client.maxRetries + 1) * (3 + plan.files.length * (client.maxRetries + 2)) + client.tries *
      (labels.map (·.polls plan)).sum := by
    simp only [TransferClient.tries]
    ring
  rw [total]
  omega

def SendPhase.Counted (plan : PreparedTransfer) (progress : Nat) : SendPhase → Prop
  | .running manifest _ => plan.manifest = .ok manifest
  | .returned (.ok _) => progress = plan.total
  | _ => True

section Counter

variable (sha256 : Bytes → String) (client : TransferClient) (plan : PreparedTransfer)
    (manifest : TransferManifest)
  (planned : plan.manifest = .ok manifest)
include planned

theorem finish_counted (sender : Sender) : (finish sender manifest).phase.Counted plan
    (finish sender manifest).progress := by
  simp [finish, SendPhase.Counted, PreparedTransfer.total, (planned_request plan manifest planned).2]

theorem send_counted (sender sender' : Sender) (request : Request) (requests : List Request)
    (point : SendPoint)
    (made : send client sender request (.running manifest point) = (sender', requests)) :
    sender'.phase.Counted plan sender'.progress := by
  unfold send at made
  split at made
  · cases made
    trivial
  · cases made
    exact planned

theorem checkpoint_counted (sender : Sender) (status : ResumeStatus) (stage : Stage) :
    (checkpointStep plan sender manifest status stage).phase.Counted plan
    (checkpointStep plan sender manifest status stage).progress := by
  have finished := finish_counted plan manifest planned
  cases stage with
  | approval =>
      simp only [checkpointStep, approvalStep]
      split
      · trivial
      · split
        · split
          · exact finished sender
          · split
            · trivial
            · exact planned
        · trivial
        · trivial
        · exact planned
  | file token file rest attempt =>
      simp only [checkpointStep, fileStep]
      split
      · trivial
      · split
        · trivial
        · split
          · exact planned
          · split
            · trivial
            · exact planned
  | completion =>
      simp only [checkpointStep, completionStep]
      split
      · trivial
      · exact finished sender

theorem point_counted (sender sender' : Sender) (point : SendPoint) (input : Input) (requests : List Request)
    (made : pointStep sha256 client plan sender manifest point input = some (sender', requests)) :
    sender'.phase.Counted plan sender'.progress := by
  have sent := send_counted client plan manifest planned sender sender'
  unfold pointStep at made
  split at made
  · rename_i content
    cases made
    cases content with
    | error message => trivial
    | ok bytes =>
        simp only [hashSource]
        split
        · trivial
        · exact planned
  · cases made
    exact planned
  · exact sent _ requests _ (Option.some.inj made)
  · split at made <;> cases made
    · exact planned
    · exact planned
    · trivial
  · exact sent _ requests _ (Option.some.inj made)
  · split at made
    · split at made <;> cases made
      · trivial
      · exact checkpoint_counted plan manifest planned sender _ _
    · cases made
      exact planned
    · cases made
      trivial
  · cases made
    trivial
  · cases made
    trivial
  · cases made
    trivial
  · exact sent _ requests _ (Option.some.inj made)
  · split at made
    · cases made
    · cases made
      exact planned
  · split at made <;> cases made
    · exact planned
    · exact planned
    · trivial
  · cases made

end Counter

theorem sender_counted (sha256 : Bytes → String) (client : TransferClient) (plan : PreparedTransfer)
    (sender sender' : Sender) (input : Input) (requests : List Request)
    (counted : sender.phase.Counted plan sender.progress)
    (made : sender.next sha256 client plan input = some (sender', requests)) :
      sender'.phase.Counted plan sender'.progress := by
  unfold Sender.next at made
  split at made
  · cases made
    unfold beginStep
    split
    · trivial
    · split
      · trivial
      · split
        · trivial
        · rename_i manifest planned _ _ _
          exact planned
  · rename_i manifest point running
    rw [running] at counted
    exact point_counted sha256 client plan manifest counted sender sender' point _ requests made
  · cases made

-- The one record and the one final event that belong to a result.
structure ReportedOnce (client : TransferClient) (plan : PreparedTransfer) (keeps : Bool)
    (result : Except EngineError Unit) (dispatch : Dispatch) : Prop where
  events : dispatch.events = [sentEnd plan result]
  history : ∃ record : SentRecord, dispatch.history = (if keeps then [record] else []) ∧
    record.status = sentStatus result ∧
    record.error = sentError result ∧ record.bytesTransferred ≤ record.totalSize ∧
    (result = .ok () → record.bytesTransferred = record.totalSize)
  withdrawals : dispatch.withdrawals =
    if result = .error .transferCancelled ∧ client.configError = none then [plan.transferId] else []

def Dispatch.Settled (dispatch : Dispatch) (client : TransferClient) (plan : PreparedTransfer)
    (keeps : Bool) : Prop :=
  match dispatch.phase with
  | .working => dispatch.history = [] ∧ dispatch.events = [] ∧ dispatch.withdrawals = []
  | .withdrawing => dispatch.history = [] ∧ dispatch.events = [] ∧
      dispatch.withdrawals = [plan.transferId] ∧ client.configError = none
  | .returned result => ReportedOnce client plan keeps result dispatch

theorem sent_record_bounds (plan : PreparedTransfer) (progress : Nat) (result : Except EngineError Unit)
    (counted : result = .ok () → progress = plan.total) :
    (sentRecord plan progress result).bytesTransferred ≤ (sentRecord plan progress result).totalSize ∧
      (result = .ok () →
        (sentRecord plan progress result).bytesTransferred =
        (sentRecord plan progress result).totalSize) := by
  refine ⟨Nat.min_le_right _ _, ?_⟩
  intro success
  simp [sentRecord, counted success]

theorem report_settled (client : TransferClient) (plan : PreparedTransfer) (keeps : Bool)
    (dispatch : Dispatch) (result : Except EngineError Unit) (history : dispatch.history = [])
    (events : dispatch.events = [])
    (withdrawals : dispatch.withdrawals = if result = .error .transferCancelled ∧
      client.configError = none then [plan.transferId] else []) (counted : result = .ok () →
        dispatch.sender.progress = plan.total) : (dispatch.report plan keeps result).Settled client plan
        keeps := by
  obtain ⟨bounded, whole⟩ := sent_record_bounds plan dispatch.sender.progress result counted
  refine ⟨by simp [Dispatch.report, events], ⟨_, ?_, rfl, rfl, bounded, whole⟩, withdrawals⟩
  cases keeps <;> simp [Dispatch.report, history]

theorem settle_settled (client : TransferClient) (plan : PreparedTransfer) (keeps : Bool)
    (dispatch : Dispatch) (result : Except EngineError Unit) (working : dispatch.phase = .working)
    (settled : dispatch.Settled client plan keeps)
    (counted : result = .ok () → dispatch.sender.progress = plan.total) :
      (dispatch.settle client plan keeps result).Settled client plan keeps := by
  rw [Dispatch.Settled, working] at settled
  obtain ⟨history, events, withdrawals⟩ := settled
  unfold Dispatch.settle
  split
  · rename_i withdrawn
    exact ⟨history, events, by simp [withdrawals], withdrawn.2⟩
  · rename_i plain
    exact report_settled client plan keeps dispatch result history events
      (by rw [if_neg plain]; exact withdrawals) counted

theorem dispatch_settled_step (sha256 : Bytes → String) (client : TransferClient) (plan : PreparedTransfer)
    (keeps : Bool) (dispatch next : Dispatch) (label : DispatchLabel)
    (settled : dispatch.Settled client plan keeps)
    (counted : dispatch.sender.phase.Counted plan dispatch.sender.progress)
    (stepped : dispatchStep sha256 client plan keeps dispatch label = some next) :
    next.Settled client plan keeps ∧ next.sender.phase.Counted plan next.sender.progress := by
  rcases dispatch_cases sha256 client plan keeps dispatch next label stepped with
    ⟨rfl, rfl⟩ | ⟨input, sender, requests, rfl, working, _, made, rfl⟩ |
      ⟨result, rfl, working, cause, rfl⟩ | ⟨rfl, withdrawing, rfl⟩
  · refine ⟨?_, counted⟩
    cases phase : dispatch.phase with
    | returned result =>
        simp only [Dispatch.Settled, phase] at settled ⊢
        exact ⟨settled.events, settled.history, settled.withdrawals⟩
    | _ =>
        simp only [Dispatch.Settled, phase] at settled ⊢
        exact settled
  · refine ⟨?_, sender_counted sha256 client plan dispatch.sender sender input requests counted made⟩
    rw [Dispatch.Settled, working] at settled
    rw [Dispatch.Settled]
    simp only [working]
    exact settled
  · refine ⟨settle_settled client plan keeps dispatch result working settled ?_, ?_⟩
    · rintro rfl
      rcases cause with cancelled | returned
      · cases cancelled
      · rw [returned] at counted
        exact counted
    · rw [(settle_sender dispatch client plan keeps result).1]
      exact counted
  · rw [Dispatch.Settled, withdrawing] at settled
    obtain ⟨history, events, withdrawals, http⟩ := settled
    refine ⟨report_settled client plan keeps dispatch _ history events
      (by rw [withdrawals, if_pos ⟨rfl, http⟩]) ?_, counted⟩
    intro success
    cases success

theorem run_settled (sha256 : Bytes → String) (client : TransferClient) (plan : PreparedTransfer)
    (keeps : Bool) (dispatch : Dispatch)
    (run : Transition.Run (dispatchStep sha256 client plan keeps) (fun _ _ => True) freshDispatch dispatch) :
    dispatch.Settled client plan keeps :=
  (Transition.run_invariant (dispatchStep sha256 client plan keeps) _
    (fun dispatch => dispatch.Settled client plan keeps ∧
      dispatch.sender.phase.Counted plan dispatch.sender.progress)
    (fun dispatch label next good _ stepped => dispatch_settled_step sha256 client plan keeps dispatch
      next label good.1 good.2 stepped)
    freshDispatch dispatch run ⟨⟨rfl, rfl, rfl⟩, trivial⟩).1

theorem withdrawn_once (client : TransferClient) (plan : PreparedTransfer) (keeps : Bool)
    (dispatch : Dispatch) (settled : dispatch.Settled client plan keeps) :
    dispatch.withdrawals.length ≤ 1 := by
  unfold Dispatch.Settled at settled
  split at settled
  · simp [settled.2.2]
  · simp [settled.2.2.1]
  · rw [settled.withdrawals]
    split <;> simp

-- Whatever the peer answers and whatever the transport does, sending a plan
-- takes a bounded number of requests beside the polls of a pending decision.
theorem sends_are_bounded (sha256 : Bytes → String) (client : TransferClient) (plan : PreparedTransfer)
    (keeps : Bool) (labels : List DispatchLabel) (dispatch : Dispatch)
    (replayed : Transition.replay (dispatchStep sha256 client plan keeps) (fun _ _ => True) freshDispatch
      labels = some dispatch) :
    dispatch.requests.length + dispatch.withdrawals.length ≤
      (client.maxRetries + 1) *
        (3 + plan.files.length * (client.maxRetries + 2) + (labels.map (·.polls plan)).sum) + 1 := by
  have requests := requests_bounded sha256 client plan keeps labels dispatch replayed
  have run := Transition.replay_run (dispatchStep sha256 client plan keeps)
    (fun _ _ => True) labels freshDispatch dispatch replayed
  exact Nat.add_le_add requests (withdrawn_once client plan keeps dispatch
    (run_settled sha256 client plan keeps dispatch run))

-- Nothing more is sent for a plan whose handle is cancelled or that has ended.
def Dispatch.Stopped (dispatch : Dispatch) : Prop := dispatch.cancelled = true ∨ dispatch.phase ≠ .working

theorem stopped_step (sha256 : Bytes → String) (client : TransferClient) (plan : PreparedTransfer)
    (keeps : Bool) (dispatch next : Dispatch) (label : DispatchLabel) (stopped : dispatch.Stopped)
    (stepped : dispatchStep sha256 client plan keeps dispatch label = some next) :
    next.Stopped ∧ next.requests = dispatch.requests := by
  rcases dispatch_cases sha256 client plan keeps dispatch next label stepped with
    ⟨rfl, rfl⟩ | ⟨input, sender, requests, rfl, working, going, made, rfl⟩ | ⟨result, rfl, _, _, rfl⟩ |
      ⟨rfl, _, rfl⟩
  · exact ⟨.inl rfl, rfl⟩
  · rcases stopped with cancelled | ended
    · rw [going] at cancelled
      cases cancelled
    · exact absurd working ended
  · refine ⟨.inr ?_, (settle_sender dispatch client plan keeps result).2⟩
    unfold Dispatch.settle
    split <;> simp [Dispatch.report]
  · exact ⟨.inr (by simp [Dispatch.report]), rfl⟩

-- Every send_prepared ends with one record and one event that agree with its
-- result. A cancelled one is withdrawn at the receiver once, and from the
-- cancellation on nothing else is sent.
theorem sends_conclude_once (sha256 : Bytes → String) (client : TransferClient) (plan : PreparedTransfer)
    (keeps : Bool) (dispatch : Dispatch)
    (run : Transition.Run (dispatchStep sha256 client plan keeps) (fun _ _ => True) freshDispatch dispatch) :
    dispatch.Settled client plan keeps ∧
      (dispatch.Stopped → ∀ later, Transition.Run (dispatchStep sha256 client plan keeps)
        (fun _ _ => True) dispatch later →
        later.requests = dispatch.requests) := by
  refine ⟨?_, ?_⟩
  · exact run_settled sha256 client plan keeps dispatch run
  · intro stopped later rest
    exact (Transition.run_relation (dispatchStep sha256 client plan keeps) _ Dispatch.Stopped
      (fun before after => after.requests = before.requests) (fun _ => rfl)
      (fun _ _ _ first second => second.trans first)
      (fun dispatch label next stopped _ stepped => stopped_step sha256 client plan keeps dispatch
      next label stopped stepped)
      dispatch later rest stopped).2

-- The handle is cancelled while the registration is under way.
def cancelledSend : List DispatchLabel :=
  [.work .go, .work (.source (.ok [])), .work .go, .work .go, .work (.outcome (.failed "connection reset")),
    .work .go, .cancel, .conclude,
    .withdrawn]

theorem cancelled_send_is_withdrawn : ∃ dispatch : Dispatch,
    Transition.replay (dispatchStep emptyHash { smallClient with maxRetries := 1 } smallPlan true)
    (fun _ _ => True) freshDispatch cancelledSend =
      some dispatch ∧ dispatch.requests.length + dispatch.withdrawals.length ≤ 13 := by
  have completed :
    (Transition.replay (dispatchStep emptyHash { smallClient with maxRetries := 1 } smallPlan true)
    (fun _ _ => True)
      freshDispatch cancelledSend).isSome = true := by decide +kernel
  obtain ⟨dispatch, replayed⟩ := Option.isSome_iff_exists.mp completed
  exact ⟨dispatch, replayed, sends_are_bounded emptyHash { smallClient with maxRetries := 1 } smallPlan true
    cancelledSend dispatch replayed⟩

theorem cancelled_send_is_reported : ∃ dispatch : Dispatch,
    Transition.Run (dispatchStep emptyHash { smallClient with maxRetries := 1 } smallPlan true)
    (fun _ _ => True) freshDispatch dispatch ∧
      dispatch.requests.length = 2 ∧
        dispatch.Settled { smallClient with maxRetries := 1 } smallPlan true := by
  obtain ⟨dispatch, run, sent⟩ :=
    Transition.replay_reaches (dispatchStep emptyHash { smallClient with maxRetries := 1 } smallPlan true)
    (fun _ _ => True) cancelledSend freshDispatch (fun dispatch => dispatch.requests.length == 2)
      (by decide +kernel)
  exact ⟨dispatch, run, beq_iff_eq.mp sent,
    (sends_conclude_once emptyHash { smallClient with maxRetries := 1 } smallPlan true dispatch run).1⟩

end GoshTransfer
