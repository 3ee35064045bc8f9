import GoshTransfer.SenderCounter

set_option autoImplicit false

-- A version 1 send from its first request to its report: request_transfer,
-- wait_for_approval, and the uploads of LegacySender.
namespace GoshTransfer

-- What one POST of /transfer comes to: connects is is_connect() of the error,
-- and decoded is what the body of a success decodes to, accepted and the token.
inductive OfferOutcome where
  | failed (connects : Bool) (message : String)
  | answered (code : Nat) (status text : String) (decoded : Except String (Bool × Option String))

-- What one GET of /transfer/status comes to.
inductive PollOutcome where
  | failed (message : String)
  | answered (code : Nat) (status : String) (decoded : Except String (TransferDecision × Option String))

-- With started.elapsed() in nanoseconds after it.
structure Poll where
  outcome : PollOutcome
  elapsed : Nat

structure LegacyJob where
  address : String
  port : Nat
  transferId : String
  files : List TransferFile
  keepsHistory : Bool

-- What tokio::fs::metadata says of a path (whether it is a regular file, and its
-- length), and what the send takes from the path itself.
structure Sighting where
  path : String
  metadata : Except String (Bool × Nat)
  name : Option String
  mimeType : Option String
  id : String
  relativePath : Option String

-- What is to be sent: the paths given to send_files, or the directory given to
-- send_directory, whether it is one, and what collecting its files comes to.
inductive SendSource where
  | paths (seen : List Sighting)
  | directory (path : String) (access : Except String Bool) (collected : Except SendError (List Sighting))

structure LegacyErrand where
  address : String
  port : Nat
  transferId : String
  source : SendSource
  keepsHistory : Bool

def LegacyErrand.job (errand : LegacyErrand) (files : List TransferFile) : LegacyJob :=
  ⟨errand.address, errand.port, errand.transferId, files, errand.keepsHistory⟩

-- The files of a directory are not looked at again for their kind.
def listFile (regular : Bool) (seen : Sighting) : Except SendError TransferFile :=
  match seen.metadata with
  | .error message => .error (.fileIo ("Failed to get file info: " ++ message))
  | .ok (isFile, len) =>
    if regular && !isFile then .error (.fileIo ("Not a regular file: " ++ seen.path))
    else
      match seen.name with
      | none => .error (.fileIo "Invalid file path")
      | some name => .ok ⟨name, len, seen.mimeType, seen.id, seen.relativePath⟩

def listFiles (regular : Bool) : List Sighting → Except SendError (List TransferFile)
  | [] => .ok []
  | seen :: rest =>
    match listFile regular seen with
    | .error error => .error error
    | .ok file => (listFiles regular rest).map (file :: ·)

def SendSource.empty : SendSource → SendError
  | .paths _ => .invalidConfig "No files to send"
  | .directory _ _ _ => .fileIo "Directory is empty"

-- The list of files with which the send begins, or the error it returns before.
def SendSource.list : SendSource → Except SendError (List TransferFile)
  | .paths seen => if seen.isEmpty then .error (.invalidConfig "No files to send") else listFiles true seen
  | .directory path access collected =>
    match access with
    | .error message => .error (.fileIo ("Failed to access path: " ++ message))
    | .ok false => .error (.fileIo ("Path is not a directory: " ++ path))
    | .ok true =>
      match collected with
      | .error error => .error error
      | .ok seen => if seen.isEmpty then .error (.fileIo "Directory is empty") else listFiles false seen

theorem listed_nonempty (source : SendSource) (files : List TransferFile)
    (listed : source.list = .ok files) : files ≠ [] := by
  have whole : ∀ (regular : Bool) (seen : List Sighting), seen ≠ [] → listFiles regular seen = .ok files →
    files ≠ [] := by
    intro regular seen some_ same
    cases seen with
    | nil => exact absurd rfl some_
    | cons first rest =>
      simp only [listFiles] at same
      split at same
      · cases same
      · cases later : listFiles regular rest with
        | error error => simp [later, Except.map] at same
        | ok more =>
          rw [later] at same
          cases same
          simp
  cases source with
  | paths seen =>
    simp only [SendSource.list] at listed
    split at listed
    · cases listed
    · next some_ => exact whole true seen (by simpa using some_) listed
  | directory path access collected =>
    simp only [SendSource.list] at listed
    split at listed
    · cases listed
    · cases listed
    · split at listed
      · cases listed
      · next seen =>
        split at listed
        · cases listed
        · next some_ => exact whole false seen (by simpa using some_) listed

-- The events of a part of the run, the requests it sent, and its result.
structure Exchange (Result : Type) where
  events : List EngineEvent
  requests : Nat
  result : Except SendError Result

section Negotiate

variable (client : TransferClient) (job : LegacyJob)

def offerError : OfferOutcome → SendError
  | .failed true message =>
      .connectionRefused ("Cannot connect to " ++ job.address ++ ":" ++ toString job.port ++ " - " ++ message)
  | .failed false message => .network ("Transfer request failed: " ++ message)
  | .answered _ status text _ => .network ("Transfer request failed (" ++ status ++ "): " ++ text)

def offerRetried (attempt : Nat) : OfferOutcome → Bool
  | .failed connects message => isTransientError (offerError job (.failed connects message)) &&
      attempt != client.maxRetries
  | .answered code _ _ _ => isServerError code && attempt < client.maxRetries

-- What follows a failure, later being the attempts after it.
def offerAgain (attempt : Nat) (outcome : OfferOutcome) (later : Exchange (Bool × Option String)) : Exchange
    (Bool × Option String) :=
  if offerRetried client job attempt outcome then
    ⟨.transferRetry job.transferId (attempt + 1) client.maxRetries
      (.transport (offerError job outcome).toString) :: later.events,
      later.requests + 1, later.result⟩
  else ⟨[], 1, .error (offerError job outcome)⟩

-- The loop over the attempts, with the number of those that are left.
def requestLoop (outcomes : Nat → OfferOutcome) : Nat → Nat → Option SendError → Exchange
    (Bool × Option String)
  | 0, _, last => ⟨[], 0, .error (last.getD (.network "Unknown error"))⟩
  | left + 1, attempt, _ =>
    let later := requestLoop outcomes left (attempt + 1) (some (offerError job (outcomes attempt)))
    match client.configError with
    | some message => ⟨[], 0, .error (.invalidConfig message)⟩
    | none =>
      match outcomes attempt with
      | .failed connects message => offerAgain client job attempt (.failed connects message) later
      | .answered code status text decoded =>
        if !isSuccess code then offerAgain client job attempt (.answered code status text decoded) later
        else
          match decoded with
          | .error message => ⟨[], 1, .error (.serialization ("Failed to parse response: " ++ message))⟩
          | .ok response => ⟨[], 1, .ok response⟩

def requestTransfer (outcomes : Nat → OfferOutcome) : Exchange (Bool × Option String) :=
  requestLoop client job outcomes (client.maxRetries + 1) 0 none

-- wait_for_approval from one of its polls on; none when the polls run out.
def waitForApproval : List Poll → Option (Exchange (Option String))
  | [] => none
  | poll :: rest =>
    match client.configError with
    | some message => some ⟨[], 0, .error (.invalidConfig message)⟩
    | none =>
      match poll.outcome with
      | .failed message => some ⟨[], 1, .error (.network ("Failed to check transfer status: " ++ message))⟩
      | .answered code status decoded =>
        if !isSuccess code then some ⟨[], 1, .error (.network ("Status check failed: " ++ status))⟩
        else
          match decoded with
          | .error message => some ⟨[], 1, .error (.serialization ("Failed to parse status: " ++ message))⟩
          | .ok (.accepted, token) => some ⟨[], 1, .ok token⟩
          | .ok (.rejected, _) => some ⟨[], 1, .error .transferRejected⟩
          | .ok (.notFound, _) => some ⟨[], 1, .error (.transferNotFound job.transferId)⟩
          | .ok (.pending, _) =>
            if poll.elapsed > 120 * 1000000000 then some ⟨[], 1, .error .transferTimeout⟩
            else (waitForApproval rest).map fun later => { later with requests := later.requests + 1 }

def tokenNegotiation : Option String → Negotiation
  | some _ => .granted
  | none => .noToken

def negotiate (outcomes : Nat → OfferOutcome) (polls : List Poll) : Option
    (List EngineEvent × Nat × Negotiation) :=
  let offer := requestTransfer client job outcomes
  match offer.result with
  | .error error => some (offer.events, offer.requests, .requestFailed error)
  | .ok (true, token) => some (offer.events, offer.requests, tokenNegotiation token)
  | .ok (false, _) =>
    (waitForApproval client job polls).map fun wait =>
      (offer.events, offer.requests + wait.requests,
        match wait.result with
        | .error error => .approvalFailed error
        | .ok token => tokenNegotiation token)

end Negotiate

def legacySend (client : TransferClient) (errand : LegacyErrand) (outcomes : Nat → OfferOutcome)
    (polls : List Poll) (tries : Nat → Nat → SendAttempt) :
    Option (List SenderAct × Nat × Option (Except SendError Unit)) :=
  match errand.source.list with
  | .error error => some ([], 0, some (.error error))
  | .ok files =>
    (negotiate client (errand.job files) outcomes polls).map fun (events, requests, negotiation) =>
      let sent := sendListed client ⟨errand.transferId, files, negotiation, errand.keepsHistory⟩
        errand.source.empty tries
      (events.map .event ++ sent.1.trace, requests, sent.2)


def EngineEvent.retries : EngineEvent → Bool
  | .transferRetry _ _ _ _ => true
  | _ => false

def SenderAct.passing : SenderAct → Bool
  | .start _ _ | .subtract _ _ => true
  | .event (.transferProgress _) | .event (.transferRetry _ _ _ _) => true
  | _ => false

def SenderAct.retries : SenderAct → Bool
  | .event told => told.retries
  | _ => false

def LegacyJob.report (job : LegacyJob) (bytes : Nat) : Except SendError Unit → List SenderAct
  | .ok _ =>
    (if job.keepsHistory then [.record .completed (totalTransferSize job.files) none] else []) ++
      [.event (.transferComplete job.transferId)]
  | .error error =>
    (if job.keepsHistory then [.record (if error = .transferRejected then .rejected else .failed) bytes
      (some error.toString)] else []) ++ [.event (.transferFailed job.transferId error.toString)]

-- One part of a run: what it adds to the trace, and how many retries there are.
structure Passes (sender sender' : LegacySender) (retries : Nat) : Prop where
  added : ∃ acts, sender'.trace = sender.trace ++ acts ∧ (∀ act ∈ acts, act.passing = true) ∧
    acts.countP SenderAct.retries ≤ retries

theorem passes_refl (sender : LegacySender) : Passes sender sender 0 := ⟨[], by simp, by simp, by simp⟩

theorem passes_trans (a b c : LegacySender) (n m : Nat) (first : Passes a b n) (second : Passes b c m) :
    Passes a c (n + m) := by
  obtain ⟨acts, trace, passing, few⟩ := first.added
  obtain ⟨more, trace', passing', few'⟩ := second.added
  refine ⟨acts ++ more, by rw [trace', trace, List.append_assoc], ?_, by rw [List.countP_append]; omega⟩
  intro act member
  rcases List.mem_append.mp member with early | late
  · exact passing act early
  · exact passing' act late

theorem passes_weaken (a b : LegacySender) (n m : Nat) (fewer : n ≤ m) (passes : Passes a b n) :
    Passes a b m := by
  obtain ⟨acts, trace, passing, few⟩ := passes.added
  exact ⟨acts, trace, passing, few.trans fewer⟩

theorem act_passes (sender : LegacySender) (act : SenderAct) (passing : act.passing = true)
    (plain : act.retries = false) :
    Passes sender (sender.act act) 0 :=
  ⟨[act], rfl, by simpa using passing, by simp [plain]⟩

theorem store_passes (sender : LegacySender) (value : Nat) : Passes sender (sender.store value) 0 :=
    ⟨[], by simp [LegacySender.store], by simp, by simp⟩

section Pass

variable (client : TransferClient) (call : LegacySend)

theorem inspect_passes (file : TransferFile) (sender : LegacySender) (last len : Nat) :
    Passes sender (inspectChunk call file sender last len).1 0 := by
  have counted := passes_trans _ _ _ 0 0 (store_passes sender (wrap (sender.bytesSentSoFar + len)))
    (act_passes _ (.subtract (wrap (sender.bytesSentSoFar + len)) last) rfl rfl)
  simp only [inspectChunk, apply_ite Prod.fst]
  split
  · exact passes_trans _ _ _ 0 0 counted (act_passes _ _ rfl rfl)
  · exact counted

theorem chunks_pass (file : TransferFile) (chunks : List Nat) (sender : LegacySender) (last : Nat) :
    Passes sender
    (chunks.foldl (fun state len => inspectChunk call file state.1 state.2 len) (sender, last)).1 0 := by
  induction chunks generalizing sender last with
  | nil => exact passes_refl sender
  | cons len rest ih =>
    have first := inspect_passes call file sender last len
    simp only [List.foldl_cons]
    generalize inspectChunk call file sender last len = state at first ⊢
    obtain ⟨next, shown⟩ := state
    exact passes_trans _ _ _ 0 0 first (ih next shown)

theorem send_file_passes (file : TransferFile) (attempt : SendAttempt) (sender : LegacySender) :
    Passes sender (sendFile client call file attempt sender).1 0 ∧
    (sendFile client call file attempt sender).2 ≠ .error .transferRejected := by
  unfold sendFile
  split
  · exact ⟨passes_refl sender, by simp⟩
  · split
    · exact ⟨passes_refl sender, by simp⟩
    · have streamed := chunks_pass call file (by assumption) sender 0
      split
      · exact ⟨streamed, by simp⟩
      · split
        · refine ⟨streamed, ?_⟩
          simp only [uploadError, ne_eq, Except.error.injEq]
          split
          · simp
          · split <;> simp
        · exact ⟨passes_trans _ _ _ 0 0 streamed (passes_trans _ _ _ 0 0 (store_passes _ _)
            (act_passes _ _ rfl rfl)), by simp⟩

-- What a loop leaves: its part of the trace, and a result that is no rejection.
structure Ends (sender : LegacySender) (outcome : LegacySender × Option (Except SendError Unit))
    (retries : Nat) : Prop where
  passes : Passes sender outcome.1 retries
  result : ∃ result, outcome.2 = some result ∧ result ≠ .error .transferRejected

-- Induction on the attempts that are left: the last one is not retried, so the
-- loop does not run out.
theorem retry_loop_ends (file : TransferFile) (tries : Nat → SendAttempt) (baseline left attempt : Nat)
    (sender : LegacySender) (paid : attempt + (left + 1) = client.maxRetries + 1) :
    Ends sender (retryLoop client call file tries baseline (left + 1) attempt sender) left := by
  induction left generalizing attempt sender with
  | zero =>
    have once := send_file_passes client call file (tries attempt) (sender.store baseline)
    have stored := store_passes sender baseline
    rw [retryLoop]
    generalize sendFile client call file (tries attempt) (sender.store baseline) = sent at once
    obtain ⟨sender', result⟩ := sent
    have last : ¬ attempt < client.maxRetries := by omega
    cases result with
    | ok _ => exact ⟨passes_trans _ _ _ 0 0 stored once.1, _, rfl, by simp⟩
    | error error =>
      simp only [last, decide_false, Bool.and_false, Bool.false_eq_true, if_false]
      exact ⟨passes_trans _ _ _ 0 0 stored once.1, _, rfl, once.2⟩
  | succ left ih =>
    have once := send_file_passes client call file (tries attempt) (sender.store baseline)
    have stored := store_passes sender baseline
    rw [retryLoop]
    generalize sendFile client call file (tries attempt) (sender.store baseline) = sent at once
    obtain ⟨sender', result⟩ := sent
    cases result with
    | ok _ => exact ⟨passes_weaken _ _ _ _ (Nat.zero_le _) (passes_trans _ _ _ 0 0 stored once.1), _, rfl,
        by simp⟩
    | error error =>
      simp only
      split
      · have told :
          Passes sender'
          (sender'.act (.event (.transferRetry call.transferId (attempt + 1) client.maxRetries
          (.transport error.toString)))) 1 :=
          ⟨[_], rfl, by simp [SenderAct.passing], by simp [SenderAct.retries, EngineEvent.retries]⟩
        generalize sender'.act
          (.event (.transferRetry call.transferId (attempt + 1) client.maxRetries
          (.transport error.toString))) = again at told ⊢
        have more := ih (attempt + 1) again (by omega)
        have whole :=
          passes_trans _ _ _ 1 left (passes_trans _ _ _ 0 1 (passes_trans _ _ _ 0 0 stored once.1) told)
            more.passes
        exact ⟨passes_weaken _ _ _ _ (by omega) whole, more.result⟩
      · exact ⟨passes_weaken _ _ _ _ (Nat.zero_le _) (passes_trans _ _ _ 0 0 stored once.1), _, rfl, once.2⟩

theorem file_loop_ends (tries : Nat → Nat → SendAttempt) (files : List TransferFile) (k : Nat)
    (sender : LegacySender) :
    Ends sender (fileLoop client call tries k files sender) (files.length * client.maxRetries) := by
  induction files generalizing k sender with
  | nil => exact ⟨passes_weaken _ _ _ _ (Nat.zero_le _) (passes_refl sender), _, rfl, by simp⟩
  | cons file rest ih =>
    have started := act_passes sender (.start k sender.bytesSentSoFar) rfl rfl
    have sent := retry_loop_ends client call file (tries k)
      (sender.act (.start k sender.bytesSentSoFar)).bytesSentSoFar client.maxRetries 0
      (sender.act (.start k sender.bytesSentSoFar)) (by omega)
    have whole := passes_trans _ _ _ 0 _ started sent.passes
    obtain ⟨result, same, mild⟩ := sent.result
    have count : (file :: rest).length * client.maxRetries = client.maxRetries + rest.length *
      client.maxRetries := by
      rw [List.length_cons, Nat.succ_mul, Nat.add_comm]
    rw [fileLoop, sendFileWithRetry, count]
    generalize retryLoop client call file (tries k) _ _ _ _ = outcome at whole same
    obtain ⟨sender', _⟩ := outcome
    subst same
    rw [Nat.zero_add] at whole
    cases result with
    | ok _ =>
      have later := ih (k + 1) sender'
      exact ⟨passes_trans _ _ _ _ _ whole later.passes, later.result⟩
    | error error => exact ⟨passes_weaken _ _ _ _ (Nat.le_add_right _ _) whole, _, rfl, mild⟩

end Pass

section Whole

variable (client : TransferClient) (job : LegacyJob)

-- A whole send that got as far as its report.
structure Reports (trace : List SenderAct) (result : Except SendError Unit) (retries : Nat) : Prop where
  once : ∃ front bytes, trace = front ++ job.report bytes result ∧ ∀ act ∈ front, act.passing = true
  few : trace.countP SenderAct.retries ≤ retries

theorem report_plain (bytes : Nat) (result : Except SendError Unit) :
    (job.report bytes result).countP SenderAct.retries = 0 := by
  cases result <;> cases keeps : job.keepsHistory <;> simp [LegacyJob.report, keeps, SenderAct.retries,
    EngineEvent.retries]

theorem passes_reports (sender : LegacySender) (acts : List SenderAct) (bytes retries : Nat)
    (result : Except SendError Unit) (passes : Passes ⟨0, []⟩ sender retries)
    (same : acts = sender.trace ++ job.report bytes result) : Reports job acts result retries := by
  obtain ⟨front, trace, passing, few⟩ := passes.added
  refine ⟨⟨front, bytes, by simpa [trace] using same, passing⟩, ?_⟩
  rw [same, List.countP_append, report_plain, trace]
  simpa using few

theorem record_trace (negotiation : Negotiation) (sender : LegacySender) (status : TransferStatus)
    (bytes : Nat) (error : Option String) :
    (LegacySend.record ⟨job.transferId, job.files, negotiation, job.keepsHistory⟩ sender status bytes
      error).trace =
      sender.trace ++ if job.keepsHistory then [.record status bytes error] else [] := by
  unfold LegacySend.record
  cases keeps : job.keepsHistory <;> simp [LegacySender.act]

theorem fail_reports (negotiation : Negotiation) (sender : LegacySender) (bytes retries : Nat)
    (error : SendError) (passes : Passes ⟨0, []⟩ sender retries) :
    Reports job (LegacySend.fail ⟨job.transferId, job.files, negotiation, job.keepsHistory⟩ sender
      (if error = .transferRejected then .rejected else .failed) bytes error).1.trace
      (.error error) retries := by
  refine passes_reports job sender _ bytes retries (.error error) passes ?_
  simp [LegacySend.fail, LegacySender.act, record_trace, LegacyJob.report]

theorem listed_reports (negotiation : Negotiation) (empty : SendError) (tries : Nat → Nat → SendAttempt)
    (some_ : job.files ≠ []) (mild : ∀ error, negotiation = .requestFailed error →
      error ≠ .transferRejected) :
    ∃ result, (sendListed client ⟨job.transferId, job.files, negotiation, job.keepsHistory⟩ empty tries).2 =
      some result ∧
      Reports job (sendListed client ⟨job.transferId, job.files, negotiation, job.keepsHistory⟩ empty
        tries).1.trace result
        (job.files.length * client.maxRetries) := by
  have nonempty : job.files.isEmpty = false := by simpa using some_
  have fresh := passes_weaken _ _ 0 (job.files.length * client.maxRetries) (Nat.zero_le _)
    (passes_refl ⟨0, []⟩)
  simp only [sendListed, nonempty, Bool.false_eq_true, if_false]
  cases negotiation with
  | granted =>
    have ends := file_loop_ends client ⟨job.transferId, job.files, .granted, job.keepsHistory⟩ tries
      job.files 0 ⟨0, []⟩
    obtain ⟨result, same, notRejected⟩ := ends.result
    have passes := ends.passes
    simp only [Negotiation.result]
    generalize fileLoop client ⟨job.transferId, job.files, .granted, job.keepsHistory⟩ tries 0 job.files
      ⟨0, []⟩ = outcome at same passes
    obtain ⟨sender, _⟩ := outcome
    subst same
    cases result with
    | error error =>
      have failed := fail_reports job .granted sender sender.bytesSentSoFar _ error passes
      rw [if_neg (by simpa using notRejected)] at failed
      exact ⟨_, rfl, failed⟩
    | ok _ =>
      refine ⟨_, rfl, passes_reports job sender _ 0 _ (.ok ()) passes ?_⟩
      simp [LegacySender.act, record_trace, LegacyJob.report]
  | noToken =>
    have failed := fail_reports job .noToken ⟨0, []⟩ 0 _ (.network "No token received") fresh
    rw [if_neg (by simp)] at failed
    exact ⟨_, rfl, failed⟩
  | requestFailed error =>
    have failed := fail_reports job (.requestFailed error) ⟨0, []⟩ 0 _ error fresh
    rw [if_neg (mild error rfl)] at failed
    exact ⟨_, rfl, failed⟩
  | approvalFailed error => exact ⟨_, rfl, fail_reports job (.approvalFailed error) ⟨0, []⟩ 0 _ error fresh⟩

-- The requests and the retries that an exchange of that many attempts can have.
structure Bounded (exchange : Exchange (Bool × Option String)) (attempts : Nat) : Prop where
  requests : exchange.requests ≤ attempts
  events : ∀ event ∈ exchange.events, event.retries = true
  retries : exchange.events.length + 1 ≤ attempts
  mild : exchange.result ≠ .error .transferRejected

theorem offer_error_mild (outcome : OfferOutcome) : offerError job outcome ≠ .transferRejected := by
  cases outcome with
  | failed connects message => cases connects <;> simp [offerError]
  | answered code status text decoded => simp [offerError]

theorem last_offer (attempt : Nat) (outcome : OfferOutcome) (last : attempt = client.maxRetries) :
    offerRetried client job attempt outcome = false := by
  cases outcome <;> simp [offerRetried, last]

theorem again_bounded (attempt attempts : Nat) (outcome : OfferOutcome)
    (later : Exchange (Bool × Option String)) (more : offerRetried client job attempt outcome = true →
      Bounded later attempts) :
    Bounded (offerAgain client job attempt outcome later) (attempts + 1) := by
  unfold offerAgain
  split
  · next retried =>
    have bounded := more retried
    refine ⟨Nat.succ_le_succ bounded.requests, ?_, Nat.succ_le_succ bounded.retries, bounded.mild⟩
    intro event member
    rcases List.mem_cons.mp member with rfl | inside
    · rfl
    · exact bounded.events event inside
  · exact ⟨Nat.le_add_left 1 attempts, by simp, Nat.le_add_left 1 attempts,
      by simpa using offer_error_mild job outcome⟩

theorem request_step_bounded (outcomes : Nat → OfferOutcome) (left attempt : Nat) (last : Option SendError)
    (more : ∀ outcome, offerRetried client job attempt outcome = true →
      Bounded (requestLoop client job outcomes left (attempt + 1)
        (some (offerError job (outcomes attempt)))) left) :
    Bounded (requestLoop client job outcomes (left + 1) attempt last) (left + 1) := by
  simp only [requestLoop]
  split
  · exact ⟨Nat.zero_le _, by simp, Nat.le_add_left 1 left, by simp⟩
  · split
    · exact again_bounded client job attempt left _ _ (more _)
    · split
      · exact again_bounded client job attempt left _ _ (more _)
      · split
        · exact ⟨Nat.le_add_left 1 left, by simp, Nat.le_add_left 1 left, by simp⟩
        · exact ⟨Nat.le_add_left 1 left, by simp, Nat.le_add_left 1 left, by simp⟩

-- Induction on the attempts that are left.
theorem request_loop_bounded (outcomes : Nat → OfferOutcome) (left attempt : Nat) (last : Option SendError)
    (paid : attempt + (left + 1) = client.maxRetries + 1) :
    Bounded (requestLoop client job outcomes (left + 1) attempt last) (left + 1) := by
  induction left generalizing attempt last with
  | zero =>
    have final (outcome : OfferOutcome) : offerRetried client job attempt outcome = true →
        Bounded (requestLoop client job outcomes 0 (attempt + 1) (some (offerError job (outcomes attempt)))) 0 := by
      intro retried
      rw [last_offer client job attempt outcome (by omega)] at retried
      cases retried
    exact request_step_bounded client job outcomes 0 attempt last final
  | succ left ih => exact request_step_bounded client job outcomes (left + 1) attempt last fun _ _ => ih (attempt + 1) _ (by omega)

theorem wait_ends (polls : List Poll) (k : Nat) (early : k ≤ 241) (enough : 242 ≤ k + polls.length)
    (paced : ∀ i poll, polls[i]? = some poll → (k + i) * 500000000 ≤ poll.elapsed) :
    ∃ wait, waitForApproval client job polls = some wait ∧ wait.requests ≤ 242 - k := by
  induction polls generalizing k with
  | nil => simp at enough; omega
  | cons poll rest ih =>
    have here := paced 0 poll rfl
    simp only [waitForApproval]
    split
    · exact ⟨_, rfl, Nat.zero_le _⟩
    · split
      · exact ⟨_, rfl, by show 1 ≤ 242 - k; omega⟩
      · split
        · exact ⟨_, rfl, by show 1 ≤ 242 - k; omega⟩
        · split
          · exact ⟨_, rfl, by show 1 ≤ 242 - k; omega⟩
          · exact ⟨_, rfl, by show 1 ≤ 242 - k; omega⟩
          · exact ⟨_, rfl, by show 1 ≤ 242 - k; omega⟩
          · exact ⟨_, rfl, by show 1 ≤ 242 - k; omega⟩
          · split
            · exact ⟨_, rfl, by show 1 ≤ 242 - k; omega⟩
            -- Still pending: less than two minutes have passed, at half a second a poll.
            · next soon =>
              have fewer : k ≤ 240 := by omega
              obtain ⟨wait, later, few⟩ := ih (k + 1) (by omega) (by simp at enough; omega) (by
                intro i poll there
                have after := paced (i + 1) poll there
                rwa [Nat.add_assoc, Nat.add_comm 1 i])
              rw [later]
              exact ⟨_, rfl, by show wait.requests + 1 ≤ 242 - k; omega⟩

-- What a negotiation leaves: only retries behind it, and no rejection unless it
-- came from the polls.
structure Negotiated (outcome : List EngineEvent × Nat × Negotiation) : Prop where
  events : ∀ event ∈ outcome.1, event.retries = true
  retries : outcome.1.length ≤ client.maxRetries
  requests : outcome.2.1 ≤ client.maxRetries + 1 + 242
  mild : ∀ error, outcome.2.2 = .requestFailed error → error ≠ .transferRejected

theorem token_mild (token : Option String) (error : SendError) :
    tokenNegotiation token ≠ .requestFailed error := by
  cases token <;> simp [tokenNegotiation]

theorem negotiation_ends (outcomes : Nat → OfferOutcome) (polls : List Poll) (enough : 242 ≤ polls.length)
    (paced : ∀ k poll, polls[k]? = some poll → k * 500000000 ≤ poll.elapsed) :
    ∃ outcome, negotiate client job outcomes polls = some outcome ∧ Negotiated client outcome := by
  have bounded := request_loop_bounded client job outcomes client.maxRetries 0 none (by omega)
  obtain ⟨wait, waited, few⟩ := wait_ends client job polls 0 (by omega) (by omega) (by simpa using paced)
  have short := bounded.requests
  have retried := bounded.retries
  simp only [negotiate, requestTransfer]
  generalize requestLoop client job outcomes (client.maxRetries + 1) 0 none = offer at *
  obtain ⟨events, requests, result⟩ := offer
  match result with
  | .error error =>
    refine ⟨_, rfl, bounded.events, by simpa using retried, by simp only at short ⊢; omega, ?_⟩
    intro failure same
    have stated := bounded.mild
    cases same
    simpa using stated
  | .ok (true, token) =>
    exact ⟨_, rfl, bounded.events, by simpa using retried, by simp only at short ⊢; omega,
      fun error same => absurd same (token_mild token error)⟩
  | .ok (false, _) =>
    rw [waited]
    refine ⟨_, rfl, bounded.events, by simpa using retried, by simp only at short few ⊢; omega, ?_⟩
    intro error same
    cases ending : wait.result with
    | error failure => simp [ending] at same
    | ok token =>
      simp only [ending] at same
      exact absurd same (token_mild token error)

theorem retry_events_pass (events : List EngineEvent) (retries : ∀ event ∈ events, event.retries = true)
    (act : SenderAct) (member : act ∈ events.map .event) : act.passing = true := by
  obtain ⟨event, inside, rfl⟩ := List.mem_map.mp member
  have retry := retries event inside
  cases event <;> simp_all [EngineEvent.retries, SenderAct.passing]

theorem legacy_sends_conclude_once (errand : LegacyErrand) (outcomes : Nat → OfferOutcome) (polls : List Poll)
    (tries : Nat → Nat → SendAttempt) (enough : 242 ≤ polls.length)
    (paced : ∀ k poll, polls[k]? = some poll → k * 500000000 ≤ poll.elapsed) :
    ∃ trace requests result,
      legacySend client errand outcomes polls tries = some (trace, requests, some result) ∧
      requests ≤ client.maxRetries + 1 + 242 ∧
      (∀ error, errand.source.list = .error error → trace = [] ∧ requests = 0 ∧ result = .error error) ∧
      ∀ files, errand.source.list = .ok files →
        trace.countP SenderAct.retries ≤ (files.length + 1) * client.maxRetries ∧
        ∃ front bytes, trace = front ++ (errand.job files).report bytes result ∧
          ∀ act ∈ front, act.passing = true := by
  cases listed : errand.source.list with
  | error error =>
    refine ⟨[], 0, .error error, by simp [legacySend, listed], Nat.zero_le _, ?_, by simp⟩
    rintro _ ⟨⟩
    exact ⟨rfl, rfl, rfl⟩
  | ok files =>
    obtain ⟨⟨events, requests, negotiation⟩, negotiated, ends⟩ :=
      negotiation_ends client (errand.job files) outcomes polls enough paced
    have some_ : (errand.job files).files ≠ [] := listed_nonempty errand.source files listed
    obtain ⟨result, same, reports⟩ :=
      listed_reports client (errand.job files) negotiation errand.source.empty tries some_ ends.mild
    generalize sending : sendListed client ⟨(errand.job files).transferId, (errand.job files).files,
      negotiation,
      (errand.job files).keepsHistory⟩ errand.source.empty tries = sent at same reports
    have sending' : sendListed client ⟨errand.transferId, files, negotiation, errand.keepsHistory⟩
      errand.source.empty tries = sent := sending
    obtain ⟨front, bytes, trace, passing⟩ := reports.once
    refine ⟨events.map .event ++ sent.1.trace, requests, result, ?_, ends.requests, by simp, ?_⟩
    · simp only [legacySend, listed, negotiated, Option.map_some, sending', same]
    rintro _ ⟨⟩
    refine ⟨?_, events.map .event ++ front, bytes, by rw [trace, List.append_assoc], ?_⟩
    · have early : (events.map SenderAct.event).countP SenderAct.retries ≤ events.length := by
        simpa using List.countP_le_length (p := SenderAct.retries) (l := events.map SenderAct.event)
      have late : sent.1.trace.countP SenderAct.retries ≤ files.length * client.maxRetries := reports.few
      have first := ends.retries
      rw [List.countP_append, Nat.succ_mul]
      simp only at first
      omega
    · intro act member
      rcases List.mem_append.mp member with early | later
      · exact retry_events_pass events ends.events act early
      · exact passing act later

end Whole

def brokenTries (_ attempt : Nat) : SendAttempt :=
  if attempt = 0 then .opened 2 [1] (.failed "broken off") else .opened 2 [2] (.answered 200 "200 OK" "")

def brokenOutcomes (attempt : Nat) : OfferOutcome :=
  if attempt = 0 then .failed true "refused" else .answered 200 "200 OK" "" (.ok (false, none))

-- Accepted at the second look.
def brokenPolls : List Poll :=
  (List.range 242).map fun k =>
    ⟨.answered 200 "200 OK" (.ok (if k = 0 then (.pending, none) else (.accepted, some "token"))),
      k * 500000000⟩

def brokenErrand : LegacyErrand :=
  ⟨"10.0.0.2", 53317, "t", .paths [⟨"/home/notes", .ok (true, 2), some "notes", none, "f", none⟩], true⟩

theorem broken_polls_paced (k : Nat) (poll : Poll) (there : brokenPolls[k]? = some poll) :
    k * 500000000 ≤ poll.elapsed := by
  obtain ⟨k', here, rfl⟩ := by simpa [brokenPolls] using there
  obtain ⟨_, rfl⟩ := List.getElem?_eq_some_iff.mp here
  simp

-- The offer and the upload both fail once before they go through.
theorem broken_send_concludes : ∃ trace requests result,
    legacySend ⟨false, 1, none⟩ brokenErrand brokenOutcomes brokenPolls brokenTries = some (trace, requests,
      some result) ∧
      requests ≤ 244 ∧ trace.countP SenderAct.retries ≤ 2 ∧
      ∃ front bytes, trace = front ++ (brokenErrand.job [⟨"notes", 2, none, "f", none⟩]).report bytes result ∧
        ∀ act ∈ front, act.passing = true := by
  obtain ⟨trace, requests, result, ran, few, _, concluded⟩ :=
    legacy_sends_conclude_once ⟨false, 1, none⟩ brokenErrand
    brokenOutcomes brokenPolls brokenTries (by simp [brokenPolls]) broken_polls_paced
  obtain ⟨retries, report⟩ := concluded [⟨"notes", 2, none, "f", none⟩] rfl
  exact ⟨trace, requests, result, ran, few, retries, report⟩

end GoshTransfer
