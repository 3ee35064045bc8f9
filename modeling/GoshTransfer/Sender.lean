import GoshTransfer.Session

set_option autoImplicit false

namespace GoshTransfer

open InodeStore

structure PreparedFile where
  path : String
  info : TransferFile
  sha256 : String

structure PreparedTransfer where
  address : String
  port : Nat
  transferId : String
  senderName : Option String
  files : List PreparedFile

-- collect() of the pairs: a later file with the same id replaces the digest.
def digests : List PreparedFile → HashMap String String → HashMap String String
  | [], map => map
  | f :: rest, map => digests rest (map.insert f.info.id f.sha256)

def PreparedTransfer.manifest (plan : PreparedTransfer) : Except EngineError TransferManifest :=
  match totalSize 0 (plan.files.map PreparedFile.info) with
  | none => .error (.invalidConfig "Transfer size overflow")
  | some total =>
      .ok ⟨⟨plan.transferId, plan.senderName, plan.files.map PreparedFile.info, total⟩, digests plan.files ∅⟩

-- What send_plan reads of its client. configError is the reason why there is no
-- HTTP client, if there is none.
structure TransferClient where
  receiveOnly : Bool
  maxRetries : Nat
  configError : Option String

-- The requests of send_plan, as they are written to the wire.
inductive Request where
  | transfer (manifest : TransferManifest)
  | status (transferId : String)
  | chunk (transferId fileId : String) (offset : Nat) (token : String) (body : Bytes)
deriving DecidableEq

-- The result of one send(): an error of the transport, or a response whose body
-- may still break off.
inductive Outcome where
  | failed (message : String)
  | response (response : Response) (whole : Bool)
deriving DecidableEq

def isSuccess (code : Nat) : Bool := 200 ≤ code && code < 300

def isServerError (code : Nat) : Bool := 500 ≤ code && code < 600

def httpError (code : Nat) : EngineError :=
  match code with
  | 410 => .transferCancelled
  | 422 => .fileIo "Receiver rejected a checksum mismatch"
  | 401 | 403 => .invalidConfig "Peer authentication/authorization failed"
  | 404 => .network
      "Peer does not support this resumable session/protocol; use explicit legacy sending for older peers"
  | code => .http code

inductive Verdict where
  | success (response : Response) (whole : Bool)
  | retry (cause : RetryCause)
  | failure (error : EngineError)

-- One round of the two retry loops, which differ in the client errors they retry.
def judge (client : TransferClient) (transient : Nat → Bool) (attempt : Nat) : Outcome → Verdict
  | .response response whole =>
      if isSuccess response.code then .success response whole
      else if (isServerError response.code || transient response.code) && attempt < client.maxRetries then
        .retry (.http response.code)
      else .failure (httpError response.code)
  | .failed message =>
      if attempt < client.maxRetries then .retry (.transport message) else .failure (.network message)

def retryRequest (client : TransferClient) (attempt : Nat) (outcome : Outcome) : Verdict :=
  judge client (fun code => code == 408 || code == 429) attempt outcome

def retryChunk (client : TransferClient) (attempt : Nat) (outcome : Outcome) : Verdict :=
  judge client (fun code => code == 408 || code == 409) attempt outcome

def PreparedTransfer.allows (plan : PreparedTransfer) (point : FileCheckpoint) : Bool :=
  plan.files.any fun f =>
    f.info.id == point.fileId && point.offset ≤ f.info.size &&
      (!point.complete || point.offset == f.info.size)

-- The loop over the reported files, with the set of ids seen so far.
def badPoints (plan : PreparedTransfer) : List String → List FileCheckpoint → Bool
  | _, [] => false
  | ids, point :: rest => ids.contains point.fileId || !plan.allows point || badPoints plan
      (point.fileId :: ids) rest

-- TransferClient::checkpoint, from the response of its request on.
def checkpointStatus (plan : PreparedTransfer) (response : Response) (whole : Bool) :
    Except EngineError ResumeStatus :=
  match response.body, whole with
  | .status status, true =>
      if (status.complete && status.files.any fun point => !point.complete) ||
        status.files.length != plan.files.length ||
          badPoints plan [] status.files then
        .error (.network "Peer returned invalid file checkpoints")
      else .ok status
  | _, _ => .error (.network "error decoding response body")

-- The three places that call checkpoint: the wait for approval, one attempt to
-- send a file, and the confirmation at the end.
inductive Stage where
  | approval
  | file (token : String) (file : PreparedFile) (rest : List PreparedFile) (attempt : Nat)
  | completion

-- The places where send_plan waits.
inductive SendPoint where
  | hash (files : List PreparedFile)
  | register (attempt : Nat)
  | registering (attempt : Nat)
  | query (stage : Stage) (attempt : Nat)
  | querying (stage : Stage) (attempt : Nat)
  | openSource (token : String) (file : PreparedFile) (rest : List PreparedFile) (attempt offset : Nat)
  | posting (token : String) (file : PreparedFile) (rest : List PreparedFile) (attempt offset : Nat)
      (body : Bytes) (streamed last : Nat)

inductive SendPhase where
  | begin
  | running (manifest : TransferManifest) (point : SendPoint)
  | returned (result : Except EngineError Unit)

structure Sender where
  phase : SendPhase
  progress : Nat
  events : List EngineEvent

-- What the surroundings decide: the content of a source file, how much of the
-- body has been read, what comes back, and when the approval times out.
inductive Input where
  | go
  | source (content : Except String Bytes)
  | stream (count : Nat)
  | outcome (outcome : Outcome)
  | timeout

def SendPoint.awaits (plan : PreparedTransfer) (manifest : TransferManifest) : SendPoint → Option Request
  | .registering _ => some (.transfer manifest)
  | .querying _ _ => some (.status plan.transferId)
  | .posting token file _ _ offset body _ _ => some (.chunk plan.transferId file.info.id offset token body)
  | _ => none

def SendPhase.awaits (plan : PreparedTransfer) : SendPhase → Option Request
  | .running manifest point => point.awaits plan manifest
  | _ => none

def nextFile (token : String) : List PreparedFile → SendPoint
  | [] => .query .completion 0
  | file :: rest => .query (.file token file rest 0) 0

def Sender.move (sender : Sender) (phase : SendPhase) : Sender := { sender with phase := phase }

def Sender.fail (sender : Sender) (error : EngineError) : Sender := sender.move (.returned (.error error))

def Sender.retry (sender : Sender) (client : TransferClient) (plan : PreparedTransfer) (attempt : Nat)
    (cause : RetryCause) (phase : SendPhase) : Sender :=
  { sender with phase := phase, events := sender.events ++ [.transferRetry plan.transferId (attempt + 1) client.maxRetries cause] }

section SendPlan

variable (sha256 : Bytes → String) (client : TransferClient) (plan : PreparedTransfer) (sender : Sender)

def beginStep : Sender :=
  if client.receiveOnly then sender.fail (.invalidConfig "Sending is disabled in receive-only mode")
  else
    match plan.manifest with
    | .error e => sender.fail e
    | .ok manifest =>
        match manifest.validate with
        | .error e => sender.fail e
        | .ok _ => sender.move (.running manifest (.hash plan.files))

-- The source is hashed again and compared with the plan.
def hashSource (manifest : TransferManifest) (file : PreparedFile) (rest : List PreparedFile) :
    Except String Bytes → Sender
  | .error message => sender.fail (.fileIo message)
  | .ok bytes =>
      if sha256 bytes ≠ file.sha256 ∨ bytes.length ≠ file.info.size then
        sender.fail (.fileIo "Source file changed since the transfer was prepared")
      else sender.move (.running manifest (.hash rest))

-- Builds a request and sends it, if there is an HTTP client.
def send (request : Request) (phase : SendPhase) : Sender × List Request :=
  match client.configError with
  | some message => (sender.fail (.invalidConfig message), [])
  | none => (sender.move phase, [request])

def finish (manifest : TransferManifest) : Sender :=
  { sender with phase := .returned (.ok ()), progress := manifest.request.totalSize }

def approvalStep (manifest : TransferManifest) (status : ResumeStatus) : Sender :=
  if status.cancelled then sender.fail .transferCancelled
  else
    match status.status with
    | .accepted =>
        if status.complete then finish sender manifest
        else
          match status.token with
          | none => sender.fail (.network "Missing upload token")
          | some token => sender.move (.running manifest (nextFile token plan.files))
    | .rejected => sender.fail .transferRejected
    | .notFound => sender.fail (.transferNotFound plan.transferId)
    | .pending => sender.move (.running manifest (.query .approval 0))

def fileStep (manifest : TransferManifest) (token : String) (file : PreparedFile) (rest : List PreparedFile)
    (attempt : Nat) (status : ResumeStatus) : Sender :=
  if status.cancelled then sender.fail .transferCancelled
  else
    match status.files.find? (·.fileId == file.info.id) with
    | none => sender.fail (.network "Missing file checkpoint")
    | some point =>
        let sender := { sender with progress := offsetSum status.files }
        if point.complete then sender.move (.running manifest (nextFile token rest))
        else if point.offset > file.info.size then sender.fail (.network "Invalid receive offset")
        else sender.move (.running manifest (.openSource token file rest attempt point.offset))

def completionStep (manifest : TransferManifest) (status : ResumeStatus) : Sender :=
  if !status.complete then sender.fail (.network "Receiver has not verified completion")
    else finish sender manifest

def checkpointStep (manifest : TransferManifest) (status : ResumeStatus) : Stage → Sender
  | .approval => approvalStep plan sender manifest status
  | .file token file rest attempt => fileStep sender manifest token file rest attempt status
  | .completion => completionStep sender manifest status

-- inspect() counts what the transport reads of the body.
def streamStep (manifest : TransferManifest) (file : PreparedFile) (count last : Nat) : Sender × Nat :=
  let n := sender.progress + count
  if n - last < 32768 && n != manifest.request.totalSize then ({ sender with progress := n }, last)
  else
    ({ sender with
       progress := n
       events := sender.events ++
         [.transferProgress ⟨plan.transferId, some file.info.name, min n manifest.request.totalSize,
         manifest.request.totalSize⟩] }, n)

def pointStep (manifest : TransferManifest) : SendPoint → Input → Option (Sender × List Request)
  | .hash (file :: rest), .source content => some (hashSource sha256 sender manifest file rest content, [])
  | .hash [], .go => some (sender.move (.running manifest (.register 0)), [])
  | .register attempt, .go =>
      some (send client sender (.transfer manifest) (.running manifest (.registering attempt)))
  | .registering attempt, .outcome outcome =>
      match retryRequest client attempt outcome with
      | .success _ _ => some (sender.move (.running manifest (.query .approval 0)), [])
      | .retry cause =>
          some (sender.retry client plan attempt cause (.running manifest (.register (attempt + 1))), [])
      | .failure error => some (sender.fail error, [])
  | .query stage attempt, .go =>
      some (send client sender (.status plan.transferId) (.running manifest (.querying stage attempt)))
  | .querying stage attempt, .outcome outcome =>
      match retryRequest client attempt outcome with
      | .success response whole =>
          match checkpointStatus plan response whole with
          | .error e => some (sender.fail e, [])
          | .ok status => some (checkpointStep plan sender manifest status stage, [])
      | .retry cause =>
          some (sender.retry client plan attempt cause (.running manifest (.query stage (attempt + 1))), [])
      | .failure error => some (sender.fail error, [])
  | .query .approval _, .timeout | .querying .approval _, .timeout => some (sender.fail .transferTimeout, [])
  | .openSource _ _ _ _ _, .source (.error message) => some (sender.fail (.fileIo message), [])
  | .openSource token file rest attempt offset, .source (.ok content) =>
      some (send client sender (.chunk plan.transferId file.info.id offset token (content.drop offset))
        (.running manifest (.posting token file rest attempt offset (content.drop offset) 0 sender.progress)))
  | .posting token file rest attempt offset body streamed last, .stream count =>
      if count = 0 ∨ streamed + count > body.length then none
      else
        let (sender, last) := streamStep plan sender manifest file count last
        some (sender.move
          (.running manifest (.posting token file rest attempt offset body (streamed + count) last)), [])
  | .posting token file rest attempt _ _ _ _, .outcome outcome =>
      match retryChunk client attempt outcome with
      | .success _ _ => some (sender.move (.running manifest (nextFile token rest)), [])
      | .retry cause =>
          some (sender.retry client plan attempt cause
            (.running manifest (.query (.file token file rest (attempt + 1)) 0)), [])
      | .failure error => some (sender.fail error, [])
  | _, _ => none

def Sender.next (input : Input) : Option (Sender × List Request) :=
  match sender.phase, input with
  | .begin, .go => some (beginStep client plan sender, [])
  | .running manifest point, input => pointStep sha256 client plan sender manifest point input
  | _, _ => none

end SendPlan

end GoshTransfer
