import GoshTransfer.Sender

set_option autoImplicit false

namespace GoshTransfer

-- u64 without overflow checks, as in a release build.
def wrap (n : Nat) : Nat := n % 2 ^ 64

def wrappingSub (a b : Nat) : Nat := wrap (a + 2 ^ 64 - b)

inductive SendError where
  | network (message : String)
  | connectionRefused (message : String)
  | transferRejected
  | fileIo (message : String)
  | serialization (message : String)
  | invalidConfig (message : String)
  | transferNotFound (id : String)
  | transferTimeout
  | transferCancelled
deriving DecidableEq

def SendError.toString : SendError → String
  | .network message => "Network error: " ++ message
  | .connectionRefused message => "Connection refused: " ++ message
  | .transferRejected => "Transfer rejected by peer"
  | .fileIo message => "File I/O error: " ++ message
  | .serialization message => "Serialization error: " ++ message
  | .invalidConfig message => "Invalid configuration: " ++ message
  | .transferNotFound id => "Transfer not found: " ++ id
  | .transferTimeout => "Transfer timed out"
  | .transferCancelled => "Transfer cancelled"

def isTransientError : SendError → Bool
  | .network _ | .connectionRefused _ => true
  | _ => false

-- What the surroundings do in one attempt: the file cannot be opened, or it has
-- this size, these chunks of it are streamed, and send() ends so.
inductive SendEnd where
  | failed (message : String)
  | answered (code : Nat) (status text : String)

inductive SendAttempt where
  | unopened (message : String)
  | opened (fileSize : Nat) (chunks : List Nat) (ending : SendEnd)

inductive Negotiation where
  | granted
  | noToken
  | requestFailed (error : SendError)
  | approvalFailed (error : SendError)

def Negotiation.result : Negotiation → Except (TransferStatus × SendError) Unit
  | .granted => .ok ()
  | .noToken => .error (.failed, .network "No token received")
  | .requestFailed error => .error (.failed, error)
  | .approvalFailed error => .error (if error = .transferRejected then .rejected else .failed, error)

-- What a run does, in order: the k-th file is started at this value of the
-- counter, two numbers are subtracted, an event or a history record is written.
inductive SenderAct where
  | start (k counter : Nat)
  | subtract (newTotal last : Nat)
  | event (event : EngineEvent)
  | record (status : TransferStatus) (bytes : Nat) (error : Option String)
deriving DecidableEq

structure LegacySender where
  bytesSentSoFar : Nat
  trace : List SenderAct

def LegacySender.act (sender : LegacySender) (act : SenderAct) : LegacySender :=
    { sender with trace := sender.trace ++ [act] }

def LegacySender.store (sender : LegacySender) (value : Nat) : LegacySender :=
    { sender with bytesSentSoFar := value }

structure LegacySend where
  transferId : String
  files : List TransferFile
  negotiation : Negotiation
  keepsHistory : Bool

-- files.iter().map(|f| f.size).sum()
def totalTransferSize (files : List TransferFile) : Nat := files.foldl (fun n f => wrap (n + f.size)) 0

section SendFiles

variable (client : TransferClient) (call : LegacySend)

def LegacySend.progress (file : TransferFile) (bytes : Nat) : SenderAct :=
  .event (.transferProgress ⟨call.transferId, some file.name, bytes, totalTransferSize call.files⟩)

-- The closure that inspects the stream, with last_update.
def inspectChunk (file : TransferFile) (sender : LegacySender) (last len : Nat) : LegacySender × Nat :=
  let newTotal := wrap (sender.bytesSentSoFar + len)
  let counted := (sender.store newTotal).act (.subtract newTotal last)
  if wrappingSub newTotal last ≥ 32768 ∨ newTotal = totalTransferSize call.files then
    (counted.act (call.progress file newTotal), newTotal)
  else (counted, last)

def streamChunks (file : TransferFile) (chunks : List Nat) (sender : LegacySender) : LegacySender :=
  (chunks.foldl (fun state len => inspectChunk call file state.1 state.2 len) (sender, 0)).1

def uploadError (code : Nat) (status text : String) : SendError :=
  if code = 410 then .transferCancelled
  else
    let message := "Server returned error (" ++ status ++ "): " ++ text
    if isServerError code || code == 408 then .network message else .invalidConfig message

def sendFile (file : TransferFile) (attempt : SendAttempt) (sender : LegacySender) :
    LegacySender × Except SendError Unit :=
  let baseline := sender.bytesSentSoFar
  match attempt with
  | .unopened message => (sender, .error (.fileIo message))
  | .opened fileSize chunks ending =>
      match client.configError with
      | some message => (sender, .error (.invalidConfig message))
      | none =>
          let sender := streamChunks call file chunks sender
          match ending with
          | .failed message => (sender, .error (.network ("Failed to send file: " ++ message)))
          | .answered code status text =>
              if !isSuccess code then (sender, .error (uploadError code status text))
              else
                let sender := sender.store (wrap (baseline + fileSize))
                (sender.act (call.progress file sender.bytesSentSoFar), .ok ())

-- The loop over the attempts, with the number of those that are left; none is
-- the unreachable!() after it.
def retryLoop (file : TransferFile) (tries : Nat → SendAttempt) (baseline : Nat) :
    Nat → Nat → LegacySender → LegacySender × Option (Except SendError Unit)
  | 0, _, sender => (sender, none)
  | left + 1, attempt, sender =>
      match sendFile client call file (tries attempt) (sender.store baseline) with
      | (sender, .ok ()) => (sender, some (.ok ()))
      | (sender, .error error) =>
          if isTransientError error && attempt < client.maxRetries then
            retryLoop file tries baseline left (attempt + 1)
              (sender.act (.event (.transferRetry call.transferId (attempt + 1) client.maxRetries
              (.transport error.toString))))
          else (sender, some (.error error))

def sendFileWithRetry (file : TransferFile) (tries : Nat → SendAttempt) (sender : LegacySender) :
    LegacySender × Option (Except SendError Unit) :=
  retryLoop client call file tries sender.bytesSentSoFar (client.maxRetries + 1) 0 sender

def fileLoop (tries : Nat → Nat → SendAttempt) :
    Nat → List TransferFile → LegacySender → LegacySender × Option (Except SendError Unit)
  | _, [], sender => (sender, some (.ok ()))
  | k, file :: rest, sender =>
      match sendFileWithRetry client call file (tries k) (sender.act (.start k sender.bytesSentSoFar)) with
      | (sender, some (.ok ())) => fileLoop tries (k + 1) rest sender
      | (sender, result) => (sender, result)

def LegacySend.record (sender : LegacySender) (status : TransferStatus) (bytes : Nat)
    (error : Option String) : LegacySender :=
  if call.keepsHistory then sender.act (.record status bytes error) else sender

def LegacySend.fail (sender : LegacySender) (status : TransferStatus) (bytes : Nat) (error : SendError) :
    LegacySender × Option (Except SendError Unit) :=
  ((call.record sender status bytes (some error.toString)).act
    (.event (.transferFailed call.transferId error.toString)),
    some (.error error))

-- From the list of the files on, with the error for an empty one.
def sendListed (empty : SendError) (tries : Nat → Nat → SendAttempt) : LegacySender × Option
    (Except SendError Unit) :=
  let sender : LegacySender := ⟨0, []⟩
  if call.files.isEmpty then (sender, some (.error empty))
  else
    match call.negotiation.result with
    | .error (status, error) => call.fail sender status 0 error
    | .ok () =>
        match fileLoop client call tries 0 call.files sender with
        | (sender, some (.error error)) => call.fail sender .failed sender.bytesSentSoFar error
        | (sender, some (.ok ())) =>
            ((call.record sender .completed (totalTransferSize call.files) none).act
              (.event (.transferComplete call.transferId)),
              some (.ok ()))
        | (sender, none) => (sender, none)

def sendFiles (tries : Nat → Nat → SendAttempt) : LegacySender × Option (Except SendError Unit) :=
  sendListed client call (.invalidConfig "No files to send") tries

def sendDirectory (tries : Nat → Nat → SendAttempt) : LegacySender × Option (Except SendError Unit) :=
  sendListed client call (.fileIo "Directory is empty") tries

end SendFiles

end GoshTransfer
