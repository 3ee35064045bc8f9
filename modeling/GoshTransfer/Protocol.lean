import Mathlib.Data.Finmap
import Mathlib.Algebra.GroupWithZero.Nat

set_option autoImplicit false

namespace GoshTransfer

-- Rust's HashMap with its contents only; iteration order is not observable here.
abbrev HashMap (Key Value : Type) := Finmap (fun _ : Key => Value)

inductive TransferDecision where
  | pending
  | accepted
  | rejected
  | notFound
deriving DecidableEq, Repr

inductive TransferStatus where
  | pending
  | inProgress
  | completed
  | failed
  | rejected
deriving DecidableEq, Repr

structure TransferFile where
  name : String
  size : Nat
  mimeType : Option String
  id : String
  relativePath : Option String
deriving DecidableEq, Repr

structure TransferRequest where
  transferId : String
  senderName : Option String
  files : List TransferFile
  totalSize : Nat
deriving DecidableEq, Repr

structure PendingTransfer where
  id : String
  sourceIp : String
  senderName : Option String
  files : List TransferFile
  totalSize : Nat
  receivedAt : Nat
deriving DecidableEq, Repr

-- speed_bps is a wall-clock measurement and is left out.
structure TransferProgress where
  transferId : String
  currentFile : Option String
  bytesTransferred : Nat
  totalBytes : Nat
deriving DecidableEq, Repr

-- Why a request is sent again: the status of a response, or the text of a
-- transport error.
inductive RetryCause where
  | http (code : Nat)
  | transport (message : String)
deriving DecidableEq, Repr

inductive EngineEvent where
  | transferRequest (pending : PendingTransfer)
  | transferProgress (progress : TransferProgress)
  | transferRetry (transferId : String) (attempt maxAttempts : Nat) (cause : RetryCause)
  | transferComplete (transferId : String)
  | transferFailed (transferId error : String)
deriving DecidableEq, Repr

-- One call of record_receive_history.
structure HistoryRecord where
  transfer : PendingTransfer
  status : TransferStatus
  bytesTransferred : Nat
  error : Option String
deriving DecidableEq, Repr

-- The fallible calls of the receiver. A failed persist may have replaced the
-- journal already (the rename took place, the directory sync failed), and a
-- failed write or directory creation may have been carried out in part.
inductive Fault where
  | persist (saved : Bool)
  | link
  | sync
  | remove
  | read
  | write (written : Nat)
  | openFile
  | createDir (created : Nat)
  | root
deriving DecidableEq, Repr

-- io stands for FileIo with the text of an operating system error, and http for
-- Network with the text that the peer returned this status.
inductive EngineError where
  | invalidConfig (message : String)
  | fileIo (message : String)
  | io (fault : Fault)
  | network (message : String)
  | http (code : Nat)
  | transferNotFound (id : String)
  | transferRejected
  | transferTimeout
  | transferCancelled
deriving DecidableEq, Repr

-- A peer as the handlers see it: the normalized source address and, behind the
-- authorize middleware, the verified token principal.
structure Peer where
  sourceIp : String
  principal : Option String
deriving DecidableEq, Repr

def owner (peer : Peer) : String := peer.principal.getD ("ip:" ++ peer.sourceIp)

structure FileCheckpoint where
  fileId : String
  offset : Nat
  complete : Bool
deriving DecidableEq, Repr

structure ResumeStatus where
  status : TransferDecision
  token : Option String
  cancelled : Bool
  complete : Bool
  files : List FileCheckpoint
deriving DecidableEq, Repr

inductive Body where
  | empty
  | text (message : String)
  | error (error : EngineError)
  | status (status : ResumeStatus)
deriving DecidableEq, Repr

structure Response where
  code : Nat
  body : Body
deriving DecidableEq, Repr

def Response.plain (code : Nat) : Response := ⟨code, .empty⟩

def errorResponse (error : EngineError) : Response :=
  match error with
  | .transferNotFound _ => ⟨404, .error error⟩
  | .invalidConfig _ => ⟨400, .error error⟩
  | .transferCancelled => ⟨410, .error error⟩
  | _ => ⟨500, .error error⟩

end GoshTransfer
