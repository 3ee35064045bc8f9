import GoshTransfer.Decisions

set_option autoImplicit false

namespace GoshTransfer

open InodeStore

-- legacy and trusted are the answers of the two tests that lie outside the
-- store: the id is a pending version 1 transfer, and the source address matches
-- trusted_hosts. The token and the time are drawn by the handler.
structure RegisterRequest where
  peer : Peer
  manifest : TransferManifest
  legacy : Bool
  trusted : Bool
  token : String
  now : Nat

def RegisterRequest.id (request : RegisterRequest) : String := request.manifest.request.transferId

def RegisterRequest.record (request : RegisterRequest) : Record where
  manifest := request.manifest
  pending := {
    id := request.id
    sourceIp := request.peer.sourceIp
    senderName := request.manifest.request.senderName
    files := request.manifest.request.files
    totalSize := request.manifest.request.totalSize
    receivedAt := request.now }
  owner := owner request.peer
  token := request.token
  decision := if request.trusted then .accepted else .pending
  cancelled := false
  complete := false
  published := ∅
  targets := ∅

inductive RegisterPhase where
  | validate
  | enroll
  | lookup
  | lock (s : Nat)
  | compare (s : Nat)
  | create
  | insert
  | respond
  | leave (s : Nat) (reply : Response)
  | retire (reply : Response)
  | done (reply : Response)

def sessionLimit : Nat := 1024

def RegisterPhase.next (request : RegisterRequest) (store : Store) (fault : Option Fault) :
    RegisterPhase → Option (Move RegisterPhase)
  | .validate =>
      match request.manifest.validate with
      | .error e => plain fault .tau [] (.done (errorResponse e))
      | .ok _ => plain fault .tau [] .enroll
  | .enroll => enrollStep store fault .lookup
  | .lookup =>
      if request.legacy then plain fault .tau [] (.retire ⟨409, .text "ID belongs to a legacy session"⟩)
      else lookupStep store request.id fault .lock .create
  | .lock s => lockStep store s fault (.compare s)
  | .compare s =>
      (store.heap[s]?).bind fun session =>
        if session.record.owner ≠ owner request.peer ∨ session.record.manifest ≠ request.manifest then
          plain fault .tau [] (.leave s ⟨409, .text "Manifest conflicts with an existing session"⟩)
        else if fault = none ∨ fault = some .read then
          some (.tau, [], .leave s (snapshotResponse (snapshot store.disk session.id session.record fault)))
        else none
  | .create =>
      if store.sessions.keys.length ≥ sessionLimit then
        plain fault .tau [] (.retire ⟨503, .text
          "Durable session limit reached; remove completed sessions through forget_received_transfer"⟩)
      else
        match fault with
        | none => some (.journal request.record true, [], .insert)
        | some (.persist saved) =>
            some (.journal request.record saved, [], .retire (errorResponse (.io (.persist saved))))
        | some .root => some (.tau, [], .retire (errorResponse (.io .root)))
        | some _ => none
  | .insert =>
      plain fault (.insert request.record)
        (if request.trusted then []
        else [.event store.heap.length (.transferRequest request.record.pending)]) .respond
  | .respond =>
      if fault = none ∨ fault = some .read then
        some (.tau, [], .retire (snapshotResponse (snapshot store.disk request.id request.record fault)))
      else none
  | .leave s reply => plain fault (.release s) [] (.retire reply)
  | .retire reply => plain fault .retire [] (.done reply)
  | .done _ => none

inductive StatusPhase where
  | lookup
  | lock (s : Nat)
  | answer (s : Nat)
  | leave (s : Nat) (reply : Response)
  | done (reply : Response)

def StatusPhase.next (peer : Peer) (id : String) (store : Store) (fault : Option Fault) :
    StatusPhase → Option (Move StatusPhase)
  | .lookup => lookupStep store id fault .lock (.done (errorResponse (.transferNotFound id)))
  | .lock s => lockStep store s fault (.answer s)
  | .answer s =>
      (store.heap[s]?).bind fun session =>
        if session.record.owner ≠ owner peer then plain fault .tau [] (.leave s (.plain 404))
        else if fault = none ∨ fault = some .read then
          some (.tau, [], .leave s (snapshotResponse (snapshot store.disk session.id session.record fault)))
        else none
  | .leave s reply => plain fault (.release s) [] (.done reply)
  | .done _ => none

end GoshTransfer
