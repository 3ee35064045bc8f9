import GoshTransfer.Authority
import GoshTransfer.Lib.Refinement

set_option autoImplicit false

namespace GoshTransfer

open InodeStore

-- The purpose of the durable store: a table of sessions on which every call
-- takes effect at once, and which outlives the process.
structure Standing where
  manifest : TransferManifest
  owner : String
  token : String
  decision : TransferDecision
  cancelled : Bool
  complete : Bool
  received : Finset String

def Standing.terminal (standing : Standing) : Bool :=
  standing.complete || standing.cancelled || standing.decision = .rejected

def Standing.receive (standing : Standing) (file : String) : Standing :=
  { standing with
    received := insert file standing.received
    complete := (insert file standing.received).card == standing.manifest.request.files.length }

-- What a call finds at the moment of its effect. A registration or a
-- status shows the session, with checkpoints that are read later.
inductive Finding where
  | granted (reply : Except EngineError String)
  | settled (reply : Except EngineError Unit)
  | foreign
  | shown (standing : Standing)
  | answered (reply : Response)

def Call.id : Call → String
  | .accept id | .reject id | .cancel _ id | .forget id | .status _ id => id
  | .register request => request.id
  | .upload request => request.transferId

abbrev Sessions := String → Option Standing

def RegisterRequest.standing (request : RegisterRequest) : Standing where
  manifest := request.manifest
  owner := owner request.peer
  token := request.token
  decision := if request.trusted then .accepted else .pending
  cancelled := false
  complete := false
  received := ∅

def mayCancel (caller : Option Peer) (standing : Standing) : Prop := ∀ peer, caller = some peer →
    standing.owner = owner peer

-- What a call may find, and the session it leaves behind.
inductive Takes (sessions : Sessions) : Call → Finding → Option Standing → Prop where
  | acceptUnknown (id : String) (absent : sessions id = none) :
      Takes sessions (.accept id) (.granted (.error (.transferNotFound id))) none
  | acceptRefused (id : String) (standing : Standing) (e : EngineError) (known : sessions id = some standing)
      (ended : standing.terminal = true) : Takes sessions (.accept id) (.granted (.error e)) (some standing)
  | accepted (id : String) (standing : Standing) (known : sessions id = some standing)
      (open_ : standing.terminal = false) :
      Takes sessions (.accept id) (.granted (.ok standing.token))
      (some { standing with decision := .accepted })
  | rejectUnknown (id : String) (absent : sessions id = none) :
      Takes sessions (.reject id) (.settled (.error (.transferNotFound id))) none
  | rejectRefused (id : String) (standing : Standing) (e : EngineError) (known : sessions id = some standing)
      (decided : standing.decision ≠ .pending) : Takes sessions (.reject id) (.settled (.error e))
      (some standing)
  | rejected (id : String) (standing : Standing) (known : sessions id = some standing)
      (undecided : standing.decision = .pending) :
      Takes sessions (.reject id) (.settled (.ok ())) (some { standing with decision := .rejected })
  | cancelRefused (caller : Option Peer) (id : String) (e : EngineError) :
      Takes sessions (.cancel caller id) (.settled (.error e)) (sessions id)
  | cancelForeign (caller : Option Peer) (id : String) (standing : Standing)
      (known : sessions id = some standing) (foreign : ¬ mayCancel caller standing) :
      Takes sessions (.cancel caller id) .foreign (some standing)
  | cancelRepeated (caller : Option Peer) (id : String) (standing : Standing)
      (known : sessions id = some standing) (allowed : mayCancel caller standing)
      (ended : standing.cancelled = true) :
      Takes sessions (.cancel caller id) (.settled (.ok ())) (some standing)
  | cancelled (caller : Option Peer) (id : String) (standing : Standing) (known : sessions id = some standing)
      (allowed : mayCancel caller standing) (running : standing.complete = false) :
      Takes sessions (.cancel caller id) (.settled (.ok ())) (some { standing with cancelled := true })
  | forgetRefused (id : String) (e : EngineError) : Takes sessions (.forget id) (.settled (.error e))
      (sessions id)
  | forgotten (id : String) (standing : Standing) (known : sessions id = some standing)
      (ended : standing.terminal = true) :
      Takes sessions (.forget id) (.settled (.ok ())) none
  | registerRefused (request : RegisterRequest) (reply : Response) (code : reply.code ≠ 200) :
      Takes sessions (.register request) (.answered reply) (sessions request.id)
  | registerKnown (request : RegisterRequest) (standing : Standing)
      (known : sessions request.id = some standing) (sameOwner : standing.owner = owner request.peer)
      (sameManifest : standing.manifest = request.manifest) :
      Takes sessions (.register request) (.shown standing) (some standing)
  | registered (request : RegisterRequest) (absent : sessions request.id = none)
      (valid : request.manifest.Valid) :
      Takes sessions (.register request) (.shown request.standing) (some request.standing)
  | statusRefused (peer : Peer) (id : String) (reply : Response) (code : reply.code ≠ 200) :
      Takes sessions (.status peer id) (.answered reply) (sessions id)
  | statusKnown (peer : Peer) (id : String) (standing : Standing) (known : sessions id = some standing)
      (owned : standing.owner = owner peer) : Takes sessions (.status peer id) (.shown standing)
      (some standing)
  | uploadRefused (request : UploadRequest) (reply : Response) (code : reply.code ≠ 200) :
      Takes sessions (.upload request) (.answered reply) (sessions request.transferId)
  | uploadRepeated (request : UploadRequest) (standing : Standing)
      (known : sessions request.transferId = some standing) (receipt : request.fileId ∈ standing.received) :
      Takes sessions (.upload request) (.answered (.plain 200)) (some standing)
  | uploaded (request : UploadRequest) (standing : Standing)
      (known : sessions request.transferId = some standing) (owned : standing.owner = owner request.peer)
      (capability : request.token = standing.token)
      (accepted : standing.decision = .accepted) (live : standing.cancelled = false)
      (declared : request.fileId ∈ standing.manifest.fileIds) (missing : request.fileId ∉ standing.received) :
      Takes sessions (.upload request) (.answered (.plain 200)) (some (standing.receive request.fileId))

-- A call with its finding, once it has taken effect.
abbrev Slot := Call × Option Finding

structure Catalogue where
  sessions : Sessions
  calls : List Slot
  running : Bool

-- Whether a call that has not answered yet may take effect in the crash that
-- ends it: the journal is written or removed before the map changes.
inductive Lands (sessions : Sessions) (id : String) : Call → Option Standing → Prop where
  | registered (request : RegisterRequest) (named : request.id = id) (absent : sessions id = none)
      (valid : request.manifest.Valid) : Lands sessions id (.register request) (some request.standing)
  | forgotten (standing : Standing) (known : sessions id = some standing) (ended : standing.terminal = true) :
      Lands sessions id (.forget id) none

inductive Catalogue.Move : Catalogue → Catalogue → Prop where
  | call (catalogue : Catalogue) (call : Call) (running : catalogue.running = true) :
      Catalogue.Move catalogue { catalogue with calls := catalogue.calls ++ [(call, none)] }
  | take (catalogue : Catalogue) (o : Nat) (call : Call) (finding : Finding) (after : Option Standing)
      (waiting : catalogue.calls[o]? = some (call, none))
      (allowed : Takes catalogue.sessions call finding after) :
      Catalogue.Move catalogue { catalogue with
        sessions := Function.update catalogue.sessions call.id after
        calls := catalogue.calls.set o (call, some finding) }
  | crash (catalogue : Catalogue) (sessions : Sessions)
      (kept : ∀ id, sessions id = catalogue.sessions id ∨
        ∃ (o : Nat) (call : Call), catalogue.calls[o]? = some (call, none) ∧
          Lands catalogue.sessions id call (sessions id)) :
      Catalogue.Move catalogue ⟨sessions, [], false⟩
  | start (catalogue : Catalogue) (stopped : catalogue.running = false) : Catalogue.Move catalogue
      { catalogue with running := true }

def Catalogue.empty : Catalogue := ⟨fun _ => none, [], false⟩

end GoshTransfer
