import GoshTransfer.Unwinding
import GoshTransfer.Territory

set_option autoImplicit false

namespace GoshTransfer

open InodeStore

-- The same phase with the session and the handle of the other side.
def UploadPhase.placed (t fd : Nat) : UploadPhase → UploadPhase
  | .lookup => .lookup
  | .lock _ => .lock t
  | .entry _ => .entry t
  | .check _ file => .check t file
  | .openPart _ file baseline current => .openPart t file baseline current
  | .receive _ x chunks => .receive t { x with fd := fd } chunks
  | .interrupted _ => .interrupted t
  | .syncAll _ x => .syncAll t { x with fd := fd }
  | .hash _ x => .hash t { x with fd := fd }
  | .recheck _ x => .recheck t { x with fd := fd }
  | .prepare _ x => .prepare t { x with fd := fd }
  | .choose _ x index => .choose t { x with fd := fd } index
  | .link _ x index target => .link t { x with fd := fd } index target
  | .verify _ x index target => .verify t { x with fd := fd } index target
  | .syncParent _ x target => .syncParent t { x with fd := fd } target
  | .commit _ x target => .commit t { x with fd := fd } target
  | .finish _ x => .finish t { x with fd := fd }
  | .discard _ x => .discard t { x with fd := fd }
  | .announce _ x => .announce t { x with fd := fd }
  | .leave _ reply => .leave t reply
  | .done reply => .done reply

-- The handle that is still written to.
def UploadPhase.fd : UploadPhase → Option Nat
  | .receive _ x _ => some x.fd
  | _ => none

inductive UploadTwin (caller : String) (request : UploadRequest) (pair : Nat → Nat → Prop)
    (left right : Store) :
    UploadPhase → UploadPhase → Prop where
  | lookup : UploadTwin caller request pair left right .lookup .lookup
  | lock (s t : Nat) (bond : Bound request.transferId s t left right) :
      UploadTwin caller request pair left right (.lock s) (.lock t)
  | entry (s t : Nat) (bond : Bound request.transferId s t left right) :
      UploadTwin caller request pair left right (.entry s) (.entry t)
  | working (phase : UploadPhase) (s t fd : Nat) (works : phase.works = some s)
      (bond : Bound request.transferId s t left right) (own : left.ownerOf request.transferId = some caller)
      (paired : ∀ i, phase.fd = some i → pair i fd) :
      UploadTwin caller request pair left right phase (phase.placed t fd)
  | leave (s t : Nat) (reply : Response) (bond : Bound request.transferId s t left right) :
      UploadTwin caller request pair left right (.leave s reply) (.leave t reply)
  | done (reply : Response) : UploadTwin caller request pair left right (.done reply) (.done reply)

def UploadOnward (caller : String) (request : UploadRequest) (pair : Nat → Nat → Prop) (left right : Store)
    (act : Act) :
    UploadPhase → UploadPhase → Prop :=
  UploadTwin caller request (act.pairs pair left right) left right

theorem progress_log_empty (s t fd : Nat) (request : UploadRequest) (record : Record) (x : Incoming) :
    (progressLog t request record { x with fd := fd }).isEmpty =
    (progressLog s request record x).isEmpty := by
  unfold progressLog
  dsimp only
  split <;> rfl

theorem safe_parent_alike (visible : Path → Prop) (pair : Nat → Nat → Prop) (left right : ReceiverDisk)
    (same : Matching visible pair left right) (parent : Path)
    (seen : ∀ dir ∈ parentDirs parent, visible dir) :
    safeParent left parent = safeParent right parent := by
  unfold safeParent
  rw [Bool.eq_iff_iff, List.all_eq_true, List.all_eq_true]
  refine forall₂_congr fun dir member => ?_
  have named := same.names dir (seen dir member)
  generalize left.node dir = a at named
  generalize right.node dir = b at named
  cases named <;> rfl

section Upload

variable (sha256 : Bytes → String) (caller : String) (pair : Nat → Nat → Prop) (left right : State)
    (baseLeft : Base left)
  (baseRight : Base right) (alike : StoreAlike caller pair left.store right.store) (request : UploadRequest)
  (mine : owner request.peer = caller) (fault : Option Fault)

section Entry

include baseLeft baseRight alike mine

theorem entry_lockstep (s t : Nat) (bond : Bound request.transferId s t left.store right.store) :
    Lockstep pair left.store right.store (UploadOnward caller request pair left.store right.store)
      ((UploadPhase.entry s).next sha256 request left.store fault)
      ((UploadPhase.entry t).next sha256 request right.store fault) := by
  obtain ⟨a, b, here, there, twins, named, owned, owned', held⟩ :=
    bound_sessions caller pair left right baseLeft baseRight alike request.transferId s t bond
  refine ⟨s, t, bound_together left right baseLeft baseRight request.transferId s t bond, ?_⟩
  have leaves : ∀ reply, Twin pair s t (UploadOnward caller request pair left.store right.store)
      (plain fault .tau [] (.leave s reply)) (plain fault .tau [] (.leave t reply)) := fun reply =>
    twin_plain pair s t _ fault _ _ _ _ _ _ .tau (.leave s t reply bond)
  simp only [UploadPhase.next, withSession, here, there, Option.bind_some, entryStep, mine]
  by_cases own : a.owner = caller
  · rw [own_session caller a b twins own]
    refine twin_ite pair s t _ _ _ _ _ _ (fun _ => leaves _) (fun _ => ?_)
    refine twin_ite pair s t _ _ _ _ _ _ (fun _ => leaves _) (fun _ => ?_)
    refine twin_ite pair s t _ _ _ _ _ _ (fun _ => leaves _) (fun _ => ?_)
    dsimp only
    cases a.record.manifest.request.files.find? (·.id == request.fileId) with
    | none => exact leaves _
    | some file =>
        refine twin_ite pair s t _ _ _ _ _ _ (fun _ => leaves _) (fun _ => ?_)
        exact twin_plain pair s t _ fault _ _ _ _ _ _ .tau
          (.working (.check s file) s t 0 rfl bond (own ▸ held) (fun _ none => by cases none))
  -- A foreign session is refused before anything of it is read.
  · rw [if_pos fun equal => own (owned.symm.trans equal), if_pos fun equal => own (owned'.symm.trans equal)]
    exact leaves _

end Entry

section Working

variable (s t fd : Nat) (bond : Bound request.transferId s t left.store right.store)
  (own : left.store.ownerOf request.transferId = some caller) (a : Session) (lock : Option Nat)
  (here : left.store.heap[s]? = some a) (there : right.store.heap[t]? = some { a with lock := lock })
    (named : a.id = request.transferId)

include bond in
theorem twin_leave (act act' : Act) (acts : ActAlike pair s t act act') (log log' : List Entry)
    (reply : Response) :
    Twin pair s t (UploadOnward caller request pair left.store right.store) (some (act, log, .leave s reply))
      (some (act', log', .leave t reply)) :=
  .some ⟨acts, .leave s t reply bond⟩

include bond own in
theorem onward_working (act : Act) (phase : UploadPhase) (works : phase.works = some s)
    (paired : ∀ i, phase.fd = some i → act.pairs pair left.store right.store i fd) :
    UploadOnward caller request pair left.store right.store act phase (phase.placed t fd) :=
  .working phase s t fd works bond own paired

include baseLeft own here named in
theorem working_part_seen (file : String) : ¬ left.store.hides caller (partPath a.id file) := by
  refine part_seen caller left baseLeft a.id file (session_id_length left baseLeft s a here) ?_
  intro who owned
  rw [named, own] at owned
  exact (Option.some.inj owned).symm

include baseLeft alike bond own here there named in
theorem check_twin (file : TransferFile) : Twin pair s t
    (UploadOnward caller request pair left.store right.store)
    ((UploadPhase.check s file).next sha256 request left.store fault)
    (((UploadPhase.check s file).placed t fd).next sha256 request right.store fault) := by
  simp only [UploadPhase.placed, UploadPhase.next, withSession, here, there, Option.bind_some, checkStep]
  refine twin_ite pair s t _ _ _ _ _ _ (fun _ => ?_) (fun _ => .none)
  rw [own_checkpoints caller pair left right baseLeft alike request.transferId s a here named own a.record
    fault]
  cases checkpoints right.store.disk a.id a.record fault with
  | error e => exact twin_leave caller pair left right request s t bond _ _ .tau _ _ _
  | ok points =>
      dsimp only
      cases points.find? (·.fileId == file.id) with
      | none => exact .none
      | some point =>
          refine twin_ite pair s t _ _ _ _ _ _ (fun _ => ?_) (fun _ => ?_)
          · exact twin_leave caller pair left right request s t bond _ _ .tau _ _ _
          · exact .some ⟨.tau, onward_working caller pair left right request s t fd bond own .tau
              (.openPart s file (offsetSum points) point.offset) rfl (fun _ none => by cases none)⟩

include baseLeft alike bond own here there named in
theorem open_twin (file : TransferFile) (baseline current : Nat) : Twin pair s t
    (UploadOnward caller request pair left.store right.store)
    ((UploadPhase.openPart s file baseline current).next sha256 request left.store fault)
      (((UploadPhase.openPart s file baseline current).placed t fd).next sha256 request right.store
        fault) := by
  simp only [UploadPhase.placed, UploadPhase.next, withSession, here, there, Option.bind_some, openStep]
  have leaves := twin_leave caller pair left right request s t bond
  have opens := fun (act : Act) (i j : Nat) (paired : act.pairs pair left.store right.store i j) =>
    onward_working caller pair left right request s t j bond own act
      (.receive s (opened file i baseline current) request.chunks) rfl
      (fun _ same => Option.some.inj same ▸ paired)
  cases fault with
  | none =>
      dsimp only
      have node := alike.disk.names _
        (working_part_seen caller left baseLeft request s own a here named file.id)
      generalize left.store.disk.node (partPath a.id file.id) = found at node
      generalize right.store.disk.node (partPath a.id file.id) = found' at node
      cases node with
      | absent => exact .some ⟨.openPart _, opens (.openPart _) _ _ (.inr ⟨rfl, rfl⟩)⟩
      | file i j paired => exact .some ⟨.tau, opens .tau i j paired⟩
      | _ => exact leaves _ _ .tau _ _ _
  | some fault =>
      cases fault with
      | openFile => exact leaves _ _ .tau _ _ _
      | _ => exact .none

include bond own in
theorem write_twin (x : Incoming) (chunk : Bytes) (rest : List Bytes) (paired : pair x.fd fd) :
    Twin pair s t (UploadOnward caller request pair left.store right.store)
    (writeStep request fault s a x chunk rest)
      (writeStep request fault t { a with lock := lock } { x with fd := fd } chunk rest) := by
  have goes := onward_working caller pair left right request s t fd bond own
  have quiet := progress_log_empty s t fd request a.record { x with offset := x.offset + chunk.length }
  simp only [writeStep]
  cases fault with
  | none =>
      dsimp only at quiet ⊢
      rw [quiet]
      exact .some ⟨.append x.fd fd chunk paired, goes _ (.receive s (grown s request a.record x chunk) rest)
        rfl (fun _ same => Option.some.inj same ▸ paired)⟩
  | some fault =>
      cases fault with
      | write written =>
          refine twin_ite pair s t _ _ _ _ _ _ (fun _ => .none) (fun _ => ?_)
          refine twin_ite pair s t _ _ _ _ _ _ (fun _ => ?_)
            (fun _ => .some ⟨.append x.fd fd _ paired, .leave s t _ bond⟩)
          dsimp only at quiet ⊢
          rw [quiet]
          exact .some ⟨.append x.fd fd _ paired,
            goes _ (.receive s (spoiled s request a.record x chunk written) rest) rfl
            (fun _ same => Option.some.inj same ▸ paired)⟩
      | _ => exact .none

include bond own here there in
theorem receive_twin (x : Incoming) (chunks : List Bytes) (paired : pair x.fd fd) :
    Twin pair s t (UploadOnward caller request pair left.store right.store)
      ((UploadPhase.receive s x chunks).next sha256 request left.store fault)
      (((UploadPhase.receive s x chunks).placed t fd).next sha256 request right.store fault) := by
  simp only [UploadPhase.placed, UploadPhase.next, withSession, here, there, Option.bind_some, receiveStep]
  have leaves : ∀ (act : Act) (reply : Response),
      UploadOnward caller request pair left.store right.store act (.leave s reply) (.leave t reply) :=
      fun _ reply => .leave s t reply bond
  have goes := onward_working caller pair left right request s t fd bond own
  refine twin_ite pair s t _ _ _ _ _ _ (fun _ => ?_) (fun _ => ?_)
  · exact twin_remove pair s t _ _ fault _ _ _ _ (leaves _ _) (leaves _ _)
  · cases chunks with
    | nil =>
        dsimp only
        by_cases whole : request.ending = .finished
        · rw [if_pos whole, if_pos whole]
          exact twin_plain pair s t _ fault _ _ _ _ _ _ .tau
            (goes .tau (.syncAll s x) rfl (fun _ none => by cases none))
        · rw [if_neg whole, if_neg whole]
          exact twin_plain pair s t _ fault _ _ _ _ _ _ .tau
            (goes .tau (.interrupted s) rfl (fun _ none => by cases none))
    | cons chunk rest =>
        dsimp only
        refine twin_ite pair s t _ _ _ _ _ _ (fun _ => ?_) (fun _ => ?_)
        · exact twin_remove pair s t _ _ fault _ _ _ _ (leaves _ _) (leaves _ _)
        · have writes :=
            write_twin caller pair left right request fault s t fd bond own a lock x chunk rest paired
          cases pending : x.lastWriteErr with
          | none =>
              rw [pending] at writes
              exact writes
          | some written =>
              rw [pending] at writes
              cases chunk with
              | nil => exact writes
              | cons byte bytes => exact twin_plain pair s t _ fault _ _ _ _ _ _ .tau (leaves _ _)

include baseLeft alike bond own here there named in
theorem hash_twin (x : Incoming) : Twin pair s t (UploadOnward caller request pair left.store right.store)
    ((UploadPhase.hash s x).next sha256 request left.store fault)
    (((UploadPhase.hash s x).placed t fd).next sha256 request right.store fault) := by
  simp only [UploadPhase.placed, UploadPhase.next, withSession, here, there, Option.bind_some, hashStep]
  have leaves : ∀ (act : Act) (reply : Response),
      UploadOnward caller request pair left.store right.store act (.leave s reply) (.leave t reply) :=
      fun _ reply => .leave s t reply bond
  refine twin_ite pair s t _ _ _ _ _ _ (fun _ => .some ⟨.tau, leaves _ _⟩) (fun _ => ?_)
  rw [matching_read _ pair _ _ alike.disk _
    (working_part_seen caller left baseLeft request s own a here named x.file.id)]
  cases right.store.disk.read (partPath a.id x.file.id) with
  | none => exact twin_plain pair s t _ fault _ _ _ _ _ _ .tau (leaves _ _)
  | some bytes =>
      refine twin_ite pair s t _ _ _ _ _ _ (fun _ => ?_) (fun _ => ?_)
      · exact twin_plain pair s t _ fault _ _ _ _ _ _ .tau
          (onward_working caller pair left right request s t fd bond own .tau (.recheck s x) rfl
          (fun _ none => by cases none))
      · exact twin_remove pair s t _ _ fault _ _ _ _ (leaves _ _) (leaves _ _)

include alike bond own in
theorem prepare_twin (x : Incoming) : Twin pair s t (UploadOnward caller request pair left.store right.store)
    ((UploadPhase.prepare s x).next sha256 request left.store fault)
    (((UploadPhase.prepare s x).placed t fd).next sha256 request right.store fault) := by
  simp only [UploadPhase.placed, UploadPhase.next, prepareStep]
  have leaves : ∀ (act : Act) (reply : Response),
      UploadOnward caller request pair left.store right.store act (.leave s reply) (.leave t reply) :=
      fun _ reply => .leave s t reply bond
  refine twin_ite pair s t _ _ _ _ _ _ (fun _ => ?_) (fun allowed => ?_)
  · exact twin_plain pair s t _ fault _ _ _ _ _ _ .tau (leaves _ _)
  · have publishable : Publishable x.file := Bool.eq_false_iff.mpr allowed
    have seen : ∀ parent, parent <+: (receiveTarget x.file).1 →
        safeParent left.store.disk parent = safeParent right.store.disk parent := fun parent start =>
      safe_parent_alike _ pair _ _ alike.disk parent fun dir member =>
        outside_seen caller left.store dir (parent_dirs_outside x.file parent publishable start dir member)
    cases fault with
    | none =>
        dsimp only
        rw [seen _ List.prefix_rfl]
        refine twin_ite pair s t _ _ _ _ _ _ (fun _ => ?_) (fun _ => .some ⟨.tau, leaves _ _⟩)
        exact .some ⟨.mkdirs _, onward_working caller pair left right request s t fd bond own (.mkdirs _)
          (.choose s x 0) rfl (fun _ none => by cases none)⟩
    | some fault =>
        cases fault with
        | createDir created =>
            dsimp only
            rw [seen _ (List.take_prefix created _)]
            exact twin_ite pair s t _ _ _ _ _ _ (fun _ => .some ⟨.mkdirs _, leaves _ _⟩) (fun _ => .none)
        | _ => exact .none

include baseLeft alike bond own here there named in
theorem link_twin (x : Incoming) (index : Nat) (target : Path) (outside : Outside target) :
    Twin pair s t (UploadOnward caller request pair left.store right.store)
      ((UploadPhase.link s x index target).next sha256 request left.store fault)
      (((UploadPhase.link s x index target).placed t fd).next sha256 request right.store fault) := by
  simp only [UploadPhase.placed, UploadPhase.next, withSession, here, there, Option.bind_some, linkStep]
  have leaves := fun reply => twin_leave caller pair left right request s t bond .tau .tau .tau [] [] reply
  have goes := fun act => onward_working caller pair left right request s t fd bond own act
  cases fault with
  | none =>
      dsimp only
      have node := alike.disk.names _
        (working_part_seen caller left baseLeft request s own a here named x.file.id)
      have taken := alike.disk.names target (outside_seen caller left.store target outside)
      generalize left.store.disk.node (partPath a.id x.file.id) = found at node
      generalize right.store.disk.node (partPath a.id x.file.id) = found' at node
      cases node with
      | file i j paired =>
          generalize left.store.disk.node target = entry at taken
          generalize right.store.disk.node target = entry' at taken
          cases taken with
          | absent => exact .some ⟨.link i j target paired, goes _ (.syncParent s x target) rfl
              (fun _ none => by cases none)⟩
          | _ => exact .some ⟨.tau, goes _ (.verify s x index target) rfl (fun _ none => by cases none)⟩
      | _ => exact leaves _
  | some fault =>
      cases fault with
      | link => exact leaves _
      | _ => exact .none

include alike bond own here there in
theorem verify_twin (x : Incoming) (index : Nat) (target : Path) (outside : Outside target) :
    Twin pair s t (UploadOnward caller request pair left.store right.store)
      ((UploadPhase.verify s x index target).next sha256 request left.store fault)
      (((UploadPhase.verify s x index target).placed t fd).next sha256 request right.store fault) := by
  simp only [UploadPhase.placed, UploadPhase.next, withSession, here, there, Option.bind_some, verifyStep]
  have goes := fun act => onward_working caller pair left right request s t fd bond own act
  rw [matching_read _ pair _ _ alike.disk _ (outside_seen caller left.store target outside)]
  refine twin_ite pair s t _ _ _ _ _ _ (fun _ => ?_) (fun _ => ?_)
  · exact .some ⟨.tau, goes _ (.syncParent s x target) rfl (fun _ none => by cases none)⟩
  · refine twin_ite pair s t _ _ _ _ _ _ (fun _ => ?_) (fun _ => .none)
    exact .some ⟨.assign _, goes _ (.choose s x (index + 1)) rfl (fun _ none => by cases none)⟩

end Working

section Whole

include baseLeft baseRight alike

theorem working_lockstep (phase : UploadPhase) (s t fd : Nat) (works : phase.works = some s)
    (bond : Bound request.transferId s t left.store right.store)
    (own : left.store.ownerOf request.transferId = some caller) (paired : ∀ i, phase.fd = some i → pair i fd)
    (facts : ∀ session, left.store.heap[s]? = some session → phase.Facts request session.record) :
    Lockstep pair left.store right.store (UploadOnward caller request pair left.store right.store)
      (phase.next sha256 request left.store fault)
      ((phase.placed t fd).next sha256 request right.store fault) := by
  obtain ⟨a, lock, here, there, named, _⟩ :=
    own_bound caller pair left right baseLeft baseRight alike request.transferId s t bond own
  refine ⟨s, t, bound_together left right baseLeft baseRight request.transferId s t bond, ?_⟩
  have leaves : ∀ (act : Act) (reply : Response),
      UploadOnward caller request pair left.store right.store act (.leave s reply) (.leave t reply) :=
      fun _ reply => .leave s t reply bond
  have goes := fun act => onward_working caller pair left right request s t fd bond own act
  have known := facts a here
  have planned : ∀ x : Incoming, ∀ target, a.record.targets.lookup x.file.id = some target → Outside target :=
    fun x target chosen => (baseLeft.sound s a here).record.targets x.file.id target chosen
  cases phase with
  | check s' file =>
      obtain rfl := Option.some.inj works
      exact check_twin sha256 caller pair left right baseLeft alike request fault _ t fd bond own a lock
        here there named file
  | openPart s' file baseline current =>
      obtain rfl := Option.some.inj works
      exact open_twin sha256 caller pair left right baseLeft alike request fault _ t fd bond own a lock here
        there named file baseline current
  | receive s' x chunks =>
      obtain rfl := Option.some.inj works
      exact receive_twin sha256 caller pair left right request fault _ t fd bond own a lock here there x
        chunks (paired x.fd rfl)
  | interrupted s' =>
      obtain rfl := Option.some.inj works
      cases fault with
      | none => exact .some ⟨.tau, leaves _ _⟩
      | some fault =>
          cases fault with
          | sync => exact .some ⟨.tau, leaves _ _⟩
          | _ => exact .none
  | syncAll s' x =>
      obtain rfl := Option.some.inj works
      cases fault with
      | none =>
          refine twin_ite pair _ t _ _ _ _ _ _ (fun _ => .some ⟨.tau, leaves _ _⟩) (fun _ => ?_)
          exact .some ⟨.tau, goes _ (.hash _ x) rfl (fun _ none => by cases none)⟩
      | some fault =>
          cases fault with
          | sync => exact .some ⟨.tau, leaves _ _⟩
          | _ => exact .none
  | hash s' x =>
      obtain rfl := Option.some.inj works
      exact hash_twin sha256 caller pair left right baseLeft alike request fault _ t fd bond own a lock here
        there named x
  | recheck s' x =>
      obtain rfl := Option.some.inj works
      simp only [UploadPhase.placed, UploadPhase.next, withSession, here, there, Option.bind_some,
        recheckStep]
      refine twin_ite pair _ t _ _ _ _ _ _ (fun _ => ?_) (fun _ => ?_)
      · exact twin_remove pair _ t _ _ fault _ _ _ _ (leaves _ _) (leaves _ _)
      · exact twin_plain pair _ t _ fault _ _ _ _ _ _ .tau
          (goes _ (.prepare _ x) rfl (fun _ none => by cases none))
  | prepare s' x =>
      obtain rfl := Option.some.inj works
      exact prepare_twin sha256 caller pair left right alike request fault _ t fd bond own x
  | choose s' x index =>
      obtain rfl := Option.some.inj works
      simp only [UploadPhase.placed, UploadPhase.next, withSession, here, there, Option.bind_some, chooseStep]
      refine twin_ite pair _ t _ _ _ _ _ _ (fun _ => ?_) (fun _ => ?_)
      · exact twin_plain pair _ t _ fault _ _ _ _ _ _ .tau (leaves _ _)
      · exact twin_persist pair _ t _ _ fault _ _ _ _
          (goes _ (.link _ x index _) rfl (fun _ none => by cases none)) (fun _ _ => leaves _ _)
  | link s' x index target =>
      obtain rfl := Option.some.inj works
      exact link_twin sha256 caller pair left right baseLeft alike request fault _ t fd bond own a lock here
        there named x index target (planned x target known.2.2.2)
  | verify s' x index target =>
      obtain rfl := Option.some.inj works
      exact verify_twin sha256 caller pair left right alike request fault _ t fd bond own a lock here there
        x index target (planned x target known.2.2.2)
  | syncParent s' x target =>
      obtain rfl := Option.some.inj works
      cases fault with
      | none => exact .some ⟨.tau, goes _ (.commit _ x target) rfl (fun _ none => by cases none)⟩
      | some fault =>
          cases fault with
          | sync => exact .some ⟨.tau, leaves _ _⟩
          | _ => exact .none
  | commit s' x target =>
      obtain rfl := Option.some.inj works
      simp only [UploadPhase.placed, UploadPhase.next, withSession, here, there, Option.bind_some, commitStep]
      exact twin_persist pair _ t _ _ fault _ _ _ _ (goes _ (.finish _ x) rfl (fun _ none => by cases none))
        (fun _ _ => leaves _ _)
  | finish s' x =>
      obtain rfl := Option.some.inj works
      exact twin_plain pair _ t _ fault _ _ _ _ _ _ .finish
        (goes _ (.discard _ x) rfl (fun _ none => by cases none))
  | discard s' x =>
      obtain rfl := Option.some.inj works
      simp only [UploadPhase.placed, UploadPhase.next, withSession, here, there, Option.bind_some]
      exact twin_remove pair _ t _ _ fault _ _ _ _ (goes _ (.announce _ x) rfl (fun _ none => by cases none))
        (goes _ (.announce _ x) rfl (fun _ none => by cases none))
  | announce s' x =>
      obtain rfl := Option.some.inj works
      simp only [UploadPhase.placed, UploadPhase.next, withSession, here, there, Option.bind_some]
      exact twin_plain pair _ t _ fault _ _ _ _ _ _ .tau (leaves _ _)
  | lookup | lock _ | entry _ | leave _ _ | done _ => cases works

theorem upload_lockstep (mine : owner request.peer = caller) (phase phase' : UploadPhase)
    (matched : UploadTwin caller request pair left.store right.store phase phase')
    (facts : ∀ s session, phase.holds = some s → left.store.heap[s]? = some session → phase.Facts request session.record) :
    Lockstep pair left.store right.store (UploadOnward caller request pair left.store right.store)
      (phase.next sha256 request left.store fault) (phase'.next sha256 request right.store fault) := by
  cases matched with
  | lookup =>
      refine ⟨_, _, unbound_together caller pair _ _ alike, ?_⟩
      exact twin_lookup pair _ _ _ caller _ _ alike request.transferId fault _ _ _ _ (fun s t bond => .lock s t bond) (fun _ => .done _)
  | lock s t bond =>
      obtain ⟨a, b, here, there, twins, _⟩ := bound_sessions caller pair left right baseLeft baseRight alike request.transferId s t bond
      refine ⟨s, t, bound_together left right baseLeft baseRight request.transferId s t bond, ?_⟩
      exact twin_lock pair s t _ _ _ a b here there twins.free fault _ _ (.entry s t bond)
  | entry s t bond => exact entry_lockstep sha256 caller pair left right baseLeft baseRight alike request mine fault s t bond
  | working _ s t fd works bond own paired =>
      have held : phase.holds = some s := by cases phase <;> first | exact works | cases works
      exact working_lockstep sha256 caller pair left right baseLeft baseRight alike request fault phase s t fd works bond own paired
        (fun session here => facts s session held here)
  | leave s t reply bond =>
      refine ⟨s, t, bound_together left right baseLeft baseRight request.transferId s t bond, ?_⟩
      exact twin_plain pair s t _ fault _ _ _ _ _ _ .release (.done reply)
  | done reply => exact ⟨_, _, unbound_together caller pair _ _ alike, .none⟩

end Whole

end Upload

end GoshTransfer
