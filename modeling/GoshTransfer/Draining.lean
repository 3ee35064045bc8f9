import GoshTransfer.Deadlock

set_option autoImplicit false

namespace GoshTransfer

open InodeStore

-- The most steps an operation takes from a phase on. A manifest has at most
-- 10000 files and a publication at most 1000 rounds of three steps.
def AcceptPhase.remaining : AcceptPhase → Nat
  | .lookup => 4
  | .lock _ => 3
  | .decide _ => 2
  | .leave _ _ => 1
  | .done _ => 0

def RejectPhase.remaining : RejectPhase → Nat
  | .lookup => 5
  | .lock _ => 4
  | .decide _ => 3
  | .announce _ => 2
  | .leave _ _ => 1
  | .done _ => 0

def fileLimit : Nat := 10000

def CancelPhase.remaining : CancelPhase → Nat
  | .authorize => fileLimit + 8
  | .lookup => fileLimit + 7
  | .finished _ => fileLimit + 6
  | .trip _ => fileLimit + 5
  | .lock _ => fileLimit + 4
  | .decide _ => fileLimit + 3
  | .discard _ files _ => files.length + 2
  | .leave _ _ => 1
  | .done _ => 0
  | .foreign => 0

def ForgetPhase.remaining : ForgetPhase → Nat
  | .enroll => fileLimit + 8
  | .lookup => fileLimit + 7
  | .lock _ => fileLimit + 6
  | .check _ => fileLimit + 5
  | .discard _ files => files.length + 4
  | .evict _ => 3
  | .leave _ _ => 2
  | .retire _ => 1
  | .done _ => 0

def RegisterPhase.remaining : RegisterPhase → Nat
  | .validate => 7
  | .enroll => 6
  | .lookup => 5
  | .lock _ => 4
  | .compare _ => 3
  | .create => 4
  | .insert => 3
  | .respond => 2
  | .leave _ _ => 2
  | .retire _ => 1
  | .done _ => 0

def StatusPhase.remaining : StatusPhase → Nat
  | .lookup => 4
  | .lock _ => 3
  | .answer _ => 2
  | .leave _ _ => 1
  | .done _ => 0

def UploadPhase.remaining (request : UploadRequest) : UploadPhase → Nat
  | .lookup => request.chunks.length + 3020
  | .lock _ => request.chunks.length + 3019
  | .entry _ => request.chunks.length + 3018
  | .check _ _ => request.chunks.length + 3017
  | .openPart _ _ _ _ => request.chunks.length + 3016
  | .receive _ _ chunks => chunks.length + 3015
  | .interrupted _ => 2
  | .syncAll _ _ => 3014
  | .hash _ _ => 3013
  | .recheck _ _ => 3012
  | .prepare _ _ => 3011
  | .choose _ _ index => 3 * (publishLimit + 1 - index) + 7
  | .link _ _ index _ => 3 * (publishLimit - index) + 9
  | .verify _ _ index _ => 3 * (publishLimit - index) + 8
  | .syncParent _ _ _ => 6
  | .commit _ _ _ => 5
  | .finish _ _ => 4
  | .discard _ _ => 3
  | .announce _ _ => 2
  | .leave _ _ => 1
  | .done _ => 0

def Op.remaining : Op → Nat
  | .accept _ phase => phase.remaining
  | .reject _ phase => phase.remaining
  | .cancel _ _ phase => phase.remaining
  | .forget _ phase => phase.remaining
  | .register _ phase => phase.remaining
  | .status _ _ phase => phase.remaining
  | .upload request phase => phase.remaining request

def State.remaining (state : State) : Nat := (state.ops.map Op.remaining).sum

-- A call brings the steps its operation may take, and an advance is one of them.
def Label.work : Label → Nat
  | .call made => made.op.remaining
  | _ => 0

def Label.cost : Label → Nat
  | .advance _ _ => 1
  | _ => 0

section Lowers

variable (sha256 : Bytes → String) (store : Store) (fault : Option Fault) (act : Act) (log : List Entry)

theorem upload_lowers (request : UploadRequest) (phase next : UploadPhase)
    (moved : UploadMove sha256 request store fault phase act log next) :
    next.remaining request < phase.remaining request := by
  cases moved with
  | refuse s phase reply held fallible code =>
      cases phase <;> simp_all [UploadPhase.remaining, UploadPhase.fallible]
  | _ =>
      simp only [UploadPhase.remaining, List.length_cons, publishLimit] at *
      omega

theorem moved_lowers (op op' : Op)
    (bounded : ∀ (s : Nat) (session : Session), store.heap[s]? = some session →
      session.record.manifest.fileIds.length ≤ fileLimit)
    (moved : OpMove sha256 store fault op act log op') : op'.remaining < op.remaining := by
  cases moved with
  | accept id phase next _ _ moved => cases moved <;> simp [Op.remaining, AcceptPhase.remaining]
  | reject id phase next _ _ moved => cases moved <;> simp [Op.remaining, RejectPhase.remaining]
  | cancel caller id phase next _ _ moved =>
      cases moved with
      | unknown phase early _ => rcases early with rfl | rfl <;> simp [Op.remaining, CancelPhase.remaining]
      | cancelled s session points here =>
          have files := bounded s session here
          simp only [Op.remaining, CancelPhase.remaining]
          omega
      | _ => simp [Op.remaining, CancelPhase.remaining]
  | forget id phase next _ _ moved =>
      cases moved with
      | admitted s session here =>
          have files := bounded s session here
          simp only [Op.remaining, ForgetPhase.remaining]
          omega
      | _ => simp [Op.remaining, ForgetPhase.remaining]
  | register request phase next _ _ moved => cases moved <;> simp [Op.remaining, RegisterPhase.remaining]
  | status peer id phase next _ _ moved => cases moved <;> simp [Op.remaining, StatusPhase.remaining]
  | upload request phase next _ _ moved =>
      exact upload_lowers sha256 store fault act log request phase next moved

end Lowers

theorem sound_files (session : Session) (sound : session.Sound) :
    session.record.manifest.fileIds.length ≤ fileLimit := by
  have bounds := ((validate_ok_iff session.record.manifest).mp sound.record.valid).2.2.1
  simpa [TransferManifest.fileIds, fileLimit] using bounds

theorem step_paid (sha256 : Bytes → String) (state next : State) (label : Label) (base : Base state)
    (stepped : step sha256 state label = some next) :
    next.remaining + label.cost ≤ state.remaining + label.work := by
  rcases step_cases sha256 state next label stepped with ⟨call, rfl, _, rfl⟩ |
    ⟨o, fault, op, act, log, op', rfl, here, moved, rfl⟩ |
    ⟨rfl, _, rfl⟩ | ⟨store, rfl, _, _, rfl⟩
  · simp [State.remaining, Label.cost, Label.work]
  · have bounded : ∀ (s : Nat) (session : Session), state.store.heap[s]? = some session →
        session.record.manifest.fileIds.length ≤ fileLimit :=
        fun s session there => sound_files session (base.sound s session there)
    exact Waiting.sum_set_lower Op.remaining state.ops o op op' here
      (moved_lowers sha256 state.store fault act log op op' bounded moved)
  · simp [State.remaining, Label.cost, Label.work]
  · exact Nat.le_refl _

theorem replay_work (sha256 : Bytes → String) (start state : State) (initial : Initial start)
    (labels : List Label)
    (replayed : Transition.replay (step sha256) (fun _ _ => True) start labels = some state) :
    state.remaining + (labels.map Label.cost).sum ≤ (labels.map Label.work).sum := by
  have paid := (Waiting.replay_paid (step sha256) (fun _ _ => True) Base State.remaining Label.cost Label.work
    (fun state label next base _ stepped => ⟨base_step sha256 state next label base stepped,
    step_paid sha256 state next label base stepped⟩)
    labels start state (initial_base start initial) replayed).2
  simpa [State.remaining, initial.idle] using paid

def Label.faultless : Label → Bool
  | .advance _ none => true
  | _ => false

theorem unfinished_able (sha256 : Bytes → String) (state : State) (base : Base state)
    (staffed : Staffed state) (running : ¬ ∀ op ∈ state.ops, op.ended = true) : ∃ p, state.Able sha256 p := by
  obtain ⟨op, member, active⟩ : ∃ op ∈ state.ops, op.ended = false := by simpa using running
  obtain ⟨o, here⟩ := List.mem_iff_getElem?.mp member
  obtain ⟨p, _, _, able⟩ := Waiting.ordered_mover _ _ _ _ (waits_ordered sha256 state base staffed) o
    ⟨op, here, active⟩
  exact ⟨p, able⟩

theorem faultless_end (sha256 : Bytes → String) (state : State) (base : Base state)
    (staffed : Staffed state) :
    ∃ final, Transition.Run (step sha256) (fun _ label => label.faultless = true) state final ∧
      ∀ op ∈ final.ops, op.ended = true := by
  have progress : ∀ (n : Nat) (state : State), state.remaining = n ∧ Base state ∧ Staffed state →
      ¬ (∀ op ∈ state.ops, op.ended = true) → ∃ label next m, label.faultless = true ∧
        step sha256 state label = some next ∧ m < n ∧
        next.remaining = m ∧ Base next ∧ Staffed next := by
    rintro n state ⟨rfl, base, staffed⟩ active
    obtain ⟨p, able⟩ := unfinished_able sha256 state base staffed active
    obtain ⟨next, stepped⟩ := Option.isSome_iff_exists.mp able
    have paid := step_paid sha256 state next (.advance p none) base stepped
    simp only [Label.cost, Label.work] at paid
    exact ⟨.advance p none, next, next.remaining, rfl, stepped, by omega, rfl,
      base_step sha256 state next _ base stepped,
      staffed_step sha256 state next _ staffed stepped⟩
  obtain ⟨final, _, rest, _, ended⟩ :=
    Transition.run_ends (step sha256) (fun _ label => label.faultless = true)
    (fun n state => state.remaining = n ∧ Base state ∧ Staffed state) (fun state => ∀ op ∈ state.ops,
      op.ended = true) progress
    state.remaining state ⟨rfl, base, staffed⟩
  exact ⟨final, rest, ended⟩

-- Every run takes at most the steps its calls bring, whatever fails on the way,
-- and it can be continued without faults until every call has been answered.
theorem every_call_can_be_answered (sha256 : Bytes → String) (start state : State) (initial : Initial start)
    (labels : List Label)
    (replayed : Transition.replay (step sha256) (fun _ _ => True) start labels = some state) :
    (labels.map Label.cost).sum ≤ (labels.map Label.work).sum ∧
      ∃ final, Transition.Run (step sha256) (fun _ label => label.faultless = true) state final ∧
        ∀ op ∈ final.ops, op.ended = true := by
  have bounded := replay_work sha256 start state initial labels replayed
  have run := Transition.replay_run (step sha256) (fun _ _ => True) labels start state replayed
  exact ⟨by omega, faultless_end sha256 state (run_base sha256 _ start state initial run)
    (run_staffed sha256 _ start state initial run)⟩

theorem small_work_done : ∃ state : State,
    Transition.replay (step emptyHash) (fun _ _ => True) emptyState
    (.start :: .call (.register (smallRegister true)) :: advances 0 7 ++
      .call (.upload smallUpload) :: advances 1 5 ++ [.call (.cancel (some smallPeer) smallId)]) =
        some state ∧
    ∃ final, Transition.Run (step emptyHash) (fun _ label => label.faultless = true) state final ∧
      ∀ op ∈ final.ops, op.ended = true := by
  have completed : (Transition.replay (step emptyHash) (fun _ _ => True) emptyState
    (.start :: .call (.register (smallRegister true)) ::
      advances 0 7 ++ .call (.upload smallUpload) :: advances 1 5 ++
      [.call (.cancel (some smallPeer) smallId)])).isSome = true := by
    decide +kernel
  obtain ⟨state, replayed⟩ := Option.isSome_iff_exists.mp completed
  exact ⟨state, replayed, (every_call_can_be_answered emptyHash emptyState state empty_initial _ replayed).2⟩

end GoshTransfer
