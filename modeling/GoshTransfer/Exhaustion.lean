import GoshTransfer.Base
import GoshTransfer.LegacyMove
import GoshTransfer.Numbering

set_option autoImplicit false

namespace GoshTransfer

open InodeStore

-- The answer of version 1 when open_unique_file runs out of candidates.
def tooManyConflicts : LegacyResponse := ⟨500, .error "Failed to create file: Too many filename conflicts"⟩

def ChunkPhase.Beyond : ChunkPhase → Prop
  | .receive _ _ | .count _ _ _ | .flush _ _ | .enter _ _ | .restamp _ _ | .recheck _ _ | .report _ _ |
      .commit _ _ | .tally _ _
  | .complete _ _ | .total _ _ _ | .uncount _ _ => True
  | .remove _ _ _ reply | .rollback _ _ _ reply | .leave _ reply | .unlock _ _ reply | .vacate _ _ reply |
      .done reply =>
      reply ≠ tooManyConflicts
  | _ => False

def ChunkPhase.conflicted : ChunkPhase → Bool
  | .unlock _ _ reply | .vacate _ _ reply | .done reply => reply == tooManyConflicts
  | _ => false

theorem move_target {A L Phase : Type} (act act' : A) (log log' : L) (phase next : Phase)
    (moved : some (act, log, phase) = some (act', log', next)) : phase = next :=
  congrArg (fun move => move.2.2) (Option.some.inj moved)

section Legacy

variable (request : ChunkRequest) (legacy : Legacy) (disk : ReceiverDisk) (reading : Reading)
    (act : LegacyAct) (log : List LegacyEntry)
variable (next : ChunkPhase)

theorem open_unique_attempt (k : Nat) (transfer : PendingTransfer) (file : TransferFile) (index : Nat)
    (moved : (ChunkPhase.openFile k transfer file index).next request legacy disk reading =
      some (act, log, next)) :
    (index ≥ 1000 ∧ next.conflicted = true) ∨
      ((disk.node (uniquePath file index)).isSome = true ∧ next = .openFile k transfer file (index + 1)) ∨
        next.Beyond := by
  simp only [ChunkPhase.next, openUniqueStep] at moved
  split at moved
  · rename_i exhausted
    obtain rfl := move_target _ _ _ _ _ _ moved
    exact .inl ⟨exhausted, rfl⟩
  · split at moved
    · obtain rfl := move_target _ _ _ _ _ _ moved
      exact .inr (.inr (by simp [ChunkPhase.Beyond, tooManyConflicts]))
    · split at moved
      · rename_i taken
        obtain rfl := move_target _ _ _ _ _ _ moved
        exact .inr (.inl ⟨by rw [taken]; rfl, rfl⟩)
      · obtain rfl := move_target _ _ _ _ _ _ moved
        exact .inr (.inr trivial)

theorem conflicted_next (phase : ChunkPhase) (conflicted : phase.conflicted = true)
    (moved : phase.next request legacy disk reading = some (act, log, next)) : next.conflicted = true := by
  cases phase with
  | unlock k passed reply =>
      obtain rfl := move_target _ _ _ _ _ _ moved
      exact conflicted
  | vacate k passed reply =>
      obtain rfl := move_target _ _ _ _ _ _ moved
      exact conflicted
  | done reply => cases moved
  | _ => cases conflicted

theorem beyond_next (phase : ChunkPhase) (beyond : phase.Beyond)
    (moved : phase.next request legacy disk reading = some (act, log, next)) : next.Beyond := by
  cases phase with
  | receive k x =>
      simp only [ChunkPhase.next, legacyReceiveStep] at moved
      split at moved
      · obtain rfl := move_target _ _ _ _ _ _ moved
        simp [ChunkPhase.Beyond, tooManyConflicts]
      · split at moved
        · obtain rfl := move_target _ _ _ _ _ _ moved
          simp [ChunkPhase.Beyond, tooManyConflicts]
        · cases moved
      · obtain rfl := move_target _ _ _ _ _ _ moved
        simp [ChunkPhase.Beyond, tooManyConflicts]
      · obtain rfl := move_target _ _ _ _ _ _ moved
        trivial
      · split at moved
        · obtain rfl := move_target _ _ _ _ _ _ moved
          simp [ChunkPhase.Beyond, tooManyConflicts]
        · split at moved
          · obtain rfl := move_target _ _ _ _ _ _ moved
            simp [ChunkPhase.Beyond, tooManyConflicts]
          · obtain rfl := move_target _ _ _ _ _ _ moved
            trivial
  | flush k x =>
      simp only [ChunkPhase.next] at moved
      split at moved <;> try split at moved
      all_goals
        obtain rfl := move_target _ _ _ _ _ _ moved
        simp [ChunkPhase.Beyond, tooManyConflicts]
  | enter k x =>
      obtain ⟨_, _, _, rfl⟩ := enter_step_cases legacy _ next act log moved
      trivial
  | recheck k x =>
      simp only [ChunkPhase.next] at moved
      split at moved
      all_goals
        obtain rfl := move_target _ _ _ _ _ _ moved
        simp [ChunkPhase.Beyond, tooManyConflicts]
  | complete k x =>
      simp only [ChunkPhase.next, legacyCompleteStep] at moved
      obtain rfl := move_target _ _ _ _ _ _ moved
      split
      · simp [ChunkPhase.Beyond, Writing.reply, tooManyConflicts]
      · split
        · trivial
        · simp [ChunkPhase.Beyond, Writing.reply, tooManyConflicts]
  | tally k x =>
      obtain rfl := move_target _ _ _ _ _ _ moved
      split
      · trivial
      · simp [ChunkPhase.Beyond, Writing.reply, tooManyConflicts]
  | uncount k x =>
      obtain rfl := move_target _ _ _ _ _ _ moved
      simp [ChunkPhase.Beyond, Writing.reply, tooManyConflicts]
  | rollback k held x reply =>
      obtain rfl := move_target _ _ _ _ _ _ moved
      split <;> exact beyond
  | remove k held x reply =>
      obtain rfl := move_target _ _ _ _ _ _ moved
      exact beyond
  | leave k reply =>
      obtain rfl := move_target _ _ _ _ _ _ moved
      exact beyond
  | unlock k passed reply =>
      obtain rfl := move_target _ _ _ _ _ _ moved
      exact beyond
  | vacate k passed reply =>
      obtain rfl := move_target _ _ _ _ _ _ moved
      exact beyond
  | done reply => cases moved
  | count k x amount =>
      obtain rfl := move_target _ _ _ _ _ _ moved
      trivial
  | restamp k x =>
      obtain rfl := move_target _ _ _ _ _ _ moved
      trivial
  | report k x =>
      obtain rfl := move_target _ _ _ _ _ _ moved
      trivial
  | commit k x =>
      obtain rfl := move_target _ _ _ _ _ _ moved
      trivial
  | total k x transfer =>
      obtain rfl := move_target _ _ _ _ _ _ moved
      trivial
  | _ => cases beyond

end Legacy

-- Between two states the handler o has found the candidate of this index taken.
def LegacyAttempt (start final : LegacyState) (o : Nat) (request : ChunkRequest) (k : Nat)
    (transfer : PendingTransfer) (file : TransferFile) (index : Nat) : Prop :=
  ∃ middle, Transition.Run legacyStep (fun _ _ => True) start middle ∧
    Transition.Run legacyStep (fun _ _ => True) middle final ∧
    middle.ops[o]? = some (.chunk request (.openFile k transfer file index)) ∧
    (middle.disk.node (uniquePath file index)).isSome = true

def LegacyTrail (start state : LegacyState) (o : Nat) (request : ChunkRequest) (k : Nat)
    (transfer : PendingTransfer) (file : TransferFile) :
    Prop :=
  ∃ phase, state.ops[o]? = some (.chunk request phase) ∧
    ((∃ n, phase = .openFile k transfer file n ∧
      ∀ i < n, LegacyAttempt start state o request k transfer file i) ∨
      (phase.conflicted = true ∧ ∀ i < 1000, LegacyAttempt start state o request k transfer file i) ∨
        phase.Beyond)

section LegacyTrail

variable (start : LegacyState) (o : Nat) (request : ChunkRequest) (k : Nat) (transfer : PendingTransfer)
    (file : TransferFile)

theorem attempt_later (state next : LegacyState) (label : LegacyLabel)
    (stepped : legacyStep state label = some next) (index : Nat)
    (attempt : LegacyAttempt start state o request k transfer file index) :
    LegacyAttempt start next o request k transfer file index := by
  obtain ⟨middle, before, after, there, taken⟩ := attempt
  exact ⟨middle, before, .tail state next label after trivial stepped, there, taken⟩

theorem legacy_trail_step (state next : LegacyState) (label : LegacyLabel)
    (run : Transition.Run legacyStep (fun _ _ => True) start state)
    (trail : LegacyTrail start state o request k transfer file)
    (stepped : legacyStep state label = some next) :
    LegacyTrail start next o request k transfer file := by
  have later := fun index => attempt_later start o request k transfer file state next label stepped index
  obtain ⟨phase, here, place⟩ := trail
  have within := (List.getElem?_eq_some_iff.mp here).1
  have kept : next.ops[o]? = some (.chunk request phase) →
    LegacyTrail start next o request k transfer file := by
    intro same
    refine ⟨phase, same, ?_⟩
    rcases place with ⟨n, at_, attempts⟩ | ⟨conflicted, attempts⟩ | beyond
    · exact .inl ⟨n, at_, fun i low => later i (attempts i low)⟩
    · exact .inr (.inl ⟨conflicted, fun i low => later i (attempts i low)⟩)
    · exact .inr (.inr beyond)
  cases label with
  | call call =>
      obtain rfl := Option.some.inj stepped
      exact kept (by rw [List.getElem?_append_left within]; exact here)
  | advance p reading =>
      obtain ⟨op, there, moved⟩ := Option.bind_eq_some_iff.mp stepped
      obtain ⟨⟨act, log, op'⟩, moved, after⟩ := Option.bind_eq_some_iff.mp moved
      have same := (Option.some.inj after).symm
      by_cases other : p = o
      · subst other
        obtain rfl := Option.some.inj (there.symm.trans here)
        obtain ⟨⟨act', log', phase'⟩, moved, equal⟩ := Option.map_eq_some_iff.mp moved
        have now : next.ops[p]? = some (.chunk request phase') := by
          have opSame : op' = .chunk request phase' := by simpa using (congrArg (fun m => m.2.2) equal).symm
          rw [same, opSame]
          simp [LegacyState.after, within]
        refine ⟨phase', now, ?_⟩
        rcases place with ⟨n, rfl, attempts⟩ | ⟨conflicted, attempts⟩ | beyond
        · rcases open_unique_attempt request _ _ _ _ _ _ k transfer file n moved with
            ⟨exhausted, conflicted⟩ | ⟨taken, rfl⟩ | beyond
          · exact .inr (.inl ⟨conflicted, fun i low => later i (attempts i (by omega))⟩)
          · refine .inl ⟨n + 1, rfl, ?_⟩
            intro i low
            by_cases last : i = n
            · subst last
              exact later i ⟨state, run, .refl, here, taken⟩
            · exact later i (attempts i (by omega))
          · exact .inr (.inr beyond)
        · exact .inr (.inl ⟨conflicted_next request _ _ _ _ _ _ phase conflicted moved, fun i low => later i
            (attempts i low)⟩)
        · exact .inr (.inr (beyond_next request _ _ _ _ _ _ phase beyond moved))
      · refine kept ?_
        rw [same]
        simpa [LegacyState.after, List.getElem?_set, other] using here

theorem legacy_conflict_needs_all (final : LegacyState)
    (at_ : start.ops[o]? = some (.chunk request (.openFile k transfer file 0)))
    (run : Transition.Run legacyStep (fun _ _ => True) start final)
    (failed : final.ops[o]? = some (.chunk request (.done tooManyConflicts))) :
    ∀ i < 1000, LegacyAttempt start final o request k transfer file i := by
  have trail : LegacyTrail start final o request k transfer file := by
    clear failed
    induction run with
    | refl => exact ⟨_, at_, .inl ⟨0, rfl, fun i low => absurd low (Nat.not_lt_zero i)⟩⟩
    | tail middle final label before _ stepped ih =>
        exact legacy_trail_step start o request k transfer file middle final label before ih stepped
  obtain ⟨phase, here, place⟩ := trail
  obtain rfl : phase = .done tooManyConflicts := by simpa using here.symm.trans failed
  rcases place with ⟨n, at_, _⟩ | ⟨_, attempts⟩ | beyond
  · cases at_
  · exact attempts
  · exact absurd rfl beyond

end LegacyTrail

def publishConflict : Response := ⟨409, .text "Too many filename conflicts"⟩

def UploadPhase.Beyond : UploadPhase → Prop
  | .syncParent _ _ _ | .commit _ _ _ | .finish _ _ | .discard _ _ | .announce _ _ => True
  | .leave _ reply | .done reply => reply ≠ publishConflict
  | _ => False

def UploadPhase.conflicted : UploadPhase → Bool
  | .leave _ reply | .done reply => reply == publishConflict
  | _ => false

section Upload

variable (sha256 : Bytes → String) (request : UploadRequest) (store : Store) (fault : Option Fault)
    (act : Act) (log : List Entry)
variable (next : UploadPhase)

theorem choose_attempt (s : Nat) (x : Incoming) (index : Nat) (session : Session)
    (here : store.heap[s]? = some session)
    (moved : (UploadPhase.choose s x index).next sha256 request store fault = some (act, log, next)) :
    (index ≥ 1000 ∧ next.conflicted = true) ∨
      next = .link s x index (targetOf session.record x.file index) ∨ next.Beyond := by
  simp only [UploadPhase.next, withSession, here, Option.bind_some, chooseStep] at moved
  split at moved
  · rename_i exhausted
    obtain ⟨_, _, _, rfl⟩ := (plain_eq_some _ _ _ _ _ _ _).mp moved
    exact .inl ⟨exhausted, rfl⟩
  · obtain ⟨_, ⟨_, _, rfl⟩ | ⟨saved, _, _, rfl⟩⟩ := persist_step_cases _ _ _ _ _ _ _ _ moved
    · exact .inr (.inl rfl)
    · exact .inr (.inr (by simp [UploadPhase.Beyond, publishConflict, errorResponse]))

theorem link_attempt (s : Nat) (x : Incoming) (index : Nat) (target : Path)
    (moved : (UploadPhase.link s x index target).next sha256 request store fault = some (act, log, next)) :
    ((store.disk.node target).isSome = true ∧ next = .verify s x index target) ∨ next.Beyond := by
  obtain ⟨session, _, moved⟩ := Option.bind_eq_some_iff.mp moved
  unfold linkStep at moved
  split at moved
  · split at moved
    · split at moved
      · obtain rfl := move_target _ _ _ _ _ _ moved
        exact .inr trivial
      · rename_i taken
        obtain rfl := move_target _ _ _ _ _ _ moved
        exact .inl ⟨by rw [taken]; rfl, rfl⟩
    · obtain rfl := move_target _ _ _ _ _ _ moved
      exact .inr (by simp [UploadPhase.Beyond, publishConflict, errorResponse])
  · obtain rfl := move_target _ _ _ _ _ _ moved
    exact .inr (by simp [UploadPhase.Beyond, publishConflict, errorResponse])
  · cases moved

theorem verify_attempt (s : Nat) (x : Incoming) (index : Nat) (target : Path) (session : Session)
    (here : store.heap[s]? = some session)
    (moved : (UploadPhase.verify s x index target).next sha256 request store fault = some (act, log, next)) :
    (act = .assign s (droppedRecord session.record x.file) ∧ next = .choose s x (index + 1)) ∨
      next.Beyond := by
  simp only [UploadPhase.next, withSession, here, Option.bind_some, verifyStep] at moved
  split at moved
  · obtain rfl := move_target _ _ _ _ _ _ moved
    exact .inr trivial
  · split at moved
    · simp only [Option.some.injEq, Prod.mk.injEq] at moved
      exact .inl ⟨moved.1.symm, moved.2.2.symm⟩
    · cases moved

theorem upload_conflicted_next (phase : UploadPhase) (conflicted : phase.conflicted = true)
    (moved : phase.next sha256 request store fault = some (act, log, next)) : next.conflicted = true := by
  cases phase with
  | leave s reply =>
      obtain ⟨_, _, _, rfl⟩ := (plain_eq_some _ _ _ _ _ _ _).mp moved
      exact conflicted
  | done reply => cases moved
  | _ => cases conflicted

theorem upload_beyond_next (phase : UploadPhase) (beyond : phase.Beyond)
    (moved : phase.next sha256 request store fault = some (act, log, next)) : next.Beyond := by
  cases phase with
  | syncParent s x target =>
      simp only [UploadPhase.next, syncParentStep] at moved
      split at moved
      · obtain rfl := move_target _ _ _ _ _ _ moved
        trivial
      · obtain rfl := move_target _ _ _ _ _ _ moved
        simp [UploadPhase.Beyond, publishConflict, errorResponse]
      · cases moved
  | commit s x target =>
      obtain ⟨session, _, moved⟩ := Option.bind_eq_some_iff.mp moved
      obtain ⟨_, ⟨_, _, rfl⟩ | ⟨saved, _, _, rfl⟩⟩ := persist_step_cases _ _ _ _ _ _ _ _ moved
      · trivial
      · simp [UploadPhase.Beyond, publishConflict, errorResponse]
  | finish s x =>
      obtain ⟨_, _, _, rfl⟩ := (plain_eq_some _ _ _ _ _ _ _).mp moved
      trivial
  | discard s x =>
      obtain ⟨session, _, moved⟩ := Option.bind_eq_some_iff.mp moved
      obtain ⟨_, _, _, rfl⟩ := remove_step_cases _ _ _ _ _ _ _ moved
      trivial
  | announce s x =>
      obtain ⟨session, _, moved⟩ := Option.bind_eq_some_iff.mp moved
      obtain ⟨_, _, _, rfl⟩ := (plain_eq_some _ _ _ _ _ _ _).mp moved
      simp [UploadPhase.Beyond, publishConflict, Response.plain]
  | leave s reply =>
      obtain ⟨_, _, _, rfl⟩ := (plain_eq_some _ _ _ _ _ _ _).mp moved
      exact beyond
  | done reply => cases moved
  | _ => cases beyond

end Upload

def alive (_ : State) (label : Label) : Prop := label ≠ .crash

-- Between two states of one process the upload o has found the candidate of this
-- index taken.
def UploadAttempt (sha256 : Bytes → String) (start final : State) (o : Nat) (request : UploadRequest)
    (s : Nat) (x : Incoming) (index : Nat) : Prop :=
  ∃ middle, Transition.Run (step sha256) alive start middle ∧
    Transition.Run (step sha256) alive middle final ∧
    middle.ops[o]? = some (.upload request (.link s x index (candidatePath x.file index))) ∧
    (middle.store.disk.node (candidatePath x.file index)).isSome = true

-- A candidate is computed as long as no target is journaled for the file.
def UploadPhase.Trying (sha256 : Bytes → String) (start state : State) (o : Nat) (request : UploadRequest)
    (s : Nat) (x : Incoming) (phase : UploadPhase) : Prop :=
  (∃ n, phase = .choose s x n ∧ (∀ session, state.store.heap[s]? = some session →
    session.record.targets.lookup x.file.id = none) ∧
      ∀ i < n, UploadAttempt sha256 start state o request s x i) ∨
    (∃ n, phase = .link s x n (candidatePath x.file n) ∧
      ∀ i < n, UploadAttempt sha256 start state o request s x i) ∨
    (∃ n, phase = .verify s x n (candidatePath x.file n) ∧
      ∀ i < n + 1, UploadAttempt sha256 start state o request s x i) ∨
    (phase.conflicted = true ∧ ∀ i < 1000, UploadAttempt sha256 start state o request s x i) ∨ phase.Beyond

structure UploadTrail (sha256 : Bytes → String) (start state : State) (o : Nat) (request : UploadRequest)
    (s : Nat) (x : Incoming) :
    Prop where
  base : Base state
  run : Transition.Run (step sha256) alive start state
  place : ∃ phase, state.ops[o]? = some (.upload request phase) ∧
    phase.Trying sha256 start state o request s x

section UploadTrail

variable (sha256 : Bytes → String) (start : State) (o : Nat) (request : UploadRequest) (s : Nat)
    (x : Incoming)

theorem upload_attempt_later (state next : State) (label : Label) (allowed : alive state label)
    (stepped : step sha256 state label = some next) (index : Nat)
    (attempt : UploadAttempt sha256 start state o request s x index) :
    UploadAttempt sha256 start next o request s x index := by
  obtain ⟨middle, before, after, there, taken⟩ := attempt
  exact ⟨middle, before, .tail state next label after allowed stepped, there, taken⟩

theorem trying_later (state next : State) (label : Label) (allowed : alive state label)
    (stepped : step sha256 state label = some next) (phase : UploadPhase)
    (kept : ∀ session', phase.holds = some s → next.store.heap[s]? = some session' →
      ∃ session, state.store.heap[s]? = some session ∧ session'.record = session.record)
    (trying : phase.Trying sha256 start state o request s x) :
    phase.Trying sha256 start next o request s x := by
  have later := upload_attempt_later sha256 start o request s x state next label allowed stepped
  rcases trying with ⟨n, rfl, unplanned, attempts⟩ | ⟨n, rfl, attempts⟩ | ⟨n, rfl, attempts⟩ |
    ⟨conflicted, attempts⟩ | beyond
  · refine .inl ⟨n, rfl, ?_, fun i low => later i (attempts i low)⟩
    intro session' there
    obtain ⟨session, here, same⟩ := kept session' rfl there
    rw [same]
    exact unplanned session here
  · exact .inr (.inl ⟨n, rfl, fun i low => later i (attempts i low)⟩)
  · exact .inr (.inr (.inl ⟨n, rfl, fun i low => later i (attempts i low)⟩))
  · exact .inr (.inr (.inr (.inl ⟨conflicted, fun i low => later i (attempts i low)⟩)))
  · exact .inr (.inr (.inr (.inr beyond)))

theorem trying_next (state next : State) (fault : Option Fault) (phase phase' : UploadPhase) (act : Act)
    (log : List Entry) (trail : UploadTrail sha256 start state o request s x)
    (here : state.ops[o]? = some (.upload request phase))
    (trying : phase.Trying sha256 start state o request s x)
    (moved : phase.next sha256 request state.store fault = some (act, log, phase'))
    (after : next.store = state.store.apply o act)
    (stepped : step sha256 state (.advance o fault) = some next) :
    phase'.Trying sha256 start next o request s x := by
  have later := upload_attempt_later sha256 start o request s x state next (.advance o fault)
    (by simp [alive]) stepped
  rcases trying with ⟨n, rfl, unplanned, attempts⟩ | ⟨n, rfl, attempts⟩ | ⟨n, rfl, attempts⟩ |
    ⟨conflicted, attempts⟩ | beyond
  · obtain ⟨session, at_, _⟩ := trail.base.locked o _ s here rfl
    rcases choose_attempt sha256 request state.store fault act log phase' s x n session at_ moved with
      ⟨exhausted, conflicted⟩ | rfl | beyond
    · exact .inr (.inr (.inr (.inl ⟨conflicted, fun i low => later i (attempts i (by omega))⟩)))
    · have computed : targetOf session.record x.file n = candidatePath x.file n := by
        rw [targetOf, unplanned session at_]
        rfl
      rw [computed]
      exact .inr (.inl ⟨n, rfl, fun i low => later i (attempts i low)⟩)
    · exact .inr (.inr (.inr (.inr beyond)))
  · rcases link_attempt sha256 request state.store fault act log phase' s x n _ moved with ⟨taken, rfl⟩ |
      beyond
    · refine .inr (.inr (.inl ⟨n, rfl, ?_⟩))
      intro i low
      by_cases last : i = n
      · subst last
        exact later i ⟨state, trail.run, .refl, here, taken⟩
      · exact later i (attempts i (by omega))
    · exact .inr (.inr (.inr (.inr beyond)))
  · obtain ⟨session, at_, _⟩ := trail.base.locked o _ s here rfl
    rcases verify_attempt sha256 request state.store fault act log phase' s x n _ session at_ moved with
      ⟨rfl, rfl⟩ | beyond
    · refine .inl ⟨n + 1, rfl, ?_, fun i low => later i (attempts i low)⟩
      intro session' there
      rw [after] at there
      obtain rfl := Option.some.inj (there.symm.trans (apply_heap state.store o _ s session at_))
      simp [Act.on, droppedRecord]
    · exact .inr (.inr (.inr (.inr beyond)))
  · exact .inr (.inr
      (.inr (.inl ⟨upload_conflicted_next sha256 request _ fault act log phase' phase conflicted moved,
      fun i low => later i (attempts i low)⟩)))
  · exact .inr (.inr
      (.inr (.inr (upload_beyond_next sha256 request _ fault act log phase' phase beyond moved))))

theorem upload_trail_step (state next : State) (label : Label) (allowed : alive state label)
    (trail : UploadTrail sha256 start state o request s x) (stepped : step sha256 state label = some next) :
    UploadTrail sha256 start next o request s x := by
  refine ⟨base_step sha256 state next label trail.base stepped, .tail state next label trail.run allowed
    stepped, ?_⟩
  obtain ⟨phase, here, trying⟩ := trail.place
  have within := (List.getElem?_eq_some_iff.mp here).1
  have running := base_running state trail.base o _ here
  cases label with
  | call call =>
      have same : next = { state with ops := state.ops ++ [call.op] } := by
        simpa [step, running] using stepped.symm
      refine ⟨phase, by rw [same, List.getElem?_append_left within]; exact here, ?_⟩
      refine trying_later sha256 start o request s x state next _ allowed stepped phase ?_ trying
      intro session' _ there
      rw [same] at there
      exact ⟨session', there, rfl⟩
  | crash => exact absurd rfl allowed
  | start => simp [step, running] at stepped
  | advance p fault =>
      obtain ⟨op, act, log, op', there, moved, same⟩ := step_advance sha256 state next p fault stepped
      by_cases other : p = o
      · subst other
        obtain rfl := Option.some.inj (there.symm.trans here)
        obtain ⟨⟨act', log', phase'⟩, own, equal⟩ := Option.map_eq_some_iff.mp moved
        obtain ⟨rfl, rfl, rfl⟩ : act' = act ∧ log' = log ∧
          Op.upload request phase' = op' := by simpa using equal
        refine ⟨phase', by simp [same, within], ?_⟩
        exact trying_next sha256 start p request s x state next fault phase phase' act' log' trail here
          trying own (by rw [same]) stepped
      · refine ⟨phase, by simpa [same, List.getElem?_set, other] using here, ?_⟩
        refine trying_later sha256 start o request s x state next _ allowed stepped phase ?_ trying
        intro session' held at_
        have framed := others_framed sha256 state trail.base p fault op op' act log there
          (op_next_move _ _ _ _ _ _ _ moved) o _ (Ne.symm other) here
        exact framed.record s session' held (by rw [same] at at_; exact at_)

theorem publish_conflict_needs_all (final : State) (base : Base start)
    (at_ : start.ops[o]? = some (.upload request (.choose s x 0)))
    (unplanned : ∀ session, start.store.heap[s]? = some session →
      session.record.targets.lookup x.file.id = none) (run : Transition.Run (step sha256) alive start final)
    (failed : final.ops[o]? = some (.upload request (.done publishConflict))) :
    ∀ i < 1000, UploadAttempt sha256 start final o request s x i := by
  have initial : UploadTrail sha256 start start o request s x :=
    ⟨base, .refl, _, at_, .inl ⟨0, rfl, unplanned, fun i low => absurd low (Nat.not_lt_zero i)⟩⟩
  have trail :=
    Transition.run_invariant (step sha256) alive (fun state => UploadTrail sha256 start state o request s x)
    (fun state label next trail allowed stepped => upload_trail_step sha256 start o request s x state
      next label allowed trail stepped)
    start final run initial
  obtain ⟨phase, here, trying⟩ := trail.place
  obtain rfl : phase = .done publishConflict := by simpa using here.symm.trans failed
  rcases trying with ⟨n, at_, _⟩ | ⟨n, at_, _⟩ | ⟨n, at_, _⟩ | ⟨_, attempts⟩ | beyond
  · cases at_
  · cases at_
  · cases at_
  · exact attempts
  · exact absurd rfl beyond

end UploadTrail

end GoshTransfer
