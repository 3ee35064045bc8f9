import GoshTransfer.Receiver

set_option autoImplicit false

namespace GoshTransfer

open InodeStore

-- A version 1 registration between durable.contains and its insertion.
def RequestPhase.checked : RequestPhase → Bool
  | .used _ | .refused _ | .existing _ | .retry _ | .capacity _ | .stamp _ | .pend _ => true
  | _ => false

def LegacyOp.registers (id : String) : LegacyOp → Bool
  | .request offer phase => offer.id = id && phase.checked
  | _ => false

-- A version 2 registration between its look at pending_transfers and its insertion.
def RegisterPhase.checked (peeked : Bool) (request : RegisterRequest) : RegisterPhase → Bool
  | .lookup => peeked && !request.legacy
  | .create | .insert => true
  | _ => false

def Receiver.registers (receiver : Receiver) (id : String) (o : Nat) : Bool :=
  match receiver.durable.ops[o]? with
  | some (.register request phase) => request.id = id && phase.checked (o ∈ receiver.peeked) request
  | _ => false

-- Neither protocol inserts an id while a registration of the other one has
-- checked that it is free and has not inserted it yet.
def keepsApart (receiver : Receiver) : ReceiverLabel → Bool
  | .durable (.advance o _) =>
      match receiver.durable.ops[o]? with
      | some (.register request .insert) => receiver.ops.all fun op => !op.registers request.id
      | _ => true
  | .legacy (.advance o _) =>
      match receiver.ops[o]? with
      | some (.request offer (.pend _)) => (List.range receiver.durable.ops.length).all fun p =>
          !receiver.registers offer.id p
      | _ => true
  | _ => true

structure Apart (receiver : Receiver) : Prop where
  base : LegacyBase receiver.version1
  stopped : receiver.durable.running = false → receiver.legacy = .empty ∧ receiver.ops = []
  apart : ∀ id, receiver.durable.store.sessions.lookup id ≠ none →
    receiver.legacy.ledger.pending.lookup id = none
  absent : ∀ (o : Nat) (op : LegacyOp) (id : String), receiver.ops[o]? = some op → op.registers id = true →
    receiver.durable.store.sessions.lookup id = none
  unread : ∀ (o : Nat) (id : String), receiver.registers id o = true →
    receiver.legacy.ledger.pending.lookup id = none
  late : ∀ o ∈ receiver.peeked, ∃ request phase, receiver.durable.ops[o]? = some (.register request phase) ∧
    phase ≠ .validate ∧ phase ≠ .enroll

section Durable

variable (sha256 : Bytes → String) (receiver : Receiver) (apart : Apart receiver) (o : Nat)
    (fault : Option Fault) (op op' : Op) (act : Act)
  (log : List Entry) (here : receiver.durable.ops[o]? = some op)
    (moved : OpMove sha256 receiver.durable.store fault op act log op')

include here moved

theorem session_inserted (id : String)
    (now : (receiver.durable.store.apply o act).sessions.lookup id ≠ none) :
    receiver.durable.store.sessions.lookup id ≠ none ∨ ∃ request, op = .register request .insert ∧
      request.id = id := by
  by_cases inserted : ∃ record, act = .insert record
  · obtain ⟨record, rfl⟩ := inserted
    cases op_effect sha256 receiver.durable.store fault op op' _ log moved with
    | quiet _ _ _ silent => cases silent
    | insert request =>
        by_cases same : id = request.id
        · exact .inr ⟨request, rfl, same.symm⟩
        · left
          rw [show (receiver.durable.store.apply o (.insert request.record)).sessions.lookup id =
            receiver.durable.store.sessions.lookup id from AList.lookup_insert_ne same] at now
          exact now
  · by_cases evicted : ∃ key, act = .evict key
    · obtain ⟨key, rfl⟩ := evicted
      left
      by_cases same : id = key
      · subst same
        exact absurd (AList.lookup_erase _ _) now
      · rw [show (receiver.durable.store.apply o (.evict key)).sessions.lookup id =
          receiver.durable.store.sessions.lookup id from AList.lookup_erase_ne same] at now
        exact now
    · left
      rw [apply_sessions receiver.durable.store o act (fun record same => inserted ⟨record, same⟩)
        (fun key same => evicted ⟨key, same⟩)] at now
      exact now

include apart

-- The look at pending_transfers comes before the lookup of the session.
theorem moved_registers (permitted : receiver.permits (.advance o fault) = true) (request : RegisterRequest)
    (phase next : RegisterPhase) (isOp : op = .register request phase) (isNext : op' = .register request next)
    (checked : next.checked (o ∈ receiver.peeked) request = true) :
    phase.checked (o ∈ receiver.peeked) request = true := by
  subst isOp isNext
  cases moved with
  | register _ _ _ _ _ moved =>
      cases moved with
      | fresh flag absent =>
          have read : o ∈ receiver.peeked := by simpa [Receiver.permits, here] using permitted
          simp [RegisterPhase.checked, read, flag]
      | created below ok => rfl
      | enrolled free =>
          simp only [RegisterPhase.checked, Bool.and_eq_true, decide_eq_true_eq] at checked
          obtain ⟨_, _, at_, _, notEnroll⟩ := apart.late o checked.1
          rw [here] at at_
          cases at_
          exact absurd rfl notEnroll
      | _ => cases checked

theorem apart_advance (permitted : receiver.permits (.advance o fault) = true)
    (allowed : keepsApart receiver (.durable (.advance o fault)) = true) :
    Apart { receiver with durable :=
      { receiver.durable with store := receiver.durable.store.apply o act, ops := receiver.durable.ops.set o op',
                              log := receiver.durable.log ++ log } } := by
  have within : o < receiver.durable.ops.length := (List.getElem?_eq_some_iff.mp here).1
  have self : (receiver.durable.ops.set o op')[o]? = some op' := List.getElem?_set_self within
  -- A registration that inserts has looked at pending_transfers.
  have inserting : ∀ request, op = .register request .insert →
    receiver.legacy.ledger.pending.lookup request.id = none := by
    rintro request rfl
    exact apart.unread o request.id (by simp [Receiver.registers, here, RegisterPhase.checked])
  refine ⟨legacy_base_disk receiver.version1 _ apart.base, apart.stopped, ?_, ?_, ?_, ?_⟩
  · intro id now
    rcases session_inserted sha256 receiver o fault op op' act log here moved id now with before |
      ⟨request, same, rfl⟩
    · exact apart.apart id before
    · exact inserting request same
  · intro p q id there registers
    by_contra now
    rcases session_inserted sha256 receiver o fault op op' act log here moved id now with before |
      ⟨request, rfl, rfl⟩
    · exact before (apart.absent p q id there registers)
    · simp only [keepsApart, here, List.all_eq_true] at allowed
      have silent := allowed q (List.mem_of_getElem? there)
      rw [registers] at silent
      cases silent
  · intro p id registers
    by_cases same : p = o
    · subst same
      refine apart.unread p id ?_
      cases moved with
      | register request phase next act log moved =>
          simp only [Receiver.registers, self, Bool.and_eq_true, decide_eq_true_eq] at registers
          have before := moved_registers sha256 receiver apart p fault _ _ act log here
            (.register request _ _ _ _ moved) permitted request phase next rfl rfl registers.2
          simp [Receiver.registers, here, registers.1, before]
      | _ => simp [Receiver.registers, self] at registers
    · refine apart.unread p id ?_
      have stays : (receiver.durable.ops.set o op')[p]? = receiver.durable.ops[p]? :=
        List.getElem?_set_ne fun equal => same equal.symm
      simpa [Receiver.registers, stays] using registers
  · intro p member
    obtain ⟨request, phase, there, notValidate, notEnroll⟩ := apart.late p member
    by_cases same : p = o
    · subst same
      rw [here] at there
      cases there
      cases moved with
      | register _ _ next _ _ moved =>
          refine ⟨request, next, self, ?_, ?_⟩
          · cases moved <;> simp
          · cases moved <;> first | exact absurd rfl notValidate | simp
    · exact ⟨request, phase, (List.getElem?_set_ne fun equal => same equal.symm).trans there, notValidate,
        notEnroll⟩

end Durable

section Legacy

variable (receiver : Receiver) (apart : Apart receiver) (o : Nat) (reading : Reading) (op op' : LegacyOp)
    (act : LegacyAct)
  (log : List LegacyEntry) (here : receiver.ops[o]? = some op)
  (moved : LegacyOpMove receiver.legacy receiver.durable.store.disk reading op act log op')

include apart here moved

theorem pending_inserted (id : String) (now : (act.book receiver.legacy.ledger).pending.lookup id ≠ none) :
    receiver.legacy.ledger.pending.lookup id ≠ none ∨ ∃ offer total, op = .request offer (.pend total) ∧
      offer.id = id := by
  obtain ⟨transfer, found⟩ := Option.ne_none_iff_exists'.mp now
  rcases book_pending _ act id transfer found with ⟨before, _⟩ | ⟨rfl, rfl⟩
  · exact .inl (by simp [before])
  · have reported :=
      (moved_pend receiver.version1 apart.base o reading op op' _ log here moved transfer).mp rfl
    obtain ⟨offer, total, same, rfl⟩ :=
      (moved_reports receiver.legacy _ reading op op' _ log moved (apart.base.drafted o op here)).1 transfer
        reported
    exact .inr ⟨offer, total, same, rfl⟩

theorem apart_legacy (running : receiver.durable.running = true)
    (answered : receiver.answers (.advance o reading) = true)
    (allowed : keepsApart receiver (.legacy (.advance o reading)) = true) (disk : ReceiverDisk)
    (legacy : Legacy) (booked : legacy.ledger = act.book receiver.legacy.ledger)
    (base : LegacyBase ⟨legacy, disk, receiver.ops.set o op', receiver.log ++ log⟩) :
    Apart ⟨receiver.durable.onDisk disk, legacy, receiver.ops.set o op', receiver.log ++ log,
      receiver.peeked⟩ := by
  refine ⟨base, ?_, ?_, ?_, ?_, apart.late⟩
  · intro stopped
    exact absurd (running.symm.trans stopped) (by simp)
  · intro id present
    by_contra now
    rw [booked] at now
    rcases pending_inserted receiver apart o reading op op' act log here moved id now with before |
      ⟨offer, total, rfl, rfl⟩
    · exact before (apart.apart id present)
    · exact present (apart.absent o _ offer.id here (by simp [LegacyOp.registers, RequestPhase.checked]))
  · intro p q id there registers
    rcases Transition.set_cases receiver.ops o p op' q there with ⟨rfl, rfl⟩ | ⟨_, before⟩
    · cases moved with
      | request offer phase next act log moved =>
          simp only [LegacyOp.registers, Bool.and_eq_true, decide_eq_true_eq] at registers
          obtain ⟨rfl, checked⟩ := registers
          have carried : phase.checked = true → receiver.durable.store.sessions.lookup offer.id = none := by
            intro before
            exact apart.absent p _ offer.id here (by simp [LegacyOp.registers, before])
          cases moved with
          | checked total absent valid =>
              have none_ : receiver.durable.store.sessions.lookup offer.id = none := by
                simpa [Receiver.answers, here, LegacyOp.asks, absent] using answered
              exact none_
          | quit phase reply testing => cases checked
          | _ => first | exact carried rfl | cases checked
      | _ => cases registers
    · exact apart.absent p q id before registers
  · intro p id registers
    by_contra now
    rw [booked] at now
    have before : receiver.registers id p = true := registers
    rcases pending_inserted receiver apart o reading op op' act log here moved id now with pending |
      ⟨offer, total, rfl, rfl⟩
    · exact pending (apart.unread p id before)
    · simp only [keepsApart, here, List.all_eq_true, List.mem_range] at allowed
      have within : p < receiver.durable.ops.length := by
        by_contra beyond
        have none_ : receiver.durable.ops[p]? = none := List.getElem?_eq_none (by omega)
        simp [Receiver.registers, none_] at before
      have silent := allowed p within
      rw [before] at silent
      cases silent

end Legacy

theorem registers_appended (receiver : Receiver) (call : Call) (o : Nat) (id : String)
    (registers : Receiver.registers
      { receiver with durable := { receiver.durable with ops := receiver.durable.ops ++ [call.op] } } id o =
      true) :
    receiver.registers id o = true := by
  simp only [Receiver.registers] at registers ⊢
  split at registers
  · rename_i request phase there
    rcases Transition.append_cases receiver.durable.ops o call.op _ there with before | new
    · simpa [before] using registers
    · cases call <;> cases new
      simp [RegisterPhase.checked] at registers
  · cases registers

theorem apart_step (sha256 : Bytes → String) (receiver next : Receiver) (label : ReceiverLabel)
    (apart : Apart receiver) (allowed : keepsApart receiver label = true)
    (stepped : receiverStep sha256 receiver label = some next) : Apart next := by
  have base := receiver_legacy_base sha256 receiver next label apart.base stepped
  rcases receiver_step_cases sha256 receiver next label stepped with
    ⟨inner, after, rfl, notCrash, permitted, made, rfl⟩ | ⟨after, rfl, made, rfl⟩ |
    ⟨inner, after, rfl, running, answered, made, rfl⟩ | ⟨o, request, rfl, here, read, rfl⟩
  · rcases step_cases sha256 receiver.durable after inner made with ⟨call, rfl, _, rfl⟩ |
      ⟨o, fault, op, act, log, op', rfl, here, moved, rfl⟩ | ⟨rfl, _, _⟩ | ⟨store, rfl, stopped, loaded, rfl⟩
    · refine ⟨base, apart.stopped, apart.apart, apart.absent, ?_, ?_⟩
      · intro o id registers
        exact apart.unread o id (registers_appended receiver call o id registers)
      · intro o member
        obtain ⟨request, phase, there, late⟩ := apart.late o member
        have within : o < receiver.durable.ops.length := (List.getElem?_eq_some_iff.mp there).1
        exact ⟨request, phase, by rw [List.getElem?_append_left within]; exact there, late⟩
    · exact apart_advance sha256 receiver apart o fault op op' act log here moved permitted allowed
    · exact absurd rfl notCrash
    · obtain ⟨empty, idle⟩ := apart.stopped stopped
      refine ⟨base, ?_, ?_, ?_, ?_, apart.late⟩
      · intro stopped
        cases stopped
      · intro id _
        rw [empty]
        rfl
      · intro p q id there
        rw [idle] at there
        cases there
      · intro p id _
        rw [empty]
        rfl
  · rcases step_cases sha256 receiver.durable after .crash made with ⟨_, same, _⟩ |
      ⟨_, _, _, _, _, _, same, _⟩ | ⟨_, _, rfl⟩ | ⟨_, same, _⟩
    · cases same
    · cases same
    · refine ⟨base, fun _ => ⟨rfl, rfl⟩, ?_, ?_, ?_, by simp⟩
      · intro id _
        rfl
      · intro p q id there
        cases there
      · intro p id _
        rfl
    · cases same
  · rcases legacy_step_cases receiver.version1 after inner made with ⟨call, rfl, rfl⟩ |
      ⟨o, reading, op, act, log, op', rfl, here, moved, rfl⟩
    · refine ⟨base, ?_, apart.apart, ?_, apart.unread, apart.late⟩
      · intro stopped
        exact absurd (running.symm.trans stopped) (by simp)
      · intro p q id there registers
        rcases Transition.append_cases receiver.ops p call.op q there with before | rfl
        · exact apart.absent p q id before registers
        · cases call <;> simp [LegacyCall.op, acceptTransfer, rejectTransfer, cancelTransfer,
            transferRequestHandler, transferStatusHandler,
            chunkUploadHandler, LegacyOp.registers, RequestPhase.checked] at registers
    · exact apart_legacy receiver apart o reading op op' act log here moved running answered allowed _ _
        (apply_ledger receiver.legacy o act) base
  · refine ⟨base, apart.stopped, apart.apart, apart.absent, ?_, ?_⟩
    · intro p id registers
      by_cases same : p = o
      · subst same
        simp only [Receiver.registers, here, RegisterPhase.checked, Bool.and_eq_true,
          decide_eq_true_eq] at registers
        obtain ⟨rfl, _, flag⟩ := registers
        cases pending : receiver.legacy.ledger.pending.lookup request.id with
        | none => rfl
        | some transfer =>
            rw [pending] at read
            simp [read] at flag
      · refine apart.unread p id ?_
        simpa [Receiver.registers, same] using registers
    · intro p member
      rcases Finset.mem_insert.mp member with rfl | old
      · exact ⟨request, .lookup, here, by simp, by simp⟩
      · exact apart.late p old

theorem initial_apart (receiver : Receiver) (initial : ReceiverInitial receiver) : Apart receiver := by
  have empty : receiver.legacy = .empty := initial.legacy.fresh
  have idle : receiver.ops = [] := initial.legacy.idle
  refine ⟨initial_legacy_base _ initial.legacy, fun _ => ⟨empty, idle⟩, ?_, ?_, ?_, ?_⟩
  · intro id _
    rw [empty]
    rfl
  · intro p q id there
    rw [idle] at there
    cases there
  · intro p id _
    rw [empty]
    rfl
  · intro o member
    rw [initial.unread] at member
    cases member

-- No id is in both maps, and a version 1 ruling decides to write only about an id
-- that has no version 2 session.
structure OneProtocol (receiver : Receiver) : Prop where
  apart : ∀ id, ¬ (receiver.durable.store.sessions.lookup id ≠ none ∧
    receiver.legacy.ledger.pending.lookup id ≠ none)
  rulings : ∀ (o : Nat) (verdict : Ruling) (id : String) (phase next : RulingPhase) (reading : Reading)
    (act : LegacyAct) (log : List LegacyEntry), receiver.ops[o]? = some (.ruling verdict id phase) →
    phase.next verdict id receiver.legacy reading = some (act, log, next) →
      (LegacyOp.ruling verdict id phase).todo = [] →
    (LegacyOp.ruling verdict id next).todo ≠ [] → receiver.durable.store.sessions.lookup id = none

theorem ruling_finds_pending (state : LegacyState) (base : LegacyBase state) (o : Nat) (verdict : Ruling)
    (id : String) (phase next : RulingPhase) (act : LegacyAct) (log : List LegacyEntry)
    (here : state.ops[o]? = some (.ruling verdict id phase))
    (moved : RulingMove verdict id state.legacy phase act log next)
    (idle : (LegacyOp.ruling verdict id phase).todo = [])
    (planned : (LegacyOp.ruling verdict id next).todo ≠ []) : state.legacy.ledger.pending.lookup id ≠
      none := by
  cases moved with
  | accepted token transfer same waiting => simp [waiting]
  | rejected transfer same waiting => simp [waiting]
  | cancelled info =>
      obtain ⟨_, _, present⟩ := base.checked o _ here
      obtain ⟨life, known⟩ := base.lives id
      rw [settled_held state base.locked o _ here rfl] at known
      intro none_
      refine present ⟨none_, ?_⟩
      have waiting := (life_pending _ _ life known).symm.trans none_
      refine (life_approved _ _ life known).trans ?_
      cases life <;> first | rfl | cases waiting
  | edited change log rest reply => cases idle
  | _ => exact absurd rfl planned

theorem ids_keep_to_one_protocol (sha256 : Bytes → String) (start receiver : Receiver)
    (initial : ReceiverInitial start)
    (run : Transition.Run (receiverStep sha256) (fun receiver label => keepsApart receiver label = true)
      start receiver) :
    OneProtocol receiver := by
  have apart := Transition.run_invariant (receiverStep sha256) _ Apart
    (fun receiver label next apart allowed stepped => apart_step sha256 receiver next label apart allowed
    stepped) start receiver run
    (initial_apart start initial)
  refine ⟨?_, ?_⟩
  · rintro id ⟨session, pending⟩
    exact pending (apart.apart id session)
  · intro o verdict id phase next reading act log here moved idle planned
    have pending := ruling_finds_pending receiver.version1 apart.base o verdict id phase next act log here
      (ruling_next_move verdict id receiver.legacy reading phase next act log moved) idle planned
    by_contra session
    exact pending (apart.apart id session)

-- The version 1 offer of the id that the small version 2 session has.
def rivalOffer : Offer := { smallOffer false with request := ⟨smallId, none, [offerFile], 0⟩ }

def durables (labels : List Label) : List ReceiverLabel := labels.map .durable

def legacies (labels : List LegacyLabel) : List ReceiverLabel := labels.map .legacy

-- A version 2 registration that finds no version 1 transfer, followed by a
-- version 1 registration of the same id, which is refused.
theorem second_registration_is_refused : ∃ receiver,
    Transition.Run (receiverStep emptyHash)
    (fun receiver label => keepsApart receiver label = true) emptyReceiver receiver ∧
      receiver.durable.store.sessions.lookup smallId ≠ none ∧
        receiver.legacy.ledger.pending.lookup smallId = none := by
  obtain ⟨receiver, run, checked⟩ := Transition.replay_reaches (receiverStep emptyHash)
    (fun receiver label => keepsApart receiver label = true)
    (durables (.start :: .call (.register (smallRegister false)) :: advances 0 2) ++ .peek 0 ::
    durables (advances 0 5) ++
      legacies (.call (.request rivalOffer) :: legacyAdvances 0 3 ++
      .advance 0 { calm with durable := true } :: legacyAdvances 0 1))
    emptyReceiver (fun receiver => (receiver.durable.store.sessions.lookup smallId).isSome)
      (by decide +kernel)
  have present : receiver.durable.store.sessions.lookup smallId ≠ none := by
    intro none_
    rw [none_] at checked
    cases checked
  have one := (ids_keep_to_one_protocol emptyHash emptyReceiver receiver empty_receiver_initial run).apart
    smallId
  refine ⟨receiver, run, present, ?_⟩
  by_contra pending
  exact one ⟨present, pending⟩

-- Both registrations check before either inserts.
theorem registrations_race_for_an_id : ¬ ∀ (sha256 : Bytes → String) (start receiver : Receiver),
    ReceiverInitial start →
    Transition.Run (receiverStep sha256) (fun _ _ => True) start receiver → OneProtocol receiver := by
  intro always
  obtain ⟨receiver, run, checked⟩ := Transition.replay_reaches (receiverStep emptyHash) (fun _ _ => True)
    (durables (.start :: .call (.register (smallRegister false)) :: advances 0 2) ++ .peek 0 ::
      legacies (.call (.request rivalOffer) :: legacyAdvances 0 10) ++ durables (advances 0 3)) emptyReceiver
    (fun receiver => (receiver.durable.store.sessions.lookup smallId).isSome &&
      (receiver.legacy.ledger.pending.lookup smallId).isSome)
    (by decide +kernel)
  rw [Bool.and_eq_true] at checked
  refine (always emptyHash emptyReceiver receiver empty_receiver_initial run).apart smallId ⟨?_, ?_⟩
  · intro none_
    rw [none_] at checked
    cases checked.1
  · intro none_
    rw [none_] at checked
    cases checked.2

end GoshTransfer
