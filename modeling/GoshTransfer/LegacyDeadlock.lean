import GoshTransfer.Deadlock
import GoshTransfer.Recounting

set_option autoImplicit false

namespace GoshTransfer

open InodeStore

-- The mutexes of version 1: the upload lock of a transfer is taken before the
-- decisions lock.
inductive LegacyMutex where
  | upload (k : Nat)
  | decisions
deriving DecidableEq

def LegacyOp.awaits : LegacyOp → Option LegacyMutex
  | .ruling _ _ .enter | .request _ .enter | .chunk _ (.enter _ _) => some .decisions
  | .chunk _ (.lock k) => some (.upload k)
  | _ => none

def Legacy.owner (legacy : Legacy) : LegacyMutex → Option Nat
  | .upload k => (legacy.seats[k]?).bind Seat.holder
  | .decisions => legacy.decisions

def LegacyMutex.rank : LegacyMutex → Nat
  | .decisions => 1
  | .upload _ => 2

def LegacyOp.rank (op : LegacyOp) : Nat := op.awaits.elim 0 LegacyMutex.rank

def Receiver.Unfinished (receiver : Receiver) (o : Nat) : Prop := ∃ op :
    LegacyOp, receiver.ops[o]? = some op ∧ op.ended = false

def Receiver.Waits (receiver : Receiver) (o p : Nat) : Prop :=
  ((receiver.ops[o]?).bind LegacyOp.awaits).bind receiver.legacy.owner = some p

def Receiver.Able (sha256 : Bytes → String) (receiver : Receiver) (o : Nat) : Prop :=
  ∃ reading : Reading, reading.fault = none ∧
    (receiverStep sha256 receiver (.legacy (.advance o reading))).isSome = true

-- A cancellation leaves the frame it shares with the other rulings at check.
def LegacyOp.Steered : LegacyOp → Prop
  | .ruling verdict _ .cancelled | .ruling verdict _ .approved | .ruling verdict _ .pending =>
      verdict ≠ .cancel
  | _ => True

-- An upload lock that is taken is held by a handler past it.
structure Manned (state : LegacyState) : Prop where
  seat : ∀ (k : Nat) (seat : Seat) (p : Nat), state.legacy.seats[k]? = some seat → seat.holder = some p →
    ∃ (op : LegacyOp) (id : String), state.ops[p]? = some op ∧ op.owned = some (id, k) ∧ op.locked = true
  steered : ∀ (o : Nat) (op : LegacyOp), state.ops[o]? = some op → op.Steered

theorem legacy_holds_awaits (op : LegacyOp) (held : op.holds = true) : op.awaits = none ∧
    op.ended = false := by
  cases op with
  | ruling verdict id phase => cases phase <;> first | exact ⟨rfl, rfl⟩ | cases held
  | request offer phase => cases phase <;> first | exact ⟨rfl, rfl⟩ | cases held
  | approval peer id phase => cases held
  | chunk params phase => cases phase <;> first | exact ⟨rfl, rfl⟩ | cases held

theorem legacy_locked_awaits (op : LegacyOp) (inside : op.locked = true) :
    (∀ k, op.awaits ≠ some (.upload k)) ∧ op.ended = false := by
  cases op with
  | chunk params phase =>
      cases phase <;> simp_all [LegacyOp.awaits, LegacyOp.locked, ChunkPhase.locked, LegacyOp.ended]
  | _ => cases inside

theorem moved_steered (legacy : Legacy) (disk : ReceiverDisk) (reading : Reading) (op op' : LegacyOp)
    (act : LegacyAct) (log : List LegacyEntry) (steered : op.Steered)
    (moved : LegacyOpMove legacy disk reading op act log op') : op'.Steered := by
  cases moved with
  | ruling verdict id phase next act log moved =>
      cases moved with
      | incomplete open_ other => exact other
      | live unmarked => exact steered
      | undecided none_ => exact steered
      | _ => trivial
  | _ => trivial

theorem modify_origin (seats : List Seat) (j k : Nat) (change : Seat → Seat) (seat : Seat)
    (there : (seats.modify j change)[k]? = some seat) :
    ∃ was : Seat, seats[k]? = some was ∧ seat = if j = k then change was else was := by
  rw [List.getElem?_modify] at there
  obtain ⟨was, before, same⟩ := Option.map_eq_some_iff.mp there
  exact ⟨was, before, same.symm⟩

theorem claim_origin (legacy : Legacy) (o : Nat) (id : String) (k : Nat) (seat : Seat)
    (there : (legacy.claim o id).seats[k]? = some seat) :
    seat.holder = none ∨ ∃ was : Seat, legacy.seats[k]? = some was ∧ was.holder = seat.holder := by
  simp only [Legacy.claim] at there
  split at there
  · obtain ⟨was, before, same⟩ := modify_origin legacy.seats _ k _ seat there
    refine .inr ⟨was, before, ?_⟩
    rw [same]
    split <;> rfl
  · rcases Transition.append_cases legacy.seats k _ seat there with before | fresh
    · exact .inr ⟨seat, before, rfl⟩
    · exact .inl (by rw [fresh])

section Advance

variable (state : LegacyState) (manned : Manned state) (o : Nat) (reading : Reading) (op op' : LegacyOp)
  (act : LegacyAct) (log : List LegacyEntry) (here : state.ops[o]? = some op)
  (moved : LegacyOpMove state.legacy state.disk reading op act log op')

include manned here moved

theorem moved_manned (k : Nat) (seat : Seat) (p : Nat)
    (there : (state.legacy.apply o act).seats[k]? = some seat) (taken : seat.holder = some p) :
    ∃ (q : LegacyOp) (id : String), (state.ops.set o op')[p]? = some q ∧ q.owned = some (id, k) ∧
      q.locked = true := by
  have self : (state.ops.set o op')[o]? = some op' :=
    List.getElem?_set_self (List.getElem?_eq_some_iff.mp here).1
  -- A handler that keeps its seat and its lock through the step.
  have stays : (∀ id, op.locked = true → op.owned = some (id, k) → op'.owned = some (id, k) ∧
    op'.locked = true) →
      ∀ was : Seat, state.legacy.seats[k]? = some was → was.holder = some p →
      ∃ (q : LegacyOp) (id : String), (state.ops.set o op')[p]? = some q ∧ q.owned = some (id, k) ∧
        q.locked = true := by
    intro kept was before held
    obtain ⟨q, id, holder, owned, inside⟩ := manned.seat k was p before held
    by_cases mine : p = o
    · rw [mine] at holder ⊢
      have known : op = q := Option.some.inj (here.symm.trans holder)
      rw [← known] at owned inside
      exact ⟨op', id, self, kept id inside owned⟩
    · exact ⟨q, id, (List.getElem?_set_ne fun same => mine same.symm).trans holder, owned, inside⟩
  rcases moved_seat state.legacy state.disk reading o op op' act log moved with
    ⟨claimed, rfl, _, _, out, _⟩ | ⟨id, j, was, rfl, _, now, out, inside, found, _⟩ |
      ⟨id, j, rfl, owned, _, _, _⟩ |
    ⟨id, j, rfl, _, _, out, _⟩ | ⟨same, inside, _, seats⟩
  · rcases claim_origin state.legacy o claimed k seat there with free | ⟨was, before, same⟩
    · rw [free] at taken
      cases taken
    · exact stays (fun _ inside => absurd (out.symm.trans inside) (by simp)) was before (same.trans taken)
  · obtain ⟨was, before, same⟩ := modify_origin state.legacy.seats j k _ seat there
    by_cases equal : j = k
    · rw [same, if_pos equal] at taken
      obtain rfl : o = p := Option.some.inj taken
      exact ⟨op', id, self, equal ▸ now, inside⟩
    · rw [same, if_neg equal] at taken
      exact stays (fun _ inside => absurd (out.symm.trans inside) (by simp)) was before taken
  · obtain ⟨was, before, same⟩ := modify_origin state.legacy.seats j k _ seat there
    by_cases equal : j = k
    · rw [same, if_pos equal] at taken
      cases taken
    · rw [same, if_neg equal] at taken
      refine stays (fun other _ mine => ?_) was before taken
      exact absurd (congrArg Prod.snd (Option.some.inj (owned.symm.trans mine))) equal
  · obtain ⟨was, before, same⟩ := modify_origin state.legacy.seats j k _ seat there
    refine stays (fun _ inside => absurd (out.symm.trans inside) (by simp)) was before ?_
    rw [← taken, same]
    split <;> rfl
  · rw [seats] at there
    exact stays (fun _ before mine => ⟨same.trans mine, inside.trans before⟩) seat there taken

end Advance

theorem call_steered (call : LegacyCall) : call.op.Steered := by
  cases call <;> trivial

theorem manned_step (state next : LegacyState) (label : LegacyLabel) (manned : Manned state)
    (stepped : legacyStep state label = some next) : Manned next := by
  rcases legacy_step_cases state next label stepped with ⟨call, _, rfl⟩ |
    ⟨o, reading, op, act, log, op', _, here, moved, rfl⟩
  · constructor
    · intro k seat p there taken
      obtain ⟨q, id, holder, owned, inside⟩ := manned.seat k seat p there taken
      exact ⟨q, id, (List.getElem?_append_left (List.getElem?_eq_some_iff.mp holder).1).trans holder, owned,
        inside⟩
    · intro p q there
      rcases Transition.append_cases state.ops p call.op q there with before | rfl
      · exact manned.steered p q before
      · exact call_steered call
  · constructor
    · exact moved_manned state manned o reading op op' act log here moved
    · intro p q there
      rcases Transition.set_cases state.ops o p op' q there with ⟨_, rfl⟩ | ⟨_, before⟩
      · exact moved_steered state.legacy state.disk reading op q act log (manned.steered o op here) moved
      · exact manned.steered p q before

theorem empty_manned (disk : ReceiverDisk) (log : List LegacyEntry) : Manned ⟨.empty, disk, [], log⟩ := by
  constructor <;> simp [Legacy.empty]

theorem receiver_manned (sha256 : Bytes → String) (receiver next : Receiver) (label : ReceiverLabel)
    (manned : Manned receiver.version1) (stepped : receiverStep sha256 receiver label = some next) :
    Manned next.version1 := by
  rcases receiver_step_cases sha256 receiver next label stepped with
    ⟨_, after, _, _, _, _, rfl⟩ | ⟨after, _, _, rfl⟩ | ⟨inner, after, _, _, _, made, rfl⟩ |
      ⟨_, _, _, _, _, rfl⟩
  · exact ⟨manned.seat, manned.steered⟩
  · exact empty_manned _ _
  · have moved := manned_step receiver.version1 after inner manned made
    exact ⟨moved.seat, moved.steered⟩
  · exact ⟨manned.seat, manned.steered⟩

structure Reading.Calm (reading : Reading) (legacy : Legacy) : Prop where
  sound : reading.fault = none
  closed : reading.body = .finished
  distinct : reading.order.Nodup
  expired : reading.order.toFinset = legacy.activity.keys.filter (legacy.idle reading.now · = true)

section Moves

variable (legacy : Legacy) (disk : ReceiverDisk) (reading : Reading) (quiet : reading.Calm legacy)

def Legacy.Taken (mutex : LegacyMutex) : Prop := ∃ p, legacy.owner mutex = some p

theorem enter_moves {Phase : Type} (next : Phase) : (enterStep legacy next).isSome = true ∨
    legacy.Taken .decisions := by
  cases taken : legacy.decisions with
  | none => exact .inl (by simp [enterStep, taken])
  | some p => exact .inr ⟨p, taken⟩

theorem ruling_moves (verdict : Ruling) (id : String) (phase : RulingPhase)
    (steered : (LegacyOp.ruling verdict id phase).Steered)
    (active : (LegacyOp.ruling verdict id phase).ended = false) :
    (phase.next verdict id legacy reading).isSome = true ∨
      ∃ mutex, (LegacyOp.ruling verdict id phase).awaits = some mutex ∧ legacy.Taken mutex := by
  cases phase with
  | enter => exact (enter_moves legacy _).imp_right fun taken => ⟨.decisions, rfl, taken⟩
  | completed =>
      left
      simp only [RulingPhase.next]
      split_ifs <;> rfl
  | cancelled =>
      left
      simp only [RulingPhase.next]
      split_ifs <;> rfl
  | approved =>
      left
      simp only [RulingPhase.next]
      cases legacy.ledger.approved.lookup id <;> cases verdict <;> rfl
  | pending =>
      left
      simp only [RulingPhase.next]
      cases verdict with
      | cancel => exact absurd rfl steered
      | _ => cases legacy.ledger.pending.lookup id <;> rfl
  | check =>
      left
      simp only [RulingPhase.next]
      split_ifs <;> rfl
  | edit todo reply =>
      cases todo with
      | nil => exact .inl rfl
      | cons head rest => exact .inl rfl
  | done reply => cases active
  | durable => cases active
  | contains => exact .inl rfl
  | bytes info => exact .inl rfl

theorem approval_moves (peer id : String) (phase : ApprovalPhase)
    (active : (LegacyOp.approval peer id phase).ended = false) :
    (phase.next peer id legacy).isSome = true := by
  cases phase with
  | owner =>
      simp only [ApprovalPhase.next]
      split_ifs <;> rfl
  | token =>
      simp only [ApprovalPhase.next]
      cases legacy.ledger.approved.lookup id <;> rfl
  | rejected =>
      simp only [ApprovalPhase.next]
      cases legacy.ledger.rejected.lookup id <;> rfl
  | pending =>
      simp only [ApprovalPhase.next]
      split_ifs <;> rfl
  | done reply => cases active

include quiet

theorem request_moves (offer : Offer) (phase : RequestPhase)
    (active : (LegacyOp.request offer phase).ended = false) :
    (phase.next offer legacy reading).isSome = true ∨
      ∃ mutex, (LegacyOp.request offer phase).awaits = some mutex ∧ legacy.Taken mutex := by
  cases phase with
  | enter => exact (enter_moves legacy _).imp_right fun taken => ⟨.decisions, rfl, taken⟩
  | select => exact .inl (by simp [RequestPhase.next, quiet.distinct, quiet.expired])
  | prune todo =>
      cases todo with
      | nil => exact .inl rfl
      | cons head rest => exact .inl rfl
  | contains =>
      left
      simp only [RequestPhase.next]
      split_ifs
      · rfl
      · cases checkTransfer offer.request <;> rfl
  | used total =>
      left
      simp only [RequestPhase.next]
      split_ifs <;> rfl
  | refused total =>
      left
      simp only [RequestPhase.next]
      split_ifs <;> rfl
  | existing total =>
      left
      simp only [RequestPhase.next]
      cases legacy.ledger.pending.lookup offer.id with
      | none => rfl
      | some transfer =>
          dsimp only
          split_ifs <;> rfl
  | capacity total =>
      left
      simp only [RequestPhase.next]
      split_ifs <;> rfl
  | edit todo reply =>
      cases todo with
      | nil => exact .inl rfl
      | cons head rest => exact .inl rfl
  | retry total => exact .inl rfl
  | stamp total => exact .inl rfl
  | pend total => exact .inl rfl
  | done reply => cases active

theorem chunk_moves (params : ChunkRequest) (phase : ChunkPhase)
    (seated : ∀ k, phase.owned = some k → ∃ seat : Seat, legacy.seats[k]? = some seat)
    (active : (LegacyOp.chunk params phase).ended = false) :
    (phase.next params legacy disk reading).isSome = true ∨
      ∃ mutex, (LegacyOp.chunk params phase).awaits = some mutex ∧ legacy.Taken mutex := by
  cases phase with
  | enter k x => exact (enter_moves legacy _).imp_right fun taken => ⟨.decisions, rfl, taken⟩
  | lock k =>
      obtain ⟨seat, here⟩ := seated k rfl
      cases taken : seat.holder with
      | none => exact .inl (by simp [ChunkPhase.next, here, taken])
      | some p => exact .inr ⟨.upload k, rfl, p, by simp [Legacy.owner, here, taken]⟩
  | lookup k =>
      left
      simp only [ChunkPhase.next]
      cases legacy.ledger.pending.lookup params.transferId with
      | none => rfl
      | some transfer =>
          dsimp only
          split_ifs <;> rfl
  | received k transfer =>
      left
      simp only [ChunkPhase.next]
      split_ifs
      · rfl
      · cases transfer.files.find? (·.id == params.fileId) <;> rfl
  | prepare k transfer file =>
      left
      simp only [ChunkPhase.next, legacyPrepareStep, quiet.sound]
      split_ifs <;> rfl
  | openFile k transfer file index =>
      left
      simp only [ChunkPhase.next, openUniqueStep, quiet.sound, reduceCtorEq, if_false]
      split_ifs
      · rfl
      · cases disk.node (uniquePath file index) <;> rfl
  | receive k x => exact .inl (by simp [ChunkPhase.next, legacyReceiveStep, quiet.closed])
  | flush k x =>
      left
      simp only [ChunkPhase.next]
      split_ifs <;> rfl
  | recheck k x =>
      left
      simp only [ChunkPhase.next]
      split_ifs <;> rfl
  | cancelled k =>
      left
      simp only [ChunkPhase.next]
      split_ifs <;> rfl
  | token k =>
      left
      simp only [ChunkPhase.next]
      split_ifs <;> rfl
  | root k =>
      left
      simp only [ChunkPhase.next]
      split_ifs <;> rfl
  | done reply => cases active
  | _ => exact .inl rfl

end Moves

section Running

variable (sha256 : Bytes → String) (receiver : Receiver) (base : LegacyBase receiver.version1)
    (manned : Manned receiver.version1)
  (started : receiver.ops ≠ [] → receiver.durable.running = true)

include base manned started

-- The order of an expiry pass is any enumeration of the expired ids, and the
-- session map answers durable.contains.
theorem legacy_op_moves (o : Nat) (op : LegacyOp) (here : receiver.ops[o]? = some op)
    (active : op.ended = false) :
    (∃ reading : Reading, reading.Calm receiver.legacy ∧
      (receiverStep sha256 receiver (.legacy (.advance o reading))).isSome = true) ∨
      ∃ mutex, op.awaits = some mutex ∧ receiver.legacy.Taken mutex := by
  let answer := (op.asks).any fun id => (receiver.durable.store.sessions.lookup id).isSome
  let expired := receiver.legacy.activity.keys.filter (receiver.legacy.idle 0 · = true)
  let reading : Reading := ⟨0, answer, expired.toList, .finished, none⟩
  have quiet : reading.Calm receiver.legacy := ⟨rfl, rfl, expired.nodup_toList, expired.toList_toFinset⟩
  have running : receiver.durable.running = true := started fun none_ => by
    rw [none_] at here
    cases here
  have answered : receiver.answers (.advance o reading) = true := by
    simp only [Receiver.answers, here, Option.bind_some]
    cases asked : op.asks <;> simp [reading, answer, asked]
  have able : (op.next receiver.legacy receiver.durable.store.disk reading).isSome = true →
    ∃ reading : Reading,
      reading.Calm receiver.legacy ∧ (receiverStep sha256 receiver (.legacy (.advance o reading))).isSome =
      true := by
    intro moves
    obtain ⟨⟨act, log, op'⟩, moved⟩ := Option.isSome_iff_exists.mp moves
    refine ⟨reading, quiet, ?_⟩
    simp [receiverStep, running, answered, legacyStep, Receiver.version1, here, moved]
  have seated : ∀ id k, op.owned = some (id, k) → ∃ seat : Seat, receiver.legacy.seats[k]? = some seat :=
    fun id k owned =>
    (base.locked.owned o op id k here owned).2.imp fun _ found => found.1
  have steered := manned.steered o op here
  cases op with
  | ruling verdict id phase =>
      exact (ruling_moves receiver.legacy reading verdict id phase steered active).imp_left fun moves =>
        able (by simpa [LegacyOp.next] using moves)
  | request offer phase =>
      exact (request_moves receiver.legacy reading quiet offer phase active).imp_left fun moves => able
        (by simpa [LegacyOp.next] using moves)
  | approval peer id phase =>
      exact .inl (able (by simpa [LegacyOp.next] using approval_moves receiver.legacy peer id phase active))
  | chunk params phase =>
      exact (chunk_moves receiver.legacy receiver.durable.store.disk reading quiet params phase
        (fun k owned => seated params.transferId k (by simp [LegacyOp.owned, owned])) active).imp_left
        fun moves =>
          able (by simpa [LegacyOp.next] using moves)

theorem legacy_waits_ordered (moves : Nat → Prop)
    (able : ∀ (o : Nat) (reading : Reading), reading.Calm receiver.legacy →
    (receiverStep sha256 receiver (.legacy (.advance o reading))).isSome = true → moves o) :
    Waiting.Ordered receiver.Unfinished moves receiver.Waits
    (fun o => (receiver.ops[o]?).elim 0 LegacyOp.rank) := by
  constructor
  · rintro o ⟨op, here, active⟩ stuck
    rcases legacy_op_moves sha256 receiver base manned started o op here active with
      ⟨reading, quiet, moved⟩ | ⟨mutex, standing, p, taken⟩
    · exact absurd (able o reading quiet moved) stuck
    · exact ⟨p, by simp [Receiver.Waits, here, standing, taken]⟩
  · intro o p waiting
    obtain ⟨mutex, standing, taken⟩ := Option.bind_eq_some_iff.mp waiting
    obtain ⟨op, here, standing⟩ := Option.bind_eq_some_iff.mp standing
    cases mutex with
    | decisions =>
        obtain ⟨q, holder, holds⟩ := base.locked.holder p taken
        obtain ⟨free, active⟩ := legacy_holds_awaits q holds
        have there : receiver.ops[p]? = some q := holder
        refine ⟨⟨q, there, active⟩, ?_⟩
        simp [here, there, LegacyOp.rank, standing, free, LegacyMutex.rank]
    | upload k =>
        obtain ⟨seat, at_, held⟩ := Option.bind_eq_some_iff.mp taken
        obtain ⟨q, id, holder, _, inside⟩ := manned.seat k seat p at_ held
        obtain ⟨notSame, active⟩ := legacy_locked_awaits q inside
        have there : receiver.ops[p]? = some q := holder
        refine ⟨⟨q, there, active⟩, ?_⟩
        cases waits : q.awaits with
        | none => simp [here, there, LegacyOp.rank, standing, waits, LegacyMutex.rank]
        | some mutex =>
            cases mutex with
            | decisions => simp [here, there, LegacyOp.rank, standing, waits, LegacyMutex.rank]
            | upload j => exact absurd waits (notSame j)

end Running

-- What the two lock orders rest on in one receiver.
structure Lively (receiver : Receiver) : Prop where
  legacy : LegacyBase receiver.version1
  manned : Manned receiver.version1
  started : receiver.ops ≠ [] → receiver.durable.running = true
  durable : Base receiver.durable
  staffed : Staffed receiver.durable

theorem step_started (sha256 : Bytes → String) (receiver next : Receiver) (label : ReceiverLabel)
    (started : receiver.ops ≠ [] → receiver.durable.running = true)
    (stepped : receiverStep sha256 receiver label = some next) :
    next.ops ≠ [] → next.durable.running = true := by
  rcases receiver_step_cases sha256 receiver next label stepped with
    ⟨inner, after, _, notCrash, _, made, rfl⟩ | ⟨after, _, _, rfl⟩ | ⟨inner, after, _, running, _, _, rfl⟩ |
      ⟨_, _, _, _, _, rfl⟩
  · intro some_
    have running := started some_
    rcases step_cases sha256 receiver.durable after inner made with ⟨_, _, _, rfl⟩ |
      ⟨_, _, _, _, _, _, _, _, _, rfl⟩ | ⟨rfl, _⟩ | ⟨_, _, _, _, rfl⟩
    · exact running
    · exact running
    · exact absurd rfl notCrash
    · rfl
  · exact fun some_ => absurd rfl some_
  · exact fun _ => running
  · exact started

theorem lively_step (sha256 : Bytes → String) (receiver next : Receiver) (label : ReceiverLabel)
    (lively : Lively receiver) (stepped : receiverStep sha256 receiver label = some next) : Lively next := by
  have legacy := receiver_legacy_base sha256 receiver next label lively.legacy stepped
  have manned := receiver_manned sha256 receiver next label lively.manned stepped
  have started := step_started sha256 receiver next label lively.started stepped
  rcases receiver_step_cases sha256 receiver next label stepped with
    ⟨inner, after, _, _, _, made, rfl⟩ | ⟨after, _, made, rfl⟩ | ⟨inner, after, _, _, _, made, rfl⟩ |
      ⟨_, _, _, _, _, rfl⟩
  · exact ⟨legacy, manned, started, base_step sha256 _ after inner lively.durable made,
      staffed_step sha256 _ after inner lively.staffed made⟩
  · exact ⟨legacy, manned, started, base_step sha256 _ after _ lively.durable made,
      staffed_step sha256 _ after _ lively.staffed made⟩
  · refine ⟨legacy, manned, started, disk_base receiver.durable after.disk lively.durable ?_,
      ⟨lively.staffed.record, lively.staffed.registration⟩⟩
    intro path record there
    rcases legacy_step_cases receiver.version1 after inner made with ⟨call, _, rfl⟩ |
      ⟨o, reading, op, act, log, op', _, here, moved, rfl⟩
    · exact there
    · exact legacy_store_doc _ act path record there
  · exact ⟨legacy, manned, started, lively.durable, lively.staffed⟩

theorem initial_lively (receiver : Receiver) (initial : ReceiverInitial receiver) : Lively receiver where
  legacy := initial_legacy_base receiver.version1 initial.legacy
  manned := by
    have fresh : receiver.legacy = .empty := initial.legacy.fresh
    have idle : receiver.ops = [] := initial.legacy.idle
    constructor
    · intro k seat p there
      rw [show receiver.version1.legacy = .empty from fresh] at there
      cases there
    · intro o op there
      rw [show receiver.version1.ops = [] from idle] at there
      cases there
  started := fun some_ => absurd initial.legacy.idle some_
  durable := initial_base receiver.durable initial.durable
  staffed := initial_staffed receiver.durable initial.durable

theorem run_lively (sha256 : Bytes → String) (allow : Receiver → ReceiverLabel → Prop)
    (start receiver : Receiver) (initial : ReceiverInitial start)
    (run : Transition.Run (receiverStep sha256) allow start receiver) : Lively receiver :=
  Transition.run_invariant (receiverStep sha256) allow Lively
    (fun receiver label next lively _ stepped => lively_step sha256 receiver next label lively stepped)
    start receiver run
    (initial_lively start initial)

-- In every state of every run of a receiver with both protocols, whatever fails,
-- an unfinished operation of either protocol waits in the end for one of the
-- same protocol that can go on, and no operations wait for each other.
theorem receivers_never_deadlock (sha256 : Bytes → String) (start receiver : Receiver)
    (initial : ReceiverInitial start)
    (run : Transition.Run (receiverStep sha256) (fun _ _ => True) start receiver) :
    (∀ o, receiver.Unfinished o → ∃ p, Relation.ReflTransGen receiver.Waits o p ∧ receiver.Unfinished p ∧
      receiver.Able sha256 p) ∧
    (∀ o, ¬ Relation.TransGen receiver.Waits o o) ∧
    (∀ o, receiver.durable.Unfinished o → ∃ p, Relation.ReflTransGen receiver.durable.Waits o p ∧
      receiver.durable.Unfinished p ∧ receiver.durable.Able sha256 p) ∧
    ∀ o, ¬ Relation.TransGen receiver.durable.Waits o o := by
  have lively := run_lively sha256 _ start receiver initial run
  have legacy := legacy_waits_ordered sha256 receiver lively.legacy lively.manned lively.started
    (receiver.Able sha256) fun _ reading quiet moved => ⟨reading, quiet.sound, moved⟩
  have durable := waits_ordered sha256 receiver.durable lively.durable lively.staffed
  exact ⟨Waiting.ordered_mover _ _ _ _ legacy, Waiting.ordered_acyclic _ _ _ _ legacy,
    Waiting.ordered_mover _ _ _ _ durable,
    Waiting.ordered_acyclic _ _ _ _ durable⟩

-- A second version 1 upload waits for the first one, which waits for the
-- decisions of a registration; a version 2 forget waits for a registration,
-- which waits for the record of an upload.
theorem both_protocols_wait_in_line : ∃ receiver : Receiver,
    Transition.Run (receiverStep emptyHash) (fun _ _ => True) emptyReceiver receiver ∧ receiver.Waits 2 1 ∧
      receiver.Waits 1 3 ∧
      receiver.durable.Waits 3 2 ∧ receiver.durable.Waits 2 1 ∧
      (∃ p, Relation.ReflTransGen receiver.Waits 2 p ∧ receiver.Unfinished p ∧ receiver.Able emptyHash p) ∧
      ∃ p, Relation.ReflTransGen receiver.durable.Waits 3 p ∧ receiver.durable.Unfinished p ∧
        receiver.durable.Able emptyHash p := by
  obtain ⟨receiver, run, checked⟩ := Transition.replay_reaches (receiverStep emptyHash) (fun _ _ => True)
    ((Label.start :: Label.call (.register (smallRegister true)) :: advances 0 2).map .durable ++ .peek 0 ::
      (advances 0 5 ++ Label.call (.upload smallUpload) :: advances 1 2 ++
      Label.call (.register (smallRegister true)) ::
        advances 2 2).map .durable ++ .peek 2 :: (advances 2 1 ++ [Label.call (.forget smallId)]).map
        .durable ++
      (LegacyLabel.call (.request (smallOffer true)) :: legacyAdvances 0 14 ++ LegacyLabel.call
        (.chunk smallChunk) ::
        legacyAdvances 1 12 ++ LegacyLabel.call (.chunk smallChunk) :: legacyAdvances 2 1 ++
        LegacyLabel.call (.request (smallOffer true)) :: legacyAdvances 3 1).map .legacy) emptyReceiver
    (fun receiver => ((receiver.ops[2]?).bind LegacyOp.awaits).bind receiver.legacy.owner == some 1 &&
      ((receiver.ops[1]?).bind LegacyOp.awaits).bind receiver.legacy.owner == some 3 &&
      ((receiver.durable.ops[3]?).bind Op.awaits).bind receiver.durable.store.owner == some 2 &&
      ((receiver.durable.ops[2]?).bind Op.awaits).bind receiver.durable.store.owner == some 1 &&
      ((receiver.ops[2]?).any fun op => !op.ended) && (receiver.durable.ops[3]?).any fun op => !op.ended)
      (by decide +kernel)
  simp only [Bool.and_eq_true, beq_iff_eq] at checked
  obtain ⟨⟨⟨⟨⟨second, first⟩, forgetting⟩, registering⟩, active⟩, activeToo⟩ := checked
  obtain ⟨op, here, going⟩ := (Option.any_eq_true _ _).mp active
  obtain ⟨op', there, goingToo⟩ := (Option.any_eq_true _ _).mp activeToo
  obtain ⟨legacy, _, durable, _⟩ :=
    receivers_never_deadlock emptyHash emptyReceiver receiver empty_receiver_initial run
  exact ⟨receiver, run, second, first, forgetting, registering, legacy 2 ⟨op, here, by simpa using going⟩,
    durable 3 ⟨op', there, by simpa using goingToo⟩⟩

end GoshTransfer
