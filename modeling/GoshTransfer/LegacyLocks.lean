import GoshTransfer.LegacyMove

set_option autoImplicit false

namespace GoshTransfer

open InodeStore

-- holds says that an operation owns the decisions guard.
def RulingPhase.holds : RulingPhase → Bool
  | .contains | .enter | .done _ | .durable => false
  | _ => true

def RequestPhase.holds : RequestPhase → Bool
  | .enter | .done _ => false
  | _ => true

def ChunkPhase.holds : ChunkPhase → Bool
  | .restamp _ _ | .recheck _ _ | .report _ _ | .commit _ _ | .tally _ _ | .complete _ _ | .total _ _ _ |
      .uncount _ _ | .leave _ _ => true
  | .remove _ held _ _ | .rollback _ held _ _ => held
  | _ => false

def LegacyOp.holds : LegacyOp → Bool
  | .ruling _ _ phase => phase.holds
  | .request _ phase => phase.holds
  | .approval _ _ _ => false
  | .chunk _ phase => phase.holds

-- The seat whose Arc a handler owns, and the one whose mutex it holds.
def ChunkPhase.owned : ChunkPhase → Option Nat
  | .seat | .done _ => none
  | .lock k | .cancelled k | .token k | .root k | .lookup k | .received k _ | .stamp k _ _ |
      .prepare k _ _ | .openFile k _ _ _
  | .receive k _ | .count k _ _ | .flush k _ | .enter k _ | .restamp k _ | .recheck k _ | .report k _ |
      .commit k _ | .tally k _
  | .complete k _ | .total k _ _ | .uncount k _ | .remove k _ _ _ | .rollback k _ _ _ | .leave k _ |
      .unlock k _ _
  | .vacate k _ _ => some k

def ChunkPhase.locked : ChunkPhase → Bool
  | .seat | .lock _ | .vacate _ _ _ | .done _ => false
  | _ => true

def LegacyOp.owned : LegacyOp → Option (String × Nat)
  | .chunk params phase => phase.owned.map fun k => (params.transferId, k)
  | _ => none

def LegacyOp.locked : LegacyOp → Bool
  | .chunk _ phase => phase.locked
  | _ => false

section Moved

variable (legacy : Legacy) (disk : ReceiverDisk) (reading : Reading) (o : Nat) (op op' : LegacyOp)
    (act : LegacyAct)
  (log : List LegacyEntry)

theorem legacy_early_phase (phase : ChunkPhase) (k : Nat) (early : phase.early = some k) :
    phase.holds = false ∧ phase.owned = some k ∧ phase.locked = true := by
  cases phase <;> simp_all [ChunkPhase.early, ChunkPhase.holds, ChunkPhase.owned, ChunkPhase.locked]

theorem discarding_phase (phase : ChunkPhase) (k : Nat) (held : Bool) (x : Writing)
    (discarding : phase.discarding = some (k, held, x)) :
    phase.holds = held ∧ phase.owned = some k ∧ phase.locked = true := by
  cases phase <;> simp_all [ChunkPhase.discarding, ChunkPhase.holds, ChunkPhase.owned, ChunkPhase.locked]

theorem ruling_testing (phase : RulingPhase) (testing : phase.testing = true) : phase.holds = true := by
  cases phase <;> first | rfl | cases testing

theorem request_testing (phase : RequestPhase) (testing : phase.testing = true) : phase.holds = true := by
  cases phase <;> first | rfl | cases testing

@[simp] theorem apply_ledger : (legacy.apply o act).ledger = act.book legacy.ledger := by
  cases act with
  | rollback id amount =>
      simp only [Legacy.apply]
      split <;> rfl
  | _ => rfl

theorem moved_holds (moved : LegacyOpMove legacy disk reading op act log op') :
    (legacy.decisions = none ∧ op.holds = false ∧ op'.holds = true ∧
      (legacy.apply o act).decisions = some o) ∨
    (op.holds = true ∧ op'.holds = false ∧ (legacy.apply o act).decisions = none) ∨
    (op'.holds = op.holds ∧ (legacy.apply o act).decisions = legacy.decisions) := by
  cases moved with
  | ruling verdict id phase next act log moved =>
      cases moved with
      | entered free => exact .inl ⟨free, rfl, rfl, rfl⟩
      | left reply => exact .inr (.inl ⟨rfl, rfl, rfl⟩)
      | quit phase reply testing => exact .inr (.inr ⟨(ruling_testing phase testing).symm, rfl⟩)
      | _ => exact .inr (.inr ⟨rfl, rfl⟩)
  | request offer phase next act log moved =>
      cases moved with
      | entered free => exact .inl ⟨free, rfl, rfl, rfl⟩
      | left reply => exact .inr (.inl ⟨rfl, rfl, rfl⟩)
      | quit phase reply testing => exact .inr (.inr ⟨(request_testing phase testing).symm, rfl⟩)
      | _ => exact .inr (.inr ⟨rfl, rfl⟩)
  | approval peer id phase next act log moved => cases moved <;> exact .inr (.inr ⟨rfl, rfl⟩)
  | chunk request phase next act log moved =>
      cases moved with
      | entered k x free => exact .inl ⟨free, rfl, rfl, rfl⟩
      | left k reply => exact .inr (.inl ⟨rfl, rfl, rfl⟩)
      | rolledBack k x reply =>
          refine .inr (.inr ⟨rfl, ?_⟩)
          simp only [Legacy.apply]
          split <;> rfl
      | rolledBackHeld k x reply =>
          refine .inr (.inr ⟨rfl, ?_⟩)
          simp only [Legacy.apply]
          split <;> rfl
      | quit phase k reply early => exact .inr (.inr ⟨(legacy_early_phase phase k early).1.symm, rfl⟩)
      | discarded phase k held x reply discarding =>
          exact .inr (.inr ⟨(discarding_phase phase k held x discarding).1.symm, rfl⟩)
      | _ => exact .inr (.inr ⟨rfl, rfl⟩)

theorem moved_books (moved : LegacyOpMove legacy disk reading op act log op') (free : op.holds = false)
    (ledger : Ledger) :
    act.book ledger = ledger := by
  cases moved with
  | ruling verdict id phase next act log moved => cases moved <;> first | rfl | cases free
  | request offer phase next act log moved => cases moved <;> first | rfl | cases free
  | approval peer id phase next act log moved => cases moved <;> rfl
  | chunk request phase next act log moved => cases moved <;> first | rfl | cases free

theorem moved_seat (moved : LegacyOpMove legacy disk reading op act log op') :
    (∃ id, act = .claim id ∧ op.owned = none ∧ op'.owned = some (id, legacy.seat id) ∧ op.locked = false ∧
      op'.locked = false) ∨
    (∃ id k seat, act = .lock k ∧ op.owned = some (id, k) ∧ op'.owned = some (id, k) ∧ op.locked = false ∧
      op'.locked = true ∧
      legacy.seats[k]? = some seat ∧ seat.holder = none) ∨
    (∃ id k, act = .unlock k ∧ op.owned = some (id, k) ∧ op'.owned = some (id, k) ∧ op.locked = true ∧
      op'.locked = false) ∨
    (∃ id k, act = .vacate k ∧ op.owned = some (id, k) ∧ op'.owned = none ∧ op.locked = false ∧
      op'.locked = false) ∨
    (op'.owned = op.owned ∧ op'.locked = op.locked ∧ (legacy.apply o act).locks = legacy.locks ∧
      (legacy.apply o act).seats = legacy.seats) := by
  cases moved with
  | ruling verdict id phase next act log moved =>
      cases moved <;> exact .inr (.inr (.inr (.inr ⟨rfl, rfl, rfl, rfl⟩)))
  | request offer phase next act log moved =>
      cases moved <;> exact .inr (.inr (.inr (.inr ⟨rfl, rfl, rfl, rfl⟩)))
  | approval peer id phase next act log moved =>
      cases moved <;> exact .inr (.inr (.inr (.inr ⟨rfl, rfl, rfl, rfl⟩)))
  | chunk request phase next act log moved =>
      cases moved with
      | seated => exact .inl ⟨_, rfl, rfl, rfl, rfl, rfl⟩
      | locked k seat here free => exact .inr (.inl ⟨_, k, seat, rfl, rfl, rfl, rfl, rfl, here, free⟩)
      | unlocked k passed reply => exact .inr (.inr (.inl ⟨_, k, rfl, rfl, rfl, rfl, rfl⟩))
      | vacated k passed reply => exact .inr (.inr (.inr (.inl ⟨_, k, rfl, rfl, rfl, rfl, rfl⟩)))
      | rolledBack k x reply =>
          refine .inr (.inr (.inr (.inr ⟨rfl, rfl, ?_, ?_⟩))) <;> simp only [Legacy.apply] <;> split <;> rfl
      | rolledBackHeld k x reply =>
          refine .inr (.inr (.inr (.inr ⟨rfl, rfl, ?_, ?_⟩))) <;> simp only [Legacy.apply] <;> split <;> rfl
      | quit phase k reply early =>
          obtain ⟨_, owned, locked⟩ := legacy_early_phase phase k early
          refine .inr (.inr (.inr (.inr ⟨?_, ?_, rfl, rfl⟩)))
          · simp only [LegacyOp.owned, owned]
            rfl
          · simp only [LegacyOp.locked, locked]
            rfl
      | discarded phase k held x reply discarding =>
          obtain ⟨_, owned, locked⟩ := discarding_phase phase k held x discarding
          refine .inr (.inr (.inr (.inr ⟨?_, ?_, rfl, rfl⟩)))
          · simp only [LegacyOp.owned, owned]
            rfl
          · simp only [LegacyOp.locked, locked]
            rfl
      | _ => exact .inr (.inr (.inr (.inr ⟨rfl, rfl, rfl, rfl⟩)))

end Moved

theorem legacy_call_idle (call : LegacyCall) : call.op.holds = false ∧ call.op.owned = none ∧
    call.op.locked = false := by
  cases call <;> exact ⟨rfl, rfl, rfl⟩

-- Both mutexes name the one operation that is past them.
structure Locked (state : LegacyState) : Prop where
  held : ∀ (o : Nat) (op : LegacyOp), state.ops[o]? = some op → op.holds = true →
    state.legacy.decisions = some o
  holder : ∀ o : Nat, state.legacy.decisions = some o → ∃ op : LegacyOp, state.ops[o]? = some op ∧
    op.holds = true
  owned : ∀ (o : Nat) (op : LegacyOp) (id : String) (k : Nat), state.ops[o]? = some op →
    op.owned = some (id, k) →
    state.legacy.locks.lookup id = some k ∧ ∃ seat : Seat, state.legacy.seats[k]? = some seat ∧
      o ∈ seat.owners
  sole : ∀ (o : Nat) (op : LegacyOp) (id : String) (k : Nat) (seat : Seat), state.ops[o]? = some op →
    op.owned = some (id, k) →
    op.locked = true → state.legacy.seats[k]? = some seat → seat.holder = some o

theorem lookup_filter (locks : List (String × Nat)) (keep : String × Nat → Bool) (id : String) (k : Nat)
    (found : locks.lookup id = some k) (kept : keep (id, k) = true) :
    (locks.filter keep).lookup id = some k := by
  induction locks with
  | nil => cases found
  | cons lock rest ih =>
      obtain ⟨other, j⟩ := lock
      by_cases same : id = other
      · subst same
        have equal : j = k := by simpa [List.lookup_cons] using found
        subst equal
        simp [kept]
      · have skip : (id == other) = false := by simpa using same
        have later : rest.lookup id = some k := by simpa [List.lookup_cons, skip] using found
        rw [List.filter_cons]
        split
        · simpa [List.lookup_cons, skip] using ih later
        · exact ih later

theorem owner_alive (legacy : Legacy) (k o : Nat) (seat : Seat) (here : legacy.seats[k]? = some seat)
    (member : o ∈ seat.owners) :
    legacy.alive k = true := by
  have nonempty : seat.owners ≠ ∅ := Finset.ne_empty_of_mem member
  simp [Legacy.alive, here, nonempty]

theorem owned_retained (state : LegacyState) (locked : Locked state) (o : Nat) (op : LegacyOp) (id : String)
    (k : Nat) (here : state.ops[o]? = some op) (owns : op.owned = some (id, k)) :
    state.legacy.retained.lookup id = some k := by
  obtain ⟨found, seat, there, member⟩ := locked.owned o op id k here owns
  exact lookup_filter _ _ id k found (owner_alive state.legacy k o seat there member)

theorem retained_seat (legacy : Legacy) (id : String) (k : Nat) (found : legacy.retained.lookup id = some k) :
    ∃ seat, legacy.seats[k]? = some seat := by
  obtain ⟨before, after, parts, _⟩ := List.lookup_eq_some_iff.mp found
  have inside : (id, k) ∈ legacy.retained := by simp [parts]
  have alive : legacy.alive k = true := (List.mem_filter.mp inside).2
  cases here : legacy.seats[k]? with
  | none => simp [Legacy.alive, here] at alive
  | some seat => exact ⟨seat, rfl⟩

section Claim

variable (legacy : Legacy) (o : Nat) (id : String)

theorem claim_keeps_seat (k : Nat) (seat : Seat) (here : legacy.seats[k]? = some seat) :
    ∃ after, (legacy.claim o id).seats[k]? = some after ∧ after.holder = seat.holder ∧
      ∀ p, p ∈ seat.owners → p ∈ after.owners := by
  have within : k < legacy.seats.length := (List.getElem?_eq_some_iff.mp here).1
  simp only [Legacy.claim]
  split
  · rename_i j found
    by_cases same : j = k
    · subst same
      refine ⟨{ seat with owners := insert o seat.owners }, by simp [here], rfl, ?_⟩
      intro p member
      exact Finset.mem_insert_of_mem member
    · exact ⟨seat, by simp [same, here], rfl, fun p member => member⟩
  · exact ⟨seat, by rw [List.getElem?_append_left within]; exact here, rfl, fun p member => member⟩

theorem claim_gives_seat : ∃ seat, (legacy.claim o id).seats[legacy.seat id]? = some seat ∧
    o ∈ seat.owners := by
  simp only [Legacy.claim, Legacy.seat]
  split
  · rename_i k found
    obtain ⟨seat, here⟩ := retained_seat legacy id k found
    exact ⟨{ seat with owners := insert o seat.owners }, by simp [found, here], Finset.mem_insert_self o _⟩
  · rename_i none_
    exact ⟨⟨{o}, none⟩, by simp [none_], Finset.mem_singleton_self o⟩

theorem claim_keeps_lock (other : String) (k : Nat) (found : legacy.retained.lookup other = some k) :
    (legacy.claim o id).locks.lookup other = some k := by
  simp only [Legacy.claim]
  by_cases same : other = id
  · subst same
    simp [Legacy.seat, found]
  · rw [List.lookup_cons]
    simp only [beq_eq_false_iff_ne.mpr same]
    exact lookup_filter _ _ other k found (by simpa using same)

end Claim

section Step

variable (state : LegacyState) (locked : Locked state) (o : Nat) (reading : Reading) (op op' : LegacyOp)
    (act : LegacyAct)
  (log : List LegacyEntry) (here : state.ops[o]? = some op)
  (moved : LegacyOpMove state.legacy state.disk reading op act log op')

include locked here moved

theorem moved_held (p : Nat) (q : LegacyOp) (there : (state.ops.set o op')[p]? = some q)
    (holds : q.holds = true) :
    (state.legacy.apply o act).decisions = some p := by
  rcases Transition.set_cases state.ops o p op' q there with ⟨rfl, rfl⟩ | ⟨other, before⟩
  · rcases moved_holds state.legacy state.disk reading p op q act log moved with ⟨_, _, _, taken⟩ |
      ⟨_, freed, _⟩ | ⟨same, kept⟩
    · exact taken
    · rw [freed] at holds
      cases holds
    · rw [kept]
      exact locked.held p op here (same ▸ holds)
  · have mine := locked.held p q before holds
    rcases moved_holds state.legacy state.disk reading o op op' act log moved with ⟨free, _, _, _⟩ |
      ⟨held, _, _⟩ | ⟨_, kept⟩
    · rw [free] at mine
      cases mine
    · have his := locked.held o op here held
      rw [mine] at his
      exact absurd (Option.some.inj his) other
    · rw [kept]
      exact mine

theorem moved_holder (p : Nat) (taken : (state.legacy.apply o act).decisions = some p) :
    ∃ q, (state.ops.set o op')[p]? = some q ∧ q.holds = true := by
  have within : o < state.ops.length := (List.getElem?_eq_some_iff.mp here).1
  have self : (state.ops.set o op')[o]? = some op' := List.getElem?_set_self within
  rcases moved_holds state.legacy state.disk reading o op op' act log moved with ⟨_, _, holds, now⟩ |
    ⟨_, _, now⟩ | ⟨same, kept⟩
  · rw [now] at taken
    cases taken
    exact ⟨op', self, holds⟩
  · rw [now] at taken
    cases taken
  · obtain ⟨q, there, holds⟩ := locked.holder p (kept ▸ taken)
    by_cases mine : p = o
    · subst mine
      rw [here] at there
      cases there
      exact ⟨op', self, same.trans holds⟩
    · exact ⟨q, (List.getElem?_set_ne (fun equal => mine equal.symm)).trans there, holds⟩

theorem moved_owned (p : Nat) (q : LegacyOp) (id : String) (k : Nat)
    (there : (state.ops.set o op')[p]? = some q) (owns : q.owned = some (id, k)) :
    (state.legacy.apply o act).locks.lookup id = some k ∧
      ∃ seat, (state.legacy.apply o act).seats[k]? = some seat ∧ p ∈ seat.owners := by
  have stays : ∀ r, state.ops[p]? = some r → r.owned = some (id, k) → (p = o → act ≠ .vacate k) →
      (state.legacy.apply o act).locks.lookup id = some k ∧
        ∃ seat, (state.legacy.apply o act).seats[k]? = some seat ∧ p ∈ seat.owners := by
    intro r before owns notVacated
    obtain ⟨found, seat, at_, member⟩ := locked.owned p r id k before owns
    rcases moved_seat state.legacy state.disk reading o op op' act log moved with
      ⟨other, rfl, _⟩ | ⟨_, j, _, rfl, _⟩ | ⟨_, j, rfl, _⟩ | ⟨_, j, rfl, _⟩ | ⟨_, _, locks, seats⟩
    · obtain ⟨after, now, _, keeps⟩ := claim_keeps_seat state.legacy o other k seat at_
      exact ⟨claim_keeps_lock state.legacy o other id k (owned_retained state locked p r id k before owns),
        after, now, keeps p member⟩
    · refine ⟨found, ?_⟩
      by_cases same : j = k
      · exact ⟨{ seat with holder := some o }, by simp [Legacy.apply, same, at_], member⟩
      · exact ⟨seat, by simp [Legacy.apply, same, at_], member⟩
    · refine ⟨found, ?_⟩
      by_cases same : j = k
      · exact ⟨{ seat with holder := none }, by simp [Legacy.apply, same, at_], member⟩
      · exact ⟨seat, by simp [Legacy.apply, same, at_], member⟩
    · refine ⟨found, ?_⟩
      by_cases same : j = k
      · subst same
        have other : p ≠ o := fun equal => notVacated equal rfl
        exact ⟨{ seat with owners := seat.owners.erase o }, by simp [Legacy.apply, at_],
          Finset.mem_erase.mpr ⟨other, member⟩⟩
      · exact ⟨seat, by simp [Legacy.apply, same, at_], member⟩
    · rw [locks, seats]
      exact ⟨found, seat, at_, member⟩
  rcases Transition.set_cases state.ops o p op' q there with ⟨rfl, rfl⟩ | ⟨other, before⟩
  · rcases moved_seat state.legacy state.disk reading p op q act log moved with
      ⟨other, rfl, _, now, _⟩ | ⟨other, j, _, rfl, was, now, _⟩ | ⟨other, j, rfl, was, now, _⟩ |
        ⟨_, j, rfl, _, now, _⟩ | ⟨same, _, locks, seats⟩
    · rw [now] at owns
      cases owns
      exact ⟨by simp [Legacy.apply, Legacy.claim], claim_gives_seat state.legacy p id⟩
    · rw [now] at owns
      exact stays op here (was.trans owns) (by simp)
    · rw [now] at owns
      exact stays op here (was.trans owns) (by simp)
    · rw [now] at owns
      cases owns
    · rw [locks, seats]
      exact locked.owned p op id k here (same ▸ owns)
  · exact stays q before owns fun equal => absurd equal other

theorem moved_sole (p : Nat) (q : LegacyOp) (id : String) (k : Nat) (seat : Seat)
    (there : (state.ops.set o op')[p]? = some q) (owns : q.owned = some (id, k)) (inside : q.locked = true)
    (at_ : (state.legacy.apply o act).seats[k]? = some seat) :
    seat.holder = some p := by
  rcases Transition.set_cases state.ops o p op' q there with ⟨rfl, rfl⟩ | ⟨other, before⟩
  · rcases moved_seat state.legacy state.disk reading p op q act log moved with
      ⟨_, _, _, _, _, out⟩ | ⟨_, j, was, rfl, _, now, _, _, found, _⟩ | ⟨_, _, _, _, _, _, out⟩ |
        ⟨_, _, _, _, _, _, out⟩ | ⟨same, inside', _, seats⟩
    · rw [out] at inside
      cases inside
    · rw [now] at owns
      cases owns
      have after : seat = { was with holder := some p } := by simpa [Legacy.apply, found] using at_.symm
      rw [after]
    · rw [out] at inside
      cases inside
    · rw [out] at inside
      cases inside
    · exact locked.sole p op id k seat here (same ▸ owns) (inside' ▸ inside) (seats ▸ at_)
  · obtain ⟨_, held, was, _⟩ := locked.owned p q id k before owns
    have mine := locked.sole p q id k held before owns inside was
    rcases moved_seat state.legacy state.disk reading o op op' act log moved with
      ⟨claimed, rfl, _⟩ | ⟨_, j, taken, rfl, _, _, _, _, found, free⟩ | ⟨_, j, rfl, owned, _, holding, _⟩ |
        ⟨_, j, rfl, _⟩ | ⟨_, _, _, seats⟩
    · obtain ⟨after, now, same, _⟩ := claim_keeps_seat state.legacy o claimed k held was
      rw [show (state.legacy.claim o claimed).seats[k]? = some seat from at_] at now
      cases now
      exact same.trans mine
    · by_cases same : j = k
      · subst same
        rw [found] at was
        cases was
        rw [mine] at free
        cases free
      · have kept : seat = held := by simpa [Legacy.apply, same, was] using at_.symm
        rw [kept, mine]
    · by_cases same : j = k
      · subst same
        have his := locked.sole o op _ j held here owned holding was
        rw [mine] at his
        exact absurd (Option.some.inj his) other
      · have kept : seat = held := by simpa [Legacy.apply, same, was] using at_.symm
        rw [kept, mine]
    · by_cases same : j = k
      · subst same
        have kept : seat = { held with owners := held.owners.erase o } := by
          simpa [Legacy.apply, was] using at_.symm
        rw [kept]
        exact mine
      · have kept : seat = held := by simpa [Legacy.apply, same, was] using at_.symm
        rw [kept, mine]
    · rw [seats, was] at at_
      cases at_
      exact mine

end Step

theorem locked_step (state next : LegacyState) (label : LegacyLabel) (locked : Locked state)
    (stepped : legacyStep state label = some next) : Locked next := by
  rcases legacy_step_cases state next label stepped with ⟨call, _, rfl⟩ |
    ⟨o, reading, op, act, log, op', _, here, moved, rfl⟩
  · obtain ⟨free, unowned, _⟩ := legacy_call_idle call
    refine ⟨?_, ?_, ?_, ?_⟩
    · intro p q there holds
      rcases Transition.append_cases state.ops p call.op q there with before | rfl
      · exact locked.held p q before holds
      · rw [free] at holds
        cases holds
    · intro p taken
      obtain ⟨q, there, holds⟩ := locked.holder p taken
      have within : p < state.ops.length := (List.getElem?_eq_some_iff.mp there).1
      exact ⟨q, by rw [List.getElem?_append_left within]; exact there, holds⟩
    · intro p q id k there owns
      rcases Transition.append_cases state.ops p call.op q there with before | rfl
      · exact locked.owned p q id k before owns
      · rw [unowned] at owns
        cases owns
    · intro p q id k seat there owns inside at_
      rcases Transition.append_cases state.ops p call.op q there with before | rfl
      · exact locked.sole p q id k seat before owns inside at_
      · rw [unowned] at owns
        cases owns
  · exact ⟨moved_held state locked o reading op op' act log here moved,
      moved_holder state locked o reading op op' act log here moved,
      moved_owned state locked o reading op op' act log here moved, moved_sole state locked o reading op op'
      act log here moved⟩

theorem initial_locked (state : LegacyState) (initial : LegacyInitial state) : Locked state := by
  refine ⟨?_, ?_, ?_, ?_⟩
  · intro p q there
    rw [initial.idle] at there
    cases there
  · intro p taken
    rw [initial.fresh] at taken
    cases taken
  · intro p q id k there
    rw [initial.idle] at there
    cases there
  · intro p q id k seat there
    rw [initial.idle] at there
    cases there

end GoshTransfer
