import GoshTransfer.Expiry

set_option autoImplicit false

namespace GoshTransfer

open InodeStore

def Ledger.occupied (ledger : Ledger) : Finset String :=
    ledger.pending.keys ∪ ledger.rejected.keys ∪ ledger.cancelled

def Ledger.occupancy (ledger : Ledger) : Nat :=
    ledger.pending.keys.card + ledger.rejected.keys.card + ledger.cancelled.card

theorem mem_keys {Value : Type} (map : HashMap String Value) (id : String) : id ∈ map.keys ↔
    map.lookup id ≠ none := by
  rw [Finmap.mem_keys, ← Finmap.lookup_isSome, Option.isSome_iff_ne_none]

theorem occupied_view (ledger : Ledger) (id : String) (life : Life) (known : ledger.view id = life.view) :
    id ∈ ledger.occupied ↔ life.view ≠ Life.absent.view := by
  simp only [Ledger.occupied, Finset.mem_union, mem_keys, life_pending _ id life known,
    life_rejected _ id life known,
    life_cancelled _ id life known]
  cases life <;> simp [Life.view]

theorem occupancy_card (ledger : Ledger) (lives : ∀ id, ∃ life : Life, ledger.view id = life.view) :
    ledger.occupancy = ledger.occupied.card := by
  have pending_rejected : Disjoint ledger.pending.keys ledger.rejected.keys := by
    rw [Finset.disjoint_left]
    intro id pending rejected
    obtain ⟨life, known⟩ := lives id
    exact (life_disjoint ledger id life known).2.1 ⟨(mem_keys _ id).mp pending, (mem_keys _ id).mp rejected⟩
  have cancelled : Disjoint (ledger.pending.keys ∪ ledger.rejected.keys) ledger.cancelled := by
    rw [Finset.disjoint_left]
    intro id member cancelled
    obtain ⟨life, known⟩ := lives id
    obtain pending | rejected := Finset.mem_union.mp member
    · exact (life_disjoint ledger id life known).2.2.1 ⟨(mem_keys _ id).mp pending, cancelled⟩
    · exact (life_disjoint ledger id life known).2.2.2 ⟨(mem_keys _ id).mp rejected, cancelled⟩
  rw [Ledger.occupancy, Ledger.occupied, Finset.card_union_of_disjoint cancelled,
    Finset.card_union_of_disjoint pending_rejected]

theorem occupied_card_le (ledger : Ledger) : ledger.occupied.card ≤ ledger.occupancy :=
  (Finset.card_union_le _ _).trans (Nat.add_le_add_right (Finset.card_union_le _ _) _)

-- What a registration has established since it passed the capacity test.
def LegacyOp.Welcomes (state : LegacyState) : LegacyOp → Prop
  | .request _ (.stamp _) => state.settled.occupied.card < 1024
  | .request offer (.pend _) => state.settled.occupied.card < 1024 ∧
      state.legacy.activity.lookup offer.id ≠ none
  | _ => True

structure Roomy (state : LegacyState) : Prop where
  bounded : state.settled.occupied.card ≤ 1024
  stamped : ∀ id, id ∈ state.settled.occupied → state.legacy.activity.lookup id ≠ none
  welcomes : ∀ (o : Nat) (op : LegacyOp), state.ops[o]? = some op → op.Welcomes state
  unstamps : ∀ (o : Nat) (op : LegacyOp), state.ops[o]? = some op →
    ∀ entry ∈ op.todo, ∀ id, entry.1 = .unstamp id → id ∉ state.settled.occupied

theorem welcomes_free (state : LegacyState) (op : LegacyOp) (free : op.holds = false) :
    op.Welcomes state := by
  cases op with
  | request offer phase => cases phase <;> trivial
  | _ => trivial

section Step

variable (state : LegacyState) (base : LegacyBase state) (o : Nat) (reading : Reading) (op op' : LegacyOp)
    (act : LegacyAct)
  (log : List LegacyEntry) (here : state.ops[o]? = some op)
  (moved : LegacyOpMove state.legacy state.disk reading op act log op')

include base here moved

theorem step_occupied (id : String) (member : id ∈ (state.after o act log op').settled.occupied) :
    id ∈ state.settled.occupied ∨ ∃ offer total, op = .request offer (.pend total) ∧ id = offer.id := by
  obtain ⟨life, known⟩ := base.lives id
  obtain ⟨life', known', turn⟩ := step_turns state base o reading op op' act log here moved id life known
  have registers :=
    (moved_reports state.legacy state.disk reading op op' act log moved (base.drafted o op here)).1
  rw [occupied_view _ id life' known'] at member
  rw [occupied_view _ id life known]
  cases turn with
  | stay life _ _ => exact .inl member
  | register transfer key reported =>
    obtain ⟨offer, total, source, rfl⟩ := registers transfer (by simp [reported])
    exact .inr ⟨offer, total, source, key.symm⟩
  | welcome transfer token key reported =>
    obtain ⟨offer, total, source, rfl⟩ := registers transfer (by simp [reported])
    exact .inr ⟨offer, total, source, key.symm⟩
  | expire life ids _ _ => exact absurd rfl member
  | _ => exact .inl (by simp [Life.view])

omit base in
theorem step_activity (id : String) (stamped : state.legacy.activity.lookup id ≠ none) :
    (state.after o act log op').legacy.activity.lookup id ≠ none ∨ ∃ rest, op.todo = (.unstamp id, log) ::
      rest := by
  have kept : (state.legacy.apply o act).activity.lookup id ≠ none ∨ act = .edit (.unstamp id) := by
    cases act with
    | edit change =>
      cases change with
      | unstamp other =>
        by_cases same : id = other
        · exact .inr (by rw [same])
        · exact .inl (by simpa [Legacy.apply, Edit.activity, Finmap.lookup_erase_ne same] using stamped)
      | _ => exact .inl stamped
    | stamp other now =>
      by_cases same : id = other
      · subst same
        exact .inl (by simp [Legacy.apply])
      · exact .inl (by simpa [Legacy.apply, Finmap.lookup_insert_of_ne _ same] using stamped)
    | rollback other amount =>
      refine .inl ?_
      simp only [Legacy.apply]
      split <;> exact stamped
    | _ => exact .inl stamped
  obtain kept | rfl := kept
  · exact .inl kept
  · obtain ⟨change, same, plan⟩ | idle := moved_todo state.legacy state.disk reading op op' _ log moved
    · cases same
      exact .inr ⟨op'.todo, plan⟩
    · cases moved with
      | ruling verdict key phase next act log moved => cases moved; cases idle
      | request offer phase next act log moved =>
        cases moved with
        | pruned change log rest => cases idle
        | edited change log rest reply => cases idle
      | approval peer key phase next act log moved => cases moved
      | chunk params phase next act log moved => cases moved

-- A plan is carried out as it was made, and only an expiry pass plans to take
-- activity times away: of the ids it has removed.
theorem step_unstamps (retained : Roomy state) (p : Nat) (q : LegacyOp)
    (there : (state.after o act log op').ops[p]? = some q) (entry : Edit × List LegacyEntry)
    (member : entry ∈ q.todo) (id : String) (unstamp : entry.1 = .unstamp id) :
    id ∉ (state.after o act log op').settled.occupied := by
  obtain ⟨rfl, rfl⟩ | ⟨other, before⟩ := Transition.set_cases state.ops o p op' q there
  · obtain ⟨same, busy⟩ | ⟨_, idle, _, after⟩ :=
      settled_moved state base.locked p op reading q act log here moved
    · rw [same]
      obtain ⟨change, _, plan⟩ | idle := moved_todo state.legacy state.disk reading op q act log moved
      · exact retained.unstamps p op here entry (by rw [plan]; exact List.mem_cons_of_mem _ member) id unstamp
      · obtain free | free := busy idle
        · rw [entered_todo state op reading q act log moved free] at member
          cases member
        · rw [free_todo q free] at member
          cases member
    · cases moved with
      | ruling verdict key phase next act log moved =>
        cases moved with
        | accepted token transfer same waiting =>
          simp only [LegacyOp.todo, acceptEdits, List.mem_cons, List.not_mem_nil, or_false] at member
          obtain rfl | rfl := member <;> cases unstamp
        | rejected transfer same waiting =>
          simp only [LegacyOp.todo, rejectEdits, List.mem_cons, List.not_mem_nil, or_false] at member
          obtain rfl | rfl | rfl := member <;> cases unstamp
        | cancelled info =>
          simp only [LegacyOp.todo, cancelEdits, List.mem_cons, List.not_mem_nil, or_false] at member
          obtain rfl | rfl | rfl | rfl | rfl := member <;> cases unstamp
        | edited change log rest reply => cases idle
        | _ => cases member
      | request offer phase next act log moved =>
        cases moved with
        | selected distinct chosen =>
          have listed : id ∈ reading.order := by
            obtain ⟨change, pruned, rfl⟩ := List.mem_map.mp member
            obtain ⟨key, chosen, written⟩ := List.mem_flatMap.mp pruned
            simp only [pruneOne, List.mem_cons, List.not_mem_nil, or_false] at written
            simp only at unstamp
            subst unstamp
            simp only [reduceCtorEq, false_or, Edit.unstamp.injEq] at written
            rw [written]
            exact chosen
          have gone : ((state.after p .tau [.expired reading.order]
            (.request offer (.prune (pruneEdits reading.order)))).settled).view id =
              Life.absent.view := by
            rw [after]
            exact (prune_view reading.order _ id).trans (if_pos listed)
          rw [occupied_view _ id .absent gone]
          exact fun different => different rfl
        | registered total =>
          by_cases trusted : offer.trusted = true
          · simp only [LegacyOp.todo, Offer.edits, if_pos trusted, List.mem_cons, List.not_mem_nil,
              or_false] at member
            obtain rfl | rfl | rfl := member <;> cases unstamp
          · simp only [LegacyOp.todo, Offer.edits, if_neg trusted, List.mem_cons, List.not_mem_nil,
              or_false] at member
            obtain rfl := member
            cases unstamp
        | pruned change log rest => cases idle
        | edited change log rest reply => cases idle
        | _ => cases member
      | approval peer key phase next act log moved => cases member
      | chunk params phase next act log moved => cases member
  · by_cases inside : q.holds = true
    · have free := others_free state base.locked o op here p q before inside other
      rw [settled_unheld state o reading op op' act log here moved base free]
      exact retained.unstamps p q before entry member id unstamp
    · rw [free_todo q (by simpa using inside)] at member
      cases member

theorem step_welcomes (retained : Roomy state)
    (stepped : op.next state.legacy state.disk reading = some (act, log, op')) (p : Nat) (q : LegacyOp)
    (there : (state.after o act log op').ops[p]? = some q) : q.Welcomes (state.after o act log op') := by
  obtain ⟨rfl, rfl⟩ | ⟨other, before⟩ := Transition.set_cases state.ops o p op' q there
  · cases moved with
    | request offer phase next act log moved =>
      have quiet : ∀ fresh, (∀ total, phase ≠ .pend total) →
        fresh ∈ (state.after p act log (.request offer next)).settled.occupied →
          fresh ∈ state.settled.occupied := by
        intro fresh unregistered member
        obtain known | ⟨other, total, same, -⟩ :=
          step_occupied state base p reading _ _ act log here (.request offer phase next act log moved)
            fresh member
        · exact known
        · cases same
          exact absurd rfl (unregistered total)
      cases moved with
      | admitted total =>
        have room : state.legacy.ledger.occupancy < 1024 := by
          by_contra full
          have enough : state.legacy.ledger.pending.keys.card + state.legacy.ledger.rejected.keys.card +
              state.legacy.ledger.cancelled.card ≥ 1024 := by
            simpa [Ledger.occupancy] using full
          simp [LegacyOp.next, RequestPhase.next, enough] at stepped
        have settled : state.settled = state.legacy.ledger := settled_held state base.locked p _ here rfl
        have few := occupied_card_le state.legacy.ledger
        have kept := Finset.card_le_card fun fresh member => quiet fresh (by simp) member
        rw [settled] at kept
        exact lt_of_le_of_lt (kept.trans few) room
      | stamped total =>
        have before := retained.welcomes p _ here
        have kept := Finset.card_le_card fun fresh member => quiet fresh (by simp) member
        exact ⟨lt_of_le_of_lt kept before, by simp [LegacyState.after, Legacy.apply]⟩
      | quit phase reply testing => trivial
      | _ => trivial
    | _ => trivial
  · by_cases inside : q.holds = true
    · have free := others_free state base.locked o op here p q before inside other
      have same := settled_unheld state o reading op op' act log here moved base free
      have welcomes := retained.welcomes p q before
      cases q with
      | request offer phase =>
        cases phase with
        | stamp total => simpa only [LegacyOp.Welcomes, same] using welcomes
        | pend total =>
          obtain kept | ⟨rest, plan⟩ :=
            step_activity state o reading op op' act log here moved offer.id welcomes.2
          · exact ⟨by rw [same]; exact welcomes.1, kept⟩
          · have busy := todo_holds op (by rw [plan]; simp)
            rw [free] at busy
            cases busy
        | _ => trivial
      | _ => trivial
    · exact welcomes_free _ q (by simpa using inside)

theorem step_retained (retained : Roomy state)
    (stepped : op.next state.legacy state.disk reading = some (act, log, op')) :
    Roomy (state.after o act log op') := by
  refine ⟨?_, ?_, ?_, ?_⟩
  · by_cases registers : ∃ offer total, op = .request offer (.pend total)
    · obtain ⟨offer, total, rfl⟩ := registers
      have room := (retained.welcomes o _ here).1
      have grown : (state.after o act log op').settled.occupied ⊆ insert offer.id state.settled.occupied := by
        intro id member
        obtain known | ⟨other, _, same, rfl⟩ :=
          step_occupied state base o reading _ op' act log here moved id member
        · exact Finset.mem_insert_of_mem known
        · cases same
          exact Finset.mem_insert_self _ _
      have count := (Finset.card_le_card grown).trans (Finset.card_insert_le _ _)
      omega
    · have kept : (state.after o act log op').settled.occupied ⊆ state.settled.occupied := by
        intro id member
        obtain known | ⟨offer, total, same, -⟩ :=
          step_occupied state base o reading op op' act log here moved id member
        · exact known
        · exact absurd ⟨offer, total, same⟩ registers
      exact (Finset.card_le_card kept).trans retained.bounded
  · intro id member
    have stamped : state.legacy.activity.lookup id ≠ none := by
      obtain known | ⟨offer, total, rfl, rfl⟩ :=
        step_occupied state base o reading op op' act log here moved id member
      · exact retained.stamped id known
      · exact (retained.welcomes o _ here).2
    obtain kept | ⟨rest, plan⟩ := step_activity state o reading op op' act log here moved id stamped
    · exact kept
    · have gone := retained.unstamps o op here (.unstamp id, log) (by simp [plan]) id rfl
      obtain ⟨same, -⟩ | ⟨-, idle, -⟩ := settled_moved state base.locked o op reading op' act log here moved
      · rw [same] at member
        exact absurd member gone
      · rw [plan] at idle
        cases idle
  · exact step_welcomes state base o reading op op' act log here moved retained stepped
  · intro p q there entry member id unstamp
    exact step_unstamps state base o reading op op' act log here moved retained p q there entry member id
      unstamp

end Step

-- An Arc is owned by a handler, and no seat serves two ids.
structure Seated (state : LegacyState) : Prop where
  owners : ∀ (k p : Nat) (seat : Seat), state.legacy.seats[k]? = some seat → p ∈ seat.owners →
    ∃ (op : LegacyOp) (id : String), state.ops[p]? = some op ∧ op.owned = some (id, k)
  seats : ∀ lock ∈ state.legacy.locks, lock.2 < state.legacy.seats.length
  keyed : ∀ a ∈ state.legacy.locks, ∀ b ∈ state.legacy.locks, a.2 = b.2 → a.1 = b.1

theorem modify_seat (seats : List Seat) (j k : Nat) (change : Seat → Seat) (seat : Seat)
    (there : (seats.modify j change)[k]? = some seat) :
    ∃ old, seats[k]? = some old ∧ seat = if j = k then change old else old := by
  rw [List.getElem?_modify] at there
  obtain ⟨old, found, same⟩ := Option.map_eq_some_iff.mp there
  refine ⟨old, found, ?_⟩
  by_cases equal : j = k
  · simpa [equal] using same.symm
  · simpa [equal] using same.symm

theorem retained_subset (legacy : Legacy) (lock : String × Nat) (member : lock ∈ legacy.retained) :
    lock ∈ legacy.locks :=
  (List.mem_filter.mp member).1

theorem lookup_lock (locks : List (String × Nat)) (id : String) (k : Nat)
    (found : locks.lookup id = some k) : (id, k) ∈ locks := by
  obtain ⟨before, after, parts, -⟩ := List.lookup_eq_some_iff.mp found
  simp [parts]

section Seats

variable (legacy : Legacy) (o : Nat) (id : String)

theorem claim_owner (k p : Nat) (seat : Seat) (there : (legacy.claim o id).seats[k]? = some seat)
    (member : p ∈ seat.owners) :
    (p = o ∧ k = legacy.seat id) ∨ ∃ old, legacy.seats[k]? = some old ∧ p ∈ old.owners := by
  cases found : legacy.retained.lookup id with
  | some j =>
    simp only [Legacy.claim, found] at there
    obtain ⟨old, here, same⟩ := modify_seat _ _ _ _ _ there
    by_cases equal : j = k
    · rw [same, if_pos equal, Finset.mem_insert] at member
      obtain new | kept := member
      · exact .inl ⟨new, by simp [Legacy.seat, found, equal]⟩
      · exact .inr ⟨old, here, kept⟩
    · rw [same, if_neg equal] at member
      exact .inr ⟨old, here, member⟩
  | none =>
    simp only [Legacy.claim, found] at there
    by_cases within : k < legacy.seats.length
    · rw [List.getElem?_append_left within] at there
      exact .inr ⟨seat, there, member⟩
    · have last : k = legacy.seats.length := by
        have bound := (List.getElem?_eq_some_iff.mp there).1
        simp only [List.length_append, List.length_singleton] at bound
        omega
      subst last
      have only : seat = ⟨{o}, none⟩ := by simpa using there.symm
      rw [only, Finset.mem_singleton] at member
      exact .inl ⟨member, by simp [Legacy.seat, found]⟩

theorem claim_seats_length : legacy.seats.length ≤ (legacy.claim o id).seats.length := by
  cases found : legacy.retained.lookup id with
  | some j => simp [Legacy.claim, found]
  | none => simp [Legacy.claim, found]

theorem claim_locks (lock : String × Nat) (member : lock ∈ (legacy.claim o id).locks) :
    lock = (id, legacy.seat id) ∨ (lock ∈ legacy.locks ∧ lock.1 ≠ id) := by
  simp only [Legacy.claim, List.mem_cons, List.mem_filter, decide_eq_true_eq] at member
  obtain new | ⟨kept, other⟩ := member
  · exact .inl new
  · exact .inr ⟨retained_subset legacy lock kept, other⟩

end Seats

theorem moved_seats (legacy : Legacy) (o : Nat) (act : LegacyAct) (quiet : ∀ id, act ≠ .claim id)
    (k p : Nat) (seat : Seat) (there : (legacy.apply o act).seats[k]? = some seat)
    (member : p ∈ seat.owners) :
    (∃ old, legacy.seats[k]? = some old ∧ p ∈ old.owners) ∧ (act = .vacate k → p ≠ o) := by
  cases act with
  | claim id => exact absurd rfl (quiet id)
  | lock j =>
    obtain ⟨old, here, rfl⟩ := modify_seat _ _ _ _ _ there
    refine ⟨⟨old, here, ?_⟩, by simp⟩
    split at member <;> exact member
  | unlock j =>
    obtain ⟨old, here, rfl⟩ := modify_seat _ _ _ _ _ there
    refine ⟨⟨old, here, ?_⟩, by simp⟩
    split at member <;> exact member
  | vacate j =>
    obtain ⟨old, here, rfl⟩ := modify_seat _ _ _ _ _ there
    by_cases equal : j = k
    · rw [if_pos equal, Finset.mem_erase] at member
      exact ⟨⟨old, here, member.2⟩, fun _ => member.1⟩
    · rw [if_neg equal] at member
      refine ⟨⟨old, here, member⟩, ?_⟩
      intro same
      cases same
      exact absurd rfl equal
  | rollback id amount =>
    refine ⟨⟨seat, ?_, member⟩, by simp⟩
    simp only [Legacy.apply] at there
    split at there <;> exact there
  | _ => exact ⟨⟨seat, there, member⟩, by simp⟩

theorem moved_lock_table (legacy : Legacy) (o : Nat) (act : LegacyAct) (quiet : ∀ id, act ≠ .claim id) :
    (legacy.apply o act).locks = legacy.locks ∧ (legacy.apply o act).seats.length = legacy.seats.length := by
  cases act with
  | claim id => exact absurd rfl (quiet id)
  | rollback id amount =>
    simp only [Legacy.apply]
    split <;> exact ⟨rfl, rfl⟩
  | _ => exact ⟨rfl, by simp [Legacy.apply]⟩

section SeatStep

variable (state : LegacyState) (seated : Seated state) (o : Nat) (reading : Reading) (op op' : LegacyOp)
    (act : LegacyAct)
  (log : List LegacyEntry) (here : state.ops[o]? = some op)
  (moved : LegacyOpMove state.legacy state.disk reading op act log op')

include seated here moved

theorem step_owners (k p : Nat) (seat : Seat) (there : (state.legacy.apply o act).seats[k]? = some seat)
    (member : p ∈ seat.owners) :
    ∃ (q : LegacyOp) (id : String), (state.ops.set o op')[p]? = some q ∧ q.owned = some (id, k) := by
  have within : o < state.ops.length := (List.getElem?_eq_some_iff.mp here).1
  have self : (state.ops.set o op')[o]? = some op' := List.getElem?_set_self within
  have kept : ∀ old, state.legacy.seats[k]? = some old → p ∈ old.owners → (p = o → op'.owned = op.owned) →
      ∃ (q : LegacyOp) (id : String), (state.ops.set o op')[p]? = some q ∧ q.owned = some (id, k) := by
    intro old found owner same
    obtain ⟨q, id, before, owns⟩ := seated.owners k p old found owner
    by_cases equal : p = o
    · subst equal
      rw [here, Option.some.injEq] at before
      exact ⟨op', id, self, by rw [same rfl, before]; exact owns⟩
    · exact ⟨q, id, (List.getElem?_set_ne (Ne.symm equal)).trans before, owns⟩
  obtain ⟨id, rfl, was, now, -⟩ | ⟨_, j, _, rfl, was, now, -⟩ | ⟨_, j, rfl, was, now, -⟩ |
    ⟨_, j, rfl, was, -⟩ | ⟨same, -, -, seats⟩ :=
    moved_seat state.legacy state.disk reading o op op' act log moved
  · obtain ⟨rfl, rfl⟩ | ⟨old, found, owner⟩ := claim_owner state.legacy o id k p seat there member
    · exact ⟨op', id, self, now⟩
    · refine kept old found owner ?_
      rintro rfl
      obtain ⟨q, key, before, owns⟩ := seated.owners k p old found owner
      rw [here, Option.some.injEq] at before
      rw [← before, was] at owns
      cases owns
  · obtain ⟨⟨old, found, owner⟩, -⟩ := moved_seats state.legacy o (.lock j) (by simp) k p seat there member
    exact kept old found owner fun _ => now.trans was.symm
  · obtain ⟨⟨old, found, owner⟩, -⟩ := moved_seats state.legacy o (.unlock j) (by simp) k p seat there member
    exact kept old found owner fun _ => now.trans was.symm
  · obtain ⟨⟨old, found, owner⟩, left⟩ :=
      moved_seats state.legacy o (.vacate j) (by simp) k p seat there member
    refine kept old found owner ?_
    rintro rfl
    obtain ⟨q, key, before, owns⟩ := seated.owners k p old found owner
    rw [here, Option.some.injEq] at before
    rw [← before, was] at owns
    cases owns
    exact absurd rfl (left rfl)
  · rw [seats] at there
    exact kept seat there member fun _ => same

omit here moved in
theorem claim_seated (id : String) :
    (∀ lock ∈ (state.legacy.claim o id).locks, lock.2 < (state.legacy.claim o id).seats.length) ∧
      ∀ a ∈ (state.legacy.claim o id).locks, ∀ b ∈ (state.legacy.claim o id).locks, a.2 = b.2 →
        a.1 = b.1 := by
  have longer := claim_seats_length state.legacy o id
  have mine : ∀ lock ∈ state.legacy.locks, lock.2 = state.legacy.seat id → lock.1 = id := by
    intro lock member same
    cases found : state.legacy.retained.lookup id with
    | some k =>
      have held := retained_subset state.legacy (id, k) (lookup_lock _ id k found)
      exact seated.keyed lock member (id, k) held (by simpa [Legacy.seat, found] using same)
    | none =>
      have inside := seated.seats lock member
      simp only [Legacy.seat, found, Option.getD_none] at same
      omega
  refine ⟨?_, ?_⟩
  · intro lock member
    obtain rfl | ⟨kept, -⟩ := claim_locks state.legacy o id lock member
    · obtain ⟨seat, there, -⟩ := claim_gives_seat state.legacy o id
      exact (List.getElem?_eq_some_iff.mp there).1
    · exact lt_of_lt_of_le (seated.seats lock kept) longer
  · intro a first b second same
    obtain rfl | ⟨a_kept, -⟩ := claim_locks state.legacy o id a first
    · obtain rfl | ⟨b_kept, -⟩ := claim_locks state.legacy o id b second
      · rfl
      · exact (mine b b_kept same.symm).symm
    · obtain rfl | ⟨b_kept, -⟩ := claim_locks state.legacy o id b second
      · exact mine a a_kept same
      · exact seated.keyed a a_kept b b_kept same

end SeatStep

theorem seated_step (state next : LegacyState) (label : LegacyLabel) (seated : Seated state)
    (stepped : legacyStep state label = some next) : Seated next := by
  obtain ⟨call, -, rfl⟩ | ⟨o, reading, op, act, log, op', -, here, moved, rfl⟩ :=
    legacy_step_cases state next label stepped
  · refine ⟨?_, seated.seats, seated.keyed⟩
    intro k p seat there member
    obtain ⟨op, id, before, owns⟩ := seated.owners k p seat there member
    have within : p < state.ops.length := (List.getElem?_eq_some_iff.mp before).1
    exact ⟨op, id, by rw [List.getElem?_append_left within]; exact before, owns⟩
  · have owners := step_owners state seated o reading op op' act log here moved
    by_cases claims : ∃ id, act = .claim id
    · obtain ⟨id, rfl⟩ := claims
      obtain ⟨seats, keyed⟩ := claim_seated state seated o id
      exact ⟨owners, seats, keyed⟩
    · obtain ⟨locks, length⟩ := moved_lock_table state.legacy o act fun id same => claims ⟨id, same⟩
      refine ⟨owners, ?_, ?_⟩
      · change ∀ lock ∈ (state.legacy.apply o act).locks, lock.2 < (state.legacy.apply o act).seats.length
        rw [locks, length]
        exact seated.seats
      · change ∀ a ∈ (state.legacy.apply o act).locks, ∀ b ∈ (state.legacy.apply o act).locks, a.2 = b.2 →
          a.1 = b.1
        rw [locks]
        exact seated.keyed

theorem uploadless_dead (state : LegacyState) (locked : Locked state) (seated : Seated state) (id : String)
    (uploadless : ∀ (p : Nat) (op : LegacyOp) (k : Nat), state.ops[p]? = some op → op.owned ≠ some (id, k)) :
    (state.legacy.locks.lookup id).any state.legacy.alive = false := by
  cases found : state.legacy.locks.lookup id with
  | none => rfl
  | some k =>
    by_contra alive
    have living : state.legacy.alive k = true := by simpa using alive
    cases there : state.legacy.seats[k]? with
    | none => simp [Legacy.alive, there] at living
    | some seat =>
      have nonempty : seat.owners ≠ ∅ := by simpa [Legacy.alive, there] using living
      obtain ⟨p, member⟩ := Finset.nonempty_iff_ne_empty.mpr nonempty
      obtain ⟨op, other, before, owns⟩ := seated.owners k p seat there member
      have entry := lookup_lock _ other k (locked.owned p op other k before owns).1
      have same := seated.keyed (id, k) (lookup_lock _ id k found) (other, k) entry rfl
      simp only at same
      subst same
      exact uploadless p op k before owns

structure Retention (state : LegacyState) : Prop where
  base : LegacyBase state
  retained : Roomy state
  seated : Seated state

theorem call_retained (state : LegacyState) (locked : Locked state) (retained : Roomy state)
    (call : LegacyCall) :
    Roomy { state with ops := state.ops ++ [call.op] } := by
  have same := call_settled state locked call
  have idle : call.op.todo = [] := by cases call <;> rfl
  refine ⟨by rw [same]; exact retained.bounded, by rw [same]; exact retained.stamped, ?_, ?_⟩
  · intro p q there
    obtain before | rfl := Transition.append_cases state.ops p call.op q there
    · have welcomes := retained.welcomes p q before
      cases q with
      | request offer phase =>
        cases phase with
        | stamp total => simpa only [LegacyOp.Welcomes, same] using welcomes
        | pend total => simpa only [LegacyOp.Welcomes, same] using welcomes
        | _ => trivial
      | _ => trivial
    · exact welcomes_free _ _ (legacy_call_idle call).1
  · intro p q there entry member id unstamp
    rw [same]
    obtain before | rfl := Transition.append_cases state.ops p call.op q there
    · exact retained.unstamps p q before entry member id unstamp
    · rw [idle] at member
      cases member

theorem retention_step (state next : LegacyState) (label : LegacyLabel) (inv : Retention state)
    (stepped : legacyStep state label = some next) : Retention next := by
  refine ⟨legacy_base_step state next label inv.base stepped, ?_, seated_step state next label inv.seated
    stepped⟩
  cases label with
  | call call =>
    obtain rfl : _ = next := by simpa [legacyStep] using stepped
    exact call_retained state inv.base.locked inv.retained call
  | advance o reading =>
    obtain ⟨op, here, stepped⟩ := Option.bind_eq_some_iff.mp stepped
    obtain ⟨⟨act, log, op'⟩, moved, stepped⟩ := Option.bind_eq_some_iff.mp stepped
    obtain rfl : _ = next := by simpa using stepped
    exact step_retained state inv.base o reading op op' act log here (legacy_op_move _ _ _ _ _ _ _ moved)
      inv.retained moved

theorem initial_retention (state : LegacyState) (initial : LegacyInitial state) : Retention state := by
  have free : state.legacy.decisions = none := by
    rw [initial.fresh]
    rfl
  have nobody : ∀ o : Nat, state.ops[o]? = none := by simp [initial.idle]
  have settled : state.settled = .empty := by
    rw [settled_free state free, initial.fresh]
    rfl
  refine ⟨initial_legacy_base state initial, ⟨?_, ?_, ?_, ?_⟩, ?_, ?_, ?_⟩
  · simp [settled, Ledger.empty, Ledger.occupied]
  · simp [settled, Ledger.empty, Ledger.occupied]
  · simp [nobody]
  · simp [nobody]
  · simp [initial.fresh, Legacy.empty]
  · simp [initial.fresh, Legacy.empty]
  · simp [initial.fresh, Legacy.empty]

theorem run_retention (allow : LegacyState → LegacyLabel → Prop) (start state : LegacyState)
    (initial : LegacyInitial start) (run : Transition.Run legacyStep allow start state) : Retention state :=
  Transition.run_invariant legacyStep allow Retention
    (fun state label next inv _ stepped => retention_step state next label inv stepped) start state run
    (initial_retention start initial)

def RequestPhase.sweeping : RequestPhase → Bool
  | .prune _ | .contains => true
  | _ => false

def RequestPhase.selected : RequestPhase → Bool
  | .enter | .select => false
  | _ => true

-- While the registration o has selected the expired ids and not yet gone on, the
-- id is settled to be absent.
def Sweeps (o : Nat) (offer : Offer) (id : String) (state : LegacyState) : Prop :=
  ∃ phase, state.ops[o]? = some (.request offer phase) ∧ phase.selected = true ∧
    (phase.sweeping = true → state.settled.view id = Life.absent.view)

theorem request_move_sweeping (offer : Offer) (legacy : Legacy) (reading : Reading)
    (phase next : RequestPhase) (act : LegacyAct) (log : List LegacyEntry)
    (moved : RequestMove offer legacy reading phase act log next) (selected : phase.selected = true) :
    next.selected = true ∧ (next.sweeping = true → phase.sweeping = true ∧
      (phase = .prune [] → act = .tau ∧ next = .contains)) := by
  cases moved with
  | entered free => cases selected
  | selected distinct idle => cases selected
  | pruned change log rest => exact ⟨rfl, fun _ => ⟨rfl, by simp⟩⟩
  | swept => exact ⟨rfl, fun _ => ⟨rfl, fun _ => ⟨rfl, rfl⟩⟩⟩
  | _ => exact ⟨rfl, fun sweeping => by cases sweeping⟩

theorem sweeps_step (o : Nat) (offer : Offer) (id : String) (state next : LegacyState) (label : LegacyLabel)
    (base : LegacyBase state) (sweeps : Sweeps o offer id state)
    (stepped : legacyStep state label = some next) : Sweeps o offer id next := by
  obtain ⟨phase, mine, selected, absent⟩ := sweeps
  obtain ⟨call, -, rfl⟩ | ⟨p, reading, op, act, log, op', -, here, moved, rfl⟩ :=
    legacy_step_cases state next label stepped
  · have within : o < state.ops.length := (List.getElem?_eq_some_iff.mp mine).1
    refine ⟨phase, (List.getElem?_append_left within).trans mine, selected, ?_⟩
    rw [call_settled state base.locked call]
    exact absent
  · by_cases same : p = o
    · subst same
      rw [mine, Option.some.injEq] at here
      subst here
      cases moved with
      | request offer phase after act log moved =>
        have whole : LegacyOpMove state.legacy state.disk reading (.request offer phase) act log
          (.request offer after) :=
          .request offer phase after act log moved
        obtain ⟨goes_on, sweeping⟩ :=
          request_move_sweeping offer state.legacy reading phase after act log moved selected
        have self : (state.after p act log (.request offer after)).ops[p]? = some (.request offer after) :=
          List.getElem?_set_self (List.getElem?_eq_some_iff.mp mine).1
        refine ⟨after, self, goes_on, ?_⟩
        intro still
        obtain ⟨swept, last⟩ := sweeping still
        have before := absent swept
        obtain ⟨same, -⟩ | ⟨-, idle, settled, result⟩ :=
          settled_moved state base.locked p _ reading _ act log mine whole
        · rw [same]
          exact before
        · cases phase with
          | prune todo =>
            have empty : todo = [] := idle
            subst empty
            obtain ⟨rfl, rfl⟩ := last rfl
            rw [result]
            rw [settled] at before
            exact before
          | contains => cases moved <;> cases still
          | _ => cases swept
    · refine ⟨phase, (List.getElem?_set_ne same).trans mine, selected, ?_⟩
      intro sweeping
      have busy : LegacyOp.holds (.request offer phase) = true := by
        cases phase <;> first | rfl | cases sweeping
      have free := others_free state base.locked p op here o _ mine busy (Ne.symm same)
      rw [settled_unheld state p reading op op' act log here moved base free]
      exact absent sweeping

def Absent (ledger : Ledger) (id : String) : Prop :=
  ledger.pending.lookup id = none ∧ ledger.approved.lookup id = none ∧ ledger.rejected.lookup id = none ∧
    id ∉ ledger.cancelled

theorem view_absent (ledger : Ledger) (id : String) (absent : ledger.view id = Life.absent.view) :
    Absent ledger id :=
  ⟨life_pending _ id _ absent, life_approved _ id _ absent, life_rejected _ id _ absent,
    by rw [life_cancelled _ id _ absent]; simp [Life.view]⟩

theorem select_sweeps (state next : LegacyState) (inv : Retention state) (o : Nat) (offer : Offer)
    (reading : Reading) (here : state.ops[o]? = some (.request offer .select))
    (stepped : legacyStep state (.advance o reading) = some next) (id : String) (time : Nat)
    (active : state.legacy.activity.lookup id = some time) (hour : 3600 ≤ elapsedSecs reading.now time)
    (uploadless : ∀ (p : Nat) (op : LegacyOp) (k : Nat), state.ops[p]? = some op → op.owned ≠ some (id, k)) :
    Sweeps o offer id next ∧ next.ops[o]? = some (.request offer (.prune (pruneEdits reading.order))) := by
  have within : o < state.ops.length := (List.getElem?_eq_some_iff.mp here).1
  by_cases chosen : reading.order.Nodup ∧ reading.order.toFinset = state.legacy.activity.keys.filter
    (state.legacy.idle reading.now · = true)
  · have idle : state.legacy.idle reading.now id = true := by
      simp [Legacy.idle, active, hour, uploadless_dead state inv.base.locked inv.seated id uploadless]
    have listed : id ∈ reading.order := by
      rw [← List.mem_toFinset, chosen.2, Finset.mem_filter]
      exact ⟨(mem_keys _ id).mpr (by simp [active]), idle⟩
    obtain rfl : state.after o .tau [.expired reading.order]
      (.request offer (.prune (pruneEdits reading.order))) = next := by
      simpa [legacyStep, here, LegacyOp.next, RequestPhase.next, chosen] using stepped
    have self : (state.after o .tau [.expired reading.order]
      (.request offer (.prune (pruneEdits reading.order)))).ops[o]? =
        some (.request offer (.prune (pruneEdits reading.order))) := List.getElem?_set_self within
    refine ⟨⟨_, self, rfl, fun _ => ?_⟩, self⟩
    have locked := (legacy_base_step state _ (.advance o reading) inv.base stepped).locked
    rw [settled_held _ locked o _ self rfl]
    exact (prune_view reading.order state.legacy.ledger id).trans (if_pos listed)
  · simp [legacyStep, here, LegacyOp.next, RequestPhase.next, chosen] at stepped

theorem pass_ends (state : LegacyState) (o : Nat) (offer : Offer) (todo : Todo)
    (here : state.ops[o]? = some (.request offer (.prune todo))) :
    ∃ later, Transition.Run legacyStep (fun _ label => label = .advance o calm) state later ∧
      later.ops[o]? = some (.request offer .contains) := by
  have within : o < state.ops.length := (List.getElem?_eq_some_iff.mp here).1
  induction todo generalizing state with
  | nil =>
    refine ⟨state.after o .tau [] (.request offer .contains), .tail state _ (.advance o calm) .refl rfl ?_,
      List.getElem?_set_self within⟩
    simp [legacyStep, here, LegacyOp.next, RequestPhase.next]
  | cons entry rest ih =>
    have self : (state.after o (.edit entry.1) entry.2 (.request offer (.prune rest))).ops[o]? =
      some (.request offer (.prune rest)) :=
      List.getElem?_set_self within
    obtain ⟨later, run, ends⟩ := ih _ self (List.getElem?_eq_some_iff.mp self).1
    refine ⟨later, Transition.run_trans _ _ _ _ _ (.tail state _ (.advance o calm) .refl rfl ?_) run, ends⟩
    simp [legacyStep, here, LegacyOp.next, RequestPhase.next]

-- The next registration is any that comes to its expiry pass. The pass ends by
-- its own steps, and however it is interleaved, it has removed the id when it
-- has ended.
theorem retention_is_bounded (start state : LegacyState) (initial : LegacyInitial start)
    (run : Transition.Run legacyStep (fun _ _ => True) start state) :
    (state.legacy.decisions = none → state.legacy.ledger.occupancy ≤ 1024 ∧
      ∀ id, ¬ Absent state.legacy.ledger id → ∃ time, state.legacy.activity.lookup id = some time) ∧
    ∀ o offer reading next, state.ops[o]? = some (.request offer .select) →
      legacyStep state (.advance o reading) = some next →
      ∀ id time, state.legacy.activity.lookup id = some time → 3600 ≤ elapsedSecs reading.now time →
        (∀ (p : Nat) (op : LegacyOp) (k : Nat), state.ops[p]? = some op → op.owned ≠ some (id, k)) →
        (∃ later, Transition.Run legacyStep (fun _ label => label = .advance o calm) next later ∧
          later.ops[o]? = some (.request offer .contains)) ∧
        ∀ later, Transition.Run legacyStep (fun _ _ => True) next later →
          later.ops[o]? = some (.request offer .contains) →
          Absent later.legacy.ledger id := by
  have inv := run_retention _ start state initial run
  refine ⟨?_, ?_⟩
  · intro free
    have settled := settled_free state free
    have lives : ∀ id, ∃ life : Life, state.legacy.ledger.view id = life.view := by
      rw [← settled]
      exact inv.base.lives
    refine ⟨?_, ?_⟩
    · rw [occupancy_card _ lives, ← settled]
      exact inv.retained.bounded
    · intro id present
      obtain ⟨life, known⟩ := lives id
      refine Option.ne_none_iff_exists'.mp (inv.retained.stamped id ?_)
      rw [settled, occupied_view _ id life known]
      intro gone
      exact present (view_absent _ id (known.trans gone))
  · intro o offer reading next here stepped id time active hour uploadless
    obtain ⟨sweeps, pruning⟩ :=
      select_sweeps state next inv o offer reading here stepped id time active hour uploadless
    refine ⟨pass_ends next o offer _ pruning, ?_⟩
    intro later onward ended
    have base := legacy_base_step state next _ inv.base stepped
    obtain ⟨base', phase, there, -, absent⟩ := Transition.run_invariant legacyStep (fun _ _ => True)
      (fun state => LegacyBase state ∧ Sweeps o offer id state)
      (fun state label after good _ stepped =>
        ⟨legacy_base_step state after label good.1 stepped, sweeps_step o offer id state after label good.1
          good.2 stepped⟩)
      next later onward ⟨base, sweeps⟩
    rw [ended, Option.some.injEq, LegacyOp.request.injEq] at there
    obtain rfl := there.2
    have gone := absent rfl
    rw [settled_held later base'.locked o _ ended rfl] at gone
    exact view_absent _ id gone

def LegacyOp.selecting : LegacyOp → Bool
  | .request _ .select => true
  | _ => false

theorem selecting_request (op : LegacyOp) (selecting : op.selecting = true) :
    ∃ offer, op = .request offer .select := by
  cases op with
  | request offer phase => cases phase <;> first | exact ⟨offer, rfl⟩ | cases selecting
  | _ => cases selecting

def hourLater : Reading := ⟨3600000000000, false, [offerId], .finished, none⟩

-- An offer that is forgotten by everybody is removed by the next one.
theorem idle_offer_is_removed : ∃ state later,
    Transition.Run legacyStep (fun _ _ => True) emptyLegacy state ∧
      Transition.Run legacyStep (fun _ _ => True) state later ∧
      state.legacy.ledger.pending.lookup offerId ≠ none ∧ Absent later.legacy.ledger offerId := by
  obtain ⟨state, run, checked⟩ := Transition.replay_reaches legacyStep (fun _ _ => True)
    (.call (.request (smallOffer false)) :: legacyAdvances 0 12 ++ .call (.request (smallOffer false)) ::
    legacyAdvances 1 1) emptyLegacy
    (fun state => (state.ops[1]?).any LegacyOp.selecting && state.ops.all (fun op => op.owned == none) &&
      state.legacy.activity.lookup offerId == some 0 && (state.legacy.ledger.pending.lookup offerId).isSome &&
        (legacyStep state (.advance 1 hourLater)).isSome) (by decide +kernel)
  simp only [Bool.and_eq_true, beq_iff_eq, Option.any_eq_true, List.all_eq_true,
    Option.isSome_iff_exists] at checked
  obtain ⟨⟨⟨⟨⟨op, here, selecting⟩, unowned⟩, active⟩, ⟨transfer, pending⟩⟩, ⟨next, stepped⟩⟩ := checked
  obtain ⟨offer, rfl⟩ := selecting_request op selecting
  obtain ⟨-, removal⟩ := retention_is_bounded emptyLegacy state empty_legacy_initial run
  obtain ⟨⟨later, onward, ends⟩, removed⟩ := removal 1 offer hourLater next here stepped offerId 0 active
    (by decide)
    fun p op k there owns => by simp [unowned op (List.mem_of_getElem? there)] at owns
  have free := Transition.run_mono legacyStep _ (fun _ _ => True) next later (fun _ _ _ => trivial) onward
  exact ⟨state, later, run, Transition.run_trans _ _ _ _ _ (.tail state next _ .refl trivial stepped) free,
    by simp [pending],
    removed later free ends⟩

end GoshTransfer
