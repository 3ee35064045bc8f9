import GoshTransfer.Approvals

set_option autoImplicit false

namespace GoshTransfer

open InodeStore

-- Every token that left through a response went to the address that registered
-- the transfer.
def ToRegistrant (log : List LegacyEntry) : Prop :=
  ∀ before id token peer after, log = before ++ .handed id token (some peer) :: after →
    ∃ transfer, registration id before = some transfer ∧ transfer.sourceIp = peer

-- An owner check that falls between the removal of a pending record and the
-- removal of its token, made by another peer than the one that registered it.
def LegacyState.inGap (state : LegacyState) (peer id : String) : Bool :=
  (state.legacy.ledger.pending.lookup id).isNone && (state.legacy.ledger.approved.lookup id).isSome &&
    !(registration id state.log).any fun transfer => transfer.sourceIp = peer

-- A status request of another peer has made its owner check and not yet read
-- the token.
def LegacyState.overtaken (state : LegacyState) (offer : Offer) : Bool :=
  state.ops.any fun op =>
    match op with
    | .approval peer id .token => id = offer.id && peer ≠ offer.source
    | _ => false

-- No owner check in the gap, and no registration that overtakes a status request.
def guardedReads (state : LegacyState) : LegacyLabel → Bool
  | .advance o _ =>
      match state.ops[o]? with
      | some (.approval peer id .owner) => !state.inGap peer id
      | some (.request offer (.pend _)) => !state.overtaken offer
      | _ => true
  | .call _ => true

theorem settle_pending (todo : Todo) (ledger : Ledger) (routine : ∀ entry ∈ todo, entry.1.routine = true)
    (id : String) (transfer : PendingTransfer)
    (settled : (ledger.settle todo).pending.lookup id = some transfer) :
    ledger.pending.lookup id = some transfer := by
  induction todo generalizing ledger with
  | nil => exact settled
  | cons entry rest ih =>
      have later :=
        ih (entry.1.apply ledger) (fun other member => routine other (List.mem_cons_of_mem _ member)) settled
      rcases book_pending ledger (.edit entry.1) id transfer later with ⟨before, _⟩ | ⟨pend, _⟩
      · exact before
      · have head := routine entry List.mem_cons_self
        rw [LegacyAct.edit.inj pend] at head
        cases head

-- A record that is pending in the end is pending now: only the first write of a
-- registration inserts one.
theorem settled_pending (state : LegacyState) (base : LegacyBase state) (id : String)
    (transfer : PendingTransfer) (settled : state.settled.pending.lookup id = some transfer) :
    state.legacy.ledger.pending.lookup id = some transfer := by
  cases taken : state.legacy.decisions with
  | none =>
      rw [settled_free state taken] at settled
      exact settled
  | some o =>
      obtain ⟨op, here, holds⟩ := base.locked.holder o taken
      rw [settled_held state base.locked o op here holds] at settled
      exact settle_pending op.todo _ (fun entry member => (base.drafted o op here entry member).1) id
        transfer settled

theorem moved_disclosed (legacy : Legacy) (disk : ReceiverDisk) (reading : Reading) (op op' : LegacyOp)
    (act : LegacyAct) (log : List LegacyEntry) (moved : LegacyOpMove legacy disk reading op act log op')
    (id token peer : String) (reported : .handed id token (some peer) ∈ log) :
    (op = .approval peer id .token ∧ legacy.ledger.approved.lookup id = some token) ∨
    (∃ offer total, op = .request offer (.retry total) ∧ offer.id = id ∧ offer.source = peer) ∨
    (∃ change, op.todo = (change, log) :: op'.todo) := by
  cases moved with
  | ruling verdict key phase next act log moved =>
      cases moved with
      | repeated fresh given same granted => simp at reported
      | edited change log rest reply => exact .inr (.inr ⟨change, rfl⟩)
      | _ => cases reported
  | request offer phase next act log moved =>
      cases moved with
      | retried total reply =>
          cases granted : legacy.ledger.approved.lookup offer.id with
          | none => simp [handedTo, granted] at reported
          | some given =>
              simp only [handedTo, granted, List.mem_singleton, LegacyEntry.handed.injEq,
                Option.some.injEq] at reported
              exact .inr (.inl ⟨offer, total, rfl, reported.1.symm, reported.2.2.symm⟩)
      | pruned change log rest => exact .inr (.inr ⟨change, rfl⟩)
      | edited change log rest reply => exact .inr (.inr ⟨change, rfl⟩)
      | _ => simp at reported
  | approval source key phase next act log moved =>
      cases moved with
      | disclosed given reply granted =>
          simp only [List.mem_singleton, LegacyEntry.handed.injEq, Option.some.injEq] at reported
          obtain ⟨rfl, rfl, rfl⟩ := reported
          exact .inl ⟨rfl, granted⟩
      | _ => cases reported
  | chunk params phase next act log moved =>
      cases moved with
      | counted k x amount => by_cases due : x.progressDue = true <;> simp [due, Writing.progress] at reported
      | _ => simp [Writing.progress] at reported

-- A peer past its owner check is the one that registered, or there is nothing
-- to learn about the id yet.
structure Vetted (state : LegacyState) : Prop where
  approvals : Approvals state
  readers : ∀ (o : Nat) (peer id : String), state.ops[o]? = some (.approval peer id .token) →
    (state.legacy.ledger.pending.lookup id = none ∧ state.legacy.ledger.approved.lookup id = none) ∨
      ∃ transfer, registration id state.log = some transfer ∧ transfer.sourceIp = peer
  disclosed : ToRegistrant state.log

section Step

variable (state : LegacyState) (vetted : Vetted state) (o : Nat) (reading : Reading) (op op' : LegacyOp)
    (act : LegacyAct)
  (log : List LegacyEntry) (here : state.ops[o]? = some op)
    (moved : LegacyOpMove state.legacy state.disk reading op act log op')
  (allowed : guardedReads state (.advance o reading) = true)

include vetted here moved

theorem step_discloses (id token peer : String) (reported : .handed id token (some peer) ∈ log) :
    ∃ transfer, registration id state.log = some transfer ∧ transfer.sourceIp = peer := by
  have issued := vetted.approvals.issued
  rcases moved_disclosed state.legacy state.disk reading op op' act log moved id token peer reported with
    ⟨rfl, granted⟩ | ⟨offer, total, rfl, rfl, rfl⟩ | ⟨change, plan⟩
  · rcases vetted.readers o peer id here with ⟨_, none_⟩ | known
    · exact absurd (granted.symm.trans none_) (by simp)
    · exact known
  · obtain ⟨transfer, found, same⟩ := vetted.approvals.base.checked o _ here
    exact ⟨transfer, issued.record _ transfer found, same⟩
  · obtain ⟨_, source⟩ := (issued.planned o op here (change, log) (by simp [plan])).2 id token
      (some peer) reported
    obtain ⟨transfer, found, same⟩ := source peer rfl
    exact ⟨transfer, issued.settledRecord id transfer found, same⟩

theorem step_to_registrant : ToRegistrant (state.log ++ log) := by
  intro before id token peer after parts
  rcases List.append_eq_append_iff.mp parts with ⟨middle, whole, rest⟩ | ⟨middle, whole, rest⟩
  · have reported : .handed id token (some peer) ∈ log := by simp [rest]
    obtain ⟨transfer, found, same⟩ :=
      step_discloses state vetted o reading op op' act log here moved id token peer reported
    refine ⟨transfer, ?_, same⟩
    rw [whole, registration_quiet]
    · exact found
    · intro other registered
      obtain ⟨offer, total, rfl, _⟩ := (moved_reports state.legacy state.disk reading op op' act log moved
        (vetted.approvals.base.drafted o op here)).1 other
        (by rw [rest]; exact List.mem_append_left _ registered)
      rcases moved_disclosed state.legacy state.disk reading _ op' act log moved id token peer reported with
        ⟨impossible, _⟩ | ⟨_, _, impossible, _⟩ | ⟨_, impossible⟩
      · cases impossible
      · cases impossible
      · cases impossible
  · cases middle with
    | nil =>
        rw [List.append_nil] at whole
        rw [List.nil_append] at rest
        obtain ⟨transfer, found, same⟩ :=
          step_discloses state vetted o reading op op' act log here moved id token peer (by simp [← rest])
        exact ⟨transfer, by rw [← whole]; exact found, same⟩
    | cons first remaining =>
        simp only [List.cons_append, List.cons.injEq] at rest
        obtain ⟨rfl, rfl⟩ := rest
        exact vetted.disclosed before id token peer remaining whole

include allowed

-- What a reader knows survives the steps of the others: only a registration
-- could change the registrant, and the condition keeps foreign ones out.
theorem step_readers (p : Nat) (peer id : String)
    (there : (state.after o act log op').ops[p]? = some (.approval peer id .token)) :
    ((state.after o act log op').legacy.ledger.pending.lookup id = none ∧
      (state.after o act log op').legacy.ledger.approved.lookup id = none) ∨
      ∃ transfer, registration id (state.after o act log op').log = some transfer ∧
        transfer.sourceIp = peer := by
  have base := vetted.approvals.base
  rw [show (state.after o act log op').legacy.ledger = act.book state.legacy.ledger from apply_ledger
    state.legacy o act]
  rcases Transition.set_cases state.ops o p op' _ there with ⟨rfl, rfl⟩ | ⟨other, before⟩
  · cases moved with
    | approval source key phase next act log moved =>
        cases moved with
        | owned own =>
            have quiet : registration id (state.log ++ []) = registration id state.log := by
              rw [List.append_nil]
            cases pending : state.legacy.ledger.pending.lookup id with
            | some transfer =>
                exact .inr ⟨transfer, quiet.trans (vetted.approvals.issued.record id transfer pending),
                  own transfer pending⟩
            | none =>
                cases approved : state.legacy.ledger.approved.lookup id with
                | none => exact .inl ⟨pending, approved⟩
                | some token =>
                    simp only [guardedReads, here, LegacyState.inGap, pending, approved] at allowed
                    cases found : registration id state.log with
                    | none => simp [found] at allowed
                    | some transfer =>
                        exact .inr ⟨transfer, quiet.trans found, by simpa [found] using allowed⟩
  · by_cases registers : ∃ transfer, .registered transfer ∈ log ∧ transfer.id = id
    · obtain ⟨transfer, reported, key⟩ := registers
      obtain ⟨offer, total, rfl, rfl⟩ :=
        (moved_reports state.legacy state.disk reading op op' act log moved (base.drafted o op here)).1
          transfer reported
      cases moved with
      | request offer phase next act log moved =>
          cases moved with
          | registered total =>
              refine .inr ⟨offer.pending total, registration_new id state.log _ key, ?_⟩
              simp only [guardedReads, here, Bool.not_eq_true', LegacyState.overtaken,
                List.any_eq_false] at allowed
              have mine := allowed _ (List.mem_of_getElem? before)
              have same : id = offer.id := key.symm
              have equal : peer = offer.source := by simpa [same] using mine
              exact equal.symm
          | _ => simp at reported
    · have quiet : ∀ transfer, .registered transfer ∈ log → transfer.id ≠ id :=
        fun transfer reported key => registers ⟨transfer, reported, key⟩
      rw [show (state.after o act log op').log = state.log ++ log from rfl,
        registration_quiet id state.log log quiet]
      rcases vetted.readers p peer id before with ⟨pending, approved⟩ | known
      · left
        constructor
        · cases now : (act.book state.legacy.ledger).pending.lookup id with
          | none => rfl
          | some transfer =>
              rcases book_pending _ _ _ _ now with ⟨old, _⟩ | ⟨pend, key⟩
              · exact absurd (old.symm.trans pending) (by simp)
              · exact absurd key
                  (quiet transfer ((moved_pend state base o reading op op' act log here moved transfer).mp
                  pend))
        · cases now : (act.book state.legacy.ledger).approved.lookup id with
          | none => rfl
          | some token =>
              rcases book_approved _ _ _ _ now with old | rfl
              · exact absurd (old.symm.trans approved) (by simp)
              · have plan := moved_approve state.legacy state.disk reading op op' log id token moved
                have first :=
                  (vetted.approvals.issued.planned o op here (.approve id token, log) (by simp [plan])).1 id
                    token rfl
                obtain ⟨transfer, settled⟩ := Option.ne_none_iff_exists'.mp first.2
                exact absurd ((settled_pending state base id transfer settled).symm.trans pending) (by simp)
      · exact .inr known

end Step

theorem vetted_step (state next : LegacyState) (label : LegacyLabel) (vetted : Vetted state)
    (allowed : guardedReads state label = true) (stepped : legacyStep state label = some next) :
    Vetted next := by
  have approvals := approvals_step state next label vetted.approvals stepped
  rcases legacy_step_cases state next label stepped with ⟨call, _, rfl⟩ |
    ⟨o, reading, op, act, log, op', rfl, here, moved, rfl⟩
  · refine ⟨approvals, ?_, vetted.disclosed⟩
    intro p peer id there
    rcases Transition.append_cases state.ops p call.op _ there with before | new
    · exact vetted.readers p peer id before
    · cases call <;> cases new
  · exact ⟨approvals, step_readers state vetted o reading op op' act log here moved allowed,
      step_to_registrant state vetted o reading op op' act log here moved⟩

theorem initial_vetted (state : LegacyState) (initial : LegacyInitial state) : Vetted state := by
  refine ⟨initial_approvals state initial, ?_, ?_⟩
  · intro p peer id there
    rw [initial.idle] at there
    cases there
  · intro before id token peer after parts
    rw [initial.silent] at parts
    simp at parts

-- While no owner check falls into the gap and no registration overtakes a
-- status request, tokens go to the address that registered.
theorem tokens_reach_the_registrant (start state : LegacyState) (initial : LegacyInitial start)
    (run : Transition.Run legacyStep (fun state label => guardedReads state label = true) start state) :
    ToRegistrant state.log :=
  (Transition.run_invariant legacyStep (fun state label => guardedReads state label = true) Vetted
    (fun state label next vetted allowed stepped => vetted_step state next label vetted allowed stepped)
    start state run
    (initial_vetted start initial)).disclosed

-- The registrant asks for the status of its accepted transfer.
theorem registrant_reads_its_token : ∃ state, Transition.Run legacyStep
    (fun state label => guardedReads state label = true) emptyLegacy state ∧
    ∃ before, state.log = before ++ [.handed offerId "t" (some "10.0.0.2")] ∧
      ∃ transfer, registration offerId before = some transfer ∧ transfer.sourceIp = "10.0.0.2" := by
  obtain ⟨state, run, checked⟩ :=
    Transition.replay_reaches legacyStep (fun state label => guardedReads state label = true)
    (.call (.request (smallOffer true)) :: legacyAdvances 0 14 ++ .call (.status "10.0.0.2" offerId) ::
      legacyAdvances 1 2) emptyLegacy
    (fun state => state.log.getLast? == some (.handed offerId "t" (some "10.0.0.2"))) (by decide +kernel)
  obtain ⟨before, parts⟩ := List.getLast?_eq_some_iff.mp (beq_iff_eq.mp checked)
  exact ⟨state, run, before, parts, tokens_reach_the_registrant emptyLegacy state empty_legacy_initial run
    before offerId "t" _ [] parts⟩

-- cancel_transfer has removed the pending record and not yet the token: any
-- peer passes the owner check and reads it.
theorem cancellation_leaks_the_token : ¬ ∀ start state, LegacyInitial start → Transition.Run legacyStep
    (fun _ _ => True) start state →
    ToRegistrant state.log := by
  intro always
  obtain ⟨state, run, checked⟩ := Transition.replay_reaches legacyStep (fun _ _ => True)
    (.call (.request (smallOffer true)) :: legacyAdvances 0 14 ++ .call (.cancel offerId) ::
    legacyAdvances 1 7 ++
      .call (.status "10.0.0.9" offerId) :: legacyAdvances 2 2) emptyLegacy
    (fun state => state.log.getLast? == some (.handed offerId "t" (some "10.0.0.9")) &&
      (registration offerId state.log.dropLast).all fun transfer => transfer.sourceIp ≠ "10.0.0.9")
      (by decide +kernel)
  rw [Bool.and_eq_true, beq_iff_eq] at checked
  obtain ⟨before, parts⟩ := List.getLast?_eq_some_iff.mp checked.1
  obtain ⟨transfer, found, same⟩ := always emptyLegacy state empty_legacy_initial run before offerId "t" _
    [] parts
  have other := checked.2
  rw [parts, List.dropLast_concat, found] at other
  simp [same] at other

end GoshTransfer
