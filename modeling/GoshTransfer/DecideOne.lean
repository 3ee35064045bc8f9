import GoshTransfer.Listing

set_option autoImplicit false

namespace GoshTransfer

open InodeStore Histories

-- accept_all_transfers with the tokens that accept_transfer draws, or
-- reject_all_transfers.
inductive Choice where
  | accept (draw : String → String)
  | reject

def Choice.verdict (choice : Choice) (id : String) : Ruling :=
  match choice with
  | .accept draw => .accept (draw id)
  | .reject => .reject

def Choice.legacyCall (choice : Choice) (id : String) : LegacyCall :=
  match choice with
  | .accept draw => .accept (draw id) id
  | .reject => .reject id

def Choice.durableCall (choice : Choice) (id : String) : Call :=
  match choice with
  | .accept _ => .accept id
  | .reject => .reject id

abbrev Answer := Except EngineError (Option String)

def Op.decided : Op → Option Answer
  | .accept _ (.done reply) => some (reply.map some)
  | .reject _ (.done reply) => some (reply.map fun _ => none)
  | _ => none

def awaits (turn : Nat ⊕ Nat) (docket : Docket) (label : ReceiverLabel) : Bool :=
  oneByOne docket label &&
    match turn, label with
    | .inl o, .legacy (.advance p _) => o = p
    | .inr o, .durable (.advance p _) => o = p
    | _, _ => false

-- ServerState::accept_transfer or reject_transfer on an idle receiver, up to its
-- return. Where version 2 has a session with the id, its decision is called.
inductive Returns (sha256 : Bytes → String) (choice : Choice) (id : String) (start : Docket) : Answer →
    Docket → Prop where
  | legacy (called final : Docket) (answer : Answer)
      (call : docketStep sha256 start (.legacy (.call (choice.legacyCall id))) = some called)
      (run : Transition.Run (docketStep sha256)
      (fun docket label => awaits (.inl start.state.ops.length) docket label = true) called final)
      (returned : final.state.ops[start.state.ops.length]? = some (.ruling (choice.verdict id) id
      (.done answer))) :
      Returns sha256 choice id start answer final
  | durable (called asked again final : Docket) (answer : Answer)
      (call : docketStep sha256 start (.legacy (.call (choice.legacyCall id))) = some called)
      (run : Transition.Run (docketStep sha256)
      (fun docket label => awaits (.inl start.state.ops.length) docket label = true) called asked)
      (found : asked.state.ops[start.state.ops.length]? = some (.ruling (choice.verdict id) id .durable))
      (callAgain : docketStep sha256 asked (.durable (.call (choice.durableCall id))) = some again)
      (runAgain : Transition.Run (docketStep sha256)
        (fun docket label => awaits (.inr asked.state.durable.ops.length) docket label = true) again final)
      (returned : (final.state.durable.ops[asked.state.durable.ops.length]?).bind Op.decided = some answer) :
      Returns sha256 choice id start answer final

-- What the ruling of version 1 finds about an id that waits.
structure Ledger.Open (ledger : Ledger) (id : String) : Prop where
  pending : ledger.pending.lookup id ≠ none
  unapproved : ledger.approved.lookup id = none
  unmarked : id ∉ ledger.cancelled
  incomplete : id ∉ ledger.completed

-- The place of a ruling that will answer Ok.
def RulingPhase.Fine (id : String) (legacy : Legacy) : RulingPhase → Prop
  | .contains | .enter => legacy.decisions = none ∧ legacy.ledger.Open id
  | .completed | .cancelled | .approved | .pending => legacy.ledger.Open id
  | .edit _ answer | .done answer => ∃ value, answer = .ok value
  | _ => False

def RulingPhase.steps : RulingPhase → Nat
  | .contains => 10
  | .enter => 9
  | .completed => 8
  | .cancelled => 7
  | .approved => 6
  | .pending => 5
  | .edit todo _ => todo.length + 1
  | _ => 0

def RulingPhase.tells (verdict : Ruling) (id : String) : RulingPhase → List Happening
  | .done _ => [verdict.happening id]
  | _ => []

section Ruling

variable (choice : Choice) (id : String) (legacy : Legacy) (reading : Reading) (o : Nat) (phase : RulingPhase)
  (fine : phase.Fine id legacy) (fresh : phase = .contains → reading.durable = false)
  (running : ∀ answer, phase ≠ .done answer)

include fine fresh running

theorem fine_ruling_next : ∃ act log next, phase.next
    (choice.verdict id) id legacy reading = some (act, log, next) ∧
    next.Fine id (legacy.apply o act) ∧ next.steps < phase.steps ∧
      (LegacyOp.ruling (choice.verdict id) id phase).tells reading = next.tells (choice.verdict id) id := by
  cases phase with
  | contains => exact ⟨.tau, [], .enter, by simp [RulingPhase.next, fresh rfl], fine, by decide, rfl⟩
  | enter => exact ⟨.enter, [], .completed, by simp [RulingPhase.next, enterStep, fine.1], fine.2,
      by decide, rfl⟩
  | completed =>
      have other : choice.verdict id ≠ .cancel := by cases choice <;> simp [Choice.verdict]
      exact ⟨.tau, [], .cancelled, by simp [RulingPhase.next, fine.incomplete, other], fine, by decide, rfl⟩
  | cancelled => exact ⟨.tau, [], .approved, by simp [RulingPhase.next, fine.unmarked], fine, by decide, rfl⟩
  | approved => exact ⟨.tau, [], .pending, by simp [RulingPhase.next, fine.unapproved], fine, by decide, rfl⟩
  | pending =>
      obtain ⟨transfer, waiting⟩ := Option.ne_none_iff_exists'.mp fine.pending
      cases choice with
      | accept draw =>
          exact ⟨.tau, [], .edit (acceptEdits id (draw id)) (.ok (some (draw id))),
            by simp [RulingPhase.next, waiting, Choice.verdict],
            ⟨_, rfl⟩, by simp [RulingPhase.steps, acceptEdits], rfl⟩
      | reject =>
          exact ⟨.tau, [], .edit (rejectEdits id) (.ok none),
            by simp [RulingPhase.next, waiting, Choice.verdict], ⟨_, rfl⟩,
            by simp [RulingPhase.steps, rejectEdits], rfl⟩
  | edit todo answer =>
      obtain ⟨value, rfl⟩ := fine
      cases todo with
      | nil => exact ⟨.leave, [], .done (.ok value), rfl, ⟨value, rfl⟩, by simp [RulingPhase.steps], rfl⟩
      | cons entry rest =>
          exact ⟨.edit entry.1, entry.2, .edit rest (.ok value), rfl, ⟨value, rfl⟩,
            by simp [RulingPhase.steps], rfl⟩
  | done answer => exact absurd rfl (running answer)
  | _ => exact fine.elim

end Ruling

-- A ruling of version 1 runs alone and will answer Ok; n bounds its steps.
structure Rules (choice : Choice) (id : String) (history : List Happening) (o n : Nat) (docket : Docket) :
    Prop where
  recounts : Recounts (some (.inl o)) docket
  running : docket.state.durable.running = true
  absent : docket.state.durable.store.sessions.lookup id = none
  place : ∃ phase, docket.state.ops[o]? = some (.ruling (choice.verdict id) id phase) ∧
    phase.Fine id docket.state.legacy ∧
    phase.steps ≤ n ∧ docket.history = history ++ phase.tells (choice.verdict id) id

theorem awaits_legacy (o : Nat) (docket : Docket) (label : ReceiverLabel)
    (allowed : awaits (.inl o) docket label = true) :
    oneByOne docket label = true ∧ ∃ reading, label = .legacy (.advance o reading) := by
  simp only [awaits, Bool.and_eq_true] at allowed
  refine ⟨allowed.1, ?_⟩
  have turn := allowed.2
  split at turn
  · rename_i p q reading same
    cases same
    exact ⟨reading, by rw [of_decide_eq_true turn]⟩
  · rename_i same
    cases same
  · cases turn

theorem awaits_durable (o : Nat) (docket : Docket) (label : ReceiverLabel)
    (allowed : awaits (.inr o) docket label = true) :
    oneByOne docket label = true ∧ ∃ fault, label = .durable (.advance o fault) := by
  simp only [awaits, Bool.and_eq_true] at allowed
  refine ⟨allowed.1, ?_⟩
  have turn := allowed.2
  split at turn
  · rename_i same
    cases same
  · rename_i p q fault same
    cases same
    exact ⟨fault, by rw [of_decide_eq_true turn]⟩
  · cases turn

section Rules

variable (sha256 : Bytes → String) (choice : Choice) (id : String) (history : List Happening) (o : Nat)

theorem rules_step (n : Nat) (docket next : Docket) (label : ReceiverLabel)
    (rules : Rules choice id history o n docket) (allowed : awaits (.inl o) docket label = true)
    (stepped : docketStep sha256 docket label = some next) :
    ∃ m < n, Rules choice id history o m next := by
  obtain ⟨permitted, reading, rfl⟩ := awaits_legacy o docket label allowed
  have recounts := recounts_step sha256 (some (.inl o)) docket next _ rules.recounts permitted stepped
  obtain ⟨phase, here, fine, few, told⟩ := rules.place
  obtain ⟨receiver, made, rfl⟩ := annotate_cases (receiverStep sha256) Receiver.tells docket next _ stepped
  have happened : docket.state.tells (.legacy (.advance o reading)) =
      (LegacyOp.ruling (choice.verdict id) id phase).tells reading := by simp [Receiver.tells, here]
  obtain ⟨_, _, same, _⟩ | ⟨_, same, _⟩ | ⟨inner, after, same, running, answered, legacy, isNext⟩ |
    ⟨_, _, same, _⟩ :=
    receiver_step_cases sha256 docket.state receiver _ made
  · cases same
  · cases same
  · cases same
    obtain ⟨op, there, stepped⟩ := Option.bind_eq_some_iff.mp legacy
    obtain rfl : _ = op := Option.some.inj (here.symm.trans there)
    obtain ⟨⟨act, log, op'⟩, moved, same⟩ := Option.bind_eq_some_iff.mp stepped
    obtain rfl := Option.some.inj same
    have going : ∀ answer, phase ≠ .done answer := by
      rintro answer rfl
      cases moved
    have fresh : phase = .contains → reading.durable = false := by
      rintro rfl
      simpa [Receiver.answers, here, LegacyOp.asks, rules.absent] using answered
    obtain ⟨act', log', phase', chosen, fine', fewer, tells⟩ :=
      fine_ruling_next choice id docket.state.legacy reading o phase fine fresh going
    have equal : (act', log', LegacyOp.ruling (choice.verdict id) id phase') = (act, log, op') := by
      refine Option.some.inj (Eq.trans ?_ moved)
      simp [LegacyOp.next, Receiver.version1, chosen]
    cases equal
    have within : o < docket.state.ops.length := (List.getElem?_eq_some_iff.mp here).1
    have silent : phase.tells (choice.verdict id) id =
      [] := by cases phase <;> first | rfl | exact absurd rfl (going _)
    subst isNext
    refine ⟨phase'.steps, by omega, recounts, running, rules.absent, phase', ?_, fine', le_rfl, ?_⟩
    · exact List.getElem?_set_self within
    · rw [happened, tells, told, silent, List.append_nil]
  · cases same

theorem rules_goes_on (n : Nat) (docket : Docket) (rules : Rules choice id history o n docket)
    (going : ¬ ∃ answer, docket.state.ops[o]? = some (.ruling (choice.verdict id) id (.done answer))) :
    ∃ label next m, awaits (.inl o) docket label = true ∧ docketStep sha256 docket label = some next ∧ m < n ∧
      Rules choice id history o m next := by
  obtain ⟨phase, here, fine, few, told⟩ := rules.place
  have running : ∀ answer, phase ≠ .done answer := fun answer same => going ⟨answer, by rw [here, same]⟩
  obtain ⟨act, log, phase', chosen, _⟩ := fine_ruling_next choice id docket.state.legacy calm o phase fine
    (fun _ => rfl) running
  have allowed : awaits (.inl o) docket (.legacy (.advance o calm)) = true := by simp [awaits, oneByOne]
  have answered : docket.state.answers (.advance o calm) = true := by
    cases phase <;> simp [Receiver.answers, here, LegacyOp.asks, calm, rules.absent]
  have moved : LegacyOp.next docket.state.legacy docket.state.durable.store.disk calm
    (.ruling (choice.verdict id) id phase) =
      some (act, log, .ruling (choice.verdict id) id phase') := by simp [LegacyOp.next, chosen]
  have made : legacyStep docket.state.version1 (.advance o calm) =
      some (docket.state.version1.after o act log (.ruling (choice.verdict id) id phase')) := by
    have there : docket.state.version1.ops[o]? = some (.ruling (choice.verdict id) id phase) := here
    simp only [legacyStep, there, Option.bind_some]
    rw [show LegacyOp.next docket.state.version1.legacy docket.state.version1.disk calm
      (.ruling (choice.verdict id) id phase) = some (act, log, .ruling (choice.verdict id) id phase')
      from moved]
    rfl
  have stepped : ∃ receiver, receiverStep sha256 docket.state (.legacy (.advance o calm)) =
    some receiver := by
    simp [receiverStep, rules.running, answered, made]
  obtain ⟨receiver, stepped⟩ := stepped
  have noted := annotate_step (receiverStep sha256) Receiver.tells docket _ receiver stepped
  obtain ⟨m, less, next⟩ := rules_step sha256 choice id history o n docket _ _ rules allowed noted
  exact ⟨_, _, m, allowed, noted, less, next⟩

theorem rules_begin (turn : Option (Nat ⊕ Nat)) (docket called : Docket) (recounts : Recounts turn docket)
    (idle : docket.state.idle = true) (waits : awaiting .legacy id docket.history ≠ none)
    (call : docketStep sha256 docket (.legacy (.call (choice.legacyCall id))) = some called) :
    Rules choice id docket.history docket.state.ops.length 10 called := by
  have later :=
    recounts_step sha256 turn docket called (.legacy (.call (choice.legacyCall id))) recounts idle call
  have free := idle_decisions turn docket recounts idle
  have settled := idle_settled turn docket recounts idle
  have pending := (awaiting_retained turn docket recounts idle id).1 waits
  rw [← idle_legacy turn docket recounts idle] at waits
  have unapproved : docket.state.legacy.ledger.approved.lookup id = none := by
    by_contra granted
    exact waits (granted_waits _ granted)
  have open_ : docket.state.legacy.ledger.Open id := by
    refine ⟨pending, unapproved, ?_, ?_⟩
    · obtain ⟨life, known⟩ := recounts.apart.base.lives id
      rw [settled] at known
      rw [life_cancelled _ id life known]
      rw [life_pending _ id life known] at pending
      cases life <;> simp_all [Life.view]
    · intro complete
      have closed := recounts.closed id
      rw [settled] at closed
      exact closed complete unapproved
  have absent : docket.state.durable.store.sessions.lookup id = none := by
    by_contra present
    exact pending (recounts.apart.apart id present)
  obtain ⟨receiver, made, rfl⟩ := annotate_cases (receiverStep sha256) Receiver.tells docket called _ call
  obtain ⟨_, _, same, _⟩ | ⟨_, same, _⟩ | ⟨inner, after, same, running, _, legacy, isNext⟩ |
    ⟨_, _, same, _⟩ :=
    receiver_step_cases sha256 docket.state receiver _ made
  · cases same
  · cases same
  · cases same
    obtain rfl : _ = after := Option.some.inj legacy
    have op : (choice.legacyCall id).op = .ruling (choice.verdict id) id .contains := by cases choice <;> rfl
    subst isNext
    refine ⟨later, running, absent, .contains, ?_, ⟨free, open_⟩, le_rfl, rfl⟩
    simp [Receiver.version1, op]
  · cases same

theorem rules_end (n : Nat) (docket : Docket) (rules : Rules choice id history o n docket) (answer : Answer)
    (returned : docket.state.ops[o]? = some (.ruling (choice.verdict id) id (.done answer))) :
    (∃ value, answer = .ok value) ∧ docket.history = history ++ [(choice.verdict id).happening id] ∧
      docket.state.idle = true := by
  obtain ⟨phase, here, fine, _, told⟩ := rules.place
  obtain rfl : phase = .done answer := by simpa using here.symm.trans returned
  refine ⟨fine, told, alone_idle _ _ rules.recounts.alone ?_ (by simp)⟩
  intro p op mine there
  obtain rfl : o = p := by simpa using mine
  rw [returned] at there
  cases there
  rfl

end Rules

-- A ruling of version 1 about a session of version 2, which it hands over.
structure Asks (choice : Choice) (id : String) (history : List Happening) (o n : Nat) (docket : Docket) :
    Prop where
  recounts : Recounts (some (.inl o)) docket
  running : docket.state.durable.running = true
  present : docket.state.durable.store.sessions.lookup id ≠ none
  place : (docket.state.ops[o]? = some (.ruling (choice.verdict id) id .contains) ∧ n = 1) ∨
    (docket.state.ops[o]? = some (.ruling (choice.verdict id) id .durable) ∧ n = 0)
  silent : docket.history = history

section Asks

variable (sha256 : Bytes → String) (choice : Choice) (id : String) (history : List Happening) (o : Nat)

theorem asks_step (n : Nat) (docket next : Docket) (label : ReceiverLabel)
    (asks : Asks choice id history o n docket) (allowed : awaits (.inl o) docket label = true)
    (stepped : docketStep sha256 docket label = some next) :
    ∃ m < n, Asks choice id history o m next := by
  obtain ⟨permitted, reading, rfl⟩ := awaits_legacy o docket label allowed
  have recounts := recounts_step sha256 (some (.inl o)) docket next _ asks.recounts permitted stepped
  obtain ⟨receiver, made, rfl⟩ := annotate_cases (receiverStep sha256) Receiver.tells docket next _ stepped
  obtain ⟨_, _, same, _⟩ | ⟨_, same, _⟩ | ⟨inner, after, same, running, answered, legacy, isNext⟩ |
    ⟨_, _, same, _⟩ :=
    receiver_step_cases sha256 docket.state receiver _ made
  · cases same
  · cases same
  · cases same
    obtain ⟨op, there, stepped⟩ := Option.bind_eq_some_iff.mp legacy
    obtain ⟨⟨act, log, op'⟩, moved, same⟩ := Option.bind_eq_some_iff.mp stepped
    obtain rfl := Option.some.inj same
    rcases asks.place with ⟨here, rfl⟩ | ⟨here, rfl⟩
    · obtain rfl : _ = op := Option.some.inj (here.symm.trans there)
      have found : reading.durable = true := by
        have told : reading.durable = (docket.state.durable.store.sessions.lookup id).isSome := by
          simpa [Receiver.answers, here, LegacyOp.asks] using answered
        rw [told, Option.isSome_iff_ne_none]
        exact asks.present
      have quiet : docket.state.tells (.legacy (.advance o reading)) =
        [] := by simp [Receiver.tells, here, LegacyOp.tells]
      obtain ⟨rfl, rfl, rfl⟩ : LegacyAct.tau = act ∧ [] = log ∧
        LegacyOp.ruling (choice.verdict id) id .durable = op' := by
        simpa [LegacyOp.next, RulingPhase.next, found] using moved
      subst isNext
      refine ⟨0, by decide, recounts, running, asks.present, .inr ⟨?_, rfl⟩, ?_⟩
      · exact List.getElem?_set_self (List.getElem?_eq_some_iff.mp here).1
      · rw [quiet, List.append_nil]
        exact asks.silent
    · obtain rfl : _ = op := Option.some.inj (here.symm.trans there)
      cases moved
  · cases same

theorem asks_goes_on (n : Nat) (docket : Docket) (asks : Asks choice id history o n docket)
    (going : docket.state.ops[o]? ≠ some (.ruling (choice.verdict id) id .durable)) :
    ∃ label next m, awaits (.inl o) docket label = true ∧ docketStep sha256 docket label = some next ∧ m < n ∧
      Asks choice id history o m next := by
  obtain ⟨here, _⟩ | ⟨here, _⟩ := asks.place
  · have allowed : awaits (.inl o) docket (.legacy (.advance o { calm with durable := true })) =
      true := by simp [awaits, oneByOne]
    have found : (docket.state.durable.store.sessions.lookup id).isSome = true :=
      Option.isSome_iff_ne_none.mpr asks.present
    have answered : docket.state.answers (.advance o { calm with durable := true }) = true := by
      simp [Receiver.answers, here, LegacyOp.asks, found]
    have stepped : ∃ receiver, receiverStep sha256 docket.state
      (.legacy (.advance o { calm with durable := true })) = some receiver := by
      have there : docket.state.version1.ops[o]? = some (.ruling (choice.verdict id) id .contains) := here
      simp [receiverStep, asks.running, answered, legacyStep, there, LegacyOp.next, RulingPhase.next]
    obtain ⟨receiver, stepped⟩ := stepped
    have noted := annotate_step (receiverStep sha256) Receiver.tells docket _ receiver stepped
    obtain ⟨m, less, next⟩ := asks_step sha256 choice id history o n docket _ _ asks allowed noted
    exact ⟨_, _, m, allowed, noted, less, next⟩
  · exact absurd here going

theorem asks_begin (turn : Option (Nat ⊕ Nat)) (docket called : Docket) (recounts : Recounts turn docket)
    (idle : docket.state.idle = true) (present : docket.state.durable.store.sessions.lookup id ≠ none)
    (call : docketStep sha256 docket (.legacy (.call (choice.legacyCall id))) = some called) :
    Asks choice id docket.history docket.state.ops.length 1 called := by
  have later :=
    recounts_step sha256 turn docket called (.legacy (.call (choice.legacyCall id))) recounts idle call
  obtain ⟨receiver, made, rfl⟩ := annotate_cases (receiverStep sha256) Receiver.tells docket called _ call
  obtain ⟨_, _, same, _⟩ | ⟨_, same, _⟩ | ⟨inner, after, same, running, _, legacy, isNext⟩ |
    ⟨_, _, same, _⟩ :=
    receiver_step_cases sha256 docket.state receiver _ made
  · cases same
  · cases same
  · cases same
    obtain rfl : _ = after := Option.some.inj legacy
    have op : (choice.legacyCall id).op = .ruling (choice.verdict id) id .contains := by cases choice <;> rfl
    subst isNext
    refine ⟨later, running, present, .inl ⟨?_, rfl⟩, List.append_nil _⟩
    simp [Receiver.version1, op]
  · cases same

theorem asks_end (n : Nat) (docket : Docket) (asks : Asks choice id history o n docket)
    (found : docket.state.ops[o]? = some (.ruling (choice.verdict id) id .durable)) :
    docket.state.idle = true := by
  refine alone_idle _ _ asks.recounts.alone ?_ (by simp)
  intro p op mine there
  obtain rfl : o = p := by simpa using mine
  rw [found] at there
  cases there
  rfl

end Asks

-- The record of a session that waits in version 2.
structure Record.Waiting (record : Record) : Prop where
  undecided : record.decision = .pending
  live : record.cancelled = false
  incomplete : record.complete = false

theorem waiting_open (record : Record) (waiting : record.Waiting) : record.terminal = false := by
  simp [Record.terminal, waiting.undecided, waiting.live, waiting.incomplete]

-- The place of a decision of version 2 that will answer Ok.
def AcceptPhase.Fine (id : String) (store : Store) : AcceptPhase → Prop
  | .lookup => ∃ s session, store.sessions.lookup id = some s ∧ store.heap[s]? = some session ∧
      session.lock = none ∧ session.record.Waiting
  | .lock s => ∃ session, store.heap[s]? = some session ∧ session.lock = none ∧ session.record.Waiting
  | .decide s => ∃ session, store.heap[s]? = some session ∧ session.record.Waiting
  | .leave _ reply | .done reply => ∃ token, reply = .ok token

def RejectPhase.Fine (id : String) (store : Store) : RejectPhase → Prop
  | .lookup => ∃ s session, store.sessions.lookup id = some s ∧ store.heap[s]? = some session ∧
      session.lock = none ∧ session.record.Waiting
  | .lock s => ∃ session, store.heap[s]? = some session ∧ session.lock = none ∧ session.record.Waiting
  | .decide s => ∃ session, store.heap[s]? = some session ∧ session.record.Waiting
  | .announce s => ∃ session, store.heap[s]? = some session
  | .leave _ reply | .done reply => reply = .ok ()

def AcceptPhase.steps : AcceptPhase → Nat
  | .lookup => 5
  | .lock _ => 4
  | .decide _ => 3
  | .leave _ _ => 1
  | .done _ => 0

def RejectPhase.steps : RejectPhase → Nat
  | .lookup => 5
  | .lock _ => 4
  | .decide _ => 3
  | .announce _ => 2
  | .leave _ _ => 1
  | .done _ => 0

section Moves

variable (id : String) (store : Store) (fault : Option Fault) (p : Nat) (act : Act) (log : List Entry)
  (unbroken : ∀ saved, fault ≠ some (.persist saved))

include unbroken

theorem accept_fine (phase next : AcceptPhase) (fine : phase.Fine id store)
    (moved : AcceptMove id store fault phase act log next) :
    next.Fine id (store.apply p act) ∧ next.steps < phase.steps ∧
      (Op.accept id phase).tells = if next.steps = 0 then [.accepted .durable id] else [] := by
  cases moved with
  | missing absent =>
      obtain ⟨s, _, found, _⟩ := fine
      rw [absent] at found
      cases found
  | found s present =>
      obtain ⟨t, session, found, here, free, waiting⟩ := fine
      obtain rfl : t = s := Option.some.inj (found.symm.trans present)
      exact ⟨⟨session, here, free, waiting⟩, by simp [AcceptPhase.steps], rfl⟩
  | locked s session here free =>
      obtain ⟨other, there, _, waiting⟩ := fine
      obtain rfl : session = other := Option.some.inj (here.symm.trans there)
      exact ⟨⟨_, apply_heap store p (.acquire s) s session here, by simpa [Act.on] using waiting⟩,
        by simp [AcceptPhase.steps], rfl⟩
  | refuse s session e here ended ok =>
      obtain ⟨other, there, waiting⟩ := fine
      obtain rfl : session = other := Option.some.inj (here.symm.trans there)
      rw [waiting_open session.record waiting] at ended
      cases ended
  | accepted s session here open_ ok => exact ⟨⟨_, rfl⟩, by simp [AcceptPhase.steps], rfl⟩
  | failed s session saved here open_ broken => exact absurd broken (unbroken saved)
  | left s reply =>
      obtain ⟨token, rfl⟩ := fine
      exact ⟨⟨token, rfl⟩, by simp [AcceptPhase.steps], rfl⟩

theorem reject_fine (phase next : RejectPhase) (fine : phase.Fine id store)
    (moved : RejectMove id store fault phase act log next) :
    next.Fine id (store.apply p act) ∧ next.steps < phase.steps ∧
      (Op.reject id phase).tells = if next.steps = 0 then [.rejected .durable id] else [] := by
  cases moved with
  | missing absent =>
      obtain ⟨s, _, found, _⟩ := fine
      rw [absent] at found
      cases found
  | found s present =>
      obtain ⟨t, session, found, here, free, waiting⟩ := fine
      obtain rfl : t = s := Option.some.inj (found.symm.trans present)
      exact ⟨⟨session, here, free, waiting⟩, by simp [RejectPhase.steps], rfl⟩
  | locked s session here free =>
      obtain ⟨other, there, _, waiting⟩ := fine
      obtain rfl : session = other := Option.some.inj (here.symm.trans there)
      exact ⟨⟨_, apply_heap store p (.acquire s) s session here, by simpa [Act.on] using waiting⟩,
        by simp [RejectPhase.steps], rfl⟩
  | refuse s session e here decided ok =>
      obtain ⟨other, there, waiting⟩ := fine
      obtain rfl : session = other := Option.some.inj (here.symm.trans there)
      exact absurd waiting.undecided decided
  | rejected s session here undecided ok =>
      exact ⟨⟨_, apply_heap store p _ s session here⟩, by simp [RejectPhase.steps], rfl⟩
  | failed s session saved here undecided broken => exact absurd broken (unbroken saved)
  | announced s session here => exact ⟨rfl, by simp [RejectPhase.steps], rfl⟩
  | left s reply =>
      obtain rfl : reply = .ok () := fine
      exact ⟨rfl, by simp [RejectPhase.steps], rfl⟩

end Moves

theorem accept_goes_on (id : String) (store : Store) (phase : AcceptPhase) (fine : phase.Fine id store)
    (going : phase.steps ≠ 0) :
    ∃ move, phase.next id store none = some move := by
  cases phase with
  | lookup =>
      obtain ⟨s, _, found, _⟩ := fine
      simp [AcceptPhase.next, lookupStep, found, plain]
  | lock s =>
      obtain ⟨session, here, free, _⟩ := fine
      simp [AcceptPhase.next, lockStep, here, free, plain]
  | decide s =>
      obtain ⟨session, here, waiting⟩ := fine
      simp [AcceptPhase.next, here, waiting.undecided, waiting.live, waiting.incomplete, persistStep]
  | leave s reply => simp [AcceptPhase.next, plain]
  | done reply => exact absurd rfl going

theorem reject_goes_on (id : String) (store : Store) (phase : RejectPhase) (fine : phase.Fine id store)
    (going : phase.steps ≠ 0) :
    ∃ move, phase.next id store none = some move := by
  cases phase with
  | lookup =>
      obtain ⟨s, _, found, _⟩ := fine
      simp [RejectPhase.next, lookupStep, found, plain]
  | lock s =>
      obtain ⟨session, here, free, _⟩ := fine
      simp [RejectPhase.next, lockStep, here, free, plain]
  | decide s =>
      obtain ⟨session, here, waiting⟩ := fine
      simp [RejectPhase.next, here, waiting.undecided, persistStep]
  | announce s =>
      obtain ⟨session, here⟩ := fine
      simp [RejectPhase.next, here, plain]
  | leave s reply => simp [RejectPhase.next, plain]
  | done reply => exact absurd rfl going

-- The decision of the choice under way, n steps before its return at most.
def Op.Deciding (choice : Choice) (id : String) (store : Store) (n : Nat) (op : Op) : Prop :=
  match choice with
  | .accept _ => ∃ phase, op = .accept id phase ∧ phase.Fine id store ∧ phase.steps = n
  | .reject => ∃ phase, op = .reject id phase ∧ phase.Fine id store ∧ phase.steps = n

def Choice.happening (choice : Choice) (id : String) : Happening :=
  match choice with
  | .accept _ => .accepted .durable id
  | .reject => .rejected .durable id

theorem deciding_move (sha256 : Bytes → String) (choice : Choice) (id : String) (store : Store)
    (fault : Option Fault) (p n : Nat) (op op' : Op) (act : Act) (log : List Entry)
    (unbroken : ∀ saved, fault ≠ some (.persist saved)) (deciding : op.Deciding choice id store n)
    (moved : OpMove sha256 store fault op act log op') :
    ∃ m < n, op'.Deciding choice id (store.apply p act) m ∧ op.tells = if m = 0 then [choice.happening id]
      else [] := by
  cases choice with
  | accept draw =>
      obtain ⟨phase, rfl, fine, rfl⟩ := deciding
      cases moved with
      | accept _ _ next _ _ moved =>
          obtain ⟨fine', less, told⟩ := accept_fine id store fault p act log unbroken phase next fine moved
          exact ⟨next.steps, less, ⟨next, rfl, fine', rfl⟩, told⟩
  | reject =>
      obtain ⟨phase, rfl, fine, rfl⟩ := deciding
      cases moved with
      | reject _ _ next _ _ moved =>
          obtain ⟨fine', less, told⟩ := reject_fine id store fault p act log unbroken phase next fine moved
          exact ⟨next.steps, less, ⟨next, rfl, fine', rfl⟩, told⟩

theorem deciding_goes_on (sha256 : Bytes → String) (choice : Choice) (id : String) (store : Store) (n : Nat)
    (op : Op) (deciding : op.Deciding choice id store n) (going : n ≠ 0) :
    ∃ move, op.next sha256 store none = some move := by
  cases choice with
  | accept draw =>
      obtain ⟨phase, rfl, fine, rfl⟩ := deciding
      obtain ⟨move, moved⟩ := accept_goes_on id store phase fine going
      simp [Op.next, moved]
  | reject =>
      obtain ⟨phase, rfl, fine, rfl⟩ := deciding
      obtain ⟨move, moved⟩ := reject_goes_on id store phase fine going
      simp [Op.next, moved]

theorem deciding_answer (choice : Choice) (id : String) (store : Store) (n : Nat) (op : Op)
    (deciding : op.Deciding choice id store n) :
    (n = 0 ↔ ∃ answer, op.decided = some answer) ∧ ∀ answer, op.decided = some answer → op.ended = true ∧
      ∃ value, answer = .ok value := by
  cases choice with
  | accept draw =>
      obtain ⟨phase, rfl, fine, rfl⟩ := deciding
      cases phase with
      | done reply =>
          obtain ⟨token, rfl⟩ := fine
          exact ⟨⟨fun _ => ⟨_, rfl⟩, fun _ => rfl⟩,
            fun answer same => ⟨rfl, some token, (Option.some.inj same).symm⟩⟩
      | _ => simp [AcceptPhase.steps, Op.decided]
  | reject =>
      obtain ⟨phase, rfl, fine, rfl⟩ := deciding
      cases phase with
      | done reply =>
          obtain rfl : reply = .ok () := fine
          exact ⟨⟨fun _ => ⟨_, rfl⟩, fun _ => rfl⟩,
            fun answer same => ⟨rfl, none, (Option.some.inj same).symm⟩⟩
      | _ => simp [RejectPhase.steps, Op.decided]

structure Decides (choice : Choice) (id : String) (history : List Happening) (p n : Nat) (docket : Docket) :
    Prop where
  recounts : Recounts (some (.inr p)) docket
  place : ∃ op, docket.state.durable.ops[p]? = some op ∧ op.Deciding choice id docket.state.durable.store n ∧
    docket.history = history ++ if n = 0 then [choice.happening id] else []

section Decides

variable (sha256 : Bytes → String) (choice : Choice) (id : String) (history : List Happening) (p : Nat)

theorem decides_step (n : Nat) (docket next : Docket) (label : ReceiverLabel)
    (decides : Decides choice id history p n docket) (allowed : awaits (.inr p) docket label = true)
    (stepped : docketStep sha256 docket label = some next) :
    ∃ m < n, Decides choice id history p m next := by
  obtain ⟨permitted, fault, rfl⟩ := awaits_durable p docket label allowed
  have recounts := recounts_step sha256 (some (.inr p)) docket next _ decides.recounts permitted stepped
  obtain ⟨op, here, deciding, told⟩ := decides.place
  have unbroken : ∀ saved, fault ≠ some (.persist saved) := by
    rintro saved rfl
    cases permitted
  obtain ⟨receiver, made, rfl⟩ := annotate_cases (receiverStep sha256) Receiver.tells docket next _ stepped
  have happened : docket.state.tells (.durable (.advance p fault)) =
    op.tells := by simp [Receiver.tells, here]
  obtain ⟨inner, after, same, _, _, durable, isNext⟩ | ⟨_, same, _⟩ | ⟨_, _, same, _⟩ | ⟨_, _, same, _⟩ :=
    receiver_step_cases sha256 docket.state receiver _ made
  · cases same
    obtain ⟨op_, act, log, op', there, raw, rfl⟩ :=
      step_advance sha256 docket.state.durable after p fault durable
    obtain rfl : op = op_ := Option.some.inj (here.symm.trans there)
    have within : p < docket.state.durable.ops.length := (List.getElem?_eq_some_iff.mp here).1
    obtain ⟨m, less, deciding', tells⟩ :=
      deciding_move sha256 choice id docket.state.durable.store fault p n op op' act log unbroken
      deciding (op_next_move sha256 _ fault op op' act log raw)
    subst isNext
    refine ⟨m, less, recounts, op', List.getElem?_set_self within, deciding', ?_⟩
    have going : n ≠ 0 := by omega
    rw [happened, told, tells, if_neg going, List.append_nil]
  · cases same
  · cases same
  · cases same

theorem decides_goes_on (n : Nat) (docket : Docket) (decides : Decides choice id history p n docket)
    (going : ¬ ∃ answer, (docket.state.durable.ops[p]?).bind Op.decided = some answer) :
    ∃ label next m, awaits (.inr p) docket label = true ∧ docketStep sha256 docket label = some next ∧ m < n ∧
      Decides choice id history p m next := by
  obtain ⟨op, here, deciding, _⟩ := decides.place
  have unfinished : n ≠ 0 := by
    intro over_
    obtain ⟨answer, returned⟩ := (deciding_answer choice id _ n op deciding).1.mp over_
    exact going ⟨answer, by simp [here, returned]⟩
  obtain ⟨⟨act, log, op'⟩, moved⟩ :=
    deciding_goes_on sha256 choice id docket.state.durable.store n op deciding unfinished
  have allowed : awaits (.inr p) docket (.durable (.advance p none)) = true := by simp [awaits, oneByOne]
  have permitted : docket.state.permits (.advance p none) = true := by
    cases choice with
    | accept draw =>
        obtain ⟨phase, rfl, _⟩ := deciding
        simp [Receiver.permits, here]
    | reject =>
        obtain ⟨phase, rfl, _⟩ := deciding
        simp [Receiver.permits, here]
  have stepped : ∃ receiver, receiverStep sha256 docket.state (.durable (.advance p none)) =
    some receiver := by
    simp [receiverStep, permitted, step, here, moved]
  obtain ⟨receiver, stepped⟩ := stepped
  have noted := annotate_step (receiverStep sha256) Receiver.tells docket _ receiver stepped
  obtain ⟨m, less, next⟩ := decides_step sha256 choice id history p n docket _ _ decides allowed noted
  exact ⟨_, _, m, allowed, noted, less, next⟩

theorem decides_begin (turn : Option (Nat ⊕ Nat)) (docket called : Docket) (recounts : Recounts turn docket)
    (idle : docket.state.idle = true) (waits : awaiting .durable id docket.history ≠ none)
    (call : docketStep sha256 docket (.durable (.call (choice.durableCall id))) = some called) :
    Decides choice id docket.history docket.state.durable.ops.length 5 called := by
  have later := recounts_step sha256 turn docket called (.durable (.call (choice.durableCall id))) recounts
    idle call
  obtain ⟨s, found⟩ :=
    Option.ne_none_iff_exists'.mp ((awaiting_retained turn docket recounts idle id).2 waits)
  rw [← idle_durable turn docket recounts idle] at waits
  obtain ⟨session, here, _⟩ := recounts.base.mapped id s found
  rw [store_waits _ id s session found here] at waits
  have free : session.lock = none := by
    cases taken : session.lock with
    | none => rfl
    | some q =>
        obtain ⟨op, there, holds⟩ := recounts.held s session q here taken
        have over_ := (idle_alone docket.state idle).durable q op there (by simp)
        have known := holds_session op s holds
        rw [ended_idle op over_] at known
        cases known
  have undecided : session.record.decision = .pending ∧ session.record.cancelled = false := by
    by_contra decided
    exact waits (by simpa [Record.waits] using decided)
  have waiting : session.record.Waiting := by
    refine ⟨undecided.1, undecided.2, ?_⟩
    by_contra complete
    have accepted := ((recounts.base.sound s session here).record.complete (by simpa using complete)).2.1
    rw [undecided.1] at accepted
    cases accepted
  obtain ⟨receiver, made, rfl⟩ := annotate_cases (receiverStep sha256) Receiver.tells docket called _ call
  obtain ⟨inner, after, same, _, _, durable, isNext⟩ | ⟨_, same, _⟩ | ⟨_, _, same, _⟩ | ⟨_, _, same, _⟩ :=
    receiver_step_cases sha256 docket.state receiver _ made
  · cases same
    obtain ⟨_, rfl⟩ := step_call sha256 docket.state.durable after _ durable
    subst isNext
    refine ⟨later, (choice.durableCall id).op, by simp, ?_, rfl⟩
    cases choice <;> exact ⟨.lookup, rfl, ⟨s, session, found, here, free, waiting⟩, rfl⟩
  · cases same
  · cases same
  · cases same

theorem decides_end (n : Nat) (docket : Docket) (decides : Decides choice id history p n docket)
    (answer : Answer) (returned : (docket.state.durable.ops[p]?).bind Op.decided = some answer) :
    (∃ value, answer = .ok value) ∧ docket.history = history ++ [choice.happening id] ∧
      docket.state.idle = true := by
  obtain ⟨op, here, deciding, told⟩ := decides.place
  simp only [here, Option.bind_some] at returned
  obtain ⟨ends, ok⟩ := deciding_answer choice id _ n op deciding
  obtain ⟨over_, good⟩ := ok answer returned
  rw [if_pos (ends.mpr ⟨answer, returned⟩)] at told
  refine ⟨good, told, alone_idle _ _ decides.recounts.alone (by simp) ?_⟩
  intro q other mine there
  obtain rfl : p = q := by simpa using mine
  obtain rfl : op = other := Option.some.inj (here.symm.trans there)
  exact over_

end Decides

end GoshTransfer
