import GoshTransfer.Lifecycle

set_option autoImplicit false

namespace GoshTransfer

open InodeStore

-- The last registration of an id, and what was reported after it.
def registration (id : String) (log : List LegacyEntry) : Option PendingTransfer :=
  log.foldl (fun found entry =>
    match entry with
    | .registered transfer => if transfer.id = id then some transfer else found
    | _ => found) none

def since (id : String) (log : List LegacyEntry) : List LegacyEntry :=
  log.foldl (fun kept entry =>
    match entry with
    | .registered transfer => if transfer.id = id then [] else kept ++ [entry]
    | _ => kept ++ [entry]) []

section Log

variable (id : String) (log more : List LegacyEntry)

theorem registration_quiet (quiet : ∀ transfer, .registered transfer ∈ more → transfer.id ≠ id) :
    registration id (log ++ more) = registration id log := by
  unfold registration
  rw [List.foldl_append]
  generalize log.foldl _ none = found
  induction more with
  | nil => rfl
  | cons entry rest ih =>
      have later := ih fun transfer member => quiet transfer (List.mem_cons_of_mem _ member)
      cases entry with
      | registered transfer => simpa [quiet transfer (by simp)] using later
      | _ => exact later

theorem since_quiet (quiet : ∀ transfer, .registered transfer ∈ more → transfer.id ≠ id) :
    since id (log ++ more) = since id log ++ more := by
  unfold since
  rw [List.foldl_append]
  generalize log.foldl _ [] = kept
  induction more generalizing kept with
  | nil => simp
  | cons entry rest ih =>
      have later := ih (fun transfer member => quiet transfer (List.mem_cons_of_mem _ member))
        (kept ++ [entry])
      rw [List.append_cons, ← later]
      cases entry with
      | registered transfer => simp [quiet transfer (by simp)]
      | _ => rfl

theorem registration_new (transfer : PendingTransfer) (key : transfer.id = id) :
    registration id (log ++ [.registered transfer]) = some transfer := by
  simp [registration, key]

theorem since_new (transfer : PendingTransfer) (key : transfer.id = id) : since id
    (log ++ [.registered transfer]) = [] := by
  simp [since, key]

end Log

-- A token that somebody may learn or has learnt since the last registration.
def Known (state : LegacyState) (id token : String) : Prop :=
  state.legacy.ledger.approved.lookup id = some token ∨ state.settled.approved.lookup id = some token ∨
    ∃ peer, .handed id token peer ∈ since id state.log

-- A planned write hands out the token it approves, to the peer that registered.
def LegacyOp.Planned (settled : Ledger) (op : LegacyOp) : Prop :=
  ∀ entry ∈ op.todo, (∀ id token, entry.1 = .approve id token →
      settled.approved.lookup id = some token ∧ settled.pending.lookup id ≠ none) ∧
    ∀ id token peer, .handed id token peer ∈ entry.2 → settled.approved.lookup id = some token ∧
      ∀ source, peer = some source → ∃ transfer, settled.pending.lookup id = some transfer ∧
        transfer.sourceIp = source

structure Issued (state : LegacyState) : Prop where
  record : ∀ id transfer, state.legacy.ledger.pending.lookup id = some transfer →
    registration id state.log = some transfer
  settledRecord : ∀ id transfer, state.settled.pending.lookup id = some transfer →
    registration id state.log = some transfer
  one : ∀ id token token', Known state id token → Known state id token' → token = token'
  fresh : ∀ id token transfer, state.settled.pending.lookup id = some transfer →
    state.settled.approved.lookup id = none →
    ¬ Known state id token
  planned : ∀ (o : Nat) (op : LegacyOp), state.ops[o]? = some op → op.Planned state.settled

theorem idle_planned (settled : Ledger) (op : LegacyOp) (idle : op.todo = []) : op.Planned settled := by
  intro entry member
  rw [idle] at member
  cases member

theorem accept_planned (ledger : Ledger) (id token : String) (waiting : ledger.pending.lookup id ≠ none)
    (verdict : Ruling) (reply : Except EngineError (Option String)) :
    (LegacyOp.ruling verdict id (.edit (acceptEdits id token) reply)).Planned
    (ledger.settle (acceptEdits id token)) := by
  have view := accept_view ledger id token id
  rw [if_pos rfl] at view
  have approved : (ledger.settle (acceptEdits id token)).approved.lookup id = some token :=
    congrArg View.approved view
  have pending : (ledger.settle (acceptEdits id token)).pending.lookup id = ledger.pending.lookup id :=
    congrArg View.pending view
  intro entry member
  simp only [LegacyOp.todo, acceptEdits, List.mem_cons, List.not_mem_nil, or_false] at member
  rcases member with rfl | rfl
  · refine ⟨?_, by simp⟩
    rintro _ _ ⟨rfl, rfl⟩
    exact ⟨approved, by rw [pending]; exact waiting⟩
  · refine ⟨by simp, ?_⟩
    intro other given peer reported
    simp only [List.mem_singleton, LegacyEntry.handed.injEq] at reported
    obtain ⟨rfl, rfl, rfl⟩ := reported
    exact ⟨approved, by simp⟩

theorem reject_planned (settled : Ledger) (id : String) (verdict : Ruling)
    (reply : Except EngineError (Option String)) :
    (LegacyOp.ruling verdict id (.edit (rejectEdits id) reply)).Planned settled := by
  simp [LegacyOp.Planned, LegacyOp.todo, rejectEdits]

theorem cancel_planned (settled : Ledger) (id : String) (info : Option PendingTransfer) (bytes : Nat)
    (verdict : Ruling) (reply : Except EngineError (Option String)) :
    (LegacyOp.ruling verdict id (.edit (cancelEdits id info bytes) reply)).Planned settled := by
  cases info <;> simp [LegacyOp.Planned, LegacyOp.todo, cancelEdits, cancelLog]

theorem prune_planned (settled : Ledger) (ids : List String) (offer : Offer) :
    (LegacyOp.request offer (.prune (pruneEdits ids))).Planned settled := by
  intro entry member
  simp only [LegacyOp.todo, pruneEdits, List.mem_map, List.mem_flatMap] at member
  obtain ⟨change, ⟨id, _, chosen⟩, rfl⟩ := member
  refine ⟨?_, by simp⟩
  rintro other token rfl
  simp [pruneOne] at chosen

theorem offer_planned (ledger : Ledger) (offer : Offer) (total : Nat) (reply : LegacyResponse) :
    (LegacyOp.request offer (.edit (offer.edits (offer.pending total)) reply)).Planned
      (((Edit.pend (offer.pending total)).apply ledger).settle (offer.edits (offer.pending total))) := by
  have view := register_view ledger offer total offer.id
  rw [if_pos rfl] at view
  generalize ((Edit.pend (offer.pending total)).apply ledger).settle (offer.edits (offer.pending total)) =
    settled at view ⊢
  have pending : settled.pending.lookup offer.id = some (offer.pending total) := congrArg View.pending view
  by_cases trusted : offer.trusted = true
  · have approved : settled.approved.lookup offer.id = some offer.token :=
      (congrArg View.approved view).trans (by simp [trusted])
    intro entry member
    simp only [LegacyOp.todo, Offer.edits, if_pos trusted, List.mem_cons, List.not_mem_nil,
      or_false] at member
    rcases member with rfl | rfl | rfl
    · simp
    · refine ⟨?_, by simp⟩
      rintro _ _ ⟨rfl, rfl⟩
      exact ⟨approved, by simp [pending]⟩
    · refine ⟨by simp, ?_⟩
      intro other given peer reported
      simp only [List.mem_singleton, LegacyEntry.handed.injEq] at reported
      obtain ⟨rfl, rfl, rfl⟩ := reported
      refine ⟨approved, ?_⟩
      intro source same
      exact ⟨_, pending, by simpa [Offer.pending] using same⟩
  · simp [LegacyOp.Planned, LegacyOp.todo, Offer.edits, trusted]

theorem moved_handed (legacy : Legacy) (disk : ReceiverDisk) (reading : Reading) (op op' : LegacyOp)
    (act : LegacyAct) (log : List LegacyEntry) (moved : LegacyOpMove legacy disk reading op act log op')
    (id token : String) (peer : Option String) (reported : .handed id token peer ∈ log) :
    legacy.ledger.approved.lookup id = some token ∨ ∃ change, act = .edit change ∧
      op.todo = (change, log) :: op'.todo := by
  cases moved with
  | ruling verdict key phase next act log moved =>
      cases moved with
      | repeated fresh given same granted =>
          simp only [List.mem_singleton, LegacyEntry.handed.injEq] at reported
          obtain ⟨rfl, rfl, rfl⟩ := reported
          exact .inl granted
      | edited change log rest reply => exact .inr ⟨change, rfl, rfl⟩
      | _ => cases reported
  | request offer phase next act log moved =>
      cases moved with
      | retried total reply =>
          cases granted : legacy.ledger.approved.lookup offer.id with
          | none => simp [handedTo, granted] at reported
          | some given =>
              simp only [handedTo, granted, List.mem_singleton, LegacyEntry.handed.injEq] at reported
              obtain ⟨rfl, rfl, rfl⟩ := reported
              exact .inl granted
      | pruned change log rest => exact .inr ⟨change, rfl, rfl⟩
      | edited change log rest reply => exact .inr ⟨change, rfl, rfl⟩
      | _ => simp at reported
  | approval source key phase next act log moved =>
      cases moved with
      | disclosed given reply granted =>
          simp only [List.mem_singleton, LegacyEntry.handed.injEq] at reported
          obtain ⟨rfl, rfl, rfl⟩ := reported
          exact .inl granted
      | _ => cases reported
  | chunk params phase next act log moved =>
      cases moved with
      | counted k x amount => by_cases due : x.progressDue = true <;> simp [due, Writing.progress] at reported
      | _ => simp [Writing.progress] at reported

theorem moved_approve (legacy : Legacy) (disk : ReceiverDisk) (reading : Reading) (op op' : LegacyOp)
    (log : List LegacyEntry) (id token : String)
    (moved : LegacyOpMove legacy disk reading op (.edit (.approve id token)) log op') :
    op.todo = (.approve id token, log) :: op'.todo := by
  cases moved with
  | ruling verdict key phase next act log moved => cases moved with
    | edited change log rest reply => rfl
  | request offer phase next act log moved => cases moved with
    | pruned change log rest => rfl
    | edited change log rest reply => rfl
  | approval source key phase next act log moved => cases moved
  | chunk params phase next act log moved => cases moved

theorem book_approved (ledger : Ledger) (act : LegacyAct) (id token : String)
    (now : (act.book ledger).approved.lookup id = some token) :
    ledger.approved.lookup id = some token ∨ act = .edit (.approve id token) := by
  cases act with
  | edit change =>
      cases change with
      | approve key given =>
          by_cases same : id = key
          · subst same
            have equal : given = token := by simpa [LegacyAct.book, Edit.apply] using now
            exact .inr (by rw [equal])
          · exact .inl (by simpa [LegacyAct.book, Edit.apply, Finmap.lookup_insert_of_ne _ same] using now)
      | unapprove key =>
          by_cases same : id = key
          · subst same
            simp [LegacyAct.book, Edit.apply] at now
          · exact .inl (by simpa [LegacyAct.book, Edit.apply, Finmap.lookup_erase_ne same] using now)
      | _ => exact .inl now
  | _ => exact .inl now

theorem book_pending (ledger : Ledger) (act : LegacyAct) (id : String) (transfer : PendingTransfer)
    (now : (act.book ledger).pending.lookup id = some transfer) :
    (ledger.pending.lookup id = some transfer ∧ ∀ other, act = .edit (.pend other) → other.id ≠ id) ∨
      (act = .edit (.pend transfer) ∧ transfer.id = id) := by
  cases act with
  | edit change =>
      cases change with
      | pend other =>
          by_cases same : id = other.id
          · subst same
            have equal : other = transfer := by simpa [LegacyAct.book, Edit.apply] using now
            exact .inr ⟨by rw [equal], by rw [equal]⟩
          · refine .inl ⟨by simpa [LegacyAct.book, Edit.apply, Finmap.lookup_insert_of_ne _ same] using now,
              ?_⟩
            rintro _ ⟨rfl⟩ equal
            exact same equal.symm
      | unpend key =>
          by_cases same : id = key
          · subst same
            simp [LegacyAct.book, Edit.apply] at now
          · exact .inl ⟨by simpa [LegacyAct.book, Edit.apply, Finmap.lookup_erase_ne same] using now, by simp⟩
      | _ => exact .inl ⟨now, by simp⟩
  | _ => exact .inl ⟨now, by simp⟩

section Step

variable (state : LegacyState) (base : LegacyBase state) (issued : Issued state) (o : Nat)
    (reading : Reading) (op op' : LegacyOp)
  (act : LegacyAct) (log : List LegacyEntry) (here : state.ops[o]? = some op)
  (moved : LegacyOpMove state.legacy state.disk reading op act log op')

include issued here moved in
theorem step_handed (id token : String) (peer : Option String) (reported : .handed id token peer ∈ log) :
    Known state id token := by
  rcases moved_handed state.legacy state.disk reading op op' act log moved id token peer reported with
    granted | ⟨change, _, plan⟩
  · exact .inl granted
  · have first := (issued.planned o op here (change, log) (by simp [plan])).2 id token peer reported
    exact .inr (.inl first.1)

include issued here moved in
theorem step_known (id token : String) (quiet : ∀ transfer, .registered transfer ∈ log → transfer.id ≠ id)
    (known : Known (state.after o act log op') id token) :
    Known state id token ∨ (state.after o act log op').settled.approved.lookup id = some token := by
  rcases known with now | now | ⟨peer, member⟩
  · have booked : (act.book state.legacy.ledger).approved.lookup id = some token := by
      rw [← apply_ledger state.legacy o act]
      exact now
    rcases book_approved _ _ _ _ booked with before | rfl
    · exact .inl (.inl before)
    · have plan := moved_approve state.legacy state.disk reading op op' log id token moved
      have first := (issued.planned o op here (.approve id token, log) (by simp [plan])).1 id token rfl
      exact .inl (.inr (.inl first.1))
  · exact .inr now
  · rw [show (state.after o act log op').log = state.log ++ log from rfl,
      since_quiet id state.log log quiet] at member
    rcases List.mem_append.mp member with before | new
    · exact .inl (.inr (.inr ⟨peer, before⟩))
    · exact .inl (step_handed state issued o reading op op' act log here moved id token peer new)

include base here moved

omit moved in
theorem unplanned (change : Edit) (rest : Todo) (unusual : change.routine = false) :
    op.todo ≠ (change, log) :: rest := by
  intro plan
  have routine := (base.drafted o op here (change, log) (by simp [plan])).1
  rw [unusual] at routine
  cases routine

theorem moved_pend (transfer : PendingTransfer) : act = .edit (.pend transfer) ↔
    .registered transfer ∈ log := by
  constructor
  · rintro rfl
    cases moved with
    | ruling verdict key phase next act log moved =>
        cases moved with
        | edited change log rest reply =>
            exact absurd rfl (unplanned state base o _ log here (.pend transfer) rest rfl)
    | request offer phase next act log moved =>
        cases moved with
        | pruned change log rest =>
            exact absurd rfl (unplanned state base o _ log here (.pend transfer) rest rfl)
        | edited change log rest reply =>
            exact absurd rfl (unplanned state base o _ log here (.pend transfer) rest rfl)
        | registered total => simp
    | approval peer key phase next act log moved => cases moved
    | chunk params phase next act log moved => cases moved
  · intro member
    obtain ⟨offer, total, rfl, rfl⟩ :=
      (moved_reports state.legacy state.disk reading op op' act log moved (base.drafted o op here)).1
        transfer member
    cases moved with
    | request offer phase next act log moved =>
        cases moved with
        | registered total => rfl
        | _ => simp at member

include issued

theorem step_planned (p : Nat) (q : LegacyOp) (there : (state.after o act log op').ops[p]? = some q) :
    q.Planned (state.after o act log op').settled := by
  rcases Transition.set_cases state.ops o p op' q there with ⟨rfl, rfl⟩ | ⟨other, before⟩
  · rcases settled_moved state base.locked p op reading q act log here moved with ⟨same, busy⟩ | ⟨_, idle, _, after⟩
    · rcases moved_todo state.legacy state.disk reading op q act log moved with ⟨change, _, plan⟩ | idle
      · intro entry member
        rw [same]
        exact issued.planned p op here entry (by rw [plan]; exact List.mem_cons_of_mem _ member)
      · rcases busy idle with free | free
        · exact idle_planned _ q (entered_todo state op reading q act log moved free)
        · exact idle_planned _ q (free_todo q free)
    · rw [after]
      cases moved with
      | ruling verdict id phase next act log moved =>
          cases moved with
          | accepted token transfer same waiting => exact accept_planned state.legacy.ledger id token (by simp [waiting]) verdict _
          | rejected transfer same waiting => exact reject_planned _ id verdict _
          | cancelled info => exact cancel_planned _ id info _ verdict _
          | edited change log rest reply => cases idle
          | _ => exact idle_planned _ _ rfl
      | request offer phase next act log moved =>
          cases moved with
          | selected distinct idle => exact prune_planned _ reading.order offer
          | registered total => exact offer_planned _ offer total _
          | pruned change log rest => cases idle
          | edited change log rest reply => cases idle
          | _ => exact idle_planned _ _ rfl
      | approval peer id phase next act log moved => exact idle_planned _ _ rfl
      | chunk params phase next act log moved => exact idle_planned _ _ rfl
  · by_cases inside : q.holds = true
    · have free := others_free state base.locked o op here p q before inside other
      rcases settled_moved state base.locked o op reading op' act log here moved with ⟨same, _⟩ | ⟨holds, _⟩
      · rw [same]
        exact issued.planned p q before
      · rw [free] at holds
        cases holds
    · exact idle_planned _ q (free_todo q (by simpa using inside))

theorem step_record (id : String) (transfer : PendingTransfer)
    (now : (state.after o act log op').legacy.ledger.pending.lookup id = some transfer) :
    registration id (state.after o act log op').log = some transfer := by
  have booked : (act.book state.legacy.ledger).pending.lookup id = some transfer := by
    rw [← apply_ledger state.legacy o act]
    exact now
  rcases book_pending _ _ _ _ booked with ⟨before, others⟩ | ⟨same, key⟩
  · have quiet : ∀ other, .registered other ∈ log → other.id ≠ id := by
      intro other reported
      exact others other ((moved_pend state base o reading op op' act log here moved other).mpr reported)
    exact (registration_quiet id state.log log quiet).trans (issued.record id transfer before)
  · have reported := (moved_pend state base o reading op op' act log here moved transfer).mp same
    obtain ⟨offer, total, rfl, rfl⟩ :=
      (moved_reports state.legacy state.disk reading op op' act log moved (base.drafted o op here)).1
        transfer reported
    cases moved with
    | request offer phase next act log moved =>
        cases moved with
        | registered total => exact registration_new id state.log _ key
        | _ => simp at reported

omit issued in
theorem registered_known (id token : String) (transfer : PendingTransfer) (key : transfer.id = id)
    (reported : log = [.registered transfer]) (absent : state.settled.approved.lookup id = none)
    (known : Known (state.after o act log op') id token) :
    (state.after o act log op').settled.approved.lookup id = some token := by
  have pend := (moved_pend state base o reading op op' act log here moved transfer).mpr (by simp [reported])
  obtain ⟨offer, total, rfl, _⟩ :=
    (moved_reports state.legacy state.disk reading op op' act log moved (base.drafted o op here)).1 transfer
      (by simp [reported])
  have settled := settled_held state base.locked o _ here rfl
  rcases known with now | now | ⟨peer, member⟩
  · have booked : (act.book state.legacy.ledger).approved.lookup id = some token := by
      rw [← apply_ledger state.legacy o act]
      exact now
    rcases book_approved _ _ _ _ booked with before | approve
    · rw [settled] at absent
      exact absurd (before.symm.trans absent) (by simp)
    · rw [pend] at approve
      cases approve
  · exact now
  · rw [show (state.after o act log op').log = state.log ++ log from rfl, reported,
      since_new id state.log transfer key] at member
    cases member

theorem step_tokens (id : String) (life life' : Life) (known : state.settled.view id = life.view)
    (after : (state.after o act log op').settled.view id = life'.view) (turn : Turn id log life life') :
    ((∀ token, Known (state.after o act log op') id token → Known state id token) ∧
      (life'.view.pending ≠ none → life'.view.approved = none → life = life')) ∨
    ∀ token, Known (state.after o act log op') id token →
    (state.after o act log op').settled.approved.lookup id = some token := by
  have approvedNow := life_approved _ id life' after
  have approvedBefore := life_approved _ id life known
  have keeps : (∀ transfer, .registered transfer ∈ log → transfer.id ≠ id) →
      (∀ token, life'.view.approved = some token → life.view.approved = some token) →
      ∀ token, Known (state.after o act log op') id token → Known state id token := by
    intro quiet kept token now
    rcases step_known state issued o reading op op' act log here moved id token quiet now with before |
      settled
    · exact before
    · exact .inr (.inl (approvedBefore.trans (kept token (approvedNow.symm.trans settled))))
  cases turn with
  | stay life quiet _ => exact .inl ⟨keeps quiet fun token same => same, fun _ _ => rfl⟩
  | register transfer key reported =>
      exact .inr fun token => registered_known state base o reading op op' act log here moved id token
        transfer key reported approvedBefore
  | welcome transfer token key reported =>
      exact .inr fun token => registered_known state base o reading op op' act log here moved id token
        transfer key reported approvedBefore
  | accept transfer token silent =>
      right
      intro given now
      rcases step_known state issued o reading op op' act log here moved id given
        (by simp [silent]) now with before | settled
      · exact absurd before (issued.fresh id given transfer (life_pending _ id _ known) approvedBefore)
      · exact settled
  | reject transfer reason silent =>
      exact .inl ⟨keeps (by simp [silent]) (by simp [Life.view]), by simp [Life.view]⟩
  | cancelWaiting transfer silent =>
      exact .inl ⟨keeps (by simp [silent]) (by simp [Life.view]), by simp [Life.view]⟩
  | cancelApproved transfer token silent =>
      exact .inl ⟨keeps (by simp [silent]) (by simp [Life.view]), by simp [Life.view]⟩
  | expire life ids member reported =>
      exact .inl ⟨keeps (by simp [reported]) (by simp [Life.view]), by simp [Life.view]⟩

omit base here moved in
theorem step_settled_record (id : String) (life life' : Life) (known : state.settled.view id = life.view)
    (turn : Turn id log life life') (transfer : PendingTransfer) (now : life'.view.pending = some transfer) :
    registration id (state.log ++ log) = some transfer := by
  have before : life.view.pending = some transfer → registration id state.log = some transfer :=
    fun pending => issued.settledRecord id transfer ((life_pending _ id life known).trans pending)
  cases turn with
  | stay life quiet _ => exact (registration_quiet id state.log log quiet).trans (before now)
  | register given key reported =>
      cases now
      rw [reported]
      exact registration_new id state.log transfer key
  | welcome given token key reported =>
      cases now
      rw [reported]
      exact registration_new id state.log transfer key
  | accept given token silent =>
      rw [silent, List.append_nil]
      exact before now
  | _ => cases now

theorem step_issued : Issued (state.after o act log op') := by
  have turns : ∀ id, ∃ life life', state.settled.view id = life.view ∧
    (state.after o act log op').settled.view id = life'.view ∧
      Turn id log life life' := by
    intro id
    obtain ⟨life, known⟩ := base.lives id
    obtain ⟨life', after, turn⟩ := step_turns state base o reading op op' act log here moved id life known
    exact ⟨life, life', known, after, turn⟩
  refine ⟨step_record state base issued o reading op op' act log here moved, ?_, ?_, ?_,
    step_planned state base issued o reading op op' act log here moved⟩
  · intro id transfer now
    obtain ⟨life, life', known, after, turn⟩ := turns id
    rw [life_pending _ id life' after] at now
    exact step_settled_record state issued log id life life' known turn transfer now
  · intro id token token' first second
    obtain ⟨life, life', known, after, turn⟩ := turns id
    rcases step_tokens state base issued o reading op op' act log here moved id life life' known after
      turn with ⟨keeps, _⟩ | mints
    · exact issued.one id token token' (keeps token first) (keeps token' second)
    · exact Option.some.inj ((mints token first).symm.trans (mints token' second))
  · intro id token transfer pending undecided now
    obtain ⟨life, life', known, after, turn⟩ := turns id
    rcases step_tokens state base issued o reading op op' act log here moved id life life' known after
      turn with ⟨keeps, same⟩ | mints
    · have waiting : life'.view.pending ≠ none := by
        rw [← life_pending _ id life' after, pending]
        simp
      have equal : life = life' := same waiting ((life_approved _ id life' after).symm.trans undecided)
      rw [equal, ← after] at known
      have before := congrArg View.pending known
      have also := congrArg View.approved known
      exact issued.fresh id token transfer (before.trans pending) (also.trans undecided) (keeps token now)
    · exact absurd ((mints token now).symm.trans undecided) (by simp)

end Step

theorem call_issued (state : LegacyState) (base : LegacyBase state) (issued : Issued state)
    (call : LegacyCall) :
    Issued { state with ops := state.ops ++ [call.op] } := by
  have same := call_settled state base.locked call
  have known : ∀ id token, Known { state with ops := state.ops ++ [call.op] } id token →
    Known state id token := by
    intro id token
    simp only [Known, same]
    exact fun now => now
  refine ⟨issued.record, ?_, ?_, ?_, ?_⟩
  · rw [same]
    exact issued.settledRecord
  · intro id token token' first second
    exact issued.one id token token' (known id token first) (known id token' second)
  · rw [same]
    intro id token transfer pending undecided now
    exact issued.fresh id token transfer pending undecided (known id token now)
  · rw [same]
    intro p q there
    rcases Transition.append_cases state.ops p call.op q there with before | rfl
    · exact issued.planned p q before
    · exact idle_planned _ _ (free_todo _ (legacy_call_idle call).1)

theorem initial_issued (state : LegacyState) (initial : LegacyInitial state) : Issued state := by
  have free : state.legacy.decisions = none := by
    rw [initial.fresh]
    rfl
  have settled : state.settled = .empty := by
    rw [settled_free state free, initial.fresh]
    rfl
  have ledger : state.legacy.ledger = .empty := by
    rw [initial.fresh]
    rfl
  have nothing : ∀ id token, ¬ Known state id token := by
    intro id token now
    simp [Known, settled, ledger, initial.silent, since, Ledger.empty] at now
  refine ⟨?_, ?_, ?_, ?_, ?_⟩
  · intro id transfer now
    simp [ledger, Ledger.empty] at now
  · intro id transfer now
    simp [settled, Ledger.empty] at now
  · intro id token token' first
    exact absurd first (nothing id token)
  · intro id token _ _ _
    exact nothing id token
  · intro p q there
    rw [initial.idle] at there
    cases there

structure Approvals (state : LegacyState) : Prop where
  base : LegacyBase state
  issued : Issued state

theorem approvals_step (state next : LegacyState) (label : LegacyLabel) (inv : Approvals state)
    (stepped : legacyStep state label = some next) : Approvals next := by
  have base := legacy_base_step state next label inv.base stepped
  rcases legacy_step_cases state next label stepped with ⟨call, _, rfl⟩ |
    ⟨o, reading, op, act, log, op', _, here, moved, rfl⟩
  · exact ⟨base, call_issued state inv.base inv.issued call⟩
  · exact ⟨base, step_issued state inv.base inv.issued o reading op op' act log here moved⟩

theorem initial_approvals (state : LegacyState) (initial : LegacyInitial state) : Approvals state :=
  ⟨initial_legacy_base state initial, initial_issued state initial⟩

theorem run_approvals (allow : LegacyState → LegacyLabel → Prop) (start state : LegacyState)
    (initial : LegacyInitial start) (run : Transition.Run legacyStep allow start state) : Approvals state :=
  Transition.run_invariant legacyStep allow Approvals
    (fun state label next inv _ stepped => approvals_step state next label inv stepped) start state run
    (initial_approvals start initial)

def Life.terminal : Life → Prop
  | .rejected _ | .cancelled => True
  | _ => False

-- From one state to a later one, an id that is used up stays so, and is neither
-- registered nor handed a token.
def UsedUp (a b : LegacyState) : Prop :=
  ∃ new, b.log = a.log ++ new ∧ ∀ (id : String) (life : Life), life.terminal → a.settled.view id = life.view →
    a.legacy.ledger.approved.lookup id = none → (∀ ids, .expired ids ∈ new → id ∉ ids) →
    b.settled.view id = life.view ∧ b.legacy.ledger.approved.lookup id = none ∧
      (∀ transfer, .registered transfer ∈ new → transfer.id ≠ id) ∧ ∀ token peer, .handed id token peer ∉ new

theorem used_up_refl (state : LegacyState) : UsedUp state state := by
  refine ⟨[], by simp, ?_⟩
  intro id life _ known none_ _
  exact ⟨known, none_, by simp, by simp⟩

theorem used_up_trans (a b c : LegacyState) (first : UsedUp a b) (second : UsedUp b c) : UsedUp a c := by
  obtain ⟨new, log, before⟩ := first
  obtain ⟨more, log', after⟩ := second
  refine ⟨new ++ more, by rw [log', log, List.append_assoc], ?_⟩
  intro id life terminal known none_ unexpired
  obtain ⟨view, undisclosed, unregistered, unhanded⟩ := before id life terminal known none_
    fun ids member => unexpired ids (List.mem_append_left _ member)
  obtain ⟨view', undisclosed', unregistered', unhanded'⟩ := after id life terminal view undisclosed
    fun ids member => unexpired ids (List.mem_append_right _ member)
  refine ⟨view', undisclosed', ?_, ?_⟩
  · intro transfer member
    rcases List.mem_append.mp member with old | recent
    · exact unregistered transfer old
    · exact unregistered' transfer recent
  · intro token peer member
    rcases List.mem_append.mp member with old | recent
    · exact unhanded token peer old
    · exact unhanded' token peer recent

theorem terminal_turn (id : String) (log : List LegacyEntry) (life life' : Life)
    (turn : Turn id log life life') (terminal : life.terminal)
    (unexpired : ∀ ids, .expired ids ∈ log → id ∉ ids) : life' = life ∧
      ∀ transfer, .registered transfer ∈ log → transfer.id ≠ id := by
  cases turn with
  | stay life quiet _ => exact ⟨rfl, quiet⟩
  | expire life ids member reported => exact absurd member (unexpired ids (by simp [reported]))
  | _ => cases terminal

theorem terminal_unapproved (life : Life) (terminal : life.terminal) : life.view.approved = none := by
  cases life <;> first | rfl | cases terminal

theorem used_up_step (state : LegacyState) (inv : Approvals state) (o : Nat) (reading : Reading)
    (op op' : LegacyOp) (act : LegacyAct) (log : List LegacyEntry) (here : state.ops[o]? = some op)
    (moved : LegacyOpMove state.legacy state.disk reading op act log op') :
    UsedUp state (state.after o act log op') := by
  refine ⟨log, rfl, ?_⟩
  intro id life terminal known none_ unexpired
  obtain ⟨life', after, turn⟩ := step_turns state inv.base o reading op op' act log here moved id life known
  obtain ⟨rfl, quiet⟩ := terminal_turn id log life life' turn terminal unexpired
  have unsettled : state.settled.approved.lookup id = none :=
    (life_approved _ id _ known).trans (terminal_unapproved _ terminal)
  refine ⟨after, ?_, quiet, ?_⟩
  · cases now : (state.after o act log op').legacy.ledger.approved.lookup id with
    | none => rfl
    | some token =>
        have booked : (act.book state.legacy.ledger).approved.lookup id = some token := by
          rw [← apply_ledger state.legacy o act]
          exact now
        rcases book_approved _ _ _ _ booked with before | rfl
        · exact absurd (before.symm.trans none_) (by simp)
        · have plan := moved_approve state.legacy state.disk reading op op' log id token moved
          have first :=
            (inv.issued.planned o op here (.approve id token, log) (by simp [plan])).1 id token rfl
          exact absurd (first.1.symm.trans unsettled) (by simp)
  · intro token peer reported
    rcases moved_handed state.legacy state.disk reading op op' act log moved id token peer reported with
      granted | ⟨change, _, plan⟩
    · exact absurd (granted.symm.trans none_) (by simp)
    · have first := (inv.issued.planned o op here (change, log) (by simp [plan])).2 id token peer reported
      exact absurd (first.1.symm.trans unsettled) (by simp)

theorem run_used_up (allow : LegacyState → LegacyLabel → Prop) (state later : LegacyState)
    (inv : Approvals state) (run : Transition.Run legacyStep allow state later) : UsedUp state later := by
  refine (Transition.run_relation legacyStep allow Approvals UsedUp used_up_refl used_up_trans ?_ state
    later run inv).2
  intro state label next inv _ stepped
  refine ⟨approvals_step state next label inv stepped, ?_⟩
  rcases legacy_step_cases state next label stepped with ⟨call, _, rfl⟩ |
    ⟨o, reading, op, act, log, op', _, here, moved, rfl⟩
  · refine ⟨[], by simp, ?_⟩
    intro id life _ known none_ _
    rw [call_settled state inv.base.locked call]
    exact ⟨known, none_, by simp, by simp⟩
  · exact used_up_step state inv o reading op op' act log here moved

theorem life_disjoint (ledger : Ledger) (id : String) (life : Life) (known : ledger.view id = life.view) :
    (∀ token, ledger.approved.lookup id = some token → ∃ transfer, ledger.pending.lookup id = some transfer) ∧
      ¬ (ledger.pending.lookup id ≠ none ∧ ledger.rejected.lookup id ≠ none) ∧
      ¬ (ledger.pending.lookup id ≠ none ∧ id ∈ ledger.cancelled) ∧
      ¬ (ledger.rejected.lookup id ≠ none ∧ id ∈ ledger.cancelled) := by
  rw [life_pending _ id life known, life_approved _ id life known, life_rejected _ id life known,
    life_cancelled _ id life known]
  cases life <;> simp [Life.view]

theorem terminal_life (ledger : Ledger) (id : String) (life : Life) (known : ledger.view id = life.view)
    (used : id ∈ ledger.cancelled ∨ ledger.rejected.lookup id ≠ none) : life.terminal := by
  rw [life_rejected _ id life known, life_cancelled _ id life known] at used
  cases life <;> simp_all [Life.view, Life.terminal]

end GoshTransfer
