import GoshTransfer.LegacyLocks

set_option autoImplicit false

namespace GoshTransfer

open InodeStore

-- What version 1 knows about one id.
inductive Life where
  | absent
  | waiting (transfer : PendingTransfer)
  | approved (transfer : PendingTransfer) (token : String)
  | rejected (reason : String)
  | cancelled

-- The entries of one id in the four maps that decide about it.
@[ext] structure View where
  pending : Option PendingTransfer
  approved : Option String
  rejected : Option String
  cancelled : Prop

def Life.view : Life → View
  | .absent => ⟨none, none, none, False⟩
  | .waiting transfer => ⟨some transfer, none, none, False⟩
  | .approved transfer token => ⟨some transfer, some token, none, False⟩
  | .rejected reason => ⟨none, none, some reason, False⟩
  | .cancelled => ⟨none, none, none, True⟩

def Ledger.view (ledger : Ledger) (id : String) : View :=
  ⟨ledger.pending.lookup id, ledger.approved.lookup id, ledger.rejected.lookup id, id ∈ ledger.cancelled⟩

-- The lifecycle itself, with what a step reports: registration, the three
-- rulings, and expiry, which puts an id back to the start.
inductive Turn (id : String) (log : List LegacyEntry) : Life → Life → Prop where
  | stay (life : Life) (noRegistration : ∀ transfer, .registered transfer ∈ log → transfer.id ≠ id)
      (noExpiry : ∀ ids, .expired ids ∈ log → id ∉ ids) : Turn id log life life
  | register (transfer : PendingTransfer) (key : transfer.id = id) (reported : log = [.registered transfer]) :
      Turn id log .absent (.waiting transfer)
  | welcome (transfer : PendingTransfer) (token : String) (key : transfer.id = id)
      (reported : log = [.registered transfer]) :
      Turn id log .absent (.approved transfer token)
  | accept (transfer : PendingTransfer) (token : String) (silent : log = []) :
      Turn id log (.waiting transfer) (.approved transfer token)
  | reject (transfer : PendingTransfer) (reason : String) (silent : log = []) :
      Turn id log (.waiting transfer) (.rejected reason)
  | cancelWaiting (transfer : PendingTransfer) (silent : log = []) :
      Turn id log (.waiting transfer) .cancelled
  | cancelApproved (transfer : PendingTransfer) (token : String) (silent : log = []) :
      Turn id log (.approved transfer token) .cancelled
  | expire (life : Life) (ids : List String) (member : id ∈ ids) (reported : log = [.expired ids]) :
      Turn id log life .absent

def Edit.id : Edit → String
  | .pend transfer => transfer.id
  | .unpend id | .approve id _ | .unapprove id | .refuse id _ | .unrefuse id | .mark id | .unmark id |
      .receive id _
  | .unreceive id | .complete id | .uncomplete id | .uncount id | .unstamp id => id

def Edit.see (view : View) : Edit → View
  | .pend transfer => { view with pending := some transfer }
  | .unpend _ => { view with pending := none }
  | .approve _ token => { view with approved := some token }
  | .unapprove _ => { view with approved := none }
  | .refuse _ reason => { view with rejected := some reason }
  | .unrefuse _ => { view with rejected := none }
  | .mark _ => { view with cancelled := True }
  | .unmark _ => { view with cancelled := False }
  | _ => view

theorem view_apply (ledger : Ledger) (change : Edit) (id : String) :
    (change.apply ledger).view id =
      if change.id = id then change.see (ledger.view id) else ledger.view id := by
  by_cases same : change.id = id
  · subst same
    cases change <;> simp [Edit.apply, Edit.see, Edit.id, Ledger.view]
  · have other : id ≠ change.id := fun equal => same equal.symm
    cases change <;> simp_all [Edit.apply, Edit.id, Ledger.view, Finmap.lookup_insert_of_ne,
      Finmap.lookup_erase_ne]

def Ledger.settle (ledger : Ledger) (todo : Todo) : Ledger := todo.foldl
    (fun ledger entry => entry.1.apply ledger) ledger

def LegacyOp.todo : LegacyOp → Todo
  | .ruling _ _ (.edit todo _) => todo
  | .request _ (.prune todo) => todo
  | .request _ (.edit todo _) => todo
  | _ => []

-- The ledger as it will be when the holder of decisions has made the writes it
-- has decided on. While nobody holds it, this is the ledger.
def LegacyState.settled (state : LegacyState) : Ledger :=
  match state.legacy.decisions.bind fun o => state.ops[o]? with
  | some op => state.legacy.ledger.settle op.todo
  | none => state.legacy.ledger

theorem settle_view (todo : Todo) (ledger : Ledger) (id : String) :
    (ledger.settle todo).view id =
      todo.foldl (fun view entry => if entry.1.id = id then entry.1.see view else view) (ledger.view id) := by
  induction todo generalizing ledger with
  | nil => rfl
  | cons entry rest ih =>
      rw [List.foldl_cons, ← view_apply]
      exact ih (entry.1.apply ledger)

theorem accept_view (ledger : Ledger) (id token other : String) :
    (ledger.settle (acceptEdits id token)).view other =
      if id = other then { ledger.view other with approved := some token, rejected := none }
        else ledger.view other := by
  rw [settle_view]
  by_cases same : id = other <;> simp [acceptEdits, Edit.id, Edit.see, same]

theorem reject_view (ledger : Ledger) (id other : String) :
    (ledger.settle (rejectEdits id)).view other =
      if id = other then ⟨none, none, some "Rejected by user", (ledger.view other).cancelled⟩
        else ledger.view other := by
  rw [settle_view]
  by_cases same : id = other <;> simp [rejectEdits, Edit.id, Edit.see, same]

theorem cancel_view (ledger : Ledger) (id other : String) (info : Option PendingTransfer) (bytes : Nat) :
    (ledger.settle (cancelEdits id info bytes)).view other =
      if id = other then ⟨none, none, (ledger.view other).rejected, True⟩ else ledger.view other := by
  rw [settle_view]
  by_cases same : id = other <;> simp [cancelEdits, Edit.id, Edit.see, same]

theorem register_view (ledger : Ledger) (offer : Offer) (total : Nat) (other : String) :
    (((Edit.pend (offer.pending total)).apply ledger).settle (offer.edits (offer.pending total))).view other =
      if offer.id = other then
        ⟨some (offer.pending total), if offer.trusted then some offer.token
          else (ledger.view other).approved, none,
          (ledger.view other).cancelled⟩
      else ledger.view other := by
  have key : (offer.pending total).id = offer.id := rfl
  rw [settle_view, view_apply]
  by_cases same : offer.id = other <;> by_cases trusted : offer.trusted = true <;>
    simp [Offer.edits, Edit.id, Edit.see, same, trusted, key]

theorem prune_one_view (id other : String) (view : View) :
    ((pruneOne id).map fun change => (change, ([] : List LegacyEntry))).foldl
      (fun view entry => if entry.1.id = other then entry.1.see view else view) view =
      if id = other then Life.absent.view else view := by
  by_cases same : id = other <;> simp [pruneOne, Edit.id, Edit.see, same, Life.view]

theorem prune_view (ids : List String) (ledger : Ledger) (other : String) :
    (ledger.settle (pruneEdits ids)).view other = if other ∈ ids then Life.absent.view
      else ledger.view other := by
  rw [settle_view]
  generalize ledger.view other = view
  induction ids generalizing view with
  | nil => simp [pruneEdits]
  | cons id rest ih =>
      have parts : pruneEdits (id :: rest) = ((pruneOne id).map fun change => (change, [])) ++
        pruneEdits rest := by
        simp [pruneEdits]
      rw [parts, List.foldl_append, prune_one_view, ih]
      by_cases same : id = other
      · simp [same]
      · have different : ¬ other = id := fun equal => same equal.symm
        simp [same, different]

-- The tests that the holder of decisions has passed and not yet used.
def LegacyOp.Checked (ledger : Ledger) : LegacyOp → Prop
  | .ruling _ id .approved => id ∉ ledger.cancelled
  | .ruling _ id .pending => id ∉ ledger.cancelled ∧ ledger.approved.lookup id = none
  | .ruling _ id .check => id ∉ ledger.completed
  | .ruling _ id (.bytes info) => id ∉ ledger.completed ∧ info = ledger.pending.lookup id ∧
      ¬ (ledger.pending.lookup id = none ∧ ledger.approved.lookup id = none)
  | .request offer (.refused _) => offer.id ∉ ledger.cancelled
  | .request offer (.existing _) => offer.id ∉ ledger.cancelled ∧ ledger.rejected.lookup offer.id = none
  | .request offer (.retry _) => ∃ transfer, ledger.pending.lookup offer.id = some transfer ∧
      transfer.sourceIp = offer.source
  | .request offer (.capacity _) | .request offer (.stamp _) | .request offer (.pend _) =>
      offer.id ∉ ledger.cancelled ∧ ledger.rejected.lookup offer.id = none ∧
        ledger.pending.lookup offer.id = none
  | _ => True

-- Planned writes report no more than events other than TransferComplete, history
-- and tokens, and do not insert what only registrations and uploads insert.
def Edit.routine : Edit → Bool
  | .pend _ | .receive _ _ | .complete _ => false
  | _ => true

def LegacyEntry.routine : LegacyEntry → Bool
  | .event (.transferComplete _) => false
  | .event _ | .history _ | .handed _ _ _ => true
  | _ => false

def LegacyOp.Drafted (op : LegacyOp) : Prop :=
  ∀ entry ∈ op.todo, entry.1.routine = true ∧ ∀ report ∈ entry.2, report.routine = true

section Moved

variable (legacy : Legacy) (disk : ReceiverDisk) (reading : Reading) (op op' : LegacyOp) (act : LegacyAct)
    (log : List LegacyEntry)

theorem checked_free (ledger : Ledger) (free : op.holds = false) : op.Checked ledger := by
  cases op with
  | ruling verdict id phase => cases phase <;> trivial
  | request offer phase => cases phase <;> trivial
  | approval peer id phase => trivial
  | chunk params phase => trivial

theorem moved_checked (moved : LegacyOpMove legacy disk reading op act log op')
    (checked : op.Checked legacy.ledger) :
    op'.Checked (act.book legacy.ledger) := by
  cases moved with
  | ruling verdict id phase next act log moved =>
      cases moved with
      | cancellable open_ same => exact open_
      | live unmarked => exact unmarked
      | undecided none_ => exact ⟨checked, none_⟩
      | present known => exact ⟨checked, rfl, known⟩
      | _ => trivial
  | request offer phase next act log moved =>
      cases moved with
      | uncancelled total unmarked => exact unmarked
      | unrefused total none_ => exact ⟨checked, none_⟩
      | absent total none_ => exact ⟨checked.1, checked.2, none_⟩
      | repeated total transfer found same => exact ⟨transfer, found, same⟩
      | admitted total => exact checked
      | stamped total => exact checked
      | _ => trivial
  | approval peer id phase next act log moved => trivial
  | chunk params phase next act log moved => trivial

theorem accept_drafted (id token : String) (verdict : Ruling) (reply : Except EngineError (Option String)) :
    (LegacyOp.ruling verdict id (.edit (acceptEdits id token) reply)).Drafted := by
  simp [LegacyOp.Drafted, LegacyOp.todo, acceptEdits, Edit.routine, LegacyEntry.routine]

theorem reject_drafted (id : String) (verdict : Ruling) (reply : Except EngineError (Option String)) :
    (LegacyOp.ruling verdict id (.edit (rejectEdits id) reply)).Drafted := by
  simp [LegacyOp.Drafted, LegacyOp.todo, rejectEdits, Edit.routine]

theorem cancel_drafted (id : String) (info : Option PendingTransfer) (bytes : Nat) (verdict : Ruling)
    (reply : Except EngineError (Option String)) :
    (LegacyOp.ruling verdict id (.edit (cancelEdits id info bytes) reply)).Drafted := by
  cases info <;> simp [LegacyOp.Drafted, LegacyOp.todo, cancelEdits, cancelLog, Edit.routine,
    LegacyEntry.routine]

theorem prune_drafted (ids : List String) (offer : Offer) :
    (LegacyOp.request offer (.prune (pruneEdits ids))).Drafted := by
  intro entry member
  simp only [LegacyOp.todo, pruneEdits, List.mem_map, List.mem_flatMap] at member
  obtain ⟨change, ⟨id, _, chosen⟩, rfl⟩ := member
  refine ⟨?_, by simp⟩
  simp only [pruneOne, List.mem_cons, List.not_mem_nil, or_false] at chosen
  rcases chosen with rfl | rfl | rfl | rfl | rfl | rfl | rfl | rfl <;> rfl

theorem offer_drafted (offer : Offer) (transfer : PendingTransfer) (reply : LegacyResponse) :
    (LegacyOp.request offer (.edit (offer.edits transfer) reply)).Drafted := by
  by_cases trusted : offer.trusted = true <;>
    simp [LegacyOp.Drafted, LegacyOp.todo, Offer.edits, trusted, Edit.routine, LegacyEntry.routine]

theorem idle_drafted (none_ : op.todo = []) : op.Drafted := by
  intro entry member
  rw [none_] at member
  cases member

theorem moved_todo (moved : LegacyOpMove legacy disk reading op act log op') :
    (∃ change, act = .edit change ∧ op.todo = (change, log) :: op'.todo) ∨ op.todo = [] := by
  cases moved with
  | ruling verdict id phase next act log moved =>
      cases moved with
      | edited change log rest reply => exact .inl ⟨change, rfl, rfl⟩
      | quit phase reply testing => cases phase <;> first | exact .inr rfl | cases testing
      | _ => exact .inr rfl
  | request offer phase next act log moved =>
      cases moved with
      | pruned change log rest => exact .inl ⟨change, rfl, rfl⟩
      | edited change log rest reply => exact .inl ⟨change, rfl, rfl⟩
      | quit phase reply testing => cases phase <;> first | exact .inr rfl | cases testing
      | _ => exact .inr rfl
  | approval peer id phase next act log moved => exact .inr rfl
  | chunk params phase next act log moved => exact .inr rfl

theorem moved_drafted (moved : LegacyOpMove legacy disk reading op act log op') (drafted : op.Drafted) : op'.Drafted := by
  cases moved with
  | ruling verdict id phase next act log moved =>
      cases moved with
      | accepted token transfer same waiting => exact accept_drafted id token verdict _
      | rejected transfer same waiting => exact reject_drafted id verdict _
      | cancelled info => exact cancel_drafted id info _ verdict _
      | edited change log rest reply => exact fun entry member => drafted entry (List.mem_cons_of_mem _ member)
      | _ => exact idle_drafted _ rfl
  | request offer phase next act log moved =>
      cases moved with
      | selected distinct idle => exact prune_drafted reading.order offer
      | registered total => exact offer_drafted offer _ _
      | pruned change log rest => exact fun entry member => drafted entry (List.mem_cons_of_mem _ member)
      | edited change log rest reply => exact fun entry member => drafted entry (List.mem_cons_of_mem _ member)
      | _ => exact idle_drafted _ rfl
  | approval peer id phase next act log moved => exact idle_drafted _ rfl
  | chunk params phase next act log moved => exact idle_drafted _ rfl

theorem moved_reports (moved : LegacyOpMove legacy disk reading op act log op') (drafted : op.Drafted) :
    (∀ transfer, .registered transfer ∈ log → ∃ offer total, op = .request offer (.pend total) ∧
      transfer = offer.pending total) ∧
      (∀ ids, .expired ids ∈ log → ∃ offer, op = .request offer .select) := by
  have planned : ∀ change rest, op.todo = (change, log) :: rest →
      (∀ transfer, .registered transfer ∉ log) ∧ ∀ ids, .expired ids ∉ log := by
    intro change rest plan
    have routine := (drafted (change, log) (by simp [plan])).2
    refine ⟨?_, ?_⟩
    · intro transfer member
      cases routine _ member
    · intro ids member
      cases routine _ member
  cases moved with
  | ruling verdict id phase next act log moved =>
      cases moved with
      | edited change log rest reply =>
          obtain ⟨first, second⟩ := planned change rest rfl
          exact ⟨fun transfer member => absurd member (first transfer), fun ids member => absurd member
            (second ids)⟩
      | _ => simp
  | request offer phase next act log moved =>
      cases moved with
      | pruned change log rest =>
          obtain ⟨first, second⟩ := planned change rest rfl
          exact ⟨fun transfer member => absurd member (first transfer), fun ids member => absurd member
            (second ids)⟩
      | edited change log rest reply =>
          obtain ⟨first, second⟩ := planned change rest rfl
          exact ⟨fun transfer member => absurd member (first transfer), fun ids member => absurd member
            (second ids)⟩
      | selected distinct idle => exact ⟨by simp, fun ids _ => ⟨offer, rfl⟩⟩
      | registered total =>
          refine ⟨?_, by simp⟩
          intro transfer member
          exact ⟨offer, total, rfl, by simpa using member⟩
      | retried total reply =>
          cases legacy.ledger.approved.lookup offer.id <;> simp [handedTo]
      | _ => simp
  | approval peer id phase next act log moved => cases moved <;> simp
  | chunk params phase next act log moved =>
      cases moved with
      | counted k x amount => by_cases due : x.progressDue = true <;> simp [due, Writing.progress]
      | _ => simp [Writing.progress]

end Moved

section Settled

variable (state : LegacyState) (locked : Locked state) (o : Nat) (op : LegacyOp)

theorem settled_free (free : state.legacy.decisions = none) : state.settled = state.legacy.ledger := by
  simp [LegacyState.settled, free]

include locked in
theorem settled_held (here : state.ops[o]? = some op) (holds : op.holds = true) :
    state.settled = state.legacy.ledger.settle op.todo := by
  simp [LegacyState.settled, locked.held o op here holds, here]

theorem todo_holds (planned : op.todo ≠ []) : op.holds = true := by
  cases op with
  | ruling verdict id phase => cases phase <;> first | rfl | exact absurd rfl planned
  | request offer phase => cases phase <;> first | rfl | exact absurd rfl planned
  | approval peer id phase => exact absurd rfl planned
  | chunk params phase => exact absurd rfl planned

theorem free_todo (free : op.holds = false) : op.todo = [] := by
  by_contra planned
  rw [todo_holds op planned] at free
  cases free

include locked in
theorem others_free (here : state.ops[o]? = some op) (p : Nat) (q : LegacyOp) (there : state.ops[p]? = some q)
    (inside : q.holds = true) (other : p ≠ o) : op.holds = false := by
  by_contra holds
  have mine := locked.held o op here (by simpa using holds)
  rw [locked.held p q there inside] at mine
  exact other (Option.some.inj mine)

variable (reading : Reading) (op' : LegacyOp) (act : LegacyAct) (log : List LegacyEntry)
    (here : state.ops[o]? = some op)
  (moved : LegacyOpMove state.legacy state.disk reading op act log op')

include moved in
theorem entered_todo (free : op.holds = false) : op'.todo = [] := by
  cases moved with
  | ruling verdict id phase next act log moved => cases moved <;> first | rfl | cases free
  | request offer phase next act log moved => cases moved <;> first | rfl | cases free
  | approval peer id phase next act log moved => rfl
  | chunk params phase next act log moved => rfl

include moved in
theorem left_act (holds : op.holds = true) (free : op'.holds = false) (ledger : Ledger) : op.todo = [] ∧
    act.book ledger = ledger := by
  cases moved with
  | ruling verdict id phase next act log moved => cases moved <;> first | exact ⟨rfl, rfl⟩ | cases free
  | request offer phase next act log moved => cases moved <;> first | exact ⟨rfl, rfl⟩ | cases free
  | approval peer id phase next act log moved => cases holds
  | chunk params phase next act log moved =>
      refine ⟨rfl, ?_⟩
      cases moved <;> first | rfl | cases free

include locked here moved

-- A planned write does not change what the ledger settles to. The plan is made
-- in the one step that looks at a test and starts to write.
theorem settled_moved :
    ((state.after o act log op').settled = state.settled ∧
      (op.todo = [] → op.holds = false ∨ op'.holds = false)) ∨
    (op.holds = true ∧ op.todo = [] ∧ state.settled = state.legacy.ledger ∧
      (state.after o act log op').settled = (act.book state.legacy.ledger).settle op'.todo) := by
  have within : o < state.ops.length := (List.getElem?_eq_some_iff.mp here).1
  have self : (state.after o act log op').ops[o]? = some op' := List.getElem?_set_self within
  have ledger : (state.after o act log op').legacy.ledger = act.book state.legacy.ledger :=
    apply_ledger state.legacy o act
  by_cases holds : op.holds = true
  · have before := settled_held state locked o op here holds
    rcases moved_holds state.legacy state.disk reading o op op' act log moved with ⟨_, free, _, _⟩ |
      ⟨_, free, freed⟩ | ⟨same, kept⟩
    · rw [holds] at free
      cases free
    · obtain ⟨idle, quiet⟩ := left_act state op reading op' act log moved holds free state.legacy.ledger
      refine .inl ⟨?_, fun _ => .inr free⟩
      rw [settled_free _ freed, before, idle, ledger, quiet]
      rfl
    · have mine : (state.after o act log op').legacy.decisions = some o :=
        kept.trans (locked.held o op here holds)
      have after : (state.after o act log op').settled = (act.book state.legacy.ledger).settle op'.todo := by
        simp [LegacyState.settled, mine, self, ledger]
      rcases moved_todo state.legacy state.disk reading op op' act log moved with ⟨change, rfl, plan⟩ | idle
      · refine .inl ⟨?_, fun idle => by rw [plan] at idle; cases idle⟩
        rw [after, before, plan]
        rfl
      · exact .inr ⟨holds, idle, by rw [before, idle]; rfl, after⟩
  · have free : op.holds = false := by simpa using holds
    have quiet := moved_books state.legacy state.disk reading op op' act log moved free state.legacy.ledger
    refine .inl ⟨?_, fun _ => .inl free⟩
    rcases moved_holds state.legacy state.disk reading o op op' act log moved with ⟨none_, _, _, taken⟩ |
      ⟨held, _, _⟩ | ⟨_, kept⟩
    · have after : (state.after o act log op').settled = (act.book state.legacy.ledger).settle op'.todo := by
        have mine : (state.after o act log op').legacy.decisions = some o := taken
        simp [LegacyState.settled, mine, self, ledger]
      rw [after, entered_todo state op reading op' act log moved free, quiet, settled_free state none_]
      rfl
    · exact absurd held holds
    · have same : (state.after o act log op').legacy.decisions = state.legacy.decisions := kept
      cases taken : state.legacy.decisions with
      | none => rw [settled_free _ (same.trans taken), settled_free state taken, ledger, quiet]
      | some p =>
          obtain ⟨q, there, inside⟩ := locked.holder p taken
          have other : o ≠ p := by
            rintro rfl
            rw [here] at there
            cases there
            exact holds inside
          have stays : (state.after o act log op').ops[p]? = some q :=
            (List.getElem?_set_ne other).trans there
          rw [settled_held state locked p q there inside]
          simp [LegacyState.settled, same, taken, stays, ledger, quiet]

end Settled

section Plans

variable (ledger : Ledger) (other : String) (life : Life) (known : ledger.view other = life.view)

include known

theorem life_pending : ledger.pending.lookup other = life.view.pending := congrArg View.pending known

theorem life_approved : ledger.approved.lookup other = life.view.approved := congrArg View.approved known

theorem life_rejected : ledger.rejected.lookup other = life.view.rejected := congrArg View.rejected known

theorem life_cancelled : (other ∈ ledger.cancelled) = life.view.cancelled := congrArg View.cancelled known

theorem accept_turn (id token : String) (transfer : PendingTransfer)
    (waiting : ledger.pending.lookup id = some transfer) (undecided : ledger.approved.lookup id = none) :
    ∃ life', (ledger.settle (acceptEdits id token)).view other = life'.view ∧ Turn other [] life life' := by
  rw [accept_view]
  by_cases same : id = other
  · subst same
    have pending := life_pending ledger id life known
    have approved := life_approved ledger id life known
    rw [if_pos rfl, known]
    cases life with
    | waiting transfer => exact ⟨.approved transfer token, rfl, .accept transfer token rfl⟩
    | approved transfer token => exact absurd (undecided.symm.trans approved) (by simp [Life.view])
    | _ => exact absurd (waiting.symm.trans pending) (by simp [Life.view])
  · rw [if_neg same]
    exact ⟨life, known, .stay life (by simp) (by simp)⟩

theorem reject_turn (id : String) (transfer : PendingTransfer)
    (waiting : ledger.pending.lookup id = some transfer) (undecided : ledger.approved.lookup id = none) :
    ∃ life', (ledger.settle (rejectEdits id)).view other = life'.view ∧ Turn other [] life life' := by
  rw [reject_view]
  by_cases same : id = other
  · subst same
    have pending := life_pending ledger id life known
    have approved := life_approved ledger id life known
    rw [if_pos rfl, known]
    cases life with
    | waiting transfer => exact ⟨.rejected "Rejected by user", rfl, .reject transfer _ rfl⟩
    | approved transfer token => exact absurd (undecided.symm.trans approved) (by simp [Life.view])
    | _ => exact absurd (waiting.symm.trans pending) (by simp [Life.view])
  · rw [if_neg same]
    exact ⟨life, known, .stay life (by simp) (by simp)⟩

theorem cancel_turn (id : String) (info : Option PendingTransfer) (bytes : Nat)
    (present : ¬ (ledger.pending.lookup id = none ∧ ledger.approved.lookup id = none)) :
    ∃ life', (ledger.settle (cancelEdits id info bytes)).view other = life'.view ∧ Turn other
    [] life life' := by
  rw [cancel_view]
  by_cases same : id = other
  · subst same
    have pending := life_pending ledger id life known
    have approved := life_approved ledger id life known
    rw [if_pos rfl, known]
    cases life with
    | waiting transfer => exact ⟨.cancelled, rfl, .cancelWaiting transfer rfl⟩
    | approved transfer token => exact ⟨.cancelled, rfl, .cancelApproved transfer token rfl⟩
    | _ => exact absurd ⟨pending, approved⟩ present
  · rw [if_neg same]
    exact ⟨life, known, .stay life (by simp) (by simp)⟩

theorem register_turn (offer : Offer) (total : Nat) (unmarked : offer.id ∉ ledger.cancelled)
    (unrefused : ledger.rejected.lookup offer.id = none) (absent : ledger.pending.lookup offer.id = none) :
    ∃ life', (((Edit.pend (offer.pending total)).apply ledger).settle
      (offer.edits (offer.pending total))).view other = life'.view ∧
      Turn other [.registered (offer.pending total)] life life' := by
  rw [register_view]
  by_cases same : offer.id = other
  · have pending := life_pending ledger other life known
    have rejected := life_rejected ledger other life known
    have cancelled := life_cancelled ledger other life known
    rw [if_pos same, known]
    rw [same] at unmarked unrefused absent
    cases life with
    | absent =>
        by_cases trusted : offer.trusted = true
        · exact ⟨.approved (offer.pending total) offer.token, by simp [Life.view, trusted],
            .welcome _ _ same rfl⟩
        · exact ⟨.waiting (offer.pending total), by simp [Life.view, trusted], .register _ same rfl⟩
    | rejected reason => exact absurd (unrefused.symm.trans rejected) (by simp [Life.view])
    | cancelled => exact absurd (cancelled.mpr trivial) unmarked
    | waiting transfer => exact absurd (absent.symm.trans pending) (by simp [Life.view])
    | approved transfer token => exact absurd (absent.symm.trans pending) (by simp [Life.view])
  · rw [if_neg same]
    refine ⟨life, known, .stay life ?_ (by simp)⟩
    intro transfer member
    have equal : transfer = offer.pending total := by simpa using member
    rw [equal]
    exact same

theorem expire_turn (ids : List String) :
    ∃ life', (ledger.settle (pruneEdits ids)).view other = life'.view ∧ Turn other
    [.expired ids] life life' := by
  rw [prune_view]
  by_cases member : other ∈ ids
  · rw [if_pos member]
    exact ⟨.absent, rfl, .expire life ids member rfl⟩
  · rw [if_neg member]
    refine ⟨life, known, .stay life (by simp) ?_⟩
    intro selected reported
    have equal : selected = ids := by simpa using reported
    rw [equal]
    exact member

end Plans

structure LegacyBase (state : LegacyState) : Prop where
  locked : Locked state
  checked : ∀ (o : Nat) (op : LegacyOp), state.ops[o]? = some op → op.Checked state.legacy.ledger
  drafted : ∀ (o : Nat) (op : LegacyOp), state.ops[o]? = some op → op.Drafted
  lives : ∀ id, ∃ life : Life, state.settled.view id = life.view

section Step

variable (state : LegacyState) (base : LegacyBase state) (o : Nat) (reading : Reading) (op op' : LegacyOp)
    (act : LegacyAct)
  (log : List LegacyEntry) (here : state.ops[o]? = some op)
  (moved : LegacyOpMove state.legacy state.disk reading op act log op')

include base here moved

theorem step_checked (p : Nat) (q : LegacyOp) (there : (state.after o act log op').ops[p]? = some q) :
    q.Checked (state.after o act log op').legacy.ledger := by
  rw [show (state.after o act log op').legacy.ledger = act.book state.legacy.ledger from apply_ledger
    state.legacy o act]
  rcases Transition.set_cases state.ops o p op' q there with ⟨rfl, rfl⟩ | ⟨other, before⟩
  · exact moved_checked state.legacy state.disk reading op q act log moved (base.checked p op here)
  · by_cases inside : q.holds = true
    · have free := others_free state base.locked o op here p q before inside other
      rw [moved_books state.legacy state.disk reading op op' act log moved free]
      exact base.checked p q before
    · exact checked_free q _ (by simpa using inside)

theorem step_turns (id : String) (life : Life) (known : state.settled.view id = life.view) :
    ∃ life', (state.after o act log op').settled.view id = life'.view ∧ Turn id log life life' := by
  obtain ⟨registers, expires⟩ := moved_reports state.legacy state.disk reading op op' act log moved
    (base.drafted o op here)
  have checked := base.checked o op here
  rcases settled_moved state base.locked o op reading op' act log here moved with ⟨same, busy⟩ |
    ⟨_, idle, before, after⟩
  · refine ⟨life, by rw [same]; exact known, .stay life ?_ ?_⟩
    · intro transfer member
      obtain ⟨offer, total, rfl, _⟩ := registers transfer member
      cases moved with
      | request offer phase next act log moved => cases moved <;> rcases busy rfl with held |
          held <;> cases held
    · intro ids member
      obtain ⟨offer, rfl⟩ := expires ids member
      cases moved with
      | request offer phase next act log moved => cases moved <;> rcases busy rfl with held |
          held <;> cases held
  · rw [before] at known
    rw [after]
    cases moved with
    | ruling verdict key phase next act log moved =>
        cases moved with
        | accepted token transfer same waiting =>
            exact accept_turn _ id life known key token transfer waiting checked.2
        | rejected transfer same waiting => exact reject_turn _ id life known key transfer waiting checked.2
        | cancelled info => exact cancel_turn _ id life known key info _ checked.2.2
        | edited change log rest reply => cases idle
        | _ => exact ⟨life, known, .stay life (by simp) (by simp)⟩
    | request offer phase next act log moved =>
        cases moved with
        | selected distinct idle => exact expire_turn _ id life known reading.order
        | registered total =>
            exact register_turn _ id life known offer total checked.1 checked.2.1 checked.2.2
        | pruned change log rest => cases idle
        | edited change log rest reply => cases idle
        | retried total reply =>
            refine ⟨life, known, .stay life ?_ ?_⟩
            · intro transfer member
              obtain ⟨_, _, impossible, _⟩ := registers transfer member
              cases impossible
            · intro ids member
              obtain ⟨_, impossible⟩ := expires ids member
              cases impossible
        | _ => exact ⟨life, known, .stay life (by simp) (by simp)⟩
    | approval peer key phase next act log moved =>
        cases moved <;> exact ⟨life, known, .stay life (by simp) (by simp)⟩
    | chunk params phase next act log moved =>
        have quiet : ((act.book state.legacy.ledger).settle []).view id = state.legacy.ledger.view id := by
          cases moved <;> rfl
        refine ⟨life, quiet.trans known, .stay life ?_ ?_⟩
        · intro transfer member
          obtain ⟨_, _, impossible, _⟩ := registers transfer member
          cases impossible
        · intro ids member
          obtain ⟨_, impossible⟩ := expires ids member
          cases impossible

theorem step_base : LegacyBase (state.after o act log op') := by
  refine ⟨?_, step_checked state base o reading op op' act log here moved, ?_, ?_⟩
  · exact ⟨moved_held state base.locked o reading op op' act log here moved,
      moved_holder state base.locked o reading op op' act log here moved,
      moved_owned state base.locked o reading op op' act log here moved,
      moved_sole state base.locked o reading op op' act log here moved⟩
  · intro p q there
    rcases Transition.set_cases state.ops o p op' q there with ⟨rfl, rfl⟩ | ⟨_, before⟩
    · exact moved_drafted state.legacy state.disk reading op q act log moved (base.drafted p op here)
    · exact base.drafted p q before
  · intro id
    obtain ⟨life, known⟩ := base.lives id
    obtain ⟨life', after, _⟩ := step_turns state base o reading op op' act log here moved id life known
    exact ⟨life', after⟩

end Step

theorem call_settled (state : LegacyState) (locked : Locked state) (call : LegacyCall) :
    LegacyState.settled { state with ops := state.ops ++ [call.op] } = state.settled := by
  cases taken : state.legacy.decisions with
  | none => exact (settled_free { state with ops := state.ops ++ [call.op] } taken).trans (settled_free state taken).symm
  | some p =>
      obtain ⟨q, there, _⟩ := locked.holder p taken
      have within : p < state.ops.length := (List.getElem?_eq_some_iff.mp there).1
      have stays : (state.ops ++ [call.op])[p]? = some q := by
        rw [List.getElem?_append_left within]
        exact there
      simp [LegacyState.settled, taken, there, stays]

theorem legacy_base_step (state next : LegacyState) (label : LegacyLabel) (base : LegacyBase state)
    (stepped : legacyStep state label = some next) : LegacyBase next := by
  have locked := locked_step state next label base.locked stepped
  rcases legacy_step_cases state next label stepped with ⟨call, _, rfl⟩ |
    ⟨o, reading, op, act, log, op', _, here, moved, rfl⟩
  · have idle : call.op.todo = [] := by cases call <;> rfl
    refine ⟨locked, ?_, ?_, ?_⟩
    · intro p q there
      rcases Transition.append_cases state.ops p call.op q there with before | rfl
      · exact base.checked p q before
      · exact checked_free _ _ (legacy_call_idle call).1
    · intro p q there
      rcases Transition.append_cases state.ops p call.op q there with before | rfl
      · exact base.drafted p q before
      · exact idle_drafted _ idle
    · rw [call_settled state base.locked call]
      exact base.lives
  · exact step_base state base o reading op op' act log here moved

theorem initial_legacy_base (state : LegacyState) (initial : LegacyInitial state) : LegacyBase state := by
  refine ⟨initial_locked state initial, ?_, ?_, ?_⟩
  · intro p q there
    rw [initial.idle] at there
    cases there
  · intro p q there
    rw [initial.idle] at there
    cases there
  · intro id
    refine ⟨.absent, ?_⟩
    have free : state.legacy.decisions = none := by
      rw [initial.fresh]
      rfl
    rw [settled_free state free, initial.fresh]
    simp [Legacy.empty, Ledger.empty, Ledger.view, Life.view]

end GoshTransfer
