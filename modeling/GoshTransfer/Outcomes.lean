import GoshTransfer.Kept
import GoshTransfer.Completion

set_option autoImplicit false

namespace GoshTransfer

open InodeStore

-- At most one of Rejected, cancelled and complete.
def Record.Exclusive (record : Record) : Prop :=
  ¬ (record.decision = .rejected ∧ record.cancelled = true) ∧
    ¬ (record.decision = .rejected ∧ record.complete = true) ∧
    ¬ (record.cancelled = true ∧ record.complete = true)

def Record.SameOutcome (a b : Record) : Prop :=
  (a.decision = .rejected ↔ b.decision = .rejected) ∧ a.cancelled = b.cancelled ∧ a.complete = b.complete

-- A session is the record in memory while the receiver runs and its journal otherwise.
def State.record (state : State) (id : String) : Option Record :=
  if state.running then (state.store.sessions.lookup id).bind fun s => (state.store.heap[s]?).map
    Session.record
  else state.store.disk.doc (journalPath id)

-- All history records of the durable store are terminal ones.
def Entry.recordFor (id : String) : Entry → Bool
  | .history _ record => record.transfer.id == id
  | _ => false

def historyRecords (id : String) (log : List Entry) : Nat := log.countP (Entry.recordFor id)

-- A reject must not decide a cancelled session and a cancel no rejected one,
-- and the persist that records an outcome must not leave the old journal.
def outcomeSafe (state : State) : Label → Bool
  | .advance o fault =>
      match state.ops[o]? with
      | some (.reject _ (.decide s)) => fault != some (.persist false) &&
          (state.store.heap[s]?).all fun session => !(session.record.decision = .pending &&
          session.record.cancelled)
      | some (.cancel _ _ (.decide s)) => fault != some (.persist false) &&
          (state.store.heap[s]?).all fun session => !(session.record.decision = .rejected &&
          !session.record.cancelled)
      | some (.upload _ (.commit _ _ _)) => !(fault == some (.persist false) && state.completes o)
      | _ => true
  | _ => true

theorem same_outcome_refl (record : Record) : record.SameOutcome record := ⟨Iff.rfl, rfl, rfl⟩

theorem same_outcome_trans (a b c : Record) (first : a.SameOutcome b) (second : b.SameOutcome c) :
    a.SameOutcome c :=
  ⟨first.1.trans second.1, first.2.1.trans second.2.1, first.2.2.trans second.2.2⟩

theorem same_outcome_terminal (a b : Record) (same : a.SameOutcome b) : a.terminal = b.terminal := by
  obtain ⟨rejected, cancelled, complete⟩ := same
  simp [Record.terminal, cancelled, complete, rejected]

theorem same_outcome_exclusive (a b : Record) (same : a.SameOutcome b) (exclusive : a.Exclusive) :
    b.Exclusive := by
  obtain ⟨rejected, cancelled, complete⟩ := same
  simpa only [Record.Exclusive, rejected, cancelled, complete] using exclusive

theorem outcome_change (sha256 : Bytes → String) (state : State) (base : Base state) (o : Nat)
    (fault : Option Fault) (op op' : Op) (act : Act) (log : List Entry) (here : state.ops[o]? = some op)
    (moved : OpMove sha256 state.store fault op act log op')
    (safe : outcomeSafe state (.advance o fault) = true) (s : Nat) (session : Session) (record : Record)
    (there : state.store.heap[s]? = some session) (writes : act.writes = some (s, record)) :
    session.record.SameOutcome record ∨
      (session.record.terminal = false ∧ record.Exclusive ∧ act = .persist s record true) := by
  have sound := (base.sound s session there).record
  have facts := base.facts o op here
  cases moved with
  | accept id phase next _ _ moved =>
      cases moved <;> simp only [Act.writes, Option.some.injEq, Prod.mk.injEq, reduceCtorEq] at writes
      case accepted t session' there' open_ ok =>
        obtain ⟨rfl, rfl⟩ := writes
        obtain rfl : session = session' := Option.some.inj (there.symm.trans there')
        exact .inl ⟨by simp [(terminal_false _ open_).2.2], rfl, rfl⟩
      case failed t session' saved there' open_ broken =>
        obtain ⟨rfl, rfl⟩ := writes
        obtain rfl : session = session' := Option.some.inj (there.symm.trans there')
        exact .inl ⟨by simp [(terminal_false _ open_).2.2], rfl, rfl⟩
  | reject id phase next _ _ moved =>
      have decided : ∀ t, phase = .decide t → s = t → session.record.decision = .pending →
          session.record.terminal = false ∧
            ({ session.record with decision := .rejected } : Record).Exclusive ∧
            fault ≠ some (.persist false) := by
        rintro t rfl rfl pending
        simp only [outcomeSafe, here, there, pending, Option.all_some, Bool.and_eq_true, bne_iff_ne,
          ne_eq] at safe
        have live : session.record.cancelled = false := by simpa using safe.2
        have open_ : session.record.complete = false := by
          by_contra complete
          have accepted := (sound.complete (by simpa using complete)).2.1
          rw [pending] at accepted
          cases accepted
        exact ⟨by simp [Record.terminal, live, open_, pending], by simp [Record.Exclusive, live, open_],
          safe.1⟩
      cases moved <;> simp only [Act.writes, Option.some.injEq, Prod.mk.injEq, reduceCtorEq] at writes
      case rejected t session' there' undecided ok =>
        obtain ⟨rfl, rfl⟩ := writes
        obtain rfl : session = session' := Option.some.inj (there.symm.trans there')
        obtain ⟨open_, exclusive, _⟩ := decided t rfl rfl undecided
        exact .inr ⟨open_, exclusive, rfl⟩
      case failed t session' saved there' undecided broken =>
        obtain ⟨rfl, rfl⟩ := writes
        obtain rfl : session = session' := Option.some.inj (there.symm.trans there')
        obtain ⟨open_, exclusive, replaced⟩ := decided t rfl rfl undecided
        obtain rfl : saved = true := by simpa [broken] using replaced
        exact .inr ⟨open_, exclusive, rfl⟩
  | cancel caller id phase next _ _ moved =>
      have decided : ∀ t, phase = .decide t → s = t → session.record.complete = false →
        session.record.cancelled = false →
          session.record.terminal = false ∧ ({ session.record with cancelled := true } : Record).Exclusive ∧
            fault ≠ some (.persist false) := by
        rintro t rfl rfl open_ live
        simp only [outcomeSafe, here, there, live, Option.all_some, Bool.and_eq_true, bne_iff_ne,
          ne_eq] at safe
        have unrejected : session.record.decision ≠ .rejected := by simpa using safe.2
        exact ⟨by simp [Record.terminal, live, open_, unrejected],
          by simp [Record.Exclusive, open_, unrejected], safe.1⟩
      cases moved <;> (try simp only [remove_act_writes, reduceCtorEq] at writes) <;>
        simp only [Act.writes, Option.some.injEq, Prod.mk.injEq, reduceCtorEq] at writes
      case cancelled t session' points there' open_ read ok =>
        obtain ⟨rfl, rfl⟩ := writes
        obtain rfl : session = session' := Option.some.inj (there.symm.trans there')
        obtain ⟨fresh, exclusive, _⟩ := decided t rfl rfl open_.1 open_.2
        exact .inr ⟨fresh, exclusive, rfl⟩
      case failed t session' saved there' open_ broken =>
        obtain ⟨rfl, rfl⟩ := writes
        obtain rfl : session = session' := Option.some.inj (there.symm.trans there')
        obtain ⟨fresh, exclusive, replaced⟩ := decided t rfl rfl open_.1 open_.2
        obtain rfl : saved = true := by simpa [broken] using replaced
        exact .inr ⟨fresh, exclusive, rfl⟩
  | forget id phase next _ _ moved =>
      cases moved <;> (try simp only [remove_act_writes, reduceCtorEq] at writes) <;>
        simp only [Act.writes, reduceCtorEq] at writes
  | register request phase next _ _ moved => cases moved <;> simp only [Act.writes, reduceCtorEq] at writes
  | status peer id phase next _ _ moved => cases moved <;> simp only [Act.writes, reduceCtorEq] at writes
  | upload request phase next _ _ moved =>
      have receipt : ∀ x target, phase = .commit s x target → session.record.terminal = false ∧
          (receiptRecord session.record x.file target).Exclusive ∧
          ((receiptRecord session.record x.file target).complete = false →
            session.record.SameOutcome (receiptRecord session.record x.file target)) ∧
          ((receiptRecord session.record x.file target).complete = true → fault ≠ some (.persist false)) := by
        rintro x target rfl
        obtain ⟨working, _⟩ := facts s session rfl there
        have open_ := working_open session.record x.file sound working
        have accepted : (receiptRecord session.record x.file target).decision = .accepted := working.accepted
        have live : (receiptRecord session.record x.file target).cancelled = false := working.live
        refine ⟨by simp [Record.terminal, open_, working.live, working.accepted],
          by simp [Record.Exclusive, accepted, live], ?_, ?_⟩
        · intro still
          exact ⟨by rw [accepted, working.accepted], by rw [live, working.live], by rw [still, open_]⟩
        · rintro complete rfl
          have completes : state.completes o = true := by
            simp only [State.completes, here, there, Option.any_some]
            exact complete
          simp [outcomeSafe, here, completes] at safe
      cases moved <;> (try simp only [remove_act_writes, reduceCtorEq] at writes) <;>
        simp only [Act.writes, Option.some.injEq, Prod.mk.injEq, reduceCtorEq] at writes
      case chosen t session' x index there' bounded ok =>
        obtain ⟨rfl, rfl⟩ := writes
        obtain rfl : session = session' := Option.some.inj (there.symm.trans there')
        exact .inl ⟨Iff.rfl, rfl, rfl⟩
      case unchosen t session' x index saved there' failed =>
        obtain ⟨rfl, rfl⟩ := writes
        obtain rfl : session = session' := Option.some.inj (there.symm.trans there')
        exact .inl ⟨Iff.rfl, rfl, rfl⟩
      case conflict t session' x index target there' different =>
        obtain ⟨rfl, rfl⟩ := writes
        obtain rfl : session = session' := Option.some.inj (there.symm.trans there')
        exact .inl ⟨Iff.rfl, rfl, rfl⟩
      case committed t session' x target there' ok =>
        obtain ⟨rfl, rfl⟩ := writes
        obtain rfl : session = session' := Option.some.inj (there.symm.trans there')
        obtain ⟨open_, exclusive, _, _⟩ := receipt x target rfl
        exact .inr ⟨open_, exclusive, rfl⟩
      case uncommitted t session' x target saved there' failed =>
        obtain ⟨rfl, rfl⟩ := writes
        obtain rfl : session = session' := Option.some.inj (there.symm.trans there')
        obtain ⟨open_, exclusive, same, replaced⟩ := receipt x target rfl
        cases complete : (receiptRecord session.record x.file target).complete with
        | false => exact .inl (same complete)
        | true =>
            obtain rfl : saved = true := by simpa [failed] using replaced complete
            exact .inr ⟨open_, exclusive, rfl⟩

-- The operations that have recorded an outcome of s and still owe its history record.
def Op.owes (s : Nat) (record : Record) : Op → Bool
  | .reject _ (.announce t) => t == s
  | .cancel _ _ (.discard t _ _) => t == s
  | .upload _ phase => phase.announcing == some s && record.complete
  | _ => false

structure Outcomes (state : State) : Prop where
  exclusive : ∀ (s : Nat) (session : Session), state.store.heap[s]? = some session → session.record.Exclusive
  agree : ∀ (s : Nat) (session : Session), state.store.heap[s]? = some session →
    ∃ journal, state.store.disk.doc (journalPath session.id) = some journal ∧
      journal.SameOutcome session.record
  journals : ∀ (path : Path) (journal : Record), state.store.disk.doc path = some journal → journal.Exclusive
  counted : ∀ id, historyRecords id state.log ≠ 0 →
    (state.running = true → ∃ s, state.store.sessions.lookup id = some s) ∧
    ∃ journal, state.store.disk.doc (journalPath id) = some journal ∧ journal.terminal = true
  once : ∀ id, historyRecords id state.log ≤ 1
  due : ∀ (o : Nat) (op : Op) (s : Nat) (session : Session), state.ops[o]? = some op →
    state.store.heap[s]? = some session →
    op.owes s session.record = true → historyRecords session.id state.log = 0

theorem owes_holds (op : Op) (s : Nat) (record : Record) (owes : op.owes s record = true) :
    op.holds = some s := by
  cases op with
  | reject id phase => cases phase <;> simp_all [Op.owes, Op.holds, RejectPhase.holds]
  | cancel caller id phase => cases phase <;> simp_all [Op.owes, Op.holds, CancelPhase.holds]
  | upload request phase =>
      have announcing : phase.announcing = some s := by simp_all [Op.owes]
      exact announcing_holds (.upload request phase) s announcing
  | _ => cases owes

theorem open_uncounted (state : State) (inv : Outcomes state) (s : Nat) (session : Session)
    (there : state.store.heap[s]? = some session) (open_ : session.record.terminal = false) :
    historyRecords session.id state.log = 0 := by
  by_contra counted
  obtain ⟨journal, written, same⟩ := inv.agree s session there
  obtain ⟨_, journal', written', ended⟩ := inv.counted session.id counted
  obtain rfl : journal = journal' := Option.some.inj (written.symm.trans written')
  rw [same_outcome_terminal _ _ same, open_] at ended
  cases ended

theorem history_silent (id : String) (log more : List Entry)
    (nothing : ∀ entry ∈ more, entry.reports = false) :
    historyRecords id (log ++ more) = historyRecords id log := by
  have none : more.countP (Entry.recordFor id) = 0 := by
    refine List.countP_eq_zero.mpr fun entry member => ?_
    have := nothing entry member
    cases entry <;> simp_all [Entry.reports, Entry.recordFor]
  simp [historyRecords, List.countP_append, none]

theorem history_step (sha256 : Bytes → String) (state : State) (base : Base state) (o : Nat)
    (fault : Option Fault) (op op' : Op) (act : Act) (log : List Entry) (here : state.ops[o]? = some op)
    (moved : OpMove sha256 state.store fault op act log op') :
    (∀ id, historyRecords id (state.log ++ log) = historyRecords id state.log) ∨
    (∃ s session, state.store.heap[s]? = some session ∧ op.owes s session.record = true ∧ act = .tau ∧
      (∀ t record, op'.owes t record = false) ∧ session.record.terminal = true ∧
      ∀ id, historyRecords id (state.log ++ log) = historyRecords id state.log + if session.id = id then 1
        else 0) := by
  have named : ∀ (s : Nat) (session : Session), state.store.heap[s]? = some session →
    session.record.pending.id = session.id :=
    fun s session there => (base.sound s session there).named.symm
  cases op_report sha256 state.store fault op op' act log moved with
  | silent _ _ _ _ nothing => exact .inl fun id => history_silent id state.log log nothing
  | completed request s session x there =>
      by_cases complete : session.record.complete = true
      · refine .inr ⟨s, session, there, by simp [Op.owes, UploadPhase.announcing, complete], rfl,
          fun t record => rfl,
          by simp [Record.terminal, complete], ?_⟩
        intro id
        by_cases same : session.id = id <;>
          simp [historyRecords, List.countP_append, completionLog, complete, Entry.recordFor,
          named s session there, same]
      · refine .inl fun id => ?_
        simp [historyRecords, List.countP_append, completionLog, complete, Entry.recordFor]
  | cancelled caller id s session bytes there =>
      refine .inr ⟨s, session, there, by simp [Op.owes], rfl, fun t record => rfl, ?_, ?_⟩
      · simp [Record.terminal, (base.facts o _ here session there).1]
      · intro id
        by_cases same : session.id = id <;>
          simp [historyRecords, List.countP_append, Entry.recordFor, named s session there, same]
  | rejected id s session there =>
      have decided : session.record.decision = .rejected := base.facts o _ here session there
      refine .inr ⟨s, session, there, by simp [Op.owes], rfl, fun t record => rfl,
        by simp [Record.terminal, decided], ?_⟩
      intro id
      by_cases same : session.id = id <;>
        simp [historyRecords, List.countP_append, Entry.recordFor, named s session there, same]

theorem owes_begins (sha256 : Bytes → String) (state : State) (base : Base state) (o : Nat)
    (fault : Option Fault) (op op' : Op) (act : Act) (log : List Entry) (here : state.ops[o]? = some op)
    (moved : OpMove sha256 state.store fault op act log op') (s : Nat) (session : Session)
    (there : state.store.heap[s]? = some session) (owes : op'.owes s (act.on o s session).record = true) :
    op.owes s session.record = true ∨ ∃ record, act.writes = some (s, record) ∧
      ¬ session.record.SameOutcome record := by
  cases moved with
  | reject id phase next _ _ moved =>
      cases moved with
      | rejected t session' there' undecided ok =>
          obtain rfl : t = s := by simpa [Op.owes] using owes
          obtain rfl : session = session' := Option.some.inj (there.symm.trans there')
          refine .inr ⟨_, rfl, ?_⟩
          intro same
          have := same.1.mpr rfl
          rw [undecided] at this
          cases this
      | _ => cases owes
  | cancel caller id phase next _ _ moved =>
      cases moved with
      | cancelled t session' points there' open_ read ok =>
          obtain rfl : t = s := by simpa [Op.owes] using owes
          obtain rfl : session = session' := Option.some.inj (there.symm.trans there')
          refine .inr ⟨_, rfl, ?_⟩
          intro same
          have := same.2.1
          rw [open_.2] at this
          cases this
      | discarded t session' file rest bytes there' => exact .inl owes
      | _ => cases owes
  | upload request phase next _ _ moved =>
      cases moved with
      | committed t session' x target there' ok =>
          obtain ⟨rfl, complete⟩ : t = s ∧ _ := by simpa [Op.owes, UploadPhase.announcing] using owes
          obtain rfl : session = session' := Option.some.inj (there.symm.trans there')
          refine .inr ⟨_, rfl, ?_⟩
          intro same
          obtain ⟨working, _⟩ := base.facts o _ here t session rfl there
          have open_ := working_open session.record x.file (base.sound t session there).record working
          have now : (receiptRecord session.record x.file target).complete =
            true := by simpa [Act.on] using complete
          have := same.2.2
          rw [open_, now] at this
          cases this
      | finished t x =>
          rw [quiet_record _ o s session rfl] at owes
          exact .inl owes
      | discarded t session' x there' =>
          rw [quiet_record _ o s session (remove_act_writes _ _)] at owes
          exact .inl owes
      | _ => cases owes
  | accept id phase next _ _ moved => cases owes
  | forget id phase next _ _ moved => cases owes
  | register request phase next _ _ moved => cases owes
  | status peer id phase next _ _ moved => cases owes

section Advance

variable (sha256 : Bytes → String) (state : State) (base : Base state) (kept : Kept state)
    (inv : Outcomes state) (o : Nat)
variable (fault : Option Fault) (op op' : Op) (act : Act) (log : List Entry) (here : state.ops[o]? = some op)
variable (moved : OpMove sha256 state.store fault op act log op')
    (safe : outcomeSafe state (.advance o fault) = true)
include base inv here moved safe

omit inv in
theorem outcome_on (s : Nat) (session : Session) (there : state.store.heap[s]? = some session) :
    session.record.SameOutcome (act.on o s session).record ∨
      (session.record.terminal = false ∧ (act.on o s session).record.Exclusive ∧
        act = .persist s (act.on o s session).record true) := by
  rcases on_record_writes act o s session with ⟨record, writes, on⟩ | ⟨_, same⟩
  · rw [on]
    exact outcome_change sha256 state base o fault op op' act log here moved safe s session record there
      writes
  · rw [same]
    exact .inl (same_outcome_refl _)

include kept

theorem outcome_agree (s : Nat) (session : Session) (there : state.store.heap[s]? = some session) :
    ∃ journal, (state.store.apply o act).disk.doc (journalPath session.id) = some journal ∧
      journal.SameOutcome (act.on o s session).record := by
  have forward := (moved_session sha256 state base o fault op op' act log here moved s session there).2
  rcases kept_journal sha256 state base kept o fault op op' act log here moved session.id with
    same | ⟨t, other, record, rfl, present, named, newer, now⟩ | ⟨request, rfl, rfl, named, now⟩
  · obtain ⟨journal, written, agree⟩ := inv.agree s session there
    rcases outcome_on sha256 state base o fault op op' act log here moved safe s session there with kept |
      ⟨_, _, saved⟩
    · exact ⟨journal, same.trans written, same_outcome_trans _ _ _ agree kept⟩
    · have owned := journal_id _ session (base.sound s session there).named forward
      generalize (act.on o s session).record = record at saved owned ⊢
      subst saved
      exact ⟨record, (doc_node _ _ _).mpr ((apply_node _ _ _ _).trans (if_pos (by rw [owned]))),
        same_outcome_refl _⟩
  · have found := kept.mapped t other present
    rw [named, kept.mapped s session there] at found
    obtain rfl : s = t := Option.some.inj found
    exact ⟨record, now, by simpa [Act.on] using same_outcome_refl record⟩
  · have absent := (base.facts o _ here).2
    rw [named, kept.mapped s session there] at absent
    cases absent

omit kept in
theorem outcome_journals (path : Path) (journal : Record)
    (written : (state.store.apply o act).disk.doc path = some journal) :
    journal.Exclusive := by
  rcases apply_doc state.store o act path journal written with before | ⟨same, ⟨s, rfl⟩ | rfl⟩
  · exact inv.journals path journal before
  · obtain ⟨session, there, _⟩ := moved_change sha256 state.store fault op op' _ log s journal
      (base.facts o op here) moved rfl
    rcases outcome_on sha256 state base o fault op op' _ log here moved safe s session there with kept |
      ⟨_, exclusive, _⟩
    · simpa [Act.on] using same_outcome_exclusive _ _ kept (inv.exclusive s session there)
    · simpa [Act.on] using exclusive
  · cases op_effect sha256 state.store fault op op' _ log moved with
    | quiet _ _ _ silent => cases silent
    | journal request _ _ =>
        cases trusted : request.trusted <;> simp [Record.Exclusive, RegisterRequest.record, trusted]

theorem outcome_counted (id : String) (counted : historyRecords id state.log ≠ 0) :
    (∃ s, (state.store.apply o act).sessions.lookup id = some s) ∧
      ∃ journal, (state.store.apply o act).disk.doc (journalPath id) = some journal ∧
        journal.terminal = true := by
  obtain ⟨known, journal, written, ended⟩ := inv.counted id counted
  obtain ⟨s, present⟩ := known (base_running state base o op here)
  obtain ⟨session, there, rfl⟩ := base.mapped id s present
  obtain ⟨journal', written', agree⟩ := inv.agree s session there
  obtain rfl : journal = journal' := Option.some.inj (written.symm.trans written')
  rw [same_outcome_terminal _ _ agree] at ended
  have forward := (moved_session sha256 state base o fault op op' act log here moved s session there).2
  obtain ⟨after, now, same⟩ :=
    outcome_agree sha256 state base kept inv o fault op op' act log here moved safe s session there
  refine ⟨⟨s, ?_⟩, after, now, ?_⟩
  · have := (kept_advance sha256 state base kept o fault op op' act log here moved).mapped s _
      (apply_heap state.store o act s session there)
    exact (congrArg ((state.store.apply o act).sessions.lookup ·) (on_id act o s session)).symm.trans this
  · rw [same_outcome_terminal _ _ same]
    exact forward_terminal _ _ forward ended

omit inv moved safe in
theorem owes_unique (p : Nat) (q : Op) (other : p ≠ o) (there : state.ops[p]? = some q) (s t : Nat)
    (session locked : Session) (present : state.store.heap[s]? = some session)
    (owes : q.owes s session.record = true) (mine : op.holds = some t)
    (lockedHere : state.store.heap[t]? = some locked) : session.id ≠ locked.id := by
  intro same
  have found := kept.mapped t locked lockedHere
  rw [← same, kept.mapped s session present] at found
  obtain rfl : s = t := Option.some.inj found
  obtain ⟨session', before', owned'⟩ := base.locked p q s there (owes_holds q s session.record owes)
  obtain ⟨session'', before'', owned''⟩ := base.locked o op s here mine
  obtain rfl : session' = session'' := Option.some.inj (before'.symm.trans before'')
  rw [owned'] at owned''
  exact other (Option.some.inj owned'')

theorem outcomes_advance :
    Outcomes { state with store := state.store.apply o act, ops := state.ops.set o op', log := state.log ++ log } where
  exclusive := by
    intro s session' there
    rcases apply_heap_origin state.store o act s session' there with ⟨session, before, rfl⟩ |
      ⟨record, rfl, rfl, rfl⟩
    · rcases outcome_on sha256 state base o fault op op' act log here moved safe s session before with
        same | ⟨_, exclusive, _⟩
      · exact same_outcome_exclusive _ _ same (inv.exclusive s session before)
      · exact exclusive
    · cases op_effect sha256 state.store fault op op' _ log moved with
      | quiet _ _ _ silent => cases silent
      | insert request => simp [Record.Exclusive, Session.new, RegisterRequest.record]
  agree := by
    intro s session' there
    rcases apply_heap_origin state.store o act s session' there with ⟨session, before, rfl⟩ |
      ⟨record, rfl, rfl, rfl⟩
    · rw [on_id]
      exact outcome_agree sha256 state base kept inv o fault op op' act log here moved safe s session before
    · cases op_effect sha256 state.store fault op op' _ log moved with
      | quiet _ _ _ silent => cases silent
      | insert request => exact ⟨request.record, kept.inserting o request here, same_outcome_refl _⟩
  journals := outcome_journals sha256 state base inv o fault op op' act log here moved safe
  counted := by
    intro id counted
    rcases history_step sha256 state base o fault op op' act log here moved with same |
      ⟨s, session, there, owes, rfl, _, ended, more⟩
    · obtain ⟨mapped, rest⟩ :=
        outcome_counted sha256 state base kept inv o fault op op' act log here moved safe id
          (same id ▸ counted)
      exact ⟨fun _ => mapped, rest⟩
    · by_cases mine : session.id = id
      · subst mine
        obtain ⟨journal, written, agree⟩ := inv.agree s session there
        exact ⟨fun _ => ⟨s, kept.mapped s session there⟩, journal, written,
          (same_outcome_terminal _ _ agree).trans ended⟩
      · have before : historyRecords id state.log ≠ 0 := by
          have := more id
          rw [if_neg mine] at this
          exact fun zero => counted (by simpa [zero] using this)
        obtain ⟨mapped, rest⟩ :=
          outcome_counted sha256 state base kept inv o fault op op' .tau log here moved safe id before
        exact ⟨fun _ => mapped, rest⟩
  once := by
    intro id
    rcases history_step sha256 state base o fault op op' act log here moved with same |
      ⟨s, session, there, owes, rfl, _, ended, more⟩
    · exact (same id).trans_le (inv.once id)
    · have bound := inv.once id
      have now := more id
      by_cases mine : session.id = id
      · have zero := inv.due o op s session here there owes
        rw [mine] at zero
        show historyRecords id (state.log ++ log) ≤ 1
        rw [now, if_pos mine]
        omega
      · show historyRecords id (state.log ++ log) ≤ 1
        rw [now, if_neg mine]
        omega
  due := by
    intro p q s session' queued there owes
    have origin : ∃ session, state.store.heap[s]? = some session ∧ session' = act.on o s session := by
      rcases apply_heap_origin state.store o act s session' there with old | ⟨record, rfl, rfl, rfl⟩
      · exact old
      · have held := owes_holds q _ _ owes
        obtain ⟨request, rfl, rfl, rfl⟩ : ∃ request, op = .register request .insert ∧
          op' = .register request .respond ∧
            record = request.record := by
          cases op_effect sha256 state.store fault op op' _ log moved with
          | quiet _ _ _ silent => cases silent
          | insert request => exact ⟨request, rfl, rfl, rfl⟩
        rcases Transition.set_cases state.ops o p _ q queued with ⟨rfl, rfl⟩ | ⟨_, before⟩
        · cases held
        · obtain ⟨session, old, _⟩ := base.locked p q _ before held
          have within := (List.getElem?_eq_some_iff.mp old).1
          omega
    obtain ⟨session, before, rfl⟩ := origin
    rw [on_id]
    rcases Transition.set_cases state.ops o p op' q queued with ⟨rfl, rfl⟩ | ⟨other, waiting⟩
    · have zero : historyRecords session.id state.log = 0 := by
        rcases owes_begins sha256 state base p fault op q act log here moved s session before owes with
          already | ⟨record, writes, changed⟩
        · exact inv.due p op s session here before already
        · rcases outcome_change sha256 state base p fault op q act log here moved safe s session record
            before writes with same | ⟨open_, _⟩
          · exact absurd same changed
          · exact open_uncounted state inv s session before open_
      rcases history_step sha256 state base p fault op q act log here moved with same |
        ⟨_, _, _, _, _, nothing, _⟩
      · exact (same session.id).trans zero
      · rw [nothing] at owes
        cases owes
    · have framed :=
        (others_framed sha256 state base o fault op op' act log here moved p q other waiting).record s _
        (owes_holds q s _ owes) (apply_heap state.store o act s session before)
      obtain ⟨session', before', unchanged⟩ := framed
      obtain rfl : session = session' := Option.some.inj (before.symm.trans before')
      rw [unchanged] at owes
      have zero := inv.due p q s session waiting before owes
      rcases history_step sha256 state base o fault op op' act log here moved with same |
        ⟨t, locked, held, mine, _, _, _, more⟩
      · exact (same session.id).trans zero
      · have different := owes_unique state base kept o op here p q other waiting s t session locked
          before owes (owes_holds op t locked.record mine) held
        show historyRecords session.id (state.log ++ log) = 0
        rw [more, if_neg fun same => different same.symm, zero]

end Advance

theorem journal_mapped (state : State) (base : Base state) (store : Store)
    (spec : Loaded state.store.disk store) (id : String) (journal : Record)
    (written : state.store.disk.doc (journalPath id) = some journal) :
    ∃ s, store.sessions.lookup id = some s ∧ store.heap[s]? = some (Session.new journal) := by
  obtain ⟨sound, path⟩ := base.journals _ journal written
  refine spec.covered id journal ?_ written
  rintro rfl
  have named : "" = journal.manifest.request.transferId := (journal_path_inj _ _ path).trans sound.identity
  have length := valid_id_length journal.manifest sound.valid
  rw [← named] at length
  simp at length

theorem outcomes_step (sha256 : Bytes → String) (state next : State) (label : Label) (base : Base state)
    (kept : Kept state) (inv : Outcomes state) (safe : outcomeSafe state label = true)
    (stepped : step sha256 state label = some next) :
    Outcomes next := by
  rcases step_cases sha256 state next label stepped with ⟨call, rfl, _, rfl⟩ |
    ⟨o, fault, op, act, log, op', rfl, here, moved, rfl⟩ |
    ⟨rfl, _, rfl⟩ | ⟨store, rfl, stopped, loaded, rfl⟩
  · refine ⟨inv.exclusive, inv.agree, inv.journals, inv.counted, inv.once, ?_⟩
    intro o op s session there present owes
    rcases Transition.append_cases state.ops o call.op op there with before | rfl
    · exact inv.due o op s session before present owes
    · have held := owes_holds call.op s _ owes
      rw [(call_idle call).2.1] at held
      cases held
  · exact outcomes_advance sha256 state base kept inv o fault op op' act log here moved safe
  · exact ⟨by simp [Store.empty], by simp [Store.empty], inv.journals,
      fun id counted => ⟨fun running => (by cases running), (inv.counted id counted).2⟩,
      inv.once, by simp⟩
  · have spec := load_loaded state.store.disk store loaded
    have made : ∀ (s : Nat) (session : Session), store.heap[s]? = some session →
        state.store.disk.doc (journalPath session.id) = some session.record :=
      fun s session here => (loaded_session state.store.disk store spec s session here).2.2
    refine ⟨fun s session here => inv.journals _ _ (made s session here), ?_, ?_, ?_, inv.once, ?_⟩
    · intro s session here
      exact ⟨session.record, spec.same ▸ made s session here, same_outcome_refl _⟩
    · intro path journal written
      exact inv.journals path journal (spec.same ▸ written)
    · intro id counted
      obtain ⟨_, journal, written, ended⟩ := inv.counted id counted
      obtain ⟨s, present, _⟩ := journal_mapped state base store spec id journal written
      exact ⟨fun _ => ⟨s, present⟩, journal, spec.same ▸ written, ended⟩
    · intro o op s session there
      rw [(base.stopped stopped).1] at there
      cases there

-- What a later state keeps of an earlier one.
def OutcomeKept (before after : State) : Prop :=
  ∀ id record, before.record id = some record → record.terminal = true →
    ∃ record', after.record id = some record' ∧ record.SameOutcome record'

theorem outcome_kept_step (sha256 : Bytes → String) (state next : State) (label : Label) (base : Base state)
    (kept : Kept state) (inv : Outcomes state) (safe : outcomeSafe state label = true)
    (stepped : step sha256 state label = some next) :
    OutcomeKept state next := by
  intro id record held ended
  rcases step_cases sha256 state next label stepped with ⟨call, rfl, _, rfl⟩ |
    ⟨o, fault, op, act, log, op', rfl, here, moved, rfl⟩ |
    ⟨rfl, running, rfl⟩ | ⟨store, rfl, stopped, loaded, rfl⟩
  · exact ⟨record, held, same_outcome_refl _⟩
  · have running := base_running state base o op here
    simp only [State.record, running, if_true] at held ⊢
    obtain ⟨s, present, found⟩ := Option.bind_eq_some_iff.mp held
    obtain ⟨session, there, rfl⟩ := Option.map_eq_some_iff.mp found
    obtain ⟨session', there', rfl⟩ := base.mapped id s present
    obtain rfl : session = session' := Option.some.inj (there.symm.trans there')
    have mapped := (kept_advance sha256 state base kept o fault op op' act log here moved).mapped s _
      (apply_heap state.store o act s session there)
    have still : (state.store.apply o act).sessions.lookup session.id = some s :=
      (congrArg ((state.store.apply o act).sessions.lookup ·) (on_id act o s session)).symm.trans mapped
    refine ⟨(act.on o s session).record, by simp [still, apply_heap state.store o act s session there], ?_⟩
    rcases outcome_on sha256 state base o fault op op' act log here moved safe s session there with same |
      ⟨open_, _⟩
    · exact same
    · rw [open_] at ended
      cases ended
  · simp only [State.record, running, if_true] at held
    obtain ⟨s, present, found⟩ := Option.bind_eq_some_iff.mp held
    obtain ⟨session, there, rfl⟩ := Option.map_eq_some_iff.mp found
    obtain ⟨session', there', rfl⟩ := base.mapped id s present
    obtain rfl : session = session' := Option.some.inj (there.symm.trans there')
    obtain ⟨journal, written, same⟩ := inv.agree s session there
    obtain ⟨rejected, cancelled, complete⟩ := same
    exact ⟨journal, written, rejected.symm, cancelled.symm, complete.symm⟩
  · simp only [State.record, stopped] at held
    obtain ⟨s, present, there⟩ :=
      journal_mapped state base store (load_loaded state.store.disk store loaded) id record held
    exact ⟨record, by simp [State.record, present, there, Session.new], same_outcome_refl _⟩

-- The claim's runs have no forget; the condition is that of outcomeSafe.
def outcomeRun (state : State) (label : Label) : Bool := forgetFree label && outcomeSafe state label

structure OutcomeInvariant (state : State) : Prop where
  base : Base state
  kept : Kept state
  outcomes : Outcomes state

theorem outcome_invariant_step (sha256 : Bytes → String) (state next : State) (label : Label)
    (inv : OutcomeInvariant state) (allowed : outcomeRun state label = true)
    (stepped : step sha256 state label = some next) :
    OutcomeInvariant next ∧ OutcomeKept state next := by
  obtain ⟨base, kept, outcomes⟩ := inv
  obtain ⟨free, safe⟩ : forgetFree label = true ∧
    outcomeSafe state label = true := by simpa [outcomeRun] using allowed
  exact ⟨⟨base_step sha256 state next label base stepped, kept_step sha256 state next label base kept free
    stepped,
    outcomes_step sha256 state next label base kept outcomes safe stepped⟩,
    outcome_kept_step sha256 state next label base kept outcomes safe stepped⟩

theorem initial_outcomes (state : State) (initial : Initial state) : OutcomeInvariant state := by
  have empty : state.store.heap = [] := by
    rw [initial.fresh]
    rfl
  have silent : ∀ id, historyRecords id state.log = 0 := by
    intro id
    rw [initial.silent]
    rfl
  refine ⟨initial_base state initial, initial_kept state initial, ?_⟩
  refine ⟨by simp [empty], by simp [empty], ?_, fun id counted => absurd (silent id) counted,
    fun id => by rw [silent]; omega, by simp [empty]⟩
  intro path journal written
  rw [initial.noJournal path] at written
  cases written

theorem outcomes_run (sha256 : Bytes → String) (a b : State) (inv : OutcomeInvariant a)
    (run : Transition.Run (step sha256) (fun state label => outcomeRun state label = true) a b) :
    OutcomeInvariant b ∧ OutcomeKept a b := by
  refine Transition.run_relation (step sha256) _ OutcomeInvariant OutcomeKept ?_ ?_ ?_ a b run inv
  · intro state id record held _
    exact ⟨record, held, same_outcome_refl _⟩
  · intro x y z first second id record held ended
    obtain ⟨record', held', same⟩ := first id record held ended
    obtain ⟨record'', held'', same'⟩ := second id record' held' (same_outcome_terminal _ _ same ▸ ended)
    exact ⟨record'', held'', same_outcome_trans _ _ _ same same'⟩
  · intro state label next inv allowed stepped
    exact outcome_invariant_step sha256 state next label inv allowed stepped

theorem outcomes_exclusive_and_final (sha256 : Bytes → String) (start middle final : State)
    (initial : Initial start)
    (earlier : Transition.Run (step sha256) (fun state label => outcomeRun state label = true) start middle)
    (later : Transition.Run (step sha256) (fun state label => outcomeRun state label = true) middle final) :
    (∀ id record, middle.record id = some record → record.Exclusive ∧
      (record.terminal = true → ∃ record', final.record id = some record' ∧ record.SameOutcome record')) ∧
    ∀ id, historyRecords id final.log ≤ 1 := by
  have inv := (outcomes_run sha256 start middle (initial_outcomes start initial) earlier).1
  obtain ⟨invFinal, lasting⟩ := outcomes_run sha256 middle final inv later
  refine ⟨?_, invFinal.outcomes.once⟩
  intro id record held
  refine ⟨?_, lasting id record held⟩
  unfold State.record at held
  split at held
  · obtain ⟨s, _, found⟩ := Option.bind_eq_some_iff.mp held
    obtain ⟨session, there, rfl⟩ := Option.map_eq_some_iff.mp found
    exact inv.outcomes.exclusive s session there
  · exact inv.outcomes.journals _ record held

-- The untrusted session of one file is cancelled locally, and then more happens.
def cancelledRun (rest : List Label) : List Label :=
  .start :: .call (.register (smallRegister false)) :: advances 0 7 ++ .call (.cancel none smallId) ::
    advances 1 8 ++ rest

theorem cancelled_session_stays_cancelled : ∃ middle final record record',
    Transition.Run (step emptyHash) (fun state label => outcomeRun state label = true) emptyState middle ∧
    Transition.Run (step emptyHash) (fun state label => outcomeRun state label = true) middle final ∧
    middle.record smallId = some record ∧ record.cancelled = true ∧ final.record smallId = some record' ∧
    record.SameOutcome record' ∧ historyRecords smallId final.log ≤ 1 := by
  obtain ⟨middle, earlier, checked⟩ :=
    Transition.replay_reaches (step emptyHash) (fun state label => outcomeRun state label = true)
    (cancelledRun []) emptyState (fun middle => (middle.record smallId).any (·.cancelled) &&
      (Transition.replay (step emptyHash) (fun state label => outcomeRun state label = true) middle
        (.call (.cancel none smallId) :: advances 2 6 ++ [.crash, .start])).any fun _ => true)
        (by decide +kernel)
  simp only [Bool.and_eq_true] at checked
  obtain ⟨final, later, _⟩ :=
    Transition.replay_reaches (step emptyHash) (fun state label => outcomeRun state label = true) _ middle _
      checked.2
  obtain ⟨record, held, cancelled⟩ : ∃ record, middle.record smallId = some record ∧
    record.cancelled = true := by
    cases held : middle.record smallId with
    | none => simp [held] at checked
    | some record => exact ⟨record, rfl, by simpa [held] using checked.1⟩
  obtain ⟨all, once⟩ :=
    outcomes_exclusive_and_final emptyHash emptyState middle final empty_initial earlier later
  obtain ⟨record', held', same⟩ := (all smallId record held).2 (by simp [Record.terminal, cancelled])
  exact ⟨middle, final, record, record', earlier, later, held, cancelled, held', same, once smallId⟩

-- reject_transfer looks at the decision only: it rejects a cancelled session
-- and a second history record is written.
theorem cancelled_session_is_rejected : ∃ start final record, Initial start ∧
    Transition.Run (step emptyHash) (fun _ label => forgetFree label = true) start final ∧
    final.record smallId = some record ∧ ¬ record.Exclusive ∧ historyRecords smallId final.log = 2 := by
  obtain ⟨final, run, checked⟩ :=
    Transition.replay_reaches (step emptyHash) (fun _ label => forgetFree label = true)
    (cancelledRun (.call (.reject smallId) :: advances 2 5)) emptyState
    (fun final => (final.record smallId).any (fun record => record.decision = .rejected &&
      record.cancelled) && historyRecords smallId final.log == 2) (by decide +kernel)
  simp only [Bool.and_eq_true, beq_iff_eq] at checked
  obtain ⟨both, two⟩ := checked
  cases held : final.record smallId with
  | none => simp [held] at both
  | some record =>
      have outcomes : record.decision = .rejected ∧ record.cancelled = true := by simpa [held] using both
      exact ⟨emptyState, final, record, empty_initial, run, held, fun exclusive => exclusive.1 outcomes, two⟩

end GoshTransfer
