import GoshTransfer.Reports
import GoshTransfer.Abandoned

set_option autoImplicit false

namespace GoshTransfer

open InodeStore

def Entry.completes (s : Nat) : Entry → Bool
  | .event t (.transferComplete _) => t == s
  | _ => false

def Entry.completedRecord (s : Nat) : Entry → Bool
  | .history t record => t == s && record.status == .completed
  | _ => false

def completeEvents (s : Nat) (log : List Entry) : Nat := log.countP (Entry.completes s)

def completedRecords (s : Nat) (log : List Entry) : Nat := log.countP (Entry.completedRecord s)

def AnnouncedTimes (s : Nat) (log : List Entry) (n : Nat) : Prop := completeEvents s log = n ∧
    completedRecords s log = n

-- Between the receipt commit and the announcement.
def UploadPhase.announcing : UploadPhase → Option Nat
  | .finish s _ | .discard s _ | .announce s _ => some s
  | _ => none

def Op.announcing : Op → Option Nat
  | .upload _ phase => phase.announcing
  | _ => none

def State.completes (state : State) (o : Nat) : Bool :=
  match state.ops[o]? with
  | some (.upload _ (.commit s x target)) =>
      (state.store.heap[s]?).any fun session => (receiptRecord session.record x.file target).complete
  | _ => false

def crashFree : Label → Bool
  | .crash => false
  | _ => true

-- No persist fails that would record completion.
def completionSaved (state : State) : Label → Bool
  | .advance o (some (.persist _)) => !state.completes o
  | _ => true

-- The counts of every session object, and before the first start their absence.
structure Announced (state : State) : Prop where
  unborn : ∀ s, state.store.heap.length ≤ s → AnnouncedTimes s state.log 0
  open_ : ∀ (s : Nat) (session : Session), state.store.heap[s]? = some session →
    session.record.complete = false →
    AnnouncedTimes s state.log 0
  due : ∀ (o : Nat) (op : Op) (s : Nat), state.ops[o]? = some op → op.announcing = some s →
    AnnouncedTimes s state.log 0
  done : ∀ (s : Nat) (session : Session), state.store.heap[s]? = some session →
    session.record.complete = true →
    (∀ (o : Nat) (op : Op), state.ops[o]? = some op → op.announcing ≠ some s) → AnnouncedTimes s state.log 1
  stopped : state.running = false → state.log = [] ∧ ∀ path, state.store.disk.doc path = none

theorem announcing_holds (op : Op) (s : Nat) (announcing : op.announcing = some s) : op.holds = some s := by
  cases op with
  | upload request phase =>
      cases phase <;> simp_all [Op.announcing, UploadPhase.announcing, Op.holds, UploadPhase.holds]
  | _ => cases announcing

theorem silent_counts (s n : Nat) (log more : List Entry) (nothing : ∀ entry ∈ more, entry.reports = false) :
    AnnouncedTimes s (log ++ more) n ↔ AnnouncedTimes s log n := by
  have events : completeEvents s more = 0 := by
    refine List.countP_eq_zero.mpr fun entry member => ?_
    have := nothing entry member
    cases entry with
    | event t e => cases e <;> simp_all [Entry.reports, Entry.completes]
    | _ => simp [Entry.completes]
  have records : completedRecords s more = 0 := by
    refine List.countP_eq_zero.mpr fun entry member => ?_
    have := nothing entry member
    cases entry <;> simp_all [Entry.reports, Entry.completedRecord]
  unfold completeEvents at events
  unfold completedRecords at records
  simp [AnnouncedTimes, completeEvents, completedRecords, List.countP_append, events, records]

theorem failed_counts (s t n : Nat) (log : List Entry) (record : HistoryRecord)
    (status : record.status ≠ .completed) :
    AnnouncedTimes s (log ++ [.history t record]) n ↔ AnnouncedTimes s log n := by
  simp [AnnouncedTimes, completeEvents, completedRecords, List.countP_append, Entry.completes,
    Entry.completedRecord, status]

theorem cancelled_counts (s t n : Nat) (log : List Entry) (id text : String) (record : HistoryRecord)
    (status : record.status ≠ .completed) :
    AnnouncedTimes s (log ++ [.event t (.transferFailed id text), .history t record]) n ↔
      AnnouncedTimes s log n := by
  simp [AnnouncedTimes, completeEvents, completedRecords, List.countP_append, Entry.completes,
    Entry.completedRecord, status]

theorem completion_counts_other (s t n : Nat) (log : List Entry) (request : UploadRequest) (record : Record)
    (x : Incoming) (other : s ≠ t) : AnnouncedTimes s (log ++ completionLog t request record x) n ↔
      AnnouncedTimes s log n := by
  have different : ¬ t = s := fun same => other same.symm
  by_cases complete : record.complete <;>
    simp [AnnouncedTimes, completeEvents, completedRecords, List.countP_append, completionLog, complete,
      progressEvent, Entry.completes, Entry.completedRecord, different]

theorem completion_counts (s n : Nat) (log : List Entry) (request : UploadRequest) (record : Record)
    (x : Incoming) (before : AnnouncedTimes s log n) :
    AnnouncedTimes s (log ++ completionLog s request record x) (if record.complete then n + 1 else n) := by
  obtain ⟨events, records⟩ := before
  unfold completeEvents at events
  unfold completedRecords at records
  by_cases complete : record.complete <;>
    simp [AnnouncedTimes, completeEvents, completedRecords, List.countP_append, completionLog, complete,
      progressEvent, Entry.completes, Entry.completedRecord, events, records]

theorem fallible_quiet (phase : UploadPhase) (fallible : phase.fallible = true) :
    phase.announcing = none := by
  cases phase <;> simp_all [UploadPhase.fallible, UploadPhase.announcing]

theorem announcing_continues (sha256 : Bytes → String) (store : Store) (fault : Option Fault) (op op' : Op)
    (act : Act) (log : List Entry) (s : Nat) (moved : OpMove sha256 store fault op act log op')
    (announcing : op.announcing = some s) :
    op'.announcing = some s ∨ ∃ request x, op = .upload request (.announce s x) := by
  cases moved with
  | upload request phase next _ _ moved =>
      cases moved with
      | finished t x => exact .inl announcing
      | discarded t session x here => exact .inl announcing
      | announced t session x here =>
          obtain rfl : t = s := by simpa [Op.announcing, UploadPhase.announcing] using announcing
          exact .inr ⟨request, x, rfl⟩
      | refuse t phase reply held fallible code =>
          have : phase.announcing = some s := announcing
          rw [fallible_quiet phase fallible] at this
          cases this
      | _ => cases announcing
  | _ => cases announcing

theorem announcing_begins (sha256 : Bytes → String) (store : Store) (fault : Option Fault) (op op' : Op)
    (act : Act) (log : List Entry) (s : Nat) (moved : OpMove sha256 store fault op act log op')
    (announcing : op'.announcing = some s) :
    op.announcing = some s ∨ ∃ request x target, op = .upload request (.commit s x target) := by
  cases moved with
  | upload request phase next _ _ moved =>
      cases moved with
      | finished t x => exact .inl announcing
      | discarded t session x here => exact .inl announcing
      | committed t session x target here ok =>
          obtain rfl : t = s := by simpa [Op.announcing, UploadPhase.announcing] using announcing
          exact .inr ⟨request, x, target, rfl⟩
      | _ => cases announcing
  | _ => cases announcing

theorem completing_commit (sha256 : Bytes → String) (store : Store) (fault : Option Fault) (op op' : Op)
    (act : Act) (log : List Entry) (s : Nat) (session : Session) (record : Record)
    (moved : OpMove sha256 store fault op act log op') (here : store.heap[s]? = some session)
    (writes : act.writes = some (s, record)) (before : session.record.complete = false)
    (after : record.complete = true) :
    ∃ request x target, op = .upload request (.commit s x target) ∧
      record = receiptRecord session.record x.file target ∧
      ((fault = none ∧ op' = .upload request (.finish s x)) ∨ ∃ saved, fault = some (.persist saved)) := by
  obtain ⟨session', there, write⟩ := moved_write sha256 store fault op op' act log s record moved writes
  obtain rfl := Option.some.inj (here.symm.trans there)
  have unchanged : record.complete = session.record.complete → False := by
    intro same
    rw [same, before] at after
    cases after
  cases write with
  | receipt request x target saved struck =>
      refine ⟨request, x, target, rfl, rfl, ?_⟩
      rcases struck with ⟨rfl, rfl⟩ | struck
      · generalize Act.persist s (receiptRecord session.record x.file target) true = act at moved
        cases moved with
        | upload _ _ _ _ _ moved =>
            cases moved with
            | refuse _ _ _ _ fallible _ => cases fallible
            | committed _ _ _ _ _ _ => exact .inl ⟨rfl, rfl⟩
            | uncommitted _ _ _ _ _ _ failed => cases failed
      · exact .inr ⟨saved, struck⟩
  | _ => exact (unchanged rfl).elim

theorem counts_kept (sha256 : Bytes → String) (store : Store) (fault : Option Fault) (op op' : Op)
    (act : Act) (before log : List Entry) (s n : Nat) (moved : OpMove sha256 store fault op act log op')
    (quiet : ∀ request x, op ≠ .upload request (.announce s x)) :
    AnnouncedTimes s (before ++ log) n ↔ AnnouncedTimes s before n := by
  cases op_report sha256 store fault op op' act log moved with
  | silent _ _ _ _ nothing => exact silent_counts s n before log nothing
  | completed request t session x there =>
      refine completion_counts_other s t n before request session.record x ?_
      rintro rfl
      exact quiet request x rfl
  | cancelled caller id t session bytes there => exact cancelled_counts s t n before id _ _ (by simp)
  | rejected id t session there => exact failed_counts s t n before _ (by simp)

theorem announcing_unique (state : State) (base : Base state) (o p : Nat) (op q : Op) (s : Nat)
    (here : state.ops[o]? = some op) (there : state.ops[p]? = some q) (mine : op.holds = some s)
    (announcing : q.announcing = some s) : p = o := by
  obtain ⟨session, before, owned⟩ := base.locked o op s here mine
  obtain ⟨session', before', owned'⟩ := base.locked p q s there (announcing_holds q s announcing)
  obtain rfl : session = session' := Option.some.inj (before.symm.trans before')
  rw [owned] at owned'
  exact (Option.some.inj owned').symm

theorem announce_open (sha256 : Bytes → String) (state : State) (inv : Announced state)
    (fault : Option Fault) (op op' : Op) (act : Act) (log : List Entry)
    (moved : OpMove sha256 state.store fault op act log op') (s : Nat) (session : Session)
    (there : state.store.heap[s]? = some session) (before : session.record.complete = false) :
      AnnouncedTimes s (state.log ++ log) 0 := by
  have zero := inv.open_ s session there before
  by_cases reporting : ∃ request x, op = .upload request (.announce s x)
  · obtain ⟨request, x, rfl⟩ := reporting
    cases moved with
    | upload _ _ next _ _ moved =>
        cases moved with
        | announced _ session' _ there' =>
            obtain rfl : session = session' := Option.some.inj (there.symm.trans there')
            simpa [before] using completion_counts s 0 state.log request session.record x zero
        | refuse _ _ _ _ fallible _ => cases fallible
  · exact (counts_kept sha256 state.store fault op op' act state.log log s 0 moved
      (fun request x same => reporting ⟨request, x, same⟩)).mpr zero

section Announce

variable (sha256 : Bytes → String) (state : State) (base : Base state) (inv : Announced state) (o : Nat)
    (fault : Option Fault)
variable (op op' : Op) (act : Act) (log : List Entry) (here : state.ops[o]? = some op)
variable (moved : OpMove sha256 state.store fault op act log op')
include base inv here moved

theorem announced_advance (saved : completionSaved state (.advance o fault) = true) :
    Announced { state with store := state.store.apply o act, ops := state.ops.set o op', log := state.log ++ log } where
  unborn := by
    intro s bound
    have length : state.store.heap.length ≤ (state.store.apply o act).heap.length := by
      by_cases inserted : ∃ record, act = .insert record
      · obtain ⟨record, rfl⟩ := inserted
        simp [Store.apply]
      · rw [apply_length state.store o act fun record same => inserted ⟨record, same⟩]
    refine (counts_kept sha256 state.store fault op op' act state.log log s 0 moved ?_).mpr
      (inv.unborn s (length.trans bound))
    rintro request x rfl
    obtain ⟨session, there, _⟩ := base.locked o _ s here rfl
    have within := (List.getElem?_eq_some_iff.mp there).1
    have := length.trans bound
    omega
  open_ := by
    intro s session' there after
    rcases apply_heap_origin state.store o act s session' there with ⟨session, before, rfl⟩ |
      ⟨record, rfl, rfl, rfl⟩
    · have forward := (moved_session sha256 state base o fault op op' act log here moved s session before).2
      have still : session.record.complete = false := by
        by_contra complete
        rw [forward.complete (by simpa using complete)] at after
        cases after
      exact announce_open sha256 state inv fault op op' act log moved s session before still
    · refine (counts_kept sha256 state.store fault op op' _ state.log log _ 0 moved ?_).mpr
        (inv.unborn _ le_rfl)
      rintro request x rfl
      obtain ⟨session, there, _⟩ := base.locked o _ _ here rfl
      have within := (List.getElem?_eq_some_iff.mp there).1
      omega
  due := by
    intro p q s there announcing
    rcases Transition.set_cases state.ops o p op' q there with ⟨rfl, rfl⟩ | ⟨other, before⟩
    · rcases announcing_begins sha256 state.store fault op q act log s moved announcing with already |
        ⟨request, x, target, rfl⟩
      · refine (counts_kept sha256 state.store fault op q act state.log log s 0 moved ?_).mpr
          (inv.due p op s here already)
        rintro request x rfl
        cases moved with
        | upload _ _ next _ _ moved =>
            cases moved with
            | announced _ _ _ _ => cases announcing
            | refuse _ _ _ _ _ _ => cases announcing
      · obtain ⟨session, before, _⟩ := base.locked p _ s here rfl
        have facts := base.facts p _ here s session rfl before
        exact announce_open sha256 state inv fault _ q act log moved s session before
          (working_open session.record x.file (base.sound s session before).record facts.1)
    · refine (counts_kept sha256 state.store fault op op' act state.log log s 0 moved ?_).mpr
        (inv.due p q s before announcing)
      rintro request x rfl
      exact other (announcing_unique state base o p _ q s here before rfl announcing)
  done := by
    intro s session' there complete nobody
    rcases apply_heap_origin state.store o act s session' there with ⟨session, before, rfl⟩ |
      ⟨record, rfl, rfl, rfl⟩
    · by_cases already : session.record.complete = true
      · -- The session was complete: it has been announced, or this step announces it.
        by_cases reporting : ∃ request x, op = .upload request (.announce s x)
        · obtain ⟨request, x, rfl⟩ := reporting
          have zero := inv.due o _ s here rfl
          cases moved with
          | upload _ _ next _ _ moved =>
              cases moved with
              | announced _ session' _ there' =>
                  obtain rfl : session = session' := Option.some.inj (before.symm.trans there')
                  simpa [already] using completion_counts s 0 state.log request session.record x zero
              | refuse _ _ _ _ fallible _ => cases fallible
        · refine (counts_kept sha256 state.store fault op op' act state.log log s 1 moved
            (fun request x same => reporting ⟨request, x, same⟩)).mpr (inv.done s session before already ?_)
          intro p q queued announcing
          by_cases same : p = o
          · subst same
            obtain rfl : op = q := Option.some.inj (here.symm.trans queued)
            rcases announcing_continues sha256 state.store fault op op' act log s moved announcing with
              still | ended
            · exact nobody p op' (by simp [(List.getElem?_eq_some_iff.mp here).1]) still
            · exact reporting ended
          · have other : o ≠ p := fun equal => same equal.symm
            exact nobody p q (by simpa [List.getElem?_set, other] using queued) announcing
      · -- It completes now: the commit is saved, and the operation goes on to announce.
        have open_ : session.record.complete = false := by simpa using already
        rcases on_record_writes act o s session with ⟨record, writes, on⟩ | ⟨_, kept⟩
        · rw [on] at complete
          obtain ⟨request, x, target, rfl, rfl, ⟨rfl, rfl⟩ | ⟨written, rfl⟩⟩ :=
            completing_commit sha256 state.store fault op op' act log s session record moved before writes
              open_ complete
          · exact absurd rfl (nobody o (.upload request (.finish s x))
              (by simp [(List.getElem?_eq_some_iff.mp here).1]))
          · have completes : state.completes o = true := by
              simp only [State.completes, here, before, Option.any_some]
              exact complete
            simp [completionSaved, completes] at saved
        · rw [kept, open_] at complete
          cases complete
    · obtain ⟨sound, _⟩ := insert_fresh sha256 state base o fault op op' _ log here moved record rfl
      cases op_effect sha256 state.store fault op op' _ log moved with
      | quiet _ _ _ silent => cases silent
      | insert request => cases complete
  stopped := by
    intro stopped
    exact Bool.noConfusion ((base_running state base o op here).symm.trans stopped)

end Announce

theorem announced_step (sha256 : Bytes → String) (state next : State) (label : Label) (base : Base state)
    (inv : Announced state) (noCrash : crashFree label = true) (saved : completionSaved state label = true)
    (stepped : step sha256 state label = some next) : Announced next := by
  rcases step_cases sha256 state next label stepped with ⟨call, _, running, rfl⟩ |
    ⟨o, fault, op, act, log, op', rfl, here, moved, rfl⟩ |
    ⟨rfl, _, rfl⟩ | ⟨store, _, stopped, loaded, rfl⟩
  · have quiet : call.op.announcing = none := by cases call <;> rfl
    refine ⟨inv.unborn, inv.open_, ?_, ?_, fun stopped => absurd stopped (by simp [running])⟩
    · intro o op s there announcing
      rcases Transition.append_cases state.ops o call.op op there with before | rfl
      · exact inv.due o op s before announcing
      · rw [quiet] at announcing
        cases announcing
    · intro s session there complete nobody
      refine inv.done s session there complete fun o op before => nobody o op ?_
      rw [List.getElem?_append_left (List.getElem?_eq_some_iff.mp before).1]
      exact before
  · exact announced_advance sha256 state base inv o fault op op' act log here moved saved
  · cases noCrash
  · -- The first start finds no journal, so that no session is loaded.
    have spec := load_loaded state.store.disk store loaded
    have nothing : ∀ s : Nat, store.heap[s]? = none := by
      intro s
      by_contra present
      obtain ⟨session, here⟩ := Option.ne_none_iff_exists'.mp present
      have journal := (loaded_session state.store.disk store spec s session here).2.2
      rw [(inv.stopped stopped).2] at journal
      cases journal
    have silent : ∀ s, AnnouncedTimes s state.log 0 := by
      intro s
      rw [(inv.stopped stopped).1]
      exact ⟨rfl, rfl⟩
    refine ⟨fun s _ => silent s, fun s _ _ _ => silent s, ?_, ?_, fun running => by cases running⟩
    · intro o op s there
      rw [(base.stopped stopped).1] at there
      cases there
    · intro s session there
      rw [nothing s] at there
      cases there

-- What a status request is about to answer, while it still holds the record.
def Reported (state : State) : Prop :=
  ∀ (o : Nat) (peer : Peer) (id : String) (s code : Nat) (status : ResumeStatus) (session : Session),
    state.ops[o]? = some (.status peer id (.leave s ⟨code, .status status⟩)) →
      state.store.heap[s]? = some session →
    status.complete = session.record.complete

theorem reported_step (sha256 : Bytes → String) (state next : State) (label : Label) (base : Base state)
    (inv : Reported state) (noCrash : crashFree label = true)
    (stepped : step sha256 state label = some next) : Reported next := by
  rcases step_cases sha256 state next label stepped with ⟨call, _, _, rfl⟩ |
    ⟨o, fault, op, act, log, op', rfl, here, moved, rfl⟩ |
    ⟨rfl, _, rfl⟩ | ⟨store, _, stopped, _, rfl⟩
  · intro o peer id s code status session there
    rcases Transition.append_cases state.ops o call.op _ there with before | fresh
    · exact inv o peer id s code status session before
    · cases call <;> cases fresh
  · intro p peer id s code status session' there after
    rcases Transition.set_cases state.ops o p op' _ there with ⟨rfl, rfl⟩ | ⟨other, before⟩
    · cases moved with
      | status _ _ phase _ _ _ moved =>
          generalize answer : (⟨code, .status status⟩ : Response) = reply at moved
          cases moved with
          | foreign => cases answer
          | answered _ session held owned =>
              obtain rfl : session = session' := Option.some.inj (held.symm.trans after)
              exact (snapshot_fields _ _ _ _ _ (snapshot_response_status _ _ _ _ _ _ answer.symm).2).2.2.1
    · obtain ⟨session, held, same⟩ :=
        (others_framed sha256 state base o fault op op' act log here moved p _ other before).record s
          session' rfl after
      rw [same]
      exact inv p peer id s code status session before held
  · cases noCrash
  · intro o peer id s code status session there
    rw [(base.stopped stopped).1] at there
    cases there

-- An upload is dropped on the way to announcing that its session is complete.
def State.announcesCompletion (state : State) (o : Nat) : Bool :=
  (state.ops[o]?).any fun op => op.announcing.any fun s => (state.store.heap[s]?).any (·.record.complete)

section Dropped

variable (state next : State) (o : Nat) (dropped : state.letGo o = some next)
include dropped

theorem announced_let_go (base : Base state) (inv : Announced state)
    (kept : state.announcesCompletion o = false) : Announced next := by
  obtain ⟨op, gone, here, left, rfl⟩ := let_go_cases state next o dropped
  have quiet : gone.announcing = none := by
    unfold Op.abandoned at left
    split at left <;> cases left <;> rfl
  have bound := (List.getElem?_eq_some_iff.mp here).1
  refine ⟨?_, ?_, ?_, ?_, fun stopped => Bool.noConfusion
    ((base_running state base o op here).symm.trans stopped)⟩
  · intro s unborn
    refine inv.unborn s (List.getElem?_eq_none_iff.mp ?_)
    have absent := List.getElem?_eq_none_iff.mpr unborn
    rw [let_go_place state.store op s] at absent
    simpa using absent
  · intro s session' there open_
    rw [let_go_place state.store op s] at there
    obtain ⟨session, before, rfl⟩ := Option.map_eq_some_iff.mp there
    exact inv.open_ s session before open_
  · intro p q s there announcing
    rcases Transition.set_cases state.ops o p gone q there with ⟨rfl, rfl⟩ | ⟨_, before⟩
    · rw [quiet] at announcing
      cases announcing
    · exact inv.due p q s before announcing
  · intro s session' there complete nobody
    rw [let_go_place state.store op s] at there
    obtain ⟨session, before, rfl⟩ := Option.map_eq_some_iff.mp there
    refine inv.done s session before complete fun p q queued announcing => ?_
    by_cases same : p = o
    · subst same
      obtain rfl : op = q := Option.some.inj (here.symm.trans queued)
      have due : state.announcesCompletion p = true := by
        simp only [State.announcesCompletion, here, Option.any_some, announcing, before]
        exact complete
      rw [kept] at due
      cases due
    · have other : o ≠ p := fun equal => same equal.symm
      exact nobody p q (by simpa [List.getElem?_set, other] using queued) announcing

theorem reported_let_go (inv : Reported state) : Reported next := by
  obtain ⟨op, gone, here, left, rfl⟩ := let_go_cases state next o dropped
  intro p peer id s code status session' there after
  rw [let_go_place state.store op s] at after
  obtain ⟨session, before, rfl⟩ := Option.map_eq_some_iff.mp after
  rcases Transition.set_cases state.ops o p gone _ there with ⟨rfl, same⟩ | ⟨_, queued⟩
  · unfold Op.abandoned at left
    split at left <;> cases left <;> cases same
  · exact inv p peer id s code status session queued before

end Dropped

theorem struck_quiet (sha256 : Bytes → String) (state busy : State) (o : Nat)
    (struck : step sha256 state (.advance o (some (.persist false))) = some busy) :
    busy.announcesCompletion o = false := by
  obtain ⟨op, act, log, op', here, moved, rfl⟩ := step_advance sha256 state busy o _ struck
  have bound := (List.getElem?_eq_some_iff.mp here).1
  have quiet : op'.announcing = none := by
    by_contra announcing
    obtain ⟨s, announcing⟩ := Option.ne_none_iff_exists'.mp announcing
    have move := op_next_move sha256 _ _ op op' act log moved
    rcases announcing_begins sha256 state.store _ op op' act log s move announcing with already |
      ⟨request, x, target, rfl⟩
    · cases op with
      | upload request phase =>
          cases phase with
          | finish t x => simp [Op.next, UploadPhase.next, plain] at moved
          | discard t x =>
              cases at_ : state.store.heap[t]? <;> simp [Op.next, UploadPhase.next, withSession, removeStep,
                at_] at moved
          | announce t x =>
              cases at_ : state.store.heap[t]? <;> simp [Op.next, UploadPhase.next, withSession, plain,
                at_] at moved
          | _ => cases already
      | _ => cases already
    · cases move with
      | upload _ _ next _ _ move =>
          cases move with
          | committed t session x target at_ ok => cases ok
          | refuse _ _ _ _ fallible _ => cases fallible
          | uncommitted => cases announcing
  simp [State.announcesCompletion, bound, quiet]

-- The runs in which completion is announced exactly once: no crash, no persist
-- fails that would record completion, and nobody hangs up between the start of
-- that persist and the announcement.
def announcedRun (host : Host) : HostLabel → Bool
  | .label label => crashFree label && completionSaved host.state label
  | .abandon o begun => !(begun && host.state.completes o) && !host.state.announcesCompletion o
  | .settle _ => true

theorem announced_host_step (sha256 : Bytes → String) (host next : Host) (label : HostLabel)
    (base : HostBase host) (inv : Announced host.state ∧ Reported host.state)
    (allowed : announcedRun host label = true) (stepped : hostStep sha256 host label = some next) :
    Announced next.state ∧ Reported next.state := by
  rcases host_step_cases sha256 host next label base stepped with ⟨moved, rfl, stepped, _⟩ |
    ⟨o, rfl, dropped, _⟩ |
    ⟨o, busy, later, rfl, _, from_, dropped, _⟩ | ⟨i, act, rfl, at_, rfl⟩
  · obtain ⟨noCrash, saved⟩ : crashFree moved = true ∧
      completionSaved host.state moved = true := by simpa [announcedRun] using allowed
    exact ⟨announced_step sha256 host.state next.state moved base.base inv.1 noCrash saved stepped,
      reported_step sha256 host.state next.state moved base.base inv.2 noCrash stepped⟩
  · have kept : host.state.announcesCompletion o = false := by simpa [announcedRun] using allowed
    exact ⟨announced_let_go host.state next.state o dropped base.base inv.1 kept,
      reported_let_go host.state next.state o dropped inv.2⟩
  · obtain ⟨saved, kept⟩ : host.state.completes o = false ∧ host.state.announcesCompletion o = false := by
      simpa [announcedRun] using allowed
    rcases from_ with rfl | struck
    · exact ⟨announced_let_go _ next.state o dropped base.base inv.1 kept,
        reported_let_go _ next.state o dropped inv.2⟩
    · -- The record is assigned and nothing is due to be announced.
      have busyInv :=
        announced_step sha256 host.state busy _ base.base inv.1 rfl (by simp [completionSaved, saved]) struck
      have busyReported := reported_step sha256 host.state busy _ base.base inv.2 rfl struck
      refine ⟨announced_let_go busy next.state o dropped
        (base_step sha256 host.state busy _ base.base struck) busyInv ?_,
        reported_let_go busy next.state o dropped busyReported⟩
      exact struck_quiet sha256 host.state busy o struck
  · obtain ⟨heap, _, _⟩ := settle_memory host.state.store act
    refine ⟨⟨?_, ?_, inv.1.due, ?_, fun stopped => ?_⟩, fun o peer id s code status session there at' => ?_⟩
    · exact fun s unborn => inv.1.unborn s (heap ▸ unborn)
    · exact fun s session there => inv.1.open_ s session (heap ▸ there)
    · exact fun s session there => inv.1.done s session (heap ▸ there)
    · rw [base.stopped stopped] at at_
      cases at_
    · exact inv.2 o peer id s code status session there (heap ▸ at')

theorem completion_announced_once (sha256 : Bytes → String) (start : State) (final : Host)
    (initial : Initial start)
    (run : Transition.Run (hostStep sha256) (fun host label => announcedRun host label = true)
      ⟨start, []⟩ final) :
    (∀ (o : Nat) (peer : Peer) (id : String) (s code : Nat) (status : ResumeStatus),
      final.state.ops[o]? = some (.status peer id (.leave s ⟨code, .status status⟩)) →
      AnnouncedTimes s final.state.log (if status.complete then 1 else 0)) ∧
    (∀ (s : Nat) (session : Session), final.state.store.heap[s]? = some session →
      session.record.complete = false → AnnouncedTimes s final.state.log 0) := by
  have inv : HostBase final ∧ Announced final.state ∧ Reported final.state := by
    refine Transition.run_invariant (hostStep sha256) _ (fun host => HostBase host ∧ Announced host.state ∧
      Reported host.state) ?_ _ final
      run ⟨initial_host start initial, ?_, ?_⟩
    · rintro host label next ⟨base, inv⟩ allowed stepped
      exact ⟨host_base_step sha256 host next label base stepped, announced_host_step sha256 host next label
        base inv allowed stepped⟩
    · refine ⟨?_, ?_, by simp [initial.idle], ?_, fun _ => ⟨initial.silent, initial.noJournal⟩⟩
      · intro s _
        rw [initial.silent]
        exact ⟨rfl, rfl⟩
      · rw [initial.fresh]
        simp [Store.empty]
      · rw [initial.fresh]
        simp [Store.empty]
    · intro o peer id s code status session there
      rw [initial.idle] at there
      cases there
  obtain ⟨⟨base, _, _⟩, announced, reported⟩ := inv
  refine ⟨?_, announced.open_⟩
  intro o peer id s code status there
  obtain ⟨session, held, _⟩ := base.locked o _ s there rfl
  have same := reported o peer id s code status session there held
  cases complete : session.record.complete with
  | false =>
      rw [same, complete]
      exact announced.open_ s session held complete
  | true =>
      rw [same, complete]
      refine announced.done s session held complete ?_
      intro p q queued announcing
      have mine := announcing_unique final.state base o p _ q s there queued rfl announcing
      subst mine
      obtain rfl := Option.some.inj (there.symm.trans queued)
      cases announcing

-- A status request that reports completion of the first session, together with
-- the number of times completion was announced.
def reportedComplete (o times : Nat) (state : State) : Bool :=
  match state.ops[o]? with
  | some (.status _ _ (.leave 0 ⟨_, .status status⟩)) =>
      status.complete && completeEvents 0 state.log == times && completedRecords 0 state.log == times
  | _ => false

theorem reported_complete_sound (o times : Nat) (state : State)
    (reported : reportedComplete o times state = true) :
    ∃ peer id code status, state.ops[o]? = some (.status peer id (.leave 0 ⟨code, .status status⟩)) ∧
      status.complete = true ∧
      AnnouncedTimes 0 state.log times := by
  unfold reportedComplete at reported
  split at reported
  · rename_i peer id code status there
    simp only [Bool.and_eq_true, beq_iff_eq] at reported
    exact ⟨peer, id, code, status, there, reported.1.1, reported.1.2, reported.2⟩
  · cases reported

-- The session of one empty file, uploaded once and then queried.
def uploadedRun (commit : Option Fault) (rest : Nat) : List Label :=
  .start :: .call (.register (smallRegister true)) :: advances 0 7 ++ .call (.upload smallUpload) ::
    advances 1 13 ++ .advance 1 commit :: advances 1 rest ++ .call (.status smallPeer smallId) :: advances 2 3

-- The same with a first upload that is dropped while it waits for the journal of its destination.
def retriedRun : List HostLabel :=
  (.start :: .call (.register (smallRegister true)) :: advances 0 7 ++ .call (.upload smallUpload) ::
    advances 1 10).map .label ++ [.abandon 1 true, .settle 0] ++
    (.call (.upload smallUpload) :: advances 2 18 ++ .call (.status smallPeer smallId) :: advances 3 3).map
    .label

theorem small_completion_announced_once : ∃ final,
    Transition.Run (hostStep emptyHash) (fun host label => announcedRun host label = true)
    ⟨emptyState, []⟩ final ∧
      ∃ peer id code status, final.state.ops[3]? = some (.status peer id (.leave 0 ⟨code, .status status⟩)) ∧
        status.complete = true ∧ AnnouncedTimes 0 final.state.log 1 := by
  obtain ⟨final, run, reported⟩ :=
    Transition.replay_reaches (hostStep emptyHash) (fun host label => announcedRun host label = true)
    retriedRun ⟨emptyState, []⟩ (fun host => reportedComplete 3 1 host.state) (by decide +kernel)
  obtain ⟨peer, id, code, status, there, complete, _⟩ := reported_complete_sound 3 1 final.state reported
  have times := (completion_announced_once emptyHash emptyState final empty_initial run).1 3 peer id 0 code
    status there
  exact ⟨final, run, peer, id, code, status, there, complete, by simpa [complete] using times⟩

-- When the last persist fails, the retried upload finds the receipt in memory
-- and status reports completion, but nothing was announced and nothing will be.
theorem failed_receipt_completes_unannounced : ∃ start final, Initial start ∧
    Transition.Run (step emptyHash) (fun _ label => crashFree label = true) start final ∧
      ∃ (o : Nat) (peer : Peer) (id : String) (s code : Nat) (status : ResumeStatus),
        final.ops[o]? = some (.status peer id (.leave s ⟨code, .status status⟩)) ∧ status.complete = true ∧
          AnnouncedTimes s final.log 0 := by
  obtain ⟨final, run, reported⟩ :=
    Transition.replay_reaches (step emptyHash) (fun _ label => crashFree label = true)
    (uploadedRun (some (.persist false)) 1) emptyState (reportedComplete 2 0) (by decide +kernel)
  obtain ⟨peer, id, code, status, there, complete, times⟩ := reported_complete_sound 2 0 final reported
  exact ⟨emptyState, final, empty_initial, run, 2, peer, id, 0, code, status, there, complete, times⟩

-- The same comes of a peer that hangs up during that persist.
example : ((Transition.replay (hostStep emptyHash) (fun _ _ => True) ⟨emptyState, []⟩
    ((.start :: .call (.register (smallRegister true)) :: advances 0 7 ++ .call (.upload smallUpload) ::
      advances 1 13).map .label ++
      [.abandon 1 true, .settle 0] ++ (.call (.status smallPeer smallId) :: advances 2 3).map .label)).any
        fun host => reportedComplete 2 0 host.state) = true := by
  decide +kernel

end GoshTransfer
