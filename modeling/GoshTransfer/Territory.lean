import GoshTransfer.Kept

set_option autoImplicit false

namespace GoshTransfer

open InodeStore

-- An operation may keep a session that forget has taken out of the map.
def Store.current (store : Store) (s : Nat) : Bool :=
  (store.heap[s]?).all fun session => store.sessions.lookup session.id == some s

-- No reject_transfer or cancel_transfer passes its checks on a forgotten session.
def staleFree (state : State) : Label → Bool
  | .advance o _ =>
      match state.ops[o]? with
      | some (.reject _ (.decide s)) =>
          state.store.current s || (state.store.heap[s]?).all fun session => session.record.decision !=
            .pending
      | some (.cancel _ _ (.decide s)) =>
          state.store.current s || (state.store.heap[s]?).all fun session => session.record.complete ||
            session.record.cancelled
      | _ => true
  | _ => true

-- Every partial that forget removes is gone afterwards.
def forgetRemoves (state : State) : Label → Bool
  | .advance o fault =>
      match state.ops[o]? with
      | some (.forget _ (.discard _ (_ :: _))) => fault != some .remove
      | _ => true
  | _ => true

def orderly (state : State) (label : Label) : Bool := staleFree state label && forgetRemoves state label

theorem orderly_fresh (state : State) (label : Label) (ordered : orderly state label = true) :
    staleFree state label = true := by
  simp only [orderly, Bool.and_eq_true] at ordered
  exact ordered.1

-- The phases in which an operation has passed its checks and goes on to change files.
def UploadPhase.works : UploadPhase → Option Nat
  | .lookup | .lock _ | .entry _ | .leave _ _ | .done _ => none
  | .check s _ | .openPart s _ _ _ | .receive s _ _ | .interrupted s | .syncAll s _ | .hash s _
  | .recheck s _ | .prepare s _ | .choose s _ _ | .link s _ _ _ | .verify s _ _ _ | .syncParent s _ _
  | .commit s _ _ | .finish s _ | .discard s _ | .announce s _ => some s

def Op.works : Op → Option Nat
  | .upload _ phase => phase.works
  | .cancel _ _ (.discard s _ _) => some s
  | _ => none

theorem works_holds (op : Op) (s : Nat) (working : op.works = some s) : op.holds = some s := by
  cases op with
  | upload request phase => cases phase <;> first | exact working | cases working
  | cancel caller id phase => cases phase <;> first | exact working | cases working
  | _ => cases working

theorem current_iff (store : Store) (s : Nat) (session : Session) (here : store.heap[s]? = some session) :
    store.current s = true ↔ store.sessions.lookup session.id = some s := by
  simp [Store.current, here]

def Cleared (id : String) (disk : ReceiverDisk) : Prop :=
  disk.doc (journalPath id) = none ∧ ∀ file, disk.node (partPath id file) = none

def Forgotten (id : String) (store : Store) : Prop := Cleared id store.disk ∧ store.sessions.lookup id = none

-- The journal of a session in the map is a state the record has passed through,
-- and who has passed the checks of an operation works on a session in the map.
structure Owned (state : State) : Prop where
  held : ∀ (id : String) (s : Nat) (session : Session), state.store.sessions.lookup id = some s →
    state.store.heap[s]? = some session → (∃ o : Nat, state.ops[o]? = some (.forget id (.evict s))) ∨
      ∃ journal, state.store.disk.doc (journalPath id) = some journal ∧ journal.Forward session.record
  working : ∀ (o : Nat) (op : Op) (s : Nat) (session : Session), state.ops[o]? = some op → op.works = some s →
    state.store.heap[s]? = some session → state.store.sessions.lookup session.id = some s
  inserting : ∀ (o : Nat) (request : RegisterRequest), state.ops[o]? = some (.register request .insert) →
    state.store.disk.doc (journalPath request.id) = some request.record

-- A partial belongs to a file of a journal, and forget leaves nothing behind.
structure Housed (state : State) : Prop where
  parts : ∀ id file : String, id.toList.length = 36 → state.store.disk.node (partPath id file) ≠ none →
    ∃ journal, state.store.disk.doc (journalPath id) = some journal ∧ file ∈ journal.manifest.fileIds
  homed : state.running = true → ∀ id file : String, id.toList.length = 36 →
    state.store.disk.node (partPath id file) ≠ none →
    state.store.sessions.lookup id ≠ none
  discarding : ∀ (o : Nat) (id : String) (s : Nat) (files : List String),
    state.ops[o]? = some (.forget id (.discard s files)) →
    ∀ file, state.store.disk.node (partPath id file) ≠ none → file ∈ files
  erased : ∀ (o : Nat) (id : String) (s : Nat), state.ops[o]? = some (.forget id (.evict s)) →
    id.toList.length = 36 ∧ Cleared id state.store.disk
  dismissed : ∀ (o : Nat) (id : String) (phase : ForgetPhase), state.ops[o]? = some (.forget id phase) →
    (∃ s, phase = .leave s (.ok ())) ∨ phase = .retire (.ok ()) → id.toList.length = 36 ∧
      Forgotten id state.store

theorem holder_unique (state : State) (base : Base state) (o p : Nat) (op q : Op) (s : Nat)
    (here : state.ops[o]? = some op) (there : state.ops[p]? = some q) (mine : op.holds = some s)
    (yours : q.holds = some s) : p = o := by
  obtain ⟨session, at_, locked⟩ := base.locked o op s here mine
  obtain ⟨session', at', locked'⟩ := base.locked p q s there yours
  obtain rfl := Option.some.inj (at_.symm.trans at')
  exact Option.some.inj (locked'.symm.trans locked)

theorem live_current (state : State) (base : Base state) (s : Nat) (session : Session)
    (there : state.store.heap[s]? = some session) (live : session.record.terminal = false) :
    state.store.sessions.lookup session.id = some s := by
  rcases base.gone s session there with present | ended
  · exact present
  · rw [live] at ended
    cases ended

section Advance

variable (sha256 : Bytes → String) (state : State) (base : Base state) (o : Nat) (fault : Option Fault)
variable (op op' : Op) (act : Act) (log : List Entry) (here : state.ops[o]? = some op)
variable (moved : OpMove sha256 state.store fault op act log op')

include base here moved

theorem lookup_kept (id : String) (s : Nat) (present : state.store.sessions.lookup id = some s) :
    (state.store.apply o act).sessions.lookup id = some s ∨ op = .forget id (.evict s) := by
  cases op_effect sha256 state.store fault op op' act log moved with
  | insert request =>
      have absent := (insert_fresh sha256 state base o fault _ _ _ log here moved _ rfl).2
      have different : id ≠ request.record.pending.id := by
        rintro rfl
        rw [absent] at present
        cases present
      exact .inl ((AList.lookup_insert_ne different).trans present)
  | evict other t =>
      by_cases same : id = other
      · subst same
        obtain rfl : t = s := Option.some.inj ((base.facts o _ here).1.symm.trans present)
        exact .inr rfl
      · exact .inl ((AList.lookup_erase_ne same).trans present)
  | quiet _ _ _ silent =>
      refine .inl ((congrArg (AList.lookup id) (apply_sessions state.store o act ?_ ?_)).trans present) <;>
        (rintro _ rfl; cases silent)
  | _ =>
      refine .inl ((congrArg (AList.lookup id) (apply_sessions state.store o _ ?_ ?_)).trans present) <;> simp

theorem lookup_kept_other (p : Nat) (q : Op) (s : Nat) (other : p ≠ o) (there : state.ops[p]? = some q)
    (yours : q.holds = some s) (id : String) (present : state.store.sessions.lookup id = some s) :
    (state.store.apply o act).sessions.lookup id = some s := by
  rcases lookup_kept sha256 state base o fault op op' act log here moved id s present with kept | rfl
  · exact kept
  · exact absurd (holder_unique state base o p _ q s here there rfl yours) other

end Advance

-- The acts on the files of the state directory that an operation makes under the record lock.
def Act.files : Act → Bool
  | .persist _ _ _ | .openPart _ | .append _ _ | .remove _ => true
  | _ => false

theorem accept_current (state : State) (base : Base state) (id : String) (fault : Option Fault)
    (phase next : AcceptPhase) (act : Act) (log : List Entry)
    (moved : AcceptMove id state.store fault phase act log next) (files : act.files = true) (s : Nat)
    (session : Session) (held : phase.holds = some s) (there : state.store.heap[s]? = some session) :
    state.store.sessions.lookup session.id = some s := by
  cases moved with
  | accepted t session' there' open_ ok =>
      obtain rfl := Option.some.inj held
      obtain rfl := Option.some.inj (there.symm.trans there')
      exact live_current state base _ session there open_
  | failed t session' saved there' open_ broken =>
      obtain rfl := Option.some.inj held
      obtain rfl := Option.some.inj (there.symm.trans there')
      exact live_current state base _ session there open_
  | _ => cases files

theorem reject_current (state : State) (o : Nat) (id : String) (fault : Option Fault)
    (phase next : RejectPhase) (act : Act) (log : List Entry) (here : state.ops[o]? = some (.reject id phase))
    (fresh : staleFree state (.advance o fault) = true)
    (moved : RejectMove id state.store fault phase act log next) (files : act.files = true) (s : Nat)
    (session : Session) (held : phase.holds = some s) (there : state.store.heap[s]? = some session) :
    state.store.sessions.lookup session.id = some s := by
  cases moved with
  | rejected t session' there' undecided ok =>
      obtain rfl := Option.some.inj held
      obtain rfl := Option.some.inj (there.symm.trans there')
      simpa [staleFree, here, there, undecided, current_iff _ _ _ there] using fresh
  | failed t session' saved there' undecided broken =>
      obtain rfl := Option.some.inj held
      obtain rfl := Option.some.inj (there.symm.trans there')
      simpa [staleFree, here, there, undecided, current_iff _ _ _ there] using fresh
  | _ => cases files

theorem cancel_current (state : State) (owned : Owned state) (o : Nat) (caller : Option Peer) (id : String)
    (fault : Option Fault) (phase next : CancelPhase) (act : Act) (log : List Entry)
    (here : state.ops[o]? = some (.cancel caller id phase))
    (fresh : staleFree state (.advance o fault) = true)
    (moved : CancelMove caller id state.store fault phase act log next) (files : act.files = true) (s : Nat)
    (session : Session) (held : phase.holds = some s) (there : state.store.heap[s]? = some session) :
      state.store.sessions.lookup session.id = some s := by
  cases moved with
  | cancelled t session' points there' open_ read ok =>
      obtain rfl := Option.some.inj held
      obtain rfl := Option.some.inj (there.symm.trans there')
      simpa [staleFree, here, there, open_, current_iff _ _ _ there] using fresh
  | failed t session' saved there' open_ broken =>
      obtain rfl := Option.some.inj held
      obtain rfl := Option.some.inj (there.symm.trans there')
      simpa [staleFree, here, there, open_, current_iff _ _ _ there] using fresh
  | discarded t session' file rest bytes there' => exact owned.working o _ s session here held there
  | _ => cases files

theorem forget_current (state : State) (base : Base state) (o : Nat) (id : String) (fault : Option Fault)
    (phase next : ForgetPhase) (act : Act) (log : List Entry) (here : state.ops[o]? = some (.forget id phase))
    (moved : ForgetMove id state.store fault phase act log next) (files : act.files = true) (s : Nat)
    (session : Session) (held : phase.holds = some s) (there : state.store.heap[s]? = some session) :
    state.store.sessions.lookup session.id = some s := by
  obtain ⟨session', there', named⟩ := base.known o _ s here (holds_session _ s held)
  obtain rfl := Option.some.inj (there.symm.trans there')
  rw [named]
  cases moved with
  | discarded t _ file rest _ =>
      obtain rfl := Option.some.inj held
      exact (base.facts o _ here).1
  | erased t present =>
      obtain rfl := Option.some.inj held
      exact (base.facts o _ here).1
  | _ => cases files

theorem upload_current (state : State) (owned : Owned state) (o : Nat) (sha256 : Bytes → String)
    (request : UploadRequest) (fault : Option Fault) (phase next : UploadPhase) (act : Act) (log : List Entry)
    (here : state.ops[o]? = some (.upload request phase))
    (moved : UploadMove sha256 request state.store fault phase act log next) (files : act.files = true)
    (s : Nat) (session : Session) (held : phase.holds = some s)
    (there : state.store.heap[s]? = some session) : state.store.sessions.lookup session.id = some s := by
  refine owned.working o _ s session here ?_ there
  cases moved <;> first | exact held | cases files

theorem writer_current (sha256 : Bytes → String) (state : State) (base : Base state) (owned : Owned state)
    (o : Nat) (fault : Option Fault) (op op' : Op) (act : Act) (log : List Entry)
    (here : state.ops[o]? = some op) (fresh : staleFree state (.advance o fault) = true)
    (moved : OpMove sha256 state.store fault op act log op') (files : act.files = true) (s : Nat)
    (session : Session) (held : op.holds = some s) (there : state.store.heap[s]? = some session) :
    state.store.sessions.lookup session.id = some s := by
  cases moved with
  | accept id phase next _ _ moved =>
      exact accept_current state base id fault phase next act log moved files s session held there
  | reject id phase next _ _ moved =>
      exact reject_current state o id fault phase next act log here fresh moved files s session held there
  | cancel caller id phase next _ _ moved =>
      exact cancel_current state owned o caller id fault phase next act log here fresh moved files s session
        held there
  | forget id phase next _ _ moved =>
      exact forget_current state base o id fault phase next act log here moved files s session held there
  | register request phase next _ _ moved => cases moved <;> cases files
  | status peer id phase next _ _ moved => cases moved <;> cases files
  | upload request phase next _ _ moved =>
      exact upload_current state owned o sha256 request fault phase next act log here moved files s session
        held there

theorem working_live (record : Record) (file : TransferFile) (sound : record.Sound)
    (working : Working record file) :
    record.terminal = false := by
  simp [Record.terminal, working_open record file sound working, working.live, working.accepted]

section Step

variable (sha256 : Bytes → String) (state : State) (base : Base state) (owned : Owned state) (o : Nat)
    (fault : Option Fault)
variable (op op' : Op) (act : Act) (log : List Entry) (here : state.ops[o]? = some op)
variable (fresh : staleFree state (.advance o fault) = true)
    (moved : OpMove sha256 state.store fault op act log op')
include base owned here fresh moved

theorem begins_current (s : Nat) (session : Session) (working : op'.works = some s)
    (there : state.store.heap[s]? = some session) :
    state.store.sessions.lookup session.id = some s := by
  cases moved with
  | upload request phase next _ _ moved =>
      by_cases before : phase.works = some s
      · exact owned.working o _ s session here before there
      · cases moved with
        | admitted t session' file there' owner_ live accepted capability member named missing =>
            obtain rfl := Option.some.inj working
            obtain rfl := Option.some.inj (there.symm.trans there')
            exact live_current state base _ session there
              (working_live session.record file (base.sound _ session there).record
              ⟨member, missing, accepted, live.1⟩)
        | refuse _ _ _ _ _ _ => cases working
        | _ => first | exact absurd working before | cases working
  | cancel caller id phase next _ _ moved =>
      cases moved with
      | cancelled t session' points there' open_ read ok =>
          obtain rfl := Option.some.inj working
          obtain rfl := Option.some.inj (there.symm.trans there')
          simpa [staleFree, here, there, open_, current_iff _ _ _ there] using fresh
      | discarded t session' file rest bytes there' => exact owned.working o _ s session here working there
      | _ => cases working
  | accept id phase next _ _ moved => cases working
  | reject id phase next _ _ moved => cases working
  | forget id phase next _ _ moved => cases working
  | register request phase next _ _ moved => cases working
  | status peer id phase next _ _ moved => cases working

theorem owned_working : ∀ (p : Nat) (q : Op) (s : Nat) (session : Session), (state.ops.set o op')[p]? =
    some q → q.works = some s →
    (state.store.apply o act).heap[s]? = some session →
    (state.store.apply o act).sessions.lookup session.id = some s := by
  intro p q s session' there working after
  have rules := op_disciplined state.store fault act log sha256 op op' moved
  rcases Transition.set_cases state.ops o p op' q there with ⟨rfl, rfl⟩ | ⟨other, before⟩
  · have mine := works_holds q s working
    rcases apply_heap_origin state.store p act s session' after with ⟨session, at_, rfl⟩ |
      ⟨record, rfl, rfl, rfl⟩
    · have present :=
        begins_current sha256 state base owned p fault op q act log here fresh moved s session working at_
      rw [on_id]
      rcases lookup_kept sha256 state base p fault op q act log here moved session.id s present with kept |
        rfl
      · exact kept
      · cases moved with
        | forget _ _ _ _ _ moved =>
            cases moved
            cases working
    · cases op_effect sha256 state.store fault op q _ log moved with
      | quiet _ _ _ silent => cases silent
      | insert request => cases working
  · have yours := works_holds q s working
    obtain ⟨session, at_, _⟩ := base.locked p q s before yours
    obtain rfl := Option.some.inj (after.symm.trans (apply_heap state.store o act s session at_))
    rw [on_id]
    exact lookup_kept_other sha256 state base o fault op op' act log here moved p q s other before yours
      session.id (owned.working p q s session before working at_)

theorem files_guarded (p : Nat) (q : Op) (s : Nat) (other : p ≠ o) (there : state.ops[p]? = some q)
    (yours : q.holds = some s) (id : String) (present : state.store.sessions.lookup id = some s) :
    (state.store.apply o act).disk.doc (journalPath id) = state.store.disk.doc (journalPath id) ∧
      ∀ file, (state.store.apply o act).disk.node (partPath id file) =
        state.store.disk.node (partPath id file) := by
  obtain ⟨holder, held, named⟩ := base.mapped id s present
  have canonical : id.toList.length = 36 := named ▸ session_id_length state base s holder held
  have stranger : ∀ t session, op.holds = some t → state.store.heap[t]? = some session → session.id = id →
    act.files ≠ true := by
    rintro t session mine at_ rfl files
    have found :=
    writer_current sha256 state base owned o fault op op' act log here fresh moved files t session mine at_
    obtain rfl := Option.some.inj (found.symm.trans present)
    exact other (holder_unique state base o p op q t here there mine yours)
  constructor
  · rcases journal_cases sha256 state base o fault op op' act log here moved id with
      same | ⟨t, session, record, rfl, mine, at_, same, _, _⟩ | ⟨request, rfl, rfl, same, _⟩ |
        ⟨t, rfl, rfl, _, _⟩
    · exact same
    · exact absurd rfl (stranger t session mine at_ same)
    · have absent := (base.facts o _ here).2
      rw [same, present] at absent
      cases absent
    · obtain rfl := Option.some.inj ((base.facts o _ here).1.symm.trans present)
      exact absurd (holder_unique state base o p _ q t here there rfl yours) other
  · intro file
    rcases part_cases sha256 state base o fault op op' act log here moved id file canonical with
      same | ⟨request, t, session, declared, _, _, rfl, at_, same, _, rfl, _, _, _⟩ |
        ⟨t, session, mine, at_, same, rfl, _⟩
    · exact same
    · exact absurd rfl (stranger t session rfl at_ same)
    · exact absurd rfl (stranger t session mine at_ same)

omit base owned here fresh in
theorem lookup_origin (id : String) (s : Nat) (old : s < state.store.heap.length)
    (present : (state.store.apply o act).sessions.lookup id = some s) :
    state.store.sessions.lookup id = some s := by
  cases op_effect sha256 state.store fault op op' act log moved with
  | insert request =>
      by_cases same : id = request.record.pending.id
      · subst same
        obtain rfl : state.store.heap.length = s := by simpa [Store.apply] using present
        exact absurd old (Nat.lt_irrefl _)
      · exact (AList.lookup_insert_ne same).symm.trans present
  | evict other t =>
      by_cases same : id = other
      · subst same
        simp [Store.apply] at present
      · exact (AList.lookup_erase_ne same).symm.trans present
  | quiet _ _ _ silent =>
      refine (congrArg (AList.lookup id) (apply_sessions state.store o act ?_ ?_)).symm.trans present <;>
        (rintro _ rfl; cases silent)
  | _ =>
      refine (congrArg (AList.lookup id) (apply_sessions state.store o _ ?_ ?_)).symm.trans present <;> simp

theorem owned_held :
    ∀ (id : String) (s : Nat) (session : Session), (state.store.apply o act).sessions.lookup id = some s →
    (state.store.apply o act).heap[s]? = some session →
    (∃ p : Nat, (state.ops.set o op')[p]? = some (.forget id (.evict s))) ∨
      ∃ journal, (state.store.apply o act).disk.doc (journalPath id) = some journal ∧
        journal.Forward session.record := by
  intro id s session' present after
  rcases apply_heap_origin state.store o act s session' after with ⟨session, at_, rfl⟩ |
    ⟨record, rfl, rfl, rfl⟩
  · have old := (List.getElem?_eq_some_iff.mp at_).1
    have found := lookup_origin sha256 state o fault op op' act log moved id s old present
    have forward := (moved_session sha256 state base o fault op op' act log here moved s session at_).2
    rcases owned.held id s session found at_ with ⟨p, forgetting⟩ | ⟨journal, written, older⟩
    · by_cases same : p = o
      · subst same
        obtain rfl := Option.some.inj (here.symm.trans forgetting)
        cases moved with
        | forget _ _ _ _ _ moved =>
            cases moved
            simp [Store.apply] at present
      · exact .inl ⟨p, by rw [List.getElem?_set_ne (Ne.symm same)]; exact forgetting⟩
    · rcases journal_cases sha256 state base o fault op op' act log here moved id with
        same | ⟨t, session', record, rfl, mine, there, named, newer, now⟩ |
          ⟨request, rfl, rfl, named, now⟩ | ⟨t, rfl, rfl, rfl, now⟩
      · exact .inr ⟨journal, same.trans written, forward_trans _ _ _ older forward⟩
      · have mapped :=
          writer_current sha256 state base owned o fault op op' _ log here fresh moved rfl t session' mine
            there
        obtain rfl : s = t := Option.some.inj (found.symm.trans (named ▸ mapped))
        exact .inr ⟨record, now, by simpa [Act.on] using forward_refl record⟩
      · have absent := (base.facts o _ here).2
        rw [named, found] at absent
        cases absent
      · obtain rfl : s = t := Option.some.inj (found.symm.trans (base.facts o _ here).1)
        have within := (List.getElem?_eq_some_iff.mp here).1
        exact .inl ⟨o, by rw [List.getElem?_set_self within]⟩
  · cases op_effect sha256 state.store fault op op' _ log moved with
    | quiet _ _ _ silent => cases silent
    | insert request =>
        have same : id = request.record.pending.id := by
          by_contra different
          have before : state.store.sessions.lookup id = some state.store.heap.length :=
            (AList.lookup_insert_ne different).symm.trans present
          obtain ⟨session, at_, _⟩ := base.mapped id _ before
          simp at at_
        subst same
        exact .inr ⟨request.record, owned.inserting o request here, forward_refl _⟩

omit fresh moved in
theorem held_journal (s : Nat) (session : Session) (mine : op.holds = some s)
    (notForget : ∀ id, op ≠ .forget id (.evict s)) (at_ : state.store.heap[s]? = some session)
    (present : state.store.sessions.lookup session.id = some s) :
    ∃ journal, state.store.disk.doc (journalPath session.id) = some journal ∧
      journal.Forward session.record := by
  rcases owned.held session.id s session present at_ with ⟨p, forgetting⟩ | found
  · obtain rfl := holder_unique state base p o _ op s forgetting here rfl mine
    exact absurd (Option.some.inj (here.symm.trans forgetting)) (notForget _)
  · exact found

theorem clear_kept (p : Nat) (id : String) (phase : ForgetPhase) (other : p ≠ o)
    (there : state.ops[p]? = some (.forget id phase)) (enrolled : phase.enrolled = true)
    (canonical : id.toList.length = 36) (mine : ∀ s, state.store.sessions.lookup id = some s →
      phase.holds = some s)
    (cleared : Cleared id state.store.disk) : Cleared id (state.store.apply o act).disk := by
  have stranger : ∀ t session, op.holds = some t → state.store.heap[t]? = some session → session.id = id →
    act.files ≠ true := by
    rintro t session held at_ rfl files
    have present :=
    writer_current sha256 state base owned o fault op op' act log here fresh moved files t session held at_
    exact other (holder_unique state base o p op _ t here there held (mine t present))
  constructor
  · rcases journal_cases sha256 state base o fault op op' act log here moved id with
      same | ⟨t, session, record, rfl, held, at_, same, _, _⟩ | ⟨request, rfl, rfl, same, _⟩ |
        ⟨t, rfl, rfl, _, now⟩
    · exact same.trans cleared.1
    · exact absurd rfl (stranger t session held at_ same)
    · have registering := base.enrolled o _ here rfl
      rw [base.enrolled p _ there enrolled] at registering
      exact absurd (Option.some.inj registering) other
    · exact now
  · intro file
    rcases part_cases sha256 state base o fault op op' act log here moved id file canonical with
      same | ⟨request, t, session, declared, _, _, rfl, at_, same, _, rfl, _, _, _⟩ |
        ⟨t, session, held, at_, same, rfl, now⟩
    · exact same.trans (cleared.2 file)
    · exact absurd rfl (stranger t session rfl at_ same)
    · exact now

theorem owned_inserting :
    ∀ (p : Nat) (request : RegisterRequest), (state.ops.set o op')[p]? = some (.register request .insert) →
    (state.store.apply o act).disk.doc (journalPath request.id) = some request.record := by
  intro p request there
  rcases Transition.set_cases state.ops o p op' _ there with ⟨rfl, rfl⟩ | ⟨other, before⟩
  · cases moved with
    | register _ phase _ _ _ moved =>
        cases moved with
        | created below ok => exact (doc_node _ _ _).mpr ((node_save _ _ _ _).trans (if_pos rfl))
  · have absent := (base.facts p _ before).2
    have written := owned.inserting p request before
    rcases journal_cases sha256 state base o fault op op' act log here moved request.id with
      same | ⟨t, session, record, rfl, mine, at_, named, newer, now⟩ | ⟨request', rfl, rfl, named, now⟩ |
        ⟨t, rfl, rfl, _, now⟩
    · exact same.trans written
    · have present :=
        writer_current sha256 state base owned o fault op op' _ log here fresh moved rfl t session mine at_
      rw [named, absent] at present
      cases present
    · have registering := base.enrolled p _ before rfl
      rw [base.enrolled o _ here rfl] at registering
      exact absurd (Option.some.inj registering).symm other
    · rw [(base.facts o _ here).1] at absent
      cases absent

theorem owned_advance : Owned
    { state with store := state.store.apply o act, ops := state.ops.set o op', log := state.log ++ log } where
  held := owned_held sha256 state base owned o fault op op' act log here fresh moved
  working := owned_working sha256 state base owned o fault op op' act log here fresh moved
  inserting := owned_inserting sha256 state base owned o fault op op' act log here fresh moved

end Step

section Parts

variable (sha256 : Bytes → String) (state : State) (base : Base state) (owned : Owned state)
    (housed : Housed state) (o : Nat)
variable (fault : Option Fault) (op op' : Op) (act : Act) (log : List Entry) (here : state.ops[o]? = some op)
variable (fresh : staleFree state (.advance o fault) = true)
    (moved : OpMove sha256 state.store fault op act log op')
include base owned housed here fresh moved

theorem part_journal_kept (id file : String) (canonical : id.toList.length = 36) (journal : Record)
    (exists_ : state.store.disk.node (partPath id file) ≠ none)
    (written : state.store.disk.doc (journalPath id) = some journal) :
    ∃ journal', (state.store.apply o act).disk.doc (journalPath id) = some journal' ∧
      journal'.manifest = journal.manifest := by
  rcases journal_cases sha256 state base o fault op op' act log here moved id with
    same | ⟨t, session, record, rfl, mine, at_, rfl, newer, now⟩ | ⟨request, rfl, rfl, named, now⟩ |
      ⟨t, rfl, rfl, rfl, now⟩
  · exact ⟨journal, same.trans written, rfl⟩
  · have present :=
      writer_current sha256 state base owned o fault op op' _ log here fresh moved rfl t session mine at_
    have notForget : ∀ id, op ≠ .forget id (.evict t) := by
      rintro id rfl
      cases moved with
      | forget _ _ _ _ _ moved => cases moved
    obtain ⟨other, written', older⟩ :=
      held_journal state base owned o op here t session mine notForget at_ present
    obtain rfl := Option.some.inj (written.symm.trans written')
    exact ⟨record, now, (older.same.1.trans newer.same.1).symm⟩
  · have absent := (base.facts o _ here).2
    rw [named] at absent
    exact absurd absent (housed.homed (base_running state base o _ here) id file canonical exists_)
  · exact absurd (housed.discarding o id t [] here file exists_) (by simp)

theorem housed_parts : ∀ id file : String, id.toList.length = 36 → (state.store.apply o act).disk.node
    (partPath id file) ≠ none →
    ∃ journal, (state.store.apply o act).disk.doc (journalPath id) = some journal ∧
      file ∈ journal.manifest.fileIds := by
  intro id file canonical exists_
  rcases part_cases sha256 state base o fault op op' act log here moved id file canonical with
    same | ⟨request, t, session, declared, baseline, current, rfl, at_, rfl, rfl, rfl, rfl, absent, now⟩ |
      ⟨t, session, mine, at_, named, rfl, now⟩
  · rw [same] at exists_
    obtain ⟨journal, written, listed⟩ := housed.parts id file canonical exists_
    obtain ⟨journal', now, manifest⟩ :=
      part_journal_kept sha256 state base owned housed o fault op op' act log here fresh moved id file
      canonical journal exists_ written
    exact ⟨journal', now, manifest ▸ listed⟩
  · have present := owned.working o _ t session here rfl at_
    obtain ⟨journal, written, older⟩ :=
      held_journal state base owned o _ here t session rfl (by simp) at_ present
    have untouched := journal_untouched sha256 state base o fault _ _ _ log here moved session.id (by simp)
      (by simp) (by simp)
    refine ⟨journal, untouched.trans written, ?_⟩
    rw [older.same.1]
    exact List.mem_map_of_mem (base.facts o _ here t session rfl at_).1.member
  · exact absurd now exists_

omit fresh in
theorem housed_homed : ∀ id file : String, id.toList.length = 36 → (state.store.apply o act).disk.node
    (partPath id file) ≠ none →
    (state.store.apply o act).sessions.lookup id ≠ none := by
  intro id file canonical exists_
  have carried : ∀ s, state.store.sessions.lookup id = some s → op ≠ .forget id (.evict s) →
      (state.store.apply o act).sessions.lookup id ≠ none := by
    intro s present notForget
    rcases lookup_kept sha256 state base o fault op op' act log here moved id s present with kept | forgetting
    · simp [kept]
    · exact absurd forgetting notForget
  rcases part_cases sha256 state base o fault op op' act log here moved id file canonical with
    same | ⟨request, t, session, declared, baseline, current, rfl, at_, rfl, rfl, rfl, rfl, absent, now⟩ |
      ⟨t, session, mine, at_, named, rfl, now⟩
  · rw [same] at exists_
    obtain ⟨s, present⟩ :=
      Option.ne_none_iff_exists'.mp
        (housed.homed (base_running state base o _ here) id file canonical exists_)
    refine carried s present ?_
    rintro rfl
    exact exists_ ((housed.erased o id s here).2.2 file)
  · exact carried t (owned.working o _ t session here rfl at_) (by simp)
  · exact absurd now exists_

omit owned housed here fresh moved in
theorem mapped_length (id : String) (s : Nat) (present : state.store.sessions.lookup id = some s) :
    id.toList.length = 36 := by
  obtain ⟨session, at_, rfl⟩ := base.mapped id s present
  exact session_id_length state base s session at_

theorem housed_discarding (removes : forgetRemoves state (.advance o fault) = true) :
    ∀ (p : Nat) (id : String) (s : Nat) (files : List String), (state.ops.set o op')[p]? =
      some (.forget id (.discard s files)) →
      ∀ file, (state.store.apply o act).disk.node (partPath id file) ≠ none → file ∈ files := by
  intro p id s files there file exists_
  rcases Transition.set_cases state.ops o p op' _ there with ⟨rfl, rfl⟩ | ⟨other, before⟩
  · cases moved with
    | forget _ phase _ _ _ moved =>
        cases moved with
        | admitted _ session at_ ended =>
            have present : state.store.sessions.lookup id = some s := base.facts p _ here
            obtain ⟨session', at', rfl⟩ := base.mapped id s present
            obtain rfl := Option.some.inj (at_.symm.trans at')
            have canonical := session_id_length state base s session at_
            obtain ⟨journal, written, listed⟩ := housed.parts session.id file canonical exists_
            obtain ⟨other, written', older⟩ :=
              held_journal state base owned p _ here s session rfl (by simp) at_ present
            obtain rfl := Option.some.inj (written.symm.trans written')
            rw [← older.same.1]
            exact listed
        | discarded _ session first _ at_ =>
            have present := (base.facts p _ here).1
            obtain ⟨session', at', rfl⟩ := base.mapped id s present
            obtain rfl := Option.some.inj (at_.symm.trans at')
            have unbroken : fault ≠ some .remove := by simpa [forgetRemoves, here] using removes
            rw [removeAct, if_neg unbroken, apply_node] at exists_
            by_cases same : partPath session.id file = partPath session.id first
            · simp [Act.node, same] at exists_
            · have listed :=
                housed.discarding p session.id s (first :: files) here file
                  (by simpa [Act.node, same] using exists_)
              rcases List.mem_cons.mp listed with rfl | later
              · exact absurd rfl same
              · exact later
  · have present := (base.facts p _ before).1
    obtain ⟨_, same⟩ :=
      files_guarded sha256 state base owned o fault op op' act log here fresh moved p _ s other before rfl
        id present
    rw [same file] at exists_
    exact housed.discarding p id s files before file exists_

theorem housed_erased :
    ∀ (p : Nat) (id : String) (s : Nat), (state.ops.set o op')[p]? = some (.forget id (.evict s)) →
    id.toList.length = 36 ∧ Cleared id (state.store.apply o act).disk := by
  intro p id s there
  rcases Transition.set_cases state.ops o p op' _ there with ⟨rfl, rfl⟩ | ⟨other, before⟩
  · cases moved with
    | forget _ phase _ _ _ moved =>
        cases moved with
        | erased _ exists_ =>
            refine ⟨mapped_length state base id s (base.facts p _ here).1, ?_, ?_⟩
            · have gone : (state.store.apply p (.remove (journalPath id))).disk.node (journalPath id) =
                none :=
                (node_remove _ _ _).trans (if_pos rfl)
              simp [Disk.doc, gone]
            · intro file
              refine (node_remove _ _ _).trans ((if_neg (part_ne_journal _ _ _)).trans ?_)
              by_contra exists_
              exact absurd (housed.discarding p id s [] here file exists_) (by simp)
  · obtain ⟨canonical, cleared⟩ := housed.erased p id s before
    refine ⟨canonical, clear_kept sha256 state base owned o fault op op' act log here fresh moved p id
      (.evict s) other before rfl canonical ?_ cleared⟩
    intro t present
    rw [(base.facts p _ before).1] at present
    exact present

theorem housed_dismissed : ∀ (p : Nat) (id : String) (phase : ForgetPhase), (state.ops.set o op')[p]? =
    some (.forget id phase) →
    (∃ s, phase = .leave s (.ok ())) ∨ phase = .retire (.ok ()) →
      id.toList.length = 36 ∧ Forgotten id (state.store.apply o act) := by
  intro p id phase there dismissing
  rcases Transition.set_cases state.ops o p op' _ there with ⟨rfl, rfl⟩ | ⟨other, before⟩
  · cases moved with
    | forget _ earlier _ _ _ moved =>
        cases moved with
        | evicted s =>
            obtain ⟨canonical, cleared⟩ := housed.erased p id s here
            exact ⟨canonical, cleared, by simp [Store.apply]⟩
        | left s reply =>
            obtain rfl : reply = .ok () := by
              rcases dismissing with ⟨_, same⟩ | same
              · cases same
              · exact ForgetPhase.retire.inj same
            exact housed.dismissed p id _ here (.inl ⟨s, rfl⟩)
        | refuse s session e at_ live => rcases dismissing with ⟨_, same⟩ | same <;> cases same
        | stuck s => rcases dismissing with ⟨_, same⟩ | same <;> cases same
        | _ => rcases dismissing with ⟨_, same⟩ | same <;> cases same
  · obtain ⟨canonical, cleared, absent⟩ := housed.dismissed p id phase before dismissing
    have enrolled : phase.enrolled = true := by rcases dismissing with ⟨s, rfl⟩ | rfl <;> rfl
    refine ⟨canonical, clear_kept sha256 state base owned o fault op op' act log here fresh moved p id phase
      other before enrolled canonical ?_ cleared, ?_⟩
    · intro t present
      rw [absent] at present
      cases present
    · rw [(others_framed sha256 state base o fault op op' act log here moved p _ other before).map enrolled]
      exact absent

theorem housed_advance (removes : forgetRemoves state (.advance o fault) = true) :
    Housed { state with store := state.store.apply o act, ops := state.ops.set o op', log := state.log ++ log } where
  parts := housed_parts sha256 state base owned housed o fault op op' act log here fresh moved
  homed := fun _ => housed_homed sha256 state base owned housed o fault op op' act log here moved
  discarding :=
    housed_discarding sha256 state base owned housed o fault op op' act log here fresh moved removes
  erased := housed_erased sha256 state base owned housed o fault op op' act log here fresh moved
  dismissed := housed_dismissed sha256 state base owned housed o fault op op' act log here fresh moved

end Parts

theorem owned_call (state : State) (owned : Owned state) (call : Call) : Owned
    { state with ops := state.ops ++ [call.op] } where
  held := by
    intro id s session present at_
    rcases owned.held id s session present at_ with ⟨p, there⟩ | found
    · exact .inl ⟨p, List.getElem?_append_left (List.getElem?_eq_some_iff.mp there).1 ▸ there⟩
    · exact .inr found
  working := by
    intro o op s session there working at_
    rcases Transition.append_cases state.ops o call.op op there with before | rfl
    · exact owned.working o op s session before working at_
    · have idle := (call_idle call).2.1
      rw [works_holds _ s working] at idle
      cases idle
  inserting := by
    intro o request there
    rcases Transition.append_cases state.ops o call.op _ there with before | fresh
    · exact owned.inserting o request before
    · cases call <;> cases fresh

theorem housed_call (state : State) (housed : Housed state) (call : Call) : Housed
    { state with ops := state.ops ++ [call.op] } where
  parts := housed.parts
  homed := housed.homed
  discarding := by
    intro o id s files there
    rcases Transition.append_cases state.ops o call.op _ there with before | fresh
    · exact housed.discarding o id s files before
    · cases call <;> cases fresh
  erased := by
    intro o id s there
    rcases Transition.append_cases state.ops o call.op _ there with before | fresh
    · exact housed.erased o id s before
    · cases call <;> cases fresh
  dismissed := by
    intro o id phase there dismissing
    rcases Transition.append_cases state.ops o call.op _ there with before | fresh
    · exact housed.dismissed o id phase before dismissing
    · cases call <;> cases fresh
      rcases dismissing with ⟨_, same⟩ | same <;> cases same

theorem owned_step (sha256 : Bytes → String) (state next : State) (label : Label) (base : Base state)
    (owned : Owned state) (fresh : staleFree state label = true)
    (stepped : step sha256 state label = some next) : Owned next := by
  rcases step_cases sha256 state next label stepped with ⟨call, rfl, _, rfl⟩ |
    ⟨o, fault, op, act, log, op', rfl, here, moved, rfl⟩ |
    ⟨rfl, _, rfl⟩ | ⟨store, rfl, stopped, loaded, rfl⟩
  · exact owned_call state owned call
  · exact owned_advance sha256 state base owned o fault op op' act log here fresh moved
  · exact ⟨by simp [Store.empty], by simp, by simp⟩
  · have idle := (base.stopped stopped).1
    have spec := load_loaded state.store.disk store loaded
    refine ⟨?_, by simp [idle], by simp [idle]⟩
    intro id s session present at_
    obtain ⟨record, made, _, journal⟩ := spec.mapped id s present
    obtain rfl := Option.some.inj (at_.symm.trans made)
    exact .inr ⟨record, spec.same ▸ journal, forward_refl record⟩

theorem housed_step (sha256 : Bytes → String) (state next : State) (label : Label) (base : Base state)
    (owned : Owned state) (housed : Housed state) (allowed : orderly state label = true)
    (stepped : step sha256 state label = some next) : Housed next := by
  obtain ⟨fresh, removes⟩ : staleFree state label = true ∧
    forgetRemoves state label = true := by simpa [orderly] using allowed
  rcases step_cases sha256 state next label stepped with ⟨call, rfl, _, rfl⟩ |
    ⟨o, fault, op, act, log, op', rfl, here, moved, rfl⟩ |
    ⟨rfl, _, rfl⟩ | ⟨store, rfl, stopped, loaded, rfl⟩
  · exact housed_call state housed call
  · exact housed_advance sha256 state base owned housed o fault op op' act log here fresh moved removes
  · exact ⟨housed.parts, by simp, by simp, by simp, by simp⟩
  · have idle := (base.stopped stopped).1
    have spec := load_loaded state.store.disk store loaded
    refine ⟨?_, ?_, by simp [idle], by simp [idle], by simp [idle]⟩
    · intro id file canonical exists_
      rw [spec.same] at exists_ ⊢
      exact housed.parts id file canonical exists_
    · intro _ id file canonical exists_
      rw [spec.same] at exists_
      obtain ⟨journal, written, _⟩ := housed.parts id file canonical exists_
      have named : id ≠ "" := by
        rintro rfl
        cases canonical
      obtain ⟨s, present, _⟩ := spec.covered id journal named written
      simp [present]

theorem initial_owned (state : State) (initial : Initial state) : Owned state := by
  refine ⟨?_, by simp [initial.idle], by simp [initial.idle]⟩
  rw [initial.fresh]
  simp [Store.empty]

theorem initial_housed (state : State) (initial : Initial state) : Housed state := by
  have idle := initial.idle
  refine ⟨?_, ?_, by simp [idle], by simp [idle], by simp [idle]⟩
  · intro id file _ exists_
    exact absurd (initial.noState _ (part_inside id file)) exists_
  · intro running
    rw [initial.stopped] at running
    cases running

-- The three invariants together, for runs in which forget works as it should.
structure Kempt (state : State) : Prop where
  base : Base state
  owned : Owned state
  housed : Housed state

theorem kempt_step (sha256 : Bytes → String) (state next : State) (label : Label) (kempt : Kempt state)
    (allowed : orderly state label = true) (stepped : step sha256 state label = some next) : Kempt next := by
  have fresh := orderly_fresh state label allowed
  exact ⟨base_step sha256 state next label kempt.base stepped, owned_step sha256 state next label kempt.base
    kempt.owned fresh stepped,
    housed_step sha256 state next label kempt.base kempt.owned kempt.housed allowed stepped⟩

theorem run_kempt (sha256 : Bytes → String) (start final : State) (initial : Initial start)
    (run : Transition.Run (step sha256) (fun state label => orderly state label = true) start final) :
    Kempt final :=
  Transition.run_invariant (step sha256) _ Kempt
    (fun state label next kempt allowed stepped => kempt_step sha256 state next label kempt allowed stepped)
    start final run ⟨initial_base start initial, initial_owned start initial, initial_housed start initial⟩

theorem kept_orderly (state : State) (kept : Kept state) (label : Label) : orderly state label = true := by
  have current : ∀ s, state.store.current s = true := by
    intro s
    cases there : state.store.heap[s]? with
    | none => simp [Store.current, there]
    | some session => exact (current_iff _ s session there).mpr (kept.mapped s session there)
  cases label with
  | advance o fault =>
      cases here : state.ops[o]? with
      | none => simp [orderly, staleFree, forgetRemoves, here]
      | some op =>
          cases op with
          | forget id phase => exact absurd here (kept.noForget o id phase)
          | reject id phase => cases phase <;> simp [orderly, staleFree, forgetRemoves, here, current]
          | cancel caller id phase => cases phase <;> simp [orderly, staleFree, forgetRemoves, here, current]
          | _ => simp [orderly, staleFree, forgetRemoves, here]
  | _ => rfl

end GoshTransfer
