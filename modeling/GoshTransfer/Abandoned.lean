import GoshTransfer.Base

set_option autoImplicit false

namespace GoshTransfer

open InodeStore

-- A receiver in its runtime. A handler is dropped at an await when its peer
-- hangs up or the listener is stopped: its guards are released, and nobody
-- sees an answer. A blocking call that it has handed to another thread is left
-- to go on and takes effect at any later moment.
structure Host where
  state : State
  left : List Act

inductive HostLabel where
  | label (label : Label)
  | abandon (o : Nat) (begun : Bool)
  | settle (i : Nat)

-- What is left of a handler. The answer stands for the one that is not sent.
def Op.abandoned : Op → Option Op
  | .accept _ (.done _) | .reject _ (.done _) | .cancel _ _ (.done _) | .cancel _ _ .foreign |
      .forget _ (.done _)
  | .register _ (.done _) | .status _ _ (.done _) | .upload _ (.done _) => none
  | .accept id _ => some (.accept id (.done (.error .transferCancelled)))
  | .reject id _ => some (.reject id (.done (.error .transferCancelled)))
  | .cancel caller id _ => some (.cancel caller id .foreign)
  | .forget id _ => some (.forget id (.done (.error .transferCancelled)))
  | .register request _ => some (.register request (.done (.plain 499)))
  | .status peer id _ => some (.status peer id (.done (.plain 499)))
  | .upload request _ => some (.upload request (.done (.plain 499)))

-- The mutexes of a dropped future.
def Store.letGo (store : Store) (op : Op) : Store :=
  { store with
    heap := match op.holds with
      | some s => store.heap.modify s fun session => { session with lock := none }
      | none => store.heap
    registration := if op.enrolled then none else store.registration }

def State.letGo (state : State) (o : Nat) : Option State :=
  (state.ops[o]?).bind fun op =>
    op.abandoned.map fun gone => { state with store := state.store.letGo op, ops := state.ops.set o gone }

def Act.postponed : Act → List Act
  | .persist _ record _ | .journal record _ => [.journal record true]
  | _ => []

def Act.onDisk : Act → Bool
  | .openPart _ | .append _ _ | .remove _ | .mkdirs _ | .link _ _ => true
  | _ => false

-- A call in the blocking part of its next step. persist assigns the record
-- before it waits, so that the journal alone is written later.
def begun (sha256 : Bytes → String) (state : State) (o : Nat) : Option (State × List Act) :=
  (state.ops[o]?).bind fun op =>
    match op.next sha256 state.store (some (.persist false)) with
    | some (act, log, op') =>
        some ({ state with store := state.store.apply o act, ops := state.ops.set o op', log := state.log ++ log }, act.postponed)
    | none => (op.next sha256 state.store none).bind fun (act, _, _) =>
        if act.onDisk then some (state, [act]) else none

def Store.settle (store : Store) (act : Act) : Store :=
  match act with
  | .journal record _ => store.save record true
  | .append inode bytes => { store with disk := store.disk.append inode bytes }
  | .remove path => { store with disk := store.disk.remove path }
  | .mkdirs paths => { store with disk := paths.foldl Disk.mkdir store.disk }
  | .openPart path => if (store.disk.node path).isSome then store
      else { store with disk := store.disk.create path }
  | .link inode path => if (store.disk.node path).isSome then store
      else { store with disk := store.disk.link inode path }
  | _ => store

-- The end of the process ends its threads.
def hostStep (sha256 : Bytes → String) (host : Host) : HostLabel → Option Host
  | .label .crash => (step sha256 host.state .crash).map fun next => ⟨next, []⟩
  | .label label => (step sha256 host.state label).map fun next => ⟨next, host.left⟩
  | .abandon o false => (host.state.letGo o).map fun next => ⟨next, host.left⟩
  | .abandon o true => (begun sha256 host.state o).bind fun (busy, later) => (busy.letGo o).map fun next =>
      ⟨next, later ++ host.left⟩
  | .settle i =>
      (host.left[i]?).map fun act => ⟨{ host.state with store := host.state.store.settle act },
        host.left.eraseIdx i⟩

theorem abandoned_idle (op gone : Op) (dropped : op.abandoned = some gone) : gone.session = none ∧
    gone.holds = none ∧
    gone.enrolled = false ∧ ∀ store, gone.Facts store := by
  unfold Op.abandoned at dropped
  split at dropped <;> cases dropped
  all_goals first
    | exact ⟨rfl, rfl, rfl, fun _ => trivial⟩
    | exact ⟨rfl, rfl, rfl, fun _ s session held _ => by cases held⟩

theorem let_go_place (store : Store) (op : Op) (s : Nat) : (store.letGo op).heap[s]? =
    (store.heap[s]?).map fun session =>
    { session with lock := if op.holds = some s then none else session.lock } := by
  unfold Store.letGo
  cases held : op.holds with
  | none => simp
  | some t =>
      simp only [List.getElem?_modify]
      by_cases same : t = s <;> cases store.heap[s]? <;> simp [same]

theorem let_go_cases (state next : State) (o : Nat) (dropped : state.letGo o = some next) :
    ∃ op gone, state.ops[o]? = some op ∧ op.abandoned = some gone ∧
      next = { state with store := state.store.letGo op, ops := state.ops.set o gone } := by
  obtain ⟨op, here, dropped⟩ := Option.bind_eq_some_iff.mp dropped
  obtain ⟨gone, left, rfl⟩ := Option.map_eq_some_iff.mp dropped
  exact ⟨op, gone, here, left, rfl⟩

theorem base_let_go (state next : State) (o : Nat) (base : Base state)
    (dropped : state.letGo o = some next) : Base next := by
  obtain ⟨op, gone, here, left, rfl⟩ := let_go_cases state next o dropped
  obtain ⟨noSession, noLock, notEnrolled, facts⟩ := abandoned_idle op gone left
  have place := let_go_place state.store op
  have kept : ∀ (s : Nat) (session : Session), state.store.heap[s]? = some session →
    (state.store.letGo op).heap[s]? =
      some { session with lock := if op.holds = some s then none else session.lock } := by
    intro s session at_
    rw [place s, at_]
    rfl
  have origin : ∀ (s : Nat) (session' : Session), (state.store.letGo op).heap[s]? = some session' →
    ∃ session : Session,
      state.store.heap[s]? = some session ∧
        session' = { session with lock := if op.holds = some s then none else session.lock } := by
    intro s session' there
    rw [place s] at there
    obtain ⟨session, before, rfl⟩ := Option.map_eq_some_iff.mp there
    exact ⟨session, before, rfl⟩
  constructor
  · intro p q s there known
    rcases Transition.set_cases state.ops o p gone q there with ⟨rfl, rfl⟩ | ⟨_, before⟩
    · rw [noSession] at known
      cases known
    · obtain ⟨session, at_, named⟩ := base.known p q s before known
      exact ⟨_, kept s session at_, named⟩
  · intro p q s there held
    rcases Transition.set_cases state.ops o p gone q there with ⟨rfl, rfl⟩ | ⟨other, before⟩
    · rw [noLock] at held
      cases held
    · obtain ⟨session, at_, owned⟩ := base.locked p q s before held
      have notMine : op.holds ≠ some s := by
        intro mine
        obtain ⟨session', at', owned'⟩ := base.locked o op s here mine
        obtain rfl := Option.some.inj (at_.symm.trans at')
        exact other (Option.some.inj (owned.symm.trans owned'))
      exact ⟨_, kept s session at_, by simpa [notMine] using owned⟩
  · intro p q there enrolled
    rcases Transition.set_cases state.ops o p gone q there with ⟨rfl, rfl⟩ | ⟨other, before⟩
    · rw [notEnrolled] at enrolled
      cases enrolled
    · have owned := base.enrolled p q before enrolled
      have notMine : op.enrolled ≠ true :=
        fun mine => other (Option.some.inj (owned.symm.trans (base.enrolled o op here mine)))
      simpa [Store.letGo, notMine] using owned
  · intro id s present
    obtain ⟨session, at_, named⟩ := base.mapped id s present
    exact ⟨_, kept s session at_, named⟩
  · intro s session' there
    obtain ⟨session, before, rfl⟩ := origin s session' there
    have sound := base.sound s session before
    exact ⟨sound.record, sound.named, sound.owned, sound.finished, sound.token⟩
  · intro s session' there
    obtain ⟨session, before, rfl⟩ := origin s session' there
    exact base.gone s session before
  · exact base.journals
  · intro p q there
    rcases Transition.set_cases state.ops o p gone q there with ⟨rfl, rfl⟩ | ⟨_, before⟩
    · exact facts _
    · refine facts_framed q state.store _ ⟨?_, ?_, fun _ => rfl⟩ (base.facts p q before)
      · intro s session' _ there
        obtain ⟨session, at_, rfl⟩ := origin s session' there
        exact ⟨session, at_, rfl⟩
      · intro s session' _ there
        obtain ⟨session, at_, rfl⟩ := origin s session' there
        exact ⟨session, at_, id⟩
  · exact fun stopped => absurd (base.stopped stopped).1 (List.ne_nil_of_mem (List.mem_of_getElem? here))

-- The records of the journals that are still to be written.
def Later (later : List Act) : Prop := ∀ record saved, .journal record saved ∈ later → record.Sound

structure HostBase (host : Host) : Prop where
  base : Base host.state
  later : Later host.left
  stopped : host.state.running = false → host.left = []

theorem begun_cases (sha256 : Bytes → String) (state busy : State) (o : Nat) (later : List Act)
    (base : Base state) (started : begun sha256 state o = some (busy, later)) :
    Later later ∧ (busy = state ∨ step sha256 state (.advance o (some (.persist false))) = some busy) := by
  obtain ⟨op, here, started⟩ := Option.bind_eq_some_iff.mp started
  split at started
  · rename_i act log op' moved
    obtain ⟨rfl, rfl⟩ : _ = busy ∧ act.postponed = later := by simpa using started
    refine ⟨?_, .inr (by simp [step, here, moved])⟩
    intro record saved member
    have move := op_next_move sha256 _ _ op op' act log moved
    cases act with
    | persist s r written =>
        obtain ⟨rfl, rfl⟩ : record = r ∧ saved = true := by simpa [Act.postponed] using member
        obtain ⟨session, before, change⟩ :=
          moved_change sha256 state.store _ op op' _ log s record (base.facts o op here) move rfl
        exact change_sound session record (base.sound s session before).record change
    | journal r written =>
        obtain ⟨rfl, rfl⟩ : record = r ∧ saved = true := by simpa [Act.postponed] using member
        cases op_effect sha256 state.store _ op op' _ log move with
        | quiet _ _ _ silent => cases silent
        | journal request _ _ => exact request_record_sound request (base.facts o _ here).1
    | _ => cases member
  · obtain ⟨⟨act, log, op'⟩, _, started⟩ := Option.bind_eq_some_iff.mp started
    by_cases onDisk : act.onDisk = true
    · obtain ⟨rfl, rfl⟩ : state = busy ∧ [act] = later := by simpa [onDisk] using started
      refine ⟨fun record saved member => ?_, .inl rfl⟩
      rw [← List.mem_singleton.mp member] at onDisk
      cases onDisk
    · simp [onDisk] at started

theorem settle_memory (store : Store) (act : Act) : (store.settle act).heap = store.heap ∧
    (store.settle act).sessions = store.sessions ∧ (store.settle act).registration = store.registration := by
  unfold Store.settle
  split <;> (try split) <;> exact ⟨rfl, rfl, rfl⟩

theorem settle_doc (store : Store) (act : Act) (path : Path) (record : Record)
    (there : (store.settle act).disk.doc path = some record) :
    store.disk.doc path = some record ∨
    (path = journalPath record.pending.id ∧ ∃ saved, act = .journal record saved) := by
  unfold Store.settle at there
  split at there
  · rename_i r saved
    rcases apply_doc store 0 (.journal r true) path record there with before | ⟨same, ⟨_, wrong⟩ | made⟩
    · exact .inl before
    · cases wrong
    · cases made
      exact .inr ⟨same, saved, rfl⟩
  · exact .inl there
  · rename_i gone
    rcases apply_doc store 0 (.remove gone) path record there with before | ⟨_, ⟨_, wrong⟩ | wrong⟩
    · exact .inl before
    · cases wrong
    · cases wrong
  · exact .inl (mkdirs_doc _ _ _ _ there)
  · rename_i part
    split at there
    · exact .inl there
    · rcases apply_doc store 0 (.openPart part) path record there with before | ⟨_, ⟨_, wrong⟩ | wrong⟩
      · exact .inl before
      · cases wrong
      · cases wrong
  · rename_i inode target
    split at there
    · exact .inl there
    · rcases apply_doc store 0 (.link inode target) path record there with before | ⟨_, ⟨_, wrong⟩ | wrong⟩
      · exact .inl before
      · cases wrong
      · cases wrong
  · exact .inl there

theorem base_settle (state : State) (act : Act) (base : Base state) (later : Later [act]) :
    Base { state with store := state.store.settle act } := by
  obtain ⟨heap, sessions, registration⟩ := settle_memory state.store act
  refine ⟨?_, ?_, ?_, ?_, ?_, ?_, ?_, ?_, fun stopped => ⟨(base.stopped stopped).1, sessions.trans
    (base.stopped stopped).2⟩⟩
  · rw [heap]
    exact base.known
  · rw [heap]
    exact base.locked
  · rw [registration]
    exact base.enrolled
  · rw [heap, sessions]
    exact base.mapped
  · rw [heap]
    exact base.sound
  · rw [heap, sessions]
    exact base.gone
  · intro path record there
    rcases settle_doc state.store act path record there with before | ⟨same, saved, rfl⟩
    · exact base.journals path record before
    · exact ⟨later record saved (List.mem_singleton_self _), same⟩
  · intro o op here
    refine facts_framed op state.store _ ⟨?_, ?_, fun _ => sessions⟩ (base.facts o op here)
    · intro s session _ there
      exact ⟨session, heap ▸ there, rfl⟩
    · intro s session _ there
      exact ⟨session, heap ▸ there, id⟩

theorem host_step_cases (sha256 : Bytes → String) (host next : Host) (label : HostLabel) (inv : HostBase host)
    (stepped : hostStep sha256 host label = some next) :
    (∃ base, label = .label base ∧ step sha256 host.state base = some next.state ∧
      ((base ≠ .crash ∧ next.left = host.left) ∨ (base = .crash ∧ next.left = []))) ∨
    (∃ o, label = .abandon o false ∧ host.state.letGo o = some next.state ∧ next.left = host.left) ∨
    (∃ o busy later, label = .abandon o true ∧ Later later ∧
      (busy = host.state ∨ step sha256 host.state (.advance o (some (.persist false))) = some busy) ∧
      busy.letGo o = some next.state ∧ next.left = later ++ host.left) ∨
    ∃ i act, label = .settle i ∧ host.left[i]? = some act ∧
      next = ⟨{ host.state with store := host.state.store.settle act }, host.left.eraseIdx i⟩ := by
  unfold hostStep at stepped
  split at stepped
  · obtain ⟨state, moved, rfl⟩ := Option.map_eq_some_iff.mp stepped
    exact .inl ⟨.crash, rfl, moved, .inr ⟨rfl, rfl⟩⟩
  · rename_i other
    obtain ⟨state, moved, rfl⟩ := Option.map_eq_some_iff.mp stepped
    exact .inl ⟨_, rfl, moved, .inl ⟨other, rfl⟩⟩
  · obtain ⟨state, dropped, rfl⟩ := Option.map_eq_some_iff.mp stepped
    exact .inr (.inl ⟨_, rfl, dropped, rfl⟩)
  · rename_i o
    obtain ⟨⟨busy, later⟩, started, stepped⟩ := Option.bind_eq_some_iff.mp stepped
    obtain ⟨state, dropped, rfl⟩ := Option.map_eq_some_iff.mp stepped
    obtain ⟨sound, from_⟩ := begun_cases sha256 host.state busy o later inv.base started
    exact .inr (.inr (.inl ⟨o, busy, later, rfl, sound, from_, dropped, rfl⟩))
  · obtain ⟨act, at_, rfl⟩ := Option.map_eq_some_iff.mp stepped
    exact .inr (.inr (.inr ⟨_, act, rfl, at_, rfl⟩))

theorem let_go_running (state next : State) (o : Nat) (dropped : state.letGo o = some next) :
    next.running = state.running := by
  obtain ⟨op, gone, _, _, rfl⟩ := let_go_cases state next o dropped
  rfl

theorem host_base_step (sha256 : Bytes → String) (host next : Host) (label : HostLabel) (inv : HostBase host)
    (stepped : hostStep sha256 host label = some next) : HostBase next := by
  have occupied : ∀ (state state' : State) (o : Nat), Base state → state.letGo o = some state' →
    state'.running = true := by
    intro state state' o base dropped
    obtain ⟨op, _, here, _, _⟩ := let_go_cases state state' o dropped
    exact (let_go_running state state' o dropped).trans (base_running state base o op here)
  rcases host_step_cases sha256 host next label inv stepped with ⟨moved, rfl, stepped, left⟩ |
    ⟨o, rfl, dropped, left⟩ |
    ⟨o, busy, later, rfl, sound, from_, dropped, left⟩ | ⟨i, act, rfl, at_, rfl⟩
  · have base := base_step sha256 host.state next.state moved inv.base stepped
    rcases left with ⟨noCrash, same⟩ | ⟨_, none_⟩
    · refine ⟨base, same ▸ inv.later, fun stopped => ?_⟩
      rcases step_cases sha256 host.state next.state moved stepped with ⟨_, _, running, rest⟩ |
        ⟨o, _, op, _, _, _, _, here, _, rest⟩ |
        ⟨crash, _, _⟩ | ⟨_, _, _, _, rest⟩
      · rw [rest] at stopped
        exact Bool.noConfusion (running.symm.trans stopped)
      · rw [rest] at stopped
        exact Bool.noConfusion ((base_running host.state inv.base o op here).symm.trans stopped)
      · exact absurd crash noCrash
      · rw [rest] at stopped
        cases stopped
    · exact ⟨base, by simp [none_, Later], fun _ => none_⟩
  · exact ⟨base_let_go host.state next.state o inv.base dropped, left ▸ inv.later,
      fun stopped => Bool.noConfusion ((occupied _ _ o inv.base dropped).symm.trans stopped)⟩
  · have busyBase : Base busy := by
      rcases from_ with rfl | struck
      · exact inv.base
      · exact base_step sha256 host.state busy _ inv.base struck
    refine ⟨base_let_go busy next.state o busyBase dropped, ?_,
      fun stopped => Bool.noConfusion ((occupied _ _ o busyBase dropped).symm.trans stopped)⟩
    intro record saved member
    rw [left] at member
    rcases List.mem_append.mp member with new | old
    · exact sound record saved new
    · exact inv.later record saved old
  · have member := List.mem_of_getElem? at_
    refine ⟨base_settle host.state act inv.base fun record saved same => ?_, fun record saved old => ?_,
      fun stopped => ?_⟩
    · exact inv.later record saved (List.mem_singleton.mp same ▸ member)
    · exact inv.later record saved (List.mem_of_mem_eraseIdx old)
    · rw [inv.stopped stopped] at member
      cases member

theorem initial_host (state : State) (initial : Initial state) : HostBase ⟨state, []⟩ :=
  ⟨initial_base state initial, fun _ _ member => (by cases member), fun _ => rfl⟩

end GoshTransfer
