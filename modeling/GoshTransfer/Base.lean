import GoshTransfer.Facts

set_option autoImplicit false

namespace GoshTransfer

open InodeStore

-- The invariant of every run, whatever fails and whatever is interleaved. An
-- object outside the map has reached an outcome: forget evicts no other one.
structure Base (state : State) : Prop where
  known : ∀ (o : Nat) (op : Op) (s : Nat), state.ops[o]? = some op → op.session = some s →
    ∃ session : Session, state.store.heap[s]? = some session ∧ session.id = op.id
  locked : ∀ (o : Nat) (op : Op) (s : Nat), state.ops[o]? = some op → op.holds = some s →
    ∃ session : Session, state.store.heap[s]? = some session ∧ session.lock = some o
  enrolled : ∀ (o : Nat) (op : Op), state.ops[o]? = some op → op.enrolled = true →
    state.store.registration = some o
  mapped : ∀ (id : String) (s : Nat), state.store.sessions.lookup id = some s →
    ∃ session : Session, state.store.heap[s]? = some session ∧ session.id = id
  sound : ∀ (s : Nat) (session : Session), state.store.heap[s]? = some session → session.Sound
  gone : ∀ (s : Nat) (session : Session), state.store.heap[s]? = some session →
    state.store.sessions.lookup session.id = some s ∨ session.record.terminal = true
  journals : ∀ (path : Path) (record : Record), state.store.disk.doc path = some record →
    record.Sound ∧ path = journalPath record.pending.id
  facts : ∀ (o : Nat) (op : Op), state.ops[o]? = some op → op.Facts state.store
  stopped : state.running = false → state.ops = [] ∧ state.store.sessions = ∅

theorem base_running (state : State) (base : Base state) (o : Nat) (op : Op)
    (here : state.ops[o]? = some op) :
    state.running = true := by
  by_contra stopped
  rw [(base.stopped (by simpa using stopped)).1] at here
  cases here

theorem apply_sessions (store : Store) (op : Nat) (act : Act) (noInsert : ∀ record, act ≠ .insert record)
    (noEvict : ∀ id, act ≠ .evict id) : (store.apply op act).sessions = store.sessions := by
  cases act with
  | insert record => exact absurd rfl (noInsert record)
  | evict id => exact absurd rfl (noEvict id)
  | persist s record saved => simp [Store.apply, save_sessions, Store.update]
  | journal record saved => simp [Store.apply, save_sessions]
  | _ => rfl

theorem apply_registration (store : Store) (op : Nat) (act : Act) (noEnroll : act ≠ .enroll)
    (noRetire : act ≠ .retire) :
    (store.apply op act).registration = store.registration := by
  cases act with
  | enroll => exact absurd rfl noEnroll
  | retire => exact absurd rfl noRetire
  | persist s record saved => simp [Store.apply, save_registration, Store.update]
  | journal record saved => simp [Store.apply, save_registration]
  | _ => rfl

theorem on_lock (act : Act) (op s : Nat) (session : Session) (noAcquire : act ≠ .acquire s)
    (noRelease : act ≠ .release s) :
    (act.on op s session).lock = session.lock := by
  cases act with
  | acquire t =>
      have other : s ≠ t := fun same => noAcquire (by rw [same])
      simp [Act.on, other]
  | release t =>
      have other : s ≠ t := fun same => noRelease (by rw [same])
      simp [Act.on, other]
  | _ =>
      simp only [Act.on]
      try split <;> rfl

theorem doc_node (disk : ReceiverDisk) (path : Path) (record : Record) :
    disk.doc path = some record ↔ disk.node path = some (.doc record) := by
  unfold Disk.doc
  split <;> simp_all

theorem mkdirs_doc (paths : List Path) (disk : ReceiverDisk) (path : Path) (record : Record)
    (there : (paths.foldl Disk.mkdir disk).doc path = some record) : disk.doc path = some record := by
  induction paths generalizing disk with
  | nil => exact there
  | cons dir rest ih =>
      have earlier := (doc_node _ _ _).mp (ih (disk.mkdir dir) there)
      rw [node_mkdir] at earlier
      split at earlier
      · rename_i same
        subst same
        cases found : disk.node path with
        | none => simp [found] at earlier
        | some node => exact (doc_node _ _ _).mpr (by simpa [found] using earlier)
      · exact (doc_node _ _ _).mpr earlier

theorem save_doc (store : Store) (record other : Record) (saved : Bool) (path : Path)
    (there : (store.save record saved).disk.doc path = some other) :
    store.disk.doc path = some other ∨
    (saved = true ∧ other = record ∧ path = journalPath record.pending.id) := by
  unfold Store.save at there
  split at there
  · rename_i written
    have node := (doc_node _ _ _).mp there
    rw [node_save] at node
    split at node
    · rename_i same
      exact .inr ⟨written, by simpa using node.symm, same⟩
    · exact .inl ((doc_node _ _ _).mpr node)
  · exact .inl there

theorem apply_doc (store : Store) (op : Nat) (act : Act) (path : Path) (record : Record)
    (there : (store.apply op act).disk.doc path = some record) :
    store.disk.doc path = some record ∨
      (path = journalPath record.pending.id ∧
        ((∃ s, act = .persist s record true) ∨ act = .journal record true)) := by
  cases act with
  | persist s r saved =>
      rcases save_doc _ r record saved path there with old | ⟨rfl, rfl, same⟩
      · exact .inl old
      · exact .inr ⟨same, .inl ⟨s, rfl⟩⟩
  | journal r saved =>
      rcases save_doc _ r record saved path there with old | ⟨rfl, rfl, same⟩
      · exact .inl old
      · exact .inr ⟨same, .inr rfl⟩
  | openPart part =>
      have node := (doc_node _ _ _).mp there
      simp only [Store.apply, node_create] at node
      split at node
      · cases node
      · exact .inl ((doc_node _ _ _).mpr node)
  | remove gone =>
      have node := (doc_node _ _ _).mp there
      simp only [Store.apply, node_remove] at node
      split at node
      · cases node
      · exact .inl ((doc_node _ _ _).mpr node)
  | link inode target =>
      have node := (doc_node _ _ _).mp there
      simp only [Store.apply, node_link] at node
      split at node
      · cases node
      · exact .inl ((doc_node _ _ _).mpr node)
  | mkdirs paths => exact .inl (mkdirs_doc paths store.disk path record there)
  | append inode bytes => exact .inl ((doc_node _ _ _).mpr ((doc_node _ _ _).mp there))
  | _ => exact .inl there

theorem upload_own_facts (sha256 : Bytes → String) (request : UploadRequest) (store : Store)
    (fault : Option Fault) (phase next : UploadPhase) (act : Act) (log : List Entry) (o : Nat)
    (moved : UploadMove sha256 request store fault phase act log next)
    (facts : Op.Facts store (.upload request phase)) : Op.Facts (store.apply o act)
      (.upload request next) := by
  intro s session' held there
  have unchanged : ∀ session, store.heap[s]? = some session → act.writes = none →
    session'.record = session.record := by
    intro session here quiet
    rw [Option.some.inj (there.symm.trans (apply_heap store o act s session here)),
    quiet_record act o s session quiet]
  have written : ∀ session record saved, store.heap[s]? = some session →
      act = .persist s record saved ∨ act = .assign s record → session'.record = record := by
    intro session record saved here writes
    have same := Option.some.inj (there.symm.trans (apply_heap store o act s session here))
    rcases writes with rfl | rfl <;> simp [same, Act.on]
  cases moved <;> first
    | trivial
    | (obtain rfl : _ = s := by simpa [UploadPhase.holds] using held)
  case admitted session file here owned live accepted capability member named missing =>
    rw [unchanged session here rfl]
    exact ⟨⟨member, missing, accepted, live.1⟩, named⟩
  case checked session file points point here read found offset =>
    rw [unchanged session here rfl]
    exact facts _ session rfl here
  case created session file baseline current here absent =>
    rw [unchanged session here rfl]
    exact facts _ session rfl here
  case reopened session file baseline current inode here present =>
    rw [unchanged session here rfl]
    exact facts _ session rfl here
  case appended session x chunk rest here fits clear =>
    rw [unchanged session here rfl]
    exact facts _ session rfl here
  case unseen session x chunk rest written here fits clear short failed last =>
    rw [unchanged session here rfl]
    exact facts _ session rfl here
  case bodyEnd x =>
    rcases apply_heap_origin store o .tau _ session' there with ⟨session, here, _⟩ | ⟨record, insert, _⟩
    · rw [unchanged session here rfl]
      exact facts _ session rfl here
    · cases insert
  case synced x full =>
    rcases apply_heap_origin store o .tau _ session' there with ⟨session, here, _⟩ | ⟨record, insert, _⟩
    · rw [unchanged session here rfl]
      exact facts _ session rfl here
    · cases insert
  case hashed session x bytes here read matching =>
    rw [unchanged session here rfl]
    exact facts _ session rfl here
  case rechecked session x here running =>
    rw [unchanged session here rfl]
    exact facts _ session rfl here
  case prepared x allowed =>
    rcases apply_heap_origin store o _ _ session' there with ⟨session, here, _⟩ | ⟨record, insert, _⟩
    · rw [unchanged session here rfl]
      obtain ⟨working, named⟩ := facts _ session rfl here
      exact ⟨working, named, allowed⟩
    · cases insert
  case chosen session x index here bounded ok =>
    rw [written session _ _ here (.inl rfl)]
    obtain ⟨working, named, allowed⟩ := facts _ session rfl here
    exact ⟨⟨working.member, working.missing, working.accepted, working.live⟩, named, allowed,
      by simp [chosen_lookup]⟩
  case linked session x index target inode here source free =>
    rw [unchanged session here rfl]
    exact facts _ session rfl here
  case taken session x index target inode node here source present =>
    rw [unchanged session here rfl]
    exact facts _ session rfl here
  case adopted session x index target bytes here read matching =>
    rw [unchanged session here rfl]
    exact facts _ session rfl here
  case conflict session x index target here different =>
    rw [written session _ true here (.inr rfl)]
    obtain ⟨working, named, allowed, _⟩ := facts _ session rfl here
    exact ⟨⟨working.member, working.missing, working.accepted, working.live⟩, named, allowed⟩
  case parentSynced x target =>
    rcases apply_heap_origin store o .tau _ session' there with ⟨session, here, _⟩ | ⟨record, insert, _⟩
    · rw [unchanged session here rfl]
      exact facts _ session rfl here
    · cases insert
  case committed session x target here ok =>
    rw [written session _ _ here (.inl rfl)]
    exact ⟨by simp [receipt_lookup], (facts _ session rfl here).2.1⟩
  case finished x =>
    rcases apply_heap_origin store o _ _ session' there with ⟨session, here, _⟩ | ⟨record, insert, _⟩
    · rw [unchanged session here rfl]
      exact facts _ session rfl here
    · cases insert
  case discarded session x here =>
    rw [unchanged session here (by simp)]
    exact facts _ session rfl here

theorem forget_own_facts (id : String) (store : Store) (fault : Option Fault) (phase next : ForgetPhase)
    (act : Act) (log : List Entry) (o : Nat) (moved : ForgetMove id store fault phase act log next)
    (facts : Op.Facts store (.forget id phase)) : Op.Facts (store.apply o act) (.forget id next) := by
  cases moved with
  | found s present => exact present
  | locked s session here free => exact facts
  | admitted s session here ended =>
      refine ⟨facts, ?_⟩
      intro session' there
      obtain rfl : session = session' := Option.some.inj (here.symm.trans there)
      exact ⟨ended, fun file member => member⟩
  | discarded s session file rest here =>
      have kept : (store.apply o (removeAct (partPath session.id file) fault)).sessions = store.sessions ∧
          (store.apply o (removeAct (partPath session.id file) fault)).heap = store.heap := by
        rcases remove_act_cases (partPath session.id file) fault with same |
          same <;> rw [same] <;> exact ⟨rfl, rfl⟩
      refine ⟨(congrArg (AList.lookup id) kept.1).trans facts.1, ?_⟩
      intro session' there
      rw [kept.2] at there
      obtain ⟨ended, members⟩ := facts.2 session' there
      exact ⟨ended, fun other member => members other (List.mem_cons_of_mem _ member)⟩
  | erased s present => exact ⟨facts.1, fun session here => (facts.2 session here).1⟩
  | _ => trivial

theorem register_own_facts (request : RegisterRequest) (store : Store) (fault : Option Fault)
    (phase next : RegisterPhase) (act : Act) (log : List Entry) (o : Nat)
    (moved : RegisterMove request store fault phase act log next)
    (facts : Op.Facts store (.register request phase)) : Op.Facts (store.apply o act)
      (.register request next) := by
  cases moved with
  | valid accepted => exact accepted
  | enrolled free => exact facts
  | fresh flag absent => exact ⟨facts, absent⟩
  | created below ok =>
      exact ⟨facts.1, (congrArg (AList.lookup request.id) (save_sessions store _ _)).trans facts.2⟩
  | _ => trivial

theorem cancel_own_facts (caller : Option Peer) (id : String) (store : Store) (fault : Option Fault)
    (phase next : CancelPhase) (act : Act) (log : List Entry) (o : Nat)
    (moved : CancelMove caller id store fault phase act log next)
    (facts : Op.Facts store (.cancel caller id phase)) : Op.Facts (store.apply o act)
      (.cancel caller id next) := by
  cases moved with
  | tripped s =>
      intro session' there
      rcases apply_heap_origin store o (.trip s) s session' there with ⟨session, _, rfl⟩ | ⟨record, insert, _⟩
      · simp [Act.on]
      · cases insert
  | locked s session here free =>
      intro session' there
      obtain rfl := Option.some.inj (there.symm.trans (apply_heap store o (.acquire s) s session here))
      simpa [Act.on] using facts session here
  | cancelled s session points here open_ read ok =>
      intro session' there
      obtain rfl := Option.some.inj (there.symm.trans (apply_heap store o _ s session here))
      simp [Act.on]
  | discarded s session file rest bytes here =>
      have kept : (store.apply o (removeAct (partPath session.id file) fault)).heap = store.heap := by
        rcases remove_act_cases (partPath session.id file) fault with same | same <;> rw [same] <;> rfl
      intro session' there
      rw [kept] at there
      obtain ⟨ended, members⟩ := facts session' there
      exact ⟨ended, fun other member => members other (List.mem_cons_of_mem _ member)⟩
  | _ => trivial

theorem reject_own_facts (id : String) (store : Store) (fault : Option Fault) (phase next : RejectPhase)
    (act : Act) (log : List Entry) (o : Nat) (moved : RejectMove id store fault phase act log next) :
    Op.Facts (store.apply o act) (.reject id next) := by
  cases moved with
  | rejected s session here undecided ok =>
      intro session' there
      obtain rfl := Option.some.inj (there.symm.trans (apply_heap store o _ s session here))
      simp [Act.on]
  | _ => trivial

theorem own_facts (sha256 : Bytes → String) (store : Store) (fault : Option Fault) (op op' : Op) (act : Act)
    (log : List Entry) (o : Nat) (moved : OpMove sha256 store fault op act log op')
    (facts : op.Facts store) : op'.Facts (store.apply o act) := by
  cases moved with
  | accept id phase next _ _ moved => trivial
  | reject id phase next _ _ moved => exact reject_own_facts id store fault phase next act log o moved
  | cancel caller id phase next _ _ moved =>
      exact cancel_own_facts caller id store fault phase next act log o moved facts
  | forget id phase next _ _ moved => exact forget_own_facts id store fault phase next act log o moved facts
  | register request phase next _ _ moved =>
      exact register_own_facts request store fault phase next act log o moved facts
  | status peer id phase next _ _ moved => trivial
  | upload request phase next _ _ moved =>
      exact upload_own_facts sha256 request store fault phase next act log o moved facts

section Advance

variable (sha256 : Bytes → String) (state : State) (base : Base state) (o : Nat) (fault : Option Fault)
    (op op' : Op) (act : Act)
variable (log : List Entry) (here : state.ops[o]? = some op)
    (moved : OpMove sha256 state.store fault op act log op')
include base here moved

-- Mutual exclusion: what others hold does not change.
theorem others_framed (p : Nat) (q : Op) (other : p ≠ o) (there : state.ops[p]? = some q) :
    Framed q state.store (state.store.apply o act) := by
  have rules := op_disciplined state.store fault act log sha256 op op' moved
  refine ⟨?_, ?_, ?_⟩
  · intro s session' held after
    obtain ⟨session, before, owned⟩ := base.locked p q s there held
    obtain rfl := Option.some.inj (after.symm.trans (apply_heap state.store o act s session before))
    refine ⟨session, before, ?_⟩
    rcases on_record_writes act o s session with ⟨record, writes, _⟩ | ⟨_, kept⟩
    · have mine : op.holds = some s := by
        cases act <;> simp_all [Act.writes]
        all_goals exact rules.guarded
      obtain ⟨session', before', ownedByMe⟩ := base.locked o op s here mine
      obtain rfl : session = session' := Option.some.inj (before.symm.trans before')
      rw [owned] at ownedByMe
      exact absurd (Option.some.inj ownedByMe) other
    · exact kept
  · intro s session' known after
    obtain ⟨session, before, _⟩ := base.known p q s there known
    obtain rfl := Option.some.inj (after.symm.trans (apply_heap state.store o act s session before))
    exact ⟨session, before, on_cancel act o s session⟩
  · intro enrolled
    have owned := base.enrolled p q there enrolled
    have exclusive : op.enrolled = false := by
      by_contra mine
      have ownedByMe := base.enrolled o op here (by simpa using mine)
      rw [owned] at ownedByMe
      exact other (Option.some.inj ownedByMe)
    refine apply_sessions state.store o act ?_ ?_
    · rintro record rfl
      have := rules.guarded
      simp [exclusive] at this
    · rintro id rfl
      have := rules.guarded
      simp [exclusive] at this

theorem moved_known : ∀ (p : Nat) (q : Op) (s : Nat), (state.ops.set o op')[p]? = some q →
    q.session = some s →
    ∃ session : Session, (state.store.apply o act).heap[s]? = some session ∧ session.id = q.id := by
  have rules := op_disciplined state.store fault act log sha256 op op' moved
  intro p q s there known
  have carried : ∀ session : Session, state.store.heap[s]? = some session → session.id = q.id →
      ∃ session : Session, (state.store.apply o act).heap[s]? = some session ∧ session.id = q.id := by
    intro session before named
    exact ⟨act.on o s session, apply_heap state.store o act s session before, by simpa using named⟩
  rcases Transition.set_cases state.ops o p op' q there with ⟨rfl, rfl⟩ | ⟨other, before⟩
  · rcases rules.session with same | none | ⟨t, found, present⟩
    · obtain ⟨session, before, named⟩ := base.known p op s here (same ▸ known)
      exact carried session before (named.trans rules.sameId.symm)
    · rw [none] at known
      cases known
    · obtain rfl : t = s := Option.some.inj (found.symm.trans known)
      obtain ⟨session, before, named⟩ := base.mapped op.id t present
      exact carried session before (named.trans rules.sameId.symm)
  · obtain ⟨session, before, named⟩ := base.known p q s before known
    exact carried session before named

theorem moved_locked : ∀ (p : Nat) (q : Op) (s : Nat), (state.ops.set o op')[p]? = some q → q.holds = some s →
    ∃ session : Session, (state.store.apply o act).heap[s]? = some session ∧ session.lock = some p := by
  have rules := (op_disciplined state.store fault act log sha256 op op' moved).holds
  intro p q s there held
  have kept : ∀ session : Session, state.store.heap[s]? = some session → session.lock = some p →
    act ≠ .acquire s → act ≠ .release s →
      ∃ session : Session, (state.store.apply o act).heap[s]? = some session ∧ session.lock = some p := by
    intro session before owned noAcquire noRelease
    exact ⟨act.on o s session, apply_heap state.store o act s session before,
      (on_lock act o s session noAcquire noRelease).trans owned⟩
  rcases Transition.set_cases state.ops o p op' q there with ⟨rfl, rfl⟩ | ⟨other, before⟩
  · by_cases acquired : ∃ t, act = .acquire t
    · obtain ⟨t, rfl⟩ := acquired
      obtain ⟨_, gained, session, before, _⟩ := rules
      obtain rfl : t = s := Option.some.inj (gained.symm.trans held)
      exact ⟨_, apply_heap state.store p _ t session before, by simp [Act.on]⟩
    · by_cases released : ∃ t, act = .release t
      · obtain ⟨t, rfl⟩ := released
        rw [rules.2] at held
        cases held
      · have same : q.holds = op.holds := by
          cases act <;> first | exact rules | exact absurd ⟨_, rfl⟩ acquired | exact absurd ⟨_, rfl⟩ released
        obtain ⟨session, before, owned⟩ := base.locked p op s here (same ▸ held)
        exact kept session before owned (fun equal => acquired ⟨s, equal⟩) (fun equal => released ⟨s, equal⟩)
  · obtain ⟨session, before, owned⟩ := base.locked p q s before held
    refine kept session before owned ?_ ?_
    · rintro rfl
      obtain ⟨_, _, session', before', free⟩ := rules
      obtain rfl : session = session' := Option.some.inj (before.symm.trans before')
      rw [free] at owned
      cases owned
    · rintro rfl
      obtain ⟨session', before', ownedByMe⟩ := base.locked o op s here rules.1
      obtain rfl : session = session' := Option.some.inj (before.symm.trans before')
      rw [owned] at ownedByMe
      exact other (Option.some.inj ownedByMe)

theorem moved_enrolled : ∀ (p : Nat) (q : Op), (state.ops.set o op')[p]? = some q → q.enrolled = true →
    (state.store.apply o act).registration = some p := by
  have rules := (op_disciplined state.store fault act log sha256 op op' moved).enrolled
  intro p q there enrolled
  rcases Transition.set_cases state.ops o p op' q there with ⟨rfl, rfl⟩ | ⟨other, before⟩
  · by_cases entering : act = .enroll
    · subst entering
      rfl
    · by_cases leaving : act = .retire
      · subst leaving
        rw [rules.2] at enrolled
        cases enrolled
      · have same : q.enrolled = op.enrolled := by
          cases act <;> first | exact rules | exact absurd rfl entering | exact absurd rfl leaving
        rw [apply_registration state.store p act entering leaving]
        exact base.enrolled p op here (same ▸ enrolled)
  · have owned := base.enrolled p q before enrolled
    rw [apply_registration state.store o act ?_ ?_]
    · exact owned
    · rintro rfl
      rw [rules] at owned
      cases owned
    · rintro rfl
      rw [base.enrolled o op here rules.1] at owned
      exact other (Option.some.inj owned).symm

theorem moved_session (s : Nat) (session : Session) (before : state.store.heap[s]? = some session) :
    (act.on o s session).Sound ∧ session.record.Forward (act.on o s session).record := by
  have sound := base.sound s session before
  rcases on_record_writes act o s session with ⟨record, writes, on⟩ | ⟨_, kept⟩
  · obtain ⟨session', before', change⟩ := moved_change sha256 state.store fault op op' act log s record
      (base.facts o op here) moved writes
    obtain rfl : session = session' := Option.some.inj (before.symm.trans before')
    rw [on]
    exact ⟨session_change_sound session record sound change, change_forward session record sound.record
      change⟩
  · refine ⟨?_, kept ▸ forward_refl _⟩
    refine ⟨kept ▸ sound.record, by rw [on_id, kept]; exact sound.named, ?_, ?_, ?_⟩
    · rw [kept, ← sound.owned]
      cases act <;> simp only [Act.on] <;> split <;> rfl
    · rw [kept]
      cases act <;> simp only [Act.on] <;> first | exact sound.finished |
        (split <;> first | exact sound.finished | exact id)
    · rw [kept]
      exact fun cancelled => on_cancel act o s session (sound.token cancelled)

theorem insert_fresh (record : Record) (inserted : act = .insert record) :
    record.Sound ∧ state.store.sessions.lookup record.pending.id = none := by
  subst inserted
  cases op_effect sha256 state.store fault op op' _ log moved with
  | quiet _ _ _ silent => cases silent
  | insert request =>
      obtain ⟨valid, absent⟩ := base.facts o _ here
      exact ⟨request_record_sound request valid, absent⟩

theorem evict_terminal (id : String) (evicted : act = .evict id) :
    ∃ s, state.store.sessions.lookup id = some s ∧
    ∀ session, state.store.heap[s]? = some session → session.record.terminal = true := by
  subst evicted
  cases op_effect sha256 state.store fault op op' _ log moved with
  | quiet _ _ _ silent => cases silent
  | evict _ s => exact ⟨s, base.facts o _ here⟩

omit here in
theorem moved_mapped : ∀ (id : String) (s : Nat), (state.store.apply o act).sessions.lookup id = some s →
    ∃ session : Session, (state.store.apply o act).heap[s]? = some session ∧ session.id = id := by
  intro id s present
  have carried : state.store.sessions.lookup id = some s →
      ∃ session : Session, (state.store.apply o act).heap[s]? = some session ∧ session.id = id := by
    intro present
    obtain ⟨session, before, named⟩ := base.mapped id s present
    exact ⟨act.on o s session, apply_heap state.store o act s session before, by simpa using named⟩
  by_cases inserted : ∃ record, act = .insert record
  · obtain ⟨record, rfl⟩ := inserted
    by_cases same : id = record.pending.id
    · subst same
      obtain rfl : state.store.heap.length = s := by simpa [Store.apply] using present
      exact ⟨Session.new record, by simp [Store.apply], rfl⟩
    · exact carried (by simpa [Store.apply, AList.lookup_insert_ne same] using present)
  · by_cases evicted : ∃ id, act = .evict id
    · obtain ⟨gone, rfl⟩ := evicted
      by_cases same : id = gone
      · subst same
        simp [Store.apply] at present
      · exact carried (by simpa [Store.apply, AList.lookup_erase_ne same] using present)
    · rw [apply_sessions state.store o act (fun r equal => inserted ⟨r, equal⟩)
        (fun id equal => evicted ⟨id, equal⟩)] at present
      exact carried present

theorem moved_gone : ∀ (s : Nat) (session : Session), (state.store.apply o act).heap[s]? = some session →
    (state.store.apply o act).sessions.lookup session.id = some s ∨ session.record.terminal = true := by
  intro s session' after
  rcases apply_heap_origin state.store o act s session' after with ⟨session, before, rfl⟩ |
    ⟨record, rfl, rfl, rfl⟩
  · have forward := (moved_session sha256 state base o fault op op' act log here moved s session before).2
    rcases base.gone s session before with present | ended
    · by_cases inserted : ∃ record, act = .insert record
      · obtain ⟨record, rfl⟩ := inserted
        have absent := (insert_fresh sha256 state base o fault op op' _ log here moved record rfl).2
        have different : session.id ≠ record.pending.id := by
          intro same
          rw [same, absent] at present
          cases present
        exact .inl ((AList.lookup_insert_ne different).trans present)
      · by_cases evicted : ∃ id, act = .evict id
        · obtain ⟨id, rfl⟩ := evicted
          obtain ⟨t, found, ended⟩ := evict_terminal sha256 state base o fault op op' _ log here moved id rfl
          by_cases same : session.id = id
          · subst same
            obtain rfl : t = s := Option.some.inj (found.symm.trans present)
            exact .inr (ended session before)
          · exact .inl ((AList.lookup_erase_ne same).trans present)
        · left
          rw [apply_sessions state.store o act (fun r equal => inserted ⟨r, equal⟩)
            (fun id equal => evicted ⟨id, equal⟩)]
          exact (congrArg (state.store.sessions.lookup ·) (on_id act o s session)).trans present
    · exact .inr (forward_terminal _ _ forward ended)
  · exact .inl (by simp [Store.apply, Session.new])

theorem moved_journals : ∀ (path : Path) (record : Record), (state.store.apply o act).disk.doc path =
    some record →
    record.Sound ∧ path = journalPath record.pending.id := by
  intro path record after
  rcases apply_doc state.store o act path record after with before | ⟨same, ⟨s, rfl⟩ | rfl⟩
  · exact base.journals path record before
  · obtain ⟨session, before, change⟩ := moved_change sha256 state.store fault op op' _ log s record
      (base.facts o op here) moved rfl
    exact ⟨change_sound session record (base.sound s session before).record change, same⟩
  · cases op_effect sha256 state.store fault op op' _ log moved with
    | quiet _ _ _ silent => cases silent
    | journal request _ _ =>
        exact ⟨request_record_sound request (base.facts o _ here).1, same⟩

theorem base_advance :
    Base { state with store := state.store.apply o act, ops := state.ops.set o op', log := state.log ++ log } where
  known := moved_known sha256 state base o fault op op' act log here moved
  locked := moved_locked sha256 state base o fault op op' act log here moved
  enrolled := moved_enrolled sha256 state base o fault op op' act log here moved
  mapped := moved_mapped sha256 state base o fault op op' act log moved
  gone := moved_gone sha256 state base o fault op op' act log here moved
  journals := moved_journals sha256 state base o fault op op' act log here moved
  sound := by
    intro s session' after
    rcases apply_heap_origin state.store o act s session' after with ⟨session, before, rfl⟩ |
      ⟨record, inserted, _, rfl⟩
    · exact (moved_session sha256 state base o fault op op' act log here moved s session before).1
    · exact session_new_sound record
        (insert_fresh sha256 state base o fault op op' act log here moved record inserted).1
  facts := by
    intro p q there
    rcases Transition.set_cases state.ops o p op' q there with ⟨rfl, rfl⟩ | ⟨other, before⟩
    · exact own_facts sha256 state.store fault op q act log p moved (base.facts p op here)
    · exact facts_framed q _ _ (others_framed sha256 state base o fault op op' act log here moved p q other
        before) (base.facts p q before)
  stopped := fun stopped => Bool.noConfusion ((base_running state base o op here).symm.trans stopped)

end Advance

theorem call_idle (call : Call) : call.op.session = none ∧ call.op.holds = none ∧ call.op.enrolled = false ∧
    ∀ store, call.op.Facts store := by
  cases call with
  | cancel caller id => cases caller <;> exact ⟨rfl, rfl, rfl, fun _ => trivial⟩
  | upload request => exact ⟨rfl, rfl, rfl, fun _ s session held _ => by cases held⟩
  | _ => exact ⟨rfl, rfl, rfl, fun _ => trivial⟩

theorem base_call (state : State) (base : Base state) (running : state.running = true) (call : Call) :
    Base { state with ops := state.ops ++ [call.op] } := by
  obtain ⟨noSession, noLock, notEnrolled, facts⟩ := call_idle call
  refine ⟨?_, ?_, ?_, base.mapped, base.sound, base.gone, base.journals, ?_, fun stopped => Bool.noConfusion
    (running.symm.trans stopped)⟩
  · intro o op s there known
    rcases Transition.append_cases state.ops o call.op op there with before | rfl
    · exact base.known o op s before known
    · rw [noSession] at known
      cases known
  · intro o op s there held
    rcases Transition.append_cases state.ops o call.op op there with before | rfl
    · exact base.locked o op s before held
    · rw [noLock] at held
      cases held
  · intro o op there enrolled
    rcases Transition.append_cases state.ops o call.op op there with before | rfl
    · exact base.enrolled o op before enrolled
    · rw [notEnrolled] at enrolled
      cases enrolled
  · intro o op there
    rcases Transition.append_cases state.ops o call.op op there with before | rfl
    · exact base.facts o op before
    · exact facts _

theorem base_crash (state : State) (base : Base state) :
    Base { state with store := .empty state.store.disk, ops := [], running := false } := by
  refine ⟨by simp, by simp, by simp, by simp [Store.empty], by simp [Store.empty], by simp [Store.empty],
    base.journals, by simp,
    fun _ => ⟨rfl, rfl⟩⟩

theorem base_start (state : State) (base : Base state) (stopped : state.running = false) (store : Store)
    (loaded : Store.load state.store.disk = .ok store) : Base
    { state with store := store, running := true } := by
  have idle := (base.stopped stopped).1
  have spec := load_loaded state.store.disk store loaded
  refine ⟨by simp [idle], by simp [idle], by simp [idle], ?_, ?_, ?_, ?_, by simp [idle], by simp⟩
  · intro id s present
    obtain ⟨record, here, rfl, _⟩ := spec.mapped id s present
    exact ⟨Session.new record, here, rfl⟩
  · intro s session here
    obtain ⟨made, _, journal⟩ := loaded_session state.store.disk store spec s session here
    rw [made]
    exact session_new_sound session.record (base.journals _ session.record journal).1
  · intro s session here
    exact .inl (loaded_session state.store.disk store spec s session here).2.1
  · intro path record journal
    rw [spec.same] at journal
    exact base.journals path record journal

theorem base_step (sha256 : Bytes → String) (state next : State) (label : Label) (base : Base state)
    (stepped : step sha256 state label = some next) : Base next := by
  rcases step_cases sha256 state next label stepped with ⟨call, _, running, rfl⟩ |
    ⟨o, fault, op, act, log, op', _, here, moved, rfl⟩ |
    ⟨_, _, rfl⟩ | ⟨store, _, stopped, loaded, rfl⟩
  · exact base_call state base running call
  · exact base_advance sha256 state base o fault op op' act log here moved
  · exact base_crash state base
  · exact base_start state base stopped store loaded

theorem initial_base (state : State) (initial : Initial state) : Base state := by
  have empty := initial.fresh
  refine ⟨by simp [initial.idle], by simp [initial.idle], by simp [initial.idle], ?_, ?_, ?_, ?_,
    by simp [initial.idle], ?_⟩
  · rw [empty]
    simp [Store.empty]
  · rw [empty]
    simp [Store.empty]
  · rw [empty]
    simp [Store.empty]
  · intro path record journal
    rw [initial.noJournal path] at journal
    cases journal
  · rw [empty]
    exact fun _ => ⟨initial.idle, rfl⟩

theorem run_base (sha256 : Bytes → String) (allow : State → Label → Prop) (start final : State)
    (initial : Initial start) (run : Transition.Run (step sha256) allow start final) : Base final :=
  Transition.run_invariant (step sha256) allow Base
    (fun state label next good _ stepped => base_step sha256 state next label good stepped) start final run
    (initial_base start initial)

end GoshTransfer
