import GoshTransfer.Integrity

set_option autoImplicit false

namespace GoshTransfer

open InodeStore

-- The destination entries created on behalf of one file of one session, oldest first.
def publications (id file : String) (log : List Entry) : List Path :=
  log.filterMap fun entry =>
    match entry with
    | .linked session name target => if session = id ∧ name = file then some target else none
    | _ => none

-- Reads of existing files succeed.
def readable : Label → Bool
  | .advance _ fault => fault != some .read
  | _ => true

def publishingRun (label : Label) : Bool := forgetFree label && readable label

-- A receipt names the target the session has kept.
def Record.Aligned (record : Record) : Prop :=
  ∀ file path, record.published.lookup file = some path → record.targets.lookup file = some path

-- The entry that was created for a file: its name is kept in the journal and in
-- memory, and its content is the declared one, so that every retry comes back to it.
structure Entered (sha256 : Bytes → String) (id file : String) (path : Path) (state : State) : Prop where
  outside : Outside path
  present : state.running = true → state.store.sessions.lookup id ≠ none
  named : id ≠ ""
  journal : ∃ journal declared bytes, state.store.disk.doc (journalPath id) = some journal ∧
    declared ∈ journal.manifest.request.files ∧ declared.id = file ∧ state.store.disk.read path = some bytes ∧
    verified sha256 journal declared bytes = true ∧ journal.targets.lookup file = some path
  memory : ∀ (s : Nat) (session : Session), state.store.sessions.lookup id = some s →
    state.store.heap[s]? = some session →
    session.record.targets.lookup file = some path

structure Published (sha256 : Bytes → String) (id file : String) (state : State) : Prop where
  aligned : ∀ record, Listed state.store record → record.Aligned
  planned : ∀ (o : Nat) (request : UploadRequest) (s : Nat) (x : Incoming) (index : Nat) (target : Path)
    (session : Session),
    state.ops[o]? = some (.upload request (.link s x index target)) → state.store.heap[s]? = some session →
      ∃ journal, state.store.disk.doc (journalPath session.id) = some journal ∧
        journal.targets.lookup x.file.id = some target
  once : publications id file state.log = [] ∨
    ∃ path, publications id file state.log = [path] ∧ Entered sha256 id file path state

theorem write_aligned (state : State) (base : Base state) (o : Nat) (fault : Option Fault) (op : Op)
    (act : Act) (here : state.ops[o]? = some op) (s : Nat) (session : Session) (record : Record)
    (at_ : state.store.heap[s]? = some session) (write : Write fault s session op act record)
    (aligned : session.record.Aligned) : record.Aligned := by
  intro file path published
  cases write with
  | choose request x index saved struck =>
      have working := (base.facts o _ here s session rfl at_).1
      have different : file ≠ x.file.id := by
        rintro rfl
        rw [show (chosenRecord session.record x.file index).published = session.record.published from rfl,
          working.missing] at published
        cases published
      rw [chosen_lookup, if_neg different]
      exact aligned file path published
  | drop request x index target =>
      have working := (base.facts o _ here s session rfl at_).1
      have different : file ≠ x.file.id := by
        rintro rfl
        rw [show (droppedRecord session.record x.file).published = session.record.published from rfl,
          working.missing] at published
        cases published
      rw [dropped_lookup, if_neg different]
      exact aligned file path published
  | receipt request x target saved struck =>
      have planned := (base.facts o _ here s session rfl at_).2.2.2
      rw [receipt_lookup] at published
      split at published
      · rename_i same
        obtain rfl := Option.some.inj published
        rw [same]
        exact planned
      · exact aligned file path published
  | _ => exact aligned file path published

theorem publications_append (id file : String) (log more : List Entry) :
    publications id file (log ++ more) = publications id file log ++ publications id file more :=
      List.filterMap_append

theorem publication_log (sha256 : Bytes → String) (store : Store) (fault : Option Fault) (op op' : Op)
    (act : Act) (log : List Entry) (moved : OpMove sha256 store fault op act log op') (id file : String) :
    publications id file log = [] ∨
      ∃ request s x index target inode session, op = .upload request (.link s x index target) ∧
        act = .link inode target ∧
        op' = .upload request (.syncParent s x target) ∧ store.heap[s]? = some session ∧ session.id = id ∧
          x.file.id = file ∧
          publications id file log = [target] ∧ store.disk.node target = none := by
  cases moved with
  | accept id phase next _ _ moved => cases moved <;> exact .inl rfl
  | reject id phase next _ _ moved => cases moved <;> exact .inl rfl
  | cancel caller id phase next _ _ moved => cases moved <;> exact .inl rfl
  | forget id phase next _ _ moved => cases moved <;> exact .inl rfl
  | register request phase next _ _ moved =>
      cases moved with
      | inserted =>
          left
          split <;> rfl
      | _ => exact .inl rfl
  | status peer id phase next _ _ moved => cases moved <;> exact .inl rfl
  | upload request phase next _ _ moved =>
      cases moved with
      | linked s session x index target inode at_ source free =>
          by_cases same : session.id = id ∧ x.file.id = file
          · exact .inr ⟨request, s, x, index, target, inode, session, rfl, rfl, rfl, at_, same.1, same.2,
              by simp [publications, same], free⟩
          · exact .inl (by simp [publications, same])
      | appended s session x chunk rest at_ fits clear =>
          left
          unfold grownLog progressLog
          split <;> rfl
      | unseen s session x chunk rest written at_ fits clear short failed last =>
          left
          unfold grownLog progressLog
          split <;> rfl
      | announced s session x at_ =>
          left
          unfold completionLog
          split <;> rfl
      | _ => exact .inl rfl

section Step

variable (sha256 : Bytes → String) (state : State) (steady : Steady sha256 state) (o : Nat)
    (fault : Option Fault)
variable (op op' : Op) (act : Act) (log : List Entry) (here : state.ops[o]? = some op)
variable (moved : OpMove sha256 state.store fault op act log op')
include steady here moved

theorem aligned_advance (aligned : ∀ record, Listed state.store record → record.Aligned) :
    ∀ record, Listed (state.store.apply o act) record → record.Aligned := by
  intro record listed
  rcases listed_origin sha256 state steady.kempt.base o fault op op' act log here moved record listed with
    old | ⟨s, session, at_, write⟩ | ⟨request, _, _, rfl⟩
  · exact aligned record old
  · exact write_aligned state steady.kempt.base o fault op act here s session record at_ write
      (aligned session.record (.inl ⟨s, session, at_, rfl⟩))
  · intro file path published
    simp [RegisterRequest.record] at published

theorem planned_advance
    (planned : ∀ (p : Nat) (request : UploadRequest) (s : Nat) (x : Incoming) (index : Nat) (target : Path)
      (session : Session), state.ops[p]? = some (.upload request (.link s x index target)) →
        state.store.heap[s]? = some session →
      ∃ journal, state.store.disk.doc (journalPath session.id) = some journal ∧
        journal.targets.lookup x.file.id = some target) :
    ∀ (p : Nat) (request : UploadRequest) (s : Nat) (x : Incoming) (index : Nat) (target : Path)
    (session : Session),
      (state.ops.set o op')[p]? = some (.upload request (.link s x index target)) →
      (state.store.apply o act).heap[s]? = some session →
        ∃ journal, (state.store.apply o act).disk.doc (journalPath session.id) = some journal ∧
        journal.targets.lookup x.file.id = some target := by
  intro p request s x index target session' there after
  rcases Transition.set_cases state.ops o p op' _ there with ⟨rfl, rfl⟩ | ⟨other, before⟩
  · cases moved with
    | upload _ phase _ _ _ moved =>
        cases moved with
        | chosen _ session _ _ at_ bounded ok =>
            obtain rfl := Option.some.inj (after.symm.trans (apply_heap state.store p _ s session at_))
            rw [on_id]
            refine ⟨_, persisted_journal sha256 state steady.kempt.base p fault _ _ _ _ here
              (.upload _ _ _ _ _ (.chosen s session x index at_ bounded ok)) s session _ rfl at_, ?_⟩
            rw [chosen_lookup, if_pos rfl]
  · obtain ⟨session, at_, _⟩ := steady.kempt.base.locked p _ s before rfl
    obtain rfl := Option.some.inj (after.symm.trans (apply_heap state.store o act s session at_))
    have present := steady.kept.mapped s session at_
    have fresh := orderly_fresh state _ (kept_orderly state steady.kept (.advance o fault))
    obtain ⟨same, _⟩ :=
      files_guarded sha256 state steady.kempt.base steady.kempt.owned o fault op op' act log here fresh
        moved p _ s other
      before rfl session.id present
    rw [on_id, same]
    exact planned p request s x index target session before at_

theorem entry_target_kept (unbroken : fault ≠ some .read) (id file : String) (path : Path)
    (entered : Entered sha256 id file path state) (s : Nat) (session : Session) (record : Record)
    (at_ : state.store.heap[s]? = some session) (named : session.id = id)
    (write : Write fault s session op act record) : record.targets.lookup file = some path := by
  have present := steady.kept.mapped s session at_
  rw [named] at present
  have target := entered.memory s session present at_
  cases write with
  | choose request x index saved struck =>
      rw [chosen_lookup]
      split
      · rename_i same
        rw [same] at target
        simp [targetOf, target]
      · exact target
  | drop request x index dropped =>
      rw [dropped_lookup]
      split
      · rename_i same
        exfalso
        obtain ⟨working, _, _, planned⟩ := steady.kempt.base.facts o _ here s session rfl at_
        obtain rfl : dropped = path := by
          rw [← same, target] at planned
          exact (Option.some.inj planned).symm
        obtain ⟨journal, declared, bytes, written, member, declaredId, read, matching, _⟩ := entered.journal
        obtain ⟨_, journal', written', manifest⟩ :=
          working_journal state steady.kempt o _ here s session rfl at_
        rw [named] at written'
        obtain rfl := Option.some.inj (written.symm.trans written')
        rw [manifest] at member
        obtain rfl :=
          valid_file_unique _ (steady.kempt.base.sound s session at_).record.valid declared x.file member
            working.member
          (declaredId.trans same)
        rw [verified_same sha256 _ _ _ bytes manifest] at matching
        generalize assigned : Act.assign s (droppedRecord session.record x.file) = act at moved
        cases moved with
        | upload _ _ _ _ _ moved =>
            cases moved with
            | adopted _ _ _ _ _ _ _ _ _ => cases assigned
            | refuse _ _ _ _ _ _ => cases assigned
            | conflict _ session' _ _ _ there different =>
                obtain rfl := Option.some.inj (at_.symm.trans there)
                rcases different with broken | different
                · exact unbroken broken
                · simp [read, matching] at different
      · exact target
  | _ => exact target

theorem entered_advance (unbroken : fault ≠ some .read) (id file : String) (path : Path)
    (entered : Entered sha256 id file path state) :
    Entered sha256 id file path
      { state with store := state.store.apply o act, ops := state.ops.set o op', log := state.log ++ log } := by
  have base := steady.kempt.base
  obtain ⟨s, present⟩ := Option.ne_none_iff_exists'.mp (entered.present (base_running state base o op here))
  have stays : (state.store.apply o act).sessions.lookup id = some s := by
    rcases lookup_kept sha256 state base o fault op op' act log here moved id s present with same | rfl
    · exact same
    · exact absurd here (steady.kept.noForget o id _)
  have kept := entry_target_kept sha256 state steady o fault op op' act log here moved unbroken id file path
    entered
  refine ⟨entered.outside, fun _ absent => Option.some_ne_none s (stays.symm.trans absent), entered.named,
    ?_, ?_⟩
  · obtain ⟨journal, declared, bytes, written, member, declaredId, read, matching, target⟩ := entered.journal
    have read' :=
      outside_read_kept sha256 state steady.kempt steady.intact o fault op op' act log here moved path bytes
        entered.outside read
    rcases journal_cases sha256 state base o fault op op' act log here moved id with
      same | ⟨t, session, record, rfl, mine, at_, named, newer, now⟩ | ⟨request, rfl, rfl, named, now⟩ |
        ⟨_, rfl, _, _, _⟩
    · exact ⟨journal, declared, bytes, same.trans written, member, declaredId, read', matching, target⟩
    · obtain ⟨session', at', write⟩ := moved_write sha256 state.store fault op op' _ log t record moved rfl
      obtain rfl := Option.some.inj (at_.symm.trans at')
      obtain ⟨older, written', forward⟩ := steady.kept.behind t session at_
      rw [named] at written'
      obtain rfl := Option.some.inj (written.symm.trans written')
      have manifest : record.manifest = journal.manifest := (forward.same.1.trans newer.same.1).symm
      exact ⟨record, declared, bytes, now, manifest ▸ member, declaredId, read',
        (verified_same sha256 _ _ declared bytes manifest).trans matching,
        kept t session record at_ named write⟩
    · have absent := (base.facts o _ here).2
      rw [named, present] at absent
      cases absent
    · exact absurd here (steady.kept.noForget o _ _)
  · intro t session' found after
    obtain rfl : s = t := Option.some.inj (stays.symm.trans found)
    rcases apply_heap_origin state.store o act s session' after with ⟨session, at_, rfl⟩ |
      ⟨record, rfl, rfl, rfl⟩
    · rcases on_record_writes act o s session with ⟨record, writes, on⟩ | ⟨_, same⟩
      · obtain ⟨session', at', write⟩ :=
          moved_write sha256 state.store fault op op' act log s record moved writes
        obtain rfl := Option.some.inj (at_.symm.trans at')
        obtain ⟨other, at'', named⟩ := base.mapped id s present
        obtain rfl := Option.some.inj (at_.symm.trans at'')
        rw [on]
        exact kept s session record at_ named write
      · rw [same]
        exact entered.memory s session present at_
    · obtain ⟨session, at_, _⟩ := base.mapped id _ present
      simp at at_

end Step

theorem entered_linked (sha256 : Bytes → String) (state next : State) (steady : Steady sha256 state) (steady' : Steady sha256 next)
    (o : Nat) (request : UploadRequest) (s : Nat) (x : Incoming) (index : Nat) (target : Path) (inode : Nat) (session : Session)
    (log : List Entry) (here : state.ops[o]? = some (.upload request (.link s x index target)))
    (at_ : state.store.heap[s]? = some session)
    (planned : ∃ journal, state.store.disk.doc (journalPath session.id) = some journal ∧ journal.targets.lookup x.file.id = some target)
    (isNext : next = { state with
      store := state.store.apply o (.link inode target), ops := state.ops.set o (.upload request (.syncParent s x target)), log := log }) :
    Entered sha256 session.id x.file.id target next := by
  subst isNext
  have base := steady.kempt.base
  have present := steady.kept.mapped s session at_
  obtain ⟨working, _, _, kept⟩ := base.facts o _ here s session rfl at_
  have outside := (base.sound s session at_).record.targets _ _ kept
  have within := (List.getElem?_eq_some_iff.mp here).1
  obtain ⟨_, bytes, read, matching⟩ := steady'.intact.phases o request (.syncParent s x target) s session
    (List.getElem?_set_self within) rfl at_
  obtain ⟨journal, written, journalTarget⟩ := planned
  obtain ⟨older, written', forward⟩ := steady.kept.behind s session at_
  obtain rfl := Option.some.inj (written.symm.trans written')
  have untouched : (state.store.apply o (.link inode target)).disk.doc (journalPath session.id) = some journal := by
    refine (doc_of_node _ _ _ ?_).trans written
    exact (node_link _ _ _ _).trans (if_neg fun same => outside_ne_journal target session.id outside same.symm)
  refine ⟨outside, fun _ absent => Option.some_ne_none s (present.symm.trans absent), ?_, ?_, ?_⟩
  · intro empty
    have canonical := session_id_length state base s session at_
    rw [empty] at canonical
    cases canonical
  · exact ⟨journal, x.file, bytes, untouched, forward.same.1 ▸ working.member, rfl, read,
      (verified_same sha256 _ _ x.file bytes forward.same.1).trans matching, journalTarget⟩
  · intro t session' found after
    obtain rfl : s = t := Option.some.inj (present.symm.trans found)
    obtain rfl := Option.some.inj (at_.symm.trans after)
    exact kept

theorem published_step (sha256 : Bytes → String) (state next : State) (label : Label)
    (steady : Steady sha256 state) (id file : String) (inv : Published sha256 id file state)
    (allowed : publishingRun label = true) (stepped : step sha256 state label = some next) :
    Published sha256 id file next := by
  obtain ⟨free, unbroken⟩ : forgetFree label = true ∧
    readable label = true := by simpa [publishingRun] using allowed
  have steady' := steady_step sha256 state next label steady free stepped
  rcases step_cases sha256 state next label stepped with ⟨call, rfl, _, rfl⟩ |
    ⟨o, fault, op, act, log, op', rfl, here, moved, rfl⟩ |
    ⟨rfl, _, rfl⟩ | ⟨store, rfl, stopped, loaded, rfl⟩
  · refine ⟨inv.aligned, ?_, ?_⟩
    · intro o request s x index target session there at_
      rcases Transition.append_cases state.ops o call.op _ there with before | new
      · exact inv.planned o request s x index target session before at_
      · cases call <;> cases new
    · rcases inv.once with none_ | ⟨path, one, entered⟩
      · exact .inl none_
      · exact .inr ⟨path, one, entered.outside, entered.present, entered.named, entered.journal,
          entered.memory⟩
  · have unread : fault ≠ some .read := by simpa [readable] using unbroken
    refine ⟨aligned_advance sha256 state steady o fault op op' act log here moved inv.aligned,
      planned_advance sha256 state steady o fault op op' act log here moved inv.planned, ?_⟩
    rw [publications_append]
    rcases publication_log sha256 state.store fault op op' act log moved id file with
      silent | ⟨request, s, x, index, target, inode, session, rfl, rfl, rfl, at_, rfl, rfl, now, absent⟩
    · rw [silent, List.append_nil]
      rcases inv.once with none_ | ⟨path, one, entered⟩
      · exact .inl none_
      · exact .inr ⟨path, one, entered_advance sha256 state steady o fault op op' act log here moved unread
          id file path entered⟩
    · rcases inv.once with none_ | ⟨path, one, entered⟩
      · refine .inr ⟨target, by rw [none_, now]; rfl, ?_⟩
        exact entered_linked sha256 state _ steady steady' o request s x index target inode session _ here at_
          (inv.planned o request s x index target session here at_) rfl
      · -- A second link would have to be at the path of the first, which is taken.
        exfalso
        have kept := (steady.kempt.base.facts o _ here s session rfl at_).2.2.2
        rw [entered.memory s session (steady.kept.mapped s session at_) at_] at kept
        obtain rfl := Option.some.inj kept
        obtain ⟨_, _, bytes, _, _, _, read, _, _⟩ := entered.journal
        obtain ⟨other, found, _⟩ := (read_eq_some _ _ _).mp read
        rw [absent] at found
        cases found
  · refine ⟨?_, by simp, ?_⟩
    · intro record listed
      exact inv.aligned record (listed_crashed state.store record listed)
    · rcases inv.once with none_ | ⟨path, one, entered⟩
      · exact .inl none_
      · exact .inr ⟨path, one, entered.outside, by simp, entered.named, entered.journal,
          by simp [Store.empty]⟩
  · have spec := load_loaded state.store.disk store loaded
    have idle := (steady.kempt.base.stopped stopped).1
    refine ⟨?_, by simp [idle], ?_⟩
    · intro record listed
      exact inv.aligned record (listed_restarted state.store store spec record listed)
    · rcases inv.once with none_ | ⟨path, one, entered⟩
      · exact .inl none_
      · obtain ⟨journal, declared, bytes, written, member, declaredId, read, matching, target⟩ :=
          entered.journal
        obtain ⟨s, present, made⟩ := spec.covered id journal entered.named written
        refine .inr ⟨path, one, entered.outside, by simp [present], entered.named,
          ⟨journal, declared, bytes, spec.same ▸ written, member, declaredId, spec.same ▸ read, matching,
          target⟩, ?_⟩
        intro t session found at_
        obtain rfl : s = t := Option.some.inj (present.symm.trans found)
        obtain rfl := Option.some.inj (made.symm.trans at_)
        exact target

theorem initial_published (sha256 : Bytes → String) (id file : String) (state : State)
    (initial : Initial state) :
    Published sha256 id file state := by
  refine ⟨?_, by simp [initial.idle], .inl (by simp [publications, initial.silent])⟩
  intro record listed
  exact absurd listed (initial_unlisted state initial record)

theorem listed_target (sha256 : Bytes → String) (state : State) (steady : Steady sha256 state)
    (id file : String) (path : Path) (entered : Entered sha256 id file path state) (record : Record)
    (listed : Listed state.store record) (named : record.pending.id = id) :
    record.targets.lookup file = some path := by
  rcases listed with ⟨s, session, at_, rfl⟩ | ⟨journalId, written⟩
  · have owned := (steady.kempt.base.sound s session at_).named
    exact entered.memory s session (named ▸ owned ▸ steady.kept.mapped s session at_) at_
  · obtain ⟨_, place⟩ := steady.kempt.base.journals _ record written
    obtain ⟨journal, _, _, kept, _, _, _, _, target⟩ := entered.journal
    rw [place, named] at written
    obtain rfl := Option.some.inj (kept.symm.trans written)
    exact target

-- However often a publication is interrupted and retried, one entry is created
-- at most, and a receipt names it or, when there is none, an equal file.
theorem published_at_most_once (sha256 : Bytes → String)
    (collisionFree : ∀ a b, sha256 a = sha256 b → a = b) (start final : State) (initial : Initial start)
    (run : Transition.Run (step sha256) (fun _ label => publishingRun label = true) start final)
    (id file : String) :
    (publications id file final.log).length ≤ 1 ∧
    ∀ record, Listed final.store record → record.pending.id = id →
      ∀ path, record.published.lookup file = some path →
      publications id file final.log = [path] ∨
      (publications id file final.log = [] ∧
        ∃ declared bytes, declared ∈ record.manifest.request.files ∧ declared.id = file ∧
          final.store.disk.read path = some bytes ∧
          ∀ source, verified sha256 record declared source = true → source = bytes) := by
  obtain ⟨steady, inv⟩ := Transition.run_invariant (step sha256) _ (fun state => Steady sha256 state ∧
    Published sha256 id file state)
    (fun state label next good allowed stepped => by
      have free : forgetFree label = true := by
        simp only [publishingRun, Bool.and_eq_true] at allowed
        exact allowed.1
      exact ⟨steady_step sha256 state next label good.1 free stepped,
        published_step sha256 state next label good.1 id file good.2 allowed stepped⟩)
    start final run ⟨initial_steady sha256 start initial, initial_published sha256 id file start initial⟩
  rcases inv.once with none_ | ⟨path, one, entered⟩
  · refine ⟨by simp [none_], ?_⟩
    intro record listed _ path published
    obtain ⟨declared, bytes, member, named, read, matching⟩ :=
      listed_delivered sha256 final steady.intact record listed file path published
    refine .inr ⟨none_, declared, bytes, member, named, read, ?_⟩
    intro source same
    have digest := (verified_size sha256 record declared bytes matching).1
    rw [(verified_size sha256 record declared source same).1] at digest
    exact collisionFree source bytes (Option.some.inj digest)
  · refine ⟨by simp [one], ?_⟩
    intro record listed named other published
    have target := listed_target sha256 final steady id file path entered record listed named
    rw [inv.aligned record listed file other published] at target
    obtain rfl := Option.some.inj target
    exact .inl one

-- A digest without collisions that is right on one content.
def markedHash (known : Bytes) (digest : String) (bytes : Bytes) : String :=
  if bytes = known then digest else .ofList ('-' :: bytes.map Char.ofUInt8)

theorem marked_hash_injective (known : Bytes) (digest : String) (unmarked : digest.toList.head? ≠ some '-')
    (a b : Bytes) (same : markedHash known digest a = markedHash known digest b) : a = b := by
  have char : Function.Injective Char.ofUInt8 := by
    intro x y equal
    have values : x.toUInt32.toNat = y.toUInt32.toNat := congrArg (fun c : Char => c.val.toNat) equal
    simp only [UInt8.toNat_toUInt32] at values
    exact UInt8.toNat_inj.mp values
  have start : ∀ rest, digest ≠ String.ofList ('-' :: rest) := by
    rintro rest rfl
    simp at unmarked
  by_cases knownA : a = known <;> by_cases knownB : b = known
  · rw [knownA, knownB]
  · simp only [markedHash, knownA, knownB, if_true, if_false] at same
    exact absurd same (start _)
  · simp only [markedHash, knownA, knownB, if_true, if_false] at same
    exact absurd same.symm (start _)
  · simp only [markedHash, knownA, knownB, if_false] at same
    have lists := String.ofList_injective same
    exact List.map_injective_iff.mpr char (List.cons.inj lists).2

-- Right on the empty file.
def plainHash (bytes : Bytes) : String :=
  if bytes = [] then emptyDigest else .ofList ('-' :: bytes.map Char.ofUInt8)

theorem plain_hash_injective (a b : Bytes) (same : plainHash a = plainHash b) : a = b :=
  marked_hash_injective [] emptyDigest (by simp [emptyDigest]) a b same

-- The receiver crashes after the link; the second upload adopts the entry.
theorem interrupted_publication_is_adopted : ∃ final,
    Transition.Run (step plainHash) (fun _ label => publishingRun label = true) emptyState final ∧
      publications smallId smallFile.id final.log = [["a"]] ∧
        ∃ session : Session, final.store.heap[0]? = some session ∧
          session.record.published.lookup smallFile.id = some ["a"] := by
  obtain ⟨final, run, checked⟩ :=
    Transition.replay_reaches (step plainHash) (fun _ label => publishingRun label = true)
    (.start :: .call (.register (smallRegister true)) :: advances 0 7 ++ .call (.upload smallUpload) ::
      advances 1 12 ++ .crash :: .start :: .call (.upload smallUpload) :: advances 0 15) emptyState
    (fun final => publishedSmall 0 [] final && (final.store.heap[0]?).any (·.record.pending.id == smallId) &&
      publications smallId smallFile.id final.log != []) (by decide +kernel)
  simp only [Bool.and_eq_true, bne_iff_ne] at checked
  obtain ⟨⟨published, owner⟩, created⟩ := checked
  obtain ⟨session, at_, receipt, _⟩ := published_small_sound 0 [] final published
  have named : session.record.pending.id = smallId := by simpa [at_] using owner
  refine ⟨final, run, ?_, session, at_, receipt⟩
  rcases (published_at_most_once plainHash plain_hash_injective emptyState final empty_initial run smallId
    smallFile.id).2 session.record (.inl ⟨0, session, at_, rfl⟩) named ["a"] receipt with one | ⟨none_, _⟩
  · exact one
  · exact absurd none_ created

end GoshTransfer
