import GoshTransfer.Authority
import GoshTransfer.Sandbox

set_option autoImplicit false

namespace GoshTransfer

open InodeStore

-- A component that std::path reads as Normal.
def normalName (name : String) : Prop := name ≠ "" ∧ name ≠ "." ∧ name ≠ ".."

theorem normal_path_iff (path : Path) : normalPath path = true ↔ ∀ name ∈ path, normalName name := by
  simp [normalPath, normalName, and_assoc]

theorem safe_normal (name : String) (safe : SafeName name) : normalName name :=
    ⟨safe.nonempty, safe.notDot, safe.notDots⟩

-- Whatever names a peer declares, the destinations upload records pass the
-- check of load.
theorem candidate_normal (file : TransferFile) (index : Nat) : normalPath
    (candidatePath file index) = true := by
  have safe := receive_target_safe file
  rw [normal_path_iff]
  intro name member
  rcases List.mem_append.mp member with above | leaf
  · exact safe_normal name (safe name (List.mem_append_left _ above))
  · obtain rfl : name = candidateName (receiveTarget file).2 index := by simpa using leaf
    exact safe_normal _ (candidate_name_safe _ index (safe _ (by simp)))

def Op.ended : Op → Bool
  | .accept _ (.done _) | .reject _ (.done _) | .cancel _ _ (.done _) | .cancel _ _ .foreign |
      .forget _ (.done _)
  | .register _ (.done _) | .status _ _ (.done _) | .upload _ (.done _) => true
  | _ => false

-- One call after the other, and no persist fails.
def sequential (state : State) : Label → Bool
  | .call _ => state.ops.all Op.ended
  | .advance _ (some (.persist _)) => false
  | _ => true

-- Everything but the planned destinations.
structure Record.Agrees (journal record : Record) : Prop where
  identity : journal.SameIdentity record
  decision : journal.decision = record.decision
  cancelled : journal.cancelled = record.cancelled
  complete : journal.complete = record.complete
  published : journal.published = record.published

def Record.Normal (record : Record) : Prop :=
  ∀ file path, record.targets.lookup file = some path ∨ record.published.lookup file = some path →
    normalPath path = true

-- Between two calls memory and journals say the same, and nothing in the state
-- directory can stop load.
structure Synced (state : State) : Prop where
  alone : ∀ (o p : Nat) (op q : Op), state.ops[o]? = some op → state.ops[p]? = some q → op.ended = false →
    q.ended = false → p = o
  current : ∀ (o : Nat) (op : Op) (s : Nat), state.ops[o]? = some op → op.session = some s →
    (∀ id phase, op ≠ .forget id phase) →
    state.store.sessions.lookup op.id = some s
  agrees : ∀ (id : String) (s : Nat) (session : Session), state.store.sessions.lookup id = some s →
    state.store.heap[s]? = some session →
    (∃ o : Nat, state.ops[o]? = some (.forget id (.evict s))) ∨
      ∃ journal, state.store.disk.doc (journalPath id) = some journal ∧ journal.Agrees session.record
  erased : ∀ (o : Nat) (id : String) (s : Nat), state.ops[o]? = some (.forget id (.evict s)) →
    state.store.disk.doc (journalPath id) = none
  covered : state.running = true → ∀ (id : String) (record : Record), state.store.disk.doc
    (journalPath id) = some record →
    state.store.sessions.lookup id ≠ none ∨
      ∃ (o : Nat) (request : RegisterRequest), state.ops[o]? = some (.register request .insert) ∧
        request.id = id
  inside : ∀ (path : Path) (node : Node Record), ¬ Outside path → state.store.disk.node path = some node →
    (∃ record, node = .doc record) ∨ ∃ id file, path = partPath id file
  normal : ∀ record, Listed state.store record → record.Normal

theorem ended_idle (op : Op) (over_ : op.ended = true) : op.session = none := by
  cases op with
  | accept id phase => cases phase <;> first | rfl | cases over_
  | reject id phase => cases phase <;> first | rfl | cases over_
  | cancel caller id phase => cases phase <;> first | rfl | cases over_
  | forget id phase => cases phase <;> first | rfl | cases over_
  | register request phase => cases phase <;> first | rfl | cases over_
  | status peer id phase => cases phase <;> first | rfl | cases over_
  | upload request phase => cases phase <;> first | rfl | cases over_

theorem session_active (op : Op) (s : Nat) (known : op.session = some s) : op.ended = false := by
  by_contra over_
  rw [ended_idle op (by simpa using over_)] at known
  cases known

theorem moved_active (sha256 : Bytes → String) (store : Store) (fault : Option Fault) (op op' : Op)
    (act : Act) (log : List Entry) (moved : OpMove sha256 store fault op act log op') : op.ended = false := by
  cases moved with
  | accept id phase next _ _ moved => cases moved <;> rfl
  | reject id phase next _ _ moved => cases moved <;> rfl
  | cancel caller id phase next _ _ moved =>
      cases moved with
      | unknown _ early absent => rcases early with rfl | rfl <;> rfl
      | _ => rfl
  | forget id phase next _ _ moved => cases moved <;> rfl
  | register request phase next _ _ moved => cases moved <;> rfl
  | status peer id phase next _ _ moved => cases moved <;> rfl
  | upload request phase next _ _ moved =>
      cases moved with
      | refuse s _ reply held fallible code => cases phase <;> first | rfl | cases held
      | _ => rfl

theorem agrees_refl (record : Record) : record.Agrees record := ⟨⟨rfl, rfl, rfl, rfl⟩, rfl, rfl, rfl, rfl⟩

theorem sequential_fresh (state : State) (base : Base state) (synced : Synced state) (label : Label) :
    staleFree state label = true := by
  cases label with
  | advance o fault =>
      have present : ∀ op s, state.ops[o]? = some op → op.session = some s →
        (∀ id phase, op ≠ .forget id phase) →
          state.store.current s = true := by
        intro op s here known kind
        obtain ⟨session, at_, named⟩ := base.known o op s here known
        rw [current_iff state.store s session at_, named]
        exact synced.current o op s here known kind
      unfold staleFree
      dsimp only
      split
      · rename_i id s here
        simp [present _ s here rfl (by simp)]
      · rename_i caller id s here
        simp [present _ s here rfl (by simp)]
      · rfl
  | _ => rfl

section Advance

variable (sha256 : Bytes → String) (state : State) (base : Base state) (owned : Owned state)
    (synced : Synced state) (o : Nat)
variable (fault : Option Fault) (op op' : Op) (act : Act) (log : List Entry) (here : state.ops[o]? = some op)
variable (unbroken : sequential state (.advance o fault) = true)
    (moved : OpMove sha256 state.store fault op act log op')
include base synced here moved

omit base in
theorem only_mover (p : Nat) (q : Op) (other : p ≠ o) (there : state.ops[p]? = some q) : q.ended = true := by
  by_contra running
  exact other (synced.alone o p op q here there (moved_active sha256 state.store fault op op' act log moved)
    (by simpa using running))

theorem synced_current (p : Nat) (q : Op) (s : Nat) (there : (state.ops.set o op')[p]? = some q)
    (known : q.session = some s) (kind : ∀ id phase, q ≠ .forget id phase) :
    (state.store.apply o act).sessions.lookup q.id = some s := by
  rcases Transition.set_cases state.ops o p op' q there with ⟨rfl, rfl⟩ | ⟨other, before⟩
  · have rules := op_disciplined state.store fault act log sha256 op q moved
    have notForget : ∀ id phase, op ≠ .forget id phase := by
      rintro id phase rfl
      cases moved with
      | forget _ _ next _ _ _ => exact kind id next rfl
    have found : state.store.sessions.lookup op.id = some s := by
      rcases rules.session with same | none_ | ⟨t, found, present⟩
      · exact synced.current p op s here (same ▸ known) notForget
      · rw [none_] at known
        cases known
      · rw [present, ← found, known]
    rw [rules.sameId]
    rcases lookup_kept sha256 state base p fault op q act log here moved op.id s found with kept | evicting
    · exact kept
    · exact absurd evicting (notForget _ _)
  · have over_ := only_mover sha256 state synced o fault op op' act log here moved p q other before
    rw [ended_idle q over_] at known
    cases known

include unbroken owned

omit synced here moved base owned in
theorem persist_struck (saved : Bool) (struck : Struck fault saved) : saved = true := by
  rcases struck with ⟨_, done⟩ | broken
  · exact done
  · rw [broken] at unbroken
    cases unbroken

omit owned synced in
theorem write_agrees (s : Nat) (session : Session) (record : Record)
    (at_ : state.store.heap[s]? = some session) (writes : act.writes = some (s, record)) (journal : Record)
    (written : state.store.disk.doc (journalPath session.id) = some journal)
    (agreed : journal.Agrees session.record) :
    ∃ now, (state.store.apply o act).disk.doc (journalPath session.id) = some now ∧ now.Agrees record := by
  obtain ⟨session', at', write⟩ := moved_write sha256 state.store fault op op' act log s record moved writes
  obtain rfl := Option.some.inj (at_.symm.trans at')
  have saved : ∀ kept, Struck fault kept → act = .persist s record kept →
      ∃ now, (state.store.apply o act).disk.doc (journalPath session.id) = some now ∧ now.Agrees record := by
    intro kept struck persists
    rw [persist_struck state o fault unbroken kept struck] at persists
    exact ⟨record, persisted_journal sha256 state base o fault op op' act log here moved s session record
      persists at_, agrees_refl record⟩
  cases write with
  | accept id kept struck open_ => exact saved kept struck rfl
  | reject id kept struck undecided => exact saved kept struck rfl
  | cancel caller id kept struck running live => exact saved kept struck rfl
  | choose request x index kept struck => exact saved kept struck rfl
  | receipt request x target kept struck => exact saved kept struck rfl
  | drop request x index target =>
      refine ⟨journal, ?_, agreed.identity, agreed.decision, agreed.cancelled, agreed.complete,
        agreed.published⟩
      exact (journal_untouched sha256 state base o fault _ _ _ log here moved session.id (by simp) (by simp)
        (by simp)).trans written

theorem synced_agrees (id : String) (s : Nat) (session' : Session)
    (present : (state.store.apply o act).sessions.lookup id = some s)
    (after : (state.store.apply o act).heap[s]? = some session') :
    (∃ p : Nat, (state.ops.set o op')[p]? = some (.forget id (.evict s))) ∨
      ∃ journal, (state.store.apply o act).disk.doc (journalPath id) = some journal ∧
        journal.Agrees session'.record := by
  have fresh := sequential_fresh state base synced (.advance o fault)
  have within := (List.getElem?_eq_some_iff.mp here).1
  rcases apply_heap_origin state.store o act s session' after with ⟨session, at_, rfl⟩ |
    ⟨record, rfl, rfl, rfl⟩
  · have found := lookup_origin sha256 state o fault op op' act log moved id s
      (List.getElem?_eq_some_iff.mp at_).1 present
    obtain ⟨_, at', named⟩ := base.mapped id s found
    obtain rfl := Option.some.inj (at_.symm.trans at')
    rcases synced.agrees id s session found at_ with ⟨p, forgetting⟩ | ⟨journal, written, agreed⟩
    · -- The forget itself moves, and takes the session out.
      obtain rfl :=
        synced.alone o p op _ here forgetting (moved_active sha256 state.store fault op op' act log moved) rfl
      obtain rfl := Option.some.inj (here.symm.trans forgetting)
      cases moved with
      | forget _ _ _ _ _ moved =>
          cases moved
          simp [Store.apply] at present
    · subst named
      rcases on_record_writes act o s session with ⟨record, writes, on⟩ | ⟨other, kept⟩
      · rw [on]
        exact .inr (write_agrees sha256 state base o fault op op' act log here unbroken moved s session
          record at_ writes journal written agreed)
      · rw [kept]
        rcases journal_cases sha256 state base o fault op op' act log here moved session.id with
          same | ⟨t, holder, record, rfl, mine, at', sameId, _, _⟩ | ⟨request, rfl, rfl, sameId, _⟩ |
            ⟨t, rfl, rfl, rfl, _⟩
        · exact .inr ⟨journal, same.trans written, agreed⟩
        · have place :=
            writer_current sha256 state base owned o fault op op' _ log here fresh moved rfl t holder mine at'
          rw [sameId, found] at place
          exact absurd (by simp [Act.writes, Option.some.inj place]) other
        · have absent := (base.facts o _ here).2
          rw [sameId, found] at absent
          cases absent
        · obtain rfl : t = s := Option.some.inj ((base.facts o _ here).1.symm.trans found)
          exact .inl ⟨o, by simp [within]⟩
  · cases op_effect sha256 state.store fault op op' _ log moved with
    | quiet _ _ _ silent => cases silent
    | insert request =>
        have named : id = request.id := by
          by_contra different
          have elsewhere : state.store.sessions.lookup id = some state.store.heap.length :=
            (AList.lookup_insert_ne different).symm.trans present
          obtain ⟨session, at_, _⟩ := base.mapped id _ elsewhere
          exact absurd (List.getElem?_eq_some_iff.mp at_).1 (Nat.lt_irrefl _)
        rw [named]
        exact .inr ⟨request.record, owned.inserting o request here, agrees_refl _⟩

theorem synced_covered (id : String) (record : Record)
    (written : (state.store.apply o act).disk.doc (journalPath id) = some record) :
    (state.store.apply o act).sessions.lookup id ≠ none ∨
      ∃ (p : Nat) (request : RegisterRequest), (state.ops.set o op')[p]? =
        some (.register request .insert) ∧ request.id = id := by
  have within := (List.getElem?_eq_some_iff.mp here).1
  have kept : ∀ s, state.store.sessions.lookup id = some s → (op = .forget id (.evict s) → False) →
      (state.store.apply o act).sessions.lookup id ≠ none := by
    intro s found staying
    rcases lookup_kept sha256 state base o fault op op' act log here moved id s found with present | evicting
    · simp [present]
    · exact absurd evicting staying
  rcases journal_cases sha256 state base o fault op op' act log here moved id with
    same | ⟨t, holder, saved, rfl, mine, at_, rfl, _, _⟩ | ⟨request, rfl, rfl, named, _⟩ | ⟨_, _, _, _, now⟩
  · rw [same] at written
    rcases synced.covered (base_running state base o op here) id record written with present |
      ⟨p, request, inserting, named⟩
    · obtain ⟨s, found⟩ := Option.ne_none_iff_exists'.mp present
      refine .inl (kept s found ?_)
      rintro rfl
      rw [synced.erased o id s here] at written
      cases written
    · obtain rfl :=
        synced.alone o p op _ here inserting (moved_active sha256 state.store fault op op' act log moved) rfl
      obtain rfl := Option.some.inj (here.symm.trans inserting)
      cases moved with
      | register _ _ _ _ _ moved =>
          cases moved
          subst named
          exact .inl (by simp [Store.apply, RegisterRequest.record])
  · have fresh := sequential_fresh state base synced (.advance o fault)
    refine .inl (kept t (writer_current sha256 state base owned o fault op op' _ log here fresh moved rfl t
      holder mine at_) ?_)
    rintro rfl
    cases moved with
    | forget _ _ _ _ _ moved =>
        generalize persists : Act.persist t saved true = act at moved
        cases moved
        cases persists
  · cases moved with
    | register _ _ _ _ _ moved =>
        cases moved with
        | created below ok => exact .inr ⟨o, request, by simp [within], named⟩
        | createFailed saved below broken =>
            rw [broken] at unbroken
            cases unbroken
  · rw [now] at written
    cases written

omit owned synced unbroken in
theorem synced_inside (inside : ∀ (path : Path) (node : Node Record), ¬ Outside path →
    state.store.disk.node path = some node →
    (∃ record, node = .doc record) ∨ ∃ id file, path = partPath id file) (path : Path) (node : Node Record)
    (within : ¬ Outside path) (present : (state.store.apply o act).disk.node path = some node) :
    (∃ record, node = .doc record) ∨ ∃ id file, path = partPath id file := by
  have now := inside_node sha256 state base o fault op op' act log here moved path within
  rw [present] at now
  cases op_effect sha256 state.store fault op op' act log moved with
  | quiet _ _ _ silent => cases act <;> first | exact inside path node within now.symm | cases silent
  | journal request saved =>
      cases saved with
      | false => exact inside path node within now.symm
      | true =>
          dsimp only at now
          split at now
          · exact .inl ⟨_, Option.some.inj now⟩
          · exact inside path node within now.symm
  | persist _ _ s session record saved held there =>
      cases saved with
      | false => exact inside path node within now.symm
      | true =>
          dsimp only at now
          split at now
          · exact .inl ⟨_, Option.some.inj now⟩
          · exact inside path node within now.symm
  | openPart request s session file baseline current there absent =>
      dsimp only at now
      split at now
      · rename_i same
        exact .inr ⟨_, _, same⟩
      · exact inside path node within now.symm
  | removePart _ _ s session file held there =>
      dsimp only at now
      split at now
      · cases now
      · exact inside path node within now.symm
  | removeJournal _ s =>
      dsimp only at now
      split at now
      · cases now
      · exact inside path node within now.symm
  | _ => exact inside path node within now.symm

omit owned synced unbroken in
theorem synced_normal (normal : ∀ record, Listed state.store record → record.Normal) (record : Record)
    (listed : Listed (state.store.apply o act) record) : record.Normal := by
  rcases listed_origin sha256 state base o fault op op' act log here moved record listed with
    before | ⟨s, session, at_, write⟩ | ⟨request, phase, rfl, rfl⟩
  · exact normal record before
  · have earlier := normal session.record (.inl ⟨s, session, at_, rfl⟩)
    cases write with
    | choose request x index saved struck =>
        rintro file path (target | published)
        · rw [chosen_lookup] at target
          split at target
          · obtain rfl := Option.some.inj target
            unfold targetOf
            cases planned : session.record.targets.lookup x.file.id with
            | none => exact candidate_normal x.file index
            | some target => exact earlier x.file.id target (.inl planned)
          · exact earlier file path (.inl target)
        · exact earlier file path (.inr published)
    | drop request x index target =>
        rintro file path (target | published)
        · rw [dropped_lookup] at target
          split at target
          · cases target
          · exact earlier file path (.inl target)
        · exact earlier file path (.inr published)
    | receipt request x target saved struck =>
        rintro file path (planned | published)
        · exact earlier file path (.inl planned)
        · rw [receipt_lookup] at published
          split at published
          · obtain rfl := Option.some.inj published
            exact earlier x.file.id target (.inl (base.facts o _ here s session rfl at_).2.2.2)
          · exact earlier file path (.inr published)
    | _ => exact earlier
  · rintro file path (planned | published)
    · simp [RegisterRequest.record] at planned
    · simp [RegisterRequest.record] at published

end Advance

theorem synced_step (sha256 : Bytes → String) (state next : State) (label : Label) (base : Base state)
    (owned : Owned state) (synced : Synced state) (allowed : sequential state label = true)
    (stepped : step sha256 state label = some next) : Synced next := by
  rcases step_cases sha256 state next label stepped with ⟨call, rfl, _, rfl⟩ |
    ⟨o, fault, op, act, log, op', rfl, here, moved, rfl⟩ |
    ⟨rfl, _, rfl⟩ | ⟨store, rfl, stopped, loaded, rfl⟩
  · have over_ : ∀ (o : Nat) (op : Op), state.ops[o]? = some op → op.ended = true :=
      fun o op there => List.all_eq_true.mp allowed op (List.mem_of_getElem? there)
    refine ⟨?_, ?_, ?_, ?_, ?_, synced.inside, synced.normal⟩
    · -- Every operation before the new one has ended.
      have last : ∀ (o : Nat) (op : Op), (state.ops ++ [call.op])[o]? = some op → op.ended = false →
        o = state.ops.length := by
        intro o op there running
        by_contra earlier
        have within := (List.getElem?_eq_some_iff.mp there).1
        have bound : o < state.ops.length := by
          simp at within
          omega
        rw [List.getElem?_append_left bound] at there
        rw [over_ o op there] at running
        cases running
      intro o p op q there there' running running'
      rw [last o op there running, last p q there' running']
    · intro o op s there known kind
      rcases Transition.append_cases state.ops o call.op op there with before | rfl
      · exact synced.current o op s before known kind
      · rw [(call_idle call).1] at known
        cases known
    · intro id s session present at_
      rcases synced.agrees id s session present at_ with ⟨o, forgetting⟩ | agreed
      · exact absurd (over_ o _ forgetting) (by simp [Op.ended])
      · exact .inr agreed
    · intro o id s there
      rcases Transition.append_cases state.ops o call.op _ there with before | new
      · exact synced.erased o id s before
      · cases call <;> cases new
    · intro running id record written
      rcases synced.covered running id record written with present | ⟨o, request, inserting, _⟩
      · exact .inl present
      · exact absurd (over_ o _ inserting) (by simp [Op.ended])
  · refine ⟨?_, synced_current sha256 state base synced o fault op op' act log here moved,
      synced_agrees sha256 state base owned synced o fault op op' act log here allowed moved, ?_,
      fun _ => synced_covered sha256 state base owned synced o fault op op' act log here allowed moved,
      synced_inside sha256 state base o fault op op' act log here moved synced.inside,
      synced_normal sha256 state base o fault op op' act log here moved synced.normal⟩
    · have mover : ∀ (p : Nat) (q : Op), (state.ops.set o op')[p]? = some q → q.ended = false → p = o := by
        intro p q there running
        by_contra other
        rcases Transition.set_cases state.ops o p op' q there with ⟨same, _⟩ | ⟨_, before⟩
        · exact other same
        · rw [only_mover sha256 state synced o fault op op' act log here moved p q other before] at running
          cases running
      intro p p' q q' there there' running running'
      rw [mover p q there running, mover p' q' there' running']
    · intro p id s there
      rcases Transition.set_cases state.ops o p op' _ there with ⟨rfl, rfl⟩ | ⟨other, before⟩
      · cases moved with
        | forget _ _ _ _ _ moved =>
            cases moved
            have node := node_remove state.store.disk (journalPath id) (journalPath id)
            rw [if_pos rfl] at node
            simp only [Store.apply, Disk.doc, node]
      · exact absurd (only_mover sha256 state synced o fault op op' act log here moved p _ other before)
          (by simp [Op.ended])
  · exact ⟨by simp, by simp, by simp [Store.empty], by simp, by simp, synced.inside,
      fun record listed => synced.normal record (listed_crashed state.store record listed)⟩
  · have idle := (base.stopped stopped).1
    have spec := load_loaded state.store.disk store loaded
    refine ⟨by simp [idle], by simp [idle], ?_, by simp [idle], ?_, spec.same ▸ synced.inside,
      fun record listed => synced.normal record (listed_restarted state.store store spec record listed)⟩
    · intro id s session present at_
      obtain ⟨record, made, _, written⟩ := spec.mapped id s present
      obtain rfl := Option.some.inj (at_.symm.trans made)
      exact .inr ⟨record, spec.same ▸ written, agrees_refl record⟩
    · intro _ id record written
      rw [spec.same] at written
      obtain ⟨sound, place⟩ := base.journals _ record written
      have nonempty : id ≠ "" := by
        rintro rfl
        have sized := valid_id_length _ sound.valid
        rw [← sound.identity, ← journal_path_inj _ _ place] at sized
        cases sized
      obtain ⟨s, present, _⟩ := spec.covered id record nonempty written
      exact .inl (by simp [present])

theorem initial_synced (state : State) (initial : Initial state) : Synced state := by
  refine ⟨by simp [initial.idle], by simp [initial.idle], ?_, by simp [initial.idle],
    by simp [initial.stopped], ?_,
    fun record listed => absurd listed (initial_unlisted state initial record)⟩
  · rw [initial.fresh]
    simp [Store.empty]
  · intro path node within present
    rw [initial.noState path within] at present
    cases present

theorem run_synced (sha256 : Bytes → String) (start final : State) (initial : Initial start)
    (run : Transition.Run (step sha256) (fun state label => sequential state label = true) start final) :
    Base final ∧ Owned final ∧ Synced final :=
  Transition.run_invariant (step sha256) _ (fun state => Base state ∧ Owned state ∧ Synced state)
    (fun state label next good allowed stepped => ⟨base_step sha256 state next label good.1 stepped,
      owned_step sha256 state next label good.1 good.2.1 (sequential_fresh state good.1 good.2.2 label)
      stepped,
      synced_step sha256 state next label good.1 good.2.1 good.2.2 allowed stepped⟩)
    start final run ⟨initial_base start initial, initial_owned start initial, initial_synced start initial⟩

theorem load_journals_ok (names : List String) (store : Store)
    (each : ∀ name ∈ names, ∃ record, loadJournal store.disk name = .ok record) :
    ∃ final, loadJournals store names = .ok final := by
  induction names generalizing store with
  | nil => exact ⟨store, rfl⟩
  | cons name rest ih =>
      obtain ⟨record, read⟩ := each name (by simp)
      obtain ⟨final, loaded⟩ := ih (store.apply 0 (.insert record)) fun other member => each other
        (by simp [member])
      exact ⟨final, by simp only [loadJournals, read, loaded]⟩

theorem safe_destinations (paths : HashMap String Path)
    (normal : ∀ file path, paths.lookup file = some path → normalPath path = true) :
    safeDestinations paths = true := by
  simp only [safeDestinations, decide_eq_true_eq, Option.all_eq_true]
  intro file _ path found
  exact normal file path found

theorem journal_loads (state : State) (base : Base state) (synced : Synced state) (name : String)
    (member : name ∈ journalNames state.store.disk) :
    ∃ record, loadJournal state.store.disk name = .ok record := by
  obtain ⟨path, key, named⟩ := List.mem_filterMap.mp member
  obtain ⟨rfl, json⟩ := journal_name_path path name named
  obtain ⟨node, present⟩ : ∃ node, state.store.disk.node [stateDir, name] = some node :=
    Option.isSome_iff_exists.mp (AList.lookup_isSome.mpr (AList.mem_keys.mpr key))
  rcases synced.inside _ node (by simp [Outside]) present with ⟨record, rfl⟩ | ⟨id, file, isPart⟩
  · obtain ⟨sound, place⟩ := base.journals _ record ((doc_node _ _ _).mpr present)
    have isName : name = record.pending.id ++ ".json" := by simpa [journalPath] using place
    have nonempty : record.pending.id.toList ≠ [] := by
      intro empty
      have sized := valid_id_length _ sound.valid
      rw [← sound.identity, empty] at sized
      cases sized
    have stem : (splitExtension name.toList).1 = record.manifest.request.transferId.toList := by
      rw [isName, String.toList_append, split_extension_json _ nonempty, sound.identity]
    have normal := synced.normal record (.inr ⟨record.pending.id, place ▸ (doc_node _ _ _).mpr present⟩)
    have targets := safe_destinations record.targets fun file path found => normal file path (.inl found)
    have published := safe_destinations record.published fun file path found => normal file path (.inr found)
    refine ⟨record, ?_⟩
    unfold loadJournal
    rw [present]
    simp [show record.manifest.validate = .ok () from sound.valid, stem, sound.identity, targets, published]
  · -- The extension of a partial is part.
    have isName : name = id ++ "-" ++ file ++ ".part" := by simpa [partPath] using isPart
    have joined := split_extension_join name.toList _ _ (Prod.ext rfl json)
    have last := congrArg (fun chars => chars.reverse.head?) joined
    rw [isName] at last
    simp at last

-- The sessions after a restart are those from before it.
structure Restored (before after : Store) : Prop where
  ids : ∀ id, after.sessions.lookup id = none ↔ before.sessions.lookup id = none
  sessions : ∀ (id : String) (s : Nat) (session : Session), before.sessions.lookup id = some s →
    before.heap[s]? = some session →
    ∃ (s' : Nat) (session' : Session), after.sessions.lookup id = some s' ∧ after.heap[s']? = some session' ∧
      session'.id = session.id ∧ session'.owner = session.owner ∧ session'.record.Agrees session.record ∧
        session'.cancel = session.record.cancelled ∧ session'.finished = session.record.complete ∧
          ∀ fault, checkpoints after.disk id session'.record fault = checkpoints before.disk id
          session.record fault

theorem checkpoints_agree (disk : ReceiverDisk) (id : String) (journal record : Record)
    (agreed : journal.Agrees record) (fault : Option Fault) :
    checkpoints disk id journal fault = checkpoints disk id record fault := by
  have each : ∀ file, checkpoint disk id journal fault file = checkpoint disk id record fault file := by
    intro file
    simp only [checkpoint, agreed.published]
  unfold checkpoints
  rw [agreed.identity.1]
  induction record.manifest.request.files with
  | nil => rfl
  | cons file rest ih => simp only [checkpointsFrom, each, ih]

-- After any sequence of completed calls, close and load give back the store.
theorem restart_restores_the_store (sha256 : Bytes → String) (start state : State) (initial : Initial start)
    (run : Transition.Run (step sha256) (fun state label => sequential state label = true) start state)
    (running : state.running = true) (completed : state.ops.all Op.ended = true) :
    ∃ closed final, step sha256 state .crash = some closed ∧ step sha256 closed .start = some final ∧
      Restored state.store final.store := by
  obtain ⟨base, owned, synced⟩ := run_synced sha256 start state initial run
  have over_ : ∀ (o : Nat) (op : Op), state.ops[o]? = some op → op.ended = true :=
    fun o op there => List.all_eq_true.mp completed op (List.mem_of_getElem? there)
  obtain ⟨store, loaded⟩ := load_journals_ok (journalNames state.store.disk) (.empty state.store.disk)
    fun name member => journal_loads state base synced name member
  have spec := load_loaded state.store.disk store loaded
  refine ⟨{ state with store := .empty state.store.disk, ops := [], running := false },
    { state with store := store, ops := [], running := true }, by simp [step, running], ?_, ?_, ?_⟩
  · simp [step, show Store.load (Store.empty state.store.disk).disk = .ok store from loaded]
  · intro id
    constructor
    · intro absent
      by_contra present
      obtain ⟨s, found⟩ := Option.ne_none_iff_exists'.mp present
      obtain ⟨session, at_, _⟩ := base.mapped id s found
      rcases synced.agrees id s session found at_ with ⟨o, forgetting⟩ | ⟨journal, written, _⟩
      · exact absurd (over_ o _ forgetting) (by simp [Op.ended])
      · have nonempty : id ≠ "" := by
          rintro rfl
          exact absurd (mapped_length state base "" s found) (by decide)
        obtain ⟨s', present', _⟩ := spec.covered id journal nonempty written
        rw [absent] at present'
        cases present'
    · intro absent
      by_contra present
      obtain ⟨s, found⟩ := Option.ne_none_iff_exists'.mp present
      obtain ⟨record, _, _, written⟩ := spec.mapped id s found
      rcases synced.covered running id record written with here | ⟨o, request, inserting, _⟩
      · exact here absent
      · exact absurd (over_ o _ inserting) (by simp [Op.ended])
  · intro id s session found at_
    obtain ⟨_, at', named⟩ := base.mapped id s found
    obtain rfl := Option.some.inj (at_.symm.trans at')
    rcases synced.agrees id s session found at_ with ⟨o, forgetting⟩ | ⟨journal, written, agreed⟩
    · exact absurd (over_ o _ forgetting) (by simp [Op.ended])
    · have nonempty : id ≠ "" := by
        rintro rfl
        exact absurd (mapped_length state base "" s found) (by decide)
      obtain ⟨s', present, made⟩ := spec.covered id journal nonempty written
      have sound := base.sound s session at_
      refine ⟨s', Session.new journal, present, made, ?_, ?_, agreed, agreed.cancelled, agreed.complete, ?_⟩
      · exact (congrArg PendingTransfer.id agreed.identity.2.1).trans sound.named.symm
      · exact agreed.identity.2.2.1.trans sound.owned.symm
      · intro fault
        exact spec.same ▸ checkpoints_agree state.store.disk id journal session.record agreed fault

theorem published_session_is_restored : ∃ (state closed final : State) (s : Nat) (session : Session),
    Transition.Run (step emptyHash) (fun state label => sequential state label = true) emptyState state ∧
      step emptyHash state .crash = some closed ∧ step emptyHash closed .start = some final ∧
        final.store.sessions.lookup smallId = some s ∧ final.store.heap[s]? = some session ∧
          session.record.published.lookup smallFile.id = some ["a"] ∧ session.finished = true ∧
            final.store.sessions.lookup twinId ≠ none := by
  obtain ⟨state, run, checked⟩ :=
    Transition.replay_reaches (step emptyHash) (fun state label => sequential state label = true)
    (.start :: .call (.register (smallRegister true)) :: advances 0 7 ++ .call (.upload smallUpload) ::
      advances 1 18 ++ .call (.register (wideRegister twinId)) :: advances 2 7 ++
      .call (.cancel none twinId) :: advances 3 8) emptyState
    (fun state => publishedSmall 0 [] state && state.running && state.ops.all Op.ended &&
      state.store.sessions.lookup smallId == some 0 && (state.store.sessions.lookup twinId).isSome &&
      (state.store.heap[0]?).any (·.record.complete)) (by decide +kernel)
  simp only [Bool.and_eq_true, beq_iff_eq, Option.any_eq_true] at checked
  obtain ⟨⟨⟨⟨⟨published, running⟩, completed⟩, found⟩, twin⟩, session, at_, complete⟩ := checked
  obtain ⟨closed, final, stopped, started, restored⟩ :=
    restart_restores_the_store emptyHash emptyState state empty_initial run running completed
  obtain ⟨_, at', receipt, _⟩ := published_small_sound 0 [] state published
  obtain rfl := Option.some.inj (at_.symm.trans at')
  obtain ⟨s', session', found', there, _, _, agreed, _, finished, _⟩ :=
    restored.sessions smallId 0 session found at_
  refine ⟨state, closed, final, s', session', run, stopped, started, found', there, ?_,
    finished.trans complete, ?_⟩
  · rw [agreed.published]
    exact receipt
  · intro absent
    rw [(restored.ids twinId).mp absent] at twin
    cases twin

end GoshTransfer
