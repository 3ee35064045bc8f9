import GoshTransfer.Linearization

set_option autoImplicit false

namespace GoshTransfer

open InodeStore

-- A call that goes on with session s of id: it keeps a reference to it, or it is
-- a cancel request whose owner has been compared.
def Op.boundTo (id : String) (s : Nat) (op : Op) : Bool :=
  op.session == some s ||
    match op with
    | .cancel (some _) other .lookup => other == id
    | _ => false

-- No persist fails, and a forget takes its session out when no other call goes on with it.
def peaceful (state : State) : Label → Bool
  | .advance o fault =>
      (match fault with
        | some (.persist _) => false
        | _ => true) &&
      match state.ops[o]? with
      | some (.forget id (.evict s)) => (List.range state.ops.length).all fun p =>
          p == o || !(state.ops[p]?).any (Op.boundTo id s)
      | _ => true
  | _ => true

-- References lead to the session in the map, and the journals tell what the map
-- will be after a crash.
structure Coherent (state : State) : Prop where
  guarded : Guarded state
  current : ∀ (o : Nat) (op : Op) (s : Nat), state.ops[o]? = some op → op.session = some s →
    (∀ id reply, op ≠ .forget id (.leave s reply)) → state.store.sessions.lookup op.id = some s
  remote : ∀ (o : Nat) (caller : Option Peer) (id : String),
    state.ops[o]? = some (.cancel caller id .authorize) → caller ≠ none
  vetted : ∀ (o : Nat) (peer : Peer) (id : String) (phase : CancelPhase),
    state.ops[o]? = some (.cancel (some peer) id phase) →
    (phase = .lookup ∨ phase.session.isSome = true) →
      ∃ (s : Nat) (session : Session), state.store.sessions.lookup id = some s ∧
      state.store.heap[s]? = some session ∧ session.record.owner = owner peer
  erased : ∀ (o : Nat) (id : String) (s : Nat), state.ops[o]? = some (.forget id (.evict s)) →
    state.store.disk.doc (journalPath id) = none
  journaled : ∀ (id : String) (s : Nat) (session : Session), state.store.sessions.lookup id = some s →
    state.store.heap[s]? = some session → (∃ o : Nat, state.ops[o]? = some (.forget id (.evict s))) ∨
      ∃ journal, state.store.disk.doc (journalPath id) = some journal ∧
        journal.standing = session.record.standing
  covered : state.running = true → ∀ (id : String) (record : Record), state.store.sessions.lookup id = none →
    state.store.disk.doc (journalPath id) = some record →
      ∃ (o : Nat) (request : RegisterRequest), state.ops[o]? = some (.register request .insert) ∧
        request.id = id

theorem peaceful_persists (state : State) (o : Nat) (fault : Option Fault)
    (peace : peaceful state (.advance o fault) = true) (saved : Bool) : fault ≠ some (.persist saved) := by
  rintro rfl
  simp [peaceful] at peace

theorem peaceful_bound (state : State) (o : Nat) (fault : Option Fault)
    (peace : peaceful state (.advance o fault) = true) (id : String) (s : Nat)
    (here : state.ops[o]? = some (.forget id (.evict s))) (p : Nat) (q : Op) (other : p ≠ o)
    (there : state.ops[p]? = some q) : q.boundTo id s = false := by
  have within := (List.getElem?_eq_some_iff.mp there).1
  simp only [peaceful, here, Bool.and_eq_true, List.all_eq_true, List.mem_range] at peace
  have apart := peace.2 p within
  simpa [there, other] using apart

theorem coherent_fresh (state : State) (coherent : Coherent state) (label : Label) :
    staleFree state label = true := by
  cases label with
  | advance o fault =>
      have present : ∀ op s, state.ops[o]? = some op → op.session = some s →
        (∀ id reply, op ≠ .forget id (.leave s reply)) →
          state.store.current s = true := by
        intro op s here known kind
        obtain ⟨session, at_, named⟩ := coherent.guarded.base.known o op s here known
        rw [current_iff state.store s session at_, named]
        exact coherent.current o op s here known kind
      unfold staleFree
      dsimp only
      split
      · rename_i id s here
        simp [present _ s here rfl (by simp)]
      · rename_i caller id s here
        simp [present _ s here rfl (by simp)]
      · rfl
  | _ => rfl

section Advance

variable (sha256 : Bytes → String) (state : State) (coherent : Coherent state) (o : Nat)
    (fault : Option Fault) (op op' : Op) (act : Act)
  (log : List Entry) (here : state.ops[o]? = some op) (peace : peaceful state (.advance o fault) = true)
  (moved : OpMove sha256 state.store fault op act log op')

include coherent here peace moved

theorem bound_kept (p : Nat) (q : Op) (other : p ≠ o) (there : state.ops[p]? = some q) (id : String) (s : Nat)
    (bound : q.boundTo id s = true) (present : state.store.sessions.lookup id = some s) :
    (state.store.apply o act).sessions.lookup id = some s := by
  rcases lookup_kept sha256 state coherent.guarded.base o fault op op' act log here moved id s present with
    kept | evicting
  · exact kept
  · have free := peaceful_bound state o fault peace id s (evicting ▸ here) p q other there
    rw [bound] at free
    cases free

theorem current_moved (p : Nat) (q : Op) (s : Nat) (there : (state.ops.set o op')[p]? = some q)
    (known : q.session = some s) (kind : ∀ id reply, q ≠ .forget id (.leave s reply)) :
    (state.store.apply o act).sessions.lookup q.id = some s := by
  have base := coherent.guarded.base
  rcases Transition.set_cases state.ops o p op' q there with ⟨rfl, rfl⟩ | ⟨other, before⟩
  · have rules := op_disciplined state.store fault act log sha256 op q moved
    have notEvict : ∀ id t, op ≠ .forget id (.evict t) := by
      rintro id t rfl
      cases moved with
      | forget _ _ next _ _ moved =>
          cases moved with
          | evicted _ => exact kind id (.ok ()) (by rw [show s = t from (Option.some.inj known).symm])
    have notLeave : ∀ id reply, op ≠ .forget id (.leave s reply) := by
      rintro id reply rfl
      cases moved with
      | forget _ _ next _ _ moved =>
          cases moved
          cases known
    have found : state.store.sessions.lookup op.id = some s := by
      rcases rules.session with same | none_ | ⟨t, found, present⟩
      · exact coherent.current p op s here (same ▸ known) notLeave
      · rw [none_] at known
        cases known
      · rw [present, ← found, known]
    rw [rules.sameId]
    rcases lookup_kept sha256 state base p fault op q act log here moved op.id s found with kept | evicting
    · exact kept
    · exact absurd evicting (notEvict _ _)
  · have found := coherent.current p q s before known kind
    exact bound_kept sha256 state coherent o fault op op' act log here peace moved p q other before q.id s
      (by simp [Op.boundTo, known]) found

omit peace in
theorem remote_moved (p : Nat) (caller : Option Peer) (id : String)
    (there : (state.ops.set o op')[p]? = some (.cancel caller id .authorize)) : caller ≠ none := by
  rcases Transition.set_cases state.ops o p op' _ there with ⟨rfl, rfl⟩ | ⟨_, before⟩
  · cases moved with
    | cancel _ _ _ _ _ _ inner => cases inner
  · exact coherent.remote p caller id before

theorem vetted_moved (raw : op.next sha256 state.store fault = some (act, log, op')) (p : Nat) (peer : Peer)
    (id : String) (phase : CancelPhase)
    (there : (state.ops.set o op')[p]? = some (.cancel (some peer) id phase))
    (going : phase = .lookup ∨ phase.session.isSome = true) : ∃ (s : Nat) (session : Session),
      (state.store.apply o act).sessions.lookup id = some s ∧
      (state.store.apply o act).heap[s]? = some session ∧
        session.record.owner = owner peer := by
  have base := coherent.guarded.base
  -- The owner of a session stays, and so does the session.
  have carried : ∀ s session, state.store.sessions.lookup id = some s → state.store.heap[s]? = some session →
      session.record.owner = owner peer → (state.store.apply o act).sessions.lookup id = some s →
      ∃ (s : Nat) (session : Session), (state.store.apply o act).sessions.lookup id = some s ∧
        (state.store.apply o act).heap[s]? = some session ∧ session.record.owner = owner peer := by
    intro s session _ at_ owned kept
    have forward := (moved_session sha256 state base o fault op op' act log here moved s session at_).2
    exact ⟨s, _, kept, apply_heap state.store o act s session at_, forward.same.2.2.1.symm.trans owned⟩
  rcases Transition.set_cases state.ops o p op' _ there with ⟨rfl, rfl⟩ | ⟨other, before⟩
  · have kept : ∀ s, state.store.sessions.lookup id = some s →
      (state.store.apply p act).sessions.lookup id = some s := by
      intro s present
      rcases lookup_kept sha256 state base p fault op _ act log here moved id s present with kept | evicting
      · exact kept
      · rw [evicting] at moved
        cases moved
    cases moved with
    | cancel caller id before next act log inner =>
        by_cases opening : before = .authorize
        · -- The comparison of the caller with the owner.
          subst opening
          simp only [Op.next, Option.map_eq_some_iff, Prod.exists, Prod.mk.injEq] at raw
          obtain ⟨act', log', next', raw, rfl, rfl, equal⟩ := raw
          simp only [CancelPhase.next] at raw
          split at raw
          · obtain ⟨_, _, _, rfl⟩ := (plain_eq_some _ _ _ _ _ _ _).mp raw
            cases equal
            rcases going with going | going <;> cases going
          · rename_i s present
            obtain ⟨session, at_, raw⟩ := Option.bind_eq_some_iff.mp raw
            split at raw
            · rename_i same
              have owned : session.record.owner = owner peer := by
                rw [← (base.sound s session at_).owned]
                simpa using same.symm
              exact carried s session present at_ owned (kept s present)
            · obtain ⟨_, _, _, rfl⟩ := (plain_eq_some _ _ _ _ _ _ _).mp raw
              cases equal
              rcases going with going | going <;> cases going
        · have earlier : before = .lookup ∨ before.session.isSome = true := by
            cases inner with
            | unknown phase early _ => rcases going with going | going <;> cases going
            | authorized => exact absurd rfl opening
            | foreign => exact absurd rfl opening
            | found s present => exact .inl rfl
            | _ => exact .inr rfl
          obtain ⟨s, session, present, at_, owned⟩ := coherent.vetted p peer id before here earlier
          exact carried s session present at_ owned (kept s present)
  · obtain ⟨s, session, present, at_, owned⟩ := coherent.vetted p peer id phase before going
    refine carried s session present at_ owned ?_
    refine bound_kept sha256 state coherent o fault op op' act log here peace moved p _ other before id s ?_
      present
    rcases going with rfl | refers
    · simp [Op.boundTo]
    · obtain ⟨t, known⟩ := Option.isSome_iff_exists.mp refers
      have found := coherent.current p _ t before known (by simp)
      rw [show state.store.sessions.lookup id = some t from found] at present
      simp [Op.boundTo, Op.session, known, Option.some.inj present]

theorem erased_moved (p : Nat) (id : String) (s : Nat)
    (there : (state.ops.set o op')[p]? = some (.forget id (.evict s))) :
    (state.store.apply o act).disk.doc (journalPath id) = none := by
  have base := coherent.guarded.base
  have fresh := coherent_fresh state coherent (.advance o fault)
  rcases Transition.set_cases state.ops o p op' _ there with ⟨rfl, rfl⟩ | ⟨other, before⟩
  · have node := inside_node sha256 state base p fault op _ act log here moved (journalPath id)
      (journal_inside id)
    cases moved with
    | forget _ _ _ _ _ inner =>
        cases inner
        simp only [if_true] at node
        simp [Disk.doc, node]
  · have present := (base.facts p _ before).1
    exact (files_guarded sha256 state base coherent.guarded.owned o fault op op' act log here fresh moved p
      _ s other before rfl id present).1.trans (coherent.erased p id s before)

theorem written_standing (s : Nat) (session : Session) (record : Record)
    (at_ : state.store.heap[s]? = some session) (writes : act.writes = some (s, record)) (journal : Record)
    (written : state.store.disk.doc (journalPath session.id) = some journal)
    (agreed : journal.standing = session.record.standing) :
    ∃ now, (state.store.apply o act).disk.doc (journalPath session.id) = some now ∧
      now.standing = record.standing := by
  have base := coherent.guarded.base
  obtain ⟨session', at', write⟩ := moved_write sha256 state.store fault op op' act log s record moved writes
  obtain rfl := Option.some.inj (at_.symm.trans at')
  have saved : ∀ kept, Struck fault kept → act = .persist s record kept →
      ∃ now, (state.store.apply o act).disk.doc (journalPath session.id) = some now ∧
        now.standing = record.standing := by
    intro kept struck persists
    rcases struck with ⟨_, rfl⟩ | broken
    · exact ⟨record, persisted_journal sha256 state base o fault op op' act log here moved s session record
        persists at_, rfl⟩
    · exact absurd broken (peaceful_persists state o fault peace kept)
  cases write with
  | accept id kept struck open_ => exact saved kept struck rfl
  | reject id kept struck undecided => exact saved kept struck rfl
  | cancel caller id kept struck running live => exact saved kept struck rfl
  | choose request x index kept struck => exact saved kept struck rfl
  | receipt request x target kept struck => exact saved kept struck rfl
  | drop request x index target =>
      refine ⟨journal, ?_, agreed⟩
      exact (journal_untouched sha256 state base o fault _ _ _ log here moved session.id (by simp) (by simp)
        (by simp)).trans written

theorem journaled_moved (id : String) (s : Nat) (session' : Session)
    (present : (state.store.apply o act).sessions.lookup id = some s)
    (after : (state.store.apply o act).heap[s]? = some session') :
    (∃ p : Nat, (state.ops.set o op')[p]? = some (.forget id (.evict s))) ∨
      ∃ journal, (state.store.apply o act).disk.doc (journalPath id) = some journal ∧
        journal.standing = session'.record.standing := by
  have base := coherent.guarded.base
  have owned := coherent.guarded.owned
  have fresh := coherent_fresh state coherent (.advance o fault)
  have self : (state.ops.set o op')[o]? = some op' :=
    List.getElem?_set_self (List.getElem?_eq_some_iff.mp here).1
  rcases apply_heap_origin state.store o act s session' after with ⟨session, at_, rfl⟩ |
    ⟨record, inserted, made, rfl⟩
  · have found := lookup_origin sha256 state o fault op op' act log moved id s
      (List.getElem?_eq_some_iff.mp at_).1 present
    obtain ⟨session', at', named⟩ := base.mapped id s found
    obtain rfl := Option.some.inj (at_.symm.trans at')
    rcases coherent.journaled id s session found at_ with ⟨p, forgetting⟩ | ⟨journal, written, agreed⟩
    · by_cases mine : p = o
      · -- The forget itself moves, and takes the session out.
        subst mine
        obtain rfl := Option.some.inj (here.symm.trans forgetting)
        cases moved with
        | forget _ _ _ _ _ inner =>
            cases inner
            simp [Store.apply] at present
      · exact .inl ⟨p, (List.getElem?_set_ne fun same => mine same.symm).trans forgetting⟩
    · subst named
      rcases on_record_writes act o s session with ⟨record, writes, on⟩ | ⟨other, kept⟩
      · rw [on]
        exact .inr (written_standing sha256 state coherent o fault op op' act log here peace moved s session
          record at_ writes journal written agreed)
      · rw [kept]
        rcases journal_cases sha256 state base o fault op op' act log here moved session.id with
          same | ⟨t, holder, record, rfl, mine, at', sameId, _, _⟩ | ⟨request, rfl, rfl, sameId, _⟩ |
            ⟨t, rfl, rfl, rfl, _⟩
        · exact .inr ⟨journal, same.trans written, agreed⟩
        · have place :=
            writer_current sha256 state base owned o fault op op' _ log here fresh moved rfl t holder mine at'
          rw [sameId, found] at place
          exact absurd (by simp [Act.writes, Option.some.inj place]) other
        · have absent := (base.facts o _ here).2
          rw [sameId, found] at absent
          cases absent
        · obtain rfl : t = s := Option.some.inj ((base.facts o _ here).1.symm.trans found)
          exact .inl ⟨o, self⟩
  · subst inserted
    cases op_effect sha256 state.store fault op op' _ log moved with
    | quiet _ _ _ silent => cases silent
    | insert request =>
        have named : id = request.id := by
          by_contra different
          have elsewhere : state.store.sessions.lookup id = some s :=
            (AList.lookup_insert_ne different).symm.trans present
          obtain ⟨session, at_, _⟩ := base.mapped id s elsewhere
          rw [made] at at_
          exact absurd (List.getElem?_eq_some_iff.mp at_).1 (Nat.lt_irrefl _)
        rw [named]
        exact .inr ⟨request.record, owned.inserting o request here, rfl⟩

theorem covered_moved (id : String) (record : Record)
    (absent : (state.store.apply o act).sessions.lookup id = none)
    (written : (state.store.apply o act).disk.doc (journalPath id) = some record) :
    ∃ (p : Nat) (request : RegisterRequest), (state.ops.set o op')[p]? = some (.register request .insert) ∧
      request.id = id := by
  have base := coherent.guarded.base
  have owned := coherent.guarded.owned
  have fresh := coherent_fresh state coherent (.advance o fault)
  have self : (state.ops.set o op')[o]? = some op' :=
    List.getElem?_set_self (List.getElem?_eq_some_iff.mp here).1
  -- A session stays in the map unless the forget that has erased its journal takes it out.
  have gone : ∀ s, state.store.sessions.lookup id = some s → op = .forget id (.evict s) := by
    intro s present
    rcases lookup_kept sha256 state base o fault op op' act log here moved id s present with kept | evicting
    · rw [kept] at absent
      cases absent
    · exact evicting
  rcases journal_cases sha256 state base o fault op op' act log here moved id with
    same | ⟨t, session, saved, persisting, mine, at_, named, _, _⟩ |
      ⟨request, registering, creating, named, _⟩ | ⟨_, _, _, _, now⟩
  · rw [same] at written
    cases found : state.store.sessions.lookup id with
    | some s =>
        rw [coherent.erased o id s ((gone s found) ▸ here)] at written
        cases written
    | none =>
        obtain ⟨p, request, inserting, named⟩ :=
          coherent.covered (base_running state base o op here) id record found written
        by_cases mine : p = o
        · subst mine
          obtain rfl := Option.some.inj (here.symm.trans inserting)
          cases moved with
          | register _ _ _ _ _ inner =>
              cases inner
              simp [Store.apply, RegisterRequest.record, ← named] at absent
        · exact ⟨p, request, (List.getElem?_set_ne fun same => mine same.symm).trans inserting, named⟩
  · have place := writer_current sha256 state base owned o fault op op' act log here fresh moved
      (by rw [persisting]; rfl) t session mine at_
    have evicting := gone t (named ▸ place)
    subst evicting
    rw [persisting] at moved
    generalize same : Act.persist t saved true = act at moved
    cases moved with
    | forget _ _ _ _ _ inner =>
        cases inner
        cases same
  · subst registering
    cases moved with
    | register _ _ _ _ _ inner =>
        cases inner with
        | created below ok => exact ⟨o, request, self, named⟩
        | createFailed saved below broken => exact absurd broken (peaceful_persists state o fault peace saved)
        | _ => cases creating
  · rw [now] at written
    cases written

end Advance

theorem coherent_call (state : State) (coherent : Coherent state) (call : Call)
    (guarded : Guarded { state with ops := state.ops ++ [call.op] }) :
    Coherent { state with ops := state.ops ++ [call.op] } := by
  have kept : ∀ (p : Nat) (q : Op), state.ops[p]? = some q → (state.ops ++ [call.op])[p]? = some q :=
    fun p q there =>
    (List.getElem?_append_left (List.getElem?_eq_some_iff.mp there).1).trans there
  refine ⟨guarded, ?_, ?_, ?_, ?_, ?_, ?_⟩
  · intro o op s there known kind
    rcases Transition.append_cases state.ops o call.op op there with before | rfl
    · exact coherent.current o op s before known kind
    · rw [(call_idle call).1] at known
      cases known
  · intro o caller id there
    rcases Transition.append_cases state.ops o call.op _ there with before | new
    · exact coherent.remote o caller id before
    · cases call with
      | cancel other name =>
          cases other <;> cases new
          simp
      | _ => cases new
  · intro o peer id phase there going
    rcases Transition.append_cases state.ops o call.op _ there with before | new
    · exact coherent.vetted o peer id phase before going
    · cases call <;> cases new
      rcases going with going | going <;> cases going
  · intro o id s there
    rcases Transition.append_cases state.ops o call.op _ there with before | new
    · exact coherent.erased o id s before
    · cases call <;> cases new
  · intro id s session present at_
    exact (coherent.journaled id s session present at_).imp_left fun ⟨p, forgetting⟩ =>
      ⟨p, kept p _ forgetting⟩
  · intro running id record absent written
    obtain ⟨p, request, inserting, named⟩ := coherent.covered running id record absent written
    exact ⟨p, request, kept p _ inserting, named⟩

theorem journal_named (state : State) (base : Base state) (id : String) (record : Record)
    (written : state.store.disk.doc (journalPath id) = some record) : id = record.pending.id ∧ id ≠ "" := by
  obtain ⟨sound, path⟩ := base.journals _ record written
  have named := journal_path_inj _ _ path
  refine ⟨named, ?_⟩
  intro empty
  have length := valid_id_length record.manifest sound.valid
  rw [← sound.identity, ← named, empty] at length
  cases length

theorem coherent_start (state : State) (base : Base state) (stopped : state.running = false) (store : Store)
    (loaded : Store.load state.store.disk = .ok store)
    (guarded : Guarded { state with store := store, running := true }) :
    Coherent { state with store := store, running := true } := by
  have idle := (base.stopped stopped).1
  have spec := load_loaded state.store.disk store loaded
  refine ⟨guarded, by simp [idle], by simp [idle], by simp [idle], by simp [idle], ?_, ?_⟩
  · intro id s session present at_
    obtain ⟨record, made, _, journal⟩ := spec.mapped id s present
    obtain rfl := Option.some.inj (at_.symm.trans made)
    exact .inr ⟨record, spec.same ▸ journal, rfl⟩
  · intro _ id record absent written
    have journal : state.store.disk.doc (journalPath id) = some record := spec.same ▸ written
    obtain ⟨s, found, _⟩ := spec.covered id record (journal_named state base id record journal).2 journal
    rw [found] at absent
    cases absent

theorem coherent_step (sha256 : Bytes → String) (state next : State) (label : Label)
    (coherent : Coherent state) (peace : peaceful state label = true)
    (stepped : step sha256 state label = some next) : Coherent next := by
  have guarded :=
    guarded_step sha256 state next label coherent.guarded (coherent_fresh state coherent label) stepped
  by_cases advancing : ∃ o fault, label = .advance o fault
  · obtain ⟨o, fault, rfl⟩ := advancing
    obtain ⟨op, act, log, op', here, raw, rfl⟩ := step_advance sha256 state next o fault stepped
    have moved := op_next_move sha256 state.store fault op op' act log raw
    exact ⟨guarded, current_moved sha256 state coherent o fault op op' act log here peace moved,
      remote_moved sha256 state coherent o fault op op' act log here moved,
      vetted_moved sha256 state coherent o fault op op' act log here peace moved raw,
      erased_moved sha256 state coherent o fault op op' act log here peace moved,
      journaled_moved sha256 state coherent o fault op op' act log here peace moved,
      fun _ => covered_moved sha256 state coherent o fault op op' act log here peace moved⟩
  · rcases step_cases sha256 state next label stepped with ⟨call, _, _, rfl⟩ |
      ⟨o, fault, _, _, _, _, rfl, _⟩ | ⟨_, _, rfl⟩ |
      ⟨store, _, stopped, loaded, rfl⟩
    · exact coherent_call state coherent call guarded
    · exact absurd ⟨o, fault, rfl⟩ advancing
    · exact ⟨guarded, by simp, by simp, by simp, by simp, by simp [Store.empty], by simp⟩
    · exact coherent_start state coherent.guarded.base stopped store loaded guarded

theorem initial_coherent (state : State) (initial : Initial state) (guarded : Guarded state) :
    Coherent state := by
  refine ⟨guarded, by simp [initial.idle], by simp [initial.idle], by simp [initial.idle],
    by simp [initial.idle], ?_, by simp [initial.stopped]⟩
  rw [initial.fresh]
  simp [Store.empty]

end GoshTransfer
