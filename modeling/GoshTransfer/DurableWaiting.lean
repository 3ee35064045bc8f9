import GoshTransfer.LegacyWaiting

set_option autoImplicit false

namespace GoshTransfer

open InodeStore Histories

def Store.waits (store : Store) (id : String) : Option PendingTransfer :=
  (store.sessions.lookup id).bind fun s => (store.heap[s]?).bind fun session => session.record.waits

-- The id about which a decision has been persisted and not answered yet.
def Op.promises : Op → Option String
  | .accept id (.leave _ (.ok _)) | .reject id (.announce _) | .reject id (.leave _ (.ok _)) |
      .cancel _ id (.discard _ _ _)
  | .cancel _ id (.leave _ (.ok _)) => some id
  | _ => none

theorem store_waits (store : Store) (id : String) (s : Nat) (session : Session)
    (found : store.sessions.lookup id = some s) (there : store.heap[s]? = some session) :
    store.waits id = session.record.waits := by
  simp [Store.waits, found, there]

section Apply

variable (state : State) (base : Base state) (o : Nat) (act : Act)

include base

theorem apply_waits (quiet : act.writes = none) (noInsert : ∀ record, act ≠ .insert record)
    (noEvict : ∀ id, act ≠ .evict id) (id : String) :
    (state.store.apply o act).waits id = state.store.waits id := by
  have same := apply_sessions state.store o act noInsert noEvict
  cases found : state.store.sessions.lookup id with
  | none => simp [Store.waits, same, found]
  | some s =>
      obtain ⟨session, there, _⟩ := base.mapped id s found
      rw [store_waits _ id s _ (by rw [same, found]) (apply_heap state.store o act s session there),
        quiet_record act o s session quiet,
        store_waits state.store id s session found there]

theorem write_waits (s : Nat) (record : Record) (writes : act.writes = some (s, record)) (id : String) :
    (state.store.apply o act).waits id = if state.store.sessions.lookup id = some s then record.waits
      else state.store.waits id := by
  have same := apply_sessions state.store o act (by rintro _ rfl; cases writes)
    (by rintro _ rfl; cases writes)
  cases found : state.store.sessions.lookup id with
  | none => simp [Store.waits, same, found]
  | some t =>
      obtain ⟨other, at_, _⟩ := base.mapped id t found
      rw [store_waits _ id t _ (by rw [same, found]) (apply_heap state.store o act t other at_)]
      rcases on_record_writes act o t other with ⟨written, mine, on⟩ | ⟨elsewhere, kept⟩
      · obtain ⟨rfl, rfl⟩ : s = t ∧ record = written := by simpa using writes.symm.trans mine
        rw [on, if_pos rfl]
      · rw [kept, if_neg, store_waits state.store id t other found at_]
        rintro same
        exact elsewhere (by simp [writes, Option.some.inj same])

theorem insert_waits (record : Record) (id : String) :
    (state.store.apply o (.insert record)).waits id = if record.pending.id = id then record.waits
      else state.store.waits id := by
  by_cases same : record.pending.id = id
  · subst same
    simp [Store.waits, Store.apply, Session.new]
  · have other : id ≠ record.pending.id := fun equal => same equal.symm
    rw [if_neg same]
    have found : (state.store.apply o (.insert record)).sessions.lookup id = state.store.sessions.lookup
      id := AList.lookup_insert_ne other
    cases present : state.store.sessions.lookup id with
    | none => simp [Store.waits, found, present]
    | some s =>
        obtain ⟨session, there, _⟩ := base.mapped id s present
        rw [store_waits _ id s _ (found.trans present) (apply_heap state.store o _ s session there),
          store_waits state.store id s session present there]
        rfl

omit base in
theorem evict_waits (key id : String) :
    (state.store.apply o (.evict key)).waits id = if key = id then none else state.store.waits id := by
  by_cases same : key = id
  · subst same
    simp [Store.waits, Store.apply]
  · have other : id ≠ key := fun equal => same equal.symm
    have found : (state.store.apply o (.evict key)).sessions.lookup id = state.store.sessions.lookup id :=
      AList.lookup_erase_ne other
    rw [if_neg same]
    simp only [Store.waits, found]
    rfl

end Apply

section Step

variable (sha256 : Bytes → String) (state : State) (base : Base state) (o : Nat) (fault : Option Fault)
    (op op' : Op) (act : Act)
  (log : List Entry) (here : state.ops[o]? = some op) (moved : OpMove sha256 state.store fault op act log op')
  (unbroken : ∀ saved, fault ≠ some (.persist saved))
  (current : ∀ s, (∀ key phase, op ≠ .forget key phase) → op.session = some s →
    state.store.sessions.lookup op.id = some s)
  (id : String) (history : List Happening)
  (waits : state.store.waits id = if op.promises = some id then none else awaiting .durable id history)

theorem quiet_waits (kept : (state.store.apply o act).waits id = state.store.waits id)
    (same : op'.promises = op.promises) (silent : op.tells = [])
    (waits : state.store.waits id = if op.promises = some id then none else awaiting .durable id history) :
    (state.store.apply o act).waits id =
      if op'.promises = some id then none else awaiting .durable id (history ++ op.tells) := by
  rw [kept, waits, same, silent, List.append_nil]

theorem promise_waits (key : String)
    (taken : (state.store.apply o act).waits id = if key = id then none else state.store.waits id)
    (before : op.promises = none) (after : op'.promises = some key) (silent : op.tells = [])
    (waits : state.store.waits id = if op.promises = some id then none else awaiting .durable id history) :
    (state.store.apply o act).waits id =
      if op'.promises = some id then none else awaiting .durable id (history ++ op.tells) := by
  rw [taken, waits, before, after, silent, List.append_nil]
  by_cases same : key = id <;> simp [same]

theorem told_waits (key : String) (happening : Happening)
    (kept : (state.store.apply o act).waits id = state.store.waits id) (before : op.promises = some key)
    (after : op'.promises = none) (told : op.tells = [happening])
    (ends : happening.about .durable id = if key = id then some none else none)
    (waits : state.store.waits id = if op.promises = some id then none else awaiting .durable id history) :
    (state.store.apply o act).waits id =
      if op'.promises = some id then none else awaiting .durable id (history ++ op.tells) := by
  rw [kept, waits, before, after, told, awaiting_append]
  by_cases same : key = id <;> simp [hear, ends, same]

include base here current

theorem decided_taken (s : Nat) (session : Session) (record : Record)
    (decides : ∀ key phase, op ≠ .forget key phase) (mine : op.session = some s)
    (there : state.store.heap[s]? = some session) (writes : act.writes = some (s, record))
    (off : record.waits = none) :
    (state.store.apply o act).waits id = if op.id = id then none else state.store.waits id := by
  rw [write_waits state base o act s record writes, off]
  by_cases same : op.id = id
  · rw [if_pos same, if_pos (same ▸ current s decides mine)]
  · rw [if_neg same, if_neg]
    intro found
    obtain ⟨other, at_, named⟩ := base.mapped id s found
    obtain ⟨known, at', owned⟩ := base.known o op s here mine
    rw [there] at at_ at'
    cases at_
    cases at'
    exact same (owned.symm.trans named)

include unbroken waits

theorem accept_waits (key : String) (phase next : AcceptPhase) (isOp : op = .accept key phase)
    (isNext : op' = .accept key next) (moved : AcceptMove key state.store fault phase act log next) :
    (state.store.apply o act).waits id =
      if op'.promises = some id then none else awaiting .durable id (history ++ op.tells) := by
  subst isOp isNext
  have quiet := apply_waits state base o act
  cases moved with
  | accepted s session there open_ ok =>
      refine promise_waits state o _ _ _ id history key ?_ rfl rfl rfl waits
      exact decided_taken state base o _ _ here current id s session _ (by simp) rfl there rfl
        (by simp [Record.waits])
  | failed s session saved there open_ broken => exact absurd broken (unbroken saved)
  | left s reply =>
      cases reply with
      | error e => exact quiet_waits state o _ _ _ id history (quiet rfl (by simp) (by simp) id) rfl rfl waits
      | ok token =>
          exact told_waits state o _ _ _ id history key _ (quiet rfl (by simp) (by simp) id) rfl rfl rfl
            (by simp [Happening.about]) waits
  | _ => exact quiet_waits state o _ _ _ id history (quiet rfl (by simp) (by simp) id) rfl rfl waits

theorem reject_waits (key : String) (phase next : RejectPhase) (isOp : op = .reject key phase)
    (isNext : op' = .reject key next) (moved : RejectMove key state.store fault phase act log next) :
    (state.store.apply o act).waits id =
      if op'.promises = some id then none else awaiting .durable id (history ++ op.tells) := by
  subst isOp isNext
  have quiet := apply_waits state base o act
  cases moved with
  | rejected s session there undecided ok =>
      refine promise_waits state o _ _ _ id history key ?_ rfl rfl rfl waits
      exact decided_taken state base o _ _ here current id s session _ (by simp) rfl there rfl
        (by simp [Record.waits])
  | failed s session saved there undecided broken => exact absurd broken (unbroken saved)
  | left s reply =>
      cases reply with
      | error e => exact quiet_waits state o _ _ _ id history (quiet rfl (by simp) (by simp) id) rfl rfl waits
      | ok done =>
          exact told_waits state o _ _ _ id history key _ (quiet rfl (by simp) (by simp) id) rfl rfl rfl
            (by simp [Happening.about]) waits
  | _ => exact quiet_waits state o _ _ _ id history (quiet rfl (by simp) (by simp) id) rfl rfl waits

theorem cancel_waits (caller : Option Peer) (key : String) (phase next : CancelPhase)
    (isOp : op = .cancel caller key phase) (isNext : op' = .cancel caller key next)
    (moved : CancelMove caller key state.store fault phase act log next) :
    (state.store.apply o act).waits id =
      if op'.promises = some id then none else awaiting .durable id (history ++ op.tells) := by
  subst isOp isNext
  have quiet := apply_waits state base o act
  cases moved with
  | cancelled s session points there open_ read ok =>
      refine promise_waits state o _ _ _ id history key ?_ rfl rfl rfl waits
      exact decided_taken state base o _ _ here current id s session _ (by simp) rfl there rfl
        (by simp [Record.waits])
  | repeated s session there open_ ended ok =>
      refine promise_waits state o _ _ _ id history key ?_ rfl rfl rfl waits
      rw [quiet rfl (by simp) (by simp) id]
      split
      · rename_i same
        subst same
        exact (store_waits state.store key s session (current s (by simp) rfl) there).trans
          (by simp [Record.waits, ended])
      · rfl
  | failed s session saved there open_ broken => exact absurd broken (unbroken saved)
  | unknown phase early absent =>
      rcases early with rfl | rfl <;>
        exact quiet_waits state o _ _ _ id history (quiet rfl (by simp) (by simp) id) rfl rfl waits
  | discarded s session file rest bytes there =>
      rcases remove_act_cases (partPath session.id file) fault with same | same <;> rw [same] at quiet ⊢ <;>
        exact quiet_waits state o _ _ _ id history (quiet rfl (by simp) (by simp) id) rfl rfl waits
  | left s reply =>
      cases reply with
      | error e => exact quiet_waits state o _ _ _ id history (quiet rfl (by simp) (by simp) id) rfl rfl waits
      | ok done =>
          exact told_waits state o _ _ _ id history key _ (quiet rfl (by simp) (by simp) id) rfl rfl rfl
            (by simp [Happening.about]) waits
  | _ => exact quiet_waits state o _ _ _ id history (quiet rfl (by simp) (by simp) id) rfl rfl waits

omit here current unbroken in
theorem forget_waits (key : String) (phase next : ForgetPhase) (isOp : op = .forget key phase)
    (isNext : op' = .forget key next) (moved : ForgetMove key state.store fault phase act log next) :
    (state.store.apply o act).waits id =
      if op'.promises = some id then none else awaiting .durable id (history ++ op.tells) := by
  subst isOp isNext
  have quiet := apply_waits state base o act
  cases moved with
  | evicted s =>
      rw [evict_waits, waits, awaiting_append]
      by_cases same : key = id <;> simp [Op.promises, Op.tells, hear, Happening.about, same]
  | discarded s session file rest there =>
      rcases remove_act_cases (partPath session.id file) fault with same | same <;> rw [same] at quiet ⊢ <;>
        exact quiet_waits state o _ _ _ id history (quiet rfl (by simp) (by simp) id) rfl rfl waits
  | _ => exact quiet_waits state o _ _ _ id history (quiet rfl (by simp) (by simp) id) rfl rfl waits

omit here current unbroken in
theorem registered_waits (request : RegisterRequest) (phase next : RegisterPhase)
    (isOp : op = .register request phase) (isNext : op' = .register request next)
    (moved : RegisterMove request state.store fault phase act log next) :
    (state.store.apply o act).waits id =
      if op'.promises = some id then none else awaiting .durable id (history ++ op.tells) := by
  subst isOp isNext
  have quiet := apply_waits state base o act
  cases moved with
  | inserted =>
      rw [insert_waits state base, waits, Op.tells, awaiting_registered]
      cases trusted : request.trusted <;> simp [Op.promises, Record.waits, RegisterRequest.record, trusted]
  | _ => exact quiet_waits state o _ _ _ id history (quiet rfl (by simp) (by simp) id) rfl rfl waits

omit here current unbroken in
theorem upload_waits (request : UploadRequest) (phase next : UploadPhase) (isOp : op = .upload request phase)
    (isNext : op' = .upload request next) (moved : OpMove sha256 state.store fault op act log op') :
    (state.store.apply o act).waits id =
      if op'.promises = some id then none else awaiting .durable id (history ++ op.tells) := by
  subst isOp isNext
  refine quiet_waits state o _ _ _ id history ?_ rfl rfl waits
  cases writes : act.writes with
  | none =>
      refine apply_waits state base o act writes ?_ ?_ id
      · rintro record rfl
        cases op_effect sha256 state.store fault _ _ _ log moved with
        | quiet _ _ _ silent => cases silent
      · rintro key rfl
        cases op_effect sha256 state.store fault _ _ _ log moved with
        | quiet _ _ _ silent => cases silent
  | some target =>
      obtain ⟨s, record⟩ := target
      obtain ⟨session, there, write⟩ := moved_write sha256 state.store fault _ _ act log s record moved writes
      have same : record.waits = session.record.waits := by cases write <;> rfl
      rw [write_waits state base o act s record writes id, same]
      split
      · rename_i found
        exact (store_waits state.store id s session found there).symm
      · rfl

theorem durable_waits (moved : OpMove sha256 state.store fault op act log op') :
    (state.store.apply o act).waits id =
      if op'.promises = some id then none else awaiting .durable id (history ++ op.tells) := by
  cases moved with
  | accept key phase next act log moved =>
      exact accept_waits state base o fault _ _ act log here unbroken current id history waits key phase
        next rfl rfl moved
  | reject key phase next act log moved =>
      exact reject_waits state base o fault _ _ act log here unbroken current id history waits key phase
        next rfl rfl moved
  | cancel caller key phase next act log moved =>
      exact cancel_waits state base o fault _ _ act log here unbroken current id history waits caller key
        phase next rfl rfl moved
  | forget key phase next act log moved =>
      exact forget_waits state base o fault _ _ act log id history waits key phase next rfl rfl moved
  | register request phase next act log moved =>
      exact registered_waits state base o fault _ _ act log id history waits request phase next rfl rfl moved
  | status peer key phase next act log moved =>
      cases moved <;>
        exact quiet_waits state o _ _ _ id history (apply_waits state base o _ rfl (by simp) (by simp) id)
        rfl rfl waits
  | upload request phase next act log moved =>
      exact upload_waits sha256 state base o fault _ _ act log id history waits request phase next rfl rfl
        (.upload request phase next act log moved)

end Step

end GoshTransfer
