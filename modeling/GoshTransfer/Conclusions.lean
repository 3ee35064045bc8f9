import GoshTransfer.Settlement

set_option autoImplicit false

namespace GoshTransfer

open InodeStore

def LegacyEntry.commits (id file : String) : LegacyEntry → Bool
  | .committed key name _ _ => key = id ∧ name = file
  | _ => false

def completeEvent (id : String) : LegacyEntry := .event (.transferComplete id)

-- Since its last registration, what was reported about a transfer agrees with
-- the ledger: the commits with the received files, the completion with the
-- completed set, and the cancellation with the cancelled set.
structure Concluded (id : String) (state : LegacyState) : Prop where
  tallied : Tallied id state
  received : ∀ file, file ∈ state.settled.filesOf id →
    ∃ path inode, .committed id file path inode ∈ since id state.log
  counted : ∀ file path inode, state.settled.pending.lookup id ≠ none →
    .committed id file path inode ∈ since id state.log →
    file ∈ state.settled.filesOf id
  once : ∀ file, (since id state.log).countP (LegacyEntry.commits id file) ≤ 1
  completed : completeEvent id ∈ since id state.log → id ∈ state.settled.completed ∨
    state.settled.view id = Life.absent.view
  announcing : ∀ (o : Nat) (params : ChunkRequest) (k : Nat) (x : Writing) (transfer : PendingTransfer),
    state.ops[o]? = some (.chunk params (.total k x transfer)) → params.transferId = id →
    id ∈ state.legacy.ledger.completed ∧ completeEvent id ∉ since id state.log
  single : (since id state.log).count (completeEvent id) ≤ 1
  whole : completeEvent id ∈ since id state.log → ∃ transfer, registration id state.log = some transfer ∧
    ∀ file ∈ transfer.fileIds, ∃ path inode, .committed id file path inode ∈ since id state.log
  revoking : ∀ (o : Nat) (op : LegacyOp), state.ops[o]? = some op → op.Revokes id →
    id ∈ state.settled.cancelled ∧ completeEvent id ∉ since id state.log
  revoked : cancelEvent id ∈ since id state.log →
    completeEvent id ∉ since id state.log ∧
      (id ∈ state.settled.cancelled ∨ state.settled.view id = Life.absent.view)
  closed : ∀ before after, since id state.log = before ++ cancelEvent id :: after →
    ∀ file path inode, .committed id file path inode ∉ after

theorem complete_upload (id : String) : (completeEvent id).upload id = true := decide_eq_true rfl

theorem closed_append (id : String) (log more : List LegacyEntry)
    (closed : ∀ before after, log = before ++ cancelEvent id :: after →
      ∀ file path inode, .committed id file path inode ∉ after)
    (apart : ∀ file path inode, .committed id file path inode ∈ more → cancelEvent id ∉ log ∧
      cancelEvent id ∉ more)
    (before after : List LegacyEntry) (split_ : log ++ more = before ++ cancelEvent id :: after)
    (file : String) (path : Path) (inode : Nat) :
    .committed id file path inode ∉ after := by
  intro member
  rcases List.append_eq_append_iff.mp split_ with ⟨extra, _, rest⟩ | ⟨extra, front, rest⟩
  · exact (apart file path inode (by simp [rest, member])).2 (by simp [rest])
  · cases extra with
    | nil =>
        rw [List.nil_append] at rest
        exact (apart file path inode (by simp [← rest, member])).2 (by simp [← rest])
    | cons head extra =>
        obtain ⟨rfl, rfl⟩ := List.cons.inj rest
        rcases List.mem_append.mp member with old | new
        · exact closed before extra front file path inode old
        · exact (apart file path inode new).1 (by simp [front])

section Step

variable (id : String) (state : LegacyState) (concluded : Concluded id state) (o : Nat) (reading : Reading)
    (op op' : LegacyOp)
  (act : LegacyAct) (log : List LegacyEntry) (here : state.ops[o]? = some op)
  (moved : LegacyOpMove state.legacy state.disk reading op act log op')

include concluded

theorem announcing_life (p k : Nat) (params : ChunkRequest) (x : Writing) (transfer : PendingTransfer)
    (there : state.ops[p]? = some (.chunk params (.total k x transfer))) (mine : params.transferId = id) :
    ∃ given token, state.settled.view id = (Life.approved given token).view ∧
      given.fileIds ⊆ state.settled.filesOf id := by
  have base := concluded.tallied.spared.approvals.base
  have settled : state.settled = state.legacy.ledger := settled_held state base.locked p _ there rfl
  have complete := (concluded.announcing p params k x transfer there mine).1
  rw [← settled] at complete
  obtain ⟨life, known⟩ := base.lives id
  have sound := concluded.tallied.sound
  have granted : life.view.approved ≠ none := by
    rw [← known]
    intro none_
    have nothing : (state.settled.receipts id).complete = Receipts.none.complete :=
      congrArg Receipts.complete (sound.1 none_)
    exact (iff_of_eq nothing).mp complete
  cases life with
  | approved given token => exact ⟨given, token, known, (sound.2 given (life_pending _ _ _ known)).2 complete⟩
  | _ => exact absurd rfl granted

include here moved

theorem complete_reported (reported : completeEvent id ∈ log) :
    ∃ params k x transfer, op = .chunk params (.total k x transfer) ∧ params.transferId = id := by
  rcases moved_uploads state concluded.tallied.spared.approvals.base o reading op op' act log here moved id
    _ reported (complete_upload id) with ⟨params, k, x, rfl, key⟩ | found
  · cases moved with
    | chunk params phase next act log moved =>
        cases moved with
        | committed k x => simp [completeEvent] at reported
        | quit phase k reply early => cases early
        | discarded phase k held x reply discarding => cases discarding
  · exact found

theorem commit_reported (file : String) (path : Path) (inode : Nat)
    (reported : .committed id file path inode ∈ log) :
    ∃ params k x, op = .chunk params (.commit k x) ∧ params.transferId = id ∧ params.fileId = file ∧
      x.path = path ∧ x.inode = inode ∧
      log = [.committed id file path inode] := by
  have about : (LegacyEntry.committed id file path inode).upload id = true := decide_eq_true rfl
  rcases moved_uploads state concluded.tallied.spared.approvals.base o reading op op' act log here moved id
    _ reported about with ⟨params, k, x, rfl, key⟩ | ⟨params, k, x, transfer, rfl, key⟩
  · cases moved with
    | chunk params phase next act log moved =>
        cases moved with
        | committed k x =>
            have equal := List.mem_singleton.mp reported
            cases equal
            exact ⟨params, k, x, rfl, rfl, rfl, rfl, rfl, rfl⟩
        | quit phase k reply early => cases early
        | discarded phase k held x reply discarding => cases discarding
  · cases moved with
    | chunk params phase next act log moved =>
        cases moved with
        | announced k x transfer bytes => simp at reported
        | quit phase k reply early => cases early
        | discarded phase k held x reply discarding => cases discarding

theorem concluded_turn :
    (since id (state.log ++ log) = [] ∧ (state.after o act log op').settled.filesOf id = ∅ ∧
      ∃ transfer, log = [.registered transfer] ∧ transfer.id = id) ∨
    (since id (state.log ++ log) = since id state.log ++ log ∧
      registration id (state.log ++ log) = registration id state.log ∧
      ((state.after o act log op').settled.pending.lookup id ≠ none →
        state.settled.pending.lookup id ≠ none) ∧
      (state.settled.view id = Life.absent.view →
        (state.after o act log op').settled.view id = Life.absent.view) ∧
      (id ∈ state.settled.cancelled → id ∈ (state.after o act log op').settled.cancelled ∨
        (state.after o act log op').settled.view id = Life.absent.view)) := by
  have base := concluded.tallied.spared.approvals.base
  obtain ⟨life, known⟩ := base.lives id
  obtain ⟨life', after, turn⟩ := step_turns state base o reading op op' act log here moved id life known
  rcases turn_cases id state.log log life life' turn with ⟨new, rfl, transfer, reported, key⟩ |
    ⟨grown, same, pending, absent, cancelled⟩
  · refine .inl ⟨new, ?_, transfer, reported, key⟩
    have nothing : state.settled.receipts id = .none := concluded.tallied.sound.1 (life_approved _ _ _ known)
    have receipts := step_receipts state base o reading op op' act log here moved id
    rw [nothing] at receipts
    rw [show (state.after o act log op').settled.filesOf id =
      ((state.after o act log op').settled.receipts id).files from rfl]
    generalize (state.after o act log op').settled.receipts id = now at receipts
    cases receipts with
    | commit params k x equal key told => simp [reported] at told
    | _ => rfl
  · refine .inr ⟨grown, same, ?_, ?_, ?_⟩
    · rw [life_pending _ _ life known, life_pending _ _ life' after]
      exact pending
    · intro gone
      rw [known] at gone
      have none_ : life = .absent := by cases life <;> first | rfl | simp [Life.view] at gone
      rw [after, absent none_]
    · intro marked
      rw [life_cancelled _ _ life known] at marked
      have over_ : life = .cancelled := by cases life <;> first | rfl | cases marked
      rcases cancelled over_ with equal | equal
      · exact .inl ((life_cancelled _ _ life' after).mpr (by rw [equal]; trivial))
      · exact .inr (by rw [after, equal])

theorem step_received (file : String) (now : file ∈ (state.after o act log op').settled.filesOf id) :
    ∃ path inode, .committed id file path inode ∈ since id (state.after o act log op').log := by
  have base := concluded.tallied.spared.approvals.base
  rcases concluded_turn id state concluded o reading op op' act log here moved with ⟨_, none_, _⟩ | ⟨grown, _⟩
  · rw [none_] at now
    cases now
  · rw [show (state.after o act log op').log = state.log ++ log from rfl, grown]
    have old : file ∈ state.settled.filesOf id →
      ∃ path inode, .committed id file path inode ∈ since id state.log ++ log := by
      intro before
      obtain ⟨path, inode, told⟩ := concluded.received file before
      exact ⟨path, inode, List.mem_append_left _ told⟩
    have receipts := step_receipts state base o reading op op' act log here moved id
    rw [show (state.after o act log op').settled.filesOf id =
      ((state.after o act log op').settled.receipts id).files from rfl] at now
    generalize (state.after o act log op').settled.receipts id = after at receipts now
    cases receipts with
    | commit params k x same key reported =>
        rcases Finset.mem_insert.mp now with rfl | before
        · exact ⟨x.path, x.inode, by simp [reported]⟩
        · exact old before
    | cancel incomplete silent gone marked => cases now
    | expire ids reported gone => cases now
    | _ => exact old now

theorem step_counted (file : String) (path : Path) (inode : Nat)
    (pending : (state.after o act log op').settled.pending.lookup id ≠ none)
    (told : .committed id file path inode ∈ since id (state.after o act log op').log) :
    file ∈ (state.after o act log op').settled.filesOf id := by
  have base := concluded.tallied.spared.approvals.base
  rw [show (state.after o act log op').log = state.log ++ log from rfl] at told
  rcases concluded_turn id state concluded o reading op op' act log here moved with ⟨new, _⟩ |
    ⟨grown, _, was, _⟩
  · rw [new] at told
    cases told
  · rw [grown] at told
    have receipts := step_receipts state base o reading op op' act log here moved id
    rw [show (state.after o act log op').settled.filesOf id =
      ((state.after o act log op').settled.receipts id).files from rfl]
    rcases List.mem_append.mp told with old | new
    · have before : file ∈ (state.settled.receipts id).files :=
        concluded.counted file path inode (was pending) old
      generalize (state.after o act log op').settled.receipts id = after at receipts
      cases receipts with
      | commit params k x same key reported => exact Finset.mem_insert_of_mem before
      | cancel incomplete silent gone marked => exact absurd gone pending
      | expire ids reported gone => exact absurd (congrArg View.pending gone) pending
      | _ => exact before
    · obtain ⟨params, k, x, rfl, key, rfl, _, _, alone⟩ :=
        commit_reported id state concluded o reading op op' act log here moved file path inode new
      generalize (state.after o act log op').settled.receipts id = after at receipts
      cases receipts with
      | commit params' k' x' same key' reported =>
          cases same
          exact Finset.mem_insert_self _ _
      | keep silent => exact absurd (silent _ new) (by simp [LegacyEntry.upload])
      | complete params' k' x' same key' silent => cases same
      | announce params' k' x' transfer bytes same key' reported => cases same
      | cancel incomplete silent gone marked => exact absurd gone pending
      | expire ids reported gone => exact absurd (congrArg View.pending gone) pending

omit here moved in
theorem commit_first (p k : Nat) (params : ChunkRequest) (x : Writing)
    (there : state.ops[p]? = some (.chunk params (.commit k x))) (mine : params.transferId = id)
    (path : Path) (inode : Nat) : .committed id params.fileId path inode ∉ since id state.log := by
  intro told
  have unmarked := concluded.tallied.tested p params _ there mine
  obtain ⟨settled, pending, _⟩ :=
    held_record id state concluded.tallied p params _ x.transfer there mine rfl rfl unmarked
  rw [mine] at pending
  have already := concluded.counted params.fileId path inode (by rw [settled, pending]; simp) told
  rw [settled, ← mine] at already
  exact concluded.tallied.fresh p params _ there rfl already

theorem step_once (file : String) : (since id (state.after o act log op').log).countP
    (LegacyEntry.commits id file) ≤ 1 := by
  rw [show (state.after o act log op').log = state.log ++ log from rfl]
  rcases concluded_turn id state concluded o reading op op' act log here moved with ⟨new, _⟩ | ⟨grown, _⟩
  · simp [new]
  · rw [grown, List.countP_append]
    by_cases commits : ∃ path inode, .committed id file path inode ∈ log
    · obtain ⟨path, inode, reported⟩ := commits
      obtain ⟨params, k, x, rfl, key, rfl, _, _, alone⟩ :=
        commit_reported id state concluded o reading op op' act log here moved file path inode reported
      have first : (since id state.log).countP (LegacyEntry.commits id params.fileId) = 0 := by
        rw [List.countP_eq_zero]
        intro entry told commits
        cases entry with
        | committed name given way number =>
            obtain ⟨rfl, rfl⟩ : name = id ∧ given = params.fileId := of_decide_eq_true commits
            exact commit_first name state concluded o k params x here key way number told
        | _ => cases commits
      rw [first, alone]
      simp [LegacyEntry.commits]
    · have none_ : log.countP (LegacyEntry.commits id file) = 0 := by
        rw [List.countP_eq_zero]
        intro entry told yes
        cases entry with
        | committed name given way number =>
            obtain ⟨rfl, rfl⟩ : name = id ∧ given = file := of_decide_eq_true yes
            exact commits ⟨way, number, told⟩
        | _ => cases yes
      rw [none_, Nat.add_zero]
      exact concluded.once file

omit here moved in
theorem incomplete_unannounced (incomplete : id ∉ state.settled.completed)
    (known : state.settled.view id ≠ Life.absent.view) :
    completeEvent id ∉ since id state.log := by
  intro told
  rcases concluded.completed told with complete | gone
  · exact incomplete complete
  · exact known gone

theorem step_completed (told : completeEvent id ∈ since id (state.after o act log op').log) :
    id ∈ (state.after o act log op').settled.completed ∨
    (state.after o act log op').settled.view id = Life.absent.view := by
  have base := concluded.tallied.spared.approvals.base
  rw [show (state.after o act log op').log = state.log ++ log from rfl] at told
  rcases concluded_turn id state concluded o reading op op' act log here moved with ⟨new, _⟩ |
    ⟨grown, _, _, absent, _⟩
  · rw [new] at told
    cases told
  · rw [grown] at told
    have before : (state.settled.receipts id).complete ∨ state.settled.view id = Life.absent.view := by
      rcases List.mem_append.mp told with old | new
      · exact concluded.completed old
      · obtain ⟨params, k, x, transfer, rfl, key⟩ :=
          complete_reported id state concluded o reading op op' act log here moved new
        left
        rw [settled_held state base.locked o _ here rfl]
        exact (concluded.announcing o params k x transfer here key).1
    rcases before with complete | gone
    · have receipts := step_receipts state base o reading op op' act log here moved id
      rw [show (id ∈ (state.after o act log op').settled.completed) =
        ((state.after o act log op').settled.receipts id).complete from rfl]
      generalize (state.after o act log op').settled.receipts id = after at receipts
      cases receipts with
      | complete params k x same key silent => exact .inl trivial
      | expire ids reported gone => exact .inr gone
      | _ => exact .inl complete
    · exact .inr (absent gone)

theorem step_announcing (p : Nat) (params : ChunkRequest) (k : Nat) (x : Writing) (transfer : PendingTransfer)
    (there : (state.after o act log op').ops[p]? = some (.chunk params (.total k x transfer)))
    (mine : params.transferId = id) :
    id ∈ (state.after o act log op').legacy.ledger.completed ∧
      completeEvent id ∉ since id (state.after o act log op').log := by
  have base := concluded.tallied.spared.approvals.base
  rw [show (state.after o act log op').legacy.ledger = act.book state.legacy.ledger from apply_ledger
    state.legacy o act,
    show (state.after o act log op').log = state.log ++ log from rfl]
  rcases Transition.set_cases state.ops o p op' _ there with ⟨rfl, rfl⟩ | ⟨other, before⟩
  · cases moved with
    | chunk params phase next act log moved =>
        cases moved with
        | completed k x transfer new found =>
            have settled : state.settled = state.legacy.ledger := settled_held state base.locked p _ here rfl
            subst mine
            refine ⟨Finset.mem_insert_self _ _, ?_⟩
            rw [List.append_nil]
            refine incomplete_unannounced _ state concluded (by rw [settled]; exact new) ?_
            rw [settled]
            intro gone
            exact absurd (found.symm.trans (congrArg View.pending gone)) (by simp [Life.view])
  · obtain ⟨complete, untold⟩ := concluded.announcing p params k x transfer before mine
    have free := others_free state base.locked o op here p _ before rfl other
    refine ⟨by rw [moved_books state.legacy state.disk reading op op' act log moved free]; exact complete, ?_⟩
    rcases concluded_turn id state concluded o reading op op' act log here moved with ⟨new, _⟩ | ⟨grown, _⟩
    · simp [new]
    · rw [grown]
      intro told
      rcases List.mem_append.mp told with old | new
      · exact untold old
      · obtain ⟨_, _, _, _, rfl, _⟩ :=
          complete_reported id state concluded o reading op op' act log here moved new
        cases free

theorem step_single : (since id (state.after o act log op').log).count (completeEvent id) ≤ 1 := by
  rw [show (state.after o act log op').log = state.log ++ log from rfl]
  rcases concluded_turn id state concluded o reading op op' act log here moved with ⟨new, _⟩ | ⟨grown, _⟩
  · simp [new]
  · rw [grown, List.count_append]
    by_cases told : completeEvent id ∈ log
    · obtain ⟨params, k, x, transfer, rfl, key⟩ :=
        complete_reported id state concluded o reading op op' act log here moved told
      have first : (since id state.log).count (completeEvent id) = 0 :=
        List.count_eq_zero.mpr (concluded.announcing o params k x transfer here key).2
      rw [first]
      cases moved with
      | chunk params phase next act log moved =>
          cases moved with
          | announced k x transfer bytes => simp [completeEvent, key]
          | quit phase k reply early => cases early
          | discarded phase k held x reply discarding => cases discarding
    · rw [List.count_eq_zero.mpr told, Nat.add_zero]
      exact concluded.single

theorem step_whole (told : completeEvent id ∈ since id (state.after o act log op').log) :
    ∃ transfer, registration id (state.after o act log op').log = some transfer ∧
      ∀ file ∈ transfer.fileIds,
        ∃ path inode, .committed id file path inode ∈ since id (state.after o act log op').log := by
  rw [show (state.after o act log op').log = state.log ++ log from rfl] at told ⊢
  rcases concluded_turn id state concluded o reading op op' act log here moved with ⟨new, _⟩ |
    ⟨grown, same, _⟩
  · rw [new] at told
    cases told
  · rw [grown] at told ⊢
    rw [same]
    have before : ∃ transfer, registration id state.log = some transfer ∧
        ∀ file ∈ transfer.fileIds, ∃ path inode, .committed id file path inode ∈ since id state.log := by
      rcases List.mem_append.mp told with old | new
      · exact concluded.whole old
      · obtain ⟨params, k, x, transfer, rfl, key⟩ :=
          complete_reported id state concluded o reading op op' act log here moved new
        obtain ⟨given, token, known, inside⟩ :=
          announcing_life id state concluded o k params x transfer here key
        refine ⟨given, concluded.tallied.spared.approvals.issued.settledRecord id given
          (life_pending _ _ _ known), ?_⟩
        intro file listed
        exact concluded.received file (inside listed)
    obtain ⟨transfer, registered, all_⟩ := before
    refine ⟨transfer, registered, ?_⟩
    intro file listed
    obtain ⟨path, inode, committed⟩ := all_ file listed
    exact ⟨path, inode, List.mem_append_left _ committed⟩

omit concluded here moved in
theorem revokes_todo (revokes : op.Revokes id) : op.todo ≠ [] := by
  obtain ⟨entry, planned, _⟩ := revokes
  exact List.ne_nil_of_mem planned

theorem no_completion (quiet : op.todo ≠ [] ∨ op.holds = false)
    (before : completeEvent id ∉ since id state.log) :
    completeEvent id ∉ since id (state.log ++ log) := by
  rcases concluded_turn id state concluded o reading op op' act log here moved with ⟨new, _⟩ | ⟨grown, _⟩
  · simp [new]
  · rw [grown]
    intro told
    rcases List.mem_append.mp told with old | new
    · exact before old
    · obtain ⟨_, _, _, _, rfl, _⟩ :=
        complete_reported id state concluded o reading op op' act log here moved new
      rcases quiet with planned | free
      · exact planned rfl
      · cases free

theorem step_revoking (p : Nat) (q : LegacyOp) (there : (state.after o act log op').ops[p]? = some q)
    (revokes : q.Revokes id) :
    id ∈ (state.after o act log op').settled.cancelled ∧
      completeEvent id ∉ since id (state.after o act log op').log := by
  have base := concluded.tallied.spared.approvals.base
  rw [show (state.after o act log op').log = state.log ++ log from rfl]
  rcases Transition.set_cases state.ops o p op' q there with ⟨rfl, rfl⟩ | ⟨other, before⟩
  · rcases moved_revokes state reading op q act log moved id revokes with already | ⟨verdict, info, rfl⟩
    · obtain ⟨marked, untold⟩ := concluded.revoking p op here already
      have planned := revokes_todo id op already
      refine ⟨?_, no_completion id state concluded p reading op q act log here moved (.inl planned) untold⟩
      rcases settled_moved state base.locked p op reading q act log here moved with ⟨same, _⟩ | ⟨_, idle, _⟩
      · rw [same]
        exact marked
      · exact absurd idle planned
    · have settled : state.settled = state.legacy.ledger := settled_held state base.locked p _ here rfl
      obtain ⟨incomplete, _, present⟩ := base.checked p _ here
      cases moved with
      | ruling verdict key phase next act log moved =>
          cases moved with
          | cancelled info =>
              refine ⟨?_, ?_⟩
              · rcases settled_moved state base.locked p _ reading _ _ _ here
                  (.ruling verdict id _ _ _ _ (.cancelled info)) with ⟨_, busy⟩ | ⟨_, _, _, after⟩
                · rcases busy rfl with held | held <;> cases held
                · rw [after]
                  have view := cancel_view state.legacy.ledger id id info
                    ((state.legacy.bytes.lookup id).getD 0)
                  rw [if_pos rfl] at view
                  exact (iff_of_eq (congrArg View.cancelled view)).mpr trivial
              · rw [List.append_nil]
                refine incomplete_unannounced id state concluded (by rw [settled]; exact incomplete) ?_
                rw [settled]
                intro gone
                exact present ⟨congrArg View.pending gone, congrArg View.approved gone⟩
          | quit phase reply testing => cases testing
  · obtain ⟨marked, untold⟩ := concluded.revoking p q before revokes
    have inside := todo_holds q (revokes_todo id q revokes)
    have free := others_free state base.locked o op here p q before inside other
    rw [settled_unheld state o reading op op' act log here moved base free]
    exact ⟨marked, no_completion id state concluded o reading op op' act log here moved (.inr free) untold⟩

theorem step_revoked (told : cancelEvent id ∈ since id (state.after o act log op').log) :
    completeEvent id ∉ since id (state.after o act log op').log ∧
      (id ∈ (state.after o act log op').settled.cancelled ∨
        (state.after o act log op').settled.view id = Life.absent.view) := by
  rw [show (state.after o act log op').log = state.log ++ log from rfl] at told ⊢
  rcases concluded_turn id state concluded o reading op op' act log here moved with ⟨new, _⟩ |
    ⟨grown, _, _, absent, cancelled⟩
  · rw [new] at told
    cases told
  · rw [grown] at told
    rcases List.mem_append.mp told with old | new
    · obtain ⟨untold, fate⟩ := concluded.revoked old
      refine ⟨?_, fate.elim cancelled fun gone => .inr (absent gone)⟩
      rw [grown]
      intro complete
      rcases List.mem_append.mp complete with before | reported
      · exact untold before
      · obtain ⟨params, k, x, transfer, rfl, key⟩ :=
          complete_reported id state concluded o reading op op' act log here moved reported
        obtain ⟨given, token, known, _⟩ := announcing_life id state concluded o k params x transfer here key
        rcases fate with marked | gone
        · exact (iff_of_eq (life_cancelled _ _ _ known)).mp marked
        · exact absurd ((congrArg View.pending known).symm.trans (congrArg View.pending gone))
            (by simp [Life.view])
    · have revokes := cancel_revokes state reading op op' act log moved id new
      obtain ⟨marked, untold⟩ := concluded.revoking o op here revokes
      exact ⟨no_completion id state concluded o reading op op' act log here moved
        (.inl (revokes_todo id op revokes)) untold, cancelled marked⟩

theorem step_closed (before after : List LegacyEntry)
    (split_ : since id (state.after o act log op').log = before ++ cancelEvent id :: after) (file : String)
    (path : Path) (inode : Nat) : .committed id file path inode ∉ after := by
  rw [show (state.after o act log op').log = state.log ++ log from rfl] at split_
  rcases concluded_turn id state concluded o reading op op' act log here moved with ⟨new, _⟩ | ⟨grown, _⟩
  · rw [new] at split_
    simp at split_
  · rw [grown] at split_
    refine closed_append id _ log concluded.closed ?_ before after split_ file path inode
    intro name way number reported
    obtain ⟨params, k, x, rfl, key, rfl, _, _, alone⟩ :=
      commit_reported id state concluded o reading op op' act log here moved name way number reported
    refine ⟨?_, by simp [alone, cancelEvent]⟩
    intro told
    have unmarked : params.transferId ∉ state.legacy.ledger.cancelled :=
      concluded.tallied.tested o params _ here key
    obtain ⟨settled, pending, _⟩ :=
      held_record id state concluded.tallied o params _ x.transfer here key rfl rfl unmarked
    rw [key] at unmarked pending
    rcases (concluded.revoked told).2 with marked | gone
    · rw [settled] at marked
      exact unmarked marked
    · rw [settled] at gone
      exact absurd (pending.symm.trans (congrArg View.pending gone)) (by simp [Life.view])

end Step

theorem concluded_step (id : String) (state next : LegacyState) (label : LegacyLabel)
    (concluded : Concluded id state) (allowed : sparesUploadsOf id state label = true)
    (stepped : legacyStep state label = some next) : Concluded id next := by
  have tallied := tallied_step id state next label concluded.tallied allowed stepped
  rcases legacy_step_cases state next label stepped with ⟨call, _, rfl⟩ |
    ⟨o, reading, op, act, log, op', _, here, moved, rfl⟩
  · have same := call_settled state concluded.tallied.spared.approvals.base.locked call
    refine ⟨tallied, by rw [same]; exact concluded.received, by rw [same]; exact concluded.counted,
      concluded.once,
      by rw [same]; exact concluded.completed, ?_, concluded.single, concluded.whole, ?_, by
        rw [same]; exact concluded.revoked,
      concluded.closed⟩
    · intro p params k x transfer there mine
      rcases Transition.append_cases state.ops p call.op _ there with before | new
      · exact concluded.announcing p params k x transfer before mine
      · cases call <;> cases new
    · intro p q there revokes
      rw [same]
      rcases Transition.append_cases state.ops p call.op q there with before | rfl
      · exact concluded.revoking p q before revokes
      · exact absurd (free_todo _ (legacy_call_idle call).1) (revokes_todo id _ revokes)
  · exact ⟨tallied, step_received id state concluded o reading op op' act log here moved,
      step_counted id state concluded o reading op op' act log here moved,
      step_once id state concluded o reading op op' act log here moved,
      step_completed id state concluded o reading op op' act log here moved,
      step_announcing id state concluded o reading op op' act log here moved,
      step_single id state concluded o reading op op' act log here moved,
      step_whole id state concluded o reading op op' act log here moved,
      step_revoking id state concluded o reading op op' act log here moved,
      step_revoked id state concluded o reading op op' act log here moved,
      step_closed id state concluded o reading op op' act log here moved⟩

theorem initial_concluded (id : String) (state : LegacyState) (initial : LegacyInitial state) :
    Concluded id state := by
  have tallied := initial_tallied id state initial
  have nobody : ∀ (p : Nat) (q : LegacyOp), state.ops[p]? ≠ some q := by
    intro p q there
    rw [initial.idle] at there
    cases there
  have silent : since id state.log = [] := by
    rw [initial.silent]
    rfl
  have free : state.legacy.decisions = none := by
    rw [initial.fresh]
    rfl
  refine ⟨tallied, ?_, by simp [silent], by simp [silent], by simp [silent], ?_, by simp [silent],
    by simp [silent], ?_, by simp [silent],
    by simp [silent]⟩
  · intro file now
    rw [settled_free state free, initial.fresh] at now
    simp [Legacy.empty, Ledger.empty, Ledger.filesOf] at now
  · intro p _ _ _ _ there
    exact absurd there (nobody p _)
  · intro p q there
    exact absurd there (nobody p q)

end GoshTransfer
