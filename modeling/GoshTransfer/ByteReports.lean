import GoshTransfer.Bookkeeping

set_option autoImplicit false

namespace GoshTransfer

open InodeStore

theorem last_append (id : String) (log more : List LegacyEntry) :
    lastProgress id (log ++ more) = (lastProgress id more).or (lastProgress id log) := by
  simp [lastProgress, List.filterMap_append, List.getLast?_append]

theorem last_none (id : String) (log : List LegacyEntry)
    (silent : ∀ progress, .event (.transferProgress progress) ∈ log → progress.transferId ≠ id) :
    lastProgress id log = none := by
  have nothing : log.filterMap (LegacyEntry.progressOf id) = [] := by
    refine List.filterMap_eq_nil_iff.mpr fun entry member => ?_
    cases entry with
    | event event =>
      cases event with
      | transferProgress progress => exact if_neg (silent progress member)
      | _ => rfl
    | _ => rfl
  rw [lastProgress, nothing]
  rfl

theorem last_member (id : String) (log : List LegacyEntry) (progress : TransferProgress)
    (last : lastProgress id log = some progress) :
    .event (.transferProgress progress) ∈ log ∧ progress.transferId = id := by
  obtain ⟨entry, member, found⟩ := List.mem_filterMap.mp (List.mem_of_getLast? last)
  cases entry with
  | event event =>
    cases event with
    | transferProgress given =>
      obtain ⟨mine, equal⟩ := Option.ite_none_right_eq_some.mp found
      cases equal
      exact ⟨member, mine⟩
    | _ => cases found
  | _ => cases found

section Step

variable (id : String) (state : LegacyState) (accounted : Accounted id state) (o : Nat) (reading : Reading)
    (op op' : LegacyOp)
  (act : LegacyAct) (log : List LegacyEntry) (here : state.ops[o]? = some op)
  (moved : LegacyOpMove state.legacy state.disk reading op act log op')
  (stepped : op.next state.legacy state.disk reading = some (act, log, op'))

include accounted here moved

include stepped in
theorem scored (entry : LegacyEntry) (reported : entry ∈ log) (score : entry.score = true) :
    (∃ params k x amount, op = .chunk params (.count k x amount) ∧
      entry = x.progress params ((state.legacy.bytes.lookup params.transferId).getD 0 + amount)) ∨
    (∃ params k x, op = .chunk params (.report k x) ∧ act = .tau ∧ op' = .chunk params (.commit k x) ∧
      log = [x.progress params ((state.legacy.bytes.lookup params.transferId).getD x.received)]) ∨
    ∃ params k x transfer, op = .chunk params (.total k x transfer) ∧
      log = [completeEvent params.transferId,
        .history ⟨transfer, .completed, (state.legacy.bytes.lookup params.transferId).getD
          transfer.totalSize, none⟩] := by
  have planned : ∀ change rest, op.todo = (change, log) :: rest → False := by
    intro change rest plan
    have quiet := accounted.drafts o op here (change, log) (by simp [plan]) entry reported
    rw [score] at quiet
    cases quiet
  cases moved with
  | ruling verdict key phase next act log moved =>
    cases moved with
    | edited change log rest reply => exact (planned change rest rfl).elim
    | repeated fresh token same granted =>
      rw [List.mem_singleton.mp reported] at score
      cases score
    | _ => cases reported
  | request offer phase next act log moved =>
    cases moved with
    | pruned change log rest => exact (planned change rest rfl).elim
    | edited change log rest reply => exact (planned change rest rfl).elim
    | retried total reply =>
      cases given : state.legacy.ledger.approved.lookup offer.id with
      | none =>
        rw [given] at reported
        cases reported
      | some token =>
        rw [given] at reported
        rw [List.mem_singleton.mp reported] at score
        cases score
    | selected distinct idle =>
      rw [List.mem_singleton.mp reported] at score
      cases score
    | registered total =>
      rw [List.mem_singleton.mp reported] at score
      cases score
    | _ => cases reported
  | approval peer key phase next act log moved =>
    cases moved with
    | disclosed token reply granted =>
      rw [List.mem_singleton.mp reported] at score
      cases score
    | _ => cases reported
  | chunk params phase next act log moved =>
    cases moved with
    | counted k x amount =>
      by_cases due : x.progressDue = true
      · rw [if_pos due] at reported
        exact .inl ⟨params, k, x, amount, rfl, List.mem_singleton.mp reported⟩
      · rw [if_neg due] at reported
        cases reported
    | reported k x cumulative =>
      refine .inr (.inl ⟨params, k, x, rfl, rfl, rfl, ?_⟩)
      simpa [LegacyOp.next, ChunkPhase.next] using stepped.symm
    | announced k x transfer bytes =>
      refine .inr (.inr ⟨params, k, x, transfer, rfl, ?_⟩)
      simpa [LegacyOp.next, ChunkPhase.next, completeEvent] using stepped.symm
    | opened k transfer file index free =>
      rw [List.mem_singleton.mp reported] at score
      cases score
    | committed k x =>
      rw [List.mem_singleton.mp reported] at score
      cases score
    | _ => cases reported

omit here moved in
theorem announced_counter (p k : Nat) (params : ChunkRequest) (x : Writing) (transfer : PendingTransfer)
    (there : state.ops[p]? = some (.chunk params (.total k x transfer))) (mine : params.transferId = id) :
    state.settled.pending.lookup id = some transfer ∧ transfer.id = id ∧
      state.counter id = transfer.totalSize := by
  have base := accounted.concluded.tallied.spared.approvals.base
  subst mine
  obtain ⟨given, token, known, inside⟩ :=
    announcing_life _ state accounted.concluded p k params x transfer there rfl
  have settled : state.settled = state.legacy.ledger := settled_held state base.locked p _ there rfl
  have found := accounted.announces p k params x transfer there
  rw [← settled] at found
  have pending := life_pending _ _ _ known
  obtain rfl : transfer = given := Option.some.inj (found.symm.trans pending)
  have registered := accounted.concluded.tallied.spared.approvals.issued.settledRecord _ transfer pending
  obtain ⟨total, -⟩ := record_sizes _ state accounted transfer pending
  have balanced := (accounted.booked transfer token known).balanced (.inr ⟨p, params, _, there, rfl, rfl⟩)
  rw [settled] at inside
  have alone : state.inFlight params.transferId = 0 := alone_in_flight state base.locked p params _ there rfl
  rw [committed_whole transfer _ inside, alone] at balanced
  refine ⟨pending, registration_key _ state.log transfer registered, ?_⟩
  omega

omit here moved in
theorem reported_counter (p k : Nat) (params : ChunkRequest) (x : Writing)
    (there : state.ops[p]? = some (.chunk params (.report k x))) (mine : params.transferId = id) :
    (state.legacy.bytes.lookup id).getD x.received = state.counter id := by
  have base := accounted.concluded.tallied.spared.approvals.base
  have tallied := accounted.concluded.tallied
  have live := tallied.tested p params _ there mine
  obtain ⟨settled, -, -⟩ := held_record id state tallied p params _ x.transfer there mine rfl rfl live
  obtain ⟨life, known⟩ := base.lives id
  obtain ⟨transfer, token, rfl⟩ := active_life id state accounted p params _ there mine rfl life known (by
    rintro rfl
    have marked : id ∈ state.settled.cancelled := by
      rw [life_cancelled _ _ _ known]
      trivial
    rw [settled] at marked
    exact live (mine ▸ marked))
  obtain ⟨-, -, -, -, incomplete⟩ :=
    upload_file id state accounted p params _ x there mine rfl rfl rfl transfer token known
  have balanced := (accounted.booked transfer token known).balanced (.inl incomplete)
  have alone := alone_in_flight state base.locked p params _ there rfl
  rw [mine] at alone
  simp only [ChunkPhase.counted] at alone
  cases found : state.legacy.bytes.lookup id with
  | some total => simp [LegacyState.counter, found]
  | none =>
    have zero : state.counter id = 0 := by simp [LegacyState.counter, found]
    simp only [Option.getD_none]
    omega

include stepped in
theorem step_progress (transfer : PendingTransfer)
    (pending : (state.after o act log op').settled.pending.lookup id = some transfer)
    (progress : TransferProgress)
    (told : .event (.transferProgress progress) ∈ since id (state.after o act log op').log)
    (mine : progress.transferId = id) : progress.bytesTransferred ≤ progress.totalBytes ∧
        progress.totalBytes = transfer.totalSize := by
  have base := accounted.concluded.tallied.spared.approvals.base
  have issued := accounted.concluded.tallied.spared.approvals.issued
  rw [show (state.after o act log op').log = state.log ++ log from rfl] at told
  obtain ⟨new, -⟩ | ⟨grown, sameRecord, was, -⟩ :=
    concluded_turn id state accounted.concluded o reading op op' act log here moved
  · rw [new] at told
    cases told
  · obtain ⟨given, before⟩ := Option.ne_none_iff_exists'.mp (was (by rw [pending]; simp))
    have after :=
      (step_issued state base issued o reading op op' act log here moved).settledRecord id transfer pending
    obtain rfl : given = transfer :=
      Option.some.inj ((issued.settledRecord id given before).symm.trans (sameRecord.symm.trans after))
    rw [grown] at told
    obtain old | new := List.mem_append.mp told
    · exact accounted.progress given before progress old mine
    · obtain ⟨life, known⟩ := base.lives id
      have approved : ∀ (params : ChunkRequest) (phase : ChunkPhase), op = .chunk params phase →
        params.transferId = id →
          phase.active = true → ∃ token, life = .approved given token := by
        intro params phase same own active
        have live : life ≠ .cancelled := by
          rintro rfl
          rw [life_pending _ _ _ known] at before
          cases before
        obtain ⟨transfer, token, rfl⟩ :=
          active_life id state accounted o params phase (here.trans (by rw [same])) own active life known live
        rw [life_pending _ _ _ known] at before
        cases before
        exact ⟨token, rfl⟩
      obtain ⟨params, k, x, amount, rfl, equal⟩ | ⟨params, k, x, rfl, -, -, alone⟩ |
        ⟨params, k, x, transfer, rfl, alone⟩ :=
        scored id state accounted o reading op op' act log here moved stepped _ new rfl
      · cases equal
        have own : params.transferId = id := mine
        subst own
        obtain ⟨token, rfl⟩ := approved params _ rfl rfl rfl
        have fits : x.received ≤ x.file.size ∧ amount ≤ x.received := accounted.fits o params _ here
        obtain ⟨same, -, -, -, incomplete⟩ :=
          upload_file _ state accounted o params _ x here rfl rfl rfl rfl given token known
        have within :=
          upload_within _ state accounted o params _ x here rfl rfl rfl rfl given token known fits.1
        have balanced := (accounted.booked given token known).balanced (.inl incomplete)
        have alone := alone_in_flight state base.locked o params _ here rfl
        simp only [ChunkPhase.counted] at alone
        simp only [LegacyState.counter] at balanced
        refine ⟨?_, by rw [← same]⟩
        simp only [same]
        omega
      · rw [alone] at new
        cases List.mem_singleton.mp new
        have own : params.transferId = id := mine
        subst own
        obtain ⟨token, rfl⟩ := approved params _ rfl rfl rfl
        have whole : x.received = x.file.size := accounted.fits o params _ here
        obtain ⟨same, -, -, -, incomplete⟩ :=
          upload_file _ state accounted o params _ x here rfl rfl rfl rfl given token known
        have within :=
          upload_within _ state accounted o params _ x here rfl rfl rfl rfl given token known whole.le
        have balanced := (accounted.booked given token known).balanced (.inl incomplete)
        have flight := alone_in_flight state base.locked o params _ here rfl
        have counter := reported_counter _ state accounted o k params x here rfl
        simp only [ChunkPhase.counted] at flight
        refine ⟨?_, by rw [← same]⟩
        simp only [same, counter]
        omega
      · rw [alone] at new
        simp [completeEvent] at new

include stepped in
theorem point_kept (p : Nat) (params : ChunkRequest) (phase : ChunkPhase)
    (there : state.ops[p]? = some (.chunk params phase)) (mine : params.transferId = id)
    (concluding : phase.concluding = true) (other : p ≠ o) :
    (state.after o act log op').counter id = state.counter id ∧
      lastProgress id (since id (state.after o act log op').log) = lastProgress id (since id state.log) := by
  have base := accounted.concluded.tallied.spared.approvals.base
  obtain ⟨holds, inside, -⟩ := concluding_inside phase concluding
  have free := others_free state base.locked o op here p _ there holds other
  have unlocked : ∀ given stage, op = .chunk given stage → given.transferId = id → stage.locked = false := by
    rintro given stage rfl same
    by_contra held
    exact other (one_upload state base.locked p o params given phase stage there here
      (mine.trans same.symm) inside (by simpa using held))
  have idle := free_todo op free
  have unregistered : ∀ transfer, .registered transfer ∈ log → transfer.id ≠ id := by
    intro transfer told
    obtain ⟨offer, total, rfl, -⟩ :=
      (moved_reports state.legacy state.disk reading op op' act log moved (base.drafted o op here)).1
        transfer told
    cases free
  have silent : ∀ progress, .event (.transferProgress progress) ∈ log → progress.transferId ≠ id := by
    intro progress told same
    obtain ⟨given, k, x, amount, rfl, equal⟩ | ⟨given, k, x, rfl, -⟩ | ⟨given, k, x, transfer, rfl, -⟩ :=
      scored id state accounted o reading op op' act log here moved stepped _ told rfl
    · cases equal
      cases unlocked given _ rfl same
    · cases free
    · cases free
  refine ⟨?_, ?_⟩
  · by_cases own : ∃ given stage, op = .chunk given stage ∧ given.transferId = id
    · obtain ⟨given, stage, rfl, same⟩ := own
      cases moved with
      | chunk given stage next act log moved =>
        have bytes :=
          (inactive_bytes state o reading act log given stage next state.legacy moved
            (.inr (unlocked given stage rfl same))).1
        simp only [LegacyState.counter, LegacyState.after, bytes]
    · have foreign : ∀ given stage, op = .chunk given stage → given.transferId ≠ id :=
        fun given stage equal same => own ⟨given, stage, equal, same⟩
      obtain ⟨bytes, -⟩ | ⟨change, -, plan, -⟩ :=
        foreign_books state base o reading op op' act log here moved id foreign
      · exact congrArg (fun found : Option Nat => found.getD 0) bytes
      · rw [idle] at plan
        cases plan
  · rw [show (state.after o act log op').log = state.log ++ log from rfl,
      since_quiet id state.log log unregistered, last_append,
      last_none id log silent]
    rfl

include stepped in
theorem step_point (p : Nat) (params : ChunkRequest) (phase : ChunkPhase)
    (there : (state.after o act log op').ops[p]? = some (.chunk params phase)) (mine : params.transferId = id)
    (concluding : phase.concluding = true) :
    ∃ progress, lastProgress id (since id (state.after o act log op').log) = some progress ∧
      progress.bytesTransferred = (state.after o act log op').counter id := by
  obtain ⟨rfl, rfl⟩ | ⟨other, before⟩ := Transition.set_cases state.ops o p op' _ there
  · cases moved with
    | chunk params stage next act log moved =>
      have carried := accounted.point p params stage here mine
      cases moved with
      | reported k x cumulative =>
        have equal : cumulative = (state.legacy.bytes.lookup params.transferId).getD x.received := by
          simpa [LegacyOp.next, ChunkPhase.next, Writing.progress, eq_comm] using stepped
        have counter := reported_counter id state accounted p k params x here mine
        subst mine
        refine ⟨⟨params.transferId, some x.storedName, cumulative, x.transfer.totalSize⟩, ?_,
          equal.trans counter⟩
        rw [show (state.after p LegacyAct.tau [x.progress params cumulative]
          (.chunk params (.commit k x))).log = state.log ++ [x.progress params cumulative] from rfl,
          since_quiet _ _ _ (by simp [Writing.progress]), last_append]
        simp [lastProgress, LegacyEntry.progressOf, Writing.progress]
      | committed k x =>
        obtain ⟨progress, last, equal⟩ := carried rfl
        refine ⟨progress, ?_, equal⟩
        rw [show (state.after p (.edit (.receive params.transferId params.fileId))
          [.committed params.transferId params.fileId x.path x.inode] (.chunk params (.tally k x))).log =
          state.log ++ [.committed params.transferId params.fileId x.path x.inode] from rfl,
          since_quiet _ _ _ (by simp), last_append, last]
        rfl
      | whole k x all_ =>
        obtain ⟨progress, last, equal⟩ := carried rfl
        exact ⟨progress, by simpa [LegacyState.after] using last, equal⟩
      | completed k x transfer new found =>
        obtain ⟨progress, last, equal⟩ := carried rfl
        exact ⟨progress, by simpa [LegacyState.after] using last, equal⟩
      | unannounced k x lost => cases concluding
      | _ => cases concluding
  · obtain ⟨counter, last⟩ :=
      point_kept id state accounted o reading op op' act log here moved stepped p params phase before mine
        concluding other
    rw [counter, last]
    exact accounted.point p params phase before mine concluding

omit accounted here in
theorem announcement (params : ChunkRequest) (k : Nat) (x : Writing) (transfer : PendingTransfer)
    (same : op = .chunk params (.total k x transfer)) :
    ∃ bytes, log = [completeEvent params.transferId, .history ⟨transfer, .completed, bytes, none⟩] := by
  subst same
  cases moved with
  | chunk params phase next act log moved =>
    cases moved with
    | announced k x transfer bytes => exact ⟨bytes, rfl⟩
    | quit phase k reply early => cases early
    | discarded phase k held x reply discarding => cases discarding

theorem step_final (before after : List LegacyEntry)
    (parts : since id (state.after o act log op').log = before ++ completeEvent id :: after) :
    ∃ progress, lastProgress id before = some progress ∧ progress.bytesTransferred = progress.totalBytes := by
  rw [show (state.after o act log op').log = state.log ++ log from rfl] at parts
  obtain ⟨new, -⟩ | ⟨grown, -⟩ :=
    concluded_turn id state accounted.concluded o reading op op' act log here moved
  · rw [new] at parts
    simp at parts
  · rw [grown] at parts
    have announced : ∀ extra, log = extra ++ completeEvent id :: after →
        ∃ progress, lastProgress id (since id state.log ++ extra) = some progress ∧
          progress.bytesTransferred = progress.totalBytes := by
      intro extra rest
      have told : completeEvent id ∈ log := by simp [rest]
      obtain ⟨params, k, x, transfer, same, mine⟩ :=
        complete_reported id state accounted.concluded o reading op op' act log here moved told
      obtain ⟨bytes, two⟩ := announcement state reading op op' act log moved params k x transfer same
      rw [same] at here
      obtain ⟨progress, last, equal⟩ := accounted.point o params _ here mine rfl
      obtain ⟨pending, -, counter⟩ := announced_counter id state accounted o k params x transfer here mine
      have first : extra = [] := by
        rw [two] at rest
        cases extra with
        | nil => rfl
        | cons head tail =>
          obtain ⟨-, rest⟩ := List.cons.inj rest
          cases tail <;> simp [completeEvent] at rest
      obtain ⟨member, own⟩ := last_member id _ progress last
      have within := accounted.progress transfer pending progress member own
      exact ⟨progress, by rw [first, List.append_nil, last], by omega⟩
    obtain ⟨extra, rfl, rest⟩ | ⟨extra, front, rest⟩ := List.append_eq_append_iff.mp parts
    · exact announced extra rest
    · cases extra with
      | nil =>
        rw [List.append_nil] at front
        rw [← front]
        simpa using announced [] rest.symm
      | cons head extra =>
        obtain ⟨rfl, rfl⟩ := List.cons.inj rest
        exact accounted.final before extra front

include stepped in
theorem step_recorded (record : HistoryRecord) (told : .history record ∈ (state.after o act log op').log)
    (mine : record.transfer.id = id) (completed : record.status = .completed) :
    record.bytesTransferred = record.transfer.totalSize := by
  obtain old | new := List.mem_append.mp told
  · exact accounted.recorded record old mine completed
  · obtain ⟨params, k, x, amount, -, equal⟩ | ⟨params, k, x, -, -, -, alone⟩ |
      ⟨params, k, x, transfer, rfl, two⟩ :=
      scored id state accounted o reading op op' act log here moved stepped _ new (decide_eq_true completed)
    · cases equal
    · rw [alone] at new
      cases List.mem_singleton.mp new
    · simp only [two, completeEvent, List.mem_cons, reduceCtorEq, LegacyEntry.history.injEq,
        List.not_mem_nil, or_false, false_or] at new
      subst new
      have found := accounted.announces o k params x transfer here
      have key := registration_key _ state.log transfer
        (accounted.concluded.tallied.spared.approvals.issued.record _ transfer found)
      have own : params.transferId = id := key.symm.trans mine
      obtain ⟨-, -, counter⟩ := announced_counter id state accounted o k params x transfer here own
      subst own
      cases bytes : state.legacy.bytes.lookup params.transferId with
      | none => rfl
      | some total =>
        simp only [LegacyState.counter, bytes, Option.getD_some] at counter
        exact counter

end Step

theorem call_in_flight (id : String) (state : LegacyState) (call : LegacyCall) :
    LegacyState.inFlight { state with ops := state.ops ++ [call.op] } id = state.inFlight id := by
  have none_ : call.op.inFlight id = 0 := by
    cases call with
    | chunk params => simp [LegacyCall.op, chunkUploadHandler, LegacyOp.inFlight, ChunkPhase.counted]
    | _ => rfl
  simp [LegacyState.inFlight, none_]

theorem accounted_call (id : String) (state : LegacyState) (accounted : Accounted id state)
    (call : LegacyCall) (concluded : Concluded id { state with ops := state.ops ++ [call.op] })
    (proclaimed : Proclaimed id { state with ops := state.ops ++ [call.op] }) :
    Accounted id { state with ops := state.ops ++ [call.op] } := by
  have base := accounted.concluded.tallied.spared.approvals.base
  have same := call_settled state base.locked call
  have idle := free_todo _ (legacy_call_idle call).1
  have uploads : ∀ (p : Nat) (params : ChunkRequest) (phase : ChunkPhase), (state.ops ++ [call.op])[p]? =
    some (.chunk params phase) →
      state.ops[p]? = some (.chunk params phase) ∨ phase = .seat := by
    intro p params phase there
    obtain before | new := Transition.append_cases state.ops p call.op _ there
    · exact .inl before
    · cases call <;> cases new
      exact .inr rfl
  have kept : ∀ (p : Nat) (q : LegacyOp), state.ops[p]? = some q → (state.ops ++ [call.op])[p]? = some q := by
    intro p q there
    rw [List.getElem?_append_left (List.getElem?_eq_some_iff.mp there).1]
    exact there
  have ends : Finishing id { state with ops := state.ops ++ [call.op] } ↔ Finishing id state := by
    constructor
    · rintro ⟨p, params, phase, there, mine, finishing⟩
      obtain before | rfl := uploads p params phase there
      · exact ⟨p, params, phase, before, mine, finishing⟩
      · cases finishing
    · rintro ⟨p, params, phase, there, mine, finishing⟩
      exact ⟨p, params, phase, kept p _ there, mine, finishing⟩
  refine ⟨concluded, proclaimed, accounted.sums, ?_, ?_, ?_, ?_, ?_, ?_, ?_, ?_, ?_, accounted.final,
    accounted.recorded⟩
  · intro p params phase there
    obtain before | rfl := uploads p params phase there
    · exact accounted.fits p params phase before
    · trivial
  · intro p params phase there finishing
    obtain before | rfl := uploads p params phase there
    · exact accounted.finished p params phase before finishing
    · cases finishing
  · intro p k params x transfer there
    obtain before | impossible := uploads p params _ there
    · exact accounted.announces p k params x transfer before
    · cases impossible
  · intro p q there entry member wipes
    rw [same]
    obtain before | rfl := Transition.append_cases state.ops p call.op q there
    · exact accounted.wipes p q before entry member wipes
    · rw [idle] at member
      cases member
  · intro p q there entry member
    obtain before | rfl := Transition.append_cases state.ops p call.op q there
    · exact accounted.drafts p q before entry member
    · rw [idle] at member
      cases member
  · rw [same]
    intro undecided unmarked
    obtain zero | ⟨p, q, report, there, planned⟩ := accounted.idle undecided unmarked
    · exact .inl zero
    · exact .inr ⟨p, q, report, kept p q there, planned⟩
  · rw [same]
    intro transfer token known
    have booked := accounted.booked transfer token known
    refine ⟨fun opened => ?_, fun complete quiet => booked.cleared complete (by rw [← ends]; exact quiet)⟩
    rw [call_in_flight]
    rw [ends] at opened
    exact booked.balanced opened
  · rw [same]
    exact accounted.progress
  · intro p params phase there mine concluding
    obtain before | rfl := uploads p params phase there
    · exact accounted.point p params phase before mine concluding
    · cases concluding

theorem accounted_step (id : String) (state next : LegacyState) (label : LegacyLabel)
    (accounted : Accounted id state) (allowed : sparesUploadsOf id state label = true)
    (stepped : legacyStep state label = some next) : Accounted id next := by
  have concluded := concluded_step id state next label accounted.concluded allowed stepped
  have proclaimed := proclaimed_step id state next label accounted.proclaimed allowed stepped
  cases label with
  | call call =>
    obtain rfl : { state with ops := state.ops ++ [call.op] } = next := by simpa [legacyStep] using stepped
    exact accounted_call id state accounted call concluded proclaimed
  | advance o reading =>
    obtain ⟨op, here, stepped⟩ := Option.bind_eq_some_iff.mp stepped
    obtain ⟨⟨act, log, op'⟩, advanced, stepped⟩ := Option.bind_eq_some_iff.mp stepped
    obtain rfl : _ = next := by simpa using stepped
    have moved := legacy_op_move _ _ _ _ _ _ _ advanced
    exact ⟨concluded, proclaimed, step_sums id state accounted o reading op op' act log here moved,
      step_fits id state accounted o reading op op' act log here moved,
      step_finished id state accounted o reading op op' act log here moved,
      step_announces id state accounted o reading op op' act log here moved,
      step_wipes id state accounted o reading op op' act log here moved,
      step_drafts id state accounted o reading op op' act log here moved,
      step_idle id state accounted o reading op op' act log here moved,
      step_booked id state accounted o reading op op' act log here moved,
      step_progress id state accounted o reading op op' act log here moved advanced,
      step_point id state accounted o reading op op' act log here moved advanced,
      step_final id state accounted o reading op op' act log here moved,
      step_recorded id state accounted o reading op op' act log here moved advanced⟩

theorem initial_accounted (id : String) (state : LegacyState) (initial : LegacyInitial state) :
    Accounted id state := by
  have nobody : ∀ (p : Nat) (q : LegacyOp), state.ops[p]? ≠ some q := by
    intro p q there
    rw [initial.idle] at there
    cases there
  have silent : since id state.log = [] := by
    rw [initial.silent]
    rfl
  have zero : state.counter id = 0 := by
    rw [LegacyState.counter, initial.fresh]
    rfl
  have free : state.legacy.decisions = none := by
    rw [initial.fresh]
    rfl
  refine ⟨initial_concluded id state initial, initial_proclaimed id state initial, by simp [initial.silent],
    ?_, ?_, ?_, ?_, ?_,
    fun _ _ => .inl zero, ?_, by simp [silent], ?_, by simp [silent], by simp [initial.silent]⟩
  · exact fun p params phase there => absurd there (nobody p _)
  · exact fun p params phase there => absurd there (nobody p _)
  · exact fun p k params x transfer there => absurd there (nobody p _)
  · exact fun p q there => absurd there (nobody p q)
  · exact fun p q there => absurd there (nobody p q)
  · intro transfer token known
    have pending := life_pending _ _ _ known
    rw [settled_free state free, initial.fresh] at pending
    cases pending
  · exact fun p params phase there => absurd there (nobody p _)

theorem registered_booked (id : String) (state : LegacyState) (accounted : Accounted id state)
    (transfer : PendingTransfer) (pending : state.settled.pending.lookup id = some transfer) :
    Booked id state transfer := by
  have base := accounted.concluded.tallied.spared.approvals.base
  obtain ⟨life, known⟩ := base.lives id
  rw [life_pending _ _ life known] at pending
  cases life with
  | approved given token =>
    obtain rfl : given = transfer := Option.some.inj pending
    exact accounted.booked given token known
  | waiting given =>
    have unmarked : id ∉ state.settled.cancelled := by
      rw [life_cancelled _ _ _ known]
      exact fun marked => marked
    have undecided := life_approved _ _ _ known
    have nothing : state.legacy.ledger.receipts id = .none := by
      rw [← known_receipts id state accounted _ known (by simp) (by simp)]
      exact accounted.concluded.tallied.sound.1 undecided
    have files : state.legacy.ledger.filesOf id = ∅ := congrArg Receipts.files nothing
    have incomplete : id ∉ state.legacy.ledger.completed :=
      (iff_of_eq (congrArg Receipts.complete nothing)).mp
    have silent : state.inFlight id = 0 := by
      refine idle_in_flight id state fun p params phase there mine => ?_
      by_contra active
      obtain ⟨_, _, impossible⟩ :=
        active_life id state accounted p params phase there mine (by simpa using active) _ known (by simp)
      cases impossible
    refine ⟨fun _ => ?_, fun complete => absurd complete incomplete⟩
    rw [files, committed_none, silent]
    obtain zero | ⟨p, q, report, there, planned⟩ := accounted.idle undecided unmarked
    · exact zero
    · obtain gone | marked := accounted.wipes p q there _ planned (decide_eq_true rfl)
      · cases life_unique _ .absent (known.symm.trans gone)
      · exact absurd marked unmarked
  | _ => cases pending

-- For a registered transfer: the counter is the size of the committed files and
-- what the one upload under way has counted of the bytes in its file, a failed
-- upload takes back what is there, and progress and history tell the counter.
structure BytesAccounted (id : String) (state : LegacyState) (transfer : PendingTransfer) : Prop where
  booked : Booked id state transfer
  flight : ∀ (o : Nat) (params : ChunkRequest) (phase : ChunkPhase),
    state.ops[o]? = some (.chunk params phase) → params.transferId = id →
    phase.locked = true → state.inFlight id = phase.counted
  written : ∀ (o : Nat) (params : ChunkRequest) (phase : ChunkPhase) (x : Writing) (n : Nat),
    state.ops[o]? = some (.chunk params phase) →
    phase.writing = some x → phase.filled = some n → ∃ bytes, state.disk.inodes[x.inode]? = some bytes ∧
      bytes.length = n
  unsaturated : ∀ (o k : Nat) (params : ChunkRequest) (held : Bool) (x : Writing) (reply : LegacyResponse)
    (total : Nat),
    state.ops[o]? = some (.chunk params (.rollback k held x reply)) → params.transferId = id →
      state.legacy.bytes.lookup id = some total →
    x.received ≤ total
  progress : ∀ progress, .event (.transferProgress progress) ∈ since id state.log → progress.transferId = id →
    progress.bytesTransferred ≤ progress.totalBytes ∧ progress.totalBytes = transfer.totalSize
  final : ∀ before after, since id state.log = before ++ completeEvent id :: after →
    ∃ progress, lastProgress id before = some progress ∧ progress.bytesTransferred = progress.totalBytes
  recorded : ∀ record, .history record ∈ state.log → record.transfer.id = id → record.status = .completed →
    record.bytesTransferred = record.transfer.totalSize

theorem bytes_are_accounted (id : String) (start state : LegacyState) (initial : LegacyInitial start)
    (run : Transition.Run legacyStep (fun state label => sparesUploadsOf id state label = true) start state)
    (transfer : PendingTransfer) (registered : state.settled.pending.lookup id = some transfer) :
    BytesAccounted id state transfer := by
  obtain ⟨accounted, filed⟩ := Transition.run_invariant legacyStep _ (fun state => Accounted id state ∧
    Filed state)
    (fun state label next both allowed stepped => ⟨accounted_step id state next label both.1 allowed stepped,
      filed_step state next label both.1.concluded.tallied.spared.approvals.base both.2 stepped⟩)
    start state run ⟨initial_accounted id start initial, initial_filed start initial⟩
  have base := accounted.concluded.tallied.spared.approvals.base
  have booked := registered_booked id state accounted transfer registered
  have flight : ∀ (o : Nat) (params : ChunkRequest) (phase : ChunkPhase),
    state.ops[o]? = some (.chunk params phase) →
      params.transferId = id → phase.locked = true → state.inFlight id = phase.counted := by
    intro o params phase here mine inside
    rw [← mine]
    exact alone_in_flight state base.locked o params phase here inside
  refine ⟨booked, flight, ?_, ?_, accounted.progress transfer registered, accounted.final, accounted.recorded⟩
  · intro o params phase x n here writing filled
    exact filed.sized o _ x.path x.inode n here (by simp [LegacyOp.dest, ChunkPhase.dest, writing]) filled
  · intro o k params held x reply total here mine present
    have counted : state.inFlight id = x.received := flight o params _ here mine rfl
    by_cases gone : id ∈ state.legacy.ledger.completed ∧ ¬ Finishing id state
    · rw [booked.cleared gone.1 gone.2] at present
      cases present
    · have balanced := booked.balanced (by by_cases done : id ∈ state.legacy.ledger.completed <;> simp_all)
      simp only [LegacyState.counter, present, Option.getD_some] at balanced
      omega

def pairOffer : Offer := { smallOffer true with request := ⟨offerId, none, [⟨"a", 2, none, "f", none⟩], 0⟩ }

-- Pairs of one read of the body and the step after it.
def bodyReads (o : Nat) (events : List BodyEvent) : List LegacyLabel :=
  events.flatMap fun event => [.advance o { calm with body := event }, .advance o calm]

def LegacyEntry.completes (transfer : PendingTransfer) : LegacyEntry → Bool
  | .history record => record.status = .completed && record.transfer = transfer
  | _ => false

theorem completes_record (transfer : PendingTransfer) (entry : LegacyEntry)
    (completes : entry.completes transfer = true) :
    ∃ record, entry = .history record ∧ record.status = .completed ∧ record.transfer = transfer := by
  cases entry with
  | history record => exact ⟨record, rfl, by simpa [LegacyEntry.completes] using completes⟩
  | _ => cases completes

-- An upload breaks off after its first byte, and the next one sends both.
theorem broken_upload_is_counted_once : ∃ state record,
    Transition.Run legacyStep
    (fun state label => sparesUploadsOf offerId state label = true) emptyLegacy state ∧
      .history record ∈ state.log ∧ record.status = .completed ∧ record.bytesTransferred = 2 := by
  obtain ⟨state, run, checked⟩ :=
    Transition.replay_reaches legacyStep (fun state label => sparesUploadsOf offerId state label = true)
    (.call (.request pairOffer) :: legacyAdvances 0 14 ++ .call (.chunk smallChunk) :: legacyAdvances 1 10 ++
      bodyReads 1 [.chunk [7], .broken] ++ legacyAdvances 1 3 ++ .call (.chunk smallChunk) ::
      legacyAdvances 2 10 ++
        bodyReads 2 [.chunk [7, 8]] ++ legacyAdvances 2 14) emptyLegacy
    (fun state => state.legacy.decisions == none && state.legacy.ledger.pending.lookup offerId ==
      some (pairOffer.pending 2) && state.log.any (LegacyEntry.completes (pairOffer.pending 2)))
      (by decide +kernel)
  simp only [Bool.and_eq_true, beq_iff_eq, List.any_eq_true] at checked
  obtain ⟨⟨free, pending⟩, ⟨entry, told, completes⟩⟩ := checked
  obtain ⟨record, rfl, completed, same⟩ := completes_record _ entry completes
  have accounts := bytes_are_accounted offerId emptyLegacy state empty_legacy_initial run _
    (by rw [settled_free state free]; exact pending)
  have bytes := accounts.recorded record told (by rw [same]; rfl) completed
  exact ⟨state, record, run, told, completed, by rw [bytes, same]; rfl⟩

end GoshTransfer
