import GoshTransfer.LegacyFiles

set_option autoImplicit false

namespace GoshTransfer

open InodeStore

def LegacyEntry.upload (id : String) : LegacyEntry → Bool
  | .committed key _ _ _ => key = id
  | .event (.transferComplete key) => key = id
  | _ => false

def cancelEvent (id : String) : LegacyEntry := .event (.transferFailed id "Transfer cancelled")

-- What a step does to the receipts of an id and reports about it, with the view
-- that it leaves behind.
inductive ReceiptTurn (id : String) (op : LegacyOp) (log : List LegacyEntry) (view : View)
    (receipts : Receipts) :
    Receipts → Prop where
  | keep (silent : ∀ entry ∈ log, entry.upload id = false) : ReceiptTurn id op log view receipts receipts
  | commit (params : ChunkRequest) (k : Nat) (x : Writing) (same : op = .chunk params (.commit k x))
      (key : params.transferId = id) (reported : log = [.committed id params.fileId x.path x.inode]) :
      ReceiptTurn id op log view receipts { receipts with files := insert params.fileId receipts.files }
  | complete (params : ChunkRequest) (k : Nat) (x : Writing) (same : op = .chunk params (.complete k x))
      (key : params.transferId = id) (silent : log = []) : ReceiptTurn id op log view receipts
      { receipts with complete := True }
  | announce (params : ChunkRequest) (k : Nat) (x : Writing) (transfer : PendingTransfer) (bytes : Nat)
      (same : op = .chunk params (.total k x transfer)) (key : params.transferId = id)
      (reported : log = [.event (.transferComplete id), .history ⟨transfer, .completed, bytes, none⟩]) :
      ReceiptTurn id op log view receipts receipts
  | cancel (incomplete : ¬ receipts.complete) (silent : log = []) (gone : view.pending = none)
      (marked : view.cancelled) : ReceiptTurn id op log view receipts ⟨∅, receipts.complete⟩
  | expire (ids : List String) (reported : log = [.expired ids]) (gone : view = Life.absent.view) :
      ReceiptTurn id op log view receipts .none

theorem routine_upload (id : String) (entry : LegacyEntry) (routine : entry.routine = true) :
    entry.upload id = false := by
  cases entry with
  | event event => cases event <;> first | rfl | cases routine
  | committed key file path inode => cases routine
  | _ => rfl

section Moved

variable (state : LegacyState) (base : LegacyBase state) (o : Nat) (reading : Reading) (op op' : LegacyOp)
    (act : LegacyAct)
  (log : List LegacyEntry) (here : state.ops[o]? = some op)
    (moved : LegacyOpMove state.legacy state.disk reading op act log op')

include base here moved

theorem moved_uploads (id : String) (entry : LegacyEntry) (reported : entry ∈ log)
    (about : entry.upload id = true) :
    (∃ params k x, op = .chunk params (.commit k x) ∧ params.transferId = id) ∨
      ∃ params k x transfer, op = .chunk params (.total k x transfer) ∧ params.transferId = id := by
  have planned : ∀ change rest, op.todo = (change, log) :: rest → False := by
    intro change rest plan
    have quiet :=
      routine_upload id entry ((base.drafted o op here (change, log) (by simp [plan])).2 entry reported)
    rw [about] at quiet
    cases quiet
  cases moved with
  | ruling verdict key phase next act log moved =>
      cases moved with
      | edited change log rest reply => exact (planned change rest rfl).elim
      | repeated fresh token same granted =>
          rw [List.mem_singleton.mp reported] at about
          cases about
      | _ => cases reported
  | request offer phase next act log moved =>
      cases moved with
      | pruned change log rest => exact (planned change rest rfl).elim
      | edited change log rest reply => exact (planned change rest rfl).elim
      | retried total reply =>
          cases given : state.legacy.ledger.approved.lookup offer.id with
          | none =>
              rw [given] at reported
              cases reported
          | some token =>
              rw [given] at reported
              rw [List.mem_singleton.mp reported] at about
              cases about
      | selected distinct idle =>
          rw [List.mem_singleton.mp reported] at about
          cases about
      | registered total =>
          rw [List.mem_singleton.mp reported] at about
          cases about
      | _ => cases reported
  | approval peer key phase next act log moved =>
      cases moved with
      | disclosed token reply granted =>
          rw [List.mem_singleton.mp reported] at about
          cases about
      | _ => cases reported
  | chunk params phase next act log moved =>
      cases moved with
      | committed k x =>
          rw [List.mem_singleton.mp reported] at about
          exact .inl ⟨params, k, x, rfl, of_decide_eq_true about⟩
      | announced k x transfer bytes =>
          simp only [List.mem_cons, List.not_mem_nil, or_false] at reported
          rcases reported with rfl | rfl
          · exact .inr ⟨params, k, x, transfer, rfl, of_decide_eq_true about⟩
          · cases about
      | opened k transfer file index free =>
          rw [List.mem_singleton.mp reported] at about
          cases about
      | reported k x cumulative =>
          rw [List.mem_singleton.mp reported] at about
          cases about
      | counted k x amount =>
          by_cases due : x.progressDue = true
          · rw [if_pos due] at reported
            rw [List.mem_singleton.mp reported] at about
            cases about
          · rw [if_neg due] at reported
            cases reported
      | _ => cases reported

theorem silent_other (id : String) (other : ∀ params k x, op = .chunk params (.commit k x) →
    params.transferId ≠ id)
    (other' : ∀ params k x transfer, op = .chunk params (.total k x transfer) → params.transferId ≠ id) :
    ∀ entry ∈ log, entry.upload id = false := by
  intro entry reported
  by_contra about
  rcases moved_uploads state base o reading op op' act log here moved id entry reported (by simpa using about)
    with ⟨params, k, x, same, key⟩ | ⟨params, k, x, transfer, same, key⟩
  · exact other params k x same key
  · exact other' params k x transfer same key

theorem step_receipts (id : String) :
    ReceiptTurn id op log ((state.after o act log op').settled.view id) (state.settled.receipts id)
      ((state.after o act log op').settled.receipts id) := by
  have silent := silent_other state base o reading op op' act log here moved id
  have checked := base.checked o op here
  rcases settled_moved state base.locked o op reading op' act log here moved with ⟨same, busy⟩ | ⟨_, idle, before, after⟩
  · rw [same]
    refine .keep (silent ?_ ?_)
    · rintro params k x rfl
      cases moved with
      | chunk params phase next act log moved =>
          cases moved with
          | committed k x => rcases busy rfl with held | held <;> cases held
          | quit phase k reply early => cases early
          | discarded phase k held x reply discarding => cases discarding
    · rintro params k x transfer rfl
      cases moved with
      | chunk params phase next act log moved =>
          cases moved with
          | announced k x transfer bytes => rcases busy rfl with held | held <;> cases held
          | quit phase k reply early => cases early
          | discarded phase k held x reply discarding => cases discarding
  · rw [before, after]
    cases moved with
    | ruling verdict key phase next act log moved =>
        have quiet := silent (by simp) (by simp)
        cases moved with
        | accepted token transfer same waiting =>
            simp only [LegacyAct.book, LegacyOp.todo, accept_receipts]
            exact .keep quiet
        | rejected transfer same waiting =>
            simp only [LegacyAct.book, LegacyOp.todo, reject_receipts]
            exact .keep quiet
        | cancelled info =>
            simp only [LegacyAct.book, LegacyOp.todo, cancel_receipts, cancel_view]
            by_cases mine : key = id
            · rw [if_pos mine, if_pos mine]
              subst mine
              exact .cancel checked.1 rfl rfl trivial
            · rw [if_neg mine, if_neg mine]
              exact .keep quiet
        | edited change log rest reply => cases idle
        | _ => exact .keep quiet
    | request offer phase next act log moved =>
        have quiet := silent (by simp) (by simp)
        cases moved with
        | selected distinct idle =>
            simp only [LegacyAct.book, LegacyOp.todo, prune_receipts, prune_view]
            by_cases member : id ∈ reading.order
            · rw [if_pos member, if_pos member]
              exact .expire reading.order rfl rfl
            · rw [if_neg member, if_neg member]
              exact .keep quiet
        | registered total =>
            simp only [LegacyAct.book, LegacyOp.todo, register_receipts]
            exact .keep quiet
        | pruned change log rest => cases idle
        | edited change log rest reply => cases idle
        | _ => exact .keep quiet
    | approval peer key phase next act log moved =>
        have quiet := silent (by simp) (by simp)
        cases moved <;> exact .keep quiet
    | chunk params phase next act log moved =>
        by_cases mine : params.transferId = id
        · subst mine
          cases moved with
          | committed k x =>
              have booked := receipts_apply state.legacy.ledger (.receive params.transferId params.fileId) params.transferId
              exact (booked.trans (if_pos rfl)) ▸ .commit params k x rfl rfl rfl
          | completed k x transfer new found =>
              have booked := receipts_apply state.legacy.ledger (.complete params.transferId) params.transferId
              exact (booked.trans (if_pos rfl)) ▸ .complete params k x rfl rfl rfl
          | unannounced k x lost =>
              have booked := receipts_apply state.legacy.ledger (.complete params.transferId) params.transferId
              exact (booked.trans (if_pos rfl)) ▸ .complete params k x rfl rfl rfl
          | announced k x transfer bytes => exact .announce params k x transfer bytes rfl rfl rfl
          | quit phase k reply early => exact .keep (by simp)
          | discarded phase k held x reply discarding => exact .keep (by simp)
          | _ => exact .keep (silent (by simp) (by simp))
        · have quiet := silent (by rintro _ _ _ ⟨rfl, rfl⟩; exact mine) (by rintro _ _ _ _ ⟨rfl, rfl⟩; exact mine)
          have same : ((act.book state.legacy.ledger).settle []).receipts id = state.legacy.ledger.receipts id := by
            cases moved with
            | committed k x => exact (receipts_apply _ (.receive params.transferId params.fileId) id).trans (if_neg mine)
            | completed k x transfer new found => exact (receipts_apply _ (.complete params.transferId) id).trans (if_neg mine)
            | unannounced k x lost => exact (receipts_apply _ (.complete params.transferId) id).trans (if_neg mine)
            | _ => rfl
          simp only [LegacyOp.todo, same]
          exact .keep quiet

-- The operation is about to report the cancellation of a transfer.
def LegacyOp.Revokes (op : LegacyOp) (id : String) : Prop := ∃ entry ∈ op.todo, cancelEvent id ∈ entry.2

omit base here in
theorem moved_revokes (id : String) (revokes : op'.Revokes id) :
    op.Revokes id ∨ ∃ verdict info, op = .ruling verdict id (.bytes info) := by
  obtain ⟨entry, planned, reports⟩ := revokes
  cases moved with
  | ruling verdict key phase next act log moved =>
      cases moved with
      | edited change log rest reply => exact .inl ⟨entry, List.mem_cons_of_mem _ planned, reports⟩
      | accepted token transfer same waiting =>
          simp only [LegacyOp.todo, acceptEdits, List.mem_cons, List.not_mem_nil, or_false] at planned
          rcases planned with rfl | rfl <;> simp [cancelEvent] at reports
      | rejected transfer same waiting =>
          simp only [LegacyOp.todo, rejectEdits, List.mem_cons, List.not_mem_nil, or_false] at planned
          rcases planned with rfl | rfl | rfl <;> simp at reports
      | cancelled info =>
          simp only [LegacyOp.todo, cancelEdits, List.mem_cons, List.not_mem_nil, or_false] at planned
          rcases planned with rfl | rfl | rfl | rfl | rfl
          case inr.inr.inr.inr =>
            have same : id = key := by cases info <;> simpa [cancelLog, cancelEvent] using reports
            exact .inr ⟨verdict, info, by rw [same]⟩
          all_goals simp at reports
      | _ => cases planned
  | request offer phase next act log moved =>
      cases moved with
      | pruned change log rest => exact .inl ⟨entry, List.mem_cons_of_mem _ planned, reports⟩
      | edited change log rest reply => exact .inl ⟨entry, List.mem_cons_of_mem _ planned, reports⟩
      | selected distinct idle =>
          simp only [LegacyOp.todo, pruneEdits, List.mem_map] at planned
          obtain ⟨change, _, rfl⟩ := planned
          simp at reports
      | registered total =>
          by_cases trusted : offer.trusted = true
          · simp only [LegacyOp.todo, Offer.edits, if_pos trusted, List.mem_cons, List.not_mem_nil,
              or_false] at planned
            rcases planned with rfl | rfl | rfl <;> simp [cancelEvent] at reports
          · simp only [LegacyOp.todo, Offer.edits, if_neg trusted, List.mem_cons, List.not_mem_nil,
              or_false] at planned
            subst planned
            simp [cancelEvent] at reports
      | _ => cases planned
  | approval peer key phase next act log moved => cases planned
  | chunk params phase next act log moved => cases planned

omit base here in
theorem cancel_revokes (id : String) (reported : cancelEvent id ∈ log) : op.Revokes id := by
  cases moved with
  | ruling verdict key phase next act log moved =>
      cases moved with
      | edited change log rest reply => exact ⟨(change, log), by simp [LegacyOp.todo], reported⟩
      | _ => simp [cancelEvent] at reported
  | request offer phase next act log moved =>
      cases moved with
      | pruned change log rest => exact ⟨(change, log), by simp [LegacyOp.todo], reported⟩
      | edited change log rest reply => exact ⟨(change, log), by simp [LegacyOp.todo], reported⟩
      | retried total reply =>
          generalize state.legacy.ledger.approved.lookup offer.id = given at reported
          cases given <;> simp [handedTo, cancelEvent] at reported
      | _ => simp [cancelEvent] at reported
  | approval peer key phase next act log moved => cases moved <;> simp [cancelEvent] at reported
  | chunk params phase next act log moved =>
      cases moved with
      | counted k x amount =>
          by_cases due : x.progressDue = true <;> simp [due, cancelEvent, Writing.progress] at reported
      | _ => simp [cancelEvent, Writing.progress] at reported

end Moved

theorem turn_cases (id : String) (log more : List LegacyEntry) (life life' : Life)
    (turn : Turn id more life life') :
    (since id (log ++ more) = [] ∧ life = .absent ∧ ∃ transfer, more = [.registered transfer] ∧
      transfer.id = id) ∨
    (since id (log ++ more) = since id log ++ more ∧ registration id (log ++ more) = registration id log ∧
      (life'.view.pending ≠ none → life.view.pending ≠ none) ∧ (life = .absent → life' = .absent) ∧
      (life = .cancelled → life' = .cancelled ∨ life' = .absent)) := by
  have quiet : (∀ transfer, .registered transfer ∈ more → transfer.id ≠ id) →
      since id (log ++ more) = since id log ++ more ∧ registration id (log ++ more) = registration id log :=
    fun none_ => ⟨since_quiet id log more none_, registration_quiet id log more none_⟩
  cases turn with
  | stay life none_ _ => exact .inr ⟨(quiet none_).1, (quiet none_).2, fun has => has, fun same => same, .inl⟩
  | register transfer key reported =>
      exact .inl ⟨by rw [reported]; exact since_new id log transfer key, rfl, transfer, reported, key⟩
  | welcome transfer token key reported =>
      exact .inl ⟨by rw [reported]; exact since_new id log transfer key, rfl, transfer, reported, key⟩
  | expire life ids member reported =>
      obtain ⟨grown, same⟩ := quiet (by simp [reported])
      exact .inr ⟨grown, same, fun has => absurd rfl has, fun _ => rfl, fun _ => .inr rfl⟩
  | _ =>
      obtain ⟨grown, same⟩ := quiet (by simp [*])
      exact .inr ⟨grown, same, by simp [Life.view], by simp, by simp⟩

end GoshTransfer
