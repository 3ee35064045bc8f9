import GoshTransfer.LegacyDeadlock

set_option autoImplicit false

-- The work of version 1: what a run may take, and that every call is answered.
namespace GoshTransfer

open InodeStore

-- The most steps an operation takes from a phase on, apart from those that an
-- expiry pass and the chunks of a body bring.
def RulingPhase.remaining : RulingPhase → Nat
  | .contains => 14
  | .enter => 13
  | .completed => 12
  | .cancelled => 11
  | .approved => 10
  | .pending | .check => 9
  | .bytes _ => 8
  | .edit todo _ => todo.length + 1
  | .done _ | .durable => 0

def RequestPhase.remaining : RequestPhase → Nat
  | .enter => 17
  | .select => 16
  | .prune todo => todo.length + 15
  | .contains => 14
  | .used _ => 13
  | .refused _ => 12
  | .existing _ => 11
  | .capacity _ => 10
  | .stamp _ => 9
  | .pend _ => 8
  | .retry _ => 2
  | .edit todo _ => todo.length + 1
  | .done _ => 0

def ApprovalPhase.remaining : ApprovalPhase → Nat
  | .owner => 4
  | .token => 3
  | .rejected => 2
  | .pending => 1
  | .done _ => 0

def ChunkPhase.remaining : ChunkPhase → Nat
  | .seat => 1024
  | .lock _ => 1023
  | .cancelled _ => 1022
  | .token _ => 1021
  | .root _ => 1020
  | .lookup _ => 1019
  | .received _ _ => 1018
  | .stamp _ _ _ => 1017
  | .prepare _ _ _ => 1016
  | .openFile _ _ _ index => 1000 - index + 15
  | .count _ _ _ => 15
  | .receive _ _ => 14
  | .flush _ _ => 13
  | .enter _ _ => 12
  | .restamp _ _ => 11
  | .recheck _ _ => 10
  | .report _ _ => 9
  | .commit _ _ => 8
  | .tally _ _ => 7
  | .complete _ _ => 6
  | .total _ _ _ => 5
  | .uncount _ _ => 4
  | .remove _ _ _ _ => 5
  | .rollback _ _ _ _ => 4
  | .leave _ _ => 3
  | .unlock _ _ _ => 2
  | .vacate _ _ _ => 1
  | .done _ => 0

def LegacyOp.remaining : LegacyOp → Nat
  | .ruling _ _ phase => phase.remaining
  | .request _ phase => phase.remaining
  | .approval _ _ phase => phase.remaining
  | .chunk _ phase => phase.remaining

-- The expiry passes that are still to come.
def LegacyOp.sweeps : LegacyOp → Nat
  | .request _ .enter | .request _ .select => 1
  | _ => 0

-- A chunk is appended and counted; an expired id is dropped from every table.
def BodyEvent.work : BodyEvent → Nat
  | .chunk _ => 2
  | _ => 0

def LegacyOp.brings (reading : Reading) : LegacyOp → Nat
  | .request _ .select => (pruneEdits reading.order).length
  | .chunk _ (.receive _ _) => reading.body.work
  | _ => 0

section Lowers

variable (legacy : Legacy) (disk : ReceiverDisk) (reading : Reading) (act : LegacyAct)
    (log : List LegacyEntry)

theorem ruling_lowers (verdict : Ruling) (id : String) (phase next : RulingPhase)
    (moved : RulingMove verdict id legacy phase act log next) :
    next.remaining < phase.remaining := by
  cases moved with
  | quit phase reply testing => cases phase <;> simp [RulingPhase.testing] at testing
      <;> simp [RulingPhase.remaining]
  | _ => simp [RulingPhase.remaining, acceptEdits, rejectEdits, cancelEdits]

theorem request_lowers (offer : Offer) (phase next : RequestPhase)
    (moved : RequestMove offer legacy reading phase act log next) :
    next.remaining + 1 ≤ phase.remaining + (LegacyOp.request offer phase).brings reading := by
  cases moved with
  | quit phase reply testing => cases phase <;> simp [RequestPhase.testing] at testing
      <;> simp [RequestPhase.remaining] <;> omega
  | registered total =>
      simp only [RequestPhase.remaining, LegacyOp.brings, Offer.edits]
      split <;> simp
  | _ =>
      simp only [RequestPhase.remaining, LegacyOp.brings, List.length_cons, List.length_nil]
      omega

theorem approval_lowers (peer id : String) (phase next : ApprovalPhase)
    (moved : ApprovalMove peer id legacy phase act log next) :
    next.remaining < phase.remaining := by
  cases moved with
  | answered phase reply later => rcases later with rfl | rfl <;> simp [ApprovalPhase.remaining]
  | _ => simp [ApprovalPhase.remaining]

-- A name that is taken has a successor below the limit, and only a chunk is appended.
theorem taken_below (request : ChunkRequest) (k : Nat) (transfer : PendingTransfer) (file : TransferFile)
    (index : Nat) (next : ChunkPhase)
    (moved : (ChunkPhase.openFile k transfer file index).next request legacy disk reading =
      some (act, log, next)) (again : next = .openFile k transfer file (index + 1)) : index < 1000 := by
  by_contra limit
  rw [ChunkPhase.next, openUniqueStep, if_pos (Nat.le_of_not_lt limit)] at moved
  cases moved
  cases again

theorem appended_work (request : ChunkRequest) (k : Nat) (x : Writing) (next : ChunkPhase)
    (moved : (ChunkPhase.receive k x).next request legacy disk reading = some (act, log, next))
    (y : Writing) (amount : Nat) (counting : next = .count k y amount) : reading.body.work = 2 := by
  simp only [ChunkPhase.next, legacyReceiveStep] at moved
  split at moved
  · cases moved
    cases counting
  · split_ifs at moved
    cases moved
    cases counting
  · cases moved
    cases counting
  · cases moved
    cases counting
  · next data body => rw [body, BodyEvent.work]

theorem chunk_lowers (request : ChunkRequest) (phase next : ChunkPhase)
    (moved : phase.next request legacy disk reading = some (act, log, next)) :
    next.remaining + 1 ≤ phase.remaining + (LegacyOp.chunk request phase).brings reading := by
  have move := chunk_next_move request legacy disk reading phase next act log moved
  cases move with
  | taken k transfer file index =>
      have below := taken_below legacy disk reading _ _ request k transfer file index _ moved rfl
      simp only [ChunkPhase.remaining]
      omega
  | appended k x data =>
      have work := appended_work legacy disk reading _ _ request k x _ moved _ _ rfl
      simp only [ChunkPhase.remaining, LegacyOp.brings]
      omega
  | quit phase k reply early =>
      cases phase <;> simp only [ChunkPhase.early, reduceCtorEq] at early
        <;> simp only [ChunkPhase.remaining] <;> omega
  | discarded phase k held x reply discarding =>
      cases phase <;> simp only [ChunkPhase.discarding, reduceCtorEq] at discarding
        <;> simp only [ChunkPhase.remaining] <;> omega
  | _ => simp only [ChunkPhase.remaining]; omega

theorem op_lowers (op op' : LegacyOp) (moved : op.next legacy disk reading = some (act, log, op')) :
    op'.remaining + 1 ≤ op.remaining + op.brings reading := by
  cases op with
  | ruling verdict id phase =>
      obtain ⟨⟨act', log', next⟩, stepped, same⟩ := Option.map_eq_some_iff.mp moved
      cases same
      exact ruling_lowers legacy act log verdict id phase next (ruling_next_move verdict id legacy reading
        phase next act log stepped)
  | request offer phase =>
      obtain ⟨⟨act', log', next⟩, stepped, same⟩ := Option.map_eq_some_iff.mp moved
      cases same
      exact request_lowers legacy reading act log offer phase next (request_next_move offer legacy reading
        phase next act log stepped)
  | approval peer id phase =>
      obtain ⟨⟨act', log', next⟩, stepped, same⟩ := Option.map_eq_some_iff.mp moved
      cases same
      exact approval_lowers legacy act log peer id phase next (approval_next_move peer id legacy phase
        next act log stepped)
  | chunk params phase =>
      obtain ⟨⟨act', log', next⟩, stepped, same⟩ := Option.map_eq_some_iff.mp moved
      cases same
      exact chunk_lowers legacy disk reading act log params phase next stepped

theorem op_sweeps (op op' : LegacyOp) (moved : LegacyOpMove legacy disk reading op act log op') :
    op'.sweeps ≤ op.sweeps ∧ ∀ offer, op = .request offer .select → op'.sweeps < op.sweeps := by
  cases moved with
  | request offer phase next _ _ moved =>
      cases moved with
      | quit phase reply testing => cases phase <;> simp [RequestPhase.testing] at testing
          <;> simp [LegacyOp.sweeps]
      | _ => simp [LegacyOp.sweeps]
  | _ => simp [LegacyOp.sweeps]

end Lowers

def Receiver.remaining (receiver : Receiver) : Nat := (receiver.ops.map LegacyOp.remaining).sum

def Receiver.sweeps (receiver : Receiver) : Nat := (receiver.ops.map LegacyOp.sweeps).sum

def Receiver.brings (receiver : Receiver) : ReceiverLabel → Nat
  | .legacy (.call made) => made.op.remaining
  | .legacy (.advance o reading) => ((receiver.ops[o]?).map (LegacyOp.brings reading)).getD 0
  | _ => 0

def ReceiverLabel.cost : ReceiverLabel → Nat
  | .legacy (.advance _ _) => 1
  | _ => 0

theorem receiver_advanced (sha256 : Bytes → String) (receiver next : Receiver) (o : Nat) (reading : Reading)
    (stepped : receiverStep sha256 receiver (.legacy (.advance o reading)) = some next) :
    ∃ (op op' : LegacyOp) (act : LegacyAct) (log : List LegacyEntry), receiver.ops[o]? = some op ∧
      op.next receiver.legacy receiver.durable.store.disk reading = some (act, log, op') ∧
        next.ops = receiver.ops.set o op' := by
  simp only [receiverStep, Option.ite_none_right_eq_some] at stepped
  obtain ⟨after, made, rfl⟩ := Option.map_eq_some_iff.mp stepped.2
  obtain ⟨op, here, made⟩ := Option.bind_eq_some_iff.mp made
  obtain ⟨⟨act, log, op'⟩, moved, made⟩ := Option.bind_eq_some_iff.mp made
  cases made
  exact ⟨op, op', act, log, here, moved, rfl⟩

theorem receiver_paid (sha256 : Bytes → String) (receiver next : Receiver) (label : ReceiverLabel)
    (stepped : receiverStep sha256 receiver label = some next) :
    next.remaining + label.cost ≤ receiver.remaining + receiver.brings label := by
  rcases receiver_step_cases sha256 receiver next label stepped with
    ⟨_, _, rfl, _, _, _, rfl⟩ | ⟨_, rfl, _, rfl⟩ | ⟨inner, after, rfl, _, _, made, same⟩ |
      ⟨_, _, rfl, _, _, rfl⟩
  · exact Nat.le_refl _
  · simp [Receiver.remaining, ReceiverLabel.cost]
  · cases inner with
    | call call =>
        cases made
        simp [same, Receiver.remaining, Receiver.version1, ReceiverLabel.cost, Receiver.brings]
    | advance o reading =>
        obtain ⟨op, op', act, log, here, moved, ops⟩ :=
          receiver_advanced sha256 receiver next o reading stepped
        have lower := op_lowers _ _ reading act log op op' moved
        have sums := Waiting.sum_set LegacyOp.remaining receiver.ops o op op' here
        simp only [Receiver.remaining, ops, ReceiverLabel.cost, Receiver.brings, here, Option.map_some,
          Option.getD_some]
        omega
  · exact Nat.le_refl _

-- A step of version 1 without a fault, at the end of the body it reads.
def ReceiverLabel.closing : ReceiverLabel → Bool
  | .legacy (.advance _ ⟨_, _, _, .finished, none⟩) => true
  | _ => false

theorem calm_closing (o : Nat) (reading : Reading) (legacy : Legacy) (quiet : reading.Calm legacy) :
    (ReceiverLabel.legacy (.advance o reading)).closing = true := by
  obtain ⟨sound, closed, _, _⟩ := quiet
  cases reading
  cases sound
  cases closed
  rfl

-- An expiry pass may bring any number of edits, but each request makes one.
theorem calm_lowers (sha256 : Bytes → String) (receiver next : Receiver) (o : Nat) (reading : Reading)
    (quiet : reading.Calm receiver.legacy)
    (stepped : receiverStep sha256 receiver (.legacy (.advance o reading)) = some next) :
    Prod.Lex (· < ·) (· < ·) (next.sweeps, next.remaining) (receiver.sweeps, receiver.remaining) := by
  obtain ⟨op, op', act, log, here, moved, ops⟩ := receiver_advanced sha256 receiver next o reading stepped
  have lower := op_lowers _ _ reading act log op op' moved
  obtain ⟨fewer, selected⟩ :=
    op_sweeps _ _ reading act log op op' (legacy_op_move _ _ reading op op' act log moved)
  have work := Waiting.sum_set LegacyOp.remaining receiver.ops o op op' here
  have passes := Waiting.sum_set LegacyOp.sweeps receiver.ops o op op' here
  simp only [Receiver.remaining, Receiver.sweeps, ops, Prod.lex_def]
  by_cases selects : ∃ offer, op = .request offer .select
  · obtain ⟨offer, same⟩ := selects
    have down := selected offer same
    exact .inl (by omega)
  · have nothing : op.brings reading = 0 := by
      unfold LegacyOp.brings
      split
      · next offer => exact absurd ⟨offer, rfl⟩ selects
      · rw [quiet.closed]
        rfl
      · rfl
    by_cases same : op'.sweeps = op.sweeps
    · exact .inr ⟨by omega, by omega⟩
    · exact .inl (by omega)

theorem legacy_end (sha256 : Bytes → String) (receiver : Receiver) (lively : Lively receiver) :
    ∃ final, Transition.Run (receiverStep sha256) (fun _ label => label.closing = true) receiver final ∧
      ∀ op ∈ final.ops, op.ended = true := by
  have progress : ∀ receiver : Receiver, Lively receiver → ¬ (∀ op ∈ receiver.ops, op.ended = true) →
    ∃ label next, label.closing = true ∧
      receiverStep sha256 receiver label = some next ∧
      Prod.Lex (· < ·) (· < ·) (next.sweeps, next.remaining) (receiver.sweeps, receiver.remaining) ∧
        Lively next := by
    intro receiver lively waiting
    obtain ⟨op, member, active⟩ : ∃ op ∈ receiver.ops, op.ended = false := by simpa using waiting
    obtain ⟨o, here⟩ := List.mem_iff_getElem?.mp member
    have ordered := legacy_waits_ordered sha256 receiver lively.legacy lively.manned lively.started
      (fun p => ∃ reading : Reading, reading.Calm receiver.legacy ∧
        (receiverStep sha256 receiver (.legacy (.advance p reading))).isSome = true)
      fun _ reading quiet moved => ⟨reading, quiet, moved⟩
    obtain ⟨p, _, _, reading, quiet, moved⟩ := Waiting.ordered_mover _ _ _ _ ordered o ⟨op, here, active⟩
    obtain ⟨next, stepped⟩ := Option.isSome_iff_exists.mp moved
    exact ⟨_, next, calm_closing p reading receiver.legacy quiet, stepped,
      calm_lowers sha256 receiver next p reading quiet stepped,
      lively_step sha256 receiver next _ lively stepped⟩
  obtain ⟨final, rest, _, ended⟩ :=
    Waiting.run_drains (receiverStep sha256) (fun _ label => label.closing = true) _
    (WellFounded.prod_lex Nat.lt_wfRel.wf Nat.lt_wfRel.wf)
      (fun receiver => (receiver.sweeps, receiver.remaining)) Lively
    (fun receiver => ∀ op ∈ receiver.ops, op.ended = true) progress receiver lively
  exact ⟨final, rest, ended⟩

-- The version 1 steps of a run are at most those its calls, the chunks of its bodies
-- and its expiry passes bring, and every call of version 1 can be answered by
-- version 1 alone, whatever the other protocol holds.
theorem every_legacy_call_can_be_answered (sha256 : Bytes → String) (start receiver : Receiver)
    (initial : ReceiverInitial start) (labels : List ReceiverLabel)
    (replayed : Transition.replay (receiverStep sha256) (fun _ _ => True) start labels = some receiver) :
    (labels.map ReceiverLabel.cost).sum ≤ Waiting.income (receiverStep sha256) Receiver.brings start labels ∧
      ∃ final, Transition.Run (receiverStep sha256) (fun _ label => label.closing = true) receiver final ∧
        ∀ op ∈ final.ops, op.ended = true := by
  have paid := (Waiting.replay_income (receiverStep sha256) (fun _ _ => True)
    (fun _ => True) Receiver.remaining ReceiverLabel.cost Receiver.brings
    (fun receiver label next _ _ stepped => ⟨trivial, receiver_paid sha256 receiver next label stepped⟩)
    labels start receiver
    trivial replayed).2
  have idle : start.ops = [] := initial.legacy.idle
  have empty : start.remaining = 0 := by simp [Receiver.remaining, idle]
  have run := Transition.replay_run (receiverStep sha256) (fun _ _ => True) labels start receiver replayed
  exact ⟨by omega, legacy_end sha256 receiver (run_lively sha256 _ start receiver initial run)⟩

-- An upload is cut off by a cancellation and a second one waits for its lock.
theorem small_legacy_work_done : ∃ receiver : Receiver,
    Transition.Run (receiverStep emptyHash) (fun _ _ => True) emptyReceiver receiver ∧
      receiver.Unfinished 1 ∧ receiver.Unfinished 2 ∧
    ∃ final, Transition.Run (receiverStep emptyHash) (fun _ label => label.closing = true) receiver final ∧
      ∀ op ∈ final.ops, op.ended = true := by
  have completed : (Transition.replay (receiverStep emptyHash) (fun _ _ => True) emptyReceiver
    (.durable .start ::
      (LegacyLabel.call (.request (smallOffer true)) :: legacyAdvances 0 14 ++ LegacyLabel.call
      (.chunk smallChunk) ::
        legacyAdvances 1 12 ++ [LegacyLabel.call (.chunk smallChunk), .call (.cancel offerId)]).map
        .legacy)).any (fun receiver =>
      ((receiver.ops[1]?).any fun op => !op.ended) && (receiver.ops[2]?).any fun op => !op.ended) = true := by
    decide +kernel
  obtain ⟨receiver, replayed, active⟩ := (Option.any_eq_true _ _).mp completed
  simp only [Bool.and_eq_true] at active
  obtain ⟨first, second⟩ := active
  obtain ⟨op, here, going⟩ := (Option.any_eq_true _ _).mp first
  obtain ⟨op', there, goingToo⟩ := (Option.any_eq_true _ _).mp second
  exact ⟨receiver, Transition.replay_run (receiverStep emptyHash) (fun _ _ => True) _ emptyReceiver receiver
    replayed,
    ⟨op, here, by simpa using going⟩, ⟨op', there, by simpa using goingToo⟩,
    (every_legacy_call_can_be_answered emptyHash emptyReceiver receiver empty_receiver_initial _ replayed).2⟩

end GoshTransfer
