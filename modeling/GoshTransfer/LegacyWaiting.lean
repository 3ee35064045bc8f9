import GoshTransfer.PendingList

set_option autoImplicit false

namespace GoshTransfer

open InodeStore Histories

def View.waits (view : View) : Option PendingTransfer :=
  if view.approved = none ∧ view.rejected = none then view.pending else none

-- The id about which a ruling has decided to answer Ok and has not answered yet.
def LegacyOp.promises : LegacyOp → Option String
  | .ruling _ id (.edit _ (.ok _)) => some id
  | _ => none

theorem granted_waits (view : View) (granted : view.approved ≠ none) :
    view.waits = none := by simp [View.waits, granted]

theorem gone_waits (view : View) (gone : view.pending = none) :
    view.waits = none := by simp [View.waits, gone]

section Ruling

variable (verdict : Ruling) (id : String) (legacy : Legacy) (reading : Reading) (phase next : RulingPhase)
    (act : LegacyAct)
  (log : List LegacyEntry) (stepped : phase.next verdict id legacy reading = some (act, log, next))

include stepped

theorem ruling_takes_off (deciding : phase.testing = true ∨ ∃ info, phase = .bytes info) (other : String) :
    act.book legacy.ledger = legacy.ledger ∧
      ((legacy.ledger.settle (LegacyOp.ruling verdict id next).todo).view other).waits =
        if (LegacyOp.ruling verdict id next).promises = some other then none else
        (legacy.ledger.view other).waits := by
  cases phase with
  | completed =>
      simp only [RulingPhase.next] at stepped
      split at stepped
      · cases stepped
        exact ⟨rfl, rfl⟩
      · cases stepped
        split <;> exact ⟨rfl, rfl⟩
  | cancelled =>
      simp only [RulingPhase.next] at stepped
      split at stepped <;> cases stepped <;> exact ⟨rfl, rfl⟩
  | approved =>
      simp only [RulingPhase.next] at stepped
      split at stepped
      · cases stepped
        exact ⟨rfl, rfl⟩
      · rename_i token fresh granted
        cases stepped
        refine ⟨rfl, ?_⟩
        simp only [LegacyOp.todo, LegacyOp.promises, Ledger.settle, List.foldl_nil, Option.some.injEq]
        split
        · rename_i same
          subst same
          exact granted_waits _ (by simp [Ledger.view, granted])
        · rfl
      · cases stepped
        exact ⟨rfl, rfl⟩
  | pending =>
      simp only [RulingPhase.next] at stepped
      split at stepped
      · cases stepped
        exact ⟨rfl, rfl⟩
      · cases stepped
        refine ⟨rfl, ?_⟩
        simp only [LegacyOp.todo, LegacyOp.promises, accept_view, Option.some.injEq]
        split
        · exact granted_waits _ (by simp)
        · rfl
      · cases stepped
        refine ⟨rfl, ?_⟩
        simp only [LegacyOp.todo, LegacyOp.promises, reject_view, Option.some.injEq]
        split
        · exact gone_waits _ rfl
        · rfl
      · cases stepped
  | check =>
      simp only [RulingPhase.next] at stepped
      split at stepped <;> cases stepped <;> exact ⟨rfl, rfl⟩
  | bytes info =>
      cases stepped
      refine ⟨rfl, ?_⟩
      simp only [LegacyOp.todo, LegacyOp.promises, cancel_view, Option.some.injEq]
      split
      · exact gone_waits _ rfl
      · rfl
  | _ =>
      rcases deciding with testing | ⟨info, same⟩
      · cases testing
      · cases same

end Ruling

section Step

variable (state : LegacyState) (base : LegacyBase state) (o : Nat) (reading : Reading) (op op' : LegacyOp)
    (act : LegacyAct)
  (log : List LegacyEntry) (here : state.ops[o]? = some op)
  (stepped : op.next state.legacy state.disk reading = some (act, log, op'))

theorem promise_kept (moved : LegacyOpMove state.legacy state.disk reading op act log op')
    (busy : op.todo = [] → op.holds = false ∨ op'.holds = false) (id : String) (history : List Happening) :
    (if op'.promises = some id then none else awaiting .legacy id (history ++ op.tells reading)) =
      if op.promises = some id then none else awaiting .legacy id history := by
  have quiet : op'.promises = op.promises → op.tells reading = [] →
      (if op'.promises = some id then none else awaiting .legacy id (history ++ op.tells reading)) =
        if op.promises = some id then none else awaiting .legacy id history := by
    intro same silent
    rw [same, silent, List.append_nil]
  cases moved with
  | ruling verdict key phase next act log moved =>
      cases moved with
      | edited change log rest reply => cases reply <;> exact quiet rfl rfl
      | left reply =>
          cases reply with
          | error e => exact quiet rfl rfl
          | ok token =>
              rw [awaiting_append]
              by_cases same : key = id <;> cases verdict <;>
                simp [LegacyOp.promises, LegacyOp.tells, Ruling.happening, hear, Happening.about, same]
      | durable => exact quiet rfl rfl
      | legacy => exact quiet rfl rfl
      | entered free => exact quiet rfl rfl
      | quit phase reply testing =>
          have idle : (LegacyOp.ruling verdict key phase).todo =
            [] := by cases phase <;> first | rfl | cases testing
          rcases busy idle with held | held
          · exact absurd (held.symm.trans (ruling_testing phase testing)) (by simp)
          · cases held
      | _ => rcases busy rfl with held | held <;> cases held
  | request offer phase next act log moved =>
      cases moved with
      | selected distinct idle => rcases busy rfl with held | held <;> cases held
      | registered total => rcases busy rfl with held | held <;> cases held
      | quit phase reply testing => exact quiet rfl (by cases phase <;> first | rfl | cases testing)
      | _ => exact quiet rfl rfl
  | approval peer key phase next act log moved => exact quiet rfl rfl
  | chunk params phase next act log moved => exact quiet rfl rfl

include base here

theorem request_waits (offer : Offer) (phase next : RequestPhase) (isOp : op = .request offer phase)
    (isNext : op' = .request offer next) (idle : op.todo = []) (settled : state.settled = state.legacy.ledger)
    (moved : RequestMove offer state.legacy reading phase act log next) (id : String)
    (history : List Happening) (waits : (state.legacy.ledger.view id).waits = awaiting .legacy id history) :
    (((act.book state.legacy.ledger).settle op'.todo).view id).waits =
      awaiting .legacy id (history ++ op.tells reading) := by
  have quiet : act.book state.legacy.ledger = state.legacy.ledger → op'.todo = [] → op.tells reading = [] →
      (((act.book state.legacy.ledger).settle op'.todo).view id).waits = awaiting .legacy id
      (history ++ op.tells reading) := by
    intro same nothing silent
    rw [same, nothing, silent, List.append_nil]
    exact waits
  subst isOp isNext
  cases moved with
  | selected distinct expired =>
      rw [show (LegacyOp.request offer .select).tells reading = reading.order.map
        (Happening.dropped .legacy) from rfl,
        awaiting_dropped, ← waits]
      simp only [LegacyOp.todo, LegacyAct.book, prune_view]
      split
      · exact gone_waits _ rfl
      · rfl
  | registered total =>
      obtain ⟨_, _, absent⟩ := base.checked o _ here
      rw [show (LegacyOp.request offer (.pend total)).tells reading = registeredBy .legacy
        (offer.pending total) offer.trusted from rfl,
        awaiting_registered, ← waits]
      have key : (offer.pending total).id = offer.id := rfl
      simp only [LegacyOp.todo, LegacyAct.book, register_view, key, true_and]
      by_cases same : offer.id = id
      · -- An id without a record has no token.
        obtain ⟨life, known⟩ := base.lives offer.id
        rw [settled] at known
        have ungranted : state.legacy.ledger.approved.lookup offer.id = none := by
          have pending := (life_pending _ _ life known).symm.trans absent
          refine (life_approved _ _ life known).trans ?_
          cases life <;> first | rfl | cases pending
        rw [if_pos same, if_pos same, ← same]
        cases trusted : offer.trusted <;> simp [View.waits, Ledger.view, ungranted]
      · rw [if_neg same, if_neg same]
  | pruned change log rest => cases idle
  | edited change log rest reply => cases idle
  | quit phase reply testing => cases phase <;> first | exact quiet rfl rfl rfl | cases testing
  | _ => exact quiet rfl rfl rfl

include stepped

theorem step_waits (id : String) (history : List Happening)
    (waits : (state.settled.view id).waits = if op.promises = some id then
      none else awaiting .legacy id history) :
    ((state.after o act log op').settled.view id).waits =
      if op'.promises = some id then none else awaiting .legacy id (history ++ op.tells reading) := by
  have moved := legacy_op_move state.legacy state.disk reading op op' act log stepped
  rcases settled_moved state base.locked o op reading op' act log here moved with ⟨same, busy⟩ |
    ⟨holds, idle, before, after⟩
  · rw [same, waits, promise_kept state reading op op' act log moved busy id history]
  · by_cases leaving : op'.holds = false
    · obtain ⟨_, quiet⟩ := left_act state op reading op' act log moved holds leaving state.legacy.ledger
      have nothing := free_todo op' leaving
      rw [promise_kept state reading op op' act log moved (fun _ => .inr leaving) id history, after,
        nothing, quiet, ← before]
      exact waits
    · rw [before] at waits
      rw [after]
      cases moved with
      | ruling verdict key phase next act log moved =>
          have deciding : phase.testing = true ∨ ∃ info, phase = .bytes info := by
            cases moved with
            | edited change log rest reply => cases idle
            | left reply => exact absurd rfl leaving
            | cancelled info => exact .inr ⟨info, rfl⟩
            | quit phase reply testing => exact .inl testing
            | durable => cases holds
            | legacy => cases holds
            | entered free => cases holds
            | _ => exact .inl rfl
          obtain ⟨⟨act', log', next'⟩, made, same⟩ := Option.map_eq_some_iff.mp stepped
          simp only [Prod.mk.injEq, LegacyOp.ruling.injEq, true_and] at same
          obtain ⟨rfl, rfl, rfl⟩ := same
          obtain ⟨quiet, taken⟩ :=
            ruling_takes_off verdict key state.legacy reading phase next' act' log' made deciding id
          have unpromised : (LegacyOp.ruling verdict key phase).promises = none := by
            rcases deciding with testing | ⟨info, rfl⟩
            · cases phase <;> first | rfl | cases testing
            · rfl
          have silent : (LegacyOp.ruling verdict key phase).tells reading = [] := by
            rcases deciding with testing | ⟨info, rfl⟩
            · cases phase <;> first | rfl | cases testing
            · rfl
          rw [unpromised, if_neg (by simp)] at waits
          rw [quiet, taken, silent, List.append_nil, waits]
      | request offer phase next act log moved =>
          exact request_waits state base o reading _ _ act log here offer phase next rfl rfl idle before
            moved id history waits
      | approval peer key phase next act log moved => cases holds
      | chunk params phase next act log moved =>
          have quiet : ((act.book state.legacy.ledger).settle []).view id = state.legacy.ledger.view id := by
            cases moved <;> rfl
          exact (congrArg View.waits quiet).trans
            (waits.trans (by rw [show (LegacyOp.chunk params phase).tells reading = [] from rfl, List.append_nil]; rfl))

end Step

end GoshTransfer
