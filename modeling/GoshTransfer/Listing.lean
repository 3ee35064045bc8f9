import GoshTransfer.Recounting

set_option autoImplicit false

namespace GoshTransfer

open InodeStore Histories

theorem legacy_list (ledger : Ledger) (keyed : ∀ id transfer, ledger.pending.lookup id = some transfer →
    transfer.id = id)
    (order : List String) :
    ledger.pendingTransfers order = order.filterMap fun id => (ledger.view id).waits := by
  induction order with
  | nil => rfl
  | cons id rest ih =>
      unfold Ledger.pendingTransfers at ih ⊢
      cases found : ledger.pending.lookup id with
      | none =>
          have nothing : (ledger.view id).waits = none := gone_waits _ found
          simp only [List.filterMap_cons, found, nothing, ih]
      | some transfer =>
          obtain rfl := keyed id transfer found
          by_cases open_ : ledger.approved.lookup transfer.id = none ∧
            ledger.rejected.lookup transfer.id = none
          · have waits : (ledger.view transfer.id).waits = some transfer := by
              simp [View.waits, Ledger.view, open_, found]
            simp only [List.filterMap_cons, found, waits, ← ih]
            exact List.filter_cons_of_pos (by simp [open_])
          · have waits : (ledger.view transfer.id).waits = none := by simp [View.waits, Ledger.view, open_]
            simp only [List.filterMap_cons, found, waits, ← ih]
            exact List.filter_cons_of_neg (by simpa using open_)

theorem durable_list (store : Store) (order : List String) :
    store.pending order = order.filterMap store.waits := by
  simp only [Store.pending, List.filterMap_filterMap]
  congr 1
  funext id
  cases found : store.sessions.lookup id with
  | none => simp [Store.waits, found]
  | some s => cases there : store.heap[s]? <;> simp [Store.waits, found, there]

theorem keyed_sublist (find : String → Option PendingTransfer)
    (keyed : ∀ id transfer, find id = some transfer → transfer.id = id) (order : List String) :
    ((order.filterMap find).map PendingTransfer.id).Sublist order := by
  induction order with
  | nil => exact List.Sublist.slnil
  | cons id rest ih =>
      cases found : find id with
      | none =>
          rw [List.filterMap_cons_none found]
          exact ih.cons id
      | some transfer =>
          rw [List.filterMap_cons_some found, List.map_cons, keyed id transfer found]
          exact ih.cons_cons id

section Listed

variable (turn : Option (Nat ⊕ Nat)) (docket : Docket) (recounts : Recounts turn docket)
    (idle : docket.state.idle = true)

include recounts idle

theorem idle_decisions : docket.state.legacy.decisions = none := by
  cases taken : docket.state.legacy.decisions with
  | none => rfl
  | some p =>
      obtain ⟨op, here, holds⟩ := recounts.apart.base.locked.holder p taken
      have over_ := (idle_alone docket.state idle).legacy p op here (by simp)
      rw [(legacy_ended_free op over_).1] at holds
      cases holds

theorem idle_settled : docket.state.version1.settled = docket.state.legacy.ledger :=
  settled_free docket.state.version1 (idle_decisions turn docket recounts idle)

theorem idle_legacy (id : String) :
    (docket.state.legacy.ledger.view id).waits = awaiting .legacy id docket.history := by
  have waits := recounts.legacy id
  rw [idle_settled turn docket recounts idle, (idle_promises turn docket.state idle).1] at waits
  exact waits

theorem idle_durable (id : String) :
    docket.state.durable.store.waits id = awaiting .durable id docket.history := by
  have waits := recounts.durable id
  rw [(idle_promises turn docket.state idle).2] at waits
  exact waits

theorem idle_list (legacyOrder durableOrder : List String) :
    docket.state.getPendingTransfers legacyOrder durableOrder =
      (legacyOrder.filterMap fun id => awaiting .legacy id docket.history) ++
        durableOrder.filterMap fun id => awaiting .durable id docket.history := by
  rw [Receiver.getPendingTransfers, legacy_list _ recounts.keyed, durable_list]
  simp only [idle_legacy turn docket recounts idle]
  congr 2
  funext id
  exact idle_durable turn docket recounts idle id

theorem awaiting_retained (id : String) :
    (awaiting .legacy id docket.history ≠ none → docket.state.legacy.ledger.pending.lookup id ≠ none) ∧
      (awaiting .durable id docket.history ≠ none →
        docket.state.durable.store.sessions.lookup id ≠ none) := by
  constructor
  · rw [← idle_legacy turn docket recounts idle]
    exact fun waits gone => waits (gone_waits _ gone)
  · rw [← idle_durable turn docket recounts idle]
    exact fun waits gone => waits (by simp [Store.waits, gone])

theorem idle_listing (legacyOrder durableOrder : List String)
    (orders : docket.state.Iterates legacyOrder durableOrder) :
    ((docket.state.getPendingTransfers legacyOrder durableOrder).map PendingTransfer.id).Nodup ∧
      ∀ transfer, transfer ∈ docket.state.getPendingTransfers legacyOrder durableOrder ↔
        Undecided docket.history .legacy transfer ∨ Undecided docket.history .durable transfer := by
  rw [idle_list turn docket recounts idle]
  have keyed : ∀ protocol id transfer, awaiting protocol id docket.history = some transfer →
    transfer.id = id :=
    fun protocol id transfer waits => ((awaiting_iff protocol id docket.history transfer).mp waits).1
  have first := keyed_sublist _ (keyed .legacy) legacyOrder
  have second := keyed_sublist _ (keyed .durable) durableOrder
  have retained := awaiting_retained turn docket recounts idle
  refine ⟨?_, ?_⟩
  · rw [List.map_append, List.nodup_append]
    refine ⟨first.nodup orders.legacyOnce, second.nodup orders.durableOnce, ?_⟩
    rintro id inFirst _ inSecond rfl
    exact (orders.legacy id).mp (first.subset inFirst)
      (recounts.apart.apart id ((orders.durable id).mp (second.subset inSecond)))
  · intro transfer
    have member : ∀ (protocol : Protocol) (order : List String),
      (∀ id, awaiting protocol id docket.history ≠ none → id ∈ order) →
        (transfer ∈ order.filterMap (fun id => awaiting protocol id docket.history) ↔
          Undecided docket.history protocol transfer) := by
      intro protocol order covers
      rw [List.mem_filterMap]
      constructor
      · rintro ⟨id, _, waits⟩
        exact ((awaiting_iff protocol id docket.history transfer).mp waits).2
      · intro undecided
        have waits := (awaiting_iff protocol transfer.id docket.history transfer).mpr ⟨rfl, undecided⟩
        exact ⟨transfer.id, covers _ (by simp [waits]), waits⟩
    rw [List.mem_append, member .legacy legacyOrder fun id waits => (orders.legacy id).mpr
      ((retained id).1 waits),
      member .durable durableOrder fun id waits => (orders.durable id).mpr ((retained id).2 waits)]

end Listed

end GoshTransfer
