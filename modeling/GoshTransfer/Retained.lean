import GoshTransfer.Listing

set_option autoImplicit false

namespace GoshTransfer

open InodeStore Histories

-- The sessions that get_pending_transfers chooses from.
def Receiver.Retains (receiver : Receiver) : Protocol → PendingTransfer → Prop
  | .legacy, transfer => receiver.legacy.ledger.pending.lookup transfer.id = some transfer
  | .durable, transfer => ∃ s session, receiver.durable.store.sessions.lookup transfer.id = some s ∧
      receiver.durable.store.heap[s]? = some session ∧ session.record.pending = transfer

-- A ruling on a session, or the registration that succeeds it.
def Happening.overrides (protocol : Protocol) (id : String) : Happening → Prop
  | .registered party transfer => party = protocol ∧ transfer.id = id
  | .accepted party key | .rejected party key | .cancelled party key => party = protocol ∧ key = id
  | .dropped _ _ => False

-- Registered, and since its own registration neither accepted, rejected nor
-- cancelled.
def Unruled (history : List Happening) (protocol : Protocol) (transfer : PendingTransfer) : Prop :=
  ∃ before after, history = before ++ .registered protocol transfer :: after ∧
    ∀ later ∈ after, ¬ later.overrides protocol transfer.id

-- What a happening makes of the retention of an id.
def Happening.enrols (protocol : Protocol) (id : String) : Happening → Option (Option PendingTransfer)
  | .registered party transfer => if party = protocol ∧ transfer.id = id then some (some transfer) else none
  | .dropped party key => if party = protocol ∧ key = id then some none else none
  | _ => none

def enrolled (protocol : Protocol) (id : String) (history : List Happening) : Option PendingTransfer :=
  lastWord (Happening.enrols protocol id) history

theorem enrolled_silent (protocol : Protocol) (id : String) (history more : List Happening)
    (silent : ∀ happening ∈ more, happening.enrols protocol id = none) :
    enrolled protocol id (history ++ more) = enrolled protocol id history := by
  rw [enrolled, last_word_append, hear_silent _ more _ silent]
  rfl

theorem enrolled_registered (protocol party : Protocol) (id : String) (history : List Happening)
    (transfer : PendingTransfer) (trusted : Bool) :
    enrolled protocol id (history ++ registeredBy party transfer trusted) =
      if party = protocol ∧ transfer.id = id then some transfer else enrolled protocol id history := by
  rw [enrolled, last_word_append]
  by_cases same : party = protocol ∧ transfer.id = id <;> cases trusted <;>
    simp [registeredBy, hear, Happening.enrols, same, enrolled]

theorem unruled_undecided (history : List Happening) (protocol : Protocol) (transfer : PendingTransfer)
    (kept : enrolled protocol transfer.id history ≠ none) (unruled : Unruled history protocol transfer) :
    Undecided history protocol transfer := by
  obtain ⟨before, after, rfl, free⟩ := unruled
  refine ⟨before, after, rfl, ?_⟩
  have ends : ∀ later ∈ after, later.enrols protocol transfer.id = none ∨
    later.enrols protocol transfer.id = some none := by
    intro later member
    have unruled := free later member
    cases later with
    | registered party other => exact .inl (if_neg unruled)
    | dropped party key =>
        simp only [Happening.enrols]
        split
        · exact .inr rfl
        · exact .inl rfl
    | _ => exact .inl rfl
  intro later member
  have unruled := free later member
  cases later with
  | dropped party key =>
      refine if_neg fun same => kept ?_
      rw [enrolled, last_word_append, List.foldl_cons]
      exact hear_ended _ after _ ends (.inr ⟨_, member, if_pos same⟩)
  | _ => exact if_neg unruled

theorem undecided_unruled (history : List Happening) (protocol : Protocol) (transfer : PendingTransfer)
    (undecided : Undecided history protocol transfer) : Unruled history protocol transfer := by
  obtain ⟨before, after, same, silent⟩ := undecided
  refine ⟨before, after, same, ?_⟩
  intro later member
  have quiet := silent later member
  cases later with
  | dropped party key => exact id
  | _ =>
      simp only [Happening.about] at quiet
      split at quiet
      · cases quiet
      · assumption

theorem durable_enrolled (op : Op) (id : String) (history : List Happening)
    (kept : enrolled .durable id history ≠ none) (stays : ∀ key s, op = .forget key (.evict s) → key ≠ id) :
    enrolled .durable id (history ++ op.tells) ≠ none := by
  have nothing : enrolled .durable id (history ++ []) ≠ none := by
    rw [List.append_nil]
    exact kept
  have ruled : ∀ happening, happening.enrols .durable id = none →
    enrolled .durable id (history ++ [happening]) ≠ none := by
    intro happening silent
    rw [enrolled_silent _ _ _ _ (by simp [silent])]
    exact kept
  cases op with
  | register request phase =>
      cases phase with
      | insert =>
          rw [show (Op.register request .insert).tells = registeredBy .durable request.record.pending
            request.trusted from rfl,
            enrolled_registered]
          split
          · simp
          · exact kept
      | _ => exact nothing
  | forget key phase =>
      cases phase with
      | evict s => exact ruled _ (if_neg fun same => stays key s rfl same.2)
      | _ => exact nothing
  | accept key phase =>
      cases phase with
      | leave s reply => cases reply <;> first | exact nothing | exact ruled _ rfl
      | _ => exact nothing
  | reject key phase =>
      cases phase with
      | leave s reply => cases reply <;> first | exact nothing | exact ruled _ rfl
      | _ => exact nothing
  | cancel caller key phase =>
      cases phase with
      | leave s reply => cases reply <;> first | exact nothing | exact ruled _ rfl
      | _ => exact nothing
  | _ => exact nothing

theorem legacy_enrolled (op : LegacyOp) (reading : Reading) (id : String) (history : List Happening)
    (kept : enrolled .legacy id history ≠ none)
    (stays : ∀ offer, op = .request offer .select → id ∉ reading.order) :
    enrolled .legacy id (history ++ op.tells reading) ≠ none := by
  have nothing : enrolled .legacy id (history ++ []) ≠ none := by
    rw [List.append_nil]
    exact kept
  cases op with
  | ruling verdict key phase =>
      cases phase with
      | edit todo reply =>
          cases todo with
          | nil =>
              cases reply with
              | ok token =>
                  have silent : (verdict.happening key).enrols .legacy id = none := by cases verdict <;> rfl
                  rw [show (LegacyOp.ruling verdict key (.edit [] (.ok token))).tells reading =
                    [verdict.happening key] from rfl,
                    enrolled_silent _ _ _ _ (by simp [silent])]
                  exact kept
              | error e => exact nothing
          | cons entry rest => exact nothing
      | _ => exact nothing
  | request offer phase =>
      cases phase with
      | select =>
          rw [show (LegacyOp.request offer .select).tells reading = reading.order.map
            (Happening.dropped .legacy) from rfl,
            enrolled_silent]
          · exact kept
          · rintro _ member
            obtain ⟨key, listed, rfl⟩ := List.mem_map.mp member
            refine if_neg fun same => stays offer rfl ?_
            rw [← same.2]
            exact listed
      | pend total =>
          rw [show (LegacyOp.request offer (.pend total)).tells reading = registeredBy .legacy
            (offer.pending total) offer.trusted from rfl,
            enrolled_registered]
          split
          · simp
          · exact kept
      | _ => exact nothing
  | _ => exact nothing

section Legacy

variable (state : LegacyState) (base : LegacyBase state) (o : Nat) (reading : Reading) (op op' : LegacyOp)
    (act : LegacyAct)
  (log : List LegacyEntry) (here : state.ops[o]? = some op)
  (stepped : op.next state.legacy state.disk reading = some (act, log, op'))

include base here stepped

theorem settled_retained (id : String) (now : ((state.after o act log op').settled.view id).pending ≠ none) :
    ((state.settled.view id).pending ≠ none ∧ ∀ offer, op = .request offer .select → id ∉ reading.order) ∨
      ∃ offer total, op = .request offer (.pend total) ∧ offer.id = id := by
  have moved := legacy_op_move state.legacy state.disk reading op op' act log stepped
  rcases settled_moved state base.locked o op reading op' act log here moved with ⟨same, busy⟩ |
    ⟨holds, idle, before, after⟩
  · rw [same] at now
    refine .inl ⟨now, ?_⟩
    rintro offer rfl
    cases moved with
    | request _ _ next _ _ moved =>
        cases moved with
        | selected distinct expired => rcases busy rfl with held | held <;> cases held
        | quit _ reply testing => cases testing
  · rw [after] at now
    rw [before]
    have kept : act.book state.legacy.ledger = state.legacy.ledger → op'.todo = [] →
      (state.legacy.ledger.view id).pending ≠ none := by
      intro same nothing
      rw [same, nothing] at now
      exact now
    cases moved with
    | ruling verdict key phase next act log moved =>
        refine .inl ⟨?_, by simp⟩
        cases moved with
        | accepted token transfer same waiting =>
            simp only [LegacyOp.todo, LegacyAct.book, accept_view] at now
            split at now <;> exact now
        | rejected transfer same waiting =>
            simp only [LegacyOp.todo, LegacyAct.book, reject_view] at now
            split at now
            · exact absurd rfl now
            · exact now
        | cancelled info =>
            simp only [LegacyOp.todo, LegacyAct.book, cancel_view] at now
            split at now
            · exact absurd rfl now
            · exact now
        | edited change log rest reply => cases idle
        | _ => exact kept rfl rfl
    | request offer phase next act log moved =>
        cases moved with
        | selected distinct expired =>
            simp only [LegacyOp.todo, LegacyAct.book, prune_view] at now
            split at now
            · exact absurd rfl now
            · rename_i outside
              exact .inl ⟨now, fun _ _ => outside⟩
        | registered total =>
            simp only [LegacyOp.todo, LegacyAct.book, register_view] at now
            split at now
            · rename_i same
              exact .inr ⟨offer, total, rfl, same⟩
            · exact .inl ⟨now, by simp⟩
        | pruned change log rest => cases idle
        | edited change log rest reply => cases idle
        | quit phase reply testing => exact .inl ⟨kept rfl rfl, by rintro _ ⟨⟩; cases testing⟩
        | _ => exact .inl ⟨kept rfl rfl, by simp⟩
    | approval peer key phase next act log moved => cases holds
    | chunk params phase next act log moved =>
        refine .inl ⟨?_, by simp⟩
        cases moved <;> exact now

end Legacy

theorem legacy_enrols_apart (op : LegacyOp) (reading : Reading) (id : String) (history : List Happening) :
    enrolled .durable id (history ++ op.tells reading) = enrolled .durable id history := by
  refine enrolled_silent .durable id history _ ?_
  intro happening member
  cases op with
  | ruling verdict key phase =>
      cases phase with
      | edit todo reply =>
          cases todo with
          | nil =>
              cases reply with
              | ok token =>
                  rw [List.mem_singleton.mp member]
                  cases verdict <;> rfl
              | error e => cases member
          | cons entry rest => cases member
      | _ => cases member
  | request offer phase =>
      cases phase with
      | select =>
          obtain ⟨key, _, rfl⟩ := List.mem_map.mp member
          simp [Happening.enrols]
      | pend total =>
          rcases List.mem_cons.mp member with rfl | accepted
          · simp [Happening.enrols]
          · split at accepted
            · rw [List.mem_singleton.mp accepted]
              rfl
            · cases accepted
      | _ => cases member
  | _ => cases member

theorem durable_enrols_apart (op : Op) (id : String) (history : List Happening) :
    enrolled .legacy id (history ++ op.tells) = enrolled .legacy id history := by
  have nothing : enrolled .legacy id (history ++ []) = enrolled .legacy id history := by rw [List.append_nil]
  have ruled : ∀ happening, happening.enrols .legacy id = none →
      enrolled .legacy id (history ++ [happening]) = enrolled .legacy id history :=
    fun happening silent => enrolled_silent _ _ _ _ (by simp [silent])
  cases op with
  | register request phase =>
      cases phase with
      | insert => exact (enrolled_registered .legacy .durable id history _ _).trans (if_neg (by simp))
      | _ => exact nothing
  | forget key phase =>
      cases phase with
      | evict s => exact ruled _ (by simp [Happening.enrols])
      | _ => exact nothing
  | accept key phase =>
      cases phase with
      | leave s reply => cases reply <;> first | exact nothing | exact ruled _ rfl
      | _ => exact nothing
  | reject key phase =>
      cases phase with
      | leave s reply => cases reply <;> first | exact nothing | exact ruled _ rfl
      | _ => exact nothing
  | cancel caller key phase =>
      cases phase with
      | leave s reply => cases reply <;> first | exact nothing | exact ruled _ rfl
      | _ => exact nothing
  | _ => exact nothing

structure Enrolled (docket : Docket) : Prop where
  legacy : ∀ id, (docket.state.version1.settled.view id).pending ≠ none →
    enrolled .legacy id docket.history ≠ none
  durable : ∀ id, docket.state.durable.store.sessions.lookup id ≠ none →
    enrolled .durable id docket.history ≠ none

section Step

variable (sha256 : Bytes → String) (turn : Option (Nat ⊕ Nat)) (docket : Docket)
    (recounts : Recounts turn docket)
  (enrolled_ : Enrolled docket)

include recounts enrolled_

theorem enrolled_legacy (o : Nat) (reading : Reading) (op op' : LegacyOp) (act : LegacyAct)
    (log : List LegacyEntry) (here : docket.state.ops[o]? = some op)
    (stepped : op.next docket.state.legacy docket.state.durable.store.disk reading = some (act, log, op'))
    (id : String) (now : ((docket.state.version1.after o act log op').settled.view id).pending ≠ none) :
    enrolled .legacy id (docket.history ++ op.tells reading) ≠ none := by
  rcases settled_retained docket.state.version1 recounts.apart.base o reading op op' act log here stepped id
    now with
    ⟨before, stays⟩ | ⟨offer, total, rfl, rfl⟩
  · exact legacy_enrolled op reading id docket.history (enrolled_.legacy id before) stays
  · rw [show (LegacyOp.request offer (.pend total)).tells reading = registeredBy .legacy
      (offer.pending total) offer.trusted from rfl,
      enrolled_registered, if_pos ⟨rfl, rfl⟩]
    simp

omit recounts in
theorem enrolled_durable (o : Nat) (fault : Option Fault) (op op' : Op) (act : Act) (log : List Entry)
    (here : docket.state.durable.ops[o]? = some op)
    (moved : OpMove sha256 docket.state.durable.store fault op act log op') (id : String)
    (now : (docket.state.durable.store.apply o act).sessions.lookup id ≠ none) :
    enrolled .durable id (docket.history ++ op.tells) ≠ none := by
  rcases session_inserted sha256 docket.state o fault op op' act log here moved id now with before |
    ⟨request, rfl, rfl⟩
  · refine durable_enrolled op id docket.history (enrolled_.durable id before) ?_
    rintro key s rfl rfl
    cases moved with
    | forget _ _ next _ _ moved =>
        cases moved with
        | evicted _ => exact now (AList.lookup_erase _ _)
  · rw [show (Op.register request .insert).tells = registeredBy .durable request.record.pending
      request.trusted from rfl,
      enrolled_registered, if_pos ⟨rfl, rfl⟩]
    simp

theorem enrolled_step (next : Docket) (label : ReceiverLabel) (allowed : oneByOne docket label = true)
    (stepped : docketStep sha256 docket label = some next) : Enrolled next := by
  obtain ⟨receiver, made, rfl⟩ :=
    annotate_cases (receiverStep sha256) Receiver.tells docket next label stepped
  rcases receiver_step_cases sha256 docket.state receiver label made with
    ⟨inner, after, rfl, notCrash, _, durable, isNext⟩ | ⟨after, rfl, _, _⟩ |
      ⟨inner, after, rfl, running, _, legacy, isNext⟩ |
    ⟨o, request, rfl, _, _, isNext⟩
  · rcases step_cases sha256 docket.state.durable after inner durable with ⟨call, rfl, running, rfl⟩ |
      ⟨o, fault, op, act, log, op', rfl, here, moved, rfl⟩ | ⟨rfl, _, _⟩ | ⟨store, rfl, stopped, loaded, rfl⟩
    · subst isNext
      exact ⟨fun id now => by simpa [Receiver.tells] using enrolled_.legacy id now,
        fun id now => by simpa [Receiver.tells] using enrolled_.durable id now⟩
    · have told : docket.state.tells (.durable (.advance o fault)) =
        op.tells := by simp [Receiver.tells, here]
      subst isNext
      rw [told]
      refine ⟨?_, ?_⟩
      · intro id now
        rw [durable_enrols_apart]
        exact enrolled_.legacy id now
      · exact enrolled_durable sha256 docket enrolled_ o fault op op' act log here moved
    · exact absurd rfl notCrash
    · subst isNext
      refine ⟨fun id now => by simpa [Receiver.tells] using enrolled_.legacy id now, ?_⟩
      intro id now
      exact absurd (unstarted_empty turn docket recounts store stopped loaded id) now
  · cases allowed
  · cases inner with
    | call call =>
        obtain rfl : _ = after := Option.some.inj legacy
        subst isNext
        refine ⟨?_, fun id now => by simpa [Receiver.tells] using enrolled_.durable id now⟩
        intro id now
        have settled := call_settled docket.state.version1 recounts.apart.base.locked call
        have before : (docket.state.version1.settled.view id).pending ≠ none := by
          rw [← settled]
          exact now
        simpa [Receiver.tells] using enrolled_.legacy id before
    | advance o reading =>
        obtain ⟨op, here, stepped⟩ := Option.bind_eq_some_iff.mp legacy
        obtain ⟨⟨act, log, op'⟩, moved, same⟩ := Option.bind_eq_some_iff.mp stepped
        obtain rfl := Option.some.inj same
        have told : docket.state.tells (.legacy (.advance o reading)) = op.tells reading := by
          have there : docket.state.ops[o]? = some op := here
          simp [Receiver.tells, there]
        subst isNext
        rw [told]
        refine ⟨enrolled_legacy turn docket recounts enrolled_ o reading op op' act log here moved, ?_⟩
        intro id now
        rw [legacy_enrols_apart]
        exact enrolled_.durable id now
  · subst isNext
    exact ⟨fun id now => by simpa [Receiver.tells] using enrolled_.legacy id now,
      fun id now => by simpa [Receiver.tells] using enrolled_.durable id now⟩

end Step

theorem initial_enrolled (docket : Docket) (initial : DocketInitial docket) : Enrolled docket := by
  have empty : docket.state.legacy = .empty := initial.receiver.legacy.fresh
  have free : docket.state.version1.legacy.decisions = none := by
    rw [show docket.state.version1.legacy = docket.state.legacy from rfl, empty]
    rfl
  refine ⟨?_, ?_⟩
  · intro id now
    rw [settled_free _ free, show docket.state.version1.legacy = docket.state.legacy from rfl, empty] at now
    exact absurd rfl now
  · intro id now
    rw [initial.receiver.durable.fresh] at now
    exact absurd rfl now

theorem run_enrolled (sha256 : Bytes → String) (start docket : Docket) (initial : DocketInitial start)
    (run : Transition.Run (docketStep sha256) (fun docket label => oneByOne docket label = true) start
      docket) :
    ∃ turn, Recounts turn docket ∧ Enrolled docket := by
  refine Transition.run_invariant (docketStep sha256) _ (fun docket => ∃ turn, Recounts turn docket ∧
    Enrolled docket) ?_
    start docket run ⟨none, initial_recounts start initial, initial_enrolled start initial⟩
  rintro docket label next ⟨turn, recounts, enrolled_⟩ allowed stepped
  exact ⟨_, recounts_step sha256 turn docket next label recounts allowed stepped,
    enrolled_step sha256 turn docket recounts enrolled_ next label allowed stepped⟩

section Listed

variable (turn : Option (Nat ⊕ Nat)) (docket : Docket) (recounts : Recounts turn docket)
    (enrolled_ : Enrolled docket)
  (idle : docket.state.idle = true)

include recounts enrolled_ idle

theorem retained_listed (protocol : Protocol) (transfer : PendingTransfer)
    (retained : docket.state.Retains protocol transfer)
    (unruled : Unruled docket.history protocol transfer) : Undecided docket.history protocol transfer := by
  refine unruled_undecided docket.history protocol transfer ?_ unruled
  cases protocol with
  | legacy =>
      refine enrolled_.legacy transfer.id ?_
      rw [idle_settled turn docket recounts idle]
      exact fun gone => Option.some_ne_none _ (retained.symm.trans gone)
  | durable =>
      obtain ⟨s, session, found, _⟩ := retained
      exact enrolled_.durable transfer.id (by simp [found])

omit enrolled_ in
theorem undecided_retained (protocol : Protocol) (transfer : PendingTransfer)
    (undecided : Undecided docket.history protocol transfer) :
    docket.state.Retains protocol transfer := by
  have waits := (awaiting_iff protocol transfer.id docket.history transfer).mpr ⟨rfl, undecided⟩
  cases protocol with
  | legacy =>
      rw [← idle_legacy turn docket recounts idle] at waits
      simp only [View.waits] at waits
      split at waits
      · exact waits
      · cases waits
  | durable =>
      rw [← idle_durable turn docket recounts idle] at waits
      obtain ⟨s, found, waits⟩ := Option.bind_eq_some_iff.mp waits
      obtain ⟨session, there, waits⟩ := Option.bind_eq_some_iff.mp waits
      simp only [Record.waits] at waits
      split at waits
      · exact ⟨s, session, found, there, Option.some.inj waits⟩
      · cases waits

theorem retained_listing (legacyOrder durableOrder : List String)
    (orders : docket.state.Iterates legacyOrder durableOrder) (transfer : PendingTransfer) :
    transfer ∈ docket.state.getPendingTransfers legacyOrder durableOrder ↔
      ∃ protocol, docket.state.Retains protocol transfer ∧ Unruled docket.history protocol transfer := by
  rw [(idle_listing turn docket recounts idle legacyOrder durableOrder orders).2]
  constructor
  · rintro (undecided | undecided)
    · exact ⟨.legacy, undecided_retained turn docket recounts idle _ transfer undecided,
        undecided_unruled _ _ transfer undecided⟩
    · exact ⟨.durable, undecided_retained turn docket recounts idle _ transfer undecided,
        undecided_unruled _ _ transfer undecided⟩
  · rintro ⟨protocol, retained, unruled⟩
    have undecided := retained_listed turn docket recounts enrolled_ idle protocol transfer retained unruled
    cases protocol with
    | legacy => exact .inl undecided
    | durable => exact .inr undecided

end Listed

end GoshTransfer
