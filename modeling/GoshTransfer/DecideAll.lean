import GoshTransfer.Retained
import GoshTransfer.DecideOne

set_option autoImplicit false

namespace GoshTransfer

open InodeStore Histories

-- What decisions about some ids leave: nothing of those ids waits, and nothing
-- else has changed for the list.
structure Taken (ids : List String) (start final : Docket) : Prop where
  recounts : ∃ turn, Recounts turn final
  idle : final.state.idle = true
  running : final.state.durable.running = true
  awaiting : ∀ protocol other, awaiting protocol other final.history =
    if other ∈ ids then none else awaiting protocol other start.history

theorem taken_trans (id : String) (ids : List String) (start middle final : Docket)
    (first : Taken [id] start middle) (second : Taken ids middle final) : Taken (id :: ids) start final := by
  refine ⟨second.recounts, second.idle, second.running, ?_⟩
  intro protocol other
  rw [second.awaiting, first.awaiting]
  by_cases here : other = id <;> by_cases later : other ∈ ids <;> simp [here, later]

theorem taken_waits (id : String) (ids : List String) (start middle : Docket)
    (taken : Taken [id] start middle) (absent : id ∉ ids)
    (waits : ∀ other ∈ id :: ids, ∃ protocol, awaiting protocol other start.history ≠ none) :
    ∀ other ∈ ids, ∃ protocol, awaiting protocol other middle.history ≠ none := by
  intro other member
  obtain ⟨protocol, waiting⟩ := waits other (List.mem_cons_of_mem _ member)
  have different : other ≠ id := by
    rintro rfl
    exact absent member
  refine ⟨protocol, ?_⟩
  rw [taken.awaiting, if_neg (by simpa using different)]
  exact waiting

theorem awaiting_decided (party : Protocol) (id : String) (history : List Happening) (happening : Happening)
    (said : ∀ protocol other, happening.about protocol other = if party = protocol ∧
      id = other then some none else none)
    (elsewhere : ∀ protocol, protocol ≠ party → awaiting protocol id history = none) (protocol : Protocol)
    (other : String) :
    awaiting protocol other
    (history ++ [happening]) = if other ∈ [id] then none else awaiting protocol other history := by
  by_cases same : other = id
  · subst same
    rw [if_pos (List.mem_singleton_self other)]
    by_cases mine : protocol = party
    · subst mine
      rw [awaiting_append]
      simp [hear, said]
    · have silent : happening.about protocol other = none := by
        rw [said, if_neg]
        exact fun both => mine both.1.symm
      rw [awaiting_silent protocol other history _ (by simp [silent])]
      exact elsewhere protocol mine
  · have silent : happening.about protocol other = none := by
      rw [said, if_neg]
      exact fun both => same both.2.symm
    rw [if_neg (by simpa using same), awaiting_silent protocol other history _ (by simp [silent])]

section Returns

variable (sha256 : Bytes → String) (choice : Choice) (id : String) (turn : Option (Nat ⊕ Nat))
    (start : Docket)
  (recounts : Recounts turn start) (idle : start.state.idle = true)

include recounts idle

theorem waits_once : awaiting .legacy id start.history = none ∨
    awaiting .durable id start.history = none := by
  by_contra both
  push Not at both
  obtain ⟨pending, present⟩ := awaiting_retained turn start recounts idle id
  exact pending both.1 (recounts.apart.apart id (present both.2))

theorem rules_over (called final : Docket) (waits : awaiting .legacy id start.history ≠ none)
    (call : docketStep sha256 start (.legacy (.call (choice.legacyCall id))) = some called)
    (run : Transition.Run (docketStep sha256)
      (fun docket label => awaits (.inl start.state.ops.length) docket label = true) called final) :
    ∃ m, Rules choice id start.history start.state.ops.length m final :=
  Transition.run_lowers (docketStep sha256) _ _
    (rules_step sha256 choice id start.history start.state.ops.length) 10 called final run
    (rules_begin sha256 choice id turn start called recounts idle waits call)

theorem asks_over (called asked : Docket) (present : start.state.durable.store.sessions.lookup id ≠ none)
    (call : docketStep sha256 start (.legacy (.call (choice.legacyCall id))) = some called)
    (run : Transition.Run (docketStep sha256)
      (fun docket label => awaits (.inl start.state.ops.length) docket label = true) called asked) :
    ∃ m, Asks choice id start.history start.state.ops.length m asked :=
  Transition.run_lowers (docketStep sha256) _ _
    (asks_step sha256 choice id start.history start.state.ops.length) 1 called asked run
    (asks_begin sha256 choice id turn start called recounts idle present call)

theorem decides_over (called final : Docket) (waits : awaiting .durable id start.history ≠ none)
    (call : docketStep sha256 start (.durable (.call (choice.durableCall id))) = some called)
    (run : Transition.Run (docketStep sha256)
      (fun docket label => awaits (.inr start.state.durable.ops.length) docket label = true)
      called final) : ∃ m, Decides choice id start.history start.state.durable.ops.length m final :=
  Transition.run_lowers (docketStep sha256) _ _
    (decides_step sha256 choice id start.history start.state.durable.ops.length) 5 called final run
    (decides_begin sha256 choice id turn start called recounts idle waits call)

theorem returns_spec (final : Docket) (answer : Answer)
    (waits : ∃ protocol, awaiting protocol id start.history ≠ none)
    (returns : Returns sha256 choice id start answer final) : (∃ value, answer = .ok value) ∧
      Taken [id] start final := by
  obtain ⟨pending, retained⟩ := awaiting_retained turn start recounts idle id
  have once := waits_once id turn start recounts idle
  by_cases present : start.state.durable.store.sessions.lookup id = none
  · have quiet : awaiting .durable id start.history = none := by
      by_contra waiting
      exact retained waiting present
    have waiting : awaiting .legacy id start.history ≠ none := by
      obtain ⟨protocol, waits⟩ := waits
      cases protocol with
      | legacy => exact waits
      | durable => exact absurd quiet waits
    cases returns with
    | legacy called _ _ call run returned =>
        obtain ⟨m, rules⟩ :=
          rules_over sha256 choice id turn start recounts idle called final waiting call run
        obtain ⟨good, told, idle'⟩ := rules_end choice id start.history _ m final rules answer returned
        refine ⟨good, ⟨_, rules.recounts⟩, idle', rules.running, ?_⟩
        rw [told]
        refine awaiting_decided .legacy id start.history _ ?_ ?_
        · intro protocol other
          cases choice <;> rfl
        · intro protocol other
          cases protocol with
          | legacy => exact absurd rfl other
          | durable => exact quiet
    | durable called asked again _ _ call run found callAgain runAgain returned =>
        obtain ⟨m, rules⟩ :=
          rules_over sha256 choice id turn start recounts idle called asked waiting call run
        obtain ⟨phase, here, fine, _⟩ := rules.place
        obtain rfl : phase = .durable := by simpa using here.symm.trans found
        exact fine.elim
  · have quiet : awaiting .legacy id start.history = none := by
      by_contra waiting
      exact pending waiting (recounts.apart.apart id present)
    cases returns with
    | legacy called _ _ call run returned =>
        obtain ⟨m, asks⟩ := asks_over sha256 choice id turn start recounts idle called final present call run
        obtain ⟨here, _⟩ | ⟨here, _⟩ := asks.place <;> simp [here] at returned
    | durable called asked again _ _ call run found callAgain runAgain returned =>
        obtain ⟨m, asks⟩ := asks_over sha256 choice id turn start recounts idle called asked present call run
        have idleAsked := asks_end choice id start.history _ m asked asks found
        have waiting : awaiting .durable id asked.history ≠ none := by
          rw [asks.silent]
          obtain ⟨protocol, waits⟩ := waits
          cases protocol with
          | legacy => exact absurd quiet waits
          | durable => exact waits
        obtain ⟨k, decides⟩ :=
          decides_over sha256 choice id _ asked asks.recounts idleAsked again final waiting callAgain runAgain
        obtain ⟨good, told, idle'⟩ := decides_end choice id asked.history _ k final decides answer returned
        obtain ⟨op, there, _⟩ := decides.place
        refine ⟨good, ⟨_, decides.recounts⟩, idle', base_running _ decides.recounts.base _ op there, ?_⟩
        rw [told, asks.silent]
        refine awaiting_decided .durable id start.history _ ?_ ?_
        · intro protocol other
          cases choice <;> rfl
        · intro protocol other
          cases protocol with
          | legacy => exact quiet
          | durable => exact absurd rfl other

theorem returns_exists (running : start.state.durable.running = true)
    (waits : ∃ protocol, awaiting protocol id start.history ≠ none) :
    ∃ answer final, Returns sha256 choice id start answer final := by
  obtain ⟨receiver, made⟩ : ∃ receiver, receiverStep sha256 start.state
    (.legacy (.call (choice.legacyCall id))) = some receiver := by
    simp [receiverStep, running, Receiver.answers, legacyStep]
  have call := annotate_step (receiverStep sha256) Receiver.tells start _ receiver made
  by_cases present : start.state.durable.store.sessions.lookup id = none
  · have waiting : awaiting .legacy id start.history ≠ none := by
      obtain ⟨protocol, waits⟩ := waits
      cases protocol with
      | legacy => exact waits
      | durable => exact absurd present ((awaiting_retained turn start recounts idle id).2 waits)
    obtain ⟨final, m, run, rules, answer, returned⟩ := Transition.run_ends (docketStep sha256)
      (fun docket label => awaits (.inl start.state.ops.length) docket label = true)
      (Rules choice id start.history start.state.ops.length)
      (fun docket => ∃ answer, docket.state.ops[start.state.ops.length]? =
      some (.ruling (choice.verdict id) id (.done answer)))
      (fun n docket rules going => rules_goes_on sha256 choice id start.history _ n docket rules going) 10 _
      (rules_begin sha256 choice id turn start _ recounts idle waiting call)
    exact ⟨answer, final, .legacy _ final answer call run returned⟩
  · obtain ⟨asked, m, run, asks, found⟩ := Transition.run_ends (docketStep sha256)
      (fun docket label => awaits (.inl start.state.ops.length) docket label = true)
      (Asks choice id start.history start.state.ops.length)
      (fun docket => docket.state.ops[start.state.ops.length]? =
      some (.ruling (choice.verdict id) id .durable))
      (fun n docket asks going => asks_goes_on sha256 choice id start.history _ n docket asks going) 1 _
      (asks_begin sha256 choice id turn start _ recounts idle present call)
    have idleAsked := asks_end choice id start.history _ m asked asks found
    have waiting : awaiting .durable id asked.history ≠ none := by
      rw [asks.silent]
      obtain ⟨protocol, waits⟩ := waits
      cases protocol with
      | legacy =>
          exact absurd (recounts.apart.apart id present)
            ((awaiting_retained turn start recounts idle id).1 waits)
      | durable => exact waits
    obtain ⟨receiver', made'⟩ : ∃ receiver, receiverStep sha256 asked.state
      (.durable (.call (choice.durableCall id))) = some receiver := by
      have permitted : asked.state.permits (.call (choice.durableCall id)) = true := rfl
      simp [receiverStep, permitted, step, asks.running]
    have callAgain := annotate_step (receiverStep sha256) Receiver.tells asked _ receiver' made'
    obtain ⟨final, k, runAgain, decides, answer, returned⟩ := Transition.run_ends (docketStep sha256)
      (fun docket label => awaits (.inr asked.state.durable.ops.length) docket label = true)
      (Decides choice id asked.history asked.state.durable.ops.length)
      (fun docket => ∃ answer, (docket.state.durable.ops[asked.state.durable.ops.length]?).bind Op.decided =
      some answer)
      (fun n docket decides going => decides_goes_on sha256 choice id asked.history _ n docket decides
      going) 5 _
      (decides_begin sha256 choice id _ asked _ asks.recounts idleAsked waiting callAgain)
    exact ⟨answer, final, .durable _ asked _ final answer call run found callAgain runAgain returned⟩

end Returns

-- accept_all_transfers and reject_all_transfers, with the server running, from
-- the ids that get_pending_transfers listed to the results.
inductive DecidesAll (sha256 : Bytes → String) (choice : Choice) : List String → Docket → List
    (String × Answer) → Docket → Prop where
  | done (docket : Docket) : DecidesAll sha256 choice [] docket [] docket
  | next (id : String) (ids : List String) (start middle final : Docket) (answer : Answer)
      (results : List (String × Answer)) (returns : Returns sha256 choice id start answer middle)
      (rest : DecidesAll sha256 choice ids middle results final) :
      DecidesAll sha256 choice (id :: ids) start ((id, answer) :: results) final

section All

variable (sha256 : Bytes → String) (choice : Choice)

theorem decides_all (ids : List String) (start final : Docket) (results : List (String × Answer))
    (turn : Option (Nat ⊕ Nat)) (recounts : Recounts turn start) (idle : start.state.idle = true)
    (running : start.state.durable.running = true) (once : ids.Nodup)
    (waits : ∀ id ∈ ids, ∃ protocol, awaiting protocol id start.history ≠ none)
    (all : DecidesAll sha256 choice ids start results final) :
    results.map Prod.fst = ids ∧ (∀ result ∈ results, ∃ value, result.2 = .ok value) ∧
      Taken ids start final := by
  induction all generalizing turn with
  | done docket => exact ⟨rfl, by simp, ⟨turn, recounts⟩, idle, running, by simp⟩
  | next id ids start middle final answer results returns rest ih =>
      obtain ⟨absent, once⟩ := List.nodup_cons.mp once
      obtain ⟨good, taken⟩ := returns_spec sha256 choice id turn start recounts idle middle answer
        (waits id List.mem_cons_self) returns
      obtain ⟨later, recounts'⟩ := taken.recounts
      have still := taken_waits id ids start middle taken absent waits
      obtain ⟨named, ok, rest'⟩ := ih later recounts' taken.idle taken.running once still
      refine ⟨by simp [named], ?_, taken_trans id ids start middle final taken rest'⟩
      intro result member
      rcases List.mem_cons.mp member with rfl | member
      · exact good
      · exact ok result member

theorem decides_all_exists (ids : List String) (start : Docket) (turn : Option (Nat ⊕ Nat))
    (recounts : Recounts turn start) (idle : start.state.idle = true)
    (running : start.state.durable.running = true) (once : ids.Nodup)
    (waits : ∀ id ∈ ids, ∃ protocol, awaiting protocol id start.history ≠ none) :
    ∃ results final, DecidesAll sha256 choice ids start results final := by
  induction ids generalizing start turn with
  | nil => exact ⟨[], start, .done start⟩
  | cons id ids ih =>
      obtain ⟨absent, once⟩ := List.nodup_cons.mp once
      have here := waits id List.mem_cons_self
      obtain ⟨answer, middle, returns⟩ :=
        returns_exists sha256 choice id turn start recounts idle running here
      obtain ⟨_, taken⟩ := returns_spec sha256 choice id turn start recounts idle middle answer here returns
      obtain ⟨later, recounts'⟩ := taken.recounts
      have still := taken_waits id ids start middle taken absent waits
      obtain ⟨results, final, rest⟩ := ih middle later recounts' taken.idle taken.running once still
      exact ⟨_, final, .next id ids start middle final answer results returns rest⟩

end All

theorem pending_list_is_the_undecided (sha256 : Bytes → String) (start docket : Docket)
    (initial : DocketInitial start)
    (run : Transition.Run (docketStep sha256)
      (fun docket label => oneByOne docket label = true) start docket)
    (idle : docket.state.idle = true) (legacyOrder durableOrder : List String)
    (orders : docket.state.Iterates legacyOrder durableOrder) :
    ((docket.state.getPendingTransfers legacyOrder durableOrder).map PendingTransfer.id).Nodup ∧
    (∀ transfer, transfer ∈ docket.state.getPendingTransfers legacyOrder durableOrder ↔
      ∃ protocol, docket.state.Retains protocol transfer ∧ Unruled docket.history protocol transfer) ∧
    (docket.state.durable.running = true → ∀ choice,
      let ids := (docket.state.getPendingTransfers legacyOrder durableOrder).map PendingTransfer.id
      (∃ results final, DecidesAll sha256 choice ids docket results final) ∧
      ∀ results final, DecidesAll sha256 choice ids docket results final →
        results.map Prod.fst = ids ∧ (∀ result ∈ results, ∃ value, result.2 = .ok value) ∧
          ∀ legacyAfter durableAfter, final.state.Iterates legacyAfter durableAfter →
            final.state.getPendingTransfers legacyAfter durableAfter = []) := by
  obtain ⟨turn, recounts, enrolled_⟩ := run_enrolled sha256 start docket initial run
  obtain ⟨once, members⟩ := idle_listing turn docket recounts idle legacyOrder durableOrder orders
  refine ⟨once, retained_listing turn docket recounts enrolled_ idle legacyOrder durableOrder orders, ?_⟩
  intro running choice ids
  have listed : ∀ protocol id, awaiting protocol id docket.history ≠ none → id ∈ ids := by
    intro protocol id waits
    obtain ⟨transfer, waits⟩ := Option.ne_none_iff_exists'.mp waits
    obtain ⟨rfl, undecided⟩ := (awaiting_iff protocol id docket.history transfer).mp waits
    refine List.mem_map_of_mem ((members transfer).mpr ?_)
    cases protocol with
    | legacy => exact .inl undecided
    | durable => exact .inr undecided
  have waits : ∀ id ∈ ids, ∃ protocol, awaiting protocol id docket.history ≠ none := by
    intro id member
    obtain ⟨transfer, present, rfl⟩ := List.mem_map.mp member
    rcases (members transfer).mp present with undecided | undecided
    · exact ⟨.legacy, by simp [(awaiting_iff .legacy _ _ transfer).mpr ⟨rfl, undecided⟩]⟩
    · exact ⟨.durable, by simp [(awaiting_iff .durable _ _ transfer).mpr ⟨rfl, undecided⟩]⟩
  refine ⟨decides_all_exists sha256 choice ids docket turn recounts idle running once waits, ?_⟩
  intro results final all
  obtain ⟨named, good, taken⟩ :=
    decides_all sha256 choice ids docket final results turn recounts idle running once waits all
  refine ⟨named, good, ?_⟩
  intro legacyAfter durableAfter _
  obtain ⟨later, recounts'⟩ := taken.recounts
  have nothing : ∀ protocol id, awaiting protocol id final.history = none := by
    intro protocol id
    rw [taken.awaiting]
    split
    · rfl
    · rename_i absent
      by_contra waiting
      exact absent (listed protocol id waiting)
  rw [idle_list later final recounts' taken.idle]
  simp [nothing]

theorem two_transfers_wait : ∃ docket : Docket,
    (docket.state.getPendingTransfers [offerId] [smallId]).map PendingTransfer.id = [offerId, smallId] ∧
    ∀ choice, ∃ results final, DecidesAll emptyHash choice [offerId, smallId] docket results final ∧
      results.map Prod.fst = [offerId, smallId] ∧ ∀ result ∈ results, ∃ value, result.2 = .ok value := by
  obtain ⟨docket, run, checked⟩ :=
    Transition.replay_reaches (docketStep emptyHash) (fun docket label => oneByOne docket label = true)
    (durables (.start :: .call (.register (smallRegister false)) :: advances 0 2) ++ .peek 0 ::
      durables (advances 0 5) ++ legacies (.call (.request (smallOffer false)) :: legacyAdvances 0 12))
    ⟨emptyReceiver, []⟩
    (fun docket => docket.state.idle && docket.state.durable.running &&
      decide ([offerId].toFinset = docket.state.legacy.ledger.pending.keys) &&
      decide ([smallId].toFinset = docket.state.durable.store.sessions.keys.toFinset) &&
      decide ((docket.state.getPendingTransfers [offerId] [smallId]).map PendingTransfer.id =
      [offerId, smallId])) (by decide +kernel)
  simp only [Bool.and_eq_true, decide_eq_true_eq] at checked
  obtain ⟨⟨⟨⟨idle, running⟩, legacy⟩, durable⟩, listed⟩ := checked
  obtain ⟨_, _, all⟩ := pending_list_is_the_undecided emptyHash ⟨emptyReceiver, []⟩ docket
    ⟨empty_receiver_initial, rfl⟩ run idle [offerId] [smallId]
    (keys_iterate docket.state _ _ ⟨by simp, by simp⟩ legacy durable)
  refine ⟨docket, listed, ?_⟩
  intro choice
  obtain ⟨⟨results, final, done⟩, spec⟩ := all running choice
  obtain ⟨named, good, _⟩ := spec results final done
  rw [listed] at done named
  exact ⟨results, final, done, named, good⟩

end GoshTransfer
