import Mathlib.Logic.Relation

set_option autoImplicit false

-- Labelled transition systems given by a partial step function. A run is
-- constrained by a condition on the state before each step and on the label,
-- so that one system serves results with different environment assumptions.
namespace Transition

variable {State Label : Type}

inductive Run (step : State → Label → Option State) (allow : State → Label → Prop) (start : State) : State →
    Prop where
  | refl : Run step allow start start
  | tail (middle final : State) (label : Label) (before : Run step allow start middle)
      (allowed : allow middle label) (stepped : step middle label = some final) : Run step allow start final

theorem run_trans (step : State → Label → Option State) (allow : State → Label → Prop) (a b c : State)
    (first : Run step allow a b) (second : Run step allow b c) : Run step allow a c := by
  induction second with
  | refl => exact first
  | tail middle final label _ allowed stepped ih => exact .tail middle final label ih allowed stepped

theorem run_mono (step : State → Label → Option State) (strong weak : State → Label → Prop) (a b : State)
    (implied : ∀ state label, strong state label → weak state label)
    (run : Run step strong a b) : Run step weak a b := by
  induction run with
  | refl => exact .refl
  | tail middle final label _ allowed stepped ih =>
      exact .tail middle final label ih (implied _ _ allowed) stepped

-- The invariant rule: what every allowed step preserves, every run preserves.
theorem run_invariant (step : State → Label → Option State) (allow : State → Label → Prop)
    (good : State → Prop) (preserved : ∀ state label next, good state → allow state label →
      step state label = some next → good next)
    (a b : State) (run : Run step allow a b) (initial : good a) : good b := by
  induction run with
  | refl => exact initial
  | tail middle final label _ allowed stepped ih => exact preserved middle label final ih allowed stepped

-- What the invariant adds to the guard of each step.
theorem run_strengthened (step : State → Label → Option State) (allow strong : State → Label → Prop)
    (good : State → Prop) (preserved : ∀ state label next, good state → allow state label →
      step state label = some next → good next ∧ strong state label)
    (a b : State) (run : Run step allow a b) (initial : good a) : good b ∧ Run step strong a b := by
  induction run with
  | refl => exact ⟨initial, .refl⟩
  | tail middle final label _ allowed stepped ih =>
      obtain ⟨carried, earlier⟩ := ih
      obtain ⟨kept, stronger⟩ := preserved middle label final carried allowed stepped
      exact ⟨kept, .tail middle final label earlier stronger stepped⟩

-- The same rule for a relation between the two ends of a run.
theorem run_relation (step : State → Label → Option State) (allow : State → Label → Prop)
    (good : State → Prop) (rel : State → State → Prop) (reflexive : ∀ state, rel state state)
    (transitive : ∀ a b c, rel a b → rel b c → rel a c)
    (preserved : ∀ state label next, good state → allow state label → step state label = some next →
      good next ∧ rel state next)
    (a b : State) (run : Run step allow a b) (initial : good a) : good b ∧ rel a b := by
  induction run with
  | refl => exact ⟨initial, reflexive a⟩
  | tail middle final label _ allowed stepped ih =>
      obtain ⟨goodNext, related⟩ := preserved middle label final ih.1 allowed stepped
      exact ⟨goodNext, transitive a middle final ih.2 related⟩

-- An invariant with a measure that every step lowers.
theorem run_lowers (step : State → Label → Option State) (allow : State → Label → Prop)
    (good : Nat → State → Prop) (lowers : ∀ n state next label, good n state → allow state label →
      step state label = some next → ∃ m < n, good m next)
    (n : Nat) (a b : State) (run : Run step allow a b) (start : good n a) : ∃ m, good m b := by
  refine run_invariant step allow (fun state => ∃ m, good m state) ?_ a b run ⟨n, start⟩
  rintro state label next ⟨m, carried⟩ allowed stepped
  obtain ⟨k, _, later⟩ := lowers m state next label carried allowed stepped
  exact ⟨k, later⟩

-- The variant rule: a run can be continued to its end when every state before
-- the end has a step that lowers the measure.
theorem run_ends (step : State → Label → Option State) (allow : State → Label → Prop)
    (good : Nat → State → Prop) (ended : State → Prop) (progress : ∀ n state, good n state → ¬ ended state →
      ∃ label next m, allow state label ∧ step state label = some next ∧ m < n ∧
      good m next) (n : Nat) (a : State) (start : good n a) : ∃ b m, Run step allow a b ∧ good m b ∧
        ended b := by
  induction n using Nat.strongRecOn generalizing a with
  | ind n ih =>
      by_cases done : ended a
      · exact ⟨a, n, .refl, start, done⟩
      · obtain ⟨label, next, m, allowed, stepped, lower, carried⟩ := progress n a start done
        obtain ⟨b, k, rest, final, over_⟩ := ih m lower next carried
        exact ⟨b, k, run_trans step allow a next b (.tail a next label .refl allowed stepped) rest, final,
          over_⟩

-- Executes a list of labels, refusing a label that the condition excludes.
def replay (step : State → Label → Option State) (allow : State → Label → Prop)
    [∀ state label, Decidable (allow state label)] : State → List Label → Option State
  | state, [] => some state
  | state, label :: rest =>
      if allow state label then (step state label).bind fun next => replay step allow next rest else none

theorem replay_run (step : State → Label → Option State) (allow : State → Label → Prop)
    [∀ state label, Decidable (allow state label)] (labels : List Label) (a b : State)
    (completed : replay step allow a labels = some b) : Run step allow a b := by
  induction labels generalizing a with
  | nil =>
      have same : a = b := by simpa [replay] using completed
      rw [same]
      exact .refl
  | cons label rest ih =>
      by_cases allowed : allow a label
      · obtain ⟨next, stepped, remaining⟩ :=
          Option.bind_eq_some_iff.mp (by simpa only [replay, if_pos allowed] using completed)
        exact run_trans step allow a next b (.tail a next label .refl allowed stepped) (ih next remaining)
      · simp [replay, allowed] at completed

theorem replay_reaches (step : State → Label → Option State) (allow : State → Label → Prop)
    [∀ state label, Decidable (allow state label)] (labels : List Label) (a : State) (good : State → Bool)
    (checked : (replay step allow a labels).any good = true) : ∃ b, Run step allow a b ∧ good b = true := by
  cases completed : replay step allow a labels with
  | none => simp [completed] at checked
  | some b => exact ⟨b, replay_run step allow labels a b completed, by simpa [completed] using checked⟩

-- Two systems in lockstep: inputs that are possible for both or for neither keep
-- a relation between them.
theorem replay_lockstep {Input : Type} (step : State → Label → Option State) (rel : State → State → Prop)
    (left right : Input → Label)
    (each : ∀ a b input, rel a b → Option.Rel rel (step a (left input)) (step b (right input)))
    (inputs : List Input) (a b : State) (start : rel a b) :
      Option.Rel rel (replay step (fun _ _ => True) a (inputs.map left))
      (replay step (fun _ _ => True) b (inputs.map right)) := by
  induction inputs generalizing a b with
  | nil => exact .some start
  | cons input rest ih =>
      simp only [List.map_cons, replay, if_true]
      have both := each a b input start
      generalize step a (left input) = next at both
      generalize step b (right input) = next' at both
      cases both with
      | none => exact .none
      | some related => exact ih _ _ related

-- The running processes of a system, as a list that only grows.
variable {Process : Type}

theorem set_cases (ops : List Process) (o p : Nat) (op' q : Process) (there : (ops.set o op')[p]? = some q) :
    (p = o ∧ q = op') ∨ (p ≠ o ∧ ops[p]? = some q) := by
  by_cases same : p = o
  · subst same
    have within : p < ops.length := by simpa using (List.getElem?_eq_some_iff.mp there).1
    exact .inl ⟨rfl, by simpa [within] using there.symm⟩
  · have other : o ≠ p := fun equal => same equal.symm
    exact .inr ⟨same, by simpa [List.getElem?_set, other] using there⟩

theorem append_cases (ops : List Process) (p : Nat) (op q : Process) (there : (ops ++ [op])[p]? = some q) :
    ops[p]? = some q ∨ q = op := by
  rw [List.getElem?_append] at there
  split at there
  · exact .inl there
  · have member := List.mem_of_getElem? there
    exact .inr (by simpa using member)

theorem append_old (ops : List Process) (p : Nat) (op q : Process) (there : (ops ++ [op])[p]? = some q)
    (old : p ≠ ops.length) :
    ops[p]? = some q := by
  have bound := (List.getElem?_eq_some_iff.mp there).1
  simp only [List.length_append, List.length_singleton] at bound
  have within : p < ops.length := by omega
  exact (List.getElem?_append_left within).symm.trans there

end Transition
