import GoshTransfer.Lib.Transition
import Mathlib.Algebra.GroupWithZero.Nat

set_option autoImplicit false

-- Workers that wait for each other, and the work that is left to a list of
-- workers. A lock order is a rank that every wait lowers.
namespace Waiting

section Order

variable {Worker : Type}

structure Ordered (unfinished moves : Worker → Prop) (waits : Worker → Worker → Prop)
    (rank : Worker → Nat) : Prop where
  blocked : ∀ worker, unfinished worker → ¬ moves worker → ∃ other, waits worker other
  lower : ∀ worker other, waits worker other → unfinished other ∧ rank other < rank worker

variable (unfinished moves : Worker → Prop) (waits : Worker → Worker → Prop) (rank : Worker → Nat)

-- Whoever waits, waits in the end for somebody who can move.
theorem ordered_mover (ordered : Ordered unfinished moves waits rank) (worker : Worker)
    (active : unfinished worker) :
    ∃ other, Relation.ReflTransGen waits worker other ∧ unfinished other ∧ moves other := by
  induction lower : rank worker using Nat.strongRecOn generalizing worker with
  | ind n ih =>
      by_cases able : moves worker
      · exact ⟨worker, .refl, active, able⟩
      · obtain ⟨next, waiting⟩ := ordered.blocked worker active able
        obtain ⟨later, below⟩ := ordered.lower worker next waiting
        obtain ⟨other, chain, open_, able⟩ := ih (rank next) (lower ▸ below) next later rfl
        exact ⟨other, .head waiting chain, open_, able⟩

theorem ordered_chain (ordered : Ordered unfinished moves waits rank) (worker other : Worker)
    (chain : Relation.TransGen waits worker other) : rank other < rank worker := by
  induction chain with
  | single waiting => exact (ordered.lower worker _ waiting).2
  | tail _ waiting ih => exact Nat.lt_trans (ordered.lower _ _ waiting).2 ih

theorem ordered_acyclic (ordered : Ordered unfinished moves waits rank) (worker : Worker) :
    ¬ Relation.TransGen waits worker worker :=
  fun cycle => Nat.lt_irrefl _ (ordered_chain unfinished moves waits rank ordered worker worker cycle)

end Order

section Work

variable {State Label : Type} (step : State → Label → Option State) (allow : State → Label → Prop)
  [∀ state label, Decidable (allow state label)]

-- What the steps of a run bring, each in the state it is taken in.
def income (brings : State → Label → Nat) : State → List Label → Nat
  | _, [] => 0
  | state, label :: rest =>
      brings state label + ((step state label).map fun next => income brings next rest).getD 0

theorem income_labels (brings : Label → Nat) (labels : List Label) (a : State) :
    income step (fun _ => brings) a labels ≤ (labels.map brings).sum := by
  induction labels generalizing a with
  | nil => exact Nat.le_refl _
  | cons label rest ih =>
      simp only [income, List.map_cons, List.sum_cons]
      cases step a label with
      | none => simp
      | some next => simpa using ih next

-- Amortized work: what a step costs is paid by what it takes from the potential
-- and by what it brings.
theorem replay_income (good : State → Prop) (potential : State → Nat) (cost : Label → Nat)
    (brings : State → Label → Nat) (paid : ∀ state label next, good state → allow state label →
      step state label = some next →
      good next ∧ potential next + cost label ≤ potential state + brings state label)
    (labels : List Label) (a b : State) (start : good a)
    (replayed : Transition.replay step allow a labels = some b) :
    good b ∧ potential b + (labels.map cost).sum ≤ potential a + income step brings a labels := by
  induction labels generalizing a with
  | nil =>
      obtain rfl : a = b := by simpa [Transition.replay] using replayed
      simpa using start
  | cons label rest ih =>
      by_cases allowed : allow a label
      · obtain ⟨next, stepped, remaining⟩ :=
          Option.bind_eq_some_iff.mp (by simpa only [Transition.replay, if_pos allowed] using replayed)
        obtain ⟨carried, here⟩ := paid a label next start allowed stepped
        obtain ⟨final, later⟩ := ih next carried remaining
        refine ⟨final, ?_⟩
        simp only [List.map_cons, List.sum_cons, income, stepped, Option.map_some, Option.getD_some]
        omega
      · simp [Transition.replay, allowed] at replayed

theorem replay_paid (good : State → Prop) (potential : State → Nat) (cost brings : Label → Nat)
    (paid : ∀ state label next, good state → allow state label → step state label = some next →
      good next ∧ potential next + cost label ≤ potential state + brings label)
    (labels : List Label) (a b : State) (start : good a)
    (replayed : Transition.replay step allow a labels = some b) :
    good b ∧ potential b + (labels.map cost).sum ≤ potential a + (labels.map brings).sum := by
  obtain ⟨final, bounded⟩ :=
    replay_income step allow good potential cost (fun _ => brings) paid labels a b start replayed
  exact ⟨final, Nat.le_trans bounded (Nat.add_le_add_left (income_labels step brings labels a) _)⟩

end Work

section Drain

variable {State Label Measure : Type} (step : State → Label → Option State) (allow : State → Label → Prop)
    (below : Measure → Measure → Prop)
  (founded : WellFounded below) (measure : State → Measure)

include founded

-- The variant rule for a measure in any well-founded order.
theorem run_drains (good ended : State → Prop)
    (progress : ∀ state, good state → ¬ ended state → ∃ label next, allow state label ∧
    step state label = some next ∧ below (measure next) (measure state) ∧ good next) (a : State)
    (start : good a) :
    ∃ b, Transition.Run step allow a b ∧ good b ∧ ended b := by
  induction a using (InvImage.wf measure founded).induction with
  | _ a ih =>
      by_cases done : ended a
      · exact ⟨a, .refl, start, done⟩
      · obtain ⟨label, next, allowed, stepped, lower, carried⟩ := progress a start done
        obtain ⟨b, rest, final, finished⟩ := ih next lower carried
        exact ⟨b, Transition.run_trans step allow a next b (.tail a next label .refl allowed stepped) rest,
          final, finished⟩

end Drain

-- One worker of a list moves on.
variable {Process : Type} (size : Process → Nat)

theorem sum_set (workers : List Process) (o : Nat) (before after : Process)
    (here : workers[o]? = some before) :
    ((workers.set o after).map size).sum + size before = (workers.map size).sum + size after := by
  induction workers generalizing o with
  | nil => cases here
  | cons worker rest ih =>
      cases o with
      | zero =>
          obtain rfl : worker = before := by simpa using here
          simp only [List.set_cons_zero, List.map_cons, List.sum_cons]
          omega
      | succ o =>
          have tail := ih o (by simpa using here)
          simp only [List.set_cons_succ, List.map_cons, List.sum_cons]
          omega

theorem sum_set_lower (workers : List Process) (o : Nat) (before after : Process)
    (here : workers[o]? = some before) (lower : size after < size before) :
    ((workers.set o after).map size).sum < (workers.map size).sum := by
  have moved := sum_set size workers o before after here
  omega

end Waiting
