import GoshTransfer.Lib.Transition

set_option autoImplicit false

-- A concrete system and an abstract one that takes none, one or several steps
-- for each concrete step.
namespace Refinement

variable {State Label Abstract : Type}

-- The simulation rule, with an invariant of the concrete system.
theorem run_refines (step : State → Label → Option State) (allow : State → Label → Prop)
    (move : Abstract → Abstract → Prop) (good : State → Prop) (rel : State → Abstract → Prop)
    (simulated : ∀ state label next abstract, good state → rel state abstract → allow state label →
      step state label = some next →
      good next ∧ ∃ abstract', Relation.ReflTransGen move abstract abstract' ∧ rel next abstract')
    (a b : State) (run : Transition.Run step allow a b) (start : good a) (abstract : Abstract)
    (related : rel a abstract) :
    good b ∧ ∃ abstract', Relation.ReflTransGen move abstract abstract' ∧ rel b abstract' := by
  induction run with
  | refl => exact ⟨start, abstract, .refl, related⟩
  | tail middle final label _ allowed stepped ih =>
      obtain ⟨carried, reached, moves, middleRelated⟩ := ih
      obtain ⟨good', after, moves', related'⟩ :=
        simulated middle label final reached carried middleRelated allowed stepped
      exact ⟨good', after, moves.trans moves', related'⟩

end Refinement
