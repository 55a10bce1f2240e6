import Mathlib.Logic.Relation
import Mathlib.Order.WellFounded

/-!
# Provenance

Where everything that is held either is an origin or is derived from something
earlier that is held, every held item is reached from an origin by a chain of
derivations.
-/

namespace CeMeet
namespace Provenance

variable {α : Type*} [Preorder α] [WellFoundedLT α]

/-- A held item is reached from an origin. -/
theorem exists_origin
    {held origin : α → Prop} {derives : α → α → Prop}
    (sound : ∀ item, held item →
      origin item ∨ ∃ earlier < item, held earlier ∧ derives earlier item)
    {item : α}
    (isHeld : held item) :
    ∃ first ≤ item, origin first ∧
      Relation.ReflTransGen derives first item := by
  induction item using WellFoundedLT.induction with
  | ind item inductionHypothesis =>
      rcases sound item isHeld with isOrigin | ⟨earlier, before, earlierHeld, step⟩
      · exact ⟨item, le_rfl, isOrigin, .refl⟩
      · obtain ⟨first, atMost, isOrigin, chain⟩ :=
          inductionHypothesis earlier before earlierHeld
        exact ⟨first, atMost.trans before.le, isOrigin, chain.tail step⟩

end Provenance
end CeMeet
