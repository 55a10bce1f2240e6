import CeMeet.Order.Inbox

/-!
# What a router holds

A router only holds and releases envelopes that were offered to it, so whatever
holds of every offered envelope holds of every released one.
-/

namespace CeMeet
namespace SignalRouter

open OrderedInbox

/-- Every inbox is between calls, and every held envelope is of some kind. -/
structure Holds (kind : SignalEnvelope → Prop) (router : SignalRouter) :
    Prop where
  /-- Every inbox is between calls. -/
  ready : ∀ peer, Ready (router.inbox peer)
  /-- Every held envelope is of the kind. -/
  held : ∀ peer seq env,
    (router.inbox peer).buffer.lookup seq = some env → kind env

namespace Holds

variable {kind : SignalEnvelope → Prop} {router : SignalRouter}

theorem empty (window : UInt64) :
    Holds kind { inboxes := ∅, window } where
  ready := fun _ => ready_withWindow window
  held := by
    intro peer seq env found
    cases found

theorem mono {wider : SignalEnvelope → Prop}
    (holds : Holds kind router)
    (weaker : ∀ env, kind env → wider env) :
    Holds wider router where
  ready := holds.ready
  held := fun peer seq env found => weaker env (holds.held peer seq env found)

/-- An offer of an envelope of the kind releases envelopes of the kind. -/
theorem offer (holds : Holds kind router)
    {env : SignalEnvelope} (isKind : kind env) :
    (∀ released ∈ (router.offer env).1, kind released) ∧
      Holds kind (router.offer env).2 := by
  unfold SignalRouter.offer
  split
  case isTrue => exact ⟨by simp, holds⟩
  case isFalse =>
    have ready := holds.ready env.sender
    have answers := offer_answers ready env
    have kept := offer_ready ready env
    generalize (router.inbox env.sender).offer env = offered at answers kept ⊢
    obtain ⟨released, rest⟩ := offered
    have known : ∀ seq other,
        ((router.inbox env.sender).buffer.lookup seq = some other ∨
          OrderedInbox.Call.offer env = .offer other) → kind other := by
      rintro seq other (found | same)
      · exact holds.held _ seq other found
      · cases same
        exact isKind
    have inboxes : ∀ peer,
        ({ router with
            inboxes := router.inboxes.insert env.sender rest } :
          SignalRouter).inbox peer =
          if peer = env.sender then rest else router.inbox peer := by
      intro peer
      unfold inbox
      split
      case isTrue same => rw [same, Finmap.lookup_insert, Option.getD_some]
      case isFalse other => rw [Finmap.lookup_insert_of_ne _ other]
    refine ⟨fun other member => ?_, ⟨fun peer => ?_, fun peer seq other => ?_⟩⟩
    · exact known other.seq other (answers.source other member)
    · rw [inboxes]
      split
      · exact kept
      · exact holds.ready peer
    · rw [inboxes]
      split
      · exact fun found => known seq other (answers.stillHeld seq other found)
      · exact holds.held peer seq other

end Holds
end SignalRouter
end CeMeet
