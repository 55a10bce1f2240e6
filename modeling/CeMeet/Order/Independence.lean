import CeMeet.Order.Ascent

/-!
# The peers of a router are independent

A router keeps one inbox for each peer.  What one peer observes of it, the
answers to the peer's own calls and the peer's inbox, is what a single inbox
fed with these calls alone would give, whatever the other peers do.
-/

namespace CeMeet

namespace OrderedInbox

/-- An inbox that is created by the first offer; there is nothing to skip in
an inbox that does not exist yet. -/
def lazyCall (window : UInt64) :
    Option OrderedInbox → Call → List SignalEnvelope × Option OrderedInbox
  | none, .offer env =>
      (((withWindow window).offer env).1,
        some ((withWindow window).offer env).2)
  | none, .skipTo _ => ([], none)
  | some inbox, action => ((inbox.call action).1, some (inbox.call action).2)

/-- Once it exists, such an inbox is an inbox. -/
theorem lazyCall_some
    (window : UInt64) (inbox : OrderedInbox) (calls : List Call) :
    Transducer.outputs (lazyCall window) (some inbox) calls =
        Transducer.outputs call inbox calls ∧
      Transducer.final (lazyCall window) (some inbox) calls =
        some (Transducer.final call inbox calls) := by
  induction calls generalizing inbox with
  | nil => exact ⟨rfl, rfl⟩
  | cons action calls inductionHypothesis =>
      obtain ⟨sameOutputs, sameFinal⟩ :=
        inductionHypothesis (inbox.call action).2
      exact ⟨congrArg (List.cons _) sameOutputs, sameFinal⟩

/-- Whether a call skips. -/
def Call.isSkip : Call → Bool
  | .offer _ => false
  | .skipTo _ => true

/-- The calls from the first offer on. -/
def fromFirstOffer (calls : List Call) : List Call :=
  calls.dropWhile Call.isSkip

/-- An inbox after its calls, which is there once something was offered. -/
def afterFirstOffer (window : UInt64) (calls : List Call) :
    Option OrderedInbox :=
  if fromFirstOffer calls = [] then none
  else some (after window (fromFirstOffer calls))

/-- Skips that come before the first offer do nothing. -/
theorem lazyCall_none (window : UInt64) (calls : List Call) :
    Transducer.outputs (lazyCall window) none calls =
        (calls.takeWhile Call.isSkip).map (fun _ => []) ++
          Transducer.outputs call (withWindow window)
            (fromFirstOffer calls) ∧
      Transducer.final (lazyCall window) none calls =
        afterFirstOffer window calls := by
  induction calls with
  | nil => exact ⟨rfl, rfl⟩
  | cons action calls inductionHypothesis =>
      cases action with
      | skipTo seq =>
          obtain ⟨sameOutputs, sameFinal⟩ := inductionHypothesis
          rw [Transducer.outputs_cons, Transducer.final_cons]
          change [] :: Transducer.outputs (lazyCall window) none calls = _ ∧
            Transducer.final (lazyCall window) none calls = _
          rw [sameOutputs, sameFinal]
          exact ⟨rfl, rfl⟩
      | offer env =>
          obtain ⟨sameOutputs, sameFinal⟩ :=
            lazyCall_some window ((withWindow window).offer env).2 calls
          rw [Transducer.outputs_cons, Transducer.final_cons]
          change _ :: Transducer.outputs (lazyCall window)
              (some ((withWindow window).offer env).2) calls = _ ∧
            Transducer.final (lazyCall window)
              (some ((withWindow window).offer env).2) calls = _
          rw [sameOutputs, sameFinal]
          exact ⟨rfl, rfl⟩

end OrderedInbox

namespace SignalRouter

/-- The call on a peer's own inbox that a call on the router amounts to, if it
concerns that peer at all.  An envelope without a sender concerns nobody. -/
def Call.ofPeer (peer : String) : Call → Option OrderedInbox.Call
  | .offer env =>
      if env.sender = peer ∧ env.sender ≠ "" then some (.offer env) else none
  | .skipPeerTo skipped seq =>
      if skipped = peer then some (.skipTo seq) else none

/-- A peer's call is answered by the peer's inbox. -/
theorem call_own
    {window : UInt64}
    {router : SignalRouter}
    (sameWindow : router.window = max window 1)
    {peer : String}
    {action : Call}
    {own : OrderedInbox.Call}
    (concerns : action.ofPeer peer = some own) :
    (router.call action).1 =
        (OrderedInbox.lazyCall window (router.inboxes.lookup peer) own).1 ∧
      (router.call action).2.inboxes.lookup peer =
        (OrderedInbox.lazyCall window (router.inboxes.lookup peer) own).2 := by
  cases action with
  | offer env =>
      rw [Call.ofPeer, Option.ite_none_right_eq_some] at concerns
      obtain ⟨⟨rfl, named⟩, equal⟩ := concerns
      cases equal
      have fresh : OrderedInbox.withWindow router.window =
          OrderedInbox.withWindow window := by
        simp [OrderedInbox.withWindow, sameWindow]
      simp only [call, offer, inbox, if_neg named, Finmap.lookup_insert]
      cases router.inboxes.lookup env.sender with
      | none =>
          rw [Option.getD_none, fresh]
          exact ⟨rfl, rfl⟩
      | some inbox => exact ⟨rfl, rfl⟩
  | skipPeerTo skipped seq =>
      rw [Call.ofPeer, Option.ite_none_right_eq_some] at concerns
      obtain ⟨rfl, equal⟩ := concerns
      cases equal
      simp only [call, skipPeerTo]
      cases found : router.inboxes.lookup skipped with
      | none => exact ⟨rfl, found⟩
      | some inbox => exact ⟨rfl, Finmap.lookup_insert _⟩

/-- A call that does not concern a peer leaves the peer's inbox alone. -/
theorem call_foreign
    (router : SignalRouter)
    {peer : String}
    {action : Call}
    (foreign : action.ofPeer peer = none) :
    (router.call action).2.inboxes.lookup peer =
      router.inboxes.lookup peer := by
  cases action with
  | offer env =>
      simp only [Call.ofPeer, ite_eq_right_iff, reduceCtorEq, imp_false]
        at foreign
      simp only [call, offer]
      split
      case isTrue => rfl
      case isFalse named =>
        refine Finmap.lookup_insert_of_ne _ ?_
        rintro rfl
        exact foreign ⟨rfl, named⟩
  | skipPeerTo skipped seq =>
      simp only [Call.ofPeer, ite_eq_right_iff, reduceCtorEq, imp_false]
        at foreign
      simp only [call, skipPeerTo]
      cases router.inboxes.lookup skipped with
      | none => rfl
      | some inbox =>
          exact Finmap.lookup_insert_of_ne _ (Ne.symm foreign)

/-- No call changes the window of the inboxes to come. -/
theorem call_window (router : SignalRouter) (action : Call) :
    (router.call action).2.window = router.window := by
  cases action with
  | offer env =>
      simp only [call, offer]
      split <;> rfl
  | skipPeerTo peer seq =>
      simp only [call, skipPeerTo]
      cases router.inboxes.lookup peer <;> rfl

/-- The answers to a peer's own calls. -/
def answersTo
    (peer : String) (window : UInt64) (calls : List Call) :
    List (List SignalEnvelope) :=
  Transducer.outputsAt (Call.ofPeer peer) call (withWindow window) calls

/-- The peer's own calls. -/
def callsOf (peer : String) (calls : List Call) : List OrderedInbox.Call :=
  calls.filterMap (Call.ofPeer peer)

/-- Over every run of a router the answers to a peer's calls and the peer's
inbox are those of an inbox that receives these calls alone, of which the skips
before the first offer do nothing; an envelope without a sender changes
nothing. -/
theorem peers_independent
    (window : UInt64) (peer : String) (calls : List Call) :
    (answersTo peer window calls =
        ((callsOf peer calls).takeWhile OrderedInbox.Call.isSkip).map
            (fun _ => []) ++
          Transducer.outputs OrderedInbox.call
            (OrderedInbox.withWindow window)
            (OrderedInbox.fromFirstOffer (callsOf peer calls))) ∧
      (Transducer.final call (withWindow window) calls).inboxes.lookup peer =
        OrderedInbox.afterFirstOffer window (callsOf peer calls) ∧
      ∀ (router : SignalRouter) (env : SignalEnvelope),
        env.sender = "" → router.offer env = ([], router) := by
  obtain ⟨sameAnswers, sameInbox⟩ := Transducer.projection
    (fun router : SignalRouter => router.window = max window 1)
    (fun router => router.inboxes.lookup peer)
    (Call.ofPeer peer)
    (OrderedInbox.lazyCall window)
    (rfl : (withWindow window).window = max window 1)
    (fun router action sameWindow =>
      (call_window router action).trans sameWindow)
    (fun _ _ _ sameWindow concerns => call_own sameWindow concerns)
    (fun router _ _ unconcerned => call_foreign router unconcerned)
    calls
  have none : (withWindow window).inboxes.lookup peer = none :=
    Finmap.lookup_empty peer
  obtain ⟨lazyAnswers, lazyInbox⟩ :=
    OrderedInbox.lazyCall_none window (callsOf peer calls)
  rw [none] at sameAnswers sameInbox
  refine ⟨sameAnswers.trans lazyAnswers, sameInbox.trans lazyInbox, ?_⟩
  intro router env anonymous
  exact if_pos anonymous

end SignalRouter
end CeMeet
