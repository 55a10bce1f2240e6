import CeMeet.Foundation.Indexed
import CeMeet.Foundation.Transducer
import CeMeet.Proto

/-!
# The reorder buffer

One inbox per remote peer turns the unordered delivery of a room topic into the
sequence order of the peer's own counter.  An inbox waits for one sequence
number, holds the envelopes that came too early, and gives up on a gap once it
holds a whole window of them.
-/

namespace CeMeet

/-- How many early envelopes an inbox holds before it gives up on a gap. -/
def defaultWindow : UInt64 := 64

/-- The delivery state for one remote peer. -/
structure OrderedInbox where
  /-- The sequence number to be delivered next. -/
  next : UInt64
  /-- Whether `next` has been anchored. -/
  started : Bool
  /-- The envelopes that came too early, by sequence number. -/
  buffer : Indexed SignalEnvelope.seq
  /-- How many envelopes may be held before a gap is abandoned. -/
  window : UInt64

namespace OrderedInbox

/-- A fresh inbox with the default window. -/
def new : OrderedInbox :=
  { next := 0, started := false, buffer := .empty, window := defaultWindow }

/-- A fresh inbox with an explicit window; a window of zero counts as one. -/
def withWindow (window : UInt64) : OrderedInbox :=
  { next := 0, started := false, buffer := .empty, window := max window 1 }

/-- The sequence number the inbox waits for. -/
def nextExpected (inbox : OrderedInbox) : UInt64 :=
  inbox.next

/-- How many envelopes are held. -/
def buffered (inbox : OrderedInbox) : Nat :=
  inbox.buffer.size

/-- The loop of `drain`: release the envelope that is waited for, as long as it
is held.  Each round removes one envelope, so the number held bounds the
rounds. -/
def drainWithin : Nat → OrderedInbox → List SignalEnvelope × OrderedInbox
  | 0, inbox => ([], inbox)
  | rounds + 1, inbox =>
      match inbox.buffer.lookup inbox.next with
      | none => ([], inbox)
      | some env =>
          let (released, rest) := drainWithin rounds
            { inbox with
              buffer := inbox.buffer.erase inbox.next
              next := inbox.next.saturatingAdd 1
              started := true }
          (env :: released, rest)

/-- Release the contiguous run of held envelopes that starts at `next`. -/
def drain (inbox : OrderedInbox) : List SignalEnvelope × OrderedInbox :=
  drainWithin inbox.buffered inbox

/-- Once a whole window is held, wait for the lowest held envelope instead. -/
def enforceWindow (inbox : OrderedInbox) : OrderedInbox :=
  if inbox.window.toNat ≤ inbox.buffered then
    match inbox.buffer.keys.min with
    | none => inbox
    | some lowest =>
        if lowest > inbox.next then
          { inbox with next := lowest, started := true }
        else
          inbox
  else
    inbox

/-- Hold an early envelope. -/
def hold (inbox : OrderedInbox) (env : SignalEnvelope) :
    List SignalEnvelope × OrderedInbox :=
  ({ inbox with buffer := inbox.buffer.insert env } : OrderedInbox).enforceWindow.drain

/-- Deliver an envelope now, anchoring a fresh inbox at it. -/
def deliver (inbox : OrderedInbox) (env : SignalEnvelope) :
    List SignalEnvelope × OrderedInbox :=
  let held := { inbox with buffer := inbox.buffer.insert env }
  if ¬held.started then
    ({ held with next := env.seq, started := true } : OrderedInbox).drain
  else
    held.drain

/-- Offer one received envelope; the result is what has become deliverable. -/
def offer (inbox : OrderedInbox) (env : SignalEnvelope) :
    List SignalEnvelope × OrderedInbox :=
  if inbox.started ∧ env.seq < inbox.next then
    ([], inbox)
  else if inbox.started ∧ env.seq = inbox.next then
    inbox.deliver env
  else if ¬inbox.started ∧ env.seq > inbox.next then
    inbox.hold env
  else if inbox.started ∧ env.seq > inbox.next then
    inbox.hold env
  else
    inbox.deliver env

/-- Give up on everything below a sequence number. -/
def skipTo (inbox : OrderedInbox) (seq : UInt64) :
    List SignalEnvelope × OrderedInbox :=
  if seq > inbox.next ∨ ¬inbox.started then
    ({ inbox with
      next := seq
      started := true
      buffer := inbox.buffer.filter fun env => seq ≤ env.seq } : OrderedInbox).drain
  else
    inbox.drain

/-- A call on an inbox. -/
inductive Call
  | offer (env : SignalEnvelope)
  | skipTo (seq : UInt64)
  deriving DecidableEq

/-- Perform one call. -/
def call (inbox : OrderedInbox) : Call → List SignalEnvelope × OrderedInbox
  | .offer env => inbox.offer env
  | .skipTo seq => inbox.skipTo seq

end OrderedInbox

/-- One inbox per remote peer. -/
structure SignalRouter where
  /-- The inboxes, by peer. -/
  inboxes : Finmap fun _ : String => OrderedInbox
  /-- The window of the inboxes to come. -/
  window : UInt64

namespace SignalRouter

/-- A router whose inboxes use the default window. -/
def new : SignalRouter :=
  { inboxes := ∅, window := defaultWindow }

/-- A router whose inboxes use an explicit window; zero counts as one. -/
def withWindow (window : UInt64) : SignalRouter :=
  { inboxes := ∅, window := max window 1 }

/-- The inbox of a peer, which is a fresh one before the peer's first envelope. -/
def inbox (router : SignalRouter) (peer : String) : OrderedInbox :=
  (router.inboxes.lookup peer).getD (.withWindow router.window)

/-- Offer a received envelope to the inbox of its sender. -/
def offer (router : SignalRouter) (env : SignalEnvelope) :
    List SignalEnvelope × SignalRouter :=
  if env.sender = "" then
    ([], router)
  else
    let (released, inbox) := (router.inbox env.sender).offer env
    (released,
      { router with inboxes := router.inboxes.insert env.sender inbox })

/-- Skip one peer's inbox ahead. -/
def skipPeerTo (router : SignalRouter) (peer : String) (seq : UInt64) :
    List SignalEnvelope × SignalRouter :=
  match router.inboxes.lookup peer with
  | some inbox =>
      let (released, inbox) := inbox.skipTo seq
      (released, { router with inboxes := router.inboxes.insert peer inbox })
  | none => ([], router)

/-- A call on a router. -/
inductive Call
  | offer (env : SignalEnvelope)
  | skipPeerTo (peer : String) (seq : UInt64)
  deriving DecidableEq

/-- Perform one call. -/
def call (router : SignalRouter) : Call → List SignalEnvelope × SignalRouter
  | .offer env => router.offer env
  | .skipPeerTo peer seq => router.skipPeerTo peer seq

end SignalRouter

end CeMeet
