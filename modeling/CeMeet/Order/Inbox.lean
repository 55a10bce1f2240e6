import CeMeet.Order.Basic

/-!
# What one call does to an inbox

Draining is characterized once, by the run of held envelopes it releases and by
what it leaves behind.  Between calls every held envelope is ahead of the
number waited for, so an offer either is a duplicate, is the one waited for, or
comes too early; the three cases are the specification of `offer`.
-/

namespace CeMeet
namespace OrderedInbox

/-! ## Draining -/

/-- `released` is the run that draining `inbox` delivers, and `rest` the inbox
it leaves. -/
structure Drains
    (inbox : OrderedInbox)
    (released : List SignalEnvelope)
    (rest : OrderedInbox) : Prop where
  /-- The run ascends. -/
  ascending : released.Pairwise fun earlier later => earlier.seq < later.seq
  /-- Only held envelopes are released, each under its own number. -/
  held : ∀ env ∈ released, inbox.buffer.lookup env.seq = some env
  /-- The run starts at the number waited for. -/
  notBefore : ∀ env ∈ released, inbox.next ≤ env.seq
  /-- The number waited for afterwards is past the run. -/
  passed : ∀ env ∈ released, Order.succ env.seq ≤ rest.next
  /-- The run has no gap. -/
  contiguous : ∀ seq, inbox.next ≤ seq → seq < rest.next →
    ∃ env ∈ released, env.seq = seq
  /-- A released envelope is no longer held. -/
  gone : ∀ env ∈ released, rest.buffer.lookup env.seq = none
  /-- Everything else is held as before. -/
  kept : ∀ seq, (∀ env ∈ released, env.seq ≠ seq) →
    rest.buffer.lookup seq = inbox.buffer.lookup seq
  /-- What is still held is ahead of the number waited for. -/
  ahead : ∀ seq ∈ rest.buffer.keys, rest.next < seq
  /-- The number waited for does not go back. -/
  next_le : inbox.next ≤ rest.next
  /-- A release anchors the inbox. -/
  started : rest.started = (inbox.started || !released.isEmpty)
  /-- The window is untouched. -/
  window : rest.window = inbox.window

/-- Nothing is released when the number waited for is not held. -/
theorem drains_nothing
    {inbox : OrderedInbox}
    (notHeld : inbox.buffer.lookup inbox.next = none)
    (notBehind : ∀ seq ∈ inbox.buffer.keys, inbox.next ≤ seq) :
    Drains inbox [] inbox where
  ascending := .nil
  held := by simp
  notBefore := by simp
  passed := by simp
  contiguous := by
    intro seq fromNext belowNext
    exact absurd fromNext (not_le.mpr belowNext)
  gone := by simp
  kept := fun _ _ => rfl
  ahead := by
    intro seq member
    apply lt_of_le_of_ne (notBehind seq member)
    rintro rfl
    exact Indexed.notMem_keys_iff.mpr notHeld member
  next_le := le_rfl
  started := by simp
  window := rfl

/-- A run is the envelope waited for followed by a run of the inbox that waits
for the next one. -/
theorem drains_cons
    {inbox rest : OrderedInbox}
    {env : SignalEnvelope}
    {released : List SignalEnvelope}
    (heldNext : inbox.buffer.lookup inbox.next = some env)
    (tail : Drains
      { inbox with
        buffer := inbox.buffer.erase inbox.next
        next := inbox.next.saturatingAdd 1
        started := true } released rest) :
    Drains inbox (env :: released) rest := by
  have envSeq : env.seq = inbox.next := Indexed.key_of_lookup heldNext
  have later : ∀ other ∈ released, inbox.next < other.seq := by
    intro other member
    have stillHeld := tail.held other member
    refine lt_of_le_of_ne
      ((UInt64.le_saturatingAdd _ 1).trans (tail.notBefore other member)) ?_
    intro same
    rw [Indexed.lookup_erase, if_pos same.symm] at stillHeld
    cases stillHeld
  refine
    { ascending := List.pairwise_cons.mpr
        ⟨fun other member => envSeq ▸ later other member, tail.ascending⟩
      held := ?held
      notBefore := ?notBefore
      passed := ?passed
      contiguous := ?contiguous
      gone := ?gone
      kept := ?kept
      ahead := tail.ahead
      next_le := (UInt64.le_saturatingAdd _ 1).trans tail.next_le
      started := by simp [tail.started]
      window := tail.window }
  case held =>
    intro other member
    rcases List.mem_cons.mp member with rfl | member
    · rw [envSeq, heldNext]
    · have stillHeld := tail.held other member
      rwa [Indexed.lookup_erase, if_neg (later other member).ne'] at stillHeld
  case notBefore =>
    intro other member
    rcases List.mem_cons.mp member with rfl | member
    · exact envSeq.ge
    · exact (later other member).le
  case passed =>
    intro other member
    rcases List.mem_cons.mp member with rfl | member
    · rw [envSeq]
      exact tail.next_le
    · exact tail.passed other member
  case contiguous =>
    intro seq fromNext belowRest
    rcases fromNext.eq_or_lt with rfl | afterNext
    · exact ⟨env, List.mem_cons_self, envSeq⟩
    · obtain ⟨other, member, same⟩ :=
        tail.contiguous seq (Order.succ_le_of_lt afterNext) belowRest
      exact ⟨other, List.mem_cons_of_mem _ member, same⟩
  case gone =>
    intro other member
    rcases List.mem_cons.mp member with rfl | member
    · rw [envSeq, tail.kept inbox.next fun other member =>
        (later other member).ne', Indexed.lookup_erase, if_pos rfl]
    · exact tail.gone other member
  case kept =>
    intro seq untouched
    rw [tail.kept seq fun other member =>
        untouched other (List.mem_cons_of_mem _ member),
      Indexed.lookup_erase, if_neg]
    rintro rfl
    exact untouched env List.mem_cons_self envSeq

theorem drainWithin_drains
    (rounds : Nat)
    (inbox : OrderedInbox)
    (enough : inbox.buffered ≤ rounds)
    (notBehind : ∀ seq ∈ inbox.buffer.keys, inbox.next ≤ seq) :
    Drains inbox (drainWithin rounds inbox).1 (drainWithin rounds inbox).2 := by
  induction rounds generalizing inbox with
  | zero =>
      have noKeys : inbox.buffer.keys = ∅ :=
        Finset.card_eq_zero.mp (Nat.le_zero.mp enough)
      refine drains_nothing (Indexed.notMem_keys_iff.mp ?_) notBehind
      simp [noKeys]
  | succ rounds inductionHypothesis =>
      cases found : inbox.buffer.lookup inbox.next with
      | none =>
          rw [drainWithin, found]
          exact drains_nothing found notBehind
      | some env =>
          rw [drainWithin, found]
          refine drains_cons found (inductionHypothesis _ ?_ ?_)
          · have fewer := Indexed.size_erase_lt found
            change (inbox.buffer.erase inbox.next).size ≤ rounds
            unfold buffered at enough
            omega
          · intro seq member
            rw [Indexed.keys_erase, Finset.mem_erase] at member
            exact Order.succ_le_of_lt
              (lt_of_le_of_ne (notBehind seq member.2) member.1.symm)

/-- Draining releases the contiguous run that starts at the number waited
for. -/
theorem drain_drains
    (inbox : OrderedInbox)
    (notBehind : ∀ seq ∈ inbox.buffer.keys, inbox.next ≤ seq) :
    Drains inbox inbox.drain.1 inbox.drain.2 :=
  drainWithin_drains inbox.buffered inbox le_rfl notBehind

namespace Drains

variable {inbox rest : OrderedInbox} {released : List SignalEnvelope}

/-- Draining holds nothing new. -/
theorem keys_subset (drains : Drains inbox released rest) :
    rest.buffer.keys ⊆ inbox.buffer.keys := by
  intro seq member
  obtain ⟨env, found⟩ := Indexed.mem_keys_iff.mp member
  by_cases untouched : ∀ other ∈ released, other.seq ≠ seq
  · rw [drains.kept seq untouched] at found
    exact Indexed.mem_keys_of_lookup found
  · push Not at untouched
    obtain ⟨other, present, rfl⟩ := untouched
    rw [drains.gone other present] at found
    cases found

/-- The envelope waited for is released when it is held. -/
theorem next_released
    (drains : Drains inbox released rest)
    {env : SignalEnvelope}
    (heldNext : inbox.buffer.lookup inbox.next = some env) :
    env ∈ released := by
  by_cases untouched : ∀ other ∈ released, other.seq ≠ inbox.next
  · rw [← drains.kept inbox.next untouched] at heldNext
    have behind := drains.ahead _ (Indexed.mem_keys_of_lookup heldNext)
    exact absurd drains.next_le (not_le.mpr behind)
  · push Not at untouched
    obtain ⟨other, present, same⟩ := untouched
    have otherHeld := drains.held other present
    rw [same, heldNext] at otherHeld
    cases otherHeld
    exact present

/-- A release makes room. -/
theorem size_lt
    (drains : Drains inbox released rest)
    (heldNext : inbox.next ∈ inbox.buffer.keys) :
    rest.buffered < inbox.buffered := by
  obtain ⟨env, found⟩ := Indexed.mem_keys_iff.mp heldNext
  have goneNext := drains.gone env (drains.next_released found)
  rw [Indexed.key_of_lookup found] at goneNext
  refine Finset.card_lt_card ⟨drains.keys_subset, fun superset => ?_⟩
  exact Indexed.notMem_keys_iff.mpr goneNext (superset heldNext)

/-- A held envelope is released or kept. -/
theorem released_or_held
    (drains : Drains inbox released rest)
    {env : SignalEnvelope}
    (found : inbox.buffer.lookup env.seq = some env) :
    env ∈ released ∨ rest.buffer.lookup env.seq = some env := by
  by_cases untouched : ∀ other ∈ released, other.seq ≠ env.seq
  · rw [← drains.kept env.seq untouched] at found
    exact Or.inr found
  · push Not at untouched
    obtain ⟨other, present, same⟩ := untouched
    have otherHeld := drains.held other present
    rw [same, found] at otherHeld
    cases otherHeld
    exact Or.inl present

/-- An envelope still held was held before. -/
theorem held_before
    (drains : Drains inbox released rest)
    {seq : UInt64}
    {env : SignalEnvelope}
    (found : rest.buffer.lookup seq = some env) :
    inbox.buffer.lookup seq = some env := by
  by_cases untouched : ∀ other ∈ released, other.seq ≠ seq
  · rwa [drains.kept seq untouched] at found
  · push Not at untouched
    obtain ⟨other, present, rfl⟩ := untouched
    rw [drains.gone other present] at found
    cases found

/-- A drain that releases does not depend on the inbox having been anchored. -/
theorem of_anchored
    (inbox : OrderedInbox)
    (drains : Drains { inbox with started := true } released rest)
    (heldNext : inbox.next ∈ inbox.buffer.keys) :
    Drains inbox released rest := by
  obtain ⟨env, found⟩ := Indexed.mem_keys_iff.mp heldNext
  have nonempty : released ≠ [] :=
    List.ne_nil_of_mem (drains.next_released found)
  refine { drains with started := ?_ }
  simpa [List.isEmpty_eq_false_iff.mpr nonempty] using drains.started

end Drains

/-- An inbox that does not hold the envelope it waits for drains to itself. -/
theorem drain_of_not_held
    {inbox : OrderedInbox}
    (notHeld : inbox.buffer.lookup inbox.next = none) :
    inbox.drain = ([], inbox) := by
  unfold drain
  cases inbox.buffered with
  | zero => rfl
  | succ rounds => rw [drainWithin, notHeld]

/-! ## Offers -/

/-- What holds of an inbox between calls. -/
structure Ready (inbox : OrderedInbox) : Prop where
  /-- Every held envelope is ahead of the number waited for. -/
  ahead : ∀ seq ∈ inbox.buffer.keys, inbox.next < seq
  /-- An inbox that is not anchored waits for the first number. -/
  unanchored : inbox.started = false → inbox.next = 0
  /-- There is room for one more envelope. -/
  room : inbox.buffered < inbox.window.toNat

theorem ready_withWindow (window : UInt64) : Ready (withWindow window) where
  ahead := by simp [withWindow]
  unanchored := fun _ => rfl
  room := by
    have positive : (0 : UInt64) < max window 1 :=
      lt_max_of_lt_right (by decide)
    exact UInt64.lt_iff_toNat_lt.mp positive

/-- An inbox that has just put an envelope into its buffer. -/
def holding (inbox : OrderedInbox) (env : SignalEnvelope) : OrderedInbox :=
  { inbox with buffer := inbox.buffer.insert env }

@[simp] theorem holding_next (inbox : OrderedInbox) (env : SignalEnvelope) :
    (inbox.holding env).next = inbox.next := rfl

@[simp] theorem holding_keys (inbox : OrderedInbox) (env : SignalEnvelope) :
    (inbox.holding env).buffer.keys =
      Insert.insert env.seq inbox.buffer.keys :=
  Indexed.keys_insert env inbox.buffer

theorem holding_lookup
    (inbox : OrderedInbox) (env : SignalEnvelope) (seq : UInt64) :
    (inbox.holding env).buffer.lookup seq =
      if seq = env.seq then some env else inbox.buffer.lookup seq :=
  Indexed.lookup_insert env inbox.buffer seq

theorem buffered_holding_le (inbox : OrderedInbox) (env : SignalEnvelope) :
    (inbox.holding env).buffered ≤ inbox.buffered + 1 := by
  unfold buffered Indexed.size
  rw [holding_keys]
  exact Finset.card_insert_le _ _

/-- Once a whole window is held, the lowest held envelope is waited for. -/
theorem enforceWindow_of_full
    {inbox : OrderedInbox}
    {lowest : UInt64}
    (full : inbox.window.toNat ≤ inbox.buffered)
    (isLowest : inbox.buffer.keys.min = lowest)
    (ahead : inbox.next < lowest) :
    inbox.enforceWindow = { inbox with next := lowest, started := true } := by
  unfold enforceWindow
  rw [if_pos full]
  simp only [isLowest]
  exact if_pos ahead

theorem enforceWindow_of_room
    {inbox : OrderedInbox}
    (room : inbox.buffered < inbox.window.toNat) :
    inbox.enforceWindow = inbox :=
  if_neg (not_le.mpr room)

/-- An offer that makes an inbox release: `floor`, the lowest held number, is
waited for from then on. -/
structure Releases
    (inbox : OrderedInbox)
    (env : SignalEnvelope)
    (floor : UInt64) : Prop where
  /-- The inbox does not go back. -/
  next_le : inbox.next ≤ floor
  /-- The envelope at the floor is held. -/
  floor_mem : floor ∈ (inbox.holding env).buffer.keys
  /-- Nothing below the floor is held. -/
  floor_le : ∀ seq ∈ (inbox.holding env).buffer.keys, floor ≤ seq
  /-- A gap is abandoned only for a whole window of envelopes. -/
  full : inbox.next < floor →
    inbox.window.toNat ≤ (inbox.holding env).buffered
  /-- The offer releases the run that starts at the floor. -/
  drains : Drains { inbox.holding env with next := floor }
    (inbox.offer env).1 (inbox.offer env).2

/-- Such an offer does release something. -/
theorem Releases.released_ne_nil
    {inbox : OrderedInbox}
    {env : SignalEnvelope}
    {floor : UInt64}
    (releases : Releases inbox env floor) :
    (inbox.offer env).1 ≠ [] := by
  obtain ⟨other, found⟩ := Indexed.mem_keys_iff.mp releases.floor_mem
  exact List.ne_nil_of_mem (releases.drains.next_released found)

/-- A duplicate of something already passed is dropped. -/
theorem offer_of_lt
    {inbox : OrderedInbox}
    (ready : Ready inbox)
    {env : SignalEnvelope}
    (passed : env.seq < inbox.next) :
    inbox.offer env = ([], inbox) := by
  have started : inbox.started = true := by
    by_contra notStarted
    have first := ready.unanchored (Bool.not_eq_true _ ▸ notStarted)
    rw [first] at passed
    exact absurd passed UInt64.not_lt_zero
  unfold offer
  rw [if_pos ⟨started, passed⟩]

/-- The envelope waited for is released, with the run behind it. -/
theorem offer_of_eq
    {inbox : OrderedInbox}
    (ready : Ready inbox)
    {env : SignalEnvelope}
    (current : env.seq = inbox.next) :
    Releases inbox env inbox.next where
  next_le := le_rfl
  floor_mem := by simp [current]
  floor_le := by
    intro seq member
    rw [holding_keys, Finset.mem_insert] at member
    rcases member with rfl | member
    · exact current.ge
    · exact (ready.ahead seq member).le
  full := fun moved => absurd moved (lt_irrefl _)
  drains := by
    have notBehind : ∀ seq ∈ (inbox.holding env).buffer.keys,
        inbox.next ≤ seq := by
      intro seq member
      rw [holding_keys, Finset.mem_insert] at member
      rcases member with rfl | member
      · exact current.ge
      · exact (ready.ahead seq member).le
    have offered : inbox.offer env = inbox.deliver env := by
      unfold offer
      simp only [current, lt_irrefl, and_false, and_true, if_false, ite_self]
    have delivered : inbox.deliver env =
        ({ inbox.holding env with
          next := inbox.next
          started := true } : OrderedInbox).drain := by
      unfold deliver holding
      cases started : inbox.started <;> simp [current]
    rw [offered, delivered]
    exact Drains.of_anchored { inbox.holding env with next := inbox.next }
      (drain_drains _ notBehind) (by simp [current])

/-- An early envelope is held, and released only if it completes a window. -/
theorem offer_of_gt
    {inbox : OrderedInbox}
    (ready : Ready inbox)
    {env : SignalEnvelope}
    (early : inbox.next < env.seq) :
    (inbox.holding env).buffered < inbox.window.toNat ∧
        inbox.offer env = ([], inbox.holding env) ∨
      ∃ floor, Releases inbox env floor := by
  have offered :
      inbox.offer env = (inbox.holding env).enforceWindow.drain := by
    unfold offer
    simp only [early.not_gt, early.ne', early, and_false, and_true, if_false]
    cases inbox.started <;> rfl
  have ahead : ∀ seq ∈ (inbox.holding env).buffer.keys, inbox.next < seq := by
    intro seq member
    rw [holding_keys, Finset.mem_insert] at member
    rcases member with rfl | member
    · exact early
    · exact ready.ahead seq member
  by_cases room : (inbox.holding env).buffered < inbox.window.toNat
  · left
    refine ⟨room, ?_⟩
    rw [offered, enforceWindow_of_room room]
    refine drain_of_not_held (Indexed.notMem_keys_iff.mp fun member => ?_)
    exact lt_irrefl _ (ahead _ member)
  · right
    obtain ⟨lowest, isLowest⟩ := Finset.min_of_mem
      (show env.seq ∈ (inbox.holding env).buffer.keys by simp)
    have lowestHeld := Finset.mem_of_min isLowest
    have lowestLe : ∀ seq ∈ (inbox.holding env).buffer.keys, lowest ≤ seq :=
      fun seq member => Finset.min_le_of_eq member isLowest
    refine ⟨lowest,
      { next_le := (ahead lowest lowestHeld).le
        floor_mem := lowestHeld
        floor_le := lowestLe
        full := fun _ => not_lt.mp room
        drains := ?_ }⟩
    rw [offered, enforceWindow_of_full (not_lt.mp room) isLowest
      (ahead lowest lowestHeld)]
    exact Drains.of_anchored { inbox.holding env with next := lowest }
      (drain_drains _ lowestLe) lowestHeld

/-- An offer drops a duplicate, holds an early envelope, or releases a run. -/
theorem offer_cases
    {inbox : OrderedInbox}
    (ready : Ready inbox)
    (env : SignalEnvelope) :
    env.seq < inbox.next ∧ inbox.offer env = ([], inbox) ∨
      inbox.next < env.seq ∧
        (inbox.holding env).buffered < inbox.window.toNat ∧
        inbox.offer env = ([], inbox.holding env) ∨
      ∃ floor, Releases inbox env floor := by
  rcases lt_trichotomy env.seq inbox.next with passed | current | early
  · exact Or.inl ⟨passed, offer_of_lt ready passed⟩
  · exact Or.inr (Or.inr ⟨_, offer_of_eq ready current⟩)
  · rcases offer_of_gt ready early with held | releases
    · exact Or.inr (Or.inl ⟨early, held⟩)
    · exact Or.inr (Or.inr releases)

/-! ## Calls -/

/-- Skipping ahead drops what lies below and drains; anything else changes
nothing. -/
theorem skipTo_cases
    {inbox : OrderedInbox}
    (ready : Ready inbox)
    (seq : UInt64) :
    inbox.skipTo seq = ([], inbox) ∨
      inbox.next ≤ seq ∧
      Drains
        { inbox with
          next := seq
          started := true
          buffer := inbox.buffer.filter fun env => seq ≤ env.seq }
        (inbox.skipTo seq).1 (inbox.skipTo seq).2 := by
  unfold skipTo
  split
  case isTrue skips =>
    right
    constructor
    · rcases skips with above | notStarted
      · exact above.le
      · rw [ready.unanchored (Bool.not_eq_true _ ▸ notStarted)]
        exact UInt64.zero_le
    · refine drain_drains _ fun other member => ?_
      obtain ⟨env, found⟩ := Indexed.mem_keys_iff.mp member
      rw [← Indexed.key_of_lookup found]
      rw [Indexed.lookup_filter, Option.filter_eq_some_iff] at found
      exact decide_eq_true_iff.mp found.2
  case isFalse =>
    left
    refine drain_of_not_held (Indexed.notMem_keys_iff.mp fun member => ?_)
    exact lt_irrefl _ (ready.ahead _ member)

theorem Drains.ready
    {inbox rest : OrderedInbox}
    {released : List SignalEnvelope}
    (drains : Drains inbox released rest)
    (anchored : rest.started = true)
    (room : rest.buffered < inbox.window.toNat) :
    Ready rest where
  ahead := drains.ahead
  unanchored := by simp [anchored]
  room := drains.window ▸ room

theorem offer_ready
    {inbox : OrderedInbox}
    (ready : Ready inbox)
    (env : SignalEnvelope) :
    Ready (inbox.offer env).2 := by
  rcases offer_cases ready env with
    ⟨_, same⟩ | ⟨early, room, held⟩ | ⟨floor, releases⟩
  · rw [same]
    exact ready
  · rw [held]
    refine ⟨fun seq member => ?_, ready.unanchored, room⟩
    rw [holding_keys, Finset.mem_insert] at member
    rcases member with rfl | member
    · exact early
    · exact ready.ahead seq member
  · apply releases.drains.ready
    · rw [releases.drains.started,
        List.isEmpty_eq_false_iff.mpr releases.released_ne_nil]
      simp
    · have fewer := releases.drains.size_lt releases.floor_mem
      have grown := buffered_holding_le inbox env
      have room := ready.room
      change _ < (inbox.holding env).buffered at fewer
      change _ < inbox.window.toNat
      omega

theorem skipTo_ready
    {inbox : OrderedInbox}
    (ready : Ready inbox)
    (seq : UInt64) :
    Ready (inbox.skipTo seq).2 := by
  rcases skipTo_cases ready seq with same | ⟨_, drains⟩
  · rw [same]
    exact ready
  · apply drains.ready
    · rw [drains.started]
      simp
    · refine lt_of_le_of_lt (Finset.card_le_card ?_) ready.room
      refine drains.keys_subset.trans fun other member => ?_
      obtain ⟨env, found⟩ := Indexed.mem_keys_iff.mp member
      rw [Indexed.lookup_filter, Option.filter_eq_some_iff] at found
      exact Indexed.mem_keys_of_lookup found.1

theorem call_ready
    {inbox : OrderedInbox}
    (ready : Ready inbox)
    (action : Call) :
    Ready (inbox.call action).2 := by
  cases action with
  | offer env => exact offer_ready ready env
  | skipTo seq => exact skipTo_ready ready seq

theorem offer_window
    {inbox : OrderedInbox}
    (ready : Ready inbox)
    (env : SignalEnvelope) :
    (inbox.offer env).2.window = inbox.window := by
  rcases offer_cases ready env with
    ⟨_, same⟩ | ⟨_, _, held⟩ | ⟨floor, releases⟩
  · rw [same]
  · rw [held]
    rfl
  · exact releases.drains.window

theorem skipTo_window
    {inbox : OrderedInbox}
    (ready : Ready inbox)
    (seq : UInt64) :
    (inbox.skipTo seq).2.window = inbox.window := by
  rcases skipTo_cases ready seq with same | ⟨_, drains⟩
  · rw [same]
  · exact drains.window

theorem call_window
    {inbox : OrderedInbox}
    (ready : Ready inbox)
    (action : Call) :
    (inbox.call action).2.window = inbox.window := by
  cases action with
  | offer env => exact offer_window ready env
  | skipTo seq => exact skipTo_window ready seq

/-- What any call does, whichever of its branches is taken. -/
structure Answers
    (inbox : OrderedInbox)
    (action : Call)
    (released : List SignalEnvelope)
    (rest : OrderedInbox) : Prop where
  /-- The released run ascends. -/
  ascending : released.Pairwise fun earlier later => earlier.seq < later.seq
  /-- Nothing below the number waited for is released. -/
  notBefore : ∀ env ∈ released, inbox.next ≤ env.seq
  /-- The number waited for afterwards is past the run. -/
  passed : ∀ env ∈ released, Order.succ env.seq ≤ rest.next
  /-- The number waited for does not go back. -/
  next_le : inbox.next ≤ rest.next
  /-- What is released was held or has just been offered. -/
  source : ∀ env ∈ released,
    inbox.buffer.lookup env.seq = some env ∨ action = .offer env
  /-- What is held was held or has just been offered. -/
  stillHeld : ∀ seq env, rest.buffer.lookup seq = some env →
    inbox.buffer.lookup seq = some env ∨ action = .offer env
  /-- What was held or has just been offered is passed, released or held. -/
  conserved : ∀ seq,
    (seq ∈ inbox.buffer.keys ∨ ∃ env, action = .offer env ∧ env.seq = seq) →
    seq < rest.next ∨ seq ∈ rest.buffer.keys ∨ ∃ env ∈ released, env.seq = seq

/-- A call without effect, on an envelope below the number waited for. -/
theorem answers_nothing
    {inbox : OrderedInbox}
    {action : Call}
    (passed : ∀ env, action = .offer env → env.seq < inbox.next) :
    Answers inbox action [] inbox where
  ascending := .nil
  notBefore := by simp
  passed := by simp
  next_le := le_rfl
  source := by simp
  stillHeld := fun _ _ found => Or.inl found
  conserved := by
    rintro seq (member | ⟨env, offered, rfl⟩)
    · exact Or.inr (Or.inl member)
    · exact Or.inl (passed env offered)

/-- A drain answers a call when it starts at or past the number waited for,
from envelopes held or just offered, of which it forgets only those it has
passed. -/
theorem Drains.answers
    {inbox drained rest : OrderedInbox}
    {action : Call}
    {released : List SignalEnvelope}
    (drains : Drains drained released rest)
    (next_le : inbox.next ≤ drained.next)
    (source : ∀ seq env, drained.buffer.lookup seq = some env →
      inbox.buffer.lookup seq = some env ∨ action = .offer env)
    (conserved : ∀ seq,
      (seq ∈ inbox.buffer.keys ∨ ∃ env, action = .offer env ∧ env.seq = seq) →
      seq < drained.next ∨ seq ∈ drained.buffer.keys) :
    Answers inbox action released rest where
  ascending := drains.ascending
  notBefore := fun env member => next_le.trans (drains.notBefore env member)
  passed := drains.passed
  next_le := next_le.trans drains.next_le
  source := fun env member => source env.seq env (drains.held env member)
  stillHeld := fun seq env found => source seq env (drains.held_before found)
  conserved := by
    intro seq known
    rcases conserved seq known with below | member
    · exact Or.inl (below.trans_le drains.next_le)
    · right
      by_cases untouched : ∀ env ∈ released, env.seq ≠ seq
      · left
        obtain ⟨env, found⟩ := Indexed.mem_keys_iff.mp member
        rw [← drains.kept seq untouched] at found
        exact Indexed.mem_keys_of_lookup found
      · right
        push Not at untouched
        exact untouched

/-- An envelope found among the held ones after an offer was held before or is
the one offered. -/
theorem lookup_holding_cases
    {inbox : OrderedInbox}
    {env : SignalEnvelope}
    (seq : UInt64)
    (other : SignalEnvelope)
    (found : (inbox.holding env).buffer.lookup seq = some other) :
    inbox.buffer.lookup seq = some other ∨ Call.offer env = .offer other := by
  rw [holding_lookup] at found
  split at found
  · cases found
    exact Or.inr rfl
  · exact Or.inl found

/-- Everything held or just offered is held after the offer. -/
theorem mem_holding_keys
    {inbox : OrderedInbox}
    {env : SignalEnvelope}
    (seq : UInt64)
    (known : seq ∈ inbox.buffer.keys ∨
      ∃ other, Call.offer env = .offer other ∧ other.seq = seq) :
    seq ∈ (inbox.holding env).buffer.keys := by
  rw [holding_keys, Finset.mem_insert]
  rcases known with member | ⟨other, same, rfl⟩
  · exact Or.inr member
  · cases same
    exact Or.inl rfl

theorem offer_answers
    {inbox : OrderedInbox}
    (ready : Ready inbox)
    (env : SignalEnvelope) :
    Answers inbox (.offer env) (inbox.offer env).1 (inbox.offer env).2 := by
  rcases offer_cases ready env with
    ⟨passed, same⟩ | ⟨_, _, held⟩ | ⟨floor, releases⟩
  · rw [same]
    refine answers_nothing fun other offered => ?_
    cases offered
    exact passed
  · rw [held]
    exact
      { ascending := .nil
        notBefore := by simp
        passed := by simp
        next_le := le_rfl
        source := by simp
        stillHeld := lookup_holding_cases
        conserved := fun seq known =>
          Or.inr (Or.inl (mem_holding_keys seq known)) }
  · exact releases.drains.answers releases.next_le lookup_holding_cases
      fun seq known => Or.inr (mem_holding_keys seq known)

theorem skipTo_answers
    {inbox : OrderedInbox}
    (ready : Ready inbox)
    (seq : UInt64) :
    Answers inbox (.skipTo seq) (inbox.skipTo seq).1 (inbox.skipTo seq).2 := by
  rcases skipTo_cases ready seq with same | ⟨next_le, drains⟩
  · rw [same]
    exact answers_nothing fun _ offered => nomatch offered
  · apply drains.answers next_le
    · intro other env found
      rw [Indexed.lookup_filter, Option.filter_eq_some_iff] at found
      exact Or.inl found.1
    · rintro other (member | ⟨env, offered, _⟩)
      · obtain ⟨env, found⟩ := Indexed.mem_keys_iff.mp member
        rcases lt_or_ge other seq with below | above
        · exact Or.inl below
        · right
          refine Indexed.mem_keys_iff.mpr ⟨env, ?_⟩
          rw [Indexed.lookup_filter, found, Option.filter_some]
          rw [Indexed.key_of_lookup found]
          simp [above]
      · cases offered

theorem call_answers
    {inbox : OrderedInbox}
    (ready : Ready inbox)
    (action : Call) :
    Answers inbox action (inbox.call action).1 (inbox.call action).2 := by
  cases action with
  | offer env => exact offer_answers ready env
  | skipTo seq => exact skipTo_answers ready seq

end OrderedInbox
end CeMeet
