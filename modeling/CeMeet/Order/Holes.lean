import CeMeet.Order.Inbox
import Mathlib.Data.List.ReduceOption
import Mathlib.Data.List.Sort
import Mathlib.Order.Interval.Finset.Nat

/-!
# Streams with holes

A sender numbers everything it says, but an inbox is offered only what passes
the filters in front of it.  A numbered stream is a list of slots whose index is
the sequence number, and an empty slot is a number the inbox never sees.  The
inbox catches up with such a stream exactly when the last offered envelopes
either fill a whole window or have no hole before them, and it keeps up with
the stream at every step exactly when nothing follows a hole.
-/

namespace CeMeet

/-- The marked items of a list end in a contiguous block that reaches back to
the beginning of the list or fills a window. -/
def EndsInBlock (marked : α → Bool) (window : Nat) (items : List α) : Prop :=
  ∃ before block after,
    items = before ++ block ++ after ∧
      (∀ item ∈ block, marked item) ∧
      (∀ item ∈ after, ¬marked item) ∧
      (before = [] ∨ window ≤ block.length)

/-- The block a list ends in stops after `stop` items. -/
def EndsInBlockAt (marked : α → Bool) (window : Nat) (items : List α)
    (stop : Nat) : Prop :=
  ∃ before block after,
    items = before ++ block ++ after ∧
      (∀ item ∈ block, marked item) ∧
      (∀ item ∈ after, ¬marked item) ∧
      (before = [] ∨ window ≤ block.length) ∧
      stop = before.length + block.length

/-- An item of the block is the item of the list behind what comes before the
block. -/
theorem getElem?_block
    {before block after : List α} {index : Nat}
    (inside : index < block.length) :
    (before ++ block ++ after)[before.length + index]? = some block[index] := by
  rw [List.append_assoc, List.getElem?_append_right (by omega),
    Nat.add_sub_cancel_left, List.getElem?_append_left inside,
    List.getElem?_eq_getElem inside]

theorem EndsInBlockAt.endsInBlock
    {marked : α → Bool} {window : Nat} {items : List α} {stop : Nat}
    (ends : EndsInBlockAt marked window items stop) :
    EndsInBlock marked window items := by
  obtain ⟨before, block, after, split, inBlock, inAfter, long, _⟩ := ends
  exact ⟨before, block, after, split, inBlock, inAfter, long⟩

/-- An unmarked item after the block does not move it. -/
theorem EndsInBlockAt.concat
    {marked : α → Bool} {window : Nat} {items : List α} {stop : Nat}
    (ends : EndsInBlockAt marked window items stop)
    {item : α}
    (unmarked : ¬marked item) :
    EndsInBlockAt marked window (items ++ [item]) stop := by
  obtain ⟨before, block, after, split, inBlock, inAfter, long, same⟩ := ends
  refine ⟨before, block, after ++ [item], by simp [split], inBlock, ?_, long,
    same⟩
  intro other member
  rcases List.mem_append.mp member with member | member
  · exact inAfter other member
  · exact List.mem_singleton.mp member ▸ unmarked

theorem endsInBlock_map (marked : β → Bool) (window : Nat) (observe : α → β)
    (items : List α) :
    EndsInBlock marked window (items.map observe) ↔
      EndsInBlock (fun item => marked (observe item)) window items := by
  constructor
  · rintro ⟨before, block, after, split, inBlock, inAfter, long⟩
    obtain ⟨front, after', rfl, frontSplit, rfl⟩ :=
      List.map_eq_append_iff.mp split
    obtain ⟨before', block', rfl, rfl, rfl⟩ :=
      List.map_eq_append_iff.mp frontSplit
    refine ⟨before', block', after', rfl, ?_, ?_, ?_⟩
    · exact fun item member => inBlock _ (List.mem_map_of_mem member)
    · exact fun item member => inAfter _ (List.mem_map_of_mem member)
    · simpa using long
  · rintro ⟨before, block, after, rfl, inBlock, inAfter, long⟩
    refine ⟨before.map observe, block.map observe, after.map observe,
      by simp, ?_, ?_, by simpa using long⟩
    · simpa using inBlock
    · simpa using inAfter

@[simp] theorem isSome_ite_some (pass : Bool) (item : α) :
    (if pass then some item else none).isSome = pass := by
  cases pass <;> rfl

/-- What a filter in front of a stream leaves of it. -/
theorem reduceOption_map_ite (pass : α → Bool) (observe : α → β)
    (items : List α) :
    (items.map fun item =>
        if pass item then some (observe item) else none).reduceOption =
      (items.filter pass).map observe := by
  rw [List.reduceOption, List.filterMap_map, ← List.filterMap_eq_map',
    List.filterMap_filter]
  rfl

namespace OrderedInbox

/-- Offer what one slot of a stream holds. -/
def receive (inbox : OrderedInbox) :
    Option SignalEnvelope → List SignalEnvelope × OrderedInbox
  | none => ([], inbox)
  | some env => inbox.offer env

/-- The index of a filled slot is the sequence number of its envelope. -/
def Numbered (slots : List (Option SignalEnvelope)) : Prop :=
  ∀ (index : Nat) (env : SignalEnvelope),
    slots[index]? = some (some env) → env.seq.toNat = index

namespace Numbered

variable {slots rest : List (Option SignalEnvelope)} {env : SignalEnvelope}

theorem left (numbered : Numbered (slots ++ rest)) : Numbered slots := by
  intro index env found
  apply numbered index env
  rw [List.getElem?_append_left]
  · exact found
  · exact (List.getElem?_eq_some_iff.mp found).1

theorem middle (numbered : Numbered (slots ++ some env :: rest)) :
    env.seq.toNat = slots.length :=
  numbered slots.length env (by simp)

theorem getElem?_eq (numbered : Numbered slots) (member : some env ∈ slots) :
    slots[env.seq.toNat]? = some (some env) := by
  obtain ⟨index, found⟩ := List.mem_iff_getElem?.mp member
  rwa [numbered index env found]

theorem lt_length (numbered : Numbered slots) (member : some env ∈ slots) :
    env.seq.toNat < slots.length :=
  (List.getElem?_eq_some_iff.mp (numbered.getElem?_eq member)).1

theorem ascending (numbered : Numbered slots) :
    slots.reduceOption.Pairwise fun earlier later => earlier.seq < later.seq := by
  induction slots using List.reverseRecOn with
  | nil => exact .nil
  | append_singleton slots slot inductionHypothesis =>
      rw [List.reduceOption_append, List.pairwise_append]
      refine ⟨inductionHypothesis numbered.left, ?_, ?_⟩
      · cases slot <;> simp [List.reduceOption]
      · intro earlier earlierMember later laterMember
        rw [List.reduceOption_mem_iff] at earlierMember laterMember
        rw [List.mem_singleton] at laterMember
        subst laterMember
        rw [UInt64.lt_iff_toNat_lt, numbered.middle]
        exact numbered.left.lt_length earlierMember

end Numbered

/-- How the released envelopes and the inbox relate to the slots read so far. -/
structure Follows
    (window : UInt64)
    (slots : List (Option SignalEnvelope))
    (out : List SignalEnvelope)
    (inbox : OrderedInbox) : Prop where
  /-- Calls leave the inbox ready. -/
  ready : Ready inbox
  /-- The window does not change. -/
  window_eq : inbox.window = window
  /-- The output ascends. -/
  ascending : out.Pairwise fun earlier later => earlier.seq < later.seq
  /-- Everything released was in a slot. -/
  released : ∀ env ∈ out, some env ∈ slots
  /-- Everything held was in a slot. -/
  held : ∀ seq env, inbox.buffer.lookup seq = some env → some env ∈ slots
  /-- The number waited for is past everything released. -/
  passed : ∀ env ∈ out, Order.succ env.seq ≤ inbox.next
  /-- The number waited for does not run ahead of the stream. -/
  behind : inbox.next.toNat ≤ slots.length
  /-- Every envelope read has been released or is held. -/
  accounted : ∀ env, some env ∈ slots →
    env ∈ out ∨ inbox.buffer.lookup env.seq = some env

namespace Follows

variable
  {window : UInt64}
  {slots : List (Option SignalEnvelope)}
  {out : List SignalEnvelope}
  {inbox : OrderedInbox}

theorem start (window : UInt64) :
    Follows (max window 1) [] [] (withWindow window) where
  ready := ready_withWindow window
  window_eq := rfl
  ascending := .nil
  released := by simp
  held := by simp [withWindow]
  passed := by simp
  behind := by simp [withWindow]
  accounted := by simp

/-- An empty slot changes nothing. -/
theorem skip (follows : Follows window slots out inbox) :
    Follows window (slots ++ [none]) out inbox where
  ready := follows.ready
  window_eq := follows.window_eq
  ascending := follows.ascending
  released := fun env member => by simp [follows.released env member]
  held := fun seq env found => by simp [follows.held seq env found]
  passed := follows.passed
  behind := by
    have behind := follows.behind
    simp only [List.length_append, List.length_singleton]
    omega
  accounted := fun env member => follows.accounted env (by simpa using member)

/-- When a new envelope is held, every envelope read has been released or is
held. -/
theorem accounted_holding
    (follows : Follows window slots out inbox)
    {env : SignalEnvelope}
    (numbered : Numbered (slots ++ [some env]))
    {other : SignalEnvelope}
    (member : some other ∈ slots ++ [some env]) :
    other ∈ out ∨
      (inbox.holding env).buffer.lookup other.seq = some other := by
  rw [holding_lookup]
  rcases List.mem_append.mp member with member | member
  · have different : other.seq ≠ env.seq := by
      have below := numbered.left.lt_length member
      have last := numbered.middle
      rintro same
      rw [same, last] at below
      exact lt_irrefl _ below
    rw [if_neg different]
    exact follows.accounted other member
  · simp only [List.mem_singleton, Option.some.injEq] at member
    subst member
    simp

/-- An early envelope that is only held. -/
theorem hold
    (follows : Follows window slots out inbox)
    {env : SignalEnvelope}
    (numbered : Numbered (slots ++ [some env]))
    (ready : Ready (inbox.holding env)) :
    Follows window (slots ++ [some env]) out (inbox.holding env) where
  ready := ready
  window_eq := follows.window_eq
  ascending := follows.ascending
  released := fun other member => by simp [follows.released other member]
  held := by
    intro seq other found
    rcases lookup_holding_cases seq other found with found | same
    · simp [follows.held seq other found]
    · cases same
      simp
  passed := follows.passed
  behind := by
    have behind := follows.behind
    simp only [holding_next, List.length_append, List.length_singleton]
    omega
  accounted := fun _ member => follows.accounted_holding numbered member

/-- What is held or offered was in a slot. -/
theorem mem_slots
    (follows : Follows window slots out inbox)
    {env other : SignalEnvelope} {seq : UInt64}
    (source : inbox.buffer.lookup seq = some other ∨
      Call.offer env = .offer other) :
    some other ∈ slots ++ [some env] := by
  rcases source with found | same
  · simp [follows.held seq other found]
  · cases same
    simp

/-- A release does not run ahead of the stream, since what it releases is
contiguous and was in a slot. -/
theorem behind_release
    (follows : Follows window slots out inbox)
    {env : SignalEnvelope}
    {floor : UInt64}
    (numbered : Numbered (slots ++ [some env]))
    (short : slots.length + 1 < 2 ^ 64)
    (releases : Releases inbox env floor) :
    (inbox.offer env).2.next.toNat ≤ (slots ++ [some env]).length := by
  have answers := offer_answers follows.ready env
  by_contra ahead
  rw [List.length_append, List.length_singleton, not_le] at ahead
  obtain ⟨other, found⟩ := Indexed.mem_keys_iff.mp releases.floor_mem
  have floorBelow := numbered.lt_length
    (follows.mem_slots (lookup_holding_cases _ _ found))
  rw [Indexed.key_of_lookup found, List.length_append,
    List.length_singleton] at floorBelow
  have value : (UInt64.ofNat (slots.length + 1)).toNat = slots.length + 1 :=
    UInt64.toNat_ofNat_of_lt short
  obtain ⟨beyond, member, same⟩ := releases.drains.contiguous
    (UInt64.ofNat (slots.length + 1))
    (by rw [UInt64.le_iff_toNat_le, value]; exact floorBelow.le)
    (by rw [UInt64.lt_iff_toNat_lt, value]; exact ahead)
  have beyondBelow := numbered.lt_length
    (follows.mem_slots (answers.source beyond member))
  rw [same, value, List.length_append, List.length_singleton] at beyondBelow
  exact lt_irrefl _ beyondBelow

/-- A release, of the run that starts at `floor`. -/
theorem release
    (follows : Follows window slots out inbox)
    {env : SignalEnvelope}
    {floor : UInt64}
    (numbered : Numbered (slots ++ [some env]))
    (short : slots.length + 1 < 2 ^ 64)
    (releases : Releases inbox env floor) :
    Follows window (slots ++ [some env]) (out ++ (inbox.offer env).1)
      (inbox.offer env).2 := by
  have answers := offer_answers follows.ready env
  have releasedSlot : ∀ other ∈ (inbox.offer env).1,
      some other ∈ slots ++ [some env] := fun other member =>
    follows.mem_slots (answers.source other member)
  refine
    { ready := offer_ready follows.ready env
      window_eq := releases.drains.window.trans follows.window_eq
      ascending := ?ascending
      released := ?released
      held := fun seq other found =>
        follows.mem_slots (answers.stillHeld seq other found)
      passed := ?passed
      behind := ?behind
      accounted := ?accounted }
  case ascending =>
    refine List.pairwise_append.mpr
      ⟨follows.ascending, answers.ascending, ?_⟩
    intro earlier earlierReleased later laterReleased
    have below := numbered.left.lt_length
      (follows.released earlier earlierReleased)
    have notMax : ¬IsMax earlier.seq := by
      rw [UInt64.isMax_iff_eq_maxValue]
      rintro atTop
      rw [atTop, UInt64.toNat_maxValue] at below
      omega
    exact (Order.lt_succ_of_not_isMax notMax).trans_le
      ((follows.passed earlier earlierReleased).trans
        (answers.notBefore later laterReleased))
  case released =>
    intro other member
    rcases List.mem_append.mp member with member | member
    · simp [follows.released other member]
    · exact releasedSlot other member
  case passed =>
    intro other member
    rcases List.mem_append.mp member with member | member
    · exact (follows.passed other member).trans answers.next_le
    · exact answers.passed other member
  case behind => exact follows.behind_release numbered short releases
  case accounted =>
    intro other member
    rcases follows.accounted_holding numbered member with done | found
    · exact Or.inl (List.mem_append_left _ done)
    · rcases releases.drains.released_or_held found with done | still
      · exact Or.inl (List.mem_append_right _ done)
      · exact Or.inr still

/-- One more slot is followed. -/
theorem step
    (follows : Follows window slots out inbox)
    {slot : Option SignalEnvelope}
    (numbered : Numbered (slots ++ [slot]))
    (short : slots.length + 1 < 2 ^ 64) :
    Follows window (slots ++ [slot]) (out ++ (inbox.receive slot).1)
      (inbox.receive slot).2 := by
  cases slot with
  | none => simpa [receive] using follows.skip
  | some env =>
      rcases offer_cases follows.ready env with
        ⟨below, _⟩ | ⟨_, _, held⟩ | ⟨floor, releases⟩
      · rw [UInt64.lt_iff_toNat_lt, numbered.middle] at below
        exact absurd follows.behind (not_le.mpr below)
      · have ready := offer_ready follows.ready env
        rw [held] at ready
        change Follows window _ (out ++ (inbox.offer env).1) (inbox.offer env).2
        rw [held, List.append_nil]
        exact follows.hold numbered ready
      · exact follows.release numbered short releases

/-- Nothing in the slots carries the number that is waited for while something
is held. -/
theorem next_missing
    (follows : Follows window slots out inbox)
    {seq : UInt64}
    (member : seq ∈ inbox.buffer.keys)
    {env : SignalEnvelope}
    (read : some env ∈ slots) :
    env.seq ≠ inbox.next := by
  intro same
  rcases follows.accounted env read with released | found
  · have atTop := follows.passed env released
    rw [same, Order.succ_le_iff_isMax] at atTop
    exact atTop.not_lt (follows.ready.ahead seq member)
  · rw [same] at found
    exact lt_irrefl _
      (follows.ready.ahead _ (Indexed.mem_keys_of_lookup found))

/-- While something is held, everything read past the number waited for is
held. -/
theorem held_of_lt
    (follows : Follows window slots out inbox)
    {env : SignalEnvelope}
    (read : some env ∈ slots)
    (ahead : inbox.next < env.seq) :
    env.seq ∈ inbox.buffer.keys := by
  rcases follows.accounted env read with released | found
  · have behind := (Order.le_succ _).trans (follows.passed env released)
    exact absurd behind (not_le.mpr ahead)
  · exact Indexed.mem_keys_of_lookup found

/-- What is read past the number waited for fits into the window. -/
theorem length_lt_window
    (follows : Follows window slots out inbox)
    {block : List (Option SignalEnvelope)}
    (sublist : block.Sublist slots)
    (numbered : Numbered slots)
    (ahead : ∀ env, some env ∈ block → inbox.next < env.seq) :
    block.reduceOption.length < window.toNat := by
  have ascending : block.reduceOption.Pairwise
      fun earlier later => earlier.seq < later.seq :=
    numbered.ascending.sublist (sublist.filterMap id)
  have distinct : (block.reduceOption.map SignalEnvelope.seq).Nodup :=
    (List.pairwise_map.mpr ascending).imp fun lt => lt.ne
  have subset : (block.reduceOption.map SignalEnvelope.seq).toFinset ⊆
      inbox.buffer.keys := by
    intro seq member
    rw [List.mem_toFinset, List.mem_map] at member
    obtain ⟨env, present, rfl⟩ := member
    rw [List.reduceOption_mem_iff] at present
    exact follows.held_of_lt (sublist.subset present) (ahead env present)
  calc
    block.reduceOption.length
        = (block.reduceOption.map SignalEnvelope.seq).toFinset.card := by
          rw [List.toFinset_card_of_nodup distinct, List.length_map]
    _ ≤ inbox.buffered := Finset.card_le_card subset
    _ < window.toNat := follows.window_eq ▸ follows.ready.room

/-- Nothing is held after a stream whose filled slots end in a block that has
no hole before it or fills a window. -/
theorem keys_eq_empty
    (follows : Follows window slots out inbox)
    (numbered : Numbered slots)
    (ends : EndsInBlock Option.isSome window.toNat slots) :
    inbox.buffer.keys = ∅ := by
  obtain ⟨before, block, after, split, inBlock, inAfter, long⟩ := ends
  refine Finset.eq_empty_of_forall_notMem fun seq member => ?_
  have inBlockAt : ∀ index < block.length,
      ∃ env, slots[before.length + index]? = some (some env) ∧
        env.seq.toNat = before.length + index := by
    intro index lt
    obtain ⟨env, filled⟩ :=
      Option.isSome_iff_exists.mp (inBlock _ (List.getElem_mem lt))
    have found : slots[before.length + index]? = some (some env) := by
      rw [split, getElem?_block lt, filled]
    exact ⟨env, found, numbered _ env found⟩
  have seqBelow : seq.toNat < before.length + block.length := by
    obtain ⟨env, found⟩ := Indexed.mem_keys_iff.mp member
    have atSeq := numbered.getElem?_eq (follows.held seq env found)
    rw [Indexed.key_of_lookup found] at atSeq
    by_contra beyond
    rw [split, List.getElem?_append_right (by simpa using beyond)] at atSeq
    exact inAfter _ (List.mem_of_getElem? atSeq) rfl
  have nextBelow : inbox.next.toNat < seq.toNat :=
    UInt64.lt_iff_toNat_lt.mp (follows.ready.ahead seq member)
  have nextBefore : inbox.next.toNat < before.length := by
    by_contra inside
    obtain ⟨env, found, atNext⟩ :=
      inBlockAt (inbox.next.toNat - before.length) (by omega)
    refine follows.next_missing member (List.mem_of_getElem? found) ?_
    apply UInt64.toNat_inj.mp
    omega
  rcases long with rfl | long
  · exact Nat.not_lt_zero _ nextBefore
  · have sublist : block.Sublist slots :=
      split ▸ ((List.sublist_append_right before block).trans
        (List.sublist_append_left _ after))
    have fits := follows.length_lt_window sublist numbered ?_
    · rw [List.reduceOption_length_eq_iff.mpr inBlock] at fits
      omega
    · intro env present
      obtain ⟨index, lt, filled⟩ := List.getElem_of_mem present
      obtain ⟨other, found, atIndex⟩ := inBlockAt index lt
      rw [split, getElem?_block lt, filled, Option.some_inj,
        Option.some_inj] at found
      subst found
      rw [UInt64.lt_iff_toNat_lt, atIndex]
      omega

/-- Once nothing is held after an envelope, the number behind it is waited
for. -/
theorem next_eq_of_keys_eq_empty
    {env : SignalEnvelope}
    (follows : Follows window (slots ++ [some env]) out inbox)
    (numbered : Numbered (slots ++ [some env]))
    (short : slots.length + 1 < 2 ^ 64)
    (nothingHeld : inbox.buffer.keys = ∅) :
    inbox.next.toNat = slots.length + 1 := by
  refine le_antisymm (by simpa using follows.behind) ?_
  rcases follows.accounted env (by simp) with released | found
  · have passed := follows.passed env released
    have belowTop : env.seq < UInt64.maxValue := by
      rw [UInt64.lt_iff_toNat_lt, numbered.middle, UInt64.toNat_maxValue]
      omega
    rwa [UInt64.le_iff_toNat_le, UInt64.toNat_succ_of_lt belowTop,
      numbered.middle] at passed
  · have member := Indexed.mem_keys_of_lookup found
    rw [nothingHeld] at member
    exact absurd member (Finset.notMem_empty _)

/-- What is held after one more envelope was put into the buffer is below the
end of the stream. -/
theorem holding_lt_length
    (follows : Follows window slots out inbox)
    {env : SignalEnvelope}
    (numbered : Numbered (slots ++ [some env]))
    {seq : UInt64}
    (member : seq ∈ (inbox.holding env).buffer.keys) :
    seq.toNat < slots.length + 1 := by
  obtain ⟨other, found⟩ := Indexed.mem_keys_iff.mp member
  have read : some other ∈ slots ++ [some env] := by
    rcases lookup_holding_cases seq other found with found | same
    · simp [follows.held seq other found]
    · cases same
      simp
  have below := numbered.lt_length read
  rwa [Indexed.key_of_lookup found, List.length_append,
    List.length_singleton] at below

/-- An envelope that was waited for extends the block that ends the stream. -/
theorem endsInBlockAt_of_current
    (follows : Follows window slots out inbox)
    {env : SignalEnvelope}
    (numbered : Numbered (slots ++ [some env]))
    (current : env.seq = inbox.next)
    (settled : inbox.buffer.keys = ∅ →
      EndsInBlockAt Option.isSome window.toNat slots inbox.next.toNat) :
    EndsInBlockAt Option.isSome window.toNat (slots ++ [some env])
      (slots.length + 1) := by
  have noneHeld : inbox.buffer.keys = ∅ := by
    refine Finset.eq_empty_of_forall_notMem fun seq member => ?_
    have ahead := UInt64.lt_iff_toNat_lt.mp (follows.ready.ahead seq member)
    have below := follows.holding_lt_length numbered
      (show seq ∈ (inbox.holding env).buffer.keys by simp [member])
    rw [← current, numbered.middle] at ahead
    omega
  obtain ⟨before, block, after, split, inBlock, inAfter, long, next⟩ :=
    settled noneHeld
  rw [← current, numbered.middle, split] at next
  simp only [List.length_append] at next
  have noneAfter : after = [] := List.eq_nil_of_length_eq_zero (by omega)
  refine ⟨before, block ++ [some env], [], by simp [split, noneAfter], ?_,
    by simp, ?_, ?_⟩
  · intro slot member
    rcases List.mem_append.mp member with member | member
    · exact inBlock slot member
    · rw [List.mem_singleton.mp member]
      rfl
  · exact long.imp_right fun enough => enough.trans (by simp)
  · simp [split, noneAfter, Nat.add_assoc]

/-- An envelope that makes the inbox give up on a gap ends a block that fills
the window. -/
theorem endsInBlockAt_of_abandoned
    (follows : Follows window slots out inbox)
    {env : SignalEnvelope}
    {floor : UInt64}
    (numbered : Numbered (slots ++ [some env]))
    (short : slots.length + 1 < 2 ^ 64)
    (releases : Releases inbox env floor)
    (stop : (inbox.offer env).2.next.toNat = slots.length + 1)
    (moved : inbox.next < floor) :
    EndsInBlockAt Option.isSome window.toNat (slots ++ [some env])
      (slots.length + 1) := by
  have followed := follows.release numbered short releases
  have floorBelow := follows.holding_lt_length numbered releases.floor_mem
  refine ⟨(slots ++ [some env]).take floor.toNat,
    (slots ++ [some env]).drop floor.toNat, [], by simp, ?_, by simp,
    Or.inr ?_, ?_⟩
  · intro slot member
    obtain ⟨offset, lt, filled⟩ := List.getElem_of_mem member
    rw [List.length_drop, List.length_append, List.length_singleton] at lt
    rw [List.getElem_drop] at filled
    have value : (UInt64.ofNat (floor.toNat + offset)).toNat =
        floor.toNat + offset :=
      UInt64.toNat_ofNat_of_lt (show floor.toNat + offset < 2 ^ 64 by omega)
    obtain ⟨other, released, atIndex⟩ := releases.drains.contiguous
      (UInt64.ofNat (floor.toNat + offset))
      (by rw [UInt64.le_iff_toNat_le, value]; exact Nat.le_add_right _ _)
      (by rw [UInt64.lt_iff_toNat_lt, value, stop]; omega)
    have found := numbered.getElem?_eq
      (followed.released other (List.mem_append_right _ released))
    rw [atIndex, value, List.getElem?_eq_some_iff] at found
    rw [← filled, found.2]
    rfl
  · have full := releases.full moved
    rw [follows.window_eq] at full
    have between : (inbox.holding env).buffered ≤
        (Finset.Ico floor.toNat (slots.length + 1)).card := by
      apply Finset.card_le_card_of_injOn UInt64.toNat
      · intro seq member
        rw [Finset.coe_Ico, Set.mem_Ico]
        exact ⟨UInt64.le_iff_toNat_le.mp (releases.floor_le seq member),
          follows.holding_lt_length numbered member⟩
      · exact fun _ _ _ _ => UInt64.toNat_inj.mp
    rw [Nat.card_Ico] at between
    simpa using full.trans between
  · simp only [List.length_take, List.length_drop, List.length_append,
      List.length_singleton]
    omega

/-- A stream after which nothing is held ends in a block, if this was so before
its last slot. -/
theorem endsInBlockAt_step
    (follows : Follows window slots out inbox)
    {slot : Option SignalEnvelope}
    (numbered : Numbered (slots ++ [slot]))
    (short : slots.length + 1 < 2 ^ 64)
    (settled : inbox.buffer.keys = ∅ →
      EndsInBlockAt Option.isSome window.toNat slots inbox.next.toNat)
    (nothingHeld : (inbox.receive slot).2.buffer.keys = ∅) :
    EndsInBlockAt Option.isSome window.toNat (slots ++ [slot])
      (inbox.receive slot).2.next.toNat := by
  have followed := follows.step numbered short
  cases slot with
  | none => exact (settled nothingHeld).concat (by simp)
  | some env =>
      have stop := followed.next_eq_of_keys_eq_empty numbered short nothingHeld
      rw [stop]
      rcases offer_cases follows.ready env with
        ⟨below, _⟩ | ⟨_, _, held⟩ | ⟨floor, releases⟩
      · rw [UInt64.lt_iff_toNat_lt, numbered.middle] at below
        exact absurd follows.behind (not_le.mpr below)
      · have member : env.seq ∈ (inbox.receive (some env)).2.buffer.keys := by
          simp [receive, held]
        rw [nothingHeld] at member
        exact absurd member (Finset.notMem_empty _)
      · rcases releases.next_le.eq_or_lt with same | moved
        · refine follows.endsInBlockAt_of_current numbered ?_ settled
          have floorHeld := releases.floor_mem
          rw [← same, holding_keys, Finset.mem_insert] at floorHeld
          rcases floorHeld with current | held
          · exact current.symm
          · exact absurd (follows.ready.ahead _ held) (lt_irrefl _)
        · exact follows.endsInBlockAt_of_abandoned numbered short releases
            stop moved

end Follows

/-- An inbox follows every numbered stream, and a stream after which it holds
nothing ends in a block. -/
theorem follows_outputs
    (window : UInt64)
    (slots : List (Option SignalEnvelope))
    (numbered : Numbered slots)
    (short : slots.length < 2 ^ 64) :
    Follows (max window 1) slots
        (Transducer.outputs receive (withWindow window) slots).flatten
        (Transducer.final receive (withWindow window) slots) ∧
      ((Transducer.final receive (withWindow window) slots).buffer.keys = ∅ →
        EndsInBlock Option.isSome (max window 1).toNat slots) := by
  have run :
      Follows (max window 1) slots
          (Transducer.outputs receive (withWindow window) slots).flatten
          (Transducer.final receive (withWindow window) slots) ∧
        ((Transducer.final receive (withWindow window) slots).buffer.keys = ∅ →
          EndsInBlockAt Option.isSome (max window 1).toNat slots
            (Transducer.final receive (withWindow window) slots).next.toNat) := by
    refine Transducer.history_induction
      (motive := fun slots outputs inbox =>
        Follows (max window 1) slots outputs.flatten inbox ∧
          (inbox.buffer.keys = ∅ →
            EndsInBlockAt Option.isSome (max window 1).toNat slots
              inbox.next.toNat))
      slots ?_ ?_
    · exact ⟨Follows.start window, fun _ => ⟨[], [], [], by simp [withWindow]⟩⟩
    · rintro done slot rest split ⟨follows, settled⟩
      rw [split, ← List.singleton_append, ← List.append_assoc] at numbered
      have shorter : done.length + 1 < 2 ^ 64 := by
        rw [split, List.length_append, List.length_cons] at short
        omega
      rw [List.flatten_append, List.flatten_singleton]
      exact ⟨follows.step numbered.left shorter,
        follows.endsInBlockAt_step numbered.left shorter settled⟩
  exact ⟨run.1, fun nothingHeld => (run.2 nothingHeld).endsInBlock⟩

/-- An inbox has released a numbered stream completely and in order exactly
when the stream ends in a block. -/
theorem flatten_outputs_receive_eq_iff
    (window : UInt64)
    (slots : List (Option SignalEnvelope))
    (numbered : Numbered slots)
    (short : slots.length < 2 ^ 64) :
    (Transducer.outputs receive (withWindow window) slots).flatten =
        slots.reduceOption ↔
      EndsInBlock Option.isSome (max window 1).toNat slots := by
  obtain ⟨follows, settled⟩ := follows_outputs window slots numbered short
  constructor
  · intro complete
    refine settled (Finset.eq_empty_of_forall_notMem fun seq member => ?_)
    obtain ⟨env, found⟩ := Indexed.mem_keys_iff.mp member
    have released := List.reduceOption_mem_iff.mpr (follows.held seq env found)
    rw [← complete] at released
    have behind := (Order.le_succ _).trans (follows.passed env released)
    rw [Indexed.key_of_lookup found] at behind
    exact absurd behind (not_le.mpr (follows.ready.ahead seq member))
  · intro ends
    have nothingHeld := follows.keys_eq_empty numbered ends
    have irreflexive : Std.Irrefl fun earlier later : SignalEnvelope =>
        earlier.seq < later.seq := ⟨fun env => lt_irrefl env.seq⟩
    have antisymmetric : Std.Antisymm fun earlier later : SignalEnvelope =>
        earlier.seq < later.seq :=
      ⟨fun _ _ forward backward => absurd forward backward.not_gt⟩
    refine List.Pairwise.eq_of_mem_iff follows.ascending numbered.ascending
      fun env => ?_
    rw [List.reduceOption_mem_iff]
    refine ⟨follows.released env, fun read => ?_⟩
    rcases follows.accounted env read with released | found
    · exact released
    · have member := Indexed.mem_keys_of_lookup found
      rw [nothingHeld] at member
      exact absurd member (Finset.notMem_empty _)

end OrderedInbox
end CeMeet
