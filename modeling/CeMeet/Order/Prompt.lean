import CeMeet.Order.Holes

/-!
# Keeping up with a stream

An inbox that has caught up with a stream releases the next envelope in the
very call that offers it.  The first hole ends this for good: every later
envelope is ahead of the number waited for and is held.
-/

namespace CeMeet
namespace OrderedInbox

/-- An inbox that has released everything up to `count` and holds nothing. -/
structure CaughtUp
    (window : UInt64)
    (count : Nat)
    (inbox : OrderedInbox) : Prop where
  /-- Calls leave the inbox ready. -/
  ready : Ready inbox
  /-- The window does not change. -/
  window_eq : inbox.window = window
  /-- Nothing is held. -/
  keys_eq : inbox.buffer.keys = ∅
  /-- The number waited for is the count, up to the top word. -/
  next_eq : inbox.next.toNat = min count (2 ^ 64 - 1)

theorem caughtUp_withWindow (window : UInt64) :
    CaughtUp (max window 1) 0 (withWindow window) where
  ready := ready_withWindow window
  window_eq := rfl
  keys_eq := rfl
  next_eq := rfl

namespace CaughtUp

variable
  {window : UInt64}
  {count : Nat}
  {inbox : OrderedInbox}
  {env : SignalEnvelope}

/-- After an offer nothing but the offered envelope can have been held. -/
theorem eq_of_lookup_holding
    (caughtUp : CaughtUp window count inbox)
    {seq : UInt64}
    {other : SignalEnvelope}
    (found : (inbox.holding env).buffer.lookup seq = some other) :
    other = env := by
  rcases lookup_holding_cases seq other found with found | same
  · have member := Indexed.mem_keys_of_lookup found
    rw [caughtUp.keys_eq] at member
    exact absurd member (Finset.notMem_empty _)
  · cases same
    rfl

theorem seq_eq_next
    (caughtUp : CaughtUp window count inbox)
    (numbered : env.seq.toNat = count) :
    env.seq = inbox.next := by
  apply UInt64.toNat_inj.mp
  have bound := env.seq.toNat_lt
  rw [caughtUp.next_eq]
  omega

/-- The next envelope of the stream is released by its own offer. -/
theorem offer_released
    (caughtUp : CaughtUp window count inbox)
    (numbered : env.seq.toNat = count) :
    (inbox.offer env).1 = [env] := by
  have current := caughtUp.seq_eq_next numbered
  have releases := offer_of_eq caughtUp.ready current
  have released : env ∈ (inbox.offer env).1 := by
    apply releases.drains.next_released
    exact (holding_lookup _ env _).trans (if_pos current.symm)
  have only : ∀ other ∈ (inbox.offer env).1, other = env := fun other member =>
    caughtUp.eq_of_lookup_holding (releases.drains.held other member)
  have ascending := releases.drains.ascending
  revert released only ascending
  cases (inbox.offer env).1 with
  | nil => simp
  | cons first rest =>
      intro _ only ascending
      have firstEq : first = env := only first List.mem_cons_self
      subst firstEq
      cases rest with
      | nil => rfl
      | cons second rest =>
          have secondEq : second = first := only second (by simp)
          have lt := List.rel_of_pairwise_cons ascending
            (show second ∈ second :: rest from List.mem_cons_self)
          rw [secondEq] at lt
          exact absurd lt (lt_irrefl _)

/-- The next envelope of the stream leaves the inbox caught up. -/
theorem offer_caughtUp
    (caughtUp : CaughtUp window count inbox)
    (numbered : env.seq.toNat = count) :
    CaughtUp window (count + 1) (inbox.offer env).2 := by
  have current := caughtUp.seq_eq_next numbered
  have drains := (offer_of_eq caughtUp.ready current).drains
  have released := caughtUp.offer_released numbered
  refine
    { ready := offer_ready caughtUp.ready env
      window_eq := drains.window.trans caughtUp.window_eq
      keys_eq := ?keys
      next_eq := ?next }
  case keys =>
    refine Finset.eq_empty_of_forall_notMem fun seq member => ?_
    obtain ⟨other, found⟩ := Indexed.mem_keys_iff.mp member
    have same := caughtUp.eq_of_lookup_holding (drains.held_before found)
    subst same
    have gone := drains.gone other (by simp [released])
    rw [Indexed.key_of_lookup found, found] at gone
    cases gone
  case next =>
    have succ_le := drains.passed env (by simp [released])
    have next_le : (inbox.offer env).2.next ≤ Order.succ env.seq := by
      by_contra beyond
      rw [not_le] at beyond
      obtain ⟨other, member, same⟩ := drains.contiguous (Order.succ env.seq)
        (current ▸ Order.le_succ env.seq) beyond
      rw [released, List.mem_singleton] at member
      rw [member] at same
      have isMax := Order.succ_le_iff_isMax.mp same.ge
      exact absurd (beyond.trans_le (UInt64.le_maxValue _))
        (by rw [← same, UInt64.isMax_iff_eq_maxValue.mp isMax]; simp)
    rw [le_antisymm next_le succ_le, ← UInt64.saturatingAdd_one,
      UInt64.toNat_saturatingAdd, numbered]
    rfl

/-- After a hole an envelope is held back. -/
theorem offer_held
    (caughtUp : CaughtUp window count inbox)
    (wide : 1 < window.toNat)
    (late : count < env.seq.toNat) :
    (inbox.offer env).1 = [] := by
  have early : inbox.next < env.seq := by
    rw [UInt64.lt_iff_toNat_lt, caughtUp.next_eq]
    omega
  rcases offer_cases caughtUp.ready env with
    ⟨below, _⟩ | ⟨_, _, held⟩ | ⟨floor, releases⟩
  · exact absurd below early.not_gt
  · rw [held]
  · have floorEq : floor = env.seq := by
      have floorHeld := releases.floor_mem
      rw [holding_keys, caughtUp.keys_eq] at floorHeld
      simpa using floorHeld
    have full := releases.full (floorEq ▸ early)
    rw [caughtUp.window_eq] at full
    have few := buffered_holding_le inbox env
    have none : inbox.buffered = 0 :=
      Finset.card_eq_zero.mpr caughtUp.keys_eq
    omega

end CaughtUp

/-- A run of filled slots at the beginning of a numbered stream is released
slot by slot. -/
theorem keeps_up
    (window : UInt64)
    (slots : List (Option SignalEnvelope))
    (numbered : Numbered slots)
    (filled : ∀ slot ∈ slots, slot.isSome) :
    Transducer.outputs receive (withWindow window) slots =
        slots.map Option.toList ∧
      CaughtUp (max window 1) slots.length
        (Transducer.final receive (withWindow window) slots) := by
  induction slots using List.reverseRecOn with
  | nil => exact ⟨rfl, caughtUp_withWindow window⟩
  | append_singleton slots slot inductionHypothesis =>
      obtain ⟨outputs, caughtUp⟩ := inductionHypothesis numbered.left
        fun slot member => filled slot (List.mem_append_left _ member)
      obtain ⟨env, rfl⟩ :=
        Option.isSome_iff_exists.mp (filled slot (by simp))
      rw [Transducer.outputs_concat, Transducer.final_concat, outputs,
        List.map_append, List.length_append]
      refine ⟨?_, caughtUp.offer_caughtUp numbered.middle⟩
      rw [receive, caughtUp.offer_released numbered.middle]
      rfl

/-- Empty slots are answered with nothing and leave an inbox as it is. -/
theorem outputs_of_empty
    (inbox : OrderedInbox)
    (slots : List (Option SignalEnvelope))
    (empty : ∀ slot ∈ slots, ¬slot.isSome) :
    Transducer.outputs receive inbox slots = slots.map Option.toList ∧
      Transducer.final receive inbox slots = inbox := by
  induction slots with
  | nil => exact ⟨rfl, rfl⟩
  | cons slot slots inductionHypothesis =>
      have slotEmpty : slot = none :=
        Option.not_isSome_iff_eq_none.mp (empty slot List.mem_cons_self)
      subst slotEmpty
      obtain ⟨outputs, final⟩ := inductionHypothesis
        fun slot member => empty slot (List.mem_cons_of_mem _ member)
      rw [Transducer.outputs_cons, Transducer.final_cons]
      exact ⟨congrArg (List.cons []) outputs, final⟩

/-- Every filled slot is among the answers to its own offer. -/
def Prompt
    (window : UInt64)
    (slots : List (Option SignalEnvelope)) : Prop :=
  ∀ (index : Nat) (env : SignalEnvelope), slots[index]? = some (some env) →
    ∃ output, (Transducer.outputs receive (withWindow window) slots)[index]? =
      some output ∧ env ∈ output

theorem Prompt.left
    {window : UInt64}
    {slots rest : List (Option SignalEnvelope)}
    (prompt : Prompt window (slots ++ rest)) :
    Prompt window slots := by
  intro index env found
  have lt := (List.getElem?_eq_some_iff.mp found).1
  obtain ⟨output, answered, member⟩ := prompt index env
    (by rwa [List.getElem?_append_left lt])
  rw [Transducer.outputs_append, List.getElem?_append_left
    (by rwa [Transducer.length_outputs])] at answered
  exact ⟨output, answered, member⟩

/-- A stream answered promptly has no filled slot after an empty one. -/
theorem Prompt.split
    {window : UInt64}
    (wide : 1 < (max window 1).toNat)
    {slots : List (Option SignalEnvelope)}
    (numbered : Numbered slots)
    (prompt : Prompt window slots) :
    ∃ present absent, slots = present ++ absent ∧
      (∀ slot ∈ present, slot.isSome) ∧ (∀ slot ∈ absent, ¬slot.isSome) := by
  induction slots using List.reverseRecOn with
  | nil => exact ⟨[], [], rfl, by simp, by simp⟩
  | append_singleton slots slot inductionHypothesis =>
      obtain ⟨present, absent, rfl, filled, empty⟩ :=
        inductionHypothesis numbered.left prompt.left
      cases slot with
      | none =>
          refine ⟨present, absent ++ [none], by simp, filled, ?_⟩
          intro slot member
          rcases List.mem_append.mp member with member | member
          · exact empty slot member
          · simp [List.mem_singleton.mp member]
      | some env =>
          by_cases complete : absent = []
          · subst complete
            refine ⟨present ++ [some env], [], by simp, ?_, by simp⟩
            intro slot member
            rcases List.mem_append.mp member with member | member
            · exact filled slot member
            · simp [List.mem_singleton.mp member]
          · exfalso
            obtain ⟨_, caughtUp⟩ :=
              keeps_up window present numbered.left.left filled
            obtain ⟨_, stays⟩ := outputs_of_empty
              (Transducer.final receive (withWindow window) present) _ empty
            have late : present.length < env.seq.toNat := by
              have longer := List.length_pos_iff.mpr complete
              rw [numbered.middle, List.length_append]
              omega
            obtain ⟨output, answered, member⟩ :=
              prompt (present ++ absent).length env (by simp)
            rw [Transducer.getElem?_outputs_concat, Transducer.final_append,
              stays, receive, caughtUp.offer_held wide late,
              Option.some_inj] at answered
            rw [← answered] at member
            exact absurd member List.not_mem_nil

/-- A list starts with its filled slots exactly when no filled slot follows an
empty one. -/
theorem pairwise_isSome_iff {slots : List (Option α)} :
    (slots.Pairwise fun earlier later => later.isSome → earlier.isSome) ↔
      ∃ present absent, slots = present ++ absent ∧
        (∀ slot ∈ present, slot.isSome) ∧ (∀ slot ∈ absent, ¬slot.isSome) := by
  constructor
  · intro ordered
    induction slots with
    | nil => exact ⟨[], [], rfl, by simp, by simp⟩
    | cons slot slots inductionHypothesis =>
        obtain ⟨first, rest⟩ := List.pairwise_cons.mp ordered
        cases slot with
        | none =>
            refine ⟨[], none :: slots, rfl, by simp, fun slot member => ?_⟩
            rcases List.mem_cons.mp member with rfl | member
            · simp
            · simpa using first slot member
        | some value =>
            obtain ⟨present, absent, rfl, filled, empty⟩ :=
              inductionHypothesis rest
            exact ⟨some value :: present, absent, rfl, by simpa using filled,
              empty⟩
  · rintro ⟨present, absent, rfl, filled, empty⟩
    refine List.pairwise_append.mpr ⟨?_, ?_, ?_⟩
    · exact List.pairwise_iff_forall_sublist.mpr fun sublist _ =>
        filled _ (sublist.subset (by simp))
    · exact List.pairwise_iff_forall_sublist.mpr fun sublist later =>
        absurd later (empty _ (sublist.subset (by simp)))
    · exact fun slot member _ _ _ => filled slot member

theorem flatten_map_toList (slots : List (Option α)) :
    (slots.map Option.toList).flatten = slots.reduceOption := by
  induction slots with
  | nil => rfl
  | cons slot slots inductionHypothesis =>
      cases slot <;> simp [inductionHypothesis]

/-- An inbox answers every envelope of a numbered stream in the call that
offers it exactly when no envelope follows a hole; it has then released the
whole stream in order. -/
theorem prompt_iff
    (window : UInt64)
    (wide : 1 < (max window 1).toNat)
    (slots : List (Option SignalEnvelope))
    (numbered : Numbered slots) :
    (Prompt window slots ∧
        (Transducer.outputs receive (withWindow window) slots).flatten =
          slots.reduceOption) ↔
      slots.Pairwise fun earlier later => later.isSome → earlier.isSome := by
  rw [pairwise_isSome_iff]
  constructor
  · exact fun facts => facts.1.split wide numbered
  · rintro ⟨present, absent, rfl, filled, empty⟩
    obtain ⟨outputs, _⟩ := keeps_up window present numbered.left filled
    have answers :
        Transducer.outputs receive (withWindow window) (present ++ absent) =
          (present ++ absent).map Option.toList := by
      rw [Transducer.outputs_append, outputs, (outputs_of_empty _ _ empty).1,
        List.map_append]
    refine ⟨fun index env found => ⟨[env], ?_, List.mem_singleton_self _⟩, ?_⟩
    · rw [answers, List.getElem?_map, found]
      rfl
    · rw [answers, flatten_map_toList]

end OrderedInbox
end CeMeet
