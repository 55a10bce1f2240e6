import CeMeet.Order.Progress

/-!
# An inbox loses nothing it accepted

An offer that is not behind the number waited for is accepted.  What has been
accepted is released or still held, never both, and the numbers an offer gives
up on are numbers that have not been offered.
-/

namespace CeMeet
namespace OrderedInbox

/-- What a drain finds held it releases or still holds. -/
theorem Drains.released_or_mem_keys_iff
    {inbox rest : OrderedInbox}
    {released : List SignalEnvelope}
    (drains : Drains inbox released rest)
    (seq : UInt64) :
    (∃ env ∈ released, env.seq = seq) ∨ seq ∈ rest.buffer.keys ↔
      seq ∈ inbox.buffer.keys := by
  constructor
  · rintro (⟨env, member, rfl⟩ | member)
    · exact Indexed.mem_keys_of_lookup (drains.held env member)
    · exact drains.keys_subset member
  · intro member
    obtain ⟨env, found⟩ := Indexed.mem_keys_iff.mp member
    obtain rfl := Indexed.key_of_lookup found
    rcases drains.released_or_held found with done | held
    · exact Or.inl ⟨env, done, rfl⟩
    · exact Or.inr (Indexed.mem_keys_of_lookup held)

/-- After an offer, released or held is what was held before and the number
offered, unless that was behind. -/
theorem offer_conserves
    {inbox : OrderedInbox}
    (ready : Ready inbox)
    (env : SignalEnvelope)
    (seq : UInt64) :
    (∃ other ∈ (inbox.offer env).1, other.seq = seq) ∨
        seq ∈ (inbox.offer env).2.buffer.keys ↔
      seq ∈ inbox.buffer.keys ∨ env.seq = seq ∧ inbox.next ≤ seq := by
  rcases offer_cases ready env with
    ⟨passed, same⟩ | ⟨early, _, held⟩ | ⟨floor, releases⟩
  · rw [same]
    constructor
    · rintro (⟨other, member, _⟩ | member)
      · cases member
      · exact Or.inl member
    · rintro (member | ⟨rfl, notBehind⟩)
      · exact Or.inr member
      · exact absurd passed (not_lt.mpr notBehind)
  · rw [held, holding_keys, Finset.mem_insert]
    constructor
    · rintro (⟨other, member, _⟩ | rfl | member)
      · cases member
      · exact Or.inr ⟨rfl, early.le⟩
      · exact Or.inl member
    · rintro (member | ⟨rfl, _⟩)
      · exact Or.inr (Or.inr member)
      · exact Or.inr (Or.inl rfl)
  · rw [releases.drains.released_or_mem_keys_iff]
    change seq ∈ (inbox.holding env).buffer.keys ↔ _
    have envHeld : env.seq ∈ (inbox.holding env).buffer.keys := by simp
    have notBehind : inbox.next ≤ env.seq :=
      releases.next_le.trans (releases.floor_le env.seq envHeld)
    rw [holding_keys, Finset.mem_insert]
    constructor
    · rintro (rfl | member)
      · exact Or.inr ⟨rfl, notBehind⟩
      · exact Or.inl member
    · rintro (member | ⟨rfl, _⟩)
      · exact Or.inr member
      · exact Or.inl rfl

/-- The calls that offer the envelopes of a list. -/
def offering (envs : List SignalEnvelope) : List Call :=
  envs.map .offer

@[simp] theorem offering_nil : offering [] = [] := rfl

@[simp] theorem offering_concat
    (envs : List SignalEnvelope) (env : SignalEnvelope) :
    offering (envs ++ [env]) = offering envs ++ [.offer env] :=
  List.map_append

@[simp] theorem offer_mem_offering
    {envs : List SignalEnvelope} {env : SignalEnvelope} :
    Call.offer env ∈ offering envs ↔ env ∈ envs := by
  simp [offering]

/-- A number was offered when the inbox was not yet past it. -/
def Accepted
    (window : UInt64) (envs : List SignalEnvelope) (seq : UInt64) : Prop :=
  ∃ done env rest, envs = done ++ env :: rest ∧ env.seq = seq ∧
    (after window (offering done)).nextExpected ≤ seq

theorem not_accepted_nil (window seq : UInt64) :
    ¬Accepted window [] seq := by
  rintro ⟨done, env, rest, split, _⟩
  exact List.append_ne_nil_of_right_ne_nil done (List.cons_ne_nil env rest)
    split.symm

theorem accepted_concat_iff
    (window : UInt64)
    (envs : List SignalEnvelope)
    (env : SignalEnvelope)
    (seq : UInt64) :
    Accepted window (envs ++ [env]) seq ↔
      Accepted window envs seq ∨
        env.seq = seq ∧
          (after window (offering envs)).nextExpected ≤ seq := by
  constructor
  · rintro ⟨done, other, rest, split, same, notBehind⟩
    rcases List.eq_nil_or_concat' rest with rfl | ⟨rest, last, rfl⟩
    · obtain ⟨rfl, sameEnv⟩ := List.append_inj' split rfl
      cases sameEnv
      exact Or.inr ⟨same, notBehind⟩
    · rw [← List.cons_append, ← List.append_assoc] at split
      obtain ⟨rfl, _⟩ := List.append_inj' split rfl
      exact Or.inl ⟨done, other, rest, rfl, same, notBehind⟩
  · rintro (⟨done, other, rest, rfl, same, notBehind⟩ | ⟨same, notBehind⟩)
    · exact ⟨done, other, rest ++ [env], by simp, same, notBehind⟩
    · exact ⟨envs, env, [], rfl, same, notBehind⟩

/-- Released or held is what was accepted. -/
theorem released_or_held_iff_accepted
    (window : UInt64)
    (envs : List SignalEnvelope)
    (seq : UInt64) :
    (∃ env ∈ released window (offering envs), env.seq = seq) ∨
        seq ∈ (after window (offering envs)).buffer.keys ↔
      Accepted window envs seq := by
  induction envs using List.reverseRecOn with
  | nil => simp [not_accepted_nil, released, after, withWindow]
  | append_singleton envs env inductionHypothesis =>
      have ready := (traced_released window (offering envs)).ready
      rw [accepted_concat_iff, ← inductionHypothesis, or_assoc, nextExpected,
        ← offer_conserves ready, offering_concat, released_concat,
        after_concat]
      simp only [List.mem_append, or_and_right, exists_or, or_assoc]
      rfl

/-- A released number is not held. -/
theorem Traced.notMem_keys
    {calls : List Call}
    {out : List SignalEnvelope}
    {inbox : OrderedInbox}
    (traced : Traced calls out inbox)
    {env : SignalEnvelope}
    (member : env ∈ out) :
    env.seq ∉ inbox.buffer.keys := by
  intro held
  have seq_lt := ((Order.le_succ env.seq).trans (traced.passed env member)).trans_lt
    (traced.ready.ahead env.seq held)
  exact lt_irrefl _ seq_lt

/-- The number waited for does not go back along further calls. -/
theorem nextExpected_le_after_append
    (window : UInt64) (done rest : List Call) :
    (after window done).nextExpected ≤
      (after window (done ++ rest)).nextExpected := by
  induction rest using List.reverseRecOn with
  | nil => rw [List.append_nil]
  | append_singleton rest action inductionHypothesis =>
      rw [← List.append_assoc, after_concat]
      have ready := (traced_released window (done ++ rest)).ready
      exact inductionHypothesis.trans (call_answers ready action).next_le

/-- An offered number that is not behind the inbox is held. -/
theorem mem_keys_of_offered
    {window seq : UInt64}
    {envs : List SignalEnvelope}
    {env : SignalEnvelope}
    (offered : env ∈ envs)
    (same : env.seq = seq)
    (notBehind : (after window (offering envs)).nextExpected ≤ seq)
    (notTop : seq < UInt64.maxValue) :
    seq ∈ (after window (offering envs)).buffer.keys := by
  obtain ⟨done, rest, rfl⟩ := List.append_of_mem offered
  have earlier := nextExpected_le_after_append window (offering done)
    (offering (env :: rest))
  rw [offering, offering, ← List.map_append] at earlier
  have accepted : Accepted window (done ++ env :: rest) seq :=
    ⟨done, env, rest, rfl, same, earlier.trans notBehind⟩
  rcases (released_or_held_iff_accepted _ _ _).mpr accepted with
    ⟨other, member, rfl⟩ | held
  · have passed := ((traced_released _ _).passed other member).trans notBehind
    exact absurd passed
      (not_le.mpr (Order.lt_succ_of_not_isMax notTop.not_isMax))
  · exact held

/-- Over every list of offers the released and the held numbers are together
the accepted ones, none is both, and a number a further offer moves past
without releasing it has not been offered. -/
theorem offers_conserved (window : UInt64) (envs : List SignalEnvelope) :
    (∀ seq,
        (∃ env ∈ released window (offering envs), env.seq = seq) ∨
            seq ∈ (after window (offering envs)).buffer.keys ↔
          Accepted window envs seq) ∧
      (∀ env ∈ released window (offering envs),
        env.seq ∉ (after window (offering envs)).buffer.keys) ∧
      ∀ env seq,
        (after window (offering envs)).nextExpected ≤ seq →
        seq < (after window (offering (envs ++ [env]))).nextExpected →
        (∀ other ∈ ((after window (offering envs)).offer env).1,
          other.seq ≠ seq) →
        ∀ other ∈ envs ++ [env], other.seq ≠ seq := by
  have traced := traced_released window (offering envs)
  refine ⟨released_or_held_iff_accepted window envs,
    fun env member => traced.notMem_keys member, ?_⟩
  intro env seq notBehind abandoned notReleased other offered same
  rw [offering_concat, after_concat] at abandoned
  have known : seq ∈ (after window (offering envs)).buffer.keys ∨
      env.seq = seq ∧ (after window (offering envs)).next ≤ seq := by
    rcases List.mem_append.mp offered with earlier | current
    · refine Or.inl (mem_keys_of_offered earlier same notBehind ?_)
      exact abandoned.trans_le (UInt64.le_maxValue _)
    · rw [List.mem_singleton] at current
      subst current
      exact Or.inr ⟨same, notBehind⟩
  rcases (offer_conserves traced.ready env seq).mpr known with
    ⟨released, member, sameSeq⟩ | held
  · exact notReleased released member sameSeq
  · have ahead := (offer_ready traced.ready env).ahead seq held
    exact lt_asymm abandoned ahead

end OrderedInbox
end CeMeet
