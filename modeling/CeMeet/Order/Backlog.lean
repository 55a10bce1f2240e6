import CeMeet.Order.Reordering

/-!
# The backlog of an inbox

An inbox that is fed in order accepts everything, and has released all of it, in
that order, but less than a window that it still holds.
-/

namespace CeMeet

namespace SignalEnvelope

/-! ## Ascending lists -/

variable {envs : List SignalEnvelope}

/-- In an ascending list a number stands for one envelope. -/
theorem eq_of_seq_eq
    (ascends : envs.Pairwise fun earlier later => earlier.seq < later.seq)
    {left right : SignalEnvelope}
    (leftMember : left ∈ envs) (rightMember : right ∈ envs)
    (sameSeq : left.seq = right.seq) :
    left = right := by
  have distinct : (envs.map SignalEnvelope.seq).Nodup :=
    List.pairwise_map.mpr (ascends.imp fun before => before.ne)
  exact List.inj_on_of_nodup_map distinct leftMember rightMember sameSeq

/-- An ascending list of members of an ascending list is a sublist of it. -/
theorem sublist_of_ascending {left right : List SignalEnvelope}
    (leftAscends : left.Pairwise fun earlier later => earlier.seq < later.seq)
    (rightAscends : right.Pairwise fun earlier later => earlier.seq < later.seq)
    (subset : left ⊆ right) :
    left.Sublist right := by
  have asymmetric : Std.Antisymm
      fun earlier later : SignalEnvelope => earlier.seq < later.seq :=
    ⟨fun _ _ before after => absurd after before.asymm⟩
  have distinct : left.Nodup := leftAscends.imp fun before same => by
    rw [same] at before
    exact lt_irrefl _ before
  exact List.sublist_of_subperm_of_pairwise
    (List.subperm_of_subset distinct subset) leftAscends rightAscends

/-- An ascending list is split by any number. -/
theorem filter_append_filter
    (ascends : envs.Pairwise fun earlier later => earlier.seq < later.seq)
    (seq : UInt64) :
    envs = (envs.filter fun env => decide (env.seq < seq)) ++
      envs.filter fun env => decide (seq ≤ env.seq) := by
  induction envs with
  | nil => rfl
  | cons env envs inductionHypothesis =>
      obtain ⟨first, rest⟩ := List.pairwise_cons.mp ascends
      have split := inductionHypothesis rest
      rw [List.filter_cons, List.filter_cons]
      by_cases below : env.seq < seq
      · rw [if_pos (decide_eq_true below),
          if_neg fun above => (of_decide_eq_true above).not_gt below,
          List.cons_append, ← split]
      · have nothing : (envs.filter fun other => decide (other.seq < seq)) =
            [] :=
          List.filter_eq_nil_iff.mpr fun other member before =>
            below ((first other member).trans (of_decide_eq_true before))
        rw [nothing, List.nil_append] at split
        rw [if_neg fun before => below (of_decide_eq_true before),
          if_pos (decide_eq_true (not_lt.mp below)), nothing, List.nil_append,
          ← split]

end SignalEnvelope

namespace OrderedInbox

/-- An inbox does not wait for a number that is above everything offered. -/
theorem next_le_of_above
    (window : UInt64) {envs : List SignalEnvelope} {seq : UInt64}
    (above : ∀ env ∈ envs, env.seq < seq) :
    (after window (offering envs)).next ≤ seq := by
  induction envs using List.reverseRecOn with
  | nil => exact Nat.zero_le _
  | append_singleton envs env inductionHypothesis =>
      have earlier := inductionHypothesis fun other member =>
        above other (List.mem_append_left _ member)
      have ready := (traced_released window (offering envs)).ready
      rw [offering_concat, after_concat]
      change ((after window (offering envs)).offer env).2.next ≤ seq
      rcases offer_cases ready env with
        ⟨_, same⟩ | ⟨_, _, held⟩ | ⟨floor, releases⟩
      · rw [same]
        exact earlier
      · rw [held]
        exact earlier
      · have notHeld : ∀ number ∈
            ((after window (offering envs)).holding env).buffer.keys,
            number < seq := by
          intro number member
          obtain ⟨other, offered, rfl⟩ := arrived_of_mem_holding member
          exact above other offered
        by_contra passed
        obtain ⟨other, released, sameSeq⟩ := releases.drains.contiguous seq
          (notHeld floor releases.floor_mem).le (not_le.mp passed)
        have held := Indexed.mem_keys_of_lookup
          (releases.drains.held other released)
        exact lt_irrefl _ (sameSeq ▸ notHeld other.seq held)

/-- An inbox that is fed in order accepts everything. -/
theorem accepted_of_ascending
    (window : UInt64) {envs : List SignalEnvelope}
    (ascends : envs.Pairwise fun earlier later => earlier.seq < later.seq)
    {env : SignalEnvelope} (member : env ∈ envs) :
    Accepted window envs env.seq := by
  obtain ⟨done, rest, rfl⟩ := List.append_of_mem member
  have before := (List.pairwise_append.mp ascends).2.2
  exact ⟨done, env, rest, rfl, rfl, next_le_of_above window
    fun other earlier => before other earlier env List.mem_cons_self⟩

/-- It has released what is below the number waited for. -/
theorem released_of_ascending
    (window : UInt64) {envs : List SignalEnvelope}
    (ascends : envs.Pairwise fun earlier later => earlier.seq < later.seq)
    (belowTop : ∀ env ∈ envs, env.seq < UInt64.maxValue) :
    released window (offering envs) = envs.filter fun env =>
      decide (env.seq < (after window (offering envs)).next) := by
  have traced := traced_released window (offering envs)
  refine List.Pairwise.eq_of_mem_iff (released_ascending belowTop)
    (ascends.filter _) fun env => ?_
  rw [List.mem_filter, decide_eq_true_iff]
  constructor
  · intro isReleased
    have present := offer_mem_offering.mp (traced.offered env isReleased)
    have notMax := (belowTop env present).not_isMax
    exact ⟨present, (Order.lt_succ_of_not_isMax notMax).trans_le
      (traced.passed env isReleased)⟩
  · rintro ⟨present, passed⟩
    rcases (released_or_held_iff_accepted _ _ _).mpr
        (accepted_of_ascending window ascends present) with
      ⟨other, isReleased, same⟩ | held
    · have offered := offer_mem_offering.mp (traced.offered other isReleased)
      rwa [← SignalEnvelope.eq_of_seq_eq ascends offered present same]
    · exact absurd passed (traced.ready.ahead env.seq held).not_gt

/-- An inbox that is fed in order has released everything but less than a
window. -/
theorem released_append_backlog
    (window : UInt64) {envs : List SignalEnvelope}
    (ascends : envs.Pairwise fun earlier later => earlier.seq < later.seq)
    (belowTop : ∀ env ∈ envs, env.seq < UInt64.maxValue) :
    ∃ backlog, envs = released window (offering envs) ++ backlog ∧
      backlog.length < (max window 1).toNat := by
  let next := (after window (offering envs)).next
  refine ⟨envs.filter fun env => decide (next ≤ env.seq), ?_, ?_⟩
  · rw [released_of_ascending window ascends belowTop]
    exact SignalEnvelope.filter_append_filter ascends next
  · obtain ⟨ready, sameWindow⟩ := bounded_after window (offering envs)
    have held : (((envs.filter fun env => decide (next ≤ env.seq)).map
        SignalEnvelope.seq).toFinset) ⊆
          (after window (offering envs)).buffer.keys := by
      intro seq member
      obtain ⟨env, kept, rfl⟩ := List.mem_map.mp (List.mem_toFinset.mp member)
      obtain ⟨present, notBehind⟩ := List.mem_filter.mp kept
      exact mem_keys_of_offered present rfl (of_decide_eq_true notBehind)
        (belowTop env present)
    have distinct : ((envs.filter fun env =>
        decide (next ≤ env.seq)).map SignalEnvelope.seq).Nodup :=
      List.pairwise_map.mpr ((ascends.filter _).imp fun before => before.ne)
    have counted := Finset.card_le_card held
    rw [List.toFinset_card_of_nodup distinct, List.length_map] at counted
    rw [← sameWindow]
    exact counted.trans_lt ready.room

end OrderedInbox
end CeMeet
