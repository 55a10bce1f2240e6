import CeMeet.Order.Conservation
import Mathlib.Data.List.Sort
import Mathlib.Order.Bounds.Basic

/-!
# Complete delivery under bounded reordering

As long as less than a window of numbers has arrived beyond the first one that
is missing, no gap is abandoned.  The number waited for is then the first
missing one, and the envelopes below it have been released, each once and in
order.
-/

namespace CeMeet
namespace OrderedInbox

/-- The numbers that have not arrived. -/
def missing (envs : List SignalEnvelope) : Set UInt64 :=
  {seq | ∀ env ∈ envs, env.seq ≠ seq}

/-- The numbers that have arrived beyond a given one. -/
def arrivedBeyond
    (envs : List SignalEnvelope) (first : UInt64) : Finset UInt64 :=
  (envs.map SignalEnvelope.seq).toFinset.filter (first < ·)

theorem mem_arrivedBeyond_iff
    {envs : List SignalEnvelope} {first seq : UInt64} :
    seq ∈ arrivedBeyond envs first ↔
      (∃ env ∈ envs, env.seq = seq) ∧ first < seq := by
  simp [arrivedBeyond]

/-- The envelopes stay below the top number, and at every moment less than a
window of numbers has arrived beyond the first missing one. -/
structure MildlyReordered
    (window : UInt64) (envs : List SignalEnvelope) : Prop where
  belowTop : ∀ env ∈ envs, env.seq < UInt64.maxValue
  fewBeyond : ∀ done rest, envs = done ++ rest →
    ∀ first, IsLeast (missing done) first →
      (arrivedBeyond done first).card < window.toNat

theorem MildlyReordered.of_append
    {window : UInt64}
    {done rest : List SignalEnvelope}
    (mild : MildlyReordered window (done ++ rest)) :
    MildlyReordered window done where
  belowTop := fun env member =>
    mild.belowTop env (List.mem_append_left _ member)
  fewBeyond := by
    rintro earlier later rfl
    exact mild.fewBeyond earlier (later ++ rest) (List.append_assoc ..)

/-- A run shorter than the window is mildly reordered. -/
theorem mildlyReordered_of_length_lt
    {window : UInt64}
    {envs : List SignalEnvelope}
    (belowTop : ∀ env ∈ envs, env.seq < UInt64.maxValue)
    (short : envs.length < window.toNat) :
    MildlyReordered window envs where
  belowTop := belowTop
  fewBeyond := by
    rintro done rest rfl first _
    calc (arrivedBeyond done first).card
        ≤ (done.map SignalEnvelope.seq).toFinset.card :=
          Finset.card_filter_le _ _
      _ ≤ done.length := by
          simpa using (done.map SignalEnvelope.seq).toFinset_card_le
      _ ≤ (done ++ rest).length := by simp
      _ < window.toNat := short

/-- Where the inbox stands after a mildly reordered run. -/
structure Complete (window : UInt64) (envs : List SignalEnvelope) : Prop where
  /-- The first missing number is waited for. -/
  waits : IsLeast (missing envs) (after window (offering envs)).nextExpected
  /-- Every arrival was accepted. -/
  accepted : ∀ env ∈ envs, Accepted window envs env.seq

/-- What is held once an envelope has come has arrived. -/
theorem arrived_of_mem_holding
    {window : UInt64}
    {envs : List SignalEnvelope}
    {env : SignalEnvelope}
    {seq : UInt64}
    (member : seq ∈
      ((after window (offering envs)).holding env).buffer.keys) :
    ∃ other ∈ envs ++ [env], other.seq = seq := by
  rw [holding_keys, Finset.mem_insert] at member
  rcases member with rfl | member
  · exact ⟨env, by simp, rfl⟩
  · obtain ⟨other, found⟩ := Indexed.mem_keys_iff.mp member
    have offered :=
      (traced_released window (offering envs)).heldOffered seq other found
    exact ⟨other, List.mem_append_left _ (offer_mem_offering.mp offered),
      Indexed.key_of_lookup found⟩

/-- The first missing number is still the first after an envelope with another
number. -/
theorem isLeast_missing_concat
    {envs : List SignalEnvelope}
    {env : SignalEnvelope}
    {first : UInt64}
    (least : IsLeast (missing envs) first)
    (another : env.seq ≠ first) :
    IsLeast (missing (envs ++ [env])) first := by
  constructor
  · intro other member
    rcases List.mem_append.mp member with earlier | current
    · exact least.1 other earlier
    · rw [List.mem_singleton] at current
      exact current ▸ another
  · intro other otherMissing
    exact least.2 fun earlier member =>
      otherMissing earlier (List.mem_append_left _ member)

/-- A mildly reordered arrival abandons no gap: a release starts at the number
waited for. -/
theorem Complete.floor_le_next
    {window : UInt64}
    {envs : List SignalEnvelope}
    {env : SignalEnvelope}
    (complete : Complete window envs)
    (mild : MildlyReordered window (envs ++ [env]))
    {floor : UInt64}
    (releases : Releases (after window (offering envs)) env floor) :
    floor ≤ (after window (offering envs)).nextExpected := by
  by_contra behind
  have jumps := not_le.mp behind
  have envAhead := jumps.trans_le (releases.floor_le env.seq (by simp))
  have few := mild.fewBeyond _ [] (List.append_nil _).symm _
    (isLeast_missing_concat complete.waits envAhead.ne')
  have beyond : ((after window (offering envs)).holding env).buffer.keys ⊆
      arrivedBeyond (envs ++ [env])
        (after window (offering envs)).nextExpected := by
    intro seq member
    exact mem_arrivedBeyond_iff.mpr ⟨arrived_of_mem_holding member,
      jumps.trans_le (releases.floor_le seq member)⟩
  have full := (releases.full jumps).trans (Finset.card_le_card beyond)
  have windowLe : window.toNat ≤ (max window 1).toNat :=
    UInt64.le_iff_toNat_le.mp (le_max_left window 1)
  rw [(bounded_after window (offering envs)).window_eq] at full
  omega

/-- A number a mildly reordered arrival moves past has arrived. -/
theorem Complete.arrived_of_lt
    {window : UInt64}
    {envs : List SignalEnvelope}
    {env : SignalEnvelope}
    (complete : Complete window envs)
    (mild : MildlyReordered window (envs ++ [env]))
    {seq : UInt64}
    (passed : seq < (after window (offering (envs ++ [env]))).nextExpected) :
    ∃ other ∈ envs ++ [env], other.seq = seq := by
  have ready := (bounded_after window (offering envs)).ready
  by_contra notArrived
  push Not at notArrived
  have notBehind := complete.waits.2 fun other member =>
    notArrived other (List.mem_append_left _ member)
  rw [offering_concat, after_concat] at passed
  change seq < ((after window (offering envs)).offer env).2.next at passed
  rcases offer_cases ready env with
    ⟨_, same⟩ | ⟨_, _, held⟩ | ⟨floor, releases⟩
  · rw [same] at passed
    exact absurd passed (not_lt.mpr notBehind)
  · rw [held] at passed
    exact absurd passed (not_lt.mpr notBehind)
  · have fromFloor := (complete.floor_le_next mild releases).trans notBehind
    obtain ⟨other, member, rfl⟩ :=
      releases.drains.contiguous seq fromFloor passed
    obtain ⟨arrived, present, same⟩ := arrived_of_mem_holding
      (Indexed.mem_keys_of_lookup (releases.drains.held other member))
    exact notArrived arrived present same

theorem complete_of_mildlyReordered
    {window : UInt64}
    {envs : List SignalEnvelope}
    (mild : MildlyReordered window envs) :
    Complete window envs := by
  induction envs using List.reverseRecOn with
  | nil =>
      exact
        { waits := ⟨by simp [missing], fun _ _ => UInt64.zero_le⟩
          accepted := by simp }
  | append_singleton envs env inductionHypothesis =>
      have complete := inductionHypothesis mild.of_append
      have traced := traced_released window (offering (envs ++ [env]))
      have accepted : ∀ other ∈ envs ++ [env],
          Accepted window (envs ++ [env]) other.seq := by
        intro other member
        rw [accepted_concat_iff]
        by_cases earlier : ∃ before ∈ envs, before.seq = other.seq
        · obtain ⟨before, present, same⟩ := earlier
          exact Or.inl (same ▸ complete.accepted before present)
        · push Not at earlier
          rcases List.mem_append.mp member with present | current
          · exact absurd rfl (earlier other present)
          · rw [List.mem_singleton] at current
            subst current
            exact Or.inr ⟨rfl, complete.waits.2 earlier⟩
      refine
        { waits := ⟨fun other member same => ?_, fun seq seqMissing => ?_⟩
          accepted := accepted }
      · have notMax := (mild.belowTop other member).not_isMax
        rcases (released_or_held_iff_accepted _ _ _).mpr
            (accepted other member) with ⟨released, done, sameSeq⟩ | held
        · have passed := traced.passed released done
          rw [sameSeq] at passed
          exact absurd (Order.lt_succ_of_not_isMax notMax)
            (not_lt.mpr (passed.trans same.ge))
        · exact absurd same (traced.ready.ahead other.seq held).ne'
      · by_contra passed
        obtain ⟨other, member, same⟩ :=
          complete.arrived_of_lt mild (not_le.mp passed)
        exact seqMissing other member same

/-- Released are exactly the numbers below the first missing one. -/
theorem Complete.released_iff
    {window : UInt64}
    {envs : List SignalEnvelope}
    (complete : Complete window envs)
    (belowTop : ∀ env ∈ envs, env.seq < UInt64.maxValue)
    (seq : UInt64) :
    (∃ env ∈ released window (offering envs), env.seq = seq) ↔
      seq < (after window (offering envs)).nextExpected := by
  have traced := traced_released window (offering envs)
  constructor
  · rintro ⟨env, member, rfl⟩
    have present := offer_mem_offering.mp (traced.offered env member)
    have notMax := (belowTop env present).not_isMax
    exact (Order.lt_succ_of_not_isMax notMax).trans_le
      (traced.passed env member)
  · intro passed
    have arrived : ∃ env ∈ envs, env.seq = seq := by
      by_contra notArrived
      push Not at notArrived
      exact absurd passed (not_lt.mpr (complete.waits.2 notArrived))
    obtain ⟨env, present, rfl⟩ := arrived
    rcases (released_or_held_iff_accepted _ _ _).mpr
        (complete.accepted env present) with done | held
    · exact done
    · exact absurd passed (traced.ready.ahead env.seq held).not_gt

/-- Below the top number, a run of offers releases each number once. -/
theorem released_ascending
    {window : UInt64}
    {envs : List SignalEnvelope}
    (belowTop : ∀ env ∈ envs, env.seq < UInt64.maxValue) :
    (released window (offering envs)).Pairwise
      fun earlier later => earlier.seq < later.seq := by
  apply ascending_of_holdsTopOnRepeat
  intro before env after splitCalls atTop _
  have present : env ∈ envs := by
    rw [← offer_mem_offering, splitCalls]
    simp
  exact absurd atTop (belowTop env present).ne

/-- The released numbers are those below the first missing one. -/
theorem Complete.numbers
    {window : UInt64}
    {envs : List SignalEnvelope}
    (complete : Complete window envs)
    (belowTop : ∀ env ∈ envs, env.seq < UInt64.maxValue) :
    (released window (offering envs)).map (fun env => env.seq.toNat) =
      List.range (after window (offering envs)).nextExpected.toNat := by
  refine List.Pairwise.eq_of_mem_iff ?_
    List.pairwise_lt_range fun number => ?_
  · rw [List.pairwise_map]
    exact (released_ascending belowTop).imp UInt64.lt_iff_toNat_lt.mp
  · rw [List.mem_range, List.mem_map]
    constructor
    · rintro ⟨env, member, rfl⟩
      exact UInt64.lt_iff_toNat_lt.mp
        ((complete.released_iff belowTop _).mp ⟨env, member, rfl⟩)
    · intro below
      have inRange := below.trans (UInt64.toNat_lt _)
      have back : (UInt64.ofNat number).toNat = number :=
        UInt64.toNat_ofNat_of_lt' inRange
      obtain ⟨env, member, same⟩ :=
        (complete.released_iff belowTop (UInt64.ofNat number)).mpr
          (UInt64.lt_iff_toNat_lt.mpr (back.symm ▸ below))
      exact ⟨env, member, by rw [same, back]⟩

/-- After every prefix of a mildly reordered run, what has been released is the
envelopes below the first missing number, each once and in order. -/
theorem delivers_in_order
    {window : UInt64}
    {envs : List SignalEnvelope}
    {sent : Nat → SignalEnvelope}
    (copies : ∀ env ∈ envs, env = sent env.seq.toNat)
    (mild : MildlyReordered window envs)
    {done rest : List SignalEnvelope}
    (split : envs = done ++ rest) :
    ∃ first, IsLeast (missing done) first ∧
      released window (offering done) =
        (List.range first.toNat).map sent := by
  subst split
  have mildDone := mild.of_append
  have complete := complete_of_mildlyReordered mildDone
  have traced := traced_released window (offering done)
  refine ⟨_, complete.waits, ?_⟩
  have offered : ∀ env ∈ released window (offering done), env ∈ done :=
    fun env member => offer_mem_offering.mp (traced.offered env member)
  calc released window (offering done)
      = (released window (offering done)).map
          (fun env => sent env.seq.toNat) := by
        refine (List.map_id _).symm.trans (List.map_congr_left ?_)
        exact fun env member =>
          copies env (List.mem_append_left _ (offered env member))
    _ = _ := by
        rw [← complete.numbers mildDone.belowTop, List.map_map]
        rfl

/-- A candidate under a given number. -/
def numberedCandidate (number : Nat) : SignalEnvelope :=
  { topCandidate with seq := UInt64.ofNat number }

/-- Candidates 2, 0, 0, 1 arrive with a gap and a duplicate, and are released
as 0, 1, 2. -/
theorem delivers_in_order_candidates :
    ∃ first,
      IsLeast (missing ([2, 0, 0, 1].map numberedCandidate)) first ∧
        released 64 (offering ([2, 0, 0, 1].map numberedCandidate)) =
          (List.range first.toNat).map numberedCandidate :=
  delivers_in_order (by decide)
    (mildlyReordered_of_length_lt (by decide) (by decide))
    (List.append_nil _).symm

end OrderedInbox
end CeMeet
