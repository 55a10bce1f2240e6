import CeMeet.Order.Inbox

/-!
# The output of an inbox ascends below the top word

Every envelope an inbox releases was offered to it, and the released sequence
numbers ascend strictly as long as the successor of the last one is greater.
At the top word the counter saturates: the number waited for stays at the top
after it has been released, so that a repeat of the top number is released
again.  The runs in which this does not happen are characterized exactly.
-/

namespace CeMeet
namespace OrderedInbox

/-- Everything a fresh inbox has released over a list of calls. -/
def released (window : UInt64) (calls : List Call) : List SignalEnvelope :=
  (Transducer.outputs call (withWindow window) calls).flatten

/-- The inbox after a list of calls. -/
def after (window : UInt64) (calls : List Call) : OrderedInbox :=
  Transducer.final call (withWindow window) calls

theorem released_append (window : UInt64) (done rest : List Call) :
    released window (done ++ rest) =
      released window done ++
        (Transducer.outputs call (after window done) rest).flatten := by
  simp [released, after, Transducer.outputs_append]

theorem released_concat (window : UInt64) (done : List Call) (action : Call) :
    released window (done ++ [action]) =
      released window done ++ ((after window done).call action).1 := by
  simp [released_append]

/-- How the released envelopes and the inbox relate to the calls made. -/
structure Traced
    (calls : List Call)
    (out : List SignalEnvelope)
    (inbox : OrderedInbox) : Prop where
  /-- Calls leave the inbox ready. -/
  ready : Ready inbox
  /-- Everything released was offered. -/
  offered : ∀ env ∈ out, Call.offer env ∈ calls
  /-- Everything held was offered. -/
  heldOffered : ∀ seq env, inbox.buffer.lookup seq = some env →
    Call.offer env ∈ calls
  /-- The number waited for is past everything released. -/
  passed : ∀ env ∈ out, Order.succ env.seq ≤ inbox.next
  /-- An offer of the top number is still held or has been released. -/
  top : ∀ env, Call.offer env ∈ calls → env.seq = UInt64.maxValue →
    UInt64.maxValue ∈ inbox.buffer.keys ∨
      ∃ other ∈ out, other.seq = UInt64.maxValue

/-- One more call keeps the trace. -/
theorem Traced.step
    {calls : List Call}
    {out : List SignalEnvelope}
    {inbox : OrderedInbox}
    (traced : Traced calls out inbox)
    (action : Call) :
    Traced (calls ++ [action]) (out ++ (inbox.call action).1)
      (inbox.call action).2 := by
  have answers := call_answers traced.ready action
  have known : ∀ seq env,
      inbox.buffer.lookup seq = some env ∨ action = .offer env →
      Call.offer env ∈ calls ++ [action] := by
    rintro seq env (found | rfl)
    · exact List.mem_append_left _ (traced.heldOffered seq env found)
    · exact List.mem_append_right _ (List.mem_singleton_self _)
  refine
    { ready := call_ready traced.ready action
      offered := ?offered
      heldOffered := fun seq env found =>
        known seq env (answers.stillHeld seq env found)
      passed := ?passed
      top := ?top }
  case offered =>
    intro env member
    rcases List.mem_append.mp member with member | member
    · exact List.mem_append_left _ (traced.offered env member)
    · exact known env.seq env (answers.source env member)
  case passed =>
    intro env member
    rcases List.mem_append.mp member with member | member
    · exact (traced.passed env member).trans answers.next_le
    · exact answers.passed env member
  case top =>
    intro env member atTop
    have heldOrReleased :
        (UInt64.maxValue ∈ inbox.buffer.keys ∨
          ∃ other, action = .offer other ∧ other.seq = UInt64.maxValue) ∨
        ∃ other ∈ out, other.seq = UInt64.maxValue := by
      rcases List.mem_append.mp member with member | member
      · rcases traced.top env member atTop with held | done
        · exact Or.inl (Or.inl held)
        · exact Or.inr done
      · rw [List.mem_singleton] at member
        exact Or.inl (Or.inr ⟨env, member.symm, atTop⟩)
    rcases heldOrReleased with here | ⟨other, present, same⟩
    · rcases answers.conserved _ here with below | held | ⟨other, present, same⟩
      · exact absurd below (not_lt.mpr (UInt64.le_maxValue _))
      · exact Or.inl held
      · exact Or.inr ⟨other, List.mem_append_right _ present, same⟩
    · exact Or.inr ⟨other, List.mem_append_left _ present, same⟩

theorem traced_released (window : UInt64) (calls : List Call) :
    Traced calls (released window calls) (after window calls) := by
  refine Transducer.history_induction
    (motive := fun calls outputs inbox => Traced calls outputs.flatten inbox)
    calls ?_ ?_
  · exact
      { ready := ready_withWindow window
        offered := by simp
        heldOffered := by simp [withWindow]
        passed := by simp
        top := by simp }
  · intro done action rest _ traced
    rw [List.flatten_append, List.flatten_singleton]
    exact traced.step action

/-- Whenever the top number is offered again, an earlier envelope with it is
still held. -/
def HoldsTopOnRepeat (window : UInt64) (calls : List Call) : Prop :=
  ∀ done env rest, calls = done ++ .offer env :: rest →
    env.seq = UInt64.maxValue →
    (∃ earlier, Call.offer earlier ∈ done ∧ earlier.seq = UInt64.maxValue) →
    UInt64.maxValue ∈ (after window done).buffer.keys

/-- After a release at the top nothing is held. -/
theorem Traced.lookup_eq_none_of_top
    {calls : List Call}
    {out : List SignalEnvelope}
    {inbox : OrderedInbox}
    (traced : Traced calls out inbox)
    {env : SignalEnvelope}
    (member : env ∈ out)
    (atTop : env.seq = UInt64.maxValue)
    (seq : UInt64) :
    inbox.buffer.lookup seq = none := by
  refine Indexed.notMem_keys_iff.mp fun held => ?_
  have next_lt := traced.ready.ahead seq held
  have seq_lt := (Order.le_succ env.seq).trans_lt
    ((traced.passed env member).trans_lt next_lt)
  rw [atTop] at seq_lt
  exact absurd seq_lt (not_lt.mpr (UInt64.le_maxValue seq))

/-- What a call releases is above everything released before, unless it repeats
the top number. -/
theorem Traced.released_above
    {calls : List Call}
    {out : List SignalEnvelope}
    {inbox : OrderedInbox}
    (traced : Traced calls out inbox)
    {action : Call}
    (noRepeat : ∀ env, action = .offer env → env.seq = UInt64.maxValue →
      (∃ earlier, Call.offer earlier ∈ calls ∧
        earlier.seq = UInt64.maxValue) →
      UInt64.maxValue ∈ inbox.buffer.keys)
    {earlier later : SignalEnvelope}
    (earlierReleased : earlier ∈ out)
    (laterReleased : later ∈ (inbox.call action).1) :
    earlier.seq < later.seq := by
  have answers := call_answers traced.ready action
  have succ_le : Order.succ earlier.seq ≤ later.seq :=
    (traced.passed earlier earlierReleased).trans
      (answers.notBefore later laterReleased)
  by_cases atTop : earlier.seq = UInt64.maxValue
  · exfalso
    have notHeld := traced.lookup_eq_none_of_top earlierReleased atTop
    have laterTop : later.seq = UInt64.maxValue := by
      refine le_antisymm (UInt64.le_maxValue _) ?_
      rw [← atTop]
      exact (Order.le_succ _).trans succ_le
    rcases answers.source later laterReleased with found | offered
    · rw [notHeld] at found
      cases found
    · have held := noRepeat later offered laterTop
        ⟨earlier, traced.offered earlier earlierReleased, atTop⟩
      exact Indexed.notMem_keys_iff.mpr (notHeld _) held
  · refine lt_of_lt_of_le (Order.lt_succ_of_not_isMax fun isMax => ?_) succ_le
    exact atTop (UInt64.isMax_iff_eq_maxValue.mp isMax)

/-- Without a repeat of the top number the output ascends. -/
theorem ascending_of_holdsTopOnRepeat
    {window : UInt64}
    {calls : List Call}
    (noRepeat : HoldsTopOnRepeat window calls) :
    (released window calls).Pairwise
      fun earlier later => earlier.seq < later.seq := by
  suffices prefixes : ∀ done rest, calls = done ++ rest →
      (released window done).Pairwise
        fun earlier later => earlier.seq < later.seq from
    prefixes calls [] (List.append_nil calls).symm
  intro done
  induction done using List.reverseRecOn with
  | nil => exact fun _ _ => .nil
  | append_singleton done action inductionHypothesis =>
      intro rest split
      rw [List.append_assoc, List.singleton_append] at split
      have traced := traced_released window done
      have answers := call_answers traced.ready action
      rw [released_concat, List.pairwise_append]
      refine ⟨inductionHypothesis _ split, answers.ascending, ?_⟩
      intro earlier earlierReleased later laterReleased
      refine traced.released_above ?_ earlierReleased laterReleased
      rintro env rfl atTop repeats
      exact noRepeat done env rest split atTop repeats

/-- A repeat of the top number that is no longer held is released again. -/
theorem holdsTopOnRepeat_of_ascending
    {window : UInt64}
    {calls : List Call}
    (ascending : (released window calls).Pairwise
      fun earlier later => earlier.seq < later.seq) :
    HoldsTopOnRepeat window calls := by
  rintro done env rest split atTop ⟨earlier, earlierOffered, earlierTop⟩
  have traced := traced_released window done
  rcases traced.top earlier earlierOffered earlierTop with
    held | ⟨other, otherReleased, otherTop⟩
  · exact held
  exfalso
  have current : env.seq = (after window done).next := by
    refine le_antisymm ?_ (atTop ▸ UInt64.le_maxValue _)
    rw [atTop, ← otherTop]
    exact (Order.le_succ _).trans (traced.passed other otherReleased)
  have releases := offer_of_eq traced.ready current
  have envReleased : env ∈ ((after window done).offer env).1 := by
    apply releases.drains.next_released
    exact (holding_lookup _ env _).trans (if_pos current.symm)
  rw [split, ← List.singleton_append, ← List.append_assoc, released_append,
    released_concat] at ascending
  have upToHere := (List.pairwise_append.mp ascending).1
  have crossing :=
    (List.pairwise_append.mp upToHere).2.2 other otherReleased env envReleased
  rw [otherTop, atTop] at crossing
  exact lt_irrefl _ crossing

/-- The released sequence numbers ascend strictly, and everything released was
offered before, exactly in the runs that never offer the top number again after
its release. -/
theorem released_ascending_iff (window : UInt64) (calls : List Call) :
    ((released window calls).Pairwise
        (fun earlier later => earlier.seq < later.seq) ∧
      ∀ done rest, calls = done ++ rest →
        ∀ env ∈ released window done, Call.offer env ∈ done) ↔
      HoldsTopOnRepeat window calls := by
  constructor
  · exact fun facts => holdsTopOnRepeat_of_ascending facts.1
  · intro noRepeat
    exact ⟨ascending_of_holdsTopOnRepeat noRepeat,
      fun done _ _ => (traced_released window done).offered⟩

/-- A candidate at the top number. -/
def topCandidate : SignalEnvelope :=
  { roomId := "r"
    sender := "peer"
    recipient := some "me"
    seq := UInt64.maxValue
    sentAt := 10
    signal := .iceCandidate "candidate:1" none none }

/-- Offered twice, a candidate at the top number is delivered twice. -/
theorem released_topCandidate_repeats :
    ¬((released defaultWindow
        [.skipTo UInt64.maxValue, .offer topCandidate,
          .offer topCandidate]).Pairwise
        (fun earlier later => earlier.seq < later.seq) ∧
      ∀ done rest,
        [.skipTo UInt64.maxValue, .offer topCandidate, .offer topCandidate] =
          done ++ rest →
        ∀ env ∈ released defaultWindow done, Call.offer env ∈ done) := by
  rintro ⟨ascending, _⟩
  revert ascending
  decide

end OrderedInbox
end CeMeet
