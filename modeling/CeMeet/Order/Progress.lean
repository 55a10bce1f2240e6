import CeMeet.Order.Ascent

/-!
# Bounds and progress

An inbox holds less than a window of envelopes, all of them ahead of the number
it waits for, and never goes back.  A whole window of offers that are not behind
that number cannot all be held, so one of them makes the inbox release.
-/

namespace CeMeet
namespace OrderedInbox

/-- What holds of an inbox after every list of calls. -/
structure Bounded (window : UInt64) (inbox : OrderedInbox) : Prop where
  /-- Calls leave the inbox ready. -/
  ready : Ready inbox
  /-- The window does not change. -/
  window_eq : inbox.window = max window 1

theorem Bounded.call
    {window : UInt64} {inbox : OrderedInbox}
    (bounded : Bounded window inbox)
    (action : Call) :
    Bounded window (inbox.call action).2 where
  ready := call_ready bounded.ready action
  window_eq := (call_window bounded.ready action).trans bounded.window_eq

theorem bounded_after (window : UInt64) (calls : List Call) :
    Bounded window (after window calls) :=
  Transducer.invariant
    { ready := ready_withWindow window
      window_eq := rfl }
    (fun _ action bounded => bounded.call action)
    calls

theorem after_concat (window : UInt64) (calls : List Call) (action : Call) :
    after window (calls ++ [action]) =
      ((after window calls).call action).2 :=
  Transducer.final_concat calls action

/-- Offers that are not behind the inbox and release nothing are all held, one
on top of the other. -/
theorem offers_held
    {inbox : OrderedInbox}
    (ready : Ready inbox)
    {envs : List SignalEnvelope}
    (notBehind : ∀ env ∈ envs, inbox.next ≤ env.seq)
    (silent : ∀ released ∈ Transducer.outputs offer inbox envs,
      released = []) :
    Ready (Transducer.final offer inbox envs) ∧
      (Transducer.final offer inbox envs).window = inbox.window ∧
      inbox.buffer.keys ∪ (envs.map SignalEnvelope.seq).toFinset ⊆
        (Transducer.final offer inbox envs).buffer.keys := by
  induction envs generalizing inbox with
  | nil => exact ⟨ready, rfl, by simp⟩
  | cons env envs inductionHypothesis =>
      rw [List.forall_mem_cons] at notBehind
      rw [Transducer.outputs_cons, List.forall_mem_cons] at silent
      obtain ⟨envNotBehind, notBehind⟩ := notBehind
      obtain ⟨envSilent, silent⟩ := silent
      rcases offer_cases ready env with
        ⟨passed, _⟩ | ⟨_, _, held⟩ | ⟨floor, releases⟩
      · exact absurd passed (not_lt.mpr envNotBehind)
      · have readyNext := offer_ready ready env
        rw [Transducer.final_cons]
        rw [held] at readyNext silent ⊢
        obtain ⟨readyLast, sameWindow, keysHeld⟩ :=
          inductionHypothesis readyNext notBehind silent
        refine ⟨readyLast, sameWindow, subset_trans ?_ keysHeld⟩
        rw [holding_keys, List.map_cons, List.toFinset_cons,
          Finset.union_insert, Finset.insert_union]
      · exact absurd envSilent releases.released_ne_nil

/-- A window of offers with distinct numbers that are not behind the inbox
releases something. -/
theorem offers_release
    {inbox : OrderedInbox}
    (ready : Ready inbox)
    {envs : List SignalEnvelope}
    (whole : inbox.window.toNat ≤ envs.length)
    (distinct : (envs.map SignalEnvelope.seq).Nodup)
    (notBehind : ∀ env ∈ envs, inbox.next ≤ env.seq) :
    ∃ released ∈ Transducer.outputs offer inbox envs, released ≠ [] := by
  by_contra silent
  push Not at silent
  obtain ⟨readyLast, sameWindow, keysHeld⟩ :=
    offers_held ready notBehind silent
  have room := readyLast.room
  have count := Finset.card_le_card
    (Finset.subset_union_right.trans keysHeld)
  rw [List.toFinset_card_of_nodup distinct, List.length_map] at count
  rw [sameWindow] at room
  unfold buffered Indexed.size at room
  omega

/-- After every list of calls an inbox holds less than a window of envelopes,
all ahead of the number it waits for; no further call takes that number back;
and one of any whole window of further offers, with distinct numbers not below
it, releases something. -/
theorem bounded_and_progressing (window : UInt64) (calls : List Call) :
    (after window calls).buffered ≤ (max window 1).toNat - 1 ∧
      (∀ seq ∈ (after window calls).buffer.keys,
        (after window calls).nextExpected < seq) ∧
      (∀ action, (after window calls).nextExpected ≤
        (after window (calls ++ [action])).nextExpected) ∧
      ∀ envs : List SignalEnvelope,
        envs.length = (max window 1).toNat →
        (envs.map SignalEnvelope.seq).Nodup →
        (∀ env ∈ envs, (after window calls).nextExpected ≤ env.seq) →
        ∃ released ∈ Transducer.outputs offer (after window calls) envs,
          released ≠ [] := by
  obtain ⟨ready, sameWindow⟩ := bounded_after window calls
  refine ⟨?_, ready.ahead, fun action => ?_, ?_⟩
  · have room := ready.room
    rw [sameWindow] at room
    omega
  · rw [after_concat]
    exact (call_answers ready action).next_le
  · intro envs whole distinct notBehind
    refine offers_release ready ?_ distinct notBehind
    rw [sameWindow, whole]

end OrderedInbox
end CeMeet
