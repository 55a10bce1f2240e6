import CeMeet.Foundation.Transducer
import Mathlib.Algebra.Order.Group.Nat
import Mathlib.Data.List.Count
import Mathlib.Data.List.Infix
import Mathlib.Tactic.Common

/-!
# Fixed windows

A log of admissions is cut into windows: each opens with an admission, takes no
more than a capacity of them within its width, and the next one opens when it is
over.  An interval as long as a window then meets two windows at most, and the
opening of one of them lies outside of it.
-/

namespace FixedWindow

/-- The number of entries of a log from one time up to another. -/
def hits (log : List Nat) (since upTo : Nat) : Nat :=
  log.countP fun time => since ≤ time ∧ time < upTo

/-- The number of entries of a log from a time on. -/
def hitsFrom (log : List Nat) (since : Nat) : Nat :=
  log.countP fun time => since ≤ time

/-- A counter of admissions: the start of the current window and what it has
taken.  A window is opened by the first admission after the one before it. -/
def counter (capacity width : Nat) :
    Option (Nat × Nat) → Nat → Bool × Option (Nat × Nat)
  | none, now => (true, some (now, 1))
  | some (start, taken), now =>
      if start + width ≤ now then (true, some (now, 1))
      else if taken < capacity then (true, some (start, taken + 1))
      else (false, some (start, taken))

variable {log : List Nat} {capacity width start since upTo now : Nat}

theorem hits_concat :
    hits (log ++ [now]) since upTo =
      hits log since upTo + if since ≤ now ∧ now < upTo then 1 else 0 := by
  simp [hits, List.countP_append, List.countP_singleton]

theorem hitsFrom_concat :
    hitsFrom (log ++ [now]) since =
      hitsFrom log since + if since ≤ now then 1 else 0 := by
  simp [hitsFrom, List.countP_append, List.countP_singleton]

theorem hits_le_hitsFrom (starts : start ≤ since) :
    hits log since upTo ≤ hitsFrom log start := by
  refine List.countP_mono_left fun time _ inside => ?_
  simp only [decide_eq_true_eq] at inside ⊢
  exact starts.trans inside.1

/-- An interval is cut at a time. -/
theorem hits_le_add (start : Nat) :
    hits log since upTo ≤ hits log since start + hitsFrom log start := by
  induction log with
  | nil => exact Nat.le_refl _
  | cons time log inductionHypothesis =>
      simp only [hits, hitsFrom, List.countP_cons] at inductionHypothesis ⊢
      simp only [decide_eq_true_eq]
      split_ifs <;> omega

/-- An interval that begins after an entry misses that entry. -/
theorem hits_lt_hitsFrom (entry : start ∈ log) (later : start < since) :
    hits log since upTo < hitsFrom log start := by
  induction log with
  | nil => cases entry
  | cons time log inductionHypothesis =>
      have rest : hits log since upTo ≤ hitsFrom log start :=
        hits_le_hitsFrom later.le
      simp only [hits, hitsFrom, List.countP_cons] at inductionHypothesis rest ⊢
      simp only [decide_eq_true_eq]
      rcases List.mem_cons.mp entry with rfl | inRest
      · rw [if_neg (by omega), if_pos le_rfl]
        omega
      · have fewer := inductionHypothesis inRest
        split_ifs <;> omega

/-- `log` is a log of windows, the last of which opened at `start`. -/
structure Windowed (capacity width : Nat) (log : List Nat) (start : Nat) :
    Prop where
  /-- The window was opened by an admission. -/
  opened : start ∈ log
  /-- Nothing was admitted after the window. -/
  within : ∀ time ∈ log, time < start + width
  /-- The window has taken no more than the capacity. -/
  current : hitsFrom log start ≤ capacity
  /-- What came before in reach of the window was less. -/
  before : ∀ since, start < since + width → hits log since start < capacity
  /-- No interval as long as a window has met two full windows. -/
  bounded : ∀ since, hits log since (since + width) < 2 * capacity

namespace Windowed

theorem first (someCapacity : 0 < capacity) (someWidth : 0 < width) :
    Windowed capacity width [now] now where
  opened := List.mem_singleton_self now
  within := by
    intro time member
    rw [List.mem_singleton.mp member]
    omega
  current := by
    simpa [hitsFrom, Nat.succ_le_iff] using someCapacity
  before := by
    intro since _
    simpa [hits] using someCapacity
  bounded := by
    intro since
    have atMostOne := List.countP_le_length
      (p := fun time => decide (since ≤ time ∧ time < since + width))
      (l := [now])
    exact lt_of_le_of_lt atMostOne (by simp; omega)

/-- An admission in the current window, which is not full. -/
theorem join
    (windowed : Windowed capacity width log start)
    (later : start ≤ now) (inside : now < start + width)
    (free : hitsFrom log start < capacity) :
    Windowed capacity width (log ++ [now]) start where
  opened := List.mem_append_left _ windowed.opened
  within := by
    intro time member
    rcases List.mem_append.mp member with earlier | new
    · exact windowed.within time earlier
    · rw [List.mem_singleton.mp new]
      exact inside
  current := by
    rw [hitsFrom_concat, if_pos later]
    exact free
  before := by
    intro since reaches
    rw [hits_concat, if_neg (by omega)]
    exact windowed.before since reaches
  bounded := by
    intro since
    rw [hits_concat]
    split
    case isTrue meets =>
      have cut : hits log since (since + width) ≤
          hits log since start + hitsFrom log start :=
        hits_le_add start
      have fewBefore := windowed.before since (by omega)
      omega
    case isFalse => exact windowed.bounded since

/-- Nothing has been admitted after the window. -/
theorem hitsFrom_eq_zero
    (windowed : Windowed capacity width log start)
    (elapsed : start + width ≤ now) :
    hitsFrom log now = 0 := by
  refine List.countP_eq_zero.mpr fun time member => ?_
  have inside := windowed.within time member
  simp only [decide_eq_true_eq]
  omega

/-- An admission after the current window opens the next one. -/
theorem reopen
    (windowed : Windowed capacity width log start)
    (someWidth : 0 < width)
    (elapsed : start + width ≤ now) :
    Windowed capacity width (log ++ [now]) now where
  opened := List.mem_append_right _ (List.mem_singleton_self now)
  within := by
    intro time member
    rcases List.mem_append.mp member with earlier | new
    · have inOld := windowed.within time earlier
      omega
    · rw [List.mem_singleton.mp new]
      omega
  current := by
    have someCapacity := windowed.before start (by omega)
    rw [hitsFrom_concat, if_pos le_rfl, windowed.hitsFrom_eq_zero elapsed]
    omega
  before := by
    intro since reaches
    rw [hits_concat, if_neg (by omega)]
    exact (hits_lt_hitsFrom windowed.opened (by omega)).trans_le
      windowed.current
  bounded := by
    intro since
    rw [hits_concat]
    split
    case isTrue meets =>
      have fewBefore : hits log since (since + width) < hitsFrom log start :=
        hits_lt_hitsFrom windowed.opened (by omega)
      have full := windowed.current
      omega
    case isFalse => exact windowed.bounded since

end Windowed

/-! ## Admissions that are never refused -/

/-- No more than a capacity of times lie within a width up to any of them. -/
def Patient (capacity width : Nat) (times : List Nat) : Prop :=
  ∀ done now, done ++ [now] <+: times →
    ((done ++ [now]).countP fun time => now < time + width) ≤ capacity

instance (capacity width : Nat) (times : List Nat) :
    Decidable (Patient capacity width times) :=
  decidable_of_iff
    (∀ done ∈ times.inits, ∀ now ∈ done.getLast?,
      (done.countP fun time => now < time + width) ≤ capacity)
    ⟨fun few done now reached =>
      few _ ((List.mem_inits _ _).mpr reached) now (by simp),
    fun few done reached now last => by
      rw [Option.mem_def, List.getLast?_eq_some_iff] at last
      obtain ⟨before, rfl⟩ := last
      exact few before now ((List.mem_inits _ _).mp reached)⟩

theorem Patient.of_prefix {done times : List Nat}
    (patient : Patient capacity width times) (started : done <+: times) :
    Patient capacity width done :=
  fun before time reached => patient before time (reached.trans started)

/-- The current window of a counter has taken no more than what came since it
opened. -/
def Covers (log : List Nat) : Option (Nat × Nat) → Prop
  | none => log = []
  | some (start, taken) => start ∈ log ∧ taken ≤ hitsFrom log start

/-- A counter admits an attempt as long as no more than its capacity lie within
a window. -/
theorem counter_of_few {held : Option (Nat × Nat)}
    (covers : Covers log held) (later : ∀ time ∈ log, time ≤ now)
    (few : ((log ++ [now]).countP fun time => now < time + width) ≤
      capacity) :
    (counter capacity width held now).1 = true ∧
      Covers (log ++ [now]) (counter capacity width held now).2 := by
  have opens : Covers (log ++ [now]) (some (now, 1)) := by
    refine ⟨List.mem_append_right _ (List.mem_singleton_self now), ?_⟩
    rw [hitsFrom_concat, if_pos le_rfl]
    exact Nat.le_add_left 1 _
  cases held with
  | none => exact ⟨rfl, opens⟩
  | some window =>
      obtain ⟨start, taken⟩ := window
      obtain ⟨opened, counted⟩ := covers
      rw [counter]
      split
      case isTrue => exact ⟨rfl, opens⟩
      case isFalse stillOpen =>
        have grows : taken + 1 ≤ hitsFrom (log ++ [now]) start := by
          rw [hitsFrom_concat, if_pos (later start opened)]
          exact Nat.succ_le_succ counted
        have inWindow : hitsFrom (log ++ [now]) start ≤
            (log ++ [now]).countP fun time => now < time + width := by
          refine List.countP_mono_left fun time _ since => ?_
          simp only [decide_eq_true_eq] at since ⊢
          omega
        rw [if_pos (by omega)]
        exact ⟨rfl, List.mem_append_left _ opened, grows⟩

/-- A counter never refuses someone who is patient. -/
theorem outputs_counter_of_patient {times : List Nat}
    (ordered : times.Pairwise (· ≤ ·))
    (patient : Patient capacity width times) :
    Transducer.outputs (counter capacity width) none times =
      List.replicate times.length true := by
  suffices kept : Transducer.outputs (counter capacity width) none times =
      List.replicate times.length true ∧
        Covers times (Transducer.final (counter capacity width) none times) from
    kept.1
  refine Transducer.history_induction (motive := fun done answers held =>
    answers = List.replicate done.length true ∧ Covers done held)
    times ⟨rfl, rfl⟩ ?_
  rintro done now rest split ⟨answers, covers⟩
  have inTime := split ▸ ordered
  have later : ∀ time ∈ done, time ≤ now := fun time member =>
    (List.pairwise_append.mp inTime).2.2 time member now List.mem_cons_self
  obtain ⟨admits, coversNext⟩ := counter_of_few covers later
    (patient done now ⟨rest, by simp [split]⟩)
  refine ⟨?_, coversNext⟩
  rw [answers, admits, List.length_append, List.length_singleton,
    List.replicate_succ']

end FixedWindow
