import Mathlib.Data.List.MinMax
import Mathlib.Data.Prod.Lex
import Mathlib.Order.Bounds.Basic
import Mathlib.Order.WithBot
import Mathlib.Data.Finset.Max

/-!
# Last-writer-wins registers with removal bias

A stamp is a sequence number together with the mark `true` of a removal.  In
the lexicographic order a later number wins and, at one number, the removal
wins, so that writing a stamp is a join and a register fed with stamps holds
their maximum whatever their order and multiplicity.

A placeholder creates a register that has not been written yet, in the removed
state at the least number.  It is not a join: a stamp that asserts presence at
the least number is lost after a placeholder and kept before it.  The last
results of this module say exactly how much of the order of delivery a register
with placeholders can observe.
-/

universe u

/-- A sequence number and the mark of a removal, the number counting first. -/
abbrev Stamp (σ : Type u) := σ ×ₗ Bool

/-- A register is unwritten or holds its greatest stamp. -/
abbrev Register (σ : Type u) := WithBot (Stamp σ)

namespace Register

variable {σ : Type u}

/-- The stamp of an assertion of presence or absence. -/
def stamp (number : σ) (present : Bool) : Stamp σ :=
  toLex (number, !present)

@[simp] theorem stamp_inj {left right : σ} {here there : Bool} :
    stamp left here = stamp right there ↔ left = right ∧ here = there := by
  simp [stamp]

/-- What can happen to a register. -/
inductive Event (σ : Type u)
  | write (stamp : Stamp σ)
  | placeholder

/-- The stamps written by a list of events. -/
def written (events : List (Event σ)) : List (Stamp σ) :=
  events.filterMap fun
    | .write stamp => some stamp
    | .placeholder => none

/-- Whether the register was created by a placeholder. -/
def OpensVacant (events : List (Event σ)) : Prop :=
  events.head? = some .placeholder

@[simp] theorem written_nil : written ([] : List (Event σ)) = [] := rfl

@[simp] theorem written_write (stamp : Stamp σ) (events : List (Event σ)) :
    written (.write stamp :: events) = stamp :: written events := rfl

@[simp] theorem written_placeholder (events : List (Event σ)) :
    written (.placeholder :: events) = written events := rfl

theorem mem_written_iff {events : List (Event σ)} {stamp : Stamp σ} :
    stamp ∈ written events ↔ Event.write stamp ∈ events := by
  induction events with
  | nil => simp
  | cons event events inductionHypothesis =>
      cases event <;> simp [inductionHypothesis]

theorem written_ne_nil_of_not_opensVacant {events : List (Event σ)}
    (nonempty : events ≠ []) (opens : ¬OpensVacant events) :
    written events ≠ [] := by
  cases events with
  | nil => exact absurd rfl nonempty
  | cons event events =>
      cases event with
      | write stamp => simp
      | placeholder => exact absurd rfl opens

section Order

variable [LinearOrder σ]

theorem stamp_le_stamp_iff {left right : σ} {here there : Bool} :
    stamp left here ≤ stamp right there ↔
      left < right ∨ left = right ∧ (there = true → here = true) := by
  rw [stamp, stamp, Prod.Lex.toLex_le_toLex]
  cases here <;> cases there <;> simp

/-- The greater of two stamps: the greater number wins, and at one number the
removal. -/
theorem max_stamp (left right : σ) (here there : Bool) :
    max (stamp left here) (stamp right there) =
      if right < left then stamp left here
      else if right = left then stamp left (here && there)
      else stamp right there := by
  split
  case isTrue lt => exact max_eq_left (stamp_le_stamp_iff.mpr (Or.inl lt))
  case isFalse notLt =>
    split
    case isTrue same =>
      subst same
      cases here <;> cases there <;>
        simp [stamp_le_stamp_iff]
    case isFalse different =>
      have lt := lt_of_le_of_ne (not_lt.mp notLt) (Ne.symm different)
      exact max_eq_right (stamp_le_stamp_iff.mpr (Or.inl lt))

/-- A removed register stays removed under an assertion that is not newer. -/
theorem max_stamp_removed {held number : σ} {present : Bool}
    (old : number ≤ held ∨ present = false) :
    max (stamp held false) (stamp number present) =
      stamp (max held number) false := by
  rw [max_stamp]
  split
  case isTrue older => rw [max_eq_left older.le]
  case isFalse notOlder =>
    have heldLe : held ≤ number := not_lt.mp notOlder
    split
    case isTrue same => rw [same, max_self, Bool.false_and]
    case isFalse different =>
      have removed : present = false := old.resolve_left fun numberLe =>
        different (numberLe.antisymm heldLe)
      rw [max_eq_right heldLe, removed]

/-- The stamp a register holds, if it holds one. -/
def contents (register : Register σ) : Set (Stamp σ) :=
  {held | register = (held : Register σ)}

/-- The greater of two registers holds the least upper bound of what the two
hold. -/
theorem mem_contents_max_iff {left right : Register σ} {held : Stamp σ} :
    held ∈ contents (max left right) ↔
      (contents left ∪ contents right).Nonempty ∧
        IsLUB (contents left ∪ contents right) held := by
  have contents_coe : ∀ stamp : Stamp σ,
      contents (stamp : Register σ) = {stamp} := by
    intro stamp
    ext other
    exact WithBot.coe_inj.trans eq_comm
  have contents_bot : contents (⊥ : Register σ) = ∅ :=
    Set.eq_empty_of_forall_notMem fun _ same => absurd same WithBot.bot_ne_coe
  cases left using WithBot.recBotCoe with
  | bot =>
      rw [max_bot_left, contents_bot, Set.empty_union]
      cases right using WithBot.recBotCoe with
      | bot => simp [contents_bot]
      | coe right =>
          rw [contents_coe, Set.mem_singleton_iff]
          exact ⟨fun same => ⟨Set.singleton_nonempty _, same ▸ isLUB_singleton⟩,
            fun bound => bound.2.unique isLUB_singleton⟩
  | coe left =>
      cases right using WithBot.recBotCoe with
      | bot =>
          rw [max_bot_right, contents_bot, Set.union_empty, contents_coe,
            Set.mem_singleton_iff]
          exact ⟨fun same => ⟨Set.singleton_nonempty _, same ▸ isLUB_singleton⟩,
            fun bound => bound.2.unique isLUB_singleton⟩
      | coe right =>
          rw [← WithBot.coe_max, contents_coe, contents_coe, contents_coe,
            Set.mem_singleton_iff, Set.singleton_union]
          exact ⟨fun same => ⟨Set.insert_nonempty _ _, same ▸ isLUB_pair⟩,
            fun bound => bound.2.unique isLUB_pair⟩

/-- The greatest stamp asserts presence exactly if some presence is newer than
every removal. -/
theorem exists_maximum_eq_present_iff {stamps : List (Stamp σ)} :
    (∃ number, stamps.maximum =
      ((stamp number true : Stamp σ) : Register σ)) ↔
      ∃ number, stamp number true ∈ stamps ∧
        ∀ removed, stamp removed false ∈ stamps → removed < number := by
  constructor
  · rintro ⟨number, greatest⟩
    refine ⟨number, List.maximum_mem greatest, fun removed member => ?_⟩
    have below := List.le_maximum_of_mem member greatest
    rcases stamp_le_stamp_iff.mp below with older | ⟨_, present⟩
    · exact older
    · exact absurd (present rfl) Bool.false_ne_true
  · rintro ⟨number, member, newer⟩
    have nonempty : stamps.maximum ≠ ⊥ :=
      List.maximum_ne_bot_of_ne_nil (List.ne_nil_of_mem member)
    obtain ⟨greatest, isGreatest⟩ := WithBot.ne_bot_iff_exists.mp nonempty
    obtain ⟨last, removed⟩ := greatest
    have below := List.le_maximum_of_mem member isGreatest.symm
    cases removed with
    | false => exact ⟨last, isGreatest.symm⟩
    | true =>
        have older := newer last (List.maximum_mem isGreatest.symm)
        rcases stamp_le_stamp_iff.mp
            (show stamp number true ≤ stamp last false from below) with
          newest | ⟨same, _⟩
        · exact absurd newest older.asymm
        · exact absurd older (same ▸ lt_irrefl _)

/-- The maximum of a list depends on its members alone. -/
theorem maximum_eq_of_mem_iff {left right : List (Stamp σ)}
    (same : ∀ stamp, stamp ∈ left ↔ stamp ∈ right) :
    left.maximum = right.maximum := by
  apply le_antisymm
  · exact List.maximum_le_of_forall_le fun stamp member =>
      List.le_maximum_of_mem' ((same stamp).mp member)
  · exact List.maximum_le_of_forall_le fun stamp member =>
      List.le_maximum_of_mem' ((same stamp).mpr member)

end Order

section Events

variable [LinearOrder σ] [OrderBot σ]

/-- The removed state at the least number, in which a placeholder starts. -/
def vacant : Stamp σ := stamp ⊥ false

/-- The least stamp: presence at the least number. -/
def first : Stamp σ := stamp ⊥ true

theorem first_lt_vacant : (first : Stamp σ) < vacant := by
  rw [lt_iff_not_ge, vacant, first, stamp_le_stamp_iff]
  simp

/-- Every stamp but the least one is at or above the vacant state. -/
theorem vacant_le_of_ne_first {held : Stamp σ} (later : held ≠ first) :
    vacant ≤ held := by
  obtain ⟨number, removed⟩ := held
  change vacant ≤ toLex (number, removed)
  rw [vacant, stamp, Prod.Lex.toLex_le_toLex]
  by_cases least : number = ⊥
  · subst least
    cases removed with
    | false => exact absurd rfl later
    | true => simp
  · exact Or.inl (bot_lt_iff_ne_bot.mpr least)

/-- The maximum of a list of stamps is the least stamp exactly when the list
holds that stamp and no other. -/
theorem maximum_eq_first_iff {stamps : List (Stamp σ)} :
    stamps.maximum = (first : Stamp σ) ↔
      stamps ≠ [] ∧ ∀ stamp ∈ stamps, stamp = first := by
  constructor
  · intro equal
    have greatest := List.maximum_eq_coe_iff.mp equal
    refine ⟨List.ne_nil_of_mem greatest.1, fun stamp member => ?_⟩
    by_contra different
    have vacantLeFirst :=
      (vacant_le_of_ne_first different).trans (greatest.2 stamp member)
    exact absurd first_lt_vacant (not_lt.mpr vacantLeFirst)
  · rintro ⟨nonempty, all⟩
    obtain ⟨stamp, member⟩ := List.exists_mem_of_ne_nil stamps nonempty
    rw [List.maximum_eq_coe_iff]
    exact ⟨all stamp member ▸ member,
      fun other present => le_of_eq (all other present)⟩

/-- One event at a register. -/
def Event.apply : Event σ → Register σ → Register σ
  | .write stamp, register => max register stamp
  | .placeholder, none => (vacant : Stamp σ)
  | .placeholder, some held => (held : Stamp σ)

/-- Every event leaves a register created. -/
theorem Event.apply_ne_bot (event : Event σ) (register : Register σ) :
    event.apply register ≠ ⊥ := by
  cases event with
  | write stamp =>
      exact ((WithBot.bot_lt_coe stamp).trans_le (le_max_right _ _)).ne'
  | placeholder => cases register <;> exact WithBot.coe_ne_bot

/-- The register after a list of events. -/
def settle (events : List (Event σ)) : Register σ :=
  events.foldl (fun register event => event.apply register) ⊥

/-- A created register only grows, by the stamps written to it. -/
theorem foldl_apply_of_created (events : List (Event σ)) (held : Stamp σ) :
    events.foldl (fun register event => event.apply register)
        (held : Register σ) =
      max (held : Register σ) (written events).maximum := by
  induction events generalizing held with
  | nil => simp
  | cons event events inductionHypothesis =>
      cases event with
      | write stamp =>
          change events.foldl _ ((max held stamp : Stamp σ) : Register σ) = _
          rw [inductionHypothesis, written_write, List.maximum_cons,
            WithBot.coe_max, max_assoc]
      | placeholder => exact inductionHypothesis held

/-- A register holds the maximum of the stamps written, over the vacant state
when a placeholder created it. -/
theorem settle_of_opensVacant {events : List (Event σ)}
    (opens : OpensVacant events) :
    settle events =
      max ((vacant : Stamp σ) : Register σ) (written events).maximum := by
  cases events with
  | nil => simp [OpensVacant] at opens
  | cons event events =>
      simp only [OpensVacant, List.head?_cons, Option.some.injEq] at opens
      subst opens
      exact foldl_apply_of_created events vacant

theorem settle_of_not_opensVacant {events : List (Event σ)}
    (opens : ¬OpensVacant events) :
    settle events = (written events).maximum := by
  cases events with
  | nil => rfl
  | cons event events =>
      cases event with
      | write stamp =>
          change events.foldl _ (max (⊥ : Register σ) stamp) = _
          rw [max_bot_left, foldl_apply_of_created, written_write,
            List.maximum_cons]
      | placeholder => exact absurd rfl opens

/-- The vacant start shows in a written register only under the least stamp. -/
theorem max_vacant_eq_self_iff {register : Register σ}
    (writtenTo : register ≠ ⊥) :
    max ((vacant : Stamp σ) : Register σ) register = register ↔
      register ≠ (first : Stamp σ) := by
  obtain ⟨held, rfl⟩ := WithBot.ne_bot_iff_exists.mp writtenTo
  rw [max_eq_right_iff, WithBot.coe_le_coe, ne_eq, WithBot.coe_inj]
  constructor
  · rintro vacantLe rfl
    exact absurd first_lt_vacant (not_lt.mpr vacantLe)
  · exact vacant_le_of_ne_first

/-- Delivering events in an order that starts with a placeholder and in one
that does not settles a register equally unless presence at the least number is
all that was written. -/
theorem settle_vacant_eq_settle_iff {left right : List (Event σ)}
    (same : ∀ event, event ∈ left ↔ event ∈ right)
    (leftOpens : OpensVacant left) (rightOpens : ¬OpensVacant right) :
    settle left = settle right ↔
      (written left).maximum ≠ (first : Stamp σ) := by
  have sameWritten : (written left).maximum = (written right).maximum :=
    maximum_eq_of_mem_iff fun stamp => by
      rw [mem_written_iff, mem_written_iff, same]
  have rightNonempty : right ≠ [] := by
    have leftMember := List.mem_of_mem_head? (Option.mem_def.mpr leftOpens)
    exact List.ne_nil_of_mem ((same _).mp leftMember)
  have writtenTo : (written left).maximum ≠ ⊥ := by
    rw [sameWritten, ne_eq, List.maximum_eq_bot]
    exact written_ne_nil_of_not_opensVacant rightNonempty rightOpens
  rw [settle_of_opensVacant leftOpens, settle_of_not_opensVacant rightOpens,
    ← sameWritten]
  exact max_vacant_eq_self_iff writtenTo

/-- Two deliveries of the same events settle a register equally, except when
presence at the least number is all that was ever written and the two disagree
on whether a placeholder came first. -/
theorem settle_eq_settle_iff {left right : List (Event σ)}
    (same : ∀ event, event ∈ left ↔ event ∈ right) :
    settle left = settle right ↔
      ((written left).maximum = (first : Stamp σ) →
        (OpensVacant left ↔ OpensVacant right)) := by
  have sameWritten : (written left).maximum = (written right).maximum :=
    maximum_eq_of_mem_iff fun stamp => by
      rw [mem_written_iff, mem_written_iff, same]
  by_cases leftOpens : OpensVacant left <;>
    by_cases rightOpens : OpensVacant right
  · simp [settle_of_opensVacant, leftOpens, rightOpens, sameWritten]
  · rw [settle_vacant_eq_settle_iff same leftOpens rightOpens]
    simp [leftOpens, rightOpens]
  · rw [eq_comm, settle_vacant_eq_settle_iff (fun event => (same event).symm)
      rightOpens leftOpens, ← sameWritten]
    simp [leftOpens, rightOpens]
  · simp [settle_of_not_opensVacant, leftOpens, rightOpens, sameWritten]

end Events

end Register
