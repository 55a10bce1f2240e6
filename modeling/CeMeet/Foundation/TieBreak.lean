import Mathlib.Data.List.Permutation
import Mathlib.Data.List.Perm.Subperm
import Mathlib.Data.List.Sort
import Mathlib.Order.Compare

/-!
# Comparators with a tie break

A comparator that orders by a key, and by a tag where the keys are equal or one
of them is missing.  Distinct tags leave no ties, so the only way not to be a
total order is a cycle of three, and every such cycle has one member without a
key, wedged between the tags of two members whose keys are the other way round.
-/

universe u v w

namespace TieBreak

variable {α : Type u} {σ : Type v} {τ : Type w}

/-- A comparator is a total order of some members. -/
structure TotalOrderOn (compare : α → α → Ordering) (members : List α) :
    Prop where
  /-- Either way round the answer is the same. -/
  swaps : ∀ left ∈ members, ∀ right ∈ members,
    compare right left = (compare left right).swap
  /-- Different members are told apart. -/
  distinguishes : ∀ left ∈ members, ∀ right ∈ members,
    compare left right = .eq → left = right
  /-- The order is transitive. -/
  trans : ∀ left ∈ members, ∀ middle ∈ members, ∀ right ∈ members,
    compare left middle = .lt → compare middle right = .lt →
    compare left right = .lt

/-- A way of sorting by a comparator.  What it makes of a comparator that is not
a total order is left open, except that it sees members only by comparing
them. -/
structure Sorter where
  /-- Sort a list. -/
  sortBy : {α : Type u} → (α → α → Ordering) → List α → List α
  /-- The members stay the same. -/
  perm : ∀ {α : Type u} (compare : α → α → Ordering) (members : List α),
    (sortBy compare members).Perm members
  /-- By a total order the members are sorted. -/
  sorted : ∀ {α : Type u} {compare : α → α → Ordering} {members : List α},
    TotalOrderOn compare members →
    (sortBy compare members).Pairwise
      fun left right => (compare left right).isLE = true
  /-- Members that compare in the same way are sorted in the same way. -/
  natural : ∀ {α β : Type u} {compare : α → α → Ordering}
    {compareImages : β → β → Ordering} (image : α → β) (members : List α),
    (∀ left ∈ members, ∀ right ∈ members,
      compare left right = compareImages (image left) (image right)) →
    (sortBy compare members).map image =
      sortBy compareImages (members.map image)

namespace TotalOrderOn

variable {compare : α → α → Ordering} {members others : List α}

theorem perm
    (total : TotalOrderOn compare members) (same : others.Perm members) :
    TotalOrderOn compare others where
  swaps := fun left leftMember right rightMember =>
    total.swaps left (same.mem_iff.mp leftMember) right
      (same.mem_iff.mp rightMember)
  distinguishes := fun left leftMember right rightMember =>
    total.distinguishes left (same.mem_iff.mp leftMember) right
      (same.mem_iff.mp rightMember)
  trans := fun left leftMember middle middleMember right rightMember =>
    total.trans left (same.mem_iff.mp leftMember) middle
      (same.mem_iff.mp middleMember) right (same.mem_iff.mp rightMember)

/-- Members that compare either way are the same. -/
theorem antisymm
    (total : TotalOrderOn compare members)
    {left right : α} (leftMember : left ∈ members)
    (rightMember : right ∈ members)
    (atMost : (compare left right).isLE = true)
    (atLeast : (compare right left).isLE = true) :
    left = right := by
  refine total.distinguishes left leftMember right rightMember ?_
  rw [total.swaps left leftMember right rightMember] at atLeast
  cases answer : compare left right with
  | eq => rfl
  | lt =>
      rw [answer] at atLeast
      cases atLeast
  | gt =>
      rw [answer] at atMost
      cases atMost

/-- Sorting by a total order does not depend on the order of the input. -/
theorem sortBy_eq_of_perm
    (total : TotalOrderOn compare members) (sorter : Sorter.{u})
    (same : others.Perm members) :
    sorter.sortBy compare others = sorter.sortBy compare members := by
  have permuted := (sorter.perm compare others).trans
    (same.trans (sorter.perm compare members).symm)
  refine permuted.eq_of_pairwise ?_ (sorter.sorted (total.perm same))
    (sorter.sorted total)
  intro left right leftMember rightMember atMost atLeast
  exact total.antisymm
    (same.mem_iff.mp ((sorter.perm _ _).mem_iff.mp leftMember))
    ((sorter.perm _ _).mem_iff.mp rightMember) atMost atLeast

/-- The comparator restricted to the members. -/
def restricted (compare : α → α → Ordering) (members : List α)
    (left right : { member // member ∈ members }) : Bool :=
  (compare left right).isLE

theorem restricted_trans
    (total : TotalOrderOn compare members)
    (left middle right : { member // member ∈ members })
    (first : restricted compare members left middle = true)
    (second : restricted compare members middle right = true) :
    restricted compare members left right = true := by
  unfold restricted at *
  cases before : compare left middle with
  | gt =>
      rw [before] at first
      cases first
  | eq =>
      rw [total.distinguishes left left.2 middle middle.2 before]
      exact second
  | lt =>
      cases after : compare middle right with
      | gt =>
          rw [after] at second
          cases second
      | eq =>
          rw [← total.distinguishes middle middle.2 right right.2 after, before]
          rfl
      | lt =>
          rw [total.trans left left.2 middle middle.2 right right.2 before
            after]
          rfl

theorem restricted_total
    (total : TotalOrderOn compare members)
    (left right : { member // member ∈ members }) :
    (restricted compare members left right ||
      restricted compare members right left) = true := by
  unfold restricted
  rw [total.swaps left left.2 right right.2]
  cases compare left right <;> rfl

end TotalOrderOn

namespace Sorter

/-- Merge sort. -/
def mergeSort : Sorter.{u} where
  sortBy := fun compare members =>
    members.mergeSort fun left right => (compare left right).isLE
  perm := fun _ _ => List.mergeSort_perm _ _
  sorted := by
    intro α compare members total
    have sorted := List.pairwise_mergeSort total.restricted_trans
      total.restricted_total members.attach
    have mapped : (members.attach.mergeSort
        (TotalOrderOn.restricted compare members)).map Subtype.val =
          (members.attach.map Subtype.val).mergeSort
            fun left right => (compare left right).isLE :=
      List.map_mergeSort fun _ _ _ _ => rfl
    rw [List.attach_map_subtype_val] at mapped
    rw [← mapped]
    exact List.pairwise_map.mpr sorted
  natural := fun image members same =>
    List.map_mergeSort fun left leftMember right rightMember =>
      congrArg Ordering.isLE (same left leftMember right rightMember)

/-- Where a symmetry of the comparator moves every member, sorting depends on
the order of the input. -/
theorem sortBy_ne_of_symmetry
    (sorter : Sorter.{u}) {compare : α → α → Ordering} {members : List α}
    (image : α → α)
    (nonempty : members ≠ [])
    (symmetric : ∀ left ∈ members, ∀ right ∈ members,
      compare left right = compare (image left) (image right))
    (moves : ∀ member ∈ members, image member ≠ member) :
    sorter.sortBy compare (members.map image) ≠
      sorter.sortBy compare members := by
  rw [← sorter.natural image members symmetric]
  intro same
  cases sorted : sorter.sortBy compare members with
  | nil =>
      have size := (sorter.perm compare members).length_eq
      rw [sorted] at size
      exact nonempty (List.length_eq_zero_iff.mp size.symm)
  | cons head tail =>
      rw [sorted] at same
      refine moves head ?_ (List.cons.inj same).1
      rw [← (sorter.perm compare members).mem_iff, sorted]
      exact List.mem_cons_self

end Sorter

/-! ## Keys and tags -/

variable [LinearOrder σ] [LinearOrder τ]

/-- Compare two keys, unless one is missing. -/
def partialCmp : Option σ → Option σ → Option Ordering
  | some left, some right => some (cmp left right)
  | _, _ => none

/-- Compare by key, and by tag where the keys do not decide. -/
def compareBy (key : α → Option σ) (tag : α → τ) (left right : α) : Ordering :=
  ((partialCmp (key left) (key right)).getD .eq).then
    (cmp (tag left) (tag right))

/-- A member without a key lies by its tag between two members whose keys are
the other way round. -/
structure Wedged (key : α → Option σ) (tag : α → τ)
    (left wedge right : α) : Prop where
  /-- The member in the middle has no key. -/
  keyless : key wedge = none
  /-- The keys of the others are in order. -/
  keys : ∃ low high, key left = some low ∧ key right = some high ∧ low < high
  /-- By tag the member in the middle comes after the right one. -/
  above : tag right < tag wedge
  /-- By tag the member in the middle comes before the left one. -/
  below : tag wedge < tag left

variable {key : α → Option σ} {tag : α → τ} {members : List α}

theorem compareBy_swap (left right : α) :
    compareBy key tag right left = (compareBy key tag left right).swap := by
  unfold compareBy
  rw [Ordering.swap_then, cmp_swap]
  congr 1
  cases key left with
  | none => cases key right <;> rfl
  | some low =>
      cases key right with
      | none => rfl
      | some high => exact (cmp_swap low high).symm

/-- Between members one of which has no key the tags decide. -/
theorem compareBy_eq_lt_of_keyless
    {left right : α} (keyless : key left = none ∨ key right = none) :
    compareBy key tag left right = .lt ↔ tag left < tag right := by
  unfold compareBy
  rcases keyless with missing | missing <;> rw [missing]
  · exact cmp_eq_lt_iff _ _
  · cases key left <;> exact cmp_eq_lt_iff _ _

/-- Between members with keys the tags decide where the keys are equal. -/
theorem compareBy_eq_lt_of_keys
    {left right : α} {low high : σ}
    (leftKey : key left = some low) (rightKey : key right = some high) :
    compareBy key tag left right = .lt ↔
      low < high ∨ low = high ∧ tag left < tag right := by
  unfold compareBy
  rw [leftKey, rightKey]
  change (cmp low high).then (cmp (tag left) (tag right)) = .lt ↔ _
  rw [Ordering.then_eq_lt, cmp_eq_lt_iff, cmp_eq_eq_iff, cmp_eq_lt_iff]

theorem tag_eq_of_compareBy_eq
    {left right : α} (same : compareBy key tag left right = .eq) :
    tag left = tag right := by
  unfold compareBy at same
  exact (cmp_eq_eq_iff _ _).mp (Ordering.then_eq_eq.mp same).2

/-- A cycle through a member without a key is closed by the keys of the other
two. -/
theorem wedged_of_cycle
    {first second third : α}
    (keyless : key third = none)
    (opens : compareBy key tag first second = .lt)
    (continues : compareBy key tag second third = .lt)
    (closes : compareBy key tag third first = .lt) :
    Wedged key tag first third second := by
  rw [compareBy_eq_lt_of_keyless (Or.inr keyless)] at continues
  rw [compareBy_eq_lt_of_keyless (Or.inl keyless)] at closes
  have reversed : ¬tag first < tag second :=
    (continues.trans closes).not_gt
  refine ⟨keyless, ?_, continues, closes⟩
  cases firstKey : key first with
  | none =>
      exact absurd
        ((compareBy_eq_lt_of_keyless (Or.inl firstKey)).mp opens) reversed
  | some low =>
      cases secondKey : key second with
      | none =>
          exact absurd
            ((compareBy_eq_lt_of_keyless (Or.inr secondKey)).mp opens) reversed
      | some high =>
          rcases (compareBy_eq_lt_of_keys firstKey secondKey).mp opens with
            ordered | ⟨_, byTag⟩
          · exact ⟨low, high, rfl, rfl, ordered⟩
          · exact absurd byTag reversed

/-- Members with keys form no cycle. -/
theorem not_cycle_of_keys
    {first second third : α} {low middle high : σ}
    (firstKey : key first = some low) (secondKey : key second = some middle)
    (thirdKey : key third = some high)
    (opens : compareBy key tag first second = .lt)
    (continues : compareBy key tag second third = .lt) :
    compareBy key tag third first ≠ .lt := by
  intro closes
  rw [compareBy_eq_lt_of_keys firstKey secondKey] at opens
  rw [compareBy_eq_lt_of_keys secondKey thirdKey] at continues
  rw [compareBy_eq_lt_of_keys thirdKey firstKey] at closes
  have firstLe : low ≤ middle := opens.elim le_of_lt fun tie => tie.1.le
  have secondLe : middle ≤ high := continues.elim le_of_lt fun tie => tie.1.le
  have thirdLe : high ≤ low := closes.elim le_of_lt fun tie => tie.1.le
  have firstTag : tag first < tag second :=
    (opens.resolve_left (secondLe.trans thirdLe).not_gt).2
  have secondTag : tag second < tag third :=
    (continues.resolve_left (thirdLe.trans firstLe).not_gt).2
  have thirdTag : tag third < tag first :=
    (closes.resolve_left (firstLe.trans secondLe).not_gt).2
  exact lt_asymm (firstTag.trans secondTag) thirdTag

/-- Without a wedge there is no cycle. -/
theorem not_cycle
    (unwedged : ∀ left ∈ members, ∀ wedge ∈ members, ∀ right ∈ members,
      ¬Wedged key tag left wedge right)
    {first second third : α}
    (firstMember : first ∈ members) (secondMember : second ∈ members)
    (thirdMember : third ∈ members)
    (opens : compareBy key tag first second = .lt)
    (continues : compareBy key tag second third = .lt) :
    compareBy key tag third first ≠ .lt := by
  intro closes
  cases firstKey : key first with
  | none =>
      exact unwedged second secondMember first firstMember third thirdMember
        (wedged_of_cycle firstKey continues closes opens)
  | some low =>
      cases secondKey : key second with
      | none =>
          exact unwedged third thirdMember second secondMember first firstMember
            (wedged_of_cycle secondKey closes opens continues)
      | some middle =>
          cases thirdKey : key third with
          | none =>
              exact unwedged first firstMember third thirdMember second
                secondMember (wedged_of_cycle thirdKey opens continues closes)
          | some high =>
              exact not_cycle_of_keys firstKey secondKey thirdKey opens
                continues closes

/-- Where tags are distinct the comparator is a total order of the members
exactly if none of them is wedged. -/
theorem totalOrderOn_compareBy_iff
    (distinct : ∀ left ∈ members, ∀ right ∈ members,
      tag left = tag right → left = right) :
    TotalOrderOn (compareBy key tag) members ↔
      ∀ left ∈ members, ∀ wedge ∈ members, ∀ right ∈ members,
        ¬Wedged key tag left wedge right := by
  constructor
  · rintro total left leftMember wedge wedgeMember right rightMember wedged
    obtain ⟨low, high, leftKey, rightKey, ordered⟩ := wedged.keys
    have opens : compareBy key tag left right = .lt :=
      (compareBy_eq_lt_of_keys leftKey rightKey).mpr (Or.inl ordered)
    have continues : compareBy key tag right wedge = .lt :=
      (compareBy_eq_lt_of_keyless (Or.inr wedged.keyless)).mpr wedged.above
    have across := total.trans left leftMember right rightMember wedge
      wedgeMember opens continues
    rw [compareBy_eq_lt_of_keyless (Or.inr wedged.keyless)] at across
    exact lt_asymm across wedged.below
  · intro unwedged
    have distinguishes : ∀ left ∈ members, ∀ right ∈ members,
        compareBy key tag left right = .eq → left = right :=
      fun left leftMember right rightMember same =>
        distinct left leftMember right rightMember
          (tag_eq_of_compareBy_eq same)
    refine ⟨fun left _ right _ => compareBy_swap left right, distinguishes, ?_⟩
    intro left leftMember middle middleMember right rightMember first second
    cases answer : compareBy key tag left right with
    | lt => rfl
    | eq =>
        obtain rfl := distinguishes left leftMember right rightMember answer
        rw [compareBy_swap, first] at second
        cases second
    | gt =>
        have closes : compareBy key tag right left = .lt := by
          rw [compareBy_swap, answer]
          rfl
        exact absurd closes
          (not_cycle unwedged leftMember middleMember rightMember first second)

/-! ## Sorting a part -/

namespace TotalOrderOn

variable {compare : α → α → Ordering} {members others : List α}

theorem subset
    (total : TotalOrderOn compare members) (part : others ⊆ members) :
    TotalOrderOn compare others where
  swaps := fun left leftMember right rightMember =>
    total.swaps left (part leftMember) right (part rightMember)
  distinguishes := fun left leftMember right rightMember =>
    total.distinguishes left (part leftMember) right (part rightMember)
  trans := fun left leftMember middle middleMember right rightMember =>
    total.trans left (part leftMember) middle (part middleMember) right
      (part rightMember)

/-- Sorting a part by a total order leaves out the other members. -/
theorem sortBy_sublist
    (total : TotalOrderOn compare members) (sorter : Sorter.{u})
    (distinct : members.Nodup) (part : others.Subperm members) :
    (sorter.sortBy compare others).Sublist (sorter.sortBy compare members) := by
  classical
  obtain ⟨arranged, rearranged, inOrder⟩ := part
  have part : others.Subperm members := ⟨arranged, rearranged, inOrder⟩
  have whole := sorter.perm compare members
  have partSorted := sorter.perm compare others
  have kept : (sorter.sortBy compare others).Perm
      ((sorter.sortBy compare members).filter fun member =>
        decide (member ∈ others)) := by
    refine (List.perm_ext_iff_of_nodup
      (partSorted.nodup_iff.mpr (rearranged.nodup_iff.mp (distinct.sublist inOrder)))
      ((whole.nodup_iff.mpr distinct).filter _)).mpr fun member => ?_
    rw [partSorted.mem_iff, List.mem_filter, whole.mem_iff, decide_eq_true_iff]
    exact ⟨fun isPart => ⟨part.subset isPart, isPart⟩, And.right⟩
  have same := kept.eq_of_pairwise
    (fun left right leftMember rightMember atMost atLeast =>
      total.antisymm (part.subset (partSorted.mem_iff.mp leftMember))
        (whole.mem_iff.mp (List.mem_of_mem_filter rightMember)) atMost atLeast)
    (sorter.sorted (total.subset part.subset))
    ((sorter.sorted total).filter _)
  rw [same]
  exact List.filter_sublist

/-- Two members are sorted as they compare. -/
theorem sortBy_pair
    {left right : α} (total : TotalOrderOn compare [left, right])
    (sorter : Sorter.{u}) (before : compare left right = .lt) :
    sorter.sortBy compare [left, right] = [left, right] := by
  rcases List.perm_pair.mp (sorter.perm compare [left, right]) with
    same | reversed
  · exact same
  · have sorted := sorter.sorted total
    rw [reversed] at sorted
    have wrong := List.rel_of_pairwise_cons sorted List.mem_cons_self
    rw [total.swaps left List.mem_cons_self right
      (List.mem_cons_of_mem _ List.mem_cons_self), before] at wrong
    cases wrong

end TotalOrderOn

omit [LinearOrder σ] [LinearOrder τ] in
/-- Three members of a list do not each come before the next. -/
theorem not_cycle_of_sublists
    {members : List α} (distinct : members.Nodup) {first second third : α}
    (opens : [first, second].Sublist members)
    (continues : [second, third].Sublist members)
    (closes : [third, first].Sublist members) : False := by
  induction members with
  | nil => cases opens
  | cons head tail inductionHypothesis =>
      have fresh := (List.nodup_cons.mp distinct).1
      have later : ∀ {left right : α}, [left, right].Sublist (head :: tail) →
          right ∈ tail := by
        intro left right ordered
        cases ordered with
        | cons _ inTail => exact inTail.subset (by simp)
        | cons_cons _ inTail => exact inTail.subset (by simp)
      have inTail : ∀ {left right : α}, [left, right].Sublist (head :: tail) →
          left ∈ tail → [left, right].Sublist tail := by
        intro left right ordered member
        cases ordered with
        | cons _ inTail => exact inTail
        | cons_cons _ _ => exact absurd member fresh
      exact inductionHypothesis (List.nodup_cons.mp distinct).2
        (inTail opens (later closes)) (inTail continues (later opens))
        (inTail closes (later continues))

theorem Wedged.nodup {left wedge right : α}
    (wedged : Wedged key tag left wedge right) :
    [left, wedge, right].Nodup := by
  have apart : ∀ {low high : α}, tag low < tag high → high ≠ low := by
    rintro low _ before rfl
    exact lt_irrefl _ before
  simp [apart wedged.below, apart wedged.above,
    apart (wedged.above.trans wedged.below)]

theorem totalOrderOn_compareBy_pair
    {left right : α} (distinct : tag left = tag right → left = right) :
    TotalOrderOn (compareBy key tag) [left, right] := by
  refine (totalOrderOn_compareBy_iff ?_).mpr ?_
  · simp only [List.mem_cons, List.not_mem_nil, or_false]
    rintro _ (rfl | rfl) _ (rfl | rfl) same
    · rfl
    · exact distinct same
    · exact (distinct same.symm).symm
    · rfl
  · intro low lowMember wedge wedgeMember high highMember wedged
    have part : [low, wedge, high].Subperm [left, right] :=
      List.subperm_of_subset wedged.nodup (by
        simp only [List.cons_subset, List.nil_subset, and_true]
        exact ⟨lowMember, wedgeMember, highMember⟩)
    exact absurd part.length_le (by simp)

/-- Every part is sorted as it is within the whole exactly if no member is
wedged between two others. -/
theorem sortBy_sublist_iff
    (sorter : Sorter.{u}) (nodup : members.Nodup)
    (distinct : ∀ left ∈ members, ∀ right ∈ members,
      tag left = tag right → left = right) :
    (∀ others : List α, others.Subperm members →
        (sorter.sortBy (compareBy key tag) others).Sublist
          (sorter.sortBy (compareBy key tag) members)) ↔
      ∀ left ∈ members, ∀ wedge ∈ members, ∀ right ∈ members,
        ¬Wedged key tag left wedge right := by
  constructor
  · intro agrees left leftMember wedge wedgeMember right rightMember wedged
    obtain ⟨low, high, leftKey, rightKey, ordered⟩ := wedged.keys
    have pair : ∀ first ∈ members, ∀ second ∈ members,
        compareBy key tag first second = .lt →
          [first, second].Sublist (sorter.sortBy (compareBy key tag) members) := by
      intro first firstMember second secondMember before
      have apart : first ≠ second := by
        rintro rfl
        have swapped : compareBy key tag first first = _ :=
          compareBy_swap first first
        rw [before] at swapped
        cases swapped
      have part : [first, second].Subperm members :=
        List.subperm_of_subset (by simp [apart]) (by
          simp [firstMember, secondMember])
      have sorted := agrees [first, second] part
      rwa [(totalOrderOn_compareBy_pair (distinct first firstMember second
        secondMember)).sortBy_pair sorter before] at sorted
    exact not_cycle_of_sublists ((sorter.perm _ _).nodup_iff.mpr nodup)
      (pair left leftMember right rightMember
        ((compareBy_eq_lt_of_keys leftKey rightKey).mpr (Or.inl ordered)))
      (pair right rightMember wedge wedgeMember
        ((compareBy_eq_lt_of_keyless (Or.inr wedged.keyless)).mpr wedged.above))
      (pair wedge wedgeMember left leftMember
        ((compareBy_eq_lt_of_keyless (Or.inl wedged.keyless)).mpr wedged.below))
  · intro unwedged others part
    exact ((totalOrderOn_compareBy_iff distinct).mpr unwedged).sortBy_sublist
      sorter nodup part

end TieBreak
