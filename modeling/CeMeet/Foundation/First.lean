import Mathlib.Data.List.Infix

/-!
# The first item of a kind

A list whose first item of some kind is good, if it has one at all.  These are
the lists all of whose prefixes have a good item of the kind as soon as they
have one of the kind.
-/

universe u

variable {α : Type u}

/-- Whether the first item of a kind, if there is one, is good. -/
def FirstSatisfies (kind good : α → Prop) (items : List α) : Prop :=
  ∀ done item rest, items = done ++ item :: rest →
    (∀ earlier ∈ done, ¬kind earlier) → kind item → good item

namespace FirstSatisfies

variable {kind good : α → Prop}

@[simp] theorem nil : FirstSatisfies kind good [] := by
  intro done item rest split
  simp at split

theorem cons_of_kind {item : α} {items : List α} (isKind : kind item) :
    FirstSatisfies kind good (item :: items) ↔ good item := by
  constructor
  · intro first
    exact first [] item items rfl (by simp) isKind
  · rintro isGood (_ | ⟨head, done⟩) other rest split none _
    · cases split
      exact isGood
    · cases split
      exact absurd isKind (none item (by simp))

theorem cons_of_not_kind {item : α} {items : List α} (notKind : ¬kind item) :
    FirstSatisfies kind good (item :: items) ↔
      FirstSatisfies kind good items := by
  constructor
  · intro first done other rest split none
    refine first (item :: done) other rest (by rw [split]; rfl) ?_
    exact List.forall_mem_cons.mpr ⟨notKind, none⟩
  · rintro first (_ | ⟨head, done⟩) other rest split none isKind
    · cases split
      exact absurd isKind notKind
    · cases split
      exact first done other rest rfl
        (fun earlier member => none earlier (List.mem_cons_of_mem _ member))
        isKind

/-- The first item of the kind is good exactly when every prefix with an item
of the kind has a good one. -/
theorem iff_prefixes {items : List α} :
    FirstSatisfies kind good items ↔
      ∀ done, done <+: items → (∃ item ∈ done, kind item) →
        ∃ item ∈ done, kind item ∧ good item := by
  induction items with
  | nil => simp
  | cons item items inductionHypothesis =>
      by_cases isKind : kind item
      · rw [cons_of_kind isKind]
        constructor
        · rintro isGood (_ | ⟨head, done⟩) isPrefix ⟨other, member, _⟩
          · simp at member
          · obtain ⟨rfl, _⟩ := List.cons_prefix_cons.mp isPrefix
            exact ⟨head, by simp, isKind, isGood⟩
        · intro prefixes
          obtain ⟨other, member, _, isGood⟩ :=
            prefixes [item] (by simp) ⟨item, by simp, isKind⟩
          rwa [List.mem_singleton.mp member] at isGood
      · rw [cons_of_not_kind isKind, inductionHypothesis]
        constructor
        · rintro prefixes (_ | ⟨head, done⟩) isPrefix ⟨other, member, otherKind⟩
          · simp at member
          · obtain ⟨rfl, donePrefix⟩ := List.cons_prefix_cons.mp isPrefix
            have inDone : other ∈ done :=
              (List.mem_cons.mp member).resolve_left fun same =>
                isKind (same ▸ otherKind)
            obtain ⟨found, foundMember, facts⟩ :=
              prefixes done donePrefix ⟨other, inDone, otherKind⟩
            exact ⟨found, List.mem_cons_of_mem _ foundMember, facts⟩
        · rintro prefixes done donePrefix ⟨other, member, otherKind⟩
          obtain ⟨found, foundMember, foundKind, isGood⟩ :=
            prefixes (item :: done)
              (List.cons_prefix_cons.mpr ⟨rfl, donePrefix⟩)
              ⟨other, List.mem_cons_of_mem _ member, otherKind⟩
          have inDone : found ∈ done :=
            (List.mem_cons.mp foundMember).resolve_left fun same =>
              isKind (same ▸ foundKind)
          exact ⟨found, inDone, foundKind, isGood⟩

end FirstSatisfies
