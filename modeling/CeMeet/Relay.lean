import CeMeet.Foundation.TieBreak
import Mathlib.Data.String.Basic

/-!
# The selection of a TURN relay

Discovered relays are ranked by a score, and by node id where the scores are
equal or not comparable.  A score that is not comparable makes the ranking
depend on the order of discovery.  Reputations and scores are floating-point
numbers and a parameter of the model.
-/

namespace CeMeet

/-- A discovered TURN relay. -/
structure RelayCandidate (ρ : Type) where
  /-- The relay's node id. -/
  nodeId : String
  /-- The relay's TURN URL. -/
  turnUrl : String
  /-- The estimated round-trip latency in milliseconds. -/
  rttMs : UInt32
  /-- The reputation the host has computed. -/
  reputation : ρ
  deriving DecidableEq

namespace RelayCandidate

variable {ρ σ : Type} [LinearOrder σ] (score : UInt32 → ρ → Option σ)

/-- The order of preference: by score, where lower is better, and by node id
where the scores are equal or one is not a number. -/
def compare (left right : RelayCandidate ρ) : Ordering :=
  TieBreak.compareBy (fun candidate => score candidate.rttMs candidate.reputation)
    nodeId left right

/-- Rank relays, best first. -/
def selectRelay (sorter : TieBreak.Sorter)
    (candidates : List (RelayCandidate ρ)) : List (RelayCandidate ρ) :=
  sorter.sortBy (compare score) candidates

/-- A relay whose score is not a number lies by node id between two relays of
which the better one has the greater node id. -/
def Wedged (left wedge right : RelayCandidate ρ) : Prop :=
  TieBreak.Wedged
    (fun candidate => score candidate.rttMs candidate.reputation) nodeId
    left wedge right

/-- For relays with distinct node ids the order of preference is total, and
every order of discovery leads to the same ranking of all of them, exactly if
no relay without a score is wedged between two others. -/
theorem selectRelay_orderless_iff
    (sorter : TieBreak.Sorter)
    (candidates : List (RelayCandidate ρ))
    (distinct : (candidates.map nodeId).Nodup) :
    (TieBreak.TotalOrderOn (compare score) candidates ∧
        ∀ discovered : List (RelayCandidate ρ),
          discovered.Perm candidates →
          selectRelay score sorter discovered =
              selectRelay score sorter candidates ∧
            (selectRelay score sorter discovered).Perm candidates) ↔
      ∀ left ∈ candidates, ∀ wedge ∈ candidates, ∀ right ∈ candidates,
        ¬Wedged score left wedge right := by
  have total : TieBreak.TotalOrderOn (compare score) candidates ↔ _ :=
    TieBreak.totalOrderOn_compareBy_iff
      fun left leftMember right rightMember same =>
        List.inj_on_of_nodup_map distinct leftMember rightMember same
  refine Iff.trans ?_ total
  refine ⟨And.left, fun ordered => ⟨ordered, fun discovered same => ?_⟩⟩
  exact ⟨ordered.sortBy_eq_of_perm sorter same,
    (sorter.perm _ _).trans same⟩

/-- The score in units of a five-hundredth of a millisecond, for a reputation in
percent; `none` is not a number. -/
def percentScore (rttMs : UInt32) (reputation : Option Nat) : Option Nat :=
  reputation.map fun percent => rttMs.toNat * (500 - min percent 100)

/-- A relay with a reputation of zero. -/
def relayAt (nodeId : String) (rttMs : UInt32) : RelayCandidate (Option Nat) :=
  { nodeId, turnUrl := "turn:relay:3478", rttMs, reputation := some 0 }

/-- A relay whose reputation is not a number. -/
def unratedRelay (nodeId : String) : RelayCandidate (Option Nat) :=
  { nodeId, turnUrl := "turn:relay:3478", rttMs := 30, reputation := none }

/-- A relay without a score that comes last by node id does no harm. -/
theorem selectRelay_unrated_last :
    TieBreak.TotalOrderOn (compare percentScore)
      [relayAt "bb" 20, unratedRelay "cc", relayAt "aa" 200] := by
  refine ((selectRelay_orderless_iff percentScore .mergeSort _
    (by decide)).mpr ?_).1
  intro left leftMember wedge wedgeMember right _ wedged
  simp only [List.mem_cons, List.not_mem_nil, or_false] at leftMember wedgeMember
  rcases wedgeMember with rfl | rfl | rfl
  · cases wedged.keyless
  · have last : ∀ candidate ∈
        [relayAt "bb" 20, unratedRelay "cc", relayAt "aa" 200],
        ¬(unratedRelay "cc").nodeId < candidate.nodeId := by
      decide
    exact last left (by simpa using leftMember) wedged.below
  · cases wedged.keyless

/-- Move three relays round. -/
def rotate (candidate : RelayCandidate (Option Nat)) :
    RelayCandidate (Option Nat) :=
  if candidate = relayAt "cc" 20 then relayAt "aa" 200
  else if candidate = relayAt "aa" 200 then unratedRelay "bb"
  else relayAt "cc" 20

/-- A relay without a score between a better one and a worse one, by node id:
the order of preference is not total, and whatever way of sorting is used, the
ranking depends on the order of discovery. -/
theorem selectRelay_unrated_between :
    let candidates := [relayAt "cc" 20, relayAt "aa" 200, unratedRelay "bb"]
    (candidates.map nodeId).Nodup ∧
      ¬TieBreak.TotalOrderOn (compare percentScore) candidates ∧
      ¬∃ sorter : TieBreak.Sorter, ∀ discovered,
        discovered.Perm candidates →
        selectRelay percentScore sorter discovered =
          selectRelay percentScore sorter candidates := by
  intro candidates
  refine ⟨by decide, fun total => ?_, ?_⟩
  · have across := total.trans (relayAt "cc" 20) (by simp [candidates])
      (relayAt "aa" 200) (by simp [candidates]) (unratedRelay "bb")
      (by simp [candidates]) (by decide) (by decide)
    exact absurd across (by decide)
  · rintro ⟨sorter, orderless⟩
    have rotated : (candidates.map rotate).Perm candidates := by decide
    exact sorter.sortBy_ne_of_symmetry rotate (by simp [candidates])
      (by decide) (by decide) (orderless _ rotated)

/-! ## Hosts that discover different relays -/

/-- For relays with distinct node ids, a host that has discovered any part of
them, in any order, ranks these as they are ranked among all, exactly if no
relay without a score is wedged between two others.  Two hosts then agree on
the relays that both have discovered, and a relay that is gone leaves the
ranking of the others as it was. -/
theorem selectRelay_sublist_iff
    (sorter : TieBreak.Sorter)
    (candidates : List (RelayCandidate ρ))
    (distinct : (candidates.map nodeId).Nodup) :
    (∀ discovered : List (RelayCandidate ρ),
        discovered.Subperm candidates →
        (selectRelay score sorter discovered).Sublist
          (selectRelay score sorter candidates)) ↔
      ∀ left ∈ candidates, ∀ wedge ∈ candidates, ∀ right ∈ candidates,
        ¬Wedged score left wedge right :=
  TieBreak.sortBy_sublist_iff sorter (distinct.of_map _)
    fun _ leftMember _ rightMember same =>
      List.inj_on_of_nodup_map distinct leftMember rightMember same

/-- With a relay without a score between a better one and a worse one, by node
id, some host ranks what it has discovered in another way. -/
theorem selectRelay_unrated_disagrees :
    ¬∀ discovered : List (RelayCandidate (Option Nat)),
      discovered.Subperm
          [relayAt "cc" 20, relayAt "aa" 200, unratedRelay "bb"] →
        (selectRelay percentScore .mergeSort discovered).Sublist
          (selectRelay percentScore .mergeSort
            [relayAt "cc" 20, relayAt "aa" 200, unratedRelay "bb"]) := by
  intro agrees
  have wedged : Wedged percentScore (relayAt "cc" 20) (unratedRelay "bb")
      (relayAt "aa" 200) :=
    { keyless := rfl
      keys := ⟨_, _, rfl, rfl, by decide⟩
      above := by decide
      below := by decide }
  exact (selectRelay_sublist_iff percentScore .mergeSort _ (by decide)).mp
    agrees _ (by simp) _ (by simp) _ (by simp) wedged

end RelayCandidate
end CeMeet
