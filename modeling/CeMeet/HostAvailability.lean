import CeMeet.HostIndependence

/-!
# The host is there for patient nodes

A node that asks no more than ten times within ten seconds is never turned away
by the rate limiter, whatever the other nodes send, as long as no more of them
are active within a window than are tracked.
-/

namespace CeMeet
namespace Host

open AdmitRateLimiter FixedWindow

variable {Token : Type}

/-- When all are allowed, every request that parses is granted. -/
theorem granted_of_all (serde : AdmitSerde) (arrivals : List (Arrival Token)) :
    granted serde arrivals (List.replicate arrivals.length true) =
      arrivals.filterMap (parsed serde) := by
  induction arrivals with
  | nil => rfl
  | cons arrival arrivals inductionHypothesis =>
      rw [List.length_cons, List.replicate_succ, granted_cons,
        inductionHypothesis, if_pos rfl, List.filterMap_cons]
      cases parsed serde arrival <;> rfl

/-- A node asks no more than ten times within ten seconds. -/
abbrev IsPatient (node : String) (arrivals : List (Arrival Token)) : Prop :=
  Patient 10 10 (timesOf node ((asked arrivals).map Arrival.attempt))

/-- The limiter allows all that a patient node asks. -/
theorem outputs_of_isPatient {node : String} {arrivals : List (Arrival Token)}
    (ordered : ((asked arrivals).map Arrival.attempt).Pairwise
      fun earlier later => earlier.2 ≤ later.2)
    (patient : IsPatient node arrivals) :
    Transducer.outputs attempt .default
        (((asked arrivals).filter (Arrival.isFrom node)).map Arrival.attempt) =
      List.replicate ((asked arrivals).filter (Arrival.isFrom node)).length
        true := by
  have inTime : (timesOf node ((asked arrivals).map
      Arrival.attempt)).Pairwise (· ≤ ·) := by
    refine ordered.filterMap _ fun earlier later passes time selects
      other otherSelects => ?_
    simp only [Option.ite_none_right_eq_some, Option.some.injEq]
      at selects otherSelects
    rw [← selects.2, ← otherSelects.2]
    exact UInt64.le_iff_toNat_le.mp passes
  have answers := outputs_counter_of_patient inTime patient
  have own := outputs_own node (asked arrivals) ordered
  rw [answers] at own
  have lengths := congrArg List.length own
  rw [Transducer.length_outputs, List.length_map, List.length_replicate]
    at lengths
  rw [own, lengths]

/-- As long as the clock of a host does not go backwards and no more than 4096
nodes ask within ten seconds, every request of a node that asks no more than ten
times within ten seconds is answered, and in the order of arrival. -/
theorem answers_patient
    {crypto : Crypto} {iam : CeIam} {me room : String} {isOpen : Bool}
    {roots : List String}
    {revoked : Except String (List (String × UInt64))} {handler : Admitter}
    (hosts : admitter crypto me room isOpen roots revoked = .ok handler)
    (serde : AdmitSerde) (cycles : UInt64)
    {polls : List (Except String (List (Arrival Token)))}
    (ordered : (polled polls).Pairwise fun earlier later =>
      earlier.checkedAt ≤ later.checkedAt)
    (roomy : AdmitRateLimiter.default.Roomy
      ((asked (polled polls)).map Arrival.attempt))
    {node : String} (patient : IsPatient node (polled polls)) :
    (host crypto iam serde me room isOpen roots revoked cycles polls).map
        (List.filter fun exchange => exchange.request.arrival.isFrom node) =
      .ok ((((asked (polled (served cycles polls))).filter
        (Arrival.isFrom node)).filterMap (parsed serde)).map
          (answer crypto iam serde handler)) := by
  have started := polled_served_initial cycles polls
  have inTime : ((asked (polled (served cycles polls))).map
      Arrival.attempt).Pairwise fun earlier later => earlier.2 ≤ later.2 :=
    List.pairwise_map.mpr
      (ordered.sublist (List.filter_sublist.trans started.sublist))
  have served : IsPatient node (polled (Host.served cycles polls)) :=
    patient.of_prefix (((started.filter _).map _).filterMap _)
  have all := outputs_of_isPatient inTime served
  rw [host_eq_ok hosts]
  change Except.ok (List.filter _ _) = _
  rw [List.filter_map]
  change Except.ok (List.map _ (List.filter
    (fun request : Request Token => request.arrival.isFrom node) _)) = _
  rw [← requests_pollsOf serde cycles ordered roomy node, requests_eq_granted,
    served_pollsOf, polled_pollsOf, asked_filter, all, granted_of_all]

/-- A participant asks while another node floods the host. -/
theorem answers_patient_ann :
    let flood : Arrival Nat :=
      { annArrives with
        message := { annArrives.message with sender := "mallory" } }
    let polls := [.ok (List.replicate 12 flood ++ [annArrives])]
    ∃ handler,
      admitter hubCrypto hub "r" false [] (.ok []) = .ok handler ∧
        (host hubCrypto Admitter.annIam annSerde hub "r" false [] (.ok []) 1
          polls).map (List.filter fun exchange =>
            exchange.request.arrival.isFrom Admitter.ann) =
          .ok ((((asked (polled (served 1 polls))).filter
            (Arrival.isFrom Admitter.ann)).filterMap (parsed annSerde)).map
              (answer hubCrypto Admitter.annIam annSerde handler)) :=
  ⟨_, admitter_hub, answers_patient admitter_hub annSerde 1 (by decide)
    (by decide) (by decide)⟩

end Host
end CeMeet
