import CeMeet.Admit.Independence
import CeMeet.HostFlood

/-!
# The host serves every node by itself

As long as no more senders are active within a window than the rate limiter
tracks, what a node gets from the host is what it would get if no other node
ever sent anything.
-/

namespace CeMeet
namespace Host

open AdmitRateLimiter

variable {Token : Type}

/-- Whether an arrival comes from a node. -/
def Arrival.isFrom (node : String) (arrival : Arrival Token) : Bool :=
  arrival.message.sender = node

/-- The polls of an inbox that only a node sends to. -/
def pollsOf (node : String)
    (polls : List (Except String (List (Arrival Token)))) :
    List (Except String (List (Arrival Token))) :=
  polls.map fun poll => poll.map (List.filter (Arrival.isFrom node))

theorem polled_pollsOf (node : String)
    (polls : List (Except String (List (Arrival Token)))) :
    polled (pollsOf node polls) =
      (polled polls).filter (Arrival.isFrom node) := by
  induction polls with
  | nil => rfl
  | cons poll polls inductionHypothesis =>
      rw [pollsOf] at inductionHypothesis
      cases poll with
      | error e => exact inductionHypothesis
      | ok arrivals =>
          rw [polled, List.filter_append, ← inductionHypothesis]
          rfl

theorem served_pollsOf (node : String) (cycles : UInt64)
    (polls : List (Except String (List (Arrival Token)))) :
    served cycles (pollsOf node polls) = pollsOf node (served cycles polls) := by
  unfold served
  split
  · rfl
  · exact List.map_take.symm

theorem asked_filter (node : String) (arrivals : List (Arrival Token)) :
    asked (arrivals.filter (Arrival.isFrom node)) =
      (asked arrivals).filter (Arrival.isFrom node) := by
  simp only [asked, List.filter_filter, Bool.and_comm]

theorem granted_cons
    (serde : AdmitSerde) (arrival : Arrival Token)
    (arrivals : List (Arrival Token)) (answer : Bool) (answers : List Bool) :
    granted serde (arrival :: arrivals) (answer :: answers) =
      (if answer then parsed serde arrival else none).toList ++
        granted serde arrivals answers := by
  rw [granted, List.zip_cons_cons, List.filterMap_cons, ← granted]
  cases (if answer then parsed serde arrival else none) <;> rfl

/-- The answers about the arrivals of a node suffice for its requests. -/
theorem filter_granted
    (serde : AdmitSerde) (node : String) (arrivals : List (Arrival Token))
    (answers : List Bool) (each : answers.length = arrivals.length) :
    (granted serde arrivals answers).filter
        (fun request => request.arrival.isFrom node) =
      granted serde (arrivals.filter (Arrival.isFrom node))
        (((arrivals.map Arrival.attempt).zip answers).filterMap fun answered =>
          (timeOf node answered.1).map fun _ => answered.2) := by
  induction arrivals generalizing answers with
  | nil => rfl
  | cons arrival arrivals inductionHypothesis =>
      obtain ⟨answer, answers, rfl⟩ :=
        List.exists_cons_of_length_eq_add_one each
      have rest := inductionHypothesis answers (Nat.succ.inj each)
      have timed : timeOf node arrival.attempt =
          if arrival.isFrom node then some arrival.checkedAt.toNat else none := by
        by_cases own : arrival.message.sender = node <;>
          simp [timeOf, Arrival.isFrom, Arrival.attempt, own]
      have kept : ((if answer then parsed serde arrival
          else none).toList.filter fun request =>
            request.arrival.isFrom node) =
          if arrival.isFrom node then
            (if answer then parsed serde arrival else none).toList
          else [] := by
        cases answer with
        | false => simp
        | true =>
            cases parses : parsed serde arrival with
            | none => simp
            | some request =>
                simp [List.filter_cons, arrival_of_parsed parses]
      rw [granted_cons, List.filter_append, rest, kept, List.filter_cons,
        List.map_cons, List.zip_cons_cons, List.filterMap_cons]
      dsimp only
      rw [timed]
      cases own : arrival.isFrom node with
      | false => rfl
      | true => exact (granted_cons ..).symm

/-- The times of a node's attempts do not depend on what others send. -/
theorem timesOf_filter (node : String) (arrivals : List (Arrival Token)) :
    timesOf node ((arrivals.filter (Arrival.isFrom node)).map
        Arrival.attempt) =
      timesOf node (arrivals.map Arrival.attempt) := by
  simp only [timesOf, List.filterMap_map, List.filterMap_filter]
  refine List.filterMap_congr fun arrival _ => ?_
  by_cases own : arrival.message.sender = node <;>
    simp [Arrival.isFrom, Arrival.attempt, own]

/-- The attempts of a node are no more than one active sender. -/
theorem roomy_of_isFrom (node : String) (arrivals : List (Arrival Token)) :
    AdmitRateLimiter.default.Roomy
      ((arrivals.filter (Arrival.isFrom node)).map Arrival.attempt) := by
  intro done call reached
  have alone : ∀ other ∈ active AdmitRateLimiter.default.windowSecs.toNat
      (done ++ [call]) call.2, other = node := by
    intro other member
    obtain ⟨time, made, _⟩ := mem_active_iff.mp member
    obtain ⟨arrival, own, same⟩ := List.mem_map.mp (reached.subset made)
    have fromNode := of_decide_eq_true (List.mem_filter.mp own).2
    rw [← fromNode]
    exact (congrArg Prod.fst same).symm
  refine (Finset.card_le_one_iff_subset_singleton.mpr
    ⟨node, fun other member => ?_⟩).trans (by decide)
  exact Finset.mem_singleton.mpr (alone other member)

/-- What the limiter answers a node about its own attempts alone. -/
theorem outputs_own (node : String) (arrivals : List (Arrival Token))
    (ordered : (arrivals.map Arrival.attempt).Pairwise
      fun earlier later => earlier.2 ≤ later.2) :
    Transducer.outputs attempt .default
        ((arrivals.filter (Arrival.isFrom node)).map Arrival.attempt) =
      Transducer.outputs (FixedWindow.counter 10 10) none
        (timesOf node (arrivals.map Arrival.attempt)) := by
  have own : ∀ call ∈ (arrivals.filter (Arrival.isFrom node)).map
      Arrival.attempt, (timeOf node call).isSome := by
    intro call member
    obtain ⟨arrival, kept, rfl⟩ := List.mem_map.mp member
    have fromNode := of_decide_eq_true (List.mem_filter.mp kept).2
    simp [timeOf, Arrival.attempt, fromNode]
  have inTime : ((arrivals.filter (Arrival.isFrom node)).map
      Arrival.attempt).Pairwise fun earlier later => earlier.2 ≤ later.2 :=
    ordered.sublist (List.filter_sublist.map _)
  rw [← Transducer.outputsAt_of_all own, ← timesOf_filter]
  exact outputsAt_eq_counter 10 10 4096 inTime (roomy_of_isFrom node arrivals)
    node

theorem requests_pollsOf
    (serde : AdmitSerde) (cycles : UInt64)
    {polls : List (Except String (List (Arrival Token)))}
    (ordered : (polled polls).Pairwise fun earlier later =>
      earlier.checkedAt ≤ later.checkedAt)
    (roomy : AdmitRateLimiter.default.Roomy
      ((asked (polled polls)).map Arrival.attempt))
    (node : String) :
    requests serde cycles (pollsOf node polls) =
      (requests serde cycles polls).filter
        fun request => request.arrival.isFrom node := by
  have started := polled_served_initial cycles polls
  have inTime : ((asked (polled (served cycles polls))).map
      Arrival.attempt).Pairwise fun earlier later => earlier.2 ≤ later.2 :=
    List.pairwise_map.mpr
      (ordered.sublist (List.filter_sublist.trans started.sublist))
  have answered := outputsAt_eq_counter 10 10 4096 inTime
    (roomy.of_prefix ((started.filter _).map _)) node
  rw [requests_eq_granted, requests_eq_granted, served_pollsOf, polled_pollsOf,
    asked_filter, outputs_own node _ inTime, filter_granted]
  · exact congrArg (granted serde _) answered.symm
  · rw [Transducer.length_outputs, List.length_map]

/-- As long as the clock of a host does not go backwards and no more than 4096
nodes ask within ten seconds, a node gets from the host what it would get if no
other node ever sent anything. -/
theorem serves_independently
    (crypto : Crypto) (iam : CeIam) (serde : AdmitSerde) (me room : String)
    (isOpen : Bool) (roots : List String)
    (revoked : Except String (List (String × UInt64))) (cycles : UInt64)
    (polls : List (Except String (List (Arrival Token))))
    (ordered : (polled polls).Pairwise fun earlier later =>
      earlier.checkedAt ≤ later.checkedAt)
    (roomy : AdmitRateLimiter.default.Roomy
      ((asked (polled polls)).map Arrival.attempt))
    (node : String) :
    host crypto iam serde me room isOpen roots revoked cycles
        (pollsOf node polls) =
      (host crypto iam serde me room isOpen roots revoked cycles polls).map
        (List.filter fun exchange =>
          exchange.request.arrival.isFrom node) := by
  have own := requests_pollsOf serde cycles ordered roomy node
  cases hosts : admitter crypto me room isOpen roots revoked with
  | error e =>
      rw [host, host, hosts]
      rfl
  | ok handler =>
      rw [host_eq_ok hosts, host_eq_ok hosts, own]
      change Except.ok _ = Except.ok (List.filter _ _)
      rw [List.filter_map]
      rfl

/-- A node that floods the host does not matter to the participant. -/
theorem serves_independently_ann :
    let flood : Arrival Nat :=
      { annArrives with
        message := { annArrives.message with sender := "mallory" } }
    let polls := [.ok (List.replicate 12 flood ++ [annArrives])]
    host hubCrypto Admitter.annIam annSerde hub "r" false [] (.ok []) 1
        (pollsOf Admitter.ann polls) =
      (host hubCrypto Admitter.annIam annSerde hub "r" false [] (.ok []) 1
        polls).map
          (List.filter fun exchange =>
            exchange.request.arrival.isFrom Admitter.ann) :=
  serves_independently hubCrypto Admitter.annIam annSerde hub "r" false []
    (.ok []) 1 _ (by decide) (by decide) Admitter.ann

end Host
end CeMeet
