import CeMeet.Admit.Flood
import CeMeet.Revocation

/-!
# What a flood is answered

Every answer of the host's loop takes an attempt that the rate limiter allows.
So the bounds of the limiter bound the work of the host, whatever the mesh
delivers and whatever the requests hold.
-/

namespace CeMeet
namespace Host

open AdmitRateLimiter FixedWindow

variable {Token : Type}

/-- The attempt that an arrival is for the rate limiter. -/
def Arrival.attempt (arrival : Arrival Token) : Attempt :=
  (arrival.message.sender, arrival.checkedAt)

/-- The arrivals of all polls. -/
def polled : List (Except String (List (Arrival Token))) →
    List (Arrival Token)
  | [] => []
  | .ok arrivals :: polls => arrivals ++ polled polls
  | .error _ :: polls => polled polls

theorem polled_append
    (done rest : List (Except String (List (Arrival Token)))) :
    polled (done ++ rest) = polled done ++ polled rest := by
  induction done with
  | nil => rfl
  | cons poll done inductionHypothesis =>
      cases poll with
      | error e => exact inductionHypothesis
      | ok arrivals =>
          rw [List.cons_append, polled, inductionHypothesis, polled,
            List.append_assoc]

/-- Whether the rate limiter is asked about an arrival. -/
def Arrival.isAsked (arrival : Arrival Token) : Bool :=
  arrival.message.topic = topicAdmit && arrival.message.replyToken.isSome

/-- The arrivals that the rate limiter is asked about. -/
def asked (arrivals : List (Arrival Token)) : List (Arrival Token) :=
  arrivals.filter Arrival.isAsked

/-- The request that an arrival holds. -/
def parsed (serde : AdmitSerde) (arrival : Arrival Token) :
    Option (Request Token) :=
  match arrival.message.replyToken, arrival.message.payload with
  | some token, .ok bytes =>
      match serde.readReq bytes with
      | .ok req => some { arrival, token, req }
      | .error _ => none
  | _, _ => none

theorem arrival_of_parsed
    {serde : AdmitSerde} {arrival : Arrival Token} {request : Request Token}
    (parses : parsed serde arrival = some request) :
    request.arrival = arrival := by
  unfold parsed at parses
  split at parses
  case h_2 => cases parses
  case h_1 =>
    split at parses
    case h_2 => cases parses
    case h_1 =>
      cases parses
      rfl

theorem token_of_parsed
    {serde : AdmitSerde} {arrival : Arrival Token} {request : Request Token}
    (parses : parsed serde arrival = some request) :
    arrival.message.replyToken = some request.token := by
  unfold parsed at parses
  split at parses
  case h_2 => cases parses
  case h_1 handle _ =>
    split at parses
    case h_2 => cases parses
    case h_1 =>
      cases parses
      exact handle

theorem receive_of_not_asked
    (serde : AdmitSerde) (limiter : AdmitRateLimiter)
    {arrival : Arrival Token} (unasked : arrival.isAsked = false) :
    receive serde limiter arrival = (none, limiter) := by
  rw [receive]
  split
  case isTrue => rfl
  case isFalse forAdmission =>
    cases handle : arrival.message.replyToken with
    | none => rfl
    | some token =>
        simp [Arrival.isAsked, not_not.mp forAdmission, handle] at unasked

theorem receive_of_asked
    (serde : AdmitSerde) (limiter : AdmitRateLimiter)
    {arrival : Arrival Token} (relevant : arrival.isAsked = true) :
    receive serde limiter arrival =
      (if (limiter.attempt arrival.attempt).1 then parsed serde arrival
        else none, (limiter.attempt arrival.attempt).2) := by
  simp only [Arrival.isAsked, Bool.and_eq_true, decide_eq_true_eq,
    Option.isSome_iff_exists] at relevant
  obtain ⟨forAdmission, token, handle⟩ := relevant
  have same : limiter.attempt arrival.attempt =
      limiter.check arrival.message.sender arrival.checkedAt := rfl
  rw [receive, if_neg (not_not.mpr forAdmission), handle, parsed, handle, same]
  generalize limiter.check _ _ = checked
  obtain ⟨allowed, limiter⟩ := checked
  cases allowed with
  | false => rfl
  | true =>
      cases arrival.message.payload with
      | error e => rfl
      | ok bytes =>
          dsimp only
          cases serde.readReq bytes <;> rfl

/-- The requests of arrivals, given what the limiter answers about each. -/
def granted (serde : AdmitSerde) (arrivals : List (Arrival Token))
    (answers : List Bool) : List (Request Token) :=
  (arrivals.zip answers).filterMap fun answered =>
    if answered.2 then parsed serde answered.1 else none

theorem mem_granted
    {serde : AdmitSerde} {arrivals : List (Arrival Token)} {answers : List Bool}
    {request : Request Token} (member : request ∈ granted serde arrivals answers) :
    ∃ arrival ∈ arrivals, parsed serde arrival = some request := by
  obtain ⟨answered, zipped, parses⟩ := List.mem_filterMap.mp member
  split at parses
  case isTrue => exact ⟨_, (List.of_mem_zip zipped).1, parses⟩
  case isFalse => cases parses

theorem serveBatch_eq_granted
    (serde : AdmitSerde) (limiter : AdmitRateLimiter)
    (arrivals : List (Arrival Token)) :
    (serveBatch serde id limiter arrivals).1 =
        granted serde (asked arrivals)
          (Transducer.outputs attempt limiter
            ((asked arrivals).map Arrival.attempt)) ∧
      (serveBatch serde id limiter arrivals).2 =
        limiter.after ((asked arrivals).map Arrival.attempt) := by
  induction arrivals generalizing limiter with
  | nil => exact ⟨rfl, rfl⟩
  | cons arrival arrivals inductionHypothesis =>
      cases relevant : arrival.isAsked with
      | false =>
          rw [asked, List.filter_cons_of_neg (by simp [relevant]), ← asked,
            serveBatch, receive_of_not_asked serde limiter relevant]
          exact inductionHypothesis limiter
      | true =>
          obtain ⟨requests, after⟩ := inductionHypothesis
            (limiter.attempt arrival.attempt).2
          rw [asked, List.filter_cons_of_pos relevant, ← asked, serveBatch,
            receive_of_asked serde limiter relevant, List.map_cons]
          dsimp only
          rw [requests]
          refine ⟨?_, after⟩
          rw [Transducer.outputs_cons, granted, granted, List.zip_cons_cons,
            List.filterMap_cons]
          dsimp only
          cases (if (limiter.attempt arrival.attempt).1 then
            parsed serde arrival else none) <;> rfl

/-- The polls that take place. -/
def served (cycles : UInt64)
    (polls : List (Except String (List (Arrival Token)))) :
    List (Except String (List (Arrival Token))) :=
  if cycles = 0 then polls else polls.take cycles.toNat

theorem polled_served_initial (cycles : UInt64)
    (polls : List (Except String (List (Arrival Token)))) :
    polled (served cycles polls) <+: polled polls := by
  rw [served]
  split
  case isTrue => exact List.prefix_refl _
  case isFalse =>
    conv_rhs => rw [← List.take_append_drop cycles.toNat polls]
    rw [polled_append]
    exact List.prefix_append _ _

theorem serveBatch_append
    (serde : AdmitSerde) (limiter : AdmitRateLimiter)
    (done rest : List (Arrival Token)) :
    (serveBatch serde id limiter (done ++ rest)).1 =
      (serveBatch serde id limiter done).1 ++
        (serveBatch serde id (serveBatch serde id limiter done).2 rest).1 := by
  induction done generalizing limiter with
  | nil => rfl
  | cons arrival done inductionHypothesis =>
      simp only [List.cons_append, serveBatch, inductionHypothesis,
        List.append_assoc]

theorem serveFrom_eq
    (serde : AdmitSerde) (cycles : UInt64) (n : Nat)
    (continues : cycles ≠ 0 → n < cycles.toNat) (limiter : AdmitRateLimiter)
    (polls : List (Except String (List (Arrival Token)))) :
    serveFrom serde id cycles n limiter polls =
      (serveBatch serde id limiter (polled
        (if cycles = 0 then polls else polls.take (cycles.toNat - n)))).1 := by
  induction polls generalizing n limiter with
  | nil => simp [serveFrom, polled, serveBatch]
  | cons poll polls inductionHypothesis =>
      have step : serveFrom serde id cycles n limiter (poll :: polls) =
          let next := serveBatch serde id limiter (polled [poll])
          if cycles ≠ 0 ∧ cycles.toNat ≤ n + 1 then next.1
          else next.1 ++ serveFrom serde id cycles (n + 1) next.2 polls := by
        cases poll <;> simp [serveFrom, polled, serveBatch]
      have cut (rest : List (Except String (List (Arrival Token)))) :
          polled (poll :: rest) = polled [poll] ++ polled rest :=
        polled_append [poll] rest
      rw [step]
      dsimp only
      by_cases unbounded : cycles = 0
      · rw [if_neg (by simp [unbounded]), if_pos unbounded, cut polls,
          serveBatch_append,
          inductionHypothesis (n + 1) (fun bounded => absurd unbounded bounded),
          if_pos unbounded]
      · have inside := continues unbounded
        obtain ⟨left, more⟩ : ∃ left, cycles.toNat - n = left + 1 :=
          ⟨cycles.toNat - n - 1, by omega⟩
        rw [if_neg unbounded, more, List.take_succ_cons,
          cut (polls.take left), serveBatch_append]
        by_cases stops : cycles.toNat ≤ n + 1
        · obtain rfl : left = 0 := by omega
          rw [if_pos ⟨unbounded, stops⟩]
          simp [polled, serveBatch]
        · rw [if_neg fun both => stops both.2,
            inductionHypothesis (n + 1) (fun _ => not_le.mp stops),
            if_neg unbounded, show cycles.toNat - (n + 1) = left by omega]

/-- The requests that the loop answers are those that the limiter allows. -/
theorem requests_eq_granted
    (serde : AdmitSerde) (cycles : UInt64)
    (polls : List (Except String (List (Arrival Token)))) :
    requests serde cycles polls =
      granted serde (asked (polled (served cycles polls)))
        (Transducer.outputs attempt .default
          ((asked (polled (served cycles polls))).map Arrival.attempt)) := by
  have positive : cycles ≠ 0 → 0 < cycles.toNat := fun bounded =>
    Nat.pos_of_ne_zero fun zero => bounded (UInt64.toNat_inj.mp zero)
  rw [requests, serve, serveFrom_eq serde cycles 0 positive, Nat.sub_zero,
    (serveBatch_eq_granted ..).1, served]

/-- The attempt that a request is for the rate limiter. -/
def Request.attempt (request : Request Token) : Attempt :=
  request.arrival.attempt

theorem granted_sublist
    (serde : AdmitSerde) (arrivals : List (Arrival Token))
    (answers : List Bool) :
    ((granted serde arrivals answers).map Request.attempt).Sublist
      ((((arrivals.map Arrival.attempt).zip answers).filter Prod.snd).map
        Prod.fst) := by
  induction arrivals generalizing answers with
  | nil => exact List.nil_sublist _
  | cons arrival arrivals inductionHypothesis =>
      cases answers with
      | nil => exact List.nil_sublist _
      | cons answer answers =>
          have rest := inductionHypothesis answers
          rw [granted, List.map_cons, List.zip_cons_cons, List.zip_cons_cons,
            List.filterMap_cons]
          cases answer with
          | false =>
              rw [List.filter_cons_of_neg Bool.false_ne_true]
              exact rest
          | true =>
              rw [List.filter_cons_of_pos rfl, List.map_cons]
              dsimp only
              rw [if_pos rfl]
              cases parses : parsed serde arrival with
              | none => exact rest.cons _
              | some request =>
                  have same : request.attempt = arrival.attempt :=
                    congrArg Arrival.attempt (arrival_of_parsed parses)
                  rw [List.map_cons, same]
                  exact rest.cons_cons _

/-- They are attempts that the limiter allows, in the same order. -/
theorem requests_allowed
    (serde : AdmitSerde) (cycles : UInt64)
    (polls : List (Except String (List (Arrival Token)))) :
    ((requests serde cycles polls).map Request.attempt).Sublist
      (AdmitRateLimiter.default.allowed
        ((asked (polled (served cycles polls))).map Arrival.attempt)) := by
  rw [requests_eq_granted]
  exact granted_sublist serde _ _

/-- What an answer has cost the rate limiter. -/
def Exchange.attempt (exchange : Exchange Token) : Attempt :=
  exchange.request.attempt

/-- Whatever the mesh delivers, a host answers within ten seconds no more than
a table of senders each of which exhausts two windows but for one attempt, and
a sender no more often than that, by the clock readings of the rate limiter.
This holds for requests that are denied and for an open room as well. -/
theorem answers_boundedly
    {crypto : Crypto} {iam : CeIam} {serde : AdmitSerde} {me room : String}
    {isOpen : Bool} {roots : List String}
    {revoked : Except String (List (String × UInt64))} {cycles : UInt64}
    {polls : List (Except String (List (Arrival Token)))}
    {exchanges : List (Exchange Token)}
    (hosts : host crypto iam serde me room isOpen roots revoked cycles polls =
      .ok exchanges)
    (ordered : (polled polls).Pairwise fun earlier later =>
      earlier.checkedAt ≤ later.checkedAt)
    (since : UInt64) :
    attemptsBetween since.toNat (since.toNat + 10)
        (exchanges.map Exchange.attempt) ≤ 4096 * 19 ∧
      ∀ sender,
        hits (timesOf sender (exchanges.map Exchange.attempt)) since.toNat
          (since.toNat + 10) ≤ 19 := by
  obtain ⟨handler, hosted⟩ : ∃ handler,
      admitter crypto me room isOpen roots revoked = .ok handler := by
    unfold host at hosts
    split at hosts
    case h_1 => cases hosts
    case h_2 handler hosted => exact ⟨handler, hosted⟩
  rw [host_eq_ok hosted] at hosts
  cases hosts
  have answered : ((requests serde cycles polls).map
      (answer crypto iam serde handler)).map Exchange.attempt =
        (requests serde cycles polls).map Request.attempt := by
    rw [List.map_map]
    rfl
  have granted := requests_allowed serde cycles polls
  have inTime : ((asked (polled (served cycles polls))).map
      Arrival.attempt).Pairwise fun earlier later => earlier.2 ≤ later.2 :=
    List.pairwise_map.mpr (ordered.sublist
      (List.filter_sublist.trans
        (polled_served_initial cycles polls).sublist))
  rw [answered]
  constructor
  · refine ((granted.map _).countP_le).trans ?_
    exact attemptsBetween_allowed_le 10 10 4096 inTime since
  · intro sender
    have accounts := accounts_after 10 10 4096 inTime
      fun call _ => Nat.le_of_lt call.2.toNat_lt
    have same := after_sameBounds (.new 10 10 4096)
      ((asked (polled (served cycles polls))).map Arrival.attempt)
    have bounded := (accounts.remembers sender).bounded
      (UInt32.lt_iff_toNat_lt.mp accounts.positive.capacity) since.toNat
    rw [same.capacity, same.windowSecs] at bounded
    refine ((granted.filterMap _).countP_le).trans ?_
    exact Nat.le_of_lt_succ bounded

/-- Requests of a participant who sends a dozen at once. -/
theorem answers_boundedly_ann :
    ∃ exchanges,
      host hubCrypto Admitter.annIam annSerde hub "r" false [] (.ok []) 1
          [.ok (List.replicate 12 annArrives)] = .ok exchanges ∧
        attemptsBetween 1000 (1000 + 10) (exchanges.map Exchange.attempt) ≤
          4096 * 19 ∧
        ∀ sender,
          hits (timesOf sender (exchanges.map Exchange.attempt)) 1000
            (1000 + 10) ≤ 19 :=
  ⟨_, host_eq_ok admitter_hub,
    answers_boundedly (host_eq_ok admitter_hub) (by decide) 1000⟩

end Host
end CeMeet
