import CeMeet.Admit.RateLimiter
import CeMeet.Host
import CeMeet.Wire

/-!
# The admission loop of the `host` command

The loop drains the inbox of the host's node, drops what is not a request for
admission or exceeds the rate limit, and answers the rest.  The revocation set
is read once, before the loop starts, and is empty if it cannot be read.  So
revoked chains are denied exactly as far as that reading goes.
-/

namespace CeMeet

/-- The JSON serializer of the admission channel. -/
structure AdmitSerde where
  /-- Read a request. -/
  readReq : Bytes → Except String AdmitReq
  /-- Write a reply. -/
  writeResp : AdmitResp → Except String Bytes

namespace Host

variable {Token : Type} {α : Type}

/-- A message of the inbox, with the readings of the clock that its treatment
takes. -/
structure Arrival (Token : Type) where
  /-- The message. -/
  message : AppMessage Token
  /-- The clock when the rate limiter is asked. -/
  checkedAt : UInt64
  /-- The clock when the request is answered. -/
  admittedAt : UInt64
  /-- What is revoked on the chain at that time.  The loop does not read it. -/
  onChain : Finset (String × UInt64)

/-- A request for admission that is answered. -/
structure Request (Token : Type) where
  /-- Its arrival. -/
  arrival : Arrival Token
  /-- The handle for the reply. -/
  token : Token
  /-- The request. -/
  req : AdmitReq

/-- A request and its reply. -/
structure Exchange (Token : Type) where
  /-- The request. -/
  request : Request Token
  /-- The reply. -/
  resp : AdmitResp
  /-- The frame of the reply. -/
  payload : Bytes

/-! ## The loop -/

/-- Drop a message that is not a request for admission, exceeds the rate limit
or does not parse. -/
def receive (serde : AdmitSerde) (limiter : AdmitRateLimiter)
    (arrival : Arrival Token) : Option (Request Token) × AdmitRateLimiter :=
  if arrival.message.topic ≠ topicAdmit then (none, limiter)
  else
    match arrival.message.replyToken with
    | none => (none, limiter)
    | some token =>
        match limiter.check arrival.message.sender arrival.checkedAt with
        | (false, limiter) => (none, limiter)
        | (true, limiter) =>
            match arrival.message.payload with
            | .error _ => (none, limiter)
            | .ok bytes =>
                match serde.readReq bytes with
                | .error _ => (none, limiter)
                | .ok req => (some { arrival, token, req }, limiter)

/-- The frame of a reply.  A reply that cannot be written becomes a denial. -/
def encodeResp (serde : AdmitSerde) (resp : AdmitResp) : Bytes :=
  match serde.writeResp resp with
  | .ok payload => payload
  | .error _ =>
      match serde.writeResp
        { admitted := false, reason := some "host failed to encode response" }
      with
      | .ok payload => payload
      | .error _ => []

/-- Answer a request. -/
def answer (crypto : Crypto) (iam : CeIam) (serde : AdmitSerde)
    (handler : Admitter) (request : Request Token) : Exchange Token :=
  let resp := handler.admitRequest crypto iam request.arrival.message.sender
    request.req [] request.arrival.admittedAt
  { request, resp, payload := encodeResp serde resp }

/-- Respond to the requests of one poll. -/
def serveBatch (serde : AdmitSerde) (respond : Request Token → α) :
    AdmitRateLimiter → List (Arrival Token) → List α × AdmitRateLimiter
  | limiter, [] => ([], limiter)
  | limiter, arrival :: arrivals =>
      let (request, limiter) := receive serde limiter arrival
      let (responses, limiter) := serveBatch serde respond limiter arrivals
      ((request.map respond).toList ++ responses, limiter)

/-- Respond to the requests of all polls, up to a number of cycles unless that
is zero. -/
def serveFrom (serde : AdmitSerde) (respond : Request Token → α)
    (cycles : UInt64) :
    Nat → AdmitRateLimiter → List (Except String (List (Arrival Token))) →
      List α
  | _, _, [] => []
  | n, limiter, poll :: polls =>
      let (responses, limiter) :=
        match poll with
        | .ok arrivals => serveBatch serde respond limiter arrivals
        | .error _ => ([], limiter)
      if cycles ≠ 0 ∧ cycles.toNat ≤ n + 1 then responses
      else responses ++ serveFrom serde respond cycles (n + 1) limiter polls

/-- Respond to the requests of all polls with a fresh rate limiter. -/
def serve (serde : AdmitSerde) (respond : Request Token → α) (cycles : UInt64)
    (polls : List (Except String (List (Arrival Token)))) : List α :=
  serveFrom serde respond cycles 0 .default polls

/-- Host a room. -/
def host (crypto : Crypto) (iam : CeIam) (serde : AdmitSerde)
    (me room : String) (isOpen : Bool) (roots : List String)
    (revoked : Except String (List (String × UInt64))) (cycles : UInt64)
    (polls : List (Except String (List (Arrival Token)))) :
    Except String (List (Exchange Token)) :=
  match admitter crypto me room isOpen roots revoked with
  | .error e => .error e
  | .ok handler =>
      .ok (serve serde (answer crypto iam serde handler) cycles polls)

/-- The requests that the loop answers. -/
def requests (serde : AdmitSerde) (cycles : UInt64)
    (polls : List (Except String (List (Arrival Token)))) :
    List (Request Token) :=
  serve serde id cycles polls

theorem serveBatch_eq
    (serde : AdmitSerde) (respond : Request Token → α)
    (limiter : AdmitRateLimiter) (arrivals : List (Arrival Token)) :
    serveBatch serde respond limiter arrivals =
      ((serveBatch serde id limiter arrivals).1.map respond,
        (serveBatch serde id limiter arrivals).2) := by
  induction arrivals generalizing limiter with
  | nil => rfl
  | cons arrival arrivals inductionHypothesis =>
      simp only [serveBatch, inductionHypothesis, List.map_append,
        Option.map_id_fun, id]
      cases (receive serde limiter arrival).1 <;> rfl

/-- The loop answers its requests one by one. -/
theorem serve_eq_map
    (serde : AdmitSerde) (respond : Request Token → α) (cycles : UInt64)
    (polls : List (Except String (List (Arrival Token)))) :
    serve serde respond cycles polls =
      (requests serde cycles polls).map respond := by
  unfold requests serve
  generalize AdmitRateLimiter.default = limiter
  generalize 0 = n
  induction polls generalizing n limiter with
  | nil => rfl
  | cons poll polls inductionHypothesis =>
      cases poll with
      | error e =>
          simp only [serveFrom, inductionHypothesis]
          split <;> simp
      | ok arrivals =>
          simp only [serveFrom, serveBatch_eq serde respond,
            inductionHypothesis]
          split <;> simp

/-- A room that can be hosted is hosted by answering its requests. -/
theorem host_eq_ok
    {crypto : Crypto} {iam : CeIam} {serde : AdmitSerde} {me room : String}
    {isOpen : Bool} {roots : List String}
    {revoked : Except String (List (String × UInt64))} {handler : Admitter}
    (hosts : admitter crypto me room isOpen roots revoked = .ok handler)
    {cycles : UInt64} {polls : List (Except String (List (Arrival Token)))} :
    host crypto iam serde me room isOpen roots revoked cycles polls =
      .ok ((requests serde cycles polls).map
        (answer crypto iam serde handler)) := by
  rw [host, hosts, ← serve_eq_map]

end Host
end CeMeet
