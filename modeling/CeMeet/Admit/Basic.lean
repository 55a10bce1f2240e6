import CeMeet.Caps

/-!
# Admission

The host's side of an admission: a valid resume token readmits the participant
it was issued to, and otherwise the capability gate decides.  Every admission
mints a fresh token.  A token needs no state at the host, since its
authentication code is derived again from the host's secret.
-/

namespace CeMeet

/-- Lifetime of a resume token unless configured, in seconds. -/
def defaultResumeTtl : UInt64 := 3600

/-- The admission handler of a room. -/
structure Admitter where
  /-- The room. -/
  roomId : String
  /-- The gate. -/
  gate : Gate
  /-- The ICE servers handed to an admitted participant. -/
  iceServers : List IceServer
  /-- The key of the authentication codes. -/
  macSecret : Bytes
  /-- Lifetime of a resume token, in seconds. -/
  resumeTtl : UInt64
  deriving DecidableEq

namespace Admitter

/-- An admission handler with a secret. -/
def new (roomId : String) (gate : Gate) (macSecret : Bytes) : Admitter :=
  { roomId, gate, iceServers := [], macSecret, resumeTtl := defaultResumeTtl }

/-- Attach the ICE servers. -/
def withIceServers (admitter : Admitter) (ice : List IceServer) : Admitter :=
  { admitter with iceServers := ice }

/-- Change the lifetime of resume tokens. -/
def withResumeTtl (admitter : Admitter) (ttl : UInt64) : Admitter :=
  { admitter with resumeTtl := ttl }

/-- The message that the authentication code of a token authenticates. -/
def resumePreimage (admitter : Admitter) (nodeId : String)
    (expiresAt seqFloor : UInt64) : Bytes :=
  asBytes "ce-meet:resume:v1" ++ asBytes admitter.roomId ++ [0] ++
    asBytes nodeId ++ [0] ++ toLeBytes expiresAt ++ toLeBytes seqFloor

/-- The authentication code of a token.  It is empty if the key is refused. -/
def resumeMac (crypto : Crypto) (admitter : Admitter) (nodeId : String)
    (expiresAt seqFloor : UInt64) : String :=
  match crypto.hmacSha256 admitter.macSecret with
  | none => ""
  | some mac =>
      crypto.hexEncode (mac (admitter.resumePreimage nodeId expiresAt seqFloor))

/-- Mint a resume token. -/
def issueResume (crypto : Crypto) (admitter : Admitter) (nodeId : String)
    (seqFloor now : UInt64) : ResumeToken :=
  let expiresAt := now.saturatingAdd admitter.resumeTtl
  { roomId := admitter.roomId
    nodeId
    expiresAt
    seqFloor
    mac := admitter.resumeMac crypto nodeId expiresAt seqFloor }

/-- Whether the authentication code of a token is the one derived for it. -/
def verifiesMac (crypto : Crypto) (admitter : Admitter) (tok : ResumeToken) :
    Bool :=
  ctEq (asBytes (admitter.resumeMac crypto tok.nodeId tok.expiresAt tok.seqFloor))
    (asBytes tok.mac)

/-- Verify a presented token against the authenticated requester. -/
def verifyResume (crypto : Crypto) (admitter : Admitter) (requester : String)
    (tok : ResumeToken) (now : UInt64) : Except String Unit :=
  if tok.roomId ≠ admitter.roomId then
    .error "resume token is for a different room"
  else if tok.nodeId ≠ requester then
    .error "resume token was issued to a different identity"
  else if now > tok.expiresAt then
    .error "resume token has expired"
  else if ¬admitter.verifiesMac crypto tok then
    .error "resume token signature invalid"
  else
    .ok ()

/-- The response that admits a requester, with a fresh token. -/
def grant (crypto : Crypto) (admitter : Admitter) (requester : String)
    (seqFloor now : UInt64) : AdmitResp :=
  { admitted := true
    reason := none
    iceServers := admitter.iceServers
    resume := some (admitter.issueResume crypto requester seqFloor now) }

/-- Let the capability gate decide. -/
def firstJoin (crypto : Crypto) (iam : CeIam) (admitter : Admitter)
    (requester : String) (req : AdmitReq) (hostTags : List String)
    (now : UInt64) : AdmitResp :=
  match admitter.gate.check crypto iam requester abilityJoin req.caps hostTags
      now with
  | .ok () => admitter.grant crypto requester 0 now
  | .error reason => { admitted := false, reason := some reason }

/-- Handle a request for admission of an authenticated requester. -/
def admitRequest (crypto : Crypto) (iam : CeIam) (admitter : Admitter)
    (requester : String) (req : AdmitReq) (hostTags : List String)
    (now : UInt64) : AdmitResp :=
  if req.roomId ≠ admitter.roomId then
    { admitted := false
      reason := some "admission request is for a different room" }
  else
    match req.resume with
    | some tok =>
        match admitter.verifyResume crypto requester tok now with
        | .ok () => admitter.grant crypto requester tok.seqFloor now
        | .error _ =>
            -- A stale token degrades to the handshake.
            admitter.firstJoin crypto iam requester req hostTags now
    | none => admitter.firstJoin crypto iam requester req hostTags now

/-! ## Specifications -/

theorem verifyResume_eq_ok_iff
    {crypto : Crypto} {admitter : Admitter} {requester : String}
    {tok : ResumeToken} {now : UInt64} :
    admitter.verifyResume crypto requester tok now = .ok () ↔
      tok.roomId = admitter.roomId ∧ tok.nodeId = requester ∧
        now ≤ tok.expiresAt ∧ admitter.verifiesMac crypto tok := by
  unfold verifyResume
  split
  next otherRoom => simp [otherRoom]
  next sameRoom =>
    split
    next otherNode => simp [otherNode]
    next sameNode =>
      split
      next expired => simp [not_le.mpr expired]
      next current =>
        split
        next invalid => simp [invalid]
        next valid =>
          simp only [not_not] at sameRoom sameNode valid
          simp [sameRoom, sameNode, not_lt.mp current, valid]

/-- A token verifies for the participant it was issued to until it expires. -/
theorem verifyResume_issueResume
    {crypto : Crypto} {admitter : Admitter} {requester : String}
    {seqFloor issuedAt now : UInt64} :
    admitter.verifyResume crypto requester
        (admitter.issueResume crypto requester seqFloor issuedAt) now = .ok () ↔
      now ≤ issuedAt.saturatingAdd admitter.resumeTtl := by
  rw [verifyResume_eq_ok_iff]
  simp [issueResume, verifiesMac]

/-- A verified token readmits with the floor it carries. -/
theorem admit_of_verifyResume
    {crypto : Crypto} {admitter : Admitter} {requester : String}
    {req : AdmitReq} {tok : ResumeToken} {now : UInt64}
    (sameRoom : req.roomId = admitter.roomId)
    (presented : req.resume = some tok)
    (verified : admitter.verifyResume crypto requester tok now = .ok ())
    (iam : CeIam) (hostTags : List String) :
    admitter.admitRequest crypto iam requester req hostTags now =
      admitter.grant crypto requester tok.seqFloor now := by
  simp [admitRequest, sameRoom, presented, verified]

/-- Without a token the gate's approval admits with the floor zero. -/
theorem admit_of_check
    {crypto : Crypto} {iam : CeIam} {admitter : Admitter} {requester : String}
    {req : AdmitReq} {hostTags : List String} {now : UInt64}
    (sameRoom : req.roomId = admitter.roomId)
    (tokenless : req.resume = none)
    (checked : admitter.gate.check crypto iam requester abilityJoin req.caps
      hostTags now = .ok ()) :
    admitter.admitRequest crypto iam requester req hostTags now =
      admitter.grant crypto requester 0 now := by
  simp [admitRequest, firstJoin, sameRoom, tokenless, checked]

/-- Without a valid token the gate decides. -/
theorem admit_of_not_resumed
    {crypto : Crypto} {iam : CeIam} {admitter : Admitter} {requester : String}
    {req : AdmitReq} {hostTags : List String} {now : UInt64}
    (sameRoom : req.roomId = admitter.roomId)
    (notResumed : ∀ tok, req.resume = some tok →
      admitter.verifyResume crypto requester tok now ≠ .ok ()) :
    admitter.admitRequest crypto iam requester req hostTags now =
      admitter.firstJoin crypto iam requester req hostTags now := by
  unfold admitRequest
  rw [if_neg (not_not.mpr sameRoom)]
  split
  next tok presented =>
    split
    next verified => exact absurd verified (notResumed tok presented)
    next => rfl
  next => rfl

/-- How a request for admission is answered. -/
inductive Answers (crypto : Crypto) (iam : CeIam) (admitter : Admitter)
    (requester : String) (req : AdmitReq) (hostTags : List String)
    (now : UInt64) : AdmitResp → Prop
  /-- The request is refused. -/
  | refused (reason : String) :
      Answers crypto iam admitter requester req hostTags now
        { admitted := false, reason := some reason }
  /-- The requester presented a valid token. -/
  | resumed (tok : ResumeToken)
      (sameRoom : req.roomId = admitter.roomId)
      (presented : req.resume = some tok)
      (verified : admitter.verifyResume crypto requester tok now = .ok ()) :
      Answers crypto iam admitter requester req hostTags now
        (admitter.grant crypto requester tok.seqFloor now)
  /-- The gate approved. -/
  | approved
      (sameRoom : req.roomId = admitter.roomId)
      (notResumed : ∀ tok, req.resume = some tok →
        admitter.verifyResume crypto requester tok now ≠ .ok ())
      (checked : admitter.gate.check crypto iam requester abilityJoin req.caps
        hostTags now = .ok ()) :
      Answers crypto iam admitter requester req hostTags now
        (admitter.grant crypto requester 0 now)

theorem firstJoin_answers
    (crypto : Crypto) (iam : CeIam) (admitter : Admitter) (requester : String)
    (req : AdmitReq) (hostTags : List String) (now : UInt64)
    (sameRoom : req.roomId = admitter.roomId)
    (notResumed : ∀ tok, req.resume = some tok →
      admitter.verifyResume crypto requester tok now ≠ .ok ()) :
    Answers crypto iam admitter requester req hostTags now
      (admitter.firstJoin crypto iam requester req hostTags now) := by
  unfold firstJoin
  split
  next checked => exact .approved sameRoom notResumed checked
  next reason _ => exact .refused reason

theorem admit_answers
    (crypto : Crypto) (iam : CeIam) (admitter : Admitter) (requester : String)
    (req : AdmitReq) (hostTags : List String) (now : UInt64) :
    Answers crypto iam admitter requester req hostTags now
      (admitter.admitRequest crypto iam requester req hostTags now) := by
  unfold admitRequest
  split
  next => exact .refused _
  next sameRoom =>
    rw [not_not] at sameRoom
    split
    next tok presented =>
      split
      next verified => exact .resumed tok sameRoom presented verified
      next reason refused =>
        refine firstJoin_answers _ _ _ _ _ _ _ sameRoom
          fun other same verified => ?_
        cases presented.symm.trans same
        rw [refused] at verified
        cases verified
    next missing =>
      refine firstJoin_answers _ _ _ _ _ _ _ sameRoom fun tok presented => ?_
      rw [missing] at presented
      cases presented

end Admitter
end CeMeet
