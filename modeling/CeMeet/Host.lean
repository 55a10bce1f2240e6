import CeMeet.Admit.Chains

/-!
# The `host` command

The command hosts a room with an admission handler whose key is derived from the
node id of the host.  The node id is public, so the authentication code of a
token can be computed by anyone.
-/

namespace CeMeet
namespace Host

/-- Parse the accepted roots. -/
def parseRoots (crypto : Crypto) (roots : List String) :
    Except String (List NodeId) :=
  roots.mapM fun root =>
    (parseNodeId crypto root).mapError fun _ => s!"parse accepted root {root}"

/-- The gate of the hosted room.  A revocation set that cannot be loaded is
empty. -/
def roomGate (hostId : NodeId) (isOpen : Bool) (acceptedRoots : List NodeId)
    (revoked : Except String (List (String × UInt64))) : Gate :=
  let gate :=
    if isOpen then Gate.openRoom hostId else Gate.gated hostId acceptedRoots
  match revoked with
  | .ok revoked => gate.withRevoked revoked
  | .error _ => gate.withRevoked []

/-- The key of the authentication codes. -/
def macSecret (crypto : Crypto) (me : String) : Bytes :=
  crypto.sha256 (asBytes "ce-meet:host-resume-secret:v1" ++ asBytes me)

/-- The admission handler of the hosted room. -/
def admitter (crypto : Crypto) (me room : String) (isOpen : Bool)
    (roots : List String) (revoked : Except String (List (String × UInt64))) :
    Except String Admitter :=
  match parseNodeId crypto me with
  | .error _ => .error "parse host node id"
  | .ok hostId =>
      match parseRoots crypto roots with
      | .error e => .error e
      | .ok acceptedRoots =>
          .ok (.new room (roomGate hostId isOpen acceptedRoots revoked)
            (macSecret crypto me))

theorem admitter_eq_ok
    {crypto : Crypto} {me room : String} {isOpen : Bool} {roots : List String}
    {revoked : Except String (List (String × UInt64))} {handler : Admitter}
    (hosts : admitter crypto me room isOpen roots revoked = .ok handler) :
    ∃ hostId acceptedRoots,
      handler = .new room (roomGate hostId isOpen acceptedRoots revoked)
        (macSecret crypto me) := by
  unfold admitter at hosts
  split at hosts
  next => cases hosts
  next hostId _ =>
    split at hosts
    next => cases hosts
    next acceptedRoots _ =>
      cases hosts
      exact ⟨hostId, acceptedRoots, rfl⟩

/-! ## Forged tokens -/

/-- A request with a token and without a capability chain. -/
def resumeRequest (room : String) (tok : ResumeToken) : AdmitReq :=
  { roomId := room, caps := "", displayName := none, resume := some tok }

/-- No function of public values makes tokens with which a host of a gated room
admits a requester whom its gate rejects. -/
def ResumeUnforgeable (crypto : Crypto) (iam : CeIam) : Prop :=
  ¬∃ forge : (me room requester : String) → (now : UInt64) → ResumeToken,
    ∀ (me room : String) (roots : List String)
      (revoked : Except String (List (String × UInt64))) (handler : Admitter),
      admitter crypto me room false roots revoked = .ok handler →
      ∀ (requester : String) (now : UInt64) (reason : String),
        handler.gate.check crypto iam requester abilityJoin "" [] now =
          .error reason →
        (handler.admitRequest crypto iam requester
          (resumeRequest room (forge me room requester now)) [] now).admitted =
            true

/-- A token made of public values: the key is derived as the host derives it,
and the gate has no influence on a token. -/
def forgeResume (crypto : Crypto) (me room requester : String) (now : UInt64) :
    ResumeToken :=
  let gate := Gate.openRoom ⟨List.replicate 32 0, rfl⟩
  (Admitter.new room gate (macSecret crypto me)).issueResume crypto requester 0
    now

/-- The host admits anyone with a forged token. -/
theorem admit_forgeResume
    {crypto : Crypto} {me room : String} {isOpen : Bool} {roots : List String}
    {revoked : Except String (List (String × UInt64))} {handler : Admitter}
    (hosts : admitter crypto me room isOpen roots revoked = .ok handler)
    (iam : CeIam) (requester : String) (hostTags : List String)
    (now : UInt64) :
    (handler.admitRequest crypto iam requester
      (resumeRequest room (forgeResume crypto me room requester now)) hostTags
      now).admitted = true := by
  obtain ⟨hostId, acceptedRoots, rfl⟩ := admitter_eq_ok hosts
  have verified :
      (Admitter.new room (roomGate hostId isOpen acceptedRoots revoked)
          (macSecret crypto me)).verifyResume crypto requester
        (forgeResume crypto me room requester now) now = .ok () :=
    Admitter.verifyResume_issueResume.mpr (UInt64.le_saturatingAdd _ _)
  rw [Admitter.admit_of_verifyResume rfl rfl verified]
  rfl

/-- Tokens can be forged whatever the hash and the keyed digest are. -/
theorem resume_forgeable (crypto : Crypto) (iam : CeIam) :
    ¬ResumeUnforgeable crypto iam := by
  intro unforgeable
  refine unforgeable ⟨forgeResume crypto, ?_⟩
  intro me room roots revoked handler hosts requester now reason _
  exact admit_forgeResume hosts iam requester [] now

/-- A host. -/
def hub : String :=
  "bbbbbbbbbbbbbbbbbbbbbbbbbbbbbbbbbbbbbbbbbbbbbbbbbbbbbbbbbbbbbbbb"

/-- The key that the host derives. -/
def hubSecret : Bytes :=
  [150, 228, 213, 81, 134, 35, 10, 97, 59, 143, 18, 103, 17, 36, 101, 186, 38,
    185, 117, 153, 104, 68, 220, 199, 193, 241, 72, 167, 180, 231, 138, 115]

/-- The gate of the host's room. -/
def hubGate : Gate :=
  roomGate ⟨List.replicate 32 0xbb, rfl⟩ false [] (.ok [])

/-- The digests at the host. -/
def hubCrypto : Crypto :=
  .ofTables
    [(asBytes "ce-meet:host-resume-secret:v1" ++ asBytes hub, hubSecret)]
    [((hubSecret,
        (Admitter.new "r" hubGate hubSecret).resumePreimage Admitter.ann 4600 0),
      [103, 56, 232, 250, 212, 206, 229, 51, 162, 113, 196, 42, 53, 6, 150, 153,
        121, 28, 163, 254, 199, 121, 225, 27, 65, 186, 180, 53, 104, 52, 147,
        191])]

/-- A token that a participant made. -/
def forgedToken : ResumeToken :=
  { roomId := "r"
    nodeId := Admitter.ann
    expiresAt := 4600
    seqFloor := 0
    mac := "6738e8fad4cee533a271c42a35069699791ca3fec779e11b41bab435683493bf" }

set_option maxRecDepth 4000 in
theorem forgeResume_hub :
    forgeResume hubCrypto hub "r" Admitter.ann 1000 = forgedToken := by
  decide

theorem admitter_hub :
    admitter hubCrypto hub "r" false [] (.ok []) =
      .ok (.new "r" hubGate (macSecret hubCrypto hub)) := by
  have parsed : parseNodeId hubCrypto hub =
      .ok ⟨List.replicate 32 0xbb, rfl⟩ := by
    decide
  simp only [admitter, parsed]
  rfl

/-- A participant without a capability is rejected by the gate, and admitted
with a token of its own making. -/
theorem ann_forges :
    ¬ResumeUnforgeable hubCrypto Admitter.annIam ∧
      ∃ handler,
        admitter hubCrypto hub "r" false [] (.ok []) = .ok handler ∧
          handler.gate.check hubCrypto Admitter.annIam Admitter.ann abilityJoin
              "" [] 1000 = .error "no valid capability presented" ∧
          (handler.admitRequest hubCrypto Admitter.annIam Admitter.ann
            (resumeRequest "r" forgedToken) [] 1000).admitted = true := by
  refine ⟨fun unforgeable => unforgeable ⟨forgeResume hubCrypto, ?_⟩, _,
    admitter_hub, by decide, ?_⟩
  · intro me room roots revoked handler hosts requester now reason _
    exact admit_forgeResume hosts Admitter.annIam requester [] now
  · rw [← forgeResume_hub]
    exact admit_forgeResume admitter_hub Admitter.annIam Admitter.ann [] 1000

end Host
end CeMeet
