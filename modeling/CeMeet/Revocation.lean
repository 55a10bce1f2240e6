import CeMeet.HostLoop

/-!
# Revoked chains at a running host

The verifier denies a chain with a link that the gate takes for revoked, and
this is all that is assumed about it.  A host then honors no revoked chain,
whatever such a verifier does otherwise, exactly if the revocation set it read
at the start covers every chain that its verifier is asked about: a chain that
is revoked when the request is answered has a link that was read as revoked.
-/

namespace CeMeet

namespace CeIam

/-- The verifier with another decision procedure. -/
abbrev withAuthorize (iam : CeIam)
    (authorize : NodeId → List NodeId → List String → UInt64 → NodeId →
      String → List iam.SignedCapability → (NodeId → UInt64 → Bool) →
      Except String Unit) : CeIam :=
  { iam with authorize }

/-- The verifier denies a chain with a link whose issuer and nonce are
revoked. -/
def RejectsRevoked (iam : CeIam)
    (linkId : iam.SignedCapability → NodeId × UInt64) : Prop :=
  ∀ hostId roots tags now requester action chain isRevoked,
    (∃ link ∈ chain, isRevoked (linkId link).1 (linkId link).2 = true) →
    iam.authorize hostId roots tags now requester action chain isRevoked ≠
      .ok ()

end CeIam

namespace Host

variable {Token : Type}

/-- The revocation set that the host read. -/
def loadedRevoked (revoked : Except String (List (String × UInt64))) :
    Finset (String × UInt64) :=
  match revoked with
  | .ok revoked => revoked.toFinset
  | .error _ => ∅

/-- What the chain lists to revoke a link. -/
def revocation (crypto : Crypto) (linkId : NodeId × UInt64) :
    String × UInt64 :=
  (crypto.hexEncode linkId.1.bytes, linkId.2)

/-- Whether a request presents a valid resume token. -/
def resumes (crypto : Crypto) (handler : Admitter) (request : Request Token) :
    Bool :=
  match request.req.resume with
  | none => false
  | some tok =>
      (handler.verifyResume crypto request.arrival.message.sender tok
        request.arrival.admittedAt).isOk

/-- The chain that the verifier is asked about to answer a request, if it is
asked at all. -/
def judgedChain (crypto : Crypto) (iam : CeIam) (handler : Admitter)
    (request : Request Token) : Option (List iam.SignedCapability) :=
  if request.req.roomId ≠ handler.roomId ∨ resumes crypto handler request ∨
      handler.gate.isOpen then
    none
  else
    match parseNodeId crypto request.arrival.message.sender with
    | .error _ => none
    | .ok _ => iam.decodeChain request.req.caps

/-- No request of a run is admitted on the strength of a chain that is revoked
when the request is answered. -/
def HonorsNoRevoked (crypto : Crypto) (iam : CeIam)
    (linkId : iam.SignedCapability → NodeId × UInt64) (handler : Admitter)
    (exchanges : List (Exchange Token)) : Prop :=
  ∀ exchange ∈ exchanges, exchange.resp.admitted = true →
    ∀ chain, judgedChain crypto iam handler exchange.request = some chain →
      ∀ link ∈ chain, revocation crypto (linkId link) ∉
        exchange.request.arrival.onChain

theorem admitter_gate
    {crypto : Crypto} {me room : String} {isOpen : Bool} {roots : List String}
    {revoked : Except String (List (String × UInt64))} {handler : Admitter}
    (hosts : admitter crypto me room isOpen roots revoked = .ok handler) :
    handler.gate.revoked = loadedRevoked revoked := by
  obtain ⟨hostId, acceptedRoots, rfl⟩ := admitter_eq_ok hosts
  cases revoked <;> rfl

/-- The revocation test of a gate. -/
def isRevoked (crypto : Crypto) (gate : Gate) (issuer : NodeId)
    (nonce : UInt64) : Bool :=
  revocation crypto (issuer, nonce) ∈ gate.revoked

/-- Where the verifier is asked, it decides. -/
theorem answer_admitted_iff
    {crypto : Crypto} {iam : CeIam} (serde : AdmitSerde) {handler : Admitter}
    {request : Request Token} {chain : List iam.SignedCapability}
    (judged : judgedChain crypto iam handler request = some chain) :
    ∃ requester,
      (answer crypto iam serde handler request).resp.admitted = true ↔
        iam.authorize handler.gate.hostId handler.gate.acceptedRoots []
          request.arrival.admittedAt requester abilityJoin chain
          (isRevoked crypto handler.gate) = .ok () := by
  unfold judgedChain at judged
  split at judged
  next => cases judged
  next asked =>
    rw [not_or, not_or, not_not] at asked
    obtain ⟨sameRoom, notResumed, gated⟩ := asked
    split at judged
    next => cases judged
    next requester parsed =>
      refine ⟨requester, ?_⟩
      have checked : handler.gate.check crypto iam
          request.arrival.message.sender abilityJoin request.req.caps []
          request.arrival.admittedAt =
            iam.authorize handler.gate.hostId handler.gate.acceptedRoots []
              request.arrival.admittedAt requester abilityJoin chain
              (isRevoked crypto handler.gate) := by
        simp only [Gate.check, gated, parsed, judged]
        rfl
      have joins : handler.admitRequest crypto iam
          request.arrival.message.sender request.req []
          request.arrival.admittedAt =
            handler.firstJoin crypto iam request.arrival.message.sender
              request.req [] request.arrival.admittedAt := by
        refine Admitter.admit_of_not_resumed sameRoom ?_
        intro tok presented verified
        apply notResumed
        simp only [resumes, presented, verified]
        rfl
      change (handler.admitRequest _ _ _ _ _ _).admitted = true ↔ _
      rw [joins, Admitter.firstJoin, checked]
      split
      next accepted => simp [accepted, Admitter.grant]
      next reason refused => simp [refused]

/-- The verifier that denies nothing but chains with a revoked link. -/
abbrev lenient (iam : CeIam)
    (linkId : iam.SignedCapability → NodeId × UInt64) : CeIam :=
  iam.withAuthorize fun _ _ _ _ _ _ chain isRevoked =>
    if chain.any fun link => isRevoked (linkId link).1 (linkId link).2 then
      .error "revoked"
    else
      .ok ()

theorem lenient_rejectsRevoked (iam : CeIam)
    (linkId : iam.SignedCapability → NodeId × UInt64) :
    (lenient iam linkId).RejectsRevoked linkId := by
  intro hostId roots tags now requester action chain isRevoked revoked
  have found : (chain.any fun link =>
      isRevoked (linkId link).1 (linkId link).2) = true :=
    List.any_eq_true.mpr revoked
  change (if _ then _ else _) ≠ _
  rw [if_pos found]
  nofun

/-- A verifier that rejects revoked links denies a chain with a link that the
gate takes for revoked. -/
theorem answer_denies_loaded
    {crypto : Crypto} {iam : CeIam}
    {linkId : iam.SignedCapability → NodeId × UInt64}
    (rejects : iam.RejectsRevoked linkId)
    (serde : AdmitSerde) {handler : Admitter} {request : Request Token}
    {chain : List iam.SignedCapability}
    (judged : judgedChain crypto iam handler request = some chain)
    (loaded : ∃ link ∈ chain,
      revocation crypto (linkId link) ∈ handler.gate.revoked) :
    (answer crypto iam serde handler request).resp.admitted ≠ true := by
  obtain ⟨link, linked, isLoaded⟩ := loaded
  obtain ⟨requester, decides⟩ := answer_admitted_iff serde judged
  rw [Ne, decides]
  exact rejects _ _ _ _ _ _ _ _ ⟨link, linked, decide_eq_true isLoaded⟩

/-- The lenient verifier admits every other chain. -/
theorem answer_admits_unloaded
    {crypto : Crypto} {iam : CeIam}
    {linkId : iam.SignedCapability → NodeId × UInt64}
    (serde : AdmitSerde) {handler : Admitter} {request : Request Token}
    {chain : List iam.SignedCapability}
    (judged : judgedChain crypto iam handler request = some chain)
    (unloaded : ¬∃ link ∈ chain,
      revocation crypto (linkId link) ∈ handler.gate.revoked) :
    (answer crypto (lenient iam linkId) serde handler request).resp.admitted =
      true := by
  have asked : judgedChain crypto (lenient iam linkId) handler request =
      some chain := judged
  obtain ⟨requester, decides⟩ := answer_admitted_iff serde asked
  rw [decides]
  refine if_neg ?_
  rw [List.any_eq_true]
  rintro ⟨link, linked, isLoaded⟩
  exact unloaded ⟨link, linked, of_decide_eq_true isLoaded⟩

/-- A host honors no revoked chain, whatever the verifier is that rejects
revoked links, exactly if every chain that the verifier is asked about and that
is revoked by then has a link that was read as revoked at the start. -/
theorem honorsNoRevoked_iff
    {crypto : Crypto} {me room : String} {isOpen : Bool} {roots : List String}
    {revoked : Except String (List (String × UInt64))} {handler : Admitter}
    (hosts : admitter crypto me room isOpen roots revoked = .ok handler)
    (iam : CeIam) (linkId : iam.SignedCapability → NodeId × UInt64)
    (serde : AdmitSerde) (cycles : UInt64)
    (polls : List (Except String (List (Arrival Token)))) :
    (∀ authorize, (iam.withAuthorize authorize).RejectsRevoked linkId →
        ∀ exchanges,
          host crypto (iam.withAuthorize authorize) serde me room isOpen roots
              revoked cycles polls = .ok exchanges →
            HonorsNoRevoked crypto iam linkId handler exchanges) ↔
      ∀ request ∈ requests serde cycles polls, ∀ chain,
        judgedChain crypto iam handler request = some chain →
          (∃ link ∈ chain, revocation crypto (linkId link) ∈
            request.arrival.onChain) →
          ∃ link ∈ chain, revocation crypto (linkId link) ∈
            loadedRevoked revoked := by
  rw [← admitter_gate hosts]
  constructor
  · rintro honors request member chain judged ⟨link, linked, onChain⟩
    by_contra unloaded
    have honored := honors _ (lenient_rejectsRevoked iam linkId) _
      (host_eq_ok hosts)
      (answer crypto (lenient iam linkId) serde handler request)
      (List.mem_map_of_mem member)
    exact honored (answer_admits_unloaded serde judged unloaded) chain judged
      link linked onChain
  · intro covered authorize rejects exchanges returned exchange member admitted
      chain judged link linked onChain
    rw [host_eq_ok hosts] at returned
    cases returned
    obtain ⟨request, requested, rfl⟩ := List.mem_map.mp member
    have loaded := covered request requested chain judged
      ⟨link, linked, onChain⟩
    exact answer_denies_loaded rejects serde judged loaded admitted

/-! ## A host that read the revocation set too early -/

/-- A capability that an issuer signed for a holder. -/
structure Grant where
  /-- The issuer. -/
  issuer : NodeId
  /-- The holder. -/
  holder : NodeId
  /-- The nonce. -/
  nonce : UInt64
  deriving DecidableEq

namespace Grant

/-- What identifies a capability in a revocation. -/
def linkId (grant : Grant) : NodeId × UInt64 :=
  (grant.issuer, grant.nonce)

/-- Whether a chain is a single capability with which the requester may join
the host. -/
def authorizes (hostId requester : NodeId) (action : String)
    (isRevoked : NodeId → UInt64 → Bool) : List Grant → Bool
  | [grant] =>
      grant.issuer = hostId ∧ grant.holder = requester ∧
        action = abilityJoin ∧ ¬isRevoked grant.issuer grant.nonce
  | _ => false

/-- The verifier of chains of one capability, which knows the text of one
chain. -/
abbrev iam (text : String) (grant : Grant) : CeIam where
  SignedCapability := Grant
  decodeChain other := if other = text then some [grant] else none
  authorize hostId _ _ _ requester action chain isRevoked :=
    if authorizes hostId requester action isRevoked chain then .ok ()
    else .error "capability denied"

theorem iam_rejectsRevoked (text : String) (grant : Grant) :
    (iam text grant).RejectsRevoked linkId := by
  intro hostId roots tags now requester action chain isRevoked revoked
  obtain ⟨link, linked, isLinkRevoked⟩ := revoked
  have denied : ¬authorizes hostId requester action isRevoked chain := by
    match chain with
    | [] => exact Bool.false_ne_true
    | [grant] =>
        rw [List.mem_singleton.mp linked] at isLinkRevoked
        change isRevoked grant.issuer grant.nonce = true at isLinkRevoked
        simp [authorizes, isLinkRevoked]
    | _ :: _ :: _ => exact Bool.false_ne_true
  change (if _ then _ else _) ≠ _
  rw [if_neg denied]
  nofun

end Grant

/-- The node id that repeats a byte. -/
def filledId (byte : UInt8) : NodeId :=
  ⟨List.replicate 32 byte, List.length_replicate⟩

/-- A capability that the hub signed for the participant. -/
def annGrant : Grant :=
  { issuer := filledId 0xbb, holder := filledId 0xaa, nonce := 7 }

/-- The participant's request for admission. -/
def annReq : AdmitReq :=
  { roomId := "r", caps := "c0ffee", displayName := none, resume := none }

/-- The frame of the request. -/
def annFrame : Bytes :=
  asBytes
    "\x7b\"room_id\":\"r\",\"caps\":\"c0ffee\",\"display_name\":null,\"resume\":null\x7d"

/-- The serializer of the request and of all replies. -/
def annSerde : AdmitSerde where
  readReq bytes := if bytes = annFrame then .ok annReq else .error "unknown"
  writeResp resp := .ok resp.toJson.render

/-- The request arrives when the capability is revoked. -/
def annArrives : Arrival Nat :=
  { message :=
      { topic := topicAdmit
        sender := Admitter.ann
        payload := .ok annFrame
        replyToken := some 0 }
    checkedAt := 1000
    admittedAt := 1000
    onChain := {(hub, 7)} }

/-- The request as the loop sees it. -/
def annRequest : Request Nat :=
  { arrival := annArrives, token := 0, req := annReq }

theorem requests_annArrives :
    requests annSerde 1 [.ok [annArrives]] = [annRequest] := by
  have allowed : (AdmitRateLimiter.default.check Admitter.ann 1000).1 =
      true := by
    decide
  have received : (receive annSerde .default annArrives).1 =
      some annRequest := by
    simp only [receive, annArrives, ne_eq, not_true_eq_false, if_false]
    generalize AdmitRateLimiter.default.check _ _ = checked at allowed ⊢
    obtain ⟨_, limiter⟩ := checked
    cases allowed
    rfl
  simp only [requests, serve, serveFrom, serveBatch, received]
  rfl

/-- The hub's room. -/
def hubRoom (revoked : Except String (List (String × UInt64))) : Admitter :=
  .new "r" (roomGate (filledId 0xbb) false [] revoked) (macSecret hubCrypto hub)

theorem admitter_hubRoom
    (revoked : Except String (List (String × UInt64))) :
    admitter hubCrypto hub "r" false [] revoked = .ok (hubRoom revoked) := by
  have parsed : parseNodeId hubCrypto hub = .ok (filledId 0xbb) := by
    decide
  simp only [admitter, parsed]
  rfl

/-- A host that has read the revocation denies the revoked chain. -/
theorem hub_honors_no_revoked :
    ∃ exchanges,
      host hubCrypto (Grant.iam "c0ffee" annGrant) annSerde hub "r" false []
          (.ok [(hub, 7)]) 1 [.ok [annArrives]] = .ok exchanges ∧
        HonorsNoRevoked hubCrypto (Grant.iam "c0ffee" annGrant) Grant.linkId
          (hubRoom (.ok [(hub, 7)])) exchanges := by
  have hosts := admitter_hubRoom (.ok [(hub, 7)])
  refine ⟨_, host_eq_ok hosts, ?_⟩
  refine (honorsNoRevoked_iff hosts (Grant.iam "c0ffee" annGrant) Grant.linkId
    annSerde 1 [.ok [annArrives]]).mpr ?_
    (Grant.iam "c0ffee" annGrant).authorize
    (Grant.iam_rejectsRevoked "c0ffee" annGrant) _ (host_eq_ok hosts)
  intro request member chain _ revokedNow
  rw [requests_annArrives, List.mem_singleton] at member
  rwa [member] at revokedNow

theorem hubRoom_unread
    {revoked : Except String (List (String × UInt64))}
    (unread : loadedRevoked revoked = ∅) :
    hubRoom revoked = hubRoom (.ok []) := by
  cases revoked with
  | error e => rfl
  | ok revoked =>
      change Admitter.new "r"
        { hubGate with revoked := loadedRevoked (.ok revoked) } _ = _
      rw [unread]
      rfl

theorem hub_answers_ann :
    (answer hubCrypto (Grant.iam "c0ffee" annGrant) annSerde
      (hubRoom (.ok [])) annRequest).resp.admitted = true := by
  have checked : hubGate.check hubCrypto (Grant.iam "c0ffee" annGrant)
      Admitter.ann abilityJoin "c0ffee" [] 1000 = .ok () := by
    decide
  change ((hubRoom (.ok [])).admitRequest hubCrypto _ Admitter.ann annReq []
    1000).admitted = true
  rw [Admitter.admit_of_check rfl rfl checked]
  rfl

/-- A host that has read nothing as revoked honors the revoked chain. -/
theorem unread_honors_revoked
    {start : Except String (List (String × UInt64))}
    (unread : loadedRevoked start = ∅) :
    ∃ handler exchanges,
      admitter hubCrypto hub "r" false [] start = .ok handler ∧
        host hubCrypto (Grant.iam "c0ffee" annGrant) annSerde hub "r" false []
            start 1 [.ok [annArrives]] = .ok exchanges ∧
        ¬HonorsNoRevoked hubCrypto (Grant.iam "c0ffee" annGrant) Grant.linkId
          handler exchanges := by
  have judged : judgedChain hubCrypto (Grant.iam "c0ffee" annGrant)
      (hubRoom (.ok [])) annRequest = some [annGrant] := by
    decide
  have revoked : revocation hubCrypto annGrant.linkId ∈ annArrives.onChain := by
    decide
  have hosted : host hubCrypto (Grant.iam "c0ffee" annGrant) annSerde hub "r"
      false [] start 1 [.ok [annArrives]] =
        .ok [answer hubCrypto (Grant.iam "c0ffee" annGrant) annSerde
          (hubRoom (.ok [])) annRequest] := by
    rw [host_eq_ok (admitter_hubRoom start), requests_annArrives,
      hubRoom_unread unread]
    rfl
  refine ⟨hubRoom start, _, admitter_hubRoom start, hosted, ?_⟩
  rw [hubRoom_unread unread]
  intro honors
  exact honors _ (List.mem_singleton_self _) hub_answers_ann _ judged annGrant
    (List.mem_singleton_self _) revoked

/-- A host honors a revoked chain if it could not read the revocation set, and
also if the revocation came after the reading. -/
theorem hub_honors_revoked :
    (∃ handler exchanges,
      admitter hubCrypto hub "r" false [] (.error "no route to node") =
          .ok handler ∧
        host hubCrypto (Grant.iam "c0ffee" annGrant) annSerde hub "r" false []
            (.error "no route to node") 1 [.ok [annArrives]] =
          .ok exchanges ∧
        ¬HonorsNoRevoked hubCrypto (Grant.iam "c0ffee" annGrant) Grant.linkId
          handler exchanges) ∧
      ∃ handler exchanges,
        admitter hubCrypto hub "r" false [] (.ok []) = .ok handler ∧
          host hubCrypto (Grant.iam "c0ffee" annGrant) annSerde hub "r" false
              [] (.ok []) 1 [.ok [annArrives]] = .ok exchanges ∧
          ¬HonorsNoRevoked hubCrypto (Grant.iam "c0ffee" annGrant)
            Grant.linkId handler exchanges :=
  ⟨unread_honors_revoked rfl, unread_honors_revoked rfl⟩

end Host
end CeMeet
