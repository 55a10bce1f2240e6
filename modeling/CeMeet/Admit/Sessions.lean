import CeMeet.Admit.Chains
import CeMeet.Client.Outbound

/-!
# Sessions of a participant

A participant who loses its state reconnects with its last token and adopts the
sequence floor of the reply.  The floor is the one of the presented token, and
the first token carries zero, so every session numbers from zero again.
-/

namespace CeMeet

/-- A session of a participant. -/
structure Session where
  /-- The host's capability tags at the admission. -/
  hostTags : List String
  /-- The host's clock at the admission. -/
  now : UInt64
  /-- The name to show in the roster. -/
  displayName : Option String
  /-- The number of envelopes published. -/
  published : Nat
  deriving DecidableEq, Repr

namespace Admitter

variable (crypto : Crypto) (iam : CeIam) (admitter : Admitter) (me : String)

/-- Join with a capability chain and publish.  The result holds the sequence
numbers and the token for the next session. -/
def firstSession (caps : String) (session : Session) :
    Option (List UInt64 × ResumeToken) :=
  let client := MeetClient.new admitter.roomId me
  let req := client.requestAdmission caps session.displayName
  let resp :=
    admitter.admitRequest crypto iam me req session.hostTags session.now
  match resp.resume with
  | none => none
  | some tok =>
      (client.allocate session.published).map fun allocated =>
        (allocated.1, tok)

/-- Reconnect with a token, adopt the floor of the reply, and publish. -/
def resumedSession (tok : ResumeToken) (session : Session) :
    Option (List UInt64 × ResumeToken) :=
  let client := MeetClient.new admitter.roomId me
  let req := client.requestResume tok session.displayName
  let resp :=
    admitter.admitRequest crypto iam me req session.hostTags session.now
  match resp.resume with
  | none => none
  | some tok =>
      ((client.adoptResume tok).2.allocate session.published).map
        fun allocated => (allocated.1, tok)

/-- Reconnect again and again, each time with the last token. -/
def resumedSessions (tok : ResumeToken) :
    List Session → Option (List (List UInt64))
  | [] => some []
  | session :: sessions =>
      match admitter.resumedSession crypto iam me tok session with
      | none => none
      | some (seqs, tok) =>
          (resumedSessions tok sessions).map (seqs :: ·)

/-- The sequence numbers of a participant's sessions. -/
def sessions (caps : String) (first : Session) (later : List Session) :
    Option (List (List UInt64)) :=
  match admitter.firstSession crypto iam me caps first with
  | none => none
  | some (seqs, tok) =>
      (admitter.resumedSessions crypto iam me tok later).map (seqs :: ·)

variable {crypto iam admitter me}

/-- The numbers of a first session are those of the envelopes that its calls
publish. -/
theorem firstSession_of_sendAll
    {serde : SerdeJson} {caps : String} (session : Session) {tok : ResumeToken}
    (admitted :
      (admitter.admitRequest crypto iam me
        ((MeetClient.new admitter.roomId me).requestAdmission caps
          session.displayName) session.hostTags session.now).resume = some tok)
    {calls : List (MeetClient.Outbound × UInt64)}
    (counted : session.published = calls.length)
    {published : List Publication} {final : MeetClient}
    (sent : MeetClient.sendAll serde (.new admitter.roomId me) calls =
      some (published, final)) :
    admitter.firstSession crypto iam me caps session =
      some ((MeetClient.envelopes admitter.roomId 0 calls).map
        SignalEnvelope.seq, tok) := by
  simp only [firstSession, admitted, counted, MeetClient.sendAll_allocates sent,
    Option.map_some]
  rfl

/-- So are those of a resumed session, which start at the floor of the reply. -/
theorem resumedSession_of_sendAll
    {serde : SerdeJson} {presented tok : ResumeToken} (session : Session)
    (admitted :
      (admitter.admitRequest crypto iam me
        ((MeetClient.new admitter.roomId me).requestResume presented
          session.displayName) session.hostTags session.now).resume = some tok)
    {calls : List (MeetClient.Outbound × UInt64)}
    (counted : session.published = calls.length)
    {published : List Publication} {final : MeetClient}
    (sent : MeetClient.sendAll serde
      ((MeetClient.new admitter.roomId me).adoptResume tok).2 calls =
        some (published, final)) :
    admitter.resumedSession crypto iam me presented session =
      some ((MeetClient.envelopes admitter.roomId tok.seqFloor.toNat calls).map
        SignalEnvelope.seq, tok) := by
  have floor : ((MeetClient.new admitter.roomId me).adoptResume
      tok).2.room.nextSeq = tok.seqFloor := max_eq_right UInt64.zero_le
  rw [← floor]
  simp only [resumedSession, admitted, counted,
    MeetClient.sendAll_allocates sent, Option.map_some]
  rfl

/-- An admission on a token without a floor, or on none, returns a token
without a floor. -/
theorem seqFloor_of_admit
    {req : AdmitReq} {hostTags : List String} {now : UInt64}
    {issued : ResumeToken}
    (floorless : ∀ tok, req.resume = some tok → tok.seqFloor = 0)
    (returned :
      (admitter.admitRequest crypto iam me req hostTags now).resume =
        some issued) :
    issued.seqFloor = 0 := by
  have answers := admit_answers crypto iam admitter me req hostTags now
  generalize admitter.admitRequest crypto iam me req hostTags now = resp
    at answers returned
  cases answers with
  | refused reason => cases returned
  | resumed tok sameRoom presented verified =>
      cases returned
      exact floorless tok presented
  | approved sameRoom notResumed checked =>
      cases returned
      rfl

/-- The numbers of a session that starts at zero. -/
def fromZero (session : Session) : List UInt64 :=
  (List.range' 0 session.published).map .ofNat

theorem firstSession_eq_some
    {caps : String} {session : Session} {seqs : List UInt64}
    {tok : ResumeToken}
    (ran : admitter.firstSession crypto iam me caps session =
      some (seqs, tok)) :
    seqs = fromZero session ∧ tok.seqFloor = 0 := by
  unfold firstSession at ran
  dsimp only at ran
  split at ran
  next => cases ran
  next issued returned =>
    obtain ⟨⟨numbers, final⟩, allocated, same⟩ :=
      Option.map_eq_some_iff.mp ran
    cases same
    refine ⟨MeetClient.allocate_eq_some allocated,
      seqFloor_of_admit (fun tok presented => ?_) returned⟩
    cases presented

/-- A session resumed with a token without a floor starts at zero and ends with
a token without a floor. -/
theorem resumedSession_eq_some
    {presented tok : ResumeToken} {session : Session} {seqs : List UInt64}
    (floorless : presented.seqFloor = 0)
    (ran : admitter.resumedSession crypto iam me presented session =
      some (seqs, tok)) :
    seqs = fromZero session ∧ tok.seqFloor = 0 := by
  unfold resumedSession at ran
  dsimp only at ran
  split at ran
  next => cases ran
  next issued returned =>
    obtain ⟨⟨numbers, final⟩, allocated, same⟩ :=
      Option.map_eq_some_iff.mp ran
    cases same
    have issuedFloorless : tok.seqFloor = 0 := by
      refine seqFloor_of_admit (fun other requested => ?_) returned
      cases requested
      exact floorless
    refine ⟨?_, issuedFloorless⟩
    rw [MeetClient.allocate_eq_some allocated, MeetClient.adoptResume,
      Room.resumeOutboundFrom, issuedFloorless]
    rfl

theorem resumedSessions_eq_some
    {presented : ResumeToken} {later : List Session}
    {numbers : List (List UInt64)}
    (floorless : presented.seqFloor = 0)
    (ran : admitter.resumedSessions crypto iam me presented later =
      some numbers) :
    numbers = later.map fromZero := by
  induction later generalizing presented numbers with
  | nil =>
      cases ran
      rfl
  | cons session later inductionHypothesis =>
      unfold resumedSessions at ran
      split at ran
      next => cases ran
      next seqs tok sessionRan =>
        obtain ⟨rest, restRan, rfl⟩ := Option.map_eq_some_iff.mp ran
        obtain ⟨fromStart, stillFloorless⟩ :=
          resumedSession_eq_some floorless sessionRan
        rw [List.map_cons, fromStart,
          inductionHypothesis stillFloorless restRan]

/-- Every session of a participant numbers from zero. -/
theorem sessions_eq_some
    {caps : String} {first : Session} {later : List Session}
    {numbers : List (List UInt64)}
    (ran : admitter.sessions crypto iam me caps first later = some numbers) :
    numbers = (first :: later).map fromZero := by
  unfold sessions at ran
  split at ran
  next => cases ran
  next seqs tok firstRan =>
    obtain ⟨rest, restRan, rfl⟩ := Option.map_eq_some_iff.mp ran
    obtain ⟨fromStart, floorless⟩ := firstSession_eq_some firstRan
    rw [List.map_cons, fromStart, resumedSessions_eq_some floorless restRan]

theorem fromZero_lt_iff (earlier later : Session) :
    (∀ used ∈ fromZero earlier, ∀ seq ∈ fromZero later, used < seq) ↔
      earlier.published = 0 ∨ later.published = 0 := by
  constructor
  · intro increasing
    by_contra both
    rw [not_or] at both
    have starts : ∀ session : Session, session.published ≠ 0 →
        0 ∈ fromZero session := by
      intro session published
      exact List.mem_map.mpr ⟨0, by simp; omega, rfl⟩
    exact lt_irrefl _
      (increasing 0 (starts earlier both.1) 0 (starts later both.2))
  · rintro (nothing | nothing) <;> simp [fromZero, nothing]

/-- A participant's sessions never reuse a sequence number exactly when at most
one of them publishes anything. -/
theorem sessions_increase_iff
    (crypto : Crypto) (iam : CeIam) (admitter : Admitter) (me caps : String)
    (first : Session) (later : List Session)
    (numbers : List (List UInt64))
    (ran : admitter.sessions crypto iam me caps first later = some numbers) :
    (numbers.Pairwise fun earlier later =>
        ∀ used ∈ earlier, ∀ seq ∈ later, used < seq) ↔
      (first :: later).Pairwise fun earlier later =>
        earlier.published = 0 ∨ later.published = 0 := by
  rw [sessions_eq_some ran, List.pairwise_map]
  simp only [fromZero_lt_iff]

/-- A session at a time that publishes so many envelopes. -/
def annSession (now : UInt64) (published : Nat) : Session :=
  { hostTags := [], now, displayName := none, published }

/-- The participant's state when a session starts. -/
def annClient : MeetClient :=
  .new "r" ann

/-- The serializer of the envelope that a session publishes. -/
def annSerde : SerdeJson :=
  .ofTable [(.broadcast "r" 0 0 .keepalive, [0])] (by decide)

/-- A session that publishes one envelope. -/
theorem annClient_keepalive :
    MeetClient.sendAll annSerde annClient [(.keepalive, 0)] =
      some ([(roomTopic "r", [0])],
        { annClient with room := { annClient.room with nextSeq := 1 } }) := rfl

theorem firstSession_ann
    {calls : List (MeetClient.Outbound × UInt64)}
    {published : List Publication} {final : MeetClient}
    (sent : MeetClient.sendAll annSerde annClient calls =
      some (published, final)) :
    annRoom.firstSession annCrypto annIam ann "c0ffee"
        (annSession 0 calls.length) =
      some ((MeetClient.envelopes "r" 0 calls).map SignalEnvelope.seq,
        annRoom.issueResume annCrypto ann 0 0) := by
  have joined : (annRoom.admitRequest annCrypto annIam ann
      (annClient.requestAdmission "c0ffee" none) [] 0).resume =
      some (annRoom.issueResume annCrypto ann 0 0) :=
    congrArg AdmitResp.resume reply_annJoins
  exact firstSession_of_sendAll (annSession 0 calls.length) joined rfl sent

theorem resumedSession_ann
    {calls : List (MeetClient.Outbound × UInt64)}
    {published : List Publication} {final : MeetClient}
    (sent : MeetClient.sendAll annSerde annClient calls =
      some (published, final)) :
    annRoom.resumedSession annCrypto annIam ann
        (annRoom.issueResume annCrypto ann 0 0)
        (annSession 3600 calls.length) =
      some ((MeetClient.envelopes "r" 0 calls).map SignalEnvelope.seq,
        annRoom.issueResume annCrypto ann 0 3600) := by
  have reconnected : (annRoom.admitRequest annCrypto annIam ann
      (annClient.requestResume (annRoom.issueResume annCrypto ann 0 0) none)
      [] 3600).resume = some (annRoom.issueResume annCrypto ann 0 3600) :=
    congrArg AdmitResp.resume (reply_annReconnects (by decide))
  have adopted : (annClient.adoptResume
      (annRoom.issueResume annCrypto ann 0 3600)).2 = annClient := rfl
  rw [← adopted] at sent
  exact resumedSession_of_sendAll (annSession 3600 calls.length) reconnected rfl
    sent

theorem sessions_ann
    {calls later : List (MeetClient.Outbound × UInt64)}
    {published publishedLater : List Publication}
    {final finalLater : MeetClient}
    (sent : MeetClient.sendAll annSerde annClient calls =
      some (published, final))
    (sentLater : MeetClient.sendAll annSerde annClient later =
      some (publishedLater, finalLater)) :
    annRoom.sessions annCrypto annIam ann "c0ffee" (annSession 0 calls.length)
        [annSession 3600 later.length] =
      some [(MeetClient.envelopes "r" 0 calls).map SignalEnvelope.seq,
        (MeetClient.envelopes "r" 0 later).map SignalEnvelope.seq] := by
  simp only [sessions, firstSession_ann sent, resumedSessions,
    resumedSession_ann sentLater, Option.map_some]

/-- The last session publishes nothing, so no number is reused. -/
theorem sessions_ann_increase :
    annRoom.sessions annCrypto annIam ann "c0ffee" (annSession 0 1)
        [annSession 3600 0] = some [[0], []] ∧
      [[0], ([] : List UInt64)].Pairwise fun earlier later =>
        ∀ used ∈ earlier, ∀ seq ∈ later, used < seq :=
  have idle : MeetClient.sendAll annSerde annClient [] = some ([], annClient) :=
    rfl
  have ran := sessions_ann annClient_keepalive idle
  ⟨ran, (sessions_increase_iff annCrypto annIam annRoom ann "c0ffee"
    (annSession 0 1) [annSession 3600 0] [[0], []] ran).mpr (by decide)⟩

/-- Both sessions publish, and the second reuses the number of the first. -/
theorem sessions_ann_reuse :
    annRoom.sessions annCrypto annIam ann "c0ffee" (annSession 0 1)
        [annSession 3600 1] = some [[0], [0]] ∧
      ¬[[(0 : UInt64)], [0]].Pairwise fun earlier later =>
        ∀ used ∈ earlier, ∀ seq ∈ later, used < seq :=
  ⟨sessions_ann annClient_keepalive annClient_keepalive, by simp⟩

end Admitter
end CeMeet
