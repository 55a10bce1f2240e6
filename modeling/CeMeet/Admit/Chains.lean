import CeMeet.Admit.Basic
import CeMeet.Foundation.Provenance

/-!
# Chains of admissions

A token is minted on every admission, also on one that a token earned.  In a
run of admissions whose tokens cannot be forged, every admission is reached from
an approval of the gate by a chain of resumptions of the same participant.  The
lifetime of a token bounds each resumption of the chain, and not the chain.
-/

namespace CeMeet

/-- A call of the admission handler. -/
structure AdmitCall where
  /-- The authenticated requester. -/
  requester : String
  /-- The request. -/
  req : AdmitReq
  /-- The host's capability tags. -/
  hostTags : List String
  /-- The host's clock. -/
  now : UInt64
  deriving DecidableEq

/-- Two tokens that agree in what an authentication code protects. -/
def ResumeToken.SameClaims (left right : ResumeToken) : Prop :=
  left.nodeId = right.nodeId ∧ left.expiresAt = right.expiresAt ∧
    left.seqFloor = right.seqFloor

namespace Admitter

variable (crypto : Crypto) (iam : CeIam) (admitter : Admitter)

/-- The response to a call. -/
def reply (call : AdmitCall) : AdmitResp :=
  admitter.admitRequest crypto iam call.requester call.req call.hostTags
    call.now

variable (calls : List AdmitCall)

/-- The run admits a participant at an index. -/
def Admits (requester : String) (index : Nat) : Prop :=
  ∃ call, calls[index]? = some call ∧ call.requester = requester ∧
    (admitter.reply crypto iam call).admitted = true

/-- The gate approves a participant at an index, where no token was
accepted. -/
def Approves (requester : String) (index : Nat) : Prop :=
  ∃ call, calls[index]? = some call ∧ call.requester = requester ∧
    call.req.roomId = admitter.roomId ∧
    (∀ tok, call.req.resume = some tok →
      admitter.verifyResume crypto requester tok call.now ≠ .ok ()) ∧
    admitter.gate.check crypto iam requester abilityJoin call.req.caps
      call.hostTags call.now = .ok ()

/-- A participant's call presents what an earlier admission of the participant
returned, and does so before that expires. -/
def Resumes (requester : String) (earlier later : Nat) : Prop :=
  ∃ previous issued call tok,
    calls[earlier]? = some previous ∧ previous.requester = requester ∧
      (admitter.reply crypto iam previous).admitted = true ∧
      (admitter.reply crypto iam previous).resume = some issued ∧
      calls[later]? = some call ∧ call.requester = requester ∧
      call.req.resume = some tok ∧ issued.SameClaims tok ∧
      call.now ≤ tok.expiresAt

/-- A presented token with a valid authentication code carries the claims of a
token that was returned before. -/
def MacSound : Prop :=
  ∀ (index : Nat) (call : AdmitCall) (tok : ResumeToken),
    calls[index]? = some call → call.req.resume = some tok →
    admitter.verifiesMac crypto tok →
    ∃ earlier < index, ∃ previous issued,
      calls[earlier]? = some previous ∧
        (admitter.reply crypto iam previous).resume = some issued ∧
        issued.SameClaims tok

/-- Every participant presents only what was returned to that participant. -/
def OwnTokens : Prop :=
  ∀ (index : Nat) (call : AdmitCall) (tok : ResumeToken),
    calls[index]? = some call → call.req.resume = some tok →
    ∃ earlier < index, ∃ previous, calls[earlier]? = some previous ∧
      previous.requester = call.requester ∧
      (admitter.reply crypto iam previous).resume = some tok

/-- A participant is admitted within the lifetime of a token after an earlier
admission. -/
def Renews (requester : String) (earlier later : Nat) : Prop :=
  ∃ previous call,
    calls[earlier]? = some previous ∧ previous.requester = requester ∧
      (admitter.reply crypto iam previous).admitted = true ∧
      calls[later]? = some call ∧ call.requester = requester ∧
      (admitter.reply crypto iam call).admitted = true ∧
      earlier < later ∧
      call.now.toNat ≤ previous.now.toNat + admitter.resumeTtl.toNat

variable {crypto iam admitter calls}

/-- A returned token was issued to the requester, who was admitted. -/
theorem resume_reply
    {call : AdmitCall} {issued : ResumeToken}
    (returned : (admitter.reply crypto iam call).resume = some issued) :
    (admitter.reply crypto iam call).admitted = true ∧
      ∃ seqFloor, issued =
        admitter.issueResume crypto call.requester seqFloor call.now := by
  have answers := admit_answers crypto iam admitter call.requester call.req
    call.hostTags call.now
  rw [← reply] at answers
  generalize admitter.reply crypto iam call = resp at answers returned
  cases answers with
  | refused reason => cases returned
  | resumed tok sameRoom presented verified =>
      exact ⟨rfl, tok.seqFloor, (Option.some.inj returned).symm⟩
  | approved sameRoom notResumed checked =>
      exact ⟨rfl, 0, (Option.some.inj returned).symm⟩

/-- A refused call returns neither a token nor ICE servers. -/
theorem reply_refused
    {call : AdmitCall}
    (refused : (admitter.reply crypto iam call).admitted = false) :
    (admitter.reply crypto iam call).resume = none ∧
      (admitter.reply crypto iam call).iceServers = [] := by
  have answers := admit_answers crypto iam admitter call.requester call.req
    call.hostTags call.now
  rw [← reply] at answers
  generalize admitter.reply crypto iam call = resp at answers refused
  cases answers with
  | refused reason => exact ⟨rfl, rfl⟩
  | resumed tok sameRoom presented verified => cases refused
  | approved sameRoom notResumed checked => cases refused

/-- An admission is approved by the gate or resumes an earlier one. -/
theorem Admits.approves_or_resumes
    (sound : admitter.MacSound crypto iam calls)
    {requester : String} {index : Nat}
    (admits : admitter.Admits crypto iam calls requester index) :
    admitter.Approves crypto iam calls requester index ∨
      ∃ earlier < index, admitter.Admits crypto iam calls requester earlier ∧
        admitter.Resumes crypto iam calls requester earlier index := by
  obtain ⟨call, present, rfl, admitted⟩ := admits
  have answers := admit_answers crypto iam admitter call.requester call.req
    call.hostTags call.now
  rw [← reply] at answers
  generalize admitter.reply crypto iam call = resp at answers admitted
  cases answers with
  | refused reason => cases admitted
  | approved sameRoom notResumed checked =>
      exact Or.inl ⟨call, present, rfl, sameRoom, notResumed, checked⟩
  | resumed tok sameRoom presented verified =>
      obtain ⟨_, sameNode, current, valid⟩ := verifyResume_eq_ok_iff.mp verified
      obtain ⟨earlier, before, previous, issued, found, returned, same⟩ :=
        sound index call tok present presented valid
      obtain ⟨previousAdmitted, seqFloor, isIssued⟩ := resume_reply returned
      have sameRequester : previous.requester = call.requester := by
        rw [← sameNode, ← same.1, isIssued]
        rfl
      exact Or.inr ⟨earlier, before,
        ⟨previous, found, sameRequester, previousAdmitted⟩,
        previous, issued, call, tok, found, sameRequester, previousAdmitted,
        returned, present, rfl, presented, same, current⟩

/-- Every admission is reached from an approval of the gate by resumptions of
the same participant. -/
theorem Admits.exists_approval
    (sound : admitter.MacSound crypto iam calls)
    {requester : String} {index : Nat}
    (admits : admitter.Admits crypto iam calls requester index) :
    ∃ first ≤ index, admitter.Approves crypto iam calls requester first ∧
      Relation.ReflTransGen (admitter.Resumes crypto iam calls requester)
        first index :=
  Provenance.exists_origin (fun _ => approves_or_resumes sound) admits

theorem OwnTokens.macSound
    (own : admitter.OwnTokens crypto iam calls) :
    admitter.MacSound crypto iam calls := by
  intro index call tok present presented _
  obtain ⟨earlier, before, previous, found, _, returned⟩ :=
    own index call tok present presented
  exact ⟨earlier, before, previous, tok, found, returned, rfl, rfl, rfl⟩

/-- A token is presented at most its lifetime after it was issued. -/
theorem Resumes.renews
    {requester : String} {earlier later : Nat}
    (resumes : admitter.Resumes crypto iam calls requester earlier later)
    (before : earlier < later)
    (admits : admitter.Admits crypto iam calls requester later) :
    admitter.Renews crypto iam calls requester earlier later := by
  obtain ⟨previous, issued, call, tok, found, sameRequester, previousAdmitted,
    returned, present, itself, _, same, current⟩ := resumes
  obtain ⟨other, otherPresent, _, admitted⟩ := admits
  cases present.symm.trans otherPresent
  obtain ⟨_, seqFloor, rfl⟩ := resume_reply returned
  refine ⟨previous, call, found, sameRequester, previousAdmitted, present,
    itself, admitted, before, ?_⟩
  rw [← same.2.1, UInt64.le_iff_toNat_le, issueResume,
    UInt64.toNat_saturatingAdd] at current
  omega

/-! ## A participant who reconnects -/

/-- A participant. -/
def ann : String :=
  "aaaaaaaaaaaaaaaaaaaaaaaaaaaaaaaaaaaaaaaaaaaaaaaaaaaaaaaaaaaaaaaa"

/-- A verifier that knows a chain granted to the participant. -/
def annIam : CeIam :=
  .ofGrants [("c0ffee", ⟨List.replicate 32 0xaa, by decide⟩)]

/-- A gated room. -/
def annRoom : Admitter :=
  new "r" (.gated ⟨List.replicate 32 0xbb, by decide⟩ [])
    (asBytes "host-secret")

/-- The keyed digests of the participant's tokens. -/
def annCrypto : Crypto :=
  .ofTables []
    [((asBytes "host-secret", annRoom.resumePreimage ann 3600 0),
        [56, 254, 169, 203, 248, 110, 126, 3, 120, 101, 22, 132, 16, 16, 76,
          233, 179, 108, 54, 89, 140, 155, 98, 20, 115, 176, 175, 211, 228,
          150, 226, 50]),
      ((asBytes "host-secret", annRoom.resumePreimage ann 7200 0),
        [203, 60, 176, 215, 107, 59, 242, 133, 192, 221, 206, 27, 227, 231,
          152, 56, 16, 187, 75, 98, 50, 214, 96, 141, 164, 66, 178, 67, 20, 37,
          108, 108])]

/-- The participant joins with the chain. -/
def annJoins : AdmitCall :=
  { requester := ann
    req := { roomId := "r", caps := "c0ffee", displayName := none,
             resume := none }
    hostTags := []
    now := 0 }

/-- The participant reconnects with the token issued at a time. -/
def annReconnects (issuedAt now : UInt64) : AdmitCall :=
  { requester := ann
    req := { roomId := "r", caps := "", displayName := none,
             resume := some (annRoom.issueResume annCrypto ann 0 issuedAt) }
    hostTags := []
    now }

/-- The participant joins and reconnects twice, each time as the token
expires. -/
def annCalls : List AdmitCall :=
  [annJoins, annReconnects 0 3600, annReconnects 3600 7200]

theorem reply_annJoins :
    annRoom.reply annCrypto annIam annJoins =
      annRoom.grant annCrypto ann 0 0 :=
  admit_of_check rfl rfl (by decide)

theorem reply_annReconnects
    {issuedAt now : UInt64}
    (current : now ≤ issuedAt.saturatingAdd defaultResumeTtl) :
    annRoom.reply annCrypto annIam (annReconnects issuedAt now) =
      annRoom.grant annCrypto ann 0 now := by
  have verified : annRoom.verifyResume annCrypto ann
      (annRoom.issueResume annCrypto ann 0 issuedAt) now = .ok () :=
    verifyResume_issueResume.mpr current
  exact admit_of_verifyResume rfl rfl verified annIam []

theorem annCalls_ownTokens :
    annRoom.OwnTokens annCrypto annIam annCalls := by
  intro index call tok present presented
  match index, present with
  | 0, rfl => cases presented
  | 1, rfl =>
      cases presented
      refine ⟨0, by decide, annJoins, rfl, rfl, ?_⟩
      rw [reply_annJoins]
      rfl
  | 2, rfl =>
      cases presented
      refine ⟨1, by decide, annReconnects 0 3600, rfl, rfl, ?_⟩
      rw [reply_annReconnects (by decide)]
      rfl

/-! ## Main results -/

/-- In a run whose tokens cannot be forged, every admission is reached from an
approval of the gate by resumptions of the same participant, each before the
presented token expires, and a refusal hands out nothing. -/
theorem admissions_rooted
    (crypto : Crypto) (iam : CeIam) (admitter : Admitter)
    (calls : List AdmitCall)
    (sound : admitter.MacSound crypto iam calls)
    (index : Nat) (call : AdmitCall)
    (present : calls[index]? = some call) :
    ((admitter.reply crypto iam call).admitted = true →
        ∃ first ≤ index,
          admitter.Approves crypto iam calls call.requester first ∧
            Relation.ReflTransGen
              (admitter.Resumes crypto iam calls call.requester) first index) ∧
      ((admitter.reply crypto iam call).admitted = false →
        (admitter.reply crypto iam call).resume = none ∧
          (admitter.reply crypto iam call).iceServers = []) :=
  ⟨fun admitted => Admits.exists_approval sound ⟨call, present, rfl, admitted⟩,
    reply_refused⟩

/-- The last reconnect of the participant is rooted in the join. -/
theorem annCalls_rooted :
    ∃ first ≤ 2, annRoom.Approves annCrypto annIam annCalls ann first ∧
      Relation.ReflTransGen (annRoom.Resumes annCrypto annIam annCalls ann)
        first 2 :=
  (admissions_rooted annCrypto annIam annRoom annCalls
    annCalls_ownTokens.macSound 2 (annReconnects 3600 7200) rfl).1
    (by rw [reply_annReconnects (by decide)]; rfl)

/-- When participants present only their own tokens, every admission is reached
from an approval of the gate by admissions of the same participant, each within
the lifetime of a token after the one before. -/
theorem admissions_renewed
    (crypto : Crypto) (iam : CeIam) (admitter : Admitter)
    (calls : List AdmitCall)
    (own : admitter.OwnTokens crypto iam calls)
    (index : Nat) (call : AdmitCall)
    (present : calls[index]? = some call)
    (admitted : (admitter.reply crypto iam call).admitted = true) :
    ∃ first ≤ index,
      admitter.Approves crypto iam calls call.requester first ∧
        Relation.ReflTransGen
          (admitter.Renews crypto iam calls call.requester) first index := by
  have renewed : ∀ later,
      admitter.Admits crypto iam calls call.requester later →
      admitter.Approves crypto iam calls call.requester later ∨
        ∃ earlier < later,
          admitter.Admits crypto iam calls call.requester earlier ∧
            admitter.Renews crypto iam calls call.requester earlier later := by
    intro later admits
    rcases admits.approves_or_resumes own.macSound with
      approves | ⟨earlier, before, earlierAdmits, resumes⟩
    · exact Or.inl approves
    · exact Or.inr ⟨earlier, before, earlierAdmits,
        resumes.renews before admits⟩
  exact Provenance.exists_origin renewed ⟨call, present, rfl, admitted⟩

/-- The last reconnect of the participant is reached from the join in steps of
at most an hour. -/
theorem annCalls_renewed :
    ∃ first ≤ 2, annRoom.Approves annCrypto annIam annCalls ann first ∧
      Relation.ReflTransGen (annRoom.Renews annCrypto annIam annCalls ann)
        first 2 :=
  admissions_renewed annCrypto annIam annRoom annCalls annCalls_ownTokens 2
    (annReconnects 3600 7200) rfl
    (by rw [reply_annReconnects (by decide)]; rfl)

/-- The participant is admitted two hours after the last approval. -/
theorem annCalls_outlive_approval :
    annRoom.OwnTokens annCrypto annIam annCalls ∧
      annCalls.Pairwise (fun earlier later => earlier.now ≤ later.now) ∧
      annCalls[2]? = some (annReconnects 3600 7200) ∧
      (annRoom.reply annCrypto annIam (annReconnects 3600 7200)).admitted =
        true ∧
      ¬∃ call ∈ annCalls,
        annRoom.gate.check annCrypto annIam ann abilityJoin call.req.caps
            call.hostTags call.now = .ok () ∧
          (annReconnects 3600 7200).now.toNat ≤
            call.now.toNat + annRoom.resumeTtl.toNat := by
  refine ⟨annCalls_ownTokens, ?_, rfl, ?_, ?_⟩
  · simp [annCalls, annJoins, annReconnects]
  · rw [reply_annReconnects (by decide)]
    rfl
  · rintro ⟨call, member, checked, recent⟩
    simp only [annCalls, List.mem_cons, List.not_mem_nil, or_false] at member
    rcases member with rfl | rfl | rfl
    · revert recent
      decide
    · revert checked
      decide
    · revert checked
      decide

end Admitter
end CeMeet
