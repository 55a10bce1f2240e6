import CeMeet.Crypto
import CeMeet.Foundation.Separator

/-!
# TURN credentials

A credential is derived for a payment channel and an expiry, and is checked
against the secret of the relay without any record of it.  The user name joins
the expiry and the channel, and the password authenticates the user name.
-/

namespace CeMeet

/-- The keyed digest of a user name, in hexadecimal.  It is empty if the key is
refused. -/
def turnPassword (crypto : Crypto) (sharedSecret : Bytes) (username : String) :
    String :=
  match crypto.hmacSha256 sharedSecret with
  | none => ""
  | some mac => crypto.hexEncode (mac (asBytes username))

/-- A TURN credential bound to a payment channel. -/
structure TurnCredential where
  /-- The TURN user name. -/
  username : String
  /-- The TURN password. -/
  password : String
  /-- Unix seconds after which the credential is invalid. -/
  expiresAt : UInt64
  /-- The payment channel. -/
  channelId : String
  deriving DecidableEq

namespace TurnCredential

/-- Compare two byte strings without an early exit; a copy of the comparison of
digests. -/
def ctEq (left right : Bytes) : Bool :=
  CeMeet.ctEq left right

/-- Both comparisons accept exactly the equal byte strings, and the differences
that they accumulate vanish exactly if two strings agree wherever both have a
byte. -/
theorem comparisons_exact (left right : Bytes) :
    (CeMeet.ctEq left right = true ↔ left = right) ∧
      (ctEq left right = true ↔ left = right) ∧
      ((left.zip right).foldl
          (fun diff pair => diff ||| (pair.1 ^^^ pair.2)) 0 = 0 ↔
        ∀ (index : Nat) (inLeft : index < left.length)
          (inRight : index < right.length), left[index] = right[index]) := by
  refine ⟨ctEq_iff, ?_, zip_diff_eq_zero_iff⟩
  rw [ctEq, ctEq_iff]

/-- The user name for an expiry and a channel. -/
def usernameOf (expiresAt : UInt64) (channelId : String) : String :=
  Separator.numbered ':' expiresAt.toNat channelId

/-- Derive a credential. -/
def derive (crypto : Crypto) (channelId : String) (sharedSecret : Bytes)
    (now ttlSecs : UInt64) : TurnCredential :=
  let expiresAt := now.saturatingAdd ttlSecs
  let username := usernameOf expiresAt channelId
  { username
    password := turnPassword crypto sharedSecret username
    expiresAt
    channelId }

/-- Check a presented credential. -/
def verify (crypto : Crypto) (cred : TurnCredential) (sharedSecret : Bytes)
    (now : UInt64) : Bool :=
  if now > cred.expiresAt then false
  else
    let expectedUsername := usernameOf cred.expiresAt cred.channelId
    if ¬ctEq (asBytes expectedUsername) (asBytes cred.username) then false
    else
      let expected := turnPassword crypto sharedSecret cred.username
      ctEq (asBytes expected) (asBytes cred.password)

/-- What happens at those who know a secret: credentials are derived, and
presented credentials are checked. -/
inductive Event
  | derive (channelId : String) (sharedSecret : Bytes) (now ttlSecs : UInt64)
  | verify (cred : TurnCredential) (sharedSecret : Bytes) (now : UInt64)

/-- The digest is an ideal authentication code: whenever a presented password is
the one for its user name under a secret, a credential with that user name has
been derived with that secret before. -/
def IdealMac (crypto : Crypto) (events : List Event) : Prop :=
  ∀ done cred sharedSecret now rest,
    events = done ++ .verify cred sharedSecret now :: rest →
    turnPassword crypto sharedSecret cred.username = cred.password →
    ∃ channelId issuedAt ttlSecs,
      .derive channelId sharedSecret issuedAt ttlSecs ∈ done ∧
        (derive crypto channelId sharedSecret issuedAt ttlSecs).username =
          cred.username

theorem usernameOf_inj
    {expiresAt otherExpiry : UInt64} {channelId otherChannel : String} :
    usernameOf expiresAt channelId = usernameOf otherExpiry otherChannel ↔
      expiresAt = otherExpiry ∧ channelId = otherChannel := by
  rw [usernameOf, usernameOf, Separator.numbered_inj (by decide),
    UInt64.toNat_inj]

/-- The credentials that verify. -/
theorem verify_eq_true_iff
    {crypto : Crypto} {cred : TurnCredential} {sharedSecret : Bytes}
    {now : UInt64} :
    cred.verify crypto sharedSecret now = true ↔
      now ≤ cred.expiresAt ∧
        cred.username = usernameOf cred.expiresAt cred.channelId ∧
        turnPassword crypto sharedSecret cred.username = cred.password := by
  unfold verify
  split
  case isTrue expired =>
    exact iff_of_false Bool.false_ne_true fun valid =>
      absurd valid.1 (not_le.mpr expired)
  case isFalse current =>
    rw [and_iff_right (not_lt.mp current)]
    dsimp only
    split
    case isTrue substituted =>
      rw [ctEq, ctEq_iff, asBytes_inj] at substituted
      exact iff_of_false Bool.false_ne_true fun valid =>
        substituted valid.1.symm
    case isFalse same =>
      rw [not_not, ctEq, ctEq_iff, asBytes_inj] at same
      rw [and_iff_right same.symm, ctEq, ctEq_iff, asBytes_inj]

/-- A derived credential verifies as long as it has not expired. -/
theorem verify_derive_iff
    {crypto : Crypto} {channelId : String} {sharedSecret : Bytes}
    {issuedAt ttlSecs now : UInt64} :
    (derive crypto channelId sharedSecret issuedAt ttlSecs).verify crypto
        sharedSecret now = true ↔
      now ≤ issuedAt.saturatingAdd ttlSecs := by
  rw [verify_eq_true_iff]
  exact and_iff_left ⟨rfl, rfl⟩

/-- A credential with the form that verification asks for, whose user name was
derived, is the derived one. -/
theorem eq_derive_of_username
    {crypto : Crypto} {cred : TurnCredential} {sharedSecret : Bytes}
    {channelId : String} {issuedAt ttlSecs : UInt64}
    (wellFormed : cred.username = usernameOf cred.expiresAt cred.channelId)
    (verifies : turnPassword crypto sharedSecret cred.username = cred.password)
    (derived :
      (derive crypto channelId sharedSecret issuedAt ttlSecs).username =
        cred.username) :
    channelId = cred.channelId ∧
      derive crypto channelId sharedSecret issuedAt ttlSecs = cred := by
  obtain ⟨sameExpiry, sameChannel⟩ :=
    usernameOf_inj.mp (derived.trans wellFormed)
  refine ⟨sameChannel, ?_⟩
  obtain ⟨username, password, expiresAt, credChannel⟩ := cred
  dsimp only at wellFormed verifies sameExpiry sameChannel
  subst sameExpiry sameChannel wellFormed verifies
  rfl

/-- With an ideal authentication code every credential that verifies was derived
before, with the same secret, for its channel and its expiry, and has not
expired; and every derived credential verifies up to its expiry. -/
theorem turn_not_transplanted
    (crypto : Crypto) (events : List Event)
    (ideal : IdealMac crypto events) :
    (∀ done cred sharedSecret now rest,
        events = done ++ .verify cred sharedSecret now :: rest →
        cred.verify crypto sharedSecret now = true →
        now ≤ cred.expiresAt ∧
          ∃ issuedAt ttlSecs,
            .derive cred.channelId sharedSecret issuedAt ttlSecs ∈ done ∧
              derive crypto cred.channelId sharedSecret issuedAt ttlSecs =
                cred) ∧
      ∀ channelId sharedSecret issuedAt ttlSecs now,
        now ≤ issuedAt.saturatingAdd ttlSecs →
        (derive crypto channelId sharedSecret issuedAt ttlSecs).verify crypto
          sharedSecret now = true := by
  refine ⟨?_, fun _ _ _ _ _ => verify_derive_iff.mpr⟩
  intro done cred sharedSecret now rest split verified
  obtain ⟨current, wellFormed, verifies⟩ := verify_eq_true_iff.mp verified
  obtain ⟨channelId, issuedAt, ttlSecs, called, derived⟩ :=
    ideal done cred sharedSecret now rest split verifies
  obtain ⟨rfl, same⟩ := eq_derive_of_username wellFormed verifies derived
  exact ⟨current, issuedAt, ttlSecs, called, same⟩

/-- The keyed digest of the user name of a credential. -/
def relayCrypto : Crypto :=
  .ofTables []
    [((asBytes "relay-secret", asBytes "160:5:ab"),
      [85, 179, 91, 105, 251, 0, 136, 142, 192, 221, 212, 14, 255, 10, 17, 233,
        113, 18, 60, 79, 198, 27, 137, 207, 111, 237, 224, 75, 25, 157, 95,
        215])]

/-- A credential for a channel whose id looks like a user name. -/
def numberedChannel : TurnCredential :=
  derive relayCrypto "5:ab" (asBytes "relay-secret") 100 60

/-- The credential is derived, and presented as it expires. -/
def presentsNumbered : List Event :=
  [.derive "5:ab" (asBytes "relay-secret") 100 60,
    .verify numberedChannel (asBytes "relay-secret") 160]

theorem idealMac_presentsNumbered : IdealMac relayCrypto presentsNumbered := by
  intro done cred sharedSecret now rest split _
  match done with
  | [] => cases split
  | [first] =>
      cases split
      exact ⟨"5:ab", 100, 60, List.mem_singleton_self _, rfl⟩
  | first :: second :: done =>
      have empty := congrArg List.length split
      simp [presentsNumbered] at empty

/-- The presented credential was derived for its channel. -/
theorem turn_not_transplanted_numbered :
    numberedChannel.verify relayCrypto (asBytes "relay-secret") 160 = true ∧
      ∃ issuedAt ttlSecs,
        .derive "5:ab" (asBytes "relay-secret") issuedAt ttlSecs ∈
            presentsNumbered.take 1 ∧
          derive relayCrypto "5:ab" (asBytes "relay-secret") issuedAt
            ttlSecs = numberedChannel := by
  have transplants := turn_not_transplanted relayCrypto presentsNumbered
    idealMac_presentsNumbered
  have verified := transplants.2 "5:ab" (asBytes "relay-secret") 100 60 160
    (by decide)
  exact ⟨verified, (transplants.1 _ numberedChannel _ 160 [] rfl verified).2⟩

end TurnCredential
end CeMeet
