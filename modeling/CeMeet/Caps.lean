import CeMeet.Crypto
import Mathlib.Data.Finset.Dedup
import Mathlib.Data.Finset.Empty
import Mathlib.Data.List.DropRight

/-!
# The capability gate

A gate decides whether a participant may perform an action in a room.  An open
room admits everybody; a gated one asks the capability verifier, which is a
parameter of the model.
-/

namespace CeMeet

/-- The identity of a node. -/
structure NodeId where
  /-- The key. -/
  bytes : Bytes
  /-- A key has 32 bytes. -/
  length_bytes : bytes.length = 32
  deriving DecidableEq

/-- The capability verifier. -/
structure CeIam where
  /-- A link of a capability chain. -/
  SignedCapability : Type
  /-- Read a chain from its hexadecimal text. -/
  decodeChain : String → Option (List SignedCapability)
  /-- Decide whether a chain grants an action, given the host, its accepted
  roots and tags, the time, the requester, the action, the chain and the
  revocation test. -/
  authorize : NodeId → List NodeId → List String → UInt64 → NodeId → String →
    List SignedCapability → (NodeId → UInt64 → Bool) → Except String Unit

/-- The verifier restricted to a table of chains of one link, each granting
`meet:join` to its holder. -/
def CeIam.ofGrants (grants : List (String × NodeId)) : CeIam where
  SignedCapability := NodeId
  decodeChain text := (grants.lookup text).map fun holder => [holder]
  authorize _ _ _ _ requester action chain _ :=
    if action = abilityJoin ∧ chain = [requester] then .ok ()
    else .error "capability denied"

/-- A character of the Unicode property `White_Space`. -/
def isWhitespace (char : Char) : Bool :=
  let code := char.toNat
  (9 ≤ code ∧ code ≤ 13) ∨ code = 0x20 ∨ code = 0x85 ∨ code = 0xA0 ∨
    code = 0x1680 ∨ (0x2000 ≤ code ∧ code ≤ 0x200A) ∨ code = 0x2028 ∨
    code = 0x2029 ∨ code = 0x202F ∨ code = 0x205F ∨ code = 0x3000

/-- Remove white space at both ends. -/
def trim (text : String) : String :=
  .ofList ((text.toList.dropWhile isWhitespace).rdropWhile isWhitespace)

/-- Parse the hexadecimal text of a node id. -/
def parseNodeId (crypto : Crypto) (hex : String) : Except String NodeId :=
  match crypto.hexDecode (asBytes (trim hex)) with
  | none => .error "node id is not valid hex"
  | some bytes =>
      if length_bytes : bytes.length = 32 then .ok ⟨bytes, length_bytes⟩
      else .error "node id must be 32 bytes (64 hex chars)"

/-- The admission gate of a room. -/
structure Gate where
  /-- The host, an implicit root. -/
  hostId : NodeId
  /-- The other accepted roots. -/
  acceptedRoots : List NodeId
  /-- Whether the room needs no capability. -/
  isOpen : Bool
  /-- The revoked pairs of an issuer, in hexadecimal, and a nonce. -/
  revoked : Finset (String × UInt64)
  deriving DecidableEq

namespace Gate

/-- The gate of an open room. -/
def openRoom (hostId : NodeId) : Gate :=
  { hostId, acceptedRoots := [], isOpen := true, revoked := ∅ }

/-- The gate of a gated room. -/
def gated (hostId : NodeId) (acceptedRoots : List NodeId) : Gate :=
  { hostId, acceptedRoots, isOpen := false, revoked := ∅ }

/-- Load the revoked pairs. -/
def withRevoked (gate : Gate) (revoked : List (String × UInt64)) : Gate :=
  { gate with revoked := revoked.toFinset }

/-- Decide whether a requester may perform an action. -/
def check (crypto : Crypto) (iam : CeIam) (gate : Gate)
    (requesterHex action capsHex : String) (hostTags : List String)
    (now : UInt64) : Except String Unit :=
  if gate.isOpen ∧ action = abilityJoin then .ok ()
  else
    match parseNodeId crypto requesterHex with
    | .error e => .error e
    | .ok requester =>
        match iam.decodeChain capsHex with
        | none => .error "no valid capability presented"
        | some chain =>
            let isRevoked issuer nonce : Bool :=
              (crypto.hexEncode issuer.bytes, nonce) ∈ gate.revoked
            iam.authorize gate.hostId gate.acceptedRoots hostTags now requester
              action chain isRevoked

end Gate

/-- The file of the capability chain: its directory and its name, given the
variable `CE_MEET_DIR` and the configuration directory of the platform. -/
def capsFile (meetDir configDir : Option String) : Option (String × String) :=
  match meetDir with
  | some dir => some (dir, "caps")
  | none => configDir.map fun dir => (dir, "caps")

/-- The capability chain to present: the option, the variable `CE_MEET_CAPS` or
the contents of the file, whichever comes first and is not blank. -/
def resolve (explicit capsVar : Option String)
    (file : Option (String × String))
    (readToString : String × String → Option String) : String :=
  match (explicit.map trim).filter (· ≠ "") with
  | some chain => chain
  | none =>
      match (capsVar.map trim).filter (· ≠ "") with
      | some chain => chain
      | none =>
          match ((file.bind readToString).map trim).filter (· ≠ "") with
          | some chain => chain
          | none => ""

end CeMeet
