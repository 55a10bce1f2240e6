import CeMeet.Admit.Basic
import CeMeet.Foundation.Separator

/-!
# What the code of a resume token authenticates

The message under the code joins the room, the participant, the expiry and the
floor of a token.  It is read from its end: the words have a fixed width, and
the last separator before them begins the participant, unless the participant
holds a separator itself.
-/

namespace CeMeet

/-- A text without the NUL character. -/
def NulFree (text : String) : Prop :=
  '\x00' ∉ text.toList

instance (text : String) : Decidable (NulFree text) :=
  inferInstanceAs (Decidable ('\x00' ∉ text.toList))

/-- A text has a zero byte exactly if it has a NUL character. -/
theorem zero_notMem_asBytes_iff {text : String} :
    0 ∉ asBytes text ↔ NulFree text := by
  have zero : ('\x00' : Char).val.toUInt8 = 0 := rfl
  rw [NulFree, ← Encoding.mem_toUTF8_iff (by decide) text, zero, asBytes]

theorem asBytes_append (left right : String) :
    asBytes (left ++ right) = asBytes left ++ asBytes right := by
  simp [asBytes]

namespace Admitter

variable {admitter other : Admitter} {nodeId otherNode : String}
  {expiresAt seqFloor otherExpiry otherFloor : UInt64}

/-- The room and the participant stand before the last separator and the
words. -/
theorem resumePreimage_eq :
    admitter.resumePreimage nodeId expiresAt seqFloor =
      asBytes "ce-meet:resume:v1" ++
        (asBytes admitter.roomId ++ 0 :: asBytes nodeId) ++ [0] ++
          toLeBytes expiresAt ++ toLeBytes seqFloor := by
  simp [resumePreimage]

theorem resumePreimage_eq_iff :
    admitter.resumePreimage nodeId expiresAt seqFloor =
        other.resumePreimage otherNode otherExpiry otherFloor ↔
      asBytes admitter.roomId ++ 0 :: asBytes nodeId =
          asBytes other.roomId ++ 0 :: asBytes otherNode ∧
        expiresAt = otherExpiry ∧ seqFloor = otherFloor := by
  rw [resumePreimage_eq, resumePreimage_eq, append_toLeBytes_inj,
    append_toLeBytes_inj, List.append_cancel_right_eq,
    List.append_cancel_left_eq, and_assoc]

/-- A NUL character in a participant can be moved into the room: the message
does not tell where the room ends. -/
theorem resumePreimage_rebracket (front : String) :
    { admitter with
        roomId := admitter.roomId ++ "\x00" ++ front }.resumePreimage nodeId
        expiresAt seqFloor =
      admitter.resumePreimage (front ++ "\x00" ++ nodeId) expiresAt
        seqFloor := by
  have separator : asBytes "\x00" = [0] := by decide
  rw [resumePreimage_eq_iff]
  simp [asBytes_append, separator]

/-! ## Two rooms under one secret -/

/-- A room. -/
def lobby : Admitter :=
  new "lobby" (.openRoom ⟨List.replicate 32 0x5a, by decide⟩)
    (asBytes "host-secret")

/-- A room of the same host with a NUL character in its name. -/
def annex : Admitter :=
  { lobby with roomId := "lobby\x00ann" }

/-! ## Main result -/

/-- For participants without NUL characters, two messages are equal only if they
are made of the same room, participant, expiry and floor, also if the rooms hold
NUL characters and share a secret. -/
theorem resumePreimage_unambiguous
    (nulFree : NulFree nodeId)
    (otherFree : NulFree otherNode) :
    admitter.resumePreimage nodeId expiresAt seqFloor =
        other.resumePreimage otherNode otherExpiry otherFloor ↔
      admitter.roomId = other.roomId ∧ nodeId = otherNode ∧
        expiresAt = otherExpiry ∧ seqFloor = otherFloor := by
  rw [resumePreimage_eq_iff,
    Separator.append_cons_inj_last (zero_notMem_asBytes_iff.mpr nulFree)
      (zero_notMem_asBytes_iff.mpr otherFree),
    asBytes_inj, asBytes_inj, and_assoc]

/-- The same participant has different messages in the two rooms. -/
theorem annex_ne_lobby :
    annex.resumePreimage "ann" 3600 0 ≠ lobby.resumePreimage "ann" 3600 0 := by
  intro same
  have sameRoom :=
    ((resumePreimage_unambiguous (by decide) (by decide)).mp same).1
  revert sameRoom
  decide

end Admitter
end CeMeet
