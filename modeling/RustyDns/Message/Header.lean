import RustyDns.Message.Types

/-!
# The header codec

`Header::read` and `Header::write` of `structs/header.rs`. The writer packs the
flags into two bytes with shifts and ors; the reader takes the two bytes back
out of one `u16` and tests bits. The packing round-trips exactly when the
opcode fits its four bits: a wider opcode spills into the `QR` bit.
-/

namespace RustyDns

/-- `b as u8`. -/
def boolU8 (b : Bool) : UInt8 := if b then 1 else 0

namespace Header

/-- The first flags byte `write` emits: `RD`, `TC`, `AA`, the opcode and `QR`. -/
def flagsA (h : Header) : UInt8 :=
  boolU8 h.recursionDesired ||| (boolU8 h.truncatedMessage <<< 1) |||
    (boolU8 h.authoritativeAnswer <<< 2) ||| (h.opcode <<< 3) ||| (boolU8 h.response <<< 7)

/-- The second flags byte `write` emits: the result code, `CD`, `AD`, `Z` and `RA`. -/
def flagsB (h : Header) : UInt8 :=
  h.rescode.toU8 ||| (boolU8 h.checkingDisabled <<< 4) ||| (boolU8 h.authedData <<< 5) |||
    (boolU8 h.z <<< 6) ||| (boolU8 h.recursionAvailable <<< 7)

/-- `Header::write`: the id, the two flags bytes and the four section counts. -/
def write (h : Header) (b : BytePacketBuffer) : Except String BytePacketBuffer := do
  let b ← b.writeU16 h.id
  let b ← b.writeU8 h.flagsA
  let b ← b.writeU8 h.flagsB
  let b ← b.writeU16 h.questions
  let b ← b.writeU16 h.answers
  let b ← b.writeU16 h.authoritativeEntries
  b.writeU16 h.resourceEntries

/-- `Header::read`: every field is overwritten, so the result depends on the bytes only. -/
def read (b : BytePacketBuffer) : Except String (Header × BytePacketBuffer) := do
  let (id, b) ← b.readU16
  let (flags, b) ← b.readU16
  let flagsA := (flags >>> 8).toUInt8
  let flagsB := (flags &&& 0xFF).toUInt8
  let (questions, b) ← b.readU16
  let (answers, b) ← b.readU16
  let (authoritativeEntries, b) ← b.readU16
  let (resourceEntries, b) ← b.readU16
  return ({ id
            recursionDesired := (flagsA &&& 1) > 0
            truncatedMessage := (flagsA &&& ((1 : UInt8) <<< 1)) > 0
            authoritativeAnswer := (flagsA &&& ((1 : UInt8) <<< 2)) > 0
            opcode := (flagsA >>> 3) &&& 0x0F
            response := (flagsA &&& ((1 : UInt8) <<< 7)) > 0
            rescode := ResultCode.fromNum (flagsB &&& 0x0F)
            checkingDisabled := (flagsB &&& ((1 : UInt8) <<< 4)) > 0
            authedData := (flagsB &&& ((1 : UInt8) <<< 5)) > 0
            z := (flagsB &&& ((1 : UInt8) <<< 6)) > 0
            recursionAvailable := (flagsB &&& ((1 : UInt8) <<< 7)) > 0
            questions
            answers
            authoritativeEntries
            resourceEntries }, b)

/-- The twelve bytes `write` emits. -/
def bytes (h : Header) : List UInt8 :=
  be16 h.id ++ [h.flagsA] ++ [h.flagsB] ++ be16 h.questions ++ be16 h.answers ++
    be16 h.authoritativeEntries ++ be16 h.resourceEntries

@[simp] theorem length_bytes (h : Header) : h.bytes.length = 12 := rfl

open BytePacketBuffer in
/-- `write` fails only when the twelve bytes do not fit. -/
theorem writes_write (h : Header) : Writes True h.write h.bytes := by
  unfold write
  simp only [bytes, List.append_assoc]
  exact (writes_writeU16 _).bind_of_true <| (writes_writeU8 _).bind_of_true <|
    (writes_writeU8 _).bind_of_true <| (writes_writeU16 _).bind_of_true <|
      (writes_writeU16 _).bind_of_true <| (writes_writeU16 _).bind_of_true (writes_writeU16 _)

/-- The bits `read` tests in the first flags byte give back what `write` packed
there, for an opcode of four bits. -/
theorem unpack_flagsA : ∀ (op : Fin 16) (rd tc aa qr : Bool),
    let x := boolU8 rd ||| (boolU8 tc <<< 1) ||| (boolU8 aa <<< 2) ||| (op.val.toUInt8 <<< 3) |||
      (boolU8 qr <<< 7)
    decide ((x &&& 1) > 0) = rd ∧ decide ((x &&& ((1 : UInt8) <<< 1)) > 0) = tc ∧
      decide ((x &&& ((1 : UInt8) <<< 2)) > 0) = aa ∧ (x >>> 3) &&& 0x0F = op.val.toUInt8 ∧
      decide ((x &&& ((1 : UInt8) <<< 7)) > 0) = qr := by
  decide

/-- The bits `read` tests in the second flags byte give back what `write` packed there. -/
theorem unpack_flagsB : ∀ (rc : ResultCode) (cd ad z ra : Bool),
    let x := rc.toU8 ||| (boolU8 cd <<< 4) ||| (boolU8 ad <<< 5) ||| (boolU8 z <<< 6) |||
      (boolU8 ra <<< 7)
    ResultCode.fromNum (x &&& 0x0F) = rc ∧ decide ((x &&& ((1 : UInt8) <<< 4)) > 0) = cd ∧
      decide ((x &&& ((1 : UInt8) <<< 5)) > 0) = ad ∧ decide ((x &&& ((1 : UInt8) <<< 6)) > 0) = z ∧
      decide ((x &&& ((1 : UInt8) <<< 7)) > 0) = ra := by
  intro rc
  cases rc <;> decide

open BytePacketBuffer in
/-- `read` on the bytes `write` emits gives the header back, for an opcode of four
bits, and moves the cursor past the twelve bytes. -/
theorem read_of_unread {h : Header} (hop : h.opcode.toNat < 16) {b : BytePacketBuffer}
    {rest : List UInt8} (hb : b.unread = h.bytes ++ rest) :
    read b = .ok (h, b.step h.bytes.length) := by
  have hop' : (h.opcode.toNat).toUInt8 = h.opcode := UInt8.toNat.inj (toNat_toUInt8_of_lt (by omega))
  obtain ⟨rd, tc, aa, op, qr⟩ := unpack_flagsA ⟨h.opcode.toNat, hop⟩ h.recursionDesired
    h.truncatedMessage h.authoritativeAnswer h.response
  obtain ⟨rc, cd, ad, z, ra⟩ := unpack_flagsB h.rescode h.checkingDisabled h.authedData h.z
    h.recursionAvailable
  simp only [Fin.val_mk, hop'] at rd tc aa op qr
  simp only [bytes, List.append_assoc, pair_append_eq_be16] at hb
  have u₁ := unread_step_of_append hb
  have u₂ := unread_step_of_append u₁
  have u₃ := unread_step_of_append u₂
  have u₄ := unread_step_of_append u₃
  have u₅ := unread_step_of_append u₄
  simp only [read, readU16_of_unread hb, readU16_of_unread u₁, readU16_of_unread u₂,
    readU16_of_unread u₃, readU16_of_unread u₄, readU16_of_unread u₅,
    ok_bind, toUInt8_combine_shiftRight, toUInt8_combine_and]
  simp only [flagsA, flagsB, rd, tc, aa, op, qr, rc, cd, ad, z, ra, length_be16, step_step]
  rfl

end Header

end RustyDns
