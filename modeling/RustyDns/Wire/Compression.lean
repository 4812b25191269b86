import RustyDns.Wire.Qname

/-!
# Compressed names and the jump limit

`read_qname` follows RFC 1035 pointers with a local position and a jump counter. On a
name in compressed form with at most five pointers it appends the lowercased name; on
any bytes its loop ends, and it fails with the limit's error exactly on a sixth jump.
-/

namespace RustyDns

namespace BytePacketBuffer

/-! ## Pointers -/

theorem get_of_getElem? {b : BytePacketBuffer} {pos : Nat} {x : UInt8}
    (h : b.buf[pos]? = some x) : b.get pos = .ok x := by
  obtain ⟨hp, hx⟩ := List.getElem?_eq_some_iff.mp h
  have hp' : ¬ pos ≥ 512 := by rw [b.buf_length] at hp; omega
  simp only [get, hp', dif_neg, not_false_eq_true, hx]

set_option maxRecDepth 2000 in
theorem and_C0_iff : ∀ n < 256, (n &&& 192 = 192 ↔ 192 ≤ n) := by decide

/-- The test `len & 0xC0 == 0xC0` takes a byte for a pointer exactly when it is
at least `0xC0`. -/
theorem isPointer_iff (x : UInt8) : x &&& 0xC0 = 0xC0 ↔ 192 ≤ x.toNat := by
  have hand : (x &&& 0xC0).toNat = x.toNat &&& 192 := by
    change (x.toBitVec &&& (0xC0 : UInt8).toBitVec).toNat = _
    rw [BitVec.toNat_and]
    rfl
  rw [← and_C0_iff x.toNat x.toNat_lt_size, ← hand]
  exact ⟨congrArg UInt8.toNat,
    fun h => UInt8.toNat.inj (show (x &&& 0xC0).toNat = (0xC0 : UInt8).toNat from h)⟩

private theorem xor_C0 : ∀ n < 64, (n + 192) ^^^ 192 = n := by decide

/-- The offset `read_qname` computes from a pointer's two bytes is the 14-bit
number they carry. -/
theorem pointer_offset {hi lo : UInt8} (h : 192 ≤ hi.toNat) :
    (((hi.toUInt16 ^^^ 0xC0) <<< 8) ||| lo.toUInt16).toNat = (hi.toNat - 192) * 256 + lo.toNat := by
  have hh := hi.toNat_lt_size
  have hl := lo.toNat_lt_size
  simp only [UInt8.size] at hh hl
  have hx : (hi.toUInt16 ^^^ 0xC0).toNat = hi.toNat - 192 := by
    change (hi.toUInt16.toBitVec ^^^ (0xC0 : UInt16).toBitVec).toNat = _
    rw [BitVec.toNat_xor]
    change hi.toNat ^^^ 192 = _
    obtain ⟨n, hn, he⟩ : ∃ n < 64, hi.toNat = n + 192 := ⟨hi.toNat - 192, by omega, by omega⟩
    rw [he, xor_C0 n hn]
    omega
  change ((hi.toUInt16 ^^^ 0xC0).toBitVec <<< (8 : Nat) ||| lo.toUInt16.toBitVec).toNat = _
  simp only [BitVec.toNat_or, BitVec.toNat_shiftLeft]
  change ((hi.toUInt16 ^^^ 0xC0).toNat <<< 8 % 2 ^ 16) ||| lo.toNat = _
  rw [hx, Nat.mod_eq_of_lt (by rw [Nat.shiftLeft_eq]; omega), shiftLeft_or_eq_add _ hl]
  omega

end BytePacketBuffer

/-! ## Names in compressed form -/

/-- The bytes of `buf` from `pos` on hold the labels `ls` in compressed form,
following `n` pointers, and the cursor of a reader belongs at `stop` afterwards:
past the first pointer's two bytes when there is one, past the zero byte
otherwise. A label is a length byte from 1 to 63 and that many ASCII bytes; a
pointer is a byte of at least `0xC0` and a second byte, and the 14-bit offset
they carry is where the rest of the name is, in the same form. -/
inductive Compressed (buf : List UInt8) : Nat → List (List UInt8) → Nat → Nat → Prop
  | zero {pos : Nat} : buf[pos]? = some 0 → Compressed buf pos [] 0 (pos + 1)
  | label {pos n stop : Nat} {l : List UInt8} {ls : List (List UInt8)} :
      buf[pos]? = some l.length.toUInt8 → 1 ≤ l.length → l.length ≤ 63 → (∀ c ∈ l, c < 128) →
      l <+: buf.drop (pos + 1) → Compressed buf (pos + 1 + l.length) ls n stop →
      Compressed buf pos (l :: ls) n stop
  | pointer {pos n stop : Nat} {hi lo : UInt8} {ls : List (List UInt8)} :
      buf[pos]? = some hi → 192 ≤ hi.toNat → buf[pos + 1]? = some lo →
      Compressed buf ((hi.toNat - 192) * 256 + lo.toNat) ls n stop →
      Compressed buf pos ls (n + 1) (pos + 2)

/-- The bytes of `buf` from `pos` on hold the labels `ls` in the form `read_qname`
takes, following `n` pointers, with the cursor of a reader belonging at `stop`. It
is `Compressed` with the limits the code has: a length byte is a label's from 1
to 191, since only a byte of at least `0xC0` is taken for a pointer, and a
label's bytes are any bytes. -/
inductive WireName (buf : List UInt8) : Nat → List (List UInt8) → Nat → Nat → Prop
  | zero {pos : Nat} : buf[pos]? = some 0 → WireName buf pos [] 0 (pos + 1)
  | label {pos n stop : Nat} {l : List UInt8} {ls : List (List UInt8)} :
      buf[pos]? = some l.length.toUInt8 → 1 ≤ l.length → l.length < 192 →
      l <+: buf.drop (pos + 1) → WireName buf (pos + 1 + l.length) ls n stop →
      WireName buf pos (l :: ls) n stop
  | pointer {pos n stop : Nat} {hi lo : UInt8} {ls : List (List UInt8)} :
      buf[pos]? = some hi → 192 ≤ hi.toNat → buf[pos + 1]? = some lo →
      WireName buf ((hi.toNat - 192) * 256 + lo.toNat) ls n stop →
      WireName buf pos ls (n + 1) (pos + 2)

section

variable {buf : List UInt8} {pos n stop : Nat} {ls : List (List UInt8)}

theorem WireName.pos_lt (h : WireName buf pos ls n stop) : pos < buf.length := by
  cases h <;> exact (List.getElem?_eq_some_iff.mp ‹_›).1

theorem WireName.ne_nil (h : WireName buf pos ls n stop) : ∀ l ∈ ls, l ≠ [] := by
  induction h with
  | zero => exact fun _ hl => nomatch hl
  | label _ hl _ _ _ ih =>
    rintro l' (_ | ⟨_, hl'⟩)
    · exact List.ne_nil_of_length_pos hl
    · exact ih l' hl'
  | pointer _ _ _ _ ih => exact ih

/-- A name in compressed form is in the form `read_qname` takes. -/
theorem Compressed.wireName (h : Compressed buf pos ls n stop) : WireName buf pos ls n stop := by
  induction h with
  | zero h0 => exact .zero h0
  | label hlen h1 h63 _ hpre _ ih => exact .label hlen h1 (by omega) hpre ih
  | pointer hhi h192 hlo _ ih => exact .pointer hhi h192 hlo ih

theorem Compressed.ne_nil (h : Compressed buf pos ls n stop) : ∀ l ∈ ls, l ≠ [] :=
  h.wireName.ne_nil

end

namespace BytePacketBuffer

/-- The loop of `read_qname` on a name in the form it takes, from any jump count
that leaves room for its pointers: it reads the labels and, unless it has jumped
already, moves the cursor where the name's form puts it. -/
theorem readQnameLoop_wireName {buf : List UInt8} {pos n stop : Nat}
    {ls : List (List UInt8)} (h : WireName buf pos ls n stop) {b : BytePacketBuffer}
    (hb : b.buf = buf) {j : Nat} (hj : j + n ≤ 5) (jumped : Bool) (delim out : List UInt8) :
    b.readQnameLoop pos jumped j delim out =
      .ok (if jumped then b else b.seek stop, out ++ readLabels ls delim) := by
  induction h generalizing b j jumped delim out with
  | zero h0 =>
    rw [readQnameLoop_of_get jumped delim out (by omega) (get_of_getElem? (hb ▸ h0))]
    cases jumped <;> simp [zero_not_pointer, readLabels]
  | @label pos n stop l ls hlen h1 h192 hpre hrest ih =>
    have hlt : pos + 1 + l.length < 512 := by
      have := hrest.pos_lt
      rw [← hb, b.buf_length] at this
      exact this
    have hl : l.length.toUInt8.toNat = l.length := toNat_toUInt8_of_lt (by omega)
    have hnp : ¬ (l.length.toUInt8 &&& 0xC0 = 0xC0) := by
      rw [isPointer_iff, hl]
      omega
    have hne : l.length.toUInt8 ≠ 0 := fun h0 => by
      have := congrArg UInt8.toNat h0
      rw [hl] at this
      exact absurd this (by simp only [UInt8.toNat_zero]; omega)
    have hrange : b.getRange (pos + 1) l.length = .ok l := by
      rw [getRange, if_neg (by omega), hb, (List.prefix_iff_eq_take.mp hpre).symm]
    rw [readQnameLoop_of_get jumped delim out (by omega) (get_of_getElem? (hb ▸ hlen))]
    simp only [hnp, if_false, hne, hl, hrange]
    rw [ih hb hj jumped [dot] (out ++ delim ++ lowercaseLabel l), readLabels,
      if_neg (List.ne_nil_of_length_pos h1)]
    simp only [List.append_assoc]
  | @pointer pos n stop hi lo ls hhi h192 hlo hrest ih =>
    have hb' : (if !jumped then b.seek (pos + 2) else b).buf = buf := by
      cases jumped <;> exact hb
    rw [readQnameLoop_of_get jumped delim out (by omega) (get_of_getElem? (hb ▸ hhi)),
      if_pos ((isPointer_iff hi).mpr h192), get_of_getElem? (hb' ▸ hlo)]
    simp only [pointer_offset h192]
    rw [ih hb' (by omega) true delim out]
    cases jumped <;> rfl

/-- The loop of `read_qname` on a name in compressed form, from any jump count
that leaves room for its pointers: it reads the labels and, unless it has jumped
already, moves the cursor where the name's form puts it. -/
theorem readQnameLoop_compressed {buf : List UInt8} {pos n stop : Nat}
    {ls : List (List UInt8)} (h : Compressed buf pos ls n stop) {b : BytePacketBuffer}
    (hb : b.buf = buf) {j : Nat} (hj : j + n ≤ 5) (jumped : Bool) (delim out : List UInt8) :
    b.readQnameLoop pos jumped j delim out =
      .ok (if jumped then b else b.seek stop, out ++ readLabels ls delim) :=
  readQnameLoop_wireName h.wireName hb hj jumped delim out

/-- Compressed names decode: from a cursor at the bytes of a name in compressed
form with at most five pointers, `read_qname` appends the name's labels joined by
dots and lowercased, and leaves the cursor past the first pointer, or past the
zero byte when it followed none. -/
theorem readQname_compressed {b : BytePacketBuffer} {ls : List (List UInt8)} {n stop : Nat}
    (h : Compressed b.buf b.pos ls n stop) (hn : n ≤ 5) (outstr : List UInt8) :
    b.readQname outstr = .ok (b.seek stop, outstr ++ lowercaseLabel ([dot].intercalate ls)) := by
  rw [readQname, readQnameLoop_compressed h rfl (by omega) false [] outstr, if_neg Bool.false_ne_true]
  cases ls with
  | nil => rfl
  | cons l ls => rw [readLabels_of_ne h.ne_nil (List.cons_ne_nil _ _), List.nil_append]

/-- A buffer holding the label `a`, then a pointer to offset 5, where the label `b`
and the zero byte end the name `a.b`. -/
def compressedAB : BytePacketBuffer :=
  ⟨[1, 97, 0xC0, 5, 0, 1, 98, 0] ++ List.replicate 504 0, 0, by
    rw [List.length_append, List.length_replicate]; rfl⟩

/-- `read_qname` reads `a.b` across the pointer and leaves the cursor past it. -/
theorem readQname_compressedAB :
    Compressed compressedAB.buf compressedAB.pos [[97], [98]] 1 4 ∧ 1 ≤ 5 ∧
      compressedAB.readQname [] =
        .ok (compressedAB.seek 4, [] ++ lowercaseLabel ([dot].intercalate [[97], [98]])) := by
  have hbuf : ∀ i < 8, compressedAB.buf[i]? = [1, 97, 0xC0, 5, 0, 1, 98, 0][i]? := fun i hi =>
    List.getElem?_append_left (by simpa using hi)
  have hb : Compressed compressedAB.buf 5 [[98]] 0 8 :=
    .label (hbuf 5 (by decide)) (by decide) (by decide) (by decide) ⟨_, rfl⟩
      (.zero (hbuf 7 (by decide)))
  have h : Compressed compressedAB.buf compressedAB.pos [[97], [98]] 1 4 :=
    .label (hbuf 0 (by decide)) (by decide) (by decide) (by decide) ⟨_, rfl⟩
      (.pointer (hbuf 2 (by decide)) (by decide) (hbuf 3 (by decide)) hb)
  exact ⟨h, by decide, readQname_compressed h (by decide) []⟩

end BytePacketBuffer

/-! ## Every byte pattern -/

/-- A turn of the loop of `read_qname` after which it goes on: a pointer at `pos`
followed to `target`, or a label of `len` bytes read at `pos`. -/
inductive QnameStep
  | jump (pos target : Nat)
  | label (pos len : Nat)
  deriving DecidableEq, Repr

namespace QnameStep

/-- Whether the turn follows a pointer. -/
def isJump : QnameStep → Bool
  | jump .. => true
  | label .. => false

/-- The local position of the next turn. -/
def next : QnameStep → Nat
  | jump _ target => target
  | label pos len => pos + 1 + len

/-- The last index of the buffer the turn reads: the pointer's second byte, or the
label's last byte. -/
def lastRead : QnameStep → Nat
  | jump pos _ => pos + 1
  | label pos len => pos + len

end QnameStep

namespace BytePacketBuffer

theorem get_error {b : BytePacketBuffer} {pos : Nat} {e : String} (h : b.get pos = .error e) :
    e = "End of buffer" := by
  unfold get at h
  split at h
  · cases h; rfl
  · cases h

theorem getRange_error {b : BytePacketBuffer} {start len : Nat} {e : String}
    (h : b.getRange start len = .error e) : e = "End of buffer" := by
  unfold getRange at h
  split at h
  · cases h; rfl
  · cases h

theorem getRange_ok {b : BytePacketBuffer} {start len : Nat} {str : List UInt8}
    (h : b.getRange start len = .ok str) :
    start + len < 512 ∧ str = (b.buf.drop start).take len := by
  unfold getRange at h
  split at h
  · cases h
  · cases h; exact ⟨by omega, rfl⟩

theorem get_ite_seek (b : BytePacketBuffer) (jumped : Bool) (q p : Nat) :
    (if !jumped then b.seek q else b).get p = b.get p := by
  cases jumped <;> rfl

/-- The turn of the loop at the local position `pos` when the loop goes on, read as
the loop reads it; `none` where the loop ends, at a zero byte or on a failed read.
Only the bytes play a part, not the cursor or the jump counter. -/
def qnameStep (b : BytePacketBuffer) (pos : Nat) : Option QnameStep :=
  match b.get pos with
  | .error _ => none
  | .ok len =>
    if len &&& 0xC0 = 0xC0 then
      match b.get (pos + 1) with
      | .error _ => none
      | .ok b2 => some (.jump pos (((len.toUInt16 ^^^ 0xC0) <<< 8) ||| b2.toUInt16).toNat)
    else if len = 0 then none
    else
      match b.getRange (pos + 1) len.toNat with
      | .error _ => none
      | .ok _ => some (.label pos len.toNat)

theorem qnameStep_of_buf_eq {b b' : BytePacketBuffer} (h : b'.buf = b.buf) (pos : Nat) :
    b'.qnameStep pos = b.qnameStep pos := by
  obtain ⟨buf, _, _⟩ := b
  obtain ⟨buf', _, _⟩ := b'
  cases h
  rfl

variable {b : BytePacketBuffer} {pos j : Nat}

/-- What a turn that goes on has read: a pointer's two bytes, or a length byte that
is neither a pointer nor zero and the label's bytes, below 512. -/
theorem qnameStep_eq_some {s : QnameStep} (h : b.qnameStep pos = some s) :
    ∃ len, b.get pos = .ok len ∧
      ((len &&& 0xC0 = 0xC0 ∧ ∃ b2, b.get (pos + 1) = .ok b2 ∧
          s = .jump pos (((len.toUInt16 ^^^ 0xC0) <<< 8) ||| b2.toUInt16).toNat) ∨
        (¬ len &&& 0xC0 = 0xC0 ∧ len ≠ 0 ∧ pos + 1 + len.toNat < 512 ∧
          b.getRange (pos + 1) len.toNat = .ok ((b.buf.drop (pos + 1)).take len.toNat) ∧
          s = .label pos len.toNat)) := by
  unfold qnameStep at h
  split at h
  · cases h
  rename_i len hg
  refine ⟨len, hg, ?_⟩
  split at h <;> rename_i hp
  · split at h
    · cases h
    · rename_i b2 hg2
      cases h
      exact .inl ⟨hp, b2, hg2, rfl⟩
  · split at h
    · cases h
    rename_i h0
    split at h
    · cases h
    rename_i hr
    cases h
    obtain ⟨hlt, rfl⟩ := getRange_ok hr
    exact .inr ⟨hp, h0, hlt, hr, rfl⟩

/-- Where no turn goes on: a read failed, or the length byte is zero. -/
theorem qnameStep_eq_none (h : b.qnameStep pos = none) :
    (∃ e, b.get pos = .error e) ∨ ∃ len, b.get pos = .ok len ∧
      ((len &&& 0xC0 = 0xC0 ∧ ∃ e, b.get (pos + 1) = .error e) ∨
        (¬ len &&& 0xC0 = 0xC0 ∧ len = 0) ∨
        (¬ len &&& 0xC0 = 0xC0 ∧ len ≠ 0 ∧ ∃ e, b.getRange (pos + 1) len.toNat = .error e)) := by
  unfold qnameStep at h
  split at h
  · exact .inl ⟨_, ‹_›⟩
  rename_i len hg
  refine .inr ⟨len, hg, ?_⟩
  split at h <;> rename_i hp
  · split at h
    · exact .inl ⟨hp, _, ‹_›⟩
    · cases h
  · split at h <;> rename_i h0
    · exact .inr (.inl ⟨hp, h0⟩)
    split at h
    · exact .inr (.inr ⟨hp, h0, _, ‹_›⟩)
    · cases h

theorem qnameStep_jump {p target : Nat} (h : b.qnameStep pos = some (.jump p target)) :
    p = pos ∧ pos + 1 < 512 := by
  obtain ⟨_, -, ⟨-, _, hg2, he⟩ | ⟨-, -, -, -, he⟩⟩ := qnameStep_eq_some h
  · cases he
    exact ⟨rfl, get_ok_lt hg2⟩
  · cases he

theorem qnameStep_label {p len : Nat} (h : b.qnameStep pos = some (.label p len)) :
    p = pos ∧ 0 < len ∧ pos + 1 + len < 512 := by
  obtain ⟨_, -, ⟨-, _, -, he⟩ | ⟨-, h0, hlt, -, he⟩⟩ := qnameStep_eq_some h
  · cases he
  · cases he
    exact ⟨rfl, Nat.pos_of_ne_zero fun h => h0 (UInt8.toNat.inj h), hlt⟩

/-- A turn that follows a pointer: the loop goes on at its target, one jump further,
with the cursor past the pointer if it is the first. -/
theorem readQnameLoop_of_jump {p target : Nat} (hj : j ≤ 5)
    (h : b.qnameStep pos = some (.jump p target)) (jumped : Bool) (delim out : List UInt8) :
    b.readQnameLoop pos jumped j delim out =
      (if !jumped then b.seek (pos + 2) else b).readQnameLoop target true (j + 1) delim out := by
  obtain ⟨len, hg, ⟨hp, b2, hg2, he⟩ | ⟨-, -, -, -, he⟩⟩ := qnameStep_eq_some h
  · cases he
    rw [readQnameLoop_of_get jumped delim out hj hg, if_pos hp, get_ite_seek, hg2]
  · cases he

/-- A turn that reads a label: the loop goes on past it, with the label appended. -/
theorem readQnameLoop_of_label {p len : Nat} (hj : j ≤ 5)
    (h : b.qnameStep pos = some (.label p len)) (jumped : Bool) (delim out : List UInt8) :
    b.readQnameLoop pos jumped j delim out =
      b.readQnameLoop (pos + 1 + len) jumped j [dot]
        (out ++ delim ++ lowercaseLabel ((b.buf.drop (pos + 1)).take len)) := by
  obtain ⟨l, hg, ⟨-, _, -, he⟩ | ⟨hp, h0, -, hr, he⟩⟩ := qnameStep_eq_some h
  · cases he
  · cases he
    rw [readQnameLoop_of_get jumped delim out hj hg, if_neg hp, if_neg h0, hr]

theorem endOfBuffer_ne {α : Type} :
    (.error "End of buffer" : Except String α) ≠ .error "Limit of 5 jumps exceeded" :=
  fun h => absurd (Except.error.inj h) (by decide)

/-- Where no turn goes on, the loop fails at the end of the buffer, or it ends at
a zero byte and returns the name read so far. -/
theorem readQnameLoop_of_none_cases (hj : j ≤ 5) (h : b.qnameStep pos = none) (jumped : Bool)
    (delim out : List UInt8) :
    b.readQnameLoop pos jumped j delim out = .error "End of buffer" ∨
      b.get pos = .ok 0 ∧
        b.readQnameLoop pos jumped j delim out = .ok (if !jumped then b.seek (pos + 1) else b, out) := by
  rcases qnameStep_eq_none h with ⟨e, hg⟩ | ⟨len, hg, ⟨hp, e, hg2⟩ | ⟨hp, h0⟩ | ⟨hp, h0, e, hr⟩⟩
  · rw [readQnameLoop_of_get_error jumped delim out hj hg, get_error hg]
    exact .inl rfl
  all_goals rw [readQnameLoop_of_get jumped delim out hj hg]
  · rw [if_pos hp, get_ite_seek, hg2, get_error hg2]
    exact .inl rfl
  · subst h0
    exact .inr ⟨hg, by rw [if_neg hp, if_pos rfl]⟩
  · rw [if_neg hp, if_neg h0, hr, getRange_error hr]
    exact .inl rfl

/-- Where no turn goes on, the loop ends without the jump limit's error. -/
theorem readQnameLoop_of_none (hj : j ≤ 5) (h : b.qnameStep pos = none) (jumped : Bool)
    (delim out : List UInt8) :
    b.readQnameLoop pos jumped j delim out ≠ .error "Limit of 5 jumps exceeded" := by
  rcases readQnameLoop_of_none_cases hj h jumped delim out with h' | ⟨-, h'⟩ <;> rw [h']
  · exact endOfBuffer_ne
  · exact nofun

/-- The turns `read_qname`'s loop makes from the local position `pos` with
`jumpsPerformed` jumps behind it, until it ends: at a zero byte, on a failed read,
or at the jump limit. Its measure is the loop's own. -/
def readQnameTrace (b : BytePacketBuffer) (pos jumpsPerformed : Nat) : List QnameStep :=
  if _hj : jumpsPerformed > 5 then []
  else
    match _hs : b.qnameStep pos with
    | none => []
    | some (.jump p target) => .jump p target :: b.readQnameTrace target (jumpsPerformed + 1)
    | some (.label p len) => .label p len :: b.readQnameTrace (pos + 1 + len) jumpsPerformed
termination_by (6 - jumpsPerformed, 512 - pos)
decreasing_by
  · exact Prod.Lex.left _ _ (by omega)
  · have := (qnameStep_label _hs).2.2
    exact Prod.Lex.right _ (by omega)

theorem readQnameTrace_of_gt (hj : j > 5) : b.readQnameTrace pos j = [] := by
  rw [readQnameTrace, dif_pos hj]

theorem readQnameTrace_of_none (hj : j ≤ 5) (h : b.qnameStep pos = none) :
    b.readQnameTrace pos j = [] := by
  rw [readQnameTrace, dif_neg (by omega)]
  split <;> simp_all

theorem readQnameTrace_of_jump {p target : Nat} (hj : j ≤ 5)
    (h : b.qnameStep pos = some (.jump p target)) :
    b.readQnameTrace pos j = .jump p target :: b.readQnameTrace target (j + 1) := by
  rw [readQnameTrace, dif_neg (by omega)]
  split <;> simp_all

theorem readQnameTrace_of_label {p len : Nat} (hj : j ≤ 5)
    (h : b.qnameStep pos = some (.label p len)) :
    b.readQnameTrace pos j = .label p len :: b.readQnameTrace (pos + 1 + len) j := by
  rw [readQnameTrace, dif_neg (by omega)]
  split <;> simp_all

/-- The first `n` turns the loop would make from `pos` with no jump limit. -/
def qnameSteps (b : BytePacketBuffer) : Nat → Nat → List QnameStep
  | 0, _ => []
  | n + 1, pos =>
    match b.qnameStep pos with
    | none => []
    | some s => s :: b.qnameSteps n s.next

/-- Where the loop would be after `n` turns from `pos` with no jump limit, unless it
ended before. -/
def qnameWalk (b : BytePacketBuffer) : Nat → Nat → Option Nat
  | 0, pos => some pos
  | n + 1, pos => (b.qnameStep pos).bind fun s => b.qnameWalk n s.next

/-- From `pos`, the loop with no jump limit comes back to where it has been. Labels
only move it forward, so the way back is a pointer: the bytes hold a pointer cycle. -/
def PointerCycle (b : BytePacketBuffer) (pos : Nat) : Prop :=
  ∃ m k p, 0 < k ∧ b.qnameWalk m pos = some p ∧ b.qnameWalk k p = some p

section Trace

variable (b)

/-- From `j` jumps on, the loop follows at most `6 - j` pointers. -/
theorem readQnameTrace_jumps (pos j : Nat) :
    (b.readQnameTrace pos j).countP QnameStep.isJump ≤ 6 - j := by
  induction pos, j using readQnameTrace.induct b with
  | case1 pos j hj => rw [readQnameTrace_of_gt hj]; exact Nat.zero_le _
  | case2 pos j hj hs => rw [readQnameTrace_of_none (by omega) hs]; exact Nat.zero_le _
  | case3 pos j hj p target hs ih =>
    rw [readQnameTrace_of_jump (by omega) hs, List.countP_cons_of_pos _ _ rfl]
    omega
  | case4 pos j hj p len hs ih =>
    rw [readQnameTrace_of_label (by omega) hs, List.countP_cons_of_neg _ _ Bool.false_ne_true]
    exact ih

/-- The labels the loop reads before its next pointer: at most one for every two
bytes left below 512, since each takes its length byte and at least one more. -/
theorem readQnameTrace_labels (pos j : Nat) :
    ((b.readQnameTrace pos j).takeWhile fun s => !s.isJump).length ≤ (513 - pos) / 2 := by
  induction pos, j using readQnameTrace.induct b with
  | case1 pos j hj => rw [readQnameTrace_of_gt hj]; exact Nat.zero_le _
  | case2 pos j hj hs => rw [readQnameTrace_of_none (by omega) hs]; exact Nat.zero_le _
  | case3 pos j hj p target hs => rw [readQnameTrace_of_jump (by omega) hs]; exact Nat.zero_le _
  | case4 pos j hj p len hs ih =>
    have := qnameStep_label hs
    rw [readQnameTrace_of_label (by omega) hs, List.takeWhile_cons_of_pos rfl, List.length_cons]
    omega

/-- What is left of a trace after some turns is the trace from where they lead. -/
theorem readQnameTrace_tails (pos j : Nat) :
    ∀ t ∈ (b.readQnameTrace pos j).tails, t = [] ∨ ∃ pos' j', t = b.readQnameTrace pos' j' := by
  induction pos, j using readQnameTrace.induct b with
  | case1 pos j hj => rw [readQnameTrace_of_gt hj]; simp
  | case2 pos j hj hs => rw [readQnameTrace_of_none (by omega) hs]; simp
  | case3 pos j hj p target hs ih =>
    rw [readQnameTrace_of_jump (by omega) hs]
    rintro t (_ | ⟨_, ht⟩)
    · exact .inr ⟨pos, j, (readQnameTrace_of_jump (by omega) hs).symm⟩
    · exact ih t ht
  | case4 pos j hj p len hs ih =>
    rw [readQnameTrace_of_label (by omega) hs]
    rintro t (_ | ⟨_, ht⟩)
    · exact .inr ⟨pos, j, (readQnameTrace_of_label (by omega) hs).symm⟩
    · exact ih t ht

/-- Before the first pointer and between two of them, the loop reads at most 256
labels. -/
theorem readQnameTrace_label_runs (pos j : Nat) :
    ∀ t ∈ (b.readQnameTrace pos j).tails, (t.takeWhile fun s => !s.isJump).length ≤ 256 := by
  intro t ht
  rcases readQnameTrace_tails b pos j t ht with rfl | ⟨pos', j', rfl⟩
  · exact Nat.zero_le _
  · exact (readQnameTrace_labels b pos' j').trans (by omega)

/-- Every turn reads below index 512. -/
theorem readQnameTrace_lastRead (pos j : Nat) :
    ∀ s ∈ b.readQnameTrace pos j, s.lastRead < 512 := by
  induction pos, j using readQnameTrace.induct b with
  | case1 pos j hj => rw [readQnameTrace_of_gt hj]; exact fun _ h => nomatch h
  | case2 pos j hj hs => rw [readQnameTrace_of_none (by omega) hs]; exact fun _ h => nomatch h
  | case3 pos j hj p target hs ih =>
    rw [readQnameTrace_of_jump (by omega) hs]
    obtain ⟨rfl, hp⟩ := qnameStep_jump hs
    exact List.forall_mem_cons.mpr ⟨hp, ih⟩
  | case4 pos j hj p len hs ih =>
    rw [readQnameTrace_of_label (by omega) hs]
    obtain ⟨rfl, -, hp⟩ := qnameStep_label hs
    exact List.forall_mem_cons.mpr ⟨show p + len < 512 by omega, ih⟩

/-- The loop makes at most 257 turns for every jump it has left, and one more for
every two bytes left below 512. -/
theorem readQnameTrace_length (pos j : Nat) :
    (b.readQnameTrace pos j).length ≤ (6 - j) * 257 + (513 - pos) / 2 := by
  induction pos, j using readQnameTrace.induct b with
  | case1 pos j hj => rw [readQnameTrace_of_gt hj]; exact Nat.zero_le _
  | case2 pos j hj hs => rw [readQnameTrace_of_none (by omega) hs]; exact Nat.zero_le _
  | case3 pos j hj p target hs ih =>
    rw [readQnameTrace_of_jump (by omega) hs, List.length_cons]
    omega
  | case4 pos j hj p len hs ih =>
    have := qnameStep_label hs
    rw [readQnameTrace_of_label (by omega) hs, List.length_cons]
    omega

/-- The trace is the loop's own turns: the loop meets the jump limit exactly when
its trace follows every pointer left to it. -/
theorem readQnameLoop_limit_iff (pos j : Nat) {b' : BytePacketBuffer} (hb : b'.buf = b.buf)
    (jumped : Bool) (delim out : List UInt8) :
    b'.readQnameLoop pos jumped j delim out = .error "Limit of 5 jumps exceeded" ↔
      (b.readQnameTrace pos j).countP QnameStep.isJump = 6 - j := by
  induction pos, j using readQnameTrace.induct b generalizing b' jumped delim out with
  | case1 pos j hj =>
    rw [readQnameLoop_of_gt jumped delim out hj, readQnameTrace_of_gt hj]
    exact iff_of_true rfl (by rw [List.countP_nil]; omega)
  | case2 pos j hj hs =>
    rw [readQnameTrace_of_none (by omega) hs, List.countP_nil]
    exact iff_of_false
      (readQnameLoop_of_none (by omega) ((qnameStep_of_buf_eq hb pos).trans hs) _ _ _) (by omega)
  | case3 pos j hj p target hs ih =>
    have hb' : (if !jumped then b'.seek (pos + 2) else b').buf = b.buf := by
      cases jumped <;> exact hb
    rw [readQnameLoop_of_jump (by omega) ((qnameStep_of_buf_eq hb pos).trans hs),
      readQnameTrace_of_jump (by omega) hs, List.countP_cons_of_pos _ _ rfl, ih hb']
    omega
  | case4 pos j hj p len hs ih =>
    rw [readQnameLoop_of_label (by omega) ((qnameStep_of_buf_eq hb pos).trans hs),
      readQnameTrace_of_label (by omega) hs, List.countP_cons_of_neg _ _ Bool.false_ne_true, ih hb]

/-- The trace is where the loop with no jump limit starts. -/
theorem qnameSteps_readQnameTrace (pos j : Nat) :
    b.qnameSteps (b.readQnameTrace pos j).length pos = b.readQnameTrace pos j := by
  induction pos, j using readQnameTrace.induct b with
  | case1 pos j hj => rw [readQnameTrace_of_gt hj]; rfl
  | case2 pos j hj hs => rw [readQnameTrace_of_none (by omega) hs]; rfl
  | case3 pos j hj p target hs ih =>
    rw [readQnameTrace_of_jump (by omega) hs, List.length_cons, qnameSteps, hs]
    exact congrArg _ ih
  | case4 pos j hj p len hs ih =>
    rw [readQnameTrace_of_label (by omega) hs, List.length_cons, qnameSteps, hs]
    obtain ⟨rfl, -⟩ := qnameStep_label hs
    exact congrArg _ ih

/-- Where the loop with no jump limit takes every pointer left to the loop, the loop
takes them too. -/
theorem readQnameTrace_of_steps {pos j n : Nat}
    (h : 6 - j ≤ (b.qnameSteps n pos).countP QnameStep.isJump) :
    (b.readQnameTrace pos j).countP QnameStep.isJump = 6 - j := by
  induction pos, j using readQnameTrace.induct b generalizing n with
  | case1 pos j hj => rw [readQnameTrace_of_gt hj, List.countP_nil]; omega
  | case2 pos j hj hs =>
    have : b.qnameSteps n pos = [] := by cases n <;> simp only [qnameSteps, hs]
    rw [this, List.countP_nil] at h
    omega
  | case3 pos j hj p target hs ih =>
    rw [readQnameTrace_of_jump (by omega) hs, List.countP_cons_of_pos _ _ rfl]
    cases n with
    | zero => exact absurd h (by simp only [qnameSteps, List.countP_nil]; omega)
    | succ n =>
      rw [qnameSteps, hs, List.countP_cons_of_pos _ _ rfl] at h
      simp only [QnameStep.next] at h
      have := ih (n := n) (by omega)
      omega
  | case4 pos j hj p len hs ih =>
    rw [readQnameTrace_of_label (by omega) hs, List.countP_cons_of_neg _ _ Bool.false_ne_true]
    cases n with
    | zero => exact absurd h (by simp only [qnameSteps, List.countP_nil]; omega)
    | succ n =>
      rw [qnameSteps, hs, List.countP_cons_of_neg _ _ Bool.false_ne_true] at h
      obtain ⟨rfl, -⟩ := qnameStep_label hs
      exact ih h

theorem qnameWalk_add (m n pos : Nat) :
    b.qnameWalk (m + n) pos = (b.qnameWalk m pos).bind (b.qnameWalk n) := by
  induction m generalizing pos with
  | zero => rw [Nat.zero_add]; rfl
  | succ m ih =>
    rw [Nat.add_right_comm, qnameWalk, qnameWalk, Option.bind_assoc]
    simp only [ih]

theorem qnameWalk_succ {pos : Nat} {s : QnameStep} (hs : b.qnameStep pos = some s) (n : Nat) :
    b.qnameWalk (n + 1) pos = b.qnameWalk n s.next := by
  rw [qnameWalk, hs]
  rfl

/-- On a pointer cycle the loop with no jump limit never ends. -/
theorem PointerCycle.endless {pos : Nat} (h : b.PointerCycle pos) (n : Nat) :
    b.qnameWalk n pos ≠ none := by
  obtain ⟨m, k, p, hk, hm, hp⟩ := h
  have hrep : ∀ i, b.qnameWalk (m + i * k) pos = some p := by
    intro i
    induction i with
    | zero => rwa [Nat.zero_mul, Nat.add_zero]
    | succ i ih => rw [Nat.succ_mul, ← Nat.add_assoc, qnameWalk_add, ih]; exact hp
  intro hn
  obtain ⟨d, hd⟩ := Nat.exists_eq_add_of_le
    ((Nat.le_mul_of_pos_right n hk).trans (Nat.le_add_left (n * k) m))
  have := hrep n
  rw [hd, qnameWalk_add, hn] at this
  exact Option.noConfusion this

/-- Where the loop with no jump limit never ends, the loop takes every pointer left
to it. -/
theorem readQnameTrace_of_endless {pos j : Nat} (h : ∀ n, b.qnameWalk n pos ≠ none) :
    (b.readQnameTrace pos j).countP QnameStep.isJump = 6 - j := by
  induction pos, j using readQnameTrace.induct b with
  | case1 pos j hj => rw [readQnameTrace_of_gt hj, List.countP_nil]; omega
  | case2 pos j hj hs => exact absurd (by rw [qnameWalk, hs]; rfl) (h 1)
  | case3 pos j hj p target hs ih =>
    rw [readQnameTrace_of_jump (by omega) hs, List.countP_cons_of_pos _ _ rfl,
      ih fun n => qnameWalk_succ b hs n ▸ h (n + 1)]
    omega
  | case4 pos j hj p len hs ih =>
    rw [readQnameTrace_of_label (by omega) hs, List.countP_cons_of_neg _ _ Bool.false_ne_true]
    obtain ⟨rfl, -⟩ := qnameStep_label hs
    exact ih fun n => qnameWalk_succ b hs n ▸ h (n + 1)

/-- The loop takes every pointer left to it exactly when the loop with no jump
limit would take that many. -/
theorem readQnameTrace_limit_iff (pos j : Nat) :
    (b.readQnameTrace pos j).countP QnameStep.isJump = 6 - j ↔
      ∃ n, 6 - j ≤ (b.qnameSteps n pos).countP QnameStep.isJump :=
  ⟨fun h => ⟨_, by rw [qnameSteps_readQnameTrace, h]⟩, fun ⟨_, h⟩ => readQnameTrace_of_steps b h⟩

end Trace

/-- `read_qname` on any bytes, from any cursor: its loop follows at most six
pointers, reads at most 256 labels before the first and between two of them, reads
only below index 512 and makes at most 1798 turns. It fails with the limit's error
exactly when the name, read with no limit, would take a sixth pointer, and so on
every pointer cycle. -/
theorem readQname_bounded (b : BytePacketBuffer) (outstr : List UInt8) :
    (b.readQnameTrace b.pos 0).countP QnameStep.isJump ≤ 6 ∧
      (∀ t ∈ (b.readQnameTrace b.pos 0).tails,
        (t.takeWhile fun s => !s.isJump).length ≤ 256) ∧
      (∀ s ∈ b.readQnameTrace b.pos 0, s.lastRead < 512) ∧
      (b.readQnameTrace b.pos 0).length ≤ 1798 ∧
      (b.readQname outstr = .error "Limit of 5 jumps exceeded" ↔
        ∃ n, 6 ≤ (b.qnameSteps n b.pos).countP QnameStep.isJump) ∧
      (b.PointerCycle b.pos → b.readQname outstr = .error "Limit of 5 jumps exceeded") := by
  have hlimit := readQnameLoop_limit_iff b b.pos 0 rfl false [] outstr
  exact ⟨readQnameTrace_jumps b _ _, readQnameTrace_label_runs b _ _,
    readQnameTrace_lastRead b _ _, (readQnameTrace_length b _ _).trans (by omega),
    hlimit.trans (readQnameTrace_limit_iff b _ _),
    fun hc => hlimit.mpr (readQnameTrace_of_endless b hc.endless)⟩

/-- A pointer at offset 0 to offset 0 is a cycle. -/
example : (⟨[0xC0, 0] ++ List.replicate 510 0, 0, by
    rw [List.length_append, List.length_replicate]; rfl⟩ : BytePacketBuffer).PointerCycle 0 :=
  ⟨0, 1, 0, Nat.one_pos, rfl, by decide⟩

end BytePacketBuffer

end RustyDns
