import Mathlib.Data.List.Basic
import RustyDns.Wire.Word

/-!
# The 512-byte packet buffer

`BytePacketBuffer` of `structs/buffer.rs`: the bytes of one datagram and a
cursor. Every read and write checks the 512-byte bound itself, while `seek`
and `step` move the cursor without a check. The second half states what each
primitive does once, as `Writes` for the writers and as `_of_unread` lemmas for
the readers, so that the codecs above never unfold a primitive again.
-/

namespace RustyDns

/-- `BytePacketBuffer`: the bytes of a packet and the position shared by all
reads and writes. The length is the source's array type `[u8; 512]`. -/
@[ext] structure BytePacketBuffer where
  /-- The bytes of the packet. -/
  buf : List UInt8
  /-- The cursor; `seek` and `step` may move it past 512. -/
  pos : Nat
  buf_length : buf.length = 512

@[simp] theorem ok_bind {α β ε : Type} (a : α) (f : α → Except ε β) :
    (Except.ok a >>= f) = f a := rfl

/-- Binding a successful computation: the shape every codec proof peels. -/
theorem bind_eq_ok {α β ε : Type} {x : Except ε α} {f : α → Except ε β} {y : β} :
    x >>= f = .ok y ↔ ∃ a, x = .ok a ∧ f a = .ok y := by
  cases x <;> simp [bind, Except.bind]

namespace BytePacketBuffer

/-- `BytePacketBuffer::new`: zeroed bytes, cursor at the start. -/
def new : BytePacketBuffer := ⟨List.replicate 512 0, 0, List.length_replicate _ _⟩

/-- `read_u8`: the byte under the cursor, which then advances. -/
def readU8 (b : BytePacketBuffer) : Except String (UInt8 × BytePacketBuffer) :=
  if h : b.pos ≥ 512 then .error "End of buffer"
  else
    have : b.pos < b.buf.length := by rw [b.buf_length]; omega
    .ok (b.buf[b.pos], { b with pos := b.pos + 1 })

/-- `read_u16`: two bytes, most significant first. -/
def readU16 (b : BytePacketBuffer) : Except String (UInt16 × BytePacketBuffer) := do
  let (hi, b) ← b.readU8
  let (lo, b) ← b.readU8
  return ((hi.toUInt16 <<< 8) ||| lo.toUInt16, b)

/-- `read_u32`: four bytes, most significant first. -/
def readU32 (b : BytePacketBuffer) : Except String (UInt32 × BytePacketBuffer) := do
  let (b0, b) ← b.readU8
  let (b1, b) ← b.readU8
  let (b2, b) ← b.readU8
  let (b3, b) ← b.readU8
  return ((b0.toUInt32 <<< 24) ||| (b1.toUInt32 <<< 16) ||| (b2.toUInt32 <<< 8) |||
    b3.toUInt32, b)

/-- `get`: the byte at `pos`, cursor unchanged. -/
def get (b : BytePacketBuffer) (pos : Nat) : Except String UInt8 :=
  if h : pos ≥ 512 then .error "End of buffer"
  else
    have : pos < b.buf.length := by rw [b.buf_length]; omega
    .ok b.buf[pos]

/-- `seek`: move the cursor anywhere; it never fails. -/
def seek (b : BytePacketBuffer) (pos : Nat) : BytePacketBuffer := { b with pos }

/-- `get_range`: the `len` bytes from `start`. The check rejects
`start + len = 512` as well, so no range reaches the last byte. -/
def getRange (b : BytePacketBuffer) (start len : Nat) : Except String (List UInt8) :=
  if start + len ≥ 512 then .error "End of buffer" else .ok ((b.buf.drop start).take len)

/-- `step`: advance the cursor; it never fails and checks no bound. -/
def step (b : BytePacketBuffer) (steps : Nat) : BytePacketBuffer := { b with pos := b.pos + steps }

/-- `write_u8`: store a byte under the cursor, which then advances. -/
def writeU8 (b : BytePacketBuffer) (val : UInt8) : Except String BytePacketBuffer :=
  if b.pos ≥ 512 then .error "End of buffer"
  else .ok ⟨b.buf.set b.pos val, b.pos + 1, by rw [List.length_set, b.buf_length]⟩

/-- `write_u16`: two bytes, most significant first. -/
def writeU16 (b : BytePacketBuffer) (val : UInt16) : Except String BytePacketBuffer := do
  let b ← b.writeU8 (val >>> 8).toUInt8
  b.writeU8 (val &&& 0xFF).toUInt8

/-- `write_u32`: two `u16` halves, most significant first. -/
def writeU32 (b : BytePacketBuffer) (val : UInt32) : Except String BytePacketBuffer := do
  let b ← b.writeU16 (val >>> 16).toUInt16
  b.writeU16 (val &&& 0xFFFF).toUInt16

/-- `set_u8`: store a byte at `pos`, cursor unchanged. -/
def setU8 (b : BytePacketBuffer) (pos : Nat) (val : UInt8) : Except String BytePacketBuffer :=
  if pos ≥ 512 then .error "End of buffer"
  else .ok ⟨b.buf.set pos val, b.pos, by rw [List.length_set, b.buf_length]⟩

/-- `set_u16`: back-patch two bytes at `pos`, cursor unchanged. -/
def setU16 (b : BytePacketBuffer) (pos : Nat) (val : UInt16) : Except String BytePacketBuffer := do
  let b ← b.setU8 pos (val >>> 8).toUInt8
  b.setU8 (pos + 1) (val &&& 0xFF).toUInt8

/-- The byte loop `for b in bytes { self.write_u8(*b)?; }`. -/
def writeBytes (b : BytePacketBuffer) : List UInt8 → Except String BytePacketBuffer
  | [] => .ok b
  | x :: l => do
    let b ← b.writeU8 x
    b.writeBytes l

/-! ## What the primitives do -/

end BytePacketBuffer

/-- The bytes `write_u16` emits. -/
def be16 (v : UInt16) : List UInt8 := [(v >>> 8).toUInt8, (v &&& 0xFF).toUInt8]

/-- The bytes `write_u32` emits. -/
def be32 (v : UInt32) : List UInt8 := be16 (v >>> 16).toUInt16 ++ be16 (v &&& 0xFFFF).toUInt16

@[simp] theorem length_be16 (v : UInt16) : (be16 v).length = 2 := rfl

@[simp] theorem length_be32 (v : UInt32) : (be32 v).length = 4 := rfl

namespace BytePacketBuffer

/-- The buffer after `l` is stored from the cursor on, unchecked. -/
def put (b : BytePacketBuffer) : List UInt8 → BytePacketBuffer
  | [] => b
  | x :: l => put ⟨b.buf.set b.pos x, b.pos + 1, by rw [List.length_set, b.buf_length]⟩ l

/-- The bytes before the cursor: what has been written so far. -/
def written (b : BytePacketBuffer) : List UInt8 := b.buf.take b.pos

/-- The bytes from the cursor on: what is left to read. -/
def unread (b : BytePacketBuffer) : List UInt8 := b.buf.drop b.pos

@[simp] theorem pos_put (b : BytePacketBuffer) (l : List UInt8) :
    (b.put l).pos = b.pos + l.length := by
  induction l generalizing b with
  | nil => rfl
  | cons x l ih => simp only [put, ih, List.length_cons]; omega

theorem put_append (b : BytePacketBuffer) (l₁ l₂ : List UInt8) :
    b.put (l₁ ++ l₂) = (b.put l₁).put l₂ := by
  induction l₁ generalizing b with
  | nil => rfl
  | cons x l ih => exact ih _

private theorem take_succ_set {l : List UInt8} {i : Nat} (x : UInt8) (h : i < l.length) :
    (l.set i x).take (i + 1) = l.take i ++ [x] := by
  rw [List.set_eq_take_append_cons_drop, if_pos h, List.take_append_eq_append_take]
  simp [Nat.min_eq_left (Nat.le_of_lt h), show i + 1 - i = 1 by omega]

private theorem drop_set_of_lt {l : List UInt8} {i n : Nat} (x : UInt8) (h : i < n) :
    (l.set i x).drop n = l.drop n := by
  rw [List.drop_set, if_pos h]

/-- Storing `l` in bounds replaces exactly the bytes under it. -/
theorem buf_put {b : BytePacketBuffer} {l : List UInt8} (h : b.pos + l.length ≤ 512) :
    (b.put l).buf = b.buf.take b.pos ++ l ++ b.buf.drop (b.pos + l.length) := by
  induction l generalizing b with
  | nil => simp [put]
  | cons x l ih =>
    have hlen := b.buf_length
    simp only [List.length_cons] at h
    rw [put, ih (by simp only; omega)]
    dsimp only
    rw [take_succ_set x (by omega), drop_set_of_lt x (by omega)]
    simp [Nat.add_assoc, Nat.add_comm 1]

@[simp] theorem written_new : new.written = [] := rfl

@[simp] theorem buf_new : new.buf = List.replicate 512 0 := rfl

@[simp] theorem pos_new : new.pos = 0 := rfl

theorem written_put {b : BytePacketBuffer} {l : List UInt8} (h : b.pos + l.length ≤ 512) :
    (b.put l).written = b.written ++ l := by
  have hlen := b.buf_length
  rw [written, buf_put h, pos_put, List.take_append_of_le_length
    (by simp only [List.length_append, List.length_take]; omega),
    List.take_of_length_le (by simp only [List.length_append, List.length_take]; omega), written]

@[simp] theorem unread_step (b : BytePacketBuffer) (n : Nat) :
    (b.step n).unread = b.unread.drop n := by
  simp [unread, step, List.drop_drop]

@[simp] theorem unread_seek (b : BytePacketBuffer) (p : Nat) : (b.seek p).unread = b.buf.drop p :=
  rfl

@[simp] theorem pos_step (b : BytePacketBuffer) (n : Nat) : (b.step n).pos = b.pos + n := rfl

@[simp] theorem buf_step (b : BytePacketBuffer) (n : Nat) : (b.step n).buf = b.buf := rfl

@[simp] theorem pos_seek (b : BytePacketBuffer) (p : Nat) : (b.seek p).pos = p := rfl

@[simp] theorem buf_seek (b : BytePacketBuffer) (p : Nat) : (b.seek p).buf = b.buf := rfl

@[simp] theorem step_step (b : BytePacketBuffer) (m n : Nat) :
    (b.step m).step n = b.step (m + n) := by
  simp only [step, Nat.add_assoc]

private theorem set_length_append {s t : List UInt8} {x a : UInt8} :
    (s ++ x :: t).set s.length a = s ++ a :: t := by
  rw [List.set_append_right _ _ le_rfl, Nat.sub_self]
  rfl

/-- Back-patching two bytes inside what has just been stored: `set_u16` on the
`RDLENGTH` placeholder gives the buffer that stores the patched bytes at once. -/
theorem setU16_put {b : BytePacketBuffer} {pre post : List UInt8} {x y : UInt8} (v : UInt16)
    (h : b.pos + (pre ++ [x, y] ++ post).length ≤ 512) :
    (b.put (pre ++ [x, y] ++ post)).setU16 (b.pos + pre.length) v =
      .ok (b.put (pre ++ be16 v ++ post)) := by
  have hlen := b.buf_length
  have hn : b.pos + pre.length + 2 + post.length ≤ 512 := by
    simp only [List.length_append, List.length_cons, List.length_nil] at h
    omega
  have h' : b.pos + (pre ++ be16 v ++ post).length ≤ 512 := by
    simp only [List.length_append, length_be16]
    omega
  have hs : (b.buf.take b.pos ++ pre).length = b.pos + pre.length := by
    simp only [List.length_append, List.length_take]
    omega
  simp only [setU16, setU8, show ¬ b.pos + pre.length ≥ 512 by omega,
    show ¬ b.pos + pre.length + 1 ≥ 512 by omega, if_false, ok_bind, Except.ok.injEq]
  ext1
  · dsimp only
    rw [buf_put h, buf_put h']
    simp only [be16, List.append_assoc, List.cons_append, List.nil_append]
    rw [← List.append_assoc, ← hs, set_length_append,
      show (b.buf.take b.pos ++ pre).length + 1 = (b.buf.take b.pos ++ pre ++ [(v >>> 8).toUInt8]).length
        by simp only [List.length_append, List.length_singleton], List.append_cons _ (v >>> 8).toUInt8,
      set_length_append]
    simp
  · simp only [pos_put, List.length_append, length_be16, List.length_cons, List.length_nil]

/-- `set_u16` over the first two of the bytes just stored. -/
theorem setU16_put_be16 {b : BytePacketBuffer} {post : List UInt8} (u v : UInt16)
    (h : b.pos + 2 + post.length ≤ 512) :
    (b.put (be16 u ++ post)).setU16 b.pos v = .ok (b.put (be16 v ++ post)) :=
  @setU16_put b [] post _ _ v (by simp only [List.length_append, List.length_nil, List.length_cons]; omega)

/-! ## Writers -/

/-- From any cursor inside the buffer, `w` succeeds exactly when `ok` holds and `l`
fits after the cursor; it has then stored `l` there and moved the cursor past it. -/
def Writes (ok : Prop) (w : BytePacketBuffer → Except String BytePacketBuffer)
    (l : List UInt8) : Prop :=
  ∀ b b', b.pos ≤ 512 → (w b = .ok b' ↔ ok ∧ b.pos + l.length ≤ 512 ∧ b' = b.put l)

theorem Writes.of_iff {p q : Prop} {w : BytePacketBuffer → Except String BytePacketBuffer}
    {l : List UInt8} (h : Writes p w l) (hpq : p ↔ q) : Writes q w l := by
  intro b b' hb
  rw [h b b' hb, hpq]

/-- Sequencing two writers writes the concatenation. -/
theorem Writes.bind {p q : Prop} {w₁ w₂ : BytePacketBuffer → Except String BytePacketBuffer}
    {l₁ l₂ : List UInt8} (h₁ : Writes p w₁ l₁) (h₂ : Writes q w₂ l₂) :
    Writes (p ∧ q) (fun b => w₁ b >>= w₂) (l₁ ++ l₂) := by
  intro b b' hb
  rw [bind_eq_ok, List.length_append]
  constructor
  · rintro ⟨a, ha, ha'⟩
    obtain ⟨hp, hf, rfl⟩ := (h₁ b a hb).mp ha
    obtain ⟨hq, hf', rfl⟩ := (h₂ _ b' (by simp only [pos_put]; omega)).mp ha'
    simp only [pos_put] at hf'
    exact ⟨⟨hp, hq⟩, by omega, (put_append ..).symm⟩
  · rintro ⟨⟨hp, hq⟩, hf, rfl⟩
    have hb₁ : (b.put l₁).pos ≤ 512 := by simp only [pos_put]; omega
    exact ⟨b.put l₁, (h₁ _ _ hb).mpr ⟨hp, by omega, rfl⟩,
      (h₂ _ _ hb₁).mpr ⟨hq, by simp only [pos_put]; omega, put_append ..⟩⟩

/-- Sequencing behind a writer that needs nothing but room. -/
theorem Writes.bind_of_true {q : Prop} {w₁ w₂ : BytePacketBuffer → Except String BytePacketBuffer}
    {l₁ l₂ : List UInt8} (h₁ : Writes True w₁ l₁) (h₂ : Writes q w₂ l₂) :
    Writes q (fun b => w₁ b >>= w₂) (l₁ ++ l₂) :=
  (h₁.bind h₂).of_iff (iff_of_eq (true_and q))

/-- Sequencing a writer that needs nothing but room behind another. -/
theorem Writes.bind_true {p : Prop} {w₁ w₂ : BytePacketBuffer → Except String BytePacketBuffer}
    {l₁ l₂ : List UInt8} (h₁ : Writes p w₁ l₁) (h₂ : Writes True w₂ l₂) :
    Writes p (fun b => w₁ b >>= w₂) (l₁ ++ l₂) :=
  (h₁.bind h₂).of_iff (iff_of_eq (and_true p))

/-- A writer behind a failing guard. -/
theorem Writes.guard {p : Prop} {w : BytePacketBuffer → Except String BytePacketBuffer}
    {l : List UInt8} (c : Prop) [Decidable c] (e : String) (h : Writes p w l) :
    Writes (¬ c ∧ p) (fun b => if c then .error e else w b) l := by
  intro b b' hb
  by_cases hc : c
  · simp only [hc, if_true, reduceCtorEq, not_true_eq_false, false_and]
  · simp only [hc, if_false, not_false_eq_true, true_and]
    exact h b b' hb

/-- A writer that stores nothing. -/
theorem writes_pure : Writes True (fun b => .ok b) [] := by
  intro b b' hb
  simp only [Except.ok.injEq, List.length_nil, Nat.add_zero, hb, true_and, put]
  exact eq_comm

theorem writes_writeU8 (v : UInt8) : Writes True (·.writeU8 v) [v] := by
  intro b b' _
  show b.writeU8 v = _ ↔ _
  unfold writeU8
  split
  · simp only [reduceCtorEq, false_iff, List.length_singleton]
    omega
  · simp only [Except.ok.injEq, true_and, List.length_singleton]
    constructor
    · rintro rfl
      exact ⟨by omega, rfl⟩
    · rintro ⟨-, rfl⟩
      rfl

theorem writes_writeU16 (v : UInt16) : Writes True (·.writeU16 v) (be16 v) :=
  (writes_writeU8 _).bind_of_true (writes_writeU8 _)

theorem writes_writeU32 (v : UInt32) : Writes True (·.writeU32 v) (be32 v) :=
  (writes_writeU16 _).bind_of_true (writes_writeU16 _)

theorem writes_writeBytes (l : List UInt8) : Writes True (·.writeBytes l) l := by
  induction l with
  | nil => exact writes_pure
  | cons x l ih => exact (writes_writeU8 x).bind_of_true ih

/-! ## Readers -/

private theorem drop_eq_cons {l : List UInt8} {n : Nat} {x : UInt8} {r : List UInt8}
    (h : l.drop n = x :: r) : ∃ hn : n < l.length, l[n] = x ∧ l.drop (n + 1) = r := by
  have hn : n < l.length := by
    by_contra hc
    rw [List.drop_of_length_le (by omega)] at h
    cases h
  rw [List.drop_eq_getElem_cons hn, List.cons.injEq] at h
  exact ⟨hn, h⟩

/-- `get` succeeds only inside the buffer. -/
theorem get_ok_lt {b : BytePacketBuffer} {p : Nat} {x : UInt8} (h : b.get p = .ok x) : p < 512 := by
  unfold get at h
  split at h
  · cases h
  · omega

theorem get_of_drop {b : BytePacketBuffer} {p : Nat} {x : UInt8} {r : List UInt8}
    (h : b.buf.drop p = x :: r) : b.get p = .ok x := by
  obtain ⟨hn, hx, -⟩ := drop_eq_cons h
  have hp : ¬ p ≥ 512 := by rw [b.buf_length] at hn; omega
  simp only [get, hp, dif_neg, not_false_eq_true, hx]

/-- Moving the cursor past bytes that are known leaves what follows them unread. -/
theorem unread_step_of_append {b : BytePacketBuffer} {l r : List UInt8} (h : b.unread = l ++ r) :
    (b.step l.length).unread = r := by
  rw [unread_step, h, List.drop_left]

/-- `read_u8` in terms of the unread bytes: it fails exactly when none is left. -/
theorem readU8_eq (b : BytePacketBuffer) :
    b.readU8 = match b.unread with
      | [] => .error "End of buffer"
      | x :: _ => .ok (x, b.step 1) := by
  split
  · rename_i h
    have hp : b.pos ≥ 512 := by
      have := List.drop_eq_nil_iff.mp h
      rw [b.buf_length] at this
      exact this
    simp only [readU8, hp, dif_pos]
  · rename_i x r h
    obtain ⟨hn, hx, -⟩ := drop_eq_cons h
    have hp : ¬ b.pos ≥ 512 := by rw [b.buf_length] at hn; omega
    simp only [readU8, hp, dif_neg, not_false_eq_true, hx]
    rfl

theorem readU8_of_unread {b : BytePacketBuffer} {x : UInt8} {r : List UInt8}
    (h : b.unread = x :: r) : b.readU8 = .ok (x, b.step 1) := by
  rw [readU8_eq, h]

/-- Reading back the two bytes of `write_u16`. -/
theorem combine_be16 (v : UInt16) :
    ((v >>> 8).toUInt8.toUInt16 <<< 8) ||| (v &&& 0xFF).toUInt8.toUInt16 = v := by
  apply UInt16.toNat.inj
  have hv := v.toNat_lt_size
  simp only [UInt16.size] at hv
  simp only [UInt16.toNat_combine, UInt16.toNat_toUInt8, UInt16.toNat_shiftRight,
    UInt16.toNat_and_255]
  simp only [UInt16.reduceToNat, Nat.reduceMod, Nat.reducePow]
  omega

theorem readU16_of_unread {b : BytePacketBuffer} {v : UInt16} {r : List UInt8}
    (h : b.unread = be16 v ++ r) : b.readU16 = .ok (v, b.step (be16 v).length) := by
  have h₁ : (b.step 1).unread = (v &&& 0xFF).toUInt8 :: r := by simp [h, be16]
  simp only [readU16, readU8_of_unread h, readU8_of_unread h₁, step_step, ok_bind]
  rw [combine_be16]
  rfl

/-- Two bytes are the `write_u16` bytes of the value `read_u16` assembles from them. -/
theorem be16_combine (x y : UInt8) : be16 ((x.toUInt16 <<< 8) ||| y.toUInt16) = [x, y] := by
  have hx := x.toNat_lt_size
  have hy := y.toNat_lt_size
  simp only [UInt8.size] at hx hy
  simp only [be16, List.cons.injEq, and_true]
  constructor <;> apply UInt8.toNat.inj <;>
    simp only [UInt16.toNat_toUInt8, UInt16.toNat_shiftRight, UInt16.toNat_and_255,
      UInt16.toNat_combine, UInt16.reduceToNat, Nat.reduceMod, Nat.reducePow] <;> omega

@[simp] theorem toUInt8_combine_shiftRight (x y : UInt8) :
    ((((x.toUInt16 <<< 8) ||| y.toUInt16)) >>> 8).toUInt8 = x :=
  List.head_eq_of_cons_eq (be16_combine x y)

@[simp] theorem toUInt8_combine_and (x y : UInt8) :
    (((x.toUInt16 <<< 8) ||| y.toUInt16) &&& 0xFF).toUInt8 = y :=
  List.head_eq_of_cons_eq (List.tail_eq_of_cons_eq (be16_combine x y))

/-- Two bytes in a row, read as one `u16`. -/
theorem pair_append_eq_be16 (x y : UInt8) (r : List UInt8) :
    [x] ++ ([y] ++ r) = be16 ((x.toUInt16 <<< 8) ||| y.toUInt16) ++ r := by
  rw [be16_combine]
  rfl

/-- Reading back the four bytes of `write_u32`. -/
theorem combine_be32 (v : UInt32) :
    ((((v >>> 16).toUInt16 >>> 8).toUInt8.toUInt32 <<< 24) |||
      (((v >>> 16).toUInt16 &&& 0xFF).toUInt8.toUInt32 <<< 16) |||
      (((v &&& 0xFFFF).toUInt16 >>> 8).toUInt8.toUInt32 <<< 8) |||
      ((v &&& 0xFFFF).toUInt16 &&& 0xFF).toUInt8.toUInt32) = v := by
  apply UInt32.toNat.inj
  have hv := v.toNat_lt_size
  simp only [UInt32.size] at hv
  simp only [UInt32.toNat_combine, UInt16.toNat_toUInt8, UInt16.toNat_shiftRight,
    UInt16.toNat_and_255, UInt32.toNat_toUInt16, UInt32.toNat_shiftRight, UInt32.toNat_and_65535]
  simp only [UInt16.reduceToNat, UInt32.reduceToNat, Nat.reduceMod, Nat.reducePow]
  omega

/-- Four bytes in a row are the `write_u32` bytes of the value `read_u32` assembles. -/
theorem quad_append_eq_be32 (a b c d : UInt8) (r : List UInt8) :
    [a] ++ ([b] ++ ([c] ++ ([d] ++ r))) =
      be32 ((a.toUInt32 <<< 24) ||| (b.toUInt32 <<< 16) ||| (c.toUInt32 <<< 8) ||| d.toUInt32) ++ r := by
  have ha := a.toNat_lt_size
  have hb := b.toNat_lt_size
  have hc := c.toNat_lt_size
  have hd := d.toNat_lt_size
  simp only [UInt8.size] at ha hb hc hd
  simp only [be32, be16, List.cons_append, List.nil_append, List.singleton_append, List.cons.injEq,
    and_true]
  refine ⟨?_, ?_, ?_, ?_⟩ <;> apply UInt8.toNat.inj <;>
    simp only [UInt16.toNat_toUInt8, UInt16.toNat_shiftRight, UInt16.toNat_and_255,
      UInt32.toNat_toUInt16, UInt32.toNat_shiftRight, UInt32.toNat_and_65535, UInt32.toNat_combine,
      UInt16.reduceToNat, UInt32.reduceToNat, Nat.reduceMod, Nat.reducePow] <;> omega

/-- Two `write_u16`s in a row are the `write_u32` of the two halves. -/
theorem be16_append_be16 (x y : UInt16) (r : List UInt8) :
    be16 x ++ (be16 y ++ r) = be32 ((x.toUInt32 <<< 16) ||| y.toUInt32) ++ r := by
  have hx := x.toNat_lt_size
  have hy := y.toNat_lt_size
  simp only [UInt16.size] at hx hy
  have hhi : (((x.toUInt32 <<< 16) ||| y.toUInt32) >>> 16).toUInt16 = x := by
    apply UInt16.toNat.inj
    simp only [UInt32.toNat_toUInt16, UInt32.toNat_shiftRight, UInt32.toNat_combine16,
      UInt32.reduceToNat, Nat.reduceMod, Nat.reducePow]
    omega
  simp only [be32, List.append_assoc, hhi, (UInt32.segments_combine x y).2]

theorem readU32_of_unread {b : BytePacketBuffer} {v : UInt32} {r : List UInt8}
    (h : b.unread = be32 v ++ r) : b.readU32 = .ok (v, b.step (be32 v).length) := by
  simp only [be32, be16, List.cons_append, List.nil_append, List.append_assoc] at h
  simp only [readU32, readU8_eq, unread_step, h, List.drop_succ_cons, List.drop_zero, ok_bind,
    step_step]
  rw [combine_be32]
  rfl

end BytePacketBuffer

end RustyDns
