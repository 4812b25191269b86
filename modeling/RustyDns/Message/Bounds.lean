import RustyDns.Message.Packet

/-!
# Where the parser leaves the cursor

Every read of `structs/buffer.rs` checks the 512-byte bound before it moves the
cursor, and `read_qname` moves it only to just past a byte it has read. So a
successful parse ends with the cursor at most 512, whatever the cursor was when
it started. The one unchecked move is `step(data_len)`, with which
`Record::read` skips the data of an `UNKNOWN` record. The bound is the buffer's,
not the datagram's: the zero padding behind a short datagram parses like any
other bytes.
-/

namespace RustyDns

namespace BytePacketBuffer

/-- `socket.recv_from(&mut buffer.buf)` into a fresh buffer: the datagram's bytes,
cut at 512, then the zeros that were there. -/
def receive (d : List UInt8) : BytePacketBuffer :=
  ⟨d.take 512 ++ List.replicate (512 - (d.take 512).length) 0, 0, by
    rw [List.length_append, List.length_replicate]
    have := List.length_take_le 512 d
    omega⟩

theorem readU8_pos_le {b b' : BytePacketBuffer} {x : UInt8} (h : b.readU8 = .ok (x, b')) :
    b'.pos ≤ 512 := by
  unfold readU8 at h
  split at h
  · cases h
  · cases h
    simp only
    omega

theorem readU16_pos_le {b b' : BytePacketBuffer} {v : UInt16} (h : b.readU16 = .ok (v, b')) :
    b'.pos ≤ 512 := by
  obtain ⟨⟨_, b₁⟩, -, h⟩ := bind_eq_ok.mp h
  obtain ⟨⟨_, b₂⟩, h₂, h⟩ := bind_eq_ok.mp h
  cases h
  exact readU8_pos_le h₂

theorem readU32_pos_le {b b' : BytePacketBuffer} {v : UInt32} (h : b.readU32 = .ok (v, b')) :
    b'.pos ≤ 512 := by
  obtain ⟨⟨_, b₁⟩, -, h⟩ := bind_eq_ok.mp h
  obtain ⟨⟨_, b₂⟩, -, h⟩ := bind_eq_ok.mp h
  obtain ⟨⟨_, b₃⟩, -, h⟩ := bind_eq_ok.mp h
  obtain ⟨⟨_, b₄⟩, h₄, h⟩ := bind_eq_ok.mp h
  cases h
  exact readU8_pos_le h₄

/-- The loop leaves the cursor just past the zero byte it stopped at, or just past
the first pointer it followed; once it has jumped, the cursor it carries is in
bounds already. -/
theorem readQnameLoop_pos_le {b b' : BytePacketBuffer} {pos j : Nat} {jumped : Bool}
    {delim out s : List UInt8} (hb : jumped = true → b.pos ≤ 512)
    (h : b.readQnameLoop pos jumped j delim out = .ok (b', s)) : b'.pos ≤ 512 := by
  induction b, pos, jumped, j, delim, out using readQnameLoop.induct generalizing b' s with
  | case1 b pos jumped j delim out hj =>
    rw [readQnameLoop_of_gt jumped delim out hj] at h
    cases h
  | case2 b pos jumped j delim out hj e hg =>
    rw [readQnameLoop_of_get_error jumped delim out (by omega) hg] at h
    cases h
  | case3 b pos jumped j delim out hj len hg hptr b₁ e =>
    rename_i hg₂
    rw [readQnameLoop_of_get jumped delim out (by omega) hg, if_pos hptr] at h
    simp only [b₁, dite_eq_ite] at hg₂
    rw [hg₂] at h
    cases h
  | case4 b pos jumped j delim out hj len hg hptr b₁ x hg₂ =>
    rename_i ih
    rw [readQnameLoop_of_get jumped delim out (by omega) hg, if_pos hptr] at h
    simp only [b₁, dite_eq_ite] at hg₂ ih
    rw [hg₂] at h
    refine ih (fun _ => ?_) h
    have := get_ok_lt hg₂
    cases jumped
    · simp only [Bool.not_false, if_true, pos_seek]
      omega
    · exact hb rfl
  | case5 b pos jumped j delim out hj hg hptr =>
    rw [readQnameLoop_of_get jumped delim out (by omega) hg, if_neg hptr, if_pos rfl] at h
    cases h
    have := get_ok_lt hg
    cases jumped
    · simp only [Bool.not_false, if_true, pos_seek]
      omega
    · exact hb rfl
  | case6 b pos jumped j delim out hj len hg hptr hz e hr =>
    rw [readQnameLoop_of_get jumped delim out (by omega) hg, if_neg hptr, if_neg hz, hr] at h
    cases h
  | case7 b pos jumped j delim out hj len hg hptr hz out₁ str hr =>
    rename_i ih
    rw [readQnameLoop_of_get jumped delim out (by omega) hg, if_neg hptr, if_neg hz, hr] at h
    exact ih hb h

theorem readQname_pos_le {b b' : BytePacketBuffer} {out s : List UInt8}
    (h : b.readQname out = .ok (b', s)) : b'.pos ≤ 512 :=
  readQnameLoop_pos_le (fun h' => absurd h' Bool.false_ne_true) (by rwa [readQname] at h)

end BytePacketBuffer

open BytePacketBuffer

theorem Header.read_pos_le {b b' : BytePacketBuffer} {h : Header}
    (hr : Header.read b = .ok (h, b')) : b'.pos ≤ 512 := by
  obtain ⟨⟨_, b₁⟩, -, hr⟩ := bind_eq_ok.mp hr
  obtain ⟨⟨_, b₂⟩, -, hr⟩ := bind_eq_ok.mp hr
  obtain ⟨⟨_, b₃⟩, -, hr⟩ := bind_eq_ok.mp hr
  obtain ⟨⟨_, b₄⟩, -, hr⟩ := bind_eq_ok.mp hr
  obtain ⟨⟨_, b₅⟩, -, hr⟩ := bind_eq_ok.mp hr
  obtain ⟨⟨_, b₆⟩, h₆, hr⟩ := bind_eq_ok.mp hr
  cases hr
  exact readU16_pos_le h₆

theorem Question.read_pos_le {b b' : BytePacketBuffer} {q q' : Question}
    (hr : q.read b = .ok (q', b')) : b'.pos ≤ 512 := by
  obtain ⟨⟨b₁, _⟩, -, hr⟩ := bind_eq_ok.mp hr
  obtain ⟨⟨_, b₂⟩, -, hr⟩ := bind_eq_ok.mp hr
  obtain ⟨⟨_, b₃⟩, h₃, hr⟩ := bind_eq_ok.mp hr
  cases hr
  exact readU16_pos_le h₃

/-- `Record::read` leaves the cursor in bounds unless it skipped the data of an
`UNKNOWN` record. -/
theorem Record.read_pos_le {b b' : BytePacketBuffer} {r : Record}
    (hr : Record.read b = .ok (r, b')) (hu : ¬ r.IsUnknown) : b'.pos ≤ 512 := by
  obtain ⟨⟨b₁, _⟩, -, hr⟩ := bind_eq_ok.mp hr
  obtain ⟨⟨_, b₂⟩, -, hr⟩ := bind_eq_ok.mp hr
  obtain ⟨⟨_, b₃⟩, -, hr⟩ := bind_eq_ok.mp hr
  obtain ⟨⟨_, b₄⟩, -, hr⟩ := bind_eq_ok.mp hr
  obtain ⟨⟨_, b₅⟩, -, hr⟩ := bind_eq_ok.mp hr
  dsimp only at hr
  split at hr
  · obtain ⟨⟨_, b₆⟩, h₆, hr⟩ := bind_eq_ok.mp hr
    cases hr
    exact readU32_pos_le h₆
  · obtain ⟨⟨_, b₆⟩, -, hr⟩ := bind_eq_ok.mp hr
    obtain ⟨⟨_, b₇⟩, -, hr⟩ := bind_eq_ok.mp hr
    obtain ⟨⟨_, b₈⟩, -, hr⟩ := bind_eq_ok.mp hr
    obtain ⟨⟨_, b₉⟩, h₉, hr⟩ := bind_eq_ok.mp hr
    cases hr
    exact readU32_pos_le h₉
  · obtain ⟨⟨b₆, _⟩, h₆, hr⟩ := bind_eq_ok.mp hr
    cases hr
    exact readQname_pos_le h₆
  · obtain ⟨⟨b₆, _⟩, h₆, hr⟩ := bind_eq_ok.mp hr
    cases hr
    exact readQname_pos_le h₆
  · obtain ⟨⟨_, b₆⟩, -, hr⟩ := bind_eq_ok.mp hr
    obtain ⟨⟨b₇, _⟩, h₇, hr⟩ := bind_eq_ok.mp hr
    cases hr
    exact readQname_pos_le h₇
  · cases hr
    exact absurd trivial hu

namespace Packet

theorem readQuestions_pos_le {b b' : BytePacketBuffer} {n : Nat} {qs : List Question}
    (hb : b.pos ≤ 512) (hr : readQuestions b n = .ok (qs, b')) : b'.pos ≤ 512 := by
  induction n generalizing b qs with
  | zero =>
    cases hr
    exact hb
  | succ n ih =>
    obtain ⟨⟨_, b₁⟩, h₁, hr⟩ := bind_eq_ok.mp hr
    obtain ⟨⟨_, b₂⟩, h₂, hr⟩ := bind_eq_ok.mp hr
    cases hr
    exact ih (Question.read_pos_le h₁) h₂

theorem readRecords_pos_le {b b' : BytePacketBuffer} {n : Nat} {rs : List Record}
    (hb : b.pos ≤ 512) (hr : readRecords b n = .ok (rs, b')) (hu : ∀ r ∈ rs, ¬ r.IsUnknown) :
    b'.pos ≤ 512 := by
  induction n generalizing b rs with
  | zero =>
    cases hr
    exact hb
  | succ n ih =>
    obtain ⟨⟨r, b₁⟩, h₁, hr⟩ := bind_eq_ok.mp hr
    obtain ⟨⟨rs', b₂⟩, h₂, hr⟩ := bind_eq_ok.mp hr
    cases hr
    simp only [List.mem_cons, forall_eq_or_imp] at hu
    exact ih (Record.read_pos_le h₁ hu.1) h₂ hu.2

/-- Wherever the cursor starts, a successful `from_buffer` that returns no `UNKNOWN`
record leaves it at most at 512. -/
theorem fromBuffer_pos_le {b b' : BytePacketBuffer} {p : Packet}
    (hr : fromBuffer b = .ok (p, b')) (hu : ∀ r ∈ p.records, ¬ r.IsUnknown) : b'.pos ≤ 512 := by
  obtain ⟨⟨_, b₁⟩, h₁, hr⟩ := bind_eq_ok.mp hr
  obtain ⟨⟨_, b₂⟩, h₂, hr⟩ := bind_eq_ok.mp hr
  obtain ⟨⟨_, b₃⟩, h₃, hr⟩ := bind_eq_ok.mp hr
  obtain ⟨⟨_, b₄⟩, h₄, hr⟩ := bind_eq_ok.mp hr
  obtain ⟨⟨_, b₅⟩, h₅, hr⟩ := bind_eq_ok.mp hr
  cases hr
  simp only [records, List.mem_append, or_imp, forall_and] at hu
  exact readRecords_pos_le (readRecords_pos_le (readRecords_pos_le
    (readQuestions_pos_le (Header.read_pos_le h₁) h₂) h₃ hu.1.1) h₄ hu.1.2) h₅ hu.2

/-- A one-byte datagram parses, and the cursor ends in bounds. -/
theorem fromBuffer_receive_pos_le :
    ∃ p b, fromBuffer (receive [0]) = .ok (p, b) ∧ b.pos ≤ 512 :=
  have hr : fromBuffer (receive [0]) = .ok (Packet.new, (receive [0]).step 12) := rfl
  ⟨_, _, hr, fromBuffer_pos_le hr (by simp [records, Packet.new])⟩

/-- A one-byte datagram parses: the header is read from the zero padding, and the
cursor ends at 12, past the datagram. -/
theorem fromBuffer_receive_one_byte :
    ∃ p b, fromBuffer (receive [0]) = .ok (p, b) ∧ [(0 : UInt8)].length < b.pos :=
  ⟨_, _, rfl, by decide⟩

end Packet

end RustyDns
