import RustyDns.Message.Bounds
import RustyDns.Wire.Accepted

/-!
# What the parser returns

A packet `Packet::from_buffer` returns, from any bytes, has as many entries in
each section as its header counts, so `write` emits the very header that was
read. Its names, those of the questions, the owners of the records and the
hosts of `NS`, `CNAME` and `MX` records, are each read by `read_qname` from the
empty name, so none has an uppercase ASCII letter: a name compared with a
parsed one, as `get_ns` does with the name being queried, is compared with a
lowercased name.
-/

namespace RustyDns

open BytePacketBuffer

theorem Question.read_lowercase {b b' : BytePacketBuffer} {q : Question}
    (h : read ⟨[], .UNKNOWN 0⟩ b = .ok (q, b')) : lowercaseLabel q.qname = q.qname := by
  obtain ⟨⟨_, _⟩, h₁, h⟩ := bind_eq_ok.mp h
  obtain ⟨⟨_, _⟩, -, h⟩ := bind_eq_ok.mp h
  obtain ⟨⟨_, _⟩, -, h⟩ := bind_eq_ok.mp h
  cases h
  exact readQname_lowercase h₁

/-- A record `Record::read` returns has a lowercase owner and lowercase names. -/
theorem Record.read_lowercase {b b' : BytePacketBuffer} {r : Record}
    (h : Record.read b = .ok (r, b')) :
    lowercaseLabel r.domain = r.domain ∧ ∀ n ∈ r.names, lowercaseLabel n = n := by
  obtain ⟨⟨_, _⟩, h₁, h⟩ := bind_eq_ok.mp h
  have hd := readQname_lowercase h₁
  obtain ⟨⟨_, _⟩, -, h⟩ := bind_eq_ok.mp h
  obtain ⟨⟨_, _⟩, -, h⟩ := bind_eq_ok.mp h
  obtain ⟨⟨_, _⟩, -, h⟩ := bind_eq_ok.mp h
  obtain ⟨⟨_, _⟩, -, h⟩ := bind_eq_ok.mp h
  dsimp only at h
  split at h
  · obtain ⟨⟨_, _⟩, -, h⟩ := bind_eq_ok.mp h
    cases h
    exact ⟨hd, by simpa [names, domain] using hd⟩
  · obtain ⟨⟨_, _⟩, -, h⟩ := bind_eq_ok.mp h
    obtain ⟨⟨_, _⟩, -, h⟩ := bind_eq_ok.mp h
    obtain ⟨⟨_, _⟩, -, h⟩ := bind_eq_ok.mp h
    obtain ⟨⟨_, _⟩, -, h⟩ := bind_eq_ok.mp h
    cases h
    exact ⟨hd, by simpa [names, domain] using hd⟩
  · obtain ⟨⟨_, _⟩, h₆, h⟩ := bind_eq_ok.mp h
    cases h
    exact ⟨hd, by simp [names, hd, readQname_lowercase h₆]⟩
  · obtain ⟨⟨_, _⟩, h₆, h⟩ := bind_eq_ok.mp h
    cases h
    exact ⟨hd, by simp [names, hd, readQname_lowercase h₆]⟩
  · obtain ⟨⟨_, _⟩, -, h⟩ := bind_eq_ok.mp h
    obtain ⟨⟨_, _⟩, h₇, h⟩ := bind_eq_ok.mp h
    cases h
    exact ⟨hd, by simp [names, hd, readQname_lowercase h₇]⟩
  · cases h
    exact ⟨hd, nofun⟩

namespace Packet

theorem readQuestions_parsed {b b' : BytePacketBuffer} {n : Nat} {qs : List Question}
    (h : readQuestions b n = .ok (qs, b')) :
    qs.length = n ∧ ∀ q ∈ qs, lowercaseLabel q.qname = q.qname := by
  induction n generalizing b qs with
  | zero =>
    cases h
    exact ⟨rfl, nofun⟩
  | succ n ih =>
    obtain ⟨⟨_, _⟩, h₁, h⟩ := bind_eq_ok.mp h
    obtain ⟨⟨_, _⟩, h₂, h⟩ := bind_eq_ok.mp h
    cases h
    obtain ⟨hl, hq⟩ := ih h₂
    exact ⟨congrArg (· + 1) hl, List.forall_mem_cons.mpr ⟨Question.read_lowercase h₁, hq⟩⟩

theorem readRecords_parsed {b b' : BytePacketBuffer} {n : Nat} {rs : List Record}
    (h : readRecords b n = .ok (rs, b')) : rs.length = n ∧
      ∀ r ∈ rs, lowercaseLabel r.domain = r.domain ∧ ∀ n ∈ r.names, lowercaseLabel n = n := by
  induction n generalizing b rs with
  | zero =>
    cases h
    exact ⟨rfl, nofun⟩
  | succ n ih =>
    obtain ⟨⟨_, _⟩, h₁, h⟩ := bind_eq_ok.mp h
    obtain ⟨⟨_, _⟩, h₂, h⟩ := bind_eq_ok.mp h
    cases h
    obtain ⟨hl, hr⟩ := ih h₂
    exact ⟨congrArg (· + 1) hl, List.forall_mem_cons.mpr ⟨Record.read_lowercase h₁, hr⟩⟩

theorem toUInt16_toNat (x : UInt16) : x.toNat.toUInt16 = x :=
  UInt16.toNat.inj (toNat_toUInt16_of_lt x.toNat_lt_size)

/-- A packet `from_buffer` returns from any bytes is well formed: its header counts
are its section lengths, so `write` emits the header read, and every name in it,
of a question, a record's owner or a record's host, is lowercase. -/
theorem fromBuffer_wellFormed {b b' : BytePacketBuffer} {p : Packet}
    (h : fromBuffer b = .ok (p, b')) :
    p.countedHeader = p.header ∧ (∀ q ∈ p.questions, lowercaseLabel q.qname = q.qname) ∧
      ∀ r ∈ p.records, lowercaseLabel r.domain = r.domain ∧ ∀ n ∈ r.names, lowercaseLabel n = n := by
  obtain ⟨⟨_, _⟩, -, h⟩ := bind_eq_ok.mp h
  obtain ⟨⟨_, _⟩, h₂, h⟩ := bind_eq_ok.mp h
  obtain ⟨⟨_, _⟩, h₃, h⟩ := bind_eq_ok.mp h
  obtain ⟨⟨_, _⟩, h₄, h⟩ := bind_eq_ok.mp h
  obtain ⟨⟨_, _⟩, h₅, h⟩ := bind_eq_ok.mp h
  cases h
  obtain ⟨hq, hql⟩ := readQuestions_parsed h₂
  obtain ⟨ha, hal⟩ := readRecords_parsed h₃
  obtain ⟨hu, hul⟩ := readRecords_parsed h₄
  obtain ⟨hr, hrl⟩ := readRecords_parsed h₅
  refine ⟨?_, hql, fun r hm => ?_⟩
  · simp only [countedHeader, hq, ha, hu, hr, toUInt16_toNat]
  · simp only [records, List.mem_append] at hm
    rcases hm with (hm | hm) | hm
    exacts [hal r hm, hul r hm, hrl r hm]

/-- A one-byte datagram parses as the empty packet, which is well formed. -/
theorem fromBuffer_wellFormed_receive :
    fromBuffer (receive [0]) = .ok (Packet.new, (receive [0]).step 12) ∧
      Packet.new.countedHeader = Packet.new.header ∧
      (∀ q ∈ Packet.new.questions, lowercaseLabel q.qname = q.qname) ∧
      ∀ r ∈ Packet.new.records, lowercaseLabel r.domain = r.domain ∧
        ∀ n ∈ r.names, lowercaseLabel n = n :=
  have hr : fromBuffer (receive [0]) = .ok (Packet.new, (receive [0]).step 12) := rfl
  ⟨hr, fromBuffer_wellFormed hr⟩

end Packet

end RustyDns
