import RustyDns.Message.Header

/-!
# The question and record codecs

`Question::read`/`write` and `Record::read`/`write` of
`structs/questions_and_records.rs`. The writers of `NS`, `CNAME` and `MX` records
emit a zero `RDLENGTH`, then the data, then patch the length in with `set_u16`;
`Record::write` skips `UNKNOWN` records and writes nothing for them. The reader
ignores `RDLENGTH` except to skip the data of an `UNKNOWN` record.
-/

namespace RustyDns

namespace Question

/-- `Question::read`: the name is appended to the question's own, the type is
decoded and the class is read and dropped. -/
def read (q : Question) (b : BytePacketBuffer) : Except String (Question × BytePacketBuffer) := do
  let (b, qname) ← b.readQname q.qname
  let (num, b) ← b.readU16
  let (_, b) ← b.readU16
  return (⟨qname, QueryType.fromNum num⟩, b)

/-- `Question::write`: the name, the type number and the class 1. -/
def write (q : Question) (b : BytePacketBuffer) : Except String BytePacketBuffer := do
  let b ← b.writeQname q.qname
  let b ← b.writeU16 q.qtype.toNum
  b.writeU16 1

/-- The bytes `write` emits. -/
def bytes (q : Question) : List UInt8 := qnameBytes q.qname ++ be16 q.qtype.toNum ++ be16 1

open BytePacketBuffer in
theorem writes_write (q : Question) : Writes (LabelsFit q.qname) q.write q.bytes := by
  unfold write
  simp only [bytes, List.append_assoc]
  exact (writes_writeQname _).bind_true ((writes_writeU16 _).bind_of_true (writes_writeU16 _))

open BytePacketBuffer in
/-- `read` on the bytes `write` emits, from the empty name `from_buffer` starts with. -/
theorem read_of_unread {q : Question} (hn : NameRoundTrips q.qname) (hq : q.qtype.Canonical)
    {b : BytePacketBuffer} {rest : List UInt8} (hb : b.unread = q.bytes ++ rest) :
    read ⟨[], .UNKNOWN 0⟩ b = .ok (q, b.step q.bytes.length) := by
  simp only [bytes, List.append_assoc] at hb
  have u₁ := unread_step_of_append hb
  have u₂ := unread_step_of_append u₁
  simp only [read, readQname_of_unread hn hb, readU16_of_unread u₁, readU16_of_unread u₂, ok_bind,
    QueryType.fromNum_toNum hq]
  simp only [bytes, List.length_append, length_be16, step_step, Nat.add_assoc]
  rfl

end Question

namespace Record

/-- The query type a record carries. -/
def qtype : Record → QueryType
  | .UNKNOWN _ n _ _ => .UNKNOWN n
  | .A .. => .A
  | .NS .. => .NS
  | .CNAME .. => .CNAME
  | .MX .. => .MX
  | .AAAA .. => .AAAA

/-- The domain names `write` encodes: the owner, and the host of `NS`, `CNAME` and
`MX`; none for `UNKNOWN`, which is not written. -/
def names : Record → List (List UInt8)
  | .UNKNOWN .. => []
  | .NS d h _ | .CNAME d h _ | .MX d _ h _ => [d, h]
  | r => [r.domain]

/-- `Record::read`: owner, type, class, TTL and `RDLENGTH`, then the data by type. -/
def read (b : BytePacketBuffer) : Except String (Record × BytePacketBuffer) := do
  let (b, domain) ← b.readQname []
  let (qtypeNum, b) ← b.readU16
  let qtype := QueryType.fromNum qtypeNum
  let (_, b) ← b.readU16
  let (ttl, b) ← b.readU32
  let (dataLen, b) ← b.readU16
  match qtype with
  | .A => do
    let (rawAddr, b) ← b.readU32
    let addr : Ipv4Addr := ⟨((rawAddr >>> 24) &&& 0xFF).toUInt8, ((rawAddr >>> 16) &&& 0xFF).toUInt8,
      ((rawAddr >>> 8) &&& 0xFF).toUInt8, (rawAddr &&& 0xFF).toUInt8⟩
    return (.A domain addr ttl, b)
  | .AAAA => do
    let (rawAddr1, b) ← b.readU32
    let (rawAddr2, b) ← b.readU32
    let (rawAddr3, b) ← b.readU32
    let (rawAddr4, b) ← b.readU32
    let addr : Ipv6Addr := ⟨((rawAddr1 >>> 16) &&& 0xFFFF).toUInt16, (rawAddr1 &&& 0xFFFF).toUInt16,
      ((rawAddr2 >>> 16) &&& 0xFFFF).toUInt16, (rawAddr2 &&& 0xFFFF).toUInt16,
      ((rawAddr3 >>> 16) &&& 0xFFFF).toUInt16, (rawAddr3 &&& 0xFFFF).toUInt16,
      ((rawAddr4 >>> 16) &&& 0xFFFF).toUInt16, (rawAddr4 &&& 0xFFFF).toUInt16⟩
    return (.AAAA domain addr ttl, b)
  | .NS => do
    let (b, ns) ← b.readQname []
    return (.NS domain ns ttl, b)
  | .CNAME => do
    let (b, cname) ← b.readQname []
    return (.CNAME domain cname ttl, b)
  | .MX => do
    let (priority, b) ← b.readU16
    let (b, mx) ← b.readQname []
    return (.MX domain priority mx ttl, b)
  | .UNKNOWN _ => return (.UNKNOWN domain qtypeNum dataLen ttl, b.step dataLen.toNat)

/-- The tail shared by the `NS`, `CNAME` and `MX` arms of `write`: a zero `RDLENGTH`,
the data, then `set_u16` at the placeholder with the size of the data. -/
def writeSized (b : BytePacketBuffer) (data : BytePacketBuffer → Except String BytePacketBuffer) :
    Except String BytePacketBuffer := do
  let pos := b.pos
  let b ← b.writeU16 0
  let b ← data b
  let size := b.pos - (pos + 2)
  b.setU16 pos size.toUInt16

/-- The `match *self` of `Record::write`. An `UNKNOWN` record writes nothing. -/
def emit (r : Record) (b : BytePacketBuffer) : Except String BytePacketBuffer :=
  match r with
  | .A domain addr ttl => do
    let b ← b.writeQname domain
    let b ← b.writeU16 QueryType.A.toNum
    let b ← b.writeU16 1
    let b ← b.writeU32 ttl
    let b ← b.writeU16 4
    let b ← b.writeU8 addr.a
    let b ← b.writeU8 addr.b
    let b ← b.writeU8 addr.c
    b.writeU8 addr.d
  | .NS domain host ttl => do
    let b ← b.writeQname domain
    let b ← b.writeU16 QueryType.NS.toNum
    let b ← b.writeU16 1
    let b ← b.writeU32 ttl
    writeSized b (·.writeQname host)
  | .CNAME domain host ttl => do
    let b ← b.writeQname domain
    let b ← b.writeU16 QueryType.CNAME.toNum
    let b ← b.writeU16 1
    let b ← b.writeU32 ttl
    writeSized b (·.writeQname host)
  | .MX domain priority host ttl => do
    let b ← b.writeQname domain
    let b ← b.writeU16 QueryType.MX.toNum
    let b ← b.writeU16 1
    let b ← b.writeU32 ttl
    writeSized b fun b => do
      let b ← b.writeU16 priority
      b.writeQname host
  | .AAAA domain addr ttl => do
    let b ← b.writeQname domain
    let b ← b.writeU16 QueryType.AAAA.toNum
    let b ← b.writeU16 1
    let b ← b.writeU32 ttl
    let b ← b.writeU16 16
    addr.segments.foldlM (fun b octet => b.writeU16 octet) b
  | .UNKNOWN .. => .ok b

/-- `Record::write`: the record's bytes, and how many were written. -/
def write (r : Record) (b : BytePacketBuffer) : Except String (Nat × BytePacketBuffer) := do
  let b' ← r.emit b
  return (b'.pos - b.pos, b')

/-! ## The wire format -/

/-- The RDATA of a record: the address octets, the host name, or the priority and
the exchange name. -/
def rdata : Record → List UInt8
  | .A _ addr _ => [addr.a] ++ [addr.b] ++ [addr.c] ++ [addr.d]
  | .NS _ host _ | .CNAME _ host _ => qnameBytes host
  | .MX _ priority host _ => be16 priority ++ qnameBytes host
  | .AAAA _ addr _ => addr.segments.flatMap be16
  | .UNKNOWN .. => []

/-- A resource record as the wire lays it out: owner, type, class 1, TTL, the
length of the RDATA, and the RDATA. An `UNKNOWN` record has no bytes. -/
def bytes : Record → List UInt8
  | .UNKNOWN .. => []
  | r => qnameBytes r.domain ++ be16 r.qtype.toNum ++ be16 1 ++ be32 r.getTtl ++
      be16 r.rdata.length.toUInt16 ++ r.rdata

open BytePacketBuffer in
/-- The back-patch writes the data behind its length. -/
theorem writes_writeSized {p : Prop} {data : BytePacketBuffer → Except String BytePacketBuffer}
    {l : List UInt8} (h : Writes p data l) :
    Writes p (writeSized · data) (be16 l.length.toUInt16 ++ l) := by
  intro b b' hb
  have hsize : b.pos + 2 + l.length - (b.pos + 2) = l.length := by omega
  simp only [writeSized, bind_eq_ok, List.length_append, length_be16]
  constructor
  · rintro ⟨b₁, h₁, b₂, h₂, h₃⟩
    obtain ⟨-, hf₁, rfl⟩ := (writes_writeU16 0 b b₁ hb).mp h₁
    simp only [length_be16] at hf₁
    obtain ⟨hp, hf₂, rfl⟩ := (h _ b₂ (by rw [pos_put, length_be16]; omega)).mp h₂
    simp only [pos_put, length_be16] at hf₂ h₃
    rw [← put_append, setU16_put_be16 _ _ hf₂, hsize] at h₃
    exact ⟨hp, by omega, (Except.ok.inj h₃).symm⟩
  · rintro ⟨hp, hf, rfl⟩
    have h₁ := (writes_writeU16 0 b _ hb).mpr ⟨trivial, by rw [length_be16]; omega, rfl⟩
    have h₂ := (h (b.put (be16 0)) _ (by rw [pos_put, length_be16]; omega)).mpr
      ⟨hp, by rw [pos_put, length_be16]; omega, rfl⟩
    refine ⟨_, h₁, _, h₂, ?_⟩
    rw [← put_append, setU16_put_be16 _ _ (by omega), pos_put, List.length_append, length_be16,
      ← Nat.add_assoc, hsize]

open BytePacketBuffer in
/-- The segment loop of the `AAAA` arm. -/
theorem writes_segments (l : List UInt16) :
    Writes True (fun b => l.foldlM (fun b octet => b.writeU16 octet) b) (l.flatMap be16) := by
  induction l with
  | nil => exact writes_pure
  | cons x l ih =>
    simp only [List.foldlM_cons, List.flatMap_cons]
    exact (writes_writeU16 x).bind_of_true ih

open BytePacketBuffer in
/-- `write` emits `bytes`, and fails only on a name that does not encode or on bytes
that do not fit. -/
theorem writes_emit (r : Record) : Writes (∀ n ∈ r.names, LabelsFit n) r.emit r.bytes := by
  cases r with
  | UNKNOWN d t l ttl => exact writes_pure.of_iff (by simp [names])
  | A d addr ttl =>
    unfold emit
    simp only [bytes, rdata, qtype, domain, getTtl, List.length_append, List.length_singleton,
      Nat.reduceAdd, show Nat.toUInt16 4 = 4 from rfl, List.append_assoc]
    exact ((writes_writeQname _).bind_true <| (writes_writeU16 _).bind_of_true <|
      (writes_writeU16 _).bind_of_true <| (writes_writeU32 _).bind_of_true <|
      (writes_writeU16 _).bind_of_true <| (writes_writeU8 _).bind_of_true <|
      (writes_writeU8 _).bind_of_true <| (writes_writeU8 _).bind_of_true (writes_writeU8 _)).of_iff
        (by simp [names, domain])
  | NS d host ttl | CNAME d host ttl =>
    unfold emit
    simp only [bytes, rdata, qtype, domain, getTtl, List.append_assoc]
    exact ((writes_writeQname _).bind <| (writes_writeU16 _).bind_of_true <|
      (writes_writeU16 _).bind_of_true <| (writes_writeU32 _).bind_of_true <|
      writes_writeSized (writes_writeQname _)).of_iff (by simp [names])
  | MX d prio host ttl =>
    unfold emit
    simp only [bytes, rdata, qtype, domain, getTtl, List.append_assoc]
    exact ((writes_writeQname _).bind <| (writes_writeU16 _).bind_of_true <|
      (writes_writeU16 _).bind_of_true <| (writes_writeU32 _).bind_of_true <|
      writes_writeSized ((writes_writeU16 _).bind_of_true (writes_writeQname _))).of_iff
        (by simp [names])
  | AAAA d addr ttl =>
    unfold emit
    simp only [bytes, rdata, qtype, domain, getTtl, Ipv6Addr.segments, List.flatMap_cons,
      List.flatMap_nil, List.length_append, length_be16, List.length_nil, Nat.reduceAdd,
      show Nat.toUInt16 16 = 16 from rfl, List.append_assoc]
    exact ((writes_writeQname _).bind_true <| (writes_writeU16 _).bind_of_true <|
      (writes_writeU16 _).bind_of_true <| (writes_writeU32 _).bind_of_true <|
      (writes_writeU16 _).bind_of_true (writes_segments _)).of_iff (by simp [names, domain])

open BytePacketBuffer in
/-- `read` on the bytes `write` emits gives the record back, for every variant but
`UNKNOWN`, whose names the codec round-trips; the cursor ends past the bytes. -/
theorem read_of_unread {r : Record} (hu : ¬ r.IsUnknown) (hn : ∀ n ∈ r.names, NameRoundTrips n)
    {b : BytePacketBuffer} {rest : List UInt8} (hb : b.unread = r.bytes ++ rest) :
    read b = .ok (r, b.step r.bytes.length) := by
  cases r with
  | UNKNOWN => exact absurd trivial hu
  | A d addr ttl =>
    simp only [names, domain, List.mem_singleton, forall_eq] at hn
    simp only [bytes, rdata, qtype, domain, getTtl, List.append_assoc, quad_append_eq_be32] at hb
    have u₁ := unread_step_of_append hb
    have u₂ := unread_step_of_append u₁
    have u₃ := unread_step_of_append u₂
    have u₄ := unread_step_of_append u₃
    have u₅ := unread_step_of_append u₄
    obtain ⟨h₁, h₂, h₃, h₄⟩ := UInt32.octets_combine addr.a addr.b addr.c addr.d
    simp only [read, readQname_of_unread hn hb, readU16_of_unread u₁, readU16_of_unread u₂,
      readU32_of_unread u₃, readU16_of_unread u₄, readU32_of_unread u₅, ok_bind,
      QueryType.fromNum_toNum_A, h₁, h₂, h₃, h₄]
    simp only [bytes, rdata, qtype, domain, getTtl, List.length_append, length_be16, length_be32,
      List.length_singleton, step_step, Nat.add_assoc]
    rfl
  | NS d host ttl | CNAME d host ttl =>
    simp only [names, List.mem_cons, List.mem_singleton, forall_eq_or_imp, forall_eq,
      List.not_mem_nil, false_imp_iff, implies_true, and_true] at hn
    simp only [bytes, rdata, qtype, domain, getTtl, List.append_assoc] at hb
    have u₁ := unread_step_of_append hb
    have u₂ := unread_step_of_append u₁
    have u₃ := unread_step_of_append u₂
    have u₄ := unread_step_of_append u₃
    have u₅ := unread_step_of_append u₄
    simp only [read, readQname_of_unread hn.1 hb, readU16_of_unread u₁, readU16_of_unread u₂,
      readU32_of_unread u₃, readU16_of_unread u₄, readQname_of_unread hn.2 u₅, ok_bind,
      QueryType.fromNum_toNum, QueryType.Canonical]
    simp only [bytes, rdata, qtype, domain, getTtl, List.length_append, length_be16, length_be32,
      step_step, Nat.add_assoc]
    rfl
  | MX d prio host ttl =>
    simp only [names, List.mem_cons, List.mem_singleton, forall_eq_or_imp, forall_eq,
      List.not_mem_nil, false_imp_iff, implies_true, and_true] at hn
    simp only [bytes, rdata, qtype, domain, getTtl, List.append_assoc] at hb
    have u₁ := unread_step_of_append hb
    have u₂ := unread_step_of_append u₁
    have u₃ := unread_step_of_append u₂
    have u₄ := unread_step_of_append u₃
    have u₅ := unread_step_of_append u₄
    have u₆ := unread_step_of_append u₅
    simp only [read, readQname_of_unread hn.1 hb, readU16_of_unread u₁, readU16_of_unread u₂,
      readU32_of_unread u₃, readU16_of_unread u₄, readU16_of_unread u₅,
      readQname_of_unread hn.2 u₆, ok_bind,
      QueryType.fromNum_toNum, QueryType.Canonical]
    simp only [bytes, rdata, qtype, domain, getTtl, List.length_append, length_be16, length_be32,
      step_step, Nat.add_assoc]
    rfl
  | AAAA d addr ttl =>
    simp only [names, domain, List.mem_singleton, forall_eq] at hn
    simp only [bytes, rdata, qtype, domain, getTtl, Ipv6Addr.segments, List.flatMap_cons,
      List.flatMap_nil, List.append_nil, List.length_append, length_be16, List.append_assoc] at hb
    rw [be16_append_be16 addr.a addr.b, be16_append_be16 addr.c addr.d,
      be16_append_be16 addr.e addr.f, be16_append_be16 addr.g addr.h] at hb
    have u₁ := unread_step_of_append hb
    have u₂ := unread_step_of_append u₁
    have u₃ := unread_step_of_append u₂
    have u₄ := unread_step_of_append u₃
    have u₅ := unread_step_of_append u₄
    have u₆ := unread_step_of_append u₅
    have u₇ := unread_step_of_append u₆
    have u₈ := unread_step_of_append u₇
    obtain ⟨h₁, h₂⟩ := UInt32.segments_combine addr.a addr.b
    obtain ⟨h₃, h₄⟩ := UInt32.segments_combine addr.c addr.d
    obtain ⟨h₅, h₆⟩ := UInt32.segments_combine addr.e addr.f
    obtain ⟨h₇, h₈⟩ := UInt32.segments_combine addr.g addr.h
    simp only [read, readQname_of_unread hn hb, readU16_of_unread u₁, readU16_of_unread u₂,
      readU32_of_unread u₃, readU16_of_unread u₄, readU32_of_unread u₅, readU32_of_unread u₆,
      readU32_of_unread u₇, readU32_of_unread u₈, ok_bind,
      QueryType.fromNum_toNum, QueryType.Canonical,
      h₁, h₂, h₃, h₄, h₅, h₆, h₇, h₈]
    simp only [bytes, rdata, qtype, domain, getTtl, Ipv6Addr.segments, List.flatMap_cons,
      List.flatMap_nil, List.length_append, length_be16, length_be32, List.length_nil, step_step,
      Nat.add_assoc]
    rfl

/-- The bytes of each name `write` encodes lie within the record's bytes. -/
theorem qnameBytes_length_le {r : Record} {n : List UInt8} (h : n ∈ r.names) :
    (qnameBytes n).length ≤ r.bytes.length := by
  cases r <;>
    simp only [names, domain, List.mem_cons, List.mem_singleton, List.not_mem_nil, or_false] at h <;>
    rcases h with rfl | rfl <;>
    simp only [bytes, rdata, domain, List.length_append] <;> omega

/-- Only an `UNKNOWN` record writes no bytes. -/
theorem bytes_eq_nil_iff (r : Record) : r.bytes = [] ↔ r.IsUnknown := by
  cases r <;> simp [bytes, IsUnknown, qnameBytes]

end Record

end RustyDns
