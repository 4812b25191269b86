import RustyDns.Message.Record

/-!
# The packet codec

`Packet::write` and `Packet::from_buffer` of `structs/packet.rs`. The writer sets
the four header counts from the section lengths and writes every section in
order; the reader reads as many questions and records as the header announces.
The round trip holds for packets without `UNKNOWN` records, which the writer
counts in the header but does not write.
-/

namespace RustyDns

namespace Packet

/-- The question loop of `from_buffer`: each question is read into a fresh
`Question::new("", UNKNOWN(0))` and pushed. -/
def readQuestions (b : BytePacketBuffer) : Nat → Except String (List Question × BytePacketBuffer)
  | 0 => .ok ([], b)
  | n + 1 => do
    let (question, b) ← Question.read ⟨[], .UNKNOWN 0⟩ b
    let (questions, b) ← readQuestions b n
    return (question :: questions, b)

/-- A record loop of `from_buffer`. -/
def readRecords (b : BytePacketBuffer) : Nat → Except String (List Record × BytePacketBuffer)
  | 0 => .ok ([], b)
  | n + 1 => do
    let (rec, b) ← Record.read b
    let (recs, b) ← readRecords b n
    return (rec :: recs, b)

/-- `Packet::from_buffer`: the header, then as many entries per section as it announces. -/
def fromBuffer (b : BytePacketBuffer) : Except String (Packet × BytePacketBuffer) := do
  let (header, b) ← Header.read b
  let (questions, b) ← readQuestions b header.questions.toNat
  let (answers, b) ← readRecords b header.answers.toNat
  let (authorities, b) ← readRecords b header.authoritativeEntries.toNat
  let (resources, b) ← readRecords b header.resourceEntries.toNat
  return (⟨header, questions, answers, authorities, resources⟩, b)

/-- The header `write` emits: the packet's own, with each count set to its
section's length `as u16`. -/
def countedHeader (p : Packet) : Header :=
  { p.header with
    questions := p.questions.length.toUInt16
    answers := p.answers.length.toUInt16
    authoritativeEntries := p.authorities.length.toUInt16
    resourceEntries := p.resources.length.toUInt16 }

/-- The question loop of `write`. -/
def writeQuestions (b : BytePacketBuffer) : List Question → Except String BytePacketBuffer
  | [] => .ok b
  | question :: questions => do
    let b ← question.write b
    writeQuestions b questions

/-- A record loop of `write`; the size `Record::write` returns is dropped. -/
def writeRecords (b : BytePacketBuffer) : List Record → Except String BytePacketBuffer
  | [] => .ok b
  | rec :: recs => do
    let (_, b) ← rec.write b
    writeRecords b recs

/-- `Packet::write`. The source stores the counts into the packet's own header
before writing it; no caller reads the packet afterwards. -/
def write (p : Packet) (b : BytePacketBuffer) : Except String BytePacketBuffer := do
  let b ← p.countedHeader.write b
  let b ← writeQuestions b p.questions
  let b ← writeRecords b p.answers
  let b ← writeRecords b p.authorities
  writeRecords b p.resources

/-! ## The wire format -/

/-- The records of the three record sections, in wire order. -/
def records (p : Packet) : List Record := p.answers ++ p.authorities ++ p.resources

/-- Every name `write` encodes: the question names, then those of the records. -/
def names (p : Packet) : List (List UInt8) :=
  p.questions.map Question.qname ++ p.records.flatMap Record.names

/-- A packet on the wire: the counted header, then each section's entries. -/
def bytes (p : Packet) : List UInt8 :=
  p.countedHeader.bytes ++ p.questions.flatMap Question.bytes ++ p.answers.flatMap Record.bytes ++
    p.authorities.flatMap Record.bytes ++ p.resources.flatMap Record.bytes

/-! ## Writing -/

theorem writeRecords_cons (b : BytePacketBuffer) (r : Record) (rs : List Record) :
    writeRecords b (r :: rs) = r.emit b >>= (writeRecords · rs) := by
  simp only [writeRecords, Record.write]
  cases r.emit b <;> rfl

open BytePacketBuffer in
theorem writes_writeQuestions (qs : List Question) :
    Writes (∀ n ∈ qs.map Question.qname, LabelsFit n) (writeQuestions · qs)
      (qs.flatMap Question.bytes) := by
  induction qs with
  | nil => exact writes_pure.of_iff (by simp)
  | cons q qs ih =>
    simp only [writeQuestions, List.flatMap_cons]
    exact ((Question.writes_write q).bind ih).of_iff (by simp only [List.map_cons,
      List.forall_mem_cons])

open BytePacketBuffer in
theorem writes_writeRecords (rs : List Record) :
    Writes (∀ n ∈ rs.flatMap Record.names, LabelsFit n) (writeRecords · rs)
      (rs.flatMap Record.bytes) := by
  induction rs with
  | nil => exact writes_pure.of_iff (by simp)
  | cons r rs ih =>
    intro b b' hb
    show writeRecords b (r :: rs) = .ok b' ↔ _
    rw [writeRecords_cons, List.flatMap_cons, List.flatMap_cons]
    exact (((Record.writes_emit r).bind ih).of_iff List.forall_mem_append.symm) b b' hb

open BytePacketBuffer in
/-- `write` emits `bytes`, and fails only on a name that does not encode or on bytes
that do not fit. -/
theorem writes_write (p : Packet) : Writes (∀ n ∈ p.names, LabelsFit n) p.write p.bytes := by
  unfold write
  simp only [bytes, List.append_assoc]
  exact ((Header.writes_write _).bind_of_true <| (writes_writeQuestions _).bind <|
    (writes_writeRecords _).bind <| (writes_writeRecords _).bind (writes_writeRecords _)).of_iff
      (by simp only [names, records, List.flatMap_append, List.forall_mem_append, and_assoc])

/-! ## Reading back -/

open BytePacketBuffer in
theorem readQuestions_of_unread {qs : List Question}
    (hq : ∀ q ∈ qs, NameRoundTrips q.qname ∧ q.qtype.Canonical) {b : BytePacketBuffer}
    {rest : List UInt8} (hb : b.unread = qs.flatMap Question.bytes ++ rest) :
    readQuestions b qs.length = .ok (qs, b.step (qs.flatMap Question.bytes).length) := by
  induction qs generalizing b with
  | nil => rfl
  | cons q qs ih =>
    simp only [List.mem_cons, forall_eq_or_imp] at hq
    rw [List.flatMap_cons, List.append_assoc] at hb
    simp only [List.length_cons, readQuestions, Question.read_of_unread hq.1.1 hq.1.2 hb, ok_bind,
      ih hq.2 (unread_step_of_append hb)]
    simp only [List.flatMap_cons, List.length_append, step_step]
    rfl

open BytePacketBuffer in
theorem readRecords_of_unread {rs : List Record}
    (hr : ∀ r ∈ rs, ¬ r.IsUnknown ∧ ∀ n ∈ r.names, NameRoundTrips n) {b : BytePacketBuffer}
    {rest : List UInt8} (hb : b.unread = rs.flatMap Record.bytes ++ rest) :
    readRecords b rs.length = .ok (rs, b.step (rs.flatMap Record.bytes).length) := by
  induction rs generalizing b with
  | nil => rfl
  | cons r rs ih =>
    simp only [List.mem_cons, forall_eq_or_imp] at hr
    rw [List.flatMap_cons, List.append_assoc] at hb
    simp only [List.length_cons, readRecords, Record.read_of_unread hr.1.1 hr.1.2 hb, ok_bind,
      ih hr.2 (unread_step_of_append hb)]
    simp only [List.flatMap_cons, List.length_append, step_step]
    rfl

open BytePacketBuffer in
/-- `from_buffer` on the bytes `write` emits gives the packet back with its counts
set, and moves the cursor past the bytes. -/
theorem fromBuffer_of_unread {p : Packet} (hop : p.header.opcode.toNat < 16)
    (hq : ∀ q ∈ p.questions, NameRoundTrips q.qname ∧ q.qtype.Canonical)
    (hr : ∀ r ∈ p.records, ¬ r.IsUnknown ∧ ∀ n ∈ r.names, NameRoundTrips n)
    (hlen : p.questions.length < 65536 ∧ p.answers.length < 65536 ∧
      p.authorities.length < 65536 ∧ p.resources.length < 65536)
    {b : BytePacketBuffer} {rest : List UInt8} (hb : b.unread = p.bytes ++ rest) :
    fromBuffer b = .ok ({ p with header := p.countedHeader }, b.step p.bytes.length) := by
  have hr₁ : ∀ r ∈ p.answers, _ := fun r h => hr r (by simp [records, h])
  have hr₂ : ∀ r ∈ p.authorities, _ := fun r h => hr r (by simp [records, h])
  have hr₃ : ∀ r ∈ p.resources, _ := fun r h => hr r (by simp [records, h])
  simp only [bytes, List.append_assoc] at hb
  have u₁ := unread_step_of_append hb
  have u₂ := unread_step_of_append u₁
  have u₃ := unread_step_of_append u₂
  have u₄ := unread_step_of_append u₃
  have hc : p.countedHeader.questions.toNat = p.questions.length ∧
      p.countedHeader.answers.toNat = p.answers.length ∧
      p.countedHeader.authoritativeEntries.toNat = p.authorities.length ∧
      p.countedHeader.resourceEntries.toNat = p.resources.length :=
    ⟨toNat_toUInt16_of_lt hlen.1, toNat_toUInt16_of_lt hlen.2.1, toNat_toUInt16_of_lt hlen.2.2.1,
      toNat_toUInt16_of_lt hlen.2.2.2⟩
  simp only [fromBuffer, Header.read_of_unread (show p.countedHeader.opcode.toNat < 16 from hop) hb,
    ok_bind, hc]
  simp only [readQuestions_of_unread hq u₁, ok_bind]
  simp only [readRecords_of_unread hr₁ u₂, ok_bind]
  simp only [readRecords_of_unread hr₂ u₃, ok_bind]
  simp only [readRecords_of_unread hr₃ u₄, ok_bind]
  simp only [bytes, List.length_append, step_step, Nat.add_assoc]
  rfl

/-! ## The round trip -/

private theorem length_le_length_flatMap {α β : Type} {f : α → List β} {l : List α}
    (h : ∀ a ∈ l, f a ≠ []) : l.length ≤ (l.flatMap f).length := by
  induction l with
  | nil => exact Nat.zero_le _
  | cons a l ih =>
    simp only [List.mem_cons, forall_eq_or_imp] at h
    have h₁ := List.length_pos.mpr h.1
    have h₂ := ih h.2
    simp only [List.length_cons, List.flatMap_cons, List.length_append]
    omega

private theorem length_le_length_flatMap_of_mem {α β : Type} {f : α → List β} {a : α}
    {l : List α} (h : a ∈ l) : (f a).length ≤ (l.flatMap f).length :=
  (List.sublist_flatten_of_mem (List.mem_map_of_mem f h)).length_le

theorem length_bytes (p : Packet) : p.bytes.length = 12 + (p.questions.flatMap Question.bytes).length +
    (p.records.flatMap Record.bytes).length := by
  simp only [bytes, records, List.flatMap_append, List.length_append, Header.length_bytes]
  omega

/-- The bytes of each name `write` encodes lie within the packet's bytes. -/
theorem qnameBytes_length_le {p : Packet} {n : List UInt8} (h : n ∈ p.names) :
    (qnameBytes n).length ≤ p.bytes.length := by
  rw [length_bytes]
  simp only [names, List.mem_append, List.mem_map, List.mem_flatMap] at h
  rcases h with ⟨q, hq, rfl⟩ | ⟨r, hr, hn⟩
  · have := length_le_length_flatMap_of_mem (f := Question.bytes) hq
    simp only [Question.bytes, List.length_append] at this
    omega
  · have := (Record.qnameBytes_length_le hn).trans (length_le_length_flatMap_of_mem
      (f := Record.bytes) hr)
    omega

/-- Without `UNKNOWN` records every entry takes bytes, so a packet that fits has
fewer than `2 ^ 16` entries per section and its counts survive `as u16`. -/
theorem sections_length_lt {p : Packet} (hu : ∀ r ∈ p.records, ¬ r.IsUnknown)
    (hfit : p.bytes.length ≤ 512) :
    p.questions.length < 65536 ∧ p.answers.length < 65536 ∧ p.authorities.length < 65536 ∧
      p.resources.length < 65536 := by
  have h₁ := length_le_length_flatMap (f := Question.bytes) (l := p.questions)
    fun q _ h => by simp [Question.bytes, qnameBytes] at h
  have h₂ := length_le_length_flatMap (f := Record.bytes) (l := p.records)
    fun r hr h => hu r hr ((Record.bytes_eq_nil_iff r).mp h)
  have h₃ : p.records.length = p.answers.length + p.authorities.length + p.resources.length := by
    simp only [records, List.length_append]
  rw [length_bytes] at hfit
  omega

open BytePacketBuffer in
/-- The packet codec round trip: a packet with a four-bit opcode, canonical
question types, no `UNKNOWN` record and names the name codec round-trips, whose
bytes fit in 512, is written into a fresh buffer as exactly its wire bytes, each
`RDLENGTH` the length of the RDATA after it; `from_buffer` from the start reads
it back with the counts set, and stops where `write` stopped. -/
theorem write_fromBuffer {p : Packet} (hop : p.header.opcode.toNat < 16)
    (hq : ∀ q ∈ p.questions, q.qtype.Canonical) (hu : ∀ r ∈ p.records, ¬ r.IsUnknown)
    (hn : ∀ n ∈ p.names, NameRoundTrips n) (hfit : p.bytes.length ≤ 512) :
    ∃ b, p.write BytePacketBuffer.new = .ok b ∧ b.written = p.bytes ∧
      fromBuffer (b.seek 0) = .ok ({ p with header := p.countedHeader }, b) := by
  have hfit' : BytePacketBuffer.new.pos + p.bytes.length ≤ 512 := by rw [pos_new]; omega
  have hlab : ∀ n ∈ p.names, LabelsFit n := fun n h =>
    (hn n h).labelsFit ((qnameBytes_length_le h).trans hfit)
  have hq' : ∀ q ∈ p.questions, NameRoundTrips q.qname ∧ q.qtype.Canonical := fun q h =>
    ⟨hn _ (List.mem_append_left _ (List.mem_map_of_mem _ h)), hq q h⟩
  have hr' : ∀ r ∈ p.records, ¬ r.IsUnknown ∧ ∀ n ∈ r.names, NameRoundTrips n := fun r h =>
    ⟨hu r h, fun n hn' => hn n (List.mem_append_right _ (List.mem_flatMap_of_mem h hn'))⟩
  have hlen := sections_length_lt hu hfit
  have hb : ((BytePacketBuffer.new.put p.bytes).seek 0).unread =
      p.bytes ++ (List.replicate 512 0).drop p.bytes.length := by
    rw [unread_seek, buf_put hfit', pos_new, buf_new]
    simp only [List.take_zero, List.nil_append, List.drop_zero, Nat.zero_add]
  refine ⟨_, (writes_write p BytePacketBuffer.new _ (Nat.zero_le _)).mpr ⟨hlab, hfit', rfl⟩,
    by rw [written_put hfit', written_new, List.nil_append], ?_⟩
  have hend : ((BytePacketBuffer.new.put p.bytes).seek 0).step p.bytes.length =
      BytePacketBuffer.new.put p.bytes :=
    BytePacketBuffer.ext (by rw [buf_step, buf_seek]) (by rw [pos_step, pos_seek, pos_put, pos_new])
  rw [fromBuffer_of_unread hop hq' hr' hlen hb, hend]

/-- A query for the address of `a` with its one answer. -/
def answerA : Packet := ⟨Header.new, [⟨[97], .A⟩], [.A [97] ⟨1, 2, 3, 4⟩ 60], [], []⟩

theorem write_fromBuffer_answerA :
    ∃ b, answerA.write BytePacketBuffer.new = .ok b ∧ b.written = answerA.bytes ∧
      fromBuffer (b.seek 0) = .ok ({ answerA with header := answerA.countedHeader }, b) :=
  write_fromBuffer (by decide) (by simp [answerA, QueryType.Canonical]) (by decide)
    (fun n h => by
      obtain rfl : n = [97] := by simpa [answerA, names, records, Record.names, Record.domain] using h
      exact BytePacketBuffer.nameRoundTrips_of (by decide) (by decide) (by decide))
    (by decide)

/-! ## The header counts -/

/-- How many of `recs` `Record::write` emits bytes for. -/
def emitted (recs : List Record) : Nat := (recs.filter fun r => !r.bytes.isEmpty).length

theorem emitted_eq_length {recs : List Record} (hu : ∀ r ∈ recs, ¬ r.IsUnknown) :
    emitted recs = recs.length := by
  rw [emitted, List.filter_eq_self.mpr]
  intro r hr
  simpa [List.isEmpty_iff, Record.bytes_eq_nil_iff] using hu r hr

open BytePacketBuffer in
/-- For a packet without `UNKNOWN` records, a successful `write` emits the packet's
wire bytes, and each header count equals the number of entries of its section
that were written. -/
theorem write_header_counts {p : Packet} {b : BytePacketBuffer}
    (hu : ∀ r ∈ p.records, ¬ r.IsUnknown) (hw : p.write BytePacketBuffer.new = .ok b) :
    b.written = p.bytes ∧ p.countedHeader.questions.toNat = p.questions.length ∧
      p.countedHeader.answers.toNat = emitted p.answers ∧
      p.countedHeader.authoritativeEntries.toNat = emitted p.authorities ∧
      p.countedHeader.resourceEntries.toNat = emitted p.resources := by
  obtain ⟨-, hfit, rfl⟩ := (writes_write p BytePacketBuffer.new b (Nat.zero_le _)).mp hw
  rw [pos_new, Nat.zero_add] at hfit
  have hlen := sections_length_lt hu hfit
  have hsec : ∀ recs, recs ⊆ p.records → emitted recs = recs.length := fun recs h =>
    emitted_eq_length fun r hr => hu r (h hr)
  refine ⟨by rw [written_put (by rw [pos_new]; omega), written_new, List.nil_append],
    toNat_toUInt16_of_lt hlen.1, ?_, ?_, ?_⟩
  · rw [hsec _ fun r h => by simp [records, h]]
    exact toNat_toUInt16_of_lt hlen.2.1
  · rw [hsec _ fun r h => by simp [records, h]]
    exact toNat_toUInt16_of_lt hlen.2.2.1
  · rw [hsec _ fun r h => by simp [records, h]]
    exact toNat_toUInt16_of_lt hlen.2.2.2

/-- `answerA` is written as its bytes, with the counts its sections have. -/
theorem write_header_counts_answerA :
    ∃ b, answerA.write BytePacketBuffer.new = .ok b ∧ b.written = answerA.bytes ∧
      answerA.countedHeader.questions.toNat = answerA.questions.length ∧
      answerA.countedHeader.answers.toNat = emitted answerA.answers ∧
      answerA.countedHeader.authoritativeEntries.toNat = emitted answerA.authorities ∧
      answerA.countedHeader.resourceEntries.toNat = emitted answerA.resources :=
  have hw : answerA.write BytePacketBuffer.new = .ok (BytePacketBuffer.new.put answerA.bytes) :=
    (writes_write _ _ _ (Nat.zero_le _)).mpr ⟨by decide, by decide, rfl⟩
  ⟨_, hw, write_header_counts (by decide) hw⟩

/-- One `UNKNOWN` answer, as an upstream `SOA` record would be decoded. -/
def unknownAnswer : Packet := ⟨Header.new, [], [.UNKNOWN [97] 6 22 60], [], []⟩

/-- `write` succeeds on `unknownAnswer` and its header announces one answer, but the
record writes nothing: the bytes written are the header alone. -/
theorem write_unknownAnswer :
    ∃ b, unknownAnswer.write BytePacketBuffer.new = .ok b ∧
      b.written = unknownAnswer.countedHeader.bytes ∧ unknownAnswer.countedHeader.answers = 1 ∧
      emitted unknownAnswer.answers = 0 :=
  ⟨_, (writes_write _ _ _ (Nat.zero_le _)).mpr ⟨by decide, by decide, rfl⟩,
    by rw [BytePacketBuffer.written_put (by decide)]; rfl, rfl, by decide⟩

end Packet

end RustyDns
