import RustyDns.Handler.Compose
import RustyDns.Message.Bounds

/-!
# The query handler

`query_handler` of `workers.rs`: parse the datagram, drop responses, compose the
response, write it, and send the bytes written. Every failure on the way is
answered by `goofy_workaround` with an error packet, and that sends the whole
512-byte buffer, not the bytes written. The last check is `get_range(0, len)`,
which fails when `len` is 512: a response that fills the buffer exactly is
replaced by `SERVFAIL`.
-/

namespace RustyDns

/-- `BytePacketBuffer::new_error_packet`: the error packet written into a fresh buffer. -/
def BytePacketBuffer.newErrorPacket (rescode : ResultCode) (id : UInt16) :
    Except String BytePacketBuffer := do
  let errorPacket ← Packet.errorPacket rescode id
  errorPacket.write BytePacketBuffer.new

/-- `goofy_workaround`: the datagrams it hands to `send_to`, the whole buffer of
the error packet, or none when the packet cannot be built. -/
def goofyWorkaround (id : UInt16) (rescode : ResultCode) : List (List UInt8) :=
  match BytePacketBuffer.newErrorPacket rescode id with
  | .ok b => [b.buf]
  | .error _ => []

/-- The response `query_handler` composes for a parsed request: from the cache
alone when the request does not ask for recursion. -/
def handlerResponse (request : Packet) (resolved : Except String Packet)
    (fetched : Except String (List CachedRecord)) (now : Int) : Packet :=
  if !request.header.recursionDesired then cachedComposeResponse request fetched now
  else composeResponse request resolved

/-- `query_handler` on the datagram `d`, once `inquiring` has returned `resolved` for
the request's last question: the datagrams it hands to `send_to`, in order. The world
also gives what the cache holds (`fetched`, read at `now`) and whether the `send_to`
of the response succeeds (`sent`). A task whose `inquiring` panics or never returns
sends nothing; `Server` models it by its `Outcome`. -/
def queryHandler (d : List UInt8) (resolved : Except String Packet)
    (fetched : Except String (List CachedRecord)) (now : Int) (sent : Bool) : List (List UInt8) :=
  match Packet.fromBuffer (BytePacketBuffer.receive d) with
  | .error _ => goofyWorkaround 0 .FORMERR
  | .ok (request, _) =>
    if request.header.response then []
    else
      match (handlerResponse request resolved fetched now).write BytePacketBuffer.new with
      | .error _ => goofyWorkaround request.header.id .SERVFAIL
      | .ok resBuffer =>
        match resBuffer.getRange 0 resBuffer.pos with
        | .error _ => goofyWorkaround request.header.id .SERVFAIL
        | .ok data => data :: if sent then [] else goofyWorkaround request.header.id .SERVFAIL

/-- Once the response is written, the handler sends the bytes written if they
are fewer than 512, and the `SERVFAIL` packet's buffer if they are 512. -/
theorem queryHandler_of_write {d : List UInt8} {resolved : Except String Packet}
    {fetched : Except String (List CachedRecord)} {now : Int} {sent : Bool} {request : Packet}
    {b₀ b : BytePacketBuffer}
    (hreq : Packet.fromBuffer (BytePacketBuffer.receive d) = .ok (request, b₀))
    (hqr : request.header.response = false)
    (hw : (handlerResponse request resolved fetched now).write BytePacketBuffer.new = .ok b) :
    queryHandler d resolved fetched now sent =
      if b.pos < 512 then
        b.written :: if sent then [] else goofyWorkaround request.header.id .SERVFAIL
      else goofyWorkaround request.header.id .SERVFAIL := by
  unfold queryHandler
  rw [hreq]
  simp only [hqr, Bool.false_eq_true, if_false, hw, BytePacketBuffer.getRange, Nat.zero_add,
    List.drop_zero]
  by_cases hp : b.pos < 512
  · rw [if_neg (by omega), if_pos hp]
    rfl
  · rw [if_pos (by omega), if_neg hp]

/-! ## What every datagram carries -/

/-- A packet's wire bytes start with its counted header. -/
theorem Packet.countedHeader_prefix (p : Packet) : p.countedHeader.bytes <+: p.bytes := by
  simp only [Packet.bytes, List.append_assoc]
  exact List.prefix_append _ _

/-- A packet written into a fresh buffer is stored from the start. -/
theorem Packet.write_new {p : Packet} {b : BytePacketBuffer}
    (h : p.write BytePacketBuffer.new = .ok b) :
    b = BytePacketBuffer.new.put p.bytes ∧ p.bytes.length ≤ 512 := by
  obtain ⟨-, hfit, rfl⟩ := (Packet.writes_write p _ b (Nat.zero_le _)).mp h
  exact ⟨rfl, by simpa using hfit⟩

/-- Both ways of composing answer with a response that keeps the request's id. -/
theorem handlerResponse_header (request : Packet) (resolved : Except String Packet)
    (fetched : Except String (List CachedRecord)) (now : Int) :
    (handlerResponse request resolved fetched now).header.id = request.header.id ∧
      (handlerResponse request resolved fetched now).header.response = true := by
  unfold handlerResponse composeResponse cachedComposeResponse
  repeat' split
  all_goals exact ⟨rfl, rfl⟩

open BytePacketBuffer in
/-- The buffer `goofy_workaround` sends starts with a response header carrying `id`. -/
theorem goofyWorkaround_header {id : UInt16} {rescode : ResultCode} {dg : List UInt8}
    (h : dg ∈ goofyWorkaround id rescode) :
    ∃ hd : Header, hd.bytes <+: dg ∧ hd.id = id ∧ hd.response = true := by
  unfold goofyWorkaround newErrorPacket at h
  split at h <;> rename_i b hb
  · obtain ⟨p, hp, hw⟩ := bind_eq_ok.mp hb
    obtain ⟨hb, hfit⟩ := Packet.write_new hw
    rw [List.mem_singleton.mp h, hb, buf_put (by simpa using hfit), pos_new, List.take_zero,
      List.nil_append]
    unfold Packet.errorPacket at hp
    split at hp <;> cases hp
    exact ⟨_, (Packet.countedHeader_prefix _).trans (List.prefix_append _ _), rfl, rfl⟩
  · cases h

open BytePacketBuffer in
/-- `goofy_workaround` sends one datagram for every result code but `NOERROR`. -/
theorem goofyWorkaround_ne_nil {id : UInt16} {rescode : ResultCode} (h : rescode ≠ .NOERROR) :
    goofyWorkaround id rescode ≠ [] := by
  obtain ⟨p, hp, hn, hl⟩ : ∃ p, Packet.errorPacket rescode id = .ok p ∧ p.names = [] ∧
      p.bytes.length = 12 := by
    unfold Packet.errorPacket
    split
    · contradiction
    · exact ⟨_, rfl, rfl, by simp [Packet.length_bytes, Packet.new, Packet.records]⟩
  have hw := (Packet.writes_write p new _ (Nat.zero_le _)).mpr
    ⟨by simp [hn], by rw [pos_new, hl]; decide, rfl⟩
  unfold goofyWorkaround newErrorPacket
  rw [hp, ok_bind, hw]
  exact List.cons_ne_nil _ _

open BytePacketBuffer in
/-- The handler answers every datagram but a response with at least one datagram. -/
theorem queryHandler_ne_nil {d : List UInt8} {resolved : Except String Packet}
    {fetched : Except String (List CachedRecord)} {now : Int} {sent : Bool}
    (h : ∀ request b, Packet.fromBuffer (receive d) = .ok (request, b) →
      request.header.response = false) :
    queryHandler d resolved fetched now sent ≠ [] := by
  unfold queryHandler
  split <;> rename_i hreq
  · exact goofyWorkaround_ne_nil nofun
  rw [h _ _ hreq, if_neg Bool.false_ne_true]
  split
  · exact goofyWorkaround_ne_nil nofun
  split
  · exact goofyWorkaround_ne_nil nofun
  · exact List.cons_ne_nil _ _

/-- A one-byte datagram parses as an empty query, and the handler answers it. -/
theorem queryHandler_ne_nil_oneByte :
    (∀ request b, Packet.fromBuffer (BytePacketBuffer.receive [0]) = .ok (request, b) →
      request.header.response = false) ∧
      queryHandler [0] (.error "unused") (.ok []) 0 true ≠ [] :=
  have h : ∀ request b, Packet.fromBuffer (BytePacketBuffer.receive [0]) = .ok (request, b) →
      request.header.response = false := fun request b hr => by
    have h₀ : Packet.fromBuffer (BytePacketBuffer.receive [0]) =
        .ok (Packet.new, (BytePacketBuffer.receive [0]).step 12) := rfl
    rw [h₀] at hr
    cases hr
    rfl
  ⟨h, queryHandler_ne_nil h⟩

open BytePacketBuffer in
/-- Every datagram the handler sends starts with a response header that carries
the request's id, or 0 when the request does not parse, so that a client can
match every reply to its query. -/
theorem queryHandler_header {d : List UInt8} {resolved : Except String Packet}
    {fetched : Except String (List CachedRecord)} {now : Int} {sent : Bool} {dg : List UInt8}
    (hdg : dg ∈ queryHandler d resolved fetched now sent) :
    ∃ hd : Header, hd.bytes <+: dg ∧
      hd.id = (match Packet.fromBuffer (receive d) with
        | .ok (request, _) => request.header.id
        | .error _ => 0) ∧
      hd.response = true := by
  unfold queryHandler at hdg
  split at hdg <;> rename_i hreq <;> rw [hreq]
  · exact goofyWorkaround_header hdg
  split at hdg
  · cases hdg
  split at hdg <;> rename_i b hw
  · exact goofyWorkaround_header hdg
  split at hdg <;> rename_i data hg
  · exact goofyWorkaround_header hdg
  rcases List.mem_cons.mp hdg with rfl | hdg
  · unfold getRange at hg
    split at hg <;> cases hg
    obtain ⟨hb, hfit⟩ := Packet.write_new hw
    rw [List.drop_zero, ← written, hb, written_put (by simpa using hfit), written_new,
      List.nil_append]
    exact ⟨_, Packet.countedHeader_prefix _, handlerResponse_header ..⟩
  · split at hdg
    · cases hdg
    · exact goofyWorkaround_header hdg

open BytePacketBuffer in
/-- The handler answers a one-byte datagram, an empty query, with a `FORMERR`
response of id 0. -/
theorem queryHandler_header_oneByte :
    [0, 0, 128, 129, 0, 0, 0, 0, 0, 0, 0, 0] ∈ queryHandler [0] (.error "unused") (.ok []) 0 true ∧
      ∃ hd : Header, hd.bytes <+: [0, 0, 128, 129, 0, 0, 0, 0, 0, 0, 0, 0] ∧
        hd.id = (match Packet.fromBuffer (receive [0]) with
          | .ok (request, _) => request.header.id
          | .error _ => 0) ∧
        hd.response = true :=
  have h : [0, 0, 128, 129, 0, 0, 0, 0, 0, 0, 0, 0] ∈
      queryHandler [0] (.error "unused") (.ok []) 0 true := by decide
  ⟨h, queryHandler_header h⟩

/-- A query for the address of `a`, id 7, asking for recursion. -/
def fullRequest : Packet :=
  ⟨{ Header.new with id := 7, recursionDesired := true, questions := 1 }, [⟨[97], .A⟩], [], [], []⟩

/-- A resolution result with 29 `A` records of `a`: with its question, the
response takes exactly 512 bytes. -/
def fullAnswer : Packet :=
  ⟨{ Header.new with response := true, questions := 1, answers := 29 }, [⟨[97], .A⟩],
    List.replicate 29 (.A [97] ⟨1, 2, 3, 4⟩ 60), [], []⟩

/-- The response to `fullRequest` takes exactly 512 bytes. -/
theorem length_bytes_full : (composeResponse fullRequest (.ok fullAnswer)).bytes.length = 512 := by
  have hq : (Question.bytes ⟨[97], .A⟩).length = 7 := by decide
  have hr : (Record.A [97] ⟨1, 2, 3, 4⟩ 60).bytes.length = 17 := by decide
  simp [Packet.length_bytes, composeResponse, fullRequest, fullAnswer, Packet.records,
    List.flatMap_replicate, hq, hr]

open BytePacketBuffer in
/-- For the query `fullRequest` resolved into `fullAnswer`, the response is
written and fills the buffer, and yet the handler sends only the `SERVFAIL`
workaround. -/
theorem queryHandler_full_response_servfail :
    (handlerResponse fullRequest (.ok fullAnswer) (.ok []) 0).write new =
        .ok (new.put (handlerResponse fullRequest (.ok fullAnswer) (.ok []) 0).bytes) ∧
      (new.put (handlerResponse fullRequest (.ok fullAnswer) (.ok []) 0).bytes).pos = 512 ∧
      ∀ fetched now sent, queryHandler fullRequest.bytes (.ok fullAnswer) fetched now sent =
        goofyWorkaround 7 .SERVFAIL := by
  have hreq : Packet.fromBuffer (receive fullRequest.bytes) =
      .ok (fullRequest, (receive fullRequest.bytes).step fullRequest.bytes.length) :=
    have hb : (receive fullRequest.bytes).unread = fullRequest.bytes ++ List.replicate 493 0 := rfl
    Packet.fromBuffer_of_unread (by decide)
      (fun q hq => by
        obtain rfl : q = ⟨[97], .A⟩ := by simpa [fullRequest] using hq
        exact ⟨nameRoundTrips_of (by decide) (by decide) (by decide), trivial⟩)
      (fun r hr => by simp [fullRequest, Packet.records] at hr) (by decide) hb
  have hlen := length_bytes_full
  have hw := (Packet.writes_write (composeResponse fullRequest (.ok fullAnswer)) new _
    (Nat.zero_le _)).mpr ⟨fun n hn => by
      simp [Packet.names, composeResponse, fullRequest, fullAnswer, Packet.records,
        List.mem_flatMap, Record.names, Record.domain] at hn
      subst hn
      decide, by rw [pos_new, hlen], rfl⟩
  have hpos : (new.put (composeResponse fullRequest (.ok fullAnswer)).bytes).pos = 512 := by
    rw [pos_put, pos_new, hlen]
  refine ⟨hw, hpos, fun fetched now sent => ?_⟩
  have hw' : (handlerResponse fullRequest (.ok fullAnswer) fetched now).write new =
      .ok (new.put (composeResponse fullRequest (.ok fullAnswer)).bytes) := hw
  rw [queryHandler_of_write hreq rfl hw', if_neg (by rw [hpos]; decide)]
  rfl

end RustyDns
