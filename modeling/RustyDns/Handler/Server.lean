import Mathlib.Data.List.Nodup
import RustyDns.Handler.QueryHandler
import RustyDns.Resolver.Replies

/-!
# The server

`run` of `lib.rs` spawns a `query_handler` task for every datagram, and the tasks share
the `entries` table; every `.await` lets another task run, so their statements on the
table interleave in any order. Over every interleaving the cache answers only with what
nameservers sent, and every datagram is answered at most once, by a response to it.
-/

namespace RustyDns

open Resolver

namespace Packet

/-- The response built from one cache row holds that row's record and nothing else. -/
theorem records_addCrToAnswers {cr : CachedRecord} {p : Packet}
    (h : Packet.new.addCrToAnswers cr = .ok p) : ∃ r, cr.recordFromCache = .ok r ∧ p.records = [r] := by
  obtain ⟨r, hr, -⟩ := addCrToAnswers_ok h
  refine ⟨r, hr, ?_⟩
  simp only [addCrToAnswers, hr] at h
  cases h
  rfl

theorem questions_addCrToAnswers {p p' : Packet} {cr : CachedRecord}
    (h : p.addCrToAnswers cr = .ok p') : p'.questions = p.questions := by
  obtain ⟨_, -, h⟩ := bind_eq_ok.mp h
  cases h
  rfl

end Packet

/-- A response `compose_response` builds holds no record, or the records of the
resolution's result. -/
theorem records_composeResponse (request : Packet) (resolved : Except String Packet) :
    (composeResponse request resolved).records = [] ∨
      ∃ p, resolved = .ok p ∧ (composeResponse request resolved).records = p.records := by
  unfold composeResponse
  split
  · exact .inl rfl
  · split
    · exact .inr ⟨_, rfl, rfl⟩
    · exact .inl rfl

/-- A cache-only response holds no record, or the record of a row fetched. -/
theorem records_cachedComposeResponse (request : Packet)
    (fetched : Except String (List CachedRecord)) (now : Int) :
    (cachedComposeResponse request fetched now).records = [] ∨
      ∃ rows cr r, fetched = .ok rows ∧ cr ∈ rows ∧ cr.recordFromCache = .ok r ∧
        (cachedComposeResponse request fetched now).records = [r] := by
  unfold cachedComposeResponse
  split
  · exact .inl rfl
  split
  · exact .inl rfl
  rename_i rows
  split <;> rename_i hlast
  · exact .inl rfl
  rename_i cr
  split
  · split <;> rename_i hadd
    · obtain ⟨r, hr, hrec⟩ := Packet.records_addCrToAnswers hadd
      exact .inr ⟨rows, cr, r, rfl, List.mem_of_getLast?_eq_some hlast, hr, hrec⟩
    · exact .inl rfl
  · exact .inl rfl

/-- A response `compose_response` builds carries the request's id with `QR` and
`RD` set, and no question or the request's last. -/
theorem header_composeResponse (request : Packet) (resolved : Except String Packet) :
    (composeResponse request resolved).header.id = request.header.id ∧
      (composeResponse request resolved).header.response = true ∧
      (composeResponse request resolved).header.recursionDesired = true ∧
      ∀ q ∈ (composeResponse request resolved).questions, request.questions.getLast? = some q := by
  unfold composeResponse
  split <;> rename_i hq
  · exact ⟨rfl, rfl, rfl, nofun⟩
  split
  · exact ⟨rfl, rfl, rfl, fun q h => by rw [List.mem_singleton.mp h, hq]⟩
  · exact ⟨rfl, rfl, rfl, nofun⟩

/-- A cache-only response carries the request's id with `QR` set and `RD` clear,
and no question: every branch is `add_info` on a packet with none. -/
theorem header_cachedComposeResponse (request : Packet)
    (fetched : Except String (List CachedRecord)) (now : Int) :
    (cachedComposeResponse request fetched now).header.id = request.header.id ∧
      (cachedComposeResponse request fetched now).header.response = true ∧
      (cachedComposeResponse request fetched now).header.recursionDesired = false ∧
      (cachedComposeResponse request fetched now).questions = [] := by
  unfold cachedComposeResponse
  repeat' split
  all_goals try exact ⟨rfl, rfl, rfl, rfl⟩
  rename_i hadd
  exact ⟨rfl, rfl, rfl, Packet.questions_addCrToAnswers hadd⟩

/-- A `query_handler` task resolving the last question of its request: how it stands,
with the variables at the head of the loop while it goes on, and the number of the
datagram that brought the request. -/
structure Task where
  request : Packet
  question : Question
  outcome : Outcome
  origin : Nat

/-- The server between two statements on the table. -/
structure Server where
  /-- The `entries` table. -/
  table : List CachedRecord
  /-- The resolutions started, those that ended included. -/
  tasks : List Task
  /-- Every row ever inserted, oldest first. -/
  inserted : List CachedRecord
  /-- Every reply a nameserver sent to a turn. -/
  replies : List Packet
  /-- Every response a task composed, which `query_handler` then writes and sends. -/
  responses : List Packet
  /-- Every datagram received, oldest first. -/
  datagrams : List (List UInt8)
  /-- For each response, the number of the datagram it answers. -/
  answered : List Nat

namespace Server

/-- The server at start, with the empty table the migration creates. -/
def init : Server := ⟨[], [], [], [], [], [], []⟩

/-- What can happen next. -/
inductive Event
  /-- A datagram arrives; a task asked for no recursion reads `fetched` from the
  cache at time `now`. -/
  | datagram (d : List UInt8) (fetched : Except String (List CachedRecord)) (now : Int)
  /-- The `k`-th resolution started takes the turn `t`, if it goes on. -/
  | turn (k : Nat) (t : Turn)
  /-- A task's `delete_from_db` removes a row. -/
  | delete (cr : CachedRecord)

/-- The row the `INSERT` of a turn adds: the one `register_record` builds, when
it is called and succeeds. -/
def insertedRow (t : Turn) : Option Record → Option CachedRecord
  | none => none
  | some r =>
    match r.registerRecord t.registeredAt t.insert with
    | .ok (row, _) => some row
    | .error _ => none

theorem insertedRow_some {t : Turn} {reg : Option Record} {row : CachedRecord}
    (h : insertedRow t reg = some row) :
    ∃ r addr, reg = some r ∧ r.registerRecord t.registeredAt t.insert = .ok (row, addr) := by
  cases reg with
  | none => cases h
  | some r =>
    cases hr : r.registerRecord t.registeredAt t.insert with
    | error e => simp only [insertedRow, hr, reduceCtorEq] at h
    | ok v =>
      simp only [insertedRow, hr, Option.some.injEq] at h
      subst h
      exact ⟨r, v.2, rfl, hr⟩

/-- The response `p` to the `n`-th datagram is composed. -/
def respond (st : Server) (n : Nat) (p : Packet) : Server :=
  { st with responses := st.responses ++ [p], answered := st.answered ++ [n] }

section

variable (rootAddr : Ipv4Addr)

/-- `query_handler` on the `n`-th datagram `d`, up to the response: an unparsable one
is answered by the `FORMERR` error packet with id 0, a response is dropped, a request
asking for no recursion is answered from the cache, and one asking for recursion
starts a resolution of its last question, or gets `FORMERR` when it has none. -/
def handle (st : Server) (n : Nat) (d : List UInt8) (fetched : Except String (List CachedRecord))
    (now : Int) : Server :=
  match Packet.fromBuffer (BytePacketBuffer.receive d) with
  | .error _ =>
    match Packet.errorPacket .FORMERR 0 with
    | .ok p => st.respond n p
    | .error _ => st
  | .ok (request, _) =>
    if request.header.response then st
    else if !request.header.recursionDesired then
      st.respond n (cachedComposeResponse request fetched now)
    else
      match request.questions.getLast? with
      | none => st.respond n (composeResponse request (.error ""))
      | some q =>
        { st with tasks := st.tasks ++ [⟨request, q, .next (Inquiry.init q.qname q.qtype rootAddr), n⟩] }

/-- A datagram arrives, and is handled as the next one. -/
def receive (st : Server) (d : List UInt8) (fetched : Except String (List CachedRecord))
    (now : Int) : Server :=
  { st with datagrams := st.datagrams ++ [d] }.handle rootAddr st.datagrams.length d fetched now

/-- The resolution `task`, the `k`-th, at the variables `s`, ends the turn `t` as
`a` says: the row inserted and the reply got are kept, and one that returns has
`compose_response` build the response to its datagram. -/
def takeTurn (st : Server) (k : Nat) (task : Task) (s : Inquiry) (t : Turn)
    (a : Option Record × Outcome) : Server where
  table := st.table ++ (insertedRow t a.1).toList
  tasks := st.tasks.set k { task with outcome := a.2 }
  inserted := st.inserted ++ (insertedRow t a.1).toList
  replies := st.replies ++ (received task.question.qname task.question.qtype s t).toList
  responses :=
    match a.2 with
    | .returned result => st.responses ++ [composeResponse task.request result]
    | _ => st.responses
  datagrams := st.datagrams
  answered :=
    match a.2 with
    | .returned _ => st.answered ++ [task.origin]
    | _ => st.answered

/-- The `k`-th resolution started takes the turn `t`, if it goes on. -/
def turn (st : Server) (k : Nat) (t : Turn) : Server :=
  match st.tasks[k]? with
  | none => st
  | some task =>
    match task.outcome with
    | .next s =>
      st.takeTurn k task s t (Resolver.step task.question.qname task.question.qtype rootAddr s t)
    | _ => st

/-- A turn acts only on a resolution started that goes on. -/
theorem turn_cases (st : Server) (k : Nat) (t : Turn) :
    st.turn rootAddr k t = st ∨ ∃ task s, st.tasks[k]? = some task ∧ task.outcome = .next s ∧
      st.turn rootAddr k t =
        st.takeTurn k task s t (Resolver.step task.question.qname task.question.qtype rootAddr s t) := by
  unfold turn
  cases st.tasks[k]? with
  | none => exact .inl rfl
  | some task =>
    cases ho : task.outcome with
    | next s => exact .inr ⟨task, s, rfl, ho, by simp only [ho]⟩
    | returned _ | panicked => exact .inl (by simp only [ho])

/-- One event. -/
def step (st : Server) : Event → Server
  | .datagram d fetched now => st.receive rootAddr d fetched now
  | .turn k t => st.turn rootAddr k t
  | .delete cr => { st with table := cr.deleteFromDb st.table }

/-- The server after a sequence of events. -/
def run (st : Server) : List Event → Server
  | [] => st
  | e :: es => (st.step rootAddr e).run es

/-- What the world can do next: a cache-only task reads rows of the table, and
a turn reads a row that was inserted before. -/
def Allows (st : Server) : Event → Prop
  | .datagram _ fetched _ => ∀ rows, fetched = .ok rows → ∀ cr ∈ rows, cr ∈ st.table
  | .turn _ t => ∀ cr ∈ t.row, cr ∈ st.inserted
  | .delete _ => True

/-- A sequence of events the world can bring about from `st`. -/
def Interleaving : Server → List Event → Prop
  | _, [] => True
  | st, e :: es => Allows st e ∧ Interleaving (st.step rootAddr e) es

end

/-! ## What every interleaving keeps -/

/-- The record `r` was in a reply a nameserver sent. -/
def InReply (replies : List Packet) (r : Record) : Prop := ∃ reply ∈ replies, r ∈ reply.records

theorem InReply.append {replies : List Packet} {r : Record} (h : InReply replies r)
    (more : List Packet) : InReply (replies ++ more) r :=
  let ⟨reply, hm, hr⟩ := h
  ⟨reply, List.mem_append_left _ hm, hr⟩

/-- The invariant of the server: its table is reachable and holds only rows
inserted, every row inserted reads back as an `A` record of its own domain and
TTL that a nameserver sent, and every record of every response was sent by a
nameserver. -/
structure Safe (st : Server) : Prop where
  reachable : Reachable st.table
  table_inserted : ∀ cr ∈ st.table, cr ∈ st.inserted
  inserted_reply : ∀ cr ∈ st.inserted, ∃ addr,
    cr.recordFromCache = .ok (.A cr.domain addr cr.ttl) ∧ InReply st.replies (.A cr.domain addr cr.ttl)
  responses_reply : ∀ p ∈ st.responses, ∀ r ∈ p.records, InReply st.replies r

variable {rootAddr : Ipv4Addr} {st : Server}

theorem safe_init : Safe init :=
  ⟨.refl, fun _ h => (nomatch h), fun _ h => (nomatch h), fun _ h => (nomatch h)⟩

/-- The record of a row once inserted was sent by a nameserver. -/
theorem Safe.cached (hs : Safe st) {cr : CachedRecord} {r : Record} (hcr : cr ∈ st.inserted)
    (hr : cr.recordFromCache = .ok r) : InReply st.replies r := by
  obtain ⟨addr, hr', hin⟩ := hs.inserted_reply cr hcr
  rw [hr] at hr'
  cases hr'
  exact hin

/-- A response whose records a nameserver sent keeps the invariant. -/
theorem Safe.respond (hs : Safe st) {n : Nat} {p : Packet} (hp : ∀ r ∈ p.records, InReply st.replies r) :
    Safe (st.respond n p) := by
  refine ⟨hs.reachable, hs.table_inserted, hs.inserted_reply, fun q hq => ?_⟩
  rcases List.mem_append.mp hq with hq | hq
  · exact hs.responses_reply q hq
  · rw [List.mem_singleton.mp hq]
    exact hp

theorem Safe.handle (hs : Safe st) {n : Nat} {d : List UInt8}
    {fetched : Except String (List CachedRecord)} {now : Int}
    (hf : ∀ rows, fetched = .ok rows → ∀ cr ∈ rows, cr ∈ st.table) :
    Safe (st.handle rootAddr n d fetched now) := by
  unfold Server.handle
  split
  · split
    · exact hs.respond (by rename_i h; simp only [Packet.errorPacket] at h; cases h; exact fun _ h => nomatch h)
    · exact hs
  rename_i request _ _
  split
  · exact hs
  split
  · refine hs.respond fun r hr => ?_
    rcases records_cachedComposeResponse request fetched now with
      h | ⟨rows, cr, r', hrows, hmem, hcr, h⟩ <;> rw [h] at hr
    · cases hr
    · rw [List.mem_singleton.mp hr]
      exact hs.cached (hs.table_inserted cr (hf rows hrows cr hmem)) hcr
  split
  · refine hs.respond fun r hr => ?_
    rcases records_composeResponse request (.error "") with h | ⟨_, h, -⟩
    · rw [h] at hr
      cases hr
    · cases h
  · exact ⟨hs.reachable, hs.table_inserted, hs.inserted_reply, hs.responses_reply⟩

theorem Safe.receive (hs : Safe st) {d : List UInt8} {fetched : Except String (List CachedRecord)}
    {now : Int} (hf : ∀ rows, fetched = .ok rows → ∀ cr ∈ rows, cr ∈ st.table) :
    Safe (st.receive rootAddr d fetched now) :=
  have hs' : Safe { st with datagrams := st.datagrams ++ [d] } :=
    ⟨hs.reachable, hs.table_inserted, hs.inserted_reply, hs.responses_reply⟩
  hs'.handle hf

/-- The table of a turn is its own step relation's: an insert, or nothing. -/
theorem table_takeTurn (k : Nat) (task : Task) (s : Inquiry) (t : Turn)
    (a : Option Record × Outcome) :
    Relation.ReflTransGen TableStep st.table (st.takeTurn k task s t a).table := by
  cases hrow : insertedRow t a.1 with
  | none => simp only [takeTurn, hrow, Option.toList_none, List.append_nil]; exact .refl
  | some row =>
    obtain ⟨r, addr, -, hreg⟩ := insertedRow_some hrow
    simp only [takeTurn, hrow, Option.toList_some]
    exact .single (.insert hreg)

theorem Safe.takeTurn (hs : Safe st) {k : Nat} {task : Task} {s : Inquiry} {t : Turn}
    (ht : ∀ cr ∈ t.row, cr ∈ st.inserted) :
    Safe (st.takeTurn k task s t
      (Resolver.step task.question.qname task.question.qtype rootAddr s t)) := by
  generalize ha : Resolver.step task.question.qname task.question.qtype rootAddr s t = a
  have hmore : ∀ r, InReply st.replies r → InReply (st.takeTurn k task s t a).replies r :=
    fun r h => h.append _
  have hnew : ∀ response, received task.question.qname task.question.qtype s t = some response →
      response ∈ (st.takeTurn k task s t a).replies :=
    fun response h => List.mem_append_right _ (by rw [h]; exact List.mem_singleton_self _)
  refine ⟨hs.reachable.trans (table_takeTurn k task s t a), fun cr hcr => ?_, fun cr hcr => ?_, ?_⟩
  · rcases List.mem_append.mp hcr with hcr | hcr
    · exact List.mem_append_left _ (hs.table_inserted cr hcr)
    · exact List.mem_append_right _ hcr
  · rcases List.mem_append.mp hcr with hcr | hcr
    · obtain ⟨addr, hr, hin⟩ := hs.inserted_reply cr hcr
      exact ⟨addr, hr, hmore _ hin⟩
    obtain ⟨r, addr, hreg, hins⟩ := insertedRow_some (Option.mem_toList.mp hcr)
    obtain ⟨addr', hrow⟩ := CachedRecord.registered_of_registerRecord hins
    rw [recordFromCache_registerRecord hins] at hrow
    cases hrow
    obtain ⟨-, response, hrec, hmem⟩ := step_registered_reply (ha.trans (Prod.ext hreg rfl))
    exact ⟨addr', recordFromCache_registerRecord hins, response, hnew response hrec, hmem⟩
  · obtain ⟨reg, o⟩ := a
    intro p hp r hr
    cases o with
    | next s' => exact hmore r (hs.responses_reply p hp r hr)
    | panicked => exact hmore r (hs.responses_reply p hp r hr)
    | returned result =>
      rcases List.mem_append.mp hp with hp | hp
      · exact hmore r (hs.responses_reply p hp r hr)
      rw [List.mem_singleton.mp hp] at hr
      rcases records_composeResponse task.request result with h | ⟨p', rfl, h⟩ <;> rw [h] at hr
      · cases hr
      rcases step_returned_reply ha with ⟨cr, hrow, hadd⟩ | hrec
      · obtain ⟨r', hr', hrec'⟩ := Packet.records_addCrToAnswers hadd
        rw [hrec', List.mem_singleton] at hr
        subst hr
        exact hmore _ (hs.cached (ht cr hrow) hr')
      · exact ⟨p', hnew p' hrec, hr⟩

/-- Every event the world can bring about keeps the invariant. -/
theorem Safe.step (hs : Safe st) {e : Event} (he : Allows st e) : Safe (st.step rootAddr e) := by
  cases e with
  | datagram d fetched now => exact hs.receive he
  | turn k t =>
    rcases turn_cases rootAddr st k t with h | ⟨task, s, -, -, h⟩ <;>
      simp only [Server.step, h]
    · exact hs
    · exact hs.takeTurn he
  | delete cr =>
    refine ⟨hs.reachable.tail (.delete _ cr), fun c hc => ?_, hs.inserted_reply, hs.responses_reply⟩
    exact hs.table_inserted c (List.mem_of_mem_filter hc)

theorem Safe.run (hs : Safe st) {es : List Event} (h : Interleaving rootAddr st es) :
    Safe (st.run rootAddr es) := by
  induction es generalizing st with
  | nil => exact hs
  | cons e es ih => exact ih (hs.step h.1) h.2

/-- Over every interleaving of datagrams, turns and deletes, whatever the
replies, the clock and the database answer: the table is one its steps reach,
every row ever inserted reads back as an `A` record of its own domain and TTL
that a nameserver sent, and every record of every response composed was sent by
a nameserver. -/
theorem safe_run (es : List Event) (h : Interleaving rootAddr init es) :
    Safe (init.run rootAddr es) :=
  safe_init.run h

/-- A request for the address of `a` asking for recursion, a turn of its
resolution answered by the 29 `A` records of `fullAnswer`, and a delete. -/
theorem safe_run_fullRequest :
    Interleaving rootServer init [.datagram fullRequest.bytes (.error "no row") 0,
      .turn 0 ⟨none, 0, .ok (), .ok fullAnswer, 0, .ok 1⟩, .delete rowA] ∧
    Safe (init.run rootServer [.datagram fullRequest.bytes (.error "no row") 0,
      .turn 0 ⟨none, 0, .ok (), .ok fullAnswer, 0, .ok 1⟩, .delete rowA]) :=
  have h : Interleaving rootServer init [.datagram fullRequest.bytes (.error "no row") 0,
      .turn 0 ⟨none, 0, .ok (), .ok fullAnswer, 0, .ok 1⟩, .delete rowA] :=
    ⟨fun _ h => (nomatch h), fun _ h => (nomatch h), trivial, trivial⟩
  ⟨h, safe_run _ h⟩

/-! ## Every response answers a datagram received -/

/-- The response `p` answers the datagram `d` as `query_handler` does: `QR` is set;
a datagram that does not parse is answered by `FORMERR` with id 0, and a request,
which is no response itself, with its own id and `RD` flag, and with no question
or its last. -/
def RespondsTo (d : List UInt8) (p : Packet) : Prop :=
  p.header.response = true ∧
    match Packet.fromBuffer (BytePacketBuffer.receive d) with
    | .error _ => p.header.id = 0 ∧ p.header.rescode = .FORMERR
    | .ok (request, _) => request.header.response = false ∧ p.header.id = request.header.id ∧
      p.header.recursionDesired = request.header.recursionDesired ∧
      ∀ q ∈ p.questions, request.questions.getLast? = some q

/-- The datagrams `seen` account for the server: every resolution started is
that of a request received asking for recursion, and every response composed
answers a datagram received. -/
structure Answered (seen : List UInt8 → Prop) (st : Server) : Prop where
  tasks : ∀ task ∈ st.tasks, ∃ d b, seen d ∧
    Packet.fromBuffer (BytePacketBuffer.receive d) = .ok (task.request, b) ∧
    task.request.header.response = false ∧ task.request.header.recursionDesired = true
  responses : ∀ p ∈ st.responses, ∃ d, seen d ∧ RespondsTo d p

section

variable {seen : List UInt8 → Prop}

theorem respondsTo_composeResponse {d : List UInt8} {request : Packet} {b : BytePacketBuffer}
    (hd : Packet.fromBuffer (BytePacketBuffer.receive d) = .ok (request, b))
    (hqr : request.header.response = false) (hrd : request.header.recursionDesired = true)
    (resolved : Except String Packet) : RespondsTo d (composeResponse request resolved) := by
  obtain ⟨hid, hr, hrd', hq⟩ := header_composeResponse request resolved
  rw [RespondsTo, hd]
  exact ⟨hr, hqr, hid, hrd'.trans hrd.symm, hq⟩

theorem respondsTo_cachedComposeResponse {d : List UInt8} {request : Packet}
    {b : BytePacketBuffer} (hd : Packet.fromBuffer (BytePacketBuffer.receive d) = .ok (request, b))
    (hqr : request.header.response = false) (hrd : request.header.recursionDesired = false)
    (fetched : Except String (List CachedRecord)) (now : Int) :
    RespondsTo d (cachedComposeResponse request fetched now) := by
  obtain ⟨hid, hr, hrd', hq⟩ := header_cachedComposeResponse request fetched now
  rw [RespondsTo, hd, hq]
  exact ⟨hr, hqr, hid, hrd'.trans hrd.symm, nofun⟩

theorem answered_init : Answered seen init :=
  ⟨fun _ h => (nomatch h), fun _ h => (nomatch h)⟩

theorem Answered.respond (h : Answered seen st) {n : Nat} {p : Packet}
    (hp : ∃ d, seen d ∧ RespondsTo d p) : Answered seen (st.respond n p) := by
  refine ⟨h.tasks, fun q hq => ?_⟩
  rcases List.mem_append.mp hq with hq | hq
  · exact h.responses q hq
  · rwa [List.mem_singleton.mp hq]

theorem Answered.handle (h : Answered seen st) {n : Nat} {d : List UInt8} (hd : seen d)
    (fetched : Except String (List CachedRecord)) (now : Int) :
    Answered seen (st.handle rootAddr n d fetched now) := by
  unfold Server.handle
  split <;> rename_i hparse
  · split <;> rename_i hp
    · simp only [Packet.errorPacket] at hp
      cases hp
      exact h.respond ⟨d, hd, by rw [RespondsTo, hparse]; exact ⟨rfl, rfl, rfl⟩⟩
    · exact h
  rename_i request _
  split <;> rename_i hqr
  · exact h
  have hqr : request.header.response = false := by simpa using hqr
  split <;> rename_i hrd
  · exact h.respond ⟨d, hd, respondsTo_cachedComposeResponse hparse hqr (by simpa using hrd) _ _⟩
  have hrd : request.header.recursionDesired = true := by simpa using hrd
  split
  · exact h.respond ⟨d, hd, respondsTo_composeResponse hparse hqr hrd _⟩
  refine ⟨fun task ht => ?_, h.responses⟩
  rcases List.mem_append.mp ht with ht | ht
  · exact h.tasks task ht
  · rw [List.mem_singleton.mp ht]
    exact ⟨d, _, hd, hparse, hqr, hrd⟩

theorem Answered.receive (h : Answered seen st) {d : List UInt8} (hd : seen d)
    (fetched : Except String (List CachedRecord)) (now : Int) :
    Answered seen (st.receive rootAddr d fetched now) :=
  have h' : Answered seen { st with datagrams := st.datagrams ++ [d] } := ⟨h.tasks, h.responses⟩
  h'.handle hd fetched now

theorem Answered.takeTurn (h : Answered seen st) {k : Nat} {task : Task} (hk : st.tasks[k]? = some task)
    (s : Inquiry) (t : Turn) (a : Option Record × Outcome) :
    Answered seen (st.takeTurn k task s t a) := by
  obtain ⟨d, b, hd, hparse, hqr, hrd⟩ := h.tasks task (List.mem_iff_getElem?.mpr ⟨k, hk⟩)
  refine ⟨fun x hx => ?_, fun p hp => ?_⟩
  · rcases List.mem_or_eq_of_mem_set hx with hx | rfl
    · exact h.tasks x hx
    · exact ⟨d, b, hd, hparse, hqr, hrd⟩
  simp only [Server.takeTurn] at hp
  split at hp
  · rcases List.mem_append.mp hp with hp | hp
    · exact h.responses p hp
    · rw [List.mem_singleton.mp hp]
      exact ⟨d, hd, respondsTo_composeResponse hparse hqr hrd _⟩
  · exact h.responses p hp

theorem Answered.step (h : Answered seen st) {e : Event}
    (he : ∀ d fetched now, e = .datagram d fetched now → seen d) :
    Answered seen (st.step rootAddr e) := by
  cases e with
  | datagram d fetched now => exact h.receive (he d fetched now rfl) fetched now
  | turn k t =>
    rcases turn_cases rootAddr st k t with h' | ⟨task, s, hk, -, h'⟩ <;>
      simp only [Server.step, h']
    · exact h
    · exact h.takeTurn hk s t _
  | delete cr => exact ⟨h.tasks, h.responses⟩

theorem Answered.run (h : Answered seen st) {es : List Event}
    (hes : ∀ d fetched now, .datagram d fetched now ∈ es → seen d) :
    Answered seen (st.run rootAddr es) := by
  induction es generalizing st with
  | nil => exact h
  | cons e es ih =>
    exact ih (h.step fun d f n he => hes d f n (he ▸ List.mem_cons_self _ _))
      fun d f n hm => hes d f n (List.mem_cons_of_mem _ hm)

end

/-- Over any sequence of events, however the tasks interleave, the server answers
only what it was sent: every resolution started resolves a request received that
asked for recursion, and every response composed answers one datagram received,
with `QR` set, by `FORMERR` with id 0 when it did not parse, and otherwise, never
to a response, with the request's own id and `RD` flag and with no question or
its last. -/
theorem responses_answer_datagrams (es : List Event) :
    Answered (fun d => ∃ fetched now, Event.datagram d fetched now ∈ es) (init.run rootAddr es) :=
  answered_init.run fun _ fetched now hm => ⟨fetched, now, hm⟩

/-! ## Every datagram is answered at most once -/

/-- The datagram parses as a response, which `query_handler` drops. -/
def Dropped (d : List UInt8) : Prop :=
  ∃ request b, Packet.fromBuffer (BytePacketBuffer.receive d) = .ok (request, b) ∧
    request.header.response = true

theorem not_dropped_of_error {d : List UInt8} {e : String}
    (hd : Packet.fromBuffer (BytePacketBuffer.receive d) = .error e) : ¬ Dropped d := by
  rintro ⟨_, _, hd', -⟩
  rw [hd] at hd'
  cases hd'

theorem not_dropped_of_request {d : List UInt8} {request : Packet} {b : BytePacketBuffer}
    (hd : Packet.fromBuffer (BytePacketBuffer.receive d) = .ok (request, b))
    (hqr : request.header.response = false) : ¬ Dropped d := by
  rintro ⟨_, _, hd', hr⟩
  rw [hd] at hd'
  cases hd'
  rw [hqr] at hr
  cases hr

/-- The datagram an event brings, if any. -/
def Event.datagram? : Event → Option (List UInt8)
  | .datagram d _ _ => some d
  | _ => none

/-- The datagrams received, numbered as they came, account for the server's responses
and resolutions. -/
structure Accounted (st : Server) : Prop where
  /-- Each response composed is numbered by the datagram it answers. -/
  length_answered : st.answered.length = st.responses.length
  /-- The `i`-th response answers the datagram numbered `answered[i]`. -/
  responds : ∀ (i : Nat) (p : Packet) (n : Nat), st.responses[i]? = some p → st.answered[i]? = some n →
    ∃ d, st.datagrams[n]? = some d ∧ RespondsTo d p
  /-- No datagram is answered twice. -/
  answered_nodup : st.answered.Nodup
  answered_lt : ∀ n ∈ st.answered, n < st.datagrams.length
  /-- Each resolution resolves the request of its datagram, which asks for recursion. -/
  origin : ∀ task ∈ st.tasks, ∃ d b, st.datagrams[task.origin]? = some d ∧
    Packet.fromBuffer (BytePacketBuffer.receive d) = .ok (task.request, b) ∧
    task.request.header.response = false ∧ task.request.header.recursionDesired = true
  /-- No datagram starts two resolutions. -/
  origin_nodup : (st.tasks.map Task.origin).Nodup
  /-- A datagram is answered exactly when it is no response and the resolution it
  started, if any, has returned. -/
  answered_iff : ∀ (j : Nat) (d : List UInt8), st.datagrams[j]? = some d → (j ∈ st.answered ↔
    ¬ Dropped d ∧ ∀ task ∈ st.tasks, task.origin = j → ∃ result, task.outcome = .returned result)

theorem getElem?_append_singleton {α : Type} {l : List α} {x y : α} {j : Nat}
    (h : (l ++ [x])[j]? = some y) : l[j]? = some y ∨ j = l.length ∧ y = x := by
  rcases Nat.lt_or_ge j l.length with hj | hj
  · exact .inl (by rwa [List.getElem?_append_left hj] at h)
  · have hlt := (List.getElem?_eq_some_iff.mp h).1
    simp only [List.length_append, List.length_singleton] at hlt
    obtain rfl : j = l.length := by omega
    rw [List.getElem?_concat_length] at h
    exact .inr ⟨rfl, (Option.some.inj h).symm⟩

theorem getElem?_append_of_some {α : Type} {l : List α} {x y : α} {j : Nat} (h : l[j]? = some y) :
    (l ++ [x])[j]? = some y :=
  (List.getElem?_append_left (List.getElem?_eq_some_iff.mp h).1).trans h

/-- Updating the `k`-th task keeps the origins. -/
theorem origins_set {tasks : List Task} {k : Nat} {task : Task} (hk : tasks[k]? = some task)
    (o : Outcome) : (tasks.set k { task with outcome := o }).map Task.origin = tasks.map Task.origin := by
  rw [List.map_set]
  refine List.ext_getElem? fun j => ?_
  by_cases hj : k = j
  · subst hj
    rw [List.getElem?_set_self (by simpa using (List.getElem?_eq_some_iff.mp hk).1),
      List.getElem?_map, hk]
    rfl
  · rw [List.getElem?_set_ne hj]

/-- Among tasks of distinct origins, the `k`-th, once updated, is the only one of its origin. -/
theorem eq_of_mem_set_origin {tasks : List Task} {k : Nat} {task x : Task} {o : Outcome}
    (hk : tasks[k]? = some task) (hnd : (tasks.map Task.origin).Nodup)
    (hx : x ∈ tasks.set k { task with outcome := o }) (ho : x.origin = task.origin) :
    x = { task with outcome := o } := by
  obtain ⟨i, hi⟩ := List.mem_iff_getElem?.mp hx
  have hlt : k < (tasks.set k { task with outcome := o }).length := by
    simpa using (List.getElem?_eq_some_iff.mp hk).1
  have hk' := List.getElem?_set_self (a := { task with outcome := o }) (by simpa using hlt)
  have hnd' : ((tasks.set k { task with outcome := o }).map Task.origin).Nodup := by
    rwa [origins_set hk o]
  have hik : i = k := List.getElem?_inj (by simpa using (List.getElem?_eq_some_iff.mp hi).1) hnd'
    (by rw [List.getElem?_map, List.getElem?_map, hi, hk']; exact congrArg some ho)
  rw [hik, hk'] at hi
  exact (Option.some.inj hi).symm

/-- A task of another origin is kept by the update of the `k`-th. -/
theorem mem_set_of_origin_ne {tasks : List Task} {k : Nat} {task x : Task} (o : Outcome)
    (hk : tasks[k]? = some task) (hx : x ∈ tasks) (ho : x.origin ≠ task.origin) :
    x ∈ tasks.set k { task with outcome := o } := by
  obtain ⟨i, hi⟩ := List.mem_iff_getElem?.mp hx
  have hik : k ≠ i := by
    rintro rfl
    rw [hk] at hi
    cases hi
    exact ho rfl
  exact List.mem_iff_getElem?.mpr ⟨i, by rw [List.getElem?_set_ne hik, hi]⟩

/-- The tasks of another origin than the `k`-th are those before its update. -/
theorem forall_set_origin_ne {tasks : List Task} {k : Nat} {task : Task} {o : Outcome} {j : Nat}
    (hk : tasks[k]? = some task) (hj : j ≠ task.origin) (P : Task → Prop) :
    (∀ x ∈ tasks.set k { task with outcome := o }, x.origin = j → P x) ↔
      ∀ x ∈ tasks, x.origin = j → P x := by
  constructor
  · intro hP x hx hxj
    exact hP x (mem_set_of_origin_ne o hk hx (hxj ▸ hj)) hxj
  · intro hP x hx hxj
    rcases List.mem_or_eq_of_mem_set hx with hx | rfl
    · exact hP x hx hxj
    · exact absurd hxj.symm hj

variable {st : Server} {d : List UInt8}

theorem Accounted.origin_lt (h : Accounted st) {task : Task} (ht : task ∈ st.tasks) :
    task.origin < st.datagrams.length :=
  let ⟨_, _, hd, _⟩ := h.origin task ht
  (List.getElem?_eq_some_iff.mp hd).1

theorem accounted_init : Accounted init :=
  ⟨rfl, fun _ _ _ h => by simp [init] at h, List.nodup_nil, fun _ h => (nomatch h),
    fun _ h => (nomatch h), List.nodup_nil, fun _ _ h => by simp [init] at h⟩

/-- The datagram of a resolution going on is not answered yet. -/
theorem Accounted.origin_not_answered (h : Accounted st) {task : Task} {s : Inquiry}
    (ht : task ∈ st.tasks) (hs : task.outcome = .next s) : task.origin ∉ st.answered := fun hin => by
  obtain ⟨_, _, hd, -⟩ := h.origin task ht
  obtain ⟨result, hr⟩ := ((h.answered_iff _ _ hd).mp hin).2 task ht rfl
  rw [hs] at hr
  cases hr

/-- A response appended for the datagram numbered `n`, which it answers, keeps each
response answering its datagram, among datagrams `D` extending those received. -/
theorem Accounted.responds_append (h : Accounted st) {D : List (List UInt8)}
    (hD : ∀ (n : Nat) (d : List UInt8), st.datagrams[n]? = some d → D[n]? = some d) {p : Packet} {n : Nat}
    {d : List UInt8} (hn : D[n]? = some d) (hp : RespondsTo d p) (i : Nat) (p' : Packet) (m : Nat)
    (hp' : (st.responses ++ [p])[i]? = some p') (hm : (st.answered ++ [n])[i]? = some m) :
    ∃ d', D[m]? = some d' ∧ RespondsTo d' p' := by
  have hlen := h.length_answered
  rcases getElem?_append_singleton hp' with hp' | ⟨hi, rfl⟩ <;>
    rcases getElem?_append_singleton hm with hm | ⟨hi', rfl⟩
  · obtain ⟨d', hd', hr⟩ := h.responds i p' m hp' hm
    exact ⟨d', hD m d' hd', hr⟩
  · have := (List.getElem?_eq_some_iff.mp hp').1
    omega
  · have := (List.getElem?_eq_some_iff.mp hm).1
    omega
  · exact ⟨d, hn, hp⟩

/-- The resolutions keep their datagrams when another arrives. -/
theorem Accounted.origin_append (h : Accounted st) (x : List UInt8) (task : Task)
    (ht : task ∈ st.tasks) : ∃ d b, (st.datagrams ++ [x])[task.origin]? = some d ∧
      Packet.fromBuffer (BytePacketBuffer.receive d) = .ok (task.request, b) ∧
      task.request.header.response = false ∧ task.request.header.recursionDesired = true :=
  let ⟨d, b, hd, rest⟩ := h.origin task ht
  ⟨d, b, getElem?_append_of_some hd, rest⟩

/-- Updating how the `k`-th resolution stands keeps each resolution's datagram. -/
theorem Accounted.origin_set (h : Accounted st) {k : Nat} {task : Task}
    (hk : st.tasks[k]? = some task) (o : Outcome) (x : Task)
    (hx : x ∈ st.tasks.set k { task with outcome := o }) : ∃ d b, st.datagrams[x.origin]? = some d ∧
      Packet.fromBuffer (BytePacketBuffer.receive d) = .ok (x.request, b) ∧
      x.request.header.response = false ∧ x.request.header.recursionDesired = true := by
  rcases List.mem_or_eq_of_mem_set hx with hx | rfl
  · exact h.origin x hx
  · exact h.origin task (List.mem_iff_getElem?.mpr ⟨k, hk⟩)

/-- The next datagram, answered at once. -/
theorem Accounted.arrive_respond (h : Accounted st) {p : Packet} (hd : ¬ Dropped d)
    (hp : RespondsTo d p) :
    Accounted ({ st with datagrams := st.datagrams ++ [d] }.respond st.datagrams.length p) where
  length_answered := by
    simp only [respond, List.length_append, List.length_singleton, h.length_answered]
  responds :=
    h.responds_append (fun _ _ => getElem?_append_of_some) (List.getElem?_concat_length _ _) hp
  answered_nodup := by
    show (st.answered ++ [st.datagrams.length]).Nodup
    rw [← List.concat_eq_append]
    exact List.Nodup.concat (fun hn => Nat.lt_irrefl _ (h.answered_lt _ hn)) h.answered_nodup
  answered_lt n hn := by
    simp only [respond, List.mem_append, List.mem_singleton, List.length_append,
      List.length_singleton] at hn ⊢
    rcases hn with hn | rfl
    · exact Nat.lt_succ_of_lt (h.answered_lt n hn)
    · exact Nat.lt_succ_self _
  origin := h.origin_append d
  origin_nodup := h.origin_nodup
  answered_iff j d' hj := by
    simp only [respond, List.mem_append, List.mem_singleton]
    rcases getElem?_append_singleton hj with hj | ⟨rfl, rfl⟩
    · have hlt := (List.getElem?_eq_some_iff.mp hj).1
      rw [← h.answered_iff j d' hj]
      exact ⟨fun h' => h'.resolve_right (Nat.ne_of_lt hlt), .inl⟩
    · exact ⟨fun _ => ⟨hd, fun task ht ho => absurd ho (Nat.ne_of_lt (h.origin_lt ht))⟩,
        fun _ => .inr rfl⟩

/-- The next datagram, a response, dropped. -/
theorem Accounted.arrive_drop (h : Accounted st) (hd : Dropped d) :
    Accounted { st with datagrams := st.datagrams ++ [d] } where
  length_answered := h.length_answered
  responds i p m hp hm :=
    let ⟨d', hd', hr⟩ := h.responds i p m hp hm
    ⟨d', getElem?_append_of_some hd', hr⟩
  answered_nodup := h.answered_nodup
  answered_lt n hn := by
    simpa using Nat.lt_succ_of_lt (h.answered_lt n hn)
  origin := h.origin_append d
  origin_nodup := h.origin_nodup
  answered_iff j d' hj := by
    rcases getElem?_append_singleton hj with hj | ⟨rfl, rfl⟩
    · exact h.answered_iff j d' hj
    · exact ⟨fun hn => absurd (h.answered_lt _ hn) (Nat.lt_irrefl _), fun h' => absurd hd h'.1⟩

/-- The next datagram, a request asking for recursion, starts a resolution. -/
theorem Accounted.arrive_spawn (h : Accounted st) {request : Packet} {b : BytePacketBuffer}
    {q : Question} {o : Outcome}
    (hparse : Packet.fromBuffer (BytePacketBuffer.receive d) = .ok (request, b))
    (hqr : request.header.response = false) (hrd : request.header.recursionDesired = true)
    (ho : ∀ result, o ≠ .returned result) :
    Accounted { st with
      datagrams := st.datagrams ++ [d], tasks := st.tasks ++ [⟨request, q, o, st.datagrams.length⟩] } where
  length_answered := h.length_answered
  responds i p m hp hm :=
    let ⟨d', hd', hr⟩ := h.responds i p m hp hm
    ⟨d', getElem?_append_of_some hd', hr⟩
  answered_nodup := h.answered_nodup
  answered_lt n hn := by
    simpa using Nat.lt_succ_of_lt (h.answered_lt n hn)
  origin task ht := by
    rcases List.mem_append.mp ht with ht | ht
    · exact h.origin_append d task ht
    · rw [List.mem_singleton.mp ht]
      exact ⟨d, b, List.getElem?_concat_length _ _, hparse, hqr, hrd⟩
  origin_nodup := by
    rw [List.map_append, List.map_singleton, ← List.concat_eq_append]
    refine List.Nodup.concat (fun hn => ?_) h.origin_nodup
    obtain ⟨task, ht, he⟩ := List.mem_map.mp hn
    exact Nat.ne_of_lt (h.origin_lt ht) he
  answered_iff j d' hj := by
    simp only [List.forall_mem_append, List.forall_mem_singleton]
    rcases getElem?_append_singleton hj with hj | ⟨rfl, rfl⟩
    · have hlt := (List.getElem?_eq_some_iff.mp hj).1
      rw [h.answered_iff j d' hj]
      exact ⟨fun ⟨hd, hP⟩ => ⟨hd, hP, fun he => absurd he.symm (Nat.ne_of_lt hlt)⟩,
        fun ⟨hd, hP, _⟩ => ⟨hd, hP⟩⟩
    · refine ⟨fun hn => absurd (h.answered_lt _ hn) (Nat.lt_irrefl _), fun ⟨_, _, hP⟩ => ?_⟩
      obtain ⟨result, hr⟩ := hP rfl
      exact absurd hr (ho result)

theorem Accounted.receive (h : Accounted st) (d : List UInt8)
    (fetched : Except String (List CachedRecord)) (now : Int) :
    Accounted (st.receive rootAddr d fetched now) := by
  unfold Server.receive Server.handle
  split <;> rename_i hparse
  · split <;> rename_i hp
    · simp only [Packet.errorPacket] at hp
      cases hp
      exact h.arrive_respond (not_dropped_of_error hparse) (by rw [RespondsTo, hparse]; exact ⟨rfl, rfl, rfl⟩)
    · simp only [Packet.errorPacket, reduceCtorEq] at hp
  rename_i request _
  split <;> rename_i hqr
  · exact h.arrive_drop ⟨request, _, hparse, hqr⟩
  have hqr : request.header.response = false := by simpa using hqr
  split <;> rename_i hrd
  · exact h.arrive_respond (not_dropped_of_request hparse hqr)
      (respondsTo_cachedComposeResponse hparse hqr (by simpa using hrd) _ _)
  have hrd : request.header.recursionDesired = true := by simpa using hrd
  split
  · exact h.arrive_respond (not_dropped_of_request hparse hqr) (respondsTo_composeResponse hparse hqr hrd _)
  · refine h.arrive_spawn hparse hqr hrd ?_
    exact fun _ => nofun

/-- A turn of a resolution going on that leaves it going on, or panicked, answers nothing. -/
theorem Accounted.turn_unanswered (h : Accounted st) {k : Nat} {task : Task} {s : Inquiry}
    (hk : st.tasks[k]? = some task) (hs : task.outcome = .next s) {o : Outcome} {st' : Server}
    (htasks : st'.tasks = st.tasks.set k { task with outcome := o })
    (hresp : st'.responses = st.responses) (hans : st'.answered = st.answered)
    (hdg : st'.datagrams = st.datagrams) (ho : ∀ result, o ≠ .returned result) : Accounted st' where
  length_answered := by rw [hans, hresp]; exact h.length_answered
  responds := by rw [hans, hresp, hdg]; exact h.responds
  answered_nodup := by rw [hans]; exact h.answered_nodup
  answered_lt := by rw [hans, hdg]; exact h.answered_lt
  origin x hx := by rw [hdg]; exact h.origin_set hk o x (htasks ▸ hx)
  origin_nodup := by rw [htasks, origins_set hk]; exact h.origin_nodup
  answered_iff j d' hj := by
    rw [hdg] at hj
    rw [hans, htasks]
    by_cases hjo : j = task.origin
    · subst hjo
      have hlt : k < st.tasks.length := (List.getElem?_eq_some_iff.mp hk).1
      refine ⟨fun hin => absurd hin (h.origin_not_answered (List.mem_iff_getElem?.mpr ⟨k, hk⟩) hs),
        fun ⟨_, hP⟩ => ?_⟩
      obtain ⟨result, hr⟩ := hP _ (List.mem_iff_getElem?.mpr ⟨k, List.getElem?_set_self hlt⟩) rfl
      exact absurd hr (ho result)
    · rw [h.answered_iff j d' hj, forall_set_origin_ne hk hjo]

/-- A turn that returns answers the resolution's datagram. -/
theorem Accounted.turn_answered (h : Accounted st) {k : Nat} {task : Task} {s : Inquiry}
    (hk : st.tasks[k]? = some task) (hs : task.outcome = .next s) {result : Except String Packet}
    {st' : Server} (htasks : st'.tasks = st.tasks.set k { task with outcome := .returned result })
    (hresp : st'.responses = st.responses ++ [composeResponse task.request result])
    (hans : st'.answered = st.answered ++ [task.origin])
    (hdg : st'.datagrams = st.datagrams) : Accounted st' := by
  have hmem : task ∈ st.tasks := List.mem_iff_getElem?.mpr ⟨k, hk⟩
  obtain ⟨d₀, b₀, hd₀, hparse, hqr, hrd⟩ := h.origin task hmem
  refine ⟨?_, ?_, ?_, ?_, fun x hx => ?_, ?_, ?_⟩
  · simp only [hans, hresp, List.length_append, List.length_singleton, h.length_answered]
  · rw [hresp, hans, hdg]
    exact h.responds_append (fun _ _ => id) hd₀ (respondsTo_composeResponse hparse hqr hrd result)
  · rw [hans, ← List.concat_eq_append]
    exact List.Nodup.concat (h.origin_not_answered hmem hs) h.answered_nodup
  · intro n hn
    rw [hans, List.mem_append, List.mem_singleton] at hn
    rw [hdg]
    rcases hn with hn | rfl
    · exact h.answered_lt n hn
    · exact h.origin_lt hmem
  · rw [hdg]
    exact h.origin_set hk _ x (htasks ▸ hx)
  · rw [htasks, origins_set hk]
    exact h.origin_nodup
  · intro j d' hj
    rw [hdg] at hj
    rw [hans, htasks, List.mem_append, List.mem_singleton]
    by_cases hjo : j = task.origin
    · subst hjo
      rw [hd₀] at hj
      cases hj
      refine ⟨fun _ => ⟨not_dropped_of_request hparse hqr, fun x hx ho => ?_⟩, fun _ => .inr rfl⟩
      rw [eq_of_mem_set_origin hk h.origin_nodup hx ho]
      exact ⟨result, rfl⟩
    · rw [or_iff_left hjo, h.answered_iff j d' hj, forall_set_origin_ne hk hjo]

theorem Accounted.takeTurn (h : Accounted st) {k : Nat} {task : Task} {s : Inquiry}
    (hk : st.tasks[k]? = some task) (hs : task.outcome = .next s) (t : Turn)
    (a : Option Record × Outcome) : Accounted (st.takeTurn k task s t a) := by
  obtain ⟨reg, o⟩ := a
  cases o with
  | returned result => exact h.turn_answered hk hs rfl rfl rfl rfl
  | next s' =>
    have ho : ∀ result, Outcome.next s' ≠ .returned result := fun _ => nofun
    exact h.turn_unanswered hk hs rfl rfl rfl rfl ho
  | panicked =>
    have ho : ∀ result, Outcome.panicked ≠ .returned result := fun _ => nofun
    exact h.turn_unanswered hk hs rfl rfl rfl rfl ho

theorem Accounted.step (h : Accounted st) (e : Event) : Accounted (st.step rootAddr e) := by
  cases e with
  | datagram d fetched now => exact h.receive d fetched now
  | turn k t =>
    rcases turn_cases rootAddr st k t with h' | ⟨task, s, hk, hs, h'⟩ <;>
      simp only [Server.step, h']
    · exact h
    · exact h.takeTurn hk hs t _
  | delete cr => exact ⟨h.1, h.2, h.3, h.4, h.5, h.6, h.7⟩

theorem Accounted.run (h : Accounted st) (es : List Event) : Accounted (st.run rootAddr es) := by
  induction es generalizing st with
  | nil => exact h
  | cons e es ih => exact ih (h.step e)

theorem datagrams_handle (st : Server) (n : Nat) (d : List UInt8)
    (fetched : Except String (List CachedRecord)) (now : Int) :
    (st.handle rootAddr n d fetched now).datagrams = st.datagrams := by
  unfold Server.handle
  repeat' split
  all_goals rfl

theorem datagrams_run (st : Server) (es : List Event) :
    (st.run rootAddr es).datagrams = st.datagrams ++ es.filterMap Event.datagram? := by
  induction es generalizing st with
  | nil => exact (List.append_nil _).symm
  | cons e es ih =>
    rw [Server.run, ih]
    cases e with
    | datagram d fetched now =>
      simp only [Server.step, Server.receive, datagrams_handle, List.filterMap_cons, Event.datagram?,
        List.append_assoc, List.singleton_append]
    | turn k t =>
      rcases turn_cases rootAddr st k t with h' | ⟨task, s, -, -, h'⟩ <;>
        simp only [Server.step, h', takeTurn, List.filterMap_cons, Event.datagram?, List.append_nil]
    | delete cr => rfl

/-- Over any events, however the tasks interleave, every datagram received is answered
at most once, and exactly when it is no response and the resolution it started, if any,
has returned: one that panicked or goes on leaves its datagram unanswered. The `i`-th
response composed answers the datagram numbered `answered[i]`. -/
theorem datagrams_answered_once (es : List Event) :
    (init.run rootAddr es).datagrams = es.filterMap Event.datagram? ∧ Accounted (init.run rootAddr es) :=
  ⟨(datagrams_run init es).trans (List.nil_append _), accounted_init.run es⟩

end Server

end RustyDns
