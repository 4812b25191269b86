import RustyDns.Cache.Table
import RustyDns.Resolver.Run

/-!
# Composing the response

The two ways `query_handler` of `workers.rs` builds its response:
`compose_response`, which resolves the request's last question with
`inquiring`, and `cached_compose_response`, which answers from the cache alone
when the request does not ask for recursion. Both answer from a cache row of the
question's name whatever the row's type, so a cached answer has the question's
owner but not necessarily its type. The cache-only path looks at one row, so an
expired row can hide a valid one for the same name, and both paths serve the TTL
the row was stored with, not what is left of it.
-/

namespace RustyDns

namespace Packet

/-- `Packet::add_info`: set the id, `RD`, `RA`, `QR` and the result code. -/
def addInfo (p : Packet) (id : UInt16) (recursionDesired recursionAvailable response : Bool)
    (rescode : ResultCode) : Packet :=
  { p with header := { p.header with id, recursionDesired, recursionAvailable, response, rescode } }

@[simp] theorem answers_addInfo (p : Packet) (id : UInt16) (rd ra qr : Bool) (rc : ResultCode) :
    (p.addInfo id rd ra qr rc).answers = p.answers := rfl

/-- `Packet::error_packet`: an empty response with the result code and id; refused
for `NOERROR`. -/
def errorPacket (rescode : ResultCode) (id : UInt16) : Except String Packet :=
  match rescode with
  | .NOERROR => .error "ResultCode::NOERROR has been provided"
  | _ => .ok { Packet.new with header := { Header.new with rescode, response := true, id } }

end Packet

/-- `compose_response`: the request's last question, resolved by `inquiring` into
`resolved`, with the result's code and sections copied; `SERVFAIL` if resolution
failed, `FORMERR` if there is no question. -/
def composeResponse (request : Packet) (resolved : Except String Packet) : Packet :=
  let response : Packet := { Packet.new with
    header := { Header.new with
      id := request.header.id, recursionDesired := true, recursionAvailable := true,
      response := true } }
  match request.questions.getLast? with
  | none => { response with header := { response.header with rescode := .FORMERR } }
  | some question =>
    match resolved with
    | .ok result =>
      { response with
        header := { response.header with rescode := result.header.rescode }
        questions := [question]
        answers := result.answers
        authorities := result.authorities
        resources := result.resources }
    | .error _ => { response with header := { response.header with rescode := .SERVFAIL } }

/-- What `fetch_all` can return for `domain`: the query selects by `domain` and
has `LIMIT 1`. -/
def Fetched (domain : List UInt8) (fetched : Except String (List CachedRecord)) : Prop :=
  ∀ rows, fetched = .ok rows → rows.length ≤ 1 ∧ ∀ cr ∈ rows, cr.domain = domain

/-- `cached_compose_response`: the request's last question answered from the
cache only, with what `fetch_all` returned for its name. Every arm of the
`while let` loop returns, so only the last row is looked at; a valid row that
`record_from_cache` accepts is the answer, anything else gives `SERVFAIL`. -/
def cachedComposeResponse (request : Packet) (fetched : Except String (List CachedRecord))
    (now : Int) : Packet :=
  let servfail := Packet.new.addInfo request.header.id false true true .SERVFAIL
  match request.questions.getLast? with
  | none => Packet.new.addInfo request.header.id false true true .FORMERR
  | some _ =>
    match fetched with
    | .error _ => servfail
    | .ok rows =>
      match rows.getLast? with
      | none => servfail
      | some cr =>
        if cr.isValid now then
          match Packet.new.addCrToAnswers cr with
          | .ok response =>
            response.addInfo request.header.id false true true response.header.rescode
          | .error _ => servfail
        else servfail

/-- A cache-only response has no answer, or the record of the last row fetched,
when that row is valid. -/
theorem cachedComposeResponse_answers (request : Packet)
    (fetched : Except String (List CachedRecord)) (now : Int) :
    (cachedComposeResponse request fetched now).answers = [] ∨
      ∃ rows cr r, fetched = .ok rows ∧ cr ∈ rows ∧ cr.isValid now = true ∧
        cr.recordFromCache = .ok r ∧ (cachedComposeResponse request fetched now).answers = [r] := by
  unfold cachedComposeResponse
  split
  · exact .inl rfl
  · split
    · exact .inl rfl
    · rename_i rows
      split <;> rename_i hlast
      · exact .inl rfl
      · rename_i cr
        split <;> rename_i hv
        · split <;> rename_i hadd
          · obtain ⟨r, hr, hans⟩ := Packet.addCrToAnswers_ok hadd
            exact .inr ⟨rows, cr, r, rfl, List.mem_of_getLast?_eq_some hlast, hv, hr, by
              rw [Packet.answers_addInfo, hans]
              rfl⟩
          · exact .inl rfl
        · exact .inl rfl

/-- With a question, the cache-only response is `NOERROR` with the record of the
last row fetched as its one answer when that row is valid and `record_from_cache`
accepts it, and `SERVFAIL` with no answer otherwise: no other row is looked at. -/
theorem cachedComposeResponse_of_question {request : Packet} {q : Question}
    (hq : request.questions.getLast? = some q) (fetched : Except String (List CachedRecord))
    (now : Int) :
    (∃ rows cr r, fetched = .ok rows ∧ rows.getLast? = some cr ∧ cr.isValid now = true ∧
        cr.recordFromCache = .ok r ∧
        (cachedComposeResponse request fetched now).header.rescode = .NOERROR ∧
        (cachedComposeResponse request fetched now).answers = [r]) ∨
      ((cachedComposeResponse request fetched now).header.rescode = .SERVFAIL ∧
        (cachedComposeResponse request fetched now).answers = [] ∧
        ∀ rows cr, fetched = .ok rows → rows.getLast? = some cr → cr.isValid now = true →
          ∃ e, cr.recordFromCache = .error e) := by
  unfold cachedComposeResponse
  split <;> rename_i hq'
  · rw [hq] at hq'; cases hq'
  split
  · exact .inr ⟨rfl, rfl, fun _ _ h => nomatch h⟩
  rename_i rows
  split <;> rename_i hl
  · exact .inr ⟨rfl, rfl, fun _ _ h h' => by cases h; rw [hl] at h'; cases h'⟩
  rename_i cr
  split <;> rename_i hv
  · cases hr : cr.recordFromCache with
    | ok r =>
      simp only [Packet.addCrToAnswers, hr]
      exact .inl ⟨rows, cr, r, rfl, hl, hv, hr, rfl, rfl⟩
    | error e =>
      simp only [Packet.addCrToAnswers, hr]
      exact .inr ⟨rfl, rfl, fun _ _ h h' _ => by cases h; rw [hl] at h'; cases h'; exact ⟨e, hr⟩⟩
  · exact .inr ⟨rfl, rfl, fun _ _ h h' hv' => by
      cases h; rw [hl] at h'; cases h'; exact absurd hv' hv⟩

open Resolver in
/-- Both cache paths answer a question `(qname, qtype)` with one record, the one
`record_from_cache` builds from a valid row for `qname`: its owner is `qname`, and its
type is the row's `record_type`, one of `A`, `CNAME`, `MX` and `AAAA`, whatever `qtype` is. -/
theorem cache_answer_from_row {qname : List UInt8} {qtype : QueryType} :
    (∀ {rootAddr : Ipv4Addr} {s : Inquiry} {tr : List (Inquiry × Turn)} {t : Turn} {p : Packet},
      Run qname qtype rootAddr s tr → t.Fits s → consult qname qtype s t.row t.now = .inl p →
      ∃ cr r, t.row = some cr ∧ cr.isValid t.now = true ∧ cr.recordFromCache = .ok r ∧
        p.answers = [r] ∧ r.domain = qname ∧ r.qtype = QueryType.fromNum cr.recordType ∧
        r.qtype ∈ [QueryType.A, .CNAME, .MX, .AAAA]) ∧
    (∀ {request : Packet} {fetched : Except String (List CachedRecord)} {now : Int},
      request.questions.getLast? = some ⟨qname, qtype⟩ → Fetched qname fetched →
      (cachedComposeResponse request fetched now).answers = [] ∨
        ∃ (rows : List CachedRecord) (cr : CachedRecord) (r : Record), fetched = .ok rows ∧
          cr ∈ rows ∧ cr.isValid now = true ∧ cr.recordFromCache = .ok r ∧
          (cachedComposeResponse request fetched now).answers = [r] ∧
          r.domain = qname ∧ r.qtype = QueryType.fromNum cr.recordType ∧
          r.qtype ∈ [QueryType.A, .CNAME, .MX, .AAAA]) := by
  constructor
  · intro rootAddr s tr t p hrun hfit hc
    obtain ⟨hq, cr, hrow, hv, hadd⟩ := consult_inl hc
    obtain ⟨r, hr, hans⟩ := Packet.addCrToAnswers_ok hadd
    obtain ⟨hd, ht, -, hin⟩ := CachedRecord.recordFromCache_ok hr
    refine ⟨cr, r, hrow, hv, hr, hans, ?_, ht, hin⟩
    rw [hd, hfit cr hrow, (hrun.phaseOk.1 hq).1]
  · intro request fetched now _ hf
    rcases cachedComposeResponse_answers request fetched now with
      h | ⟨rows, cr, r, hrows, hmem, hv, hr, hans⟩
    · exact .inl h
    · obtain ⟨hd, ht, -, hin⟩ := CachedRecord.recordFromCache_ok hr
      exact .inr ⟨rows, cr, r, hrows, hmem, hv, hr, hans, hd.trans ((hf rows hrows).2 cr hmem), ht, hin⟩

/-- The row `register_record` writes for the address `1.2.3.4` of `a`, with a
TTL of 60 seconds, at time 0. -/
def rowA : CachedRecord := ⟨5, some [49, 46, 50, 46, 51, 46, 52], none, none, [97], 60, 60, 1⟩

/-- A question for the mail exchanger of `a`, id 7, not asking for recursion. -/
def mxRequest : Packet := ⟨{ Header.new with id := 7, questions := 1 }, [⟨[97], .MX⟩], [], [], []⟩

open Resolver in
/-- Both paths answer the question for the mail exchanger of `a` from the row `rowA`. -/
theorem cache_answer_from_rowA :
    (∃ p : Packet, consult [97] .MX (Inquiry.init [97] .MX rootServer) (some rowA) 0 = .inl p ∧
      ∃ cr r, (some rowA : Option CachedRecord) = some cr ∧ cr.isValid 0 = true ∧
        cr.recordFromCache = .ok r ∧ p.answers = [r] ∧ r.domain = [97] ∧
        r.qtype = QueryType.fromNum cr.recordType ∧ r.qtype ∈ [QueryType.A, .CNAME, .MX, .AAAA]) ∧
    ((cachedComposeResponse mxRequest (.ok [rowA]) 0).answers = [] ∨
      ∃ (rows : List CachedRecord) (cr : CachedRecord) (r : Record),
        (.ok [rowA] : Except String (List CachedRecord)) = .ok rows ∧ cr ∈ rows ∧
        cr.isValid 0 = true ∧ cr.recordFromCache = .ok r ∧
        (cachedComposeResponse mxRequest (.ok [rowA]) 0).answers = [r] ∧
        r.domain = [97] ∧ r.qtype = QueryType.fromNum cr.recordType ∧
        r.qtype ∈ [QueryType.A, .CNAME, .MX, .AAAA]) := by
  obtain ⟨p, hp⟩ : ∃ p, consult [97] .MX (Inquiry.init [97] .MX rootServer) (some rowA) 0 = .inl p :=
    ⟨_, rfl⟩
  have hfit : Turn.Fits ⟨some rowA, 0, .ok (), .error "unused", 0, .ok 6⟩ (Inquiry.init [97] .MX rootServer) := by
    simp [Turn.Fits, rowA, Inquiry.init]
  have hf : Fetched [97] (.ok [rowA]) := fun rows h => by
    cases h
    exact ⟨by decide, by simp [rowA]⟩
  exact ⟨⟨p, hp, (@cache_answer_from_row [97] .MX).1 Run.init hfit hp⟩,
    (@cache_answer_from_row [97] .MX).2 rfl hf⟩

open Resolver in
/-- A question for the mail exchanger of `a` is answered from the cache with the
`A` record of `a` that an earlier resolution registered. -/
theorem cache_answers_mx_with_a :
    (Record.A [97] ⟨1, 2, 3, 4⟩ 60).registerRecord 0 (.ok 5) = .ok (rowA, ⟨1, 2, 3, 4⟩) ∧
      ∃ p, step [97] .MX rootServer (Inquiry.init [97] .MX rootServer)
          ⟨some rowA, 0, .ok (), .error "unused", 0, .ok 6⟩ = (none, .returned (.ok p)) ∧
        p.answers = [.A [97] ⟨1, 2, 3, 4⟩ 60] ∧ (Record.A [97] ⟨1, 2, 3, 4⟩ 60).qtype ≠ .MX :=
  ⟨rfl, _, rfl, rfl, by decide⟩

/-! ## Answers from a table that `register_record` filled -/

open Resolver in
/-- When the row comes from a reachable table, the cache answers the question
`(qname, qtype)` with one `A` record of `qname`, whatever `qtype` is. -/
theorem consult_answer_of_reachable {qname : List UInt8} {qtype : QueryType} {rootAddr : Ipv4Addr}
    {table : List CachedRecord} {s : Inquiry} {tr : List (Inquiry × Turn)} {t : Turn} {p : Packet}
    (ht : Reachable table) (hrun : Run qname qtype rootAddr s tr) (hfit : t.Fits s)
    (hrow : ∀ cr ∈ t.row, cr ∈ table) (hc : consult qname qtype s t.row t.now = .inl p) :
    ∃ addr ttl, p.answers = [.A qname addr ttl] := by
  obtain ⟨hq, cr, hcr, -, hadd⟩ := consult_inl hc
  obtain ⟨r, hr, hans⟩ := Packet.addCrToAnswers_ok hadd
  obtain ⟨addr, hreg⟩ := ht.registered cr (hrow cr hcr)
  rw [hreg] at hr
  cases hr
  refine ⟨addr, cr.ttl, ?_⟩
  rw [hans, hfit cr hcr, (hrun.phaseOk.1 hq).1]
  rfl

open Resolver in
/-- The table that one resolution of `a` left answers the question for `a` from the
cache at the first turn. -/
theorem consult_answer_of_reachable_rowA :
    Reachable [rowA] ∧ Run [97] .A rootServer (Inquiry.init [97] .A rootServer) [] ∧
      Turn.Fits ⟨some rowA, 0, .ok (), .error "unused", 0, .ok 6⟩ (Inquiry.init [97] .A rootServer) ∧
      ∃ p, consult [97] .A (Inquiry.init [97] .A rootServer) (some rowA) 0 = .inl p ∧
        ∃ addr ttl, p.answers = [.A [97] addr ttl] := by
  have hreg : (Record.A [97] ⟨1, 2, 3, 4⟩ 60).registerRecord 0 (.ok 5) = .ok (rowA, ⟨1, 2, 3, 4⟩) :=
    rfl
  have ht : Reachable [rowA] := .single (.insert hreg)
  have hfit : Turn.Fits ⟨some rowA, 0, .ok (), .error "unused", 0, .ok 6⟩ (Inquiry.init [97] .A rootServer) :=
    fun cr h => by cases h; rfl
  obtain ⟨p, hp⟩ : ∃ p, consult [97] .A (Inquiry.init [97] .A rootServer) (some rowA) 0 = .inl p :=
    ⟨_, rfl⟩
  exact ⟨ht, .init, hfit, p, hp,
    consult_answer_of_reachable ht .init hfit (fun cr h => by cases h; exact List.mem_singleton_self _) hp⟩

/-- When what `fetch_all` returns comes from a reachable table, the cache-only
path answers with nothing or with one `A` record of the name asked for. -/
theorem cachedComposeResponse_answer_of_reachable {table : List CachedRecord} {domain : List UInt8}
    {request : Packet} {fetched : Except String (List CachedRecord)} {now : Int}
    (ht : Reachable table) (hf : FetchedFrom table domain fetched) :
    (cachedComposeResponse request fetched now).answers = [] ∨
      ∃ addr ttl, (cachedComposeResponse request fetched now).answers = [.A domain addr ttl] := by
  rcases cachedComposeResponse_answers request fetched now with
    h | ⟨rows, cr, r, hrows, hmem, -, hr, hans⟩
  · exact .inl h
  · obtain ⟨hct, hd⟩ := (hf rows hrows).2.1 cr hmem
    obtain ⟨addr, hreg⟩ := ht.registered cr hct
    rw [hreg] at hr
    cases hr
    exact .inr ⟨addr, cr.ttl, by rw [hans, hd]⟩

/-- The table that one resolution of `a` left, and the cache-only answer from it. -/
theorem cachedComposeResponse_answer_of_reachable_rowA :
    Reachable [rowA] ∧ FetchedFrom [rowA] [97] (.ok [rowA]) ∧
      ((cachedComposeResponse mxRequest (.ok [rowA]) 0).answers = [] ∨
        ∃ addr ttl, (cachedComposeResponse mxRequest (.ok [rowA]) 0).answers = [.A [97] addr ttl]) :=
  have hreg : (Record.A [97] ⟨1, 2, 3, 4⟩ 60).registerRecord 0 (.ok 5) = .ok (rowA, ⟨1, 2, 3, 4⟩) :=
    rfl
  have ht : Reachable [rowA] := .single (.insert hreg)
  have hf : FetchedFrom [rowA] [97] (.ok [rowA]) := fun rows h => by
    cases h
    exact ⟨by decide, by decide, nofun⟩
  ⟨ht, hf, cachedComposeResponse_answer_of_reachable ht hf⟩

/-- The row `register_record` writes for the address `1.2.3.4` of `a`, with a TTL
of 60 seconds, at time -60: it expires at time 0. -/
def rowAExpired : CachedRecord :=
  ⟨4, some [49, 46, 50, 46, 51, 46, 52], none, none, [97], 0, 60, 1⟩

/-- A question for the address of `a`, id 7, not asking for recursion. -/
def aRequest : Packet := ⟨{ Header.new with id := 7, questions := 1 }, [⟨[97], .A⟩], [], [], []⟩

/-- When `LIMIT 1` returns the expired one of two rows for `a`, the cache-only path
answers `SERVFAIL`, though the table holds a valid row. -/
theorem cachedComposeResponse_expiredDuplicate :
    Reachable [rowAExpired, rowA] ∧ FetchedFrom [rowAExpired, rowA] [97] (.ok [rowAExpired]) ∧
      rowA.isValid 30 = true ∧ rowA.recordFromCache = .ok (.A [97] ⟨1, 2, 3, 4⟩ 60) ∧
      (cachedComposeResponse aRequest (.ok [rowAExpired]) 30).header.rescode = .SERVFAIL ∧
      (cachedComposeResponse aRequest (.ok [rowAExpired]) 30).answers = [] := by
  have h₁ : (Record.A [97] ⟨1, 2, 3, 4⟩ 60).registerRecord (-60) (.ok 4) =
      .ok (rowAExpired, ⟨1, 2, 3, 4⟩) := rfl
  have h₂ : (Record.A [97] ⟨1, 2, 3, 4⟩ 60).registerRecord 0 (.ok 5) =
      .ok (rowA, ⟨1, 2, 3, 4⟩) := rfl
  refine ⟨.tail (.tail .refl (.insert h₁)) (.insert h₂), fun rows h => ?_, rfl, rfl, rfl, rfl⟩
  cases h
  exact ⟨by decide, by decide, fun h => nomatch h⟩

/-! ## The TTL of a cached answer -/

open Resolver in
/-- Both cache paths serve a valid row inserted for `A{d, a, τ}` as `A{d, a, τ}`: the
TTL is the one stored, however long the row has been in the cache. -/
theorem cache_serves_stored_ttl {d : List UInt8} {a : Ipv4Addr} {τ : UInt32} {t0 now : Int}
    {insert : Except String UInt32} {row : CachedRecord}
    (hreg : (Record.A d a τ).registerRecord t0 insert = .ok (row, a))
    (hv : row.isValid now = true) :
    now ≤ t0 + τ.toNat ∧
      (∀ (qname : List UInt8) (qtype : QueryType) (s : Inquiry), s.searchForQname = true →
        ∃ p, handlingRecord qname qtype row now s = (some p, s) ∧ p.answers = [.A d a τ]) ∧
      ∀ (request : Packet) (q : Question), request.questions.getLast? = some q →
        (cachedComposeResponse request (.ok [row]) now).answers = [.A d a τ] := by
  have hr := recordFromCache_registerRecord hreg
  obtain ⟨id, -, he⟩ := bind_eq_ok.mp hreg
  cases he
  refine ⟨of_decide_eq_true hv, fun qname qtype s hs => ?_, fun request q hq => ?_⟩
  · simp only [handlingRecord, hv, hs, Packet.addCrToAnswers, hr, if_true, Bool.not_true]
    exact ⟨_, rfl, rfl⟩
  · simp only [cachedComposeResponse, hq, List.getLast?_singleton, hv, Packet.addCrToAnswers, hr,
      if_true]
    rfl

open Resolver in
/-- The stored TTL served from the row `rowA`, inserted at time 0 with a TTL of 60
seconds and served at time 30. -/
theorem cache_serves_stored_ttl_rowA :
    (Record.A [97] ⟨1, 2, 3, 4⟩ 60).registerRecord 0 (.ok 5) = .ok (rowA, ⟨1, 2, 3, 4⟩) ∧
      rowA.isValid 30 = true ∧ (30 ≤ (0 : Int) + (60 : UInt32).toNat ∧
      (∀ (qname : List UInt8) (qtype : QueryType) (s : Inquiry), s.searchForQname = true →
        ∃ p, handlingRecord qname qtype rowA 30 s = (some p, s) ∧
          p.answers = [.A [97] ⟨1, 2, 3, 4⟩ 60]) ∧
      ∀ (request : Packet) (q : Question), request.questions.getLast? = some q →
        (cachedComposeResponse request (.ok [rowA]) 30).answers = [.A [97] ⟨1, 2, 3, 4⟩ 60]) :=
  have hreg : (Record.A [97] ⟨1, 2, 3, 4⟩ 60).registerRecord 0 (.ok 5) = .ok (rowA, ⟨1, 2, 3, 4⟩) :=
    rfl
  ⟨hreg, rfl, cache_serves_stored_ttl hreg rfl⟩

open Resolver in
/-- Thirty seconds after `rowA` was inserted with a TTL of 60 seconds, both cache
paths still serve it with a TTL of 60, where 30 seconds remain. -/
theorem cache_serves_ttl_past_expiry :
    (Record.A [97] ⟨1, 2, 3, 4⟩ 60).registerRecord 0 (.ok 5) = .ok (rowA, ⟨1, 2, 3, 4⟩) ∧
      rowA.isValid 30 = true ∧
      handlingRecord [97] .A rowA 30 (Inquiry.init [97] .A rootServer) =
        (some ⟨{ Header.new with answers := 1 }, [], [.A [97] ⟨1, 2, 3, 4⟩ 60], [], []⟩,
          Inquiry.init [97] .A rootServer) ∧
      (cachedComposeResponse aRequest (.ok [rowA]) 30).answers = [.A [97] ⟨1, 2, 3, 4⟩ 60] ∧
      (0 : Int) + (60 : UInt32).toNat - 30 < (60 : UInt32).toNat :=
  ⟨rfl, rfl, rfl, rfl, by decide⟩

end RustyDns
