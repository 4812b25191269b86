import RustyDns.Cache.Row
import RustyDns.Message.Packet
import RustyDns.Message.Sections

/-!
# One turn of the resolver

A turn of `inquiring`'s loop consults the cache (`handling_record`), asks the current
nameserver (`lookup`), and then returns or sets the four loop variables. What the world
gives a turn is a `Turn`; each property of a turn is proved here once, from its branches.
-/

namespace RustyDns

namespace Resolver

/-- The variables of `inquiring`'s loop. `searchForQname` is the phase: true while
the question itself is asked, false while a nameserver's address is looked up. -/
structure Inquiry where
  currentNs : Ipv4Addr
  currentlyQuering : List UInt8
  currentType : QueryType
  searchForQname : Bool
  deriving DecidableEq, Repr

/-- The variables before the first turn. -/
def Inquiry.init (qname : List UInt8) (qtype : QueryType) (rootAddr : Ipv4Addr) : Inquiry :=
  ⟨rootAddr, qname, qtype, true⟩

/-- What the world answers in one turn. -/
structure Turn where
  /-- The row `fetch_one` found for the name being queried, if any. -/
  row : Option CachedRecord
  /-- The clock when `is_valid` reads it. -/
  now : Int
  /-- What binding `lookup`'s socket gives. -/
  bound : Except String Unit
  /-- What the bound socket gets back: the packet `Packet::from_buffer` parsed from
  the reply, or the error of `send_to`, `recv_from` or the parser. -/
  reply : Except String Packet
  /-- The clock when `register_record` reads it. -/
  registeredAt : Int
  /-- The database's answer to the `INSERT` of `register_record`. -/
  insert : Except String UInt32

/-- The rows `fetch_one` can return: the query selects rows by their `domain`. -/
def Turn.Fits (t : Turn) (s : Inquiry) : Prop := ∀ cr ∈ t.row, cr.domain = s.currentlyQuering

section

variable (qname : List UInt8) (qtype : QueryType) (rootAddr : Ipv4Addr)

/-- `handling_record`: a valid row answers the question in the qname phase; in the
nameserver phase the row's `domain` is parsed as the nameserver's address and the
question is taken up again. An expired row is deleted. -/
def handlingRecord (record : CachedRecord) (now : Int) (s : Inquiry) : Option Packet × Inquiry :=
  if record.isValid now then
    if !s.searchForQname then
      match Ipv4Addr.fromStr record.domain with
      | .ok ip => (none, ⟨ip, qname, qtype, true⟩)
      | .error _ => (none, s)
    else
      match Packet.new.addCrToAnswers record with
      | .ok response => (some response, s)
      | .error _ => (none, s)
  else (none, s)

/-- The cache half of a turn: the packet `handling_record` answers with, or the
variables `lookup` is called with. -/
def consult (s : Inquiry) (row : Option CachedRecord) (now : Int) : Packet ⊕ Inquiry :=
  match row with
  | none => .inr s
  | some cr =>
    match handlingRecord qname qtype cr now s with
    | (some record, _) => .inl record
    | (none, s) => .inr s

/-- The query `lookup` sends: id 999, recursion desired, one question. -/
def lookupPacket : Packet :=
  ⟨{ Header.new with id := 999, questions := 1, recursionDesired := true }, [⟨qname, qtype⟩],
    [], [], []⟩

/-- `lookup`: the socket is bound, and the query is written into a fresh buffer,
which fails for a name that does not fit; the world's `reply` stands for the rest. -/
def lookup (bound : Except String Unit) (reply : Except String Packet) :
    Except String Packet := do
  bound
  let _ ← (lookupPacket qname qtype).write BytePacketBuffer.new
  reply

/-- How a turn ends: the loop goes on with new variables, `inquiring` returns, or
it panics. -/
inductive Outcome where
  | next (s : Inquiry)
  | returned (result : Except String Packet)
  | panicked

/-- `record.register_record(&db_pool).await?` and then `k` on the address: a
failed insert returns from `inquiring` with the error. -/
def afterRegister (record : Record) (t : Turn) (k : Ipv4Addr → Outcome) : Outcome :=
  match record.registerRecord t.registeredAt t.insert with
  | .ok (_, addr) => k addr
  | .error e => .returned (.error e)

/-- The rest of a turn, once `lookup` has returned `response`: the record given
to `register_record`, if any, and how the turn ends. -/
def answer (s : Inquiry) (response : Packet) (t : Turn) : Option Record × Outcome :=
  match (if !s.searchForQname then response.getRandomARec else none) with
  | some record =>
    (some record, afterRegister record t fun addr => .next ⟨addr, qname, qtype, true⟩)
  | none =>
    if !response.answers.isEmpty && response.header.rescode == .NOERROR then
      match response.getRandomARec with
      | none => (none, .panicked)
      | some record => (some record, afterRegister record t fun _ => .returned (.ok response))
    else if response.header.rescode == .NXDOMAIN then (none, .returned (.ok response))
    else
      match response.getResolvedNs s.currentlyQuering with
      | some record =>
        (some record, afterRegister record t fun addr => .next { s with currentNs := addr })
      | none =>
        match response.getUnresolvedNs s.currentlyQuering with
        | some host => (none, .next ⟨rootAddr, host, .A, false⟩)
        | none => (none, .returned (.ok response))

/-- One turn of `inquiring`'s loop from the variables `s`: the record given to
`register_record`, if any, and how the turn ends. -/
def step (s : Inquiry) (t : Turn) : Option Record × Outcome :=
  match consult qname qtype s t.row t.now with
  | .inl record => (none, .returned (.ok record))
  | .inr s =>
    match lookup s.currentlyQuering s.currentType t.bound t.reply with
    | .error e => (none, .returned (.error e))
    | .ok response => answer qname qtype rootAddr s response t

/-! ## The cache half -/

variable {qname qtype rootAddr}

theorem handlingRecord_some {cr : CachedRecord} {now : Int} {s s₁ : Inquiry} {p : Packet}
    (h : handlingRecord qname qtype cr now s = (some p, s₁)) :
    s.searchForQname = true ∧ cr.isValid now = true ∧ Packet.new.addCrToAnswers cr = .ok p := by
  unfold handlingRecord at h
  split at h <;> rename_i hv
  · split at h <;> rename_i hph
    · split at h <;> cases h
    · split at h <;> rename_i hadd <;> cases h
      exact ⟨by simpa using hph, hv, hadd⟩
  · cases h

theorem handlingRecord_none {cr : CachedRecord} {now : Int} {s s₁ : Inquiry}
    (h : handlingRecord qname qtype cr now s = (none, s₁)) :
    s₁ = s ∨ s.searchForQname = false ∧ cr.isValid now = true ∧
      Ipv4Addr.fromStr cr.domain = .ok s₁.currentNs ∧ s₁ = ⟨s₁.currentNs, qname, qtype, true⟩ := by
  unfold handlingRecord at h
  split at h <;> rename_i hv
  · split at h <;> rename_i hph
    · split at h <;> rename_i hip <;> cases h
      · exact .inr ⟨by simpa using hph, hv, hip, rfl⟩
      · exact .inl rfl
    · split at h <;> cases h
      exact .inl rfl
  · cases h
    exact .inl rfl

/-- The cache answers only in the qname phase, with the record of a valid row. -/
theorem consult_inl {s : Inquiry} {row : Option CachedRecord} {now : Int} {p : Packet}
    (h : consult qname qtype s row now = .inl p) :
    s.searchForQname = true ∧ ∃ cr, row = some cr ∧ cr.isValid now = true ∧
      Packet.new.addCrToAnswers cr = .ok p := by
  unfold consult at h
  split at h
  · cases h
  · rename_i cr
    split at h <;> rename_i hh <;> cases h
    obtain ⟨hph, hv, hadd⟩ := handlingRecord_some hh
    exact ⟨hph, cr, rfl, hv, hadd⟩

/-- Unless the cache answers, `lookup` starts from the same variables, or, in the
nameserver phase, from the address parsed out of a valid row's `domain`, with the
question taken up again. -/
theorem consult_inr {s s₁ : Inquiry} {row : Option CachedRecord} {now : Int}
    (h : consult qname qtype s row now = .inr s₁) :
    s₁ = s ∨ s.searchForQname = false ∧ ∃ cr, row = some cr ∧ cr.isValid now = true ∧
      Ipv4Addr.fromStr cr.domain = .ok s₁.currentNs ∧ s₁ = ⟨s₁.currentNs, qname, qtype, true⟩ := by
  unfold consult at h
  split at h
  · cases h
    exact .inl rfl
  · rename_i cr
    split at h <;> rename_i hh <;> cases h
    rcases handlingRecord_none hh with rfl | ⟨hph, hv, hip, he⟩
    · exact .inl rfl
    · exact .inr ⟨hph, cr, rfl, hv, hip, he⟩

/-! ## The rest of a turn -/

theorem afterRegister_eq {record : Record} {t : Turn} {k : Ipv4Addr → Outcome} {o : Outcome}
    (h : afterRegister record t k = o) :
    (∃ d addr ttl, record = .A d addr ttl ∧ k addr = o) ∨ ∃ e, o = .returned (.error e) := by
  unfold afterRegister at h
  split at h
  · rename_i hr
    obtain ⟨d, ttl, rfl⟩ := Record.registerRecord_ok hr
    exact .inl ⟨d, _, ttl, rfl, h⟩
  · exact .inr ⟨_, h.symm⟩

variable {s s' : Inquiry} {response : Packet} {t : Turn} {reg : Option Record}

/-- Everything the rest of a turn can do, by the branch the code takes: the
nameserver phase ends on an `A` answer; an answer arrives (and without an `A`
record the `unwrap` panics); an `NXDOMAIN` is returned; glue is followed; an
unresolved nameserver is looked up from the root; or the response is returned. -/
theorem answer_cases {a : Option Record × Outcome}
    (h : answer qname qtype rootAddr s response t = a) :
    (∃ r, s.searchForQname = false ∧ response.getRandomARec = some r ∧
      a = (some r, afterRegister r t fun addr => .next ⟨addr, qname, qtype, true⟩)) ∨
    (response.answers ≠ [] ∧ response.header.rescode = .NOERROR ∧
      (response.getRandomARec = none ∧ a = (none, .panicked) ∨
        ∃ r, s.searchForQname = true ∧ response.getRandomARec = some r ∧
          a = (some r, afterRegister r t fun _ => .returned (.ok response)))) ∨
    (response.header.rescode = .NXDOMAIN ∧ a = (none, .returned (.ok response))) ∨
    (∃ r, response.getResolvedNs s.currentlyQuering = some r ∧
      a = (some r, afterRegister r t fun addr => .next { s with currentNs := addr })) ∨
    (∃ host, response.getUnresolvedNs s.currentlyQuering = some host ∧
      a = (none, .next ⟨rootAddr, host, .A, false⟩)) ∨
    (response.getResolvedNs s.currentlyQuering = none ∧
      response.getUnresolvedNs s.currentlyQuering = none ∧
      a = (none, .returned (.ok response))) := by
  unfold answer at h
  split at h <;> rename_i hf
  · subst h
    split at hf <;> rename_i hs
    · exact .inl ⟨_, by simpa using hs, hf, rfl⟩
    · cases hf
  · split at h <;> rename_i hc
    · simp only [Bool.and_eq_true, Bool.not_eq_true', List.isEmpty_eq_false, beq_iff_eq] at hc
      split at h <;> rename_i hr <;> subst h
      · exact .inr (.inl ⟨hc.1, hc.2, .inl ⟨hr, rfl⟩⟩)
      · refine .inr (.inl ⟨hc.1, hc.2, .inr ⟨_, ?_, hr, rfl⟩⟩)
        cases hs : s.searchForQname
        · simp only [hs, Bool.not_false, if_true, hr, reduceCtorEq] at hf
        · rfl
    · split at h <;> rename_i hnx
      · exact .inr (.inr (.inl ⟨by simpa using hnx, h.symm⟩))
      · split at h <;> rename_i hg <;> subst h
        · exact .inr (.inr (.inr (.inl ⟨_, hg, rfl⟩)))
        · split <;> rename_i hu
          · exact .inr (.inr (.inr (.inr (.inl ⟨_, hu, rfl⟩))))
          · exact .inr (.inr (.inr (.inr (.inr ⟨hg, hu, rfl⟩))))

/-- A turn that goes on either registered an `A` record and took its address as
the nameserver, returning to the question or staying in its phase; or it
follows an unresolved nameserver from the root. -/
theorem answer_next (h : answer qname qtype rootAddr s response t = (reg, .next s')) :
    (∃ d ttl, reg = some (.A d s'.currentNs ttl) ∧
      (s' = ⟨s'.currentNs, qname, qtype, true⟩ ∨ s' = { s with currentNs := s'.currentNs })) ∨
    ∃ host, response.getUnresolvedNs s.currentlyQuering = some host ∧
      s' = ⟨rootAddr, host, .A, false⟩ := by
  rcases answer_cases h with ⟨r, -, -, ha⟩ | ⟨-, -, ⟨-, ⟨⟩⟩ | ⟨r, -, -, ha⟩⟩ | ⟨-, ⟨⟩⟩ |
    ⟨r, -, ha⟩ | ⟨host, hu, ⟨⟩⟩ | ⟨-, -, ⟨⟩⟩
  · obtain ⟨rfl, ho⟩ := Prod.mk.inj ha
    obtain ⟨d, addr, ttl, rfl, ⟨⟩⟩ | ⟨_, ⟨⟩⟩ := afterRegister_eq ho.symm
    exact .inl ⟨d, ttl, rfl, .inl rfl⟩
  · obtain ⟨_, _, _, _, ⟨⟩⟩ | ⟨_, ⟨⟩⟩ := afterRegister_eq (Prod.mk.inj ha).2.symm
  · obtain ⟨rfl, ho⟩ := Prod.mk.inj ha
    obtain ⟨d, addr, ttl, rfl, ⟨⟩⟩ | ⟨_, ⟨⟩⟩ := afterRegister_eq ho.symm
    exact .inl ⟨d, ttl, rfl, .inr rfl⟩
  · exact .inr ⟨host, hu, rfl⟩

/-- Only an `A` record is ever registered: the first `A` record of the answers, or
the glue `get_resolved_ns` picks for the name being queried. -/
theorem answer_registered {r : Record} {o : Outcome}
    (h : answer qname qtype rootAddr s response t = (some r, o)) :
    r.IsA ∧
      (response.getRandomARec = some r ∨ response.getResolvedNs s.currentlyQuering = some r) := by
  suffices response.getRandomARec = some r ∨ response.getResolvedNs s.currentlyQuering = some r by
    refine ⟨?_, this⟩
    rcases this with hr | hr
    · exact (Packet.getRandomARec_some hr).2
    · obtain ⟨-, -, -, -, -, rfl, -⟩ := Packet.getResolvedNs_some hr
      trivial
  rcases answer_cases h with ⟨_, -, hr, ⟨⟩⟩ | ⟨-, -, ⟨-, ⟨⟩⟩ | ⟨_, -, hr, ⟨⟩⟩⟩ | ⟨-, ⟨⟩⟩ |
    ⟨_, hr, ⟨⟩⟩ | ⟨_, -, ⟨⟩⟩ | ⟨-, -, ⟨⟩⟩
  · exact .inl hr
  · exact .inl hr
  · exact .inr hr

/-- A turn panics exactly when the answer section is not empty, the result code is
`NOERROR` and no answer is an `A` record, whatever the phase: in the nameserver
phase such a response skips the nameserver step and reaches the `unwrap`. -/
theorem answer_panicked_iff :
    (answer qname qtype rootAddr s response t).2 = .panicked ↔
      response.answers ≠ [] ∧ response.header.rescode = .NOERROR ∧
        response.getRandomARec = none := by
  constructor
  · intro h
    obtain ⟨reg, ha⟩ : ∃ reg, answer qname qtype rootAddr s response t = (reg, .panicked) :=
      ⟨_, Prod.ext rfl h⟩
    rcases answer_cases ha with ⟨_, -, -, ha⟩ | ⟨hne, hno, ⟨hr, -⟩ | ⟨_, -, -, ha⟩⟩ | ⟨-, ⟨⟩⟩ |
      ⟨_, -, ha⟩ | ⟨_, -, ⟨⟩⟩ | ⟨-, -, ⟨⟩⟩
    · obtain ⟨_, _, _, _, ⟨⟩⟩ | ⟨_, ⟨⟩⟩ := afterRegister_eq (Prod.mk.inj ha).2.symm
    · exact ⟨hne, hno, hr⟩
    all_goals obtain ⟨_, _, _, _, ⟨⟩⟩ | ⟨_, ⟨⟩⟩ := afterRegister_eq (Prod.mk.inj ha).2.symm
  · rintro ⟨hne, hno, hr⟩
    have hc : (!response.answers.isEmpty && response.header.rescode == .NOERROR) = true := by
      simpa only [Bool.and_eq_true, Bool.not_eq_true', List.isEmpty_eq_false, beq_iff_eq]
        using And.intro hne hno
    simp only [answer, hr, ite_self, hc, if_true]

/-- What a turn returns from upstream is the response itself; in the nameserver
phase only an `NXDOMAIN` or a response with no nameserver for the name queried is
returned. -/
theorem answer_returned_ok {p : Packet}
    (h : answer qname qtype rootAddr s response t = (reg, .returned (.ok p))) :
    p = response ∧ (s.searchForQname = true ∨ response.header.rescode = .NXDOMAIN ∨
      response.getResolvedNs s.currentlyQuering = none ∧
        response.getUnresolvedNs s.currentlyQuering = none) := by
  rcases answer_cases h with ⟨_, -, -, ha⟩ | ⟨-, -, ⟨-, ⟨⟩⟩ | ⟨_, hs, -, ha⟩⟩ | ⟨hnx, ⟨⟩⟩ |
    ⟨_, -, ha⟩ | ⟨_, -, ⟨⟩⟩ | ⟨hg, hu, ⟨⟩⟩
  · obtain ⟨_, _, _, _, ⟨⟩⟩ | ⟨_, ⟨⟩⟩ := afterRegister_eq (Prod.mk.inj ha).2.symm
  · obtain ⟨_, _, _, _, ⟨⟩⟩ | ⟨_, ⟨⟩⟩ := afterRegister_eq (Prod.mk.inj ha).2.symm
    exact ⟨rfl, .inl hs⟩
  · exact ⟨rfl, .inr (.inl hnx)⟩
  · obtain ⟨_, _, _, _, ⟨⟩⟩ | ⟨_, ⟨⟩⟩ := afterRegister_eq (Prod.mk.inj ha).2.symm
  · exact ⟨rfl, .inr (.inr ⟨hg, hu⟩)⟩

/-! ## A whole turn -/

theorem lookup_ok {q : List UInt8} {ty : QueryType} {bound : Except String Unit}
    {reply : Except String Packet} {p : Packet} (h : lookup q ty bound reply = .ok p) :
    reply = .ok p := by
  unfold lookup at h
  obtain ⟨_, _, h⟩ := bind_eq_ok.mp h
  obtain ⟨_, _, hr⟩ := bind_eq_ok.mp h
  exact hr

/-- A turn either returns the cache's answer, or returns `lookup`'s error, or
ends as `answer` says on the response. -/
theorem step_cases {o : Outcome} (h : step qname qtype rootAddr s t = (reg, o)) :
    (∃ p, consult qname qtype s t.row t.now = .inl p ∧ reg = none ∧ o = .returned (.ok p)) ∨
    ∃ s₁, consult qname qtype s t.row t.now = .inr s₁ ∧
      ((∃ e, reg = none ∧ o = .returned (.error e)) ∨
        ∃ response, t.reply = .ok response ∧
          answer qname qtype rootAddr s₁ response t = (reg, o)) := by
  unfold step at h
  split at h <;> rename_i hc
  · cases h
    exact .inl ⟨_, hc, rfl, rfl⟩
  · split at h <;> rename_i hl
    · cases h
      exact .inr ⟨_, hc, .inl ⟨_, rfl, rfl⟩⟩
    · exact .inr ⟨_, hc, .inr ⟨_, lookup_ok hl, h⟩⟩

end

end Resolver

end RustyDns
