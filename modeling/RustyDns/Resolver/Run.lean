import RustyDns.Resolver.Step

/-!
# Runs of the resolver

A run of `inquiring` is the sequence of turns its loop goes through, each driven by any
cache row, reply and database answer; the loop over a list of turns goes through a run
(`inquiring_run`). The invariants of a run follow by induction from what one turn can do.
-/

namespace RustyDns

namespace Resolver

section

variable (qname : List UInt8) (qtype : QueryType) (rootAddr : Ipv4Addr)

/-- A run of `inquiring` for `qname` and `qtype` from `rootAddr`: the variables at
the head of the loop, and the turns before, oldest first, each with the variables
it started from. -/
inductive Run : Inquiry → List (Inquiry × Turn) → Prop
  | init : Run (Inquiry.init qname qtype rootAddr) []
  | next {s s' : Inquiry} {tr : List (Inquiry × Turn)} {t : Turn} {reg : Option Record} :
      Run s tr → t.Fits s → step qname qtype rootAddr s t = (reg, .next s') →
      Run s' (tr ++ [(s, t)])

/-- `inquiring`'s loop over the world's turns, one a turn: how it ends, or the
variables at the head of the loop when the turns run out. -/
def inquiring : Inquiry → List Turn → Outcome
  | s, [] => .next s
  | s, t :: ts =>
    match (step qname qtype rootAddr s t).2 with
    | .next s' => inquiring s' ts
    | o => o

/-- Turns that a run can take from `s`: each row is one that `fetch_one` can
return for the variables the turn starts from. -/
def FitsAlong : Inquiry → List Turn → Prop
  | _, [] => True
  | s, t :: ts => t.Fits s ∧ ∀ s', (step qname qtype rootAddr s t).2 = .next s' → FitsAlong s' ts

/-- The phase invariant: the qname phase asks the question itself, the
nameserver phase asks for an address. -/
def PhaseOk (s : Inquiry) : Prop :=
  (s.searchForQname = true → s.currentlyQuering = qname ∧ s.currentType = qtype) ∧
    (s.searchForQname = false → s.currentType = .A)

variable {qname qtype rootAddr}

theorem phaseOk_init : PhaseOk qname qtype (Inquiry.init qname qtype rootAddr) :=
  ⟨fun _ => ⟨rfl, rfl⟩, fun h => Bool.noConfusion h⟩

theorem consult_phaseOk {s s₁ : Inquiry} {row : Option CachedRecord} {now : Int}
    (hs : PhaseOk qname qtype s) (h : consult qname qtype s row now = .inr s₁) :
    PhaseOk qname qtype s₁ := by
  rcases consult_inr h with rfl | ⟨-, -, -, -, -, he⟩
  · exact hs
  · rw [he]
    exact ⟨fun _ => ⟨rfl, rfl⟩, fun h => Bool.noConfusion h⟩

theorem step_phaseOk {s s' : Inquiry} {t : Turn} {reg : Option Record}
    (hs : PhaseOk qname qtype s) (h : step qname qtype rootAddr s t = (reg, .next s')) :
    PhaseOk qname qtype s' := by
  rcases step_cases h with ⟨_, -, -, ho⟩ | ⟨s₁, hc, ⟨_, -, ho⟩ | ⟨response, -, ha⟩⟩
  · cases ho
  · cases ho
  · have h₁ := consult_phaseOk hs hc
    rcases answer_next ha with ⟨-, -, -, he | he⟩ | ⟨host, -, he⟩ <;> rw [he]
    · exact ⟨fun _ => ⟨rfl, rfl⟩, fun h => Bool.noConfusion h⟩
    · exact h₁
    · exact ⟨fun h => Bool.noConfusion h, fun _ => rfl⟩

theorem Run.phaseOk {s : Inquiry} {tr : List (Inquiry × Turn)}
    (h : Run qname qtype rootAddr s tr) : PhaseOk qname qtype s := by
  induction h with
  | init => exact phaseOk_init
  | next _ _ hstep ih => exact step_phaseOk ih hstep

/-- Whatever rows and replies the world gives, the loop keeps the phase invariant at
its head. -/
theorem inquiring_phaseOk {s s' : Inquiry} {ts : List Turn} (hs : PhaseOk qname qtype s)
    (h : inquiring qname qtype rootAddr s ts = .next s') : PhaseOk qname qtype s' := by
  induction ts generalizing s with
  | nil => cases h; exact hs
  | cons t ts ih =>
    cases ho : (step qname qtype rootAddr s t).2 with
    | next s₁ =>
      simp only [inquiring, ho] at h
      exact ih (step_phaseOk hs (Prod.ext rfl ho)) h
    | returned _ | panicked => simp [inquiring, ho] at h

/-- The phase invariant holds before the first turn, every turn that goes on keeps
it, whichever of its branches it takes, and so it holds at the head of the loop
after any turns, with any rows, valid, expired or malformed, and any replies. -/
theorem phaseOk_invariant :
    PhaseOk qname qtype (Inquiry.init qname qtype rootAddr) ∧
      (∀ (s s' : Inquiry) (t : Turn) (reg : Option Record), PhaseOk qname qtype s →
        step qname qtype rootAddr s t = (reg, .next s') → PhaseOk qname qtype s') ∧
      ∀ (ts : List Turn) (s' : Inquiry),
        inquiring qname qtype rootAddr (Inquiry.init qname qtype rootAddr) ts = .next s' →
          PhaseOk qname qtype s' :=
  ⟨phaseOk_init, fun _ _ _ _ hs h => step_phaseOk hs h,
    fun _ _ h => inquiring_phaseOk phaseOk_init h⟩

/-- The loop goes through a run: it is left at the head of the loop of a run, or
it ends as a turn from the head of the loop of a run ends. -/
theorem inquiring_run {s : Inquiry} {tr : List (Inquiry × Turn)} {ts : List Turn}
    (hrun : Run qname qtype rootAddr s tr) (hfit : FitsAlong qname qtype rootAddr s ts) :
    (∃ s' tr', inquiring qname qtype rootAddr s ts = .next s' ∧ Run qname qtype rootAddr s' tr') ∨
      ∃ s' tr' t, Run qname qtype rootAddr s' tr' ∧ t.Fits s' ∧
        (step qname qtype rootAddr s' t).2 = inquiring qname qtype rootAddr s ts ∧
        ∀ s'', inquiring qname qtype rootAddr s ts ≠ .next s'' := by
  induction ts generalizing s tr with
  | nil => exact .inl ⟨s, tr, rfl, hrun⟩
  | cons t ts ih =>
    obtain ⟨ht, hnext⟩ := hfit
    cases ho : (step qname qtype rootAddr s t).2 with
    | next s' =>
      have hs : inquiring qname qtype rootAddr s (t :: ts) = inquiring qname qtype rootAddr s' ts := by
        simp only [inquiring, ho]
      rw [hs]
      exact ih (hrun.next ht (Prod.ext rfl ho)) (hnext s' ho)
    | returned _ | panicked =>
      have hs : inquiring qname qtype rootAddr s (t :: ts) = (step qname qtype rootAddr s t).2 := by
        simp only [inquiring, ho]
      exact .inr ⟨s, tr, t, hrun, ht, hs.symm, by rw [hs, ho]; exact fun _ => nofun⟩

/-! ## Panics -/

/-- A turn panics exactly when the cache does not answer and the reply has
answers, `NOERROR` and no `A` record among its answers. -/
theorem step_panicked_iff {s : Inquiry} {t : Turn} :
    (step qname qtype rootAddr s t).2 = .panicked ↔ ∃ s₁ response,
      consult qname qtype s t.row t.now = .inr s₁ ∧
      lookup s₁.currentlyQuering s₁.currentType t.bound t.reply = .ok response ∧
      response.answers ≠ [] ∧ response.header.rescode = .NOERROR ∧
      response.getRandomARec = none := by
  unfold step
  cases hc : consult qname qtype s t.row t.now with
  | inl p => simp
  | inr s₁ =>
    cases hl : lookup s₁.currentlyQuering s₁.currentType t.bound t.reply with
    | error e => simp [hl]
    | ok response => simp [hl, answer_panicked_iff]

end

/-- The root server address the examples start from. -/
def rootServer : Ipv4Addr := ⟨198, 41, 0, 4⟩

/-- A reply to the query for the mail exchanger of `a`: one `MX` answer. -/
def mxReply : Packet :=
  ⟨{ Header.new with id := 999, response := true, questions := 1, answers := 1 },
    [⟨[97], .MX⟩], [.MX [97] 10 [109] 60], [], []⟩

/-- The first turn of a query for the mail exchanger of `a`, answered by the
root with its `MX` record, panics on the `unwrap` of the missing `A` record. -/
theorem step_mxAnswer_panics :
    (step [97] .MX rootServer (Inquiry.init [97] .MX rootServer)
      ⟨none, 0, .ok (), .ok mxReply, 0, .ok 1⟩).2 = .panicked := rfl

/-! ## The cache in the nameserver phase -/

/-- The reply to the query for the address of `ns`: one `A` answer. -/
def nsAddressReply : Packet :=
  ⟨{ Header.new with id := 999, response := true, questions := 1, answers := 1 },
    [⟨[110, 115], .A⟩], [.A [110, 115] ⟨1, 2, 3, 4⟩ 60], [], []⟩

/-- In the nameserver phase a valid row for `ns` leaves the variables as they were,
since its `domain` is parsed for the address, so `ns` is asked upstream again. -/
theorem handlingRecord_nameserverRow :
    ∃ row, (Record.A [110, 115] ⟨1, 2, 3, 4⟩ 60).registerRecord 0 (.ok 5) =
        .ok (row, ⟨1, 2, 3, 4⟩) ∧ row.isValid 30 = true ∧
      handlingRecord [97] .A row 30 ⟨rootServer, [110, 115], .A, false⟩ =
        (none, ⟨rootServer, [110, 115], .A, false⟩) ∧
      step [97] .A rootServer ⟨rootServer, [110, 115], .A, false⟩
          ⟨some row, 30, .ok (), .error "timeout", 30, .ok 6⟩ = (none, .returned (.error "timeout")) ∧
      answer [97] .A rootServer ⟨rootServer, [110, 115], .A, false⟩ nsAddressReply
          ⟨some row, 30, .ok (), .ok nsAddressReply, 30, .ok 6⟩ =
        (some (.A [110, 115] ⟨1, 2, 3, 4⟩ 60), .next ⟨⟨1, 2, 3, 4⟩, [97], .A, true⟩) :=
  ⟨_, rfl, rfl, rfl, rfl, rfl⟩

/-! ## What a run returns -/

section

variable {qname : List UInt8} {qtype : QueryType} {rootAddr : Ipv4Addr}

/-- A packet a turn returns is built from a valid row of `qname`, or is the reply to a
query for the question or, as an `NXDOMAIN` or dead end, for a nameserver's address. -/
theorem Run.returned_ok {s : Inquiry} {tr : List (Inquiry × Turn)} {t : Turn}
    {reg : Option Record} {p : Packet} (hrun : Run qname qtype rootAddr s tr) (hfit : t.Fits s)
    (h : step qname qtype rootAddr s t = (reg, .returned (.ok p))) :
    (∃ cr r, t.row = some cr ∧ cr.domain = qname ∧ cr.isValid t.now = true ∧
      cr.recordFromCache = .ok r ∧ p.answers = [r]) ∨
    ∃ s₁, consult qname qtype s t.row t.now = .inr s₁ ∧ t.reply = .ok p ∧
      ((s₁.currentlyQuering = qname ∧ s₁.currentType = qtype) ∨
        s₁.searchForQname = false ∧ s₁.currentType = .A ∧
          (p.header.rescode = .NXDOMAIN ∨ p.getResolvedNs s₁.currentlyQuering = none ∧
            p.getUnresolvedNs s₁.currentlyQuering = none)) := by
  rcases step_cases h with ⟨p', hc, -, ho⟩ | ⟨s₁, hc, ⟨e, -, ho⟩ | ⟨response, hr, ha⟩⟩
  · cases ho
    obtain ⟨hq, cr, hrow, hv, hadd⟩ := consult_inl hc
    obtain ⟨r, hcr, hans⟩ := Packet.addCrToAnswers_ok hadd
    have hd : cr.domain = qname := (hfit cr hrow).trans (hrun.phaseOk.1 hq).1
    exact .inl ⟨cr, r, hrow, hd, hv, hcr, hans⟩
  · cases ho
  · obtain ⟨rfl, hph⟩ := answer_returned_ok ha
    have h₁ := consult_phaseOk hrun.phaseOk hc
    refine .inr ⟨s₁, hc, hr, ?_⟩
    cases hq : s₁.searchForQname
    · exact .inr ⟨rfl, h₁.2 hq, hph.resolve_left (by rw [hq]; exact Bool.false_ne_true)⟩
    · exact .inl (h₁.1 hq)

end

/-- The root's referral for `a.b`: the zone `b` is served by `ns.c`, with no glue. -/
def referral : Packet :=
  ⟨{ Header.new with id := 999, response := true, questions := 1, authoritativeEntries := 1 },
    [⟨[97, 46, 98], .A⟩], [], [.NS [98] [110, 115, 46, 99] 60], []⟩

/-- The answer that `ns.c` does not exist. -/
def nxReply : Packet :=
  ⟨{ Header.new with id := 999, response := true, rescode := .NXDOMAIN, questions := 1 },
    [⟨[110, 115, 46, 99], .A⟩], [], [], []⟩

/-- Resolving `a.b`, the resolver looks up the address of the nameserver `ns.c`;
the `NXDOMAIN` for `ns.c` is returned as the answer to `a.b`. -/
theorem run_returns_nameserver_nxdomain :
    Run [97, 46, 98] .A rootServer ⟨rootServer, [110, 115, 46, 99], .A, false⟩
        [(Inquiry.init [97, 46, 98] .A rootServer, ⟨none, 0, .ok (), .ok referral, 0, .ok 1⟩)] ∧
      step [97, 46, 98] .A rootServer ⟨rootServer, [110, 115, 46, 99], .A, false⟩
        ⟨none, 0, .ok (), .ok nxReply, 0, .ok 1⟩ = (none, .returned (.ok nxReply)) ∧
      nxReply.header.rescode = .NXDOMAIN ∧ nxReply.questions = [⟨[110, 115, 46, 99], .A⟩] :=
  ⟨Run.next Run.init (by simp [Turn.Fits]) rfl, rfl, rfl, rfl⟩

/-- The run that ends in the nameserver's `NXDOMAIN` returns it as the reply to
the query for the nameserver's address. -/
theorem returned_ok_nameserver_nxdomain :
    ∃ (s : Inquiry) (tr : List (Inquiry × Turn)) (t : Turn) (p : Packet),
      Run [97, 46, 98] .A rootServer s tr ∧ t.Fits s ∧
      step [97, 46, 98] .A rootServer s t = (none, .returned (.ok p)) ∧
      ((∃ cr r, t.row = some cr ∧ cr.domain = [97, 46, 98] ∧ cr.isValid t.now = true ∧
          cr.recordFromCache = .ok r ∧ p.answers = [r]) ∨
        ∃ s₁, consult [97, 46, 98] .A s t.row t.now = .inr s₁ ∧ t.reply = .ok p ∧
          ((s₁.currentlyQuering = [97, 46, 98] ∧ s₁.currentType = .A) ∨
            s₁.searchForQname = false ∧ s₁.currentType = .A ∧
              (p.header.rescode = .NXDOMAIN ∨ p.getResolvedNs s₁.currentlyQuering = none ∧
                p.getUnresolvedNs s₁.currentlyQuering = none))) :=
  have hrun : Run [97, 46, 98] .A rootServer ⟨rootServer, [110, 115, 46, 99], .A, false⟩
      [(Inquiry.init [97, 46, 98] .A rootServer, ⟨none, 0, .ok (), .ok referral, 0, .ok 1⟩)] :=
    Run.next Run.init (by simp [Turn.Fits]) rfl
  have hfit : Turn.Fits ⟨none, 0, .ok (), .ok nxReply, 0, .ok 1⟩
      ⟨rootServer, [110, 115, 46, 99], .A, false⟩ := by simp [Turn.Fits]
  have hstep : step [97, 46, 98] .A rootServer ⟨rootServer, [110, 115, 46, 99], .A, false⟩
      ⟨none, 0, .ok (), .ok nxReply, 0, .ok 1⟩ = (none, .returned (.ok nxReply)) := rfl
  ⟨_, _, _, _, hrun, hfit, hstep, Run.returned_ok hrun hfit hstep⟩

/-! ## A zone that is no ancestor -/

/-- Resolving `ab`, the resolver follows the nameserver of the zone `b`, which is
no ancestor of `ab`, and asks it the question next. -/
theorem run_follows_suffix_zone :
    Run [97, 98] .A rootServer ⟨⟨1, 2, 3, 4⟩, [97, 98], .A, true⟩
        [(Inquiry.init [97, 98] .A rootServer, ⟨none, 0, .ok (), .ok glueReferral, 0, .ok 1⟩)] ∧
      (⟨1, 2, 3, 4⟩ : Ipv4Addr) ≠ rootServer ∧ glueReferral.authorities = [.NS [98] [104] 60] ∧
      ¬ IsLabelAncestor [98] [97, 98] :=
  ⟨Run.next Run.init (by simp [Turn.Fits]) rfl,
    by decide, rfl, by decide⟩

/-! ## What gets registered -/

section

variable {qname : List UInt8} {qtype : QueryType} {rootAddr : Ipv4Addr}

/-- Every record a turn gives to `register_record` is an `A` record of the reply: its
first `A` answer, whoever owns it, or glue for a nameserver of an ancestor zone of
the name queried, when the zones `get_ns` keeps for that name are its ancestors. -/
theorem step_registered {s : Inquiry} {t : Turn} {r : Record} {o : Outcome}
    (h : step qname qtype rootAddr s t = (some r, o))
    (hzone : ∀ s₁ response, consult qname qtype s t.row t.now = .inr s₁ → t.reply = .ok response →
      ∀ ns ∈ response.getNs s₁.currentlyQuering, IsLabelAncestor ns.1 s₁.currentlyQuering) :
    ∃ s₁ response, consult qname qtype s t.row t.now = .inr s₁ ∧ t.reply = .ok response ∧
      r.IsA ∧ (response.getRandomARec = some r ∨
        ∃ d nsTtl, r ∈ response.resources ∧ .NS d r.domain nsTtl ∈ response.authorities ∧
          IsLabelAncestor d s₁.currentlyQuering) := by
  rcases step_cases h with ⟨_, -, hreg, -⟩ | ⟨s₁, hc, ⟨_, hreg, -⟩ | ⟨response, hr, ha⟩⟩
  · cases hreg
  · cases hreg
  · obtain ⟨hA, hsel | hsel⟩ := answer_registered ha
    · exact ⟨s₁, response, hc, hr, hA, .inl hsel⟩
    · obtain ⟨d, host, addr, ttl, nsTtl, rfl, hmem, hns, hsuf⟩ := Packet.getResolvedNs_some hsel
      exact ⟨s₁, response, hc, hr, hA, .inr ⟨d, nsTtl, hmem, hns,
        hzone s₁ response hc hr (d, host) (Packet.mem_getNs.mpr ⟨⟨nsTtl, hns⟩, hsuf⟩)⟩⟩

end

/-- A reply to the query for the address of `a` whose one answer is an `A` record
of `e`. -/
def foreignAnswer : Packet :=
  ⟨{ Header.new with id := 999, response := true, questions := 1, answers := 1 },
    [⟨[97], .A⟩], [.A [101] ⟨6, 6, 6, 6⟩ 60], [], []⟩

/-- Asking for `a`, the resolver registers the `A` record of `e` it got as an
answer, though no `CNAME` leads there and no nameserver names it. -/
theorem step_registers_foreign_answer :
    step [97] .A rootServer (Inquiry.init [97] .A rootServer) ⟨none, 0, .ok (), .ok foreignAnswer, 0, .ok 1⟩ =
        (some (.A [101] ⟨6, 6, 6, 6⟩ 60), .returned (.ok foreignAnswer)) ∧
      foreignAnswer.authorities = [] ∧ ∀ r ∈ foreignAnswer.answers, r.qtype ≠ .CNAME :=
  ⟨rfl, rfl, by decide⟩

/-- The turn that registers the `A` record of `e` takes it from the reply's answers;
the reply names no nameserver. -/
theorem registered_foreign_answer :
    ∃ (t : Turn) (o : Outcome) (r : Record), t = ⟨none, 0, .ok (), .ok foreignAnswer, 0, .ok 1⟩ ∧
      step [97] .A rootServer (Inquiry.init [97] .A rootServer) t = (some r, o) ∧
      (∀ s₁ response, consult [97] .A (Inquiry.init [97] .A rootServer) t.row t.now = .inr s₁ →
        t.reply = .ok response →
        ∀ ns ∈ response.getNs s₁.currentlyQuering, IsLabelAncestor ns.1 s₁.currentlyQuering) ∧
      ∃ s₁ response, consult [97] .A (Inquiry.init [97] .A rootServer) t.row t.now = .inr s₁ ∧
        t.reply = .ok response ∧ r.IsA ∧ (response.getRandomARec = some r ∨
          ∃ d nsTtl, r ∈ response.resources ∧ .NS d r.domain nsTtl ∈ response.authorities ∧
            IsLabelAncestor d s₁.currentlyQuering) :=
  have h : step [97] .A rootServer (Inquiry.init [97] .A rootServer)
      ⟨none, 0, .ok (), .ok foreignAnswer, 0, .ok 1⟩ =
        (some (.A [101] ⟨6, 6, 6, 6⟩ 60), .returned (.ok foreignAnswer)) := rfl
  have hzone : ∀ s₁ response, consult [97] .A (Inquiry.init [97] .A rootServer) none 0 = .inr s₁ →
      (.ok foreignAnswer : Except String Packet) = .ok response →
      ∀ ns ∈ response.getNs s₁.currentlyQuering, IsLabelAncestor ns.1 s₁.currentlyQuering :=
    fun _ _ _ hr => by cases hr; exact nofun
  ⟨_, _, _, rfl, h, hzone, step_registered h hzone⟩

end Resolver

end RustyDns
