import RustyDns.Resolver.Run

/-!
# What a turn takes from the world

The resolver gets the replies of nameservers, through `lookup`, and the database's
answers. What a turn registers or returns comes from the reply it got or from a cache
row, an error it returns is `lookup`'s or the `INSERT`'s, and a name with a label over
`0x34` bytes is never asked for.
-/

namespace RustyDns

namespace Resolver

variable {qname : List UInt8} {qtype : QueryType} {rootAddr : Ipv4Addr}

/-- The reply a turn gets from the nameserver: none when the cache answers or
`lookup` fails. -/
def received (qname : List UInt8) (qtype : QueryType) (s : Inquiry) (t : Turn) : Option Packet :=
  match consult qname qtype s t.row t.now with
  | .inl _ => none
  | .inr s₁ =>
    match lookup s₁.currentlyQuering s₁.currentType t.bound t.reply with
    | .ok response => some response
    | .error _ => none

/-- A turn is answered by the cache, or `lookup` fails and the turn returns its
error, or the rest of the turn works on the reply it got. -/
theorem step_received_cases (rootAddr : Ipv4Addr) (s : Inquiry) (t : Turn) :
    (∃ p, consult qname qtype s t.row t.now = .inl p ∧ received qname qtype s t = none ∧
        step qname qtype rootAddr s t = (none, .returned (.ok p))) ∨
      (∃ s₁ e, consult qname qtype s t.row t.now = .inr s₁ ∧
        lookup s₁.currentlyQuering s₁.currentType t.bound t.reply = .error e ∧
        received qname qtype s t = none ∧ step qname qtype rootAddr s t = (none, .returned (.error e))) ∨
      ∃ s₁ response, consult qname qtype s t.row t.now = .inr s₁ ∧
        lookup s₁.currentlyQuering s₁.currentType t.bound t.reply = .ok response ∧
        received qname qtype s t = some response ∧
        step qname qtype rootAddr s t = answer qname qtype rootAddr s₁ response t := by
  cases hc : consult qname qtype s t.row t.now with
  | inl p => exact .inl ⟨p, rfl, by simp only [received, hc], by simp only [step, hc]⟩
  | inr s₁ =>
    cases hl : lookup s₁.currentlyQuering s₁.currentType t.bound t.reply with
    | error e =>
      exact .inr (.inl ⟨s₁, e, rfl, hl, by simp only [received, hc, hl],
        by simp only [step, hc, hl]⟩)
    | ok response =>
      exact .inr (.inr ⟨s₁, response, rfl, hl, by simp only [received, hc, hl],
        by simp only [step, hc, hl]⟩)

variable {s : Inquiry} {t : Turn}

/-- A record a turn gives to `register_record` is an `A` record of the reply it
got, from its answer or its additional section. -/
theorem step_registered_reply {r : Record} {o : Outcome}
    (h : step qname qtype rootAddr s t = (some r, o)) :
    r.IsA ∧ ∃ response, received qname qtype s t = some response ∧ r ∈ response.records := by
  rcases step_received_cases rootAddr s t with
    ⟨_, -, -, hs⟩ | ⟨_, _, -, -, -, hs⟩ | ⟨s₁, response, -, -, hrec, hs⟩ <;> rw [hs] at h
  · cases h
  · cases h
  obtain ⟨hA, hsel | hsel⟩ := answer_registered h
  · exact ⟨hA, response, hrec, List.mem_append_left _
      (List.mem_append_left _ (Packet.getRandomARec_some hsel).1)⟩
  · obtain ⟨-, -, -, -, -, -, hmem, -⟩ := Packet.getResolvedNs_some hsel
    exact ⟨hA, response, hrec, List.mem_append_right _ hmem⟩

/-- What a turn returns as a packet is the cache's answer built from its row, or
the reply it got. -/
theorem step_returned_reply {reg : Option Record} {p : Packet}
    (h : step qname qtype rootAddr s t = (reg, .returned (.ok p))) :
    (∃ cr, t.row = some cr ∧ Packet.new.addCrToAnswers cr = .ok p) ∨
      received qname qtype s t = some p := by
  rcases step_received_cases rootAddr s t with
    ⟨_, hc, -, hs⟩ | ⟨_, _, -, -, -, hs⟩ | ⟨s₁, response, -, -, hrec, hs⟩ <;> rw [hs] at h
  · cases h
    obtain ⟨-, cr, hrow, -, hadd⟩ := consult_inl hc
    exact .inl ⟨cr, hrow, hadd⟩
  · cases h
  · obtain ⟨rfl, -⟩ := answer_returned_ok h
    exact .inr hrec

/-- A failed `register_record` in a turn's continuation that never fails itself is
the failure of the registration. -/
theorem afterRegister_error {r : Record} {k : Ipv4Addr → Outcome} {e : String}
    (h : afterRegister r t k = .returned (.error e)) (hk : ∀ addr, k addr ≠ .returned (.error e)) :
    r.registerRecord t.registeredAt t.insert = .error e := by
  cases hr : r.registerRecord t.registeredAt t.insert with
  | ok v =>
    simp only [afterRegister, hr] at h
    exact absurd h (hk v.2)
  | error e' =>
    simp only [afterRegister, hr, Outcome.returned.injEq, Except.error.injEq] at h
    rw [h]

/-- Registering an `A` record fails only with the database's error on the `INSERT`. -/
theorem registerRecord_A_error {d : List UInt8} {a : Ipv4Addr} {ttl : UInt32} {now : Int}
    {insert : Except String UInt32} {e : String}
    (h : (Record.A d a ttl).registerRecord now insert = .error e) : insert = .error e := by
  cases insert with
  | ok id => cases h
  | error e' => rw [Except.error.inj h]

/-- The rest of a turn returns an error only when the `INSERT` of the `A` record it
registers fails, and that error is the database's. -/
theorem answer_error {response : Packet} {reg : Option Record} {e : String}
    (h : answer qname qtype rootAddr s response t = (reg, .returned (.error e))) :
    ∃ r, reg = some r ∧ r.IsA ∧ t.insert = .error e := by
  have hreg : ∃ r, reg = some r ∧ r.registerRecord t.registeredAt t.insert = .error e := by
    rcases answer_cases h with ⟨r, -, -, ha⟩ | ⟨-, -, ⟨-, ⟨⟩⟩ | ⟨r, -, -, ha⟩⟩ | ⟨-, ⟨⟩⟩ |
      ⟨r, -, ha⟩ | ⟨_, -, ⟨⟩⟩ | ⟨-, -, ⟨⟩⟩
    all_goals
      obtain ⟨rfl, ho⟩ := Prod.mk.inj ha
      exact ⟨r, rfl, afterRegister_error ho.symm nofun⟩
  obtain ⟨r, rfl, hr⟩ := hreg
  obtain ⟨hA, -⟩ := answer_registered h
  cases r <;> simp only [Record.IsA] at hA
  exact ⟨_, rfl, trivial, registerRecord_A_error hr⟩

/-- An error a turn returns is the error of `lookup`, or the database's error on
the `INSERT` of the `A` record the turn registers. -/
theorem step_error {reg : Option Record} {e : String}
    (h : step qname qtype rootAddr s t = (reg, .returned (.error e))) :
    (∃ s₁, consult qname qtype s t.row t.now = .inr s₁ ∧
      lookup s₁.currentlyQuering s₁.currentType t.bound t.reply = .error e) ∨
    ∃ r, reg = some r ∧ r.IsA ∧ t.insert = .error e := by
  rcases step_received_cases rootAddr s t with
    ⟨_, -, -, hs⟩ | ⟨s₁, e', hc, hl, -, hs⟩ | ⟨s₁, response, -, -, -, hs⟩ <;> rw [hs] at h
  · cases h
  · cases h
    exact .inl ⟨s₁, hc, hl⟩
  · exact .inr (answer_error h)

/-- After turns that go on, the loop goes on from where they left it. -/
theorem inquiring_append {v : Inquiry} {pre : List Turn}
    (h : inquiring qname qtype rootAddr s pre = .next v) (rest : List Turn) :
    inquiring qname qtype rootAddr s (pre ++ rest) = inquiring qname qtype rootAddr v rest := by
  induction pre generalizing s with
  | nil =>
    cases h
    rfl
  | cons t pre ih =>
    cases ho : (step qname qtype rootAddr s t).2 with
    | next s' =>
      simp only [inquiring, ho] at h
      simp only [List.cons_append, inquiring, ho]
      exact ih h
    | returned _ | panicked => simp only [inquiring, ho, reduceCtorEq] at h

/-- An error `inquiring` returns, after any turns, is returned by one of them from where
the turns before it left the loop: the error of its `lookup`, or the database's error
on the `INSERT` of an `A` record it registers. -/
theorem inquiring_error {ts : List Turn} {e : String}
    (h : inquiring qname qtype rootAddr s ts = .returned (.error e)) :
    ∃ pre t post v, ts = pre ++ t :: post ∧ inquiring qname qtype rootAddr s pre = .next v ∧
      (step qname qtype rootAddr v t).2 = .returned (.error e) ∧
      ((∃ s₁, consult qname qtype v t.row t.now = .inr s₁ ∧
          lookup s₁.currentlyQuering s₁.currentType t.bound t.reply = .error e) ∨
        ∃ r, (step qname qtype rootAddr v t).1 = some r ∧ r.IsA ∧ t.insert = .error e) := by
  induction ts generalizing s with
  | nil => cases h
  | cons t ts ih =>
    cases ho : (step qname qtype rootAddr s t).2 with
    | next s' =>
      simp only [inquiring, ho] at h
      obtain ⟨pre, t', post, v, rfl, hv, hs, he⟩ := ih h
      exact ⟨t :: pre, t', post, v, rfl, by simp only [inquiring, ho, hv], hs, he⟩
    | returned result =>
      simp only [inquiring, ho, Outcome.returned.injEq] at h
      subst h
      exact ⟨[], t, ts, s, rfl, rfl, ho, step_error (Prod.ext rfl ho)⟩
    | panicked => simp only [inquiring, ho, reduceCtorEq] at h

/-- A query for the address of `a` whose `lookup` times out returns the timeout. -/
theorem inquiring_error_timeout :
    inquiring [97] .A rootServer (Inquiry.init [97] .A rootServer)
        [⟨none, 0, .ok (), .error "timeout", 0, .ok 1⟩] = .returned (.error "timeout") ∧
      ∃ pre t post v, [(⟨none, 0, .ok (), .error "timeout", 0, .ok 1⟩ : Turn)] = pre ++ t :: post ∧
        inquiring [97] .A rootServer (Inquiry.init [97] .A rootServer) pre = .next v ∧
        (step [97] .A rootServer v t).2 = .returned (.error "timeout") ∧
        ((∃ s₁, consult [97] .A v t.row t.now = .inr s₁ ∧
            lookup s₁.currentlyQuering s₁.currentType t.bound t.reply = .error "timeout") ∨
          ∃ r, (step [97] .A rootServer v t).1 = some r ∧ r.IsA ∧ t.insert = .error "timeout") :=
  have h : inquiring [97] .A rootServer (Inquiry.init [97] .A rootServer)
      [⟨none, 0, .ok (), .error "timeout", 0, .ok 1⟩] = .returned (.error "timeout") := rfl
  ⟨h, inquiring_error h⟩

/-! ## Names that cannot be asked for -/

/-- `lookup` of a name with a label over `0x34` bytes fails before anything is
sent: the query cannot be written. -/
theorem lookup_not_labelsFit {q : List UInt8} (hn : ¬ LabelsFit q) (ty : QueryType)
    (bound : Except String Unit) (reply : Except String Packet) :
    ∃ e, lookup q ty bound reply = .error e := by
  unfold lookup
  cases bound with
  | error e => exact ⟨e, rfl⟩
  | ok _ =>
  cases hw : (lookupPacket q ty).write BytePacketBuffer.new with
  | error e => exact ⟨e, rfl⟩
  | ok b =>
    have hfit := ((Packet.writes_write (lookupPacket q ty)) _ b (Nat.zero_le _)).mp hw
    exact absurd (hfit.1 q (List.mem_append_left _ (List.mem_singleton_self _))) hn

/-- A turn the cache does not answer, for a name that cannot be written, returns
an error and takes no reply. -/
theorem step_not_labelsFit (rootAddr : Ipv4Addr) {s₁ : Inquiry} (hc : consult qname qtype s t.row t.now = .inr s₁)
    (hn : ¬ LabelsFit s₁.currentlyQuering) :
    ∃ e, step qname qtype rootAddr s t = (none, .returned (.error e)) ∧
      received qname qtype s t = none := by
  obtain ⟨e, hl⟩ := lookup_not_labelsFit hn s₁.currentType t.bound t.reply
  exact ⟨e, by simp only [step, hc, hl], by simp only [received, hc, hl]⟩

/-- A turn the cache does not answer, for a name that cannot be written, takes no reply
and ends the run with an error, whatever turns follow. -/
theorem inquiring_append_not_labelsFit {s v s₁ : Inquiry} {pre : List Turn} {t : Turn}
    (hv : inquiring qname qtype rootAddr s pre = .next v)
    (hc : consult qname qtype v t.row t.now = .inr s₁) (hn : ¬ LabelsFit s₁.currentlyQuering)
    (post : List Turn) : received qname qtype v t = none ∧
      ∃ e, inquiring qname qtype rootAddr s (pre ++ t :: post) = .returned (.error e) := by
  obtain ⟨e, hs, hr⟩ := step_not_labelsFit rootAddr hc hn
  exact ⟨hr, e, by simp only [inquiring_append hv, inquiring, hs]⟩

/-- A name with a label over `0x34` bytes, where DNS allows 63, is never asked for: in
any run, a turn the cache does not answer for such a name ends the loop with an error
and takes no reply, whatever follows, so a question for it ends at its first turn. -/
theorem inquiring_not_labelsFit (qname : List UInt8) (qtype : QueryType) (rootAddr : Ipv4Addr) :
    (∀ (s : Inquiry) (pre : List Turn) (v : Inquiry) (t : Turn) (post : List Turn) (s₁ : Inquiry),
      inquiring qname qtype rootAddr s pre = .next v → consult qname qtype v t.row t.now = .inr s₁ →
      ¬ LabelsFit s₁.currentlyQuering → received qname qtype v t = none ∧
        ∃ e, inquiring qname qtype rootAddr s (pre ++ t :: post) = .returned (.error e)) ∧
    (¬ LabelsFit qname → ∀ (t : Turn) (ts : List Turn),
      (∃ p, consult qname qtype (Inquiry.init qname qtype rootAddr) t.row t.now = .inl p ∧
          inquiring qname qtype rootAddr (Inquiry.init qname qtype rootAddr) (t :: ts) = .returned (.ok p)) ∨
        received qname qtype (Inquiry.init qname qtype rootAddr) t = none ∧ ∃ e,
          inquiring qname qtype rootAddr (Inquiry.init qname qtype rootAddr) (t :: ts) =
            .returned (.error e)) := by
  refine ⟨fun s pre v t post s₁ hv hc hn => inquiring_append_not_labelsFit hv hc hn post,
    fun hn t ts => ?_⟩
  cases hc : consult qname qtype (Inquiry.init qname qtype rootAddr) t.row t.now with
  | inl p => exact .inl ⟨p, rfl, by simp only [inquiring, step, hc]⟩
  | inr s₁ =>
    have hq : s₁.currentlyQuering = qname := by
      rcases consult_inr hc with rfl | ⟨hph, -⟩
      · rfl
      · cases hph
    have hinit : inquiring qname qtype rootAddr (Inquiry.init qname qtype rootAddr) [] =
        .next (Inquiry.init qname qtype rootAddr) := rfl
    exact .inr (inquiring_append_not_labelsFit hinit hc (hq ▸ hn) ts)

/-- A question for a name of one 53-byte label, which DNS allows, ends at its first
turn with the error of writing the query. -/
theorem inquiring_not_labelsFit_label53 :
    ¬ LabelsFit (List.replicate 53 97) ∧
      consult (List.replicate 53 97) .A (Inquiry.init (List.replicate 53 97) .A rootServer) none 0 =
        .inr (Inquiry.init (List.replicate 53 97) .A rootServer) ∧
      received (List.replicate 53 97) .A (Inquiry.init (List.replicate 53 97) .A rootServer)
          ⟨none, 0, .ok (), .error "unused", 0, .ok 1⟩ = none ∧ ∃ e,
        inquiring (List.replicate 53 97) .A rootServer (Inquiry.init (List.replicate 53 97) .A rootServer)
          ([] ++ [⟨none, 0, .ok (), .error "unused", 0, .ok 1⟩]) = .returned (.error e) :=
  have hn : ¬ LabelsFit (List.replicate 53 97) := by decide
  have hc : consult (List.replicate 53 97) .A (Inquiry.init (List.replicate 53 97) .A rootServer)
      none 0 = .inr (Inquiry.init (List.replicate 53 97) .A rootServer) := rfl
  ⟨hn, hc, (inquiring_not_labelsFit _ .A rootServer).1 _ [] _ ⟨none, 0, .ok (), .error "unused", 0, .ok 1⟩ []
    _ rfl hc hn⟩

end Resolver

end RustyDns
