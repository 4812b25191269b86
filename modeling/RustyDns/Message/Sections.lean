import RustyDns.Message.Types
import RustyDns.Wire.Qname

/-!
# What the resolver picks out of a response

`get_random_a_rec`, `get_ns`, `get_resolved_ns` and `get_unresolved_ns` of
`structs/packet.rs`. Each takes the first match in wire order. `get_ns` keeps a
nameserver when the queried name ends with its owner as a string, which is
weaker than being below it in the name tree: `"ab"` ends with `"b"`.
-/

namespace RustyDns

namespace Packet

/-- `get_random_a_rec`: the first `A` record of the answer section. -/
def getRandomARec (p : Packet) : Option Record := p.answers.find? fun r => decide r.IsA

/-- `get_ns`: the `(domain, host)` pairs of the authority section's `NS` records
whose owner `qname` ends with. -/
def getNs (p : Packet) (qname : List UInt8) : List (List UInt8 × List UInt8) :=
  (p.authorities.filterMap fun
    | .NS domain host _ => some (domain, host)
    | _ => none).filter fun ns => decide (ns.1 <:+ qname)

/-- `get_resolved_ns`: the first `A` record of the additional section owned by
the host of one of `get_ns`'s nameservers, taken in order. -/
def getResolvedNs (p : Packet) (qname : List UInt8) : Option Record :=
  ((p.getNs qname).flatMap fun ns =>
    p.resources.filter fun r => decide (r.IsA ∧ r.domain = ns.2)).head?

/-- `get_unresolved_ns`: the host of the first of `get_ns`'s nameservers. -/
def getUnresolvedNs (p : Packet) (qname : List UInt8) : Option (List UInt8) :=
  ((p.getNs qname).map Prod.snd).head?

theorem getRandomARec_some {p : Packet} {r : Record} (h : p.getRandomARec = some r) :
    r ∈ p.answers ∧ r.IsA := by
  unfold getRandomARec at h
  exact ⟨List.mem_of_find?_eq_some h, by simpa using List.find?_some h⟩

theorem getRandomARec_none {p : Packet} : p.getRandomARec = none ↔ ∀ r ∈ p.answers, ¬ r.IsA := by
  simp only [getRandomARec, List.find?_eq_none, decide_eq_true_eq]

theorem mem_getNs {p : Packet} {qname d h : List UInt8} :
    (d, h) ∈ p.getNs qname ↔ (∃ ttl, .NS d h ttl ∈ p.authorities) ∧ d <:+ qname := by
  simp only [getNs, List.mem_filter, List.mem_filterMap, decide_eq_true_eq]
  constructor
  · rintro ⟨⟨r, hr, hm⟩, hs⟩
    cases r <;> simp only [Option.some.injEq, Prod.mk.injEq, reduceCtorEq] at hm
    obtain ⟨rfl, rfl⟩ := hm
    exact ⟨⟨_, hr⟩, hs⟩
  · rintro ⟨⟨ttl, hr⟩, hs⟩
    exact ⟨⟨_, hr, rfl⟩, hs⟩

/-- `get_resolved_ns` returns glue: an `A` record of the additional section owned
by the host of an `NS` record whose owner the name ends with. -/
theorem getResolvedNs_some {p : Packet} {qname : List UInt8} {r : Record}
    (h : p.getResolvedNs qname = some r) :
    ∃ d host addr ttl nsTtl, r = .A host addr ttl ∧ r ∈ p.resources ∧
      .NS d host nsTtl ∈ p.authorities ∧ d <:+ qname := by
  have hm := List.mem_of_mem_head? h
  simp only [List.mem_flatMap, List.mem_filter, decide_eq_true_eq] at hm
  obtain ⟨⟨d, host⟩, hns, hr, ha, hd⟩ := hm
  obtain ⟨⟨nsTtl, hns⟩, hs⟩ := mem_getNs.mp hns
  cases r <;> simp only [Record.IsA] at ha
  cases hd
  exact ⟨d, _, _, _, nsTtl, rfl, hr, hns, hs⟩

/-- `get_unresolved_ns` returns the host of an `NS` record whose owner the name
ends with. -/
theorem getUnresolvedNs_some {p : Packet} {qname host : List UInt8}
    (h : p.getUnresolvedNs qname = some host) :
    ∃ d nsTtl, .NS d host nsTtl ∈ p.authorities ∧ d <:+ qname := by
  have hm := List.mem_of_mem_head? h
  simp only [List.mem_map] at hm
  obtain ⟨⟨d, host'⟩, hns, rfl⟩ := hm
  obtain ⟨⟨nsTtl, hns⟩, hs⟩ := mem_getNs.mp hns
  exact ⟨d, nsTtl, hns, hs⟩

end Packet

/-- `d` is `q` or one of its ancestors in the name tree: the root, `q` itself, or
a name that `q` ends with after a dot. -/
def IsLabelAncestor (d q : List UInt8) : Prop := d = [] ∨ d = q ∨ dot :: d <:+ q

instance (d q : List UInt8) : Decidable (IsLabelAncestor d q) :=
  inferInstanceAs (Decidable (_ ∨ _ ∨ _))

/-- The root's referral for `ab`: the zone `b` is served by `h`, whose address is
given as glue. -/
def glueReferral : Packet :=
  ⟨{ Header.new with
      id := 999, response := true, questions := 1, authoritativeEntries := 1, resourceEntries := 1 },
    [⟨[97, 98], .A⟩], [], [.NS [98] [104] 60], [.A [104] ⟨1, 2, 3, 4⟩ 60]⟩

/-- For `ab`, `get_ns` keeps the nameserver of the zone `b`, which is no ancestor of
`ab`: `get_resolved_ns` returns its glue and `get_unresolved_ns` its host. -/
theorem getResolvedNs_glueReferral :
    glueReferral.getResolvedNs [97, 98] = some (.A [104] ⟨1, 2, 3, 4⟩ 60) ∧
      glueReferral.getUnresolvedNs [97, 98] = some [104] ∧
      ∀ d host nsTtl, Record.NS d host nsTtl ∈ glueReferral.authorities →
        ¬ IsLabelAncestor d [97, 98] := by
  refine ⟨rfl, rfl, fun d host nsTtl h => ?_⟩
  simp only [glueReferral, List.mem_singleton, Record.NS.injEq] at h
  obtain ⟨rfl, -, -⟩ := h
  decide

end RustyDns
