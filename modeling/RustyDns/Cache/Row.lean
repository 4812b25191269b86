import RustyDns.Cache.Address
import RustyDns.Message.Record

/-!
# Cache rows

`CachedRecord` of `structs/db_queries.rs`, the row type of the `entries` table,
and what the resolver does with a row: `is_valid`, `record_from_cache` and
`Packet::add_cr_to_answers`; and the row `Record::register_record` inserts.
Times are whole seconds, `DateTime<Local>` as an `Int`. The table does not
restrict the type of a row to that of the question it answers: a row of any
of the four stored types is turned into its record.
-/

namespace RustyDns

/-- A row of the `entries` table. -/
structure CachedRecord where
  id : UInt32
  address : Option (List UInt8)
  host : Option (List UInt8)
  priority : Option UInt16
  domain : List UInt8
  expirationDate : Int
  ttl : UInt32
  recordType : UInt16
  deriving DecidableEq, Repr

namespace CachedRecord

/-- `is_valid`: the row has not expired at `now`. -/
def isValid (cr : CachedRecord) (now : Int) : Bool := decide (cr.expirationDate ≥ now)

/-- The error of `record_from_cache` for a row that lacks a column its type needs. -/
def notStored : String := "Some records haven\x27t been stored correctly"

/-- `record_from_cache`: the record a row stands for, by its `record_type`. -/
def recordFromCache (cr : CachedRecord) : Except String Record :=
  match QueryType.fromNum cr.recordType with
  | .A =>
    match cr.address with
    | none => .error notStored
    | some rawAddr =>
      match Ipv4Addr.fromStr rawAddr with
      | .ok addr => .ok (.A cr.domain addr cr.ttl)
      | .error e => .error e
  | .CNAME =>
    match cr.host with
    | none => .error notStored
    | some host => .ok (.CNAME cr.domain host cr.ttl)
  | .MX =>
    match cr.host, cr.priority with
    | none, _ => .error notStored
    | some _, none => .error notStored
    | some host, some priority => .ok (.MX cr.domain priority host cr.ttl)
  | .AAAA =>
    match cr.address with
    | none => .error notStored
    | some rawAddr =>
      match Ipv6Addr.fromStr rawAddr with
      | .ok addr => .ok (.AAAA cr.domain addr cr.ttl)
      | .error e => .error e
  | _ => .error "This should not happen."

/-- A row's record keeps the row's owner and TTL, and its type is the row's
`record_type`, one of the four stored types. -/
theorem recordFromCache_ok {cr : CachedRecord} {r : Record} (h : cr.recordFromCache = .ok r) :
    r.domain = cr.domain ∧ r.qtype = QueryType.fromNum cr.recordType ∧ r.getTtl = cr.ttl ∧
      r.qtype ∈ [QueryType.A, .CNAME, .MX, .AAAA] := by
  unfold recordFromCache at h
  split at h <;> rename_i hq
  all_goals
    repeat' split at h
    all_goals
      cases h
      try simp only [Record.domain, Record.qtype, Record.getTtl, hq]; decide

end CachedRecord

/-- `Packet::add_cr_to_answers`: the row's record is appended to the answers and
the header's answer count goes up by one. -/
def Packet.addCrToAnswers (p : Packet) (cr : CachedRecord) : Except String Packet := do
  let record ← cr.recordFromCache
  return { p with
    header := { p.header with answers := p.header.answers + 1 }
    answers := p.answers ++ [record] }

theorem Packet.addCrToAnswers_ok {p p' : Packet} {cr : CachedRecord}
    (h : p.addCrToAnswers cr = .ok p') :
    ∃ r, cr.recordFromCache = .ok r ∧ p'.answers = p.answers ++ [r] := by
  unfold addCrToAnswers at h
  cases hr : cr.recordFromCache with
  | error e => rw [hr] at h; cases h
  | ok r =>
    rw [hr] at h
    cases h
    exact ⟨r, rfl, rfl⟩

/-- `Record::register_record` at time `now`: an `A` record is inserted as a row
expiring `ttl` seconds later, and its address is returned. `insert` is the
database's answer to the `INSERT`: the id of the new row, or an error. Any other
record is refused. -/
def Record.registerRecord (r : Record) (now : Int) (insert : Except String UInt32) :
    Except String (CachedRecord × Ipv4Addr) :=
  match r with
  | .A domain addr ttl => do
    let id ← insert
    return (⟨id, some addr.toString, none, none, domain, now + ttl.toNat, ttl, 1⟩, addr)
  | _ => .error ("Expected a A Record from a name server, got something else. " ++
      "Responding to the client with a Server Fail packet.")

/-- Only an `A` record is registered, and the address returned is its own. -/
theorem Record.registerRecord_ok {r : Record} {now : Int} {insert : Except String UInt32}
    {row : CachedRecord} {addr : Ipv4Addr} (h : r.registerRecord now insert = .ok (row, addr)) :
    ∃ d ttl, r = .A d addr ttl := by
  unfold registerRecord at h
  split at h
  · obtain ⟨id, -, h⟩ := bind_eq_ok.mp h
    cases h
    exact ⟨_, _, rfl⟩
  · cases h

/-- The cache gives back what it was given: the row `register_record` inserts
reads back, through `record_from_cache`, as the record registered. -/
theorem recordFromCache_registerRecord {r : Record} {now : Int} {insert : Except String UInt32}
    {row : CachedRecord} {addr : Ipv4Addr} (h : r.registerRecord now insert = .ok (row, addr)) :
    row.recordFromCache = .ok r := by
  obtain ⟨d, ttl, rfl⟩ := Record.registerRecord_ok h
  obtain ⟨id, -, h⟩ := bind_eq_ok.mp h
  cases h
  simp only [CachedRecord.recordFromCache, Ipv4Addr.fromStr_toString]
  rfl

end RustyDns
