import Mathlib.Logic.Relation
import RustyDns.Cache.Row

/-!
# The `entries` table

The cache is one table that every worker shares. Its rows change only by the
`INSERT` of `Record::register_record` and by the `DELETE` of
`CachedRecord::delete_from_db`, which the workers issue in any interleaving,
starting from the empty table the migration creates. A `SELECT` returns rows of
the table, in an order SQL leaves open.

Since `register_record` inserts only `A` records, every row of a reachable table
reads back through `record_from_cache` as the `A` record it was made from: on
such a table `record_from_cache` never fails, and the cache never serves a
`CNAME`, `MX` or `AAAA` record.
-/

namespace RustyDns

namespace CachedRecord

/-- `delete_from_db`: `DELETE FROM entries WHERE (id = $1)` with the row's id. -/
def deleteFromDb (cr : CachedRecord) (rows : List CachedRecord) : List CachedRecord :=
  rows.filter fun row => row.id != cr.id

/-- A row as `register_record` writes it: it reads back as an `A` record with the
row's own domain and TTL. -/
def Registered (cr : CachedRecord) : Prop :=
  ∃ addr, cr.recordFromCache = .ok (.A cr.domain addr cr.ttl)

/-- The row a successful `register_record` inserts is registered. -/
theorem registered_of_registerRecord {r : Record} {now : Int} {insert : Except String UInt32}
    {row : CachedRecord} {addr : Ipv4Addr} (h : r.registerRecord now insert = .ok (row, addr)) :
    row.Registered := by
  obtain ⟨d, ttl, rfl⟩ := Record.registerRecord_ok h
  obtain ⟨id, -, he⟩ := bind_eq_ok.mp h
  cases he
  exact ⟨addr, recordFromCache_registerRecord h⟩

end CachedRecord

/-- One change of the table, by any worker. -/
inductive TableStep : List CachedRecord → List CachedRecord → Prop
  /-- The `INSERT` of a `register_record` that succeeded. -/
  | insert {rows : List CachedRecord} {r : Record} {now : Int} {insert : Except String UInt32}
      {row : CachedRecord} {addr : Ipv4Addr} :
      r.registerRecord now insert = .ok (row, addr) → TableStep rows (rows ++ [row])
  /-- The `DELETE` of `delete_from_db`, for any row. -/
  | delete (rows : List CachedRecord) (cr : CachedRecord) : TableStep rows (cr.deleteFromDb rows)

/-- The tables the workers can build from the empty one. -/
def Reachable (rows : List CachedRecord) : Prop := Relation.ReflTransGen TableStep [] rows

/-- What `SELECT ... FROM entries WHERE (domain = $1) LIMIT 1` can return when it
succeeds: one row of the table with that domain, which one SQL leaves open, and
none only when the table has none. -/
def FetchedFrom (table : List CachedRecord) (domain : List UInt8)
    (fetched : Except String (List CachedRecord)) : Prop :=
  ∀ rows, fetched = .ok rows → rows.length ≤ 1 ∧ (∀ cr ∈ rows, cr ∈ table ∧ cr.domain = domain) ∧
    (rows = [] → ∀ cr ∈ table, cr.domain ≠ domain)

variable {rows rows' : List CachedRecord}

/-- A change of the table keeps every row registered. -/
theorem TableStep.registered (h : TableStep rows rows') (hr : ∀ cr ∈ rows, cr.Registered) :
    ∀ cr ∈ rows', cr.Registered := by
  cases h with
  | insert hreg =>
    intro cr hc
    rcases List.mem_append.mp hc with hc | hc
    · exact hr cr hc
    · rw [List.mem_singleton.mp hc]
      exact CachedRecord.registered_of_registerRecord hreg
  | delete => exact fun cr hc => hr cr (List.mem_of_mem_filter hc)

/-- Every row of a reachable table is registered. -/
theorem Reachable.registered (h : Reachable rows) : ∀ cr ∈ rows, cr.Registered := by
  induction h with
  | refl => exact fun _ hc => nomatch hc
  | tail _ hs ih => exact hs.registered ih

end RustyDns
