import RustyDns.Wire.Qname

/-!
# The DNS message

`Header`, `Question`, `Record` and `Packet` of `structs/`, with the numeric
codes of query types and result codes. Domain names are the bytes of the
source's `String`s; addresses are `Ipv4Addr` and `Ipv6Addr` by their parts.
-/

namespace RustyDns

/-- `std::net::Ipv4Addr`, by its four octets. -/
structure Ipv4Addr where
  a : UInt8
  b : UInt8
  c : UInt8
  d : UInt8
  deriving DecidableEq, Repr

/-- `std::net::Ipv6Addr`, by its eight 16-bit segments. -/
structure Ipv6Addr where
  a : UInt16
  b : UInt16
  c : UInt16
  d : UInt16
  e : UInt16
  f : UInt16
  g : UInt16
  h : UInt16
  deriving DecidableEq, Repr

/-- `Ipv6Addr::segments`. -/
def Ipv6Addr.segments (x : Ipv6Addr) : List UInt16 := [x.a, x.b, x.c, x.d, x.e, x.f, x.g, x.h]

/-- `QueryType`: the five supported types, anything else kept as its number. -/
inductive QueryType where
  | UNKNOWN (n : UInt16)
  | A
  | NS
  | CNAME
  | MX
  | AAAA
  deriving DecidableEq, Repr

namespace QueryType

/-- `QueryType::from_num`. -/
def fromNum (num : UInt16) : QueryType :=
  match num.toNat with
  | 1 => .A
  | 2 => .NS
  | 5 => .CNAME
  | 15 => .MX
  | 28 => .AAAA
  | _ => .UNKNOWN num

/-- `QueryType::to_num`. -/
def toNum : QueryType → UInt16
  | .UNKNOWN x => x
  | .A => 1
  | .NS => 2
  | .CNAME => 5
  | .MX => 15
  | .AAAA => 28

/-- A query type the decoder reproduces: `UNKNOWN n` only for a number no
named type has. -/
def Canonical : QueryType → Prop
  | .UNKNOWN n => n.toNat ≠ 1 ∧ n.toNat ≠ 2 ∧ n.toNat ≠ 5 ∧ n.toNat ≠ 15 ∧ n.toNat ≠ 28
  | _ => True

/-- The number decodes back to the type exactly for canonical types. -/
theorem fromNum_toNum {q : QueryType} (h : q.Canonical) : fromNum q.toNum = q := by
  cases q with
  | UNKNOWN n =>
    unfold fromNum toNum
    split <;> simp_all [Canonical]
  | _ => rfl

@[simp] theorem fromNum_toNum_A : fromNum A.toNum = A := rfl

end QueryType

/-- `ResultCode`. -/
inductive ResultCode where
  | NOERROR
  | FORMERR
  | SERVFAIL
  | NXDOMAIN
  | NOTIMP
  | REFUSED
  deriving DecidableEq, Repr

namespace ResultCode

/-- `ResultCode::from_num`: unknown values read as `NOERROR`. -/
def fromNum (num : UInt8) : ResultCode :=
  match num.toNat with
  | 1 => .FORMERR
  | 2 => .SERVFAIL
  | 3 => .NXDOMAIN
  | 4 => .NOTIMP
  | 5 => .REFUSED
  | _ => .NOERROR

/-- The discriminant, `rescode as u8`. -/
def toU8 : ResultCode → UInt8
  | .NOERROR => 0
  | .FORMERR => 1
  | .SERVFAIL => 2
  | .NXDOMAIN => 3
  | .NOTIMP => 4
  | .REFUSED => 5

end ResultCode

/-- `Header`: the twelve bytes in front of every message. -/
structure Header where
  id : UInt16
  recursionDesired : Bool
  truncatedMessage : Bool
  authoritativeAnswer : Bool
  opcode : UInt8
  response : Bool
  rescode : ResultCode
  checkingDisabled : Bool
  authedData : Bool
  z : Bool
  recursionAvailable : Bool
  questions : UInt16
  answers : UInt16
  authoritativeEntries : UInt16
  resourceEntries : UInt16
  deriving DecidableEq, Repr

/-- `Header::new`: everything zero, false or `NOERROR`. -/
def Header.new : Header :=
  ⟨0, false, false, false, 0, false, .NOERROR, false, false, false, false, 0, 0, 0, 0⟩

/-- `Question`: a name and a query type. -/
structure Question where
  qname : List UInt8
  qtype : QueryType
  deriving DecidableEq, Repr

/-- `Record`: one resource record, by type. -/
inductive Record where
  | UNKNOWN (domain : List UInt8) (qtype : UInt16) (dataLen : UInt16) (ttl : UInt32)
  | A (domain : List UInt8) (addr : Ipv4Addr) (ttl : UInt32)
  | NS (domain : List UInt8) (host : List UInt8) (ttl : UInt32)
  | CNAME (domain : List UInt8) (host : List UInt8) (ttl : UInt32)
  | MX (domain : List UInt8) (priority : UInt16) (host : List UInt8) (ttl : UInt32)
  | AAAA (domain : List UInt8) (addr : Ipv6Addr) (ttl : UInt32)
  deriving DecidableEq, Repr

namespace Record

/-- The owner name, common to every variant. -/
def domain : Record → List UInt8
  | .UNKNOWN d .. | .A d .. | .NS d .. | .CNAME d .. | .MX d .. | .AAAA d .. => d

/-- `get_ttl`. -/
def getTtl : Record → UInt32
  | .UNKNOWN _ _ _ t | .A _ _ t | .NS _ _ t | .CNAME _ _ t | .MX _ _ _ t | .AAAA _ _ t => t

/-- Whether the record is `Record::UNKNOWN`, which `Record::write` skips. -/
def IsUnknown : Record → Prop
  | .UNKNOWN .. => True
  | _ => False

instance : DecidablePred IsUnknown := fun r => by
  cases r <;> unfold IsUnknown <;> infer_instance

/-- Whether the record is `Record::A`. -/
def IsA : Record → Prop
  | .A .. => True
  | _ => False

instance : DecidablePred IsA := fun r => by
  cases r <;> unfold IsA <;> infer_instance

end Record

/-- `Packet`: a header and the four sections in wire order. -/
structure Packet where
  header : Header
  questions : List Question
  answers : List Record
  authorities : List Record
  resources : List Record
  deriving DecidableEq, Repr

/-- `Packet::new`. -/
def Packet.new : Packet := ⟨Header.new, [], [], [], []⟩

end RustyDns
