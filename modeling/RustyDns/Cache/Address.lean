import RustyDns.Message.Types

/-!
# Addresses as text

The cache keeps addresses as strings: `register_record` stores
`addr.to_string()`, and `record_from_cache` and `handling_record` read them back
with `Ipv4Addr::from_str` and `Ipv6Addr::from_str`. Both parsers are the
standard library's (`core::net::parser`), which works on the string's bytes:
dotted decimal octets of at most three digits with no leading zero, and colon
separated hexadecimal groups with one optional `::` and an optional embedded
IPv4 address at the end. A failed sub-parser restores the input, so here it
returns `none` and the caller carries on with the input it had.
-/

namespace RustyDns

namespace AddrParser

/-- `char::to_digit(radix)` on one byte, for the radixes 10 and 16 the parser uses. -/
def toDigit (radix : Nat) (c : UInt8) : Option Nat :=
  let d := if 48 ≤ c.toNat ∧ c.toNat ≤ 57 then c.toNat - 48
    else if 97 ≤ c.toNat ∧ c.toNat ≤ 122 then c.toNat - 97 + 10
    else if 65 ≤ c.toNat ∧ c.toNat ≤ 90 then c.toNat - 65 + 10
    else 36
  if d < radix then some d else none

/-- The digit loop of `read_number`: it takes digits while there are some, and
fails as soon as there are more than `maxDigits`. Returns the value, the
number of digits and the rest. -/
def readDigits (radix maxDigits result count : Nat) :
    List UInt8 → Option (Nat × Nat × List UInt8)
  | [] => some (result, count, [])
  | c :: s =>
    match toDigit radix c with
    | none => some (result, count, c :: s)
    | some d =>
      if count + 1 > maxDigits then none
      else readDigits radix maxDigits (result * radix + d) (count + 1) s

/-- `read_number(radix, Some(max_digits), allow_zero_prefix)` for a target type
whose values are below `bound`. -/
def readNumber (radix maxDigits : Nat) (allowZeroPrefix : Bool) (bound : Nat)
    (s : List UInt8) : Option (Nat × List UInt8) :=
  let hasLeadingZero := s.head? = some 48
  match readDigits radix maxDigits 0 0 s with
  | none => none
  | some (result, count, rest) =>
    if count = 0 then none
    else if !allowZeroPrefix && hasLeadingZero && count > 1 then none
    else if result < bound then some (result, rest) else none

/-- `read_given_char`. -/
def readGivenChar (target : UInt8) : List UInt8 → Option (List UInt8)
  | c :: s => if c = target then some s else none
  | [] => none

/-- `read_separator(sep, index, inner)`: the separator is read before every
item but the first. -/
def readSeparator {α : Type} (sep : UInt8) (index : Nat)
    (inner : List UInt8 → Option (α × List UInt8)) (s : List UInt8) : Option (α × List UInt8) :=
  if index > 0 then (readGivenChar sep s).bind inner else inner s

/-- One octet of an IPv4 address: decimal, at most three digits, no leading zero. -/
def readOctet (s : List UInt8) : Option (Nat × List UInt8) := readNumber 10 3 false 256 s

/-- `read_ipv4_addr`: four octets separated by dots. -/
def readIpv4Addr (s : List UInt8) : Option (Ipv4Addr × List UInt8) := do
  let (a, s) ← readSeparator 46 0 readOctet s
  let (b, s) ← readSeparator 46 1 readOctet s
  let (c, s) ← readSeparator 46 2 readOctet s
  let (d, s) ← readSeparator 46 3 readOctet s
  return (⟨a.toUInt8, b.toUInt8, c.toUInt8, d.toUInt8⟩, s)

/-- One group of an IPv6 address: hexadecimal, at most four digits. -/
def readGroup (s : List UInt8) : Option (Nat × List UInt8) := readNumber 16 4 true 65536 s

/-- `u16::from_be_bytes` of two octets. -/
def fromBeBytes (x y : UInt8) : UInt16 := (x.toUInt16 <<< 8) ||| y.toUInt16

/-- `read_groups` from index `i` with `k` slots left: colon separated groups, or
an embedded IPv4 address where at least two slots are left. Returns the groups,
whether the last two came from an IPv4 address, and the rest of the input. -/
def readGroups (i : Nat) : Nat → List UInt8 → List UInt16 × Bool × List UInt8
  | 0, s => ([], false, s)
  | k + 1, s =>
    let ipv4 := if 0 < k then readSeparator 58 i readIpv4Addr s else none
    match ipv4 with
    | some (v4, s') => ([fromBeBytes v4.a v4.b, fromBeBytes v4.c v4.d], true, s')
    | none =>
      match readSeparator 58 i readGroup s with
      | none => ([], false, s)
      | some (g, s') =>
        let (gs, v4, s'') := readGroups (i + 1) k s'
        (g.toUInt16 :: gs, v4, s'')

/-- An address from eight segments, `[u16; 8].into()`. -/
def ofSegments : List UInt16 → Ipv6Addr
  | [a, b, c, d, e, f, g, h] => ⟨a, b, c, d, e, f, g, h⟩
  | _ => ⟨0, 0, 0, 0, 0, 0, 0, 0⟩

/-- `read_ipv6_addr`: the groups in front of a `::`, then the groups behind it,
with zeros between. -/
def readIpv6Addr (s : List UInt8) : Option (Ipv6Addr × List UInt8) :=
  let (head, headIpv4, s) := readGroups 0 8 s
  if head.length = 8 then some (ofSegments head, s)
  else if headIpv4 then none
  else do
    let s ← readGivenChar 58 s
    let s ← readGivenChar 58 s
    let (tail, _, s) := readGroups 0 (8 - (head.length + 1)) s
    return (ofSegments (head ++ List.replicate (8 - head.length - tail.length) 0 ++ tail), s)

end AddrParser

open AddrParser

/-- `Ipv4Addr::from_str`: the whole string must be an address; longer than 15
bytes is rejected before parsing. -/
def Ipv4Addr.fromStr (s : List UInt8) : Except String Ipv4Addr :=
  if s.length > 15 then .error "invalid IPv4 address syntax"
  else
    match readIpv4Addr s with
    | some (a, []) => .ok a
    | _ => .error "invalid IPv4 address syntax"

/-- `Ipv6Addr::from_str`: the whole string must be an address. -/
def Ipv6Addr.fromStr (s : List UInt8) : Except String Ipv6Addr :=
  match readIpv6Addr s with
  | some (a, []) => .ok a
  | _ => .error "invalid IPv6 address syntax"

/-- The decimal digits of a number, as `Display` writes them. -/
def decimal (n : Nat) : List UInt8 := (Nat.toDigits 10 n).map fun c => c.toNat.toUInt8

/-- `Ipv4Addr::to_string`: the four octets in decimal, separated by dots. -/
def Ipv4Addr.toString (a : Ipv4Addr) : List UInt8 :=
  decimal a.a.toNat ++ [46] ++ decimal a.b.toNat ++ [46] ++ decimal a.c.toNat ++ [46] ++
    decimal a.d.toNat

/-! ## Reading back what `to_string` writes -/

private theorem decimal_eq_toDigitsCore (n : Nat) :
    decimal n = (Nat.toDigitsCore 10 (n + 1) n []).map fun c => c.toNat.toUInt8 := rfl

private theorem toDigitsCore_ten_succ {f n : Nat} (ds : List Char) (h : 10 ≤ n) :
    Nat.toDigitsCore 10 (f + 1) n ds =
      Nat.toDigitsCore 10 f (n / 10) (Nat.digitChar (n % 10) :: ds) :=
  if_neg (by omega)

private theorem toDigitsCore_ten_last {f n : Nat} (ds : List Char) (h : n < 10) :
    Nat.toDigitsCore 10 (f + 1) n ds = Nat.digitChar n :: ds := by
  show (if n / 10 = 0 then Nat.digitChar (n % 10) :: ds else _) = _
  rw [if_pos (by omega), Nat.mod_eq_of_lt h]

theorem decimal_of_lt_ten {n : Nat} (h : n < 10) :
    decimal n = [(Nat.digitChar n).toNat.toUInt8] := by
  rw [decimal_eq_toDigitsCore, toDigitsCore_ten_last _ h]
  rfl

theorem decimal_of_lt_hundred {n : Nat} (h₁ : 10 ≤ n) (h₂ : n < 100) :
    decimal n =
      [(Nat.digitChar (n / 10)).toNat.toUInt8, (Nat.digitChar (n % 10)).toNat.toUInt8] := by
  obtain ⟨k, rfl⟩ : ∃ k, n = k + 2 := ⟨n - 2, by omega⟩
  rw [decimal_eq_toDigitsCore, toDigitsCore_ten_succ _ h₁, toDigitsCore_ten_last _ (by omega)]
  rfl

theorem decimal_of_lt_thousand {n : Nat} (h₁ : 100 ≤ n) (h₂ : n < 1000) :
    decimal n = [(Nat.digitChar (n / 100)).toNat.toUInt8,
      (Nat.digitChar (n / 10 % 10)).toNat.toUInt8, (Nat.digitChar (n % 10)).toNat.toUInt8] := by
  obtain ⟨k, rfl⟩ : ∃ k, n = k + 3 := ⟨n - 3, by omega⟩
  rw [decimal_eq_toDigitsCore, toDigitsCore_ten_succ _ (by omega),
    toDigitsCore_ten_succ _ (by omega), toDigitsCore_ten_last _ (by omega), Nat.div_div_eq_div_mul]
  rfl

theorem length_decimal_le {n : Nat} (h : n < 1000) : (decimal n).length ≤ 3 := by
  rcases (by omega : n < 10 ∨ 10 ≤ n ∧ n < 100 ∨ 100 ≤ n) with h₁ | ⟨h₁, h₂⟩ | h₁
  · rw [decimal_of_lt_ten h₁]; simp
  · rw [decimal_of_lt_hundred h₁ h₂]; simp
  · rw [decimal_of_lt_thousand h₁ h]; simp

namespace AddrParser

theorem toDigit_digitChar : ∀ d < 10, toDigit 10 (Nat.digitChar d).toNat.toUInt8 = some d := by
  decide

theorem digitChar_ne_zero : ∀ d < 10, 0 < d → (Nat.digitChar d).toNat.toUInt8 ≠ 48 := by
  decide

theorem readDigits_digitChar {maxDigits result count d : Nat} (hd : d < 10)
    (hc : count < maxDigits) (s : List UInt8) :
    readDigits 10 maxDigits result count ((Nat.digitChar d).toNat.toUInt8 :: s) =
      readDigits 10 maxDigits (result * 10 + d) (count + 1) s := by
  rw [readDigits, toDigit_digitChar d hd]
  exact if_neg (by omega)

theorem readDigits_stop {radix maxDigits result count : Nat} {s : List UInt8}
    (hs : ∀ c ∈ s.head?, toDigit radix c = none) :
    readDigits radix maxDigits result count s = some (result, count, s) := by
  cases s with
  | nil => rfl
  | cons c s => rw [readDigits, hs c rfl]

/-- An octet written in decimal reads back, up to the first byte that is not a digit. -/
theorem readOctet_decimal {n : Nat} (h : n < 256) (s : List UInt8)
    (hs : ∀ c ∈ s.head?, toDigit 10 c = none) : readOctet (decimal n ++ s) = some (n, s) := by
  rcases (by omega : n < 10 ∨ 10 ≤ n ∧ n < 100 ∨ 100 ≤ n) with h₁ | ⟨h₁, h₂⟩ | h₁
  on_goal 1 => rw [decimal_of_lt_ten h₁]
  on_goal 2 => rw [decimal_of_lt_hundred h₁ h₂]
  on_goal 3 => rw [decimal_of_lt_thousand h₁ (by omega)]
  all_goals
    simp (disch := omega) only [readOctet, readNumber, List.cons_append, List.nil_append,
      readDigits_digitChar, readDigits_stop hs, List.head?_cons, Option.some.injEq,
      digitChar_ne_zero]
    simp
    omega

end AddrParser

theorem toNat_toUInt8_toNat (x : UInt8) : x.toNat.toUInt8 = x :=
  UInt8.toNat.inj (toNat_toUInt8_of_lt x.toNat_lt_size)

/-- `from_str` reads back every address `to_string` writes. -/
theorem Ipv4Addr.fromStr_toString (a : Ipv4Addr) : Ipv4Addr.fromStr a.toString = .ok a := by
  have hd : ∀ x : UInt8, (decimal x.toNat).length ≤ 3 := fun x =>
    length_decimal_le (Nat.lt_trans x.toNat_lt_size (by decide))
  have hr : ∀ (x : UInt8) (s : List UInt8),
      readOctet (decimal x.toNat ++ 46 :: s) = some (x.toNat, 46 :: s) :=
    fun x s => readOctet_decimal x.toNat_lt_size _ fun _ hc => by cases Option.some.inj hc; rfl
  have hr' : ∀ x : UInt8, readOctet (decimal x.toNat) = some (x.toNat, []) := fun x => by
    simpa using readOctet_decimal x.toNat_lt_size [] fun _ hc => nomatch hc
  have hl : a.toString.length ≤ 15 := by
    simp only [Ipv4Addr.toString, List.length_append, List.length_singleton]
    have := hd a.a; have := hd a.b; have := hd a.c; have := hd a.d
    omega
  rw [Ipv4Addr.fromStr, if_neg (by omega)]
  simp [Ipv4Addr.toString, readIpv4Addr, readSeparator, readGivenChar, hr, hr', toNat_toUInt8_toNat]

end RustyDns
