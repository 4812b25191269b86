import RustyDns.Wire.Compression

/-!
# What `read_qname` accepts

`read_qname` succeeds exactly on the bytes of a name in the form it takes (`WireName`)
with at most five pointers, which admits length bytes up to 191 and labels of any bytes,
and otherwise fails only with "End of buffer" or the jump limit's error.
-/

namespace RustyDns

set_option maxRecDepth 2000 in
private theorem lowercase_byte : ∀ n < 256,
    (fun c : UInt8 => if 65 ≤ c ∧ c ≤ 90 then c + 32 else c)
      ((fun c : UInt8 => if 65 ≤ c ∧ c ≤ 90 then c + 32 else c) n.toUInt8) =
    (fun c : UInt8 => if 65 ≤ c ∧ c ≤ 90 then c + 32 else c) n.toUInt8 := by
  decide

/-- Lowercasing a second time changes nothing. -/
@[simp] theorem lowercaseLabel_lowercaseLabel (l : List UInt8) :
    lowercaseLabel (lowercaseLabel l) = lowercaseLabel l := by
  simp only [lowercaseLabel, List.map_map]
  refine List.map_congr_left fun c _ => ?_
  have := lowercase_byte c.toNat c.toNat_lt_size
  rwa [UInt8.toNat.inj (toNat_toUInt8_of_lt c.toNat_lt_size)] at this

/-- The labels of a name read from the bytes of `ls`, from the empty name, are the
labels joined by dots and lowercased. -/
theorem readLabels_nil_delim {ls : List (List UInt8)} (h : ∀ l ∈ ls, l ≠ []) :
    readLabels ls [] = lowercaseLabel ([dot].intercalate ls) := by
  cases ls with
  | nil => rfl
  | cons l ls => rw [readLabels_of_ne h (List.cons_ne_nil _ _), List.nil_append]

namespace BytePacketBuffer

theorem getElem?_of_get {b : BytePacketBuffer} {pos : Nat} {x : UInt8} (h : b.get pos = .ok x) :
    b.buf[pos]? = some x := by
  unfold get at h
  split at h
  · cases h
  · cases h
    exact List.getElem?_eq_getElem _

section

variable (b : BytePacketBuffer)

/-- Whatever the loop returns, it read a name in the form `read_qname` takes, with
no more pointers than the jumps it had left, and returned its labels. -/
theorem readQnameLoop_ok (pos j : Nat) {b' : BytePacketBuffer} (hb : b'.buf = b.buf)
    (jumped : Bool) (delim out : List UInt8) {b'' : BytePacketBuffer} {o : List UInt8}
    (h : b'.readQnameLoop pos jumped j delim out = .ok (b'', o)) :
    ∃ ls n stop, WireName b.buf pos ls n stop ∧ j + n ≤ 5 ∧
      b'' = (if jumped then b' else b'.seek stop) ∧ o = out ++ readLabels ls delim := by
  induction pos, j using readQnameTrace.induct b generalizing b' jumped delim out with
  | case1 pos j hj =>
    rw [readQnameLoop_of_gt jumped delim out hj] at h
    cases h
  | case2 pos j hj hs =>
    rcases readQnameLoop_of_none_cases (Nat.le_of_not_lt hj) ((qnameStep_of_buf_eq hb pos).trans hs)
      jumped delim out with h' | ⟨hg, h'⟩ <;> rw [h'] at h
    · cases h
    · cases h
      refine ⟨[], 0, pos + 1, .zero (hb ▸ getElem?_of_get hg), by omega, ?_, (List.append_nil _).symm⟩
      cases jumped <;> rfl
  | case3 pos j hj p target hs ih =>
    rw [readQnameLoop_of_jump (by omega) ((qnameStep_of_buf_eq hb pos).trans hs)] at h
    have hb' : (if !jumped then b'.seek (pos + 2) else b').buf = b.buf := by
      cases jumped <;> exact hb
    obtain ⟨ls, n, stop, hw, hn, hb'', ho⟩ := ih hb' true delim out h
    obtain ⟨len, hg, ⟨hp, b2, hg2, he⟩ | ⟨-, -, -, -, he⟩⟩ := qnameStep_eq_some hs
    · cases he
      have h192 := (isPointer_iff len).mp hp
      refine ⟨ls, n + 1, pos + 2, .pointer (getElem?_of_get hg) h192 (getElem?_of_get hg2)
        (by rwa [← pointer_offset h192]), by omega, ?_, ho⟩
      rw [hb'', if_pos rfl]
      cases jumped <;> rfl
    · cases he
  | case4 pos j hj p len hs ih =>
    rw [readQnameLoop_of_label (by omega) ((qnameStep_of_buf_eq hb pos).trans hs), hb] at h
    obtain ⟨ls, n, stop, hw, hn, hb'', ho⟩ := ih hb jumped [dot] _ h
    obtain ⟨lb, hg, ⟨-, _, -, he⟩ | ⟨hp, h0, hlt, -, he⟩⟩ := qnameStep_eq_some hs
    · cases he
    cases he
    have hlb : lb.toNat.toUInt8 = lb := UInt8.toNat.inj (toNat_toUInt8_of_lt lb.toNat_lt_size)
    have hpos : 0 < lb.toNat := Nat.pos_of_ne_zero fun h => h0 (UInt8.toNat.inj h)
    have h192 : lb.toNat < 192 := Nat.lt_of_not_le fun h => hp ((isPointer_iff lb).mpr h)
    have hl : ((b.buf.drop (pos + 1)).take lb.toNat).length = lb.toNat := by
      simp only [List.length_take, List.length_drop, b.buf_length]
      omega
    refine ⟨_ :: ls, n, stop, .label (by rw [hl, hlb]; exact getElem?_of_get hg) (by omega)
      (by omega) (List.take_prefix _ _) (by rwa [hl]), hn, hb'', ?_⟩
    rw [ho, readLabels, if_neg (List.ne_nil_of_length_pos (by omega)), List.append_assoc,
      List.append_assoc, List.append_assoc]

/-- Where the loop fails, it is at the end of the buffer or at the jump limit. -/
theorem readQnameLoop_error (pos j : Nat) {b' : BytePacketBuffer} (hb : b'.buf = b.buf)
    (jumped : Bool) (delim out : List UInt8) {e : String}
    (h : b'.readQnameLoop pos jumped j delim out = .error e) :
    e = "End of buffer" ∨ e = "Limit of 5 jumps exceeded" := by
  induction pos, j using readQnameTrace.induct b generalizing b' jumped delim out with
  | case1 pos j hj =>
    rw [readQnameLoop_of_gt jumped delim out hj] at h
    exact .inr (Except.error.inj h).symm
  | case2 pos j hj hs =>
    rcases readQnameLoop_of_none_cases (Nat.le_of_not_lt hj) ((qnameStep_of_buf_eq hb pos).trans hs)
      jumped delim out with h' | ⟨-, h'⟩ <;> rw [h'] at h
    · exact .inl (Except.error.inj h).symm
    · cases h
  | case3 pos j hj p target hs ih =>
    rw [readQnameLoop_of_jump (by omega) ((qnameStep_of_buf_eq hb pos).trans hs)] at h
    exact ih (by cases jumped <;> exact hb) true delim out h
  | case4 pos j hj p len hs ih =>
    rw [readQnameLoop_of_label (by omega) ((qnameStep_of_buf_eq hb pos).trans hs)] at h
    exact ih hb jumped [dot] _ h

end

/-- `read_qname` succeeds exactly on a name in the form it takes with at most five
pointers, and returns its labels joined by dots and lowercased. -/
theorem readQname_ok_iff (b : BytePacketBuffer) (outstr : List UInt8)
    (r : BytePacketBuffer × List UInt8) :
    b.readQname outstr = .ok r ↔ ∃ ls n stop, WireName b.buf b.pos ls n stop ∧ n ≤ 5 ∧
      r = (b.seek stop, outstr ++ lowercaseLabel ([dot].intercalate ls)) := by
  constructor
  · intro h
    obtain ⟨ls, n, stop, hw, hn, hb, ho⟩ := readQnameLoop_ok b b.pos 0 rfl false [] outstr h
    rw [if_neg Bool.false_ne_true] at hb
    exact ⟨ls, n, stop, hw, by omega, Prod.ext hb (by rw [ho, readLabels_nil_delim hw.ne_nil])⟩
  · rintro ⟨ls, n, stop, hw, hn, rfl⟩
    rw [readQname, readQnameLoop_wireName hw rfl (by omega) false [] outstr,
      if_neg Bool.false_ne_true, readLabels_nil_delim hw.ne_nil]

/-- A name `read_qname` reads from the empty name has no uppercase ASCII letter. -/
theorem readQname_lowercase {b b' : BytePacketBuffer} {name : List UInt8}
    (h : b.readQname [] = .ok (b', name)) : lowercaseLabel name = name := by
  obtain ⟨ls, _, _, -, -, he⟩ := (readQname_ok_iff b [] _).mp h
  rw [(Prod.mk.inj he).2, List.nil_append, lowercaseLabel_lowercaseLabel]

/-- `read_qname` on any bytes: it succeeds exactly on a name in the form it takes with
at most five pointers, then leaves the cursor past the first pointer or the zero byte
and appends to `outstr`, for a name of ASCII bytes its labels joined by dots and
lowercased; otherwise it fails with "End of buffer" or the jump limit's error. -/
theorem readQname_accepts (b : BytePacketBuffer) (outstr : List UInt8) :
    ((∃ r, b.readQname outstr = .ok r) ↔ ∃ ls n stop, WireName b.buf b.pos ls n stop ∧ n ≤ 5) ∧
    (∀ r, b.readQname outstr = .ok r → ∃ ls n stop, WireName b.buf b.pos ls n stop ∧ n ≤ 5 ∧
      r.1 = b.seek stop ∧ outstr <+: r.2 ∧
      ((∀ l ∈ ls, ∀ c ∈ l, c < 128) → r.2 = outstr ++ lowercaseLabel ([dot].intercalate ls))) ∧
    ∀ e, b.readQname outstr = .error e → e = "End of buffer" ∨ e = "Limit of 5 jumps exceeded" := by
  refine ⟨⟨fun ⟨r, h⟩ => ?_, fun ⟨ls, n, stop, hw, hn⟩ => ⟨_, (readQname_ok_iff b outstr _).mpr
    ⟨ls, n, stop, hw, hn, rfl⟩⟩⟩, fun r h => ?_,
    fun _ h => readQnameLoop_error b b.pos 0 rfl false [] outstr h⟩
  · obtain ⟨ls, n, stop, hw, hn, -⟩ := (readQname_ok_iff b outstr r).mp h
    exact ⟨ls, n, stop, hw, hn⟩
  · obtain ⟨ls, n, stop, hw, hn, rfl⟩ := (readQname_ok_iff b outstr r).mp h
    exact ⟨ls, n, stop, hw, hn, rfl, List.prefix_append _ _, fun _ => rfl⟩

end BytePacketBuffer

end RustyDns
