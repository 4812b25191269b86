import RustyDns.Wire.Buffer

/-!
# Domain names on the wire

`write_qname` and `read_qname` of `structs/buffer.rs`. A name is the bytes of a
Rust string and its labels are `qname.split('.')`. The writer never emits a
pointer; the reader follows pointers with a local position and a jump counter,
moving the shared cursor past the first pointer only.
-/

namespace RustyDns

/-- The byte `'.'`. -/
def dot : UInt8 := 46

/-- `String::from_utf8_lossy(label).to_lowercase()` on the bytes of one label.
ASCII bytes are lowercased as Rust does; bytes from `0x80` up are kept, where
Rust would first decode them as UTF-8. -/
def lowercaseLabel (label : List UInt8) : List UInt8 :=
  label.map fun c => if 65 ≤ c ∧ c ≤ 90 then c + 32 else c

namespace BytePacketBuffer

/-- The `for label in qname.split('.')` loop of `write_qname`. -/
def writeLabels (b : BytePacketBuffer) : List (List UInt8) → Except String BytePacketBuffer
  | [] => .ok b
  | label :: labels =>
    if label.length > 0x34 then .error "Single label exceeds 63 characters of length"
    else do
      let b ← b.writeU8 label.length.toUInt8
      let b ← b.writeBytes label
      b.writeLabels labels

/-- `write_qname`: every label as its length byte and its bytes, then a zero byte.
The check compares with `0x34`, that is 52, while its message speaks of 63. -/
def writeQname (b : BytePacketBuffer) (qname : List UInt8) : Except String BytePacketBuffer := do
  let b ← b.writeLabels (qname.splitOn dot)
  b.writeU8 0

/-- The `loop` of `read_qname`: `pos` is the local position, `jumped` records
whether a pointer was followed, `delim` is pushed before the next label and
`outstr` is the name read so far. -/
def readQnameLoop (b : BytePacketBuffer) (pos : Nat) (jumped : Bool) (jumpsPerformed : Nat)
    (delim outstr : List UInt8) : Except String (BytePacketBuffer × List UInt8) :=
  if _hj : jumpsPerformed > 5 then .error "Limit of 5 jumps exceeded"
  else
    match _hg : b.get pos with
    | .error e => .error e
    | .ok len =>
      if len &&& 0xC0 = 0xC0 then
        let b := if !jumped then b.seek (pos + 2) else b
        match b.get (pos + 1) with
        | .error e => .error e
        | .ok b2 =>
          let offset := ((len.toUInt16 ^^^ 0xC0) <<< 8) ||| b2.toUInt16
          b.readQnameLoop offset.toNat true (jumpsPerformed + 1) delim outstr
      else if len = 0 then .ok (if !jumped then b.seek (pos + 1) else b, outstr)
      else
        let outstr := outstr ++ delim
        match b.getRange (pos + 1) len.toNat with
        | .error e => .error e
        | .ok strBuffer =>
          b.readQnameLoop (pos + 1 + len.toNat) jumped jumpsPerformed [dot]
            (outstr ++ lowercaseLabel strBuffer)
termination_by (6 - jumpsPerformed, 512 - pos)
decreasing_by
  · exact Prod.Lex.left _ _ (by omega)
  · have := get_ok_lt _hg
    exact Prod.Lex.right _ (by omega)

/-- `read_qname`: append the name at the cursor to `outstr`. -/
def readQname (b : BytePacketBuffer) (outstr : List UInt8) :
    Except String (BytePacketBuffer × List UInt8) :=
  b.readQnameLoop b.pos false 0 [] outstr

end BytePacketBuffer

/-! ## What the name codec does -/

/-- The bytes `write_qname` emits for its labels, before the final zero. -/
def labelsBytes (labels : List (List UInt8)) : List UInt8 :=
  labels.flatMap fun l => l.length.toUInt8 :: l

/-- The bytes `write_qname` emits for `qname` when it succeeds. -/
def qnameBytes (qname : List UInt8) : List UInt8 := labelsBytes (qname.splitOn dot) ++ [0]

/-- Every label of `qname` passes the length check of `write_qname`. -/
def LabelsFit (qname : List UInt8) : Prop := ∀ l ∈ qname.splitOn dot, l.length ≤ 0x34

instance : DecidablePred LabelsFit := fun n =>
  inferInstanceAs (Decidable (∀ l ∈ n.splitOn dot, l.length ≤ 0x34))

@[simp] theorem labelsBytes_nil : labelsBytes [] = [] := rfl

@[simp] theorem labelsBytes_cons (l : List UInt8) (ls : List (List UInt8)) :
    labelsBytes (l :: ls) = l.length.toUInt8 :: l ++ labelsBytes ls := rfl

namespace BytePacketBuffer

theorem writes_writeLabels (ls : List (List UInt8)) :
    Writes (∀ l ∈ ls, l.length ≤ 0x34) (·.writeLabels ls) (labelsBytes ls) := by
  induction ls with
  | nil => exact writes_pure.of_iff (by simp)
  | cons l ls ih =>
    refine (Writes.guard (l.length > 0x34) "Single label exceeds 63 characters of length"
      ((writes_writeU8 l.length.toUInt8).bind ((writes_writeBytes l).bind ih))).of_iff ?_
    simp only [List.mem_cons, forall_eq_or_imp, true_and, gt_iff_lt, not_lt]

/-- `write_qname` writes `qnameBytes`, and fails only on a label over `0x34` bytes
or when the bytes do not fit. -/
theorem writes_writeQname (qname : List UInt8) :
    Writes (LabelsFit qname) (·.writeQname qname) (qnameBytes qname) :=
  ((writes_writeLabels _).bind (writes_writeU8 0)).of_iff (iff_of_eq (and_true _))

end BytePacketBuffer

/-- Where `read_qname` stops on the bytes of `labels`: past the first zero length byte. -/
def stopOffset : List (List UInt8) → Nat
  | [] => 1
  | l :: ls => if l = [] then 1 else l.length + 1 + stopOffset ls

/-- What `read_qname` appends on the bytes of `labels`: the lowercased labels
before the first empty one, each after the pending delimiter. -/
def readLabels : List (List UInt8) → List UInt8 → List UInt8
  | [], _ => []
  | l :: ls, delim => if l = [] then [] else delim ++ lowercaseLabel l ++ readLabels ls [dot]

/-- A length byte up to `0x34` is never taken for a pointer. -/
theorem not_pointer_of_le {n : Nat} (h : n ≤ 0x34) : ¬ (n.toUInt8 &&& 0xC0 = 0xC0) := by
  have key : ∀ m : Fin 53, ¬ ((m.val).toUInt8 &&& 0xC0 = 0xC0) := by decide
  exact key ⟨n, by omega⟩

theorem zero_not_pointer : ¬ ((0 : UInt8) &&& 0xC0 = 0xC0) := by decide

theorem toNat_toUInt8_of_lt {n : Nat} (h : n < 256) : n.toUInt8.toNat = n := by
  simp [Nat.toUInt8, UInt8.ofNat, UInt8.toNat, Nat.mod_eq_of_lt h]

namespace BytePacketBuffer

/-- One turn of the loop once the length byte at `pos` is known. -/
theorem readQnameLoop_of_get {b : BytePacketBuffer} {pos j : Nat} {len : UInt8}
    (jumped : Bool) (delim out : List UInt8) (hj : j ≤ 5) (hg : b.get pos = .ok len) :
    b.readQnameLoop pos jumped j delim out =
      if len &&& 0xC0 = 0xC0 then
        match (if !jumped then b.seek (pos + 2) else b).get (pos + 1) with
        | .error e => .error e
        | .ok b2 =>
          (if !jumped then b.seek (pos + 2) else b).readQnameLoop
            (((len.toUInt16 ^^^ 0xC0) <<< 8) ||| b2.toUInt16).toNat true (j + 1) delim out
      else if len = 0 then .ok (if !jumped then b.seek (pos + 1) else b, out)
      else
        match b.getRange (pos + 1) len.toNat with
        | .error e => .error e
        | .ok strBuffer =>
          b.readQnameLoop (pos + 1 + len.toNat) jumped j [dot]
            (out ++ delim ++ lowercaseLabel strBuffer) := by
  rw [readQnameLoop, dif_neg (by omega)]
  split
  · rename_i e he
    rw [hg] at he
    cases he
  · rename_i l hl
    rw [hg] at hl
    cases hl
    rfl

/-- Past five jumps the loop fails. -/
theorem readQnameLoop_of_gt {b : BytePacketBuffer} {pos j : Nat} (jumped : Bool)
    (delim out : List UInt8) (hj : j > 5) :
    b.readQnameLoop pos jumped j delim out = .error "Limit of 5 jumps exceeded" := by
  rw [readQnameLoop, dif_pos hj]

/-- A length byte outside the buffer fails the loop. -/
theorem readQnameLoop_of_get_error {b : BytePacketBuffer} {pos j : Nat} {e : String}
    (jumped : Bool) (delim out : List UInt8) (hj : j ≤ 5) (hg : b.get pos = .error e) :
    b.readQnameLoop pos jumped j delim out = .error e := by
  rw [readQnameLoop, dif_neg (by omega)]
  split
  · rename_i e' he
    rw [hg] at he
    cases he
    rfl
  · rename_i l hl
    rw [hg] at hl
    cases hl

/-- `read_qname` on the bytes `write_qname` emits, from any position and without
a jump: it stops at the first empty label and never meets a pointer. -/
theorem readQnameLoop_labels {b : BytePacketBuffer} {ls : List (List UInt8)}
    (hls : ∀ l ∈ ls, l.length ≤ 0x34) {pos j : Nat} {rest : List UInt8} (hj : j ≤ 5)
    (delim out : List UInt8) (h : b.buf.drop pos = labelsBytes ls ++ 0 :: rest) :
    b.readQnameLoop pos false j delim out =
      .ok (b.seek (pos + stopOffset ls), out ++ readLabels ls delim) := by
  induction ls generalizing pos delim out with
  | nil =>
    simp only [labelsBytes_nil, List.nil_append] at h
    rw [readQnameLoop_of_get false delim out hj (get_of_drop h)]
    simp [zero_not_pointer, stopOffset, readLabels]
  | cons l ls ih =>
    simp only [List.mem_cons, forall_eq_or_imp] at hls
    simp only [labelsBytes_cons, List.cons_append, List.append_assoc] at h
    rw [readQnameLoop_of_get false delim out hj (get_of_drop h)]
    by_cases hl : l = []
    · subst hl
      simp [show Nat.toUInt8 0 = 0 from rfl, zero_not_pointer, stopOffset, readLabels]
    · have hlen := b.buf_length
      have hpos : l.length < 256 := by omega
      have hfit : pos + 1 + l.length < 512 := by
        have := congrArg List.length h
        simp only [List.length_drop, List.length_cons, List.length_append] at this
        omega
      have hdrop : b.buf.drop (pos + 1) = l ++ (labelsBytes ls ++ 0 :: rest) := by
        rw [← List.drop_drop, h]
        rfl
      have hrange : b.getRange (pos + 1) l.length = .ok l := by
        simp [getRange, show ¬ pos + 1 + l.length ≥ 512 by omega, hdrop]
      have hnext : b.buf.drop (pos + 1 + l.length) = labelsBytes ls ++ 0 :: rest := by
        rw [← List.drop_drop, hdrop, List.drop_left]
      have hne : l.length.toUInt8 ≠ 0 := by
        intro h0
        have := congrArg UInt8.toNat h0
        rw [toNat_toUInt8_of_lt hpos] at this
        exact hl (List.length_eq_zero.mp this)
      simp only [not_pointer_of_le hls.1, if_false, hne, toNat_toUInt8_of_lt hpos, hrange]
      rw [ih hls.2 _ _ hnext]
      simp only [stopOffset, readLabels, hl, if_false, List.append_assoc]
      congr 3
      omega

@[simp] theorem seek_seek (b : BytePacketBuffer) (p q : Nat) : (b.seek p).seek q = b.seek q := rfl

@[simp] theorem seek_pos (b : BytePacketBuffer) : b.seek b.pos = b := rfl

end BytePacketBuffer

theorem lowercaseLabel_append (l₁ l₂ : List UInt8) :
    lowercaseLabel (l₁ ++ l₂) = lowercaseLabel l₁ ++ lowercaseLabel l₂ := List.map_append _ _ _

@[simp] theorem lowercaseLabel_dot : lowercaseLabel [dot] = [dot] := by decide

theorem splitOn_ne_nil (n : List UInt8) : n.splitOn dot ≠ [] := List.splitOnP_ne_nil _ n

private theorem intercalate_cons_cons (sep a b : List UInt8) (l : List (List UInt8)) :
    sep.intercalate (a :: b :: l) = a ++ sep ++ sep.intercalate (b :: l) := by
  simp [List.intercalate, List.intersperse_cons₂]

theorem stopOffset_of_ne {ls : List (List UInt8)} (h : ∀ l ∈ ls, l ≠ []) :
    stopOffset ls = (labelsBytes ls).length + 1 := by
  induction ls with
  | nil => rfl
  | cons l ls ih =>
    simp only [List.mem_cons, forall_eq_or_imp] at h
    simp only [stopOffset, h.1, if_false, ih h.2, labelsBytes_cons, List.length_append,
      List.length_cons]
    omega

theorem readLabels_of_ne {ls : List (List UInt8)} (h : ∀ l ∈ ls, l ≠ []) (hne : ls ≠ [])
    (delim : List UInt8) :
    readLabels ls delim = delim ++ lowercaseLabel ([dot].intercalate ls) := by
  induction ls generalizing delim with
  | nil => exact absurd rfl hne
  | cons l ls ih =>
    simp only [List.mem_cons, forall_eq_or_imp] at h
    cases ls with
    | nil => simp [readLabels, h.1, List.intercalate]
    | cons l' ls' =>
      rw [readLabels, if_neg h.1, ih h.2 (List.cons_ne_nil _ _), intercalate_cons_cons,
        lowercaseLabel_append, lowercaseLabel_append, lowercaseLabel_dot]
      simp only [List.append_assoc]

namespace BytePacketBuffer

/-- The name codec round trip: for a name whose labels are all nonempty,
`read_qname` from where a successful `write_qname` started returns the
lowercased name and stops where the writer stopped. -/
theorem readQname_writeQname {n : List UInt8} (hn : ∀ l ∈ n.splitOn dot, l ≠ [])
    {b b' : BytePacketBuffer} (hb : b.pos ≤ 512) (hw : b.writeQname n = .ok b')
    (out : List UInt8) :
    (b'.seek b.pos).readQname out = .ok (b', out ++ lowercaseLabel n) := by
  obtain ⟨hfit, hlen, rfl⟩ := (writes_writeQname n b b' hb).mp hw
  have := b.buf_length
  have hdrop : (b.put (qnameBytes n)).buf.drop b.pos =
      labelsBytes (n.splitOn dot) ++ 0 :: (b.buf.drop (b.pos + (qnameBytes n).length)) := by
    rw [buf_put hlen, List.append_assoc, List.drop_left' (by simp only [List.length_take]; omega)]
    simp [qnameBytes]
  rw [readQname, pos_seek, readQnameLoop_labels hfit (by omega) [] out (by simpa using hdrop),
    readLabels_of_ne hn (splitOn_ne_nil n), List.nil_append, List.intercalate_splitOn,
    stopOffset_of_ne hn, seek_seek,
    show b.pos + ((labelsBytes (n.splitOn dot)).length + 1) = (b.put (qnameBytes n)).pos by
      simp [qnameBytes], seek_pos]

/-- Two inputs of `write_qname` within the name codec's limits that it mishandles:
the root name, which `split('.')` turns into one empty label, is written as two
zero bytes while `read_qname` stops after the first; and a label of 53 bytes is
rejected although the check's own message allows 63. -/
theorem writeQname_root_and_long_label :
    (∃ b, new.writeQname [] = .ok b ∧ b.pos = 2 ∧ (b.seek 0).readQname [] = .ok (b.seek 1, [])) ∧
      ∃ e, new.writeQname (List.replicate 53 97) = .error e := by
  have hw : new.writeQname [] = .ok (new.put [0, 0]) :=
    (writes_writeQname [] new _ (by decide)).mpr ⟨by decide, by decide, rfl⟩
  refine ⟨⟨_, hw, rfl, ?_⟩, _, rfl⟩
  rw [readQname, pos_seek]
  refine readQnameLoop_labels ?_ (Nat.zero_le 5) [] []
    (show ((new.put [0, 0]).seek 0).buf.drop 0 =
        labelsBytes [[]] ++ 0 :: (List.replicate 512 0).drop 2 by
      rw [buf_seek, buf_put (by decide)]
      rfl)
  decide

/-! ## Names the codec round-trips -/

end BytePacketBuffer

/-- The name codec round-trips `n`: from any cursor with room for its bytes,
`write_qname` succeeds, and `read_qname` from that cursor returns `n` and stops
where the writer stopped. -/
def NameRoundTrips (n : List UInt8) : Prop :=
  ∀ b : BytePacketBuffer, b.pos + (qnameBytes n).length ≤ 512 →
    ∃ b', b.writeQname n = .ok b' ∧ (b'.seek b.pos).readQname [] = .ok (b', n)

namespace BytePacketBuffer

private theorem drop_pos_of_unread {b : BytePacketBuffer} {n rest : List UInt8}
    (h : b.unread = qnameBytes n ++ rest) :
    b.buf.drop b.pos = labelsBytes (n.splitOn dot) ++ 0 :: rest := by
  rw [← unread, h, qnameBytes, List.append_assoc]
  rfl

/-- For a name the codec round-trips, `read_qname` reads its bytes back wherever
they lie, whatever follows them. -/
theorem readQname_of_unread {n : List UInt8} (hn : NameRoundTrips n) {b : BytePacketBuffer}
    {rest : List UInt8} (h : b.unread = qnameBytes n ++ rest) :
    b.readQname [] = .ok (b.step (qnameBytes n).length, n) := by
  have hlen : (qnameBytes n).length ≤ 512 := by
    have := congrArg List.length h
    simp only [unread, List.length_drop, b.buf_length, List.length_append] at this
    omega
  have hnew : new.pos + (qnameBytes n).length ≤ 512 := by rw [pos_new]; omega
  obtain ⟨b', hw, hr⟩ := hn new hnew
  obtain ⟨hfit, -, rfl⟩ := (writes_writeQname n new b' (Nat.zero_le _)).mp hw
  rw [pos_new] at hr
  have h₀ : ((new.put (qnameBytes n)).seek 0).unread =
      qnameBytes n ++ (List.replicate 512 0).drop (qnameBytes n).length := by
    rw [unread_seek, buf_put hnew, pos_new, buf_new]
    simp only [List.take_zero, List.nil_append, List.drop_zero, Nat.zero_add]
  rw [readQname, readQnameLoop_labels hfit (Nat.zero_le 5) [] [] (drop_pos_of_unread h₀)] at hr
  obtain ⟨hb', hn'⟩ := Prod.mk.inj (Except.ok.inj hr)
  have hstop : stopOffset (n.splitOn dot) = (qnameBytes n).length := by
    simpa using congrArg pos hb'
  rw [readQname, readQnameLoop_labels hfit (Nat.zero_le 5) [] [] (drop_pos_of_unread h), hstop,
    hn']
  rfl

/-- A name of nonempty labels that fit and no uppercase ASCII round-trips. -/
theorem nameRoundTrips_of {n : List UInt8} (hne : ∀ l ∈ n.splitOn dot, l ≠ [])
    (hfit : LabelsFit n) (hlow : lowercaseLabel n = n) : NameRoundTrips n := by
  intro b hb
  have hw := (writes_writeQname n b _ (by omega)).mpr ⟨hfit, hb, rfl⟩
  exact ⟨_, hw, by rw [readQname_writeQname hne (by omega) hw, List.nil_append, hlow]⟩

end BytePacketBuffer

/-- A name the codec round-trips and whose bytes fit the buffer passes the length
check of `write_qname`. -/
theorem NameRoundTrips.labelsFit {n : List UInt8} (hn : NameRoundTrips n)
    (h : (qnameBytes n).length ≤ 512) : LabelsFit n := by
  obtain ⟨b', hw, -⟩ := hn BytePacketBuffer.new (by rw [BytePacketBuffer.pos_new]; omega)
  exact ((BytePacketBuffer.writes_writeQname n _ b' (Nat.zero_le _)).mp hw).1

end RustyDns
