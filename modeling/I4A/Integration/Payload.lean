import I4A.Integration.Telemetry

/-! # The payload fits

What `im_client_task` writes for a ring whose texts end inside their fields: every `snprintf` writes
its whole text, the loop goes through all entries, and the buffer ends up with header, rows and
footer.
-/

namespace I4A

namespace InfoManager

open Json

/-- The rows, with commas between them. -/
def rowsText : Bool → List ImRingPacket → List UInt8
  | _, [] => []
  | first, pkt :: rest => (if first then [] else literal ",") ++ row pkt ++ rowsText false rest

/-- The payload for a ring. -/
def payloadText (ring : Ring) (uptime : Int64) : List UInt8 :=
  header ++ rowsText true ring.toList ++ footer uptime

/-! ## Lengths -/

theorem length_ascii (text : List Char) : (ascii text).length = text.length := List.length_map _

theorem length_decimal_natCast_le {n k : Nat} (hk : 0 < k) (h : n < 10 ^ k) :
    (decimal n).length ≤ k := by
  rw [decimal, length_ascii, intText_natCast]
  exact (Nat.length_toDigits_le_iff (by decide) hk).mpr h

theorem length_decimal_le {n : Int} {k : Nat} (hk : 0 < k) (h : n.natAbs < 10 ^ k) :
    (decimal n).length ≤ k + 1 := by
  have hdigits := (Nat.length_toDigits_le_iff (by decide : 1 < 10) hk).mpr h
  rw [decimal, length_ascii, intText]
  split
  · exact Nat.succ_le_succ hdigits
  · exact Nat.le_succ_of_le hdigits

theorem length_inetNtoaR_le (addr : BitVec 32) : (inetNtoaR addr).length ≤ 15 := by
  have hbyte : ∀ b : UInt8, (decimal b.toNat).length ≤ 3 := fun b =>
    length_decimal_natCast_le (by decide) (Nat.lt_trans b.toNat_lt (by decide))
  have hdot : (literal ".").length = 1 := rfl
  simp only [inetNtoaR, putWord, List.map_cons, List.map_nil, List.intersperse_cons_cons,
    List.intersperse_singleton, List.flatten_cons, List.flatten_nil, List.length_append,
    List.length_nil, hdot]
  have h0 := hbyte (.ofNat addr.toNat)
  have h1 := hbyte (.ofNat (addr.toNat / 2 ^ 8))
  have h2 := hbyte (.ofNat (addr.toNat / 2 ^ 16))
  have h3 := hbyte (.ofNat (addr.toNat / 2 ^ 24))
  omega

theorem length_cString_lt {buffer : List UInt8} (h : 0 ∈ buffer) :
    (cString buffer).length < buffer.length := by
  induction buffer with
  | nil => exact absurd h List.not_mem_nil
  | cons b buffer ih =>
      by_cases hb : b = 0
      · rw [cString, List.takeWhile_cons_of_neg (by simpa using hb)]
        exact Nat.succ_pos _
      · have hmem : 0 ∈ buffer := by
          rcases List.mem_cons.mp h with h | h
          · exact absurd h.symm hb
          · exact h
        rw [cString, List.takeWhile_cons_of_pos (by simpa using hb)]
        exact Nat.succ_lt_succ (ih hmem)

theorem length_orientationNames (k : Fin maxOrientations) :
    (literal (orientationNames.toList.getD k.val "")).length = 1 := by
  revert k
  decide

theorem natAbs_toInt8_lt (n : Int8) : n.toInt.natAbs < 10 ^ 3 := by
  have hlt := n.toInt_lt
  have hge := n.le_toInt
  omega

theorem natAbs_toInt64_lt (n : Int64) : n.toInt.natAbs < 10 ^ 19 := by
  have hlt := n.toInt_lt
  have hge := n.le_toInt
  omega

theorem length_row_le {pkt : ImRingPacket} (terminated : pkt.Terminated) :
    (row pkt).length ≤ 141 := by
  have horientation := length_orientationNames
    ⟨pkt.orientation.toNat % maxOrientations, Nat.mod_lt _ (by decide)⟩
  have huuid : (cString pkt.uuid.toList).length < 13 := by
    have hlt := length_cString_lt (Vector.mem_toList_iff.mpr terminated.1)
    rwa [Vector.length_toList] at hlt
  have hlink : (cString pkt.link.toList).length < 32 := by
    have hlt := length_cString_lt (Vector.mem_toList_iff.mpr terminated.2)
    rwa [Vector.length_toList] at hlt
  have hsubnet := length_inetNtoaR_le (htonl pkt.subnet)
  have hmask := length_inetNtoaR_le (htonl pkt.mask)
  have hchannel : (decimal pkt.channel.toNat).length ≤ 3 :=
    length_decimal_natCast_le (by decide) (Nat.lt_trans pkt.channel.toNat_lt (by decide))
  have hrssi : (decimal pkt.rssi.toInt).length ≤ 4 :=
    length_decimal_le (by decide) (natAbs_toInt8_lt pkt.rssi)
  have hrx : (decimal pkt.rxBytes.toNat).length ≤ 20 :=
    length_decimal_natCast_le (by decide) (Nat.lt_trans pkt.rxBytes.toNat_lt (by decide))
  have htx : (decimal pkt.txBytes.toNat).length ≤ 20 :=
    length_decimal_natCast_le (by decide) (Nat.lt_trans pkt.txBytes.toNat_lt (by decide))
  have hstart : (literal "[\"").length = 2 := rfl
  have hbetween : (literal "\",\"").length = 3 := rfl
  have hstop : (literal "\",").length = 2 := rfl
  have hcomma : (literal ",").length = 1 := rfl
  have hend : (literal "]").length = 1 := rfl
  simp only [row, List.length_append, hstart, hbetween, hstop, hcomma, hend]
  dsimp only at horientation
  omega

theorem length_rowsText_le {rows : List ImRingPacket} (first : Bool)
    (terminated : ∀ pkt ∈ rows, pkt.Terminated) :
    (rowsText first rows).length ≤ 142 * rows.length := by
  induction rows generalizing first with
  | nil => exact Nat.le_refl 0
  | cons pkt rest ih =>
      have hrow := length_row_le (terminated pkt List.mem_cons_self)
      have hrest := ih false fun p hp => terminated p (List.mem_cons_of_mem pkt hp)
      have hcomma : (if first then [] else literal ",").length ≤ 1 := by
        cases first with
        | true => exact Nat.zero_le 1
        | false => exact Nat.le_refl 1
      rw [rowsText, List.length_append, List.length_append, List.length_cons]
      omega

theorem length_footer_le (uptime : Int64) : (footer uptime).length ≤ 37 := by
  have huptime : (decimal uptime.toInt).length ≤ 20 :=
    length_decimal_le (by decide) (natAbs_toInt64_lt uptime)
  have hname : (literal "],\"uptime_mins\":").length = 16 := rfl
  have hend : (literal "\x7d").length = 1 := rfl
  rw [footer, List.length_append, List.length_append, hname, hend]
  omega

/-! ## Bytes of a text -/

/-- The bytes have no zero among them. -/
def NoNul (bytes : List UInt8) : Prop := ∀ b ∈ bytes, b ≠ 0

instance (bytes : List UInt8) : Decidable (NoNul bytes) :=
  List.decidableBAll (fun b => b ≠ 0) bytes

theorem NoNul.append {first second : List UInt8} (hfirst : NoNul first) (hsecond : NoNul second) :
    NoNul (first ++ second) := by
  intro b hb
  rcases List.mem_append.mp hb with hb | hb
  · exact hfirst b hb
  · exact hsecond b hb

theorem noNul_cString (buffer : List UInt8) : NoNul (cString buffer) := by
  intro b hb
  simpa using List.mem_takeWhile_imp hb

theorem noNul_ascii {text : List Char} (h : ∀ c ∈ text, 0 < c.toNat ∧ c.toNat < 128) :
    NoNul (ascii text) := by
  intro b hb hzero
  obtain ⟨c, hc, rfl⟩ := List.mem_map.mp hb
  obtain ⟨hpos, hlt⟩ := h c hc
  have hval := congrArg UInt8.toNat hzero
  rw [UInt8.toNat_ofNat'] at hval
  have hzero' : (0 : UInt8).toNat = 0 := rfl
  omega

theorem mem_intText {n : Int} {c : Char} (h : c ∈ intText n) : c = '-' ∨ c.isDigit = true := by
  unfold intText at h
  split at h
  · rcases List.mem_cons.mp h with h | h
    · exact .inl h
    · exact .inr (isDigit_toDigits h)
  · exact .inr (isDigit_toDigits h)

theorem toNat_of_mem_intText {n : Int} {c : Char} (h : c ∈ intText n) :
    0x20 ≤ c.toNat ∧ c.toNat < 128 ∧ c.toNat ≠ 0x22 ∧ c.toNat ≠ 0x5c := by
  rcases mem_intText h with rfl | hdigit
  · decide
  · simp only [Char.isDigit, Bool.and_eq_true, decide_eq_true_eq] at hdigit
    have hge : 48 ≤ c.toNat := hdigit.1
    have hle : c.toNat ≤ 57 := hdigit.2
    omega

theorem noNul_decimal (n : Int) : NoNul (decimal n) := by
  refine noNul_ascii fun c hc => ?_
  have hchar := toNat_of_mem_intText hc
  omega

/-! ## Addresses -/

theorem ofNat_eq_of_mod {n : Nat} {b : UInt8} (h : n % 2 ^ 8 = b.toNat) : UInt8.ofNat n = b := by
  apply UInt8.toNat_inj.mp
  rw [UInt8.toNat_ofNat', h]

theorem putWord_takeWord (b0 b1 b2 b3 : UInt8) :
    putWord (takeWord [b0, b1, b2, b3]).1 = [b0, b1, b2, b3] := by
  have h0 := b0.toNat_lt
  have h1 := b1.toNat_lt
  have h2 := b2.toNat_lt
  have h3 := b3.toNat_lt
  have hword : (takeWord [b0, b1, b2, b3]).1.toNat =
      b0.toNat + 2 ^ 8 * b1.toNat + 2 ^ 16 * b2.toNat + 2 ^ 24 * b3.toNat := by
    show (BitVec.ofNat 32 (b0.toNat + 2 ^ 8 * b1.toNat + 2 ^ 16 * b2.toNat +
      2 ^ 24 * b3.toNat)).toNat = _
    rw [BitVec.toNat_ofNat]
    exact Nat.mod_eq_of_lt (by omega)
  rw [putWord, hword, ofNat_eq_of_mod (b := b0) (by omega), ofNat_eq_of_mod (b := b1) (by omega),
    ofNat_eq_of_mod (b := b2) (by omega), ofNat_eq_of_mod (b := b3) (by omega)]

theorem putWord_htonl (addr : BitVec 32) : putWord (htonl addr) = (putWord addr).reverse :=
  putWord_takeWord _ _ _ _

theorem ascii_append (first second : List Char) :
    ascii (first ++ second) = ascii first ++ ascii second := List.map_append

theorem inetNtoaR_htonl (addr : BitVec 32) : inetNtoaR (htonl addr) = ascii (dotted addr) := by
  have hlt := addr.isLt
  have hhigh : addr.toNat / 2 ^ 24 % 2 ^ 8 = addr.toNat / 2 ^ 24 := Nat.mod_eq_of_lt (by omega)
  have hcons : ∀ text : List Char, ascii ('.' :: text) = literal "." ++ ascii text := fun _ => rfl
  rw [inetNtoaR, putWord_htonl]
  simp only [putWord, List.reverse_cons, List.reverse_nil, List.nil_append, List.cons_append,
    List.map_cons, List.map_nil, List.intersperse_cons_cons, List.intersperse_singleton,
    List.flatten_cons, List.flatten_nil, List.append_nil, decimal, intText_natCast,
    UInt8.toNat_ofNat', hhigh, dotted, ascii_append, hcons]

theorem toNat_of_mem_dotted {addr : BitVec 32} {c : Char} (h : c ∈ dotted addr) :
    0x20 ≤ c.toNat ∧ c.toNat < 128 ∧ c.toNat ≠ 0x22 ∧ c.toNat ≠ 0x5c := by
  have hdigits : ∀ n : Nat, c ∈ Nat.toDigits 10 n →
      0x20 ≤ c.toNat ∧ c.toNat < 128 ∧ c.toNat ≠ 0x22 ∧ c.toNat ≠ 0x5c := by
    intro n hn
    rw [← intText_natCast] at hn
    exact toNat_of_mem_intText hn
  have hdot : 0x20 ≤ '.'.toNat ∧ '.'.toNat < 128 ∧ '.'.toNat ≠ 0x22 ∧ '.'.toNat ≠ 0x5c := by
    decide
  simp only [dotted, List.mem_append, List.mem_cons] at h
  rcases h with h | rfl | h | rfl | h | rfl | h
  · exact hdigits _ h
  · exact hdot
  · exact hdigits _ h
  · exact hdot
  · exact hdigits _ h
  · exact hdot
  · exact hdigits _ h

theorem noNul_inetNtoaR_htonl (addr : BitVec 32) : NoNul (inetNtoaR (htonl addr)) := by
  rw [inetNtoaR_htonl]
  refine noNul_ascii fun c hc => ?_
  have hchar := toNat_of_mem_dotted hc
  omega

theorem noNul_row (pkt : ImRingPacket) : NoNul (row pkt) := by
  have hname : ∀ k : Fin maxOrientations,
      NoNul (literal (orientationNames.toList.getD k.val "")) := by decide
  have horientation := hname
    ⟨pkt.orientation.toNat % maxOrientations, Nat.mod_lt _ (by decide)⟩
  have hstart : NoNul (literal "[\"") := by decide
  have hbetween : NoNul (literal "\",\"") := by decide
  have hstop : NoNul (literal "\",") := by decide
  have hcomma : NoNul (literal ",") := by decide
  have hend : NoNul (literal "]") := by decide
  have huuid := ((hstart.append horientation).append hbetween).append
    (noNul_cString pkt.uuid.toList)
  have hlink := (huuid.append hbetween).append (noNul_cString pkt.link.toList)
  have hsubnet := (hlink.append hbetween).append (noNul_inetNtoaR_htonl pkt.subnet)
  have hmask := (hsubnet.append hbetween).append (noNul_inetNtoaR_htonl pkt.mask)
  have hchannel := (hmask.append hstop).append (noNul_decimal pkt.channel.toNat)
  have hrssi := (hchannel.append hcomma).append (noNul_decimal pkt.rssi.toInt)
  have hrx := (hrssi.append hcomma).append (noNul_decimal pkt.rxBytes.toNat)
  have htx := (hrx.append hcomma).append (noNul_decimal pkt.txBytes.toNat)
  exact htx.append hend

theorem noNul_rowsText (first : Bool) (rows : List ImRingPacket) :
    NoNul (rowsText first rows) := by
  induction rows generalizing first with
  | nil => exact fun b hb => absurd hb List.not_mem_nil
  | cons pkt rest ih =>
      have hcomma : NoNul (if first then [] else literal ",") := by
        cases first <;> decide
      exact (hcomma.append (noNul_row pkt)).append (ih false)

theorem noNul_payloadText (ring : Ring) (uptime : Int64) : NoNul (payloadText ring uptime) := by
  have hheader : NoNul header := by decide
  have hname : NoNul (literal "],\"uptime_mins\":") := by decide
  have hend : NoNul (literal "\x7d") := by decide
  exact (hheader.append (noNul_rowsText _ _)).append ((hname.append (noNul_decimal _)).append hend)

/-! ## The buffer -/

/-- A text was written, and nothing was cut short. -/
structure Written (payload : Payload) (text : List UInt8) : Prop where
  offset : payload.offset = text.length
  whole : payload.truncated = false
  front : payload.buffer.take text.length = text
  size : payload.buffer.length = maxPayloadBuffer

theorem Written.start (buffer : Vector UInt8 maxPayloadBuffer) :
    Written ⟨buffer.toList, 0, false⟩ [] :=
  ⟨rfl, rfl, rfl, buffer.length_toList⟩

/-- A text with room for its end is written after the others, with a zero behind it. -/
theorem Written.snprintf {payload : Payload} {text : List UInt8} (h : Written payload text)
    {new : List UInt8} (hlt : text.length + new.length < maxPayloadBuffer) :
    ∃ next, payload.snprintf new = .ok next ∧ Written next (text ++ new) ∧
      ∃ rest, next.buffer = text ++ new ++ 0 :: rest := by
  have hbuffer : maxPayloadBuffer = 1400 := rfl
  have hsize : sizeLeft payload.offset = maxPayloadBuffer - text.length := by
    rw [sizeLeft, h.offset]
    omega
  have hwritten : (if maxPayloadBuffer - text.length = 0 then []
      else new.take (maxPayloadBuffer - text.length - 1) ++ [0]) = new ++ [0] := by
    rw [if_neg (by omega), List.take_of_length_le (by omega)]
  have hstop : ¬ maxPayloadBuffer < text.length + (new ++ [0]).length := by
    rw [List.length_append, List.length_singleton]
    omega
  have hcut : ¬ maxPayloadBuffer - text.length ≤ new.length := by omega
  refine ⟨⟨text ++ (new ++ [0]) ++ payload.buffer.drop (text.length + (new ++ [0]).length),
    text.length + new.length, false⟩, ?_, ⟨?_, rfl, ?_, ?_⟩, ?_⟩
  · unfold Payload.snprintf
    rw [hsize]
    simp only [hwritten, h.offset, h.front, h.whole]
    rw [if_neg hstop, decide_eq_false hcut]
    rfl
  · exact (List.length_append).symm
  · rw [← List.append_assoc, List.append_assoc (text ++ new)]
    exact List.take_left
  · have hold := h.size
    simp only [List.length_append, List.length_drop, List.length_singleton]
    omega
  · refine ⟨payload.buffer.drop (text.length + (new ++ [0]).length), ?_⟩
    simp only [List.append_assoc, List.singleton_append]

theorem Written.comma {payload : Payload} {text : List UInt8} (h : Written payload text)
    (first : Bool) (hlt : text.length + (if first then [] else literal ",").length < 1400) :
    ∃ next, payload.comma first = .ok next ∧
      Written next (text ++ if first then [] else literal ",") := by
  cases first with
  | true => exact ⟨payload, rfl, by rw [if_pos rfl, List.append_nil]; exact h⟩
  | false =>
      obtain ⟨next, hnext, hwritten, -⟩ := h.snprintf hlt
      exact ⟨next, hnext, hwritten⟩

/-- The loop writes all rows and does not stop early. -/
theorem Written.writeRows {payload : Payload} {text : List UInt8} (h : Written payload text)
    {rows : List ImRingPacket} {first : Bool}
    (hlt : text.length + (rowsText first rows).length < maxPayloadBuffer - 50) :
    ∃ next, InfoManager.writeRows payload first rows = .ok (next, false) ∧
      Written next (text ++ rowsText first rows) := by
  induction rows generalizing payload text first with
  | nil => exact ⟨payload, rfl, by rw [rowsText, List.append_nil]; exact h⟩
  | cons pkt rest ih =>
      have hbuffer : maxPayloadBuffer = 1400 := rfl
      rw [rowsText, List.length_append, List.length_append] at hlt
      obtain ⟨separated, hcomma, hseparated⟩ := h.comma first (by omega)
      have hfits : (text ++ if first then [] else literal ",").length + (row pkt).length <
          maxPayloadBuffer := by
        rw [List.length_append]
        omega
      obtain ⟨next, hnext, hwritten, -⟩ := hseparated.snprintf hfits
      have hroom : ¬ maxPayloadBuffer - 50 ≤ next.offset := by
        rw [hwritten.offset, List.length_append, List.length_append]
        omega
      have hrest : ((text ++ if first then [] else literal ",") ++ row pkt).length +
          (rowsText false rest).length < maxPayloadBuffer - 50 := by
        rw [List.length_append, List.length_append]
        omega
      obtain ⟨last, hlast, hlast'⟩ := ih hwritten hrest
      refine ⟨last, ?_, ?_⟩
      · rw [InfoManager.writeRows, hcomma]
        simp only [bind, Except.bind, hnext, if_neg hroom, hlast]
      · rw [rowsText, ← List.append_assoc, ← List.append_assoc]
        exact hlast'

theorem Ring.Terminated.toList {ring : Ring} (terminated : ring.Terminated) :
    ∀ pkt ∈ ring.toList, pkt.Terminated :=
  fun pkt hpkt => terminated pkt (Vector.mem_toList_iff.mp hpkt)

/-- A ring of terminated texts is written whole, and the buffer holds the payload as a string. -/
theorem imClientTask_written (buffer : Vector UInt8 maxPayloadBuffer) {ring : Ring}
    (terminated : ring.Terminated) (uptime : Int64) :
    ∃ payload, imClientTask buffer ring uptime = .ok (payload, false) ∧
      payload.truncated = false ∧ payload.sent = payloadText ring uptime := by
  have hbuffer : maxPayloadBuffer = 1400 := rfl
  have hrows := length_rowsText_le true terminated.toList
  rw [Vector.length_toList] at hrows
  have hheader : header.length = 103 := rfl
  have hfooter := length_footer_le uptime
  have hmax : maxOrientations = 5 := rfl
  have hfirst : ([] : List UInt8).length + header.length < maxPayloadBuffer := by decide
  obtain ⟨started, hstart, hstarted, -⟩ := (Written.start buffer).snprintf hfirst
  rw [List.nil_append] at hstarted
  have hsecond : header.length + (rowsText true ring.toList).length < maxPayloadBuffer - 50 := by
    omega
  obtain ⟨written, hwrite, hwritten⟩ := hstarted.writeRows hsecond
  have hthird : (header ++ rowsText true ring.toList).length + (footer uptime).length <
      maxPayloadBuffer := by
    rw [List.length_append]
    omega
  obtain ⟨payload, hend, hpayload, rest, hrest⟩ := hwritten.snprintf hthird
  refine ⟨payload, ?_, hpayload.whole, ?_⟩
  · unfold imClientTask
    rw [hstart]
    simp only [bind, Except.bind, hwrite, hend]
    rfl
  · rw [Payload.sent, hrest]
    exact cString_append_zero (noNul_payloadText ring uptime) rest

end InfoManager

end I4A
