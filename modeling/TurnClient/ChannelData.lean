import TurnClient.FramingLimits

/-!
# ChannelData, built and taken apart

`stun_init_channel_message_str` writes the header and rounds the length up when
padding is wanted; `stun_is_channel_message_str` compares the length field with
the length of the buffer. A surplus is looked at only when it leaves the buffer
unaligned, and the length is clamped to 65535 before it is looked at.
-/

namespace TurnClient

open ByteMemory
set_option autoImplicit false

/-! ## Building -/

theorem roundUp_paddedSize (padding : Bool) {len : BitVec 16} (h : len.toNat ≤ 65532) :
    (roundUp padding len).toNat = paddedSize padding len.toNat := by
  cases padding with
  | true => exact roundUp_toNat h
  | false => rfl

theorem stunInitChannelMessageStr_ok_iff (chn : BitVec 16) (m m' : StunBuffer) (length : Int)
    (doPadding : Bool) :
    stunInitChannelMessageStr chn m length doPadding = (.ok, m') ↔
      0 ≤ length ∧ length ≤ 65503 ∧
        m' = ⟨put16 (put16 m.buf 0 chn) 2 (BitVec.ofInt 16 length),
          4 + paddedSize doPadding length.toNat⟩ := by
  unfold stunInitChannelMessageStr maxStunMessageSize intMax
  by_cases hneg : length < 0
  · rw [if_pos hneg]
    constructor
    · intro h
      cases h
    · rintro ⟨hpos, _⟩
      omega
  by_cases hover : 2147483647 < 4 + length
  · rw [if_neg hneg, if_pos hover]
    constructor
    · intro h
      cases h
    · rintro ⟨_, hle, _⟩
      omega
  by_cases hbig : ((65507 : Nat) : Int) < 4 + length
  · rw [if_neg hneg, if_neg hover, if_pos hbig]
    constructor
    · intro h
      cases h
    · rintro ⟨_, hle, _⟩
      omega
  · rw [if_neg hneg, if_neg hover, if_neg hbig]
    obtain ⟨n, rfl⟩ := Int.eq_ofNat_of_zero_le (not_lt.mp hneg)
    have hlen : (BitVec.ofInt 16 (n : Int)).toNat = n := by
      rw [BitVec.ofInt_natCast, BitVec.toNat_ofNat]
      omega
    have hround := roundUp_paddedSize doPadding
      (show (BitVec.ofInt 16 (n : Int)).toNat ≤ 65532 by omega)
    rw [hlen] at hround
    simp only [hround, Int.toNat_natCast, Prod.mk.injEq, true_and]
    constructor
    · intro h
      exact ⟨by omega, by omega, h.symm⟩
    · rintro ⟨_, _, h⟩
      exact h.symm

/-! ## Taking apart -/

/-- The length as the code goes on with it. -/
def clampedLen (blen : Nat) : Nat := if 0xFFFF < blen then 0xFFFF else blen

/-- When a buffer of at least four bytes that begins with a channel number is accepted. -/
def ChannelAccepted (header actual : Nat) (mandatoryPadding : Bool) : Prop :=
  header = actual ∨ header < actual ∧ (actual % 4 = 0 ∨
    mandatoryPadding = false ∧ header ≠ 0 ∧ actual ≤ header + 3)

theorem stunIsChannelMessageStr_true_iff (buf : Mem) (blen : Nat) (chnumber : BitVec 16)
    (mandatoryPadding : Bool) (r : Nat × BitVec 16) :
    stunIsChannelMessageStr buf blen chnumber mandatoryPadding = (true, r) ↔
      4 ≤ blen ∧ stunValidChannel (get16 buf 0) = true ∧
        ChannelAccepted (get16 buf 2).toNat (clampedLen blen - 4) mandatoryPadding ∧
        r = ((get16 buf 2).toNat + 4, get16 buf 0) := by
  have hlow (n : Nat) : n &&& 0x0003 = n % 4 := Nat.and_two_pow_sub_one_eq_mod n 2
  unfold stunIsChannelMessageStr ChannelAccepted clampedLen
  simp only [hlow]
  generalize (if 0xFFFF < blen then 0xFFFF else blen) = clamped
  generalize (get16 buf 2).toNat = header
  by_cases h4 : blen < 4
  · rw [if_pos h4]
    constructor
    · intro h
      cases h
    · rintro ⟨hle, _⟩
      omega
  rw [if_neg h4]
  cases hvalid : stunValidChannel (get16 buf 0) with
  | false => simp
  | true =>
    have hle : 4 ≤ blen := by omega
    have hsum : header = clamped - 4 ∨ header < clamped - 4 ∨ clamped - 4 < header := by omega
    obtain hsame | hless | hmore := hsum
    · simp [hle, hsame, eq_comm]
    · have hne : header ≠ clamped - 4 := by omega
      have hnot : ¬ clamped - 4 < header := by omega
      by_cases halign : (clamped - 4) % 4 = 0
      · simp [hle, hnot, hless, halign, eq_comm]
      · cases mandatoryPadding with
        | true => simp [hle, hnot, hne, halign]
        | false =>
          by_cases hzero : header = 0
          · subst hzero
            simp [hnot, hne, halign]
          · by_cases hsurplus : 3 < clamped - 4 - header
            · have hbeyond : ¬ clamped - 4 ≤ header + 3 := by omega
              simp [hnot, hne, halign, hzero, hsurplus, hbeyond]
            · have hwithin : clamped - 4 ≤ header + 3 := by omega
              simp [hle, hnot, hne, hless, halign, hzero, hsurplus, hwithin, eq_comm]
    · have hne : header ≠ clamped - 4 := by omega
      have hnot : ¬ header < clamped - 4 := by omega
      simp [hmore, hne, hnot]

/-! ## The round trip -/

theorem channelData_round_trip (chn chnumber : BitVec 16) (m m' : StunBuffer) (length : Int)
    (doPadding mandatoryPadding : Bool) (payload : List Byte)
    (hvalid : stunValidChannel chn = true)
    (h : stunInitChannelMessageStr chn m length doPadding = (.ok, m')) :
    stunIsChannelMessageStr (write m'.buf 4 payload) m'.len chnumber mandatoryPadding =
      (true, 4 + length.toNat, chn) := by
  obtain ⟨hpos, hle, rfl⟩ := (stunInitChannelMessageStr_ok_iff chn m m' length doPadding).mp h
  obtain ⟨n, rfl⟩ := Int.eq_ofNat_of_zero_le hpos
  simp only [Int.toNat_natCast]
  have hn : n ≤ 65503 := by omega
  have hchn : get16 (write (put16 (put16 m.buf 0 chn) 2 (BitVec.ofInt 16 n)) 4 payload) 0 = chn := by
    rw [get16_write_disjoint (.inl (by omega))]
    unfold put16
    rw [get16_write_disjoint (.inl (by omega))]
    exact get16_put16 _ _ _
  have hheader : (get16 (write (put16 (put16 m.buf 0 chn) 2 (BitVec.ofInt 16 n)) 4 payload)
      2).toNat = n := by
    rw [get16_write_disjoint (.inl (by omega)), get16_put16, BitVec.ofInt_natCast,
      BitVec.toNat_ofNat]
    omega
  refine (stunIsChannelMessageStr_true_iff _ _ _ _ _).mpr ⟨by omega, ?_, ?_, ?_⟩
  · rw [hchn]
    exact hvalid
  · rw [hheader]
    -- the padded length is aligned, and it stays below the clamp
    unfold ChannelAccepted clampedLen
    cases doPadding with
    | true =>
      unfold paddedSize Tlv.pad4
      simp only [if_true]
      rw [if_neg (by omega)]
      omega
    | false =>
      unfold paddedSize
      simp only [Bool.false_eq_true, if_false]
      rw [if_neg (by omega)]
      omega
  · rw [hchn, hheader, Nat.add_comm]

/-- 65501 bytes, padded to one byte more than the buffer has, and read back. -/
theorem longChannelData_read_back :
    stunIsChannelMessageStr
        (write (put16 (put16 (fun _ => 0) 0 0x4000) 2 (BitVec.ofInt 16 65501)) 4 [1, 2, 3])
        (4 + paddedSize true 65501) 0 true = (true, 4 + Int.toNat 65501, 0x4000) :=
  channelData_round_trip 0x4000 0 ⟨fun _ => 0, 0⟩
    ⟨put16 (put16 (fun _ => 0) 0 0x4000) 2 (BitVec.ofInt 16 65501), 4 + paddedSize true 65501⟩
    65501 true true [1, 2, 3] (by decide)
    ((stunInitChannelMessageStr_ok_iff _ _ _ _ _).mpr ⟨by decide, by decide, rfl⟩)

/-! ## Trailing bytes -/

/-- What is accepted is at most three bytes longer than what is returned. -/
def PaddingOnly (blen : Nat) (answer : Bool × Nat × BitVec 16) : Prop :=
  answer.1 = true → blen ≤ answer.2.1 + 3

/-- A surplus of four bytes and more that no branch looks at: the buffer is aligned, or it is
longer than 65535 and looked at as if it had 65535 bytes. -/
def SurplusUnseen (header blen : Nat) (mandatoryPadding : Bool) : Prop :=
  header + 8 ≤ blen ∧
    (blen ≤ 65535 ∧ blen % 4 = 0 ∨
      65535 < blen ∧
        (header = 65531 ∨ mandatoryPadding = false ∧ 65528 ≤ header ∧ header ≤ 65530))

theorem surplusUnseen_iff {header blen : Nat} (mandatoryPadding : Bool) (h4 : 4 ≤ blen) :
    SurplusUnseen header blen mandatoryPadding ↔
      ChannelAccepted header (clampedLen blen - 4) mandatoryPadding ∧ header + 4 + 3 < blen := by
  unfold SurplusUnseen ChannelAccepted clampedLen
  cases mandatoryPadding with
  | true =>
    simp only [Bool.true_eq_false, false_and, or_false]
    by_cases hclamp : 0xFFFF < blen
    · rw [if_pos hclamp]
      omega
    · rw [if_neg hclamp]
      omega
  | false =>
    simp only [true_and]
    by_cases hclamp : 0xFFFF < blen
    · rw [if_pos hclamp]
      omega
    · rw [if_neg hclamp]
      omega

theorem channelMessage_paddingOnly_iff (buf : Mem) (blen : Nat) (chnumber : BitVec 16)
    (mandatoryPadding : Bool) :
    PaddingOnly blen (stunIsChannelMessageStr buf blen chnumber mandatoryPadding) ↔
      ¬ (stunValidChannel (get16 buf 0) = true ∧
        SurplusUnseen (get16 buf 2).toNat blen mandatoryPadding) := by
  constructor
  · rintro honly ⟨hvalid, hunseen⟩
    have h4 : 4 ≤ blen := by
      have hsurplus := hunseen.1
      omega
    obtain ⟨haccepted, hsurplus⟩ := (surplusUnseen_iff mandatoryPadding h4).mp hunseen
    have heq := (stunIsChannelMessageStr_true_iff buf blen chnumber mandatoryPadding _).mpr
      ⟨h4, hvalid, haccepted, rfl⟩
    have hle := honly (by rw [heq])
    rw [heq] at hle
    simp only at hle
    omega
  · intro hseen htrue
    obtain ⟨h4, hvalid, haccepted, hr⟩ :=
      (stunIsChannelMessageStr_true_iff buf blen chnumber mandatoryPadding
        (stunIsChannelMessageStr buf blen chnumber mandatoryPadding).2).mp
        (Prod.ext htrue rfl)
    rw [hr]
    simp only
    by_contra hsurplus
    exact hseen ⟨hvalid, (surplusUnseen_iff mandatoryPadding h4).mpr ⟨haccepted, by omega⟩⟩

/-- An empty message on channel 0x4000, and 996 bytes behind it. -/
theorem trailingBytes_accepted :
    stunIsChannelMessageStr (put16 (fun _ => 0) 0 0x4000) 1000 0 true = (true, 4, 0x4000) ∧
      ¬ PaddingOnly 1000 (stunIsChannelMessageStr (put16 (fun _ => 0) 0 0x4000) 1000 0 true) := by
  have heq : stunIsChannelMessageStr (put16 (fun _ => 0) 0 0x4000) 1000 0 true =
      (true, 4, 0x4000) := by decide +kernel
  refine ⟨heq, ?_⟩
  rw [heq]
  intro honly
  have hle := honly rfl
  simp only at hle
  omega

/-! ## The room for a message -/

/-- The call has an answer, and where it is 0 the message fits into the buffer and has at
most three bytes of padding. -/
structure FitsPadded (length : Int) (answer : Rc × StunBuffer) : Prop where
  defined : answer.1 ≠ .undef
  fits : answer.1 = .ok → answer.2.len ≤ maxStunMessageSize ∧ 4 + length ≤ answer.2.len ∧
    (answer.2.len : Int) ≤ 4 + length + 3

theorem stunInitChannelMessageStr_undef_iff (chn : BitVec 16) (m : StunBuffer) (length : Int)
    (doPadding : Bool) :
    (stunInitChannelMessageStr chn m length doPadding).1 = .undef ↔ intMax < 4 + length := by
  unfold stunInitChannelMessageStr
  by_cases hneg : length < 0
  · rw [if_pos hneg]
    unfold intMax
    exact iff_of_false (by simp) (by omega)
  by_cases hover : intMax < 4 + length
  · rw [if_neg hneg, if_pos hover]
    exact iff_of_true rfl hover
  · rw [if_neg hneg, if_neg hover]
    split
    · exact iff_of_false (by simp) hover
    · exact iff_of_false (by simp) hover

/-- The limit holds for the length before padding, and it is no multiple of four. The sum
that is compared with it overflows for the four largest lengths. -/
theorem channelMessage_fits_iff (chn : BitVec 16) (m : StunBuffer) (length : Int)
    (doPadding : Bool) :
    FitsPadded length (stunInitChannelMessageStr chn m length doPadding) ↔
      4 + length ≤ intMax ∧ ¬ (doPadding = true ∧ 65501 ≤ length ∧ length ≤ 65503) := by
  have hok := stunInitChannelMessageStr_ok_iff chn m
    (stunInitChannelMessageStr chn m length doPadding).2 length doPadding
  have hundef := stunInitChannelMessageStr_undef_iff chn m length doPadding
  constructor
  · intro h
    refine ⟨not_lt.mp fun hover => h.defined (hundef.mpr hover), ?_⟩
    rintro ⟨rfl, hge, hle⟩
    have heq := (stunInitChannelMessageStr_ok_iff chn m _ length true).mpr
      ⟨by omega, hle, rfl⟩
    obtain ⟨hbound, _⟩ := h.fits (by rw [heq])
    rw [heq] at hbound
    unfold maxStunMessageSize paddedSize Tlv.pad4 at hbound
    simp only [if_true] at hbound
    omega
  · rintro ⟨hsum, hshort⟩
    refine ⟨fun hr => absurd (hundef.mp hr) (not_lt.mpr hsum), ?_⟩
    intro hr
    obtain ⟨hpos, hle, hm⟩ := hok.mp (Prod.ext hr rfl)
    obtain ⟨n, rfl⟩ := Int.eq_ofNat_of_zero_le hpos
    rw [hm]
    unfold maxStunMessageSize paddedSize Tlv.pad4
    cases doPadding with
    | true =>
      simp only [true_and] at hshort
      simp only [Int.toNat_natCast, if_true]
      omega
    | false =>
      simp only [Int.toNat_natCast, Bool.false_eq_true, if_false]
      omega

theorem longChannelData_over :
    (stunInitChannelMessageStr 0x4000 ⟨fun _ => 0, 0⟩ 65501 true).2.len = 65508 ∧
      ¬ FitsPadded 65501 (stunInitChannelMessageStr 0x4000 ⟨fun _ => 0, 0⟩ 65501 true) := by
  have heq := (stunInitChannelMessageStr_ok_iff 0x4000 ⟨fun _ => 0, 0⟩ _ 65501 true).mpr
    ⟨by decide, by decide, rfl⟩
  rw [heq]
  refine ⟨rfl, fun hfits => ?_⟩
  have hbound := (hfits.fits rfl).1
  revert hbound
  decide

end TurnClient
