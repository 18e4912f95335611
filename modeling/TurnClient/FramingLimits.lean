import TurnClient.StreamFraming

/-!
# Framing near the 16-bit limit

`stun_get_message_len_str` adds the header to the length field in a `uint16_t`.
A length field near the top wraps: the sum is then smaller than the header,
always fits into what has arrived and is returned as the length of the message.
-/

namespace TurnClient

open ByteMemory
set_option autoImplicit false

def lengthField (m : Mem) : Nat := (get16 m 2).toNat

/-- Two zero top bits, the magic cookie and a length that is a multiple of four. -/
def BeginsWithHeader (m : Mem) : Prop :=
  m 0 &&& 0xC0 = 0 ∧ get32 m 4 = stunMagicCookie ∧ lengthField m % 4 = 0

/-- The size on the stream of a message that has `len` bytes. -/
def paddedSize (padding : Bool) (len : Nat) : Nat := if padding then Tlv.pad4 len else len

/-- What is returned and what is stored in `app_len` are the sizes the header gives. -/
def ExactFraming (ulongMax : Nat) (buf : List Byte) (blen : Nat) (padding : Bool)
    (answer : Int × Nat) : Prop :=
  (BeginsWithHeader (ofList buf) → 0 ≤ answer.1 →
    answer.1 = answer.2 ∧ answer.2 = stunHeaderLength + lengthField (ofList buf) ∧
      stunIsCommandMessageStr (ofList buf) answer.2 = true) ∧
  (stunValidChannel (get16 (ofList buf) 0) = true → httpFramed ulongMax buf blen = none →
    0 ≤ answer.1 →
      answer.2 = 4 + lengthField (ofList buf) ∧ answer.1 = paddedSize padding answer.2) ∧
  answer.1 ≠ 0

def HeaderWraps (m : Mem) (blen : Nat) : Prop :=
  stunHeaderLength ≤ blen ∧ BeginsWithHeader m ∧ 65516 ≤ lengthField m

def ChannelWraps (ulongMax : Nat) (buf : List Byte) (blen : Nat) (padding : Bool) : Prop :=
  4 ≤ blen ∧ stunValidChannel (get16 (ofList buf) 0) = true ∧ httpFramed ulongMax buf blen = none ∧
    (65532 ≤ lengthField (ofList buf) ∨ padding = true ∧ 65529 ≤ lengthField (ofList buf))

/-! ## The three kinds of beginnings -/

theorem not_stunValidChannel_of_top_bits {m : Mem} (h : m 0 &&& 0xC0 = 0) :
    stunValidChannel (get16 m 0) = false := by
  have hbyte : ∀ b : Byte, b &&& 0xC0 = 0 → b.toNat < 64 := by decide
  have h0 := hbyte (m 0) h
  have h1 := (m 1).isLt
  apply not_stunValidChannel_of_lt
  rw [get16_toNat]
  omega

theorem startsWithCommand_eq_true_iff (m : Mem) (blen : Nat) :
    startsWithCommand m blen = true ↔
      stunHeaderLength ≤ blen ∧ BeginsWithHeader m ∧ (get16 m 2 + 20).toNat ≤ blen := by
  unfold startsWithCommand BeginsWithHeader lengthField
  rw [← and_0003_eq_zero_iff]
  simp only [Bool.and_eq_true, decide_eq_true_eq, Bool.not_eq_true', beq_iff_eq]
  constructor
  · intro h
    obtain ⟨⟨⟨⟨⟨h20, _⟩, hbits⟩, hcookie⟩, hmod⟩, hfits⟩ := h
    exact ⟨h20, ⟨hbits, hcookie, hmod⟩, hfits⟩
  · intro h
    obtain ⟨h20, ⟨hbits, hcookie, hmod⟩, hfits⟩ := h
    exact ⟨⟨⟨⟨⟨h20, not_stunValidChannel_of_top_bits hbits⟩, hbits⟩, hcookie⟩, hmod⟩, hfits⟩

/-- Nothing is found where neither a STUN message nor a channel number begins. -/
theorem messageLen_of_neither {ulongMax blen appLen : Nat} {buf : List Byte} {padding : Bool}
    (hcommand : startsWithCommand (ofList buf) blen = false)
    (hchannel : ¬ (4 ≤ blen ∧ stunValidChannel (get16 (ofList buf) 0) = true)) :
    (stunGetMessageLenStr ulongMax buf blen padding appLen).1 = -1 := by
  have hhttp : isHttpInline ulongMax buf blen = 0 := by
    unfold isHttpInline
    cases hsp : httpHeadEnd (ofList buf) blen with
    | none => rfl
    | some sp =>
      have h12 := (httpHeadEnd_cases hsp).1
      exact absurd ⟨by omega, httpChannels_valid (httpChannels_of_head hsp)⟩ hchannel
  unfold stunGetMessageLenStr
  simp only [hcommand, hhttp, if_neg hchannel]
  split
  · rfl
  · rw [if_neg (by simp), if_neg (by omega)]

theorem exactFraming_of_fail {ulongMax blen : Nat} {buf : List Byte} {padding : Bool}
    {answer : Int × Nat} (hr : answer.1 = -1) : ExactFraming ulongMax buf blen padding answer := by
  refine ⟨fun _ h => ?_, fun _ _ h => ?_, by omega⟩
  · omega
  · omega

/-! ## STUN -/

theorem header_sum (x : BitVec 16) : (x + 20).toNat = (x.toNat + 20) % 2 ^ 16 := BitVec.toNat_add x 20

theorem exactFraming_command_iff {ulongMax blen : Nat} {buf : List Byte} {padding : Bool}
    (hheader : BeginsWithHeader (ofList buf)) :
    ExactFraming ulongMax buf blen padding
        (((get16 (ofList buf) 2 + 20).toNat : Int), (get16 (ofList buf) 2 + 20).toNat) ↔
      lengthField (ofList buf) < 65516 := by
  have hchannel := not_stunValidChannel_of_top_bits hheader.1
  have hsum := header_sum (get16 (ofList buf) 2)
  have hlt := (get16 (ofList buf) 2).isLt
  obtain ⟨hbits, hcookie, hmod⟩ := hheader
  constructor
  · intro h
    have hlen := (h.1 ⟨hbits, hcookie, hmod⟩ (Int.natCast_nonneg _)).2.1
    unfold lengthField stunHeaderLength at hlen
    unfold lengthField
    simp only at hlen
    omega
  · intro h
    unfold lengthField at h
    have hexact : (get16 (ofList buf) 2 + 20).toNat =
        stunHeaderLength + lengthField (ofList buf) := by
      unfold lengthField stunHeaderLength
      omega
    refine ⟨fun _ _ => ⟨rfl, hexact, ?_⟩, fun hvalid => ?_, ?_⟩
    · unfold lengthField at hmod
      rw [hexact]
      unfold stunIsCommandMessageStr lengthField
      rw [hchannel, hbits, hcookie, (and_0003_eq_zero_iff _).mpr hmod]
      simp [Nat.add_comm]
    · rw [hchannel] at hvalid
      cases hvalid
    · rw [hexact]
      unfold stunHeaderLength
      simp only
      omega

/-! ## ChannelData -/

/-- The sizes of ChannelData with the length field `len`, as the code adds them up. -/
def wrappedSizes (padding : Bool) (len : Nat) : Nat × Nat :=
  (paddedSize padding ((4 + len) % 2 ^ 16) % 2 ^ 16, (4 + len) % 2 ^ 16)

theorem channelSizes_eq (padding : Bool) (m : Mem) :
    channelSizes padding m = wrappedSizes padding (lengthField m) := by
  have hsum : (4 + get16 m 2).toNat = (4 + lengthField m) % 2 ^ 16 := BitVec.toNat_add 4 _
  unfold channelSizes wrappedSizes
  rw [← hsum]
  congr 1
  cases padding with
  | true => exact roundUp_true_toNat _
  | false => exact (Nat.mod_eq_of_lt (4 + get16 m 2).isLt).symm

theorem wrappedSizes_exact_iff (padding : Bool) {len : Nat} (hlen : len < 2 ^ 16) :
    ((wrappedSizes padding len).2 = 4 + len ∧
        (wrappedSizes padding len).1 = paddedSize padding (wrappedSizes padding len).2) ∧
      (wrappedSizes padding len).1 ≠ 0 ↔
      ¬ (65532 ≤ len ∨ padding = true ∧ 65529 ≤ len) := by
  cases padding with
  | true =>
    simp only [wrappedSizes, paddedSize, Tlv.pad4, if_true, true_and]
    omega
  | false =>
    simp only [wrappedSizes, paddedSize, Bool.false_eq_true, if_false, false_and, or_false]
    omega

/-- Once a sum wraps, the header alone is already long enough. -/
theorem wrappedSizes_le {padding : Bool} {len : Nat} (hlen : len < 2 ^ 16)
    (h : 65532 ≤ len ∨ padding = true ∧ 65529 ≤ len) : (wrappedSizes padding len).1 ≤ 4 := by
  cases padding with
  | true =>
    simp only [wrappedSizes, paddedSize, Tlv.pad4, if_true]
    omega
  | false =>
    simp only [Bool.false_eq_true, false_and, or_false] at h
    simp only [wrappedSizes, paddedSize, Bool.false_eq_true, if_false]
    omega

theorem exactFraming_channel_iff {ulongMax blen : Nat} {buf : List Byte} {padding : Bool}
    (h4 : 4 ≤ blen) (hvalid : stunValidChannel (get16 (ofList buf) 0) = true)
    (hhttp : httpFramed ulongMax buf blen = none) :
    ExactFraming ulongMax buf blen padding
        (channelAnswer none (channelSizes padding (ofList buf)) blen) ↔
      ¬ (65532 ≤ lengthField (ofList buf) ∨ padding = true ∧ 65529 ≤ lengthField (ofList buf)) := by
  have hlt : lengthField (ofList buf) < 2 ^ 16 := (get16 (ofList buf) 2).isLt
  have hnoheader : ¬ BeginsWithHeader (ofList buf) := by
    intro hheader
    rw [not_stunValidChannel_of_top_bits hheader.1] at hvalid
    cases hvalid
  rw [channelSizes_eq]
  unfold channelAnswer
  simp only
  split
  · rw [← wrappedSizes_exact_iff padding hlt]
    unfold ExactFraming
    simp only [hnoheader, hvalid, hhttp, false_implies, true_and, true_implies, Nat.cast_inj,
      Int.natCast_nonneg, ne_eq, Int.natCast_eq_zero]
  · rename_i hfits
    refine iff_of_true (exactFraming_of_fail rfl) ?_
    intro hwraps
    have hle := wrappedSizes_le hlt hwraps
    omega

/-! ## Every buffer -/

theorem exactFraming_http {ulongMax blen h : Nat} {buf : List Byte} {padding : Bool} (hpos : 0 < h)
    (hvalid : stunValidChannel (get16 (ofList buf) 0) = true)
    (hhttp : httpFramed ulongMax buf blen = some h) :
    ExactFraming ulongMax buf blen padding ((h : Int), h) := by
  refine ⟨fun hheader => ?_, fun _ hnone => ?_, ?_⟩
  · rw [not_stunValidChannel_of_top_bits hheader.1] at hvalid
    cases hvalid
  · rw [hhttp] at hnone
    cases hnone
  · simp only
    omega

theorem framing_exact_iff (ulongMax : Nat) (buf : List Byte) (blen : Nat) (padding : Bool)
    (appLen : Nat) :
    ExactFraming ulongMax buf blen padding
        (stunGetMessageLenStr ulongMax buf blen padding appLen) ↔
      ¬ HeaderWraps (ofList buf) blen ∧ ¬ ChannelWraps ulongMax buf blen padding := by
  by_cases hchannel : 4 ≤ blen ∧ stunValidChannel (get16 (ofList buf) 0) = true
  · obtain ⟨h4, hvalid⟩ := hchannel
    have hheader : ¬ HeaderWraps (ofList buf) blen := by
      intro h
      rw [not_stunValidChannel_of_top_bits h.2.1.1] at hvalid
      cases hvalid
    rw [messageLen_of_channel h4 hvalid]
    cases hhttp : httpFramed ulongMax buf blen with
    | some h =>
      obtain ⟨_, _, _, hpos, _⟩ := httpFramed_eq_some_iff.mp hhttp
      refine iff_of_true (exactFraming_http hpos hvalid hhttp) ⟨hheader, fun hwraps => ?_⟩
      have hnone := hwraps.2.2.1
      rw [hhttp] at hnone
      cases hnone
    | none =>
      rw [exactFraming_channel_iff h4 hvalid hhttp]
      simp [hheader, ChannelWraps, h4, hvalid, hhttp]
  · have hwraps : ¬ ChannelWraps ulongMax buf blen padding :=
      fun h => hchannel ⟨h.1, h.2.1⟩
    cases hcommand : startsWithCommand (ofList buf) blen with
    | true =>
      obtain ⟨h20, hheader, _⟩ := (startsWithCommand_eq_true_iff _ _).mp hcommand
      rw [messageLen_of_command hcommand, exactFraming_command_iff hheader]
      simp [hwraps, HeaderWraps, h20, hheader]
    | false =>
      refine iff_of_true (exactFraming_of_fail (messageLen_of_neither hcommand hchannel))
        ⟨fun hheader => ?_, hwraps⟩
      obtain ⟨h20, hbegins, hlen⟩ := hheader
      -- the wrapped sum is below the header, so the message would have been found
      have hfound : startsWithCommand (ofList buf) blen = true := by
        refine (startsWithCommand_eq_true_iff _ _).mpr ⟨h20, hbegins, ?_⟩
        rw [header_sum]
        unfold lengthField at hlen
        unfold stunHeaderLength at h20
        omega
      rw [hcommand] at hfound
      cases hfound

/-- A header alone, with the length field 0xFFEC. -/
def wrappingHeader : List Byte :=
  [0, 1, 0xFF, 0xEC, 0x21, 0x12, 0xA4, 0x42, 0, 0, 0, 0, 0, 0, 0, 0, 0, 0, 0, 0]

theorem wrappingHeader_not_exact :
    stunGetMessageLenStr (2 ^ 64 - 1) wrappingHeader 20 true 20 = (0, 0) ∧
      ¬ ExactFraming (2 ^ 64 - 1) wrappingHeader 20 true
        (stunGetMessageLenStr (2 ^ 64 - 1) wrappingHeader 20 true 20) := by
  have hlen : stunGetMessageLenStr (2 ^ 64 - 1) wrappingHeader 20 true 20 = (0, 0) := by
    decide +kernel
  refine ⟨hlen, ?_⟩
  rw [hlen]
  intro h
  exact h.2.2 rfl

end TurnClient
