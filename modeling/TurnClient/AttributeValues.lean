import TurnClient.ErrorResponses

/-!
# Attributes that are written and read by different rules

`stun_attr_get_bandwidth` scales the value up in 32 bits, after it was scaled
down in 64. `stun_attr_add_address_error_code` appends the default reason to the
code; `stun_attr_get_address_error_code` accepts a value of four bytes only.
-/

namespace TurnClient

open ByteMemory
set_option autoImplicit false

/-! ## The bandwidth -/

/-- `bps << 7` is an `uint32_t`, and only then a `band_limit_t`. -/
def stunAttrGetBandwidth (buf : Mem) (attr : Option Nat) : BitVec 64 :=
  match stunAttrGetValue buf attr with
  | none => 0
  | some value =>
    if 4 ≤ stunAttrGetLen buf attr then (get32 buf value <<< 7).setWidth 64 else 0

/-- What is read from the attribute that was added, the last one of the message. -/
def bandwidthReadBack (m : StunBuffer) (x : BitVec 64) : BitVec 64 :=
  let m' := (stunAttrAddBandwidthStr m x).2
  stunAttrGetBandwidth m'.buf (attrRefs m'.buf m'.len).getLast?

theorem offsets_append_singleton (off : Nat) (rs : List Tlv.Record) (r : Tlv.Record) :
    Tlv.offsets off (rs ++ [r]) = Tlv.offsets off rs ++ [off + Tlv.size rs] := by
  induction rs generalizing off with
  | nil => rfl
  | cons s rs ih =>
    simp only [List.cons_append, Tlv.offsets, Tlv.size, ih]
    rw [Nat.add_assoc off, Nat.add_assoc off]

/-- The attribute appended last is the last one the walk visits. -/
theorem IsMessage.last_attrRef {m : StunBuffer} {msgType : BitVec 16} {tid : StunTid}
    {attrs : List Tlv.Record} {r : Tlv.Record} (h : IsMessage m msgType tid (attrs ++ [r])) :
    (attrRefs m.buf m.len).getLast? = some (20 + Tlv.size attrs) ∧
      Tlv.RecordAt m.buf (20 + Tlv.size attrs) r := by
  rw [h.attrRefs_eq, offsets_append_singleton, List.getLast?_concat]
  exact ⟨rfl, ((Tlv.laidOut_append _ _ _ _).mp h.laidOut).2.1⟩

theorem scaled_toNat (x : BitVec 64) :
    ((((x >>> 7).setWidth 32 : BitVec 32) <<< 7).setWidth 64).toNat =
      x.toNat / 128 * 128 % 2 ^ 32 := by
  simp only [BitVec.toNat_setWidth, BitVec.toNat_shiftLeft, BitVec.toNat_ushiftRight,
    Nat.shiftRight_eq_div_pow, Nat.shiftLeft_eq]
  omega

theorem IsMessage.bandwidth_read {m : StunBuffer} {msgType : BitVec 16} {tid : StunTid}
    {attrs : List Tlv.Record} (h : IsMessage m msgType tid attrs)
    (hroom : m.len + 8 < maxStunMessageSize) (x : BitVec 64) :
    (bandwidthReadBack m x).toNat = x.toNat / 128 * 128 % 2 ^ 32 := by
  have hbytes := attrBytes_ofList (be32 ((x >>> 7).setWidth 32))
  obtain ⟨m', hadd, hm', _⟩ := h.add_room stunAttributeNewBandwidth
    (some (ofList (be32 ((x >>> 7).setWidth 32)))) ((be32 ((x >>> 7).setWidth 32)).length : Int) (by
      have hpad : Tlv.pad4 4 = 4 := rfl
      rw [hbytes, be32_length, hpad]
      omega)
  rw [hbytes] at hm'
  obtain ⟨hlast, _, hlen, hvalue⟩ := hm'.last_attrRef
  simp only [be32_length] at hlen hvalue
  unfold bandwidthReadBack stunAttrAddBandwidthStr stunAttrAddBytes
  rw [hadd]
  simp only [hlast, stunAttrGetBandwidth, stunAttrGetValue_some, stunAttrGetLen_some, hlen]
  rw [if_neg (by decide)]
  simp only [get32_of_slice hvalue]
  exact scaled_toNat x

/-- The value is read back rounded down to a multiple of 128, and none that is smaller is read
as more. -/
def BandwidthReadBack (m : StunBuffer) (x : BitVec 64) : Prop :=
  (bandwidthReadBack m x).toNat = x.toNat / 128 * 128 ∧
    ∀ y : BitVec 64, y.toNat ≤ x.toNat →
      (bandwidthReadBack m y).toNat ≤ (bandwidthReadBack m x).toNat

theorem bandwidth_read_back_iff {m : StunBuffer} {msgType : BitVec 16} {tid : StunTid}
    {attrs : List Tlv.Record} (h : IsMessage m msgType tid attrs)
    (hroom : m.len + 8 < maxStunMessageSize) (x : BitVec 64) :
    BandwidthReadBack m x ↔ x.toNat < 2 ^ 32 := by
  unfold BandwidthReadBack
  simp only [h.bandwidth_read hroom]
  constructor
  · intro hread
    have hfloor := hread.1
    omega
  · intro hlt
    refine ⟨by omega, fun y hy => ?_⟩
    omega

/-- An Allocate request without attributes. -/
def bareAllocate : StunBuffer :=
  stunInitRequestStr stunMethodAllocate (fun _ => 0) ⟨List.replicate 12 7, rfl⟩

theorem isMessage_bareAllocate :
    IsMessage bareAllocate (stunMakeRequest stunMethodAllocate &&& 0x3FFF)
      ⟨List.replicate 12 7, rfl⟩ [] :=
  isMessage_init .request stunMethodAllocate _ _ none

/-- One below 2^32. -/
theorem largestBandwidth_read_back : BandwidthReadBack bareAllocate 4294967295 :=
  (bandwidth_read_back_iff isMessage_bareAllocate (by decide) 4294967295).mpr (by decide)

theorem bandwidth_read_as_zero :
    (4294967296 : BitVec 64).toNat / 128 < 2 ^ 32 ∧
      (bandwidthReadBack bareAllocate 4294967296).toNat = 0 ∧
      ¬ BandwidthReadBack bareAllocate 4294967296 := by
  have hread := isMessage_bareAllocate.bandwidth_read (by decide) 4294967296
  refine ⟨by decide, hread, fun h => ?_⟩
  have hfloor := h.1
  rw [hread] at hfloor
  exact absurd hfloor (by decide)

/-! ## The error code of an address family -/

def stunAttributeAddressErrorCode : BitVec 16 := 0x8033

/-- The answer is 0 also when the attribute was refused. -/
def stunAttrAddAddressErrorCode (m : StunBuffer) (requestedAddressFamily errorCode : Int) :
    Rc × StunBuffer :=
  let text := (getDefaultReason errorCode.toNat).take 508
  let avalue := [BitVec.ofInt 8 requestedAddressFamily, 0, BitVec.ofInt 8 (errorCode.tdiv 100),
    BitVec.ofInt 8 (errorCode.tmod 100)] ++ text ++ List.replicate (509 - text.length) 0
  let alen := 4 + text.length
  let rem := alen % 4
  let alen := if rem ≠ 0 then alen + (4 - rem) else alen
  (.ok, (stunAttrAddStr m stunAttributeAddressErrorCode (some (ofList avalue)) alen).2)

/-- The answer, and what the two pointers point to afterwards; `none` is a NULL pointer. -/
def stunAttrGetAddressErrorCode (buf : Mem) (len : Nat)
    (requestedAddressFamily errorCode : Option Int) : Int × Option Int × Option Int :=
  let requestedAddressFamily := requestedAddressFamily.map fun _ => 0
  let errorCode := errorCode.map fun _ => 0
  if len = 0 then (0, requestedAddressFamily, errorCode)
  else
    let sar := stunAttrGetFirstByTypeStr buf len stunAttributeAddressErrorCode
    if sar.isNone then (0, requestedAddressFamily, errorCode)
    else
      match stunAttrGetValue buf sar with
      | none => (-1, requestedAddressFamily, errorCode)
      | some value =>
        if stunAttrGetLen buf sar ≠ 4 then (-1, requestedAddressFamily, errorCode)
        else
          (0, requestedAddressFamily.map fun _ => ((buf value).toNat : Int),
            errorCode.map fun _ => ((buf (value + 2)).toNat * 100 + (buf (value + 3)).toNat : Int))

theorem getDefaultReason_length (errorCode : Nat) :
    1 ≤ (getDefaultReason errorCode).length ∧ (getDefaultReason errorCode).length ≤ 508 := by
  unfold getDefaultReason ascii
  split <;> simp

/-- The length of the attribute that is written, which is never 4. -/
def addressErrorLen (errorCode : Int) : Nat :=
  4 + Tlv.pad4 (getDefaultReason errorCode.toNat).length

theorem addressErrorLen_bounds (errorCode : Int) :
    8 ≤ addressErrorLen errorCode ∧ addressErrorLen errorCode ≤ 512 := by
  have hreason := getDefaultReason_length errorCode.toNat
  unfold addressErrorLen Tlv.pad4
  omega

theorem stunAttrAddAddressErrorCode_eq (m : StunBuffer) (family errorCode : Int) :
    ∃ avalue, (stunAttrAddAddressErrorCode m family errorCode).2 =
      (stunAttrAddStr m stunAttributeAddressErrorCode (some avalue)
        ((addressErrorLen errorCode : Nat) : Int)).2 := by
  have hreason := getDefaultReason_length errorCode.toNat
  unfold stunAttrAddAddressErrorCode
  rw [List.take_of_length_le hreason.2]
  simp only [manual_padding]
  exact ⟨_, rfl⟩

theorem addressErrorValue_length (avalue : Mem) (errorCode : Int) :
    (attrBytes (some avalue) ((addressErrorLen errorCode : Nat) : Int)).length =
      addressErrorLen errorCode := by
  unfold attrBytes
  rw [slice_length, Int.toNat_natCast]

/-- The attribute is refused, or it is the last one now. -/
theorem IsMessage.addressErrorCode_cases {m : StunBuffer} {msgType : BitVec 16} {tid : StunTid}
    {attrs : List Tlv.Record} (h : IsMessage m msgType tid attrs) (family errorCode : Int) :
    (stunAttrAddAddressErrorCode m family errorCode).2 = m ∨
      ∃ v, v.length = addressErrorLen errorCode ∧
        IsMessage (stunAttrAddAddressErrorCode m family errorCode).2 msgType tid
          (attrs ++ [(stunAttributeAddressErrorCode, v)]) := by
  obtain ⟨avalue, heq⟩ := stunAttrAddAddressErrorCode_eq m family errorCode
  rw [heq]
  rcases h.add_cases stunAttributeAddressErrorCode (some avalue) _ rfl with
    ⟨_, hm, _⟩ | ⟨_, hm, _⟩ | ⟨_, _, _, hm⟩
  · exact .inl hm
  · exact .inl hm
  · exact .inr ⟨_, addressErrorValue_length avalue errorCode, hm⟩

theorem IsMessage.addressErrorCode_added {m : StunBuffer} {msgType : BitVec 16} {tid : StunTid}
    {attrs : List Tlv.Record} (h : IsMessage m msgType tid attrs) (family errorCode : Int)
    (hroom : m.len + 4 + addressErrorLen errorCode < maxStunMessageSize) :
    ∃ v, v.length = addressErrorLen errorCode ∧
      IsMessage (stunAttrAddAddressErrorCode m family errorCode).2 msgType tid
        (attrs ++ [(stunAttributeAddressErrorCode, v)]) := by
  obtain ⟨avalue, heq⟩ := stunAttrAddAddressErrorCode_eq m family errorCode
  have hlen := addressErrorValue_length avalue errorCode
  have hpad : Tlv.pad4 (addressErrorLen errorCode) = addressErrorLen errorCode := by
    unfold addressErrorLen Tlv.pad4
    omega
  obtain ⟨m', hadd, hm', _⟩ := h.add_room stunAttributeAddressErrorCode (some avalue)
    ((addressErrorLen errorCode : Nat) : Int) (by
      rw [hlen, hpad]
      exact hroom)
  rw [heq, hadd]
  exact ⟨_, hlen, hm'⟩

theorem IsMessage.addressErrorCode_absent {m : StunBuffer} {msgType : BitVec 16} {tid : StunTid}
    {attrs : List Tlv.Record} (h : IsMessage m msgType tid attrs)
    (hnone : ∀ r ∈ attrs, r.1 ≠ stunAttributeAddressErrorCode) (family errorCode : Option Int) :
    stunAttrGetAddressErrorCode m.buf m.len family errorCode =
      (0, family.map fun _ => 0, errorCode.map fun _ => 0) := by
  have hlen := h.len_eq
  unfold stunAttrGetAddressErrorCode
  rw [if_neg (by omega), h.firstByType_none hnone]
  rfl

/-- A value of any other length than four is an error. -/
theorem IsMessage.addressErrorCode_refused {m : StunBuffer} {msgType : BitVec 16} {tid : StunTid}
    {attrs : List Tlv.Record} {v : List Byte}
    (h : IsMessage m msgType tid (attrs ++ [(stunAttributeAddressErrorCode, v)]))
    (hnone : ∀ r ∈ attrs, r.1 ≠ stunAttributeAddressErrorCode) (hv : v.length ≠ 4)
    (family errorCode : Option Int) :
    stunAttrGetAddressErrorCode m.buf m.len family errorCode =
      (-1, family.map fun _ => 0, errorCode.map fun _ => 0) := by
  have hlen := h.len_eq
  obtain ⟨hfirst, _, hfield, _⟩ := h.firstByType hnone
  simp only at hfirst hfield
  unfold stunAttrGetAddressErrorCode
  rw [if_neg (by omega), hfirst]
  simp only [Option.isNone_some, Bool.false_eq_true, if_false, stunAttrGetLen_some, hfield]
  split
  · rfl
  · rw [if_pos (by omega)]

/-- Present after it was added, with the same family and code, and absent before. -/
def AddressErrorReadBack (m : StunBuffer) (family : Byte) (errorCode : Nat)
    (oldFamily oldCode : Int) : Prop :=
  let m' := (stunAttrAddAddressErrorCode m family.toNat errorCode).2
  stunAttrGetAddressErrorCode m'.buf m'.len (some oldFamily) (some oldCode) =
      (1, some (family.toNat : Int), some (errorCode : Int)) ∧
    stunAttrGetAddressErrorCode m.buf m.len (some oldFamily) (some oldCode) = (0, some 0, some 0)

theorem addressErrorCode_never_read_back {m : StunBuffer} {msgType : BitVec 16} {tid : StunTid}
    {attrs : List Tlv.Record} (h : IsMessage m msgType tid attrs)
    (hnone : ∀ r ∈ attrs, r.1 ≠ stunAttributeAddressErrorCode) (family : Byte) (errorCode : Nat)
    (oldFamily oldCode : Int) :
    let m' := (stunAttrAddAddressErrorCode m family.toNat errorCode).2
    ¬ AddressErrorReadBack m family errorCode oldFamily oldCode ∧
      (m.len + 4 + addressErrorLen errorCode < maxStunMessageSize →
        stunAttrGetAddressErrorCode m'.buf m'.len (some oldFamily) (some oldCode) =
          (-1, some 0, some 0)) ∧
      stunAttrGetAddressErrorCode m.buf m.len (some oldFamily) (some oldCode) =
        (0, some 0, some 0) := by
  intro m'
  have hbounds := addressErrorLen_bounds errorCode
  have hbefore := h.addressErrorCode_absent hnone (some oldFamily) (some oldCode)
  refine ⟨fun hread => ?_, fun hroom => ?_, hbefore⟩
  · rcases h.addressErrorCode_cases family.toNat errorCode with hm | ⟨v, hv, hm⟩
    · unfold AddressErrorReadBack at hread
      rw [hm] at hread
      have hret : (0 : Int) = 1 := congrArg Prod.fst (hbefore.symm.trans hread.1)
      omega
    · have hafter := hm.addressErrorCode_refused hnone (by omega) (some oldFamily) (some oldCode)
      have hret : (-1 : Int) = 1 := congrArg Prod.fst (hafter.symm.trans hread.1)
      omega
  · obtain ⟨v, hv, hm⟩ := h.addressErrorCode_added family.toNat errorCode hroom
    exact hm.addressErrorCode_refused hnone (by omega) (some oldFamily) (some oldCode)

/-- IPv6 refused with 440, on a message with nothing in it. -/
theorem addressFamilyError_never_read_back :
    ¬ AddressErrorReadBack bareAllocate 0x02 440 7 7 :=
  (addressErrorCode_never_read_back isMessage_bareAllocate (by simp) 0x02 440 7 7).1

theorem addressFamilyError_refused :
    stunAttrGetAddressErrorCode (stunAttrAddAddressErrorCode bareAllocate 0x02 440).2.buf
        (stunAttrAddAddressErrorCode bareAllocate 0x02 440).2.len (some 7) (some 7) =
      (-1, some 0, some 0) ∧
    ¬ AddressErrorReadBack bareAllocate 0x02 440 7 7 := by
  have hbounds := addressErrorLen_bounds 440
  have hlen : bareAllocate.len = 20 := rfl
  obtain ⟨v, hv, hm'⟩ := isMessage_bareAllocate.addressErrorCode_added 0x02 440 (by
    unfold maxStunMessageSize
    omega)
  have hafter := hm'.addressErrorCode_refused (by simp) (by omega) (some 7) (some 7)
  refine ⟨hafter, fun hread => ?_⟩
  have hret : (-1 : Int) = 1 := congrArg Prod.fst (hafter.symm.trans hread.1)
  omega

end TurnClient
