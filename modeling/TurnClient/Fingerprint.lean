import TurnClient.StunClient
import TurnClient.SignedMessages

/-!
# The fingerprint, added and checked

`stun_attr_add_fingerprint_str` appends four zero bytes and overwrites the last
four of the message with the CRC of everything before the attribute;
`stun_is_command_message_full_check_str` finds the attribute by its type and
takes the same CRC. The answer of the append is not looked at: where it is
refused, the four bytes that are overwritten are those of the message.
-/

namespace TurnClient

open ByteMemory
set_option autoImplicit false

/-- The answer and `*fingerprint_present`; `none` is a NULL pointer. -/
def stunIsCommandMessageFullCheckStr (buf : Mem) (blen : Nat) (mustCheckFingerprint : Bool)
    (fingerprintPresent : Option Int) : Bool × Option Int :=
  if !stunIsCommandMessageStr buf blen then (false, fingerprintPresent)
  else
    let sar := stunAttrGetFirstByTypeStr buf blen stunAttributeFingerprint
    if sar.isNone then
      let fingerprintPresent := fingerprintPresent.map fun _ => 0
      if stunGetMethodStr buf blen = stunMethodBinding then (true, fingerprintPresent)
      else (!mustCheckFingerprint, fingerprintPresent)
    else if stunAttrGetLen buf sar ≠ 4 then (false, fingerprintPresent)
    else
      match stunAttrGetValue buf sar with
      | none => (!mustCheckFingerprint, fingerprintPresent)
      | some fingerprint =>
        let crc32len := fingerprint - 4
        let ret := get32 buf fingerprint == nsCrc32 (slice buf 0 crc32len) ^^^ 0x5354554E
        (ret, if ret then fingerprintPresent.map fun _ => 1 else fingerprintPresent)

/-- The call with its answer, which is 0 also when the append was refused. -/
def stunAttrAddFingerprint (m : StunBuffer) : Rc × StunBuffer := (.ok, stunAttrAddFingerprintStr m)

/-! ## Adding -/

/-- What every message has that passes `stun_is_command_message_str`. -/
theorem command_lens {m : StunBuffer} (h : stunIsCommandMessageStr m.buf m.len = true) :
    stunGetCommandMessageLenStr m.buf m.len = (m.len : Int) ∧ m.len % 4 = 0 ∧ 20 ≤ m.len := by
  simp only [stunIsCommandMessageStr, Bool.and_eq_true, decide_eq_true_eq, beq_iff_eq] at h
  obtain ⟨⟨_, hlow⟩, hfield⟩ := h
  unfold stunHeaderLength at hfield
  have hmod : (get16 m.buf 2).toNat % 4 = 0 := by
    have hnat := congrArg BitVec.toNat hlow
    rw [BitVec.toNat_and] at hnat
    change (get16 m.buf 2).toNat &&& (2 ^ 2 - 1) = 0 at hnat
    rwa [Nat.and_two_pow_sub_one_eq_mod] at hnat
  exact ⟨commandLen_of_lenField (by omega) (by omega), by omega, by omega⟩

/-- The CRC of the message, under the header length that covers the attribute. -/
def fingerprintOf (m : StunBuffer) : BitVec 32 :=
  nsCrc32 (slice (appendRecord m.buf m.len stunAttributeFingerprint [0, 0, 0, 0]) 0 m.len) ^^^
    0x5354554E

theorem stunAttrAddFingerprintStr_room {m : StunBuffer}
    (hcmd : stunGetCommandMessageLenStr m.buf m.len = (m.len : Int)) (hmod : m.len % 4 = 0)
    (hroom : m.len + 8 < maxStunMessageSize) :
    stunAttrAddFingerprintStr m =
      ⟨put32 (appendRecord m.buf m.len stunAttributeFingerprint [0, 0, 0, 0]) (m.len + 4)
        (fingerprintOf m), m.len + 8⟩ := by
  have hzero : attrBytes (some fun _ => 0) 4 = [0, 0, 0, 0] := rfl
  have hpad : Tlv.pad4 [(0 : Byte), 0, 0, 0].length = 4 := rfl
  unfold maxStunMessageSize at hroom
  unfold stunAttrAddFingerprintStr
  rw [stunAttrAddStr_eq _ _ _ hcmd hmod]
  simp only [hzero, hpad]
  rw [if_neg (by unfold intMax; omega), if_neg (by unfold maxStunMessageSize; omega)]
  simp only [fingerprintOf]
  rw [show m.len + 4 + 4 - 8 = m.len by omega, show m.len + 4 + 4 - 4 = m.len + 4 by omega]

/-- Without room the append is refused, and the last four bytes are overwritten all the same. -/
theorem stunAttrAddFingerprintStr_full {m : StunBuffer}
    (hcmd : stunGetCommandMessageLenStr m.buf m.len = (m.len : Int)) (hmod : m.len % 4 = 0)
    (hlen : m.len < 65556) (hfull : ¬ m.len + 8 < maxStunMessageSize) :
    stunAttrAddFingerprintStr m =
      ⟨put32 m.buf (m.len - 4) (nsCrc32 (slice m.buf 0 (m.len - 8)) ^^^ 0x5354554E), m.len⟩ := by
  have hzero : attrBytes (some fun _ => 0) 4 = [0, 0, 0, 0] := rfl
  have hpad : Tlv.pad4 [(0 : Byte), 0, 0, 0].length = 4 := rfl
  unfold maxStunMessageSize at hfull
  unfold stunAttrAddFingerprintStr
  rw [stunAttrAddStr_eq _ _ _ hcmd hmod]
  simp only [hzero, hpad]
  rw [if_neg (by unfold intMax; omega), if_pos (by unfold maxStunMessageSize; omega)]

/-- The message with its fingerprint, as a list of attributes. -/
theorem IsMessage.fingerprinted {m : StunBuffer} {msgType : BitVec 16} {tid : StunTid}
    {attrs : List Tlv.Record} (h : IsMessage m msgType tid attrs)
    (hroom : m.len + 8 < maxStunMessageSize) :
    IsMessage (stunAttrAddFingerprintStr m) msgType tid
      (attrs ++ [(stunAttributeFingerprint, be32 (fingerprintOf m))]) := by
  have happended := h.append stunAttributeFingerprint [0, 0, 0, 0] hroom
  have hset := happended.setLast (be32 (fingerprintOf m)) rfl rfl
  rw [stunAttrAddFingerprintStr_room h.commandLen h.len_mod hroom]
  exact hset

/-! ## Checking -/

/-- Every message that is built, has no fingerprint and has room for one passes the full check
with it, and nothing in front of the attribute but the header length changes. -/
theorem fingerprint_round_trip {m : StunBuffer} {msgType : BitVec 16} {tid : StunTid}
    {attrs : List Tlv.Record} (h : IsMessage m msgType tid attrs) (htype : msgType.toNat < 0x4000)
    (hnone : ∀ r ∈ attrs, r.1 ≠ stunAttributeFingerprint)
    (hroom : m.len + 8 < maxStunMessageSize) (fingerprintPresent : Int) :
    (stunAttrAddFingerprint m).1 = .ok ∧ (stunAttrAddFingerprint m).2.len = m.len + 8 ∧
      stunIsCommandMessageFullCheckStr (stunAttrAddFingerprint m).2.buf
        (stunAttrAddFingerprint m).2.len true (some fingerprintPresent) = (true, some 1) ∧
      ∀ i, i < m.len → i ≠ 2 → i ≠ 3 → (stunAttrAddFingerprint m).2.buf i = m.buf i := by
  have hm := h.fingerprinted hroom
  have hlen := h.len_eq
  have heq := stunAttrAddFingerprintStr_room h.commandLen h.len_mod hroom
  refine ⟨rfl, by simp only [stunAttrAddFingerprint, heq], ?_, ?_⟩
  · obtain ⟨hfirst, _, hfour, hvalue⟩ := hm.firstByType hnone
    rw [← hlen] at hfirst hfour hvalue
    have hcrc := get32_of_slice hvalue
    -- the attribute's value lies behind the bytes the CRC is taken of
    have hbytes : slice (stunAttrAddFingerprintStr m).buf 0 m.len =
        slice (appendRecord m.buf m.len stunAttributeFingerprint [0, 0, 0, 0]) 0 m.len := by
      rw [heq]
      exact slice_write_disjoint (by omega)
    have hget : stunAttrGetValue (stunAttrAddFingerprintStr m).buf (some m.len) =
        some (m.len + 4) := by
      rw [stunAttrGetValue_some, hfour, be32_length]
      rfl
    have hlen4 : stunAttrGetLen (stunAttrAddFingerprintStr m).buf (some m.len) = 4 := by
      rw [stunAttrGetLen_some, hfour]
      rfl
    simp only [stunIsCommandMessageFullCheckStr, stunAttrAddFingerprint, hm.isCommand htype, hfirst,
      hlen4, hget, hcrc, hbytes, Nat.add_sub_cancel]
    simp [fingerprintOf]
  · intro i hi h2 h3
    rw [stunAttrAddFingerprint, heq]
    exact (write_outside (Or.inl (by omega))).trans (appendRecord_start h2 h3 hi)

/-- A Binding indication without attributes. -/
theorem indication_fingerprint_checked :
    let m := stunInitIndicationStr stunMethodBinding (fun _ => 0xEE)
      ⟨[1, 2, 3, 4, 5, 6, 7, 8, 9, 10, 11, 12], rfl⟩
    stunIsCommandMessageFullCheckStr (stunAttrAddFingerprint m).2.buf
      (stunAttrAddFingerprint m).2.len true (some 0) = (true, some 1) := by
  intro m
  have hm := isMessage_initCommand (stunMakeIndication stunMethodBinding) (fun _ => 0xEE)
    ⟨[1, 2, 3, 4, 5, 6, 7, 8, 9, 10, 11, 12], rfl⟩
  exact (fingerprint_round_trip hm (and_3FFF_lt _) (by simp) (by decide) 0).2.2.1

/-! ## A message without room -/

/-- A FINGERPRINT attribute stands behind the message, and the header length covers it. -/
structure AppendsFingerprint (m m' : StunBuffer) : Prop where
  len_eq : m'.len = m.len + 8
  commandLen : stunGetCommandMessageLenStr m'.buf m'.len = (m'.len : Int)
  kept : ∀ i, i < m.len → i ≠ 2 → i ≠ 3 → m'.buf i = m.buf i
  record : ∃ v : List Byte, v.length = 4 ∧ Tlv.RecordAt m'.buf m.len (stunAttributeFingerprint, v)

/-- The attribute is there and the answer is 0, or the answer is -1 and the message is as it was. -/
def AppendsOrRefuses (m : StunBuffer) : Prop :=
  ((stunAttrAddFingerprint m).1 = .ok ∧ AppendsFingerprint m (stunAttrAddFingerprint m).2) ∨
    ((stunAttrAddFingerprint m).1 = .fail ∧ (stunAttrAddFingerprint m).2 = m)

theorem appendsFingerprint_of_room {m : StunBuffer}
    (hcmd : stunGetCommandMessageLenStr m.buf m.len = (m.len : Int)) (hmod : m.len % 4 = 0)
    (hroom : m.len + 8 < maxStunMessageSize) :
    AppendsFingerprint m (stunAttrAddFingerprint m).2 := by
  obtain ⟨h20, _⟩ := twenty_le_of_commandLen hcmd
  have hrec := appendRecord_recordAt m.buf m.len stunAttributeFingerprint [0, 0, 0, 0] (by decide)
  rw [stunAttrAddFingerprint, stunAttrAddFingerprintStr_room hcmd hmod hroom]
  unfold maxStunMessageSize at hroom
  refine ⟨rfl, ?_, ?_, be32 (fingerprintOf m), be32_length _, ?_, ?_, slice_write_same _ _ _⟩
  · simp only
    apply commandLen_of_lenField (by omega)
    have hpad : Tlv.pad4 [(0 : Byte), 0, 0, 0].length = 4 := rfl
    rw [put32, get16_write_disjoint (by omega), appendRecord_lenField _ _ _ _ h20, hpad,
      BitVec.toNat_ofNat]
    omega
  · intro i hi h2 h3
    exact (write_outside (Or.inl (by omega))).trans (appendRecord_start h2 h3 hi)
  · exact (get16_write_disjoint (by omega)).trans hrec.1
  · rw [put32, get16_write_disjoint (by omega)]
    exact hrec.2.1

theorem not_appendsOrRefuses_of_full {m : StunBuffer}
    (h : stunIsCommandMessageStr m.buf m.len = true) (hfull : ¬ m.len + 8 < maxStunMessageSize) :
    ¬ AppendsOrRefuses m := by
  obtain ⟨hcmd, hmod, _⟩ := command_lens h
  obtain ⟨_, hfield⟩ := twenty_le_of_commandLen hcmd
  have hlt := (get16 m.buf 2).isLt
  rintro (⟨_, happends⟩ | ⟨hfail, _⟩)
  · have hlen := happends.len_eq
    rw [stunAttrAddFingerprint, stunAttrAddFingerprintStr_full hcmd hmod (by omega) hfull] at hlen
    simp only at hlen
    omega
  · cases hfail

theorem fingerprint_refused_cleanly_iff {m : StunBuffer}
    (h : stunIsCommandMessageStr m.buf m.len = true) :
    AppendsOrRefuses m ↔ m.len + 8 < maxStunMessageSize := by
  constructor
  · intro hprop
    by_contra hfull
    exact not_appendsOrRefuses_of_full h hfull hprop
  · intro hroom
    obtain ⟨hcmd, hmod, _⟩ := command_lens h
    exact Or.inl ⟨rfl, appendsFingerprint_of_room hcmd hmod hroom⟩

theorem indication_fingerprint_appended :
    AppendsOrRefuses (stunInitIndicationStr stunMethodBinding (fun _ => 0xEE)
      ⟨[1, 2, 3, 4, 5, 6, 7, 8, 9, 10, 11, 12], rfl⟩) :=
  (fingerprint_refused_cleanly_iff (by decide +kernel)).mpr (by decide)

/-- A Send indication with one DATA attribute of 65476 zeros. -/
def nearlyFullIndication : StunBuffer :=
  ⟨ofList [0x00, 0x16, 0xFF, 0xC8, 0x21, 0x12, 0xA4, 0x42, 1, 2, 3, 4, 5, 6, 7, 8, 9, 10, 11, 12,
    0x00, 0x13, 0xFF, 0xC4], 65500⟩

theorem nearlyFullIndication_overwritten :
    stunIsCommandMessageStr nearlyFullIndication.buf nearlyFullIndication.len = true ∧
      (stunAttrAddFingerprint nearlyFullIndication).1 = .ok ∧
      ¬ AppendsOrRefuses nearlyFullIndication :=
  ⟨by decide +kernel, rfl, not_appendsOrRefuses_of_full (by decide +kernel) (by decide)⟩

end TurnClient
