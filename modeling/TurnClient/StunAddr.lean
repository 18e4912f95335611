import Mathlib.Data.LawfulXor.Basic
import TurnClient.IoaAddr
import TurnClient.StunBuilding

/-!
# Address attributes

The XOR encoding of `ns_turn_msg_addr.c` keyed by the magic cookie and the
transaction id, and the two attribute functions that go through it.
-/

namespace TurnClient

open ByteMemory
set_option autoImplicit false

def stunAttributeMappedAddress : BitVec 16 := 0x0001
def oldStunAttributeResponseAddress : BitVec 16 := 0x0002
def oldStunAttributeSourceAddress : BitVec 16 := 0x0004
def oldStunAttributeChangedAddress : BitVec 16 := 0x0005
def oldStunAttributeReflectedFrom : BitVec 16 := 0x000B
def stunAttributeXorPeerAddress : BitVec 16 := 0x0012
def stunAttributeXorRelayedAddress : BitVec 16 := 0x0016
def stunAttributeXorMappedAddress : BitVec 16 := 0x0020
def stunAttributeAlternateServer : BitVec 16 := 0x8023
def stunAttributeResponseOrigin : BitVec 16 := 0x802B
def stunAttributeOtherAddress : BitVec 16 := 0x802C

def xorKey (mc : BitVec 32) (tid : StunTid) : List Byte := be32 mc ++ tid.tsxId

def stunAddrEncode (ca : IoaAddr) (xored : Bool) (mc : BitVec 32) (tid : StunTid) :
    Option (List Byte) :=
  let port := if xored then ca.port ^^^ mc.extractLsb' 16 16 else ca.port
  if ca.family = .inet ∨ ca.family = .unspec then
    some ([0, 1] ++ be16 port ++ be32 (if xored then ca.word ^^^ mc else ca.word))
  else if ca.family = .inet6 then
    some ([0, 2] ++ be16 port ++
      (if xored then List.zipWith (· ^^^ ·) ca.in6.bytes (xorKey mc tid) else ca.in6.bytes))
  else none

def decodeIn6 (cfield : Mem) (off : Nat) (xored : Bool) (mc : BitVec 32) (tid : StunTid) : In6Addr :=
  if xored then ⟨List.zipWith (· ^^^ ·) (slice cfield off 16) (xorKey mc tid), by
    simp [xorKey, tid.size_eq]⟩
  else ⟨slice cfield off 16, slice_length _ _ _⟩

/-- `cfield` is the memory from the value pointer on; the address decoded into is all zero. -/
def stunAddrDecode (cfield : Mem) (len : Nat) (xored : Bool) (mc : BitVec 32) (tid : StunTid) :
    Option IoaAddr :=
  let port := if xored then get16 cfield 2 ^^^ mc.extractLsb' 16 16 else get16 cfield 2
  if len < 8 then none
  else if cfield 0 ≠ 0 then none
  else if cfield 1 = 1 then
    if len ≠ 8 then none
    else some { IoaAddr.any with family := .inet, port := port,
                                 word := if xored then get32 cfield 4 ^^^ mc else get32 cfield 4 }
  else if cfield 1 = 2 then
    if len ≠ 20 then none
    else some { IoaAddr.any with family := .inet6, port := port,
                                 in6 := decodeIn6 cfield 4 xored mc tid }
  else none

def isXored (attrType : BitVec 16) : Bool :=
  attrType = stunAttributeXorMappedAddress || attrType = stunAttributeXorPeerAddress ||
    attrType = stunAttributeXorRelayedAddress

def stunAttrIsAddr (attrType : BitVec 16) : Bool :=
  isXored attrType || attrType = stunAttributeMappedAddress ||
    attrType = stunAttributeAlternateServer || attrType = oldStunAttributeResponseAddress ||
    attrType = oldStunAttributeSourceAddress || attrType = oldStunAttributeChangedAddress ||
    attrType = oldStunAttributeReflectedFrom || attrType = stunAttributeResponseOrigin ||
    attrType = stunAttributeOtherAddress

def stunAttrAddAddrStr (maps : AddrMappings) (m : StunBuffer) (attrType : BitVec 16) (ca : IoaAddr) :
    Rc × StunBuffer :=
  let tid := stunTidFromMessageStr m.buf
  let publicAddr := mapAddrFromPrivateToPublic maps ca
  match stunAddrEncode publicAddr (isXored attrType) stunMagicCookie tid with
  | none => (.fail, m)
  | some cfield => stunAttrAddStr m attrType (some (ofList cfield)) cfield.length

/-- The address a failed call leaves is all zero. -/
def stunAttrGetAddrStr (maps : AddrMappings) (buf : Mem) (attr : Option Nat)
    (defaultAddr : Option IoaAddr) : Int × IoaAddr :=
  let tid := stunTidFromMessageStr buf
  match attr with
  | none => (-1, IoaAddr.any)
  | some a =>
    match stunAttrGetValue buf attr with
    | none => (-1, IoaAddr.any)
    | some v =>
      match stunAddrDecode (fun i => buf (v + i)) (stunAttrGetLen buf attr).toNat
          (isXored (get16 buf a)) stunMagicCookie tid with
      | none => (-1, IoaAddr.any)
      | some publicAddr =>
        let ca := mapAddrFromPublicToPrivate maps publicAddr
        match defaultAddr with
        | none => (0, ca)
        | some d =>
          if addrAnyNoPort ca && !addrAnyNoPort d then (0, addrSetPort d (addrGetPort ca))
          else (0, ca)

theorem stunAddrDecode_family {cfield : Mem} {len : Nat} {xored : Bool} {mc : BitVec 32}
    {tid : StunTid} {a : IoaAddr} (h : stunAddrDecode cfield len xored mc tid = some a) :
    a.family = .inet ∨ a.family = .inet6 := by
  simp only [stunAddrDecode] at h
  split at h
  · cases h
  split at h
  · cases h
  split at h
  · split at h
    · cases h
    · cases h
      exact Or.inl rfl
  split at h
  · split at h
    · cases h
    · cases h
      exact Or.inr rfl
  · cases h

/-- Without address mappings a call fails or gives an IPv4 or IPv6 address. -/
theorem stunAttrGetAddrStr_cases (buf : Mem) (attr : Option Nat) :
    stunAttrGetAddrStr [] buf attr none = (-1, IoaAddr.any) ∨
    ∃ a, stunAttrGetAddrStr [] buf attr none = (0, a) ∧
      (a.family = .inet ∨ a.family = .inet6) := by
  unfold stunAttrGetAddrStr
  simp only
  cases attr with
  | none => exact Or.inl rfl
  | some off =>
    simp only
    split
    · exact Or.inl rfl
    · split
      · exact Or.inl rfl
      · rename_i hdec
        exact Or.inr ⟨_, rfl, stunAddrDecode_family hdec⟩

/-! ## Round trip -/

theorem zipWith_xor_twice (as ks : List Byte) (h : as.length = ks.length) :
    List.zipWith (· ^^^ ·) (List.zipWith (· ^^^ ·) as ks) ks = as := by
  induction as generalizing ks with
  | nil => simp
  | cons a as ih =>
    cases ks with
    | nil => cases h
    | cons k ks =>
      simp only [List.length_cons, Nat.add_right_cancel_iff] at h
      simp only [List.zipWith_cons_cons, ih ks h, BitVec.xor_assoc, BitVec.xor_self,
        BitVec.xor_zero]

/-- What comes back from the wire: the family, the port and the address proper. -/
def onWire (a : IoaAddr) : IoaAddr :=
  if a.family = .inet6 then { IoaAddr.any with family := .inet6, port := a.port, in6 := a.in6 }
  else { IoaAddr.any with family := .inet, port := a.port, word := a.word }

theorem stunAddrDecode_encode {a : IoaAddr} {xored : Bool} {mc : BitVec 32} {tid : StunTid}
    {v : List Byte} (henc : stunAddrEncode a xored mc tid = some v) {cfield : Mem}
    (hv : slice cfield 0 v.length = v) :
    stunAddrDecode cfield v.length xored mc tid = some (onWire a) := by
  unfold stunAddrEncode at henc
  simp only at henc
  split at henc
  · rename_i hfam
    cases henc
    have hne : a.family ≠ .inet6 := by rcases hfam with h | h <;> rw [h] <;> decide
    rw [slice_eq_append_iff, slice_eq_append_iff] at hv
    obtain ⟨⟨hhead, hport⟩, hword⟩ := hv
    have h0 : cfield 0 = 0 := (List.cons.inj hhead).1
    have h1 : cfield 1 = 1 := (List.cons.inj (List.cons.inj hhead).2).1
    have hp : get16 cfield 2 = _ := get16_of_slice hport
    have hw : get32 cfield 4 = _ := get32_of_slice hword
    cases xored <;> simp [stunAddrDecode, onWire, h0, h1, hp, hw, hne]
  · split at henc
    · rename_i hfam
      cases henc
      have hlen : (if xored then List.zipWith (· ^^^ ·) a.in6.bytes (xorKey mc tid)
          else a.in6.bytes).length = 16 := by
        split <;> simp [xorKey, tid.size_eq, a.in6.size_eq]
      rw [slice_eq_append_iff, slice_eq_append_iff] at hv
      obtain ⟨⟨hhead, hport⟩, hin6⟩ := hv
      have h0 : cfield 0 = 0 := (List.cons.inj hhead).1
      have h1 : cfield 1 = 2 := (List.cons.inj (List.cons.inj hhead).2).1
      have hp : get16 cfield 2 = _ := get16_of_slice hport
      rw [hlen] at hin6
      have hdec : decodeIn6 cfield 4 xored mc tid = a.in6 := by
        cases xored with
        | false =>
          simp only [decodeIn6]
          exact In6Addr.ext hin6
        | true =>
          apply In6Addr.ext
          have hkey : a.in6.bytes.length = (xorKey mc tid).length := by
            simp [xorKey, tid.size_eq, a.in6.size_eq]
          have hbytes : slice cfield 4 16 = List.zipWith (· ^^^ ·) a.in6.bytes (xorKey mc tid) := hin6
          simp only [decodeIn6, if_true, hbytes]
          exact zipWith_xor_twice _ _ hkey
      cases xored with
      | false => simp [stunAddrDecode, onWire, h0, h1, hp, hdec, hfam, a.in6.size_eq]
      | true =>
        simp [stunAddrDecode, onWire, h0, h1, hp, hdec, hfam, xorKey, tid.size_eq, a.in6.size_eq]
    · cases henc

theorem stunAddrEncode_length {a : IoaAddr} {xored : Bool} {mc : BitVec 32} {tid : StunTid}
    {v : List Byte} (henc : stunAddrEncode a xored mc tid = some v) :
    v.length = 8 ∨ v.length = 20 := by
  unfold stunAddrEncode at henc
  simp only at henc
  split at henc
  · cases henc
    exact Or.inl rfl
  · split at henc
    · cases henc
      right
      cases xored <;> simp [xorKey, tid.size_eq, a.in6.size_eq]
    · cases henc

theorem stunAddrEncode_known {a : IoaAddr} (h : a.known = true) (xored : Bool) (mc : BitVec 32)
    (tid : StunTid) : ∃ v, stunAddrEncode a xored mc tid = some v := by
  simp only [IoaAddr.known, Bool.or_eq_true, decide_eq_true_eq] at h
  unfold stunAddrEncode
  simp only
  split
  · exact ⟨_, rfl⟩
  · rename_i hne
    rw [if_pos (h.resolve_left hne)]
    exact ⟨_, rfl⟩

theorem stunAttrGetAddrStr_mapped {maps : AddrMappings} {buf : Mem} {off : Nat}
    {attrType : BitVec 16} {a : IoaAddr} {v : List Byte}
    (henc : stunAddrEncode a (isXored attrType) stunMagicCookie (stunTidFromMessageStr buf) = some v)
    (hrec : Tlv.RecordAt buf off (attrType, v)) :
    stunAttrGetAddrStr maps buf (some off) none =
      (0, mapAddrFromPublicToPrivate maps (onWire a)) := by
  obtain ⟨htype, hlen, hval⟩ := hrec
  have hpos : v.length ≠ 0 := by rcases stunAddrEncode_length henc with h | h <;> omega
  have hbytes : slice (fun i => buf (off + 4 + i)) 0 v.length = v := by
    refine Eq.trans ?_ hval
    simp [slice]
  simp only at htype hlen
  simp only [stunAttrGetAddrStr, stunAttrGetValue_some, stunAttrGetLen_some, htype, hlen,
    if_neg hpos, Int.toNat_natCast, stunAddrDecode_encode henc hbytes]

theorem stunAttrGetAddrStr_recordAt {buf : Mem} {off : Nat} {attrType : BitVec 16} {a : IoaAddr}
    {v : List Byte}
    (henc : stunAddrEncode a (isXored attrType) stunMagicCookie (stunTidFromMessageStr buf) = some v)
    (hrec : Tlv.RecordAt buf off (attrType, v)) :
    stunAttrGetAddrStr [] buf (some off) none = (0, onWire a) :=
  stunAttrGetAddrStr_mapped henc hrec

theorem addrEq_onWire {a : IoaAddr} (h : a.family = .inet ∨ a.family = .inet6) :
    addrEq (onWire a) a = true ∧ addrGetPort (onWire a) = a.port.toNat := by
  rcases h with h | h <;> simp [onWire, addrEq, addrGetPort, h]

end TurnClient
