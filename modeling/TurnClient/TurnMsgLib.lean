import TurnClient.StunRequests

/-!
# The attribute classes of the C++ library

`turn::StunAttrAddr` of `TurnMsgLib.h` reads an address attribute through
`stun_attr_get_addr_str`, but gives it the value of the attribute where the
function expects the whole message. The function takes the transaction id from
there, eight bytes in, so the mask of an IPv6 address is wrong; for an empty
value there is no memory to read from at all.
-/

namespace TurnClient

open ByteMemory
set_option autoImplicit false

/-- `stun_attr_get_addr_str` where the message pointer and the attribute are places in one memory. -/
def stunAttrGetAddrAt (maps : AddrMappings) (mem : Mem) (msg : Nat) (attr : Option Nat)
    (defaultAddr : Option IoaAddr) : Int × IoaAddr :=
  let tid := stunTidFromMessageStr fun i => mem (msg + i)
  match attr with
  | none => (-1, IoaAddr.any)
  | some a =>
    match stunAttrGetValue mem attr with
    | none => (-1, IoaAddr.any)
    | some v =>
      match stunAddrDecode (fun i => mem (v + i)) (stunAttrGetLen mem attr).toNat
          (isXored (get16 mem a)) stunMagicCookie tid with
      | none => (-1, IoaAddr.any)
      | some publicAddr =>
        let ca := mapAddrFromPublicToPrivate maps publicAddr
        match defaultAddr with
        | none => (0, ca)
        | some d =>
          if addrAnyNoPort ca && !addrAnyNoPort d then (0, addrSetPort d (addrGetPort ca))
          else (0, ca)

theorem stunAttrGetAddrAt_zero (maps : AddrMappings) (buf : Mem) (attr : Option Nat)
    (defaultAddr : Option IoaAddr) :
    stunAttrGetAddrAt maps buf 0 attr defaultAddr = stunAttrGetAddrStr maps buf attr defaultAddr := by
  have hbase : (fun i => buf (0 + i)) = buf := funext fun i => congrArg buf (Nat.zero_add i)
  unfold stunAttrGetAddrAt stunAttrGetAddrStr
  exact hbase ▸ rfl

structure StunAttrIterator where
  buf : Mem
  sz : Nat
  sar : Option Nat

namespace StunAttrIterator

def eof (iter : StunAttrIterator) : Bool := iter.sar.isNone

/-- The value, or `none` for NULL, and its size; without an attribute it throws. -/
def getRawBuffer (iter : StunAttrIterator) : Option (Option Nat × Nat) :=
  let len := stunAttrGetLen iter.buf iter.sar
  if len < 0 then none else some (stunAttrGetValue iter.buf iter.sar, len.toNat)

end StunAttrIterator

/-- What a constructor ends with; `undef` is a read through the null pointer. -/
inductive Constructed (α : Type) where
  | object (a : α)
  | endOfStunMsg
  | wrongStunAttrFormat
  | undef
deriving DecidableEq

/-- The base class: type and size of the attribute. -/
def stunAttr (iter : StunAttrIterator) : Constructed (BitVec 16 × Nat) :=
  if iter.eof then .endOfStunMsg
  else
    match iter.getRawBuffer with
    | none => .wrongStunAttrFormat
    | some (_, sz) =>
      if 0xFFFF ≤ sz then .wrongStunAttrFormat
      else
        let attrType := stunAttrGetType iter.buf iter.sar
        if attrType < 0 then .wrongStunAttrFormat else .object (BitVec.ofInt 16 attrType, sz)

/-- `StunAttrAddr(iter)`, with the address that `getAddr` gives. -/
def stunAttrAddr (maps : AddrMappings) (iter : StunAttrIterator) : Constructed IoaAddr :=
  match stunAttr iter with
  | .endOfStunMsg => .endOfStunMsg
  | .wrongStunAttrFormat => .wrongStunAttrFormat
  | .undef => .undef
  | .object _ =>
    match iter.getRawBuffer with
    | none => .wrongStunAttrFormat
    | some (none, _) => .undef
    | some (some value, _) =>
      let r := stunAttrGetAddrAt maps iter.buf value iter.sar none
      if r.1 < 0 then .wrongStunAttrFormat else .object r.2

/-- The constructor throws exactly when the C reader fails, and reads the same address otherwise. -/
def ReadersAgree (maps : AddrMappings) (iter : StunAttrIterator) : Prop :=
  match stunAttrAddr maps iter with
  | .object addr => 0 ≤ (stunAttrGetAddrStr maps iter.buf iter.sar none).1 ∧
      addrEq addr (stunAttrGetAddrStr maps iter.buf iter.sar none).2 = true
  | .wrongStunAttrFormat => (stunAttrGetAddrStr maps iter.buf iter.sar none).1 < 0
  | _ => False

/-- The attribute holds an XORed IPv6 address. -/
def HoldsXoredIn6 (buf : Mem) (a : Nat) : Prop :=
  isXored (get16 buf a) = true ∧ (get16 buf (a + 2)).toNat = 20 ∧ buf (a + 4) = 0 ∧ buf (a + 5) = 2

/-! ## Two masks -/

theorem zipWith_xor_inj {as ks ks' : List Byte} (h : as.length = ks.length)
    (h' : as.length = ks'.length) :
    List.zipWith (· ^^^ ·) as ks = List.zipWith (· ^^^ ·) as ks' ↔ ks = ks' := by
  induction as generalizing ks ks' with
  | nil =>
    rw [List.length_nil] at h h'
    rw [List.eq_nil_of_length_eq_zero h.symm, List.eq_nil_of_length_eq_zero h'.symm]
    exact iff_of_true rfl rfl
  | cons a as ih =>
    cases ks with
    | nil => cases h
    | cons k ks =>
      cases ks' with
      | nil => cases h'
      | cons k' ks' =>
        have hbyte : a ^^^ k = a ^^^ k' ↔ k = k' := BitVec.xor_right_inj a
        simp only [List.zipWith_cons_cons, List.cons.injEq, hbyte,
          ih (Nat.succ.inj h) (Nat.succ.inj h')]

theorem decodeIn6_bytes_eq_iff (cfield : Mem) (off : Nat) (mc : BitVec 32) (tid tid' : StunTid) :
    (decodeIn6 cfield off true mc tid).bytes = (decodeIn6 cfield off true mc tid').bytes ↔
      tid.tsxId = tid'.tsxId := by
  have hlen : ∀ t : StunTid, (slice cfield off 16).length = (xorKey mc t).length := by
    intro t
    simp [xorKey, t.size_eq]
  simp only [decodeIn6, if_true]
  rw [zipWith_xor_inj (hlen tid) (hlen tid'), xorKey, xorKey]
  exact List.append_cancel_left_eq _ _ _ |>.to_iff

/-- The id matters only where an XORed IPv6 address is read. -/
theorem stunAddrDecode_tid {cfield : Mem} {len : Nat} {xored : Bool} {mc : BitVec 32}
    (tid tid' : StunTid) (h : ¬ (xored = true ∧ len = 20 ∧ cfield 0 = 0 ∧ cfield 1 = 2)) :
    stunAddrDecode cfield len xored mc tid = stunAddrDecode cfield len xored mc tid' := by
  unfold stunAddrDecode
  simp only
  split
  · rfl
  split
  · rfl
  rename_i hzero
  split
  · rfl
  split
  · rename_i hfamily
    split
    · rfl
    · rename_i hlen
      cases xored with
      | false => rfl
      | true => exact absurd ⟨rfl, not_not.mp hlen, not_not.mp hzero, hfamily⟩ h
  · rfl

/-- The address that is read from an XORed IPv6 value under a given id. -/
def xoredIn6 (cfield : Mem) (mc : BitVec 32) (tid : StunTid) : IoaAddr :=
  { IoaAddr.any with family := .inet6, port := get16 cfield 2 ^^^ mc.extractLsb' 16 16,
                     in6 := decodeIn6 cfield 4 true mc tid }

theorem stunAddrDecode_xoredIn6 {cfield : Mem} {mc : BitVec 32} (tid : StunTid)
    (hzero : cfield 0 = 0) (hfamily : cfield 1 = 2) :
    stunAddrDecode cfield 20 true mc tid = some (xoredIn6 cfield mc tid) := by
  simp [stunAddrDecode, xoredIn6, hzero, hfamily]

theorem addrEq_xoredIn6_iff (cfield : Mem) (mc : BitVec 32) (tid tid' : StunTid) :
    addrEq (xoredIn6 cfield mc tid) (xoredIn6 cfield mc tid') = true ↔ tid.tsxId = tid'.tsxId := by
  rw [← decodeIn6_bytes_eq_iff cfield 4 mc tid tid']
  simp [addrEq, xoredIn6]

theorem addrEq_self {a : IoaAddr} (h : a.family = .inet ∨ a.family = .inet6) : addrEq a a = true := by
  rcases h with h | h <;> simp [addrEq, h]

/-! ## The two readers -/

/-- Both readers, for an attribute with a value. -/
theorem stunAttrGetAddrAt_some {buf : Mem} {a : Nat} (hlen : (get16 buf (a + 2)).toNat ≠ 0)
    (msg : Nat) :
    stunAttrGetAddrAt addrMappings buf msg (some a) none =
      match stunAddrDecode (fun i => buf (a + 4 + i)) (get16 buf (a + 2)).toNat
          (isXored (get16 buf a)) stunMagicCookie (stunTidFromMessageStr fun i => buf (msg + i)) with
      | none => (-1, IoaAddr.any)
      | some addr => (0, addr) := by
  simp only [stunAttrGetAddrAt, stunAttrGetValue_some, if_neg hlen, stunAttrGetLen_some,
    Int.toNat_natCast]
  rfl

theorem stunAttrAddr_eq {iter : StunAttrIterator} {a : Nat} (hsar : iter.sar = some a)
    (hmem : a ∈ attrRefs iter.buf iter.sz) :
    stunAttrAddr addrMappings iter =
      if (get16 iter.buf (a + 2)).toNat = 0 then .undef
      else
        let r := stunAttrGetAddrAt addrMappings iter.buf (a + 4) (some a) none
        if r.1 < 0 then .wrongStunAttrFormat else .object r.2 := by
  obtain ⟨hlo, hin, _⟩ := inMessage_of_mem hmem
  have hfield := (get16 iter.buf 2).isLt
  have hpad := Tlv.le_pad4 (get16 iter.buf (a + 2)).toNat
  have hraw : iter.getRawBuffer = some (stunAttrGetValue iter.buf (some a),
      (get16 iter.buf (a + 2)).toNat) := by
    have hnonneg : ¬ stunAttrGetLen iter.buf (some a) < 0 := by
      rw [stunAttrGetLen_some]
      omega
    simp only [StunAttrIterator.getRawBuffer, hsar, if_neg hnonneg]
    rw [stunAttrGetLen_some, Int.toNat_natCast]
  have hbase : ∃ attr, stunAttr iter = .object attr := by
    have htype : ¬ stunAttrGetType iter.buf (some a) < 0 := by
      rw [stunAttrGetType]
      omega
    have hsize : ¬ 0xFFFF ≤ (get16 iter.buf (a + 2)).toNat := by omega
    simp only [stunAttr, StunAttrIterator.eof, hraw, hsar, Option.isNone_some, Bool.false_eq_true,
      if_false, if_neg hsize, if_neg htype]
    exact ⟨_, rfl⟩
  obtain ⟨attr, hattr⟩ := hbase
  simp only [stunAttrAddr, hattr, hraw, stunAttrGetValue_some, hsar]
  by_cases hlen : (get16 iter.buf (a + 2)).toNat = 0
  · simp only [if_pos hlen]
  · simp only [if_neg hlen]

/-- The two results, where there is a value to read from. -/
theorem readersAgree_iff_results {iter : StunAttrIterator} {a : Nat} (hsar : iter.sar = some a)
    (hmem : a ∈ attrRefs iter.buf iter.sz) (hlen : (get16 iter.buf (a + 2)).toNat ≠ 0)
    {r c : Int × IoaAddr} (hr : stunAttrGetAddrAt addrMappings iter.buf (a + 4) (some a) none = r)
    (hc : stunAttrGetAddrStr addrMappings iter.buf (some a) none = c) :
    ReadersAgree addrMappings iter ↔
      (r.1 < 0 ∧ c.1 < 0) ∨ (0 ≤ r.1 ∧ 0 ≤ c.1 ∧ addrEq r.2 c.2 = true) := by
  unfold ReadersAgree
  rw [stunAttrAddr_eq hsar hmem, if_neg hlen, hsar, hr, hc]
  by_cases hneg : r.1 < 0
  · simp only [if_pos hneg]
    omega
  · simp only [if_neg hneg]
    have hnonneg : 0 ≤ r.1 := by omega
    simp [hneg, hnonneg]

theorem tid_of_value (buf : Mem) (a : Nat) :
    (stunTidFromMessageStr fun i => buf (a + 4 + i)).tsxId = slice buf (a + 12) 12 := by
  have hoff : ∀ i, a + 4 + (8 + i) = a + 12 + i := by omega
  simp only [stunTidFromMessageStr, slice, hoff]

theorem readers_agree_iff (iter : StunAttrIterator) (a : Nat) (hsar : iter.sar = some a)
    (hmem : a ∈ attrRefs iter.buf iter.sz) :
    ReadersAgree addrMappings iter ↔
      (get16 iter.buf (a + 2)).toNat ≠ 0 ∧
        (HoldsXoredIn6 iter.buf a →
          slice iter.buf (a + 12) 12 = (stunTidFromMessageStr iter.buf).tsxId) := by
  by_cases hlen : (get16 iter.buf (a + 2)).toNat = 0
  · unfold ReadersAgree
    rw [stunAttrAddr_eq hsar hmem, if_pos hlen]
    simp [hlen]
  · have hc := stunAttrGetAddrAt_some hlen 0
    have hcpp := stunAttrGetAddrAt_some hlen (a + 4)
    rw [stunAttrGetAddrAt_zero] at hc
    simp only [Nat.zero_add] at hc
    by_cases hin6 : HoldsXoredIn6 iter.buf a
    · obtain ⟨hxored, h20, hzero, hfamily⟩ := id hin6
      rw [hxored, h20, stunAddrDecode_xoredIn6 _ hzero hfamily] at hc hcpp
      rw [readersAgree_iff_results hsar hmem hlen hcpp hc]
      simp only [Int.lt_irrefl, false_and, Int.le_refl, true_and, false_or]
      rw [addrEq_xoredIn6_iff, tid_of_value]
      exact ⟨fun h => ⟨hlen, fun _ => h⟩, fun h => h.2 hin6⟩
    · -- without an IPv6 mask the transaction id does not matter
      have hsame : stunAddrDecode (fun i => iter.buf (a + 4 + i)) (get16 iter.buf (a + 2)).toNat
          (isXored (get16 iter.buf a)) stunMagicCookie
          (stunTidFromMessageStr fun i => iter.buf (a + 4 + i)) =
          stunAddrDecode (fun i => iter.buf (a + 4 + i)) (get16 iter.buf (a + 2)).toNat
            (isXored (get16 iter.buf a)) stunMagicCookie
            (stunTidFromMessageStr fun i => iter.buf i) :=
        stunAddrDecode_tid _ _ hin6
      rw [hsame, ← hc] at hcpp
      rw [readersAgree_iff_results hsar hmem hlen hcpp rfl]
      refine iff_of_true ?_ ⟨hlen, fun h => absurd h hin6⟩
      rcases stunAttrGetAddrStr_cases iter.buf (some a) with hfail | ⟨addr, haddr, hfamily⟩
      · left
        rw [addrMappings, hfail]
        exact ⟨by decide, by decide⟩
      · right
        rw [addrMappings, haddr]
        exact ⟨Int.le_refl _, Int.le_refl _, addrEq_self hfamily⟩

/-- A Binding response with one XOR-MAPPED-ADDRESS, and an iterator on it. -/
def mappedIterator (value : List Byte) : StunAttrIterator :=
  let attr := be16 stunAttributeXorMappedAddress ++ be16 (BitVec.ofNat 16 value.length) ++ value
  ⟨ofList (be16 0x0101 ++ be16 (BitVec.ofNat 16 attr.length) ++ be32 stunMagicCookie ++
    [1, 2, 3, 4, 5, 6, 7, 8, 9, 10, 11, 12] ++ attr), 20 + attr.length, some 20⟩

theorem mapped_ipv4_readers_agree :
    let iter := mappedIterator [0, 1, 0x21, 0x13, 0x2B, 0x12, 0xA4, 0x43]
    stunAttrAddr addrMappings iter =
        .object { IoaAddr.any with family := .inet, port := 1, word := 0x0A000001 } ∧
      ReadersAgree addrMappings iter := by
  intro iter
  refine ⟨by decide +kernel, ?_⟩
  refine (readers_agree_iff iter 20 rfl (by decide +kernel)).mpr ⟨by decide +kernel, fun h => ?_⟩
  exact absurd h.2.1 (by decide +kernel)

/-- The address 2001:db8::5; the C++ class reads 2001:db8:: from it. -/
theorem mapped_ipv6_readers_disagree :
    let iter := mappedIterator [0, 2, 0x21, 0x13, 0x01, 0x13, 0xA9, 0xFA,
      1, 2, 3, 4, 5, 6, 7, 8, 9, 10, 11, 9]
    (stunAttrGetAddrStr addrMappings iter.buf iter.sar none).1 = 0 ∧
      (stunAttrGetAddrStr addrMappings iter.buf iter.sar none).2.in6.bytes =
        [0x20, 0x01, 0x0D, 0xB8, 0, 0, 0, 0, 0, 0, 0, 0, 0, 0, 0, 5] ∧
      ¬ ReadersAgree addrMappings iter := by
  intro iter
  have hcpp : stunAttrAddr addrMappings iter = .object { IoaAddr.any with
      family := .inet6, port := 1,
      in6 := ⟨[0x20, 0x01, 0x0D, 0xB8, 0, 0, 0, 0, 0, 0, 0, 0, 0, 0, 0, 0], rfl⟩ } := by
    decide +kernel
  have hc : stunAttrGetAddrStr addrMappings iter.buf iter.sar none = (0, { IoaAddr.any with
      family := .inet6, port := 1,
      in6 := ⟨[0x20, 0x01, 0x0D, 0xB8, 0, 0, 0, 0, 0, 0, 0, 0, 0, 0, 0, 5], rfl⟩ }) := by
    decide +kernel
  unfold ReadersAgree
  rw [hcpp, hc]
  exact ⟨rfl, rfl, by decide⟩

end TurnClient
