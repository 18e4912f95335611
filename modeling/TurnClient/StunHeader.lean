import TurnClient.TlvLayout
import Mathlib.Tactic.IntervalCases

/-!
# The 20-byte STUN header

Length field, message type, transaction id and the initialisers of
`ns_turn_msg.c`. The type field splits the method around the two class bits;
everything the rest of the development needs of that layout is that the method
can be read back and that exactly one class predicate holds.
-/

namespace TurnClient

open ByteMemory
set_option autoImplicit false

def stunHeaderLength : Nat := 20
def stunMagicCookie : BitVec 32 := 0x2112A442
def maxStunMessageSize : Nat := 65507
def intMax : Int := 2147483647

/-- The cast `(int)` of a `size_t`. -/
def castInt (n : Nat) : Int := (BitVec.ofNat 32 n).toInt

theorem castInt_of_lt {n : Nat} (h : n < 2 ^ 31) : castInt n = n := by
  unfold castInt
  rw [BitVec.toInt_eq_toNat_cond, BitVec.toNat_ofNat, Nat.mod_eq_of_lt (by omega), if_pos (by omega)]

theorem castInt_toNat_le (n : Nat) : (castInt n).toNat ≤ n := by
  unfold castInt
  rw [BitVec.toInt_eq_toNat_cond, BitVec.toNat_ofNat]
  split <;> omega

theorem castInt_toNat_lt (n : Nat) : (castInt n).toNat < 2 ^ 31 := by
  unfold castInt
  rw [BitVec.toInt_eq_toNat_cond, BitVec.toNat_ofNat]
  split <;> omega

theorem castInt_toNat {n : Nat} (h : n % 2 ^ 32 < 2 ^ 31) : (castInt n).toNat = n % 2 ^ 32 := by
  unfold castInt
  rw [BitVec.toInt_eq_toNat_cond, BitVec.toNat_ofNat, if_pos (by omega), Int.toNat_natCast]

/-- The part of `stun_buffer` the library works on: the bytes and the filled length. -/
structure StunBuffer where
  buf : Mem
  len : Nat

structure StunTid where
  tsxId : List Byte
  size_eq : tsxId.length = 12
deriving DecidableEq

def stunValidChannel (chn : BitVec 16) : Bool :=
  decide (0x4000 ≤ chn.toNat) && decide (chn.toNat ≤ 0x7FFF)

/-! ## Length field -/

def stunGetCommandMessageLenStr (buf : Mem) (len : Nat) : Int :=
  if len < stunHeaderLength then -1
  else
    let bufLen := (get16 buf 2).toNat + stunHeaderLength
    if len < bufLen then -1 else bufLen

def stunSetCommandMessageLenStr (buf : Mem) (len : Int) : Int × Mem :=
  if len < stunHeaderLength then (-1, buf)
  else (0, put16 buf 2 (BitVec.ofInt 16 (len - stunHeaderLength)))

/-! ## Message type -/

def stunMakeType (method : BitVec 16) : BitVec 16 :=
  let method := method &&& 0x0FFF
  (method &&& 0x000F) ||| ((method &&& 0x0070) <<< 1) ||| ((method &&& 0x0380) <<< 2) |||
    ((method &&& 0x0C00) <<< 2)

def stunGetMethodStr (buf : Mem) (len : Nat) : BitVec 16 :=
  if len < 2 then 0xFFFF
  else
    let tt := get16 buf 0
    (tt &&& 0x000F) ||| ((tt &&& 0x00E0) >>> 1) ||| ((tt &&& 0x0E00) >>> 2) |||
      ((tt &&& 0x3000) >>> 2)

def stunGetMsgTypeStr (buf : Mem) (len : Nat) : BitVec 16 :=
  if len < 2 then 0xFFFF else get16 buf 0 &&& 0x3FFF

def isChannelMsgStr (buf : Mem) (blen : Nat) : Bool :=
  decide (4 ≤ blen) && stunValidChannel (get16 buf 0)

/-- ChannelData in the buffer: the answer, and what the length and the channel
number hold afterwards. The length is clamped also when the answer is no. -/
def stunIsChannelMessageStr (buf : Mem) (blen : Nat) (chnumber : BitVec 16)
    (mandatoryPadding : Bool) : Bool × Nat × BitVec 16 :=
  if blen < 4 then (false, blen, chnumber)
  else
    let chn := get16 buf 0
    if !stunValidChannel chn then (false, blen, chnumber)
    else
      let blen := if 0xFFFF < blen then 0xFFFF else blen
      let datalenActual := blen - 4
      let datalenHeader := (get16 buf 2).toNat
      if datalenActual < datalenHeader then (false, blen, chnumber)
      else if datalenHeader ≠ datalenActual ∧ datalenActual &&& 0x0003 ≠ 0 then
        if mandatoryPadding then (false, blen, chnumber)
        else if datalenActual < datalenHeader ∨ datalenHeader = 0 then (false, blen, chnumber)
        else if 3 < datalenActual - datalenHeader then (false, blen, chnumber)
        else (true, datalenHeader + 4, chn)
      else (true, datalenHeader + 4, chn)

def isStunRequest (msgType : BitVec 16) : Bool := msgType &&& 0x0110 == 0x0000
def isStunIndication (msgType : BitVec 16) : Bool := msgType &&& 0x0110 == 0x0010
def isStunSuccessResp (msgType : BitVec 16) : Bool := msgType &&& 0x0110 == 0x0100
def isStunErrResp (msgType : BitVec 16) : Bool := msgType &&& 0x0110 == 0x0110

def stunIsCommandMessageStr (buf : Mem) (blen : Nat) : Bool :=
  decide (stunHeaderLength ≤ blen) && !stunValidChannel (get16 buf 0) &&
    (buf 0 &&& 0xC0 == 0) && get32 buf 4 == stunMagicCookie &&
    (get16 buf 2 &&& 0x0003 == 0) && decide ((get16 buf 2).toNat + stunHeaderLength = blen)

def stunIsRequestStr (buf : Mem) (len : Nat) : Bool :=
  !isChannelMsgStr buf len && isStunRequest (stunGetMsgTypeStr buf len)

def stunIsIndicationStr (buf : Mem) (len : Nat) : Bool :=
  !isChannelMsgStr buf len && isStunIndication (stunGetMsgTypeStr buf len)

def stunIsSuccessResponseStr (buf : Mem) (len : Nat) : Bool :=
  !isChannelMsgStr buf len && isStunSuccessResp (stunGetMsgTypeStr buf len)

def stunMakeRequest (method : BitVec 16) : BitVec 16 := stunMakeType method &&& 0xFEEF
def stunMakeIndication (method : BitVec 16) : BitVec 16 :=
  (stunMakeType method &&& 0xFEEF) ||| 0x0010
def stunMakeSuccessResponse (method : BitVec 16) : BitVec 16 :=
  (stunMakeType method &&& 0xFEEF) ||| 0x0100

/-! ## Transaction id and initialisers

`rnd` is the transaction id that `stun_tid_generate` draws. -/

def stunTidFromMessageStr (buf : Mem) : StunTid := ⟨slice buf 8 12, slice_length _ _ _⟩

def stunTidMessageCpy (buf : Mem) (id : StunTid) : Mem := write buf 8 id.tsxId

def stunInitBufferStr (buf : Mem) : StunBuffer :=
  ⟨write buf 0 (List.replicate stunHeaderLength 0), stunHeaderLength⟩

def stunInitCommandStr (messageType : BitVec 16) (buf : Mem) (rnd : StunTid) : StunBuffer :=
  let m := stunInitBufferStr buf
  let messageType := messageType &&& 0x3FFF
  let b := put16 m.buf 0 messageType
  let b := put16 b 2 0
  let b := put32 b 4 stunMagicCookie
  ⟨stunTidMessageCpy b rnd, m.len⟩

def stunInitRequestStr (method : BitVec 16) (buf : Mem) (rnd : StunTid) : StunBuffer :=
  stunInitCommandStr (stunMakeRequest method) buf rnd

def stunInitIndicationStr (method : BitVec 16) (buf : Mem) (rnd : StunTid) : StunBuffer :=
  stunInitCommandStr (stunMakeIndication method) buf rnd

def stunInitSuccessResponseStr (method : BitVec 16) (buf : Mem) (rnd : StunTid)
    (id : Option StunTid) : StunBuffer :=
  let m := stunInitCommandStr (stunMakeSuccessResponse method) buf rnd
  match id with
  | none => m
  | some tid => ⟨stunTidMessageCpy m.buf tid, m.len⟩

/-! ## What the type field gives back -/

theorem and_3FFF_lt (x : BitVec 16) : (x &&& 0x3FFF).toNat < 0x4000 := by
  rw [BitVec.toNat_and]
  exact Nat.and_lt_two_pow _ (n := 14) (by decide)

theorem stunValidChannel_iff (chn : BitVec 16) :
    stunValidChannel chn = true ↔ 0x4000 ≤ chn.toNat ∧ chn.toNat ≤ 0x7FFF := by
  simp [stunValidChannel]

theorem not_stunValidChannel_of_lt {chn : BitVec 16} (h : chn.toNat < 0x4000) :
    stunValidChannel chn = false := by
  rw [Bool.eq_false_iff, Ne, stunValidChannel_iff]
  omega

theorem top_bits_clear {m : Mem} (h : (get16 m 0).toNat < 0x4000) : m 0 &&& 0xC0 = 0 := by
  have hbyte : ∀ b : Byte, b.toNat < 64 → b &&& 0xC0 = 0 := by decide
  rw [get16_toNat] at h
  exact hbyte (m 0) (by omega)

/-- The three classes an initialiser can give a message. -/
inductive MsgClass where
  | request
  | indication
  | success
deriving DecidableEq

def MsgClass.makeType : MsgClass → BitVec 16 → BitVec 16
  | request => stunMakeRequest
  | indication => stunMakeIndication
  | success => stunMakeSuccessResponse

def MsgClass.bits : MsgClass → BitVec 16
  | request => 0x0000
  | indication => 0x0010
  | success => 0x0100

theorem makeType_eq (c : MsgClass) (method : BitVec 16) :
    c.makeType method = (stunMakeType method &&& 0xFEEF) ||| c.bits := by
  cases c with
  | request => exact (BitVec.or_zero).symm
  | indication => rfl
  | success => rfl

/-- Under a mask that leaves the two class bits out, the type is that of the method. -/
theorem makeType_mask (c : MsgClass) (method : BitVec 16) {mask : BitVec 16}
    (hmask : 0x3EEF &&& mask = mask) :
    (c.makeType method &&& 0x3FFF) &&& mask = stunMakeType method &&& mask := by
  have hbits : c.bits &&& (0x3FFF &&& 0x3EEF) = 0#16 := by cases c <;> rfl
  have hkept : (c.makeType method &&& 0x3FFF) &&& 0x3EEF = stunMakeType method &&& 0x3EEF := by
    rw [makeType_eq, BitVec.and_assoc, BitVec.and_or_distrib_right, hbits, BitVec.or_zero,
      BitVec.and_assoc]
    rfl
  rw [← hmask, ← BitVec.and_assoc, hkept, BitVec.and_assoc]

theorem makeType_class (c : MsgClass) (method : BitVec 16) :
    (c.makeType method &&& 0x3FFF) &&& 0x0110 = c.bits := by
  have hbits : c.bits &&& (0x3FFF &&& 0x0110) = c.bits := by cases c <;> rfl
  have hzero : (0xFEEF : BitVec 16) &&& (0x3FFF &&& 0x0110) = 0#16 := by decide
  rw [makeType_eq, BitVec.and_assoc, BitVec.and_or_distrib_right, hbits, BitVec.and_assoc, hzero,
    BitVec.and_zero, BitVec.zero_or]

theorem stunMakeType_method (method : BitVec 16) :
    let tt := stunMakeType method
    (tt &&& 0x000F) ||| ((tt &&& 0x00E0) >>> 1) ||| ((tt &&& 0x0E00) >>> 2) |||
      ((tt &&& 0x3000) >>> 2) = method &&& 0x0FFF := by
  apply BitVec.eq_of_getLsbD_eq
  intro i hi
  interval_cases i <;> simp [stunMakeType]

theorem getMethod_makeType (c : MsgClass) (method : BitVec 16) {buf : Mem} {len : Nat}
    (hlen : 2 ≤ len) (h : get16 buf 0 = c.makeType method &&& 0x3FFF) :
    stunGetMethodStr buf len = method &&& 0x0FFF := by
  rw [stunGetMethodStr, if_neg (by omega), h]
  simp only
  rw [makeType_mask c method (by decide), makeType_mask c method (by decide),
    makeType_mask c method (by decide), makeType_mask c method (by decide)]
  exact stunMakeType_method method

/-! ## The header as a whole -/

/-- The fields of the header other than its length. -/
structure HasHeader (buf : Mem) (msgType : BitVec 16) (tid : StunTid) : Prop where
  type_eq : get16 buf 0 = msgType
  cookie_eq : get32 buf 4 = stunMagicCookie
  tid_eq : stunTidFromMessageStr buf = tid

theorem HasHeader.congr {buf buf' : Mem} {msgType : BitVec 16} {tid : StunTid}
    (h : HasHeader buf msgType tid) (htype : get16 buf' 0 = get16 buf 0)
    (hrest : slice buf' 4 16 = slice buf 4 16) : HasHeader buf' msgType tid := by
  have hbyte := (slice_eq_iff _ _ _ _).mp hrest
  refine ⟨htype.trans h.type_eq, ?_, ?_⟩
  · rw [← h.cookie_eq, get32, get32]
    congr 1 <;> exact get16_congr (hbyte _ (by omega) (by omega)) (hbyte _ (by omega) (by omega))
  · rw [← h.tid_eq, stunTidFromMessageStr, stunTidFromMessageStr, StunTid.mk.injEq]
    exact (slice_eq_iff _ _ _ _).mpr fun i hlo hhi => hbyte i (by omega) (by omega)

theorem HasHeader.write {buf : Mem} {msgType : BitVec 16} {tid : StunTid}
    (h : HasHeader buf msgType tid) {off : Nat} {bs : List Byte} (hoff : stunHeaderLength ≤ off) :
    HasHeader (ByteMemory.write buf off bs) msgType tid := by
  unfold stunHeaderLength at hoff
  exact h.congr (get16_write_disjoint (by omega)) (slice_write_disjoint (by omega))

theorem stunTidMessageCpy_tid (buf : Mem) (id : StunTid) :
    stunTidFromMessageStr (stunTidMessageCpy buf id) = id := by
  have h := slice_write_same buf 8 id.tsxId
  rw [id.size_eq] at h
  cases id
  simpa [stunTidFromMessageStr, stunTidMessageCpy] using h

theorem HasHeader.tidCpy {buf : Mem} {msgType : BitVec 16} {tid : StunTid}
    (h : HasHeader buf msgType tid) (id : StunTid) :
    HasHeader (stunTidMessageCpy buf id) msgType id := by
  have hid := id.size_eq
  refine ⟨?_, ?_, stunTidMessageCpy_tid buf id⟩
  · rw [← h.type_eq]
    exact get16_write_disjoint (by omega)
  · rw [← h.cookie_eq]
    exact get32_write_disjoint (by omega)

theorem stunInitCommandStr_header (messageType : BitVec 16) (buf : Mem) (rnd : StunTid) :
    HasHeader (stunInitCommandStr messageType buf rnd).buf (messageType &&& 0x3FFF) rnd := by
  have hid := rnd.size_eq
  refine ⟨?_, ?_, stunTidMessageCpy_tid _ rnd⟩
  · simp only [stunInitCommandStr, stunTidMessageCpy, put32]
    rw [get16_write_disjoint (by omega), get16_write_disjoint (by simp), put16,
      get16_write_disjoint (by simp), get16_put16]
  · simp only [stunInitCommandStr, stunTidMessageCpy]
    rw [get32_write_disjoint (by omega), get32_put32]

theorem stunInitCommandStr_lenField (messageType : BitVec 16) (buf : Mem) (rnd : StunTid) :
    get16 (stunInitCommandStr messageType buf rnd).buf 2 = 0 := by
  have hid := rnd.size_eq
  simp only [stunInitCommandStr, stunTidMessageCpy, put32]
  rw [get16_write_disjoint (by omega), get16_write_disjoint (by simp), get16_put16]

end TurnClient
