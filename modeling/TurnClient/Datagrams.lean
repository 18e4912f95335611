import TurnClient.StunAddr
import TurnClient.StunResponses

/-!
# Datagrams in a reused buffer

`recv` overlays a buffer with the bytes of one datagram and leaves what lies
behind them. The parsers of `ns_turn_msg.c` only look at bytes below the length
they are given, so what they say of such a buffer they say of the datagram.
-/

namespace TurnClient

open ByteMemory
set_option autoImplicit false

/-- Why a socket call fails, as far as the callers tell the reasons apart. -/
inductive Errno where
  | eintr
  | eagain
  | enobufs
  | other
deriving DecidableEq

/-- What one `recv` on a datagram socket gives. -/
inductive RecvOutcome where
  | datagram (bytes : List Byte)
  | failed (errno : Errno)
deriving DecidableEq

/-- `recv` of at most `cap` bytes: a longer datagram is cut off. -/
def recvInto (buf : Mem) (cap : Nat) (bytes : List Byte) : Mem := write buf 0 (bytes.take cap)

/-- The transaction id 1..12. -/
def countingTid : StunTid := ⟨[1, 2, 3, 4, 5, 6, 7, 8, 9, 10, 11, 12], rfl⟩

/-! ## Bytes below a length -/

def AgreeBelow (n : Nat) (buf buf' : Mem) : Prop := ∀ i, i < n → buf i = buf' i

section AgreeBelow
variable {buf buf' : Mem} {len : Nat}

theorem agreeBelow_write (buf : Mem) (bs : List Byte) :
    AgreeBelow bs.length (write buf 0 bs) (ofList bs) := by
  intro i hi
  have h := write_inside buf 0 hi
  rw [Nat.zero_add] at h
  exact h

theorem AgreeBelow.get16 (h : AgreeBelow len buf buf') {off : Nat} (hoff : off + 2 ≤ len) :
    ByteMemory.get16 buf off = ByteMemory.get16 buf' off :=
  get16_congr (h _ (by omega)) (h _ (by omega))

theorem AgreeBelow.get32 (h : AgreeBelow len buf buf') {off : Nat} (hoff : off + 4 ≤ len) :
    ByteMemory.get32 buf off = ByteMemory.get32 buf' off := by
  rw [ByteMemory.get32, ByteMemory.get32, h.get16 (by omega), h.get16 (by omega)]

theorem AgreeBelow.slice (h : AgreeBelow len buf buf') {off n : Nat} (hoff : off + n ≤ len) :
    ByteMemory.slice buf off n = ByteMemory.slice buf' off n :=
  (slice_eq_iff _ _ _ _).mpr fun i _ hi => h i (by omega)

theorem AgreeBelow.tid (h : AgreeBelow len buf buf') (hlen : 20 ≤ len) :
    stunTidFromMessageStr buf = stunTidFromMessageStr buf' := by
  unfold stunTidFromMessageStr
  rw [StunTid.mk.injEq]
  exact h.slice (by omega)

/-! ## The predicates -/

theorem AgreeBelow.isChannelMsg (h : AgreeBelow len buf buf') :
    isChannelMsgStr buf len = isChannelMsgStr buf' len := by
  unfold isChannelMsgStr
  by_cases hlen : 4 ≤ len
  · rw [h.get16 (by omega)]
  · simp [hlen]

theorem AgreeBelow.msgType (h : AgreeBelow len buf buf') :
    stunGetMsgTypeStr buf len = stunGetMsgTypeStr buf' len := by
  unfold stunGetMsgTypeStr
  split
  · rfl
  · rw [h.get16 (by omega)]

theorem AgreeBelow.method (h : AgreeBelow len buf buf') :
    stunGetMethodStr buf len = stunGetMethodStr buf' len := by
  unfold stunGetMethodStr
  split
  · rfl
  · rw [h.get16 (by omega)]

theorem AgreeBelow.isCommand (h : AgreeBelow len buf buf') :
    stunIsCommandMessageStr buf len = stunIsCommandMessageStr buf' len := by
  unfold stunIsCommandMessageStr stunHeaderLength
  by_cases hlen : 20 ≤ len
  · rw [h.get16 (by omega), h.get16 (by omega), h.get32 (by omega), h 0 (by omega)]
  · simp [hlen]

theorem AgreeBelow.isSuccess (h : AgreeBelow len buf buf') :
    stunIsSuccessResponseStr buf len = stunIsSuccessResponseStr buf' len := by
  rw [stunIsSuccessResponseStr, stunIsSuccessResponseStr, h.isChannelMsg, h.msgType]

/-! ## The walk -/

theorem AgreeBelow.commandLen (h : AgreeBelow len buf buf') :
    stunGetCommandMessageLenStr buf len = stunGetCommandMessageLenStr buf' len := by
  unfold stunGetCommandMessageLenStr stunHeaderLength
  split
  · rfl
  · rw [h.get16 (by omega)]

theorem AgreeBelow.checkValid (h : AgreeBelow len buf buf') {attr remaining : Nat}
    (hin : attr + remaining ≤ len) :
    stunAttrCheckValid buf attr remaining = stunAttrCheckValid buf' attr remaining := by
  unfold stunAttrCheckValid
  split
  · rw [h.get16 (by omega)]
  · rfl

theorem AgreeBelow.first (h : AgreeBelow len buf buf') :
    stunAttrGetFirstStr buf len = stunAttrGetFirstStr buf' len := by
  simp only [stunAttrGetFirstStr, ← h.commandLen]
  split
  · apply h.checkValid
    unfold stunHeaderLength at *
    rcases stunGetCommandMessageLenStr_cases buf len with hl | ⟨hl, hle⟩ <;> omega
  · rfl

theorem AgreeBelow.next (h : AgreeBelow len buf buf') {a : Nat} (ha : InMessage buf len a) :
    stunAttrGetNextStr buf len (some a) = stunAttrGetNextStr buf' len (some a) := by
  obtain ⟨_, hin, hle⟩ := ha
  have hlenField := h.get16 (show a + 2 + 2 ≤ len by omega)
  simp only [stunAttrGetNextStr, ← h.commandLen, ← hlenField]
  split
  · apply h.checkValid
    rcases stunGetCommandMessageLenStr_cases buf len with hl | ⟨hl, hle⟩ <;> omega
  · rfl

theorem AgreeBelow.attrRefsFrom (h : AgreeBelow len buf buf') (fuel : Nat) (r : Option Nat)
    (hr : ∀ a, r = some a → InMessage buf len a) :
    TurnClient.attrRefsFrom buf len fuel r = TurnClient.attrRefsFrom buf' len fuel r := by
  induction fuel generalizing r with
  | zero => cases r <;> rfl
  | succ fuel ih =>
    cases r with
    | none => rfl
    | some a =>
      have ha := hr a rfl
      rw [TurnClient.attrRefsFrom, TurnClient.attrRefsFrom, ← h.next ha,
        ih _ fun b hb => (inMessage_next ha hb).2]

theorem AgreeBelow.attrRefs (h : AgreeBelow len buf buf') :
    TurnClient.attrRefs buf len = TurnClient.attrRefs buf' len := by
  rw [TurnClient.attrRefs, TurnClient.attrRefs, ← h.first]
  exact h.attrRefsFrom _ _ fun a ha => inMessage_first ha

/-! ## Decoding an address -/

theorem stunAddrDecode_agree (h : AgreeBelow len buf buf') (xored : Bool) (mc : BitVec 32)
    (tid : StunTid) :
    stunAddrDecode buf len xored mc tid = stunAddrDecode buf' len xored mc tid := by
  unfold stunAddrDecode
  by_cases hlen : len < 8
  · simp only [if_pos hlen]
  · rw [h 0 (by omega), h 1 (by omega), h.get16 (by omega), h.get32 (by omega)]
    by_cases h20 : len = 20
    · have hwords := h.slice (show 4 + 16 ≤ len by omega)
      simp only [decodeIn6, hwords]
    · simp only [h20, ne_eq, not_false_eq_true, if_true]

theorem AgreeBelow.getAddr (h : AgreeBelow len buf buf') (maps : AddrMappings) {a : Nat}
    (ha : InMessage buf len a) (defaultAddr : Option IoaAddr) :
    stunAttrGetAddrStr maps buf (some a) defaultAddr =
      stunAttrGetAddrStr maps buf' (some a) defaultAddr := by
  obtain ⟨hlo, hin, hle⟩ := ha
  have hpad := Tlv.le_pad4 (ByteMemory.get16 buf (a + 2)).toNat
  have hvalue : AgreeBelow (ByteMemory.get16 buf (a + 2)).toNat (fun i => buf (a + 4 + i))
      (fun i => buf' (a + 4 + i)) := fun i hi => h _ (by omega)
  have htype := h.get16 (show a + 2 ≤ len by omega)
  have hlenField := h.get16 (show a + 2 + 2 ≤ len by omega)
  simp only [stunAttrGetAddrStr, stunAttrGetValue_some, stunAttrGetLen_some, ← h.tid (by omega),
    ← htype, ← hlenField, Int.toNat_natCast]
  by_cases hzero : (ByteMemory.get16 buf (a + 2)).toNat = 0
  · simp only [if_pos hzero]
  · simp only [if_neg hzero, stunAddrDecode_agree hvalue]

end AgreeBelow

end TurnClient
