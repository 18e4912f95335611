import TurnClient.MessageFraming
import TurnClient.StunRoundTrip

/-!
# Cutting a stream into messages

Over TCP the client cuts the byte stream with `stun_get_message_len_str`: it
takes the length of the message at the front, drops that many bytes and goes
on. The messages are STUN commands and ChannelData; the HTTP guess stands
between the two, so ChannelData is cut right unless a request is found there.
-/

namespace TurnClient

open ByteMemory
set_option autoImplicit false

/-! ## Streams of messages -/

/-- The header and, copied behind it, the payload; the padding is what the buffer held. -/
def channelMessage (chn : BitVec 16) (m : StunBuffer) (payload : List Byte) : StunBuffer :=
  let m := (stunInitChannelMessageStr chn m payload.length true).2
  ⟨write m.buf 4 payload, m.len⟩

inductive StreamMessage where
  | command (m : StunBuffer) (msgType : BitVec 16) (tid : StunTid) (attrs : List Tlv.Record)
      (built : IsMessage m msgType tid attrs) (type_lt : msgType.toNat < 0x4000)
      (fits : m.len ≤ maxStunMessageSize)
  | channelData (chn : BitVec 16) (m : StunBuffer) (payload : List Byte)
      (valid : stunValidChannel chn = true) (fits : 4 + payload.length ≤ maxStunMessageSize)

namespace StreamMessage

def buffer : StreamMessage → StunBuffer
  | command m _ _ _ _ _ _ => m
  | channelData chn m payload _ _ => channelMessage chn m payload

def bytes (m : StreamMessage) : List Byte := slice m.buffer.buf 0 m.buffer.len

/-- The size without padding. -/
def appLen : StreamMessage → Nat
  | command m _ _ _ _ _ _ => m.len
  | channelData _ _ payload _ _ => 4 + payload.length

def isChannelData : StreamMessage → Bool
  | command _ _ _ _ _ _ _ => false
  | channelData _ _ _ _ _ => true

end StreamMessage

def streamBytes (ms : List StreamMessage) : List Byte := ms.flatMap StreamMessage.bytes

/-- The answers while the stream is cut; `behind n` is the memory that can be read
behind the last `n` bytes. -/
def cutStream (ulongMax : Nat) (behind : Nat → List Byte) : Nat → List Byte → List (Int × Nat)
  | 0, _ => []
  | fuel + 1, rest =>
    if rest = [] then []
    else
      let answer := stunGetMessageLenStr ulongMax (rest ++ behind rest.length) rest.length true
        rest.length
      if answer.1 ≤ 0 then [answer]
      else answer :: cutStream ulongMax behind fuel (rest.drop answer.1.toNat)

/-- Cutting the stream gives the messages back, each with its size without padding. -/
def CutExactly (ulongMax : Nat) (behind : Nat → List Byte) (ms : List StreamMessage) : Prop :=
  cutStream ulongMax behind (streamBytes ms).length (streamBytes ms) =
    ms.map fun m => ((m.bytes.length : Int), m.appLen)

/-- The HTTP guess takes no ChannelData, or one of its exact size that needs no padding. -/
def HttpSpares (ulongMax : Nat) (behind : Nat → List Byte) (m : StreamMessage)
    (post : List StreamMessage) : Prop :=
  m.isChannelData = true → ∀ h,
    httpFramed ulongMax (streamBytes (m :: post) ++ behind (streamBytes (m :: post)).length)
      (streamBytes (m :: post)).length = some h → h = m.bytes.length ∧ h = m.appLen

def HttpSparesAll (ulongMax : Nat) (behind : Nat → List Byte) : List StreamMessage → Prop
  | [] => True
  | m :: post => HttpSpares ulongMax behind m post ∧ HttpSparesAll ulongMax behind post

/-! ## One message -/

theorem and_0003_eq_zero_iff (x : BitVec 16) : x &&& 0x0003 = 0 ↔ x.toNat % 4 = 0 := by
  rw [← BitVec.toNat_inj, BitVec.toNat_and]
  change x.toNat &&& (2 ^ 2 - 1) = 0 ↔ _
  rw [Nat.and_two_pow_sub_one_eq_mod]

theorem roundUp_true_toNat (len : BitVec 16) :
    (roundUp true len).toNat = Tlv.pad4 len.toNat % 2 ^ 16 := by
  have hlow := and_0003_eq_zero_iff len
  have hlt := len.isLt
  unfold roundUp Tlv.pad4
  split
  · rename_i hpad
    have hmod : len.toNat % 4 ≠ 0 := fun h => hpad.2 (hlow.mpr h)
    have hone : (1 : BitVec 16).toNat = 1 := rfl
    simp only [BitVec.toNat_shiftLeft, BitVec.toNat_add, BitVec.toNat_ushiftRight, hone,
      Nat.shiftLeft_eq, Nat.shiftRight_eq_div_pow]
    omega
  · rename_i hpad
    have hmod : len.toNat % 4 = 0 := by
      by_contra hne
      exact hpad ⟨rfl, fun h => hne (hlow.mp h)⟩
    omega

theorem roundUp_toNat {len : BitVec 16} (h : len.toNat ≤ 65532) :
    (roundUp true len).toNat = Tlv.pad4 len.toNat := by
  rw [roundUp_true_toNat]
  unfold Tlv.pad4
  omega

section ChannelData
variable {chn : BitVec 16} {m : StunBuffer} {payload : List Byte}

theorem channelMessage_eq (hfits : 4 + payload.length ≤ maxStunMessageSize) :
    channelMessage chn m payload =
      ⟨write (put16 (put16 m.buf 0 chn) 2 (BitVec.ofNat 16 payload.length)) 4 payload,
        Tlv.pad4 (4 + payload.length)⟩ := by
  unfold maxStunMessageSize at hfits
  have hlen : (BitVec.ofNat 16 payload.length).toNat = payload.length := by
    rw [BitVec.toNat_ofNat]
    omega
  have hpad : 4 + Tlv.pad4 payload.length = Tlv.pad4 (4 + payload.length) := by
    unfold Tlv.pad4
    omega
  unfold channelMessage stunInitChannelMessageStr
  rw [if_neg (by omega), if_neg (by unfold intMax; omega),
    if_neg (by unfold maxStunMessageSize; omega), BitVec.ofInt_natCast]
  simp only
  rw [roundUp_toNat (by omega), hlen, hpad]

variable (chn m) in
theorem channelMessage_header (hfits : 4 + payload.length ≤ maxStunMessageSize) :
    get16 (channelMessage chn m payload).buf 0 = chn ∧
      (get16 (channelMessage chn m payload).buf 2).toNat = payload.length := by
  rw [channelMessage_eq hfits]
  unfold maxStunMessageSize at hfits
  simp only
  rw [get16_write_disjoint (by omega), get16_write_disjoint (by omega), get16_put16]
  constructor
  · unfold put16
    rw [get16_write_disjoint (by simp)]
    exact get16_put16 _ _ _
  · rw [BitVec.toNat_ofNat]
    omega

variable (chn m) in
theorem channelMessage_bytes (hfits : 4 + payload.length ≤ maxStunMessageSize) :
    slice (channelMessage chn m payload).buf 0 (4 + payload.length) =
      be16 chn ++ be16 (BitVec.ofNat 16 payload.length) ++ payload := by
  have htype : slice (put16 (put16 m.buf 0 chn) 2 (BitVec.ofNat 16 payload.length)) 0 2 =
      be16 chn := by
    rw [put16, slice_write_disjoint (by omega)]
    exact slice_write_same m.buf 0 (be16 chn)
  have hfield : slice (put16 (put16 m.buf 0 chn) 2 (BitVec.ofNat 16 payload.length)) (0 + 2) 2 =
      be16 (BitVec.ofNat 16 payload.length) := slice_write_same _ 2 (be16 _)
  have hpayload : slice (channelMessage chn m payload).buf (0 + 4) payload.length = payload := by
    rw [channelMessage_eq hfits]
    exact slice_write_same _ 4 payload
  have hhead : slice (channelMessage chn m payload).buf 0 (2 + 2) =
      be16 chn ++ be16 (BitVec.ofNat 16 payload.length) := by
    rw [channelMessage_eq hfits]
    simp only
    rw [slice_write_disjoint (by omega), slice_append, htype, hfield]
  rw [slice_append, hpayload]
  exact congrArg (· ++ payload) hhead

end ChannelData

namespace StreamMessage

theorem bytes_length (m : StreamMessage) : m.bytes.length = m.buffer.len := slice_length _ _ _

theorem bytes_agree (m : StreamMessage) (rest : List Byte) {i : Nat} (hi : i < m.buffer.len) :
    ofList (m.bytes ++ rest) i = m.buffer.buf i := by
  have hbyte := slice_getElem? m.buffer.buf 0 m.buffer.len i
  rw [if_pos hi, Nat.zero_add] at hbyte
  rw [ofList_append_left rest (by rwa [bytes_length]), ofList, List.getD_eq_getElem?_getD, bytes,
    hbyte, Option.getD_some]

theorem four_le_length (m : StreamMessage) : 4 ≤ m.bytes.length := by
  rw [bytes_length]
  cases m with
  | command m msgType tid attrs built type_lt fits =>
    have hlen := built.len_eq
    simp only [buffer]
    omega
  | channelData chn m payload valid fits =>
    have hpad := Tlv.le_pad4 (4 + payload.length)
    simp only [buffer, channelMessage_eq fits]
    omega

end StreamMessage

theorem streamBytes_agree (m : StreamMessage) (post : List StreamMessage) (extra : List Byte)
    {i : Nat} (hi : i < m.bytes.length) :
    ofList (streamBytes (m :: post) ++ extra) i = m.buffer.buf i := by
  rw [m.bytes_length] at hi
  simp only [streamBytes, List.flatMap_cons, List.append_assoc]
  exact m.bytes_agree _ hi

/-- A STUN command is always cut right, whatever follows. -/
theorem command_answer {ulongMax blen appLen : Nat} {rest : List Byte} {m : StunBuffer}
    {msgType : BitVec 16} {tid : StunTid} {attrs : List Tlv.Record}
    (built : IsMessage m msgType tid attrs) (htype : msgType.toNat < 0x4000)
    (hfits : m.len ≤ maxStunMessageSize) (hblen : m.len ≤ blen)
    (hagree : ∀ i, i < m.len → m.buf i = ofList rest i) :
    stunGetMessageLenStr ulongMax rest blen true appLen = ((m.len : Int), m.len) := by
  unfold maxStunMessageSize at hfits
  have hcommand := built.isCommand htype
  have hlen := built.len_eq
  have hsum : (get16 m.buf 2 + 20).toNat = m.len := by
    rw [BitVec.toNat_add, built.lenField]
    change (Tlv.size attrs + 20) % 65536 = m.len
    omega
  have hstarts : startsWithCommand m.buf m.len = true := by
    unfold stunIsCommandMessageStr at hcommand
    unfold startsWithCommand
    simp only [Bool.and_eq_true, decide_eq_true_eq] at hcommand ⊢
    exact ⟨hcommand.1, by omega⟩
  obtain ⟨hstarts', hfield⟩ := startsWithCommand_extend hblen hagree hstarts
  rw [messageLen_of_command hstarts', hfield, hsum]

/-- ChannelData is cut right unless the HTTP guess says something else. -/
theorem channelData_answer_iff {ulongMax blen appLen : Nat} {rest : List Byte} {chn : BitVec 16}
    {m : StunBuffer} {payload : List Byte} (hvalid : stunValidChannel chn = true)
    (hfits : 4 + payload.length ≤ maxStunMessageSize)
    (hblen : (channelMessage chn m payload).len ≤ blen)
    (hagree : ∀ i, i < (channelMessage chn m payload).len →
      (channelMessage chn m payload).buf i = ofList rest i) :
    stunGetMessageLenStr ulongMax rest blen true appLen =
        (((channelMessage chn m payload).len : Int), 4 + payload.length) ↔
      ∀ h, httpFramed ulongMax rest blen = some h →
        h = (channelMessage chn m payload).len ∧ h = 4 + payload.length := by
  obtain ⟨hchn, hfield⟩ := channelMessage_header chn m hfits
  have hlen : (channelMessage chn m payload).len = Tlv.pad4 (4 + payload.length) := by
    rw [channelMessage_eq hfits]
  have hpad := Tlv.le_pad4 (4 + payload.length)
  unfold maxStunMessageSize at hfits
  have h16 : ∀ off, off + 2 ≤ 4 →
      get16 (ofList rest) off = get16 (channelMessage chn m payload).buf off :=
    fun off hoff => get16_congr (hagree _ (by omega)).symm (hagree _ (by omega)).symm
  have hsum : (4 + get16 (ofList rest) 2).toNat = 4 + payload.length := by
    rw [h16 2 (by omega), BitVec.toNat_add, hfield]
    change (4 + payload.length) % 65536 = 4 + payload.length
    omega
  have hsizes : channelSizes true (ofList rest) =
      ((channelMessage chn m payload).len, 4 + payload.length) := by
    unfold channelSizes
    rw [roundUp_toNat (by omega), hsum, hlen]
  rw [messageLen_of_channel (by omega) (by rw [h16 0 (by omega), hchn]; exact hvalid), hsizes]
  cases httpFramed ulongMax rest blen with
  | none => simp [channelAnswer, hblen]
  | some h =>
    simp only [channelAnswer, Prod.mk.injEq, Option.some.injEq, forall_eq']
    omega

theorem front_answer_iff (ulongMax appLen : Nat) (behind : Nat → List Byte) (m : StreamMessage)
    (post : List StreamMessage) :
    stunGetMessageLenStr ulongMax
        (streamBytes (m :: post) ++ behind (streamBytes (m :: post)).length)
        (streamBytes (m :: post)).length true appLen = ((m.bytes.length : Int), m.appLen) ↔
      HttpSpares ulongMax behind m post := by
  have hblen : m.buffer.len ≤ (streamBytes (m :: post)).length := by
    simp [streamBytes, m.bytes_length]
  have hagree : ∀ i, i < m.buffer.len → m.buffer.buf i =
      ofList (streamBytes (m :: post) ++ behind (streamBytes (m :: post)).length) i := by
    intro i hi
    rw [← m.bytes_length] at hi
    exact (streamBytes_agree m post _ hi).symm
  unfold HttpSpares
  rw [m.bytes_length]
  cases m with
  | command m msgType tid attrs built type_lt fits =>
    refine ⟨fun _ h => Bool.noConfusion h, fun _ => ?_⟩
    exact command_answer built type_lt fits hblen hagree
  | channelData chn m payload valid fits =>
    exact (channelData_answer_iff valid fits hblen hagree).trans ⟨fun h _ => h, fun h => h rfl⟩

/-! ## The whole stream -/

theorem cutStream_cons_iff (ulongMax : Nat) (behind : Nat → List Byte) (fuel : Nat)
    (m : StreamMessage) (post : List StreamMessage) (expected : List (Int × Nat)) :
    cutStream ulongMax behind (fuel + 1) (streamBytes (m :: post)) =
        ((m.bytes.length : Int), m.appLen) :: expected ↔
      HttpSpares ulongMax behind m post ∧
        cutStream ulongMax behind fuel (streamBytes post) = expected := by
  have hpos := m.four_le_length
  have hcons : streamBytes (m :: post) = m.bytes ++ streamBytes post := rfl
  have hne : streamBytes (m :: post) ≠ [] := by
    intro hnil
    rw [hcons] at hnil
    have hlen := congrArg List.length hnil
    simp only [List.length_append, List.length_nil] at hlen
    omega
  have hdrop : (streamBytes (m :: post)).drop (m.bytes.length : Int).toNat = streamBytes post := by
    rw [hcons, Int.toNat_natCast, List.drop_left]
  have hfront := front_answer_iff ulongMax (streamBytes (m :: post)).length behind m post
  simp only [cutStream]
  rw [if_neg hne]
  constructor
  · intro h
    split at h
    · rename_i hstop
      rw [(List.cons.inj h).1] at hstop
      omega
    · obtain ⟨hanswer, hrest⟩ := List.cons.inj h
      rw [hanswer, hdrop] at hrest
      exact ⟨hfront.mp hanswer, hrest⟩
  · rintro ⟨hspares, hrest⟩
    rw [hfront.mpr hspares, if_neg (by simp only; omega), hdrop, hrest]

theorem cutStream_eq_iff (ulongMax : Nat) (behind : Nat → List Byte) (ms : List StreamMessage)
    {fuel : Nat} (hfuel : (streamBytes ms).length ≤ fuel) :
    cutStream ulongMax behind fuel (streamBytes ms) =
        ms.map (fun m => ((m.bytes.length : Int), m.appLen)) ↔
      HttpSparesAll ulongMax behind ms := by
  induction ms generalizing fuel with
  | nil => cases fuel <;> simp [cutStream, streamBytes, HttpSparesAll]
  | cons m post ih =>
    have hpos := m.four_le_length
    have hlen : (streamBytes (m :: post)).length = m.bytes.length + (streamBytes post).length :=
      List.length_append
    obtain ⟨fuel, rfl⟩ : ∃ n, fuel = n + 1 := ⟨fuel - 1, by omega⟩
    rw [List.map_cons, cutStream_cons_iff, ih (by omega), HttpSparesAll]

theorem stream_cut_iff (ulongMax : Nat) (behind : Nat → List Byte) (ms : List StreamMessage) :
    CutExactly ulongMax behind ms ↔ HttpSparesAll ulongMax behind ms :=
  cutStream_eq_iff ulongMax behind ms (Nat.le_refl _)

theorem httpFramed_none {ulongMax blen : Nat} {s : List Byte}
    (h : get16 (ofList s) 0 ∉ httpChannels) : httpFramed ulongMax s blen = none := by
  by_contra hne
  obtain ⟨n, hn⟩ := Option.ne_none_iff_exists'.mp hne
  obtain ⟨sp, hsp, _⟩ := httpFramed_eq_some_iff.mp hn
  exact h (httpChannels_of_head hsp)

/-- Only four channel numbers can be taken for the beginning of a request. -/
theorem cutExactly_of_channels (ulongMax : Nat) (behind : Nat → List Byte)
    (ms : List StreamMessage) (h : ∀ m ∈ ms, get16 m.buffer.buf 0 ∉ httpChannels) :
    CutExactly ulongMax behind ms := by
  refine (cutStream_eq_iff ulongMax behind ms (Nat.le_refl _)).mpr ?_
  induction ms with
  | nil => trivial
  | cons m post ih =>
    refine ⟨fun _ n hn => ?_, ih fun m' hm' => h m' (List.mem_cons_of_mem _ hm')⟩
    have hpos := m.four_le_length
    have hfirst : get16 (ofList (streamBytes (m :: post) ++
        behind (streamBytes (m :: post)).length)) 0 ∉ httpChannels := by
      rw [get16_congr (streamBytes_agree m post _ (by omega))
        (streamBytes_agree m post _ (by omega))]
      exact h m (by simp)
    rw [httpFramed_none hfirst] at hn
    cases hn

/-- A payload that completes "GE" and the length to the head of a request. -/
def requestPayload : List Byte := ascii " HTTP/\r\n\r\n" ++ List.replicate 21526 0

theorem requestPayload_length : requestPayload.length = 21536 := by
  rw [requestPayload, List.length_append, List.length_replicate]
  rfl

def getChannelData : StreamMessage :=
  .channelData 0x4745 ⟨fun _ => 0, 0⟩ requestPayload (by decide)
    (by rw [requestPayload_length]; decide)

theorem getChannelData_starts {i : Nat} (hi : i < 14) :
    ofList (ascii "GET  HTTP/\r\n\r\n") i = getChannelData.buffer.buf i := by
  have hfits : 4 + requestPayload.length ≤ maxStunMessageSize := by
    rw [requestPayload_length]
    decide
  have hbytes := congrArg (fun bs => bs[i]?) (channelMessage_bytes 0x4745 ⟨fun _ => 0, 0⟩ hfits)
  simp only [slice_getElem?, Nat.zero_add] at hbytes
  rw [if_pos (by rw [requestPayload_length]; omega), requestPayload_length] at hbytes
  have hsplit : be16 0x4745 ++ be16 (BitVec.ofNat 16 21536) ++ requestPayload =
      ascii "GET  HTTP/\r\n\r\n" ++ List.replicate 21526 0 := by
    rw [requestPayload, ← List.append_assoc]
    exact congrArg (· ++ List.replicate 21526 0) (by decide)
  rw [hsplit, List.getElem?_append_left (by exact hi)] at hbytes
  rw [ofList, List.getD_eq_getElem?_getD, ← hbytes, Option.getD_some]
  rfl

/-- Its first 14 bytes are a complete request for the framing. -/
theorem get_channel_cut_short : ¬ CutExactly (2 ^ 64 - 1) (fun _ => []) [getChannelData] := by
  intro h
  have hspares := ((cutStream_eq_iff _ _ [getChannelData] (Nat.le_refl _)).mp h).1
  have hlen : getChannelData.bytes.length = 21540 := by
    rw [getChannelData.bytes_length, getChannelData, StreamMessage.buffer, channelMessage_eq,
      requestPayload_length]
    · rfl
    · rw [requestPayload_length]
      decide
  have hblen : 14 ≤ (streamBytes [getChannelData]).length := by
    simp only [streamBytes, List.flatMap_cons, List.flatMap_nil, List.append_nil, hlen]
    omega
  have hagree : ∀ i, i < 14 → ofList (ascii "GET  HTTP/\r\n\r\n") i =
      ofList (streamBytes [getChannelData] ++ []) i := by
    intro i hi
    rw [streamBytes_agree getChannelData [] [] (by omega)]
    exact getChannelData_starts hi
  have hhttp : httpFramed (2 ^ 64 - 1) (ascii "GET  HTTP/\r\n\r\n") 14 = some 14 := by
    decide +kernel
  have hsp : httpHeadEnd (ofList (ascii "GET  HTTP/\r\n\r\n")) 14 = some 10 := by
    decide +kernel
  have hbody : bodyLength (2 ^ 64 - 1) (streamBytes [getChannelData] ++ [])
      (streamBytes [getChannelData]).length =
      bodyLength (2 ^ 64 - 1) (ascii "GET  HTTP/\r\n\r\n") 14 := by
    rw [bodyLength, bodyLength, hsp, httpHeadEnd_extend hblen hagree hsp]
    simp only
    rw [contentLength_of_short (by decide), contentLength_of_short (by decide)]
  have hframed := (httpFramed_extend_iff hblen hagree hhttp).mpr hbody
  have hsame := (hspares rfl 14 hframed).1
  omega

end TurnClient
