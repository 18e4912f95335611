import TurnClient.Fingerprint
import TurnClient.TcpReads
import TurnClient.TestTraffic

/-!
# Messages through the relay

A message that `client_write` puts into ChannelData or a Send indication and
that the relay passes on, to the same client or another, is read there as the
message it is, with its number and its time, whether it comes as ChannelData or
in the DATA attribute of an indication.
-/

namespace TurnClient

open ByteMemory
set_option autoImplicit false

/-! ## The structure at the front -/

theorem le32_bytes (x : BitVec 32) :
    x.extractLsb' 24 8 ++ x.extractLsb' 16 8 ++ x.extractLsb' 8 8 ++ x.extractLsb' 0 8 = x := by
  have hhigh : x.extractLsb' 24 8 ++ x.extractLsb' 16 8 = x.extractLsb' 16 16 :=
    BitVec.extractLsb'_append_extractLsb'_eq_extractLsb' rfl
  have hmid : x.extractLsb' 16 16 ++ x.extractLsb' 8 8 = x.extractLsb' 8 24 :=
    BitVec.extractLsb'_append_extractLsb'_eq_extractLsb' rfl
  have hall : x.extractLsb' 8 24 ++ x.extractLsb' 0 8 = x.extractLsb' 0 32 :=
    BitVec.extractLsb'_append_extractLsb'_eq_extractLsb' rfl
  rw [hhigh, hmid, hall]
  exact BitVec.extractLsb'_eq_self

theorem msgnumAt_of_slice {buf : Mem} {off : Nat} {x : BitVec 32}
    (h : slice buf off 4 = le32 x) : msgnumAt buf off = x := by
  have hbyte : ∀ i, i < 4 → buf (off + i) = (le32 x).getD i 0 := by
    intro i hi
    have hget := congrArg (fun l : List Byte => l.getD i 0) h
    simp only [List.getD_eq_getElem?_getD, slice_getElem?, hi, if_true, Option.getD_some] at hget
    rw [List.getD_eq_getElem?_getD]
    exact hget
  have h0 := hbyte 0 (by decide)
  have h1 := hbyte 1 (by decide)
  have h2 := hbyte 2 (by decide)
  have h3 := hbyte 3 (by decide)
  rw [msgnumAt, h3, h2, h1]
  rw [Nat.add_zero] at h0
  rw [h0]
  exact le32_bytes x

theorem bufferToSend_length (mi : MessageInfo) : (bufferToSend mi).length = clmessageLength := rfl

/-- The bytes of a message give its number and its time back. -/
theorem messageInfoAt_of_slice {buf : Mem} {off : Nat} {mi : MessageInfo}
    (h : slice buf off clmessageLength = bufferToSend mi) : messageInfoAt buf off = mi := by
  rw [← bufferToSend_length mi] at h
  obtain ⟨hfront, _⟩ := (slice_eq_append_iff buf off _ _).mp h
  obtain ⟨hnumber, htime⟩ := (slice_eq_append_iff buf off _ _).mp hfront
  obtain ⟨hnum, _⟩ := (slice_eq_append_iff buf off _ _).mp hnumber
  obtain ⟨hlow, hhigh⟩ := (slice_eq_append_iff buf (off + 8) _ _).mp htime
  have htimes : mi.mstime.extractLsb' 32 32 ++ mi.mstime.extractLsb' 0 32 = mi.mstime :=
    @BitVec.extractLsb'_append_extractLsb' 32 32 mi.mstime
  have hback : msgnumAt buf (off + 12) = mi.mstime.extractLsb' 32 32 := msgnumAt_of_slice hhigh
  rw [messageInfoAt, msgnumAt_of_slice hnum, msgnumAt_of_slice hlow, hback, htimes]

/-! ## ChannelData -/

/-- ChannelData on a channel with the message, in the first bytes of a buffer. -/
structure HoldsChannelMessage (buf : Mem) (chn : BitVec 16) (mi : MessageInfo) : Prop where
  valid : stunValidChannel chn = true
  channel : get16 buf 0 = chn
  lenField : (get16 buf 2).toNat = clmessageLength
  payload : slice buf 4 clmessageLength = bufferToSend mi

theorem fillOutBuffer_holds {g : Globals} (c : WriteChoice) (mi : MessageInfo) (s : UrSession)
    (hmode : g.doNotUseChannel = false) (hvalid : stunValidChannel s.elem.chnum = true) :
    let m := s.fillOutBuffer g c mi
    m.len = 104 ∧ HoldsChannelMessage m.buf s.elem.chnum mi := by
  have hlen : 4 + paddedSize g.useTcp (clmessageLength : Int).toNat = 104 := by
    cases g.useTcp <;> rfl
  have hok := (stunInitChannelMessageStr_ok_iff s.elem.chnum s.outBuffer
    ⟨put16 (put16 s.outBuffer.buf 0 s.elem.chnum) 2 (BitVec.ofInt 16 clmessageLength),
      4 + paddedSize g.useTcp (clmessageLength : Int).toNat⟩ clmessageLength g.useTcp).mpr
    ⟨by decide, by decide, rfl⟩
  have hshape : s.fillOutBuffer g c mi = ⟨write (put16 (put16 s.outBuffer.buf 0 s.elem.chnum) 2
      (BitVec.ofInt 16 clmessageLength)) 4 (bufferToSend mi), 104⟩ := by
    unfold UrSession.fillOutBuffer
    rw [hmode, hok, hlen]
    rfl
  intro m
  have hm : m = _ := hshape
  rw [hm]
  refine ⟨rfl, hvalid, ?_, ?_, ?_⟩
  · rw [get16_write_disjoint (Or.inl (by omega)), put16, get16_write_disjoint (Or.inl (by omega))]
    exact get16_put16 _ _ _
  · rw [get16_write_disjoint (Or.inl (by omega)), get16_put16]
    rfl
  · exact slice_write_same _ _ _

/-- The predicates of `ns_turn_msg.c` keep ChannelData apart from everything else. -/
theorem isChannelMsg_of_holds {buf : Mem} {chn : BitVec 16} {mi : MessageInfo}
    (h : HoldsChannelMessage buf chn mi) : isChannelMsgStr buf 104 = true := by
  rw [isChannelMsgStr, h.channel, h.valid]
  rfl

theorem challenge_of_channel {buf : Mem} {len : Nat} (h : isChannelMsgStr buf len = true)
    (errMsg : Option Mem) (creds : Credentials) :
    let r := stunIsChallengeResponseStr buf len 0 errMsg 129 creds
    r.ret = false ∧ r.stores = ⟨creds, []⟩ := by
  have herr : (stunIsErrorResponseStr buf len (some 0) errMsg 129).ret = false := by
    rw [stunIsErrorResponseStr, if_pos h]
  simp only [stunIsChallengeResponseStr, herr, Bool.false_and, Bool.false_eq_true, if_false]
  exact ⟨trivial, trivial⟩

theorem trafficDispatch_channel (g : Globals) (c : ReadChoice) (rc : Nat) (now : BitVec 64)
    (t : Totals) {s : UrSession} {mi : MessageInfo} (hlen : s.inBuffer.len = 104)
    (h : HoldsChannelMessage s.inBuffer.buf s.elem.chnum mi) :
    let r := (trafficDispatch g c rc now t s).2
    r.1.counts = t.counts.read ∧ r.2.traffic = s.traffic.read mi := by
  have hchan : isChannelMsgStr s.inBuffer.buf s.inBuffer.len = true := by
    rw [hlen]
    exact isChannelMsg_of_holds h
  obtain ⟨hret, hstores⟩ := challenge_of_channel hchan (some c.errMsg) s.creds
  have herr : (stunIsErrorResponseStr s.inBuffer.buf s.inBuffer.len none none 0).ret = false := by
    rw [stunIsErrorResponseStr, if_pos hchan]
  have hmessage : stunIsChannelMessageStr s.inBuffer.buf s.inBuffer.len 0 false =
      (true, 104, s.elem.chnum) := by
    rw [hlen]
    apply (stunIsChannelMessageStr_true_iff _ _ _ _ _).mpr
    refine ⟨by decide, ?_, ?_, ?_⟩
    · rw [h.channel]
      exact h.valid
    · rw [h.lenField]
      exact Or.inl rfl
    · rw [h.lenField, h.channel]
      rfl
  have hdata : trafficDispatch g c rc now t s = trafficChannelData rc now t s := by
    unfold trafficDispatch
    simp only [stunIsIndicationStr, stunIsSuccessResponseStr, hchan, hstores, hret, herr,
      Bool.not_true, Bool.false_and, Bool.false_eq_true, if_false]
    have hfields : ¬¬InFields [] := not_not.mpr fun w hw => absurd hw List.not_mem_nil
    rw [if_neg hfields]
    rfl
  have hcount : trafficChannelData rc now t s =
      (.rc rc, s.countTraffic now 4 100 t) := by
    have hsame : { s with inBuffer := { s.inBuffer with len := 104 } } = s := by
      rw [← hlen]
    have hkept : discardsChannelData s.elem s.elem.chnum = false := by
      simp [discardsChannelData]
    have hsize : ¬(104 - 4 < clmessageLength ∨ clmessageLength + 3 < 104 - 4) := by decide
    unfold trafficChannelData
    simp only [hmessage, if_true, hsame, hkept, Bool.false_eq_true, if_false]
    rw [if_neg hsize]
  rw [hdata, hcount]
  have hcounted := countTraffic_eq now 4 100 t s
  rw [messageInfoAt_of_slice h.payload] at hcounted
  exact hcounted

/-! ## Data indications -/

theorem data_indication_type {m : StunBuffer} {tid : StunTid} {attrs : List Tlv.Record}
    (h : IsMessage m (stunMakeIndication stunMethodData) tid attrs) :
    stunIsIndicationStr m.buf m.len = true ∧ stunGetMethodStr m.buf m.len = stunMethodData := by
  have htype : get16 m.buf 0 = stunMakeIndication stunMethodData := h.header.type_eq
  have hlen : ¬ m.len < 2 := by
    have heq := h.len_eq
    omega
  have hchan : isChannelMsgStr m.buf m.len = false := by
    have hvalid : stunValidChannel (stunMakeIndication stunMethodData) = false := by decide
    rw [isChannelMsgStr, htype, hvalid, Bool.and_false]
  constructor
  · rw [stunIsIndicationStr, hchan, stunGetMsgTypeStr, if_neg hlen, htype]
    decide
  · rw [stunGetMethodStr, if_neg hlen, htype]
    decide

theorem trafficDispatch_indication (g : Globals) (c : ReadChoice) (rc : Nat) (now : BitVec 64)
    (t : Totals) {s : UrSession} {mi : MessageInfo} {tid : StunTid} {pre post : List Tlv.Record}
    (hpre : ∀ p ∈ pre, p.1 ≠ stunAttributeData)
    (h : IsMessage s.inBuffer (stunMakeIndication stunMethodData) tid
      (pre ++ (stunAttributeData, bufferToSend mi) :: post)) :
    let r := (trafficDispatch g c rc now t s).2
    r.1.counts = t.counts.read ∧ r.2.traffic = s.traffic.read mi := by
  obtain ⟨hind, hmethod⟩ := data_indication_type h
  obtain ⟨hfirst, _, hlen, hvalue⟩ := h.firstByType hpre
  have hsize : (get16 s.inBuffer.buf (20 + Tlv.size pre + 2)).toNat = clmessageLength := by
    rw [hlen, bufferToSend_length]
  have hattempt : (stunMethodData == stunMethodConnectionAttempt) = false := by decide
  have hcount : trafficDispatch g c rc now t s =
      (.rc rc, s.countTraffic now (20 + Tlv.size pre + 4) clmessageLength t) := by
    unfold trafficDispatch trafficIndication
    simp only [hind, if_true, hmethod, hattempt, Bool.false_and, Bool.false_eq_true, if_false,
      ne_eq, not_true_eq_false, hfirst, hsize]
  rw [hcount]
  have hcounted := countTraffic_eq now (20 + Tlv.size pre + 4) clmessageLength t s
  rw [messageInfoAt_of_slice hvalue] at hcounted
  exact hcounted

/-- The Send indication, whatever stands behind the message in it. -/
theorem fillOutBuffer_isMessage {g : Globals} (c : WriteChoice) (mi : MessageInfo) (s : UrSession)
    (hmode : g.doNotUseChannel = true) :
    ∃ rest, IsMessage (s.fillOutBuffer g c mi) (stunMakeIndication stunMethodSend) c.tid
      ((stunAttributeData, bufferToSend mi) :: rest) := by
  have hsize : (bufferToSend mi).length = 100 := rfl
  have hinit : IsMessage (stunInitIndicationStr stunMethodSend s.outBuffer.buf c.tid)
      (stunMakeIndication stunMethodSend) c.tid [] :=
    isMessage_initCommand (stunMakeIndication stunMethodSend) s.outBuffer.buf c.tid
  have hstart : (stunInitIndicationStr stunMethodSend s.outBuffer.buf c.tid).len = 20 := rfl
  have hbytes := attrBytes_ofList (bufferToSend mi)
  obtain ⟨m₁, h₁, e₁, hlen₁⟩ := hinit.add_ok stunAttributeData (some (ofList (bufferToSend mi)))
    (bufferToSend mi).length (by rw [hbytes]; unfold maxStunMessageSize; omega)
  rw [hbytes] at e₁ hlen₁
  have hpeer : ∃ m₂ rest, (stunAttrAddAddrStr addrMappings m₁ stunAttributeXorPeerAddress
      s.elem.pinfo.peerAddr).2 = m₂ ∧ m₂.len ≤ 200 ∧ IsMessage m₂
      (stunMakeIndication stunMethodSend) c.tid ((stunAttributeData, bufferToSend mi) :: rest) := by
    cases henc : stunAddrEncode s.elem.pinfo.peerAddr true stunMagicCookie c.tid with
    | none =>
      have hkey : stunAddrEncode (mapAddrFromPrivateToPublic addrMappings s.elem.pinfo.peerAddr)
          (isXored stunAttributeXorPeerAddress) stunMagicCookie (stunTidFromMessageStr m₁.buf) =
          none := by
        rw [e₁.header.tid_eq]
        exact henc
      refine ⟨m₁, [], ?_, by omega, e₁⟩
      simp only [stunAttrAddAddrStr, hkey]
    | some v =>
      obtain ⟨m₂, h₂, e₂, hlen₂⟩ := e₁.addPeer (by omega) henc
      exact ⟨m₂, _, by rw [h₂], by omega, e₂⟩
  obtain ⟨m₂, rest₂, h₂, hlen₂, e₂⟩ := hpeer
  have hfragment : ∃ m₃ rest, (if g.dontFragment then
      (stunAttrAddStr m₂ stunAttributeDontFragment none 0).2 else m₂) = m₃ ∧ m₃.len ≤ 300 ∧
      IsMessage m₃ (stunMakeIndication stunMethodSend) c.tid
        ((stunAttributeData, bufferToSend mi) :: rest) := by
    cases g.dontFragment with
    | false => exact ⟨m₂, rest₂, rfl, by omega, e₂⟩
    | true =>
      have hnone : (attrBytes none 0).length = 0 := rfl
      obtain ⟨m₃, h₃, e₃, hlen₃⟩ := e₂.add_ok stunAttributeDontFragment none 0
        (by unfold maxStunMessageSize; omega)
      exact ⟨m₃, _, by rw [h₃]; rfl, by omega, e₃⟩
  obtain ⟨m₃, rest₃, h₃, hlen₃, e₃⟩ := hfragment
  have hfill : s.fillOutBuffer g c mi = stunAttrAddFingerprintStr m₃ := by
    unfold UrSession.fillOutBuffer
    simp only [hmode, Bool.not_true, Bool.false_eq_true, if_false, stunAttrAddBytes, h₁, h₂, h₃]
  rw [hfill]
  exact ⟨_, e₃.fingerprinted (by unfold maxStunMessageSize; omega)⟩

/-! ## There -/

/-- What a message asks the relay to pass on: the data of ChannelData, or of a DATA attribute. -/
def applicationData (m : StunBuffer) : Option (List Byte) :=
  if isChannelMsgStr m.buf m.len then some (slice m.buf 4 (get16 m.buf 2).toNat)
  else firstValueStr m.buf m.len stunAttributeData

/-- How data comes to a client: on the channel `chn` when one is bound to where it is from, or in a
Data indication, for which no channel is needed. -/
inductive Delivery (chn : BitVec 16) (data : List Byte) : List Byte → Prop where
  | channel (hchn : stunValidChannel chn = true) :
      Delivery chn data (be16 chn ++ (be16 (BitVec.ofNat 16 data.length) ++ data))
  | indication {r : StunBuffer} {tid : StunTid} {pre post : List Tlv.Record}
      (hpre : ∀ p ∈ pre, p.1 ≠ stunAttributeData) (hlen : r.len < maxStunMessageSize)
      (h : IsMessage r (stunMakeIndication stunMethodData) tid
        (pre ++ (stunAttributeData, data) :: post)) : Delivery chn data (slice r.buf 0 r.len)

theorem clientWrite_outBuffer {g : Globals} (c : WriteChoice) (now : BitVec 64) (t : Totals)
    {s : UrSession} (hrelay : isTcpRelay g = false) (hready : s.elem.state = .ready) :
    (clientWrite g c now t s).2.2.outBuffer =
      s.fillOutBuffer g c ⟨BitVec.ofNat 32 s.wmsgnum, now⟩ := by
  have hlen := fillOutBuffer_len_pos g c ⟨BitVec.ofNat 32 s.wmsgnum, now⟩ s
  unfold clientWrite
  rw [if_neg (not_not.mpr hready)]
  simp only [hrelay, Bool.false_eq_true, if_false]
  rw [if_pos hlen]

theorem firstValue_of_indication {m : StunBuffer} {msgType : BitVec 16} {tid : StunTid}
    {mi : MessageInfo} {rest : List Tlv.Record}
    (h : IsMessage m msgType tid ((stunAttributeData, bufferToSend mi) :: rest)) :
    firstValueStr m.buf m.len stunAttributeData = some (bufferToSend mi) := by
  have hfront : IsMessage m msgType tid ([] ++ (stunAttributeData, bufferToSend mi) :: rest) := h
  obtain ⟨hfirst, hrecord⟩ := hfront.firstByType (by simp)
  apply (firstValueStr_eq_some_iff _ _ _ _).mpr
  refine ⟨_, hfirst, ?_, attrValue_of_recordAt hrecord⟩
  rw [hrecord.2.1]
  exact Nat.succ_ne_zero 99

/-- In either mode the relay is asked to pass on the message and nothing else. Without channels
the session has no channel number to speak of. -/
theorem fillOutBuffer_data {g : Globals} (c : WriteChoice) (mi : MessageInfo) (s : UrSession)
    (hchn : g.doNotUseChannel = false → stunValidChannel s.elem.chnum = true) :
    applicationData (s.fillOutBuffer g c mi) = some (bufferToSend mi) := by
  cases hmode : g.doNotUseChannel with
  | false =>
    obtain ⟨hsize, hholds⟩ := fillOutBuffer_holds c mi s hmode (hchn hmode)
    have hchannel := isChannelMsg_of_holds hholds
    rw [← hsize] at hchannel
    rw [applicationData, if_pos hchannel, hholds.lenField, hholds.payload]
  | true =>
    obtain ⟨rest, hmessage⟩ := fillOutBuffer_isMessage c mi s hmode
    have hvalid : stunValidChannel (stunMakeIndication stunMethodSend) = false := by decide
    have hchannel : isChannelMsgStr (s.fillOutBuffer g c mi).buf (s.fillOutBuffer g c mi).len =
        false := by
      rw [isChannelMsgStr, hmessage.header.type_eq, hvalid, Bool.and_false]
    rw [applicationData, hchannel, if_neg Bool.false_ne_true]
    exact firstValue_of_indication hmessage

/-! ## And back -/

/-- The first bytes of the input buffer behind a `recv` that takes the whole of a datagram. -/
theorem receive_slice (s : InputSession) {bytes : List Byte}
    (hlen : bytes.length < maxStunMessageSize) :
    (s.receive bytes).inBuffer.len = bytes.length ∧
      slice (s.receive bytes).inBuffer.buf 0 bytes.length = bytes := by
  have htake : bytes.take (maxStunMessageSize - 1) = bytes := List.take_of_length_le (by omega)
  simp only [InputSession.receive, recvInto, htake]
  exact ⟨trivial, slice_write_same _ _ _⟩

/-- The message in another buffer that agrees with the first in its bytes. -/
theorem IsMessage.of_agree {m m' : StunBuffer} {msgType : BitVec 16} {tid : StunTid}
    {attrs : List Tlv.Record} (h : IsMessage m msgType tid attrs) (hlen : m'.len = m.len)
    (hagree : AgreeBelow m.len m'.buf m.buf) : IsMessage m' msgType tid attrs := by
  have hsize := h.len_eq
  refine ⟨?_, ?_, hlen.trans hsize, ?_⟩
  · exact h.header.congr (hagree.get16 (by omega)) (hagree.slice (by omega))
  · rw [hagree.get16 (by omega)]
    exact h.lenField
  · apply Tlv.laidOut_congr _ h.laidOut
    intro i _ hi
    exact (hagree i (by omega)).symm

theorem agreeBelow_of_slice {buf buf' : Mem} {n : Nat} (h : slice buf 0 n = slice buf' 0 n) :
    AgreeBelow n buf buf' := by
  intro i hi
  exact (slice_eq_iff buf buf' 0 n).mp h i (Nat.zero_le i) (by omega)

/-- ChannelData, as it was delivered. -/
theorem holds_of_slice {buf : Mem} {chn : BitVec 16} {mi : MessageInfo}
    (hvalid : stunValidChannel chn = true)
    (h : slice buf 0 104 =
      be16 chn ++ (be16 (BitVec.ofNat 16 (bufferToSend mi).length) ++ bufferToSend mi)) :
    HoldsChannelMessage buf chn mi := by
  obtain ⟨hchannel, hrest⟩ := (slice_eq_append_iff buf 0 (be16 chn)
    (be16 (BitVec.ofNat 16 (bufferToSend mi).length) ++ bufferToSend mi)).mp h
  obtain ⟨hlength, hpayload⟩ := (slice_eq_append_iff buf 2 (be16 _) (bufferToSend mi)).mp hrest
  refine ⟨hvalid, get16_of_slice hchannel, ?_, hpayload⟩
  rw [get16_of_slice hlength]
  rfl

/-- A read of a datagram is the dispatch of what is in the buffer then. -/
theorem trafficRead_datagram {g : Globals} {d : ReadChoice} (now : BitVec 64) (t : Totals)
    {s : UrSession} {bytes : List Byte} (hready : s.elem.state = .ready)
    (hpos : 0 < bytes.length) (hlen : bytes.length < maxStunMessageSize)
    (hrecv : d.recv = .datagram bytes) :
    trafficRead g d now t s = trafficDispatch g d bytes.length now t
      { s with toInputSession := s.receive bytes } := by
  obtain ⟨hsize, _⟩ := receive_slice s.toInputSession hlen
  unfold trafficRead
  rw [if_neg (not_not.mpr hready)]
  simp only [hrecv, hsize]
  rw [if_neg (Nat.ne_of_gt hpos)]

theorem trafficRead_delivery {g : Globals} {d : ReadChoice} (now : BitVec 64) (t : Totals)
    {s : UrSession} {mi : MessageInfo} {bytes : List Byte} (hready : s.elem.state = .ready)
    (hdelivery : Delivery s.elem.chnum (bufferToSend mi) bytes)
    (hrecv : d.recv = .datagram bytes) :
    let r := (trafficRead g d now t s).2
    r.1.counts = t.counts.read ∧ r.2.traffic = s.traffic.read mi := by
  cases hdelivery with
  | channel hchn =>
    have hsize : (be16 s.elem.chnum ++
        (be16 (BitVec.ofNat 16 (bufferToSend mi).length) ++ bufferToSend mi)).length = 104 := rfl
    have hfits : 104 < maxStunMessageSize := by decide
    obtain ⟨hlen, hslice⟩ := receive_slice s.toInputSession (lt_of_eq_of_lt hsize hfits)
    rw [hsize] at hlen hslice
    rw [trafficRead_datagram now t hready (by omega) (by omega) hrecv]
    exact trafficDispatch_channel g d _ now t hlen (holds_of_slice hchn hslice)
  | @indication r tid pre post hpre hfits h =>
    have hsize : (slice r.buf 0 r.len).length = r.len := slice_length _ _ _
    have hpos := h.len_eq
    obtain ⟨hlen, hslice⟩ := receive_slice s.toInputSession (lt_of_eq_of_lt hsize hfits)
    rw [hsize] at hlen hslice
    rw [trafficRead_datagram now t hready (by omega) (by omega) hrecv]
    exact trafficDispatch_indication g d _ now t hpre (h.of_agree hlen (agreeBelow_of_slice hslice))

/-- In whichever mode a message is written, the relay is asked to pass on exactly its bytes; and
whichever way they are delivered, the session that reads them counts one message, with the number
and the time of its writing. -/
theorem relayed_counted {g : Globals} (c : WriteChoice) (now : BitVec 64) (t : Totals)
    {s : UrSession} (hrelay : isTcpRelay g = false) (hready : s.elem.state = .ready)
    (hchn : g.doNotUseChannel = false → stunValidChannel s.elem.chnum = true) :
    let mi : MessageInfo := ⟨BitVec.ofNat 32 s.wmsgnum, now⟩
    applicationData (clientWrite g c now t s).2.2.outBuffer = some (bufferToSend mi) ∧
      ∀ (s' : UrSession) (bytes : List Byte) (d : ReadChoice) (now' : BitVec 64) (t' : Totals),
        s'.elem.state = .ready → Delivery s'.elem.chnum (bufferToSend mi) bytes →
        d.recv = .datagram bytes →
        let r := (trafficRead g d now' t' s').2
        r.1.counts = t'.counts.read ∧ r.2.traffic = s'.traffic.read mi := by
  intro mi
  constructor
  · rw [clientWrite_outBuffer c now t hrelay hready]
    exact fillOutBuffer_data c mi s hchn
  · intro s' bytes d now' t' hready' hdelivery hrecv
    exact trafficRead_delivery now' t' hready' hdelivery hrecv

/-- A session on a channel with five messages to send. -/
def channelSession (chn : BitVec 16) : UrSession :=
  startSession ⟨⟨ConnInfo.init, .unknown, chn, none, true, true⟩, 5, 30000⟩

def sendsAll : WriteChoice := ⟨countingTid, .sent⟩

/-- A read in which these bytes arrive. -/
def arrives (bytes : List Byte) : ReadChoice :=
  ⟨.datagram bytes, Choice.idle, Choice.idle, Choice.idle, Choice.idle, fun _ => 0⟩

/-- A message as the relay delivers it on a channel. -/
def delivered (chn : BitVec 16) (mi : MessageInfo) : ReadChoice :=
  arrives (be16 chn ++ (be16 (BitVec.ofNat 16 (bufferToSend mi).length) ++ bufferToSend mi))

/-- The relay's indication with a message, which has no other attribute. -/
def dataIndication (mi : MessageInfo) : StunBuffer :=
  (stunAttrAddBytes (stunInitIndicationStr stunMethodData (fun _ => 0) countingTid)
    stunAttributeData (bufferToSend mi)).2

theorem dataIndication_isMessage (mi : MessageInfo) :
    (dataIndication mi).len < maxStunMessageSize ∧ IsMessage (dataIndication mi)
      (stunMakeIndication stunMethodData) countingTid [(stunAttributeData, bufferToSend mi)] := by
  have hinit : IsMessage (stunInitIndicationStr stunMethodData (fun _ => 0) countingTid)
      (stunMakeIndication stunMethodData) countingTid [] :=
    isMessage_initCommand (stunMakeIndication stunMethodData) (fun _ => 0) countingTid
  have hstart : (stunInitIndicationStr stunMethodData (fun _ => 0) countingTid).len = 20 := rfl
  have hsize : (bufferToSend mi).length = 100 := rfl
  have hbytes := attrBytes_ofList (bufferToSend mi)
  obtain ⟨m, hadd, hmessage, hlen⟩ := hinit.add_ok stunAttributeData
    (some (ofList (bufferToSend mi))) (bufferToSend mi).length
    (by rw [hbytes]; unfold maxStunMessageSize; omega)
  rw [hbytes] at hmessage hlen
  have hm : dataIndication mi = m := by rw [dataIndication, stunAttrAddBytes, hadd]
  rw [hm]
  exact ⟨by unfold maxStunMessageSize; omega, hmessage⟩

def withoutChannels : Globals := { Globals.initial constantSsl with doNotUseChannel := true }

/-- The first message of a client on channel 0x4001, read by the one it is paired with; and one of
two clients that use no channels. -/
theorem first_message_delivered :
    (let g := Globals.initial constantSsl
     let r := (trafficRead g (delivered 0x4002 ⟨0, 1000⟩) 1020 (Totals.start 2 10)
       (channelSession 0x4002)).2
     r.1.totRecvMessages = 1 ∧ r.2.journey.taken = [⟨0, 1000⟩]) ∧
    let g := withoutChannels
    let m := dataIndication ⟨0, 1000⟩
    let r := (trafficRead g (arrives (slice m.buf 0 m.len)) 1020 (Totals.start 2 10)
      (channelSession 0)).2
    applicationData (clientWrite g sendsAll 1000 (Totals.start 2 10)
        (channelSession 0)).2.2.outBuffer = some (bufferToSend ⟨0, 1000⟩) ∧
      r.2.journey.taken = [⟨0, 1000⟩] := by
  have hready : ∀ chn, (channelSession chn).elem.state = .ready := fun _ => rfl
  obtain ⟨_, hon⟩ := relayed_counted (g := Globals.initial constantSsl) sendsAll 1000
    (Totals.start 2 10) (by decide) (hready 0x4001) (fun _ => by decide)
  obtain ⟨hdata, hwithout⟩ := relayed_counted (g := withoutChannels) sendsAll 1000
    (Totals.start 2 10) (by decide) (hready 0) (fun h => nomatch h)
  obtain ⟨hlen, hmessage⟩ := dataIndication_isMessage ⟨0, 1000⟩
  have hnone : ∀ p ∈ ([] : List Tlv.Record), p.1 ≠ stunAttributeData := List.forall_mem_nil _
  obtain ⟨hcounts, htraffic⟩ := hon (channelSession 0x4002) _ (delivered 0x4002 ⟨0, 1000⟩) 1020
    (Totals.start 2 10) (hready 0x4002) (.channel (by decide)) rfl
  obtain ⟨_, hread⟩ := hwithout (channelSession 0) _
    (arrives (slice (dataIndication ⟨0, 1000⟩).buf 0 (dataIndication ⟨0, 1000⟩).len)) 1020
    (Totals.start 2 10) (hready 0) (.indication hnone hlen hmessage) rfl
  have hfirst : (⟨BitVec.ofNat 32 (channelSession 0).wmsgnum, 1000⟩ : MessageInfo) =
      ⟨0, 1000⟩ := rfl
  rw [hfirst] at hdata
  refine ⟨⟨congrArg Counts.received hcounts, congrArg (fun x => x.journey.taken) htraffic⟩,
    hdata, ?_⟩
  generalize (trafficRead withoutChannels _ _ _ _).2.2 = r at hread ⊢
  exact congrArg (fun x => x.journey.taken) hread

end TurnClient
