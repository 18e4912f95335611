import TurnClient.ChannelData
import TurnClient.ClientRead

/-!
# The traffic of the test client

`client_write`, `client_read`, `client_timer_handler` and `timer_handler` of
`uclient/uclient.c` over plain UDP. A session sends numbered messages of
`clmessage_length` bytes, one every twenty milliseconds, and counts those it
reads: its own, which a peer sends back, or those of the client it is paired
with. What all sessions share are the totals.

Requests of RFC 6062 over TCP relays and the options that close sockets at
random are left out. The last field of a session is a ghost: the messages it
has sent and those it has read.
-/

namespace TurnClient

open ByteMemory
set_option autoImplicit false

def stunMethodSend : BitVec 16 := 0x0006
def rtpPacketInterval : Nat := 20
def stoppingTime : Nat := 10

/-- `message_info`, with which every message begins. -/
structure MessageInfo where
  msgnum : BitVec 32
  mstime : BitVec 64
deriving DecidableEq

def MessageInfo.num (mi : MessageInfo) : Nat := mi.msgnum.toNat

/-- When a session starts, what it has sent and what it has read. -/
structure Journey where
  start : Nat
  sent : List MessageInfo
  taken : List MessageInfo

def Journey.send (j : Journey) (mi : MessageInfo) : Journey := { j with sent := j.sent ++ [mi] }

def Journey.take (j : Journey) (mi : MessageInfo) : Journey := { j with taken := j.taken ++ [mi] }

/-- The part of `app_ur_session` that the traffic is about, next to what its input needs. -/
structure UrSession extends InputSession where
  outBuffer : StunBuffer
  completed : Bool
  refreshTime : BitVec 32
  finishedTime : BitVec 32
  totMsgnum : Int
  wmsgnum : Nat
  recvtimems : BitVec 32
  toSendTimems : BitVec 32
  latency : BitVec 64
  jitter : BitVec 64
  journey : Journey

/-- The counters of the file, those for messages and bytes in the width they have there.
`total_loss`, of 64 bits, is a number. -/
structure Totals where
  currentClientsNumber : Int
  totMessages : BitVec 32
  totSendMessages : BitVec 32
  totSendBytes : BitVec 64
  totRecvMessages : BitVec 32
  totRecvBytes : BitVec 64
  totSendDropped : BitVec 64
  totalLoss : Nat
  totalJitter : BitVec 64
  totalLatency : BitVec 64
  minLatency : BitVec 64
  maxLatency : BitVec 64
  minJitter : BitVec 64
  maxJitter : BitVec 64

def timeMinus (t₁ t₂ : BitVec 64) : BitVec 64 := t₁ - t₂

/-- Both times are taken down to an `int`. -/
def turnTimeBefore (t₁ : BitVec 64) (t₂ : BitVec 32) : Bool :=
  decide ((t₁.setWidth 32).toInt - t₂.toInt < 0)

def later (now : BitVec 64) (ms : Nat) : BitVec 32 := (now + BitVec.ofNat 64 ms).setWidth 32

/-! ## Messages -/

def le32 (x : BitVec 32) : List Byte :=
  [x.extractLsb' 0 8, x.extractLsb' 8 8, x.extractLsb' 16 8, x.extractLsb' 24 8]

def le64 (x : BitVec 64) : List Byte := le32 (x.extractLsb' 0 32) ++ le32 (x.extractLsb' 32 32)

/-- `buffer_to_send`: sevens, with the number and the time where the structure has them. -/
def bufferToSend (mi : MessageInfo) : List Byte :=
  le32 mi.msgnum ++ List.replicate 4 7 ++ le64 mi.mstime ++ List.replicate (clmessageLength - 16) 7

def messageInfoAt (buf : Mem) (off : Nat) : MessageInfo :=
  ⟨msgnumAt buf off, msgnumAt buf (off + 12) ++ msgnumAt buf (off + 8)⟩

/-! ## Writing -/

/-- What `send_buffer` comes to: everything is sent, `send` gives up, or nothing is tried. -/
inductive SendEnd where
  | sent
  | dropped
  | failed
deriving DecidableEq

structure WriteChoice where
  tid : StunTid
  send : SendEnd

/-- The message in `out_buffer`. `mandatory_channel_padding` is never set. -/
def UrSession.fillOutBuffer (g : Globals) (c : WriteChoice) (mi : MessageInfo) (s : UrSession) :
    StunBuffer :=
  if !g.doNotUseChannel then
    let m := (stunInitChannelMessageStr s.elem.chnum s.outBuffer clmessageLength g.useTcp).2
    { m with buf := write m.buf 4 (bufferToSend mi) }
  else
    let m := stunInitIndicationStr stunMethodSend s.outBuffer.buf c.tid
    let m := (stunAttrAddBytes m stunAttributeData (bufferToSend mi)).2
    let m := (stunAttrAddAddrStr addrMappings m stunAttributeXorPeerAddress
      s.elem.pinfo.peerAddr).2
    let m := if g.dontFragment then (stunAttrAddStr m stunAttributeDontFragment none 0).2 else m
    stunAttrAddFingerprintStr m

/-- `send_buffer` counts what it drops. -/
def Totals.sendEnds (t : Totals) : SendEnd → Totals
  | .sent => { t with totSendMessages := t.totSendMessages + 1
                      totSendBytes := t.totSendBytes + BitVec.ofNat 64 clmessageLength }
  | .dropped => { t with totSendDropped := t.totSendDropped + 1 }
  | .failed => t

/-- No data connection of a TCP relay is ever there. -/
def clientWrite (g : Globals) (c : WriteChoice) (now : BitVec 64) (t : Totals) (s : UrSession) :
    Int × Totals × UrSession :=
  if s.elem.state ≠ .ready then (-1, t, s)
  else
    let mi : MessageInfo := ⟨BitVec.ofNat 32 s.wmsgnum, now⟩
    if isTcpRelay g then
      (-1, t, { s with outBuffer := ⟨write s.outBuffer.buf 0 (bufferToSend mi), clmessageLength⟩ })
    else
      let s := { s with outBuffer := s.fillOutBuffer g c mi }
      if 0 < s.outBuffer.len then
        let s := { s with wmsgnum := s.wmsgnum + 1
                          toSendTimems := s.toSendTimems + BitVec.ofNat 32 rtpPacketInterval
                          journey := if c.send = .sent then s.journey.send mi else s.journey }
        (if c.send = .sent then 0 else -1, t.sendEnds c.send, s)
      else (0, t, s)

/-! ## Reading -/

def Totals.latencySeen (t : Totals) (clatency : BitVec 64) : Totals :=
  { t with maxLatency := if t.maxLatency < clatency then clatency else t.maxLatency
           minLatency := if clatency < t.minLatency then clatency else t.minLatency }

def Totals.jitterSeen (t : Totals) (cjitter : BitVec 64) : Totals :=
  { t with maxJitter := if t.maxJitter < cjitter then cjitter else t.maxJitter
           minJitter := if cjitter < t.minJitter then cjitter else t.minJitter }

def jitterOf (now : BitVec 64) (recvtimems : BitVec 32) : BitVec 64 :=
  BitVec.ofNat 64 (((now - recvtimems.setWidth 64).setWidth 32).toInt - rtpPacketInterval).natAbs

/-- The block behind `miset`: what a message that is the next one adds to the delays. -/
def UrSession.noteMessage (now : BitVec 64) (mi : MessageInfo) (t : Totals) (s : UrSession) :
    Totals × UrSession :=
  if mi.msgnum ≠ s.recvmsgnum + 1 then (t, { s with loss := s.loss + 1, recvmsgnum := mi.msgnum })
  else
    let clatency := timeMinus now mi.mstime
    let t := t.latencySeen clatency
    let s := { s with latency := s.latency + clatency, recvmsgnum := mi.msgnum }
    if 0 < s.rmsgnum then
      let cjitter := jitterOf now s.recvtimems
      (t.jitterSeen cjitter, { s with jitter := s.jitter + cjitter })
    else (t, s)

/-- A message of `applen` bytes whose `message_info` is at `off` in the buffer. -/
def UrSession.countTraffic (now : BitVec 64) (off applen : Nat) (t : Totals) (s : UrSession) :
    Totals × UrSession :=
  let mi := messageInfoAt s.inBuffer.buf off
  let r := s.noteMessage now mi t
  ({ r.1 with totRecvMessages := r.1.totRecvMessages + 1
              totRecvBytes := r.1.totRecvBytes + BitVec.ofNat 64 applen },
   { r.2 with rmsgnum := r.2.rmsgnum + 1
              recvtimems := now.setWidth 32
              journey := r.2.journey.take mi })

def trafficIndication (g : Globals) (rc : Nat) (now : BitVec 64) (t : Totals) (s : UrSession) :
    ReadEnd × Totals × UrSession :=
  let m := s.inBuffer
  let method := stunGetMethodStr m.buf m.len
  if method == stunMethodConnectionAttempt && isTcpRelay g then
    if connectionIdReadable m then (.rc rc, t, s) else (.undef, t, s)
  else if method ≠ stunMethodData then (.rc rc, t, s)
  else
    match stunAttrGetFirstByTypeStr m.buf m.len stunAttributeData with
    | none => (.rc rc, t, s)
    | some sar =>
      let rlen := (get16 m.buf (sar + 2)).toNat
      if rlen ≠ clmessageLength then
        (.rc rc, { t with totRecvBytes := t.totRecvBytes + BitVec.ofNat 64 rlen }, s)
      else (.rc rc, s.countTraffic now (sar + 4) rlen t)

def trafficChannelData (rc : Nat) (now : BitVec 64) (t : Totals) (s : UrSession) :
    ReadEnd × Totals × UrSession :=
  let r := stunIsChannelMessageStr s.inBuffer.buf s.inBuffer.len 0 false
  if r.1 then
    let s := { s with inBuffer := { s.inBuffer with len := r.2.1 } }
    if discardsChannelData s.elem r.2.2 then (.rc rc, t, s)
    else if s.inBuffer.len - 4 < clmessageLength ∨ clmessageLength + 3 < s.inBuffer.len - 4 then
      (.rc rc, t, s)
    else (.rc rc, s.countTraffic now 4 (s.inBuffer.len - 4) t)
  else (.rc rc, t, s)

/-! ## Refreshing -/

structure RefreshChoice where
  refresh₁ : Choice
  refresh₂ : Choice
  refresh₃ : Choice

/-- How many requests `refresh_channel` has to make. -/
def refreshesDue (g : Globals) (elem : Session) (method : BitVec 16) (lt : BitVec 32) : Nat :=
  let peer := lt ≠ 0 && !addrAny elem.pinfo.peerAddr
  [decide (method = 0 || method = stunMethodRefresh),
    peer && !g.noPermissions && (method = 0 || method = stunMethodCreatePermission),
    peer && (method = 0 || method = stunMethodChannelBind) && stunValidChannel elem.chnum].count true

/-- The time is set when none of the requests failed. -/
def UrSession.refresh (g : Globals) (c : RefreshChoice) (now : BitVec 64) (method : BitVec 16)
    (lt : BitVec 32) (s : UrSession) : UrSession :=
  let r := refreshChannel g c.refresh₁ c.refresh₂ c.refresh₃ s.elem method lt
  { s with elem := { s.elem with pinfo := r.2 }
           outstanding := s.outstanding ++ r.1.map fun q => stunTidFromMessageStr q.2.buf
           refreshTime := if r.1.length = refreshesDue g s.elem method lt then later now 30000
             else s.refreshTime }

def trafficChallenge (g : Globals) (c : ReadChoice) (rc : Nat) (now : BitVec 64) (s : UrSession) :
    ReadEnd × UrSession :=
  let method := stunGetMethodStr s.inBuffer.buf s.inBuffer.len
  if isTcpRelay g && method == stunMethodConnect then (.rc rc, s)
  else if method = stunMethodRefresh then
    (.rc rc, s.refresh g ⟨c.refresh₁, c.refresh₂, c.refresh₃⟩ now method 600)
  else (.rc rc, s)

/-! ## `client_read` -/

def trafficDispatch (g : Globals) (c : ReadChoice) (rc : Nat) (now : BitVec 64) (t : Totals)
    (s : UrSession) : ReadEnd × Totals × UrSession :=
  let m := s.inBuffer
  if stunIsIndicationStr m.buf m.len then trafficIndication g rc now t s
  else if stunIsSuccessResponseStr m.buf m.len then
    let r := readSuccess g c rc s.toInputSession
    (r.1, t, { s with toInputSession := r.2 })
  else
    let r := stunIsChallengeResponseStr m.buf m.len 0 (some c.errMsg) 129 s.creds
    if ¬InFields r.stores.written then (.undef, t, s)
    else
      let s := { s with toInputSession := s.setCreds r.stores.creds }
      if r.ret then
        let r := trafficChallenge g c rc now s
        (r.1, t, r.2)
      else if (stunIsErrorResponseStr m.buf m.len none none 0).ret then (.rc rc, t, s)
      else trafficChannelData rc now t s

def trafficRead (g : Globals) (c : ReadChoice) (now : BitVec 64) (t : Totals) (s : UrSession) :
    ReadEnd × Totals × UrSession :=
  if s.elem.state ≠ .ready then (.rc (-1), t, s)
  else
    match c.recv with
    | .failed _ => (.rc (-1), t, s)
    | .datagram bytes =>
      let s := { s with toInputSession := s.receive bytes }
      if s.inBuffer.len = 0 then (.rc 0, t, s) else trafficDispatch g c s.inBuffer.len now t s

/-! ## The timer -/

structure TickChoice where
  refresh : RefreshChoice
  write : Nat → WriteChoice
  farewell : RefreshChoice

/-- `client_shutdown`: the session gives up its socket and its event. -/
def clientShutdown (t : Totals) (s : UrSession) : Totals × UrSession :=
  let pinfo := { s.elem.pinfo with fd := -1 }
  ({ t with currentClientsNumber := t.currentClientsNumber - 1 },
   { s with elem := { s.elem with state := .done, inputEv := none, pinfo := pinfo } })

/-- The counters of the session go to the totals. -/
def UrSession.complete (t : Totals) (s : UrSession) : Totals × UrSession :=
  ({ t with totalLoss := t.totalLoss + s.loss
            totalLatency := t.totalLatency + s.latency
            totalJitter := t.totalJitter + s.jitter },
   { s with loss := 0, latency := 0, jitter := 0, completed := true })

/-- What is done when nothing is left to send or to wait for: a session that does not hang on says
farewell. -/
def finishTraffic (g : Globals) (hangOn : Bool) (c : TickChoice) (now : BitVec 64) (t : Totals)
    (s : UrSession) : Totals × UrSession :=
  let r := s.complete t
  if !hangOn then clientShutdown r.1 (r.2.refresh g c.farewell now 0 0) else r

/-- The loop of `client_timer_handler`, for at most so many turns. -/
def sendDue (g : Globals) (hangOn : Bool) (c : TickChoice) (now : BitVec 64) :
    Nat → Totals → UrSession → Totals × UrSession
  | 0, t, s => (t, s)
  | n + 1, t, s =>
    if turnTimeBefore now s.toSendTimems then (t, s)
    else if s.totMsgnum ≤ s.wmsgnum then
      if !turnTimeBefore now s.finishedTime || decide (t.totMessages ≤ t.totRecvMessages) then
        finishTraffic g hangOn c now t s
      else sendDue g hangOn c now n t s
    else
      let r := (clientWrite g (c.write n) now t s).2
      sendDue g hangOn c now n r.1 { r.2 with finishedTime := later now (stoppingTime * 1000) }

def clientTimerHandler (g : Globals) (hangOn : Bool) (c : TickChoice) (now : BitVec 64)
    (t : Totals) (s : UrSession) : Totals × UrSession :=
  let s := if !turnTimeBefore now s.refreshTime then s.refresh g c.refresh now 0 600 else s
  if hangOn && s.completed then (t, s) else sendDue g hangOn c now 50 t s

/-- The loop over `elems`; the slot of a session that is done is NULL. -/
def timerHandler (g : Globals) (hangOn : Bool) (now : BitVec 64) :
    (Nat → TickChoice) → Totals → List UrSession → Totals × List UrSession
  | _, t, [] => (t, [])
  | c, t, s :: elems =>
    let r := if s.elem.state = .done then (t, s) else clientTimerHandler g hangOn (c 0) now t s
    let rest := timerHandler g hangOn now (fun i => c (i + 1)) r.1 elems
    (rest.1, r.2 :: rest.2)

/-! ## The start -/

structure ClientStart where
  elem : Session
  messagenumber : Int
  refreshTime : BitVec 32

/-- A session as `start_client` leaves it. -/
def startSession (a : ClientStart) : UrSession where
  elem := { a.elem with state := .ready }
  inBuffer := ⟨fun _ => 0, 0⟩
  recvmsgnum := BitVec.ofInt 32 (-1)
  rmsgnum := 0
  loss := 0
  processed := []
  outstanding := []
  outBuffer := ⟨fun _ => 0, 0⟩
  completed := false
  refreshTime := a.refreshTime
  finishedTime := 0
  totMsgnum := a.messagenumber
  wmsgnum := 0
  recvtimems := 0
  toSendTimems := 0
  latency := 0
  jitter := 0
  journey := ⟨0, [], []⟩

/-- `resetValue`, and the two numbers that are set before the timer begins. -/
def Totals.start (clients : Nat) (totMessages : BitVec 32) : Totals where
  currentClientsNumber := clients
  totMessages := totMessages
  totSendMessages := 0
  totSendBytes := 0
  totRecvMessages := 0
  totRecvBytes := 0
  totSendDropped := 0
  totalLoss := 0
  totalJitter := 0
  totalLatency := 0
  minLatency := 0xFFFFFFFF
  maxLatency := 0
  minJitter := 0xFFFFFFFF
  maxJitter := 0

/-! ## The counting part

What the traffic does to a session is a matter of a few of its counters; the credentials, the
buffers and the delays do not come into it. -/

/-- The counters of a session. -/
structure Traffic where
  state : UrState
  totMsgnum : Int
  wmsgnum : Nat
  toSendTimems : BitVec 32
  finishedTime : BitVec 32
  completed : Bool
  recvmsgnum : BitVec 32
  loss : Nat
  journey : Journey

/-- The totals that count sessions and messages. -/
structure Counts where
  clients : Int
  messages : BitVec 32
  sent : BitVec 32
  received : BitVec 32
  loss : Nat

def UrSession.traffic (s : UrSession) : Traffic where
  state := s.elem.state
  totMsgnum := s.totMsgnum
  wmsgnum := s.wmsgnum
  toSendTimems := s.toSendTimems
  finishedTime := s.finishedTime
  completed := s.completed
  recvmsgnum := s.recvmsgnum
  loss := s.loss
  journey := s.journey

def Totals.counts (t : Totals) : Counts where
  clients := t.currentClientsNumber
  messages := t.totMessages
  sent := t.totSendMessages
  received := t.totRecvMessages
  loss := t.totalLoss

namespace Traffic

/-- One more message is written, sent or not. -/
def write (now : BitVec 64) (sent : Bool) (x : Traffic) : Traffic :=
  { x with wmsgnum := x.wmsgnum + 1
           toSendTimems := x.toSendTimems + BitVec.ofNat 32 rtpPacketInterval
           finishedTime := later now (stoppingTime * 1000)
           journey := if sent then x.journey.send ⟨BitVec.ofNat 32 x.wmsgnum, now⟩ else x.journey }

/-- A message is read and counted. -/
def read (mi : MessageInfo) (x : Traffic) : Traffic :=
  { x with loss := if mi.msgnum = x.recvmsgnum + 1 then x.loss else x.loss + 1
           recvmsgnum := mi.msgnum
           journey := x.journey.take mi }

def complete (x : Traffic) : Traffic := { x with loss := 0, completed := true }

def shutdown (x : Traffic) : Traffic := { x with state := .done }

end Traffic

namespace Counts

def write (sent : Bool) (k : Counts) : Counts := if sent then { k with sent := k.sent + 1 } else k

def read (k : Counts) : Counts := { k with received := k.received + 1 }

def complete (x : Traffic) (k : Counts) : Counts := { k with loss := k.loss + x.loss }

def shutdown (k : Counts) : Counts := { k with clients := k.clients - 1 }

end Counts

/-! ## What a write does -/

theorem stunAttrAddStr_len_pos {m : StunBuffer} (attr : BitVec 16) (avalue : Option Mem)
    (alen : Int) (h : 0 < m.len) : 0 < (stunAttrAddStr m attr avalue alen).2.len := by
  have hclen : -1 ≤ stunGetCommandMessageLenStr m.buf m.len := by
    rcases stunGetCommandMessageLenStr_cases m.buf m.len with hl | ⟨hl, _⟩ <;> omega
  unfold stunAttrAddStr
  extract_lets alen₁ alen₂ value clen newlen₁ newlenrem4 newlen₂ buf₁ buf₂ buf₃ buf₄
  have hlen : 0 ≤ alen₂ := by
    unfold alen₂ alen₁
    split
    · omega
    · split <;> omega
  have hnew : 0 < newlen₂ := by
    unfold newlen₂ newlenrem4 newlen₁
    split <;> omega
  split
  · exact h
  split
  · exact h
  · exact Int.pos_iff_toNat_pos.mp hnew

theorem fillOutBuffer_len_pos (g : Globals) (c : WriteChoice) (mi : MessageInfo) (s : UrSession) :
    0 < (s.fillOutBuffer g c mi).len := by
  unfold UrSession.fillOutBuffer
  split
  · have hok := stunInitChannelMessageStr_ok_iff s.elem.chnum s.outBuffer
      ⟨put16 (put16 s.outBuffer.buf 0 s.elem.chnum) 2 (BitVec.ofInt 16 clmessageLength),
        4 + paddedSize g.useTcp (clmessageLength : Int).toNat⟩ clmessageLength g.useTcp
    rw [hok.mpr ⟨by decide, by decide, rfl⟩]
    simp only
    omega
  · simp only
    have hinit : 0 < (stunInitIndicationStr stunMethodSend s.outBuffer.buf c.tid).len :=
      Nat.zero_lt_succ 19
    have hdata := stunAttrAddStr_len_pos stunAttributeData (some (ofList (bufferToSend mi)))
      (bufferToSend mi).length hinit
    apply stunAttrAddStr_len_pos
    have hpeer : 0 < (stunAttrAddAddrStr addrMappings (stunAttrAddBytes
        (stunInitIndicationStr stunMethodSend s.outBuffer.buf c.tid) stunAttributeData
        (bufferToSend mi)).2 stunAttributeXorPeerAddress s.elem.pinfo.peerAddr).2.len := by
      unfold stunAttrAddAddrStr
      simp only
      split
      · exact hdata
      · exact stunAttrAddStr_len_pos _ _ _ hdata
    split
    · exact stunAttrAddStr_len_pos _ _ _ hpeer
    · exact hpeer

theorem sendEnds_counts (t : Totals) (e : SendEnd) :
    (t.sendEnds e).counts = t.counts.write (decide (e = .sent)) := by
  cases e <;> rfl

/-- Sent or not, a message that is due is numbered and gone. -/
theorem clientWrite_traffic {g : Globals} (c : WriteChoice) (now : BitVec 64) (t : Totals)
    {s : UrSession} (hrelay : isTcpRelay g = false) (hready : s.elem.state = .ready) :
    let r := (clientWrite g c now t s).2
    r.1.counts = t.counts.write (decide (c.send = .sent)) ∧
      { r.2 with finishedTime := later now (stoppingTime * 1000) }.traffic =
        s.traffic.write now (decide (c.send = .sent)) := by
  have hlen := fillOutBuffer_len_pos g c ⟨BitVec.ofNat 32 s.wmsgnum, now⟩ s
  unfold clientWrite
  rw [if_neg (not_not.mpr hready)]
  simp only [hrelay, Bool.false_eq_true, if_false]
  rw [if_pos hlen]
  refine ⟨sendEnds_counts t c.send, ?_⟩
  cases c.send <;> rfl

/-! ## What a read does -/

theorem readSuccess_counters (g : Globals) (c : ReadChoice) (rc : Nat) (s : InputSession) :
    let s' := (readSuccess g c rc s).2
    s'.elem = s.elem ∧ s'.recvmsgnum = s.recvmsgnum ∧ s'.loss = s.loss := by
  unfold readSuccess
  simp only
  generalize (if nonceSet s.elem.pinfo = true then checkIntegrity g c.check s.elem.pinfo s.inBuffer
    else (0, s.inBuffer)) = r
  split
  · exact ⟨rfl, rfl, rfl⟩
  split
  · split <;> exact ⟨rfl, rfl, rfl⟩
  · exact ⟨rfl, rfl, rfl⟩

theorem refresh_traffic (g : Globals) (c : RefreshChoice) (now : BitVec 64) (method : BitVec 16)
    (lt : BitVec 32) (s : UrSession) : (s.refresh g c now method lt).traffic = s.traffic := rfl

theorem trafficChallenge_traffic (g : Globals) (c : ReadChoice) (rc : Nat) (now : BitVec 64)
    (s : UrSession) : (trafficChallenge g c rc now s).2.traffic = s.traffic := by
  unfold trafficChallenge
  simp only
  split
  · rfl
  split
  · exact refresh_traffic _ _ _ _ _ _
  · rfl

theorem noteMessage_eq (now : BitVec 64) (mi : MessageInfo) (t : Totals) (s : UrSession) :
    let r := s.noteMessage now mi t
    r.1.counts = t.counts ∧ r.2.traffic = { s.traffic with
      loss := if mi.msgnum = s.recvmsgnum + 1 then s.loss else s.loss + 1
      recvmsgnum := mi.msgnum } := by
  unfold UrSession.noteMessage
  by_cases hnext : mi.msgnum = s.recvmsgnum + 1
  · rw [if_neg (not_not.mpr hnext), if_pos hnext]
    simp only
    split <;> exact ⟨rfl, rfl⟩
  · rw [if_pos hnext, if_neg hnext]
    exact ⟨rfl, rfl⟩

/-- What a message that is counted does, wherever it was in the buffer. -/
theorem countTraffic_eq (now : BitVec 64) (off applen : Nat) (t : Totals) (s : UrSession) :
    let r := s.countTraffic now off applen t
    r.1.counts = t.counts.read ∧
      r.2.traffic = s.traffic.read (messageInfoAt s.inBuffer.buf off) := by
  intro r
  generalize hmi : messageInfoAt s.inBuffer.buf off = mi
  obtain ⟨hcounts, htraffic⟩ := noteMessage_eq now mi t s
  generalize hnote : s.noteMessage now mi t = note at hcounts htraffic
  have hcount : r.1.counts = note.1.counts.read ∧ r.2.traffic =
      { note.2.traffic with journey := note.2.traffic.journey.take mi } := by
    rw [← hnote, ← hmi]
    exact ⟨rfl, rfl⟩
  rw [hcount.1, hcount.2, hcounts, htraffic]
  exact ⟨rfl, rfl⟩

/-- A call counts nothing or one message. -/
def CountsOne (t t' : Totals) (s s' : UrSession) : Prop :=
  (t'.counts = t.counts ∧ s'.traffic = s.traffic) ∨
    ∃ mi, t'.counts = t.counts.read ∧ s'.traffic = s.traffic.read mi

theorem trafficIndication_countsOne (g : Globals) (rc : Nat) (now : BitVec 64) (t : Totals)
    (s : UrSession) :
    let r := (trafficIndication g rc now t s).2
    CountsOne t r.1 s r.2 := by
  unfold trafficIndication
  simp only
  split
  · split <;> exact Or.inl ⟨rfl, rfl⟩
  split
  · exact Or.inl ⟨rfl, rfl⟩
  split
  · exact Or.inl ⟨rfl, rfl⟩
  split
  · exact Or.inl ⟨rfl, rfl⟩
  · exact Or.inr ⟨_, countTraffic_eq now _ _ t s⟩

theorem trafficChannelData_countsOne (rc : Nat) (now : BitVec 64) (t : Totals) (s : UrSession) :
    let r := (trafficChannelData rc now t s).2
    CountsOne t r.1 s r.2 := by
  unfold trafficChannelData
  simp only
  split
  · split
    · exact Or.inl ⟨rfl, rfl⟩
    split
    · exact Or.inl ⟨rfl, rfl⟩
    · exact Or.inr ⟨_, countTraffic_eq now _ _ t _⟩
  · exact Or.inl ⟨rfl, rfl⟩

theorem trafficDispatch_countsOne (g : Globals) (c : ReadChoice) (rc : Nat) (now : BitVec 64)
    (t : Totals) (s : UrSession) :
    let r := (trafficDispatch g c rc now t s).2
    CountsOne t r.1 s r.2 := by
  unfold trafficDispatch
  simp only
  split
  · exact trafficIndication_countsOne g rc now t s
  split
  · obtain ⟨helem, hnum, hloss⟩ := readSuccess_counters g c rc s.toInputSession
    refine Or.inl ⟨rfl, ?_⟩
    simp only [UrSession.traffic, helem, hnum, hloss]
  split
  · exact Or.inl ⟨rfl, rfl⟩
  split
  · refine Or.inl ⟨rfl, ?_⟩
    rw [trafficChallenge_traffic]
    rfl
  split
  · exact Or.inl ⟨rfl, rfl⟩
  · exact trafficChannelData_countsOne rc now t _

/-- Whatever arrives, a read counts at most one message, and only for a session that is ready. -/
theorem trafficRead_countsOne (g : Globals) (c : ReadChoice) (now : BitVec 64) (t : Totals)
    (s : UrSession) :
    let r := (trafficRead g c now t s).2
    CountsOne t r.1 s r.2 := by
  unfold trafficRead
  split
  · exact Or.inl ⟨rfl, rfl⟩
  split
  · exact Or.inl ⟨rfl, rfl⟩
  · simp only
    split
    · exact Or.inl ⟨rfl, rfl⟩
    · exact trafficDispatch_countsOne g c _ now t _

/-! ## What the timer does -/

section Timer
variable {g : Globals} {hangOn : Bool} {now : BitVec 64} {P : Counts → Traffic → Prop}

/-- Nothing is left to send, and either the last message has had its time or all have been read. -/
def Traffic.Over (now : BitVec 64) (k : Counts) (x : Traffic) : Prop :=
  x.totMsgnum ≤ x.wmsgnum ∧ turnTimeBefore now x.toSendTimems = false ∧
    (turnTimeBefore now x.finishedTime = false ∨ k.messages ≤ k.received)

/-- A message is due. -/
def Traffic.Due (now : BitVec 64) (x : Traffic) : Prop :=
  (x.wmsgnum : Int) < x.totMsgnum ∧ turnTimeBefore now x.toSendTimems = false

/-- What the steps of the timer may rely on and have to keep. -/
structure TimerKeeps (hangOn : Bool) (now : BitVec 64) (P : Counts → Traffic → Prop) : Prop where
  write : ∀ k x sent, P k x → x.state = .ready → x.Due now → P (k.write sent) (x.write now sent)
  complete : ∀ k x, P k x → x.state = .ready → x.Over now k → P (k.complete x) x.complete
  shutdown : ∀ k x, P k x → x.state = .ready → x.completed = true → hangOn = false →
    P k.shutdown x.shutdown

theorem finishTraffic_keeps (hkeeps : TimerKeeps hangOn now P) (c : TickChoice) {t : Totals}
    {s : UrSession} (h : P t.counts s.traffic) (hready : s.elem.state = .ready)
    (hover : s.traffic.Over now t.counts) :
    let r := finishTraffic g hangOn c now t s
    P r.1.counts r.2.traffic := by
  have hcomplete := hkeeps.complete _ _ h hready hover
  unfold finishTraffic
  cases hangOn with
  | true => exact hcomplete
  | false => exact hkeeps.shutdown _ _ hcomplete hready rfl rfl

theorem sendDue_keeps (hrelay : isTcpRelay g = false) (hkeeps : TimerKeeps hangOn now P)
    (c : TickChoice) (n : Nat) {t : Totals} {s : UrSession} (h : P t.counts s.traffic)
    (hready : s.elem.state = .ready) :
    let r := sendDue g hangOn c now n t s
    P r.1.counts r.2.traffic := by
  induction n generalizing t s with
  | zero => exact h
  | succ n ih =>
    rw [sendDue]
    split
    · exact h
    rename_i hdue
    have hbefore : turnTimeBefore now s.toSendTimems = false := Bool.eq_false_iff.mpr hdue
    split
    · rename_i htot
      split
      · rename_i hend
        apply finishTraffic_keeps hkeeps c h hready
        have hor : turnTimeBefore now s.finishedTime = false ∨
            t.totMessages ≤ t.totRecvMessages := by
          simpa using hend
        exact ⟨htot, hbefore, hor⟩
      · exact ih h hready
    · rename_i htot
      obtain ⟨hcounts, htraffic⟩ := clientWrite_traffic (c.write n) now t hrelay hready
      have hstate := congrArg Traffic.state htraffic
      apply ih
      · rw [hcounts, htraffic]
        exact hkeeps.write _ _ _ h hready ⟨lt_of_not_ge htot, hbefore⟩
      · exact hstate.trans hready

/-- A turn of the timer may refresh the session first, which the counters do not see. -/
theorem clientTimerHandler_eq (c : TickChoice) (t : Totals) (s : UrSession) :
    ∃ s' : UrSession, s'.traffic = s.traffic ∧ clientTimerHandler g hangOn c now t s =
      if hangOn && s'.completed then (t, s') else sendDue g hangOn c now 50 t s' := by
  refine ⟨if !turnTimeBefore now s.refreshTime then s.refresh g c.refresh now 0 600 else s, ?_, rfl⟩
  split
  · exact refresh_traffic _ _ _ _ _ _
  · rfl

theorem clientTimerHandler_keeps (hrelay : isTcpRelay g = false) (hkeeps : TimerKeeps hangOn now P)
    (c : TickChoice) {t : Totals} {s : UrSession} (h : P t.counts s.traffic)
    (hready : s.elem.state = .ready) :
    let r := clientTimerHandler g hangOn c now t s
    P r.1.counts r.2.traffic := by
  obtain ⟨s', hsame, heq⟩ := clientTimerHandler_eq (g := g) c t s
  rw [heq]
  rw [← hsame] at h
  split
  · exact h
  · exact sendDue_keeps hrelay hkeeps c 50 h ((congrArg Traffic.state hsame).trans hready)

end Timer

end TurnClient
