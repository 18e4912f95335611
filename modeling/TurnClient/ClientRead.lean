import TurnClient.ChallengeFields
import TurnClient.Datagrams
import TurnClient.P2pClient

/-!
# Asynchronous input

`client_input_handler` and `client_read` of `p2p_client.c` over plain UDP: the
session reads datagrams into one buffer and dispatches on the class bits of the
first two bytes. The challenge test of the fourth branch stores into the
session whatever message it is called on.

A run is the row of results of `recv`; the handler goes on reading after each
datagram, and every failure only ends one round of it. The transaction ids of
requests that are not answered yet are kept next to the session as a ghost.
-/

namespace TurnClient

open ByteMemory
set_option autoImplicit false

def stunMethodData : BitVec 16 := 0x0007
def stunMethodConnect : BitVec 16 := 0x000A
def stunMethodConnectionAttempt : BitVec 16 := 0x000C
def stunAttributeData : BitVec 16 := 0x0013
def stunAttributeConnectionId : BitVec 16 := 0x002A
def clmessageLength : Nat := 100

/-- A session with what its input handler works on. `processed` and
`outstanding` are ghosts: the datagrams taken in, and the transaction ids of
the requests that were sent and not answered. -/
structure InputSession where
  elem : Session
  inBuffer : StunBuffer
  recvmsgnum : BitVec 32
  rmsgnum : Nat
  loss : Nat
  processed : List StunBuffer
  outstanding : List StunTid

/-- What the outside decides in one read. -/
structure ReadChoice where
  recv : RecvOutcome
  check : Choice
  refresh₁ : Choice
  refresh₂ : Choice
  refresh₃ : Choice
  errMsg : Mem

/-- How a read ends; nothing is defined after a store outside of the session
fields or a load through NULL. -/
inductive ReadEnd where
  | rc (n : Int)
  | undef
deriving DecidableEq

def InputSession.creds (s : InputSession) : Credentials := s.elem.pinfo.creds

def InputSession.setCreds (s : InputSession) (creds : Credentials) : InputSession :=
  { s with elem := { s.elem with pinfo := { s.elem.pinfo with creds := creds } } }

def isTcpRelay (g : Globals) : Bool := g.relayTransport == 6

/-- The search for CONNECTION-ID loads the value without a test for NULL. -/
def connectionIdReadable (m : StunBuffer) : Bool :=
  match stunAttrGetFirstByTypeStr m.buf m.len stunAttributeConnectionId with
  | none => true
  | some sar => (stunAttrGetValue m.buf (some sar)).isSome

/-- `msgnum` of the `message_info` at an offset, in the byte order of the host. -/
def msgnumAt (buf : Mem) (off : Nat) : BitVec 32 :=
  buf (off + 3) ++ buf (off + 2) ++ buf (off + 1) ++ buf off

def InputSession.countMessage (s : InputSession) (off : Nat) : InputSession :=
  let msgnum := msgnumAt s.inBuffer.buf off
  { s with loss := if msgnum ≠ s.recvmsgnum + 1 then s.loss + 1 else s.loss
           recvmsgnum := msgnum
           rmsgnum := s.rmsgnum + 1 }

def readIndication (g : Globals) (rc : Nat) (s : InputSession) : ReadEnd × InputSession :=
  let m := s.inBuffer
  let method := stunGetMethodStr m.buf m.len
  if method == stunMethodConnectionAttempt && isTcpRelay g then
    if connectionIdReadable m then (.rc rc, s) else (.undef, s)
  else if method ≠ stunMethodData then (.rc rc, s)
  else
    match stunAttrGetFirstByTypeStr m.buf m.len stunAttributeData with
    | none => (.rc rc, s)
    | some sar =>
      if (get16 m.buf (sar + 2)).toNat ≠ clmessageLength then (.rc rc, s)
      else (.rc rc, s.countMessage (sar + 4))

def readSuccess (g : Globals) (c : ReadChoice) (rc : Nat) (s : InputSession) :
    ReadEnd × InputSession :=
  let r := if nonceSet s.elem.pinfo then checkIntegrity g c.check s.elem.pinfo s.inBuffer
    else (0, s.inBuffer)
  let s := { s with inBuffer := r.2 }
  if r.1 < 0 then (.rc (-1), s)
  else if isTcpRelay g && stunGetMethodStr s.inBuffer.buf s.inBuffer.len == stunMethodConnect then
    if connectionIdReadable s.inBuffer then (.rc rc, s) else (.undef, s)
  else (.rc rc, s)

/-- After a challenge: only a Refresh is made again. -/
def readChallenge (g : Globals) (c : ReadChoice) (rc : Nat) (s : InputSession) :
    ReadEnd × InputSession :=
  let method := stunGetMethodStr s.inBuffer.buf s.inBuffer.len
  if isTcpRelay g && method == stunMethodConnect then (.rc rc, s)
  else if method = stunMethodRefresh then
    let r := refreshChannel g c.refresh₁ c.refresh₂ c.refresh₃ s.elem method 600
    (.rc rc, { s with elem := { s.elem with pinfo := r.2 }
                      outstanding := s.outstanding ++
                        r.1.map fun q => stunTidFromMessageStr q.2.buf })
  else (.rc rc, s)

def readChannelData (rc : Nat) (s : InputSession) : ReadEnd × InputSession :=
  let r := stunIsChannelMessageStr s.inBuffer.buf s.inBuffer.len 0 false
  if r.1 then
    let s := { s with inBuffer := { s.inBuffer with len := r.2.1 } }
    if discardsChannelData s.elem r.2.2 then (.rc rc, s)
    else if 4 ≤ s.inBuffer.len then
      if s.inBuffer.len - 4 < clmessageLength ∨ clmessageLength + 3 < s.inBuffer.len - 4 then
        (.rc rc, s)
      else (.rc rc, s.countMessage 4)
    else (.rc rc, { s with rmsgnum := s.rmsgnum + 1 })
  else (.rc rc, s)

/-- The branches of `client_read` on a message of `rc` bytes. -/
def dispatch (g : Globals) (c : ReadChoice) (rc : Nat) (s : InputSession) :
    ReadEnd × InputSession :=
  let m := s.inBuffer
  if stunIsIndicationStr m.buf m.len then readIndication g rc s
  else if stunIsSuccessResponseStr m.buf m.len then readSuccess g c rc s
  else
    let r := stunIsChallengeResponseStr m.buf m.len 0 (some c.errMsg) 129 s.creds
    if ¬InFields r.stores.written then (.undef, s)
    else
      let s := s.setCreds r.stores.creds
      if r.ret then readChallenge g c rc s
      else if (stunIsErrorResponseStr m.buf m.len none none 0).ret then (.rc rc, s)
      else readChannelData rc s

/-- The message is a response, so the request with its transaction id is answered. -/
def isAnswer (m : StunBuffer) : Bool :=
  stunIsCommandMessageStr m.buf m.len && (stunIsSuccessResponseStr m.buf m.len ||
    (stunIsErrorResponseStr m.buf m.len none none 0).ret)

def InputSession.receive (s : InputSession) (bytes : List Byte) : InputSession :=
  let m : StunBuffer := ⟨recvInto s.inBuffer.buf (maxStunMessageSize - 1) bytes,
    (bytes.take (maxStunMessageSize - 1)).length⟩
  { s with inBuffer := m
           processed := s.processed ++ [m]
           outstanding := if isAnswer m then
             s.outstanding.filter (· ≠ stunTidFromMessageStr m.buf) else s.outstanding }

/-- One result of `recv`. An interrupted call is repeated at once. -/
def clientRead (g : Globals) (c : ReadChoice) (s : InputSession) : ReadEnd × InputSession :=
  if s.elem.state ≠ .ready then (.rc (-1), s)
  else
    match c.recv with
    | .failed _ => (.rc (-1), s)
    | .datagram bytes =>
      let s := s.receive bytes
      if s.inBuffer.len = 0 then (.rc 0, s) else dispatch g c s.inBuffer.len s

def inputStep (g : Globals) (c : ReadChoice) (_ : Unit) (s : InputSession) :
    Drive.Turn Unit InputSession Unit :=
  match clientRead g c s with
  | (.rc _, s) => .again () s
  | (.undef, s) => .stop () s

/-! ## Who may change the credentials -/

/-- From one state to the next the credentials change only for an error response
to a request that was not answered before. -/
def CredsGuarded (s s' : InputSession) : Prop :=
  s'.creds ≠ s.creds →
    ∃ m, s'.processed = s.processed ++ [m] ∧ stunIsCommandMessageStr m.buf m.len = true ∧
      (stunIsErrorResponseStr m.buf m.len none none 0).ret = true ∧
      stunTidFromMessageStr m.buf ∈ s.outstanding

/-- A challenge with a realm that is read belongs to a request that was not answered before. -/
def ChallengeSolicited (c : ReadChoice) (_ : Unit) (s : InputSession) : Prop :=
  ∀ bytes, s.elem.state = .ready → c.recv = .datagram bytes →
    let m := (s.receive bytes).inBuffer
    isChallengeCode m.buf m.len 0 = true →
    (firstValueStr m.buf m.len stunAttributeRealm).isSome = true →
    stunIsCommandMessageStr m.buf m.len = true ∧ stunTidFromMessageStr m.buf ∈ s.outstanding

/-- The parts of a read that leave the credentials and the log of datagrams alone. -/
def Undisturbed (s s' : InputSession) : Prop := s'.creds = s.creds ∧ s'.processed = s.processed

theorem readIndication_undisturbed (g : Globals) (rc : Nat) (s : InputSession) :
    Undisturbed s (readIndication g rc s).2 := by
  unfold readIndication
  simp only
  split
  · split <;> exact ⟨rfl, rfl⟩
  split
  · exact ⟨rfl, rfl⟩
  split
  · exact ⟨rfl, rfl⟩
  split <;> exact ⟨rfl, rfl⟩

theorem readSuccess_undisturbed (g : Globals) (c : ReadChoice) (rc : Nat) (s : InputSession) :
    Undisturbed s (readSuccess g c rc s).2 := by
  unfold readSuccess
  simp only
  generalize (if nonceSet s.elem.pinfo = true then checkIntegrity g c.check s.elem.pinfo s.inBuffer
    else (0, s.inBuffer)) = r
  split
  · exact ⟨rfl, rfl⟩
  split
  · split <;> exact ⟨rfl, rfl⟩
  · exact ⟨rfl, rfl⟩

theorem readChannelData_undisturbed (rc : Nat) (s : InputSession) :
    Undisturbed s (readChannelData rc s).2 := by
  unfold readChannelData
  simp only
  split
  · split
    · exact ⟨rfl, rfl⟩
    split
    · split <;> exact ⟨rfl, rfl⟩
    · exact ⟨rfl, rfl⟩
  · exact ⟨rfl, rfl⟩

theorem readChallenge_processed (g : Globals) (c : ReadChoice) (rc : Nat) (s : InputSession) :
    (readChallenge g c rc s).2.processed = s.processed := by
  unfold readChallenge
  simp only
  split
  · rfl
  split <;> rfl

/-- All a dispatch can do to the credentials. -/
theorem dispatch_creds (g : Globals) (c : ReadChoice) (rc : Nat) (s : InputSession) :
    (dispatch g c rc s).2.processed = s.processed ∧
      ((dispatch g c rc s).2.creds = s.creds ∨
        (isChallengeCode s.inBuffer.buf s.inBuffer.len 0 = true ∧
          (firstValueStr s.inBuffer.buf s.inBuffer.len stunAttributeRealm).isSome = true)) := by
  unfold dispatch
  simp only
  split
  · obtain ⟨hcreds, hlog⟩ := readIndication_undisturbed g rc s
    exact ⟨hlog, Or.inl hcreds⟩
  split
  · obtain ⟨hcreds, hlog⟩ := readSuccess_undisturbed g c rc s
    exact ⟨hlog, Or.inl hcreds⟩
  split
  · exact ⟨rfl, Or.inl rfl⟩
  rcases challenge_cases s.inBuffer.buf s.inBuffer.len 0 (some c.errMsg) 129 s.creds with
    ⟨hret, hcreds, _⟩ | ⟨hret, hcode, _, realm, hrealm, _⟩ | ⟨hret, hcode, realm, _, hrealm, _⟩
  · rw [hret, hcreds]
    simp only [Bool.false_eq_true, if_false]
    split
    · exact ⟨rfl, Or.inl rfl⟩
    · obtain ⟨hkept, hlog⟩ := readChannelData_undisturbed rc (s.setCreds s.creds)
      exact ⟨hlog, Or.inl hkept⟩
  · rw [hret]
    simp only [Bool.false_eq_true, if_false]
    refine ⟨?_, Or.inr ⟨hcode, by rw [hrealm]; rfl⟩⟩
    split
    · rfl
    · exact (readChannelData_undisturbed rc _).2
  · rw [hret]
    simp only [if_true]
    exact ⟨readChallenge_processed g c rc _, Or.inr ⟨hcode, by rw [hrealm]; rfl⟩⟩

theorem isError_of_isChallengeCode {buf : Mem} {len : Nat} {errCode : Int}
    (h : isChallengeCode buf len errCode = true) :
    (stunIsErrorResponseStr buf len none none 0).ret = true := by
  simp only [isChallengeCode, Bool.and_eq_true] at h
  have hret := h.1
  unfold stunIsErrorResponseStr at hret ⊢
  split at hret
  · cases hret
  · rename_i hchan
    rw [if_neg hchan]
    split at hret
    · rename_i herr
      rw [if_pos herr]
    · cases hret

theorem clientRead_guarded (g : Globals) (c : ReadChoice) (s : InputSession)
    (h : ChallengeSolicited c () s) : CredsGuarded s (clientRead g c s).2 := by
  intro hchanged
  unfold clientRead at hchanged ⊢
  split at hchanged
  · exact absurd rfl hchanged
  rename_i hready
  rw [if_neg hready]
  cases hrecv : c.recv with
  | failed errno =>
    simp only [hrecv] at hchanged
    exact absurd rfl hchanged
  | datagram bytes =>
    simp only [hrecv] at hchanged ⊢
    have hcreds : (s.receive bytes).creds = s.creds := rfl
    split at hchanged
    · exact absurd hcreds hchanged
    rename_i hlen
    rw [if_neg hlen]
    obtain ⟨hlog, hkept | ⟨hcode, hrealm⟩⟩ :=
      dispatch_creds g c (s.receive bytes).inBuffer.len (s.receive bytes)
    · exact absurd (hkept.trans hcreds) hchanged
    · obtain ⟨hcmd, htid⟩ := h bytes (not_not.mp hready) hrecv hcode hrealm
      exact ⟨(s.receive bytes).inBuffer, hlog, hcmd, isError_of_isChallengeCode hcode, htid⟩

theorem inputStep_state (g : Globals) (c : ReadChoice) (s : InputSession) :
    (inputStep g c () s).state = (clientRead g c s).2 := by
  unfold inputStep
  split <;> rename_i h <;> rw [h] <;> rfl

/-- In every run in which the challenges that are read are solicited, nothing
else changes the credentials. -/
theorem solicited_challenges_guard_creds (g : Globals) (cs : List ReadChoice) (s : InputSession)
    (h : Drive.Along ChallengeSolicited (inputStep g) cs () s) :
    (Drive.trace (inputStep g) cs () s).IsChain CredsGuarded := by
  refine Drive.trace_isChain ?_ cs h
  intro c _ s hs
  rw [inputStep_state]
  exact clientRead_guarded g c s hs

/-- A ready session that waits for the answers to these requests. -/
def waitingFor (outstanding : List StunTid) : InputSession where
  elem := ⟨ConnInfo.init, .ready, 0, none, true, true⟩
  inBuffer := ⟨fun _ => 0, 0⟩
  recvmsgnum := 0xFFFFFFFF
  rmsgnum := 0
  loss := 0
  processed := []
  outstanding := outstanding

/-- The 401 of `thirdPartyChallenge` arrives; its transaction id is all zero. -/
def challengeArrives : ReadChoice where
  recv := .datagram thirdPartyChallenge
  check := Choice.idle
  refresh₁ := Choice.idle
  refresh₂ := Choice.idle
  refresh₃ := Choice.idle
  errMsg := fun _ => 0

theorem awaited_challenge_guarded :
    (Drive.trace (inputStep (Globals.initial constantSsl)) [challengeArrives] ()
      (waitingFor [Choice.idle.tid])).IsChain CredsGuarded := by
  apply solicited_challenges_guard_creds
  refine ⟨?_, ?_⟩
  · intro bytes _ hrecv _ _ _
    cases hrecv
    decide +kernel
  · cases inputStep (Globals.initial constantSsl) challengeArrives () _ <;> trivial

/-- A session that waits for another request takes the challenge over all the same. -/
theorem stray_challenge_changes_creds :
    ¬ (Drive.trace (inputStep (Globals.initial constantSsl)) [challengeArrives] ()
      (waitingFor [countingTid])).IsChain CredsGuarded := by
  generalize hs : waitingFor [countingTid] = s
  rw [Drive.trace_singleton, List.isChain_pair, inputStep_state]
  intro h
  have hchanged : (clientRead (Globals.initial constantSsl) challengeArrives s).2.creds ≠ s.creds := by
    intro heq
    have hbyte : (clientRead (Globals.initial constantSsl) challengeArrives s).2.creds.realm 0 =
        s.creds.realm 0 := by rw [heq]
    rw [← hs] at hbyte
    exact absurd hbyte (by decide +kernel)
  obtain ⟨m, hlog, _, _, htid⟩ := h hchanged
  have htids : ((clientRead (Globals.initial constantSsl) challengeArrives s).2.processed.map
      fun m => stunTidFromMessageStr m.buf) = [Choice.idle.tid] := by
    rw [← hs]
    decide +kernel
  rw [hlog, ← hs] at htids
  have hm : stunTidFromMessageStr m.buf = Choice.idle.tid := by simpa [waitingFor] using htids
  rw [hm, ← hs] at htid
  exact absurd htid (by decide)

end TurnClient
