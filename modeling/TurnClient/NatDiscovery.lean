import TurnClient.BindingMessages
import TurnClient.RunStun
import TurnClient.Translation
import Mathlib.Data.List.Find

/-!
# NAT behavior discovery

The two discoveries of `natdiscovery.c` that come to a decision. Both send
Binding requests from one local port, one test after the other, and compare what
comes back. A test that is not answered by a Binding success response leaves the
addresses as the test before left them. Of what the program prints only the
decisions are kept.
-/

namespace TurnClient

open ByteMemory Translation
set_option autoImplicit false

namespace NatDiscovery

/-- The variables `main` hands from test to test. -/
structure Vars where
  localAddr : IoaAddr
  remoteAddr : IoaAddr
  reflexiveAddr : IoaAddr
  otherAddr : IoaAddr
  localPort : Int
  rfc5780 : Bool
deriving DecidableEq

def Vars.toward (v : Vars) (addr : IoaAddr) : Vars := { v with remoteAddr := addr }

@[simp] theorem toward_remoteAddr (v : Vars) (addr : IoaAddr) :
    (v.toward addr).remoteAddr = addr := rfl

@[simp] theorem toward_reflexiveAddr (v : Vars) (addr : IoaAddr) :
    (v.toward addr).reflexiveAddr = v.reflexiveAddr := rfl

/-- What one test gets from outside. `buf` is the uninitialised message buffer. -/
structure ProbeEnv where
  socketFd : Int
  bindRet : Int
  buf : Mem
  tid : StunTid
  sends : List SendOutcome
  sockName : Option IoaAddr
  recvs : List RecvOutcome

/-- The command line, as far as the two discoveries use it. -/
structure Options where
  localAddrString : List Byte
  remoteParam : List Byte
  remotePort : Int
  localPort : Int
  padding : Bool

inductive Decision where
  | noNat
  | mapping (d : Dependence)
  | filtering (d : Dependence)
deriving DecidableEq

/-! ## One test -/

/-- The address the socket of a test is bound to, unless it is `any`. -/
def boundAddr (v : Vars) : IoaAddr :=
  if 0 ≤ v.localPort then addrSetPort v.localAddr v.localPort else v.localAddr

def initSocket (v : Vars) (env : ProbeEnv) : Except StunEnd Vars :=
  if env.socketFd < 0 then .error .exited
  else
    let v := { v with localAddr := boundAddr v }
    if !addrAny v.localAddr && addrBind env.socketFd v.localAddr env.bindRet < 0 then .error .exited
    else .ok v

/-- None of the results of the three appends ends the call. -/
def request (env : ProbeEnv) (responsePort : Int) (changeIp changePort padding : Bool) :
    StunBuffer :=
  let m := stunInitRequestStr stunMethodBinding env.buf env.tid
  let m := if 0 ≤ responsePort then
    (stunAttrAddResponsePortStr m (BitVec.ofInt 16 responsePort)).2 else m
  let m := if changeIp || changePort then
    (stunAttrAddChangeRequestStr m changeIp changePort).2 else m
  if padding then (stunAttrAddPaddingStr m 1500).2 else m

/-- A `sendto` that fails ends the process. -/
def stunclientSend (v : Vars) (env : ProbeEnv) (responsePort : Int)
    (changeIp changePort padding : Bool) : Except StunEnd (StunBuffer × Vars) :=
  let m := request env responsePort changeIp changePort padding
  match sendLoop env.sends with
  | none => .error .waiting
  | some len =>
    if len < 0 then .error .exited
    else
      match env.sockName with
      | none => .ok (m, v)
      | some addr => .ok (m, { v with localAddr := addr, localPort := addrGetPort addr })

/-- The `recv` loop goes on over an interrupt only: `EAGAIN` is the timeout. -/
def recvLoop : List RecvOutcome → Option RecvOutcome
  | [] => none
  | .failed .eintr :: rest => recvLoop rest
  | r :: _ => some r

/-- What is done with the buffer behind the `recv`: whether the test failed, and the variables. -/
def readMessage (buf : Mem) (len : Nat) (v : Vars) : Bool × Vars :=
  if stunIsCommandMessageStr buf len then
    if stunIsResponseStr buf len then
      if stunIsSuccessResponseStr buf len then
        if stunIsBindingResponseStr buf len then
          let r := stunAttrGetFirstAddrStr buf len stunAttributeXorMappedAddress none
          let v := { v with reflexiveAddr := r.2 }
          if 0 ≤ r.1 then
            match stunAttrGetFirstByTypeStr buf len stunAttributeOtherAddress with
            | none => (false, v)
            | some sar =>
              (false, { v with
                rfc5780 := true
                otherAddr := (stunAttrGetAddrStr addrMappings buf (some sar) none).2 })
          else (false, v)
        else (false, v)
      else (false, v)
    else if stunIsRequestStr buf len then (false, v)
    else (true, v)
  else (true, v)

def stunclientReceive (m : StunBuffer) (outcome : RecvOutcome) (v : Vars) : Bool × Vars :=
  readMessage (receivedIn m outcome).1 (receivedIn m outcome).2 v

def runStunclient (v : Vars) (changeIp changePort padding : Bool) (env : ProbeEnv) :
    Except StunEnd (Bool × Vars) := do
  let v ← initSocket v env
  let (m, v) ← stunclientSend v env (-1) changeIp changePort padding
  match recvLoop env.recvs with
  | none => .error .waiting
  | some outcome => .ok (stunclientReceive m outcome v)

/-! ## The discoveries -/

/-- `make_ioa_addr` for an address of the command line; one that cannot be made ends the process. -/
def commandAddr (r : Resolver) (text : List Byte) (port : Int) : Except StunEnd IoaAddr :=
  let (rc, addr) := makeIoaAddr r text port
  if rc < 0 then .error .exited else .ok addr

def Options.localAddr (o : Options) (r : Resolver) : Except StunEnd IoaAddr :=
  if o.localAddrString.isEmpty then .ok IoaAddr.any else commandAddr r o.localAddrString 0

def init (r : Resolver) (o : Options) (first : Bool) (v : Vars) : Except StunEnd Vars := do
  let localAddr ← o.localAddr r
  let remoteAddr ← commandAddr r o.remoteParam o.remotePort
  .ok { v with
    localAddr := localAddr
    remoteAddr := remoteAddr
    localPort := if first then v.localPort else -1
    rfc5780 := false }

def noNatDecision (v : Vars) : List Decision :=
  if addrEq v.localAddr v.reflexiveAddr then [.noNat] else []

/-- How both branches begin: the first test, and more of them if its answer is from a server of
RFC 5780. -/
def firstTest (r : Resolver) (o : Options) (first : Bool) (v : Vars) (env₁ : ProbeEnv)
    (more : List Decision → Vars → Except StunEnd (List Decision × Vars)) :
    Except StunEnd (List Decision × Vars) := do
  let v ← init r o first v
  let (_, v) ← runStunclient v false false o.padding env₁
  if v.rfc5780 && !addrAny v.otherAddr then more (noNatDecision v) v
  else .ok (noNatDecision v, v)

/-- The third test of the branch `-m` of `main`. -/
def mappingThird (o : Options) (decisions : List Decision) (v : Vars) (env₃ : ProbeEnv) :
    Except StunEnd (List Decision × Vars) := do
  let tmpAddr := v.reflexiveAddr
  let (_, v) ← runStunclient (v.toward v.otherAddr) false false o.padding env₃
  if addrEq tmpAddr v.reflexiveAddr then .ok (decisions ++ [.mapping .addressDependent], v)
  else .ok (decisions ++ [.mapping .addressAndPortDependent], v)

/-- What follows when the first test has found a server of RFC 5780. -/
def mappingSecond (o : Options) (decisions : List Decision) (v : Vars) (env₂ env₃ : ProbeEnv) :
    Except StunEnd (List Decision × Vars) := do
  let tmpAddr := v.reflexiveAddr
  let v := v.toward (addrSetPort v.otherAddr o.remotePort)
  let (_, v) ← runStunclient v false false o.padding env₂
  if addrEq tmpAddr v.reflexiveAddr then .ok (decisions ++ [.mapping .endpointIndependent], v)
  else mappingThird o decisions v env₃

/-- The branch `-m` of `main`. -/
def mappingDiscovery (r : Resolver) (o : Options) (first : Bool) (v : Vars)
    (env₁ env₂ env₃ : ProbeEnv) : Except StunEnd (List Decision × Vars) :=
  firstTest r o first v env₁ fun decisions v => mappingSecond o decisions v env₂ env₃

/-- The third test of the branch `-f` of `main`. -/
def filteringThird (o : Options) (decisions : List Decision) (v : Vars) (env₃ : ProbeEnv) :
    Except StunEnd (List Decision × Vars) := do
  let (res, v) ← runStunclient v false true o.padding env₃
  if !res then .ok (decisions ++ [.filtering .addressDependent], v)
  else .ok (decisions ++ [.filtering .addressAndPortDependent], v)

def filteringSecond (o : Options) (decisions : List Decision) (v : Vars) (env₂ env₃ : ProbeEnv) :
    Except StunEnd (List Decision × Vars) := do
  let (res, v) ← runStunclient v true true o.padding env₂
  if !res then .ok (decisions ++ [.filtering .endpointIndependent], v)
  else filteringThird o decisions v env₃

/-- The branch `-f` of `main`. -/
def filteringDiscovery (r : Resolver) (o : Options) (first : Bool) (v : Vars)
    (env₁ env₂ env₃ : ProbeEnv) : Except StunEnd (List Decision × Vars) :=
  firstTest r o first v env₁ fun decisions v => filteringSecond o decisions v env₂ env₃

/-! ## What a test leaves -/

/-- The OTHER-ADDRESS of a response that has a mapped address; `any` when it cannot be decoded. -/
def otherIn (buf : Mem) (len : Nat) : Option IoaAddr :=
  if (firstMappedAddress buf len).isSome then
    (stunAttrGetFirstByTypeStr buf len stunAttributeOtherAddress).map fun sar =>
      (stunAttrGetAddrStr addrMappings buf (some sar) none).2
  else none

/-- The variables after a message. -/
def Vars.hear (v : Vars) (buf : Mem) (len : Nat) : Vars :=
  if isBindingSuccess buf len then
    let v := { v with reflexiveAddr := (firstMappedAddress buf len).getD IoaAddr.any }
    match otherIn buf len with
    | none => v
    | some other => { v with rfc5780 := true, otherAddr := other }
  else v

/-- A message with which a test does not count as failed. -/
def heard (buf : Mem) (len : Nat) : Bool :=
  stunIsCommandMessageStr buf len && (stunIsResponseStr buf len || stunIsRequestStr buf len)

theorem isResponse_of_success {buf : Mem} {len : Nat}
    (h : stunIsSuccessResponseStr buf len = true) : stunIsResponseStr buf len = true := by
  unfold stunIsSuccessResponseStr at h
  unfold stunIsResponseStr
  rw [Bool.and_eq_true] at h ⊢
  exact ⟨h.1, by rw [h.2, Bool.true_or]⟩

/-- The nested tests come to two: whether the message is heard, and whether it is an answer. -/
theorem readMessage_eq (buf : Mem) (len : Nat) (v : Vars) :
    readMessage buf len v = (!heard buf len, v.hear buf len) := by
  by_cases hsucc : isBindingSuccess buf len = true
  · have hall := hsucc
    simp only [isBindingSuccess, Bool.and_eq_true] at hall
    obtain ⟨⟨hcmd, hok⟩, hmethod⟩ := hall
    have hresp := isResponse_of_success hok
    have hbind : stunIsBindingResponseStr buf len = true := by
      rw [stunIsBindingResponseStr, hcmd, hmethod, hresp]
      rfl
    unfold readMessage heard Vars.hear
    rw [if_pos hcmd, if_pos hresp, if_pos hok, if_pos hbind, if_pos hsucc, hcmd, hresp]
    have hfirst : stunAttrGetFirstAddrStr buf len stunAttributeXorMappedAddress none = _ :=
      firstAddrFrom_eq buf (attrRefs buf len)
    rw [← firstMappedAddress] at hfirst
    rw [hfirst, otherIn]
    cases firstMappedAddress buf len with
    | none => rfl
    | some addr => cases stunAttrGetFirstByTypeStr buf len stunAttributeOtherAddress <;> rfl
  · unfold readMessage heard Vars.hear
    rw [if_neg hsucc]
    by_cases hcmd : stunIsCommandMessageStr buf len = true
    · by_cases hresp : stunIsResponseStr buf len = true
      · rw [if_pos hcmd, if_pos hresp, hcmd, hresp]
        split
        · split
          · rename_i hok hbind
            simp only [stunIsBindingResponseStr, Bool.and_eq_true] at hbind
            simp [isBindingSuccess, hcmd, hok, hbind] at hsucc
          · rfl
        · rfl
      · rw [if_pos hcmd, if_neg hresp, hcmd, Bool.eq_false_iff.mpr hresp]
        cases stunIsRequestStr buf len <;> rfl
    · rw [if_neg hcmd, Bool.eq_false_iff.mpr hcmd]
      rfl

theorem heard_failedLen (buf : Mem) : heard buf failedLen = false := by
  have hlt := (get16 buf 2).isLt
  have hne : (get16 buf 2).toNat + stunHeaderLength ≠ failedLen := by
    unfold stunHeaderLength failedLen
    omega
  simp [heard, stunIsCommandMessageStr, hne]

end NatDiscovery

/-! ## The bytes of the datagram -/

section AgreeBelow
variable {buf buf' : Mem} {len : Nat}

theorem AgreeBelow.firstByType (h : AgreeBelow len buf buf') (t : BitVec 16) :
    stunAttrGetFirstByTypeStr buf len t = stunAttrGetFirstByTypeStr buf' len t := by
  rw [stunAttrGetFirstByTypeStr_eq_find, stunAttrGetFirstByTypeStr_eq_find, ← h.attrRefs]
  apply List.find?_congr
  intro a ha
  obtain ⟨_, hend, hle⟩ := inMessage_of_mem ha
  rw [h.get16 (by omega)]

theorem AgreeBelow.heard (h : AgreeBelow len buf buf') :
    NatDiscovery.heard buf len = NatDiscovery.heard buf' len := by
  simp only [NatDiscovery.heard, stunIsResponseStr, stunIsRequestStr, h.isCommand, h.isChannelMsg,
    h.msgType]

theorem AgreeBelow.otherIn (h : AgreeBelow len buf buf') :
    NatDiscovery.otherIn buf len = NatDiscovery.otherIn buf' len := by
  unfold NatDiscovery.otherIn
  rw [h.firstMapped, ← h.firstByType]
  cases hfirst : stunAttrGetFirstByTypeStr buf len stunAttributeOtherAddress with
  | none => rfl
  | some sar =>
    have hin := inMessage_of_mem (stunAttrGetFirstByTypeStr_some hfirst).1
    rw [Option.map_some, Option.map_some, h.getAddr addrMappings hin none]

theorem AgreeBelow.hear (h : AgreeBelow len buf buf') (v : NatDiscovery.Vars) :
    v.hear buf len = v.hear buf' len := by
  simp only [NatDiscovery.Vars.hear, h.bindingSuccess, h.firstMapped, h.otherIn]

end AgreeBelow

namespace NatDiscovery

/-! ## One test as a whole -/

/-- The variables behind the send: the socket is bound, and its name was asked for. -/
def Vars.named (v : Vars) (env : ProbeEnv) : Vars :=
  match env.sockName with
  | none => { v with localAddr := boundAddr v }
  | some addr => { v with localAddr := addr, localPort := addrGetPort addr }

/-- The variables behind the receive. -/
def Vars.after (v : Vars) : RecvOutcome → Vars
  | .datagram bytes =>
    let bytes := bytes.take maxStunMessageSize
    v.hear (ofList bytes) bytes.length
  | .failed _ => v

def testFails : RecvOutcome → Bool
  | .datagram bytes =>
    let bytes := bytes.take maxStunMessageSize
    !heard (ofList bytes) bytes.length
  | .failed _ => true

/-- What is kept of a receive depends on the bytes of the datagram alone. -/
theorem stunclientReceive_eq (m : StunBuffer) (outcome : RecvOutcome) (v : Vars) :
    stunclientReceive m outcome v = (testFails outcome, v.after outcome) := by
  rw [stunclientReceive, readMessage_eq]
  cases outcome with
  | failed errno =>
    have hheard := heard_failedLen m.buf
    have hsucc := isBindingSuccess_failedLen m.buf
    simp [receivedIn, hheard, Vars.hear, hsucc, testFails, Vars.after]
  | datagram bytes =>
    have hagree := agreeBelow_receivedIn m bytes
    have hlen : (receivedIn m (.datagram bytes)).2 = (bytes.take maxStunMessageSize).length := rfl
    rw [hlen, hagree.heard, hagree.hear]
    rfl

/-- A test that goes through: its sockets work, its request is sent and the receive ends. -/
structure GoesThrough (v : Vars) (env : ProbeEnv) (outcome : RecvOutcome) : Prop where
  socket : 0 ≤ env.socketFd
  bound : addrAny (boundAddr v) = true ∨ 0 ≤ addrBind env.socketFd (boundAddr v) env.bindRet
  sent : ∃ n, sendLoop env.sends = some n ∧ 0 ≤ n
  received : recvLoop env.recvs = some outcome

theorem bind_ok_iff {ε α β : Type} {x : Except ε α} {f : α → Except ε β} {b : β} :
    (x >>= f) = .ok b ↔ ∃ a, x = .ok a ∧ f a = .ok b := by
  constructor
  · exact of_bind_ok
  · rintro ⟨a, rfl, h⟩
    exact h

theorem initSocket_ok_iff {v v' : Vars} {env : ProbeEnv} :
    initSocket v env = .ok v' ↔ 0 ≤ env.socketFd ∧
      (addrAny (boundAddr v) = true ∨ 0 ≤ addrBind env.socketFd (boundAddr v) env.bindRet) ∧
      v' = { v with localAddr := boundAddr v } := by
  unfold initSocket
  by_cases hfd : env.socketFd < 0
  · rw [if_pos hfd]
    constructor
    · intro h
      cases h
    · intro h
      omega
  · rw [if_neg hfd]
    simp only [Bool.and_eq_true, Bool.not_eq_true', decide_eq_true_eq]
    have hfd' : 0 ≤ env.socketFd := by omega
    by_cases hbind : addrAny (boundAddr v) = false ∧
        addrBind env.socketFd (boundAddr v) env.bindRet < 0
    · rw [if_pos hbind]
      constructor
      · intro h
        cases h
      · rintro ⟨_, hok, _⟩
        rcases hok with hany | hok
        · rw [hbind.1] at hany
          cases hany
        · omega
    · rw [if_neg hbind]
      have hok : addrAny (boundAddr v) = true ∨
          0 ≤ addrBind env.socketFd (boundAddr v) env.bindRet := by
        cases hany : addrAny (boundAddr v) with
        | true => exact Or.inl rfl
        | false => exact Or.inr (by have hn := not_and.mp hbind hany; omega)
      simp only [hfd', hok, true_and, Except.ok.injEq]
      exact eq_comm

theorem stunclientSend_ok_iff {v v' : Vars} {env : ProbeEnv} {responsePort : Int}
    {changeIp changePort padding : Bool} {m : StunBuffer} :
    stunclientSend { v with localAddr := boundAddr v } env responsePort changeIp changePort padding =
        .ok (m, v') ↔
      (∃ n, sendLoop env.sends = some n ∧ 0 ≤ n) ∧
        m = request env responsePort changeIp changePort padding ∧ v' = v.named env := by
  unfold stunclientSend
  simp only
  cases hsend : sendLoop env.sends with
  | none => simp
  | some n =>
    simp only [Option.some.injEq, exists_eq_left']
    by_cases hn : n < 0
    · rw [if_pos hn]
      constructor
      · intro h
        cases h
      · intro h
        omega
    · rw [if_neg hn]
      have hn' : 0 ≤ n := by omega
      unfold Vars.named
      cases env.sockName with
      | none =>
        simp only [hn', true_and, Except.ok.injEq, Prod.mk.injEq]
        exact and_congr eq_comm eq_comm
      | some addr =>
        simp only [hn', true_and, Except.ok.injEq, Prod.mk.injEq]
        exact and_congr eq_comm eq_comm

theorem runStunclient_ok_iff {v : Vars} {changeIp changePort padding : Bool} {env : ProbeEnv}
    {r : Bool × Vars} :
    runStunclient v changeIp changePort padding env = .ok r ↔
      ∃ outcome, GoesThrough v env outcome ∧
        r = (testFails outcome, (v.named env).after outcome) := by
  unfold runStunclient
  rw [bind_ok_iff]
  constructor
  · rintro ⟨v₁, hinit, h⟩
    obtain ⟨hfd, hbind, rfl⟩ := initSocket_ok_iff.mp hinit
    obtain ⟨⟨m, v₂⟩, hsend, h⟩ := bind_ok_iff.mp h
    obtain ⟨hsent, rfl, rfl⟩ := stunclientSend_ok_iff.mp hsend
    cases hrecv : recvLoop env.recvs with
    | none => simp [hrecv] at h
    | some outcome =>
      simp only [hrecv, Except.ok.injEq] at h
      exact ⟨outcome, ⟨hfd, hbind, hsent, hrecv⟩, by rw [← h, stunclientReceive_eq]⟩
  · rintro ⟨outcome, hgoes, rfl⟩
    refine ⟨_, initSocket_ok_iff.mpr ⟨hgoes.socket, hgoes.bound, rfl⟩, ?_⟩
    rw [bind_ok_iff]
    refine ⟨(_, v.named env), stunclientSend_ok_iff.mpr ⟨hgoes.sent, rfl, rfl⟩, ?_⟩
    simp only [hgoes.received, stunclientReceive_eq]

/-! ## The decisions, whatever the network does -/

/-- The mapped address behind a test: what its answer says, else what was there before. -/
def mappedAfter (m : IoaAddr) : RecvOutcome → IoaAddr
  | .datagram bytes =>
    let bytes := bytes.take maxStunMessageSize
    if isBindingSuccess (ofList bytes) bytes.length then
      (firstMappedAddress (ofList bytes) bytes.length).getD IoaAddr.any
    else m
  | .failed _ => m

/-- The answer of a server that follows RFC 5780: a mapped address and another one of its own. -/
def Rfc5780Answer (outcome : RecvOutcome) (m other : IoaAddr) : Prop :=
  ∃ bytes, outcome = .datagram bytes ∧
    let bytes := bytes.take maxStunMessageSize
    isBindingSuccess (ofList bytes) bytes.length = true ∧
      firstMappedAddress (ofList bytes) bytes.length = some m ∧
      otherIn (ofList bytes) bytes.length = some other

theorem after_reflexiveAddr (v : Vars) (outcome : RecvOutcome) :
    (v.after outcome).reflexiveAddr = mappedAfter v.reflexiveAddr outcome := by
  cases outcome with
  | failed errno => rfl
  | datagram bytes =>
    simp only [Vars.after, Vars.hear, mappedAfter]
    split
    · split <;> rfl
    · rfl

theorem after_of_answer {outcome : RecvOutcome} {m other : IoaAddr}
    (h : Rfc5780Answer outcome m other) (v : Vars) :
    v.after outcome = { v with reflexiveAddr := m, rfc5780 := true, otherAddr := other } := by
  obtain ⟨bytes, rfl, hsucc, hmapped, hother⟩ := h
  simp only [Vars.after, Vars.hear, if_pos hsucc, hmapped, hother, Option.getD_some]

theorem exists_answer {v : Vars} (hv : v.rfc5780 = false) {outcome : RecvOutcome}
    (h : (v.after outcome).rfc5780 = true) : ∃ m other, Rfc5780Answer outcome m other := by
  cases outcome with
  | failed errno =>
    rw [Vars.after, hv] at h
    cases h
  | datagram bytes =>
    simp only [Vars.after, Vars.hear] at h
    split at h
    · rename_i hsucc
      cases hother : otherIn (ofList (bytes.take maxStunMessageSize))
          (bytes.take maxStunMessageSize).length with
      | none =>
        simp only [hother, hv, Bool.false_eq_true] at h
      | some other =>
        have hsome := hother
        unfold otherIn at hsome
        split at hsome
        · rename_i hmapped
          obtain ⟨m, hm⟩ := Option.isSome_iff_exists.mp hmapped
          exact ⟨m, other, bytes, rfl, hsucc, hm, hother⟩
        · cases hsome
    · rw [hv] at h
      cases h

theorem init_rfc5780 {r : Resolver} {o : Options} {first : Bool} {v v' : Vars}
    (h : init r o first v = .ok v') : v'.rfc5780 = false := by
  unfold init at h
  obtain ⟨localAddr, _, h⟩ := of_bind_ok h
  obtain ⟨remoteAddr, _, h⟩ := of_bind_ok h
  cases h
  rfl

theorem mem_noNatDecision {v : Vars} {d : Decision} (h : d ∈ noNatDecision v) : d = .noNat := by
  unfold noNatDecision at h
  split at h
  · exact List.mem_singleton.mp h
  · cases h

@[simp] theorem named_reflexiveAddr (v : Vars) (env : ProbeEnv) :
    (v.named env).reflexiveAddr = v.reflexiveAddr := by
  unfold Vars.named
  split <;> rfl

@[simp] theorem named_rfc5780 (v : Vars) (env : ProbeEnv) :
    (v.named env).rfc5780 = v.rfc5780 := by
  unfold Vars.named
  split <;> rfl

theorem runStunclient_bind_iff {β : Type} {v : Vars} {changeIp changePort padding : Bool}
    {env : ProbeEnv} {f : Bool × Vars → Except StunEnd β} {b : β} :
    (runStunclient v changeIp changePort padding env >>= f) = .ok b ↔
      ∃ outcome, GoesThrough v env outcome ∧
        f (testFails outcome, (v.named env).after outcome) = .ok b := by
  rw [bind_ok_iff]
  constructor
  · rintro ⟨r, htest, h⟩
    obtain ⟨outcome, hgoes, rfl⟩ := runStunclient_ok_iff.mp htest
    exact ⟨outcome, hgoes, h⟩
  · rintro ⟨outcome, hgoes, h⟩
    exact ⟨_, runStunclient_ok_iff.mpr ⟨outcome, hgoes, rfl⟩, h⟩

theorem mappingThird_ok_iff {o : Options} {ds ds' : List Decision} {v v' : Vars}
    {env₃ : ProbeEnv} :
    mappingThird o ds v env₃ = .ok (ds', v') ↔
      ∃ o₃, GoesThrough (v.toward v.otherAddr) env₃ o₃ ∧
        v' = ((v.toward v.otherAddr).named env₃).after o₃ ∧
        ds' = ds ++ [.mapping (if addrEq v.reflexiveAddr (mappedAfter v.reflexiveAddr o₃)
          then .addressDependent else .addressAndPortDependent)] := by
  unfold mappingThird
  simp only [runStunclient_bind_iff, after_reflexiveAddr, named_reflexiveAddr,
    toward_reflexiveAddr]
  apply exists_congr
  intro o₃
  apply and_congr_right
  intro _
  split <;> simp [and_comm, eq_comm]

theorem mappingSecond_ok_iff {o : Options} {ds ds' : List Decision} {v v' : Vars}
    {env₂ env₃ : ProbeEnv} :
    mappingSecond o ds v env₂ env₃ = .ok (ds', v') ↔
      let w := v.toward (addrSetPort v.otherAddr o.remotePort)
      ∃ o₂, GoesThrough w env₂ o₂ ∧
        if addrEq v.reflexiveAddr (mappedAfter v.reflexiveAddr o₂) then
          v' = (w.named env₂).after o₂ ∧ ds' = ds ++ [.mapping .endpointIndependent]
        else mappingThird o ds ((w.named env₂).after o₂) env₃ = .ok (ds', v') := by
  unfold mappingSecond
  simp only [runStunclient_bind_iff, after_reflexiveAddr, named_reflexiveAddr,
    toward_reflexiveAddr]
  apply exists_congr
  intro o₂
  apply and_congr_right
  intro _
  split <;> simp [and_comm, eq_comm]

theorem Rfc5780Answer.unique {outcome : RecvOutcome} {m m' other other' : IoaAddr}
    (h : Rfc5780Answer outcome m other) (h' : Rfc5780Answer outcome m' other') :
    m = m' ∧ other = other' := by
  obtain ⟨bytes, rfl, _, hm, hother⟩ := h
  obtain ⟨bytes', heq, _, hm', hother'⟩ := h'
  cases heq
  rw [hm] at hm'
  rw [hother] at hother'
  exact ⟨Option.some.inj hm', Option.some.inj hother'⟩

/-- What a discovery that returns has gone through: the first test, and if its answer comes from a
server of RFC 5780, what follows. -/
theorem firstTest_cases {r : Resolver} {o : Options} {first : Bool} {v : Vars}
    {env₁ : ProbeEnv} {more : List Decision → Vars → Except StunEnd (List Decision × Vars)}
    {x : List Decision × Vars} (h : firstTest r o first v env₁ more = .ok x) :
    ∃ v₀ o₁, init r o first v = .ok v₀ ∧ GoesThrough v₀ env₁ o₁ ∧
      ((∃ m₁ other, Rfc5780Answer o₁ m₁ other ∧ addrAny other = false ∧
          let w := { v₀.named env₁ with reflexiveAddr := m₁, rfc5780 := true, otherAddr := other }
          more (noNatDecision w) w = .ok x) ∨
        (∀ m₁ other, Rfc5780Answer o₁ m₁ other → addrAny other = true) ∧
          x.1 = noNatDecision ((v₀.named env₁).after o₁)) := by
  unfold firstTest at h
  obtain ⟨v₀, hinit, h⟩ := bind_ok_iff.mp h
  obtain ⟨o₁, hgoes₁, h⟩ := runStunclient_bind_iff.mp h
  refine ⟨v₀, o₁, hinit, hgoes₁, ?_⟩
  have hv : (v₀.named env₁).rfc5780 = false := by rw [named_rfc5780, init_rfc5780 hinit]
  simp only at h
  by_cases hmore : (((v₀.named env₁).after o₁).rfc5780 &&
      !addrAny ((v₀.named env₁).after o₁).otherAddr) = true
  · rw [if_pos hmore] at h
    rw [Bool.and_eq_true, Bool.not_eq_true'] at hmore
    obtain ⟨m₁, other, hanswer⟩ := exists_answer hv hmore.1
    rw [after_of_answer hanswer] at h hmore
    exact Or.inl ⟨m₁, other, hanswer, hmore.2, h⟩
  · rw [if_neg hmore] at h
    cases h
    refine Or.inr ⟨fun m₁ other hanswer => ?_, rfl⟩
    rw [after_of_answer hanswer] at hmore
    simpa using hmore

theorem exists_answer_iff {env₁ : ProbeEnv} {o₁ : RecvOutcome} {m₁ other : IoaAddr}
    (hrecv : recvLoop env₁.recvs = some o₁) (hanswer : Rfc5780Answer o₁ m₁ other)
    (hother : addrAny other = false) (P : IoaAddr → Prop) :
    (∃ o₁ m₁ other, recvLoop env₁.recvs = some o₁ ∧ Rfc5780Answer o₁ m₁ other ∧
      addrAny other = false ∧ P m₁) ↔ P m₁ := by
  constructor
  · rintro ⟨o₁', m₁', other', hrecv', hanswer', _, hP⟩
    rw [hrecv] at hrecv'
    cases hrecv'
    rw [(hanswer.unique hanswer').1]
    exact hP
  · intro hP
    exact ⟨o₁, m₁, other, hrecv, hanswer, hother, hP⟩

theorem not_exists_answer {env₁ : ProbeEnv} {o₁ : RecvOutcome}
    (hrecv : recvLoop env₁.recvs = some o₁)
    (hnone : ∀ m₁ other, Rfc5780Answer o₁ m₁ other → addrAny other = true) (P : IoaAddr → Prop) :
    ¬ ∃ o₁ m₁ other, recvLoop env₁.recvs = some o₁ ∧ Rfc5780Answer o₁ m₁ other ∧
      addrAny other = false ∧ P m₁ := by
  rintro ⟨o₁', m₁, other, hrecv', hanswer, hother, _⟩
  rw [hrecv] at hrecv'
  cases hrecv'
  rw [hnone m₁ other hanswer] at hother
  cases hother

theorem mem_decided_iff {w : Vars} {d d' : Decision} (hd : d ≠ .noNat) :
    d ∈ noNatDecision w ++ [d'] ↔ d = d' := by
  rw [List.mem_append, List.mem_singleton]
  apply or_iff_right
  intro hmem
  exact hd (mem_noNatDecision hmem)

section LostAnswers

theorem exists_of_isOk {ε α : Type} {x : Except ε α} (h : x.isOk = true) : ∃ a, x = .ok a := by
  cases x with
  | error e => cases h
  | ok a => exact ⟨a, rfl⟩

/-- A Binding success response: mapped 192.0.2.1:3478, other address 192.0.2.2:3479. -/
def answerBytes : List Byte :=
  [1, 1, 0, 24, 0x21, 0x12, 0xA4, 0x42, 0, 0, 0, 0, 0, 0, 0, 0, 0, 0, 0, 1] ++
    [0, 0x20, 0, 8, 0, 1, 0x2C, 0x84, 0xE1, 0x12, 0xA6, 0x43] ++
    [0x80, 0x2C, 0, 8, 0, 1, 0x0D, 0x97, 192, 0, 2, 2]

def probeWith (outcome : RecvOutcome) : ProbeEnv :=
  ⟨3, 0, fun _ => 0, countingTid, [.sent 20], none, [.failed .eintr, outcome]⟩

def lostResolver : Resolver := ⟨fun _ => some 0xC0000201, fun _ => none, fun _ => none⟩

def lostStart : Vars := ⟨IoaAddr.any, IoaAddr.any, IoaAddr.any, IoaAddr.any, -1, false⟩

def lostOptions : Options := ⟨[], [0x31], 3478, -1, false⟩

end LostAnswers

/-- The decision is read off the mapped addresses of up to three answers; a test without an answer
counts as one that has found the address unchanged. -/
theorem mapping_decision_iff {r : Resolver} {o : Options} {first : Bool} {v v' : Vars}
    {env₁ env₂ env₃ : ProbeEnv} {ds : List Decision}
    (h : mappingDiscovery r o first v env₁ env₂ env₃ = .ok (ds, v')) (d : Dependence) :
    .mapping d ∈ ds ↔ ∃ o₁ m₁ other, recvLoop env₁.recvs = some o₁ ∧ Rfc5780Answer o₁ m₁ other ∧
      addrAny other = false ∧ ∃ o₂, recvLoop env₂.recvs = some o₂ ∧
        if addrEq m₁ (mappedAfter m₁ o₂) then d = .endpointIndependent
        else ∃ o₃, recvLoop env₃.recvs = some o₃ ∧
          d = if addrEq (mappedAfter m₁ o₂) (mappedAfter (mappedAfter m₁ o₂) o₃)
            then .addressDependent else .addressAndPortDependent := by
  have hne : Decision.mapping d ≠ .noNat := Decision.noConfusion
  obtain ⟨v₀, o₁, hinit, hgoes₁, ⟨m₁, other, hanswer, hother, h⟩ | ⟨hnone, hds⟩⟩ :=
    firstTest_cases h
  · obtain ⟨o₂, hgoes₂, h⟩ := mappingSecond_ok_iff.mp h
    rw [exists_answer_iff hgoes₁.received hanswer hother, hgoes₂.received]
    simp only [Option.some.injEq, exists_eq_left'] at h ⊢
    split at h
    · rename_i heq
      rw [h.2, mem_decided_iff hne, if_pos heq, Decision.mapping.injEq]
    · rename_i hdiffer
      obtain ⟨o₃, hgoes₃, _, hds⟩ := mappingThird_ok_iff.mp h
      rw [hds, mem_decided_iff hne, if_neg hdiffer, hgoes₃.received, Decision.mapping.injEq]
      simp [after_reflexiveAddr]
  · simp only at hds
    rw [hds, iff_false_right (not_exists_answer hgoes₁.received hnone _)]
    intro hmem
    exact hne (mem_noNatDecision hmem)

/-- With the second answer lost the mapping counts as independent of the endpoint. -/
theorem lost_mapping_answer : ∃ ds v', mappingDiscovery lostResolver lostOptions true lostStart
    (probeWith (.datagram answerBytes)) (probeWith (.failed .eagain))
      (probeWith (.failed .eagain)) = .ok (ds, v') ∧ .mapping .endpointIndependent ∈ ds := by
  obtain ⟨⟨ds, v'⟩, hrun⟩ := exists_of_isOk (x := mappingDiscovery lostResolver lostOptions true
    lostStart (probeWith (.datagram answerBytes)) (probeWith (.failed .eagain))
      (probeWith (.failed .eagain))) (by decide +kernel)
  refine ⟨ds, v', hrun, (mapping_decision_iff hrun _).mpr ?_⟩
  exact ⟨_, _, _, rfl, ⟨_, rfl, by decide +kernel, rfl, rfl⟩, by decide +kernel, _, rfl,
    by decide +kernel⟩

theorem filteringSecond_ok_iff {o : Options} {ds ds' : List Decision} {v v' : Vars}
    {env₂ env₃ : ProbeEnv} :
    filteringSecond o ds v env₂ env₃ = .ok (ds', v') ↔
      ∃ o₂, GoesThrough v env₂ o₂ ∧
        let w := (v.named env₂).after o₂
        if testFails o₂ then ∃ o₃, GoesThrough w env₃ o₃ ∧ v' = (w.named env₃).after o₃ ∧
          ds' = ds ++ [.filtering (if testFails o₃ then .addressAndPortDependent
            else .addressDependent)]
        else v' = w ∧ ds' = ds ++ [.filtering .endpointIndependent] := by
  unfold filteringSecond filteringThird
  simp only [runStunclient_bind_iff]
  apply exists_congr
  intro o₂
  apply and_congr_right
  intro _
  cases hfails : testFails o₂ with
  | false => simp [eq_comm, and_comm]
  | true =>
    simp only [Bool.not_true, Bool.false_eq_true, if_false, if_true, runStunclient_bind_iff]
    apply exists_congr
    intro o₃
    apply and_congr_right
    intro _
    cases testFails o₃ <;> simp [eq_comm, and_comm]

/-- The decision is read off which of the two further tests count as failed; every STUN response,
also an error, makes one succeed. -/
theorem filtering_decision_iff {r : Resolver} {o : Options} {first : Bool} {v v' : Vars}
    {env₁ env₂ env₃ : ProbeEnv} {ds : List Decision}
    (h : filteringDiscovery r o first v env₁ env₂ env₃ = .ok (ds, v')) (d : Dependence) :
    .filtering d ∈ ds ↔ ∃ o₁ m₁ other, recvLoop env₁.recvs = some o₁ ∧ Rfc5780Answer o₁ m₁ other ∧
      addrAny other = false ∧ ∃ o₂, recvLoop env₂.recvs = some o₂ ∧
        if testFails o₂ then ∃ o₃, recvLoop env₃.recvs = some o₃ ∧
          d = if testFails o₃ then .addressAndPortDependent else .addressDependent
        else d = .endpointIndependent := by
  have hne : Decision.filtering d ≠ .noNat := Decision.noConfusion
  obtain ⟨v₀, o₁, hinit, hgoes₁, ⟨m₁, other, hanswer, hother, h⟩ | ⟨hnone, hds⟩⟩ :=
    firstTest_cases h
  · obtain ⟨o₂, hgoes₂, h⟩ := filteringSecond_ok_iff.mp h
    rw [exists_answer_iff hgoes₁.received hanswer hother
      (fun _ => ∃ o₂, recvLoop env₂.recvs = some o₂ ∧ _), hgoes₂.received]
    simp only [Option.some.injEq, exists_eq_left'] at h ⊢
    split at h
    · rename_i hfails
      obtain ⟨o₃, hgoes₃, _, hds⟩ := h
      rw [hds, mem_decided_iff hne, if_pos hfails, hgoes₃.received, Decision.filtering.injEq]
      simp
    · rename_i hheard
      rw [h.2, mem_decided_iff hne, if_neg hheard, Decision.filtering.injEq]
  · simp only at hds
    rw [hds, iff_false_right (not_exists_answer hgoes₁.received hnone
      (fun _ => ∃ o₂, recvLoop env₂.recvs = some o₂ ∧ _))]
    intro hmem
    exact hne (mem_noNatDecision hmem)

/-- With both further answers lost the filter counts as dependent on the address and the port. -/
theorem lost_filtering_answers : ∃ ds v', filteringDiscovery lostResolver lostOptions true lostStart
    (probeWith (.datagram answerBytes)) (probeWith (.failed .eagain))
      (probeWith (.failed .eagain)) = .ok (ds, v') ∧
        .filtering .addressAndPortDependent ∈ ds := by
  obtain ⟨⟨ds, v'⟩, hrun⟩ := exists_of_isOk (x := filteringDiscovery lostResolver lostOptions true
    lostStart (probeWith (.datagram answerBytes)) (probeWith (.failed .eagain))
      (probeWith (.failed .eagain))) (by decide +kernel)
  refine ⟨ds, v', hrun, (filtering_decision_iff hrun _).mpr ?_⟩
  exact ⟨_, _, _, rfl, ⟨_, rfl, by decide +kernel, rfl, rfl⟩, by decide +kernel, _, rfl,
    _, rfl, rfl⟩

end NatDiscovery

end TurnClient
