import TurnClient.Datagrams
import TurnClient.StunRequests

/-!
# The STUN client

`run_stunclient` of `stun_manager.c`: one Binding request, one datagram, and
the addresses reported to the callbacks. Everything outside is an input: the
resolver, the socket calls, the transaction id drawn, and the results of
`sendto` and `recv` one after the other. The request and the datagram share a
buffer, so after the receive nothing of the request is left to compare with.
-/

namespace TurnClient

open ByteMemory
set_option autoImplicit false

def stunMethodBinding : BitVec 16 := 0x0001
def stunAttributeChangeRequest : BitVec 16 := 0x0003
def stunAttributePadding : BitVec 16 := 0x0026
def stunAttributeResponsePort : BitVec 16 := 0x0027

inductive SendOutcome where
  | sent (n : Nat)
  | failed (errno : Errno)
deriving DecidableEq

inductive AddressCb where
  | reflexive
  | other
  | responseOrigin
deriving DecidableEq

/-- One call of an `on_address_cb`. -/
structure AddressReport where
  cb : AddressCb
  type : Nat
  address : List Char
  port : Nat
deriving DecidableEq

def reflexiveIpType : Nat := 3
def remoteIpType : Nat := 4
def otherIpType : Nat := 5

/-- The globals of `stun_manager.c`; of a callback only whether it is set. -/
structure StunGlobals where
  udpFd : Int
  realLocalAddr : IoaAddr
  counter : Nat
  isSet : AddressCb → Bool

structure StunArgs where
  rip : List Byte
  rport : Int
  responsePort : Int
  changeIp : Bool
  changePort : Bool
  padding : Bool

/-- What a call gets from outside. `buf` is the uninitialised buffer. -/
structure StunEnv where
  resolver : Resolver
  socketFd : Int
  bindRet : Int
  newSocketFd : Int
  newBindRet : Int
  buf : Mem
  tid : StunTid
  sends : List SendOutcome
  sockName : Option IoaAddr
  recvs : List RecvOutcome

/-! ## Parts of a call -/

def addrBind (fd : Int) (addr : IoaAddr) (bindRet : Int) : Int :=
  if fd < 0 then -1
  else if addr.family = .inet ∨ addr.family = .inet6 then bindRet
  else -1

def stunAttrAddResponsePortStr (m : StunBuffer) (port : BitVec 16) : Rc × StunBuffer :=
  stunAttrAddBytes m stunAttributeResponsePort (be16 port ++ [0, 0])

def stunAttrAddChangeRequestStr (m : StunBuffer) (changeIp changePort : Bool) : Rc × StunBuffer :=
  let flags : Byte := if changeIp then if changePort then 0x06 else 0x04
    else if changePort then 0x02 else 0x00
  stunAttrAddBytes m stunAttributeChangeRequest [0, 0, 0, flags]

def stunAttrAddPaddingStr (m : StunBuffer) (paddingLen : Nat) : Rc × StunBuffer :=
  stunAttrAddBytes m stunAttributePadding (List.replicate paddingLen 0)

/-- None of the results of the three appends ends the call. -/
def bindingRequest (args : StunArgs) (env : StunEnv) : StunBuffer :=
  let m := stunInitRequestStr stunMethodBinding env.buf env.tid
  let m := if 0 ≤ args.responsePort then
    (stunAttrAddResponsePortStr m (BitVec.ofInt 16 args.responsePort)).2 else m
  let m := if args.changeIp || args.changePort then
    (stunAttrAddChangeRequestStr m args.changeIp args.changePort).2 else m
  if args.padding then (stunAttrAddPaddingStr m 1500).2 else m

/-- The sockets of a call; `none` is the end of the process in `err`. -/
def openSockets (args : StunArgs) (env : StunEnv) (s : StunGlobals) :
    Option (IoaAddr × Int × StunGlobals) :=
  let (rc, remoteAddr) := makeIoaAddr env.resolver args.rip args.rport
  if rc < 0 then none
  else
    let opened : Option StunGlobals :=
      if s.udpFd < 0 then
        if env.socketFd < 0 then none
        else if !addrAny s.realLocalAddr && addrBind env.socketFd s.realLocalAddr env.bindRet < 0 then
          none
        else some { s with udpFd := env.socketFd }
      else some s
    match opened with
    | none => none
    | some s =>
      if 0 ≤ args.responsePort then
        let s := { s with realLocalAddr := addrSetPort s.realLocalAddr args.responsePort }
        if env.newSocketFd < 0 then none
        else if addrBind env.newSocketFd s.realLocalAddr env.newBindRet < 0 then none
        else some (remoteAddr, env.newSocketFd, s)
      else some (remoteAddr, -1, s)

/-- The `sendto` loop: its result, `none` while it has not ended. -/
def sendLoop : List SendOutcome → Option Int
  | [] => none
  | .sent n :: _ => some n
  | .failed .other :: _ => some (-1)
  | .failed _ :: rest => sendLoop rest

/-- The `recv` loop: what ends it, `none` while it has not ended. -/
def recvLoop : List RecvOutcome → Option RecvOutcome
  | [] => none
  | .failed .eintr :: rest => recvLoop rest
  | .failed .eagain :: rest => recvLoop rest
  | r :: _ => some r

def stunIsResponseStr (buf : Mem) (len : Nat) : Bool :=
  !isChannelMsgStr buf len && (isStunSuccessResp (stunGetMsgTypeStr buf len) ||
    isStunErrResp (stunGetMsgTypeStr buf len))

def stunIsBindingResponseStr (buf : Mem) (len : Nat) : Bool :=
  stunIsCommandMessageStr buf len && stunGetMethodStr buf len == stunMethodBinding &&
    stunIsResponseStr buf len

/-- The loop of `stun_attr_get_first_addr_str` over the attributes that are left. -/
def firstAddrFrom (buf : Mem) (attrType : BitVec 16) (defaultAddr : Option IoaAddr) :
    List Nat → Int × IoaAddr
  | [] => (-1, IoaAddr.any)
  | a :: rest =>
    if stunAttrIsAddr (get16 buf a) && attrType == get16 buf a then
      let r := stunAttrGetAddrStr addrMappings buf (some a) defaultAddr
      if r.1 = 0 then r else firstAddrFrom buf attrType defaultAddr rest
    else firstAddrFrom buf attrType defaultAddr rest

def stunAttrGetFirstAddrStr (buf : Mem) (len : Nat) (attrType : BitVec 16)
    (defaultAddr : Option IoaAddr) : Int × IoaAddr :=
  firstAddrFrom buf attrType defaultAddr (attrRefs buf len)

def notifyAddress (s : StunGlobals) (type : Nat) (addr : IoaAddr) (cb : AddressCb) :
    List AddressReport :=
  if s.isSet cb then [⟨cb, type, notifiedText addr, addr.port.toNat⟩] else []

/-- The reports made for an RFC 5780 response, and whether it is one. -/
def rfc5780Reports (s : StunGlobals) (buf : Mem) (len : Nat) : Bool × List AddressReport :=
  match stunAttrGetFirstByTypeStr buf len stunAttributeOtherAddress with
  | none => (false, [])
  | some sar =>
    let otherAddr := (stunAttrGetAddrStr addrMappings buf (some sar) none).2
    let originReports :=
      match stunAttrGetFirstByTypeStr buf len stunAttributeResponseOrigin with
      | none => []
      | some sar =>
        let responseOrigin := (stunAttrGetAddrStr addrMappings buf (some sar) none).2
        notifyAddress s remoteIpType responseOrigin .responseOrigin
    (true, originReports ++ notifyAddress s otherIpType otherAddr .other)

/-- What is done with the buffer after the receive: the callbacks called, and
whether the server was found to follow RFC 5780. -/
def readResponse (s : StunGlobals) (remoteAddr : IoaAddr) (buf : Mem) (len : Nat) :
    Bool × List AddressReport :=
  if stunIsCommandMessageStr buf len then
    if stunIsResponseStr buf len then
      if stunIsSuccessResponseStr buf len then
        if stunIsBindingResponseStr buf len then
          let r := stunAttrGetFirstAddrStr buf len stunAttributeXorMappedAddress none
          if 0 ≤ r.1 then
            let rfc := rfc5780Reports s buf len
            (rfc.1, rfc.2 ++ notifyAddress s reflexiveIpType r.2 .reflexive ++
              notifyAddress s 4 s.realLocalAddr .reflexive ++
              notifyAddress s 5 remoteAddr .reflexive)
          else (false, [])
        else (false, [])
      else (false, [])
    else (false, [])
  else (false, [])

/-- Where a call has got to: the process ended, a socket loop goes on, or it returned. -/
inductive StunEnd where
  | exited
  | waiting
  | returned (rc : Int)
deriving DecidableEq

structure StunRun where
  ended : StunEnd
  sent : List StunBuffer
  reports : List AddressReport
  port : Int
  rfc5780 : Bool
  globals : StunGlobals

/-- `buf.len = len` for a failed receive: -1 as a `size_t`. -/
def failedLen : Nat := 2 ^ 64 - 1

def runStunclient (args : StunArgs) (env : StunEnv) (port : Int) (rfc5780 : Bool)
    (s : StunGlobals) : StunRun :=
  match openSockets args env s with
  | none => ⟨.exited, [], [], port, rfc5780, s⟩
  | some (remoteAddr, newUdpFd, s) =>
    let m := bindingRequest args env
    match sendLoop env.sends with
    | none => ⟨.waiting, [m], [], port, rfc5780, s⟩
    | some len =>
      if len < 0 then ⟨.returned (-1), [m], [], port, rfc5780, s⟩
      else
        let (port, s) := match env.sockName with
          | none => (port, s)
          | some addr => ((addrGetPort addr : Int), { s with realLocalAddr := addr })
        let s := if 0 ≤ newUdpFd then { s with udpFd := newUdpFd } else s
        match recvLoop env.recvs with
        | none => ⟨.waiting, [m], [], port, rfc5780, s⟩
        | some outcome =>
          let (buf, len) := match outcome with
            | .datagram bytes =>
              (recvInto m.buf maxStunMessageSize bytes, (bytes.take maxStunMessageSize).length)
            | .failed _ => (m.buf, failedLen)
          let r := readResponse s remoteAddr buf len
          ⟨.returned 0, [m], r.2, port, rfc5780 || r.1,
            { s with counter := if r.1 then s.counter + 1 else s.counter }⟩

/-! ## The answer to the request -/

/-- The datagram that ends the receive loop, as far as it fits into the buffer. -/
def receivedDatagram (env : StunEnv) : Option (List Byte) :=
  match recvLoop env.recvs with
  | some (.datagram bytes) => some (bytes.take maxStunMessageSize)
  | _ => none

/-- A well-formed Binding success response. -/
def isBindingSuccess (buf : Mem) (len : Nat) : Bool :=
  stunIsCommandMessageStr buf len && stunIsSuccessResponseStr buf len &&
    stunGetMethodStr buf len == stunMethodBinding

def decodedMappedAddress (buf : Mem) (a : Nat) : Option IoaAddr :=
  if get16 buf a = stunAttributeXorMappedAddress then
    match stunAttrGetAddrStr addrMappings buf (some a) none with
    | (0, addr) => some addr
    | _ => none
  else none

/-- The address in the first XOR-MAPPED-ADDRESS attribute that can be decoded. -/
def firstMappedAddress (buf : Mem) (len : Nat) : Option IoaAddr :=
  (attrRefs buf len).findSome? (decodedMappedAddress buf)

/-- The report is what the datagram says, and the datagram answers one of the requests. -/
structure OwnAnswer (sent : List StunBuffer) (bytes : List Byte) (rep : AddressReport) : Prop where
  success : isBindingSuccess (ofList bytes) bytes.length = true
  tid : ∃ m ∈ sent, stunTidFromMessageStr (ofList bytes) = stunTidFromMessageStr m.buf
  address : ∃ addr, firstMappedAddress (ofList bytes) bytes.length = some addr ∧
    rep.address = addrText addr ∧ rep.port = addr.port.toNat

def ReportsOwnAnswer (env : StunEnv) (run : StunRun) : Prop :=
  ∀ rep ∈ run.reports, rep.cb = .reflexive → rep.type = reflexiveIpType →
    ∃ bytes, receivedDatagram env = some bytes ∧ OwnAnswer run.sent bytes rep

/-- If the call gets to report an address, the datagram carries the transaction
id of the request and an IPv4 address. -/
def AnsweredOverIpv4 (args : StunArgs) (env : StunEnv) (s : StunGlobals) : Prop :=
  s.isSet .reflexive = true → (openSockets args env s).isSome →
    (∃ n, sendLoop env.sends = some n ∧ 0 ≤ n) →
    ∀ bytes addr, receivedDatagram env = some bytes →
      isBindingSuccess (ofList bytes) bytes.length = true →
      firstMappedAddress (ofList bytes) bytes.length = some addr →
      stunTidFromMessageStr (ofList bytes) = env.tid ∧ addr.family = .inet

theorem decodedMappedAddress_family {buf : Mem} {a : Nat} {addr : IoaAddr}
    (h : decodedMappedAddress buf a = some addr) : addr.family = .inet ∨ addr.family = .inet6 := by
  unfold decodedMappedAddress at h
  split at h
  · rcases stunAttrGetAddrStr_cases buf (some a) with hfail | ⟨addr', hok, hfam⟩
    · rw [addrMappings, hfail] at h
      cases h
    · rw [addrMappings, hok] at h
      cases h
      exact hfam
  · cases h

theorem firstMappedAddress_family {buf : Mem} {len : Nat} {addr : IoaAddr}
    (h : firstMappedAddress buf len = some addr) : addr.family = .inet ∨ addr.family = .inet6 := by
  obtain ⟨a, _, ha⟩ := List.exists_of_findSome?_eq_some h
  exact decodedMappedAddress_family ha

theorem AgreeBelow.firstMapped {buf buf' : Mem} {len : Nat} (h : AgreeBelow len buf buf') :
    firstMappedAddress buf len = firstMappedAddress buf' len := by
  have hdecode : ∀ a ∈ TurnClient.attrRefs buf len,
      decodedMappedAddress buf a = decodedMappedAddress buf' a := by
    intro a ha
    have hin := inMessage_of_mem ha
    obtain ⟨_, hend, hle⟩ := id hin
    rw [decodedMappedAddress, decodedMappedAddress, h.get16 (by omega), h.getAddr _ hin]
  rw [firstMappedAddress, firstMappedAddress, ← h.attrRefs]
  generalize TurnClient.attrRefs buf len = refs at hdecode
  induction refs with
  | nil => rfl
  | cons a refs ih =>
    rw [List.findSome?_cons, List.findSome?_cons, hdecode a List.mem_cons_self,
      ih fun b hb => hdecode b (List.mem_cons_of_mem a hb)]

theorem AgreeBelow.bindingSuccess {buf buf' : Mem} {len : Nat} (h : AgreeBelow len buf buf') :
    isBindingSuccess buf len = isBindingSuccess buf' len := by
  rw [isBindingSuccess, isBindingSuccess, h.isCommand, h.isSuccess, h.method]

/-- The loop of the source finds the first address that can be decoded. -/
theorem firstAddrFrom_eq (buf : Mem) (refs : List Nat) :
    firstAddrFrom buf stunAttributeXorMappedAddress none refs =
      match refs.findSome? (decodedMappedAddress buf) with
      | some addr => (0, addr)
      | none => (-1, IoaAddr.any) := by
  induction refs with
  | nil => rfl
  | cons a refs ih =>
    rw [firstAddrFrom, List.findSome?_cons, decodedMappedAddress, ih]
    by_cases htype : get16 buf a = stunAttributeXorMappedAddress
    · have hcond : (stunAttrIsAddr (get16 buf a) && stunAttributeXorMappedAddress == get16 buf a) =
          true := by
        rw [htype]
        decide
      rw [if_pos hcond, if_pos htype]
      rcases stunAttrGetAddrStr_cases buf (some a) with hfail | ⟨addr, hok, _⟩
      · simp only [addrMappings, hfail]
        rfl
      · simp only [addrMappings, hok]
        rfl
    · have hcond : ¬(stunAttrIsAddr (get16 buf a) &&
          stunAttributeXorMappedAddress == get16 buf a) = true := by
        simp only [Bool.and_eq_true, beq_iff_eq, not_and]
        intro _ heq
        exact htype heq.symm
      rw [if_neg hcond, if_neg htype]

theorem mem_notifyAddress_iff (s : StunGlobals) (type : Nat) (addr : IoaAddr) (cb : AddressCb)
    (rep : AddressReport) : rep ∈ notifyAddress s type addr cb ↔
      s.isSet cb = true ∧ rep = ⟨cb, type, notifiedText addr, addr.port.toNat⟩ := by
  unfold notifyAddress
  split <;> simp [*]

theorem rfc5780Reports_not_reflexive {s : StunGlobals} {buf : Mem} {len : Nat} {rep : AddressReport}
    (h : rep ∈ (rfc5780Reports s buf len).2) : rep.cb ≠ .reflexive := by
  unfold rfc5780Reports at h
  split at h
  · cases h
  · rcases List.mem_append.mp h with h | h
    · split at h
      · cases h
      · rw [((mem_notifyAddress_iff _ _ _ _ _).mp h).2]
        simp
    · rw [((mem_notifyAddress_iff _ _ _ _ _).mp h).2]
      simp

/-- The nested tests come to one: a Binding success response with an address that can be decoded. -/
theorem readResponse_eq (s : StunGlobals) (remoteAddr : IoaAddr) (buf : Mem) (len : Nat) :
    readResponse s remoteAddr buf len =
      if isBindingSuccess buf len then
        match firstMappedAddress buf len with
        | some addr => ((rfc5780Reports s buf len).1, (rfc5780Reports s buf len).2 ++
            notifyAddress s reflexiveIpType addr .reflexive ++
            notifyAddress s 4 s.realLocalAddr .reflexive ++ notifyAddress s 5 remoteAddr .reflexive)
        | none => (false, [])
      else (false, []) := by
  by_cases hsucc : isBindingSuccess buf len = true
  · rw [if_pos hsucc]
    simp only [isBindingSuccess, Bool.and_eq_true] at hsucc
    obtain ⟨⟨hcmd, hok⟩, hmethod⟩ := hsucc
    have hresp : stunIsResponseStr buf len = true := by
      simp only [stunIsSuccessResponseStr, Bool.and_eq_true] at hok
      simp [stunIsResponseStr, hok]
    have hbind : stunIsBindingResponseStr buf len = true := by
      simp [stunIsBindingResponseStr, hcmd, hmethod, hresp]
    simp only [readResponse, hcmd, hresp, hok, hbind, if_true, stunAttrGetFirstAddrStr,
      firstAddrFrom_eq, firstMappedAddress]
    cases (attrRefs buf len).findSome? (decodedMappedAddress buf) with
    | none => rfl
    | some addr => rfl
  · rw [if_neg hsucc]
    unfold readResponse
    split
    · split
      · split
        · split
          · rename_i hcmd _ hok hbind
            simp only [stunIsBindingResponseStr, Bool.and_eq_true] at hbind
            simp [isBindingSuccess, hcmd, hok, hbind] at hsucc
          · rfl
        · rfl
      · rfl
    · rfl

/-- When the reflexive address is reported, and as what. -/
theorem mem_readResponse_iff (s : StunGlobals) (remoteAddr : IoaAddr) (buf : Mem) (len : Nat)
    (rep : AddressReport) :
    rep ∈ (readResponse s remoteAddr buf len).2 ∧ rep.cb = .reflexive ∧ rep.type = reflexiveIpType ↔
      s.isSet .reflexive = true ∧ isBindingSuccess buf len = true ∧
        ∃ addr, firstMappedAddress buf len = some addr ∧
          rep = ⟨.reflexive, reflexiveIpType, notifiedText addr, addr.port.toNat⟩ := by
  rw [readResponse_eq]
  by_cases hsucc : isBindingSuccess buf len = true
  · simp only [hsucc, if_true, true_and]
    cases firstMappedAddress buf len with
    | none => simp
    | some addr =>
      simp only [List.mem_append, mem_notifyAddress_iff, Option.some.injEq, exists_eq_left']
      constructor
      · intro h
        obtain ⟨hmem, hcb, htype⟩ := h
        rcases hmem with ((hrep | ⟨hset, hrep⟩) | ⟨_, rfl⟩) | ⟨_, rfl⟩
        · exact absurd hcb (rfc5780Reports_not_reflexive hrep)
        · exact ⟨hset, hrep⟩
        · cases htype
        · cases htype
      · intro h
        obtain ⟨hset, rfl⟩ := h
        exact ⟨Or.inl (Or.inl (Or.inr ⟨hset, rfl⟩)), rfl, rfl⟩
  · simp [hsucc]

theorem rfc5780Reports_fst_iff (s : StunGlobals) (buf : Mem) (len : Nat) :
    (rfc5780Reports s buf len).1 = true ↔
      ∃ a ∈ attrRefs buf len, get16 buf a = stunAttributeOtherAddress := by
  unfold rfc5780Reports
  cases hfirst : stunAttrGetFirstByTypeStr buf len stunAttributeOtherAddress with
  | none =>
    rw [stunAttrGetFirstByTypeStr_eq_find, List.find?_eq_none] at hfirst
    constructor
    · intro h
      cases h
    · intro h
      obtain ⟨a, ha, htype⟩ := h
      exact absurd (beq_iff_eq.mpr htype) (hfirst a ha)
  | some sar =>
    obtain ⟨hmem, htype⟩ := stunAttrGetFirstByTypeStr_some hfirst
    exact ⟨fun _ => ⟨sar, hmem, htype⟩, fun _ => rfl⟩

/-- When the server is found to follow RFC 5780. -/
theorem readResponse_fst_iff (s : StunGlobals) (remoteAddr : IoaAddr) (buf : Mem) (len : Nat) :
    (readResponse s remoteAddr buf len).1 = true ↔
      isBindingSuccess buf len = true ∧ (firstMappedAddress buf len).isSome ∧
        ∃ a ∈ attrRefs buf len, get16 buf a = stunAttributeOtherAddress := by
  rw [readResponse_eq, ← rfc5780Reports_fst_iff s]
  by_cases hsucc : isBindingSuccess buf len = true
  · rw [if_pos hsucc]
    cases firstMappedAddress buf len with
    | none => simp
    | some addr => simp [hsucc]
  · simp [hsucc]

/-- What is open when the request is built: the global socket, and a second one with a response
port. -/
structure OpenedSockets (args : StunArgs) (env : StunEnv) (s : StunGlobals) (fd : Int)
    (s' : StunGlobals) : Prop where
  isSet : s'.isSet = s.isSet
  udpFd : s'.udpFd = if s.udpFd < 0 then env.socketFd else s.udpFd
  valid : 0 ≤ s'.udpFd
  new : if 0 ≤ args.responsePort then fd = env.newSocketFd ∧ 0 ≤ fd else fd = -1

theorem openSockets_opened {args : StunArgs} {env : StunEnv} {s s' : StunGlobals}
    {remoteAddr : IoaAddr} {fd : Int}
    (h : openSockets args env s = some (remoteAddr, fd, s')) : OpenedSockets args env s fd s' := by
  unfold openSockets at h
  simp only at h
  split at h
  · cases h
  split at h
  · cases h
  rename_i t hopened
  have hglobal : t.isSet = s.isSet ∧ t.udpFd = (if s.udpFd < 0 then env.socketFd else s.udpFd) ∧
      0 ≤ t.udpFd := by
    by_cases hfd : s.udpFd < 0
    · rw [if_pos hfd] at hopened
      split at hopened
      · cases hopened
      rename_i hsocket
      split at hopened
      · cases hopened
      · cases hopened
        exact ⟨rfl, by rw [if_pos hfd], by simpa using hsocket⟩
    · rw [if_neg hfd] at hopened
      cases hopened
      exact ⟨rfl, by rw [if_neg hfd], by simpa using hfd⟩
  obtain ⟨hset, hudp, hvalid⟩ := hglobal
  by_cases hport : 0 ≤ args.responsePort
  · rw [if_pos hport] at h
    split at h
    · cases h
    rename_i hnew
    split at h
    · cases h
    · cases h
      exact ⟨hset, hudp, hvalid, by rw [if_pos hport]; exact ⟨rfl, by simpa using hnew⟩⟩
  · rw [if_neg hport] at h
    cases h
    exact ⟨hset, hudp, hvalid, by rw [if_neg hport]⟩

theorem IsMessage.addBytes {m : StunBuffer} {msgType : BitVec 16} {tid : StunTid}
    {attrs : List Tlv.Record} (h : IsMessage m msgType tid attrs) (attr : BitVec 16)
    (field : List Byte) : ∃ attrs', IsMessage (stunAttrAddBytes m attr field).2 msgType tid attrs' := by
  unfold stunAttrAddBytes
  cases hcall : stunAttrAddStr m attr (some (ofList field)) field.length with
  | mk rc m' =>
    rcases h.add_cases _ _ _ hcall with ⟨_, rfl, _⟩ | ⟨_, rfl, _⟩ | ⟨_, _, _, hm'⟩
    · exact ⟨attrs, h⟩
    · exact ⟨attrs, h⟩
    · exact ⟨_, hm'⟩

/-- Whatever is appended, the request keeps the transaction id drawn for it. -/
theorem bindingRequest_tid (args : StunArgs) (env : StunEnv) :
    stunTidFromMessageStr (bindingRequest args env).buf = env.tid := by
  have hinit := isMessage_initRequest stunMethodBinding env.buf env.tid
  unfold bindingRequest
  simp only
  generalize hmt : (stunMakeRequest stunMethodBinding &&& 0x3FFF) = msgType at hinit
  have hport : ∃ attrs, IsMessage (if 0 ≤ args.responsePort then
      (stunAttrAddResponsePortStr (stunInitRequestStr stunMethodBinding env.buf env.tid)
        (BitVec.ofInt 16 args.responsePort)).2
      else stunInitRequestStr stunMethodBinding env.buf env.tid) msgType env.tid attrs := by
    split
    · exact hinit.addBytes _ _
    · exact ⟨_, hinit⟩
  generalize (if 0 ≤ args.responsePort then
    (stunAttrAddResponsePortStr (stunInitRequestStr stunMethodBinding env.buf env.tid)
      (BitVec.ofInt 16 args.responsePort)).2
    else stunInitRequestStr stunMethodBinding env.buf env.tid) = m₁ at hport
  obtain ⟨attrs₁, h₁⟩ := hport
  have hchange : ∃ attrs, IsMessage (if (args.changeIp || args.changePort) = true then
      (stunAttrAddChangeRequestStr m₁ args.changeIp args.changePort).2 else m₁) msgType env.tid
      attrs := by
    split
    · exact h₁.addBytes _ _
    · exact ⟨_, h₁⟩
  generalize (if (args.changeIp || args.changePort) = true then
    (stunAttrAddChangeRequestStr m₁ args.changeIp args.changePort).2 else m₁) = m₂ at hchange
  obtain ⟨attrs₂, h₂⟩ := hchange
  split
  · obtain ⟨_, h₃⟩ := h₂.addBytes stunAttributePadding (List.replicate 1500 0)
    exact h₃.header.tid_eq
  · exact h₂.header.tid_eq

theorem isBindingSuccess_failedLen (buf : Mem) : isBindingSuccess buf failedLen = false := by
  have hlt := (get16 buf 2).isLt
  have hne : (get16 buf 2).toNat + stunHeaderLength ≠ failedLen := by
    unfold stunHeaderLength failedLen
    omega
  simp [isBindingSuccess, stunIsCommandMessageStr, hne]

/-- What the buffer holds behind the receive, and its length. -/
def receivedIn (m : StunBuffer) : RecvOutcome → Mem × Nat
  | .datagram bytes =>
    (recvInto m.buf maxStunMessageSize bytes, (bytes.take maxStunMessageSize).length)
  | .failed _ => (m.buf, failedLen)

/-- The globals and the port behind the send: the name of the socket was asked for, and a second
socket has taken the place of the first. -/
structure HandedOver (fd port : Int) (s : StunGlobals) (port' : Int) (s' : StunGlobals) : Prop where
  port : port' = port ∨ 0 ≤ port'
  isSet : s'.isSet = s.isSet
  udpFd : s'.udpFd = if 0 ≤ fd then fd else s.udpFd

/-- The five ways a call goes. -/
inductive StunclientEnds (args : StunArgs) (env : StunEnv) (port : Int) (rfc5780 : Bool)
    (s : StunGlobals) : StunRun → Prop where
  | exited (hopen : openSockets args env s = none) :
    StunclientEnds args env port rfc5780 s ⟨.exited, [], [], port, rfc5780, s⟩
  | unsent {remoteAddr : IoaAddr} {fd : Int} {s₁ : StunGlobals}
    (hopen : openSockets args env s = some (remoteAddr, fd, s₁))
    (hsend : sendLoop env.sends = none) :
    StunclientEnds args env port rfc5780 s
      ⟨.waiting, [bindingRequest args env], [], port, rfc5780, s₁⟩
  | failed {remoteAddr : IoaAddr} {fd : Int} {s₁ : StunGlobals} {n : Int}
    (hopen : openSockets args env s = some (remoteAddr, fd, s₁))
    (hsend : sendLoop env.sends = some n) (hn : n < 0) :
    StunclientEnds args env port rfc5780 s
      ⟨.returned (-1), [bindingRequest args env], [], port, rfc5780, s₁⟩
  | unanswered {remoteAddr : IoaAddr} {fd : Int} {s₁ s₂ : StunGlobals} {n port' : Int}
    (hopen : openSockets args env s = some (remoteAddr, fd, s₁))
    (hsend : sendLoop env.sends = some n) (hn : 0 ≤ n) (hover : HandedOver fd port s₁ port' s₂)
    (hrecv : recvLoop env.recvs = none) :
    StunclientEnds args env port rfc5780 s
      ⟨.waiting, [bindingRequest args env], [], port', rfc5780, s₂⟩
  | answered {remoteAddr : IoaAddr} {fd : Int} {s₁ s₂ : StunGlobals} {n port' : Int}
    {outcome : RecvOutcome} {r : Bool × List AddressReport} {counter : Nat}
    (hopen : openSockets args env s = some (remoteAddr, fd, s₁))
    (hsend : sendLoop env.sends = some n) (hn : 0 ≤ n) (hover : HandedOver fd port s₁ port' s₂)
    (hrecv : recvLoop env.recvs = some outcome)
    (hread : r = readResponse s₂ remoteAddr (receivedIn (bindingRequest args env) outcome).1
      (receivedIn (bindingRequest args env) outcome).2) :
    StunclientEnds args env port rfc5780 s
      ⟨.returned 0, [bindingRequest args env], r.2, port', rfc5780 || r.1,
        { s₂ with counter := counter }⟩

theorem runStunclient_ends (args : StunArgs) (env : StunEnv) (port : Int) (rfc5780 : Bool)
    (s : StunGlobals) :
    StunclientEnds args env port rfc5780 s (runStunclient args env port rfc5780 s) := by
  unfold runStunclient
  cases hopen : openSockets args env s with
  | none => exact .exited hopen
  | some opened =>
    obtain ⟨remoteAddr, fd, s₁⟩ := opened
    simp only
    cases hsend : sendLoop env.sends with
    | none => exact .unsent hopen hsend
    | some n =>
      simp only
      by_cases hn : n < 0
      · rw [if_pos hn]
        exact .failed hopen hsend hn
      · rw [if_neg hn]
        generalize hnamed : (match env.sockName with
          | none => (port, s₁)
          | some addr => ((addrGetPort addr : Int), { s₁ with realLocalAddr := addr })) = named
        have hover : HandedOver fd port s₁ named.1
            (if 0 ≤ fd then { named.2 with udpFd := fd } else named.2) := by
          rw [← hnamed]
          cases env.sockName with
          | none =>
            refine ⟨Or.inl rfl, ?_, ?_⟩ <;> split <;> rfl
          | some addr =>
            refine ⟨Or.inr (Int.natCast_nonneg _), ?_, ?_⟩ <;> split <;> rfl
        cases hrecv : recvLoop env.recvs with
        | none => exact .unanswered hopen hsend (by omega) hover hrecv
        | some outcome =>
          cases outcome with
          | failed errno => exact .answered hopen hsend (by omega) hover hrecv rfl
          | datagram bytes => exact .answered hopen hsend (by omega) hover hrecv rfl

/-- The datagram as the tests behind the receive see it. -/
theorem agreeBelow_receivedIn (m : StunBuffer) (bytes : List Byte) :
    AgreeBelow (bytes.take maxStunMessageSize).length (receivedIn m (.datagram bytes)).1
      (ofList (bytes.take maxStunMessageSize)) :=
  agreeBelow_write m.buf (bytes.take maxStunMessageSize)

/-- When a call reports the reflexive address, and as what. -/
theorem mem_reports_iff (args : StunArgs) (env : StunEnv) (port : Int) (rfc5780 : Bool)
    (s : StunGlobals) (rep : AddressReport) :
    rep ∈ (runStunclient args env port rfc5780 s).reports ∧ rep.cb = .reflexive ∧
        rep.type = reflexiveIpType ↔
      s.isSet .reflexive = true ∧ (openSockets args env s).isSome ∧
        (∃ n, sendLoop env.sends = some n ∧ 0 ≤ n) ∧
        ∃ bytes addr, receivedDatagram env = some bytes ∧
          isBindingSuccess (ofList bytes) bytes.length = true ∧
          firstMappedAddress (ofList bytes) bytes.length = some addr ∧
          rep = ⟨.reflexive, reflexiveIpType, notifiedText addr, addr.port.toNat⟩ := by
  have hends := runStunclient_ends args env port rfc5780 s
  generalize runStunclient args env port rfc5780 s = run at hends
  cases hends with
  | exited hopen => simp [hopen]
  | unsent hopen hsend => simp [hsend]
  | failed hopen hsend hn =>
    simp only [List.not_mem_nil, false_and, hsend, Option.some.injEq, exists_eq_left', false_iff]
    intro h
    have hn' := h.2.2.1
    omega
  | unanswered hopen hsend hn hover hrecv => simp [receivedDatagram, hrecv]
  | answered hopen hsend hn hover hrecv hread =>
    rename_i remoteAddr fd s₁ s₂ n port' outcome r counter
    have hset : s₂.isSet = s.isSet := hover.isSet.trans (openSockets_opened hopen).isSet
    simp only [hread, mem_readResponse_iff, hset, hopen, Option.isSome_some, hsend,
      Option.some.injEq, exists_eq_left', hn, true_and, receivedDatagram, hrecv]
    cases outcome with
    | failed errno => simp [receivedIn, isBindingSuccess_failedLen]
    | datagram bytes =>
      have hagree := agreeBelow_receivedIn (bindingRequest args env) bytes
      apply and_congr_right
      intro _
      constructor
      · intro h
        obtain ⟨hsucc, addr, haddr, hrep⟩ := h
        exact ⟨_, addr, rfl, hagree.bindingSuccess ▸ hsucc, hagree.firstMapped ▸ haddr, hrep⟩
      · intro h
        obtain ⟨_, addr, hbytes, hsucc, haddr, hrep⟩ := h
        cases hbytes
        exact ⟨hagree.bindingSuccess ▸ hsucc, addr, hagree.firstMapped ▸ haddr, hrep⟩

theorem sent_of_openSockets {args : StunArgs} {env : StunEnv} {s : StunGlobals}
    (h : (openSockets args env s).isSome) (port : Int) (rfc5780 : Bool) :
    (runStunclient args env port rfc5780 s).sent = [bindingRequest args env] := by
  have hends := runStunclient_ends args env port rfc5780 s
  generalize runStunclient args env port rfc5780 s = run at hends
  cases hends with
  | exited hopen => simp [hopen] at h
  | unsent hopen hsend => rfl
  | failed hopen hsend hn => rfl
  | unanswered hopen hsend hn hover hrecv => rfl
  | answered hopen hsend hn hover hrecv hread => rfl

theorem stunclient_reports_own_answer_iff (args : StunArgs) (env : StunEnv) (port : Int)
    (rfc5780 : Bool) (s : StunGlobals) :
    ReportsOwnAnswer env (runStunclient args env port rfc5780 s) ↔ AnsweredOverIpv4 args env s := by
  have hreports := mem_reports_iff args env port rfc5780 s
  constructor
  · intro h hset hopen hsend bytes addr hrecv hsucc haddr
    obtain ⟨hmem, hcb, htype⟩ := (hreports ⟨.reflexive, reflexiveIpType, notifiedText addr,
      addr.port.toNat⟩).mpr ⟨hset, hopen, hsend, bytes, addr, hrecv, hsucc, haddr, rfl⟩
    obtain ⟨bytes', hrecv', hown⟩ := h _ hmem hcb htype
    rw [hrecv] at hrecv'
    cases hrecv'
    obtain ⟨m, hm, htid⟩ := hown.tid
    rw [sent_of_openSockets hopen, List.mem_singleton] at hm
    subst hm
    obtain ⟨addr', haddr', htext, _⟩ := hown.address
    rw [haddr] at haddr'
    cases haddr'
    refine ⟨htid.trans (bindingRequest_tid args env), ?_⟩
    exact (notifiedText_eq_addrText_iff (firstMappedAddress_family haddr)).mp htext
  · intro h rep hmem hcb htype
    obtain ⟨hset, hopen, hsend, bytes, addr, hrecv, hsucc, haddr, hrep⟩ :=
      (hreports rep).mp ⟨hmem, hcb, htype⟩
    obtain ⟨htid, hfam⟩ := h hset hopen hsend bytes addr hrecv hsucc haddr
    have htext := (notifiedText_eq_addrText_iff (firstMappedAddress_family haddr)).mpr hfam
    refine ⟨bytes, hrecv, hsucc, ⟨bindingRequest args env, ?_, ?_⟩, addr, haddr, ?_, ?_⟩
    · rw [sent_of_openSockets hopen]
      exact List.mem_singleton_self _
    · rw [bindingRequest_tid]
      exact htid
    · rw [hrep]
      exact htext
    · rw [hrep]

/-- A Binding success response with transaction id zero and the address 198.51.100.7:54321. -/
def strayBindingSuccess : List Byte :=
  [0x01, 0x01, 0x00, 0x0C, 0x21, 0x12, 0xA4, 0x42] ++ List.replicate 12 0 ++
    [0x00, 0x20, 0x00, 0x08, 0x00, 0x01, 0xF5, 0x23, 0xE7, 0x21, 0xC0, 0x45]

/-- A call to 192.0.2.1 that draws the transaction id 1..12 and then receives the stray response. -/
def strayEnv : StunEnv where
  resolver := ⟨fun _ => some 0xC0000201, fun _ => none, fun _ => none⟩
  socketFd := 3
  bindRet := 0
  newSocketFd := -1
  newBindRet := -1
  buf := fun _ => 0
  tid := countingTid
  sends := [.sent 20]
  sockName := none
  recvs := [.datagram strayBindingSuccess]

def strayRun : StunRun :=
  runStunclient ⟨[0x31], 3478, -1, false, false, false⟩ strayEnv (-1) false
    ⟨-1, IoaAddr.any, 0, fun _ => true⟩

theorem stray_response_reported : ¬ ReportsOwnAnswer strayEnv strayRun := by
  intro h
  have hmem : (⟨.reflexive, 3, InetText.inetNtop4 0xC6336407, 54321⟩ : AddressReport) ∈
      strayRun.reports := by decide +kernel
  obtain ⟨bytes, hrecv, hown⟩ := h _ hmem rfl rfl
  have hbytes : receivedDatagram strayEnv = some strayBindingSuccess := by decide +kernel
  rw [hbytes] at hrecv
  cases hrecv
  obtain ⟨m, hm, htid⟩ := hown.tid
  have hsent : ∀ m ∈ strayRun.sent.map fun m => stunTidFromMessageStr m.buf,
      stunTidFromMessageStr (ofList strayBindingSuccess) ≠ m := by decide +kernel
  exact hsent _ (List.mem_map_of_mem hm) htid

end TurnClient
