import TurnClient.Drive
import TurnClient.StunRequests

/-!
# Transactions with the TURN server

The request and response loops of `connect_manager.c`: `clnet_allocate` with
its example Refresh, `turn_channel_bind` and `turn_create_permission`, for
`dos = 0` and `negative_test = 0`. Each loop is a procedure driven by what the
network and the random generator decide; its control points are the places the
source jumps to and the places where it waits for a response.

Next to the session the state keeps logs of what was sent, received, checked
and accepted. `recv_buffer` repeats the last request while it waits; these
repetitions are not logged again.
-/

namespace TurnClient

open ByteMemory
set_option autoImplicit false

/-- `STUN_ATTRIBUTE_REQUESTED_ADDRESS_FAMILY_VALUE_*`. -/
inductive AddressFamilyValue where
  | default
  | ipv4
  | ipv6
  | invalid
deriving DecidableEq

/-- What a procedure ends with: a return code, the end of the process, or a
store outside of the session fields, after which nothing is defined. -/
inductive Ret where
  | rc (n : Int)
  | exited
  | undef
deriving DecidableEq

inductive Handle where
  | fd (n : Int)
  | ssl (n : Nat)
deriving DecidableEq

inductive NotifyType where
  | localIp
  | relayIp
  | remoteIp
deriving DecidableEq

/-- A session with the globals its transactions share, and the logs. -/
structure Client where
  info : ConnInfo
  currentReservationToken : BitVec 64
  allocateRtcp : Bool
  peerAddr : IoaAddr
  peer_known : peerAddr.known = true
  defaultAddressFamily : AddressFamilyValue
  sent : List StunBuffer
  received : List StunBuffer
  checks : List (StunBuffer × Int)
  accepted : List (BitVec 16 × StunBuffer)
  notified : List (NotifyType × IoaAddr)
  released : List Handle

def Client.init : Client where
  info := ConnInfo.init
  currentReservationToken := 0
  allocateRtcp := false
  peerAddr := IoaAddr.any
  peer_known := rfl
  defaultAddressFamily := .default
  sent := []
  received := []
  checks := []
  accepted := []
  notified := []
  released := []

/-! ## Parts every loop uses -/

def Client.send (s : Client) (m : StunBuffer) : Client := { s with sent := s.sent ++ [m] }

def Client.accept (s : Client) (method : BitVec 16) (m : StunBuffer) : Client :=
  { s with accepted := s.accepted ++ [(method, m)] }

/-- `clnet_connect`: whatever happens, the socket part of the session is new. -/
def clnetConnect (c : Choice) (s : Client) : Int × Client :=
  let info := { s.info with localAddr := c.connected.localAddr, remoteAddr := c.connected.remoteAddr,
                            fd := c.connected.fd, ssl := c.connected.ssl }
  if c.connectRet < 0 then (-1, { s with info := info })
  else (0, { s with info := info, notified := s.notified ++
    [(.localIp, info.localAddr), (.remoteIp, info.remoteAddr)] })

/-- The check in front of every acceptance: only sessions with a nonce are authenticated. -/
def Client.authenticate (g : Globals) (c : Choice) (s : Client) (m : StunBuffer) : Int × Client :=
  if nonceSet s.info then
    let r := checkIntegrity g c s.info m
    (r.1, { s with checks := s.checks ++ [(m, r.1)] })
  else (0, s)

/-- A check is logged, and nothing else changes. -/
theorem Client.authenticate_eq (g : Globals) (c : Choice) (s : Client) (m : StunBuffer) :
    ∃ checks, (s.authenticate g c m).2 = { s with checks := checks } := by
  unfold Client.authenticate
  split
  · exact ⟨_, rfl⟩
  · exact ⟨s.checks, rfl⟩

/-- The outcome of `recv_buffer` and of the tests on what it received, in the
order all four loops make them. -/
inductive Response where
  | nothing
  | success (m : StunBuffer) (s : Client)
  | challenge (s : Client)
  | error (code : Int) (m : StunBuffer) (s : Client)
  | unknown (s : Client)
  | overflow

/-- The credentials are overwritten even when the answer of the challenge test is no. -/
def receive (c : Choice) (s : Client) : Response :=
  if c.recvRet ≤ 0 then .nothing
  else
    let m : StunBuffer := ⟨c.recvBuf, c.recvRet.toNat⟩
    let s := { s with received := s.received ++ [m] }
    if stunIsSuccessResponseStr m.buf m.len then .success m s
    else
      let r := stunIsChallengeResponseStr m.buf m.len 0 (some (c.junk 3)) 129 s.info.creds
      if ¬InFields r.stores.written then .overflow
      else
        let s := { s with info := { s.info with creds := r.stores.creds } }
        if r.ret then .challenge s
        else
          let e := stunIsErrorResponseStr m.buf m.len (some r.errCode) r.errMsg 129
          if e.ret then .error (e.errCode.getD r.errCode) m s else .unknown s

def Response.All (P : Client → Prop) : Response → Prop
  | success _ s => P s
  | challenge s => P s
  | error _ _ s => P s
  | unknown s => P s
  | _ => True

theorem receive_all {P : Client → Prop} {s : Client} (c : Choice)
    (h : ∀ m creds, P { s with received := s.received ++ [m],
                               info := { s.info with creds := creds } }) :
    (receive c s).All P := by
  unfold receive
  simp only
  split
  · trivial
  split
  · exact h _ s.info.creds
  split
  · trivial
  split
  · exact h _ _
  split <;> exact h _ _

/-! ## `clnet_allocate` -/

def readMobilityTicket (ci : ConnInfo) (m : StunBuffer) : ConnInfo :=
  match stunAttrGetFirstByTypeStr m.buf m.len stunAttributeMobilityTicket with
  | none => ci
  | some sar =>
    let smid := attrValue m.buf sar
    if 0 < smid.length ∧ smid.length < 33 then
      { ci with sMobileId := write (write ci.sMobileId 0 smid) smid.length [0] }
    else ci

def relayWanted (daf : AddressFamilyValue) (addr : IoaAddr) : Bool :=
  !addrAny addr && ((addr.family == .inet && daf != .ipv6) || (addr.family == .inet6 && daf == .ipv6))

inductive RelayScan where
  | failed
  | missing
  | found (addr : IoaAddr)

/-- The walk over the attributes for a relayed address, with the addresses it reports on the way. -/
def scanRelay (daf : AddressFamilyValue) (buf : Mem) : List Nat → List IoaAddr × RelayScan
  | [] => ([], .missing)
  | sar :: rest =>
    if get16 buf sar = stunAttributeXorRelayedAddress then
      let r := stunAttrGetAddrStr addrMappings buf (some sar) none
      if r.1 < 0 then ([], .failed)
      else if relayWanted daf r.2 then ([r.2], .found r.2)
      else
        let more := scanRelay daf buf rest
        (r.2 :: more.1, more.2)
    else scanRelay daf buf rest

def stunAttrGetReservationTokenValue (buf : Mem) : Option Nat → BitVec 64
  | none => 0
  | some sar => if (get16 buf (sar + 2)).toNat = 8 then get64 buf (sar + 4) else 0

def allocateSucceeded (s : Client) (m : StunBuffer) : Int × Client :=
  let scan := scanRelay s.defaultAddressFamily m.buf (attrRefs m.buf m.len)
  let s := { s with notified := s.notified ++ scan.1.map fun a => (.relayIp, a) }
  match scan.2 with
  | .found addr =>
    let rtSar := stunAttrGetFirstByTypeStr m.buf m.len stunAttributeReservationToken
    let info := readMobilityTicket { s.info with relayAddr := addr } m
    (0, { s with info := info,
                 currentReservationToken := stunAttrGetReservationTokenValue m.buf rtSar }.accept
      stunMethodAllocate m)
  | _ => (-1, s)

def allocateRequest (g : Globals) (af : AddressFamilyValue) (c : Choice) (s : Client) : StunBuffer :=
  let af4 := g.dualAllocation || af == .ipv4
  let af6 := g.dualAllocation || af == .ipv6
  let rt := if !g.noRtcp && s.allocateRtcp then some (be64 s.currentReservationToken) else none
  let ep : Int := if !g.noRtcp && !g.dualAllocation then 1 else 0
  let ep : Int := if g.relayTransport = 6 then -1 else if rt.isSome then -1
    else if ep = 0 then (c.random 3 % 256 % 2 : Nat) - 1 else ep
  let m := (stunSetAllocateRequestStr c uclientSessionLifetime af4 af6 g.relayTransport g.mobility
    rt ep).2
  let m := if g.bps ≠ 0 then (stunAttrAddBandwidthStr m g.bps).2 else m
  if g.dontFragment then (stunAttrAddStr m stunAttributeDontFragment none 0).2 else m

/-- The old handles of a session with a mobility ticket are closed around a
new connection; `none` is the end of the process. -/
def reopenForMobility (c : Choice) (s : Client) : Option Client :=
  if s.info.sMobileId 0 ≠ 0 then
    let closeNow := c.random 0 % 2 = 1
    let closeSocket := c.random 1 % 2 = 1
    -- the variables `fd` and `ssl` of the source after the early close
    let (fd, ssl, released) : Int × Option Nat × List Handle :=
      if closeNow then
        match s.info.ssl with
        | some n =>
          if ¬closeSocket then (-1, some n, [.ssl n])
          else if 0 ≤ s.info.fd then (-1, none, [.fd s.info.fd]) else (s.info.fd, some n, [])
        | none => if 0 ≤ s.info.fd then (-1, none, [.fd s.info.fd]) else (s.info.fd, none, [])
      else (s.info.fd, s.info.ssl, [])
    let (rc, s) := clnetConnect c { s with info := { s.info with fd := -1, ssl := none } }
    if rc < 0 then none
    else
      let late : List Handle := match ssl with
        | some n => [.ssl n]
        | none => if 0 ≤ fd then [.fd fd] else []
      some { s with released := s.released ++ released ++ late }
  else some s

inductive AllocPc where
  | allocate (afCycle : Nat) (reopenSocket : Bool)
  | allocateResponse (afCycle : Nat) (reopenSocket : Bool)
  | allocated
  | refresh (afCycle : Nat)
  | refreshResponse (afCycle : Nat)
deriving DecidableEq

/-- A fresh socket after error 437; `none` is the end of the process. -/
def reopenSocketStep (g : Globals) (c : Choice) (reopenSocket : Bool) (s : Client) :
    Option (Bool × Client) :=
  if reopenSocket && !g.useTcp then
    let (rc, s) := clnetConnect c { s with info := { s.info with fd := -1 },
                                           released := s.released ++ [.fd s.info.fd] }
    if rc < 0 then none else some (false, s)
  else some (reopenSocket, s)

/-- A client behind a new connection: its socket part is the new one, and handles were released. -/
def Client.reconnected (s : Client) (c : Choice) (released : List Handle) : Client :=
  { s with info := { s.info with localAddr := c.connected.localAddr,
                                 remoteAddr := c.connected.remoteAddr,
                                 fd := c.connected.fd, ssl := c.connected.ssl }
           notified := s.notified ++
             [(.localIp, c.connected.localAddr), (.remoteIp, c.connected.remoteAddr)]
           released := s.released ++ released }

/-- What the mobility branch releases, early and late. -/
def mobilityReleases (c : Choice) (info : ConnInfo) : List Handle :=
  match info.ssl with
  | none => if 0 ≤ info.fd then [.fd info.fd] else []
  | some n =>
    if c.random 0 % 2 = 1 then
      if c.random 1 % 2 = 1 then if 0 ≤ info.fd then [.fd info.fd] else [.ssl n]
      else [.ssl n, .ssl n]
    else [.ssl n]

theorem reopenSocketStep_cases {g : Globals} {c : Choice} {reopenSocket reopenSocket' : Bool}
    {s s' : Client} (h : reopenSocketStep g c reopenSocket s = some (reopenSocket', s')) :
    ((reopenSocket = true ∧ g.useTcp = false) ∧ s' = s.reconnected c [.fd s.info.fd]) ∨
      (¬ (reopenSocket = true ∧ g.useTcp = false) ∧ s' = s) := by
  unfold reopenSocketStep clnetConnect at h
  split at h
  · rename_i hreopen
    simp only [Bool.and_eq_true, Bool.not_eq_true'] at hreopen
    refine Or.inl ⟨hreopen, ?_⟩
    by_cases hret : c.connectRet < 0
    · simp [hret] at h
    · simp only [if_neg hret] at h
      cases h
      rfl
  · rename_i hreopen
    simp only [Bool.and_eq_true, Bool.not_eq_true'] at hreopen
    cases h
    exact Or.inr ⟨hreopen, rfl⟩

theorem reopenForMobility_cases {c : Choice} {s s' : Client} (h : reopenForMobility c s = some s') :
    (s.info.sMobileId 0 ≠ 0 ∧ s' = s.reconnected c (mobilityReleases c s.info)) ∨
      (¬ s.info.sMobileId 0 ≠ 0 ∧ s' = s) := by
  unfold reopenForMobility clnetConnect at h
  split at h
  · rename_i hticket
    refine Or.inl ⟨hticket, ?_⟩
    by_cases hret : c.connectRet < 0
    · simp [hret] at h
    · simp only [if_neg hret] at h
      cases h
      simp only [Client.reconnected, List.append_assoc, Client.mk.injEq, List.append_cancel_left_eq,
        true_and]
      -- the draws and the handles, one combination after the other
      unfold mobilityReleases
      cases s.info.ssl with
      | none =>
        by_cases hnow : c.random 0 % 2 = 1
        · by_cases hopen : 0 ≤ s.info.fd
          · simp [hnow, hopen]
          · simp [hnow, hopen]
        · simp [hnow]
      | some n =>
        by_cases hnow : c.random 0 % 2 = 1
        · by_cases hsocket : c.random 1 % 2 = 1
          · by_cases hopen : 0 ≤ s.info.fd
            · simp [hnow, hsocket, hopen]
            · simp [hnow, hsocket, hopen]
          · simp [hnow, hsocket]
        · simp [hnow]
  · rename_i hticket
    cases h
    exact Or.inr ⟨hticket, rfl⟩

/-- One turn of `clnet_allocate`; its callers pass no buffer for an alternate server. -/
def clnetAllocateStep (g : Globals) (af : AddressFamilyValue) (c : Choice) :
    AllocPc → Client → Drive.Turn AllocPc Client Ret
  | .allocate afCycle reopenSocket, s =>
    if 32 ≤ afCycle then .stop .exited s
    else
      match reopenSocketStep g c reopenSocket s with
      | none => .stop .exited s
      | some (reopenSocket, s) =>
        let (rc, info, m) := finishRequest g c s.info (allocateRequest g af c s)
        let s := { s with info := info }
        if rc < 0 then .stop (.rc (-1)) s
        else if c.sendRet ≤ 0 then .stop .exited (s.send m)
        else .again (.allocateResponse (afCycle + 1) reopenSocket) (s.send m)
  | .allocateResponse afCycle reopenSocket, s =>
    match receive c s with
    | .nothing => .again (.allocate afCycle reopenSocket) s
    | .success m s =>
      let (rc, s) := s.authenticate g c m
      if rc < 0 then .stop (.rc (-1)) s
      else
        let (rc, s) := allocateSucceeded s m
        if rc < 0 then .stop (.rc (-1)) s else .again .allocated s
    | .challenge s => .again (.allocate afCycle reopenSocket) s
    | .error code m s =>
      let (rc, s) := if code = 300 then s.authenticate g c m else (0, s)
      if rc < 0 then .stop (.rc (-1)) s
      else if code ≠ 437 then .stop (.rc (-1)) { s with currentReservationToken := 0 }
      else .again (.allocate afCycle true) s
    | .unknown s => .again (.allocateResponse afCycle reopenSocket) s
    | .overflow => .stop .undef s
  | .allocated, s =>
    match reopenForMobility c { s with allocateRtcp := !s.allocateRtcp } with
    | none => .stop .exited s
    | some s => .again (.refresh 0) s
  | .refresh afCycle, s =>
    if 32 < afCycle then .stop .exited s
    else
      let (rc, info, m) := finishRequest g c s.info (refreshRequest g c s.info)
      let s := { s with info := info }
      if rc < 0 then .stop (.rc (-1)) s
      else if c.sendRet ≤ 0 then .stop .exited (s.send m)
      else if s.info.sMobileId 0 ≠ 0 then .again (.refreshResponse (afCycle + 1)) ((s.send m).send m)
      else .again (.refreshResponse (afCycle + 1)) (s.send m)
  | .refreshResponse afCycle, s =>
    match receive c s with
    | .nothing => .stop .exited s
    -- no `check_integrity` here
    | .success m s =>
      .stop (.rc 0) ({ s with info := readMobilityTicket s.info m }.accept stunMethodRefresh m)
    | .challenge s => .again (.refresh afCycle) s
    | .error _ _ s => .stop (.rc (-1)) s
    | .unknown s => .again (.refreshResponse afCycle) s
    | .overflow => .stop .undef s

def clnetAllocate (g : Globals) (af : AddressFamilyValue) (cs : List Choice) (s : Client) :
    Drive.Turn AllocPc Client Ret :=
  Drive.run (clnetAllocateStep g af) cs (.allocate 0 false) s

/-- The ways a turn of `clnet_allocate` goes. A call ends with a zero result in one of them. -/
inductive AllocTurn (g : Globals) (af : AddressFamilyValue) (c : Choice) :
    AllocPc → Client → Drive.Turn AllocPc Client Ret → Prop where
  | ended {pc : AllocPc} {s : Client} {ret : Ret} (hret : ret ≠ .rc 0) :
    AllocTurn g af c pc s (.stop ret s)
  | allocateEnds {afCycle : Nat} {reopenSocket reopenSocket' : Bool} {s t : Client} {rc : Int}
    {info : ConnInfo} {m : StunBuffer} {ret : Ret} {sent : List StunBuffer} (hcycle : afCycle < 32)
    (hreopen : reopenSocketStep g c reopenSocket s = some (reopenSocket', t))
    (hbuilt : finishRequest g c t.info (allocateRequest g af c t) = (rc, info, m))
    (hsent : sent = t.sent ∨ sent = t.sent ++ [m]) (hret : ret ≠ .rc 0) :
    AllocTurn g af c (.allocate afCycle reopenSocket) s
      (.stop ret { t with info := info, sent := sent })
  | allocateSent {afCycle : Nat} {reopenSocket reopenSocket' : Bool} {s t : Client} {rc : Int}
    {info : ConnInfo} {m : StunBuffer} (hcycle : afCycle < 32)
    (hreopen : reopenSocketStep g c reopenSocket s = some (reopenSocket', t))
    (hbuilt : finishRequest g c t.info (allocateRequest g af c t) = (rc, info, m)) :
    AllocTurn g af c (.allocate afCycle reopenSocket) s
      (.again (.allocateResponse (afCycle + 1) reopenSocket')
        { t with info := info, sent := t.sent ++ [m] })
  | allocateUnanswered {afCycle : Nat} {reopenSocket : Bool} {s : Client}
    (hrecv : receive c s = .nothing) :
    AllocTurn g af c (.allocateResponse afCycle reopenSocket) s
      (.again (.allocate afCycle reopenSocket) s)
  | allocateUnchecked {afCycle : Nat} {reopenSocket : Bool} {s t : Client} {m : StunBuffer}
    {ret : Ret} (hrecv : receive c s = .success m t) (hcheck : (t.authenticate g c m).1 < 0)
    (hret : ret ≠ .rc 0) :
    AllocTurn g af c (.allocateResponse afCycle reopenSocket) s
      (.stop ret (t.authenticate g c m).2)
  | allocateUnusable {afCycle : Nat} {reopenSocket : Bool} {s t : Client} {m : StunBuffer}
    {ret : Ret} (hrecv : receive c s = .success m t) (hcheck : ¬ (t.authenticate g c m).1 < 0)
    (hrelay : (allocateSucceeded (t.authenticate g c m).2 m).1 < 0) (hret : ret ≠ .rc 0) :
    AllocTurn g af c (.allocateResponse afCycle reopenSocket) s
      (.stop ret (allocateSucceeded (t.authenticate g c m).2 m).2)
  | allocateTaken {afCycle : Nat} {reopenSocket : Bool} {s t : Client} {m : StunBuffer}
    (hrecv : receive c s = .success m t) (hcheck : ¬ (t.authenticate g c m).1 < 0)
    (hrelay : ¬ (allocateSucceeded (t.authenticate g c m).2 m).1 < 0) :
    AllocTurn g af c (.allocateResponse afCycle reopenSocket) s
      (.again .allocated (allocateSucceeded (t.authenticate g c m).2 m).2)
  | allocateChallenged {afCycle : Nat} {reopenSocket : Bool} {s t : Client}
    (hrecv : receive c s = .challenge t) :
    AllocTurn g af c (.allocateResponse afCycle reopenSocket) s
      (.again (.allocate afCycle reopenSocket) t)
  | allocateRefused {afCycle : Nat} {reopenSocket : Bool} {code : Int} {s t u : Client}
    {m : StunBuffer} {token : BitVec 64} {ret : Ret} (hrecv : receive c s = .error code m t)
    (hcheck : u = t ∨ u = (t.authenticate g c m).2)
    (htoken : token = u.currentReservationToken ∨ token = 0) (hret : ret ≠ .rc 0) :
    AllocTurn g af c (.allocateResponse afCycle reopenSocket) s
      (.stop ret { u with currentReservationToken := token })
  | allocateMismatch {afCycle : Nat} {reopenSocket : Bool} {s t : Client} {m : StunBuffer}
    (hrecv : receive c s = .error 437 m t) :
    AllocTurn g af c (.allocateResponse afCycle reopenSocket) s (.again (.allocate afCycle true) t)
  | allocateUnknown {afCycle : Nat} {reopenSocket : Bool} {s t : Client}
    (hrecv : receive c s = .unknown t) :
    AllocTurn g af c (.allocateResponse afCycle reopenSocket) s
      (.again (.allocateResponse afCycle reopenSocket) t)
  | moved {s t : Client}
    (hmobility : reopenForMobility c { s with allocateRtcp := !s.allocateRtcp } = some t) :
    AllocTurn g af c .allocated s (.again (.refresh 0) t)
  | refreshEnds {afCycle : Nat} {s : Client} {rc : Int} {info : ConnInfo} {m : StunBuffer}
    {ret : Ret} {sent : List StunBuffer} (hcycle : afCycle ≤ 32)
    (hbuilt : finishRequest g c s.info (refreshRequest g c s.info) = (rc, info, m))
    (hsent : sent = s.sent ∨ sent = s.sent ++ [m]) (hret : ret ≠ .rc 0) :
    AllocTurn g af c (.refresh afCycle) s (.stop ret { s with info := info, sent := sent })
  | refreshSent {afCycle : Nat} {s : Client} {rc : Int} {info : ConnInfo} {m : StunBuffer}
    {sent : List StunBuffer} (hcycle : afCycle ≤ 32)
    (hbuilt : finishRequest g c s.info (refreshRequest g c s.info) = (rc, info, m))
    (hsent : sent = s.sent ++ [m] ∨ sent = s.sent ++ [m] ++ [m]) :
    AllocTurn g af c (.refresh afCycle) s
      (.again (.refreshResponse (afCycle + 1)) { s with info := info, sent := sent })
  | refreshTaken {afCycle : Nat} {s t : Client} {m : StunBuffer}
    (hrecv : receive c s = .success m t) :
    AllocTurn g af c (.refreshResponse afCycle) s (.stop (.rc 0)
      ({ t with info := readMobilityTicket t.info m }.accept stunMethodRefresh m))
  | refreshChallenged {afCycle : Nat} {s t : Client} (hrecv : receive c s = .challenge t) :
    AllocTurn g af c (.refreshResponse afCycle) s (.again (.refresh afCycle) t)
  | refreshRefused {afCycle : Nat} {code : Int} {s t : Client} {m : StunBuffer} {ret : Ret}
    (hrecv : receive c s = .error code m t) (hret : ret ≠ .rc 0) :
    AllocTurn g af c (.refreshResponse afCycle) s (.stop ret t)
  | refreshUnknown {afCycle : Nat} {s t : Client} (hrecv : receive c s = .unknown t) :
    AllocTurn g af c (.refreshResponse afCycle) s (.again (.refreshResponse afCycle) t)

theorem clnetAllocateStep_allocate (g : Globals) (af : AddressFamilyValue) (c : Choice)
    (afCycle : Nat) (reopenSocket : Bool) (s : Client) :
    AllocTurn g af c (.allocate afCycle reopenSocket) s
      (clnetAllocateStep g af c (.allocate afCycle reopenSocket) s) := by
  simp only [clnetAllocateStep]
  split
  · exact .ended fun h => (by cases h)
  rename_i hcycle
  cases hreopen : reopenSocketStep g c reopenSocket s with
  | none => exact .ended fun h => (by cases h)
  | some reopened =>
    obtain ⟨reopenSocket', s₁⟩ := reopened
    simp only
    generalize hbuilt : finishRequest g c s₁.info (allocateRequest g af c s₁) = built
    obtain ⟨rc, info, m⟩ := built
    simp only
    split
    · exact .allocateEnds (t := s₁) (by omega) hreopen hbuilt (Or.inl rfl) (by decide)
    split
    · exact .allocateEnds (t := s₁) (by omega) hreopen hbuilt (Or.inr rfl) fun h => (by cases h)
    · exact .allocateSent (t := s₁) (by omega) hreopen hbuilt

theorem clnetAllocateStep_allocateResponse (g : Globals) (af : AddressFamilyValue) (c : Choice)
    (afCycle : Nat) (reopenSocket : Bool) (s : Client) :
    AllocTurn g af c (.allocateResponse afCycle reopenSocket) s
      (clnetAllocateStep g af c (.allocateResponse afCycle reopenSocket) s) := by
  simp only [clnetAllocateStep]
  cases hrecv : receive c s with
  | nothing => exact .allocateUnanswered hrecv
  | success m s₁ =>
    simp only
    by_cases hcheck : (s₁.authenticate g c m).1 < 0
    · rw [if_pos hcheck]
      exact .allocateUnchecked hrecv hcheck (by decide)
    · rw [if_neg hcheck]
      by_cases hrelay : (allocateSucceeded (s₁.authenticate g c m).2 m).1 < 0
      · rw [if_pos hrelay]
        exact .allocateUnusable hrecv hcheck hrelay (by decide)
      · rw [if_neg hrelay]
        exact .allocateTaken hrecv hcheck hrelay
  | challenge s₁ => exact .allocateChallenged hrecv
  | error code m s₁ =>
    simp only
    by_cases hcode : code = 300
    · simp only [if_pos hcode]
      split
      · exact .allocateRefused hrecv (Or.inr rfl) (Or.inl rfl) (by decide)
      · rw [if_pos (by omega)]
        exact .allocateRefused hrecv (Or.inr rfl) (Or.inr rfl) (by decide)
    · simp only [if_neg hcode]
      rw [if_neg (by decide)]
      split
      · exact .allocateRefused hrecv (Or.inl rfl) (Or.inr rfl) (by decide)
      · rename_i hmismatch
        obtain rfl : code = 437 := by omega
        exact .allocateMismatch hrecv
  | unknown s₁ => exact .allocateUnknown hrecv
  | overflow => exact .ended fun h => (by cases h)

theorem clnetAllocateStep_turn (g : Globals) (af : AddressFamilyValue) (c : Choice) (pc : AllocPc)
    (s : Client) : AllocTurn g af c pc s (clnetAllocateStep g af c pc s) := by
  cases pc with
  | allocate afCycle reopenSocket => exact clnetAllocateStep_allocate g af c afCycle reopenSocket s
  | allocateResponse afCycle reopenSocket =>
    exact clnetAllocateStep_allocateResponse g af c afCycle reopenSocket s
  | allocated =>
    simp only [clnetAllocateStep]
    cases hmobility : reopenForMobility c { s with allocateRtcp := !s.allocateRtcp } with
    | none => exact .ended fun h => (by cases h)
    | some s₁ => exact .moved hmobility
  | refresh afCycle =>
    simp only [clnetAllocateStep]
    split
    · exact .ended fun h => (by cases h)
    rename_i hcycle
    generalize hbuilt : finishRequest g c s.info (refreshRequest g c s.info) = built
    obtain ⟨rc, info, m⟩ := built
    simp only
    split
    · exact .refreshEnds (by omega) hbuilt (Or.inl rfl) (by decide)
    split
    · exact .refreshEnds (by omega) hbuilt (Or.inr rfl) fun h => (by cases h)
    split
    · exact .refreshSent (by omega) hbuilt (Or.inr rfl)
    · exact .refreshSent (by omega) hbuilt (Or.inl rfl)
  | refreshResponse afCycle =>
    simp only [clnetAllocateStep]
    cases hrecv : receive c s with
    | nothing => exact .ended fun h => (by cases h)
    | success m s₁ => exact .refreshTaken hrecv
    | challenge s₁ => exact .refreshChallenged hrecv
    | error code m s₁ => exact .refreshRefused hrecv (by decide)
    | unknown s₁ => exact .refreshUnknown hrecv
    | overflow => exact .ended fun h => (by cases h)

/-! ## `turn_channel_bind` -/

inductive BindPc where
  | begBind (chn : BitVec 16)
  | response (chn : BitVec 16)
deriving DecidableEq

/-- One turn; the second part of the result is the channel number the pointer holds then. -/
def turnChannelBindStep (g : Globals) (peer : IoaAddr) (c : Choice) :
    BindPc → Client → Drive.Turn BindPc Client (Ret × BitVec 16)
  | .begBind chn, s =>
    let (chn, m) := stunSetChannelBindRequestStr c (some peer) chn
    let (rc, info, m) := finishRequest g c s.info m
    let s := { s with info := info }
    if rc < 0 then .stop (.rc (-1), chn) s
    else if c.sendRet ≤ 0 then .stop (.rc (-1), chn) (s.send m)
    else .again (.response chn) (s.send m)
  | .response chn, s =>
    match receive c s with
    | .nothing => .stop (.rc (-1), chn) s
    | .success m s =>
      let (rc, s) := s.authenticate g c m
      if rc < 0 then .stop (.rc (-1), chn) s
      else .stop (.rc 0, chn) (s.accept stunMethodChannelBind m)
    | .challenge s => .again (.begBind chn) s
    | .error _ _ s => .stop (.rc (-1), chn) s
    | .unknown s => .again (.response chn) s
    | .overflow => .stop (.undef, chn) s

/-! ## `turn_create_permission` -/

inductive PermissionPc where
  | begCp
  | response
deriving DecidableEq

def turnCreatePermissionStep (g : Globals) (peers : List IoaAddr) (c : Choice) :
    PermissionPc → Client → Drive.Turn PermissionPc Client Ret
  | .begCp, s =>
    if g.noPermissions || peers.isEmpty then .stop (.rc 0) s
    else
      let (rc, info, m) := finishRequest g c s.info (createPermissionRequest c peers)
      let s := { s with info := info }
      if rc < 0 then .stop (.rc (-1)) s
      else if c.sendRet ≤ 0 then .stop .exited (s.send m)
      else .again .response (s.send m)
  | .response, s =>
    match receive c s with
    | .nothing => .stop .exited s
    | .success m s =>
      let (rc, s) := s.authenticate g c m
      if rc < 0 then .stop (.rc (-1)) s
      else .stop (.rc 0) (s.accept stunMethodCreatePermission m)
    | .challenge s => .again .begCp s
    | .error _ _ s => .stop (.rc (-1)) s
    | .unknown s => .again .response s
    | .overflow => .stop .undef s

end TurnClient
