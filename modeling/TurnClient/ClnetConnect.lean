import TurnClient.Transactions

/-!
# Opening the connection to the server

`clnet_connect` of `connect_manager.c` with `socket_connect` and `tls_connect`.
An attempt opens a socket, binds it, connects it and, with `use_secure`, makes
the handshake; it is repeated when the address is in use and when the handshake
fails. The state keeps the descriptors the call has opened and not closed. The
only thing here that closes one is SSL_free, and only over DTLS: the datagram
BIO is made with BIO_CLOSE, while SSL_set_fd makes a BIO that leaves the
descriptor open.
-/

namespace TurnClient

open ByteMemory
set_option autoImplicit false

def maxTlsCycles : Nat := 32

inductive ConnectErrno where
  | einprogress
  | eaddrinuse
  | other (n : Nat)
deriving DecidableEq

/-- What `connect` answers when no signal interrupts it. -/
inductive ConnectResult where
  | ok
  | failed (err : ConnectErrno)
deriving DecidableEq

/-- What SSL_connect and SSL_get_error answer. -/
inductive Handshake where
  | connected
  | wantMore
  | failed
deriving DecidableEq

structure ConnectArgs where
  remotePort : Int
  remoteAddress : List Byte
  ifname : List Byte
  localAddress : List Byte
  isPeer : Bool
  useTcp : Bool
  useSecure : Bool

/-- What the system answers during one turn. -/
structure ConnectChoice where
  env : Resolver
  socketRet : Int
  setsockoptRet : Int
  connect : ConnectResult
  sockName : Option IoaAddr
  ssl : Nat
  handshake : Handshake

/-- The session, how `connect` ended in this attempt, and the descriptors left open so far. -/
structure ConnectState where
  info : ConnInfo
  connect : Option ConnectResult
  openFds : List Int
  notified : List (NotifyType × IoaAddr)

def ConnectState.init (info : ConnInfo) (notified : List (NotifyType × IoaAddr)) : ConnectState :=
  ⟨info, none, [], notified⟩

inductive ConnectPc where
  | startSocket (connectCycle : Nat)
  | tlsConnect (ssl : Nat) (connectCycle : Nat)
deriving DecidableEq

def sockBindToDevice (ifname : List Byte) (setsockoptRet : Int) : Int :=
  if ifname.isEmpty then 0 else if setsockoptRet < 0 then -1 else 0

/-- An address of neither family is refused without a call; `connect_err` is then still zero. -/
def addrConnect (addr : IoaAddr) (r : ConnectResult) : ConnectResult :=
  if addr.family = .inet ∨ addr.family = .inet6 then r else .failed (.other 0)

def socketConnect : ConnectResult → Int
  | .ok => 0
  | .failed .einprogress => 0
  | .failed .eaddrinuse => 1
  | .failed (.other _) => -1

/-- The address to bind to: a loopback address for a peer without one, or the given one, if any. -/
def localAddrFor (a : ConnectArgs) (env : Resolver) (remoteAddr : IoaAddr) : Int × IoaAddr :=
  if a.isPeer ∧ a.localAddress.isEmpty then
    if remoteAddr.family = .inet6 then makeIoaAddr env (ascii "::1") 0
    else makeIoaAddr env (ascii "127.0.0.1") 0
  else if ¬ a.localAddress.isEmpty then makeIoaAddr env a.localAddress 0
  else (0, IoaAddr.any)

def ConnectState.notifyBoth (s : ConnectState) : ConnectState :=
  { s with notified := s.notified ++
    [(.localIp, s.info.localAddr), (.remoteIp, s.info.remoteAddr)] }

def ConnectState.keepAddrs (s : ConnectState) (remoteAddr localAddr : IoaAddr) (clnetFd : Int) :
    ConnectState :=
  { s with info := { s.info with remoteAddr := remoteAddr, localAddr := localAddr, fd := clnetFd } }

/-- The end of an attempt, behind the two addresses: the connection and what the session keeps. -/
def connectAttempt (a : ConnectArgs) (c : ConnectChoice) (connectCycle : Nat)
    (remoteAddr localAddr : IoaAddr) (s : ConnectState) : Drive.Turn ConnectPc ConnectState Ret :=
  let r := addrConnect remoteAddr c.connect
  let s := if a.isPeer then s else { s with connect := some r }
  if ¬ a.isPeer ∧ 0 < socketConnect r then .again (.startSocket connectCycle) s
  else
    let s := s.keepAddrs remoteAddr (c.sockName.getD localAddr) c.socketRet
    if a.useSecure then .again (.tlsConnect c.ssl connectCycle) s
    else .stop (.rc 0) s.notifyBoth

def clnetConnectStep (a : ConnectArgs) (c : ConnectChoice) :
    ConnectPc → ConnectState → Drive.Turn ConnectPc ConnectState Ret
  | .startSocket connectCycle, s =>
    let (rc, remoteAddr) := makeIoaAddr c.env a.remoteAddress a.remotePort
    if rc < 0 then .stop (.rc (-1)) s
    else if c.socketRet < 0 then .stop (.rc (-1)) s
    else
      let s := { s with openFds := c.socketRet :: s.openFds, connect := none }
      if sockBindToDevice a.ifname c.setsockoptRet < 0 then .stop (.rc (-1)) s
      else
        let (rc, localAddr) := localAddrFor a c.env remoteAddr
        if rc < 0 then .stop (.rc (-1)) s
        else connectAttempt a c connectCycle remoteAddr localAddr s
  | .tlsConnect ssl connectCycle, s =>
    match c.handshake with
    | .connected => .stop (.rc 0) { s with info := { s.info with ssl := some ssl } }.notifyBoth
    | .wantMore => .again (.tlsConnect ssl connectCycle) s
    | .failed =>
      if connectCycle < maxTlsCycles then
        let openFds := if a.useTcp then s.openFds else s.openFds.erase s.info.fd
        .again (.startSocket (connectCycle + 1))
          { s with info := { s.info with ssl := none }, openFds := openFds }
      else .stop .exited s

def clnetConnectRun (a : ConnectArgs) (cs : List ConnectChoice) (s : ConnectState) :
    Drive.Turn ConnectPc ConnectState Ret :=
  Drive.run (clnetConnectStep a) cs (.startSocket 0) s

/-! ## What is left open -/

/-- `connect` succeeded or goes on in the background. -/
def reached : ConnectResult → Bool
  | .ok => true
  | .failed .einprogress => true
  | _ => false

/-- With 0 the socket of the session is the only one left open, and it is connected; with -1 none
is left open. -/
def LeavesNoSocket (a : ConnectArgs) (ret : Ret) (s : ConnectState) : Prop :=
  (ret = .rc 0 → s.openFds = [s.info.fd] ∧
    (a.isPeer = true ∨ s.connect.any reached = true)) ∧
  (ret = .rc (-1) → s.openFds = [])

/-- Nothing fails behind the creation of the socket but what an attempt over DTLS makes good. -/
def keepsSockets (a : ConnectArgs) (c : ConnectChoice) : ConnectPc → ConnectState → Prop
  | .startSocket _, _ =>
    let remote := makeIoaAddr c.env a.remoteAddress a.remotePort
    0 ≤ remote.1 → 0 ≤ c.socketRet →
      0 ≤ sockBindToDevice a.ifname c.setsockoptRet ∧
      0 ≤ (localAddrFor a c.env remote.2).1 ∧
      (a.isPeer = false →
        addrConnect remote.2 c.connect ≠ .failed .eaddrinuse ∧
        (a.useSecure = false → reached (addrConnect remote.2 c.connect) = true))
  | .tlsConnect _ connectCycle, s =>
    (c.handshake = .connected → a.isPeer = true ∨ s.connect.any reached = true) ∧
    (c.handshake = .failed → connectCycle < maxTlsCycles → a.useTcp = false)

instance (a : ConnectArgs) (c : ConnectChoice) (pc : ConnectPc) (s : ConnectState) :
    Decidable (keepsSockets a c pc s) :=
  match pc with
  | .startSocket _ => inferInstanceAs (Decidable (_ → _))
  | .tlsConnect _ _ => inferInstanceAs (Decidable (_ ∧ _))

/-- So many descriptors are lost; in a handshake the one of the session is open besides. -/
def LostSockets (n : Nat) : ConnectPc → ConnectState → Prop
  | .startSocket _, s => s.openFds.length = n
  | .tlsConnect _ _, s => s.openFds.length = n + 1 ∧ s.info.fd ∈ s.openFds

theorem socketConnect_pos_iff (r : ConnectResult) :
    0 < socketConnect r ↔ r = .failed .eaddrinuse := by
  cases r with
  | ok => simp [socketConnect]
  | failed err => cases err <;> simp [socketConnect]

theorem one_left_iff {fds : List Int} {fd : Int} {n : Nat} (hlen : fds.length = n + 1)
    (hmem : fd ∈ fds) : fds = [fd] ↔ n = 0 := by
  constructor
  · intro h
    rw [h] at hlen
    simpa using hlen.symm
  · intro h
    rw [h, List.length_eq_one_iff] at hlen
    obtain ⟨fd', rfl⟩ := hlen
    rw [List.mem_singleton.mp hmem]

theorem leavesNoSocket_failed_iff (a : ConnectArgs) (s : ConnectState) :
    LeavesNoSocket a (.rc (-1)) s ↔ s.openFds = [] := by
  simp [LeavesNoSocket]

theorem leavesNoSocket_connected_iff {a : ConnectArgs} {s : ConnectState} {n : Nat}
    (hlen : s.openFds.length = n + 1) (hmem : s.info.fd ∈ s.openFds) :
    LeavesNoSocket a (.rc 0) s ↔
      n = 0 ∧ (a.isPeer = true ∨ s.connect.any reached = true) := by
  rw [← one_left_iff hlen hmem]
  simp [LeavesNoSocket]

/-- A turn that keeps a condition loses no descriptor and one that does not loses one. -/
def CountsLost (a : ConnectArgs) (n : Nat) (ok : Prop) (t : Drive.Turn ConnectPc ConnectState Ret) :
    Prop :=
  t.Holds (fun pc s => (ok ∧ LostSockets n pc s) ∨ (¬ ok ∧ LostSockets (n + 1) pc s))
    fun ret s => (∃ r, ret = .rc r) → (LeavesNoSocket a ret s ↔ n = 0 ∧ ok)

theorem failed_counts {a : ConnectArgs} {n : Nat} {ok : Prop} {s : ConnectState}
    (h : s.openFds = [] ↔ n = 0 ∧ ok) : CountsLost a n ok (.stop (.rc (-1)) s) := by
  intro _
  rw [leavesNoSocket_failed_iff]
  exact h

theorem connected_counts {a : ConnectArgs} {n : Nat} {ok : Prop} {s : ConnectState}
    (hlen : s.openFds.length = n + 1) (hmem : s.info.fd ∈ s.openFds)
    (h : ok ↔ a.isPeer = true ∨ s.connect.any reached = true) :
    CountsLost a n ok (.stop (.rc 0) s.notifyBoth) := by
  intro _
  rw [h]
  exact leavesNoSocket_connected_iff hlen hmem

theorem connectAttempt_counts (a : ConnectArgs) (c : ConnectChoice) (n connectCycle : Nat)
    (remoteAddr localAddr : IoaAddr) (s : ConnectState) (hlen : s.openFds.length = n + 1)
    (hmem : c.socketRet ∈ s.openFds) :
    CountsLost a n
      (a.isPeer = false → addrConnect remoteAddr c.connect ≠ .failed .eaddrinuse ∧
        (a.useSecure = false → reached (addrConnect remoteAddr c.connect) = true))
      (connectAttempt a c connectCycle remoteAddr localAddr s) := by
  unfold connectAttempt
  generalize addrConnect remoteAddr c.connect = r
  simp only [socketConnect_pos_iff]
  cases hpeer : a.isPeer with
  | true =>
    simp only [not_true_eq_false, false_and, if_true, if_false]
    cases hsecure : a.useSecure with
    | true => exact Or.inl ⟨fun h => (by cases h), hlen, hmem⟩
    | false =>
      apply connected_counts
      · exact hlen
      · exact hmem
      · simp [hpeer]
  | false =>
    by_cases hinuse : r = .failed .eaddrinuse
    · simp only [Bool.false_eq_true, not_false_eq_true, hinuse, and_self, if_true, if_false]
      exact Or.inr ⟨fun h => (h trivial).1 rfl, hlen⟩
    · simp only [Bool.false_eq_true, not_false_eq_true, hinuse, and_false, if_false]
      cases hsecure : a.useSecure with
      | true => exact Or.inl ⟨fun _ => ⟨hinuse, fun h => (by cases h)⟩, hlen, hmem⟩
      | false =>
        apply connected_counts
        · exact hlen
        · exact hmem
        · simp [hpeer, hinuse, ConnectState.keepAddrs]

theorem startSocket_counts (a : ConnectArgs) (c : ConnectChoice) (n connectCycle : Nat)
    (s : ConnectState) (h : s.openFds.length = n) :
    CountsLost a n (keepsSockets a c (.startSocket connectCycle) s)
      (clnetConnectStep a c (.startSocket connectCycle) s) := by
  simp only [clnetConnectStep, keepsSockets]
  generalize makeIoaAddr c.env a.remoteAddress a.remotePort = remote
  obtain ⟨rc, remoteAddr⟩ := remote
  simp only
  by_cases hremote : rc < 0
  · rw [if_pos hremote]
    apply failed_counts
    rw [← h, List.length_eq_zero_iff]
    exact ⟨fun hnil => ⟨hnil, fun hge => by omega⟩, And.left⟩
  rw [if_neg hremote]
  by_cases hsocket : c.socketRet < 0
  · rw [if_pos hsocket]
    apply failed_counts
    rw [← h, List.length_eq_zero_iff]
    exact ⟨fun hnil => ⟨hnil, fun _ hge => by omega⟩, And.left⟩
  rw [if_neg hsocket]
  have hremote' : 0 ≤ rc := by omega
  have hsocket' : 0 ≤ c.socketRet := by omega
  simp only [hremote', hsocket', forall_const]
  by_cases hdevice : sockBindToDevice a.ifname c.setsockoptRet < 0
  · rw [if_pos hdevice]
    apply failed_counts
    simp [hdevice]
  rw [if_neg hdevice]
  by_cases hlocal : (localAddrFor a c.env remoteAddr).1 < 0
  · rw [if_pos hlocal]
    apply failed_counts
    simp [hlocal]
  rw [if_neg hlocal]
  have hdevice' : 0 ≤ sockBindToDevice a.ifname c.setsockoptRet := by omega
  have hlocal' : 0 ≤ (localAddrFor a c.env remoteAddr).1 := by omega
  simp only [hdevice', hlocal', true_and]
  apply connectAttempt_counts
  · simp [h]
  · exact List.mem_cons_self

theorem tlsConnect_counts (a : ConnectArgs) (c : ConnectChoice) (n ssl connectCycle : Nat)
    (s : ConnectState) (hlen : s.openFds.length = n + 1) (hmem : s.info.fd ∈ s.openFds) :
    CountsLost a n (keepsSockets a c (.tlsConnect ssl connectCycle) s)
      (clnetConnectStep a c (.tlsConnect ssl connectCycle) s) := by
  simp only [clnetConnectStep, keepsSockets]
  cases c.handshake with
  | connected =>
    apply connected_counts hlen hmem
    simp
  | wantMore => exact Or.inl ⟨⟨fun h => (by cases h), fun h => (by cases h)⟩, hlen, hmem⟩
  | failed =>
    by_cases hcycle : connectCycle < maxTlsCycles
    · simp only [if_pos hcycle]
      cases htcp : a.useTcp with
      | true => exact Or.inr ⟨fun h => (by cases h.2 trivial hcycle), hlen⟩
      | false =>
        refine Or.inl ⟨⟨fun h => (by cases h), fun _ _ => rfl⟩, ?_⟩
        show (s.openFds.erase s.info.fd).length = n
        rw [List.length_erase_of_mem hmem, hlen]
        rfl
    · simp only [if_neg hcycle]
      intro hret
      obtain ⟨r, hr⟩ := hret
      cases hr

theorem clnetConnectStep_counts (a : ConnectArgs) (n : Nat) (c : ConnectChoice) (pc : ConnectPc)
    (s : ConnectState) (h : LostSockets n pc s) :
    CountsLost a n (keepsSockets a c pc s) (clnetConnectStep a c pc s) := by
  cases pc with
  | startSocket connectCycle => exact startSocket_counts a c n connectCycle s h
  | tlsConnect ssl connectCycle => exact tlsConnect_counts a c n ssl connectCycle s h.1 h.2

theorem leavesNoSocket_iff (a : ConnectArgs) (cs : List ConnectChoice) (info : ConnInfo)
    (notified : List (NotifyType × IoaAddr)) (r : Int) (s' : ConnectState)
    (hstop : clnetConnectRun a cs (ConnectState.init info notified) = .stop (.rc r) s') :
    LeavesNoSocket a (.rc r) s' ↔
      Drive.Along (keepsSockets a) (clnetConnectStep a) cs (.startSocket 0)
        (ConnectState.init info notified) := by
  have hinit : LostSockets 0 (.startSocket 0) (ConnectState.init info notified) := rfl
  rw [Drive.right_iff_along (clnetConnectStep_counts a) cs hinit hstop ⟨r, rfl⟩]
  simp

/-- A resolver that reads every text as 10.0.0.2. -/
def oneServer : Resolver := ⟨fun _ => some 0x0A000002, fun _ => none, fun _ => none⟩

def plainUdp : ConnectArgs where
  remotePort := 3478
  remoteAddress := ascii "10.0.0.2"
  ifname := []
  localAddress := []
  isPeer := false
  useTcp := false
  useSecure := false

def ConnectChoice.answers (fd : Int) (r : ConnectResult) (handshake : Handshake) : ConnectChoice where
  env := oneServer
  socketRet := fd
  setsockoptRet := 0
  connect := r
  sockName := none
  ssl := 1
  handshake := handshake

def dtls : ConnectArgs := { plainUdp with useSecure := true }

def failedHandshake : List ConnectChoice :=
  [.answers 3 .ok .failed, .answers 3 .ok .failed, .answers 4 .ok .connected,
    .answers 4 .ok .connected]

/-- Over DTLS the socket of a failed handshake goes with its TLS object. -/
theorem failed_handshake_leaves_no_socket :
    ∃ s', clnetConnectRun dtls failedHandshake (ConnectState.init ConnInfo.init []) =
      .stop (.rc 0) s' ∧ LeavesNoSocket dtls (.rc 0) s' := by
  refine ⟨_, rfl, ?_⟩
  rw [leavesNoSocket_iff dtls failedHandshake ConnInfo.init [] 0 _ rfl]
  decide

def addressInUse : List ConnectChoice :=
  [.answers 3 (.failed .eaddrinuse) .failed, .answers 4 .ok .failed]

/-- An address in use at the first attempt: the socket of that attempt stays open. -/
theorem address_in_use_leaves_socket :
    ∃ s', clnetConnectRun plainUdp addressInUse (ConnectState.init ConnInfo.init []) =
      .stop (.rc 0) s' ∧ s'.openFds = [4, 3] ∧ ¬ LeavesNoSocket plainUdp (.rc 0) s' := by
  refine ⟨_, rfl, rfl, ?_⟩
  intro h
  cases (h.1 rfl).1

/-! ## One call for the transactions -/

/-- Nothing but the addresses, the descriptor and the TLS object of the session has changed. -/
def SocketPartOnly (info : ConnInfo) (s : ConnectState) : Prop :=
  ∃ localAddr remoteAddr fd ssl, s.info =
    { info with localAddr := localAddr, remoteAddr := remoteAddr, fd := fd, ssl := ssl }

/-- How a call that returns has ended, in the notifications. -/
def Reports (info : ConnInfo) (notified : List (NotifyType × IoaAddr)) (ret : Ret)
    (s : ConnectState) : Prop :=
  SocketPartOnly info s ∧
    ((ret = .rc 0 ∧ s.notified = notified ++
        [(.localIp, s.info.localAddr), (.remoteIp, s.info.remoteAddr)]) ∨
      (ret = .rc (-1) ∧ s.notified = notified) ∨ ret = .exited)

theorem connectAttempt_reports {a : ConnectArgs} {info : ConnInfo}
    {notified : List (NotifyType × IoaAddr)} (c : ConnectChoice) (connectCycle : Nat)
    (remoteAddr localAddr : IoaAddr) {s : ConnectState} (h : SocketPartOnly info s)
    (hnot : s.notified = notified) :
    (connectAttempt a c connectCycle remoteAddr localAddr s).Holds
      (fun _ s' => SocketPartOnly info s' ∧ s'.notified = notified) (Reports info notified) := by
  unfold connectAttempt
  generalize addrConnect remoteAddr c.connect = r
  have hkept : ∃ t : ConnectState, (if a.isPeer then s else { s with connect := some r }) = t ∧
      t.info = s.info ∧ t.notified = notified := by
    cases a.isPeer with
    | true => exact ⟨s, rfl, rfl, hnot⟩
    | false => exact ⟨_, rfl, rfl, hnot⟩
  obtain ⟨t, ht, hinfo, hnott⟩ := hkept
  obtain ⟨localAddr', remoteAddr', fd, ssl, hpart⟩ := h
  rw [← hinfo] at hpart
  simp only [ht]
  split
  · exact ⟨⟨localAddr', remoteAddr', fd, ssl, hpart⟩, hnott⟩
  have haddrs : SocketPartOnly info
      (t.keepAddrs remoteAddr (c.sockName.getD localAddr) c.socketRet) := by
    refine ⟨c.sockName.getD localAddr, remoteAddr, c.socketRet, ssl, ?_⟩
    simp only [ConnectState.keepAddrs, hpart]
  cases a.useSecure with
  | true => exact ⟨haddrs, hnott⟩
  | false => exact ⟨haddrs, Or.inl ⟨rfl, by rw [← hnott]; rfl⟩⟩

theorem clnetConnectStep_reports (a : ConnectArgs) (info : ConnInfo)
    (notified : List (NotifyType × IoaAddr)) (c : ConnectChoice) (pc : ConnectPc) (s : ConnectState)
    (h : SocketPartOnly info s ∧ s.notified = notified) :
    (clnetConnectStep a c pc s).Holds (fun _ s' => SocketPartOnly info s' ∧ s'.notified = notified)
      (Reports info notified) := by
  obtain ⟨hpart, hnot⟩ := h
  have hfailed : ∀ fds r, Reports info notified (.rc (-1)) { s with openFds := fds, connect := r } :=
    fun _ _ => ⟨hpart, Or.inr (Or.inl ⟨rfl, hnot⟩)⟩
  cases pc with
  | startSocket connectCycle =>
    simp only [clnetConnectStep]
    split
    · exact hfailed s.openFds s.connect
    split
    · exact hfailed s.openFds s.connect
    split
    · exact hfailed _ _
    split
    · exact hfailed _ _
    exact connectAttempt_reports c connectCycle _ _ hpart hnot
  | tlsConnect ssl connectCycle =>
    obtain ⟨localAddr, remoteAddr, fd, ssl', hinfo⟩ := hpart
    simp only [clnetConnectStep]
    cases c.handshake with
    | connected =>
      refine ⟨⟨localAddr, remoteAddr, fd, some ssl, ?_⟩, Or.inl ⟨rfl, by rw [← hnot]; rfl⟩⟩
      simp only [ConnectState.notifyBoth, hinfo]
    | wantMore => exact ⟨⟨localAddr, remoteAddr, fd, ssl', hinfo⟩, hnot⟩
    | failed =>
      by_cases hcycle : connectCycle < maxTlsCycles
      · simp only [if_pos hcycle]
        refine ⟨⟨localAddr, remoteAddr, fd, none, ?_⟩, hnot⟩
        simp only [hinfo]
      · simp only [if_neg hcycle]
        exact ⟨⟨localAddr, remoteAddr, fd, ssl', hinfo⟩, Or.inr (Or.inr rfl)⟩

/-- What the transactions see of a call: its result, the new socket part and the notifications. -/
theorem clnetConnectRun_eq_clnetConnect (a : ConnectArgs) (cs : List ConnectChoice) (s : Client)
    (c : Choice) {r : Int} {s' : ConnectState}
    (hstop : clnetConnectRun a cs (ConnectState.init s.info s.notified) = .stop (.rc r) s')
    (hret : c.connectRet = r) (hinfo : c.connected = s'.info) :
    clnetConnect c s = (r, { s with info := s'.info, notified := s'.notified }) := by
  have hinit : SocketPartOnly s.info (ConnectState.init s.info s.notified) :=
    ⟨_, _, _, _, rfl⟩
  have hrun := Drive.run_holds (clnetConnectStep_reports a s.info s.notified) cs
    (b := .startSocket 0) ⟨hinit, rfl⟩
  unfold clnetConnectRun at hstop
  rw [hstop] at hrun
  obtain ⟨⟨localAddr, remoteAddr, fd, ssl, hpart⟩, hend⟩ := hrun
  have hsame : { s.info with localAddr := s'.info.localAddr, remoteAddr := s'.info.remoteAddr,
                             fd := s'.info.fd, ssl := s'.info.ssl } = s'.info := by
    rw [hpart]
  unfold clnetConnect
  simp only [hinfo, hsame]
  rcases hend with ⟨hr, hnot⟩ | ⟨hr, hnot⟩ | hr
  · cases hr
    rw [hret, if_neg (by decide), hnot]
  · cases hr
    rw [hret, if_pos (by decide), hnot]
  · cases hr

end TurnClient
