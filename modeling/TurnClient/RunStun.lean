import TurnClient.StunClient

/-!
# A STUN test from its sockets

`run_stun` of `stun_manager.c`: one call of `run_stunclient`, and two more for a
server that follows RFC 5780 or when they are forced. The second call opens a
socket for the response port and hands it over to the global one behind the
send; the last thing done is to close the global socket.
-/

namespace TurnClient

open ByteMemory
set_option autoImplicit false

inductive SocketEvent where
  | opened (fd : Int)
  | closed (fd : Int)
deriving DecidableEq

def openings (s s' : StunGlobals) (newUdpFd : Int) : List SocketEvent :=
  (if s.udpFd < 0 then [.opened s'.udpFd] else []) ++
    (if 0 ≤ newUdpFd then [.opened newUdpFd] else [])

/-- The sockets one call of `run_stunclient` opens and closes, in this order. -/
def socketEvents (args : StunArgs) (env : StunEnv) (s : StunGlobals) : List SocketEvent :=
  match openSockets args env s with
  | none => []
  | some (_, newUdpFd, s') =>
    match sendLoop env.sends with
    | none => openings s s' newUdpFd
    | some len =>
      if len < 0 then openings s s' newUdpFd
      else if 0 ≤ newUdpFd then openings s s' newUdpFd ++ [.closed s'.udpFd]
      else openings s s' newUdpFd

/-- One call of `run_stun`: its arguments, the globals `local_addr` and `forceRfc5780`, and what
the three calls get from outside. -/
structure StunTest where
  rip : List Byte
  rport : Int
  localAddr : List Byte
  forceRfc5780 : Bool
  resolver : Resolver
  first : StunEnv
  second : StunEnv
  third : StunEnv

structure StunProgress where
  port : Int
  rfc5780 : Bool
  globals : StunGlobals
  events : List SocketEvent
  reports : List AddressReport

/-- `run_stun` looks at no result of `run_stunclient`. -/
def StunProgress.call (p : StunProgress) (args : StunArgs) (env : StunEnv) :
    Except StunEnd StunProgress :=
  let r := runStunclient args env p.port p.rfc5780 p.globals
  match r.ended with
  | .returned _ =>
    .ok ⟨r.port, r.rfc5780, r.globals, p.events ++ socketEvents args env p.globals,
      p.reports ++ r.reports⟩
  | ended => .error ended

def StunTest.realLocalAddr (t : StunTest) : Except StunEnd IoaAddr :=
  if t.localAddr.isEmpty then .ok IoaAddr.any
  else
    let (rc, addr) := makeIoaAddr t.resolver t.localAddr 0
    if rc < 0 then .error .exited else .ok addr

/-- The second and the third call. -/
def StunTest.changeRequests (t : StunTest) (p : StunProgress) : Except StunEnd StunProgress :=
  if p.rfc5780 || t.forceRfc5780 then do
    let p ← p.call ⟨t.rip, t.rport, p.port + 1, true, true, false⟩ t.second
    p.call ⟨t.rip, t.rport, -1, true, true, true⟩ t.third
  else .ok p

def runStun (t : StunTest) (s : StunGlobals) : Except StunEnd StunProgress := do
  let addr ← t.realLocalAddr
  let p ← StunProgress.call ⟨-1, false, { s with realLocalAddr := addr }, [], []⟩
    ⟨t.rip, t.rport, -1, false, false, false⟩ t.first
  let p ← t.changeRequests p
  .ok { p with events := p.events ++ [.closed p.globals.udpFd],
               globals := { p.globals with udpFd := -1 } }

/-- One test after the other, on the same globals. -/
def runStuns : List StunTest → StunGlobals → Except StunEnd (List StunProgress)
  | [], _ => .ok []
  | t :: ts, s => do
    let p ← runStun t s
    let ps ← runStuns ts p.globals
    .ok (p :: ps)

/-! ## The open sockets -/

/-- The sockets open behind the events; `none` when a socket is closed that is not open. -/
def openAfter : List SocketEvent → List Int → Option (List Int)
  | [], fds => some fds
  | .opened fd :: es, fds => openAfter es (fd :: fds)
  | .closed fd :: es, fds => if fd ∈ fds then openAfter es (fds.erase fd) else none

/-- Every socket that was opened has been closed, and none of them twice. -/
def Balanced (es : List SocketEvent) : Prop := openAfter es [] = some []

instance (es : List SocketEvent) : Decidable (Balanced es) := inferInstanceAs (Decidable (_ = _))

def sendFails (env : StunEnv) : Prop := ∃ len, sendLoop env.sends = some len ∧ len < 0

/-- A Binding success response with a mapped address and with OTHER-ADDRESS. -/
def isRfc5780Response (bytes : List Byte) : Prop :=
  isBindingSuccess (ofList bytes) bytes.length = true ∧
    (firstMappedAddress (ofList bytes) bytes.length).isSome ∧
    ∃ a ∈ attrRefs (ofList bytes) bytes.length, get16 (ofList bytes) a = stunAttributeOtherAddress

def answeredRfc5780 (env : StunEnv) : Prop :=
  ¬ sendFails env ∧ ∃ bytes, receivedDatagram env = some bytes ∧ isRfc5780Response bytes

/-- The send behind the opening of the second socket does not fail. -/
def StunTest.handsOver (t : StunTest) : Prop :=
  t.forceRfc5780 = true ∨ answeredRfc5780 t.first → ¬ sendFails t.second

theorem openAfter_append (es es' : List SocketEvent) (fds : List Int) :
    openAfter (es ++ es') fds = (openAfter es fds).bind (openAfter es') := by
  induction es generalizing fds with
  | nil => rfl
  | cons e es ih =>
    cases e with
    | opened fd => exact ih (fd :: fds)
    | closed fd =>
      rw [List.cons_append, openAfter, openAfter]
      split
      · exact ih (fds.erase fd)
      · rfl

theorem AgreeBelow.rfc5780 {buf buf' : Mem} {len : Nat} (h : AgreeBelow len buf buf') :
    (∃ a ∈ TurnClient.attrRefs buf len, ByteMemory.get16 buf a = stunAttributeOtherAddress) ↔
      ∃ a ∈ TurnClient.attrRefs buf' len, ByteMemory.get16 buf' a = stunAttributeOtherAddress := by
  rw [← h.attrRefs]
  apply exists_congr
  intro a
  apply and_congr_right
  intro ha
  obtain ⟨_, hend, hle⟩ := inMessage_of_mem ha
  rw [h.get16 (by omega)]

/-- What a call that returns has done with the sockets and with the two variables of its caller. -/
structure ClientCall (env : StunEnv) (port : Int) (rfc5780 : Bool) (s s' : StunGlobals) (fd : Int)
    (events : List SocketEvent) (r : StunRun) : Prop where
  port : r.port = port ∨ 0 ≤ r.port
  rfc5780 : r.rfc5780 = true ↔ rfc5780 = true ∨ answeredRfc5780 env
  failed : sendFails env → r.globals.udpFd = s'.udpFd ∧ events = openings s s' fd
  sent : ¬ sendFails env → if 0 ≤ fd
    then r.globals.udpFd = fd ∧ events = openings s s' fd ++ [.closed s'.udpFd]
    else r.globals.udpFd = s'.udpFd ∧ events = openings s s' fd

theorem not_sendFails {env : StunEnv} {n : Int} (hsend : sendLoop env.sends = some n) (hn : 0 ≤ n) :
    ¬ sendFails env := by
  intro hfails
  obtain ⟨len, hlen, hneg⟩ := hfails
  rw [hsend] at hlen
  cases hlen
  omega

theorem socketEvents_failed {args : StunArgs} {env : StunEnv} {s s' : StunGlobals}
    {remoteAddr : IoaAddr} {fd n : Int}
    (hopen : openSockets args env s = some (remoteAddr, fd, s'))
    (hsend : sendLoop env.sends = some n) (hn : n < 0) :
    socketEvents args env s = openings s s' fd := by
  simp only [socketEvents, hopen, hsend, if_pos hn]

theorem socketEvents_sent {args : StunArgs} {env : StunEnv} {s s' : StunGlobals}
    {remoteAddr : IoaAddr} {fd n : Int}
    (hopen : openSockets args env s = some (remoteAddr, fd, s'))
    (hsend : sendLoop env.sends = some n) (hn : 0 ≤ n) :
    socketEvents args env s =
      if 0 ≤ fd then openings s s' fd ++ [.closed s'.udpFd] else openings s s' fd := by
  simp only [socketEvents, hopen, hsend, if_neg (Int.not_lt.mpr hn)]

/-- The answer is recognised from the bytes of the datagram alone. -/
theorem readResponse_rfc5780_iff {env : StunEnv} {outcome : RecvOutcome}
    (hrecv : recvLoop env.recvs = some outcome) (s : StunGlobals) (remoteAddr : IoaAddr)
    (m : StunBuffer) :
    (readResponse s remoteAddr (receivedIn m outcome).1 (receivedIn m outcome).2).1 = true ↔
      ∃ bytes, receivedDatagram env = some bytes ∧ isRfc5780Response bytes := by
  rw [readResponse_fst_iff, receivedDatagram, hrecv]
  cases outcome with
  | failed errno => simp [receivedIn, isBindingSuccess_failedLen]
  | datagram bytes =>
    have hagree := agreeBelow_receivedIn m bytes
    have hlen : (receivedIn m (.datagram bytes)).2 = (bytes.take maxStunMessageSize).length := rfl
    simp only [hlen, hagree.bindingSuccess, hagree.firstMapped, hagree.rfc5780, Option.some.injEq,
      exists_eq_left']
    rfl

theorem runStunclient_returned {args : StunArgs} {env : StunEnv} {port : Int} {rfc5780 : Bool}
    {s : StunGlobals} {rc : Int}
    (h : (runStunclient args env port rfc5780 s).ended = .returned rc) :
    ∃ fd s', OpenedSockets args env s fd s' ∧
      ClientCall env port rfc5780 s s' fd (socketEvents args env s)
        (runStunclient args env port rfc5780 s) := by
  have hends := runStunclient_ends args env port rfc5780 s
  generalize runStunclient args env port rfc5780 s = run at hends h ⊢
  cases hends with
  | exited hopen => cases h
  | unsent hopen hsend => cases h
  | unanswered hopen hsend hn hover hrecv => cases h
  | failed hopen hsend hn =>
    have hfails : sendFails env := ⟨_, hsend, hn⟩
    refine ⟨_, _, openSockets_opened hopen, Or.inl rfl, ?_, ?_, fun hok => absurd hfails hok⟩
    · simp [answeredRfc5780, hfails]
    · exact fun _ => ⟨rfl, socketEvents_failed hopen hsend hn⟩
  | answered hopen hsend hn hover hrecv hread =>
    have hsent := not_sendFails hsend hn
    refine ⟨_, _, openSockets_opened hopen, hover.port, ?_, fun hfails => absurd hfails hsent, ?_⟩
    · rw [Bool.or_eq_true, hread, readResponse_rfc5780_iff hrecv, answeredRfc5780]
      simp [hsent]
    · intro _
      rw [socketEvents_sent hopen hsend hn, hover.udpFd]
      split
      · exact ⟨rfl, rfl⟩
      · exact ⟨rfl, rfl⟩

/-- The open sockets are the global one, if there is one, and so many lost ones. -/
def LostBesides (n : Nat) (s : StunGlobals) (fds : List Int) : Prop :=
  if s.udpFd < 0 then fds.length = n else fds.length = n + 1 ∧ s.udpFd ∈ fds

/-- A call of `run_stunclient` loses a socket when the send behind the second opening fails. -/
def losesSocket (args : StunArgs) (env : StunEnv) : Prop := 0 ≤ args.responsePort ∧ sendFails env

theorem openings_lost {args : StunArgs} {env : StunEnv} {s s' : StunGlobals} {fd : Int}
    (h : OpenedSockets args env s fd s') {n : Nat} {fds : List Int} (hfds : LostBesides n s fds) :
    ∃ held, held.length = n + 1 ∧ s'.udpFd ∈ held ∧
      openAfter (openings s s' fd) fds = some (if 0 ≤ fd then fd :: held else held) := by
  unfold openings
  by_cases hudp : s.udpFd < 0
  · rw [LostBesides, if_pos hudp] at hfds
    refine ⟨s'.udpFd :: fds, by rw [List.length_cons, hfds], List.mem_cons_self, ?_⟩
    rw [if_pos hudp]
    split
    · rfl
    · rfl
  · rw [LostBesides, if_neg hudp] at hfds
    have hsame := h.udpFd
    rw [if_neg hudp] at hsame
    refine ⟨fds, hfds.1, by rw [hsame]; exact hfds.2, ?_⟩
    rw [if_neg hudp]
    split
    · rfl
    · rfl

theorem closing_lost {n : Nat} {fd : Int} {fds : List Int} (hlen : fds.length = n + 1)
    (hmem : fd ∈ fds) : openAfter [.closed fd] fds = some (fds.erase fd) ∧
      (fds.erase fd).length = n := by
  refine ⟨?_, ?_⟩
  · rw [openAfter, if_pos hmem]
    rfl
  · rw [List.length_erase_of_mem hmem, hlen]
    rfl

theorem runStunclient_lost {args : StunArgs} {env : StunEnv} {port : Int} {rfc5780 : Bool}
    {s : StunGlobals} {rc : Int} (h : (runStunclient args env port rfc5780 s).ended = .returned rc)
    {n : Nat} {fds : List Int} (hfds : LostBesides n s fds) :
    ∃ fds' k, openAfter (socketEvents args env s) fds = some fds' ∧
      LostBesides (n + k) (runStunclient args env port rfc5780 s).globals fds' ∧
      0 ≤ (runStunclient args env port rfc5780 s).globals.udpFd ∧
      (k = 0 ↔ ¬ losesSocket args env) := by
  obtain ⟨fd, s', hopened, hcall⟩ := runStunclient_returned h
  obtain ⟨held, hlen, hmem, hafter⟩ := openings_lost hopened hfds
  have hnew := hopened.new
  have hvalid := hopened.valid
  have hnonneg : ¬ s'.udpFd < 0 := by omega
  by_cases hport : 0 ≤ args.responsePort
  · rw [if_pos hport] at hnew
    rw [if_pos hnew.2] at hafter
    by_cases hfails : sendFails env
    · obtain ⟨hudp, hevents⟩ := hcall.failed hfails
      refine ⟨fd :: held, 1, by rw [hevents, hafter], ?_, by omega, ?_⟩
      · rw [LostBesides, hudp, if_neg hnonneg, List.length_cons, hlen]
        exact ⟨rfl, List.mem_cons_of_mem fd hmem⟩
      · simp [losesSocket, hport, hfails]
    · have hsent := hcall.sent hfails
      rw [if_pos hnew.2] at hsent
      obtain ⟨hudp, hevents⟩ := hsent
      have hlen' : (fd :: held).length = n + 1 + 1 := by rw [List.length_cons, hlen]
      obtain ⟨hclose, hclosed⟩ := closing_lost hlen' (List.mem_cons_of_mem fd hmem)
      refine ⟨(fd :: held).erase s'.udpFd, 0, ?_, ?_, by omega, ?_⟩
      · rw [hevents, openAfter_append, hafter, Option.bind_some, hclose]
      · rw [LostBesides, hudp, if_neg (by omega)]
        refine ⟨hclosed, ?_⟩
        by_cases hsame : fd = s'.udpFd
        · rw [hsame, List.erase_cons_head]
          exact hmem
        · exact (List.mem_erase_of_ne hsame).mpr List.mem_cons_self
      · simp [losesSocket, hfails]
  · rw [if_neg hport] at hnew
    rw [if_neg (by omega)] at hafter
    have hkept : (runStunclient args env port rfc5780 s).globals.udpFd = s'.udpFd ∧
        socketEvents args env s = openings s s' fd := by
      by_cases hfails : sendFails env
      · exact hcall.failed hfails
      · have hsent := hcall.sent hfails
        rw [if_neg (by omega)] at hsent
        exact hsent
    refine ⟨held, 0, by rw [hkept.2, hafter], ?_, by omega, ?_⟩
    · rw [LostBesides, hkept.1, if_neg hnonneg]
      exact ⟨hlen, hmem⟩
    · simp [losesSocket, hport]

/-! ## A test and a sequence of tests -/

theorem of_bind_ok {ε α β : Type} {x : Except ε α} {f : α → Except ε β} {b : β}
    (h : (x >>= f) = .ok b) : ∃ a, x = .ok a ∧ f a = .ok b := by
  cases x with
  | error e => cases h
  | ok a => exact ⟨a, rfl, h⟩

/-- Behind what was open before, the test has lost so many sockets. -/
def StunProgress.Lost (p : StunProgress) (fds : List Int) (n : Nat) : Prop :=
  ∃ fds', openAfter p.events fds = some fds' ∧ LostBesides n p.globals fds'

theorem StunProgress.Lost.call {p p' : StunProgress} {fds : List Int} {n : Nat} (hp : p.Lost fds n)
    {args : StunArgs} {env : StunEnv} (h : p.call args env = .ok p') :
    (∃ k, p'.Lost fds (n + k) ∧ (k = 0 ↔ ¬ losesSocket args env)) ∧ 0 ≤ p'.globals.udpFd ∧
      (p'.port = p.port ∨ 0 ≤ p'.port) ∧
      (p'.rfc5780 = true ↔ p.rfc5780 = true ∨ answeredRfc5780 env) := by
  unfold StunProgress.call at h
  simp only at h
  split at h
  · rename_i rc hended
    cases h
    obtain ⟨held, hheld, hlost⟩ := hp
    obtain ⟨fds', k, hafter, hlost', hvalid, hk⟩ := runStunclient_lost hended hlost
    obtain ⟨_, _, _, hcall⟩ := runStunclient_returned hended
    refine ⟨⟨k, ⟨fds', ?_, hlost'⟩, hk⟩, hvalid, hcall.port, hcall.rfc5780⟩
    rw [openAfter_append, hheld]
    exact hafter
  · cases h

theorem changeRequests_lost {t : StunTest} {p p' : StunProgress} {fds : List Int} {n : Nat}
    (hp : p.Lost fds n) (hvalid : 0 ≤ p.globals.udpFd) (hport : -1 ≤ p.port)
    (h : t.changeRequests p = .ok p') :
    (∃ k, p'.Lost fds (n + k) ∧
      (k = 0 ↔ (p.rfc5780 = true ∨ t.forceRfc5780 = true → ¬ sendFails t.second))) ∧
      0 ≤ p'.globals.udpFd := by
  unfold StunTest.changeRequests at h
  simp only [Bool.or_eq_true] at h
  split at h
  · rename_i hmore
    obtain ⟨p₂, hsecond, hthird⟩ := of_bind_ok h
    obtain ⟨⟨k, hp₂, hk⟩, _⟩ := hp.call hsecond
    obtain ⟨⟨k', hp', hk'⟩, hvalid', _⟩ := hp₂.call hthird
    have hnone : k' = 0 := by
      rw [hk']
      simp [losesSocket]
    have hsecondPort : 0 ≤ p.port + 1 := by omega
    refine ⟨⟨k, ?_, ?_⟩, hvalid'⟩
    · rw [hnone] at hp'
      exact hp'
    · rw [hk]
      simp [losesSocket, hsecondPort, hmore]
  · rename_i hmore
    cases h
    exact ⟨⟨0, hp, ⟨fun _ hmore' => absurd hmore' hmore, fun _ => rfl⟩⟩, hvalid⟩

theorem runStun_lost {t : StunTest} {s : StunGlobals} {p : StunProgress} (hs : s.udpFd = -1)
    (h : runStun t s = .ok p) (fds : List Int) :
    p.globals.udpFd = -1 ∧ ∃ fds' k, openAfter p.events fds = some fds' ∧
      fds'.length = fds.length + k ∧ (k = 0 ↔ t.handsOver) := by
  obtain ⟨addr, _, h⟩ := of_bind_ok h
  obtain ⟨p₁, hfirst, h⟩ := of_bind_ok h
  obtain ⟨p₂, hchange, h⟩ := of_bind_ok h
  cases h
  have hinit : StunProgress.Lost ⟨-1, false, { s with realLocalAddr := addr }, [], []⟩ fds
      fds.length := by
    refine ⟨fds, rfl, ?_⟩
    simp [LostBesides, hs]
  obtain ⟨⟨k₁, hp₁, hk₁⟩, hvalid₁, hport₁, hrfc₁⟩ := hinit.call hfirst
  have hnone : k₁ = 0 := by
    rw [hk₁]
    simp [losesSocket]
  have hport : -1 ≤ p₁.port := by
    rcases hport₁ with hport | hport
    · rw [hport]
    · omega
  rw [hnone] at hp₁
  obtain ⟨⟨k, ⟨held, hheld, hlost⟩, hk⟩, hvalid⟩ := changeRequests_lost hp₁ hvalid₁ hport hchange
  rw [LostBesides, if_neg (by omega)] at hlost
  obtain ⟨hclose, hclosed⟩ := closing_lost hlost.1 hlost.2
  refine ⟨rfl, held.erase p₂.globals.udpFd, k, ?_, hclosed, ?_⟩
  · rw [openAfter_append, hheld]
    exact hclose
  · rw [hk, hrfc₁, StunTest.handsOver, or_comm]
    simp

theorem runStuns_lost {ts : List StunTest} {s : StunGlobals} {ps : List StunProgress}
    (hs : s.udpFd = -1) (h : runStuns ts s = .ok ps) (fds : List Int) :
    ∃ fds' k, openAfter (ps.flatMap (·.events)) fds = some fds' ∧ fds'.length = fds.length + k ∧
      (k = 0 ↔ ∀ t ∈ ts, t.handsOver) := by
  induction ts generalizing s ps fds with
  | nil =>
    cases h
    exact ⟨fds, 0, rfl, rfl, by simp⟩
  | cons t ts ih =>
    obtain ⟨p, hp, h⟩ := of_bind_ok h
    obtain ⟨ps', hps, h⟩ := of_bind_ok h
    cases h
    obtain ⟨hudp, fds₁, k, hafter, hlen, hk⟩ := runStun_lost hs hp fds
    obtain ⟨fds₂, k', hafter', hlen', hk'⟩ := ih hudp hps fds₁
    refine ⟨fds₂, k + k', ?_, by omega, ?_⟩
    · rw [List.flatMap_cons, openAfter_append, hafter]
      exact hafter'
    · rw [List.forall_mem_cons, ← hk, ← hk']
      omega

theorem balanced_iff {es : List SocketEvent} {fds : List Int} {k : Nat}
    (h : openAfter es [] = some fds) (hlen : fds.length = ([] : List Int).length + k) :
    Balanced es ↔ k = 0 := by
  rw [Balanced, h, Option.some.injEq, ← List.length_eq_zero_iff, hlen]
  simp

theorem tests_clean_up_iff (ts : List StunTest) (s : StunGlobals) (ps : List StunProgress)
    (hs : s.udpFd = -1) (h : runStuns ts s = .ok ps) :
    List.Forall₂ (fun t p => p.globals.udpFd = -1 ∧ (Balanced p.events ↔ t.handsOver)) ts ps ∧
      (Balanced (ps.flatMap (·.events)) ↔ ∀ t ∈ ts, t.handsOver) := by
  constructor
  · induction ts generalizing s ps with
    | nil =>
      cases h
      exact List.Forall₂.nil
    | cons t ts ih =>
      obtain ⟨p, hp, h⟩ := of_bind_ok h
      obtain ⟨ps', hps, h⟩ := of_bind_ok h
      cases h
      obtain ⟨hudp, fds, k, hafter, hlen, hk⟩ := runStun_lost hs hp []
      refine List.Forall₂.cons ⟨hudp, ?_⟩ (ih p.globals ps' hudp hps)
      rw [balanced_iff hafter hlen, hk]
  · obtain ⟨fds, k, hafter, hlen, hk⟩ := runStuns_lost hs h []
    rw [balanced_iff hafter hlen, hk]

/-- A call to 192.0.2.1 from port 40000 that is not answered; the response port gets socket 4. -/
def unansweredEnv : StunEnv where
  resolver := ⟨fun _ => some 0xC0000201, fun _ => none, fun _ => none⟩
  socketFd := 3
  bindRet := 0
  newSocketFd := 4
  newBindRet := 0
  buf := fun _ => 0
  tid := countingTid
  sends := [.sent 20]
  sockName := some { IoaAddr.any with family := .inet, port := 40000 }
  recvs := [.failed .other]

def forcedTest : StunTest where
  rip := ascii "192.0.2.1"
  rport := 3478
  localAddr := []
  forceRfc5780 := true
  resolver := unansweredEnv.resolver
  first := unansweredEnv
  second := unansweredEnv
  third := unansweredEnv

def stunStart : StunGlobals := ⟨-1, IoaAddr.any, 0, fun _ => true⟩

theorem forced_tests_clean_up :
    ∃ ps, runStuns [forcedTest, forcedTest] stunStart = .ok ps ∧
      Balanced (ps.flatMap (·.events)) := by
  refine ⟨_, rfl, ?_⟩
  rw [(tests_clean_up_iff [forcedTest, forcedTest] stunStart _ rfl rfl).2]
  have hsent : forcedTest.handsOver := by
    intro _ hfails
    obtain ⟨len, hlen, hneg⟩ := hfails
    cases hlen
    exact absurd hneg (by decide)
  simp [hsent]

/-- The network is gone when the second request is sent. -/
def unreachableTest : StunTest :=
  { forcedTest with second := { unansweredEnv with sends := [.failed .other] } }

theorem failed_send_leaves_socket :
    ∃ p, runStun unreachableTest stunStart = .ok p ∧ openAfter p.events [] = some [4] ∧
      ¬ Balanced p.events := by
  exact ⟨_, rfl, by decide, by decide⟩

end TurnClient
