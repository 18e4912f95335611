import TurnClient.BindReal

/-!
# Starting and binding the client

`start_p2p_client` and `bind_client` of `p2p_client.c` over the session table
`elems` and the event base of the client. A call that waits for the server, or
in which the process ends or crashes, does not return; a run is a list of calls
of which each is made after the one before has returned.
-/

namespace TurnClient

open ByteMemory
set_option autoImplicit false

inductive UrState where
  | unknown
  | ready
  | done
deriving DecidableEq

/-- `app_ur_session`. The last two fields record which of the network
operations made for it have succeeded. -/
structure Session where
  pinfo : ConnInfo
  state : UrState
  chnum : BitVec 16
  inputEv : Option Nat
  connected : Bool
  allocated : Bool

/-- `elems` is NULL or a table whose first slot may not be filled yet. Event
bases are numbered; `alive` are the ones not freed. -/
structure P2p where
  elems : Option (Option Session)
  clientEventBase : Option Nat
  bases : Nat
  alive : List Nat
  shared : Client

def P2p.init : P2p where
  elems := none
  clientEventBase := none
  bases := 0
  alive := []
  shared := Client.init

inductive Outcome where
  | returned (rc : Int)
  | waiting
  | exited
  | crashed
deriving DecidableEq

/-! ## Connections -/

def getAllocateAddressFamily (relayAddr : IoaAddr) : AddressFamilyValue :=
  match relayAddr.family with
  | .inet => .default
  | .inet6 => .ipv6
  | _ => .invalid

structure Connection where
  outcome : Outcome
  client : Client
  connected : Bool
  allocated : Bool

def connectAndAllocate (g : Globals) (af : AddressFamilyValue) (c : Choice) (cs : List Choice)
    (s : Client) : Connection :=
  let r := clnetConnect c s
  if r.1 < 0 then ⟨.returned (-1), r.2, false, false⟩
  else
    match clnetAllocate g af cs r.2 with
    | .again _ s => ⟨.waiting, s, true, false⟩
    | .stop (.rc n) s =>
      if n < 0 then ⟨.returned (-1), s, true, false⟩ else ⟨.returned 0, s, true, true⟩
    | .stop .exited s => ⟨.exited, s, true, false⟩
    | .stop .undef s => ⟨.crashed, s, true, false⟩

def startFamily (s : Client) : AddressFamilyValue :=
  if s.defaultAddressFamily ≠ .default then s.defaultAddressFamily
  else getAllocateAddressFamily s.peerAddr

def startConnection (g : Globals) (c : Choice) (cs : List Choice) (s : Client) : Connection :=
  let r := connectAndAllocate g (startFamily s) c cs s
  if r.outcome = .returned 0 then
    { r with client := { r.client with info := { r.client.info with peerAddr := s.peerAddr } } }
  else r

def startC2cConnection (g : Globals) (c : Choice) (cs : List Choice) (s : Client) : Connection :=
  connectAndAllocate g s.defaultAddressFamily c cs s

/-! ## `refresh_channel` -/

/-- Its Refresh request: no mobility ticket, and the lifetime it is given. -/
def refreshChannelRequest (g : Globals) (c : Choice) (lt : BitVec 32) : StunBuffer :=
  let m := stunInitRequestStr stunMethodRefresh (c.junk 0) c.tid
  let m := (stunAttrAddBytes m stunAttributeLifetime (be32 lt)).2
  let t := c.random 2 % 256 % 3
  if g.dualAllocation && !g.mobility && t ≠ 0 then
    (stunAttrAddBytes m stunAttributeRequestedAddressFamily
      [if t = 1 then addressFamilyValueIpv4 else addressFamilyValueIpv6, 0, 0, 0]).2
  else m

def refreshPart (g : Globals) (c : Choice) (wanted : Bool) (method : BitVec 16) (m : StunBuffer)
    (ci : ConnInfo) (rest : ConnInfo → List (BitVec 16 × StunBuffer) × ConnInfo) :
    List (BitVec 16 × StunBuffer) × ConnInfo :=
  if wanted then
    let (rc, ci, m) := finishRequest g c ci m
    if rc < 0 then ([], ci)
    else
      let (sent, ci) := rest ci
      ((method, m) :: sent, ci)
  else rest ci

/-- The requests sent; `method = 0` asks for all. The three choices are those of the three requests. -/
def refreshChannel (g : Globals) (c₁ c₂ c₃ : Choice) (elem : Session) (method : BitVec 16)
    (lt : BitVec 32) : List (BitVec 16 × StunBuffer) × ConnInfo :=
  let ci := elem.pinfo
  let peer := lt ≠ 0 && !addrAny elem.pinfo.peerAddr
  refreshPart g c₁ (method = 0 || method = stunMethodRefresh) stunMethodRefresh
    (refreshChannelRequest g c₁ lt) ci fun ci =>
  refreshPart g c₂ (peer && !g.noPermissions && (method = 0 || method = stunMethodCreatePermission))
    stunMethodCreatePermission (createPermissionRequest c₂ [elem.pinfo.peerAddr]) ci fun ci =>
  refreshPart g c₃ (peer && (method = 0 || method = stunMethodChannelBind) &&
      stunValidChannel elem.chnum) stunMethodChannelBind
    (stunSetChannelBindRequestStr c₃ (some elem.pinfo.peerAddr) elem.chnum).2 ci fun ci => ([], ci)

def discardsChannelData (elem : Session) (chnumber : BitVec 16) : Bool := elem.chnum ≠ chnumber

/-! ## Starting -/

def readySession (r : Connection) (base : Option Nat) : Session where
  pinfo := r.client.info
  state := .ready
  chnum := 0
  inputEv := base
  connected := r.connected
  allocated := r.allocated

structure StartChoices where
  connect : Choice
  allocate : List Choice
  refresh₁ : Choice
  refresh₂ : Choice
  refresh₃ : Choice

def startClient (g : Globals) (ch : StartChoices) (p : P2p) : Outcome × P2p :=
  let r := startConnection g ch.connect ch.allocate { p.shared with info := ConnInfo.init }
  let p := { p with shared := r.client }
  if r.outcome = .returned 0 then
    let ss := readySession r p.clientEventBase
    let (sent, pinfo) := refreshChannel g ch.refresh₁ ch.refresh₂ ch.refresh₃ ss 0 600
    (.returned 0, { p with
      elems := p.elems.map fun _ => some { ss with pinfo := pinfo }
      shared := { p.shared with sent := p.shared.sent ++ sent.map Prod.snd } })
  else (r.outcome, p)

/-- The result of `start_c2c_connection` is not looked at. -/
def startC2c (g : Globals) (ch : StartChoices) (p : P2p) : Outcome × P2p :=
  let r := startC2cConnection g ch.connect ch.allocate { p.shared with info := ConnInfo.init }
  let p := { p with shared := r.client }
  match r.outcome with
  | .returned _ =>
    (.returned 0, { p with elems := p.elems.map fun _ => some (readySession r p.clientEventBase) })
  | o => (o, p)

def startP2pClient (g : Globals) (c2c : Bool) (ch : StartChoices) (p : P2p) : Outcome × P2p :=
  let p := { p with
    elems := some none
    clientEventBase := some p.bases
    bases := p.bases + 1
    alive := p.bases :: p.alive }
  let r := if c2c then startC2c g ch p else startClient g ch p
  match r.1 with
  | .returned rc =>
    if rc < 0 then (.returned 0, { r.2 with elems := none })
    else
      match r.2.clientEventBase with
      | some b =>
        (.returned 0, { r.2 with clientEventBase := none, alive := r.2.alive.filter (· ≠ b) })
      | none => (.returned 0, r.2)
  | o => (o, r.2)

/-! ## Binding -/

/-- The session `bind_client` works on: it reads the table without testing it. -/
def bindTarget (p : P2p) : Option Session := p.elems.getD none

structure BindArgs where
  g : Globals
  env : Resolver
  c2c : Bool
  address : List Byte
  port : Int
  choices : List Choice

/-- `none` for the result of `bind_real` is a crash before it is entered. -/
def bindClient (a : BindArgs) (p : P2p) : Option (Drive.Turn BindRealPc Client BindEnd) × P2p :=
  match bindTarget p with
  | none => (none, p)
  | some ss =>
    let t := bindReal a.g a.env a.c2c a.address a.port a.choices { p.shared with info := ss.pinfo }
    (some t, { p with elems := some (some { ss with pinfo := t.state.info }), shared := t.state })

def bindReturned : Option (Drive.Turn BindRealPc Client BindEnd) → Bool
  | some (.stop .exited _) => false
  | some (.stop .undef _) => false
  | some (.stop _ _) => true
  | _ => false

inductive P2pCall where
  | start (g : Globals) (c2c : Bool) (ch : StartChoices)
  | bind (a : BindArgs)

def P2pCall.next (call : P2pCall) (p : P2p) : Option P2p :=
  match call with
  | start g c2c ch =>
    match startP2pClient g c2c ch p with
    | (.returned _, p') => some p'
    | _ => none
  | bind a => if bindReturned (bindClient a p).1 then some (bindClient a p).2 else none

def runCalls : List P2pCall → P2p → Option P2p
  | [], p => some p
  | call :: rest, p => (call.next p).bind (runCalls rest)

/-! ## What a start can do -/

def NetworkFails (g : Globals) (ch : StartChoices) (s : Client) : Prop :=
  ch.connect.connectRet < 0 ∨
    (¬ch.connect.connectRet < 0 ∧ ∃ n s', n < 0 ∧
      clnetAllocate g (startFamily s) ch.allocate (clnetConnect ch.connect s).2 = .stop (.rc n) s')

def StartFails (g : Globals) (c2c : Bool) (ch : StartChoices) (p : P2p) : Prop :=
  c2c = false ∧ NetworkFails g ch { p.shared with info := ConnInfo.init }

theorem clnetConnect_ret (c : Choice) (s : Client) :
    (clnetConnect c s).1 < 0 ↔ c.connectRet < 0 := by
  unfold clnetConnect
  simp only
  split <;> simp [*]

theorem connectAndAllocate_returned {g : Globals} {af : AddressFamilyValue} {c : Choice}
    {cs : List Choice} {s : Client} {rc : Int}
    (h : (connectAndAllocate g af c cs s).outcome = .returned rc) : rc = 0 ∨ rc = -1 := by
  unfold connectAndAllocate at h
  simp only at h
  split at h
  · cases h
    exact Or.inr rfl
  split at h
  · cases h
  · split at h <;> cases h
    · exact Or.inr rfl
    · exact Or.inl rfl
  · cases h
  · cases h

theorem startConnection_outcome (g : Globals) (c : Choice) (cs : List Choice) (s : Client) :
    (startConnection g c cs s).outcome = (connectAndAllocate g (startFamily s) c cs s).outcome := by
  unfold startConnection
  simp only
  split <;> rfl

theorem startConnection_fails_iff (g : Globals) (ch : StartChoices) (s : Client) :
    (startConnection g ch.connect ch.allocate s).outcome = .returned (-1) ↔
      NetworkFails g ch s := by
  rw [startConnection_outcome, NetworkFails, connectAndAllocate]
  simp only [clnetConnect_ret]
  by_cases hconn : ch.connect.connectRet < 0
  · simp [hconn]
  · simp only [hconn, if_false, false_or, not_false_eq_true, true_and]
    cases clnetAllocate g (startFamily s) ch.allocate (clnetConnect ch.connect s).2 with
    | again pc s' => simp
    | stop r s' =>
      cases r with
      | rc n =>
        simp only [Drive.Turn.stop.injEq, Ret.rc.injEq]
        split
        · rename_i hn
          simp [hn]
        · rename_i hn
          constructor
          · intro h
            cases h
          · rintro ⟨n', _, hn', rfl, _⟩
            exact absurd hn' hn
      | exited => simp
      | undef => simp

theorem startConnection_returned {g : Globals} {c : Choice} {cs : List Choice} {s : Client}
    {rc : Int} (h : (startConnection g c cs s).outcome = .returned rc) : rc = 0 ∨ rc = -1 := by
  rw [startConnection_outcome] at h
  exact connectAndAllocate_returned h

/-- A start that returns either failed and cleared the table, or it left a
ready session with channel 0 whose event base it has freed. -/
theorem start_cases {g : Globals} {c2c : Bool} {ch : StartChoices} {p p' : P2p}
    (h : (P2pCall.start g c2c ch).next p = some p') :
    (StartFails g c2c ch p ∧ p'.elems = none) ∨
    (¬StartFails g c2c ch p ∧ ∃ ss, p'.elems = some (some ss) ∧ ss.state = .ready ∧
      ss.chnum = 0 ∧ ss.inputEv = some p.bases ∧ p.bases ∉ p'.alive) := by
  cases c2c with
  | true =>
    right
    refine ⟨fun hf => (by cases hf.1), ?_⟩
    simp only [P2pCall.next, startP2pClient, if_true, startC2c] at h
    cases hout : (startC2cConnection g ch.connect ch.allocate
        { p.shared with info := ConnInfo.init }).outcome with
    | returned rc =>
      simp only [hout] at h
      cases h
      exact ⟨_, rfl, rfl, rfl, rfl, by simp⟩
    | waiting => simp [hout] at h
    | exited => simp [hout] at h
    | crashed => simp [hout] at h
  | false =>
    simp only [P2pCall.next, startP2pClient, Bool.false_eq_true, if_false, startClient] at h
    by_cases hzero : (startConnection g ch.connect ch.allocate
        { p.shared with info := ConnInfo.init }).outcome = .returned 0
    · right
      refine ⟨fun hf => ?_, ?_⟩
      · rw [(startConnection_fails_iff g ch _).mpr hf.2] at hzero
        cases hzero
      simp only [hzero, if_true] at h
      cases h
      exact ⟨_, rfl, rfl, rfl, rfl, by simp⟩
    · left
      rw [if_neg hzero] at h
      cases hout : (startConnection g ch.connect ch.allocate
          { p.shared with info := ConnInfo.init }).outcome with
      | returned rc =>
        have hrc : rc = -1 := by
          rcases startConnection_returned hout with rfl | rfl
          · exact absurd hout hzero
          · rfl
        subst hrc
        simp only [hout] at h
        cases h
        exact ⟨⟨rfl, (startConnection_fails_iff g ch _).mp hout⟩, rfl⟩
      | waiting => simp [hout] at h
      | exited => simp [hout] at h
      | crashed => simp [hout] at h

/-! ## A session in use is an allocated session -/

def SessionAllocated (p : P2p) (ss : Session) : Prop :=
  ss.connected = true ∧ ss.allocated = true ∧ ∃ b, ss.inputEv = some b ∧ b ∈ p.alive

def CallLaw (call : P2pCall) (p : P2p) : Prop :=
  match call with
  | .start _ _ _ => ∀ p' ss, call.next p = some p' → bindTarget p' = some ss → ss.state = .ready →
      SessionAllocated p' ss
  | .bind a => (bindClient a p).1.isSome → ∃ ss, p.elems = some (some ss) ∧ ss.state = .ready ∧
      SessionAllocated p ss

def RunLaw : List P2pCall → P2p → Prop
  | [], _ => True
  | call :: rest, p => CallLaw call p ∧ ∀ p', call.next p = some p' → RunLaw rest p'

def EveryStartFails : List P2pCall → P2p → Prop
  | [], _ => True
  | call :: rest, p =>
    (∀ g c2c ch, call = .start g c2c ch → (call.next p).isSome → StartFails g c2c ch p) ∧
      ∀ p', call.next p = some p' → EveryStartFails rest p'

theorem bindClient_null (a : BindArgs) {p : P2p} (h : p.elems = none) :
    bindClient a p = (none, p) := by
  simp [bindClient, bindTarget, h]

theorem runLaw_iff_of_null (calls : List P2pCall) {p : P2p} (hnull : p.elems = none) :
    RunLaw calls p ↔ EveryStartFails calls p := by
  induction calls generalizing p with
  | nil => exact Iff.rfl
  | cons call rest ih =>
    cases call with
    | bind a =>
      have hnone : (P2pCall.bind a).next p = none := by
        simp [P2pCall.next, bindClient_null a hnull, bindReturned]
      constructor
      · intro _
        refine ⟨fun _ _ _ heq => (by cases heq), fun p' hp' => ?_⟩
        rw [hnone] at hp'
        cases hp'
      · intro _
        refine ⟨fun hsome => ?_, fun p' hp' => ?_⟩
        · rw [bindClient_null a hnull] at hsome
          cases hsome
        · rw [hnone] at hp'
          cases hp'
    | start g c2c ch =>
      constructor
      · rintro ⟨hlaw, hrest⟩
        have hfails : ∀ p', (P2pCall.start g c2c ch).next p = some p' →
            StartFails g c2c ch p ∧ p'.elems = none := by
          intro p' hp'
          rcases start_cases hp' with hf | ⟨_, ss, helems, hready, _, hbase, hdead⟩
          · exact hf
          · obtain ⟨_, _, b, hb, halive⟩ := hlaw p' ss hp' (by simp [bindTarget, helems]) hready
            rw [hbase] at hb
            cases hb
            exact absurd halive hdead
        refine ⟨?_, fun p' hp' => (ih (hfails p' hp').2).mp (hrest p' hp')⟩
        rintro _ _ _ ⟨⟩ hsome
        obtain ⟨p', hp'⟩ := Option.isSome_iff_exists.mp hsome
        exact (hfails p' hp').1
      · rintro ⟨hfails, hrest⟩
        have hnull' : ∀ p', (P2pCall.start g c2c ch).next p = some p' → p'.elems = none := by
          intro p' hp'
          rcases start_cases hp' with hf | ⟨hnot, _⟩
          · exact hf.2
          · exact absurd (hfails g c2c ch rfl (by rw [hp']; rfl)) hnot
        refine ⟨fun p' ss hp' htarget => ?_, fun p' hp' => (ih (hnull' p' hp')).mpr (hrest p' hp')⟩
        rw [bindTarget, hnull' p' hp'] at htarget
        cases htarget

theorem session_in_use_allocated_iff (calls : List P2pCall) :
    RunLaw calls P2p.init ↔ EveryStartFails calls P2p.init :=
  runLaw_iff_of_null calls rfl

def noServer : StartChoices where
  connect := { Choice.idle with connectRet := -1 }
  allocate := []
  refresh₁ := Choice.idle
  refresh₂ := Choice.idle
  refresh₃ := Choice.idle

theorem c2c_start_without_server_is_ready :
    ¬RunLaw [.start (Globals.initial constantSsl) true noServer] P2p.init := by
  rintro ⟨hlaw, _⟩
  have hsome : ((P2pCall.start (Globals.initial constantSsl) true noServer).next
      P2p.init).isSome := by decide
  obtain ⟨p', hp'⟩ := Option.isSome_iff_exists.mp hsome
  rcases start_cases hp' with ⟨hf, _⟩ | ⟨_, ss, helems, hready, _, hbase, hdead⟩
  · cases hf.1
  · obtain ⟨_, _, b, hb, halive⟩ := hlaw p' ss hp' (by simp [bindTarget, helems]) hready
    rw [hbase] at hb
    cases hb
    exact hdead halive

/-! ## A bound channel is never usable -/

def ChannelUnset (p : P2p) : Prop := ∀ ss, bindTarget p = some ss → ss.chnum = 0

theorem bindClient_target {a : BindArgs} {p : P2p} {ss : Session}
    (h : bindTarget (bindClient a p).2 = some ss) :
    ∃ ss₀, bindTarget p = some ss₀ ∧ ss.chnum = ss₀.chnum := by
  unfold bindClient at h
  cases ht : bindTarget p with
  | none =>
    simp only [ht] at h
    cases h
  | some ss₀ =>
    simp only [ht] at h
    simp only [bindTarget, Option.getD_some, Option.some.injEq] at h
    exact ⟨ss₀, rfl, by rw [← h]⟩

theorem channelUnset_next {call : P2pCall} {p p' : P2p} (h : ChannelUnset p)
    (hnext : call.next p = some p') : ChannelUnset p' := by
  intro ss hss
  cases call with
  | start g c2c ch =>
    rcases start_cases hnext with ⟨_, hnull⟩ | ⟨_, ss', helems, _, hchn, _⟩
    · rw [bindTarget, hnull] at hss
      cases hss
    · rw [bindTarget, helems] at hss
      cases hss
      exact hchn
  | bind a =>
    simp only [P2pCall.next] at hnext
    split at hnext
    · cases hnext
      obtain ⟨ss₀, hss₀, heq⟩ := bindClient_target hss
      rw [heq]
      exact h ss₀ hss₀
    · cases hnext

theorem channelUnset_runCalls (calls : List P2pCall) {p p' : P2p} (h : ChannelUnset p)
    (hrun : runCalls calls p = some p') : ChannelUnset p' := by
  induction calls generalizing p with
  | nil =>
    cases hrun
    exact h
  | cons call rest ih =>
    rw [runCalls, Option.bind_eq_some_iff] at hrun
    obtain ⟨q, hq, hrest⟩ := hrun
    exact ih (channelUnset_next h hq) hrest

theorem refreshPart_forall {P : BitVec 16 × StunBuffer → Prop} {g : Globals} {c : Choice}
    {wanted : Bool} {method : BitVec 16} {m : StunBuffer} {ci : ConnInfo}
    {rest : ConnInfo → List (BitVec 16 × StunBuffer) × ConnInfo}
    (hown : wanted = true → ∀ m', P (method, m')) (hrest : ∀ ci, ∀ x ∈ (rest ci).1, P x) :
    ∀ x ∈ (refreshPart g c wanted method m ci rest).1, P x := by
  unfold refreshPart
  split
  · rename_i hw
    simp only
    split
    · intro x hx
      cases hx
    · intro x hx
      rcases List.mem_cons.mp hx with rfl | hx
      · exact hown hw _
      · exact hrest _ x hx
  · exact hrest ci

theorem refreshChannel_no_channelBind (g : Globals) (c₁ c₂ c₃ : Choice) {elem : Session}
    (method : BitVec 16) (lt : BitVec 32) (h : stunValidChannel elem.chnum = false) :
    ∀ x ∈ (refreshChannel g c₁ c₂ c₃ elem method lt).1, x.1 ≠ stunMethodChannelBind := by
  have hrefresh : stunMethodRefresh ≠ stunMethodChannelBind := by decide
  have hperm : stunMethodCreatePermission ≠ stunMethodChannelBind := by decide
  unfold refreshChannel
  refine refreshPart_forall (fun _ _ => hrefresh) fun _ => ?_
  refine refreshPart_forall (fun _ _ => hperm) fun _ => ?_
  refine refreshPart_forall (fun hw => ?_) (by simp)
  simp [h] at hw

/-- The channel number a complete `bind_real` got acknowledged: both bindings answered 0. -/
def boundChannel : Option (Drive.Turn BindRealPc Client BindEnd) → Option (BitVec 16)
  | some (.stop (.bound chn) _) => some chn
  | _ => none

theorem boundChannel_valid {a : BindArgs} {p : P2p} {chn : BitVec 16}
    (h : boundChannel (bindClient a p).1 = some chn) : stunValidChannel chn = true := by
  unfold bindClient at h
  cases ht : bindTarget p with
  | none =>
    simp only [ht] at h
    cases h
  | some ss =>
    have hinv := bindReal_inv a.g a.env a.c2c a.address a.port a.choices
      { p.shared with info := ss.pinfo }
    simp only [ht] at h
    cases hrun : bindReal a.g a.env a.c2c a.address a.port a.choices
        { p.shared with info := ss.pinfo } with
    | again pc s =>
      simp only [hrun, boundChannel] at h
      cases h
    | stop r s =>
      rw [hrun] at hinv h
      cases r with
      | bound chn' =>
        cases h
        exact hinv.2 chn rfl
      | _ => cases h

theorem bindClient_chnum {calls : List P2pCall} {p : P2p} {a : BindArgs} {ss : Session}
    (hrun : runCalls calls P2p.init = some p)
    (hss : (bindClient a p).2.elems = some (some ss)) : ss.chnum = 0 := by
  have hunset : ChannelUnset p := channelUnset_runCalls calls (fun ss h => by cases h) hrun
  have htarget : bindTarget (bindClient a p).2 = some ss := by rw [bindTarget, hss]; rfl
  obtain ⟨ss₀, hss₀, heq⟩ := bindClient_target htarget
  rw [heq]
  exact hunset ss₀ hss₀

/-- The session of the table has the channel for its own and is bound to the peer. -/
def ChannelUsable (p : P2p) (chn : BitVec 16) : Prop :=
  ∃ ss, p.elems = some (some ss) ∧ ss.chnum = chn ∧ ss.pinfo.peerAddr = p.shared.peerAddr

theorem not_channelUsable {calls : List P2pCall} {p : P2p} {a : BindArgs} {chn : BitVec 16}
    (hrun : runCalls calls P2p.init = some p) (hvalid : stunValidChannel chn = true) :
    ¬ChannelUsable (bindClient a p).2 chn := by
  rintro ⟨ss, hss, rfl, _⟩
  rw [bindClient_chnum hrun hss] at hvalid
  exact absurd hvalid (by decide)

/-- After a complete binding the channel that was acknowledged is not the
session's: its data is discarded and it is not renewed. -/
theorem bound_channel_never_usable (calls : List P2pCall) (p : P2p) (a : BindArgs)
    (chn : BitVec 16) (hrun : runCalls calls P2p.init = some p)
    (hbound : boundChannel (bindClient a p).1 = some chn) :
    ¬ChannelUsable (bindClient a p).2 chn ∧
      ∀ ss, (bindClient a p).2.elems = some (some ss) →
        discardsChannelData ss chn = true ∧
        ∀ g c₁ c₂ c₃ method lt, ∀ x ∈ (refreshChannel g c₁ c₂ c₃ ss method lt).1,
          x.1 ≠ stunMethodChannelBind := by
  have hnot : ¬ChannelUsable (bindClient a p).2 chn :=
    not_channelUsable hrun (boundChannel_valid hbound)
  refine ⟨hnot, fun ss hss => ?_⟩
  have hzero := bindClient_chnum hrun hss
  constructor
  · have hvalid := boundChannel_valid hbound
    simp only [discardsChannelData, hzero, ne_eq, decide_not, Bool.not_eq_true',
      decide_eq_false_iff_not]
    rintro rfl
    exact absurd hvalid (by decide)
  · intro g c₁ c₂ c₃ method lt
    refine refreshChannel_no_channelBind g c₁ c₂ c₃ method lt ?_
    rw [hzero]
    decide

def openServer : StartChoices where
  connect := Choice.idle
  allocate := [.sends, .receives (responseBytes 0x0103
      [0x00, 0x16, 0x00, 0x08, 0, 1, 0x21, 0x12, 1, 2, 3, 4]), .idle, .sends,
    .receives (responseBytes 0x0104 [])]
  refresh₁ := Choice.idle
  refresh₂ := Choice.idle
  refresh₃ := Choice.idle

def acknowledgedBind : BindArgs where
  g := Globals.initial constantSsl
  env := lanResolver
  c2c := false
  address := lanText
  port := 3478
  choices := [.sends, .receives (responseBytes 0x0109 []), .sends,
    .receives (responseBytes 0x0109 [])]

theorem acknowledged_bind_bound :
    ((runCalls [.start (Globals.initial constantSsl) false openServer] P2p.init).bind fun p =>
      boundChannel (bindClient acknowledgedBind p).1) = some 0x4000 := by
  decide +kernel

theorem acknowledged_channel_discarded :
    ∃ p, runCalls [.start (Globals.initial constantSsl) false openServer] P2p.init = some p ∧
      boundChannel (bindClient acknowledgedBind p).1 = some 0x4000 ∧
      ∀ ss, (bindClient acknowledgedBind p).2.elems = some (some ss) →
        discardsChannelData ss 0x4000 = true := by
  obtain ⟨p, hrun, hbound⟩ := Option.bind_eq_some_iff.mp acknowledged_bind_bound
  refine ⟨p, hrun, hbound, fun ss hss => ?_⟩
  exact ((bound_channel_never_usable _ p acknowledgedBind _ hrun hbound).2 ss hss).1

theorem acknowledged_channel_not_usable :
    ∃ p, runCalls [.start (Globals.initial constantSsl) false openServer] P2p.init = some p ∧
      boundChannel (bindClient acknowledgedBind p).1 = some 0x4000 ∧
      ¬ChannelUsable (bindClient acknowledgedBind p).2 0x4000 := by
  obtain ⟨p, hrun, hbound⟩ := Option.bind_eq_some_iff.mp acknowledged_bind_bound
  exact ⟨p, hrun, hbound, not_channelUsable hrun (by decide)⟩

end TurnClient
