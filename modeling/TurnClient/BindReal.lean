import TurnClient.Transactions

/-!
# Binding a peer

`bind_real` of `connect_manager.c` for `dos = 0` and `extra_requests = 0`: two
channel bindings in a row, or one permission when channels are not used. The
peer is the global `peer_addr`, which only a client that is not in
client-to-client mode sets from the arguments.
-/

namespace TurnClient

open ByteMemory
set_option autoImplicit false

inductive BindRealPc where
  | first (pc : BindPc)
  | second (pc : BindPc)
  | permission (pc : PermissionPc)
deriving DecidableEq

inductive BindEnd where
  | bound (chn : BitVec 16)
  | permitted
  | failed
  | exited
  | undef
deriving DecidableEq

/-- The parse of the arguments; also a failed one overwrites the global. -/
def resolvePeer (env : Resolver) (c2c : Bool) (address : List Byte) (port : Int) (s : Client) :
    Bool × Client :=
  if c2c then (true, s)
  else
    let addr := (makeIoaAddr env address port).2
    let s := { s with peerAddr := addr, peer_known := makeIoaAddr_known env address port }
    if (makeIoaAddr env address port).1 < 0 then (false, s)
    else
      match addr.family with
      | .inet6 => (true, { s with defaultAddressFamily := .ipv6 })
      | .inet => (true, { s with defaultAddressFamily := .ipv4 })
      | _ => (true, s)

def afterBindTurn (resume : BindPc → BindRealPc)
    (onBound : BitVec 16 → Client → Drive.Turn BindRealPc Client BindEnd) :
    Drive.Turn BindPc Client (Ret × BitVec 16) → Drive.Turn BindRealPc Client BindEnd
  | .again pc s => .again (resume pc) s
  | .stop (.rc n, chn) s => if n < 0 then .stop .failed s else onBound chn s
  | .stop (.exited, _) s => .stop .exited s
  | .stop (.undef, _) s => .stop .undef s

def bindRealStep (g : Globals) (c : Choice) :
    BindRealPc → Client → Drive.Turn BindRealPc Client BindEnd
  | .first pc, s =>
    afterBindTurn .first (fun chn s => .again (.second (.begBind chn)) s)
      (turnChannelBindStep g s.peerAddr c pc s)
  | .second pc, s =>
    afterBindTurn .second (fun chn s => .stop (.bound chn) s)
      (turnChannelBindStep g s.peerAddr c pc s)
  | .permission pc, s =>
    match turnCreatePermissionStep g [s.peerAddr] c pc s with
    | .again pc s => .again (.permission pc) s
    | .stop (.rc n) s => if n < 0 then .stop .failed s else .stop .permitted s
    | .stop .exited s => .stop .exited s
    | .stop .undef s => .stop .undef s

/-- The channel number starts as 0 in a local variable of the function. -/
def bindReal (g : Globals) (env : Resolver) (c2c : Bool) (address : List Byte) (port : Int)
    (cs : List Choice) (s : Client) : Drive.Turn BindRealPc Client BindEnd :=
  let r := resolvePeer env c2c address port s
  if r.1 then
    Drive.run (bindRealStep g) cs
      (if g.doNotUseChannel then .permission .begCp else .first (.begBind 0)) r.2
  else .stop .failed r.2

/-! ## What is sent -/

/-- From one state to another the peer stayed the same and every new request names it. -/
structure SendsTo (peer : IoaAddr) (s s' : Client) : Prop where
  peerAddr : s'.peerAddr = s.peerAddr
  sent : ∃ new, s'.sent = s.sent ++ new ∧ ∀ m ∈ new, NamesPeer m peer

theorem SendsTo.refl (peer : IoaAddr) (s : Client) : SendsTo peer s s :=
  ⟨rfl, [], by simp, by simp⟩

theorem SendsTo.trans {peer : IoaAddr} {s s' s'' : Client} (h : SendsTo peer s s')
    (h' : SendsTo peer s' s'') : SendsTo peer s s'' := by
  obtain ⟨hp, new, hs, hn⟩ := h
  obtain ⟨hp', new', hs', hn'⟩ := h'
  refine ⟨hp'.trans hp, new ++ new', by rw [hs', hs, List.append_assoc], ?_⟩
  intro m hm
  rcases List.mem_append.mp hm with hm | hm
  · exact hn m hm
  · exact hn' m hm

theorem SendsTo.send {peer : IoaAddr} {s s' : Client} {m : StunBuffer} (h : SendsTo peer s s')
    (hm : NamesPeer m peer) : SendsTo peer s (s'.send m) :=
  h.trans ⟨rfl, [m], rfl, by simpa using hm⟩

theorem SendsTo.authenticate {peer : IoaAddr} {s s' : Client} (g : Globals) (c : Choice)
    (m : StunBuffer) (h : SendsTo peer s s') : SendsTo peer s (s'.authenticate g c m).2 := by
  obtain ⟨checks, hcheck⟩ := s'.authenticate_eq g c m
  rw [hcheck]
  exact ⟨h.peerAddr, h.sent⟩

def BindPc.channelOk : BindPc → Prop
  | .begBind _ => True
  | .response chn => stunValidChannel chn = true

theorem chooseChannel_valid (chn : BitVec 16) (rnd : Nat) :
    stunValidChannel (chooseChannel chn rnd) = true := by
  unfold chooseChannel
  split
  · assumption
  · have hlt : rnd % 2 ^ 32 % (0x7FFF - 0x4000 + 1) < 0x4000 := Nat.mod_lt _ (by decide)
    have hbase : (0x4000 : BitVec 16).toNat = 0x4000 := rfl
    simp only [stunValidChannel, Bool.and_eq_true, decide_eq_true_eq, BitVec.toNat_add,
      BitVec.toNat_ofNat, hbase]
    omega

theorem turnChannelBindStep_sends (g : Globals) {peer : IoaAddr} (hpeer : peer.known = true)
    (c : Choice) (pc : BindPc) (s : Client) (hpc : pc.channelOk) :
    SendsTo peer s (turnChannelBindStep g peer c pc s).state ∧
      (turnChannelBindStep g peer c pc s).Holds (fun pc _ => pc.channelOk)
        fun r _ => stunValidChannel r.2 = true := by
  cases pc with
  | begBind chn =>
    obtain ⟨hchn, hnames⟩ := channelBindRequest_namesPeer g c s.info hpeer chn
    have hvalid : stunValidChannel (stunSetChannelBindRequestStr c (some peer) chn).1 = true := by
      rw [hchn]
      exact chooseChannel_valid _ _
    have hbuilt : SendsTo peer s { s with info := (finishRequest g c s.info
        (stunSetChannelBindRequestStr c (some peer) chn).2).2.1 } :=
      ⟨rfl, [], by simp, by simp⟩
    simp only [turnChannelBindStep]
    split
    · exact ⟨hbuilt, hvalid⟩
    · split
      · exact ⟨hbuilt.send hnames, hvalid⟩
      · exact ⟨hbuilt.send hnames, hvalid⟩
  | response chn =>
    have hkeep := receive_all (P := SendsTo peer s) c
      fun _ _ => ⟨rfl, [], by simp, by simp⟩
    simp only [turnChannelBindStep]
    cases hr : receive c s with
    | nothing => exact ⟨SendsTo.refl peer s, hpc⟩
    | success m s' =>
      rw [hr] at hkeep
      simp only
      split
      · exact ⟨hkeep.authenticate g c m, hpc⟩
      · have hauth := hkeep.authenticate g c m
        exact ⟨⟨hauth.peerAddr, hauth.sent⟩, hpc⟩
    | challenge s' =>
      rw [hr] at hkeep
      exact ⟨hkeep, trivial⟩
    | error code m s' =>
      rw [hr] at hkeep
      exact ⟨hkeep, hpc⟩
    | unknown s' =>
      rw [hr] at hkeep
      exact ⟨hkeep, hpc⟩
    | overflow => exact ⟨SendsTo.refl peer s, hpc⟩

theorem turnCreatePermissionStep_sends (g : Globals) {peer : IoaAddr} (hpeer : peer.known = true)
    (c : Choice) (pc : PermissionPc) (s : Client) :
    SendsTo peer s (turnCreatePermissionStep g [peer] c pc s).state := by
  cases pc with
  | begCp =>
    have hnames := createPermissionRequest_namesPeer g c s.info hpeer
    have hbuilt : SendsTo peer s { s with info := (finishRequest g c s.info
        (createPermissionRequest c [peer])).2.1 } :=
      ⟨rfl, [], by simp, by simp⟩
    simp only [turnCreatePermissionStep]
    split
    · exact SendsTo.refl peer s
    · split
      · exact hbuilt
      · split <;> exact hbuilt.send hnames
  | response =>
    have hkeep := receive_all (P := SendsTo peer s) c
      fun _ _ => ⟨rfl, [], by simp, by simp⟩
    simp only [turnCreatePermissionStep]
    cases hr : receive c s with
    | nothing => exact SendsTo.refl peer s
    | success m s' =>
      rw [hr] at hkeep
      have hauth := hkeep.authenticate g c m
      simp only
      split
      · exact hauth
      · exact ⟨hauth.peerAddr, hauth.sent⟩
    | challenge s' => rw [hr] at hkeep; exact hkeep
    | error code m s' => rw [hr] at hkeep; exact hkeep
    | unknown s' => rw [hr] at hkeep; exact hkeep
    | overflow => exact SendsTo.refl peer s

/-- What holds at every point of `bind_real`: all requests since its start name
the peer it started with, and a bound channel is a valid one. -/
def bindInv (s₀ : Client) (pc : BindRealPc) (s : Client) : Prop :=
  SendsTo s₀.peerAddr s₀ s ∧
    match pc with
    | .first pc => pc.channelOk
    | .second pc => pc.channelOk
    | .permission _ => True

def bindEndInv (s₀ : Client) (r : BindEnd) (s : Client) : Prop :=
  SendsTo s₀.peerAddr s₀ s ∧ ∀ chn, r = .bound chn → stunValidChannel chn = true

theorem afterBindTurn_inv {s₀ s : Client} {resume : BindPc → BindRealPc}
    {onBound : BitVec 16 → Client → Drive.Turn BindRealPc Client BindEnd}
    {t : Drive.Turn BindPc Client (Ret × BitVec 16)} (hsends : SendsTo s₀.peerAddr s₀ s)
    (hstep : SendsTo s.peerAddr s t.state)
    (hchn : t.Holds (fun pc _ => pc.channelOk) fun r _ => stunValidChannel r.2 = true)
    (hresume : ∀ pc s', SendsTo s₀.peerAddr s₀ s' → pc.channelOk → bindInv s₀ (resume pc) s')
    (hbound : ∀ chn s', SendsTo s₀.peerAddr s₀ s' → stunValidChannel chn = true →
      (onBound chn s').Holds (bindInv s₀) (bindEndInv s₀)) :
    (afterBindTurn resume onBound t).Holds (bindInv s₀) (bindEndInv s₀) := by
  rw [hsends.peerAddr] at hstep
  have hsends' := hsends.trans hstep
  cases t with
  | again pc s' => exact hresume pc s' hsends' hchn
  | stop r s' =>
    obtain ⟨r, chn⟩ := r
    cases r with
    | rc n =>
      simp only [afterBindTurn]
      split
      · exact ⟨hsends', by simp⟩
      · exact hbound chn s' hsends' hchn
    | exited => exact ⟨hsends', by simp⟩
    | undef => exact ⟨hsends', by simp⟩

theorem bindRealStep_inv (g : Globals) (s₀ : Client) (c : Choice) (pc : BindRealPc) (s : Client)
    (h : bindInv s₀ pc s) : (bindRealStep g c pc s).Holds (bindInv s₀) (bindEndInv s₀) := by
  obtain ⟨hsends, hpc⟩ := h
  cases pc with
  | first pc =>
    obtain ⟨hstep, hchn⟩ := turnChannelBindStep_sends g s.peer_known c pc s hpc
    refine afterBindTurn_inv hsends hstep hchn (fun _ _ hs hok => ⟨hs, hok⟩) ?_
    exact fun _ _ hs _ => ⟨hs, trivial⟩
  | second pc =>
    obtain ⟨hstep, hchn⟩ := turnChannelBindStep_sends g s.peer_known c pc s hpc
    refine afterBindTurn_inv hsends hstep hchn (fun _ _ hs hok => ⟨hs, hok⟩) ?_
    rintro chn s' hs hvalid
    refine ⟨hs, fun chn' heq => ?_⟩
    cases heq
    exact hvalid
  | permission pc =>
    have hstep := turnCreatePermissionStep_sends g s.peer_known c pc s
    rw [hsends.peerAddr] at hstep
    simp only [bindRealStep, hsends.peerAddr]
    cases hturn : turnCreatePermissionStep g [s₀.peerAddr] c pc s with
    | again pc' s' =>
      rw [hturn] at hstep
      exact ⟨hsends.trans hstep, trivial⟩
    | stop r s' =>
      rw [hturn] at hstep
      cases r with
      | rc n =>
        simp only
        split <;> exact ⟨hsends.trans hstep, by simp⟩
      | exited => exact ⟨hsends.trans hstep, by simp⟩
      | undef => exact ⟨hsends.trans hstep, by simp⟩

theorem bindReal_inv (g : Globals) (env : Resolver) (c2c : Bool) (address : List Byte) (port : Int)
    (cs : List Choice) (s : Client) :
    (bindReal g env c2c address port cs s).Holds
      (bindInv (resolvePeer env c2c address port s).2)
      (bindEndInv (resolvePeer env c2c address port s).2) := by
  unfold bindReal
  simp only
  split
  · refine Drive.run_holds (bindRealStep_inv g _) cs ⟨SendsTo.refl _ _, ?_⟩
    cases g.doNotUseChannel <;> trivial
  · exact ⟨SendsTo.refl _ _, by simp⟩

/-! ## The peer that was given -/

theorem bindReal_sends (g : Globals) (env : Resolver) (c2c : Bool) (address : List Byte)
    (port : Int) (cs : List Choice) (s : Client) :
    SendsTo (resolvePeer env c2c address port s).2.peerAddr (resolvePeer env c2c address port s).2
      (bindReal g env c2c address port cs s).state := by
  have h := bindReal_inv g env c2c address port cs s
  cases hrun : bindReal g env c2c address port cs s with
  | again pc s' =>
    rw [hrun] at h
    exact h.1
  | stop r s' =>
    rw [hrun] at h
    exact h.1

theorem resolvePeer_peer (env : Resolver) (c2c : Bool) (address : List Byte) (port : Int)
    (s : Client) :
    (resolvePeer env c2c address port s).2.sent = s.sent ∧
      (resolvePeer env c2c address port s).2.peerAddr =
        if c2c then s.peerAddr else (makeIoaAddr env address port).2 := by
  unfold resolvePeer
  cases c2c with
  | true => exact ⟨rfl, rfl⟩
  | false =>
    simp only [Bool.false_eq_true, if_false]
    split
    · exact ⟨rfl, rfl⟩
    · split <;> exact ⟨rfl, rfl⟩

theorem addrGetPort_of_addrEq {a b : IoaAddr} (h : addrEq b a = true) :
    addrGetPort b = a.port.toNat := by
  unfold addrEq at h
  split at h
  · split at h
    · rename_i hb
      simp [addrGetPort, hb.1, ← hb.2]
    · split at h
      · rename_i hb
        simp [addrGetPort, hb.1, ← hb.2]
      · cases h
  · cases h

theorem bind_requests_carry_given_peer_iff (g : Globals) (env : Resolver) (c2c : Bool)
    (address : List Byte) (port : Int) (cs : List Choice) (s : Client) (a : IoaAddr)
    (hport : 1 ≤ port ∧ port ≤ 65535) (hres : makeIoaAddr env address port = (0, a))
    (hfound : a.family ≠ .unspec) :
    ∃ new, (bindReal g env c2c address port cs s).state.sent = s.sent ++ new ∧
      ∀ m ∈ new, CarriesPeer m a port ↔ c2c = false ∨ addrEq (onWire s.peerAddr) a = true := by
  obtain ⟨hfam, hnport⟩ := makeIoaAddr_resolved hres hfound
  have hportNat : (a.port.toNat : Int) = port := by
    rw [hnport, BitVec.toNat_ofInt]
    omega
  obtain ⟨hsent, hpeer⟩ := resolvePeer_peer env c2c address port s
  obtain ⟨_, new, hnew, hnames⟩ := bindReal_sends g env c2c address port cs s
  refine ⟨new, by rw [hnew, hsent], fun m hm => ?_⟩
  rw [(hnames m hm).carriesPeer_iff, hpeer, hres]
  cases c2c with
  | false =>
    obtain ⟨heq, hget⟩ := addrEq_onWire hfam
    simp only [Bool.false_eq_true, if_false, heq, hget, hportNat, and_self, true_or]
  | true =>
    simp only [if_true, Bool.true_eq_false, false_or]
    constructor
    · exact fun h => h.1
    · intro heq
      exact ⟨heq, by rw [addrGetPort_of_addrEq heq, hportNat]⟩

/-- A resolver that knows the one text "10.0.0.2". -/
def lanResolver : Resolver where
  inetPton4 := fun t => if t = [0x31, 0x30, 0x2E, 0x30, 0x2E, 0x30, 0x2E, 0x32] then
    some 0x0A000002 else none
  inetPton6 := fun _ => none
  getaddrinfo := fun _ => none

def lanText : List Byte := [0x31, 0x30, 0x2E, 0x30, 0x2E, 0x30, 0x2E, 0x32]

def lanPeer : IoaAddr := { IoaAddr.any with family := .inet, port := 3478, word := 0x0A000002 }

theorem lan_bind_carries_peer :
    let run := bindReal (Globals.initial ⟨fun _ _ _ => none, fun _ _ => []⟩) lanResolver false
      lanText 3478 [Choice.sends] Client.init
    run.state.sent.length = 1 ∧ ∀ m ∈ run.state.sent, CarriesPeer m lanPeer 3478 := by
  intro run
  refine ⟨by decide +kernel, ?_⟩
  obtain ⟨new, hnew, hcarries⟩ := bind_requests_carry_given_peer_iff
    (Globals.initial ⟨fun _ _ _ => none, fun _ _ => []⟩) lanResolver false lanText 3478
    [Choice.sends] Client.init lanPeer (by decide) (by decide) (by decide)
  intro m hm
  have hmem : m ∈ ([] : List StunBuffer) ++ new := hnew ▸ hm
  exact (hcarries m (by simpa using hmem)).mpr (Or.inl rfl)

/-- In client-to-client mode the request names the address left in the global. -/
theorem c2c_bind_ignores_arguments :
    let run := bindReal (Globals.initial ⟨fun _ _ _ => none, fun _ _ => []⟩) lanResolver true
      lanText 3478 [Choice.sends] Client.init
    makeIoaAddr lanResolver lanText 3478 = (0, lanPeer) ∧
      ∃ m ∈ run.state.sent, ¬CarriesPeer m lanPeer 3478 := by
  intro run
  refine ⟨by decide, ?_⟩
  have hone : run.state.sent.length = 1 := by decide +kernel
  obtain ⟨m, hm⟩ := List.length_eq_one_iff.mp hone
  obtain ⟨_, new, hnew, hnames⟩ := bindReal_sends
    (Globals.initial ⟨fun _ _ _ => none, fun _ _ => []⟩) lanResolver true lanText 3478
    [Choice.sends] Client.init
  have hmem : m ∈ ([] : List StunBuffer) ++ new := by
    rw [← show run.state.sent = [] ++ new from hnew, hm]
    exact List.mem_singleton_self m
  refine ⟨m, by rw [hm]; exact List.mem_singleton_self m, ?_⟩
  rw [(hnames m hmem).carriesPeer_iff]
  decide

end TurnClient
