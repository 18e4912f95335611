import TurnClient.AuthenticatedRuns
import TurnClient.BindReal

/-!
# One channel number for all requests

`turn_channel_bind` lets the request builder draw a number when it has none,
writes the number back through its pointer and passes it to the builder again
when a challenge makes it start over. The number is drawn once: every request
of a call, and of the second call in `bind_real`, carries it.
-/

namespace TurnClient

open ByteMemory
set_option autoImplicit false

/-! ## Reading the number of a request -/

def stunAttrGetChannelNumber (buf : Mem) : Option Nat → BitVec 16
  | none => 0
  | some attr =>
    if 2 ≤ (get16 buf (attr + 2)).toNat ∧ stunValidChannel (get16 buf (attr + 4)) then
      get16 buf (attr + 4)
    else 0

/-- The loop of `stun_attr_get_first_channel_number_str`. -/
def firstChannelNumber (buf : Mem) : List Nat → BitVec 16
  | [] => 0
  | attr :: rest =>
    if get16 buf attr = stunAttributeChannelNumber ∧
        stunValidChannel (stunAttrGetChannelNumber buf (some attr)) then
      stunAttrGetChannelNumber buf (some attr)
    else firstChannelNumber buf rest

def stunAttrGetFirstChannelNumberStr (buf : Mem) (len : Nat) : BitVec 16 :=
  firstChannelNumber buf (attrRefs buf len)

/-- The request asks for this channel, and its XOR-PEER-ADDRESS is read as this peer. -/
def CarriesBinding (m : StunBuffer) (chn : BitVec 16) (peer : IoaAddr) : Prop :=
  stunAttrGetFirstChannelNumberStr m.buf m.len = chn ∧
    ∃ off, stunAttrGetFirstByTypeStr m.buf m.len stunAttributeXorPeerAddress = some off ∧
      stunAttrGetAddrStr addrMappings m.buf (some off) none = (0, onWire peer)

theorem channelNumber_of_recordAt {buf : Mem} {off : Nat} {chn : BitVec 16}
    (hvalid : stunValidChannel chn = true)
    (h : Tlv.RecordAt buf off (stunAttributeChannelNumber, be16 chn ++ be16 0)) (rest : List Nat) :
    firstChannelNumber buf (off :: rest) = chn := by
  obtain ⟨htype, hlen, hvalue⟩ := h
  have hfour : (be16 chn ++ be16 0).length = 4 := rfl
  have hchn : get16 buf (off + 4) = chn :=
    get16_of_slice ((slice_eq_append_iff buf (off + 4) (be16 chn) (be16 0)).mp hvalue).1
  have hget : stunAttrGetChannelNumber buf (some off) = chn := by
    simp [stunAttrGetChannelNumber, hlen.trans hfour, hchn, hvalid]
  rw [firstChannelNumber, hget, if_pos ⟨htype, hvalid⟩]

/-- The request a turn builds when the number is settled. -/
theorem channelBindRequest_carries (g : Globals) (c : Choice) (ci : ConnInfo) {peer : IoaAddr}
    (hpeer : peer.known = true) {chn : BitVec 16} (hvalid : stunValidChannel chn = true) :
    (stunSetChannelBindRequestStr c (some peer) chn).1 = chn ∧
      CarriesBinding (finishRequest g c ci (stunSetChannelBindRequestStr c (some peer) chn).2).2.2
        chn peer := by
  obtain ⟨v, henc⟩ := stunAddrEncode_known hpeer true stunMagicCookie c.tid
  obtain ⟨m, hm, hmsg, hlen⟩ := stunSetChannelBindRequestStr_eq c chn henc
  have hchosen : chooseChannel chn (c.random 4) = chn := by rw [chooseChannel, if_pos hvalid]
  rw [hchosen] at hm hmsg
  rw [hm]
  refine ⟨rfl, ?_⟩
  obtain ⟨⟨extra, hfinal⟩, _⟩ := (hmsg.toExtends.mono hlen).finish (by decide) g c ci
  generalize (finishRequest g c ci m).2.2 = m' at hfinal
  constructor
  · unfold stunAttrGetFirstChannelNumberStr
    rw [hfinal.attrRefs_eq]
    exact channelNumber_of_recordAt hvalid hfinal.laidOut.1 _
  · have hsplit : IsMessage m' _ c.tid
        ([(stunAttributeChannelNumber, be16 chn ++ be16 0)] ++
          (stunAttributeXorPeerAddress, v) :: extra) := hfinal
    have hpre : ∀ p ∈ [(stunAttributeChannelNumber, be16 chn ++ be16 0)],
        p.1 ≠ stunAttributeXorPeerAddress := by
      intro p hp
      have hne : stunAttributeChannelNumber ≠ stunAttributeXorPeerAddress := by decide
      rw [List.mem_singleton.mp hp]
      exact hne
    obtain ⟨hfirst, hrec⟩ := hsplit.firstByType hpre
    refine ⟨_, hfirst, stunAttrGetAddrStr_recordAt ?_ hrec⟩
    rw [hfinal.header.tid_eq]
    exact henc

/-! ## One call -/

/-- Every request sent from one state to the other carries this channel and peer. -/
structure Binds (chn : BitVec 16) (peer : IoaAddr) (s s' : Client) : Prop where
  peerAddr : s'.peerAddr = s.peerAddr
  sent : ∃ new, s'.sent = s.sent ++ new ∧ ∀ m ∈ new, CarriesBinding m chn peer

section Binds

variable {chn : BitVec 16} {peer : IoaAddr} {s s' s'' : Client}

theorem Binds.of_sent (hpeer : s'.peerAddr = s.peerAddr) (hsent : s'.sent = s.sent) :
    Binds chn peer s s' :=
  ⟨hpeer, [], by rw [hsent, List.append_nil], by simp⟩

theorem Binds.trans (h : Binds chn peer s s') (h' : Binds chn peer s' s'') :
    Binds chn peer s s'' := by
  obtain ⟨hp, new, hs, hn⟩ := h
  obtain ⟨hp', new', hs', hn'⟩ := h'
  refine ⟨hp'.trans hp, new ++ new', by rw [hs', hs, List.append_assoc], ?_⟩
  exact List.forall_mem_append.mpr ⟨hn, hn'⟩

end Binds

def BindPc.channel : BindPc → BitVec 16
  | .begBind chn => chn
  | .response chn => chn

theorem receive_frame (c : Choice) (s : Client) :
    (receive c s).All fun s' => s'.peerAddr = s.peerAddr ∧ s'.sent = s.sent :=
  receive_all c fun _ _ => ⟨rfl, rfl⟩

theorem turnChannelBindStep_binds (g : Globals) {peer : IoaAddr} (hpeer : peer.known = true)
    {chn : BitVec 16} (hvalid : stunValidChannel chn = true) (c : Choice) (pc : BindPc) (s : Client)
    (hpc : pc.channel = chn) :
    Binds chn peer s (turnChannelBindStep g peer c pc s).state ∧
      (turnChannelBindStep g peer c pc s).Holds (fun pc' _ => pc'.channel = chn)
        fun r _ => r.2 = chn := by
  cases pc with
  | begBind chn' =>
    obtain rfl : chn' = chn := hpc
    obtain ⟨hchn, hcarries⟩ := channelBindRequest_carries g c s.info hpeer hvalid
    simp only [turnChannelBindStep]
    split
    · exact ⟨.of_sent rfl rfl, hchn⟩
    · split <;> exact ⟨⟨rfl, [_], rfl, List.forall_mem_singleton.mpr hcarries⟩, hchn⟩
  | response chn' =>
    obtain rfl : chn' = chn := hpc
    have hframe := receive_frame c s
    simp only [turnChannelBindStep]
    cases hr : receive c s with
    | nothing => exact ⟨.of_sent rfl rfl, rfl⟩
    | success m s₁ =>
      rw [hr] at hframe
      have hauth : (s₁.authenticate g c m).2.peerAddr = s.peerAddr ∧
          (s₁.authenticate g c m).2.sent = s.sent := by
        obtain ⟨checks, hcheck⟩ := s₁.authenticate_eq g c m
        rw [hcheck]
        exact hframe
      simp only
      split <;> exact ⟨.of_sent hauth.1 hauth.2, rfl⟩
    | challenge s₁ =>
      rw [hr] at hframe
      exact ⟨.of_sent hframe.1 hframe.2, rfl⟩
    | error code m s₁ =>
      rw [hr] at hframe
      exact ⟨.of_sent hframe.1 hframe.2, rfl⟩
    | unknown s₁ =>
      rw [hr] at hframe
      exact ⟨.of_sent hframe.1 hframe.2, rfl⟩
    | overflow => exact ⟨.of_sent rfl rfl, rfl⟩

/-- The builder draws the same number again when it is given the one it drew. -/
theorem chooseChannel_chosen (chn : BitVec 16) (rnd : Nat) :
    chooseChannel (chooseChannel chn rnd) rnd = chooseChannel chn rnd := by
  rw [chooseChannel, if_pos (chooseChannel_valid chn rnd)]

theorem turnChannelBindStep_chosen (g : Globals) (peer : IoaAddr) (c : Choice) (chn : BitVec 16)
    (s : Client) :
    turnChannelBindStep g peer c (.begBind chn) s =
      turnChannelBindStep g peer c (.begBind (chooseChannel chn (c.random 4))) s := by
  have hrequest : stunSetChannelBindRequestStr c (some peer) (chooseChannel chn (c.random 4)) =
      stunSetChannelBindRequestStr c (some peer) chn := by
    unfold stunSetChannelBindRequestStr
    rw [chooseChannel_chosen]
  simp only [turnChannelBindStep, hrequest]

/-- The number the first turn settles. -/
def settledChannel (chn : BitVec 16) : List Choice → BitVec 16
  | [] => chooseChannel chn 0
  | c :: _ => chooseChannel chn (c.random 4)

theorem settledChannel_valid (chn : BitVec 16) (cs : List Choice) :
    stunValidChannel (settledChannel chn cs) = true := by
  cases cs <;> exact chooseChannel_valid _ _

theorem settledChannel_eq_self {chn : BitVec 16} (h : stunValidChannel chn = true)
    (cs : List Choice) : settledChannel chn cs = chn := by
  cases cs <;> rw [settledChannel, chooseChannel, if_pos h]

theorem run_settled {β α : Type} {step : Choice → β → Client → Drive.Turn β Client α}
    (start : BitVec 16 → β)
    (hstep : ∀ c chn s, step c (start chn) s = step c (start (chooseChannel chn (c.random 4))) s)
    (cs : List Choice) (chn : BitVec 16) (s : Client) :
    (Drive.run step cs (start chn) s).state =
        (Drive.run step cs (start (settledChannel chn cs)) s).state ∧
      ∀ a s', Drive.run step cs (start chn) s = .stop a s' →
        Drive.run step cs (start (settledChannel chn cs)) s = .stop a s' := by
  cases cs with
  | nil => exact ⟨rfl, fun a s' h => by cases h⟩
  | cons c cs =>
    rw [Drive.run, Drive.run, settledChannel, hstep c chn s]
    exact ⟨rfl, fun a s' h => h⟩

theorem turnChannelBind_binds (g : Globals) {peer : IoaAddr} (hpeer : peer.known = true)
    (chn : BitVec 16) (cs : List Choice) (s : Client) :
    Binds (settledChannel chn cs) peer s
        (Drive.run (turnChannelBindStep g peer) cs (.begBind chn) s).state ∧
      ∀ r s', Drive.run (turnChannelBindStep g peer) cs (.begBind chn) s = .stop r s' →
        r.2 = settledChannel chn cs := by
  obtain ⟨hstate, hstop⟩ := run_settled BindPc.begBind (turnChannelBindStep_chosen g peer) cs chn s
  have hstep : ∀ c pc s₁,
      pc.channel = settledChannel chn cs ∧ Binds (settledChannel chn cs) peer s s₁ →
      (turnChannelBindStep g peer c pc s₁).Holds
        (fun pc' s₂ => pc'.channel = settledChannel chn cs ∧ Binds (settledChannel chn cs) peer s s₂)
        (fun r s₂ => r.2 = settledChannel chn cs ∧ Binds (settledChannel chn cs) peer s s₂) := by
    intro c pc s₁ h
    obtain ⟨hbinds, hchn⟩ :=
      turnChannelBindStep_binds g hpeer (settledChannel_valid chn cs) c pc s₁ h.1
    cases hturn : turnChannelBindStep g peer c pc s₁ with
    | again pc' s₂ =>
      rw [hturn] at hbinds hchn
      exact ⟨hchn, h.2.trans hbinds⟩
    | stop r s₂ =>
      rw [hturn] at hbinds hchn
      exact ⟨hchn, h.2.trans hbinds⟩
  have hrun := Drive.run_holds hstep cs (b := .begBind (settledChannel chn cs)) (s := s)
    ⟨rfl, .of_sent rfl rfl⟩
  rw [hstate]
  constructor
  · cases hend : Drive.run (turnChannelBindStep g peer) cs (.begBind (settledChannel chn cs)) s with
    | again pc' s₂ =>
      rw [hend] at hrun
      exact hrun.2
    | stop r s₂ =>
      rw [hend] at hrun
      exact hrun.2
  · intro r s' h
    rw [hstop r s' h] at hrun
    exact hrun.1

/-! ## Both calls of `bind_real` -/

def BindRealPc.channel : BindRealPc → Option (BitVec 16)
  | .first pc => some pc.channel
  | .second pc => some pc.channel
  | .permission _ => none

theorem afterBindTurn_binds {chn : BitVec 16} {peer : IoaAddr} {s₀ s : Client}
    {resume : BindPc → BindRealPc}
    {onBound : BitVec 16 → Client → Drive.Turn BindRealPc Client BindEnd}
    {t : Drive.Turn BindPc Client (Ret × BitVec 16)} (hs : Binds chn peer s₀ s)
    (hstep : Binds chn peer s t.state)
    (hchn : t.Holds (fun pc _ => pc.channel = chn) fun r _ => r.2 = chn)
    {I : BindRealPc → Client → Prop} {J : BindEnd → Client → Prop}
    (hresume : ∀ pc s', Binds chn peer s₀ s' → pc.channel = chn → I (resume pc) s')
    (hbound : ∀ s', Binds chn peer s₀ s' → (onBound chn s').Holds I J)
    (hend : ∀ r s', (∀ chn', r ≠ .bound chn') → Binds chn peer s₀ s' → J r s') :
    (afterBindTurn resume onBound t).Holds I J := by
  have hs' := hs.trans hstep
  cases t with
  | again pc s' => exact hresume pc s' hs' hchn
  | stop r s' =>
    obtain ⟨r, chn'⟩ := r
    obtain rfl : chn' = chn := hchn
    cases r with
    | rc n =>
      simp only [afterBindTurn]
      split
      · exact hend _ _ (fun _ h => by cases h) hs'
      · exact hbound s' hs'
    | exited => exact hend _ _ (fun _ h => by cases h) hs'
    | undef => exact hend _ _ (fun _ h => by cases h) hs'

theorem bindRealStep_binds (g : Globals) {chn : BitVec 16} (hvalid : stunValidChannel chn = true)
    (s₀ : Client) (c : Choice) (pc : BindRealPc) (s : Client)
    (h : pc.channel = some chn ∧ Binds chn s₀.peerAddr s₀ s) :
    (bindRealStep g c pc s).Holds
      (fun pc' s' => pc'.channel = some chn ∧ Binds chn s₀.peerAddr s₀ s')
      (fun r s' => (∀ chn', r = .bound chn' → chn' = chn) ∧ Binds chn s₀.peerAddr s₀ s') := by
  obtain ⟨hpc, hs⟩ := h
  have hpeer : s.peerAddr = s₀.peerAddr := hs.peerAddr
  have hknown : s₀.peerAddr.known = true := s₀.peer_known
  cases pc with
  | first pc =>
    obtain ⟨hstep, hchn⟩ := turnChannelBindStep_binds g hknown hvalid c pc s (Option.some.inj hpc)
    simp only [bindRealStep, hpeer]
    refine afterBindTurn_binds hs hstep hchn ?_ ?_ ?_
    · exact fun pc' s' hs' hpc' => ⟨congrArg some hpc', hs'⟩
    · exact fun s' hs' => ⟨rfl, hs'⟩
    · exact fun r s' hr hs' => ⟨fun chn' heq => absurd heq (hr chn'), hs'⟩
  | second pc =>
    obtain ⟨hstep, hchn⟩ := turnChannelBindStep_binds g hknown hvalid c pc s (Option.some.inj hpc)
    simp only [bindRealStep, hpeer]
    refine afterBindTurn_binds hs hstep hchn ?_ ?_ ?_
    · exact fun pc' s' hs' hpc' => ⟨congrArg some hpc', hs'⟩
    · intro s' hs'
      refine ⟨fun chn' heq => ?_, hs'⟩
      cases heq
      rfl
    · exact fun r s' hr hs' => ⟨fun chn' heq => absurd heq (hr chn'), hs'⟩
  | permission pc => cases hpc

theorem bindRealStep_chosen (g : Globals) (c : Choice) (chn : BitVec 16) (s : Client) :
    bindRealStep g c (.first (.begBind chn)) s =
      bindRealStep g c (.first (.begBind (chooseChannel chn (c.random 4)))) s := by
  simp only [bindRealStep]
  rw [turnChannelBindStep_chosen]

theorem bindReal_binds (g : Globals) (hchannel : g.doNotUseChannel = false) (env : Resolver)
    (c2c : Bool) (address : List Byte) (port : Int) (cs : List Choice) (s : Client) :
    let s₀ := (resolvePeer env c2c address port s).2
    Binds (settledChannel 0 cs) s₀.peerAddr s₀ (bindReal g env c2c address port cs s).state ∧
      ∀ chn s', bindReal g env c2c address port cs s = .stop (.bound chn) s' →
        chn = settledChannel 0 cs := by
  intro s₀
  unfold bindReal
  simp only [hchannel, Bool.false_eq_true, if_false]
  split
  · obtain ⟨hstate, hstop⟩ := run_settled (fun chn => BindRealPc.first (.begBind chn))
      (bindRealStep_chosen g) cs 0 s₀
    have hrun := Drive.run_holds (bindRealStep_binds g (settledChannel_valid 0 cs) s₀) cs
      (b := .first (.begBind (settledChannel 0 cs))) (s := s₀) ⟨rfl, .of_sent rfl rfl⟩
    constructor
    · rw [hstate]
      cases hend : Drive.run (bindRealStep g) cs (.first (.begBind (settledChannel 0 cs))) s₀ with
      | again pc' s₂ =>
        rw [hend] at hrun
        exact hrun.2
      | stop r s₂ =>
        rw [hend] at hrun
        exact hrun.2
    · intro chn s' h
      rw [hstop _ _ h] at hrun
      exact hrun.1 chn rfl
  · exact ⟨.of_sent rfl rfl, fun chn s' h => by cases h⟩

/-- All requests of a call carry one valid channel number and the peer, also across challenges, and
a call that succeeds leaves that number; `bind_real` uses one number for both of its calls. -/
theorem channel_stable_across_challenges (g : Globals) (peer : IoaAddr) (hpeer : peer.known = true)
    (chn : BitVec 16) (cs : List Choice) (s : Client) :
    (∃ n : BitVec 16, (0x4000 ≤ n.toNat ∧ n.toNat ≤ 0x7FFF) ∧
      (stunValidChannel chn = true → n = chn) ∧
      (∃ new, (Drive.run (turnChannelBindStep g peer) cs (.begBind chn) s).state.sent =
          s.sent ++ new ∧ ∀ m ∈ new, CarriesBinding m n peer) ∧
      ∀ n' s', Drive.run (turnChannelBindStep g peer) cs (.begBind chn) s = .stop (.rc 0, n') s' →
        n' = n) ∧
    ∀ (env : Resolver) (c2c : Bool) (address : List Byte) (port : Int), g.doNotUseChannel = false →
      ∃ n : BitVec 16, (0x4000 ≤ n.toNat ∧ n.toNat ≤ 0x7FFF) ∧
        (∃ new, (bindReal g env c2c address port cs s).state.sent = s.sent ++ new ∧
          ∀ m ∈ new, CarriesBinding m n (resolvePeer env c2c address port s).2.peerAddr) ∧
        ∀ n' s', bindReal g env c2c address port cs s = .stop (.bound n') s' → n' = n := by
  constructor
  · obtain ⟨hbinds, hret⟩ := turnChannelBind_binds g hpeer chn cs s
    refine ⟨settledChannel chn cs, (stunValidChannel_iff _).mp (settledChannel_valid chn cs),
      fun h => settledChannel_eq_self h cs, hbinds.sent, ?_⟩
    intro n' s' h
    exact hret (.rc 0, n') s' h
  · intro env c2c address port hchannel
    obtain ⟨hbinds, hret⟩ := bindReal_binds g hchannel env c2c address port cs s
    refine ⟨settledChannel 0 cs, (stunValidChannel_iff _).mp (settledChannel_valid 0 cs), ?_, hret⟩
    obtain ⟨new, hnew, hcarries⟩ := hbinds.sent
    exact ⟨new, by rw [hnew, (resolvePeer_peer env c2c address port s).1], hcarries⟩

/-- A challenge between two requests of one call. -/
theorem challenged_bind_keeps_channel :
    let g := Globals.initial constantSsl
    let run := Drive.run (turnChannelBindStep g IoaAddr.any) challengedBind (.begBind 0) Client.init
    run.state.sent.length = 2 ∧ g.doNotUseChannel = false ∧
      ∃ n : BitVec 16, ∀ m ∈ run.state.sent, CarriesBinding m n IoaAddr.any := by
  intro g run
  refine ⟨by decide +kernel, rfl, ?_⟩
  obtain ⟨⟨n, _, _, ⟨new, hnew, hcarries⟩, _⟩, _⟩ :=
    channel_stable_across_challenges g IoaAddr.any rfl
    0 challengedBind Client.init
  refine ⟨n, fun m hm => hcarries m ?_⟩
  have hmem : m ∈ ([] : List StunBuffer) ++ new := hnew ▸ hm
  simpa using hmem

end TurnClient
