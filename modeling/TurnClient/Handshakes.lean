import TurnClient.AllocateResponse
import TurnClient.ChannelStability
import TurnClient.LongTermServer
import TurnClient.Rounds

/-!
# Requests against a server with long-term credentials

`turn_channel_bind` and `turn_create_permission` against a server that may ask
for a new realm and a new nonce at every request. Each challenge is answered by
one request signed under it, so a call comes through at the first request for
which the server still asks what it asked for before, and not earlier.
-/

namespace TurnClient

open ByteMemory
set_option autoImplicit false

/-- A turn of a procedure whose peer is the server: what arrives is the answer to the last
request, by what the server asks for at that moment. -/
def attended {β α : Type} {g : Globals} (srv : TurnServer g)
    (step : Choice → β → Client → Drive.Turn β Client α) (e : Choice × ServerRealm) (b : β)
    (s : Client) : Drive.Turn β Client α :=
  step (e.1.answered (srv.answer e.2 (s.sent.getLastD ⟨fun _ => 0, 0⟩))) b s

/-- The sending works. -/
def Sends (e : Choice × ServerRealm) : Prop := 0 < e.1.sendRet

def askedKey (e : Choice × ServerRealm) : Realm := e.2.key

def Client.knownRealm (s : Client) : Option Realm := s.info.knownRealm

theorem attended_answered {β α : Type} {g : Globals} (srv : TurnServer g)
    (step : Choice → β → Client → Drive.Turn β Client α) (e : Choice × ServerRealm) (b : β)
    {s : Client} {m : StunBuffer} (hsent : s.sent.getLast? = some m) :
    attended srv step e b s = step (e.1.answered (srv.answer e.2 m)) b s := by
  rw [attended, List.getLastD_eq_getLast?, hsent, Option.getD_some]

/-- A loop that sends a request signed under what the session knows, takes a grant of that request
and goes back to asking at a challenge. -/
theorem asksUntil_of {β α : Type} {g : Globals} (srv : TurnServer g)
    {step : Choice → β → Client → Drive.Turn β Client α} {N : Nat} {I : Nat → β → Client → Prop}
    {W : Nat → StunBuffer → β → Client → Prop} {J : Realm → Drive.Turn β Client α → Prop}
    (hask : ∀ {n b s c}, n < N → I n b s → 0 < c.sendRet →
      ∃ b' s' m, step c b s = .again b' s' ∧ s'.sent.getLast? = some m ∧
        (∀ k, admits g k m = true ↔ s.knownRealm = some k) ∧ W n m b' s')
    (hgrant : ∀ {n m b s} (c : Choice) (k : ServerRealm), W n m b s → admits g k.key m = true →
      s.sent.getLast? = some m → J k.key (step (c.answered (srv.answer k m)) b s))
    (hchallenge : ∀ {n m b s r} (c : Choice) {k : ServerRealm}, W n m b s → IsChallenge k r →
      ∃ b' s', step (c.answered r) b s = .again b' s' ∧ s'.knownRealm = some k.key ∧
        I (n + 1) b' s') :
    Drive.AsksUntil (attended srv step) Sends askedKey Client.knownRealm N I J := by
  constructor
  · intro n b s e e' hn hI hsend hknown
    obtain ⟨b', s', m, hstep, hlast, hadmits, hW⟩ := hask (c := e.1.answered (srv.answer e.2
      (s.sent.getLastD ⟨fun _ => 0, 0⟩))) hn hI hsend
    refine ⟨b', s', hstep, ?_⟩
    rw [attended_answered srv step e' b' hlast]
    exact hgrant e'.1 e'.2 hW ((hadmits e'.2.key).mpr hknown) hlast
  · intro n b s e e' hn hI hsend hknown
    obtain ⟨b', s', m, hstep, hlast, hadmits, hW⟩ := hask (c := e.1.answered (srv.answer e.2
      (s.sent.getLastD ⟨fun _ => 0, 0⟩))) hn hI hsend
    refine ⟨b', s', hstep, ?_⟩
    rw [attended_answered srv step e' b' hlast]
    have hrefused : admits g e'.2.key m = false :=
      Bool.eq_false_iff.mpr fun hadmitted => hknown ((hadmits _).mp hadmitted)
    obtain ⟨b'', s'', hback, hknown', hI'⟩ := hchallenge e'.1 hW (srv.challenges _ _ hrefused)
    exact ⟨b'', s'', hback, hknown', hI'⟩

/-- A row of requests, each with the turn its answer arrives in. -/
abbrev ServerRounds := List ((Choice × ServerRealm) × (Choice × ServerRealm))

/-- The server asks twice in a row for the same, a known realm and nonce counting as the first. -/
def MeetsKeyTwice (s : Client) (rs : ServerRounds) : Prop :=
  ¬ List.IsChain (· ≠ ·) (Drive.metKeys askedKey s.knownRealm rs)

/-- A loop without a limit on its rounds ends exactly when some key is met twice in a row, and it
ends well. -/
theorem ends_iff {β α : Type} {step : Choice × ServerRealm → β → Client → Drive.Turn β Client α}
    {I : β → Client → Prop} {P : α → Client → Prop} {rs : ServerRounds}
    (h : Drive.AsksUntil step Sends askedKey Client.knownRealm rs.length (fun _ => I)
      fun _ t => ∃ a s, t = .stop a s ∧ P a s)
    (hsends : ∀ r ∈ rs, Sends r.1) {b : β} {s : Client} (hI : I b s) :
    ((∃ a s', Drive.run step (Drive.flatRounds rs) b s = .stop a s') ↔ MeetsKeyTwice s rs) ∧
      ∀ a s', Drive.run step (Drive.flatRounds rs) b s = .stop a s' → P a s' := by
  by_cases hchain : List.IsChain (· ≠ ·) (Drive.metKeys askedKey s.knownRealm rs)
  · obtain ⟨b', s'', hrun, _⟩ := h.going hsends (Nat.le_of_eq (Nat.zero_add _)) hI hchain
    rw [hrun]
    refine ⟨⟨?_, fun hmet => absurd hchain hmet⟩, ?_⟩
    · rintro ⟨_, _, hstop⟩
      cases hstop
    · intro _ _ hstop
      cases hstop
  · rw [← List.take_length (l := rs)] at hchain
    obtain ⟨pre, r, post, hsplit, a, s', hstop, hP⟩ := h.ends_within hsends hI hchain
    rw [List.take_length] at hchain
    have hrun : Drive.run step (Drive.flatRounds rs) b s = .stop a s' := by
      rw [hsplit, List.append_cons, Drive.flatRounds_append, Drive.run_append, hstop,
        Drive.goOn_stop]
    rw [hrun]
    refine ⟨⟨fun _ => hchain, fun _ => ⟨a, s', rfl⟩⟩, ?_⟩
    rintro _ _ ⟨rfl, rfl⟩
    exact hP

/-- The server admitted this request, the last one, and its answer was taken. -/
structure Granted {g : Globals} (srv : TurnServer g) (method : BitVec 16) (m : StunBuffer)
    (s : Client) : Prop where
  last : s.sent.getLast? = some m
  taken : ∃ k, admits g k.key m = true ∧ s.accepted.getLast? = some (method, srv.answer k m)

/-! ## Binding a channel -/

/-- The peer is bound to this channel, and a channel that was valid before has been kept. -/
def ChannelBound {g : Globals} (srv : TurnServer g) (peer : IoaAddr) (chn₀ : BitVec 16)
    (a : Ret × BitVec 16) (s : Client) : Prop :=
  a.1 = .rc 0 ∧ stunValidChannel a.2 = true ∧ (stunValidChannel chn₀ = true → a.2 = chn₀) ∧
    ∃ m, CarriesBinding m a.2 peer ∧ Granted srv stunMethodChannelBind m s

/-- Where a call that began with this channel asks for one. -/
def AsksChannel (chn₀ : BitVec 16) (b : BindPc) : Prop :=
  ∃ chn, b = .begBind chn ∧ (stunValidChannel chn₀ = true → chn = chn₀)

theorem bind_request {g : Globals} (hssl : g.ssl.FullSize) (hoauth : g.oauth = false)
    {peer : IoaAddr} (hpeer : peer.known = true) {c : Choice} (hsend : 0 < c.sendRet)
    (chn : BitVec 16) (s : Client) :
    ∃ m, turnChannelBindStep g peer c (.begBind chn) s =
        .again (.response (chooseChannel chn (c.random 4))) { s with sent := s.sent ++ [m] } ∧
      (∀ k, admits g k m = true ↔ s.knownRealm = some k) ∧
      CarriesBinding m (chooseChannel chn (c.random 4)) peer := by
  have hvalid := chooseChannel_valid chn (c.random 4)
  have hcarries := (channelBindRequest_carries g c s.info hpeer hvalid).2
  rw [turnChannelBindStep_chosen]
  generalize chooseChannel chn (c.random 4) = chosen at hvalid hcarries
  obtain ⟨v, henc⟩ := stunAddrEncode_known hpeer true stunMagicCookie c.tid
  obtain ⟨m₀, hm₀, hmsg, hlen⟩ := stunSetChannelBindRequestStr_eq c chosen henc
  have hchosen : chooseChannel chosen (c.random 4) = chosen := if_pos hvalid
  rw [hchosen] at hm₀
  rw [hm₀] at hcarries
  have hplain : ∀ r ∈ [(stunAttributeChannelNumber, be16 chosen ++ be16 0),
      (stunAttributeXorPeerAddress, v)], r.1 ∉ signingTypes := by
    intro r hr
    rw [List.mem_cons, List.mem_singleton] at hr
    rcases hr with rfl | rfl
    · exact (by decide : stunAttributeChannelNumber ∉ signingTypes)
    · exact (by decide : stunAttributeXorPeerAddress ∉ signingTypes)
  rw [hchosen] at hmsg
  obtain ⟨m, hm, hadmits⟩ := finishRequest_admits hssl hoauth hmsg
    (Nat.le_trans hlen (by decide)) hplain c s.info
  rw [hm] at hcarries
  refine ⟨m, ?_, hadmits, hcarries⟩
  simp only [turnChannelBindStep, hm₀, hm]
  rw [if_neg (by decide), if_neg (by omega)]
  rfl

theorem bind_asksUntil {g : Globals} (hssl : g.ssl.FullSize) (hoauth : g.oauth = false)
    (hsha : g.shatype ≠ .error) (srv : TurnServer g) {peer : IoaAddr} (hpeer : peer.known = true)
    (chn₀ : BitVec 16) (N : Nat) :
    Drive.AsksUntil (attended srv (turnChannelBindStep g peer)) Sends askedKey Client.knownRealm N
      (fun _ b _ => AsksChannel chn₀ b)
      fun _ t => ∃ a s, t = .stop a s ∧ ChannelBound srv peer chn₀ a s := by
  apply asksUntil_of srv (W := fun _ m b _ => ∃ chn, b = .response chn ∧
    stunValidChannel chn = true ∧ (stunValidChannel chn₀ = true → chn = chn₀) ∧
      CarriesBinding m chn peer)
  · rintro n b s c _ ⟨chn, rfl, hkept⟩ hsend
    obtain ⟨m, hstep, hadmits, hcarries⟩ := bind_request hssl hoauth hpeer hsend chn s
    refine ⟨_, _, m, hstep, by simp, hadmits, _, rfl, chooseChannel_valid _ _, ?_, hcarries⟩
    intro hvalid
    rw [hkept hvalid]
    exact if_pos hvalid
  · rintro n m b s c k ⟨chn, rfl, hvalid, hkept, hcarries⟩ hadmitted hlast
    obtain ⟨hrecv, hcheck⟩ := receive_of_grant hssl hsha (srv.grants k m hadmitted) c s
    obtain ⟨checks, hrc, hauth⟩ := hcheck { s with received := s.received ++ [srv.answer k m] }
    refine ⟨(.rc 0, chn), Client.accept { s with received := s.received ++ [srv.answer k m],
                                                 checks := checks } stunMethodChannelBind
        (srv.answer k m), ?_, rfl, hvalid, hkept, m, hcarries, hlast, k,
      hadmitted, by simp [Client.accept]⟩
    simp only [turnChannelBindStep, hrecv]
    rw [if_neg (by omega), hauth]
  · rintro n m b s r c k ⟨chn, rfl, _, hkept, _⟩ h
    obtain ⟨creds, hrecv, hknown⟩ := receive_of_challenge h c s
    refine ⟨.begBind chn, { s with received := s.received ++ [r], info := { s.info with
      creds := creds } }, ?_, hknown, chn, rfl, hkept⟩
    simp only [turnChannelBindStep, hrecv]

/-! ## Creating permissions -/

/-- The addresses a CreatePermission request names. -/
def permittedPeers (m : StunBuffer) : List (Int × IoaAddr) :=
  ((attrRefs m.buf m.len).filter fun sar => get16 m.buf sar == stunAttributeXorPeerAddress).map
    fun sar => stunAttrGetAddrStr addrMappings m.buf (some sar) none

/-- The bytes of a request that name these peers: an attribute of 24 bytes for an IPv6
address, one of 12 for any other. -/
def peersSize (peers : List IoaAddr) : Nat :=
  (peers.map fun a => if a.family = .inet6 then 24 else 12).sum

theorem addPeer_size {m m₁ : StunBuffer} {msgType : BitVec 16} {tid : StunTid}
    {attrs : List Tlv.Record} {a : IoaAddr} {v : List Byte} (h : IsMessage m msgType tid attrs)
    (henc : stunAddrEncode a true stunMagicCookie tid = some v)
    (h₁ : IsMessage m₁ msgType tid (attrs ++ [(stunAttributeXorPeerAddress, v)])) :
    m₁.len = m.len + if a.family = .inet6 then 24 else 12 := by
  have hlen : v.length = if a.family = .inet6 then 20 else 8 := by
    unfold stunAddrEncode at henc
    simp only at henc
    by_cases h6 : a.family = .inet6
    · simp only [h6, reduceCtorEq, or_self, if_false, if_true, Option.some.injEq] at henc
      rw [← henc, if_pos h6]
      simp [xorKey, tid.size_eq, a.in6.size_eq]
    · by_cases h4 : a.family = .inet ∨ a.family = .unspec
      · rw [if_pos h4] at henc
        cases henc
        rw [if_neg h6]
        rfl
      · rw [if_neg h4, if_neg h6] at henc
        cases henc
  rw [h₁.len_eq, h.len_eq, Tlv.size_append, Tlv.size, Tlv.size, hlen]
  unfold Tlv.pad4
  split <;> omega

theorem addPeerAddrs_isMessage {peers : List IoaAddr} (hpeers : ∀ a ∈ peers, a.known = true)
    {m : StunBuffer} {msgType : BitVec 16} {tid : StunTid} {attrs : List Tlv.Record}
    (h : IsMessage m msgType tid attrs) (hroom : m.len + peersSize peers ≤ requestRoom) :
    IsMessage (addPeerAddrs m peers) msgType tid
        (attrs ++ peers.map (addrRecord tid stunAttributeXorPeerAddress)) ∧
      (addPeerAddrs m peers).len ≤ requestRoom := by
  induction peers generalizing m attrs with
  | nil => exact ⟨by simpa [addPeerAddrs] using h, by simpa [addPeerAddrs, peersSize] using hroom⟩
  | cons a peers ih =>
    have hsize : peersSize (a :: peers) = (if a.family = .inet6 then 24 else 12) + peersSize peers :=
      List.sum_cons
    obtain ⟨v, henc⟩ := stunAddrEncode_known (hpeers a List.mem_cons_self) true stunMagicCookie tid
    obtain ⟨m₁, hadd, hm₁, -⟩ := h.addPeer (by unfold requestRoom at hroom; omega) henc
    have hlen := addPeer_size h henc hm₁
    have hrecord : addrRecord tid stunAttributeXorPeerAddress a =
        (stunAttributeXorPeerAddress, v) := by
      have henc' : stunAddrEncode a (isXored stunAttributeXorPeerAddress) stunMagicCookie tid =
        some v := henc
      rw [addrRecord, henc', Option.getD_some]
    have hrest := ih (fun b hb => hpeers b (List.mem_cons_of_mem a hb)) hm₁ (by omega)
    rw [addPeerAddrs, hadd, List.map_cons, hrecord, List.append_cons]
    exact hrest

theorem permittedPeers_laidOut {buf : Mem} {tid : StunTid} (htid : stunTidFromMessageStr buf = tid)
    {peers : List IoaAddr} (hpeers : ∀ a ∈ peers, a.known = true) {rest : List Tlv.Record}
    (hrest : ∀ r ∈ rest, r.1 ≠ stunAttributeXorPeerAddress) {off : Nat}
    (hlaid : Tlv.LaidOut buf off
      (peers.map (addrRecord tid stunAttributeXorPeerAddress) ++ rest)) :
    ((Tlv.offsets off (peers.map (addrRecord tid stunAttributeXorPeerAddress) ++ rest)).filter
        fun sar => get16 buf sar == stunAttributeXorPeerAddress).map
          (fun sar => stunAttrGetAddrStr addrMappings buf (some sar) none) =
      peers.map fun a => (0, onWire a) := by
  induction peers generalizing off with
  | nil =>
    rw [List.map_nil, List.nil_append, List.map_nil, List.map_eq_nil_iff, List.filter_eq_nil_iff]
    intro sar hsar
    obtain ⟨r, hr, htype, _⟩ := Tlv.exists_recordAt hlaid hsar
    rw [htype, beq_iff_eq]
    exact hrest r hr
  | cons a peers ih =>
    obtain ⟨hrec, hlaid⟩ := hlaid
    obtain ⟨v, hv⟩ := stunAddrEncode_known (hpeers a List.mem_cons_self)
      (isXored stunAttributeXorPeerAddress) stunMagicCookie tid
    have hrecord : addrRecord tid stunAttributeXorPeerAddress a =
        (stunAttributeXorPeerAddress, v) := by
      rw [addrRecord, hv, Option.getD_some]
    have htype : get16 buf off = stunAttributeXorPeerAddress := hrec.1
    have hget : stunAttrGetAddrStr addrMappings buf (some off) none = (0, onWire a) := by
      rw [hrecord] at hrec
      rw [← htid] at hv
      exact stunAttrGetAddrStr_recordAt hv hrec
    have hih := ih (fun b hb => hpeers b (List.mem_cons_of_mem a hb)) hlaid
    rw [List.map_cons, List.cons_append, Tlv.offsets, List.filter_cons,
      if_pos (beq_iff_eq.mpr htype), List.map_cons, List.map_cons, hget, hih]

theorem permission_request {g : Globals} (hssl : g.ssl.FullSize) (hoauth : g.oauth = false)
    {peers : List IoaAddr} (hpeers : ∀ a ∈ peers, a.known = true)
    (hroom : 20 + peersSize peers ≤ requestRoom) (c : Choice) (ci : ConnInfo) :
    ∃ m, finishRequest g c ci (createPermissionRequest c peers) = (0, ci, m) ∧
      (∀ k, admits g k m = true ↔ ci.knownRealm = some k) ∧
      permittedPeers m = peers.map fun a => (0, onWire a) := by
  have h₀ := isMessage_initRequest stunMethodCreatePermission (c.junk 0) c.tid
  have hlen₀ := h₀.len_eq
  rw [Tlv.size] at hlen₀
  obtain ⟨hmsg, hlen⟩ := addPeerAddrs_isMessage hpeers h₀ (by omega)
  rw [List.nil_append] at hmsg
  have hplain : ∀ r ∈ peers.map (addrRecord c.tid stunAttributeXorPeerAddress),
      r.1 ∉ signingTypes := by
    intro r hr
    obtain ⟨a, _, rfl⟩ := List.mem_map.mp hr
    exact (by decide : stunAttributeXorPeerAddress ∉ signingTypes)
  obtain ⟨m, hm, hadmits⟩ := finishRequest_admits hssl hoauth hmsg hlen hplain c ci
  have hadded : ExtendsBy (fun r => r.1 ∈ tailTypes) _ _ _ _ requestRoom :=
    hmsg.extendsBy.mono hlen
  obtain ⟨⟨extra, hextra, hfinal⟩, _⟩ := hadded.finish (fun r hr => hr) (by decide) g c ci
  rw [hm] at hfinal
  refine ⟨m, hm, hadmits, ?_⟩
  rw [permittedPeers, hfinal.attrRefs_eq]
  exact permittedPeers_laidOut hfinal.header.tid_eq hpeers (fun r hr heq => by
    have htail := hextra r hr
    rw [heq] at htail
    revert htail
    decide) hfinal.laidOut

/-- The peers of the call are permitted. -/
def PeersPermitted {g : Globals} (srv : TurnServer g) (peers : List IoaAddr) (a : Ret)
    (s : Client) : Prop :=
  a = .rc 0 ∧ ∃ m, (permittedPeers m = peers.map fun a => (0, onWire a)) ∧
    Granted srv stunMethodCreatePermission m s

theorem permission_asksUntil {g : Globals} (hssl : g.ssl.FullSize) (hoauth : g.oauth = false)
    (hsha : g.shatype ≠ .error) (hperm : g.noPermissions = false) (srv : TurnServer g)
    {peers : List IoaAddr} (hne : peers ≠ []) (hpeers : ∀ a ∈ peers, a.known = true)
    (hroom : 20 + peersSize peers ≤ requestRoom) (N : Nat) :
    Drive.AsksUntil (attended srv (turnCreatePermissionStep g peers)) Sends askedKey
      Client.knownRealm N (fun _ b _ => b = .begCp)
      fun _ t => ∃ a s, t = .stop a s ∧ PeersPermitted srv peers a s := by
  have hasked : (g.noPermissions || peers.isEmpty) = false := by
    rw [hperm, Bool.false_or, List.isEmpty_eq_false_iff]
    exact hne
  apply asksUntil_of srv (W := fun _ m b _ => b = .response ∧
    permittedPeers m = peers.map fun a => (0, onWire a))
  · rintro n b s c _ rfl hsend
    obtain ⟨m, hm, hadmits, hnames⟩ := permission_request hssl hoauth hpeers hroom c s.info
    refine ⟨.response, s.send m, m, ?_, by simp [Client.send], hadmits, rfl, hnames⟩
    simp only [turnCreatePermissionStep, hasked, hm]
    rw [if_neg (by decide), if_neg (by decide), if_neg (by omega)]
  · rintro n m b s c k ⟨rfl, hnames⟩ hadmitted hlast
    obtain ⟨hrecv, hcheck⟩ := receive_of_grant hssl hsha (srv.grants k m hadmitted) c s
    obtain ⟨checks, hrc, hauth⟩ := hcheck { s with received := s.received ++ [srv.answer k m] }
    refine ⟨.rc 0, Client.accept { s with received := s.received ++ [srv.answer k m],
                                          checks := checks } stunMethodCreatePermission
        (srv.answer k m), ?_, rfl, m, hnames, hlast, k, hadmitted, by simp [Client.accept]⟩
    simp only [turnCreatePermissionStep, hrecv]
    rw [if_neg (by omega), hauth]
  · rintro n m b s r c k ⟨rfl, _⟩ h
    obtain ⟨creds, hrecv, hknown⟩ := receive_of_challenge h c s
    refine ⟨.begCp, { s with received := s.received ++ [r], info := { s.info with
      creds := creds } }, ?_, hknown, rfl⟩
    simp only [turnCreatePermissionStep, hrecv]

/-! ## When the calls come through -/

/-- A channel is bound exactly when the server asks for one key twice in a row, however often it
changes the key before. -/
theorem channel_bind_granted_iff {g : Globals} (hssl : g.ssl.FullSize) (hoauth : g.oauth = false)
    (hsha : g.shatype ≠ .error) (srv : TurnServer g) {peer : IoaAddr} (hpeer : peer.known = true)
    (chn : BitVec 16) (s : Client) (rs : ServerRounds) (hsends : ∀ r ∈ rs, Sends r.1) :
    let run := Drive.run (attended srv (turnChannelBindStep g peer)) (Drive.flatRounds rs)
      (.begBind chn) s
    ((∃ a s', run = .stop a s') ↔ MeetsKeyTwice s rs) ∧
      ∀ a s', run = .stop a s' → ChannelBound srv peer chn a s' :=
  ends_iff (I := fun b _ => AsksChannel chn b)
    (bind_asksUntil hssl hoauth hsha srv hpeer chn rs.length) hsends ⟨chn, rfl, fun _ => rfl⟩

/-- A turn in which the sending works, against the server that asks for its one key. -/
def homeTurn : Choice × ServerRealm := (Choice.sends, homeRealm)

theorem homeTurns_send {rs : ServerRounds} (h : ∀ r ∈ rs, r = (homeTurn, homeTurn)) :
    ∀ r ∈ rs, Sends r.1 := by
  intro r hr
  rw [h r hr]
  exact (by decide : (0 : Int) < 1)

theorem second_round_met :
    MeetsKeyTwice Client.init [(homeTurn, homeTurn), (homeTurn, homeTurn)] := by
  simp [MeetsKeyTwice, Drive.metKeys]

/-- A client without credentials binds its peer with the second request. -/
theorem second_bind_granted :
    ∃ a s', Drive.run (attended homeServer.toTurnServer (turnChannelBindStep homeGlobals lanPeer))
        (Drive.flatRounds [(homeTurn, homeTurn), (homeTurn, homeTurn)]) (.begBind 0x4000)
          Client.init = .stop a s' ∧
      ChannelBound homeServer.toTurnServer lanPeer 0x4000 a s' := by
  obtain ⟨hends, hwell⟩ := channel_bind_granted_iff homeSsl_fullSize rfl (by decide)
    homeServer.toTurnServer (show lanPeer.known = true from rfl) 0x4000 Client.init
    [(homeTurn, homeTurn), (homeTurn, homeTurn)] (homeTurns_send (by simp))
  obtain ⟨a, s', hstop⟩ := hends.mpr second_round_met
  exact ⟨a, s', hstop, hwell a s' hstop⟩

theorem permissions_granted_iff {g : Globals} (hssl : g.ssl.FullSize) (hoauth : g.oauth = false)
    (hsha : g.shatype ≠ .error) (hperm : g.noPermissions = false) (srv : TurnServer g)
    {peers : List IoaAddr} (hne : peers ≠ []) (hpeers : ∀ a ∈ peers, a.known = true)
    (hroom : 20 + peersSize peers ≤ requestRoom) (s : Client) (rs : ServerRounds)
    (hsends : ∀ r ∈ rs, Sends r.1) :
    let run := Drive.run (attended srv (turnCreatePermissionStep g peers)) (Drive.flatRounds rs)
      .begCp s
    ((∃ a s', run = .stop a s') ↔ MeetsKeyTwice s rs) ∧
      ∀ a s', run = .stop a s' → PeersPermitted srv peers a s' :=
  ends_iff (I := fun b _ => b = .begCp)
    (permission_asksUntil hssl hoauth hsha hperm srv hne hpeers hroom rs.length) hsends rfl

/-- A peer with an IPv6 address. -/
def sixPeer : IoaAddr :=
  { IoaAddr.any with family := .inet6, port := 40000,
                     in6 := ⟨[0x20, 0x01, 0x0D, 0xB8, 0, 0, 0, 0, 0, 0, 0, 0, 0, 0, 0, 1], rfl⟩ }

theorem second_permission_granted :
    ∃ a s', Drive.run (attended homeServer.toTurnServer (turnCreatePermissionStep homeGlobals
        [lanPeer, sixPeer])) (Drive.flatRounds [(homeTurn, homeTurn), (homeTurn, homeTurn)]) .begCp
          Client.init = .stop a s' ∧
      PeersPermitted homeServer.toTurnServer [lanPeer, sixPeer] a s' := by
  obtain ⟨hends, hwell⟩ := permissions_granted_iff homeSsl_fullSize rfl (by decide) rfl
    homeServer.toTurnServer (show [lanPeer, sixPeer] ≠ [] by simp) (by decide) (by decide)
    Client.init [(homeTurn, homeTurn), (homeTurn, homeTurn)] (homeTurns_send (by simp))
  obtain ⟨a, s', hstop⟩ := hends.mpr second_round_met
  exact ⟨a, s', hstop, hwell a s' hstop⟩

end TurnClient
