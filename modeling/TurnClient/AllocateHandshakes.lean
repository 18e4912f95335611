import TurnClient.AllocateRequests
import TurnClient.Handshakes

/-!
# An allocation against a server with long-term credentials

`clnet_allocate` counts its requests: it gives up before the 33rd Allocate
request and, once something is allocated, before the 34th Refresh request.
Challenged at every other request, it comes through exactly when the server asks
for one realm and nonce twice in a row within these limits.
-/

namespace TurnClient

open ByteMemory
set_option autoImplicit false

/-! ## The requests -/

/-- A record that is no part of a signature. -/
def PlainRecord (r : Tlv.Record) : Prop := r.1 ∉ signingTypes

theorem type_mem_of_presentRecords {table : List (BitVec 16 × Option (List Byte))} {r : Tlv.Record}
    (hr : r ∈ presentRecords table) : r.1 ∈ table.map Prod.fst := by
  obtain ⟨q, hq, hqr⟩ := List.mem_filterMap.mp hr
  obtain ⟨v, _, rfl⟩ := Option.map_eq_some_iff.mp hqr
  exact List.mem_map.mpr ⟨q, hq, rfl⟩

theorem plain_of_requestTable {lifetime : BitVec 32} {af4 af6 : Bool} {transport : Byte}
    {mobile : Bool} {rt : Option (List Byte)} {ep : Int} {r : Tlv.Record}
    (hr : r ∈ presentRecords (requestTable lifetime af4 af6 transport mobile rt ep)) :
    PlainRecord r := by
  have hmem := type_mem_of_presentRecords hr
  simp only [requestTable, familyTable, List.map_cons, List.map_nil, List.cons_append,
    List.nil_append] at hmem
  have hplain : ([stunAttributeRequestedTransport, stunAttributeLifetime,
      stunAttributeMobilityTicket, stunAttributeEvenPort, stunAttributeReservationToken,
      stunAttributeRequestedAddressFamily, stunAttributeAdditionalAddressFamily].all fun t =>
        decide (t ∉ signingTypes)) = true := by decide
  have hnot : r.1 ∉ signingTypes := of_decide_eq_true (List.all_eq_true.mp hplain r.1 hmem)
  exact hnot

theorem allocateRequest_plain (g : Globals) (af : AddressFamilyValue) (c : Choice) (s : Client) :
    ExtendsBy PlainRecord (allocateRequest g af c s)
      (stunMakeRequest stunMethodAllocate &&& 0x3FFF) c.tid [] 1000 := by
  unfold allocateRequest
  simp only
  generalize hrt : (if (!g.noRtcp && s.allocateRtcp) = true then
    some (be64 s.currentReservationToken) else none) = rt
  have hlen : ∀ token, rt = some token → token.length = 8 := by
    intro token htoken
    rw [htoken] at hrt
    split at hrt <;> cases hrt
    rfl
  generalize (if g.relayTransport = 6 then (-1 : Int) else if rt.isSome = true then -1 else _) = ep
  obtain ⟨m₁, hbuild, hm₁, hle₁⟩ := stunSetAllocateRequestStr_isMessage c uclientSessionLifetime
    (g.dualAllocation || af == .ipv4) (g.dualAllocation || af == .ipv6) g.relayTransport g.mobility
    hlen ep
  rw [hbuild]
  have e₁ : ExtendsBy PlainRecord m₁ (stunMakeRequest stunMethodAllocate &&& 0x3FFF) c.tid [] 100 :=
    ⟨⟨_, fun _ => plain_of_requestTable, hm₁⟩, hle₁⟩
  have e₂ : ExtendsBy PlainRecord (if g.bps ≠ 0 then (stunAttrAddBandwidthStr m₁ g.bps).2 else m₁)
      (stunMakeRequest stunMethodAllocate &&& 0x3FFF) c.tid [] 112 := by
    obtain ⟨m₂, h₂, e₂⟩ := e₁.addString stunAttributeNewBandwidth
      (be32 ((g.bps >>> 7).setWidth 32)) (by decide : stunAttributeNewBandwidth ∉ signingTypes)
      (Nat.le_refl 4) (by omega)
    split
    · rw [stunAttrAddBandwidthStr, stunAttrAddBytes, ← stunAttrAddString, h₂]
      exact e₂
    · exact e₁.mono (by omega)
  obtain ⟨m₃, h₃, e₃⟩ := e₂.addStr stunAttributeDontFragment none 0
    (by decide : stunAttributeDontFragment ∉ signingTypes) (Nat.le_refl 0) (by omega)
  split
  · rw [h₃]
    exact e₃.mono (by omega)
  · exact e₂.mono (by omega)

theorem refreshRequest_plain (g : Globals) (c : Choice) (ci : ConnInfo) :
    ExtendsBy PlainRecord (refreshRequest g c ci)
      (stunMakeRequest stunMethodRefresh &&& 0x3FFF) c.tid [] 1000 := by
  have h₀ : ExtendsBy PlainRecord (stunInitRequestStr stunMethodRefresh (c.junk 0) c.tid)
      (stunMakeRequest stunMethodRefresh &&& 0x3FFF) c.tid [] 20 :=
    (isMessage_initRequest stunMethodRefresh (c.junk 0) c.tid).extendsBy
  obtain ⟨m₁, h₁, e₁⟩ := h₀.addString stunAttributeLifetime (be32 uclientSessionLifetime)
    (by decide : stunAttributeLifetime ∉ signingTypes) (Nat.le_refl 4) (by omega)
  rw [stunAttrAddString, ← stunAttrAddBytes] at h₁
  unfold refreshRequest
  simp only [h₁]
  have e₂ : ExtendsBy PlainRecord (if ci.sMobileId 0 ≠ 0 then (stunAttrAddString m₁
      stunAttributeMobilityTicket (cstr ci.sMobileId 33)).2 else m₁)
      (stunMakeRequest stunMethodRefresh &&& 0x3FFF) c.tid [] 80 := by
    obtain ⟨m₂, h₂, e₂⟩ := e₁.addString stunAttributeMobilityTicket (cstr ci.sMobileId 33)
      (by decide : stunAttributeMobilityTicket ∉ signingTypes) (cstr_length _ _) (by omega)
    split
    · rw [h₂]
      exact e₂.mono (by omega)
    · exact e₁.mono (by omega)
  split
  · generalize (if c.random 2 % 256 % 3 = 1 then addressFamilyValueIpv4
      else addressFamilyValueIpv6) = x
    obtain ⟨m₃, h₃, e₃⟩ := e₂.addString stunAttributeRequestedAddressFamily [x, 0, 0, 0]
      (by decide : stunAttributeRequestedAddressFamily ∉ signingTypes) (Nat.le_refl 4) (by omega)
    rw [stunAttrAddString, ← stunAttrAddBytes] at h₃
    rw [h₃]
    exact e₃.mono (by omega)
  · exact e₂.mono (by omega)

theorem plain_request {g : Globals} (hssl : g.ssl.FullSize) (hoauth : g.oauth = false)
    {m : StunBuffer} {method : BitVec 16} {tid : StunTid}
    (h : ExtendsBy PlainRecord m (stunMakeRequest method &&& 0x3FFF) tid [] 1000) (c : Choice)
    (ci : ConnInfo) :
    ∃ m', finishRequest g c ci m = (0, ci, m') ∧
      (∀ k, admits g k m' = true ↔ ci.knownRealm = some k) ∧
      stunGetMethodStr m'.buf m'.len = method &&& 0x0FFF := by
  obtain ⟨⟨attrs, hplain, hm⟩, hlen⟩ := h
  obtain ⟨m', hfinish, hadmits⟩ := finishRequest_admits hssl hoauth hm
    (Nat.le_trans hlen (by decide)) hplain c ci
  have hadded : ExtendsBy (fun _ => True) m (stunMakeRequest method &&& 0x3FFF) tid ([] ++ attrs)
    1000 := hm.extendsBy.mono hlen
  obtain ⟨⟨extra, _, hfinal⟩, hle⟩ := hadded.finish (fun _ _ => trivial) (by omega) g c ci
  rw [hfinish] at hfinal hle
  have hwf := wellFormed_of_isMessage (c := .request) hfinal (by
    unfold maxStunMessageSize
    simp only at hle ⊢
    omega)
  exact ⟨m', hfinish, hadmits, hwf.method_eq⟩

/-! ## Up to the allocation -/

/-- The allocation the server granted is the session's, which still knows the key of the grant. -/
structure Allocated {g : Globals} (srv : RelayServer g) (k : Realm) (s : Client) : Prop where
  relayAddr : s.info.relayAddr = srv.relayed
  known : s.knownRealm = some k
  granted : ∃ m, Granted srv.toTurnServer stunMethodAllocate m s

theorem readMobilityTicket_keeps (ci : ConnInfo) (m : StunBuffer) :
    (readMobilityTicket ci m).relayAddr = ci.relayAddr ∧
      (readMobilityTicket ci m).knownRealm = ci.knownRealm := by
  unfold readMobilityTicket
  split
  · exact ⟨rfl, rfl⟩
  · simp only
    split <;> exact ⟨rfl, rfl⟩

theorem allocate_asksUntil {g : Globals} (hssl : g.ssl.FullSize) (hoauth : g.oauth = false)
    (hsha : g.shatype ≠ .error) (af : AddressFamilyValue) (srv : RelayServer g)
    {daf : AddressFamilyValue} (hwanted : relayWanted daf srv.relayed = true) :
    Drive.AsksUntil (attended srv.toTurnServer (clnetAllocateStep g af)) Sends askedKey
      Client.knownRealm 32 (fun n b s => b = .allocate n false ∧ s.defaultAddressFamily = daf)
      fun k t => ∃ s, t = .again .allocated s ∧ Allocated srv k s := by
  apply asksUntil_of srv.toTurnServer (W := fun n m b s => b = .allocateResponse (n + 1) false ∧
    s.defaultAddressFamily = daf ∧ (∀ k, admits g k m = true ↔ s.knownRealm = some k) ∧
      stunGetMethodStr m.buf m.len = stunMethodAllocate)
  · rintro n b s c hn ⟨rfl, hdaf⟩ hsend
    obtain ⟨m, hm, hadmits, hmethod⟩ := plain_request hssl hoauth (allocateRequest_plain g af c s) c
      s.info
    refine ⟨.allocateResponse (n + 1) false, s.send m, m, ?_, by simp [Client.send], hadmits, rfl,
      hdaf, hadmits, hmethod⟩
    simp only [clnetAllocateStep, reopenSocketStep, Bool.false_and, Bool.false_eq_true, if_false,
      hm]
    rw [if_neg (by omega), if_neg (by decide), if_neg (by omega)]
  · rintro n m b s c k ⟨rfl, hdaf, hadmits, hmethod⟩ hadmitted hlast
    obtain ⟨hrecv, hcheck⟩ := receive_of_grant hssl hsha (srv.grants k m hadmitted) c s
    obtain ⟨checks, hrc, hauth⟩ := hcheck { s with received := s.received ++ [srv.answer k m] }
    have hscan := srv.lends k m hadmitted hmethod daf hwanted
    simp only [clnetAllocateStep, hrecv]
    rw [if_neg (by omega), hauth]
    simp only [allocateSucceeded, hdaf, hscan]
    rw [if_neg (by decide)]
    refine ⟨_, rfl, (readMobilityTicket_keeps _ _).1, ?_, m, hlast, k, hadmitted, ?_⟩
    · exact (readMobilityTicket_keeps _ _).2.trans ((hadmits k.key).mp hadmitted)
    · simp [Client.accept]
  · rintro n m b s r c k ⟨rfl, hdaf, _⟩ h
    obtain ⟨creds, hrecv, hknown⟩ := receive_of_challenge h c s
    refine ⟨.allocate (n + 1) false, { s with received := s.received ++ [r], info := { s.info with
      creds := creds } }, ?_, hknown, rfl, hdaf⟩
    simp only [clnetAllocateStep, hrecv]

/-! ## Up to the end of the call -/

/-- The call has succeeded: the session has the server's address, and the server took a Refresh. -/
structure Refreshed {g : Globals} (srv : RelayServer g) (s : Client) : Prop where
  relayAddr : s.info.relayAddr = srv.relayed
  granted : ∃ m, Granted srv.toTurnServer stunMethodRefresh m s

theorem refresh_asksUntil {g : Globals} (hssl : g.ssl.FullSize) (hoauth : g.oauth = false)
    (hsha : g.shatype ≠ .error) (af : AddressFamilyValue) (srv : RelayServer g) :
    Drive.AsksUntil (attended srv.toTurnServer (clnetAllocateStep g af)) Sends askedKey
      Client.knownRealm 33 (fun n b s => b = .refresh n ∧ s.info.relayAddr = srv.relayed)
      fun _ t => ∃ s, t = .stop (.rc 0) s ∧ Refreshed srv s := by
  apply asksUntil_of srv.toTurnServer (W := fun n _ b s => b = .refreshResponse (n + 1) ∧
    s.info.relayAddr = srv.relayed)
  · rintro n b s c hn ⟨rfl, hrelay⟩ hsend
    obtain ⟨m, hm, hadmits, _⟩ := plain_request hssl hoauth (refreshRequest_plain g c s.info) c
      s.info
    by_cases hticket : s.info.sMobileId 0 ≠ 0
    · refine ⟨.refreshResponse (n + 1), (s.send m).send m, m, ?_, by simp [Client.send], hadmits,
        rfl, hrelay⟩
      simp only [clnetAllocateStep, hm]
      rw [if_neg (by omega), if_neg (by decide), if_neg (by omega), if_pos hticket]
    · refine ⟨.refreshResponse (n + 1), s.send m, m, ?_, by simp [Client.send], hadmits, rfl,
        hrelay⟩
      simp only [clnetAllocateStep, hm]
      rw [if_neg (by omega), if_neg (by decide), if_neg (by omega), if_neg hticket]
  · rintro n m b s c k ⟨rfl, hrelay⟩ hadmitted hlast
    obtain ⟨hrecv, _⟩ := receive_of_grant hssl hsha (srv.grants k m hadmitted) c s
    simp only [clnetAllocateStep, hrecv]
    exact ⟨_, rfl, (readMobilityTicket_keeps _ _).1.trans hrelay, m, hlast, k, hadmitted,
      by simp [Client.accept]⟩
  · rintro n m b s r c k ⟨rfl, hrelay⟩ h
    obtain ⟨creds, hrecv, hknown⟩ := receive_of_challenge h c s
    refine ⟨.refresh (n + 1), { s with received := s.received ++ [r], info := { s.info with
      creds := creds } }, ?_, hknown, rfl, hrelay⟩
    simp only [clnetAllocateStep, hrecv]

/-- Between the loops a session with a mobility ticket is connected anew, and keeps the rest. -/
theorem allocated_turn (g : Globals) (af : AddressFamilyValue) {c : Choice} (h : 0 ≤ c.connectRet)
    (s : Client) :
    ∃ s', clnetAllocateStep g af c .allocated s = .again (.refresh 0) s' ∧
      s'.info.relayAddr = s.info.relayAddr ∧ s'.knownRealm = s.knownRealm := by
  have hopen : ∃ s', reopenForMobility c { s with allocateRtcp := !s.allocateRtcp } = some s' := by
    unfold reopenForMobility clnetConnect
    split
    · simp only [if_neg (not_lt.mpr h)]
      exact ⟨_, rfl⟩
    · exact ⟨_, rfl⟩
  obtain ⟨s', hs'⟩ := hopen
  refine ⟨s', by rw [clnetAllocateStep, hs'], ?_⟩
  rcases reopenForMobility_cases hs' with ⟨_, rfl⟩ | ⟨_, rfl⟩ <;> exact ⟨rfl, rfl⟩

/-! ## Within the limits -/

theorem refresh_within_limit {g : Globals} (hssl : g.ssl.FullSize) (hoauth : g.oauth = false)
    (hsha : g.shatype ≠ .error) (af : AddressFamilyValue) (srv : RelayServer g) {s : Client}
    (hrelay : s.info.relayAddr = srv.relayed) {rs : ServerRounds} (hsends : ∀ r ∈ rs, Sends r.1) :
    let call := Drive.run (attended srv.toTurnServer (clnetAllocateStep g af))
      (Drive.flatRounds rs) (.refresh 0) s
    ((∃ s', call = .stop (.rc 0) s') ↔ MeetsKeyTwice s (rs.take 33)) ∧
      ∀ s', call = .stop (.rc 0) s' → Refreshed srv s' := by
  have h := refresh_asksUntil hssl hoauth hsha af srv
  simp only
  by_cases hmet : MeetsKeyTwice s (rs.take 33)
  · obtain ⟨pre, r, post, hsplit, s', hstop, hdone⟩ := h.ends_within hsends ⟨rfl, hrelay⟩ hmet
    have hrun : Drive.run (attended srv.toTurnServer (clnetAllocateStep g af)) (Drive.flatRounds rs)
        (.refresh 0) s = .stop (.rc 0) s' := by
      rw [hsplit, List.append_cons, Drive.flatRounds_append, Drive.run_append, hstop,
        Drive.goOn_stop]
    rw [hrun]
    refine ⟨⟨fun _ => hmet, fun _ => ⟨s', rfl⟩⟩, ?_⟩
    rintro _ ⟨rfl⟩
    exact hdone
  · have hnever : ∀ s', Drive.run (attended srv.toTurnServer (clnetAllocateStep g af))
        (Drive.flatRounds rs) (.refresh 0) s ≠ .stop (.rc 0) s' := by
      intro s' hstop
      obtain ⟨_, s'', hrun, rfl, _⟩ := h.asks_within hsends ⟨rfl, hrelay⟩ (not_not.mp hmet)
        (List.prefix_refl rs)
      by_cases hlen : rs.length ≤ 33
      · rw [List.take_of_length_le hlen, hstop] at hrun
        cases hrun
      · rw [Nat.min_eq_left (by omega)] at hrun
        rw [Drive.run_past (by omega) hrun fun _ => rfl] at hstop
        cases hstop
    exact ⟨⟨fun ⟨s', hstop⟩ => absurd hstop (hnever s'), fun h => absurd h hmet⟩,
      fun s' hstop => absurd hstop (hnever s')⟩

/-- Met a key twice in a row within the 32 requests, and only then, the call has an allocation; else
it is still asking or has given up. -/
theorem allocation_within_limit {g : Globals} (hssl : g.ssl.FullSize) (hoauth : g.oauth = false)
    (hsha : g.shatype ≠ .error) (af : AddressFamilyValue) (srv : RelayServer g) (s : Client)
    (hwanted : relayWanted s.defaultAddressFamily srv.relayed = true) (rs : ServerRounds)
    (hsends : ∀ r ∈ rs, Sends r.1) :
    let call := fun pre => Drive.run (attended srv.toTurnServer (clnetAllocateStep g af))
      (Drive.flatRounds pre) (.allocate 0 false) s
    (MeetsKeyTwice s (rs.take 32) → ∃ pre s' k, pre <+: rs ∧ call pre = .again .allocated s' ∧
        Allocated srv k s') ∧
      (¬ MeetsKeyTwice s (rs.take 32) → ∀ pre, pre <+: rs → ∃ s',
        call pre = if pre.length ≤ 32 then .again (.allocate pre.length false) s'
          else .stop .exited s') := by
  have h := allocate_asksUntil hssl hoauth hsha af srv hwanted
  refine ⟨fun hmet => ?_, fun hnot pre hpre => ?_⟩
  · obtain ⟨pre, r, post, hsplit, s', hrun, hallocated⟩ := h.ends_within hsends ⟨rfl, rfl⟩ hmet
    refine ⟨pre ++ [r], s', askedKey r.2, ⟨post, ?_⟩, hrun, hallocated⟩
    rw [hsplit, ← List.append_cons]
  · obtain ⟨_, s', hrun, rfl, _⟩ := h.asks_within hsends ⟨rfl, rfl⟩ (not_not.mp hnot) hpre
    by_cases hlen : pre.length ≤ 32
    · rw [List.take_of_length_le hlen, Nat.min_eq_right hlen] at hrun
      exact ⟨s', hrun.trans (if_pos hlen).symm⟩
    · rw [Nat.min_eq_left (by omega)] at hrun
      exact ⟨s', (Drive.run_past (by omega) hrun fun _ => rfl).trans (if_neg hlen).symm⟩

theorem second_allocate_granted :
    ∃ pre s' k, pre <+: [(homeTurn, homeTurn), (homeTurn, homeTurn)] ∧
      Drive.run (attended homeServer.toTurnServer (clnetAllocateStep homeGlobals .ipv4))
        (Drive.flatRounds pre) (.allocate 0 false) Client.init = .again .allocated s' ∧
          Allocated homeServer k s' :=
  (allocation_within_limit homeSsl_fullSize rfl (by decide) .ipv4 homeServer Client.init (by decide)
    [(homeTurn, homeTurn), (homeTurn, homeTurn)] (homeTurns_send (by simp))).1 second_round_met

/-- A call whose Allocate was granted under the key of this round ends with 0 exactly when some key
is met twice in a row within the 33 Refresh requests, and then with the address of the server. -/
theorem allocation_call_iff {g : Globals} (hssl : g.ssl.FullSize) (hoauth : g.oauth = false)
    (hsha : g.shatype ≠ .error) (af : AddressFamilyValue) (srv : RelayServer g) (s : Client)
    (hwanted : relayWanted s.defaultAddressFamily srv.relayed = true) {pre : ServerRounds}
    {r : (Choice × ServerRealm) × (Choice × ServerRealm)} (hshort : pre.length < 32)
    (hfirst : ¬ MeetsKeyTwice s pre)
    (hagain : (Drive.metKeys askedKey s.knownRealm pre).getLast (List.cons_ne_nil _ _) =
      some (askedKey r.2))
    {e : Choice × ServerRealm} (hconnect : 0 ≤ e.1.connectRet) (rs : ServerRounds)
    (hsends : ∀ p ∈ pre ++ [r], Sends p.1) (hsends' : ∀ p ∈ rs, Sends p.1) :
    let call := Drive.run (attended srv.toTurnServer (clnetAllocateStep g af))
      (Drive.flatRounds (pre ++ [r]) ++ e :: Drive.flatRounds rs) (.allocate 0 false) s
    ((∃ s', call = .stop (.rc 0) s') ↔
        ¬ List.IsChain (· ≠ ·) (Drive.metKeys askedKey (some (askedKey r.2)) (rs.take 33))) ∧
      ∀ s', call = .stop (.rc 0) s' → Refreshed srv s' := by
  obtain ⟨s₁, hrun₁, hrelay, hknown, _⟩ := (allocate_asksUntil hssl hoauth hsha af srv hwanted).ends
    hsends (n := 0) (by omega) ⟨rfl, rfl⟩ (not_not.mp hfirst) hagain
  obtain ⟨s₂, hturn, hrelay₂, hknown₂⟩ := allocated_turn g af
    (c := e.1.answered (srv.answer e.2 (s₁.sent.getLastD ⟨fun _ => 0, 0⟩))) hconnect s₁
  have hcall : Drive.run (attended srv.toTurnServer (clnetAllocateStep g af))
      (Drive.flatRounds (pre ++ [r]) ++ e :: Drive.flatRounds rs) (.allocate 0 false) s =
        Drive.run (attended srv.toTurnServer (clnetAllocateStep g af)) (Drive.flatRounds rs)
          (.refresh 0) s₂ := by
    rw [Drive.run_append, hrun₁, Drive.goOn_again, Drive.run_cons, attended, hturn,
      Drive.goOn_again]
  simp only [hcall, ← hknown, ← hknown₂]
  exact refresh_within_limit hssl hoauth hsha af srv (hrelay₂.trans hrelay) hsends'

theorem whole_call_granted :
    ∃ s', Drive.run (attended homeServer.toTurnServer (clnetAllocateStep homeGlobals .ipv4))
        (Drive.flatRounds ([(homeTurn, homeTurn)] ++ [(homeTurn, homeTurn)]) ++
          homeTurn :: Drive.flatRounds [(homeTurn, homeTurn)]) (.allocate 0 false) Client.init =
            .stop (.rc 0) s' ∧ Refreshed homeServer s' := by
  obtain ⟨hends, hwell⟩ := allocation_call_iff homeSsl_fullSize rfl (by decide) .ipv4 homeServer
    Client.init (by decide) (show [(homeTurn, homeTurn)].length < 32 by decide)
    (by simp [MeetsKeyTwice, Drive.metKeys]; decide) rfl (e := homeTurn) (by decide)
    [(homeTurn, homeTurn)] (homeTurns_send (by simp)) (homeTurns_send (by simp))
  obtain ⟨s', hstop⟩ := hends.mpr (by simp [Drive.metKeys])
  exact ⟨s', hstop, hwell s' hstop⟩

end TurnClient
