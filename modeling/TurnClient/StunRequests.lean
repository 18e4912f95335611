import TurnClient.Session
import TurnClient.StunRoundTrip

/-!
# The requests of the TURN client

The request builders of `ns_turn_msg.c` and the part every request shares:
origins, integrity and fingerprint are appended, so whatever the builder put
first stays in the message that is sent.
-/

namespace TurnClient

open ByteMemory
set_option autoImplicit false

def stunAttributeChannelNumber : BitVec 16 := 0x000C
def stunAttributeLifetime : BitVec 16 := 0x000D
def stunAttributeRequestedAddressFamily : BitVec 16 := 0x0017
def stunAttributeEvenPort : BitVec 16 := 0x0018
def stunAttributeRequestedTransport : BitVec 16 := 0x0019
def stunAttributeDontFragment : BitVec 16 := 0x001A
def stunAttributeReservationToken : BitVec 16 := 0x0022
def stunAttributeNewBandwidth : BitVec 16 := 0x8010
def stunAttributeMobilityTicket : BitVec 16 := 0x8030
def stunAttributeAdditionalAddressFamily : BitVec 16 := 0x8032

/-- The program never calls `ioa_addr_add_mapping`. -/
def addrMappings : AddrMappings := []

def stunAttrAddBytes (m : StunBuffer) (attr : BitVec 16) (field : List Byte) : Rc × StunBuffer :=
  stunAttrAddStr m attr (some (ofList field)) field.length

def stunAttrAddChannelNumberStr (m : StunBuffer) (chnumber : BitVec 16) : Rc × StunBuffer :=
  stunAttrAddBytes m stunAttributeChannelNumber (be16 chnumber ++ be16 0)

def stunAttrAddBandwidthStr (m : StunBuffer) (bps0 : BitVec 64) : Rc × StunBuffer :=
  stunAttrAddBytes m stunAttributeNewBandwidth (be32 ((bps0 >>> 7).setWidth 32))

/-! ## Builders -/

/-- The number a request without a valid one draws; `rnd` is the result of `turn_random`. -/
def chooseChannel (channelNumber : BitVec 16) (rnd : Nat) : BitVec 16 :=
  if stunValidChannel channelNumber then channelNumber
  else 0x4000 + BitVec.ofNat 16 (rnd % 2 ^ 32 % (0x7FFF - 0x4000 + 1))

/-- A failed append answers 0 for the channel number and leaves the message as far as it got. -/
def stunSetChannelBindRequestStr (c : Choice) (peerAddr : Option IoaAddr)
    (channelNumber : BitVec 16) : BitVec 16 × StunBuffer :=
  let channelNumber := chooseChannel channelNumber (c.random 4)
  let m := stunInitRequestStr stunMethodChannelBind (c.junk 0) c.tid
  match stunAttrAddChannelNumberStr m channelNumber with
  | (.ok, m) =>
    match stunAttrAddAddrStr addrMappings m stunAttributeXorPeerAddress
        (peerAddr.getD IoaAddr.any) with
    | (.ok, m) => (channelNumber, m)
    | (_, m) => (0, m)
  | (_, m) => (0, m)

def addressFamilyValueIpv4 : Byte := 0x01
def addressFamilyValueIpv6 : Byte := 0x02

/-- The family attribute; RESERVATION-TOKEN takes its place when there is a token. -/
def addRequestedFamily (m : StunBuffer) (af4 af6 : Bool) (rt : Option (List Byte)) :
    Rc × StunBuffer :=
  match rt with
  | some token => (.ok, (stunAttrAddStr m stunAttributeReservationToken (some (ofList token)) 8).2)
  | none =>
    if af4 && !af6 then
      stunAttrAddBytes m stunAttributeRequestedAddressFamily [addressFamilyValueIpv4, 0, 0, 0]
    else if af6 && !af4 then
      stunAttrAddBytes m stunAttributeRequestedAddressFamily [addressFamilyValueIpv6, 0, 0, 0]
    else if af4 && af6 then
      stunAttrAddBytes m stunAttributeAdditionalAddressFamily [addressFamilyValueIpv6, 0, 0, 0]
    else (.ok, m)

def stunSetAllocateRequestStr (c : Choice) (lifetime : BitVec 32) (af4 af6 : Bool)
    (transport : Byte) (mobile : Bool) (rt : Option (List Byte)) (ep : Int) : Rc × StunBuffer :=
  let m := stunInitRequestStr stunMethodAllocate (c.junk 0) c.tid
  Rc.andThen (stunAttrAddBytes m stunAttributeRequestedTransport [transport, 0, 0, 0]) fun m =>
  Rc.andThen (stunAttrAddBytes m stunAttributeLifetime
    (be32 (if lifetime.toNat < 1 then 600 else lifetime))) fun m =>
  Rc.andThen (if mobile then stunAttrAddBytes m stunAttributeMobilityTicket [] else (.ok, m))
    fun m =>
  Rc.andThen (if -1 < ep then
    stunAttrAddBytes m stunAttributeEvenPort [if ep ≠ 0 then 0x80 else 0x00] else (.ok, m)) fun m =>
  addRequestedFamily m af4 af6 rt

/-- One XOR-PEER-ADDRESS for each address; the results are not looked at. -/
def addPeerAddrs (m : StunBuffer) : List IoaAddr → StunBuffer
  | [] => m
  | a :: as =>
    addPeerAddrs (stunAttrAddAddrStr addrMappings m stunAttributeXorPeerAddress a).2 as

def createPermissionRequest (c : Choice) (peers : List IoaAddr) : StunBuffer :=
  addPeerAddrs (stunInitRequestStr stunMethodCreatePermission (c.junk 0) c.tid) peers

def uclientSessionLifetime : BitVec 32 := 777

/-- The example Refresh request of `clnet_allocate`; `c.random 2` picks the family. -/
def refreshRequest (g : Globals) (c : Choice) (ci : ConnInfo) : StunBuffer :=
  let m := stunInitRequestStr stunMethodRefresh (c.junk 0) c.tid
  let m := (stunAttrAddBytes m stunAttributeLifetime (be32 uclientSessionLifetime)).2
  let m := if ci.sMobileId 0 ≠ 0 then
      (stunAttrAddString m stunAttributeMobilityTicket (cstr ci.sMobileId 33)).2 else m
  let t := c.random 2 % 256 % 3
  if g.dualAllocation && !g.mobility && t ≠ 0 then
    (stunAttrAddBytes m stunAttributeRequestedAddressFamily
      [if t = 1 then addressFamilyValueIpv4 else addressFamilyValueIpv6, 0, 0, 0]).2
  else m

/-- The common tail of every request: origins, integrity, fingerprint. -/
def finishRequest (g : Globals) (c : Choice) (ci : ConnInfo) (m : StunBuffer) :
    Int × ConnInfo × StunBuffer :=
  match addIntegrity g c ci (addOrigin g m) with
  | (rc, ci, m) => if rc < 0 then (-1, ci, m) else (0, ci, stunAttrAddFingerprintStr m)

/-! ## What the tail keeps -/

theorem addOauthToken_info (g : Globals) (c : Choice) (ci : ConnInfo) (m : StunBuffer) :
    ∃ key keySet cok, (addOauthToken g c ci m).2.1 =
      { ci with key := key, keySet := keySet, cok := cok } := by
  unfold addOauthToken
  simp only
  split <;> exact ⟨_, _, _, rfl⟩

theorem addIntegrity_info (g : Globals) (c : Choice) (ci : ConnInfo) (m : StunBuffer) :
    ∃ key keySet cok, (addIntegrity g c ci m).2.1 =
      { ci with key := key, keySet := keySet, cok := cok } := by
  unfold addIntegrity
  split
  · split
    · have htoken : ∃ key keySet cok,
          (if needsToken ci m then addOauthToken g c ci m else (0, ci, m)).2.1 =
            { ci with key := key, keySet := keySet, cok := cok } := by
        split
        · exact addOauthToken_info g c ci m
        · exact ⟨_, _, _, rfl⟩
      generalize (if needsToken ci m then addOauthToken g c ci m else (0, ci, m)) = r at htoken
      obtain ⟨rc, ci', m'⟩ := r
      simp only
      split
      · exact htoken
      · split
        · split <;> exact htoken
        · exact htoken
    · split <;> exact ⟨_, _, _, rfl⟩
  · exact ⟨_, _, _, rfl⟩

theorem finishRequest_info (g : Globals) (c : Choice) (ci : ConnInfo) (m : StunBuffer) :
    ∃ key keySet cok, (finishRequest g c ci m).2.1 =
      { ci with key := key, keySet := keySet, cok := cok } := by
  have hint := addIntegrity_info g c ci (addOrigin g m)
  unfold finishRequest
  simp only
  split <;> exact hint

/-- The types of the attributes the tail adds. -/
def tailTypes : List (BitVec 16) :=
  stunAttributeOrigin :: stunAttributeOauthAccessToken :: signingTypes

section Extends

variable {m : StunBuffer} {msgType : BitVec 16} {tid : StunTid} {attrs : List Tlv.Record}
  {bound : Nat} {added : Tlv.Record → Prop}

section Tail

variable (htail : ∀ r : Tlv.Record, r.1 ∈ tailTypes → added r)
include htail

theorem ExtendsBy.origin (h : ExtendsBy added m msgType tid attrs bound)
    (hroom : bound + 200 ≤ 65507) (g : Globals) :
    ExtendsBy added (addOrigin g m) msgType tid attrs (bound + 200) := by
  have hadded (v : List Byte) : added (stunAttributeOrigin, v) := htail _ (by simp [tailTypes])
  unfold addOrigin
  split
  · exact h.mono (by omega)
  · have hc : carleonOrigin.length ≤ 23 := by decide +kernel
    have hu : uffrithOrigin.length ≤ 17 := by decide +kernel
    obtain ⟨m₁, h₁, e₁⟩ := h.addString stunAttributeOrigin _ (hadded _) hc (by omega)
    obtain ⟨m₂, h₂, e₂⟩ := e₁.addString stunAttributeOrigin _ (hadded _) g.origin.fits (by omega)
    obtain ⟨m₃, h₃, e₃⟩ := e₂.addString stunAttributeOrigin _ (hadded _) hu (by omega)
    simp only [h₁, h₂, h₃]
    exact e₃.mono (by omega)

theorem ExtendsBy.oauthToken (h : ExtendsBy added m msgType tid attrs bound)
    (hroom : bound + 1032 ≤ 65507) (g : Globals) (c : Choice) (ci : ConnInfo) :
    ExtendsBy added (addOauthToken g c ci m).2.2 msgType tid attrs (bound + 1032) := by
  unfold addOauthToken
  simp only
  split
  · exact h.mono (by omega)
  · rename_i token _
    obtain ⟨m₁, h₁, e₁⟩ := h.addString stunAttributeOauthAccessToken _
      (htail _ (by simp [tailTypes])) token.fits (by omega)
    rw [stunAttrAddString] at h₁
    simp only [h₁]
    exact e₁

theorem ExtendsBy.integrity (h : ExtendsBy added m msgType tid attrs bound)
    (hroom : bound + 2032 ≤ 65507) (g : Globals) (c : Choice) (ci : ConnInfo) :
    ExtendsBy added (addIntegrity g c ci m).2.2 msgType tid attrs (bound + 2032) := by
  have hsigning (r : Tlv.Record) (hr : r.1 ∈ signingTypes) : added r :=
    htail r (List.mem_cons_of_mem _ (List.mem_cons_of_mem _ hr))
  have hrealm : (realmStr ci).length ≤ 128 := cstr_length _ _
  have hnonce : (nonceStr ci).length ≤ 128 := cstr_length _ _
  unfold addIntegrity
  split
  · split
    · have htoken : ExtendsBy added
          (if needsToken ci m then addOauthToken g c ci m else (0, ci, m)).2.2
          msgType tid attrs (bound + 1032) := by
        split
        · exact h.oauthToken htail (by omega) g c ci
        · exact h.mono (by omega)
      generalize (if needsToken ci m then addOauthToken g c ci m else (0, ci, m)) = r at htoken
      obtain ⟨rc, ci', m'⟩ := r
      have hrealm' : (realmStr ci').length ≤ 128 := cstr_length _ _
      have hnonce' : (nonceStr ci').length ≤ 128 := cstr_length _ _
      have hkid : (g.okeyKid ci'.cok).bytes.length ≤ 512 :=
        Nat.le_trans (g.okeyKid ci'.cok).fits (by omega)
      have hsigned := htoken.signedByKey hsigning (by omega) g.ssl hkid hrealm' hnonce' ci'.key
        g.shatype (c.junk 1) c.junkPwd
      simp only
      split
      · exact htoken.mono (by omega)
      · split
        · rename_i hcall
          rw [hcall] at hsigned
          simp only [stunCheckMessageIntegrityByKeyStr_buf]
          split <;> exact hsigned.mono (by omega)
        · rename_i hcall
          rw [hcall] at hsigned
          exact hsigned.mono (by omega)
    · have hsigned := h.signedByKey hsigning (by omega) g.ssl g.gUname.fits hrealm hnonce
        (stunProduceIntegrityKeyStr g.ssl g.gUname.bytes (realmStr ci) g.gUpwd.bytes (c.junk 2)
          g.shatype) g.shatype (c.junk 1) c.junkPwd
      rw [← stunAttrAddIntegrityByUserStr] at hsigned
      split
      · rename_i hcall
        rw [hcall] at hsigned
        exact hsigned.mono (by omega)
      · rename_i hcall
        rw [hcall] at hsigned
        exact hsigned.mono (by omega)
  · exact h.mono (by omega)

theorem ExtendsBy.finish (h : ExtendsBy added m msgType tid attrs bound)
    (hroom : bound + 2300 ≤ 65507) (g : Globals) (c : Choice) (ci : ConnInfo) :
    ExtendsBy added (finishRequest g c ci m).2.2 msgType tid attrs (bound + 2300) := by
  have hsigned := (h.origin htail (by omega) g).integrity htail (by omega) g c ci
  have hsigning (r : Tlv.Record) (hr : r.1 ∈ signingTypes) : added r :=
    htail r (List.mem_cons_of_mem _ (List.mem_cons_of_mem _ hr))
  unfold finishRequest
  simp only
  split
  · exact hsigned.mono (by omega)
  · exact (hsigned.fingerprint hsigning (by omega)).mono (by omega)

end Tail

theorem Extends.finish (h : Extends m msgType tid attrs bound) (hroom : bound + 2300 ≤ 65507)
    (g : Globals) (c : Choice) (ci : ConnInfo) :
    Extends (finishRequest g c ci m).2.2 msgType tid attrs (bound + 2300) :=
  extends_iff_extendsBy.mpr
    ((extends_iff_extendsBy.mp h).finish (fun _ _ => trivial) hroom g c ci)

end Extends

/-! ## The peer a request names -/

/-- The first XOR-PEER-ADDRESS of the message decodes to this address and port. -/
def CarriesPeer (m : StunBuffer) (a : IoaAddr) (port : Int) : Prop :=
  ∃ off b, stunAttrGetFirstByTypeStr m.buf m.len stunAttributeXorPeerAddress = some off ∧
    stunAttrGetAddrStr addrMappings m.buf (some off) none = (0, b) ∧
    addrEq b a = true ∧ (addrGetPort b : Int) = port

/-- The message was built for this peer: its first XOR-PEER-ADDRESS encodes it. -/
def NamesPeer (m : StunBuffer) (peer : IoaAddr) : Prop :=
  ∃ msgType tid pre v bound, stunAddrEncode peer true stunMagicCookie tid = some v ∧
    (∀ p ∈ pre, p.1 ≠ stunAttributeXorPeerAddress) ∧
    Extends m msgType tid (pre ++ [(stunAttributeXorPeerAddress, v)]) bound

theorem NamesPeer.carriesPeer_iff {m : StunBuffer} {peer : IoaAddr} (h : NamesPeer m peer)
    (a : IoaAddr) (port : Int) :
    CarriesPeer m a port ↔
      addrEq (onWire peer) a = true ∧ (addrGetPort (onWire peer) : Int) = port := by
  obtain ⟨msgType, tid, pre, v, bound, henc, hpre, ⟨extra, hm⟩, _⟩ := h
  rw [List.append_assoc, List.singleton_append] at hm
  obtain ⟨hfirst, hrec⟩ := hm.firstByType hpre
  have hget : stunAttrGetAddrStr addrMappings m.buf (some (20 + Tlv.size pre)) none =
      (0, onWire peer) := by
    refine stunAttrGetAddrStr_recordAt ?_ hrec
    rw [hm.header.tid_eq]
    exact henc
  constructor
  · rintro ⟨off, b, hoff, hb, heq, hport⟩
    have hsame : off = 20 + Tlv.size pre := Option.some.inj (hoff.symm.trans hfirst)
    rw [hsame, hget] at hb
    cases hb
    exact ⟨heq, hport⟩
  · rintro ⟨heq, hport⟩
    exact ⟨_, _, hfirst, hget, heq, hport⟩

theorem NamesPeer.finish {m : StunBuffer} {msgType : BitVec 16} {tid : StunTid}
    (pre : List Tlv.Record) {v : List Byte} {peer : IoaAddr}
    (henc : stunAddrEncode peer true stunMagicCookie tid = some v)
    (hpre : ∀ p ∈ pre, p.1 ≠ stunAttributeXorPeerAddress)
    (h : Extends m msgType tid (pre ++ [(stunAttributeXorPeerAddress, v)]) 1000)
    (g : Globals) (c : Choice) (ci : ConnInfo) : NamesPeer (finishRequest g c ci m).2.2 peer :=
  ⟨msgType, tid, pre, v, _, henc, hpre, h.finish (by omega) g c ci⟩

theorem isMessage_initRequest (method : BitVec 16) (buf : Mem) (tid : StunTid) :
    IsMessage (stunInitRequestStr method buf tid) (stunMakeRequest method &&& 0x3FFF) tid [] :=
  isMessage_initCommand _ _ _

theorem IsMessage.addPeer {m : StunBuffer} {msgType : BitVec 16} {tid : StunTid}
    {attrs : List Tlv.Record} (h : IsMessage m msgType tid attrs) (hlen : m.len ≤ 65000)
    {peer : IoaAddr} {v : List Byte}
    (henc : stunAddrEncode peer true stunMagicCookie tid = some v) :
    ∃ m', stunAttrAddAddrStr addrMappings m stunAttributeXorPeerAddress peer = (.ok, m') ∧
      IsMessage m' msgType tid (attrs ++ [(stunAttributeXorPeerAddress, v)]) ∧
      m'.len ≤ m.len + 28 := by
  have hv := stunAddrEncode_length henc
  have hbytes := attrBytes_ofList v
  obtain ⟨m', hcall, hm', hlen'⟩ := h.add_ok stunAttributeXorPeerAddress (some (ofList v)) v.length
    (by rw [hbytes]; unfold maxStunMessageSize; omega)
  rw [hbytes] at hm' hlen'
  refine ⟨m', ?_, hm', by omega⟩
  have hkey : stunAddrEncode (mapAddrFromPrivateToPublic addrMappings peer)
      (isXored stunAttributeXorPeerAddress) stunMagicCookie (stunTidFromMessageStr m.buf) =
      some v := by
    rw [h.header.tid_eq]
    exact henc
  simp only [stunAttrAddAddrStr, hkey]
  exact hcall

theorem stunSetChannelBindRequestStr_eq (c : Choice) {peer : IoaAddr} (channelNumber : BitVec 16)
    {v : List Byte} (henc : stunAddrEncode peer true stunMagicCookie c.tid = some v) :
    ∃ m, stunSetChannelBindRequestStr c (some peer) channelNumber =
        (chooseChannel channelNumber (c.random 4), m) ∧
      IsMessage m (stunMakeRequest stunMethodChannelBind &&& 0x3FFF) c.tid
        [(stunAttributeChannelNumber,
            be16 (chooseChannel channelNumber (c.random 4)) ++ be16 0),
          (stunAttributeXorPeerAddress, v)] ∧
      m.len ≤ 1000 := by
  have hinit := isMessage_initRequest stunMethodChannelBind (c.junk 0) c.tid
  have hinitLen := hinit.len_eq
  simp only [Tlv.size] at hinitLen
  generalize hnum : be16 (chooseChannel channelNumber (c.random 4)) ++ be16 0 = num
  have hnumLen : num.length = 4 := by rw [← hnum]; rfl
  have hbytes := attrBytes_ofList num
  obtain ⟨m₁, h₁, e₁, hlen₁⟩ := hinit.add_ok stunAttributeChannelNumber (some (ofList num)) num.length
    (by rw [hbytes]; unfold maxStunMessageSize; omega)
  rw [hbytes] at e₁ hlen₁
  obtain ⟨m₂, h₂, e₂, hlen₂⟩ := e₁.addPeer (by omega) henc
  have hnumber : stunAttrAddChannelNumberStr
      (stunInitRequestStr stunMethodChannelBind (c.junk 0) c.tid)
      (chooseChannel channelNumber (c.random 4)) = (.ok, m₁) := by
    rw [stunAttrAddChannelNumberStr, stunAttrAddBytes, hnum]
    exact h₁
  refine ⟨m₂, ?_, e₂, by omega⟩
  unfold stunSetChannelBindRequestStr
  simp only [hnumber, Option.getD_some, h₂]

theorem createPermissionRequest_eq (c : Choice) {peer : IoaAddr} {v : List Byte}
    (henc : stunAddrEncode peer true stunMagicCookie c.tid = some v) :
    IsMessage (createPermissionRequest c [peer])
        (stunMakeRequest stunMethodCreatePermission &&& 0x3FFF) c.tid
        [(stunAttributeXorPeerAddress, v)] ∧
      (createPermissionRequest c [peer]).len ≤ 1000 := by
  have hinit := isMessage_initRequest stunMethodCreatePermission (c.junk 0) c.tid
  have hinitLen := hinit.len_eq
  simp only [Tlv.size] at hinitLen
  obtain ⟨m₁, h₁, e₁, hlen₁⟩ := hinit.addPeer (by omega) henc
  simp only [createPermissionRequest, addPeerAddrs, h₁]
  exact ⟨e₁, by omega⟩

theorem channelBindRequest_namesPeer (g : Globals) (c : Choice) (ci : ConnInfo) {peer : IoaAddr}
    (hpeer : peer.known = true) (channelNumber : BitVec 16) :
    (stunSetChannelBindRequestStr c (some peer) channelNumber).1 =
        chooseChannel channelNumber (c.random 4) ∧
      NamesPeer (finishRequest g c ci
        (stunSetChannelBindRequestStr c (some peer) channelNumber).2).2.2 peer := by
  obtain ⟨v, henc⟩ := stunAddrEncode_known hpeer true stunMagicCookie c.tid
  obtain ⟨m, hm, hmsg, hlen⟩ := stunSetChannelBindRequestStr_eq c channelNumber henc
  rw [hm]
  refine ⟨rfl, NamesPeer.finish [_] henc ?_ (hmsg.toExtends.mono hlen) g c ci⟩
  intro p hp
  have hne : stunAttributeChannelNumber ≠ stunAttributeXorPeerAddress := by decide
  rw [List.mem_singleton.mp hp]
  exact hne

theorem createPermissionRequest_namesPeer (g : Globals) (c : Choice) (ci : ConnInfo)
    {peer : IoaAddr} (hpeer : peer.known = true) :
    NamesPeer (finishRequest g c ci (createPermissionRequest c [peer])).2.2 peer := by
  obtain ⟨v, henc⟩ := stunAddrEncode_known hpeer true stunMagicCookie c.tid
  obtain ⟨hmsg, hlen⟩ := createPermissionRequest_eq c henc
  exact NamesPeer.finish [] henc (by simp) (hmsg.toExtends.mono hlen) g c ci

end TurnClient
