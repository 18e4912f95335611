import TurnClient.BindingResponses
import TurnClient.NatDiscovery

/-!
# What the discovery finds behind a translator

The client of `natdiscovery.c` behind a translator of one of the usual kinds, in
front of a server that follows RFC 5780. The server answers from the address the
request asks for and names its other address; the translator leases an outside
name to each request and lets an answer in if its filter does. Hosts behind the
same translator may send what they like in between.
-/

namespace TurnClient.NatDiscovery

open ByteMemory Translation
set_option autoImplicit false

/-! ## Addresses as hosts and ports -/

abbrev Host := List Byte
abbrev Endpoint := Host × BitVec 16

def hostOf (a : IoaAddr) : Host := if a.family = .inet6 then a.in6.bytes else be32 a.word

def endpointOf (a : IoaAddr) : Endpoint := (hostOf a, a.port)

/-- Addresses as they are read off the wire. -/
abbrev WireAddr : Type := { a : IoaAddr // a.inetOrInet6 ∧ onWire a = a }

theorem addrEq_iff (a b : IoaAddr) :
    addrEq a b = true ↔ addrEqNoPort a b = true ∧ a.port = b.port := by
  rw [addrEqNoPort_iff]
  unfold addrEq
  by_cases hfam : a.family = b.family
  · rw [if_pos hfam]
    by_cases hport : a.port = b.port
    · cases hf : a.family <;> simp [← hfam, hf, hport]
    · simp [hport]
  · simp [hfam]

theorem onWire_eq_of_addrEq {a b : IoaAddr} (h : addrEq a b = true) : onWire a = onWire b := by
  obtain ⟨hhost, hport⟩ := (addrEq_iff a b).mp h
  obtain ⟨hfam, hval⟩ := (addrEqNoPort_iff a b).mp hhost
  rcases hval with ⟨hinet, hw⟩ | ⟨hinet6, hb⟩
  · have hb6 : b.family = .inet := hfam.symm.trans hinet
    simp [onWire, hinet, hb6, hport, hw]
  · have hb6 : b.family = .inet6 := hfam.symm.trans hinet6
    simp [onWire, hinet6, hb6, hport, In6Addr.ext hb]

/-- Of addresses off the wire `addr_eq` is equality. -/
theorem wireAddr_addrEq_iff (a b : WireAddr) : addrEq a.1 b.1 = true ↔ a = b := by
  constructor
  · intro h
    apply Subtype.ext
    rw [← a.2.2, ← b.2.2]
    exact onWire_eq_of_addrEq h
  · rintro rfl
    have hself := (addrEq_onWire a.2.1).1
    rwa [a.2.2] at hself

theorem addrSetPort_getPort {a : IoaAddr} (h : a.inetOrInet6) :
    addrSetPort a (addrGetPort a) = a := by
  have hcast : BitVec.ofInt 16 ((addrGetPort a : Nat) : Int) = a.port := by
    rw [addrGetPort_eq h, BitVec.ofInt_natCast, BitVec.ofNat_toNat, BitVec.setWidth_eq]
  unfold addrSetPort
  rcases h with h | h
  · rw [h]
    simp only [hcast]
    rw [← h]
  · rw [h]
    simp only [hcast]
    rw [← h]

theorem boundAddr_of_local {v : Vars} {src : IoaAddr} (hfamily : src.inetOrInet6)
    (haddr : v.localAddr = src) (hlocal : v.localPort = addrGetPort src) : boundAddr v = src := by
  unfold boundAddr
  rw [if_pos (by rw [hlocal]; exact Int.natCast_nonneg _), haddr, hlocal,
    addrSetPort_getPort hfamily]

/-! ## The server -/

/-- The endpoint an answer is sent from, as the request asks for it. -/
def originOf (other : IoaAddr → WireAddr) (dst : IoaAddr) (changeIp changePort : Bool) : Endpoint :=
  (hostOf (if changeIp then (other dst).1 else dst),
    if changePort then (other dst).1.port else dst.port)

/-- A server that follows RFC 5780: where each of its addresses has the other one, and what it
sends, and from where, when a request comes in at an address from a source. -/
structure Rfc5780Server where
  other : IoaAddr → WireAddr
  answer : IoaAddr → WireAddr → List Byte → Endpoint × List Byte
  other_known : ∀ dst, addrAny (other dst).1 = false
  answers : ∀ (dst : IoaAddr) (src : WireAddr) (env : ProbeEnv) (changeIp changePort padding : Bool),
    let m := request env (-1) changeIp changePort padding
    let r := answer dst src (slice m.buf 0 m.len)
    r.1 = originOf other dst changeIp changePort ∧
      Rfc5780Answer (.datagram r.2) src.1 (other dst).1

/-! ## A server made of the library -/

/-- The answer a server gives with the functions for reading a request and building a response. -/
def respond (other : IoaAddr → WireAddr) (dst : IoaAddr) (src : WireAddr) (bytes : List Byte) :
    Endpoint × List Byte :=
  let buf := ofList bytes
  let change := (stunAttrGetChangeRequestStr buf
    (stunAttrGetFirstByTypeStr buf bytes.length stunAttributeChangeRequest)).getD (0, 0)
  let m := (stunSetBindingResponseStr addrMappings (fun _ => 0) countingTid
    { tid := some (stunTidFromMessageStr buf)
      reflexiveAddr := some src.1
      errorCode := 0
      reason := none
      cookie := 0
      oldStun := false
      noStunBackwardCompatibility := false }).2
  let m := (stunAttrAddAddrStr addrMappings m stunAttributeOtherAddress (other dst).1).2
  (originOf other dst (change.1 != 0) (change.2 != 0), slice m.buf 0 m.len)

theorem agreeBelow_slice (m : Mem) (n : Nat) : AgreeBelow n m (ofList (slice m 0 n)) := by
  intro i hi
  have hbyte := slice_getElem? m 0 n i
  rw [if_pos hi, Nat.zero_add] at hbyte
  rw [ofList, List.getD_eq_getElem?_getD, hbyte, Option.getD_some]

theorem changeRequest_agree {buf buf' : Mem} {len a : Nat} (h : AgreeBelow len buf buf')
    (ha : InMessage buf len a) : stunAttrGetChangeRequestStr buf (some a) =
      stunAttrGetChangeRequestStr buf' (some a) := by
  obtain ⟨_, hend, hle⟩ := ha
  have hpad := Tlv.le_pad4 (get16 buf (a + 2)).toNat
  simp only [stunAttrGetChangeRequestStr, stunAttrGetLen_some, stunAttrGetValue_some,
    ← h.get16 (show a + 2 + 2 ≤ len by omega)]
  by_cases hfour : ((get16 buf (a + 2)).toNat : Int) = 4
  · rw [if_pos hfour, if_pos hfour, if_neg (by omega)]
    simp only [h (a + 4 + 3) (by omega)]
  · rw [if_neg hfour, if_neg hfour]

/-- The change a request asks for, read from its bytes. -/
theorem change_of_request (env : ProbeEnv) (changeIp changePort padding : Bool) :
    let m := request env (-1) changeIp changePort padding
    let bytes := slice m.buf 0 m.len
    (stunAttrGetChangeRequestStr (ofList bytes) (stunAttrGetFirstByTypeStr (ofList bytes)
        bytes.length stunAttributeChangeRequest)).getD (0, 0) =
      (if changeIp then 0x04 else 0, if changePort then 0x02 else 0) := by
  intro m bytes
  let senv : StunEnv := ⟨⟨fun _ => none, fun _ => none, fun _ => none⟩, 0, 0, 0, 0, env.buf, env.tid,
    [], none, []⟩
  have hread := (binding_request_read_back ⟨[], 0, -1, changeIp, changePort, padding⟩
    senv).2.2.change
  have hsame : bindingRequest ⟨[], 0, -1, changeIp, changePort, padding⟩ senv = m := rfl
  rw [hsame] at hread
  have hagree := agreeBelow_slice m.buf m.len
  have hlen : bytes.length = m.len := slice_length _ _ _
  rw [hlen, ← hagree.firstByType]
  cases hfirst : stunAttrGetFirstByTypeStr m.buf m.len stunAttributeChangeRequest with
  | none =>
    rw [hfirst] at hread
    have hnone : stunAttrGetChangeRequestStr (ofList bytes) none = none := rfl
    have hnone' : stunAttrGetChangeRequestStr m.buf none = none := rfl
    rw [hnone'] at hread
    rw [hnone]
    revert hread
    cases changeIp <;> cases changePort <;> simp
  | some a =>
    have hin := inMessage_of_mem (stunAttrGetFirstByTypeStr_some hfirst).1
    rw [hfirst] at hread
    rw [← changeRequest_agree hagree hin, hread]
    cases changeIp <;> cases changePort <;> rfl

theorem respond_origin (other : IoaAddr → WireAddr) (dst : IoaAddr) (src : WireAddr)
    (env : ProbeEnv) (changeIp changePort padding : Bool) :
    let m := request env (-1) changeIp changePort padding
    (respond other dst src (slice m.buf 0 m.len)).1 = originOf other dst changeIp changePort := by
  have hchange := change_of_request env changeIp changePort padding
  simp only [respond, hchange]
  cases changeIp <;> cases changePort <;> rfl

/-- A message whose attributes are addresses, one of them the mapped one and one the other one, is
the answer of a server of RFC 5780. -/
theorem rfc5780Answer_of_message {m : StunBuffer} {tid : StunTid}
    (as : List (BitVec 16 × IoaAddr)) (mapped other : WireAddr) (h : MessageUnder m stunMagicCookie
      (stunMakeSuccessResponse stunMethodBinding &&& 0x3FFF) tid
      (as.map fun p => addrRecord tid p.1 p.2))
    (hlen : m.len < maxStunMessageSize) (hknown : ∀ p ∈ as, p.2.known = true)
    (hmapped : (as.find? fun p => p.1 == stunAttributeXorMappedAddress).map Prod.snd =
      some mapped.1)
    (hother : (as.find? fun p => p.1 == stunAttributeOtherAddress).map Prod.snd = some other.1) :
    Rfc5780Answer (.datagram (slice m.buf 0 m.len)) mapped.1 other.1 := by
  have htype := and_3FFF_lt (stunMakeSuccessResponse stunMethodBinding)
  have hagree := agreeBelow_slice m.buf m.len
  have hfits : (slice m.buf 0 m.len).take maxStunMessageSize = slice m.buf 0 m.len :=
    List.take_of_length_le (by rw [slice_length]; omega)
  obtain ⟨hmethod, hsuccess⟩ := h.wellFormed (c := .success) rfl hlen
  have hcommand := (h.isOldCommand htype).2
  have hsucc : isBindingSuccess m.buf m.len = true := by
    rw [isBindingSuccess, hcommand, hsuccess, hmethod]
    rfl
  have hfirst := firstAddrFrom_addrRecords h.tid_eq (t := stunAttributeXorMappedAddress) (by decide)
    as hknown h.laidOut
  rw [← h.attrRefs_eq, firstAddrFrom_eq, hmapped] at hfirst
  have hfound : firstMappedAddress m.buf m.len = some mapped.1 := by
    unfold firstMappedAddress
    cases hdec : (attrRefs m.buf m.len).findSome? (decodedMappedAddress m.buf) with
    | none =>
      rw [hdec] at hfirst
      cases hfirst
    | some a =>
      rw [hdec] at hfirst
      have ha : a = onWire mapped.1 := congrArg Prod.snd hfirst
      rw [ha, mapped.2.2]
  refine ⟨_, rfl, ?_⟩
  simp only [hfits, slice_length, ← hagree.bindingSuccess, ← hagree.firstMapped, ← hagree.otherIn]
  refine ⟨hsucc, hfound, ?_⟩
  unfold otherIn
  rw [hfound, Option.isSome_some, if_pos rfl, stunAttrGetFirstByTypeStr_eq_find, h.attrRefs_eq,
    find_read_addrRecords h.tid_eq _ as hknown h.laidOut, hother, Option.map_some, other.2.2]

theorem wireAddr_known (a : WireAddr) : a.1.known = true := by
  obtain ⟨hfamily, _⟩ := a.2
  rcases hfamily with h | h <;> simp [IoaAddr.known, h]

theorem respond_answer (other : IoaAddr → WireAddr) (dst : IoaAddr) (src : WireAddr)
    (bytes : List Byte) :
    Rfc5780Answer (.datagram (respond other dst src bytes).2) src.1 (other dst).1 := by
  let args : BindingResponseArgs := ⟨some (stunTidFromMessageStr (ofList bytes)), some src.1, 0, none,
    0, false, false⟩
  have hone : ∀ (a : WireAddr), ∀ b ∈ (some a.1).toList, b.known = true := by
    intro a b hb
    rw [List.mem_singleton.mp hb]
    exact wireAddr_known a
  obtain ⟨m, hbuilt, hm⟩ := stunSetBindingResponseStr_success (fun _ => 0) countingTid args rfl
    (hone src)
  have hsize := size_bindingAddrs (args.tid.getD countingTid) args
  obtain ⟨m', hadd, hm'⟩ := hm.optAddr_ok (by omega) stunAttributeOtherAddress (hone (other dst))
  have hrespond : (respond other dst src bytes).2 = slice m'.buf 0 m'.len := by
    simp only [respond]
    rw [hbuilt]
    simp only
    rw [← addOptAddr.eq_2, hadd]
  have hlen := hm'.len_eq
  have hrecord := size_addrRecords (args.tid.getD countingTid) stunAttributeOtherAddress
    (some (other dst).1).toList
  have hcount : (some (other dst).1).toList.length = 1 := rfl
  rw [Tlv.size_append] at hlen
  rw [hrespond]
  refine rfc5780Answer_of_message (bindingAddrs args ++ [(stunAttributeOtherAddress,
    (other dst).1)]) src (other dst) (by rw [List.map_append]; exact hm') ?_ ?_ rfl rfl
  · unfold maxStunMessageSize
    omega
  · intro p hp
    have hmem : p = (stunAttributeXorMappedAddress, src.1) ∨
        p = (stunAttributeMappedAddress, src.1) ∨
        p = (stunAttributeOtherAddress, (other dst).1) := by
      have hlist : bindingAddrs args = [(stunAttributeXorMappedAddress, src.1),
        (stunAttributeMappedAddress, src.1)] := rfl
      rw [hlist] at hp
      simpa using hp
    rcases hmem with rfl | rfl | rfl
    · exact wireAddr_known src
    · exact wireAddr_known src
    · exact wireAddr_known (other dst)

/-- The server the library makes, for any other addresses of its own. -/
def responder (other : IoaAddr → WireAddr) (h : ∀ dst, addrAny (other dst).1 = false) :
    Rfc5780Server where
  other := other
  answer := respond other
  other_known := h
  answers dst src env changeIp changePort padding :=
    ⟨respond_origin other dst src env changeIp changePort padding, respond_answer other dst src _⟩

/-! ## A test behind a translator -/

abbrev NatState := State IoaAddr (Option Host × Option (BitVec 16))
  (Option Host × Option (BitVec 16)) WireAddr

abbrev NatSupply := Supply (IoaAddr × Option Host × Option (BitVec 16)) WireAddr

/-- A translator by what its mapping and its filter look at. -/
structure Translator where
  mapping : Dependence
  filtering : Dependence
  supply : NatSupply

def Translator.policy (nat : Translator) :
    Policy Endpoint (Option Host × Option (BitVec 16)) (Option Host × Option (BitVec 16)) :=
  Dependence.policy nat.mapping nat.filtering

def Translator.send (nat : Translator) (t : NatState) (src dst : IoaAddr) :
    Option WireAddr × NatState :=
  outbound nat.policy nat.supply t src (endpointOf dst)

/-- What else leaves through the translator. -/
def Translator.traffic (nat : Translator) (t : NatState) (ps : List (IoaAddr × Endpoint)) :
    NatState :=
  Translation.traffic nat.policy nat.supply t ps

/-- What comes back for a request sent under a name: the answer if it is let in, else a timeout. -/
def delivery (nat : Translator) (srv : Rfc5780Server) (t : NatState) (dst : IoaAddr) (n : WireAddr)
    (m : StunBuffer) : RecvOutcome :=
  let r := srv.answer dst n (slice m.buf 0 m.len)
  if (inbound nat.policy t n r.1).isSome then .datagram r.2 else .failed .eagain

/-- A test whose socket calls work: the socket keeps the address it is bound to, the request leaves
under a name, and what is received is what the translator lets in. -/
structure Tested (nat : Translator) (srv : Rfc5780Server) (t t' : NatState) (v : Vars)
    (changeIp changePort padding : Bool) (src : IoaAddr) (n : WireAddr) (env : ProbeEnv) :
    Prop where
  socket : 0 ≤ env.socketFd
  bound : env.bindRet = 0
  sent : ∃ k, sendLoop env.sends = some k ∧ 0 ≤ k
  named : env.sockName = some src
  kept : (boundAddr v).port ≠ 0 → src = boundAddr v
  family : src.inetOrInet6
  port : src.port ≠ 0
  leased : nat.send t src v.remoteAddr = (some n, t')
  received : recvLoop env.recvs =
    some (delivery nat srv t' v.remoteAddr n (request env (-1) changeIp changePort padding))

/-- The variables behind a test that is answered. -/
def Vars.found (v : Vars) (srv : Rfc5780Server) (src : IoaAddr) (n : WireAddr) : Vars :=
  { v with
    localAddr := src
    localPort := addrGetPort src
    reflexiveAddr := n.1
    otherAddr := (srv.other v.remoteAddr).1
    rfc5780 := true }

@[simp] theorem found_reflexiveAddr (v : Vars) (srv : Rfc5780Server) (src : IoaAddr)
    (n : WireAddr) : (v.found srv src n).reflexiveAddr = n.1 := rfl

@[simp] theorem found_otherAddr (v : Vars) (srv : Rfc5780Server) (src : IoaAddr) (n : WireAddr) :
    (v.found srv src n).otherAddr = (srv.other v.remoteAddr).1 := rfl

/-- The variables behind a test that is not. -/
def Vars.unanswered (v : Vars) (src : IoaAddr) : Vars :=
  { v with localAddr := src, localPort := addrGetPort src }

theorem testFails_of_answer {outcome : RecvOutcome} {m other : IoaAddr}
    (h : Rfc5780Answer outcome m other) : testFails outcome = false := by
  obtain ⟨bytes, rfl, hsucc, _⟩ := h
  simp only [isBindingSuccess, Bool.and_eq_true] at hsucc
  simp only [testFails, heard, hsucc.1.1, isResponse_of_success hsucc.1.2, Bool.true_or,
    Bool.and_true, Bool.not_true]

namespace Tested

variable {nat : Translator} {srv : Rfc5780Server} {t t' : NatState} {v : Vars}
variable {changeIp changePort padding : Bool} {src : IoaAddr} {n : WireAddr} {env : ProbeEnv}

theorem goesThrough (h : Tested nat srv t t' v changeIp changePort padding src n env) :
    GoesThrough v env (delivery nat srv t' v.remoteAddr n
      (request env (-1) changeIp changePort padding)) := by
  refine ⟨h.socket, ?_, h.sent, h.received⟩
  have hfd := h.socket
  unfold addrBind
  rw [if_neg (by omega), h.bound]
  by_cases hfam : (boundAddr v).family = .inet ∨ (boundAddr v).family = .inet6
  · rw [if_pos hfam]
    exact Or.inr (Int.le_refl 0)
  · left
    unfold addrAny
    split
    · exact absurd (Or.inl ‹_›) hfam
    · exact absurd (Or.inr ‹_›) hfam
    · rfl

/-- The answer is let in exactly when the filter remembers the endpoint it is sent from. -/
theorem inbound_iff (h : Tested nat srv t t' v changeIp changePort padding src n env)
    (peer : Endpoint) :
    (inbound nat.policy t' n peer).isSome = true ↔ (n, nat.filtering.key peer) ∈ t'.passes := by
  have hleased := h.leased
  have hfind := (outbound_some nat.policy nat.supply (congrArg Prod.fst hleased)).1
  rw [Translator.send] at hleased
  rw [hleased] at hfind
  rw [inbound_eq nat.policy hfind]
  have hkey : nat.policy.filterKey peer = nat.filtering.key peer := rfl
  rw [hkey]
  split
  · simp [*]
  · simp [*]

theorem run_let_in (h : Tested nat srv t t' v changeIp changePort padding src n env)
    (hpass : (n, nat.filtering.key (originOf srv.other v.remoteAddr changeIp changePort)) ∈
      t'.passes) :
    runStunclient v changeIp changePort padding env = .ok (false, v.found srv src n) := by
  obtain ⟨horigin, hanswer⟩ := srv.answers v.remoteAddr n env changeIp changePort padding
  have hgoes := h.goesThrough
  have hin := (h.inbound_iff _).mpr hpass
  rw [← horigin] at hin
  simp only [delivery, hin, if_true] at hgoes
  rw [runStunclient_ok_iff]
  refine ⟨_, hgoes, ?_⟩
  rw [testFails_of_answer hanswer, after_of_answer hanswer]
  simp only [Vars.named, h.named, Vars.found]

theorem run_kept_out (h : Tested nat srv t t' v changeIp changePort padding src n env)
    (hpass : (n, nat.filtering.key (originOf srv.other v.remoteAddr changeIp changePort)) ∉
      t'.passes) :
    runStunclient v changeIp changePort padding env = .ok (true, v.unanswered src) := by
  obtain ⟨horigin, hanswer⟩ := srv.answers v.remoteAddr n env changeIp changePort padding
  have hgoes := h.goesThrough
  have hout := mt (h.inbound_iff _).mp hpass
  rw [← horigin] at hout
  simp only [delivery, hout, Bool.false_eq_true, if_false] at hgoes
  rw [runStunclient_ok_iff]
  refine ⟨_, hgoes, ?_⟩
  simp only [testFails, Vars.after, Vars.named, h.named, Vars.unanswered]

/-- An answer from where the request was sent to is let in. -/
theorem run_plain (h : Tested nat srv t t' v false false padding src n env) :
    runStunclient v false false padding env = .ok (false, v.found srv src n) := by
  apply h.run_let_in
  have hleased := h.leased
  have hpasses := (outbound_some nat.policy nat.supply (congrArg Prod.fst hleased)).2
  rw [Translator.send] at hleased
  rw [hleased] at hpasses
  rw [hpasses]
  exact List.mem_cons_self

/-- A test that follows another one is sent from the same address. -/
theorem src_eq (h : Tested nat srv t t' v changeIp changePort padding src n env) {src₀ : IoaAddr}
    (hfamily : src₀.inetOrInet6) (hport : src₀.port ≠ 0) (haddr : v.localAddr = src₀)
    (hlocal : v.localPort = addrGetPort src₀) : src = src₀ := by
  have hbound := boundAddr_of_local hfamily haddr hlocal
  rw [h.kept (by rw [hbound]; exact hport), hbound]

/-- Two requests from one address leave under one name exactly when the mapping sees no difference
between their destinations. -/
theorem name_eq_iff (h : Tested nat srv t t' v changeIp changePort padding src n env)
    {t₁ : NatState} {v₁ : Vars} {changeIp₁ changePort₁ padding₁ : Bool} {n₁ : WireAddr}
    {env₁ : ProbeEnv} {ps : List (IoaAddr × Endpoint)}
    (h₁ : Tested nat srv (nat.traffic t' ps) t₁ v₁ changeIp₁ changePort₁ padding₁ src n₁ env₁) :
    n = n₁ ↔ nat.mapping.same (endpointOf v.remoteAddr) (endpointOf v₁.remoteAddr) := by
  have hleased := h.leased
  have hleased₁ := h₁.leased
  rw [Translator.send] at hleased hleased₁
  have hfirst : (outbound nat.policy nat.supply t src (endpointOf v.remoteAddr)).1 = some n := by
    rw [hleased]
  have hafter : (outbound nat.policy nat.supply t src (endpointOf v.remoteAddr)).2 = t' := by
    rw [hleased]
  have hsecond := congrArg Prod.fst hleased₁
  rw [Translator.traffic, ← hafter] at hsecond
  rw [outbound_name_eq_iff nat.policy nat.supply hfirst hsecond, and_iff_right rfl]
  exact nat.mapping.key_eq_iff _ _

end Tested

/-! ## Tests that work -/

/-- The outside of a test that works, for what the translator leaves behind the request. -/
def workingEnv (nat : Translator) (srv : Rfc5780Server) (t' : NatState) (v : Vars)
    (changeIp changePort padding : Bool) (src : IoaAddr) (n : WireAddr) : ProbeEnv :=
  let env : ProbeEnv := ⟨3, 0, fun _ => 0, countingTid, [.sent 20], some src, []⟩
  { env with recvs := [delivery nat srv t' v.remoteAddr n
      (request env (-1) changeIp changePort padding)] }

theorem recvLoop_delivery (nat : Translator) (srv : Rfc5780Server) (t : NatState) (dst : IoaAddr)
    (n : WireAddr) (m : StunBuffer) :
    recvLoop [delivery nat srv t dst n m] = some (delivery nat srv t dst n m) := by
  unfold delivery
  simp only
  split <;> rfl

theorem tested_workingEnv {nat : Translator} {srv : Rfc5780Server} {t t' : NatState} {v : Vars}
    {changeIp changePort padding : Bool} {src : IoaAddr} {n : WireAddr}
    (hkept : (boundAddr v).port ≠ 0 → src = boundAddr v) (hfamily : src.inetOrInet6)
    (hport : src.port ≠ 0) (hleased : nat.send t src v.remoteAddr = (some n, t')) :
    Tested nat srv t t' v changeIp changePort padding src n
      (workingEnv nat srv t' v changeIp changePort padding src n) :=
  ⟨by simp [workingEnv], rfl, ⟨20, rfl, by decide⟩, rfl, hkept, hfamily, hport, hleased,
    recvLoop_delivery nat srv t' v.remoteAddr n _⟩

def inetAddr (word : BitVec 32) (port : BitVec 16) : WireAddr :=
  ⟨{ IoaAddr.any with family := .inet, port := port, word := word }, Or.inl rfl, rfl⟩

/-- Outside names 198.51.100.1:40000 and up, as long as they are not in use. -/
def countingSupply : NatSupply where
  next _ used :=
    let n := inetAddr 0xC6336401 (40000 + BitVec.ofNat 16 used.length)
    if n ∈ used then none else some n
  unused := by
    intro k used n h
    simp only at h
    split at h
    · cases h
    · cases h
      assumption

/-- The two hosts 192.0.2.1 and 192.0.2.2 with the ports 3478 and 3479. -/
def flipped (dst : IoaAddr) : WireAddr :=
  inetAddr (if dst.word = 0xC0000201 then 0xC0000202 else 0xC0000201)
    (if dst.port = 3478 then 3479 else 3478)

theorem flipped_known (dst : IoaAddr) : addrAny (flipped dst).1 = false := by
  unfold flipped inetAddr addrAny
  simp only
  split <;> split <;> rfl

def testServer : Rfc5780Server := responder flipped flipped_known

def testOptions : Options := ⟨[], [0x31], 3478, -1, false⟩

def testResolver : Resolver := ⟨fun _ => some 0xC0000201, fun _ => none, fun _ => none⟩

def testStart : Vars :=
  ⟨IoaAddr.any, (inetAddr 0xC0000201 3478).1, IoaAddr.any, IoaAddr.any, -1, false⟩

theorem testInit : init testResolver testOptions true testStart = .ok testStart := rfl

/-- The client behind the translator is 192.168.1.2:50000. -/
def testSrc : IoaAddr := (inetAddr 0xC0A80102 50000).1

/-- A translator whose mapping depends on the address alone, and whose filter on both. -/
def testNat : Translator := ⟨.addressDependent, .addressAndPortDependent, countingSupply⟩

theorem send_of_name {nat : Translator} {t : NatState} {src dst : IoaAddr} (n : WireAddr)
    (h : (nat.send t src dst).1 = some n) :
    nat.send t src dst = (some n, (nat.send t src dst).2) :=
  Prod.ext h rfl

/-! ## The mapping -/

/-- What the discovery makes of a mapping that looks at this of the three destinations. -/
def observed (k : Dependence) (d₁ d₂ d₃ : Endpoint) : Dependence :=
  if k.same d₁ d₂ then .endpointIndependent
  else if k.same d₂ d₃ then .addressDependent
  else .addressAndPortDependent

/-- The destination of the second test. -/
def secondDst (srv : Rfc5780Server) (o : Options) (dst : IoaAddr) : IoaAddr :=
  addrSetPort (srv.other dst).1 o.remotePort

/-- A mapping discovery behind a translator: the three tests with what else leaves between them.
The second goes to the other host of the server at the port of the command line, the third to what
the second answer names, unless the second test has settled the matter. -/
structure MappingRun (nat : Translator) (srv : Rfc5780Server) (o : Options) (start : Vars)
    (src : IoaAddr) (env₁ env₂ env₃ : ProbeEnv) where
  before : NatState
  after₁ : NatState
  after₂ : NatState
  after₃ : NatState
  between₁ : List (IoaAddr × Endpoint)
  between₂ : List (IoaAddr × Endpoint)
  src₂ : IoaAddr
  src₃ : IoaAddr
  name₁ : WireAddr
  name₂ : WireAddr
  name₃ : WireAddr
  test₁ : Tested nat srv before after₁ start false false o.padding src name₁ env₁
  test₂ : Tested nat srv (nat.traffic after₁ between₁) after₂
    ((start.found srv src name₁).toward (secondDst srv o start.remoteAddr)) false false o.padding src₂
    name₂ env₂
  test₃ : ¬nat.mapping.same (endpointOf start.remoteAddr)
      (endpointOf (secondDst srv o start.remoteAddr)) →
    Tested nat srv (nat.traffic after₂ between₂) after₃
      ((((start.found srv src name₁).toward (secondDst srv o start.remoteAddr)).found srv src₂
        name₂).toward (srv.other (secondDst srv o start.remoteAddr)).1) false false o.padding src₃
      name₃ env₃

section MappingRun

variable {nat : Translator} {srv : Rfc5780Server} {r : Resolver} {o : Options} {first : Bool}
variable {v start : Vars} {src : IoaAddr} {env₁ env₂ env₃ : ProbeEnv}

theorem mappingThird_tested {t t' : NatState} {w : Vars} {n : WireAddr} (ds : List Decision)
    (h : Tested nat srv t t' (w.toward w.otherAddr) false false o.padding src n env₃) :
    mappingThird o ds w env₃ = .ok (ds ++ [.mapping (if addrEq w.reflexiveAddr n.1
      then .addressDependent else .addressAndPortDependent)],
        (w.toward w.otherAddr).found srv src n) := by
  unfold mappingThird
  rw [h.run_plain]
  by_cases haddr : addrEq w.reflexiveAddr n.1 = true
  · simp only [bind, Except.bind, found_reflexiveAddr, haddr, if_true]
  · simp only [bind, Except.bind, found_reflexiveAddr, haddr, Bool.false_eq_true, if_false]

theorem mappingSecond_tested {t t' : NatState} {w : Vars} {n : WireAddr} (ds : List Decision)
    (h : Tested nat srv t t' (w.toward (addrSetPort w.otherAddr o.remotePort)) false false o.padding
      src n env₂) :
    mappingSecond o ds w env₂ env₃ =
      let w' := (w.toward (addrSetPort w.otherAddr o.remotePort)).found srv src n
      if addrEq w.reflexiveAddr n.1 then .ok (ds ++ [.mapping .endpointIndependent], w')
      else mappingThird o ds w' env₃ := by
  unfold mappingSecond
  simp only [h.run_plain, bind, Except.bind, found_reflexiveAddr]
  rfl

/-- Behind every translator, whatever else leaves through it, the decision is what the mapping makes
of the three destinations. -/
theorem mappingDiscovery_decisions (hinit : init r o first v = .ok start)
    (run : MappingRun nat srv o start src env₁ env₂ env₃) :
    ∃ v', mappingDiscovery r o first v env₁ env₂ env₃ =
      .ok ((if addrEq src run.name₁.1 then [.noNat] else []) ++
        [.mapping (observed nat.mapping (endpointOf start.remoteAddr)
          (endpointOf (secondDst srv o start.remoteAddr))
          (endpointOf (srv.other (secondDst srv o start.remoteAddr)).1))], v') := by
  have hsrc₂ : run.src₂ = src :=
    run.test₂.src_eq run.test₁.family run.test₁.port rfl rfl
  have hname₂ := run.test₁.name_eq_iff (hsrc₂ ▸ run.test₂)
  rw [toward_remoteAddr] at hname₂
  have hmore : ((start.found srv src run.name₁).rfc5780 &&
      !addrAny (start.found srv src run.name₁).otherAddr) = true := by
    simp only [Vars.found, srv.other_known, Bool.not_false, Bool.and_self]
  unfold mappingDiscovery firstTest
  rw [hinit]
  simp only [run.test₁.run_plain, bind, Except.bind, hmore, if_true]
  rw [mappingSecond_tested _ run.test₂, found_reflexiveAddr]
  simp only [wireAddr_addrEq_iff, hname₂]
  unfold observed
  by_cases h₂ : nat.mapping.same (endpointOf start.remoteAddr)
      (endpointOf (secondDst srv o start.remoteAddr))
  · rw [if_pos h₂, if_pos h₂]
    exact ⟨_, rfl⟩
  · rw [if_neg h₂, if_neg h₂]
    have htest₃ := run.test₃ h₂
    have hsrc₃ : run.src₃ = run.src₂ :=
      htest₃.src_eq run.test₂.family run.test₂.port rfl rfl
    have hname₃ := run.test₂.name_eq_iff (hsrc₃ ▸ htest₃)
    rw [toward_remoteAddr, toward_remoteAddr] at hname₃
    have hthird := mappingThird_tested (noNatDecision (start.found srv src run.name₁)) htest₃
    rw [found_reflexiveAddr] at hthird
    simp only [wireAddr_addrEq_iff, hname₃] at hthird
    exact ⟨_, hthird⟩

/-- When the three destinations let a mapping come out as what it is: one by address, if the second
has another host than the first and the host of the third; one by address and port, if each differs
from the one before; and one by neither, always. -/
def MappingShows : Dependence → Endpoint → Endpoint → Endpoint → Prop
  | .endpointIndependent, _, _, _ => True
  | .addressDependent, d₁, d₂, d₃ => d₁.1 ≠ d₂.1 ∧ d₂.1 = d₃.1
  | .addressAndPortDependent, d₁, d₂, d₃ => d₁ ≠ d₂ ∧ d₂ ≠ d₃

theorem observed_eq_iff (k : Dependence) (d₁ d₂ d₃ : Endpoint) :
    observed k d₁ d₂ d₃ = k ↔ MappingShows k d₁ d₂ d₃ := by
  unfold observed
  cases k with
  | endpointIndependent => simp [Dependence.same, MappingShows]
  | addressDependent =>
    simp only [Dependence.same, MappingShows]
    by_cases h₁ : d₁.1 = d₂.1
    · simp [h₁]
    · simp only [h₁, if_false, ne_eq, not_false_eq_true, true_and]
      by_cases h₂ : d₂.1 = d₃.1 <;> simp [h₂]
  | addressAndPortDependent =>
    simp only [Dependence.same, MappingShows]
    by_cases h₁ : d₁ = d₂
    · simp [h₁]
    · by_cases h₂ : d₂ = d₃
      · subst h₂
        simp [h₁]
      · simp [h₁, h₂]

theorem observed_of_hosts_ne (k : Dependence) {d₁ d₂ d₃ : Endpoint} (h₁ : d₁.1 ≠ d₂.1)
    (h₂ : d₂.1 ≠ d₃.1) : observed k d₁ d₂ d₃ =
      if k = .endpointIndependent then .endpointIndependent else .addressAndPortDependent := by
  have h₁' : d₁ ≠ d₂ := fun heq => h₁ (congrArg Prod.fst heq)
  have h₂' : d₂ ≠ d₃ := fun heq => h₂ (congrArg Prod.fst heq)
  unfold observed
  cases k with
  | endpointIndependent => rfl
  | addressDependent => simp only [Dependence.same, h₁, h₂, if_false, reduceCtorEq]
  | addressAndPortDependent => simp only [Dependence.same, h₁', h₂', if_false, reduceCtorEq]

theorem mem_last_iff {c : Prop} [Decidable c] {d d' : Decision} (hd : d ≠ .noNat) :
    d ∈ (if c then [.noNat] else []) ++ [d'] ↔ d = d' := by
  split <;> simp [hd]

/-- The decision names the kind of the mapping exactly when the three destinations let it show. -/
theorem mapping_decision_right_iff (hinit : init r o first v = .ok start)
    (run : MappingRun nat srv o start src env₁ env₂ env₃) :
    ∃ ds v', mappingDiscovery r o first v env₁ env₂ env₃ = .ok (ds, v') ∧
      (.mapping nat.mapping ∈ ds ↔ MappingShows nat.mapping (endpointOf start.remoteAddr)
        (endpointOf (secondDst srv o start.remoteAddr))
        (endpointOf (srv.other (secondDst srv o start.remoteAddr)).1)) := by
  obtain ⟨v', hrun⟩ := mappingDiscovery_decisions hinit run
  refine ⟨_, v', hrun, ?_⟩
  rw [mem_last_iff Decision.noConfusion, Decision.mapping.injEq, eq_comm, observed_eq_iff]

theorem hostOf_secondDst (dst : IoaAddr) :
    hostOf (secondDst srv o dst) = hostOf (srv.other dst).1 := by
  unfold secondDst addrSetPort hostOf
  split <;> simp [*]

/-- In each of its answers the server names the other one of two hosts. -/
def Rfc5780Server.Alternates (srv : Rfc5780Server) (o : Options) (dst : IoaAddr) : Prop :=
  hostOf (srv.other dst).1 ≠ hostOf dst ∧ hostOf (srv.other (secondDst srv o dst)).1 = hostOf dst

/-- With such a server the third test goes back to the first host, and a mapping that depends on the
address alone is reported as one that depends on the port too. -/
theorem alternating_server_decision (hinit : init r o first v = .ok start)
    (run : MappingRun nat srv o start src env₁ env₂ env₃)
    (halt : srv.Alternates o start.remoteAddr) :
    ∃ ds v', mappingDiscovery r o first v env₁ env₂ env₃ = .ok (ds, v') ∧
      ∀ d, .mapping d ∈ ds ↔ d = if nat.mapping = .endpointIndependent
        then .endpointIndependent else .addressAndPortDependent := by
  obtain ⟨v', hrun⟩ := mappingDiscovery_decisions hinit run
  obtain ⟨hother, hback⟩ := halt
  have h₁ : (endpointOf start.remoteAddr).1 ≠
      (endpointOf (secondDst srv o start.remoteAddr)).1 := by
    rw [endpointOf, endpointOf, hostOf_secondDst]
    exact Ne.symm hother
  have h₂ : (endpointOf (secondDst srv o start.remoteAddr)).1 ≠
      (endpointOf (srv.other (secondDst srv o start.remoteAddr)).1).1 := by
    rw [endpointOf, endpointOf, hostOf_secondDst, hback]
    exact hother
  refine ⟨_, v', hrun, fun d => ?_⟩
  rw [mem_last_iff Decision.noConfusion, Decision.mapping.injEq, observed_of_hosts_ne _ h₁ h₂]

end MappingRun

section QuietMapping

variable (nat : Translator) (srv : Rfc5780Server) (o : Options) (start : Vars) (src : IoaAddr)
variable {t₁ t₂ t₃ : NatState} {n₁ n₂ n₃ : WireAddr}

/-- A mapping discovery through a translator that nobody else uses. -/
def quietMapping (hkept : (boundAddr start).port ≠ 0 → src = boundAddr start)
    (hfamily : src.inetOrInet6) (hport : src.port ≠ 0)
    (h₁ : nat.send State.initial src start.remoteAddr = (some n₁, t₁))
    (h₂ : nat.send t₁ src (secondDst srv o start.remoteAddr) = (some n₂, t₂))
    (h₃ : nat.send t₂ src (srv.other (secondDst srv o start.remoteAddr)).1 = (some n₃, t₃)) :
    let v₂ := (start.found srv src n₁).toward (secondDst srv o start.remoteAddr)
    let v₃ := (v₂.found srv src n₂).toward (srv.other (secondDst srv o start.remoteAddr)).1
    MappingRun nat srv o start src (workingEnv nat srv t₁ start false false o.padding src n₁)
      (workingEnv nat srv t₂ v₂ false false o.padding src n₂)
      (workingEnv nat srv t₃ v₃ false false o.padding src n₃) where
  before := State.initial
  after₁ := t₁
  after₂ := t₂
  after₃ := t₃
  between₁ := []
  between₂ := []
  src₂ := src
  src₃ := src
  name₁ := n₁
  name₂ := n₂
  name₃ := n₃
  test₁ := tested_workingEnv hkept hfamily hport h₁
  test₂ := tested_workingEnv (fun _ => (boundAddr_of_local hfamily rfl rfl).symm) hfamily hport h₂
  test₃ := fun _ =>
    tested_workingEnv (fun _ => (boundAddr_of_local hfamily rfl rfl).symm) hfamily hport h₃

end QuietMapping

/-- Against a server that names the other one of its two addresses each time. -/
def alternatingMapping :=
  quietMapping testNat testServer testOptions testStart testSrc (fun h => absurd rfl h) (Or.inl rfl)
    (by decide) (send_of_name (inetAddr 0xC6336401 40000) (by decide +kernel))
    (send_of_name (inetAddr 0xC6336401 40001) (by decide +kernel))
    (send_of_name (inetAddr 0xC6336401 40000) (by decide +kernel))

theorem alternating_server_misses : ∃ env₁ env₂ env₃ ds v',
    mappingDiscovery testResolver testOptions true testStart env₁ env₂ env₃ = .ok (ds, v') ∧
      .mapping testNat.mapping ∉ ds := by
  obtain ⟨ds, v', hrun, hds⟩ := alternating_server_decision testInit alternatingMapping
    ⟨by decide, by decide⟩
  exact ⟨_, _, _, ds, v', hrun, by rw [hds]; decide⟩

/-- A server that names the same address each time. -/
def steadyServer : Rfc5780Server := responder (fun _ => inetAddr 0xC0000202 3479) fun _ => rfl

def steadyMapping :=
  quietMapping testNat steadyServer testOptions testStart testSrc (fun h => absurd rfl h)
    (Or.inl rfl) (by decide) (send_of_name (inetAddr 0xC6336401 40000) (by decide +kernel))
    (send_of_name (inetAddr 0xC6336401 40001) (by decide +kernel))
    (send_of_name (inetAddr 0xC6336401 40001) (by decide +kernel))

theorem steady_server_mapping : ∃ env₁ env₂ env₃ ds v',
    mappingDiscovery testResolver testOptions true testStart env₁ env₂ env₃ = .ok (ds, v') ∧
      .mapping testNat.mapping ∈ ds := by
  obtain ⟨ds, v', hrun, hds⟩ := mapping_decision_right_iff testInit steadyMapping
  exact ⟨_, _, _, ds, v', hrun, hds.mpr ⟨by decide, by decide⟩⟩

/-! ## The filtering -/

/-- What the discovery makes of a filter: which of the two other endpoints it takes for the one the
request was sent to. -/
def observedFilter (k : Dependence) (other : IoaAddr → WireAddr) (dst : IoaAddr) : Dependence :=
  if k.same (originOf other dst true true) (endpointOf dst) then .endpointIndependent
  else if k.same (originOf other dst false true) (endpointOf dst) then .addressDependent
  else .addressAndPortDependent

/-- A filtering discovery behind a translator, from an address nobody else sends from and under a
name that is new: the second test asks for an answer from the other host and port of the server, the
third, when there is none, from its other port. -/
structure FilteringRun (nat : Translator) (srv : Rfc5780Server) (o : Options) (start : Vars)
    (src : IoaAddr) (env₁ env₂ env₃ : ProbeEnv) where
  before : NatState
  after₁ : NatState
  after₂ : NatState
  after₃ : NatState
  between₁ : List (IoaAddr × Endpoint)
  between₂ : List (IoaAddr × Endpoint)
  others₁ : ∀ p ∈ between₁, p.1 ≠ src
  others₂ : ∀ p ∈ between₂, p.1 ≠ src
  src₂ : IoaAddr
  src₃ : IoaAddr
  name₁ : WireAddr
  name₂ : WireAddr
  name₃ : WireAddr
  new : before.leases.find (src, nat.mapping.key (endpointOf start.remoteAddr)) = none
  test₁ : Tested nat srv before after₁ start false false o.padding src name₁ env₁
  test₂ : Tested nat srv (nat.traffic after₁ between₁) after₂ (start.found srv src name₁) true true
    o.padding src₂ name₂ env₂
  test₃ : ¬nat.filtering.same (originOf srv.other start.remoteAddr true true)
      (endpointOf start.remoteAddr) →
    Tested nat srv (nat.traffic after₂ between₂) after₃
      ((start.found srv src name₁).unanswered src₂) false true o.padding src₃ name₃ env₃

section FilteringRun

variable {nat : Translator} {srv : Rfc5780Server} {r : Resolver} {o : Options} {first : Bool}
variable {v start : Vars} {src : IoaAddr} {env₁ env₂ env₃ : ProbeEnv}

theorem send_leased {t t' : NatState} {n : WireAddr} {dst : IoaAddr}
    (h : nat.send t src dst = (some n, t')) :
    t'.leases.find (src, nat.mapping.key (endpointOf dst)) = some n ∧
      t'.passes = (n, nat.filtering.key (endpointOf dst)) :: t.passes := by
  have hleased := outbound_some nat.policy nat.supply (congrArg Prod.fst h)
  rw [Translator.send] at h
  rw [h] at hleased
  exact hleased

/-- A request that is sent again lets in what the first one let in. -/
theorem passes_again {t' t₁ : NatState} {n n₁ : WireAddr} {dst : IoaAddr}
    {ps : List (IoaAddr × Endpoint)} (hps : ∀ p ∈ ps, p.1 ≠ src)
    (hfirst : t'.leases.find (src, nat.mapping.key (endpointOf dst)) = some n)
    (hagain : nat.send (nat.traffic t' ps) src dst = (some n₁, t₁))
    (hpeer : ∀ peer, (n, nat.filtering.key peer) ∈ t'.passes ↔
      nat.filtering.same peer (endpointOf dst)) :
    ∀ peer, (n₁, nat.filtering.key peer) ∈ t₁.passes ↔
      nat.filtering.same peer (endpointOf dst) := by
  obtain ⟨hfind, hpasses⟩ := send_leased hagain
  have hkept : t₁.leases.find (src, nat.mapping.key (endpointOf dst)) = some n := by
    have hstill := outbound_keeps nat.policy nat.supply _ src (endpointOf dst)
      (traffic_keeps nat.policy nat.supply ps hfirst)
    rw [Translator.send, Translator.traffic] at hagain
    rw [hagain] at hstill
    exact hstill
  have hname : n₁ = n := by
    rw [hfind] at hkept
    exact Option.some.inj hkept
  intro peer
  have hold := traffic_passes_of_ne nat.policy nat.supply ps hfirst hps (nat.filtering.key peer)
  rw [hpasses, hname, List.mem_cons, Prod.mk.injEq, Translator.traffic, hold, hpeer,
    Dependence.key_eq_iff]
  simp

theorem filteringDiscovery_decisions (hinit : init r o first v = .ok start)
    (run : FilteringRun nat srv o start src env₁ env₂ env₃) :
    ∃ v', filteringDiscovery r o first v env₁ env₂ env₃ =
      .ok ((if addrEq src run.name₁.1 then [.noNat] else []) ++
        [.filtering (observedFilter nat.filtering srv.other start.remoteAddr)], v') := by
  have hsrc₂ : run.src₂ = src :=
    run.test₂.src_eq run.test₁.family run.test₁.port rfl rfl
  have hfind := (send_leased run.test₁.leased).1
  have hpeer₁ : ∀ peer, (run.name₁, nat.filtering.key peer) ∈ run.after₁.passes ↔
      nat.filtering.same peer (endpointOf start.remoteAddr) := by
    intro peer
    have hnew := outbound_passes_of_new nat.policy nat.supply run.new
      (congrArg Prod.fst run.test₁.leased) (nat.filtering.key peer)
    have hafter : (outbound nat.policy nat.supply run.before src
        (endpointOf start.remoteAddr)).2 = run.after₁ := congrArg Prod.snd run.test₁.leased
    rw [hafter] at hnew
    rw [hnew, ← Dependence.key_eq_iff]
    rfl
  have hpeer₂ := passes_again run.others₁ hfind (hsrc₂ ▸ run.test₂.leased) hpeer₁
  have hmore : ((start.found srv src run.name₁).rfc5780 &&
      !addrAny (start.found srv src run.name₁).otherAddr) = true := by
    simp only [Vars.found, srv.other_known, Bool.not_false, Bool.and_self]
  unfold filteringDiscovery firstTest
  rw [hinit]
  simp only [run.test₁.run_plain, bind, Except.bind, hmore, if_true]
  unfold filteringSecond observedFilter
  by_cases h₂ : nat.filtering.same (originOf srv.other start.remoteAddr true true)
      (endpointOf start.remoteAddr)
  · have hrun₂ := run.test₂.run_let_in ((hpeer₂ _).mpr h₂)
    simp only [hrun₂, bind, Except.bind, if_pos h₂]
    exact ⟨_, rfl⟩
  · have hrun₂ := run.test₂.run_kept_out (mt (hpeer₂ _).mp h₂)
    have htest₃ := run.test₃ h₂
    have hsrc₃ : run.src₃ = run.src₂ :=
      htest₃.src_eq run.test₂.family run.test₂.port rfl rfl
    have hfind₂ := (send_leased run.test₂.leased).1
    have hpeer₃ := passes_again (by rw [hsrc₂]; exact run.others₂) hfind₂
      (hsrc₃ ▸ htest₃.leased) hpeer₂
    simp only [hrun₂, bind, Except.bind, if_neg h₂]
    unfold filteringThird
    by_cases h₃ : nat.filtering.same (originOf srv.other start.remoteAddr false true)
        (endpointOf start.remoteAddr)
    · have hrun₃ := htest₃.run_let_in ((hpeer₃ _).mpr h₃)
      simp only [hrun₃, bind, Except.bind, if_pos h₃]
      exact ⟨_, rfl⟩
    · have hrun₃ := htest₃.run_kept_out (mt (hpeer₃ _).mp h₃)
      simp only [hrun₃, bind, Except.bind, if_neg h₃]
      exact ⟨_, rfl⟩

/-- When the other address of the server lets a filter come out as what it is: one by address, if
it is another host; one by address and port, if it has another port; and one by neither, always. -/
def FilteringShows : Dependence → IoaAddr → IoaAddr → Prop
  | .endpointIndependent, _, _ => True
  | .addressDependent, other, dst => hostOf other ≠ hostOf dst
  | .addressAndPortDependent, other, dst => other.port ≠ dst.port

theorem observedFilter_eq_iff (k : Dependence) (other : IoaAddr → WireAddr) (dst : IoaAddr) :
    observedFilter k other dst = k ↔ FilteringShows k (other dst).1 dst := by
  unfold observedFilter
  cases k with
  | endpointIndependent => simp [Dependence.same, FilteringShows]
  | addressDependent => simp [Dependence.same, FilteringShows, originOf, endpointOf]
  | addressAndPortDependent =>
    simp only [Dependence.same, FilteringShows, originOf, endpointOf, Prod.mk.injEq]
    by_cases hport : (other dst).1.port = dst.port
    · by_cases hhost : hostOf (other dst).1 = hostOf dst <;> simp [hport, hhost]
    · simp [hport]

/-- The decision names the kind of the filter exactly when the server's other address lets it
show. -/
theorem filtering_decision_right_iff (hinit : init r o first v = .ok start)
    (run : FilteringRun nat srv o start src env₁ env₂ env₃) :
    ∃ ds v', filteringDiscovery r o first v env₁ env₂ env₃ = .ok (ds, v') ∧
      (.filtering nat.filtering ∈ ds ↔
        FilteringShows nat.filtering (srv.other start.remoteAddr).1 start.remoteAddr) := by
  obtain ⟨v', hrun⟩ := filteringDiscovery_decisions hinit run
  refine ⟨_, v', hrun, ?_⟩
  rw [mem_last_iff Decision.noConfusion, Decision.filtering.injEq, eq_comm, observedFilter_eq_iff]

end FilteringRun

section QuietFiltering

variable (nat : Translator) (srv : Rfc5780Server) (o : Options) (start : Vars) (src : IoaAddr)
variable {t₁ t₂ t₃ : NatState} {n₁ n₂ n₃ : WireAddr}

/-- A filtering discovery through a translator that nobody else uses. -/
def quietFiltering (hkept : (boundAddr start).port ≠ 0 → src = boundAddr start)
    (hfamily : src.inetOrInet6) (hport : src.port ≠ 0)
    (h₁ : nat.send State.initial src start.remoteAddr = (some n₁, t₁))
    (h₂ : nat.send t₁ src start.remoteAddr = (some n₂, t₂))
    (h₃ : nat.send t₂ src start.remoteAddr = (some n₃, t₃)) :
    FilteringRun nat srv o start src (workingEnv nat srv t₁ start false false o.padding src n₁)
      (workingEnv nat srv t₂ (start.found srv src n₁) true true o.padding src n₂)
      (workingEnv nat srv t₃ ((start.found srv src n₁).unanswered src) false true o.padding src n₃)
    where
  before := State.initial
  after₁ := t₁
  after₂ := t₂
  after₃ := t₃
  between₁ := []
  between₂ := []
  others₁ := fun _ h => absurd h List.not_mem_nil
  others₂ := fun _ h => absurd h List.not_mem_nil
  src₂ := src
  src₃ := src
  name₁ := n₁
  name₂ := n₂
  name₃ := n₃
  new := rfl
  test₁ := tested_workingEnv hkept hfamily hport h₁
  test₂ := tested_workingEnv (fun _ => (boundAddr_of_local hfamily rfl rfl).symm) hfamily hport h₂
  test₃ := fun _ =>
    tested_workingEnv (fun _ => (boundAddr_of_local hfamily rfl rfl).symm) hfamily hport h₃

end QuietFiltering

def alternatingFiltering :=
  quietFiltering testNat testServer testOptions testStart testSrc (fun h => absurd rfl h)
    (Or.inl rfl) (by decide) (send_of_name (inetAddr 0xC6336401 40000) (by decide +kernel))
    (send_of_name (inetAddr 0xC6336401 40000) (by decide +kernel))
    (send_of_name (inetAddr 0xC6336401 40000) (by decide +kernel))

theorem alternating_server_filtering : ∃ env₁ env₂ env₃ ds v',
    filteringDiscovery testResolver testOptions true testStart env₁ env₂ env₃ = .ok (ds, v') ∧
      .filtering testNat.filtering ∈ ds := by
  obtain ⟨ds, v', hrun, hds⟩ := filtering_decision_right_iff testInit alternatingFiltering
  exact ⟨_, _, _, ds, v', hrun, hds.mpr (by unfold testNat FilteringShows; decide)⟩

end TurnClient.NatDiscovery
