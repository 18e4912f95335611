import TurnClient.AllocateTurns
import TurnClient.AddrMapping
import TurnClient.ChallengeFields

/-!
# The Allocate response, built and read back

`stun_set_allocate_response_str` writes the relayed addresses, the reflexive
address, the reservation token, the lifetime and the mobility ticket in this
order; `clnet_allocate` walks over the message for the first relayed address
of its family and looks the token and the ticket up by type. Both sides are
related through the list of records the builder leaves. The ticket is written
with `(int)strlen`, so what the client stores is the id only as long as its
length survives that cast.
-/

namespace TurnClient

open ByteMemory
set_option autoImplicit false

def getDefaultReason (errorCode : Nat) : List Byte :=
  match errorCode with
  | 300 => ascii "Try Alternate"
  | 400 => ascii "Bad Request"
  | 401 => ascii "Unauthorized"
  | 403 => ascii "Forbidden"
  | 404 => ascii "Not Found"
  | 420 => ascii "Unknown Attribute"
  | 437 => ascii "Allocation Mismatch"
  | 438 => ascii "Stale Nonce"
  | 440 => ascii "Address Family not Supported"
  | 441 => ascii "Wrong Credentials"
  | 442 => ascii "Unsupported Transport Protocol"
  | 443 => ascii "Peer Address Family Mismatch"
  | 446 => ascii "Connection Already Exists"
  | 447 => ascii "Connection Timeout or Failure"
  | 486 => ascii "Allocation Quota Reached"
  | 487 => ascii "Role Conflict"
  | 500 => ascii "Server Error"
  | 508 => ascii "Insufficient Capacity"
  | _ => ascii "Unknown error"

def stunMakeErrorResponse (method : BitVec 16) : BitVec 16 := stunMakeType method ||| 0x0110

/-- `strncpy` fills the rest of `avalue` with zeros, and the last byte is always one. -/
def stunInitErrorResponseCommonStr (m : StunBuffer) (errorCode : BitVec 16)
    (reason : Option (List Byte)) (id : Option StunTid) : StunBuffer :=
  let reason := reason.getD (ascii "Unknown error")
  let reason := if reason = ascii "Unknown error" then getDefaultReason errorCode.toNat else reason
  let text := reason.take 508
  let avalue := [0, 0, BitVec.ofNat 8 (errorCode.toNat / 100), BitVec.ofNat 8 (errorCode.toNat % 100)]
    ++ text ++ List.replicate (509 - text.length) 0
  let alen := 4 + text.length
  let rem := alen % 4
  let alen := if rem ≠ 0 then alen + (4 - rem) else alen
  let m := (stunAttrAddStr m stunAttributeErrorCode (some (ofList avalue)) alen).2
  match id with
  | none => m
  | some tid => ⟨stunTidMessageCpy m.buf tid, m.len⟩

def stunInitErrorResponseStr (method : BitVec 16) (buf : Mem) (rnd : StunTid)
    (errorCode : BitVec 16) (reason : Option (List Byte)) (id : Option StunTid) : StunBuffer :=
  stunInitErrorResponseCommonStr (stunInitCommandStr (stunMakeErrorResponse method) buf rnd)
    errorCode reason id

/-- An address attribute that is written only for a non-NULL pointer. -/
def addOptAddr (maps : AddrMappings) (m : StunBuffer) (attrType : BitVec 16) :
    Option IoaAddr → Rc × StunBuffer
  | none => (.ok, m)
  | some a => stunAttrAddAddrStr maps m attrType a

structure AllocateResponseArgs where
  tid : Option StunTid
  relayedAddr1 : Option IoaAddr
  relayedAddr2 : Option IoaAddr
  reflexiveAddr : Option IoaAddr
  lifetime : BitVec 32
  maxLifetime : BitVec 32
  errorCode : Int
  reason : Option (List Byte)
  reservationToken : BitVec 64
  mobileId : Option (List Byte)

def responseLifetime (lifetime maxLifetime : BitVec 32) : BitVec 32 :=
  if lifetime.toNat < 1 then 600
  else if maxLifetime.toNat < lifetime.toNat then maxLifetime
  else lifetime

def addMobilityTicket (m : StunBuffer) : Option (List Byte) → Rc × StunBuffer
  | none => (.ok, m)
  | some id =>
    if id = [] then (.ok, m)
    else stunAttrAddStr m stunAttributeMobilityTicket (some (ofList id)) (castInt id.length)

def stunSetAllocateResponseStr (maps : AddrMappings) (buf : Mem) (rnd : StunTid)
    (args : AllocateResponseArgs) : Rc × StunBuffer :=
  if args.errorCode = 0 then
    let m := stunInitSuccessResponseStr stunMethodAllocate buf rnd args.tid
    Rc.andThen (addOptAddr maps m stunAttributeXorRelayedAddress args.relayedAddr1) fun m =>
    Rc.andThen (addOptAddr maps m stunAttributeXorRelayedAddress args.relayedAddr2) fun m =>
    Rc.andThen (addOptAddr maps m stunAttributeXorMappedAddress args.reflexiveAddr) fun m =>
    let m := if args.reservationToken ≠ 0 then
      (stunAttrAddStr m stunAttributeReservationToken
        (some (ofList (be64 args.reservationToken))) 8).2 else m
    Rc.andThen (stunAttrAddStr m stunAttributeLifetime
      (some (ofList (be32 (responseLifetime args.lifetime args.maxLifetime)))) 4) fun m =>
    addMobilityTicket m args.mobileId
  else
    (.ok, stunInitErrorResponseStr stunMethodAllocate buf rnd (BitVec.ofInt 16 args.errorCode)
      args.reason args.tid)

/-! ## The records of a success response -/

def addrRecord (tid : StunTid) (attrType : BitVec 16) (a : IoaAddr) : Tlv.Record :=
  (attrType, (stunAddrEncode a (isXored attrType) stunMagicCookie tid).getD [])

/-- The address can be written in an attribute of this type. -/
def Encodes (tid : StunTid) (attrType : BitVec 16) (a : IoaAddr) : Prop :=
  (stunAddrEncode a (isXored attrType) stunMagicCookie tid).isSome

def AllocateResponseArgs.relayed (args : AllocateResponseArgs) : List IoaAddr :=
  args.relayedAddr1.toList ++ args.relayedAddr2.toList

/-- What `stun_attr_add_str` takes of the mobile id. -/
def ticketBytes (id : List Byte) : List Byte := id.take (castInt id.length).toNat

def tokenRecords (token : BitVec 64) : List Tlv.Record :=
  if token ≠ 0 then [(stunAttributeReservationToken, be64 token)] else []

def ticketRecords : Option (List Byte) → List Tlv.Record
  | none => []
  | some id => if id = [] then [] else [(stunAttributeMobilityTicket, ticketBytes id)]

def responseRecords (tid : StunTid) (args : AllocateResponseArgs) : List Tlv.Record :=
  args.relayed.map (addrRecord tid stunAttributeXorRelayedAddress) ++
    (args.reflexiveAddr.toList.map (addrRecord tid stunAttributeXorMappedAddress) ++
      (tokenRecords args.reservationToken ++
        ((stunAttributeLifetime, be32 (responseLifetime args.lifetime args.maxLifetime)) ::
          ticketRecords args.mobileId)))

theorem ticketRecords_type {mobileId : Option (List Byte)} {r : Tlv.Record}
    (hr : r ∈ ticketRecords mobileId) : r.1 = stunAttributeMobilityTicket := by
  cases mobileId with
  | none => cases hr
  | some id =>
    rw [ticketRecords] at hr
    split at hr
    · cases hr
    · rw [List.mem_singleton.mp hr]

section Building

variable {m m' : StunBuffer} {msgType : BitVec 16} {tid : StunTid} {attrs : List Tlv.Record}

theorem IsMessage.optAddr (h : IsMessage m msgType tid attrs) {attrType : BitVec 16}
    {a : Option IoaAddr} (hadd : addOptAddr addrMappings m attrType a = (.ok, m')) :
    IsMessage m' msgType tid (attrs ++ a.toList.map (addrRecord tid attrType)) ∧
      ∀ b ∈ a.toList, Encodes tid attrType b := by
  cases a with
  | none =>
    cases hadd
    exact ⟨by simpa using h, by simp⟩
  | some a =>
    rw [addOptAddr, stunAttrAddAddrStr] at hadd
    simp only [h.header.tid_eq] at hadd
    split at hadd
    · cases hadd
    · rename_i v henc
      have henc' : stunAddrEncode a (isXored attrType) stunMagicCookie tid = some v := henc
      have hrec : addrRecord tid attrType a = (attrType, v) := by
        rw [addrRecord, henc', Option.getD_some]
      have hm := h.added hadd
      rw [attrBytes_ofList] at hm
      refine ⟨by simpa [hrec] using hm, ?_⟩
      intro b hb
      obtain rfl := List.mem_singleton.mp hb
      rw [Encodes, henc', Option.isSome_some]

theorem addrRecord_length (tid : StunTid) (attrType : BitVec 16) (a : IoaAddr) :
    (addrRecord tid attrType a).2.length ≤ 20 := by
  rw [addrRecord]
  cases henc : stunAddrEncode a (isXored attrType) stunMagicCookie tid with
  | none => simp
  | some v =>
    rw [Option.getD_some]
    rcases stunAddrEncode_length henc with h | h <;> simp only [h] <;> omega

theorem size_addrRecords (tid : StunTid) (attrType : BitVec 16) (as : List IoaAddr) :
    Tlv.size (as.map (addrRecord tid attrType)) ≤ 24 * as.length := by
  induction as with
  | nil => simp [Tlv.size]
  | cons a as ih =>
    have hlen := addrRecord_length tid attrType a
    simp only [List.map_cons, Tlv.size, List.length_cons, Tlv.pad4]
    omega

/-- The token always fits, although the source does not look at the result. -/
theorem IsMessage.token (h : IsMessage m msgType tid attrs) (hsmall : Tlv.size attrs ≤ 1000)
    (token : BitVec 64) :
    IsMessage (if token ≠ 0 then (stunAttrAddStr m stunAttributeReservationToken
      (some (ofList (be64 token))) 8).2 else m) msgType tid (attrs ++ tokenRecords token) := by
  have hlen := h.len_eq
  have hbytes : attrBytes (some (ofList (be64 token))) 8 = be64 token := attrBytes_ofList _
  obtain ⟨m', hadd, hm, _⟩ := h.add_ok stunAttributeReservationToken (some (ofList (be64 token))) 8
    (by rw [hbytes]; unfold maxStunMessageSize; simp [be64]; omega)
  rw [hbytes] at hm
  unfold tokenRecords
  split
  · rw [hadd]
    exact hm
  · simpa using h

theorem IsMessage.optAddr_ok (h : IsMessage m msgType tid attrs) (hsmall : Tlv.size attrs ≤ 1000)
    (attrType : BitVec 16) {a : Option IoaAddr} (hknown : ∀ b ∈ a.toList, b.known = true) :
    ∃ m', addOptAddr addrMappings m attrType a = (.ok, m') := by
  cases a with
  | none => exact ⟨m, rfl⟩
  | some a =>
    have hlen := h.len_eq
    obtain ⟨v, hv⟩ := stunAddrEncode_known (hknown a (by simp)) (isXored attrType) stunMagicCookie tid
    have hv' : stunAddrEncode (mapAddrFromPrivateToPublic addrMappings a) (isXored attrType)
        stunMagicCookie tid = some v := hv
    have hvlen := stunAddrEncode_length hv
    obtain ⟨m', hadd, _, _⟩ := h.add_ok attrType (some (ofList v)) v.length
      (by rw [attrBytes_ofList]; unfold maxStunMessageSize; omega)
    refine ⟨m', ?_⟩
    simp only [addOptAddr, stunAttrAddAddrStr, h.header.tid_eq, hv']
    exact hadd

theorem attrBytes_ticket (id : List Byte) :
    attrBytes (some (ofList id)) (castInt id.length) = ticketBytes id :=
  slice_ofList_take id (castInt_toNat_le _)

theorem IsMessage.ticket (h : IsMessage m msgType tid attrs) {mobileId : Option (List Byte)}
    (hadd : addMobilityTicket m mobileId = (.ok, m')) :
    IsMessage m' msgType tid (attrs ++ ticketRecords mobileId) := by
  cases mobileId with
  | none =>
    cases hadd
    simpa [ticketRecords] using h
  | some id =>
    rw [addMobilityTicket] at hadd
    rw [ticketRecords]
    split at hadd
    · rename_i hid
      cases hadd
      rw [if_pos hid, List.append_nil]
      exact h
    · rename_i hid
      have hm := h.added hadd
      rw [attrBytes_ticket] at hm
      rw [if_neg hid]
      exact hm

theorem IsMessage.ticket_ok (h : IsMessage m msgType tid attrs) (mobileId : Option (List Byte))
    (hroom : m.len + (ticketBytes (mobileId.getD [])).length + 8 ≤ maxStunMessageSize) :
    ∃ m', addMobilityTicket m mobileId = (.ok, m') := by
  cases mobileId with
  | none => exact ⟨m, rfl⟩
  | some id =>
    rw [addMobilityTicket]
    split
    · exact ⟨m, rfl⟩
    · obtain ⟨m', hadd, _, _⟩ := h.add_ok stunAttributeMobilityTicket (some (ofList id))
        (castInt id.length) (by rw [attrBytes_ticket]; exact hroom)
      exact ⟨m', hadd⟩

end Building

/-- The size of the three address records of a response. -/
theorem size_responseAddrs (tid : StunTid) (args : AllocateResponseArgs) :
    Tlv.size (args.relayedAddr1.toList.map (addrRecord tid stunAttributeXorRelayedAddress) ++
      args.relayedAddr2.toList.map (addrRecord tid stunAttributeXorRelayedAddress) ++
      args.reflexiveAddr.toList.map (addrRecord tid stunAttributeXorMappedAddress)) ≤ 72 := by
  have hone : ∀ (attrType : BitVec 16) (a : Option IoaAddr),
      Tlv.size (a.toList.map (addrRecord tid attrType)) ≤ 24 := by
    intro attrType a
    have hs := size_addrRecords tid attrType a.toList
    cases a with
    | none => simp [Tlv.size]
    | some a => simpa using hs
  have h₁ := hone stunAttributeXorRelayedAddress args.relayedAddr1
  have h₂ := hone stunAttributeXorRelayedAddress args.relayedAddr2
  have h₃ := hone stunAttributeXorMappedAddress args.reflexiveAddr
  simp only [Tlv.size_append]
  omega

/-- Addresses of known families and a ticket that fits: nothing is refused. -/
theorem stunSetAllocateResponseStr_builds (buf : Mem) (rnd tid : StunTid)
    (args : AllocateResponseArgs) (htid : args.tid = some tid) (herr : args.errorCode = 0)
    (hrelayed : ∀ a ∈ args.relayed, a.known = true)
    (hreflexive : ∀ a ∈ args.reflexiveAddr.toList, a.known = true)
    (hticket : (ticketBytes (args.mobileId.getD [])).length ≤ 60000) :
    ∃ m, stunSetAllocateResponseStr addrMappings buf rnd args = (.ok, m) := by
  have hsize := size_responseAddrs tid args
  simp only [Tlv.size_append] at hsize
  have h₀ : IsMessage (stunInitSuccessResponseStr stunMethodAllocate buf rnd (some tid))
      (stunMakeSuccessResponse stunMethodAllocate &&& 0x3FFF) tid [] :=
    isMessage_init .success stunMethodAllocate buf rnd (some tid)
  obtain ⟨m₁, hadd₁⟩ := h₀.optAddr_ok (by simp [Tlv.size]) stunAttributeXorRelayedAddress
    (fun b hb => hrelayed b (List.mem_append.mpr (Or.inl hb)))
  have h₁ := (h₀.optAddr hadd₁).1
  obtain ⟨m₂, hadd₂⟩ := h₁.optAddr_ok (by simp only [Tlv.size_append, Tlv.size]; omega)
    stunAttributeXorRelayedAddress (fun b hb => hrelayed b (List.mem_append.mpr (Or.inr hb)))
  have h₂ := (h₁.optAddr hadd₂).1
  obtain ⟨m₃, hadd₃⟩ := h₂.optAddr_ok (by simp only [Tlv.size_append, Tlv.size]; omega)
    stunAttributeXorMappedAddress hreflexive
  have h₃ := (h₂.optAddr hadd₃).1
  have h₄ := h₃.token (by simp only [Tlv.size_append, Tlv.size]; omega) args.reservationToken
  have hlen₄ := h₄.len_eq
  have htoken : Tlv.size (tokenRecords args.reservationToken) ≤ 12 := by
    unfold tokenRecords
    split <;> simp [Tlv.size, Tlv.pad4, be64]
  have hlife : attrBytes (some (ofList (be32 (responseLifetime args.lifetime args.maxLifetime)))) 4 =
      be32 (responseLifetime args.lifetime args.maxLifetime) := attrBytes_ofList _
  obtain ⟨m₅, hadd₅, h₅, hle₅⟩ := h₄.add_ok stunAttributeLifetime
    (some (ofList (be32 (responseLifetime args.lifetime args.maxLifetime)))) 4
    (by
      rw [hlife, hlen₄]
      simp only [Tlv.size_append, Tlv.size, be32_length]
      unfold maxStunMessageSize
      omega)
  rw [hlife, hlen₄] at hle₅
  simp only [Tlv.size_append, Tlv.size, be32_length] at hle₅
  obtain ⟨m, hadd⟩ := h₅.ticket_ok args.mobileId (by unfold maxStunMessageSize; omega)
  refine ⟨m, ?_⟩
  rw [stunSetAllocateResponseStr, if_pos herr, htid]
  simp only [hadd₁, hadd₂, hadd₃, hadd₅, Rc.andThen]
  exact hadd

theorem stunSetAllocateResponseStr_ok {buf : Mem} {rnd tid : StunTid} {args : AllocateResponseArgs}
    {m : StunBuffer} (htid : args.tid = some tid) (herr : args.errorCode = 0)
    (hbuild : stunSetAllocateResponseStr addrMappings buf rnd args = (.ok, m)) :
    IsMessage m (stunMakeSuccessResponse stunMethodAllocate &&& 0x3FFF) tid
        (responseRecords tid args) ∧
      ∀ a ∈ args.relayed, Encodes tid stunAttributeXorRelayedAddress a := by
  rw [stunSetAllocateResponseStr, if_pos herr, htid] at hbuild
  have h₀ : IsMessage (stunInitSuccessResponseStr stunMethodAllocate buf rnd (some tid))
      (stunMakeSuccessResponse stunMethodAllocate &&& 0x3FFF) tid [] :=
    isMessage_init .success stunMethodAllocate buf rnd (some tid)
  obtain ⟨m₁, hadd₁, hbuild⟩ := Rc.andThen_eq_ok hbuild
  obtain ⟨h₁, henc₁⟩ := h₀.optAddr hadd₁
  obtain ⟨m₂, hadd₂, hbuild⟩ := Rc.andThen_eq_ok hbuild
  obtain ⟨h₂, henc₂⟩ := h₁.optAddr hadd₂
  obtain ⟨m₃, hadd₃, hbuild⟩ := Rc.andThen_eq_ok hbuild
  have h₃ := (h₂.optAddr hadd₃).1
  have hsize := size_responseAddrs tid args
  have h₄ := h₃.token (by rw [List.nil_append]; omega) args.reservationToken
  obtain ⟨m₅, hadd₅, hbuild⟩ := Rc.andThen_eq_ok hbuild
  have h₅ := h₄.added hadd₅
  have hlife : attrBytes (some (ofList (be32 (responseLifetime args.lifetime args.maxLifetime)))) 4 =
      be32 (responseLifetime args.lifetime args.maxLifetime) := attrBytes_ofList _
  rw [hlife] at h₅
  have h₆ := h₅.ticket hbuild
  refine ⟨by simpa [responseRecords, AllocateResponseArgs.relayed] using h₆, ?_⟩
  intro a ha
  rcases List.mem_append.mp ha with ha | ha
  · exact henc₁ a ha
  · exact henc₂ a ha

/-! ## Reading the response -/

theorem relayWanted_onWire (daf : AddressFamilyValue) {a : IoaAddr} (h : a.inetOrInet6) :
    relayWanted daf (onWire a) = relayWanted daf a := by
  rcases h with h | h <;> simp [relayWanted, onWire, addrAny, h]

theorem scanRelay_relayed {daf : AddressFamilyValue} {buf : Mem} {tid : StunTid}
    (htid : stunTidFromMessageStr buf = tid) (relayed : List IoaAddr)
    (hfam : ∀ a ∈ relayed, a.inetOrInet6)
    (henc : ∀ a ∈ relayed, Encodes tid stunAttributeXorRelayedAddress a) {off : Nat}
    {rest : List Tlv.Record} (hrest : ∀ r ∈ rest, r.1 ≠ stunAttributeXorRelayedAddress)
    (hlaid : Tlv.LaidOut buf off
      (relayed.map (addrRecord tid stunAttributeXorRelayedAddress) ++ rest)) :
    (scanRelay daf buf (Tlv.offsets off
      (relayed.map (addrRecord tid stunAttributeXorRelayedAddress) ++ rest))).2 =
      match relayed.find? (relayWanted daf) with
      | some a => .found (onWire a)
      | none => .missing := by
  induction relayed generalizing off with
  | nil =>
    have hskip : ∀ sar ∈ Tlv.offsets off rest, isRelayAttr buf sar = false := by
      intro sar hsar
      obtain ⟨r, hr, htype, _⟩ := Tlv.exists_recordAt hlaid hsar
      simpa [isRelayAttr, htype] using hrest r hr
    have hscan : scanRelay daf buf (Tlv.offsets off rest ++ []) = scanRelay daf buf [] :=
      scanRelay_skip hskip []
    rw [List.append_nil] at hscan
    simp [hscan, scanRelay]
  | cons a relayed ih =>
    obtain ⟨hrec, hlaid⟩ := hlaid
    obtain ⟨v, hv⟩ := Option.isSome_iff_exists.mp (henc a List.mem_cons_self)
    have hrecord : addrRecord tid stunAttributeXorRelayedAddress a =
        (stunAttributeXorRelayedAddress, v) := by
      rw [addrRecord, hv, Option.getD_some]
    have htype : get16 buf off = stunAttributeXorRelayedAddress := hrec.1
    have hget : stunAttrGetAddrStr addrMappings buf (some off) none = (0, onWire a) := by
      rw [hrecord] at hrec
      rw [← htid] at hv
      exact stunAttrGetAddrStr_recordAt hv hrec
    have hih := ih (fun b hb => hfam b (List.mem_cons_of_mem a hb))
      (fun b hb => henc b (List.mem_cons_of_mem a hb)) hlaid
    rw [List.map_cons, List.cons_append, Tlv.offsets, scanRelay, if_pos htype, hget, List.find?_cons]
    simp only [relayWanted_onWire daf (hfam a List.mem_cons_self)]
    cases relayWanted daf a with
    | true => rfl
    | false => exact hih

theorem find_addrRecords {tid : StunTid} {attrType t : BitVec 16} (hne : attrType ≠ t)
    (as : List IoaAddr) :
    (as.map (addrRecord tid attrType)).find? (fun r => r.1 == t) = none := by
  rw [List.find?_eq_none]
  intro r hr
  obtain ⟨a, _, rfl⟩ := List.mem_map.mp hr
  simpa [addrRecord] using hne

theorem find_tokenRecord (tid : StunTid) (args : AllocateResponseArgs) :
    (responseRecords tid args).find? (fun r => r.1 == stunAttributeReservationToken) =
      (tokenRecords args.reservationToken).head? := by
  have hticket : (ticketRecords args.mobileId).find?
      (fun r => r.1 == stunAttributeReservationToken) = none := by
    rw [List.find?_eq_none]
    intro r hr
    rw [ticketRecords_type hr]
    decide
  have hlife : (stunAttributeLifetime == stunAttributeReservationToken) = false := by decide
  rw [responseRecords, List.find?_append, find_addrRecords (by decide), Option.none_or,
    List.find?_append, find_addrRecords (by decide), Option.none_or, List.find?_append,
    List.find?_cons, hlife, hticket]
  unfold tokenRecords
  split <;> simp

theorem find_ticketRecord (tid : StunTid) (args : AllocateResponseArgs) :
    (responseRecords tid args).find? (fun r => r.1 == stunAttributeMobilityTicket) =
      (ticketRecords args.mobileId).head? := by
  have htoken : (tokenRecords args.reservationToken).find?
      (fun r => r.1 == stunAttributeMobilityTicket) = none := by
    unfold tokenRecords
    split
    · rfl
    · rfl
  have hlife : (stunAttributeLifetime == stunAttributeMobilityTicket) = false := by decide
  have hticket : (ticketRecords args.mobileId).find?
      (fun r => r.1 == stunAttributeMobilityTicket) = (ticketRecords args.mobileId).head? := by
    cases args.mobileId with
    | none => rfl
    | some id =>
      rw [ticketRecords]
      split <;> rfl
  rw [responseRecords, List.find?_append, find_addrRecords (by decide), Option.none_or,
    List.find?_append, find_addrRecords (by decide), Option.none_or, List.find?_append, htoken,
    Option.none_or, List.find?_cons, hlife]
  exact hticket

/-- The client stores a ticket of 1 to 32 bytes and leaves the old one in place otherwise. -/
def storeTicket (old : Mem) (smid : List Byte) : Mem :=
  if 0 < smid.length ∧ smid.length < 33 then storeString old smid else old

/-- The ticket as it stands in the response; no attribute for an empty id. -/
def sentTicket (mobileId : Option (List Byte)) : List Byte := ticketBytes (mobileId.getD [])

section Reading

variable {m : StunBuffer} {msgType : BitVec 16} {tid : StunTid} {args : AllocateResponseArgs}

theorem reservationToken_of_response (h : IsMessage m msgType tid (responseRecords tid args)) :
    reservationToken m = args.reservationToken := by
  have hfirst := h.firstByType_find stunAttributeReservationToken
  rw [find_tokenRecord, tokenRecords] at hfirst
  unfold reservationToken
  by_cases htoken : args.reservationToken = 0
  · rw [if_neg (by simpa using htoken)] at hfirst
    simp only [List.head?_nil] at hfirst
    rw [hfirst, htoken]
    rfl
  · rw [if_pos htoken] at hfirst
    simp only [List.head?_cons] at hfirst
    obtain ⟨off, hget, _, hlen, hval⟩ := hfirst
    have hlen8 : (get16 m.buf (off + 2)).toNat = 8 := hlen
    rw [hget, stunAttrGetReservationTokenValue, if_pos hlen8]
    exact get64_of_slice hval

theorem readMobilityTicket_of_response (h : IsMessage m msgType tid (responseRecords tid args))
    (ci : ConnInfo) :
    (readMobilityTicket ci m).relayAddr = ci.relayAddr ∧
      (readMobilityTicket ci m).sMobileId = storeTicket ci.sMobileId (sentTicket args.mobileId) := by
  have hempty : storeTicket ci.sMobileId [] = ci.sMobileId := rfl
  have hfirst := h.firstByType_find stunAttributeMobilityTicket
  rw [find_ticketRecord] at hfirst
  unfold readMobilityTicket
  cases hid : args.mobileId with
  | none =>
    rw [hid] at hfirst
    simp only [ticketRecords, List.head?_nil] at hfirst
    rw [hfirst]
    exact ⟨rfl, hempty.symm⟩
  | some id =>
    rw [hid, ticketRecords] at hfirst
    by_cases hnil : id = []
    · rw [if_pos hnil] at hfirst
      simp only [List.head?_nil] at hfirst
      rw [hfirst, hnil]
      exact ⟨rfl, hempty.symm⟩
    · rw [if_neg hnil] at hfirst
      simp only [List.head?_cons] at hfirst
      obtain ⟨off, hget, hrec⟩ := hfirst
      have hval : attrValue m.buf off = ticketBytes id := attrValue_of_recordAt hrec
      have hsent : sentTicket (some id) = ticketBytes id := rfl
      simp only [hget, hval]
      rw [hsent]
      unfold storeTicket
      split
      · exact ⟨rfl, rfl⟩
      · exact ⟨rfl, rfl⟩

/-- The walk stops at the first usable relayed address that was written. -/
theorem scanRelay_of_response (h : IsMessage m msgType tid (responseRecords tid args))
    (hfam : ∀ a ∈ args.relayed, a.inetOrInet6)
    (henc : ∀ a ∈ args.relayed, Encodes tid stunAttributeXorRelayedAddress a)
    (daf : AddressFamilyValue) :
    (scanRelay daf m.buf (attrRefs m.buf m.len)).2 =
      match args.relayed.find? (relayWanted daf) with
      | some a => .found (onWire a)
      | none => .missing := by
  rw [h.attrRefs_eq, responseRecords]
  apply scanRelay_relayed h.header.tid_eq args.relayed hfam henc
  · intro r hr
    rcases List.mem_append.mp hr with hr | hr
    · obtain ⟨a, _, rfl⟩ := List.mem_map.mp hr
      exact (by decide : stunAttributeXorMappedAddress ≠ stunAttributeXorRelayedAddress)
    rcases List.mem_append.mp hr with hr | hr
    · rw [tokenRecords] at hr
      split at hr
      · rw [List.mem_singleton.mp hr]
        exact (by decide : stunAttributeReservationToken ≠ stunAttributeXorRelayedAddress)
      · cases hr
    rcases List.mem_cons.mp hr with rfl | hr
    · exact (by decide : stunAttributeLifetime ≠ stunAttributeXorRelayedAddress)
    · rw [ticketRecords_type hr]
      decide
  · exact h.laidOut

/-- Everything the client does with a response that was built for it. -/
theorem allocateSucceeded_of_response (h : IsMessage m msgType tid (responseRecords tid args))
    (hfam : ∀ a ∈ args.relayed, a.inetOrInet6)
    (henc : ∀ a ∈ args.relayed, Encodes tid stunAttributeXorRelayedAddress a) (s : Client) :
    (args.relayed.find? (relayWanted s.defaultAddressFamily) = none ∧
      (allocateSucceeded s m).1 = -1) ∨
    ∃ a, args.relayed.find? (relayWanted s.defaultAddressFamily) = some a ∧
      (allocateSucceeded s m).1 = 0 ∧
      (allocateSucceeded s m).2.info.relayAddr = onWire a ∧
      (allocateSucceeded s m).2.currentReservationToken = args.reservationToken ∧
      (allocateSucceeded s m).2.info.sMobileId =
        storeTicket s.info.sMobileId (sentTicket args.mobileId) := by
  have hscan := scanRelay_of_response h hfam henc s.defaultAddressFamily
  cases hfind : args.relayed.find? (relayWanted s.defaultAddressFamily) with
  | none =>
    rw [hfind] at hscan
    simp only at hscan
    exact Or.inl ⟨rfl, by simp only [allocateSucceeded, hscan]⟩
  | some a =>
    rw [hfind] at hscan
    simp only at hscan
    obtain ⟨hrelay, hid⟩ := readMobilityTicket_of_response h
      { s.info with relayAddr := onWire a }
    refine Or.inr ⟨a, rfl, ?_, ?_, ?_, ?_⟩
    · simp only [allocateSucceeded, hscan]
    · simp only [allocateSucceeded, hscan, Client.accept]
      exact hrelay
    · simp only [allocateSucceeded, hscan, Client.accept]
      exact reservationToken_of_response h
    · simp only [allocateSucceeded, hscan, Client.accept]
      exact hid

end Reading

/-- The client takes over what the response was built from. -/
structure ReadBack (args : AllocateResponseArgs) (s : Client) (m : StunBuffer) : Prop where
  succeeds : (allocateSucceeded s m).1 = 0 ↔
    ∃ a ∈ args.relayed, relayWanted s.defaultAddressFamily a = true
  relay : (allocateSucceeded s m).1 = 0 →
    ∃ a, args.relayed.find? (relayWanted s.defaultAddressFamily) = some a ∧
      addrEq (allocateSucceeded s m).2.info.relayAddr a = true
  token : (allocateSucceeded s m).1 = 0 →
    (allocateSucceeded s m).2.currentReservationToken = args.reservationToken
  ticket : (allocateSucceeded s m).1 = 0 →
    (allocateSucceeded s m).2.info.sMobileId =
      storeTicket s.info.sMobileId (args.mobileId.getD [])

/-- The cast of its length makes a ticket of this id that the client would store. -/
def TicketCut (id : List Byte) : Prop :=
  32 < id.length ∧ 1 ≤ id.length % 2 ^ 32 ∧ id.length % 2 ^ 32 ≤ 32

theorem storeTicket_ticketBytes (old : Mem) (id : List Byte) :
    storeTicket old (ticketBytes id) = storeTicket old id ↔
      (TicketCut id → storeString old (id.take (id.length % 2 ^ 32)) = old) := by
  have hlen : (ticketBytes id).length = (castInt id.length).toNat := by
    rw [ticketBytes, List.length_take, Nat.min_eq_left (castInt_toNat_le _)]
  by_cases hcut : TicketCut id
  · obtain ⟨h32, hlo, hhi⟩ := hcut
    have hcast : (castInt id.length).toNat = id.length % 2 ^ 32 := castInt_toNat (by omega)
    have hcut' : TicketCut id := ⟨h32, hlo, hhi⟩
    rw [storeTicket, storeTicket, hlen, hcast, if_pos (by omega), if_neg (by omega), ticketBytes,
      hcast]
    exact ⟨fun heq _ => heq, fun heq => heq hcut'⟩
  · refine iff_of_true ?_ fun h => absurd h hcut
    by_cases hsmall : id.length ≤ 32
    · have hcast : (castInt id.length).toNat = id.length := by
        rw [castInt_toNat (by omega)]
        omega
      rw [ticketBytes, hcast, List.take_length]
    · have hno : ¬(0 < (castInt id.length).toNat ∧ (castInt id.length).toNat < 33) := by
        intro hin
        apply hcut
        by_cases hneg : id.length % 2 ^ 32 < 2 ^ 31
        · rw [castInt_toNat hneg] at hin
          exact ⟨by omega, by omega, by omega⟩
        · unfold castInt at hin
          rw [BitVec.toInt_eq_toNat_cond, BitVec.toNat_ofNat, if_neg (by omega)] at hin
          omega
      rw [storeTicket, storeTicket, hlen, if_neg hno, if_neg (by omega)]

theorem allocate_response_read_back_iff (buf : Mem) (rnd tid : StunTid)
    (args : AllocateResponseArgs) (htid : args.tid = some tid) (herr : args.errorCode = 0)
    (hfam : ∀ a ∈ args.relayed, a.inetOrInet6) (m : StunBuffer)
    (hbuild : stunSetAllocateResponseStr addrMappings buf rnd args = (.ok, m)) (s : Client) :
    ReadBack args s m ↔
      ((∃ a ∈ args.relayed, relayWanted s.defaultAddressFamily a = true) →
        TicketCut (args.mobileId.getD []) →
        storeString s.info.sMobileId ((args.mobileId.getD []).take
          ((args.mobileId.getD []).length % 2 ^ 32)) = s.info.sMobileId) := by
  obtain ⟨hm, henc⟩ := stunSetAllocateResponseStr_ok htid herr hbuild
  have hmem : ∀ a ∈ args.relayed, args.relayed.find? (relayWanted s.defaultAddressFamily) = some a →
      ∃ a ∈ args.relayed, relayWanted s.defaultAddressFamily a = true := by
    intro a ha hfind
    exact ⟨a, ha, List.find?_some hfind⟩
  rcases allocateSucceeded_of_response hm hfam henc s with
    ⟨hnone, hret⟩ | ⟨a, hfind, hret, hrelay, htoken, hid⟩
  · have hno : ¬∃ a ∈ args.relayed, relayWanted s.defaultAddressFamily a = true := by
      rintro ⟨a, ha, hwanted⟩
      exact List.find?_eq_none.mp hnone a ha hwanted
    have hfail : (allocateSucceeded s m).1 ≠ 0 := by
      rw [hret]
      decide
    refine iff_of_true ⟨iff_of_false hfail hno, ?_, ?_, ?_⟩ fun h => absurd h hno
    · exact fun h => absurd h hfail
    · exact fun h => absurd h hfail
    · exact fun h => absurd h hfail
  · have hyes := hmem a (List.mem_of_find?_eq_some hfind) hfind
    have haddr : addrEq (onWire a) a = true :=
      (addrEq_onWire (hfam a (List.mem_of_find?_eq_some hfind))).1
    have hticket := storeTicket_ticketBytes s.info.sMobileId (args.mobileId.getD [])
    constructor
    · intro hback _
      apply hticket.mp
      rw [← hback.ticket hret, hid, sentTicket]
    · intro hcond
      refine ⟨iff_of_true hret hyes, fun _ => ⟨a, hfind, by rw [hrelay, haddr]⟩, fun _ => htoken,
        fun _ => ?_⟩
      rw [hid, sentTicket]
      exact hticket.mpr (hcond hyes)

/-- Two addresses of which the second is the one the session can use. -/
theorem second_relay_read_back :
    let v6 : IoaAddr := { IoaAddr.any with family := .inet6, port := 9, in6 :=
      ⟨[0x20, 0x01, 0x0D, 0xB8, 0, 0, 0, 0, 0, 0, 0, 0, 0, 0, 0, 1], by decide⟩ }
    let v4 : IoaAddr := { IoaAddr.any with family := .inet, port := 49152, word := 0xC0000201 }
    let args : AllocateResponseArgs := ⟨some countingTid, some v6, some v4, none, 0, 3600, 0, none,
      0x0102030405060708, some (ascii "ticket")⟩
    ∃ m, stunSetAllocateResponseStr addrMappings (fun _ => 0xAA) countingTid args = (.ok, m) ∧
      ReadBack args Client.init m := by
  intro v6 v4 args
  have hticket : (ticketBytes (ascii "ticket")).length ≤ 60000 := by decide
  obtain ⟨m, hm⟩ := stunSetAllocateResponseStr_builds (fun _ => 0xAA) countingTid countingTid
    args rfl rfl (by decide) (by decide) hticket
  refine ⟨m, hm, ?_⟩
  apply (allocate_response_read_back_iff _ _ countingTid args rfl rfl ?_ m hm Client.init).mpr
  · intro _ hcut
    have hlong : 32 < (ascii "ticket").length := hcut.1
    exact absurd hlong (by decide)
  · intro a ha
    rcases List.mem_cons.mp ha with rfl | ha
    · exact Or.inr rfl
    · obtain rfl := List.mem_singleton.mp ha
      exact Or.inl rfl

/-- A mobile id of 2 ^ 32 + 5 bytes is sent, and stored by the client, as its first five. -/
theorem huge_mobile_id_stored :
    ¬∀ (buf : Mem) (rnd tid : StunTid) (args : AllocateResponseArgs), args.tid = some tid →
      args.errorCode = 0 → (∀ a ∈ args.relayed, a.inetOrInet6) → ∀ m : StunBuffer,
      stunSetAllocateResponseStr addrMappings buf rnd args = (.ok, m) →
      ∀ s : Client, ReadBack args s m := by
  intro hall
  obtain ⟨id, hlen, htake⟩ : ∃ id : List Byte, id.length = 2 ^ 32 + 5 ∧
      id.take 5 = List.replicate 5 0x61 := by
    refine ⟨List.replicate (2 ^ 32 + 5) 0x61, List.length_replicate, ?_⟩
    rw [List.take_replicate]
    congr 1
  have hcast : (castInt id.length).toNat = 5 := by
    rw [castInt_toNat (by omega), hlen]
    rfl
  have hbytes : ticketBytes id = List.replicate 5 0x61 := by rw [ticketBytes, hcast, htake]
  let v4 : IoaAddr := { IoaAddr.any with family := .inet, port := 49152, word := 0xC0000201 }
  let args : AllocateResponseArgs :=
    ⟨some countingTid, some v4, none, none, 600, 3600, 0, none, 0, some id⟩
  have hfam : ∀ a ∈ args.relayed, a.inetOrInet6 := by
    intro a ha
    obtain rfl : a = v4 := by simpa [AllocateResponseArgs.relayed, args] using ha
    exact Or.inl rfl
  have hknown : ∀ a ∈ args.relayed, a.known = true := by
    intro a ha
    obtain rfl : a = v4 := by simpa [AllocateResponseArgs.relayed, args] using ha
    decide
  obtain ⟨m, hm⟩ := stunSetAllocateResponseStr_builds (fun _ => 0) countingTid countingTid
    args rfl rfl hknown (by simp [args])
    (by simp only [args, Option.getD_some, hbytes, List.length_replicate]; omega)
  obtain ⟨hmsg, henc⟩ := stunSetAllocateResponseStr_ok rfl rfl hm
  have hback := hall _ _ countingTid args rfl rfl hfam m hm Client.init
  rcases allocateSucceeded_of_response hmsg hfam henc Client.init with
    ⟨hnone, _⟩ | ⟨a, _, hret, _, _, hid⟩
  · have hwanted : relayWanted Client.init.defaultAddressFamily v4 = true := by decide
    exact List.find?_eq_none.mp hnone v4 (by simp [AllocateResponseArgs.relayed, args]) hwanted
  · have hkept := hback.ticket hret
    rw [hid] at hkept
    have hat := congrFun hkept 0
    have hsent : sentTicket args.mobileId = List.replicate 5 0x61 := hbytes
    have hlong : ¬(0 < (args.mobileId.getD []).length ∧ (args.mobileId.getD []).length < 33) := by
      simp only [args, Option.getD_some, hlen]
      omega
    rw [hsent, storeTicket, storeTicket, if_neg hlong] at hat
    revert hat
    decide

end TurnClient
