import TurnClient.BindingMessages
import TurnClient.ErrorResponses

/-!
# Binding responses of both versions

`stun_set_binding_response_str` answers requests of two versions of the
protocol. Where a new message has the magic cookie an old one repeats the cookie
of its request, which then is a part of its transaction id, and it carries a
MAPPED-ADDRESS only. Nothing that builds or walks over attributes looks at the
cookie, so an old message is a new one under a stored cookie.
-/

namespace TurnClient

open ByteMemory
set_option autoImplicit false

/-- The cookie of a message of the old version; `none` when it is not one. -/
def oldStunIsCommandMessageStr (buf : Mem) (blen : Nat) : Option (BitVec 32) :=
  if decide (stunHeaderLength ≤ blen) && !stunValidChannel (get16 buf 0) &&
      (buf 0 &&& 0xC0 == 0) && get32 buf 4 != stunMagicCookie &&
      (get16 buf 2 &&& 0x0003 == 0) && decide ((get16 buf 2).toNat + stunHeaderLength = blen) then
    some (get32 buf 4)
  else none

def oldStunInitCommandStr (messageType : BitVec 16) (buf : Mem) (rnd : StunTid)
    (cookie : BitVec 32) : StunBuffer :=
  let m := stunInitBufferStr buf
  let messageType := messageType &&& 0x3FFF
  let b := put16 m.buf 0 messageType
  let b := put16 b 2 0
  let b := put32 b 4 cookie
  ⟨stunTidMessageCpy b rnd, m.len⟩

def oldStunInitSuccessResponseStr (method : BitVec 16) (buf : Mem) (rnd : StunTid)
    (id : Option StunTid) (cookie : BitVec 32) : StunBuffer :=
  let m := oldStunInitCommandStr (stunMakeSuccessResponse method) buf rnd cookie
  match id with
  | none => m
  | some tid => ⟨stunTidMessageCpy m.buf tid, m.len⟩

def oldStunInitErrorResponseStr (method : BitVec 16) (buf : Mem) (rnd : StunTid)
    (errorCode : BitVec 16) (reason : Option (List Byte)) (id : Option StunTid)
    (cookie : BitVec 32) : StunBuffer :=
  stunInitErrorResponseCommonStr
    (oldStunInitCommandStr (stunMakeErrorResponse method) buf rnd cookie) errorCode reason id

structure BindingResponseArgs where
  tid : Option StunTid
  reflexiveAddr : Option IoaAddr
  errorCode : Int
  reason : Option (List Byte)
  cookie : BitVec 32
  oldStun : Bool
  noStunBackwardCompatibility : Bool

def stunSetBindingResponseStr (maps : AddrMappings) (buf : Mem) (rnd : StunTid)
    (args : BindingResponseArgs) : Rc × StunBuffer :=
  if args.errorCode = 0 then
    let m := if args.oldStun
      then oldStunInitSuccessResponseStr stunMethodBinding buf rnd args.tid args.cookie
      else stunInitSuccessResponseStr stunMethodBinding buf rnd args.tid
    Rc.andThen (if args.oldStun then (.ok, m)
      else addOptAddr maps m stunAttributeXorMappedAddress args.reflexiveAddr) fun m =>
    if args.noStunBackwardCompatibility then (.ok, m)
    else addOptAddr maps m stunAttributeMappedAddress args.reflexiveAddr
  else if args.oldStun then
    (.ok, oldStunInitErrorResponseStr stunMethodBinding buf rnd (BitVec.ofInt 16 args.errorCode)
      args.reason args.tid args.cookie)
  else
    (.ok, stunInitErrorResponseStr stunMethodBinding buf rnd (BitVec.ofInt 16 args.errorCode)
      args.reason args.tid)

/-! ## Messages under a stored cookie -/

/-- The message becomes one of the new version when the magic cookie is stored in it. -/
structure MessageUnder (m : StunBuffer) (cookie : BitVec 32) (msgType : BitVec 16) (tid : StunTid)
    (attrs : List Tlv.Record) : Prop where
  cookie_eq : get32 m.buf 4 = cookie
  message : IsMessage ⟨put32 m.buf 4 stunMagicCookie, m.len⟩ msgType tid attrs

theorem put32_outside {m : Mem} {off : Nat} {x : BitVec 32} {i : Nat}
    (h : i < off ∨ off + 4 ≤ i) : put32 m off x i = m i :=
  write_outside (by rw [be32_length]; exact h)

theorem get16_put32_of_ne {m : Mem} {off o : Nat} {x : BitVec 32}
    (h : o + 2 ≤ off ∨ off + 4 ≤ o) : get16 (put32 m off x) o = get16 m o :=
  get16_congr (put32_outside (by omega)) (put32_outside (by omega))

/-! ## The walk does not see the cookie -/

section Cookie
variable (buf : Mem) (len : Nat) (x : BitVec 32)

theorem commandLen_put32 :
    stunGetCommandMessageLenStr (put32 buf 4 x) len = stunGetCommandMessageLenStr buf len := by
  unfold stunGetCommandMessageLenStr
  rw [get16_put32_of_ne (by omega)]

theorem checkValid_put32 {attr : Nat} (h : 20 ≤ attr) (remaining : Nat) :
    stunAttrCheckValid (put32 buf 4 x) attr remaining = stunAttrCheckValid buf attr remaining := by
  unfold stunAttrCheckValid
  rw [get16_put32_of_ne (by omega)]

theorem first_put32 :
    stunAttrGetFirstStr (put32 buf 4 x) len = stunAttrGetFirstStr buf len := by
  simp only [stunAttrGetFirstStr, commandLen_put32]
  split
  · exact checkValid_put32 buf x (Nat.le_refl 20) _
  · rfl

theorem next_put32 {a : Nat} (h : 20 ≤ a) :
    stunAttrGetNextStr (put32 buf 4 x) len (some a) = stunAttrGetNextStr buf len (some a) := by
  simp only [stunAttrGetNextStr, commandLen_put32]
  rw [get16_put32_of_ne (by omega)]
  split
  · exact checkValid_put32 buf x (by omega) _
  · rfl

theorem attrRefsFrom_put32 (fuel : Nat) (r : Option Nat)
    (hr : ∀ a, r = some a → InMessage buf len a) :
    attrRefsFrom (put32 buf 4 x) len fuel r = attrRefsFrom buf len fuel r := by
  induction fuel generalizing r with
  | zero => cases r <;> rfl
  | succ fuel ih =>
    cases r with
    | none => rfl
    | some a =>
      have ha := hr a rfl
      rw [attrRefsFrom, attrRefsFrom, next_put32 buf len x ha.1,
        ih _ fun b hb => (inMessage_next ha hb).2]

/-- Whatever is in the buffer, the attributes visited are the same under every cookie. -/
theorem attrRefs_put32 : attrRefs (put32 buf 4 x) len = attrRefs buf len := by
  rw [attrRefs, attrRefs, first_put32]
  exact attrRefsFrom_put32 buf len x _ _ fun a ha => inMessage_first ha

end Cookie

namespace MessageUnder

variable {m : StunBuffer} {cookie : BitVec 32} {msgType : BitVec 16} {tid : StunTid}
variable {attrs : List Tlv.Record}

theorem msgType_eq (h : MessageUnder m cookie msgType tid attrs) : get16 m.buf 0 = msgType := by
  rw [← h.message.header.type_eq]
  exact (get16_put32_of_ne (by omega)).symm

theorem lenField (h : MessageUnder m cookie msgType tid attrs) :
    (get16 m.buf 2).toNat = Tlv.size attrs := by
  rw [← h.message.lenField]
  exact congrArg BitVec.toNat (get16_put32_of_ne (by omega)).symm

theorem len_eq (h : MessageUnder m cookie msgType tid attrs) : m.len = 20 + Tlv.size attrs :=
  h.message.len_eq

theorem tid_eq (h : MessageUnder m cookie msgType tid attrs) :
    stunTidFromMessageStr m.buf = tid := by
  rw [← h.message.header.tid_eq]
  unfold stunTidFromMessageStr
  rw [StunTid.mk.injEq]
  apply (slice_eq_iff _ _ _ _).mpr
  intro i hlo _
  exact (put32_outside (by omega)).symm

theorem laidOut (h : MessageUnder m cookie msgType tid attrs) : Tlv.LaidOut m.buf 20 attrs :=
  Tlv.laidOut_congr (fun _ hlo _ => put32_outside (by omega)) h.message.laidOut

theorem commandLen (h : MessageUnder m cookie msgType tid attrs) :
    stunGetCommandMessageLenStr m.buf m.len = (m.len : Int) := by
  rw [← commandLen_put32 m.buf m.len stunMagicCookie]
  exact h.message.commandLen

theorem attrRefs_eq (h : MessageUnder m cookie msgType tid attrs) :
    attrRefs m.buf m.len = Tlv.offsets 20 attrs := by
  rw [← attrRefs_put32 m.buf m.len stunMagicCookie]
  exact h.message.attrRefs_eq

theorem isOldCommand (h : MessageUnder m cookie msgType tid attrs)
    (htype : msgType.toNat < 0x4000) :
    oldStunIsCommandMessageStr m.buf m.len =
        (if cookie = stunMagicCookie then none else some cookie) ∧
      stunIsCommandMessageStr m.buf m.len = decide (cookie = stunMagicCookie) := by
  have hnew := h.message.isCommand htype
  have h0 : put32 m.buf 4 stunMagicCookie 0 = m.buf 0 := put32_outside (by omega)
  have htype' : get16 (put32 m.buf 4 stunMagicCookie) 0 = get16 m.buf 0 :=
    get16_put32_of_ne (by omega)
  have hlen : get16 (put32 m.buf 4 stunMagicCookie) 2 = get16 m.buf 2 :=
    get16_put32_of_ne (by omega)
  simp only [stunIsCommandMessageStr, h0, htype', hlen, get32_put32, beq_self_eq_true,
    Bool.and_true, Bool.and_eq_true] at hnew
  obtain ⟨⟨⟨⟨hheader, hchannel⟩, htop⟩, hmod⟩, hblen⟩ := hnew
  unfold oldStunIsCommandMessageStr stunIsCommandMessageStr
  rw [hheader, hchannel, htop, hmod, hblen, h.cookie_eq]
  by_cases hc : cookie = stunMagicCookie
  · simp [hc]
  · simp [hc]

/-- The class and the method do not depend on the cookie. -/
theorem wellFormed (h : MessageUnder m cookie msgType tid attrs) {c : MsgClass}
    {method : BitVec 16} (htype : msgType = c.makeType method &&& 0x3FFF)
    (hlt : m.len < maxStunMessageSize) :
    stunGetMethodStr m.buf m.len = method &&& 0x0FFF ∧
      stunIsSuccessResponseStr m.buf m.len = decide (c = .success) := by
  have hmsg := h.message
  rw [htype] at hmsg
  have hwf := wellFormed_of_isMessage hmsg hlt
  have h0 : get16 (put32 m.buf 4 stunMagicCookie) 0 = get16 m.buf 0 :=
    get16_put32_of_ne (by omega)
  have hmethod := hwf.method_eq
  have hsuccess := hwf.success
  simp only [stunGetMethodStr, h0] at hmethod
  simp only [stunIsSuccessResponseStr, isChannelMsgStr, stunGetMsgTypeStr, h0] at hsuccess
  exact ⟨hmethod, hsuccess⟩

end MessageUnder

theorem appendRecord_put32 (buf : Mem) {clen : Nat} (h : 20 ≤ clen) (attr : BitVec 16)
    (v : List Byte) (x : BitVec 32) :
    put32 (appendRecord buf clen attr v) 4 x = appendRecord (put32 buf 4 x) clen attr v := by
  funext i
  by_cases hi : 4 ≤ i ∧ i < 8
  · have hin : i < 4 + (be32 x).length := by
      rw [be32_length]
      omega
    rw [appendRecord_outside (by omega) (by omega), put32, put32, write_apply, write_apply buf,
      if_pos ⟨hi.1, hin⟩, if_pos ⟨hi.1, hin⟩]
  · have hsame : put32 buf 4 x i = buf i := put32_outside (by omega)
    rw [put32_outside (by omega)]
    simp only [appendRecord, put16, write_apply, hsame]

namespace MessageUnder

variable {m : StunBuffer} {cookie : BitVec 32} {msgType : BitVec 16} {tid : StunTid}
variable {attrs : List Tlv.Record}

theorem append (h : MessageUnder m cookie msgType tid attrs) (attr : BitVec 16) {v : List Byte}
    (hroom : m.len + 4 + Tlv.pad4 v.length < maxStunMessageSize) :
    MessageUnder ⟨appendRecord m.buf m.len attr v, m.len + 4 + Tlv.pad4 v.length⟩ cookie msgType tid
      (attrs ++ [(attr, v)]) := by
  have hlen := h.len_eq
  have hmsg := h.message.append attr v hroom
  rw [← appendRecord_put32 m.buf (show 20 ≤ m.len by omega)] at hmsg
  refine ⟨?_, hmsg⟩
  rw [← h.cookie_eq]
  simp only [appendRecord, put16]
  rw [get32_write_disjoint (by omega), get32_write_disjoint (by omega),
    get32_write_disjoint (by omega), get32_write_disjoint (by simp)]

theorem add_room (h : MessageUnder m cookie msgType tid attrs) (attr : BitVec 16) (v : List Byte)
    (hroom : m.len + 4 + Tlv.pad4 v.length < maxStunMessageSize) :
    ∃ m', stunAttrAddStr m attr (some (ofList v)) v.length = (.ok, m') ∧
      MessageUnder m' cookie msgType tid (attrs ++ [(attr, v)]) := by
  refine ⟨_, ?_, h.append attr hroom⟩
  unfold maxStunMessageSize at hroom
  rw [stunAttrAddStr_eq attr _ _ h.commandLen h.message.len_mod, attrBytes_ofList]
  simp only
  rw [if_neg (by unfold intMax; omega), if_neg (by unfold maxStunMessageSize; omega)]

theorem tidCpy (h : MessageUnder m cookie msgType tid attrs) (id : StunTid) :
    MessageUnder ⟨stunTidMessageCpy m.buf id, m.len⟩ cookie msgType id attrs := by
  have hid := id.size_eq
  refine ⟨?_, ?_⟩
  · rw [← h.cookie_eq, stunTidMessageCpy, get32_write_disjoint (by omega)]
  · have hcomm : put32 (stunTidMessageCpy m.buf id) 4 stunMagicCookie =
        stunTidMessageCpy (put32 m.buf 4 stunMagicCookie) id :=
      write_comm (by rw [be32_length]; omega)
    rw [hcomm]
    exact h.message.tidCpy id

end MessageUnder

theorem messageUnder_initCommand (messageType : BitVec 16) (buf : Mem) (rnd : StunTid)
    (cookie : BitVec 32) :
    MessageUnder (oldStunInitCommandStr messageType buf rnd cookie) cookie (messageType &&& 0x3FFF)
      rnd [] := by
  have hid := rnd.size_eq
  have hpatched : put32 (oldStunInitCommandStr messageType buf rnd cookie).buf 4 stunMagicCookie =
      (stunInitCommandStr messageType buf rnd).buf := by
    simp only [oldStunInitCommandStr, stunInitCommandStr, stunTidMessageCpy, put32]
    rw [write_comm (by rw [be32_length]; omega), write_covered ⟨Nat.le_refl 4, by simp⟩]
  refine ⟨?_, ?_⟩
  · simp only [oldStunInitCommandStr, stunTidMessageCpy]
    rw [get32_write_disjoint (by omega), get32_put32]
  · rw [hpatched]
    exact isMessage_initCommand messageType buf rnd

theorem MessageUnder.optAddr_ok {m : StunBuffer} {cookie : BitVec 32} {msgType : BitVec 16}
    {tid : StunTid} {attrs : List Tlv.Record} (h : MessageUnder m cookie msgType tid attrs)
    (hsmall : Tlv.size attrs ≤ 1000) (attrType : BitVec 16) {a : Option IoaAddr}
    (hknown : ∀ b ∈ a.toList, b.known = true) :
    ∃ m', addOptAddr addrMappings m attrType a = (.ok, m') ∧
      MessageUnder m' cookie msgType tid (attrs ++ a.toList.map (addrRecord tid attrType)) := by
  cases a with
  | none => exact ⟨m, rfl, by simpa using h⟩
  | some a =>
    have hlen := h.len_eq
    obtain ⟨v, henc⟩ := stunAddrEncode_known (hknown a (by simp)) (isXored attrType)
      stunMagicCookie tid
    have henc' : stunAddrEncode (mapAddrFromPrivateToPublic addrMappings a) (isXored attrType)
        stunMagicCookie tid = some v := henc
    have hvlen := stunAddrEncode_length henc
    have hpad := Tlv.pad4_lt v.length
    obtain ⟨m', hadd, hm'⟩ := h.add_room attrType v (by unfold maxStunMessageSize; omega)
    refine ⟨m', ?_, ?_⟩
    · simp only [addOptAddr, stunAttrAddAddrStr, h.tid_eq, henc']
      exact hadd
    · have hrec : addrRecord tid attrType a = (attrType, v) := by
        rw [addrRecord, henc, Option.getD_some]
      simpa [hrec] using hm'

/-! ## Reading the addresses -/

/-- What `stun_attr_get_first_addr_str` returns for the address of an attribute. -/
def foundAddr : Option IoaAddr → Int × IoaAddr
  | some a => (0, onWire a)
  | none => (-1, IoaAddr.any)

theorem getAddr_addrRecord {buf : Mem} {tid : StunTid} (htid : stunTidFromMessageStr buf = tid)
    {t : BitVec 16} {a : IoaAddr} (hknown : a.known = true) {off : Nat}
    (hrec : Tlv.RecordAt buf off (addrRecord tid t a)) :
    stunAttrGetAddrStr addrMappings buf (some off) none = (0, onWire a) := by
  obtain ⟨v, henc⟩ := stunAddrEncode_known hknown (isXored t) stunMagicCookie tid
  have hv : addrRecord tid t a = (t, v) := by rw [addrRecord, henc, Option.getD_some]
  rw [hv] at hrec
  rw [← htid] at henc
  exact stunAttrGetAddrStr_recordAt henc hrec

/-- Of attributes that are all encoded addresses, the first one of a type is read back. -/
theorem firstAddrFrom_addrRecords {buf : Mem} {tid : StunTid}
    (htid : stunTidFromMessageStr buf = tid) {t : BitVec 16} (ht : stunAttrIsAddr t = true)
    (as : List (BitVec 16 × IoaAddr)) (hknown : ∀ p ∈ as, p.2.known = true) {off : Nat}
    (hl : Tlv.LaidOut buf off (as.map fun p => addrRecord tid p.1 p.2)) :
    firstAddrFrom buf t none (Tlv.offsets off (as.map fun p => addrRecord tid p.1 p.2)) =
      foundAddr ((as.find? fun p => p.1 == t).map Prod.snd) := by
  induction as generalizing off with
  | nil => rfl
  | cons p as ih =>
    have hrec : Tlv.RecordAt buf off (addrRecord tid p.1 p.2) := hl.1
    have htype : get16 buf off = p.1 := hrec.1
    have hnext := ih (fun q hq => hknown q (List.mem_cons_of_mem p hq)) hl.2
    rw [List.map_cons, Tlv.offsets, firstAddrFrom, htype, List.find?_cons]
    by_cases hp : p.1 = t
    · have hget := getAddr_addrRecord htid (hknown p List.mem_cons_self) hrec
      rw [hp, ht, beq_self_eq_true, Bool.and_self, if_pos rfl, hget, if_pos rfl]
      rfl
    · have hne : (p.1 == t) = false := beq_eq_false_iff_ne.mpr hp
      have hne' : (t == p.1) = false := beq_eq_false_iff_ne.mpr (Ne.symm hp)
      rw [hne', Bool.and_false, if_neg Bool.false_ne_true, hne]
      exact hnext

/-- The same for the attribute that is found by its type. -/
theorem find_read_addrRecords {buf : Mem} {tid : StunTid} (htid : stunTidFromMessageStr buf = tid)
    (t : BitVec 16) (as : List (BitVec 16 × IoaAddr)) (hknown : ∀ p ∈ as, p.2.known = true)
    {off : Nat} (hl : Tlv.LaidOut buf off (as.map fun p => addrRecord tid p.1 p.2)) :
    ((Tlv.offsets off (as.map fun p => addrRecord tid p.1 p.2)).find? fun a => get16 buf a == t).map
        (fun sar => (stunAttrGetAddrStr addrMappings buf (some sar) none).2) =
      ((as.find? fun p => p.1 == t).map Prod.snd).map onWire := by
  induction as generalizing off with
  | nil => rfl
  | cons p as ih =>
    have hrec : Tlv.RecordAt buf off (addrRecord tid p.1 p.2) := hl.1
    have htype : get16 buf off = p.1 := hrec.1
    have hnext := ih (fun q hq => hknown q (List.mem_cons_of_mem p hq)) hl.2
    rw [List.map_cons, Tlv.offsets, List.find?_cons, List.find?_cons, htype]
    by_cases hp : p.1 = t
    · have hget := getAddr_addrRecord htid (hknown p List.mem_cons_self) hrec
      rw [beq_iff_eq.mpr hp]
      simp only [Option.map_some, hget]
    · rw [beq_eq_false_iff_ne.mpr hp]
      exact hnext

/-- The address attributes of a Binding response. -/
def bindingAddrs (args : BindingResponseArgs) : List (BitVec 16 × IoaAddr) :=
  (if args.oldStun then [] else
    args.reflexiveAddr.toList.map fun a => (stunAttributeXorMappedAddress, a)) ++
  if args.noStunBackwardCompatibility then [] else
    args.reflexiveAddr.toList.map fun a => (stunAttributeMappedAddress, a)

theorem messageUnder_initSuccess (oldStun : Bool) (method : BitVec 16) (buf : Mem) (rnd : StunTid)
    (id : Option StunTid) (cookie : BitVec 32) :
    MessageUnder (if oldStun then oldStunInitSuccessResponseStr method buf rnd id cookie
        else stunInitSuccessResponseStr method buf rnd id)
      (if oldStun then cookie else stunMagicCookie) (stunMakeSuccessResponse method &&& 0x3FFF)
      (id.getD rnd) [] := by
  have hinit := messageUnder_initCommand (stunMakeSuccessResponse method) buf rnd
    (if oldStun then cookie else stunMagicCookie)
  cases oldStun with
  | true =>
    cases id with
    | none => exact hinit
    | some tid => exact hinit.tidCpy tid
  | false =>
    cases id with
    | none => exact hinit
    | some tid => exact hinit.tidCpy tid

/-- An address attribute that is written under a condition. -/
theorem MessageUnder.addrUnless {m : StunBuffer} {cookie : BitVec 32} {msgType : BitVec 16}
    {tid : StunTid} {attrs : List Tlv.Record} (h : MessageUnder m cookie msgType tid attrs)
    (hsmall : Tlv.size attrs ≤ 1000) (skip : Bool) (attrType : BitVec 16) {a : Option IoaAddr}
    (hknown : ∀ b ∈ a.toList, b.known = true) :
    ∃ m', (if skip then (Rc.ok, m) else addOptAddr addrMappings m attrType a) = (.ok, m') ∧
      MessageUnder m' cookie msgType tid
        (attrs ++ if skip then [] else a.toList.map (addrRecord tid attrType)) := by
  cases skip with
  | true => exact ⟨m, rfl, by simpa using h⟩
  | false => exact h.optAddr_ok hsmall attrType hknown

theorem stunSetBindingResponseStr_success (buf : Mem) (rnd : StunTid) (args : BindingResponseArgs)
    (herr : args.errorCode = 0) (hknown : ∀ a ∈ args.reflexiveAddr.toList, a.known = true) :
    ∃ m, stunSetBindingResponseStr addrMappings buf rnd args = (.ok, m) ∧
      MessageUnder m (if args.oldStun then args.cookie else stunMagicCookie)
        (stunMakeSuccessResponse stunMethodBinding &&& 0x3FFF) (args.tid.getD rnd)
        ((bindingAddrs args).map fun p => addrRecord (args.tid.getD rnd) p.1 p.2) := by
  have hinit := messageUnder_initSuccess args.oldStun stunMethodBinding buf rnd args.tid args.cookie
  obtain ⟨m₁, hadd₁, h₁⟩ := hinit.addrUnless (by decide) args.oldStun stunAttributeXorMappedAddress
    hknown
  have hsize : Tlv.size ([] ++ if args.oldStun then [] else args.reflexiveAddr.toList.map
      (addrRecord (args.tid.getD rnd) stunAttributeXorMappedAddress)) ≤ 1000 := by
    have hrecords := size_addrRecords (args.tid.getD rnd) stunAttributeXorMappedAddress
      args.reflexiveAddr.toList
    have hone := args.reflexiveAddr.length_toList_le
    rw [List.nil_append]
    split
    · simp [Tlv.size]
    · omega
  obtain ⟨m₂, hadd₂, h₂⟩ := h₁.addrUnless hsize args.noStunBackwardCompatibility
    stunAttributeMappedAddress hknown
  refine ⟨m₂, ?_, ?_⟩
  · unfold stunSetBindingResponseStr
    rw [if_pos herr]
    simp only [hadd₁, Rc.andThen]
    exact hadd₂
  · have hattrs : (bindingAddrs args).map (fun p => addrRecord (args.tid.getD rnd) p.1 p.2) =
        ([] ++ if args.oldStun then [] else args.reflexiveAddr.toList.map
          (addrRecord (args.tid.getD rnd) stunAttributeXorMappedAddress)) ++
        if args.noStunBackwardCompatibility then [] else args.reflexiveAddr.toList.map
          (addrRecord (args.tid.getD rnd) stunAttributeMappedAddress) := by
      unfold bindingAddrs
      cases args.oldStun <;> cases args.noStunBackwardCompatibility <;> cases args.reflexiveAddr <;>
        rfl
    rw [hattrs]
    exact h₂

theorem find_bindingAddrs (args : BindingResponseArgs) :
    ((bindingAddrs args).find? fun p => p.1 == stunAttributeXorMappedAddress).map Prod.snd =
        (if args.oldStun then none else args.reflexiveAddr) ∧
      ((bindingAddrs args).find? fun p => p.1 == stunAttributeMappedAddress).map Prod.snd =
        if args.noStunBackwardCompatibility then none else args.reflexiveAddr := by
  have hne : stunAttributeXorMappedAddress ≠ stunAttributeMappedAddress := by decide
  unfold bindingAddrs
  cases args.oldStun <;> cases args.noStunBackwardCompatibility <;> cases args.reflexiveAddr <;>
    simp [hne, hne.symm]

theorem size_bindingAddrs (tid : StunTid) (args : BindingResponseArgs) :
    Tlv.size ((bindingAddrs args).map fun p => addrRecord tid p.1 p.2) ≤ 48 := by
  have hpad : ∀ t a, Tlv.pad4 (addrRecord tid t a).2.length ≤ 20 := by
    intro t a
    have hlen := addrRecord_length tid t a
    unfold Tlv.pad4
    omega
  unfold bindingAddrs
  cases args.oldStun <;> cases args.noStunBackwardCompatibility <;> cases args.reflexiveAddr <;>
    simp only [if_true, if_false, Bool.false_eq_true, Option.toList, List.map_nil, List.map_cons,
      List.nil_append, List.append_nil, List.cons_append, Tlv.size] <;>
    first
    | omega
    | (rename_i a
       have h₁ := hpad stunAttributeXorMappedAddress a
       have h₂ := hpad stunAttributeMappedAddress a
       omega)

/-- A response of either version is recognised by the predicate of its own version, keeps the
transaction id, and gives the reflexive address back where the version puts it. -/
theorem binding_response_read_back (buf : Mem) (rnd : StunTid) (args : BindingResponseArgs)
    (herr : args.errorCode = 0) (hknown : ∀ a ∈ args.reflexiveAddr.toList, a.known = true) :
    ∃ m, stunSetBindingResponseStr addrMappings buf rnd args = (.ok, m) ∧
      stunTidFromMessageStr m.buf = args.tid.getD rnd ∧
      stunGetMethodStr m.buf m.len = stunMethodBinding ∧
      stunIsSuccessResponseStr m.buf m.len = true ∧
      (stunIsCommandMessageStr m.buf m.len = true ↔
        args.oldStun = true → args.cookie = stunMagicCookie) ∧
      oldStunIsCommandMessageStr m.buf m.len =
        (if args.oldStun ∧ args.cookie ≠ stunMagicCookie then some args.cookie else none) ∧
      stunAttrGetFirstAddrStr m.buf m.len stunAttributeXorMappedAddress none =
        foundAddr (if args.oldStun then none else args.reflexiveAddr) ∧
      stunAttrGetFirstAddrStr m.buf m.len stunAttributeMappedAddress none =
        foundAddr (if args.noStunBackwardCompatibility then none else args.reflexiveAddr) := by
  obtain ⟨m, hbuilt, hm⟩ := stunSetBindingResponseStr_success buf rnd args herr hknown
  have hsize := size_bindingAddrs (args.tid.getD rnd) args
  have hlen := hm.len_eq
  have htype := and_3FFF_lt (stunMakeSuccessResponse stunMethodBinding)
  obtain ⟨hmethod, hsuccess⟩ := hm.wellFormed (c := .success) rfl
    (by unfold maxStunMessageSize; omega)
  obtain ⟨hold, hnew⟩ := hm.isOldCommand htype
  obtain ⟨hxor, hmapped⟩ := find_bindingAddrs args
  have hall : ∀ p ∈ bindingAddrs args, p.2.known = true := by
    intro p hp
    unfold bindingAddrs at hp
    rcases List.mem_append.mp hp with hp | hp
    · split at hp
      · cases hp
      · obtain ⟨a, ha, rfl⟩ := List.mem_map.mp hp
        exact hknown a ha
    · split at hp
      · cases hp
      · obtain ⟨a, ha, rfl⟩ := List.mem_map.mp hp
        exact hknown a ha
  refine ⟨m, hbuilt, hm.tid_eq, hmethod, hsuccess, ?_, ?_, ?_, ?_⟩
  · rw [hnew, decide_eq_true_eq]
    cases args.oldStun <;> simp
  · rw [hold]
    cases args.oldStun <;> simp
  · rw [stunAttrGetFirstAddrStr, hm.attrRefs_eq,
      firstAddrFrom_addrRecords hm.tid_eq (by decide) _ hall hm.laidOut, hxor]
  · rw [stunAttrGetFirstAddrStr, hm.attrRefs_eq,
      firstAddrFrom_addrRecords hm.tid_eq (by decide) _ hall hm.laidOut, hmapped]

/-- An answer to a request of the old version, for 198.51.100.7:40000. -/
def oldBindingAnswer : BindingResponseArgs where
  tid := some countingTid
  reflexiveAddr := some { IoaAddr.any with family := .inet, port := 40000, word := 0xC6336407 }
  errorCode := 0
  reason := none
  cookie := 0x01020304
  oldStun := true
  noStunBackwardCompatibility := false

theorem old_response_read_back :
    ∃ m, stunSetBindingResponseStr addrMappings (fun _ => 0) countingTid oldBindingAnswer =
        (.ok, m) ∧
      oldStunIsCommandMessageStr m.buf m.len = some 0x01020304 ∧
      stunAttrGetFirstAddrStr m.buf m.len stunAttributeMappedAddress none =
        (0, { IoaAddr.any with family := .inet, port := 40000, word := 0xC6336407 }) := by
  obtain ⟨m, hbuilt, _, _, _, _, hold, _, hmapped⟩ :=
    binding_response_read_back (fun _ => 0) countingTid oldBindingAnswer rfl (by decide)
  exact ⟨m, hbuilt, hold, hmapped⟩

end TurnClient
