import TurnClient.AllocateTurns
import TurnClient.AttributeValues

/-!
# The Allocate request, built and read back

`stun_set_allocate_request_str` writes the options of a request one after the
other, and the getters of the same file read them on the other side. Next to a
reservation token the builder leaves the address family out; EVEN-PORT it writes
for every `ep` above -1.
-/

namespace TurnClient

open ByteMemory
set_option autoImplicit false

/-- `stun_attr_get_even_port`. -/
def stunAttrGetEvenPort (buf : Mem) (attr : Option Nat) : Byte :=
  match stunAttrGetValue buf attr with
  | none => 0
  | some value => if 0x7F < (buf value).toNat then 1 else 0

def stunGetRequestedAddressFamily (buf : Mem) : Option Nat → AddressFamilyValue
  | none => .default
  | some attr =>
    if (get16 buf (attr + 2)).toNat ≠ 4 then .invalid
    else if buf (attr + 4) = addressFamilyValueIpv4 then .ipv4
    else if buf (attr + 4) = addressFamilyValueIpv6 then .ipv6
    else .invalid

/-! ## The records of a request -/

/-- The records of a table of optional attributes. -/
def presentRecords (table : List (BitVec 16 × Option (List Byte))) : List Tlv.Record :=
  table.filterMap fun p => p.2.map fun v => (p.1, v)

theorem presentRecords_append (table table' : List (BitVec 16 × Option (List Byte))) :
    presentRecords (table ++ table') = presentRecords table ++ presentRecords table' :=
  List.filterMap_append

theorem find_presentRecords {table : List (BitVec 16 × Option (List Byte))}
    (hnodup : (table.map Prod.fst).Nodup) {t : BitVec 16} {v : Option (List Byte)}
    (hmem : (t, v) ∈ table) :
    ((presentRecords table).find? fun r => r.1 == t).map Prod.snd = v := by
  induction table with
  | nil => cases hmem
  | cons p table ih =>
    rw [List.map_cons, List.nodup_cons] at hnodup
    obtain ⟨hnew, hnodup⟩ := hnodup
    have hcons : presentRecords (p :: table) = presentRecords [p] ++ presentRecords table :=
      presentRecords_append [p] table
    rw [hcons, List.find?_append]
    rcases List.mem_cons.mp hmem with rfl | hmem
    · cases v with
      | some v => simp [presentRecords]
      | none =>
        have hnone : ((presentRecords table).find? fun r => r.1 == t) = none := by
          rw [List.find?_eq_none]
          intro r hr
          obtain ⟨q, hq, hqr⟩ := List.mem_filterMap.mp hr
          obtain ⟨v, _, rfl⟩ := Option.map_eq_some_iff.mp hqr
          rw [beq_iff_eq]
          rintro rfl
          exact hnew (List.mem_map.mpr ⟨q, hq, rfl⟩)
        simp [presentRecords] at hnone ⊢
        simpa [presentRecords] using hnone
    · have hne : p.1 ≠ t := by
        rintro rfl
        exact hnew (List.mem_map.mpr ⟨_, hmem, rfl⟩)
      have hskip : ((presentRecords [p]).find? fun r => r.1 == t) = none := by
        cases hp : p.2 <;> simp [presentRecords, hp, hne]
      rw [hskip, Option.none_or]
      exact ih hnodup hmem

def requestedLifetime (lifetime : BitVec 32) : BitVec 32 :=
  if lifetime.toNat < 1 then 600 else lifetime

/-- REQUESTED-ADDRESS-FAMILY asks for one family, ADDITIONAL-ADDRESS-FAMILY for a second. -/
def familyTable (af4 af6 : Bool) (rt : Option (List Byte)) :
    List (BitVec 16 × Option (List Byte)) :=
  [(stunAttributeReservationToken, rt),
    (stunAttributeRequestedAddressFamily, if rt.isSome || af4 == af6 then none
      else some [if af4 then addressFamilyValueIpv4 else addressFamilyValueIpv6, 0, 0, 0]),
    (stunAttributeAdditionalAddressFamily, if rt.isNone && af4 && af6 then
      some [addressFamilyValueIpv6, 0, 0, 0] else none)]

def requestTable (lifetime : BitVec 32) (af4 af6 : Bool) (transport : Byte) (mobile : Bool)
    (rt : Option (List Byte)) (ep : Int) : List (BitVec 16 × Option (List Byte)) :=
  [(stunAttributeRequestedTransport, some [transport, 0, 0, 0]),
    (stunAttributeLifetime, some (be32 (requestedLifetime lifetime))),
    (stunAttributeMobilityTicket, if mobile then some [] else none),
    (stunAttributeEvenPort, if -1 < ep then some [if ep ≠ 0 then 0x80 else 0x00] else none)] ++
  familyTable af4 af6 rt

section Building

variable {m : StunBuffer} {msgType : BitVec 16} {tid : StunTid} {attrs : List Tlv.Record}

theorem IsMessage.addedBytes (h : IsMessage m msgType tid attrs) (attr : BitVec 16) (v : List Byte)
    (hroom : m.len + v.length + 8 ≤ 1000) :
    ∃ m', stunAttrAddBytes m attr v = (.ok, m') ∧ IsMessage m' msgType tid (attrs ++ [(attr, v)]) ∧
      m'.len ≤ m.len + v.length + 8 := by
  have hbytes := attrBytes_ofList v
  obtain ⟨m', hadd, hm', hle⟩ := h.add_ok attr (some (ofList v)) v.length
    (by rw [hbytes]; unfold maxStunMessageSize; omega)
  rw [hbytes] at hm' hle
  exact ⟨m', hadd, hm', hle⟩

theorem IsMessage.addedBytesIf (h : IsMessage m msgType tid attrs) (b : Prop) [Decidable b]
    (attr : BitVec 16) (v : List Byte) (hroom : m.len + v.length + 8 ≤ 1000) :
    ∃ m', (if b then stunAttrAddBytes m attr v else (.ok, m)) = (.ok, m') ∧
      IsMessage m' msgType tid (attrs ++ presentRecords [(attr, if b then some v else none)]) ∧
      m'.len ≤ m.len + v.length + 8 := by
  by_cases hb : b
  · simp only [if_pos hb]
    exact h.addedBytes attr v hroom
  · simp only [if_neg hb]
    exact ⟨m, rfl, by simpa [presentRecords] using h, by omega⟩

theorem IsMessage.requestedFamily (h : IsMessage m msgType tid attrs) (hroom : m.len ≤ 900)
    (af4 af6 : Bool) {rt : Option (List Byte)} (hrt : ∀ token, rt = some token → token.length = 8) :
    ∃ m', addRequestedFamily m af4 af6 rt = (.ok, m') ∧
      IsMessage m' msgType tid (attrs ++ presentRecords (familyTable af4 af6 rt)) ∧
      m'.len ≤ m.len + 16 := by
  cases rt with
  | some token =>
    have hlen := hrt token rfl
    obtain ⟨m', hadd, hm', hle⟩ := h.addedBytes stunAttributeReservationToken token (by omega)
    have height : ((8 : Nat) : Int) = 8 := rfl
    rw [stunAttrAddBytes, hlen, height] at hadd
    refine ⟨m', ?_, hm', by omega⟩
    simp only [addRequestedFamily, hadd]
  | none =>
    have hfamily : ∀ (attr : BitVec 16) (x : Byte), ∃ m', stunAttrAddBytes m attr [x, 0, 0, 0] =
        (.ok, m') ∧ IsMessage m' msgType tid (attrs ++ [(attr, [x, 0, 0, 0])]) ∧
          m'.len ≤ m.len + 16 := by
      intro attr x
      have hfour : ([x, 0, 0, 0] : List Byte).length = 4 := rfl
      obtain ⟨m', hadd, hm', hle⟩ := h.addedBytes attr [x, 0, 0, 0] (by omega)
      exact ⟨m', hadd, hm', by omega⟩
    cases af4 <;> cases af6
    · exact ⟨m, rfl, by simpa [familyTable, presentRecords] using h, by omega⟩
    · simpa [addRequestedFamily, familyTable, presentRecords] using
        hfamily stunAttributeRequestedAddressFamily addressFamilyValueIpv6
    · simpa [addRequestedFamily, familyTable, presentRecords] using
        hfamily stunAttributeRequestedAddressFamily addressFamilyValueIpv4
    · simpa [addRequestedFamily, familyTable, presentRecords] using
        hfamily stunAttributeAdditionalAddressFamily addressFamilyValueIpv6

/-- Nothing of a request is refused. -/
theorem stunSetAllocateRequestStr_isMessage (c : Choice) (lifetime : BitVec 32) (af4 af6 : Bool)
    (transport : Byte) (mobile : Bool) {rt : Option (List Byte)}
    (hrt : ∀ token, rt = some token → token.length = 8) (ep : Int) :
    ∃ m, stunSetAllocateRequestStr c lifetime af4 af6 transport mobile rt ep = (.ok, m) ∧
      IsMessage m (stunMakeRequest stunMethodAllocate &&& 0x3FFF) c.tid
        (presentRecords (requestTable lifetime af4 af6 transport mobile rt ep)) ∧ m.len ≤ 100 := by
  have h₀ := isMessage_initRequest stunMethodAllocate (c.junk 0) c.tid
  have hlen₀ := h₀.len_eq
  rw [Tlv.size] at hlen₀
  obtain ⟨m₁, h₁, e₁, hle₁⟩ := h₀.addedBytes stunAttributeRequestedTransport [transport, 0, 0, 0]
    (by simp only [List.length_cons, List.length_nil]; omega)
  obtain ⟨m₂, h₂, e₂, hle₂⟩ := e₁.addedBytes stunAttributeLifetime
    (be32 (if lifetime.toNat < 1 then 600 else lifetime))
    (by simp only [List.length_cons, List.length_nil, be32_length] at hle₁ ⊢; omega)
  simp only [List.length_cons, List.length_nil, be32_length] at hle₁ hle₂
  obtain ⟨m₃, h₃, e₃, hle₃⟩ := e₂.addedBytesIf (mobile = true) stunAttributeMobilityTicket []
    (by simp only [List.length_nil]; omega)
  obtain ⟨m₄, h₄, e₄, hle₄⟩ := e₃.addedBytesIf (-1 < ep) stunAttributeEvenPort
    [if ep ≠ 0 then 0x80 else 0x00]
    (by simp only [List.length_cons, List.length_nil] at hle₃ ⊢; omega)
  simp only [List.length_cons, List.length_nil] at hle₃ hle₄
  obtain ⟨m₅, h₅, e₅, hle₅⟩ := e₄.requestedFamily (by omega) af4 af6 hrt
  refine ⟨m₅, ?_, ?_, by omega⟩
  · simp only [stunSetAllocateRequestStr, h₁, h₂, h₃, h₄, h₅, Rc.andThen]
  · rw [List.append_assoc, List.append_assoc, ← presentRecords_append,
      ← presentRecords_append] at e₅
    simpa [requestTable, requestedLifetime, presentRecords] using e₅

end Building

/-! ## Reading the options -/

/-- The options of a request, as the getters read them. -/
structure ReadsRequest (m : StunBuffer) (lifetime : BitVec 32) (af4 af6 : Bool) (transport : Byte)
    (mobile : Bool) (rt : Option (BitVec 64)) (ep : Int) : Prop where
  request : stunIsRequestStr m.buf m.len = true
  method : stunGetMethodStr m.buf m.len = stunMethodAllocate
  transport : attrStr m.buf m.len stunAttributeRequestedTransport = some [transport, 0, 0, 0]
  lifetime : attrStr m.buf m.len stunAttributeLifetime = some (be32 (requestedLifetime lifetime))
  mobility : attrStr m.buf m.len stunAttributeMobilityTicket = if mobile then some [] else none
  evenPort : (stunAttrGetFirstByTypeStr m.buf m.len stunAttributeEvenPort).isSome = decide (-1 < ep)
  evenPortBit : stunAttrGetEvenPort m.buf
    (stunAttrGetFirstByTypeStr m.buf m.len stunAttributeEvenPort) = if 0 < ep then 1 else 0
  token : stunAttrGetReservationTokenValue m.buf
    (stunAttrGetFirstByTypeStr m.buf m.len stunAttributeReservationToken) = rt.getD 0
  family : stunGetRequestedAddressFamily m.buf
    (stunAttrGetFirstByTypeStr m.buf m.len stunAttributeRequestedAddressFamily) =
      if rt.isSome || af4 == af6 then .default else if af4 then .ipv4 else .ipv6
  additional : stunGetRequestedAddressFamily m.buf
    (stunAttrGetFirstByTypeStr m.buf m.len stunAttributeAdditionalAddressFamily) =
      if rt.isNone && af4 && af6 then .ipv6 else .default

/-- Attributes of other types behind the records change nothing of what is found. -/
theorem IsMessage.attrStr_front {m : StunBuffer} {msgType : BitVec 16} {tid : StunTid}
    {attrs extra : List Tlv.Record} (h : IsMessage m msgType tid (attrs ++ extra))
    {types : List (BitVec 16)} (hextra : ∀ r ∈ extra, r.1 ∈ types) {t : BitVec 16}
    (ht : t ∉ types) :
    attrStr m.buf m.len t = (attrs.find? fun r => r.1 == t).map Prod.snd := by
  have hnone : (extra.find? fun r => r.1 == t) = none := by
    rw [List.find?_eq_none]
    intro r hr
    rw [beq_iff_eq]
    exact fun heq => ht (heq ▸ hextra r hr)
  rw [h.attrStr_find, List.find?_append, hnone, Option.or_none]

theorem isSome_attrStr (buf : Mem) (len : Nat) (t : BitVec 16) :
    (stunAttrGetFirstByTypeStr buf len t).isSome = (attrStr buf len t).isSome :=
  Option.isSome_map.symm

theorem slice_succ (m : Mem) (off n : Nat) :
    slice m off (n + 1) = m off :: slice m (off + 1) n := by
  have h := slice_append m off 1 n
  rw [Nat.add_comm 1 n] at h
  exact h

/-- Each getter sees no more of a message than the value of the attribute. -/
theorem evenPort_attrStr (buf : Mem) (len : Nat) (t : BitVec 16) :
    stunAttrGetEvenPort buf (stunAttrGetFirstByTypeStr buf len t) =
      match attrStr buf len t with
      | some (b :: _) => if 0x7F < b.toNat then 1 else 0
      | _ => 0 := by
  unfold attrStr
  cases stunAttrGetFirstByTypeStr buf len t with
  | none => rfl
  | some a =>
    rw [stunAttrGetEvenPort, stunAttrGetValue_some, Option.map_some, attrValue]
    cases (get16 buf (a + 2)).toNat with
    | zero => rfl
    | succ n =>
      rw [if_neg (by omega), slice_succ]

theorem family_attrStr (buf : Mem) (len : Nat) (t : BitVec 16) :
    stunGetRequestedAddressFamily buf (stunAttrGetFirstByTypeStr buf len t) =
      match attrStr buf len t with
      | none => .default
      | some v => if v.length ≠ 4 then .invalid else
        match v.head? with
        | some b => if b = addressFamilyValueIpv4 then .ipv4
          else if b = addressFamilyValueIpv6 then .ipv6 else .invalid
        | none => .invalid := by
  unfold attrStr
  cases stunAttrGetFirstByTypeStr buf len t with
  | none => rfl
  | some a =>
    simp only [stunGetRequestedAddressFamily, Option.map_some, attrValue, slice_length]
    by_cases hfour : (get16 buf (a + 2)).toNat = 4
    · rw [hfour, slice_succ]
      rfl
    · rw [if_pos hfour, if_pos hfour]

theorem token_attrStr {buf : Mem} {len : Nat} {t : BitVec 16} {token : BitVec 64}
    (h : attrStr buf len t = some (be64 token)) :
    stunAttrGetReservationTokenValue buf (stunAttrGetFirstByTypeStr buf len t) = token := by
  obtain ⟨a, ha, hval⟩ := Option.map_eq_some_iff.mp h
  have hlen : (get16 buf (a + 2)).toNat = 8 := by
    have hcount := congrArg List.length hval
    rwa [attrValue, slice_length] at hcount
  rw [attrValue, hlen] at hval
  rw [ha, stunAttrGetReservationTokenValue, if_pos hlen]
  exact get64_of_slice hval

/-- What a request is read as, once it is signed and sent: every option as it was given. -/
theorem allocate_request_read_back (g : Globals) (c : Choice) (ci : ConnInfo) (lifetime : BitVec 32)
    (af4 af6 : Bool) (transport : Byte) (mobile : Bool) (rt : Option (BitVec 64)) (ep : Int) :
    ReadsRequest (finishRequest g c ci (stunSetAllocateRequestStr c lifetime af4 af6 transport
      mobile (rt.map be64) ep).2).2.2 lifetime af4 af6 transport mobile rt ep := by
  have hrt : ∀ token, rt.map be64 = some token → token.length = 8 := by
    intro token htoken
    obtain ⟨x, _, rfl⟩ := Option.map_eq_some_iff.mp htoken
    rfl
  obtain ⟨m, hbuild, hm, hlen⟩ := stunSetAllocateRequestStr_isMessage c lifetime af4 af6 transport
    mobile hrt ep
  rw [hbuild]
  generalize htable : requestTable lifetime af4 af6 transport mobile (rt.map be64) ep = table at hm
  have hadded : ExtendsBy (fun r => r.1 ∈ tailTypes) m
      (stunMakeRequest stunMethodAllocate &&& 0x3FFF) c.tid (presentRecords table) m.len := hm.extendsBy
  obtain ⟨⟨extra, hextra, hfinal⟩, hle⟩ := hadded.finish (fun r hr => hr) (by omega) g c ci
  simp only
  generalize (finishRequest g c ci m).2.2 = m' at hfinal hle
  have hwf := wellFormed_of_isMessage (c := .request) hfinal (by unfold maxStunMessageSize; omega)
  have hnodup : (table.map Prod.fst).Nodup := by
    rw [← htable]
    simp only [requestTable, familyTable, List.map_append, List.map_cons, List.map_nil]
    decide
  have hread : ∀ {t v}, (t, v) ∈ table → t ∉ tailTypes → attrStr m'.buf m'.len t = v :=
    fun hmem ht => (hfinal.attrStr_front hextra ht).trans (find_presentRecords hnodup hmem)
  rw [← htable] at hread
  have heven : attrStr m'.buf m'.len stunAttributeEvenPort =
      if -1 < ep then some [if ep ≠ 0 then 0x80 else 0x00] else none :=
    hread (by simp [requestTable]) (by decide)
  have htoken : attrStr m'.buf m'.len stunAttributeReservationToken = rt.map be64 :=
    hread (by simp [requestTable, familyTable]) (by decide)
  have hfamily : attrStr m'.buf m'.len stunAttributeRequestedAddressFamily =
      if rt.isSome || af4 == af6 then none
      else some [if af4 then addressFamilyValueIpv4 else addressFamilyValueIpv6, 0, 0, 0] :=
    hread (by simp [requestTable, familyTable]) (by decide)
  have hadditional : attrStr m'.buf m'.len stunAttributeAdditionalAddressFamily =
      if rt.isNone && af4 && af6 then some [addressFamilyValueIpv6, 0, 0, 0] else none :=
    hread (by simp [requestTable, familyTable]) (by decide)
  refine ⟨by rw [hwf.request]; rfl, by rw [hwf.method_eq]; rfl, ?_, ?_, ?_, ?_, ?_, ?_, ?_, ?_⟩
  · exact hread (by simp [requestTable]) (by decide)
  · exact hread (by simp [requestTable]) (by decide)
  · exact hread (by simp [requestTable]) (by decide)
  · rw [isSome_attrStr, heven]
    by_cases hep : -1 < ep
    · rw [if_pos hep, decide_eq_true hep, Option.isSome_some]
    · rw [if_neg hep, decide_eq_false hep, Option.isSome_none]
  · rw [evenPort_attrStr, heven]
    by_cases hep : -1 < ep
    · rw [if_pos hep]
      by_cases hzero : ep = 0
      · subst hzero
        rfl
      · simp only [if_pos hzero, if_pos (show 0 < ep by omega)]
        rfl
    · rw [if_neg hep, if_neg (by omega)]
  · cases rt with
    | some token => exact token_attrStr htoken
    | none =>
      rw [Option.map_none, attrStr, Option.map_eq_none_iff] at htoken
      rw [htoken]
      rfl
  · rw [family_attrStr, hfamily]
    cases rt <;> cases af4 <;> cases af6 <;> rfl
  · rw [family_attrStr, hadditional]
    cases rt <;> cases af4 <;> cases af6 <;> rfl

end TurnClient
