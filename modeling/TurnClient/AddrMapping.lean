import TurnClient.StunAddr
import TurnClient.StunClient

/-!
# Address attributes behind the mapping table

The table of public and private addresses is searched by its private side when
an attribute is written and by its public side when one is read. Written
addresses come back because the entry found on the way out is, among distinct
public addresses, the only one that can be found on the way in.
-/

namespace TurnClient

open ByteMemory
set_option autoImplicit false

def ioaAddrAddMapping (maps : AddrMappings) (apub apriv : IoaAddr) : AddrMappings :=
  maps ++ [(apub, apriv)]

/-- The table after a sequence of calls, the first call's entry first. -/
def tableOf (calls : List (IoaAddr × IoaAddr)) : AddrMappings :=
  calls.foldl (fun maps p => ioaAddrAddMapping maps p.1 p.2) []

theorem tableOf_eq (calls : List (IoaAddr × IoaAddr)) : tableOf calls = calls := by
  have hfold : ∀ (calls : List (IoaAddr × IoaAddr)) (maps : AddrMappings),
      calls.foldl (fun maps p => ioaAddrAddMapping maps p.1 p.2) maps = maps ++ calls := by
    intro calls
    induction calls with
    | nil => simp
    | cons p calls ih =>
      intro maps
      rw [List.foldl_cons, ih, ioaAddrAddMapping, List.append_assoc]
      rfl
  exact hfold calls []

def IoaAddr.inetOrInet6 (a : IoaAddr) : Prop := a.family = .inet ∨ a.family = .inet6

/-- A table no entry of which hides another. -/
structure DistinctMappings (maps : AddrMappings) : Prop where
  families : ∀ p ∈ maps, p.1.inetOrInet6 ∧ p.2.inetOrInet6
  publicDistinct : maps.Pairwise fun p q => addrEqNoPort p.1 q.1 = false
  privateDistinct : maps.Pairwise fun p q => addrEqNoPort p.2 q.2 = false

/-! ## Addresses up to the port -/

theorem addrEqNoPort_iff (a b : IoaAddr) :
    addrEqNoPort a b = true ↔ a.family = b.family ∧
      ((a.family = .inet ∧ a.word = b.word) ∨ (a.family = .inet6 ∧ a.in6.bytes = b.in6.bytes)) := by
  unfold addrEqNoPort
  by_cases hfam : a.family = b.family
  · rw [if_pos hfam]
    cases hf : a.family <;> simp [← hfam, hf]
  · simp [hfam]

theorem addrEqNoPort_symm {a b : IoaAddr} (h : addrEqNoPort a b = true) :
    addrEqNoPort b a = true := by
  rw [addrEqNoPort_iff] at h ⊢
  obtain ⟨hfam, hval⟩ := h
  rw [← hfam]
  exact ⟨rfl, hval.imp (fun hv => ⟨hv.1, hv.2.symm⟩) (fun hv => ⟨hv.1, hv.2.symm⟩)⟩

theorem addrEqNoPort_trans {a b c : IoaAddr} (h : addrEqNoPort a b = true)
    (h' : addrEqNoPort b c = true) : addrEqNoPort a c = true := by
  rw [addrEqNoPort_iff] at h h' ⊢
  obtain ⟨hfam, hval⟩ := h
  obtain ⟨hfam', hval'⟩ := h'
  refine ⟨hfam.trans hfam', ?_⟩
  rcases hval with ⟨hinet, hw⟩ | ⟨hinet6, hb⟩
  · rcases hval' with ⟨_, hw'⟩ | ⟨hne, _⟩
    · exact Or.inl ⟨hinet, hw.trans hw'⟩
    · rw [← hfam, hinet] at hne
      cases hne
  · rcases hval' with ⟨hne, _⟩ | ⟨_, hb'⟩
    · rw [← hfam, hinet6] at hne
      cases hne
    · exact Or.inr ⟨hinet6, hb.trans hb'⟩

theorem addrEqNoPort_onWire {a : IoaAddr} (h : a.inetOrInet6) : addrEqNoPort (onWire a) a = true := by
  rcases h with h | h <;> simp [onWire, addrEqNoPort, h]

theorem addrEqNoPort_setPort {a : IoaAddr} (h : a.inetOrInet6) (port : Int) :
    addrEqNoPort (addrSetPort a port) a = true := by
  rcases h with h | h <;> simp [addrSetPort, addrEqNoPort, h]

theorem inetOrInet6_setPort {a : IoaAddr} (h : a.inetOrInet6) (port : Int) :
    (addrSetPort a port).inetOrInet6 := by
  rcases h with h | h
  · exact Or.inl (by simp [addrSetPort, h])
  · exact Or.inr (by simp [addrSetPort, h])

theorem addrGetPort_setPort {a : IoaAddr} (h : a.inetOrInet6) (port : BitVec 16) :
    addrGetPort (addrSetPort a port.toNat) = port.toNat := by
  have hcast : BitVec.ofInt 16 (port.toNat : Int) = port := by
    rw [BitVec.ofInt_natCast, BitVec.ofNat_toNat, BitVec.setWidth_eq]
  rcases h with h | h <;> simp [addrSetPort, addrGetPort, h, hcast]

theorem addrGetPort_eq {a : IoaAddr} (h : a.inetOrInet6) : addrGetPort a = a.port.toNat := by
  rcases h with h | h <;> simp [addrGetPort, h]

theorem addrGetPort_onWire {a : IoaAddr} (h : a.inetOrInet6) :
    addrGetPort (onWire a) = addrGetPort a := by
  rw [addrGetPort_eq h]
  exact (addrEq_onWire h).2

theorem addrEq_setPort {a p : IoaAddr} (h : addrEqNoPort a p = true) :
    addrEq (addrSetPort p a.port.toNat) a = true := by
  have hcast : BitVec.ofInt 16 (a.port.toNat : Int) = a.port := by
    rw [BitVec.ofInt_natCast, BitVec.ofNat_toNat, BitVec.setWidth_eq]
  obtain ⟨hfam, hval⟩ := (addrEqNoPort_iff a p).mp h
  rcases hval with ⟨hinet, hw⟩ | ⟨hinet6, hb⟩
  · have hpf : p.family = .inet := hfam.symm.trans hinet
    simp [addrEq, addrSetPort, hpf, hinet, hw, hcast]
  · have hpf : p.family = .inet6 := hfam.symm.trans hinet6
    simp [addrEq, addrSetPort, hpf, hinet6, hb, hcast]

/-! ## There and back through the table -/

/-- Among distinct public addresses an entry is found by its own public address. -/
theorem find_by_public {maps : AddrMappings} (h : DistinctMappings maps) {p : IoaAddr × IoaAddr}
    (hp : p ∈ maps) {a : IoaAddr} (ha : addrEqNoPort a p.1 = true) :
    maps.find? (fun q => addrEqNoPort a q.1) = some p := by
  have hdistinct := h.publicDistinct
  clear h
  induction maps with
  | nil => cases hp
  | cons q maps ih =>
    obtain ⟨hhead, htail⟩ := List.pairwise_cons.mp hdistinct
    rcases List.mem_cons.mp hp with rfl | hmem
    · simp [ha]
    · have hq : addrEqNoPort a q.1 = false := by
        by_contra hne
        have heq : addrEqNoPort a q.1 = true := by simpa using hne
        have hqp := addrEqNoPort_trans (addrEqNoPort_symm heq) ha
        rw [hhead p hmem] at hqp
        cases hqp
      rw [List.find?_cons, hq]
      exact ih hmem htail

/-- What the reader makes of the address the writer put on the wire. -/
theorem mapped_back {maps : AddrMappings} (h : DistinctMappings maps) {ca : IoaAddr}
    (hca : ca.inetOrInet6)
    (hside : (∃ p ∈ maps, addrEqNoPort ca p.2 = true) ∨
      ∀ p ∈ maps, addrEqNoPort ca p.1 = false) :
    (mapAddrFromPrivateToPublic maps ca).inetOrInet6 ∧
      addrEq (mapAddrFromPublicToPrivate maps (onWire (mapAddrFromPrivateToPublic maps ca))) ca =
        true := by
  unfold mapAddrFromPrivateToPublic
  cases hfind : maps.find? (fun p => addrEqNoPort ca p.2) with
  | some p =>
    have hmem := List.mem_of_find?_eq_some hfind
    have hpriv : addrEqNoPort ca p.2 = true := by simpa using List.find?_some hfind
    have hpubFam := (h.families p hmem).1
    have hset := inetOrInet6_setPort hpubFam (addrGetPort ca)
    have hsame : addrEqNoPort (onWire (addrSetPort p.1 (addrGetPort ca))) p.1 = true :=
      addrEqNoPort_trans (addrEqNoPort_onWire hset) (addrEqNoPort_setPort hpubFam _)
    have hport : addrGetPort (onWire (addrSetPort p.1 (addrGetPort ca))) = ca.port.toNat := by
      rw [addrGetPort_onWire hset, addrGetPort_eq hca]
      exact addrGetPort_setPort hpubFam ca.port
    refine ⟨hset, ?_⟩
    simp only [mapAddrFromPublicToPrivate, find_by_public h hmem hsame, hport]
    exact addrEq_setPort hpriv
  | none =>
    have hnopriv := List.find?_eq_none.mp hfind
    have hnopub : ∀ p ∈ maps, addrEqNoPort ca p.1 = false := by
      rcases hside with ⟨p, hp, hpriv⟩ | hnopub
      · exact absurd hpriv (hnopriv p hp)
      · exact hnopub
    have hback : maps.find? (fun p => addrEqNoPort (onWire ca) p.1) = none := by
      apply List.find?_eq_none.mpr
      intro p hp heq
      have hpub := addrEqNoPort_trans (addrEqNoPort_symm (addrEqNoPort_onWire hca)) heq
      rw [hnopub p hp] at hpub
      cases hpub
    refine ⟨hca, ?_⟩
    simp only [mapAddrFromPublicToPrivate, hback]
    exact (addrEq_onWire hca).1

/-! ## Attributes -/

/-- `firstAddrFrom` with the table as a parameter. -/
def firstMappedFrom (maps : AddrMappings) (buf : Mem) (attrType : BitVec 16)
    (defaultAddr : Option IoaAddr) : List Nat → Int × IoaAddr
  | [] => (-1, IoaAddr.any)
  | a :: rest =>
    if stunAttrIsAddr (get16 buf a) && attrType == get16 buf a then
      let r := stunAttrGetAddrStr maps buf (some a) defaultAddr
      if r.1 = 0 then r else firstMappedFrom maps buf attrType defaultAddr rest
    else firstMappedFrom maps buf attrType defaultAddr rest

def stunAttrGetFirstAddrMapped (maps : AddrMappings) (buf : Mem) (len : Nat)
    (attrType : BitVec 16) (defaultAddr : Option IoaAddr) : Int × IoaAddr :=
  firstMappedFrom maps buf attrType defaultAddr (attrRefs buf len)

/-- The client never adds a mapping, so it runs the loop with the empty table. -/
theorem stunAttrGetFirstAddrStr_eq (buf : Mem) (len : Nat) (attrType : BitVec 16)
    (defaultAddr : Option IoaAddr) :
    stunAttrGetFirstAddrStr buf len attrType defaultAddr =
      stunAttrGetFirstAddrMapped addrMappings buf len attrType defaultAddr := by
  unfold stunAttrGetFirstAddrStr stunAttrGetFirstAddrMapped
  induction attrRefs buf len with
  | nil => rfl
  | cons a refs ih => simp only [firstAddrFrom, firstMappedFrom, ih]

theorem firstMappedFrom_offsets {maps : AddrMappings} {buf : Mem} {attrType : BitVec 16}
    {defaultAddr : Option IoaAddr} {off : Nat} {pre : List Tlv.Record} {r : Tlv.Record}
    (h : Tlv.LaidOut buf off (pre ++ [r])) (hpre : ∀ p ∈ pre, p.1 ≠ attrType) :
    firstMappedFrom maps buf attrType defaultAddr (Tlv.offsets off (pre ++ [r])) =
      firstMappedFrom maps buf attrType defaultAddr [off + Tlv.size pre] := by
  induction pre generalizing off with
  | nil => rfl
  | cons p pre ih =>
    have hne : (attrType == get16 buf off) = false := by
      rw [h.1.1]
      exact beq_eq_false_iff_ne.mpr (hpre p List.mem_cons_self).symm
    have hoff : off + 4 + Tlv.pad4 p.2.length + Tlv.size pre = off + Tlv.size (p :: pre) := by
      rw [Tlv.size]
      omega
    have hrest := ih h.2 fun q hq => hpre q (List.mem_cons_of_mem p hq)
    rw [hoff] at hrest
    rw [List.cons_append, Tlv.offsets, firstMappedFrom, hne, Bool.and_false]
    exact hrest

theorem address_attribute_round_trip (calls : List (IoaAddr × IoaAddr))
    (htable : DistinctMappings (tableOf calls)) (m m' : StunBuffer) (msgType : BitVec 16)
    (tid : StunTid) (attrs : List Tlv.Record) (hm : IsMessage m msgType tid attrs)
    (attrType : BitVec 16) (haddr : stunAttrIsAddr attrType = true)
    (hnone : ∀ r ∈ attrs, r.1 ≠ attrType) (ca : IoaAddr) (hca : ca.inetOrInet6)
    (hside : (∃ p ∈ tableOf calls, addrEqNoPort ca p.2 = true) ∨
      ∀ p ∈ tableOf calls, addrEqNoPort ca p.1 = false)
    (hadd : stunAttrAddAddrStr (tableOf calls) m attrType ca = (.ok, m')) :
    ∃ a, stunAttrGetFirstAddrMapped (tableOf calls) m'.buf m'.len attrType none = (0, a) ∧
      addrEq a ca = true := by
  obtain ⟨_, hback⟩ := mapped_back htable hca hside
  refine ⟨_, ?_, hback⟩
  unfold stunAttrAddAddrStr at hadd
  simp only at hadd
  split at hadd
  · cases hadd
  · rename_i v henc
    rcases hm.add_cases attrType (some (ofList v)) v.length hadd with
      ⟨hrc, _⟩ | ⟨hrc, _⟩ | ⟨_, _, _, hm'⟩
    · cases hrc
    · cases hrc
    · rw [attrBytes_ofList] at hm'
      rw [hm.header.tid_eq, ← hm'.header.tid_eq] at henc
      have hrec : Tlv.RecordAt m'.buf (20 + Tlv.size attrs) (attrType, v) :=
        ((Tlv.laidOut_append _ _ _ _).mp hm'.laidOut).2.1
      have htype : get16 m'.buf (20 + Tlv.size attrs) = attrType := hrec.1
      rw [stunAttrGetFirstAddrMapped, hm'.attrRefs_eq, firstMappedFrom_offsets hm'.laidOut hnone]
      simp only [firstMappedFrom, htype, haddr, beq_self_eq_true, Bool.and_self, if_true,
        stunAttrGetAddrStr_mapped henc hrec]

/-- An IPv4 address that the server announces as IPv6, and a port of its own. -/
theorem mapped_peer_round_trip :
    let pub : IoaAddr := { IoaAddr.any with family := .inet6, in6 :=
      ⟨[0x20, 0x01, 0x0D, 0xB8, 0, 0, 0, 0, 0, 0, 0, 0, 0, 0, 0, 1], by decide⟩ }
    let priv : IoaAddr := { IoaAddr.any with family := .inet, word := 0x0A000001 }
    let ca : IoaAddr := { priv with port := 3478 }
    let m := (stunAttrAddStr (stunInitCommandStr 0x0101 (fun _ => 0xAA) countingTid) 0x0006
      (some (ofList [0x61])) 1).2
    ∃ m' a, stunAttrAddAddrStr (tableOf [(pub, priv)]) m stunAttributeXorPeerAddress ca = (.ok, m') ∧
      stunAttrGetFirstAddrMapped (tableOf [(pub, priv)]) m'.buf m'.len stunAttributeXorPeerAddress
        none = (0, a) ∧ addrEq a ca = true := by
  intro pub priv ca m
  have hm₀ := isMessage_initCommand 0x0101 (fun _ => 0xAA) countingTid
  obtain ⟨m₁, hadd₁, hm, _⟩ := hm₀.add_ok 0x0006 (some (ofList [0x61])) 1 (by decide)
  have hm₁ : m = m₁ := by simp only [m, hadd₁]
  have htable : DistinctMappings (tableOf [(pub, priv)]) := by
    rw [tableOf_eq]
    refine ⟨?_, List.pairwise_singleton _ _, List.pairwise_singleton _ _⟩
    intro p hp
    obtain rfl := List.mem_singleton.mp hp
    exact ⟨Or.inr rfl, Or.inl rfl⟩
  have hok : (stunAttrAddAddrStr (tableOf [(pub, priv)]) m stunAttributeXorPeerAddress ca).1 = .ok := by
    decide +kernel
  have hadd : stunAttrAddAddrStr (tableOf [(pub, priv)]) m stunAttributeXorPeerAddress ca =
      (.ok, (stunAttrAddAddrStr (tableOf [(pub, priv)]) m stunAttributeXorPeerAddress ca).2) :=
    Prod.ext hok rfl
  rw [← hm₁] at hm
  obtain ⟨a, hget, heq⟩ := address_attribute_round_trip [(pub, priv)] htable m _ _ _ _ hm
    stunAttributeXorPeerAddress (by decide) (by decide) ca (Or.inl rfl)
    (Or.inl ⟨(pub, priv), by decide, by decide⟩) hadd
  exact ⟨_, a, hadd, hget, heq⟩

end TurnClient
