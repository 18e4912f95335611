import TurnClient.StunBuilding
import TurnClient.StunResponses

/-!
# What a build sequence guarantees

Any sequence of `stun_attr_add_str` calls on an initialised message leaves a
well-formed message, and the walk over the result gives the attributes back.
Both follow from the abstract view `IsMessage`, which every call preserves.
-/

namespace TurnClient

open ByteMemory
set_option autoImplicit false

/-! ## The predicates on a built message -/

section Predicates
variable {m : StunBuffer} {msgType : BitVec 16} {tid : StunTid} {attrs : List Tlv.Record}

theorem IsMessage.isCommand (h : IsMessage m msgType tid attrs) (htype : msgType.toNat < 0x4000) :
    stunIsCommandMessageStr m.buf m.len = true := by
  have hlen := h.len_eq
  have hfield := h.lenField
  have hmod := Tlv.size_mod attrs
  have h16 : (get16 m.buf 0).toNat < 0x4000 := by rw [h.header.type_eq]; exact htype
  have hlow : get16 m.buf 2 &&& 0x0003 = 0 := by
    apply BitVec.eq_of_toNat_eq
    rw [BitVec.toNat_and, hfield]
    change Tlv.size attrs &&& (2 ^ 2 - 1) = 0
    rw [Nat.and_two_pow_sub_one_eq_mod, hmod]
  simp only [stunIsCommandMessageStr, not_stunValidChannel_of_lt h16, top_bits_clear h16,
    h.header.cookie_eq, hlow]
  simp only [Bool.not_false, Bool.and_true, beq_self_eq_true, Bool.and_eq_true]
  exact ⟨decide_eq_true (by unfold stunHeaderLength; omega),
    decide_eq_true (by unfold stunHeaderLength; omega)⟩

theorem IsMessage.msgType_eq (h : IsMessage m msgType tid attrs) :
    stunGetMsgTypeStr m.buf m.len = msgType &&& 0x3FFF := by
  have hlen := h.len_eq
  rw [stunGetMsgTypeStr, if_neg (by omega), h.header.type_eq]

theorem IsMessage.not_channel (h : IsMessage m msgType tid attrs)
    (htype : msgType.toNat < 0x4000) : isChannelMsgStr m.buf m.len = false := by
  rw [isChannelMsgStr, h.header.type_eq, not_stunValidChannel_of_lt htype, Bool.and_false]

end Predicates

/-! ## Build sequences -/

structure AttrCall where
  attr : BitVec 16
  avalue : Option Mem
  alen : Int

def AttrCall.result (c : AttrCall) (m : StunBuffer) : Rc × StunBuffer :=
  stunAttrAddStr m c.attr c.avalue c.alen

def AttrCall.NoOverflow (c : AttrCall) (m : StunBuffer) : Prop :=
  (m.len : Int) + 4 + c.alen + 3 ≤ intMax

def addCalls (m : StunBuffer) : List AttrCall → StunBuffer
  | [] => m
  | c :: cs => addCalls (c.result m).2 cs

def CallsInRange (m : StunBuffer) : List AttrCall → Prop
  | [] => True
  | c :: cs => c.NoOverflow m ∧ CallsInRange (c.result m).2 cs

/-- What every consumer of a built message relies on. -/
structure WellFormed (m : StunBuffer) (c : MsgClass) (method : BitVec 16) (tid : StunTid) :
    Prop where
  command : stunIsCommandMessageStr m.buf m.len = true
  len_eq : m.len = stunHeaderLength + (get16 m.buf 2).toNat
  len_mod : m.len % 4 = 0
  len_lt : m.len < maxStunMessageSize
  method_eq : stunGetMethodStr m.buf m.len = method &&& 0x0FFF
  request : stunIsRequestStr m.buf m.len = decide (c = .request)
  indication : stunIsIndicationStr m.buf m.len = decide (c = .indication)
  success : stunIsSuccessResponseStr m.buf m.len = decide (c = .success)
  error : (stunIsErrorResponseStr m.buf m.len none none 0).ret = false
  tid_eq : stunTidFromMessageStr m.buf = tid

theorem wellFormed_of_isMessage {m : StunBuffer} {c : MsgClass} {method : BitVec 16}
    {tid : StunTid} {attrs : List Tlv.Record}
    (h : IsMessage m (c.makeType method &&& 0x3FFF) tid attrs) (hlt : m.len < maxStunMessageSize) :
    WellFormed m c method tid := by
  have htype := and_3FFF_lt (c.makeType method)
  have hlen := h.len_eq
  have hfield := h.lenField
  have hmod := Tlv.size_mod attrs
  have hchan := h.not_channel htype
  have hclass : stunGetMsgTypeStr m.buf m.len &&& 0x0110 = c.bits := by
    rw [h.msgType_eq, BitVec.and_assoc (c.makeType method), BitVec.and_self, makeType_class]
  refine ⟨h.isCommand htype, ?_, by omega, hlt, ?_, ?_, ?_, ?_, ?_, h.header.tid_eq⟩
  · unfold stunHeaderLength
    omega
  · exact getMethod_makeType c method (by omega) h.header.type_eq
  · rw [stunIsRequestStr, hchan, isStunRequest, hclass]
    cases c <;> decide
  · rw [stunIsIndicationStr, hchan, isStunIndication, hclass]
    cases c <;> decide
  · rw [stunIsSuccessResponseStr, hchan, isStunSuccessResp, hclass]
    cases c <;> decide
  · rw [stunIsErrorResponseStr, hchan, isStunErrResp, hclass]
    cases c <;> decide

theorem IsMessage.result_cases {m : StunBuffer} {msgType : BitVec 16} {tid : StunTid}
    {attrs : List Tlv.Record} (h : IsMessage m msgType tid attrs) {c : AttrCall}
    (hc : c.NoOverflow m) :
    c.result m = (.fail, m) ∨
    ((c.result m).1 = .ok ∧ (c.result m).2.len < maxStunMessageSize ∧
      IsMessage (c.result m).2 msgType tid (attrs ++ [(c.attr, attrBytes c.avalue c.alen)])) := by
  have hsmall : (Tlv.pad4 (attrBytes c.avalue c.alen).length : Int) ≤ c.alen.toNat + 3 := by
    have hpad := Tlv.pad4_lt (attrBytes c.avalue c.alen).length
    have hle : (attrBytes c.avalue c.alen).length ≤ c.alen.toNat := by
      cases c.avalue <;> simp [attrBytes]
    omega
  have hlen := h.size_lt
  have hmlen := h.len_eq
  unfold AttrCall.NoOverflow intMax at hc
  rcases h.add_cases c.attr c.avalue c.alen rfl with ⟨_, _, hbig⟩ | ⟨hrc, hm, _⟩ | ⟨hrc, _, hlt, hm⟩
  · unfold intMax at hbig
    omega
  · exact Or.inl (Prod.ext hrc hm)
  · exact Or.inr ⟨hrc, hlt, hm⟩

theorem isMessage_addCalls {msgType : BitVec 16} {tid : StunTid} (calls : List AttrCall)
    {m : StunBuffer} {attrs : List Tlv.Record} (h : IsMessage m msgType tid attrs)
    (hlt : m.len < maxStunMessageSize) (hcalls : CallsInRange m calls) :
    (∃ attrs', IsMessage (addCalls m calls) msgType tid attrs') ∧
      (addCalls m calls).len < maxStunMessageSize := by
  induction calls generalizing m attrs with
  | nil => exact ⟨⟨attrs, h⟩, hlt⟩
  | cons c cs ih =>
    obtain ⟨hc, hcs⟩ := hcalls
    rw [addCalls]
    rcases h.result_cases hc with hfail | ⟨_, hlt', h'⟩
    · rw [hfail] at hcs ⊢
      exact ih h hlt hcs
    · exact ih h' hlt' hcs

theorem built_messages_wellFormed (c : MsgClass) (method : BitVec 16) (buf : Mem) (rnd : StunTid)
    (id : Option StunTid) (calls : List AttrCall)
    (hcalls : CallsInRange (c.init method buf rnd id) calls) :
    WellFormed (addCalls (c.init method buf rnd id) calls) c method
      (stunTidFromMessageStr (c.init method buf rnd id).buf) ∧
    ∀ call : AttrCall, call.NoOverflow (addCalls (c.init method buf rnd id) calls) →
      let m := addCalls (c.init method buf rnd id) calls
      (call.result m).1 = .ok ∨ call.result m = (.fail, m) := by
  have hinit := isMessage_init c method buf rnd id
  have hlt : (c.init method buf rnd id).len < maxStunMessageSize := by
    rw [hinit.len_eq]
    decide
  rw [hinit.header.tid_eq]
  obtain ⟨⟨attrs, h⟩, hlt'⟩ := isMessage_addCalls calls hinit hlt hcalls
  refine ⟨wellFormed_of_isMessage h hlt', ?_⟩
  intro call hcall
  rcases h.result_cases hcall with hfail | ⟨hok, _, _⟩
  · exact Or.inr hfail
  · exact Or.inl hok

/-- An Allocate request with a five-byte user name and then a NULL value of negative length. -/
theorem built_allocate_request_wellFormed :
    let rnd : StunTid := ⟨[1, 2, 3, 4, 5, 6, 7, 8, 9, 10, 11, 12], rfl⟩
    let m := MsgClass.init .request 0x0003 (fun _ => 0xAA) rnd none
    let calls := [AttrCall.mk 0x0006 (some (ofList [0x61, 0x64, 0x6D, 0x69, 0x6E])) 5,
      AttrCall.mk 0x001A none (-7)]
    CallsInRange m calls ∧ WellFormed (addCalls m calls) .request 0x0003 rnd := by
  intro rnd m calls
  have hcalls : CallsInRange m calls := by
    refine ⟨?_, ?_, trivial⟩
    · show ((20 : Nat) : Int) + 4 + 5 + 3 ≤ intMax
      decide
    · show (((AttrCall.mk 0x0006 (some (ofList [0x61, 0x64, 0x6D, 0x69, 0x6E])) 5).result m).2.len :
        Int) + 4 + (-7) + 3 ≤ intMax
      decide +kernel
  have hwf := (built_messages_wellFormed .request 0x0003 (fun _ => 0xAA) rnd none calls hcalls).1
  have htid : stunTidFromMessageStr m.buf = rnd := by decide +kernel
  exact ⟨hcalls, htid ▸ hwf⟩

/-! ## Reading the attributes back -/

def headRef (off : Nat) : List Tlv.Record → Option Nat
  | [] => none
  | _ :: _ => some off

theorem stunAttrCheckValid_laidOut {buf : Mem} {off remaining : Nat} {r : Tlv.Record}
    {rs : List Tlv.Record} (h : Tlv.LaidOut buf off (r :: rs))
    (hroom : Tlv.size (r :: rs) ≤ remaining) :
    stunAttrCheckValid buf off remaining = some off := by
  have hlen := h.1.2.1
  simp only [Tlv.size] at hroom
  simp only [stunAttrCheckValid, roundToBoundary_eq, hlen]
  rw [if_pos (by omega), if_pos (by omega)]

theorem stunAttrGetNextStr_laidOut {buf : Mem} {len off : Nat} {r : Tlv.Record}
    {rs : List Tlv.Record} (hcmd : stunGetCommandMessageLenStr buf len = (len : Int))
    (h : Tlv.LaidOut buf off (r :: rs)) (hend : off + Tlv.size (r :: rs) = len) :
    stunAttrGetNextStr buf len (some off) = headRef (off + 4 + Tlv.pad4 r.2.length) rs := by
  have hlen := h.1.2.1
  simp only [Tlv.size] at hend
  simp only [stunAttrGetNextStr, roundToBoundary_eq, hcmd, hlen]
  cases rs with
  | nil =>
    simp only [Tlv.size] at hend
    rw [if_neg (by omega)]
    rfl
  | cons r' rs =>
    have hpos : 4 ≤ Tlv.size (r' :: rs) := by simp only [Tlv.size]; omega
    rw [if_pos (by omega)]
    exact stunAttrCheckValid_laidOut h.2 (by omega)

/-- The walk over a laid-out list visits the offset of every record. -/
theorem visits_laidOut {buf : Mem} {len : Nat}
    (hcmd : stunGetCommandMessageLenStr buf len = (len : Int)) (rs : List Tlv.Record) {off : Nat}
    (h : Tlv.LaidOut buf off rs) (hend : off + Tlv.size rs = len) :
    Visits buf len (headRef off rs) (Tlv.offsets off rs) := by
  induction rs generalizing off with
  | nil => exact .null
  | cons r rs ih =>
    refine .attr ?_
    rw [stunAttrGetNextStr_laidOut hcmd h hend]
    apply ih h.2
    rw [← hend, Tlv.size]
    omega

theorem IsMessage.visits {m : StunBuffer} {msgType : BitVec 16} {tid : StunTid}
    {attrs : List Tlv.Record} (h : IsMessage m msgType tid attrs) :
    Visits m.buf m.len (stunAttrGetFirstStr m.buf m.len) (Tlv.offsets 20 attrs) := by
  have hcmd := h.commandLen
  have hlen := h.len_eq
  have hfirst : stunAttrGetFirstStr m.buf m.len = headRef 20 attrs := by
    cases attrs with
    | nil =>
      simp only [Tlv.size] at hlen
      simp only [stunAttrGetFirstStr, hcmd, stunHeaderLength]
      rw [if_neg (by omega)]
      rfl
    | cons r rs =>
      have hpos : 4 ≤ Tlv.size (r :: rs) := by simp only [Tlv.size]; omega
      rw [stunAttrGetFirstStr_of_commandLen hcmd (by omega)]
      exact stunAttrCheckValid_laidOut h.laidOut (by omega)
  rw [hfirst]
  exact visits_laidOut hcmd attrs h.laidOut hlen.symm

theorem IsMessage.attrRefs_eq {m : StunBuffer} {msgType : BitVec 16} {tid : StunTid}
    {attrs : List Tlv.Record} (h : IsMessage m msgType tid attrs) :
    attrRefs m.buf m.len = Tlv.offsets 20 attrs :=
  (visits_attrRefs m.buf m.len).unique h.visits

theorem IsMessage.exists_record {m : StunBuffer} {msgType : BitVec 16} {tid : StunTid}
    {attrs : List Tlv.Record} {a : Nat} (h : IsMessage m msgType tid attrs)
    (ha : a ∈ attrRefs m.buf m.len) :
    ∃ r ∈ attrs, get16 m.buf a = r.1 ∧ attrValue m.buf a = r.2 := by
  rw [h.attrRefs_eq] at ha
  obtain ⟨r, hr, htype, hlen, hval⟩ := Tlv.exists_recordAt h.laidOut ha
  refine ⟨r, hr, htype, ?_⟩
  rw [attrValue, hlen]
  exact hval

/-- What the accessors give for a reference to this record. -/
structure ReadsAs (buf : Mem) (a : Nat) (r : Tlv.Record) : Prop where
  type_eq : stunAttrGetType buf (some a) = (r.1.toNat : Int)
  len_eq : stunAttrGetLen buf (some a) = (r.2.length : Int)
  value_null : stunAttrGetValue buf (some a) = none ↔ r.2 = []
  value_eq : ∀ p, stunAttrGetValue buf (some a) = some p → slice buf p r.2.length = r.2

theorem readsAs_of_recordAt {buf : Mem} {a : Nat} {r : Tlv.Record} (h : Tlv.RecordAt buf a r) :
    ReadsAs buf a r := by
  obtain ⟨htype, hlen, hval⟩ := h
  refine ⟨(stunAttrGetType_eq_iff _ _ _).mpr htype, by rw [stunAttrGetLen_some, hlen], ?_, ?_⟩
  · rw [stunAttrGetValue_some, hlen]
    cases r.2 <;> simp
  · intro p hp
    rw [stunAttrGetValue_some] at hp
    split at hp
    · cases hp
    · cases hp
      exact hval

theorem find_offsets {buf : Mem} {off : Nat} {rs : List Tlv.Record} (h : Tlv.LaidOut buf off rs)
    (t : BitVec 16) :
    (Tlv.offsets off rs).find? (fun a => get16 buf a == t) =
      (((Tlv.offsets off rs).zip rs).find? fun p => p.2.1 == t).map Prod.fst := by
  induction rs generalizing off with
  | nil => rfl
  | cons r rs ih =>
    simp only [Tlv.offsets, List.zip_cons_cons, List.find?_cons, h.1.1]
    cases r.1 == t with
    | true => rfl
    | false => exact ih h.2

theorem find_offsets_first {buf : Mem} {off : Nat} {pre post : List Tlv.Record} {r : Tlv.Record}
    (h : Tlv.LaidOut buf off (pre ++ r :: post)) (hpre : ∀ p ∈ pre, p.1 ≠ r.1) :
    (Tlv.offsets off (pre ++ r :: post)).find? (fun a => get16 buf a == r.1) =
        some (off + Tlv.size pre) ∧
      Tlv.RecordAt buf (off + Tlv.size pre) r := by
  induction pre generalizing off with
  | nil =>
    have htype : (get16 buf off == r.1) = true := by
      rw [h.1.1]
      exact beq_self_eq_true _
    exact ⟨by simp [Tlv.offsets, Tlv.size, htype], h.1⟩
  | cons p pre ih =>
    have hne : (get16 buf off == r.1) = false := by
      rw [h.1.1]
      exact beq_eq_false_iff_ne.mpr (hpre p List.mem_cons_self)
    have hrest := ih h.2 fun q hq => hpre q (List.mem_cons_of_mem p hq)
    have hoff : off + 4 + Tlv.pad4 p.2.length + Tlv.size pre =
        off + Tlv.size (p :: pre) := by
      rw [Tlv.size]
      omega
    rw [hoff] at hrest
    simp only [List.cons_append, Tlv.offsets, List.find?_cons, hne]
    exact hrest

theorem IsMessage.firstByType {m : StunBuffer} {msgType : BitVec 16} {tid : StunTid}
    {pre post : List Tlv.Record} {r : Tlv.Record} (h : IsMessage m msgType tid (pre ++ r :: post))
    (hpre : ∀ p ∈ pre, p.1 ≠ r.1) :
    stunAttrGetFirstByTypeStr m.buf m.len r.1 = some (20 + Tlv.size pre) ∧
      Tlv.RecordAt m.buf (20 + Tlv.size pre) r := by
  rw [stunAttrGetFirstByTypeStr_eq_find, h.attrRefs_eq]
  exact find_offsets_first h.laidOut hpre

theorem IsMessage.firstByType_none {m : StunBuffer} {msgType : BitVec 16} {tid : StunTid}
    {attrs : List Tlv.Record} (h : IsMessage m msgType tid attrs) {t : BitVec 16}
    (hnone : ∀ r ∈ attrs, r.1 ≠ t) : stunAttrGetFirstByTypeStr m.buf m.len t = none := by
  rw [stunAttrGetFirstByTypeStr_eq_find, h.attrRefs_eq, List.find?_eq_none]
  intro a ha
  obtain ⟨r, hr, htype, _⟩ := Tlv.exists_recordAt h.laidOut ha
  rw [htype, beq_iff_eq]
  exact hnone r hr

/-- Looking an attribute up by type is looking its record up in the list. -/
theorem IsMessage.firstByType_find {m : StunBuffer} {msgType : BitVec 16} {tid : StunTid}
    {attrs : List Tlv.Record} (h : IsMessage m msgType tid attrs) (t : BitVec 16) :
    match attrs.find? (fun r => r.1 == t) with
    | none => stunAttrGetFirstByTypeStr m.buf m.len t = none
    | some r => ∃ off, stunAttrGetFirstByTypeStr m.buf m.len t = some off ∧
        Tlv.RecordAt m.buf off r := by
  cases hfind : attrs.find? (fun r => r.1 == t) with
  | none =>
    apply h.firstByType_none
    intro r hr
    simpa using List.find?_eq_none.mp hfind r hr
  | some r =>
    obtain ⟨htype, pre, post, rfl, hpre⟩ := List.find?_eq_some_iff_append.mp hfind
    obtain rfl : r.1 = t := by simpa using htype
    obtain ⟨hget, hrec⟩ := h.firstByType fun p hp => by simpa using hpre p hp
    exact ⟨_, hget, hrec⟩

/-- The value of the first attribute of a type. -/
def attrStr (buf : Mem) (len : Nat) (attrType : BitVec 16) : Option (List Byte) :=
  (stunAttrGetFirstByTypeStr buf len attrType).map (attrValue buf)

theorem IsMessage.attrStr_find {m : StunBuffer} {msgType : BitVec 16} {tid : StunTid}
    {attrs : List Tlv.Record} (h : IsMessage m msgType tid attrs) (t : BitVec 16) :
    attrStr m.buf m.len t = (attrs.find? fun r => r.1 == t).map Prod.snd := by
  have hfind := h.firstByType_find t
  cases hr : attrs.find? fun r => r.1 == t with
  | none =>
    rw [hr] at hfind
    simp only at hfind
    rw [attrStr, hfind]
    rfl
  | some r =>
    rw [hr] at hfind
    obtain ⟨off, hoff, _, hlen, hval⟩ := hfind
    rw [attrStr, hoff, Option.map_some, attrValue, hlen, hval]
    rfl

/-- Add every attribute of a list, stopping at the first that is not accepted. -/
def addAll (m : StunBuffer) : List Tlv.Record → Option StunBuffer
  | [] => some m
  | r :: rs =>
    match stunAttrAddStr m r.1 (some (ofList r.2)) r.2.length with
    | (.ok, m') => addAll m' rs
    | _ => none

theorem isMessage_addAll {msgType : BitVec 16} {tid : StunTid} (rs : List Tlv.Record)
    {m m' : StunBuffer} {attrs : List Tlv.Record} (h : IsMessage m msgType tid attrs)
    (hadd : addAll m rs = some m') : IsMessage m' msgType tid (attrs ++ rs) := by
  induction rs generalizing m attrs with
  | nil =>
    cases hadd
    simpa using h
  | cons r rs ih =>
    have hbytes := attrBytes_ofList r.2
    cases hcall : stunAttrAddStr m r.1 (some (ofList r.2)) r.2.length with
    | mk rc m₁ =>
      rw [addAll, hcall] at hadd
      rcases h.add_cases r.1 (some (ofList r.2)) r.2.length hcall with
        ⟨rfl, _, _⟩ | ⟨rfl, _, _⟩ | ⟨rfl, _, _, hm⟩
      · cases hadd
      · cases hadd
      · rw [hbytes] at hm
        simpa using ih hm hadd

theorem attribute_list_round_trip (c : MsgClass) (method : BitVec 16) (buf : Mem) (rnd : StunTid)
    (id : Option StunTid) (attrs : List Tlv.Record) (m : StunBuffer)
    (hadd : addAll (c.init method buf rnd id) attrs = some m) :
    ∃ refs, Visits m.buf m.len (stunAttrGetFirstStr m.buf m.len) refs ∧
      List.Forall₂ (ReadsAs m.buf) refs attrs ∧
      ∀ t, stunAttrGetFirstByTypeStr m.buf m.len t =
        ((refs.zip attrs).find? fun p => p.2.1 == t).map Prod.fst := by
  have h := isMessage_addAll attrs (isMessage_init c method buf rnd id) hadd
  rw [List.nil_append] at h
  refine ⟨Tlv.offsets 20 attrs, h.visits, ?_, ?_⟩
  · exact (Tlv.forall₂_recordAt h.laidOut).imp fun _ _ => readsAs_of_recordAt
  · intro t
    rw [stunAttrGetFirstByTypeStr_eq_find, h.attrRefs_eq]
    exact find_offsets h.laidOut t

/-- A value of every length modulo four, an empty one in between, and a type that repeats. -/
theorem five_attributes_round_trip :
    let rnd : StunTid := ⟨[1, 2, 3, 4, 5, 6, 7, 8, 9, 10, 11, 12], rfl⟩
    let attrs : List Tlv.Record := [(0x0006, [0x61]), (0x001A, []), (0x0014, [0x00, 0x06]),
      (0x0006, [0x62, 0x63, 0x64]), (0x8028, [1, 2, 3, 4])]
    ∃ m, addAll (MsgClass.init .indication 0x0006 (fun _ => 0) rnd none) attrs = some m ∧
      ∃ refs, Visits m.buf m.len (stunAttrGetFirstStr m.buf m.len) refs ∧
        List.Forall₂ (ReadsAs m.buf) refs attrs := by
  intro rnd attrs
  have hsome : (addAll (MsgClass.init .indication 0x0006 (fun _ => 0) rnd none) attrs).isSome := by
    decide +kernel
  obtain ⟨m, hm⟩ := Option.isSome_iff_exists.mp hsome
  obtain ⟨refs, hvisits, hreads, _⟩ := attribute_list_round_trip _ _ _ _ _ attrs m hm
  exact ⟨m, hm, refs, hvisits, hreads⟩

end TurnClient
