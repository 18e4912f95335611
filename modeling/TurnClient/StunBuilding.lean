import TurnClient.StunAttributes

/-!
# Building messages attribute by attribute

`IsMessage` is the abstract view of a built buffer: a message type, a
transaction id and a list of attributes. Every initialiser gives the empty
list, every successful `stun_attr_add_str` appends one record, a refused one
changes nothing; the walk over such a buffer is the list again.
-/

namespace TurnClient

open ByteMemory
set_option autoImplicit false

/-- What a call that answers 0 or -1 gives. C leaves a signed overflow
undefined, so a call in which one happens has neither result. -/
inductive Rc where
  | ok
  | fail
  | undef
deriving DecidableEq

def stunAttrAddStr (m : StunBuffer) (attr : BitVec 16) (avalue : Option Mem) (alen : Int) :
    Rc × StunBuffer :=
  let alen := if alen < 0 then 0 else alen
  -- a NULL value is replaced by a local array of which nothing is read
  let alen := if avalue.isNone then 0 else alen
  let avalue := avalue.getD fun _ => 0
  let clen := stunGetCommandMessageLenStr m.buf m.len
  let newlen := clen + 4 + alen
  let newlenrem4 := newlen % 4
  let newlen := if newlenrem4 ≠ 0 then newlen + (4 - newlenrem4) else newlen
  if intMax < newlen then (.undef, m)
  else if (maxStunMessageSize : Int) ≤ newlen then (.fail, m)
  else
    let buf := (stunSetCommandMessageLenStr m.buf newlen).2
    let buf := writeInt buf clen (be16 attr)
    let buf := writeInt buf (clen + 2) (be16 (BitVec.ofInt 16 alen))
    let buf := if 0 < alen then writeInt buf (clen + 4) (slice avalue 0 alen.toNat) else buf
    (.ok, ⟨buf, newlen.toNat⟩)

/-- The value bytes of a call: none for NULL or a negative length. -/
def attrBytes (avalue : Option Mem) (alen : Int) : List Byte :=
  match avalue with
  | none => []
  | some v => slice v 0 alen.toNat

/-- The buffer holds a message with this type, transaction id and attributes. -/
structure IsMessage (m : StunBuffer) (msgType : BitVec 16) (tid : StunTid)
    (attrs : List Tlv.Record) : Prop where
  header : HasHeader m.buf msgType tid
  lenField : (get16 m.buf 2).toNat = Tlv.size attrs
  len_eq : m.len = 20 + Tlv.size attrs
  laidOut : Tlv.LaidOut m.buf 20 attrs

theorem IsMessage.size_lt {m : StunBuffer} {msgType : BitVec 16} {tid : StunTid}
    {attrs : List Tlv.Record} (h : IsMessage m msgType tid attrs) : Tlv.size attrs < 65536 := by
  rw [← h.lenField]
  exact (get16 m.buf 2).isLt

theorem IsMessage.len_mod {m : StunBuffer} {msgType : BitVec 16} {tid : StunTid}
    {attrs : List Tlv.Record} (h : IsMessage m msgType tid attrs) : m.len % 4 = 0 := by
  have hlen := h.len_eq
  have hmod := Tlv.size_mod attrs
  omega

theorem IsMessage.commandLen {m : StunBuffer} {msgType : BitVec 16} {tid : StunTid}
    {attrs : List Tlv.Record} (h : IsMessage m msgType tid attrs) :
    stunGetCommandMessageLenStr m.buf m.len = (m.len : Int) := by
  have hl := h.lenField
  have hm := h.len_eq
  unfold stunGetCommandMessageLenStr stunHeaderLength
  simp only
  rw [if_neg (by omega), if_neg (by omega)]
  omega

theorem attrBytes_length (avalue : Option Mem) (alen : Int) :
    (if avalue.isNone then 0 else if alen < 0 then 0 else alen) = ((attrBytes avalue alen).length : Int) := by
  cases avalue with
  | none => rfl
  | some v =>
    simp only [Option.isNone_some, Bool.false_eq_true, if_false, attrBytes, slice_length]
    split <;> omega

def appendRecord (buf : Mem) (clen : Nat) (attr : BitVec 16) (v : List Byte) : Mem :=
  let buf := put16 buf 2 (BitVec.ofNat 16 (clen + 4 + Tlv.pad4 v.length - 20))
  let buf := put16 buf clen attr
  let buf := put16 buf (clen + 2) (BitVec.ofNat 16 v.length)
  write buf (clen + 4) v

theorem newlen_eq (clen n : Nat) (hmod : clen % 4 = 0) :
    (if ((clen : Int) + 4 + n) % 4 ≠ 0 then (clen : Int) + 4 + n + (4 - ((clen : Int) + 4 + n) % 4)
      else (clen : Int) + 4 + n) = ((clen + 4 + Tlv.pad4 n : Nat) : Int) := by
  unfold Tlv.pad4
  split <;> omega

theorem stores_eq_appendRecord (buf : Mem) (clen : Nat) (attr : BitVec 16) (v : Mem) (n : Nat)
    (h20 : 20 ≤ clen) :
    (let buf := (stunSetCommandMessageLenStr buf ((clen + 4 + Tlv.pad4 n : Nat) : Int)).2
     let buf := writeInt buf clen (be16 attr)
     let buf := writeInt buf (clen + 2) (be16 (BitVec.ofInt 16 n))
     if 0 < (n : Int) then writeInt buf (clen + 4) (slice v 0 (n : Int).toNat) else buf) =
      appendRecord buf clen attr (slice v 0 n) := by
  have hset : (stunSetCommandMessageLenStr buf ((clen + 4 + Tlv.pad4 n : Nat) : Int)).2 =
      put16 buf 2 (BitVec.ofNat 16 (clen + 4 + Tlv.pad4 n - 20)) := by
    rw [stunSetCommandMessageLenStr, if_neg (by unfold stunHeaderLength; omega)]
    simp only [stunHeaderLength]
    rw [← Nat.cast_sub (by omega), BitVec.ofInt_natCast]
  have hc2 : (clen : Int) + 2 = ((clen + 2 : Nat) : Int) := by omega
  have hc4 : (clen : Int) + 4 = ((clen + 4 : Nat) : Int) := by omega
  simp only [hset, hc2, hc4, writeInt_natCast, BitVec.ofInt_natCast, Int.toNat_natCast]
  simp only [appendRecord, put16, slice_length]
  by_cases h0 : n = 0
  · subst h0
    simp
  · rw [if_pos (by omega)]

/-- `stun_attr_add_str` on a message whose length is already a multiple of four. -/
theorem stunAttrAddStr_eq {m : StunBuffer} (attr : BitVec 16) (avalue : Option Mem) (alen : Int)
    (hclen : stunGetCommandMessageLenStr m.buf m.len = (m.len : Int)) (hmod : m.len % 4 = 0) :
    stunAttrAddStr m attr avalue alen =
      let v := attrBytes avalue alen
      let newlen := m.len + 4 + Tlv.pad4 v.length
      if intMax < (newlen : Int) then (.undef, m)
      else if (maxStunMessageSize : Int) ≤ (newlen : Int) then (.fail, m)
      else (.ok, ⟨appendRecord m.buf m.len attr v, newlen⟩) := by
  have h20 : 20 ≤ m.len := by
    rcases stunGetCommandMessageLenStr_cases m.buf m.len with h | ⟨h, _⟩ <;> omega
  have hv : slice (avalue.getD fun _ => 0) 0 (attrBytes avalue alen).length =
      attrBytes avalue alen := by
    cases avalue with
    | none => rfl
    | some v => simp [attrBytes]
  have hstores := stores_eq_appendRecord m.buf m.len attr (avalue.getD fun _ => 0)
    (attrBytes avalue alen).length h20
  rw [hv] at hstores
  simp only [stunAttrAddStr, hclen, attrBytes_length, newlen_eq _ _ hmod]
  simp only at hstores
  rw [hstores, Int.toNat_natCast]

theorem appendRecord_lenField (buf : Mem) (clen : Nat) (attr : BitVec 16) (v : List Byte)
    (h20 : 20 ≤ clen) : get16 (appendRecord buf clen attr v) 2 =
      BitVec.ofNat 16 (clen + 4 + Tlv.pad4 v.length - 20) := by
  simp only [appendRecord]
  rw [get16_write_disjoint (by omega), put16, get16_write_disjoint (by omega), put16,
    get16_write_disjoint (by omega), get16_put16]

theorem appendRecord_outside {buf : Mem} {clen : Nat} {attr : BitVec 16} {v : List Byte} {i : Nat}
    (h2 : 4 ≤ i) (hi : i < clen) : appendRecord buf clen attr v i = buf i := by
  simp only [appendRecord, put16]
  rw [write_outside (by omega), write_outside (by omega), write_outside (by omega),
    write_outside (by simp; omega)]

theorem appendRecord_recordAt (buf : Mem) (clen : Nat) (attr : BitVec 16) (v : List Byte)
    (hv : v.length < 65536) : Tlv.RecordAt (appendRecord buf clen attr v) clen (attr, v) := by
  simp only [appendRecord, Tlv.RecordAt]
  refine ⟨?_, ?_, slice_write_same _ _ _⟩
  · rw [get16_write_disjoint (by omega), put16, get16_write_disjoint (by omega), get16_put16]
  · rw [get16_write_disjoint (by omega), get16_put16, BitVec.toNat_ofNat, Nat.mod_eq_of_lt hv]

theorem IsMessage.append {m : StunBuffer} {msgType : BitVec 16} {tid : StunTid}
    {attrs : List Tlv.Record} (h : IsMessage m msgType tid attrs) (attr : BitVec 16) (v : List Byte)
    (hroom : m.len + 4 + Tlv.pad4 v.length < maxStunMessageSize) :
    IsMessage ⟨appendRecord m.buf m.len attr v, m.len + 4 + Tlv.pad4 v.length⟩ msgType tid
      (attrs ++ [(attr, v)]) := by
  unfold maxStunMessageSize at hroom
  have hlen := h.len_eq
  have hpad := Tlv.le_pad4 v.length
  have hsize : Tlv.size (attrs ++ [(attr, v)]) = Tlv.size attrs + (4 + Tlv.pad4 v.length) := by
    simp [Tlv.size]
  refine ⟨?_, ?_, ?_, ?_⟩
  · apply h.header.congr
    · simp only [appendRecord, put16]
      rw [get16_write_disjoint (by omega), get16_write_disjoint (by omega),
        get16_write_disjoint (by omega), get16_write_disjoint (by simp)]
    · apply (slice_eq_iff _ _ _ _).mpr
      intro i hlo hhi
      exact appendRecord_outside (by omega) (by omega)
  · rw [appendRecord_lenField _ _ _ _ (by omega), BitVec.toNat_ofNat, hsize,
      Nat.mod_eq_of_lt (by omega)]
    omega
  · rw [hsize]
    simp only
    omega
  · rw [Tlv.laidOut_append]
    constructor
    · refine Tlv.laidOut_congr (fun i hlo hhi => ?_) h.laidOut
      exact (appendRecord_outside (by omega) (by omega)).symm
    · have hrec := appendRecord_recordAt m.buf m.len attr v (by omega)
      rw [hlen] at hrec
      rw [hlen]
      exact ⟨hrec, trivial⟩

/-- All a call of `stun_attr_add_str` can do to a message. -/
theorem IsMessage.add_cases {m : StunBuffer} {msgType : BitVec 16} {tid : StunTid}
    {attrs : List Tlv.Record} (h : IsMessage m msgType tid attrs) (attr : BitVec 16)
    (avalue : Option Mem) (alen : Int) {rc : Rc} {m' : StunBuffer}
    (hadd : stunAttrAddStr m attr avalue alen = (rc, m')) :
    (rc = .undef ∧ m' = m ∧ intMax < m.len + 4 + Tlv.pad4 (attrBytes avalue alen).length) ∨
    (rc = .fail ∧ m' = m ∧
      maxStunMessageSize ≤ m.len + 4 + Tlv.pad4 (attrBytes avalue alen).length) ∨
    (rc = .ok ∧ m'.len = m.len + 4 + Tlv.pad4 (attrBytes avalue alen).length ∧
      m'.len < maxStunMessageSize ∧
      IsMessage m' msgType tid (attrs ++ [(attr, attrBytes avalue alen)])) := by
  rw [stunAttrAddStr_eq attr avalue alen h.commandLen h.len_mod] at hadd
  simp only at hadd
  split at hadd
  · cases hadd
    exact Or.inl ⟨rfl, rfl, by omega⟩
  · split at hadd
    · cases hadd
      exact Or.inr (Or.inl ⟨rfl, rfl, by omega⟩)
    · cases hadd
      exact Or.inr (Or.inr ⟨rfl, rfl, by simp only; omega, h.append _ _ (by omega)⟩)

theorem IsMessage.added {m m' : StunBuffer} {msgType : BitVec 16} {tid : StunTid}
    {attrs : List Tlv.Record} (h : IsMessage m msgType tid attrs) {attr : BitVec 16}
    {avalue : Option Mem} {alen : Int} (hadd : stunAttrAddStr m attr avalue alen = (.ok, m')) :
    IsMessage m' msgType tid (attrs ++ [(attr, attrBytes avalue alen)]) := by
  rcases h.add_cases attr avalue alen hadd with ⟨hrc, _⟩ | ⟨hrc, _⟩ | ⟨_, _, _, hm⟩
  · cases hrc
  · cases hrc
  · exact hm

theorem IsMessage.add_room {m : StunBuffer} {msgType : BitVec 16} {tid : StunTid}
    {attrs : List Tlv.Record} (h : IsMessage m msgType tid attrs) (attr : BitVec 16)
    (avalue : Option Mem) (alen : Int)
    (hroom : m.len + 4 + Tlv.pad4 (attrBytes avalue alen).length < maxStunMessageSize) :
    ∃ m', stunAttrAddStr m attr avalue alen = (.ok, m') ∧
      IsMessage m' msgType tid (attrs ++ [(attr, attrBytes avalue alen)]) ∧
      m'.len = m.len + 4 + Tlv.pad4 (attrBytes avalue alen).length := by
  cases hcall : stunAttrAddStr m attr avalue alen with
  | mk rc m' =>
    rcases h.add_cases attr avalue alen hcall with ⟨_, _, hbig⟩ | ⟨_, _, hbig⟩ | ⟨rfl, hl, _, hm'⟩
    · unfold intMax at hbig
      unfold maxStunMessageSize at hroom
      omega
    · omega
    · exact ⟨m', rfl, hm', hl⟩

theorem IsMessage.add_ok {m : StunBuffer} {msgType : BitVec 16} {tid : StunTid}
    {attrs : List Tlv.Record} (h : IsMessage m msgType tid attrs) (attr : BitVec 16)
    (avalue : Option Mem) (alen : Int)
    (hroom : m.len + (attrBytes avalue alen).length + 8 ≤ maxStunMessageSize) :
    ∃ m', stunAttrAddStr m attr avalue alen = (.ok, m') ∧
      IsMessage m' msgType tid (attrs ++ [(attr, attrBytes avalue alen)]) ∧
      m'.len ≤ m.len + (attrBytes avalue alen).length + 8 := by
  have hpad := Tlv.pad4_lt (attrBytes avalue alen).length
  obtain ⟨m', hcall, hm', hlen⟩ := h.add_room attr avalue alen (by omega)
  exact ⟨m', hcall, hm', by omega⟩

theorem attrBytes_ofList (v : List Byte) : attrBytes (some (ofList v)) v.length = v :=
  slice_ofList v

/-! ## Initialised messages -/

/-- The initialiser of each class; only the success response takes a transaction id. -/
def MsgClass.init (c : MsgClass) (method : BitVec 16) (buf : Mem) (rnd : StunTid)
    (id : Option StunTid) : StunBuffer :=
  match c with
  | request => stunInitRequestStr method buf rnd
  | indication => stunInitIndicationStr method buf rnd
  | success => stunInitSuccessResponseStr method buf rnd id

def MsgClass.initTid (c : MsgClass) (rnd : StunTid) (id : Option StunTid) : StunTid :=
  match c with
  | success => id.getD rnd
  | _ => rnd

theorem isMessage_initCommand (messageType : BitVec 16) (buf : Mem) (rnd : StunTid) :
    IsMessage (stunInitCommandStr messageType buf rnd) (messageType &&& 0x3FFF) rnd [] :=
  ⟨stunInitCommandStr_header _ _ _, by rw [stunInitCommandStr_lenField]; rfl, rfl, trivial⟩

theorem IsMessage.tidCpy {m : StunBuffer} {msgType : BitVec 16} {tid : StunTid}
    {attrs : List Tlv.Record} (h : IsMessage m msgType tid attrs) (id : StunTid) :
    IsMessage ⟨stunTidMessageCpy m.buf id, m.len⟩ msgType id attrs := by
  have hid := id.size_eq
  refine ⟨h.header.tidCpy id, ?_, h.len_eq, Tlv.laidOut_write (by omega) h.laidOut⟩
  rw [← h.lenField, stunTidMessageCpy, get16_write_disjoint (by omega)]

theorem isMessage_init (c : MsgClass) (method : BitVec 16) (buf : Mem) (rnd : StunTid)
    (id : Option StunTid) :
    IsMessage (c.init method buf rnd id) (c.makeType method &&& 0x3FFF) (c.initTid rnd id) [] := by
  cases c with
  | request => exact isMessage_initCommand _ _ _
  | indication => exact isMessage_initCommand _ _ _
  | success =>
    have h := isMessage_initCommand (stunMakeSuccessResponse method) buf rnd
    cases id with
    | none => exact h
    | some tid => exact h.tidCpy tid

end TurnClient
