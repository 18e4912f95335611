import TurnClient.StunRoundTrip
import TurnClient.Datagrams

/-!
# What a built message keeps of the buffer it was built in

`stun_attr_add_str` advances the length to a multiple of four but stores the
value only, so the bytes after a value are those the buffer held before. They
are the only ones: two builds of one sequence of attributes agree outside the
padding, and in the padding each shows its own initial buffer.
-/

namespace TurnClient

open ByteMemory
set_option autoImplicit false

/-- Make every call of a list; there is a message only if all of them succeed. -/
def addEach (m : StunBuffer) : List AttrCall → Option StunBuffer
  | [] => some m
  | c :: cs =>
    match c.result m with
    | (.ok, m') => addEach m' cs
    | _ => none

def buildMessage (messageType : BitVec 16) (tid : StunTid) (calls : List AttrCall) (buf : Mem) :
    Option StunBuffer :=
  addEach (stunInitCommandStr messageType buf tid) calls

def AttrCall.record (c : AttrCall) : Tlv.Record := (c.attr, attrBytes c.avalue c.alen)

/-- The offsets of a built message that no store of the builder reaches. -/
def paddingOffsets (calls : List AttrCall) : List Nat :=
  Tlv.padding stunHeaderLength (calls.map AttrCall.record)

theorem stunTidMessageCpy_cpy (buf : Mem) (id id' : StunTid) :
    stunTidMessageCpy (stunTidMessageCpy buf id) id' = stunTidMessageCpy buf id' := by
  have hid := id.size_eq
  have hid' := id'.size_eq
  funext i
  simp only [stunTidMessageCpy, write_apply, hid, hid']
  split <;> rfl

/-- Every class of message starts as `stun_init_command_str` leaves it. -/
theorem init_eq_initCommand (c : MsgClass) (method : BitVec 16) (buf : Mem) (rnd : StunTid)
    (id : Option StunTid) :
    c.init method buf rnd id = stunInitCommandStr (c.makeType method) buf (c.initTid rnd id) := by
  cases c with
  | request => rfl
  | indication => rfl
  | success =>
    cases id with
    | none => rfl
    | some tid =>
      show (⟨stunTidMessageCpy (stunTidMessageCpy _ rnd) tid, _⟩ : StunBuffer) = _
      rw [stunTidMessageCpy_cpy]
      rfl

/-- A message under construction, with what its buffer still holds of the initial contents. -/
structure BuiltIn (buf : Mem) (m : StunBuffer) (msgType : BitVec 16) (tid : StunTid)
    (attrs : List Tlv.Record) : Prop where
  message : IsMessage m msgType tid attrs
  padding_eq : ∀ i ∈ Tlv.padding stunHeaderLength attrs, m.buf i = buf i
  rest_eq : ∀ i, m.len ≤ i → m.buf i = buf i

theorem initCommand_rest (messageType : BitVec 16) (buf : Mem) (tid : StunTid) {i : Nat}
    (hi : stunHeaderLength ≤ i) : (stunInitCommandStr messageType buf tid).buf i = buf i := by
  have hid := tid.size_eq
  unfold stunHeaderLength at hi
  simp only [stunInitCommandStr, stunTidMessageCpy, put16, put32, stunInitBufferStr]
  rw [write_outside (by omega), write_outside (by simp; omega), write_outside (by simp; omega),
    write_outside (by simp; omega), write_outside (by simp [stunHeaderLength]; omega)]

theorem builtIn_init (messageType : BitVec 16) (buf : Mem) (tid : StunTid) :
    BuiltIn buf (stunInitCommandStr messageType buf tid) (messageType &&& 0x3FFF) tid [] :=
  ⟨isMessage_initCommand messageType buf tid, by simp [Tlv.padding],
    fun _ hi => initCommand_rest messageType buf tid hi⟩

theorem appendRecord_beyond {buf : Mem} {clen : Nat} {attr : BitVec 16} {v : List Byte} {i : Nat}
    (h20 : 20 ≤ clen) (hi : clen + 4 + v.length ≤ i) : appendRecord buf clen attr v i = buf i := by
  simp only [appendRecord, put16]
  rw [write_outside (by omega), write_outside (by simp; omega), write_outside (by simp; omega),
    write_outside (by simp; omega)]

theorem BuiltIn.add {buf : Mem} {m m' : StunBuffer} {msgType : BitVec 16} {tid : StunTid}
    {attrs : List Tlv.Record} (h : BuiltIn buf m msgType tid attrs) {c : AttrCall}
    (hc : c.result m = (.ok, m')) : BuiltIn buf m' msgType tid (attrs ++ [c.record]) := by
  have hlen := h.message.len_eq
  have hmod := h.message.len_mod
  have hcall := hc
  rw [AttrCall.result, stunAttrAddStr_eq _ _ _ h.message.commandLen hmod] at hcall
  simp only at hcall
  split at hcall
  · cases hcall
  split at hcall
  · cases hcall
  obtain rfl := (Prod.mk.inj hcall).2
  have hpad := Tlv.le_pad4 (attrBytes c.avalue c.alen).length
  refine ⟨?_, ?_, ?_⟩
  · rcases h.message.add_cases c.attr c.avalue c.alen hc with ⟨hrc, _⟩ | ⟨hrc, _⟩ | ⟨_, _, _, hm⟩
    · cases hrc
    · cases hrc
    · exact hm
  · intro i hi
    show appendRecord m.buf m.len c.attr (attrBytes c.avalue c.alen) i = buf i
    rw [Tlv.padding_append] at hi
    rcases List.mem_append.mp hi with hold | hnew
    · have hb := Tlv.padding_bounds hold
      unfold stunHeaderLength at hb
      rw [appendRecord_outside (by omega) (by omega)]
      exact h.padding_eq i hold
    · simp only [Tlv.padding, List.append_nil, AttrCall.record, stunHeaderLength] at hnew
      obtain ⟨k, _, rfl⟩ := List.mem_range'.mp hnew
      rw [appendRecord_beyond (by omega) (by omega)]
      exact h.rest_eq _ (by omega)
  · intro i hi
    show appendRecord m.buf m.len c.attr (attrBytes c.avalue c.alen) i = buf i
    simp only at hi
    rw [appendRecord_beyond (by omega) (by omega)]
    exact h.rest_eq i (by omega)

theorem BuiltIn.addEach {buf : Mem} {msgType : BitVec 16} {tid : StunTid} (calls : List AttrCall)
    {m m' : StunBuffer} {attrs : List Tlv.Record} (h : BuiltIn buf m msgType tid attrs)
    (hadd : addEach m calls = some m') :
    BuiltIn buf m' msgType tid (attrs ++ calls.map AttrCall.record) := by
  induction calls generalizing m attrs with
  | nil =>
    cases hadd
    simpa using h
  | cons c cs ih =>
    rw [TurnClient.addEach] at hadd
    cases hc : c.result m with
    | mk rc m₁ =>
      rw [hc] at hadd
      cases rc with
      | ok => simpa using ih (h.add hc) hadd
      | fail => cases hadd
      | undef => cases hadd

theorem builtIn_buildMessage {messageType : BitVec 16} {tid : StunTid} {calls : List AttrCall}
    {buf : Mem} {m : StunBuffer} (h : buildMessage messageType tid calls buf = some m) :
    BuiltIn buf m (messageType &&& 0x3FFF) tid (calls.map AttrCall.record) := by
  simpa using (builtIn_init messageType buf tid).addEach calls h

/-- The 20 bytes of a header are determined by its four fields. -/
theorem IsMessage.header_agree {m m' : StunBuffer} {msgType : BitVec 16} {tid : StunTid}
    {attrs : List Tlv.Record} (h : IsMessage m msgType tid attrs)
    (h' : IsMessage m' msgType tid attrs) {i : Nat} (hi : i < 20) : m.buf i = m'.buf i := by
  have htype := bytes_of_get16 (h.header.type_eq.trans h'.header.type_eq.symm)
  have hlen := bytes_of_get16
    (BitVec.eq_of_toNat_eq (h.lenField.trans h'.lenField.symm) : get16 m.buf 2 = get16 m'.buf 2)
  obtain ⟨hhi, hlo⟩ := get16_of_get32 (h.header.cookie_eq.trans h'.header.cookie_eq.symm)
  have hcookie := bytes_of_get16 hhi
  have hcookie' := bytes_of_get16 hlo
  have htid : slice m.buf 8 12 = slice m'.buf 8 12 :=
    congrArg StunTid.tsxId (h.header.tid_eq.trans h'.header.tid_eq.symm)
  have hcases : i = 0 ∨ i = 1 ∨ i = 2 ∨ i = 3 ∨ i = 4 ∨ i = 5 ∨ i = 6 ∨ i = 7 ∨ 8 ≤ i := by omega
  rcases hcases with rfl | rfl | rfl | rfl | rfl | rfl | rfl | rfl | h8
  · exact htype.1
  · exact htype.2
  · exact hlen.1
  · exact hlen.2
  · exact hcookie.1
  · exact hcookie.2
  · exact hcookie'.1
  · exact hcookie'.2
  · exact (slice_eq_iff _ _ _ _).mp htid i h8 (by omega)

/-- What goes out on the wire is the same in both builds. -/
def SameOnWire (m m' : StunBuffer) : Prop :=
  m.len = m'.len ∧ slice m.buf 0 m.len = slice m'.buf 0 m'.len

theorem BuiltIn.sameOnWire_iff {buf buf' : Mem} {m m' : StunBuffer} {msgType : BitVec 16}
    {tid : StunTid} {attrs : List Tlv.Record} (hb : BuiltIn buf m msgType tid attrs)
    (hb' : BuiltIn buf' m' msgType tid attrs) :
    SameOnWire m m' ↔ ∀ i ∈ Tlv.padding stunHeaderLength attrs, buf i = buf' i := by
  have hlen : m.len = m'.len := hb.message.len_eq.trans hb'.message.len_eq.symm
  have hsize := hb.message.len_eq
  constructor
  · rintro ⟨_, hbytes⟩ i hi
    have hbound := Tlv.padding_bounds hi
    unfold stunHeaderLength at hbound
    rw [← hlen] at hbytes
    have hat := (slice_eq_iff _ _ _ _).mp hbytes i (by omega) (by omega)
    rw [← hb.padding_eq i hi, ← hb'.padding_eq i hi, hat]
  · intro hpad
    refine ⟨hlen, ?_⟩
    rw [← hlen, slice_eq_iff]
    intro i _ hi
    by_cases h20 : i < 20
    · exact hb.message.header_agree hb'.message h20
    · refine Tlv.laidOut_agree hb.message.laidOut hb'.message.laidOut (fun j hj => ?_)
        (show 20 ≤ i by omega) (by omega)
      rw [hb.padding_eq j hj, hb'.padding_eq j hj]
      exact hpad j hj

/-- Whatever the two buffers held, values of whole words show nothing of it. -/
theorem whole_words_on_wire (c : MsgClass) (method : BitVec 16) (rnd : StunTid)
    (id : Option StunTid) (calls : List AttrCall) (buf buf' : Mem) (m m' : StunBuffer)
    (h : addEach (c.init method buf rnd id) calls = some m)
    (h' : addEach (c.init method buf' rnd id) calls = some m')
    (hwords : ∀ call ∈ calls, (attrBytes call.avalue call.alen).length % 4 = 0) :
    SameOnWire m m' := by
  rw [init_eq_initCommand] at h h'
  apply ((builtIn_buildMessage h).sameOnWire_iff (builtIn_buildMessage h')).mpr
  have hnil : Tlv.padding stunHeaderLength (calls.map AttrCall.record) = [] := by
    apply (Tlv.padding_eq_nil_iff _ _).mpr
    intro r hr
    obtain ⟨call, hcall, rfl⟩ := List.mem_map.mp hr
    exact hwords call hcall
  simp [hnil]

theorem built_on_wire_iff (messageType : BitVec 16) (tid : StunTid) (calls : List AttrCall)
    (buf buf' : Mem) (m m' : StunBuffer) (h : buildMessage messageType tid calls buf = some m)
    (h' : buildMessage messageType tid calls buf' = some m') :
    SameOnWire m m' ↔ ∀ i ∈ paddingOffsets calls, buf i = buf' i :=
  (builtIn_buildMessage h).sameOnWire_iff (builtIn_buildMessage h')

/-- A one-byte value over equal padding bytes and different bytes everywhere else. -/
theorem even_port_on_wire_same :
    let calls := [AttrCall.mk 0x0018 (some (ofList [0x80])) 1]
    let buf' : Mem := fun i => if i ∈ paddingOffsets calls then 0xAA else 0x55
    ∃ m m', buildMessage 0x0003 countingTid calls (fun _ => 0xAA) = some m ∧
      buildMessage 0x0003 countingTid calls buf' = some m' ∧ SameOnWire m m' := by
  intro calls buf'
  have hsome : (buildMessage 0x0003 countingTid calls (fun _ => 0xAA)).isSome := by decide +kernel
  have hsome' : (buildMessage 0x0003 countingTid calls buf').isSome := by decide +kernel
  obtain ⟨m, hm⟩ := Option.isSome_iff_exists.mp hsome
  obtain ⟨m', hm'⟩ := Option.isSome_iff_exists.mp hsome'
  refine ⟨m, m', hm, hm', ?_⟩
  apply (built_on_wire_iff 0x0003 countingTid calls _ _ m m' hm hm').mpr
  intro i hi
  simp only [buf', if_pos hi]

/-- The EVEN-PORT value of an Allocate request leaves three bytes of the stack in the message. -/
theorem even_port_shows_buffer :
    ¬ ∀ (messageType : BitVec 16) (tid : StunTid) (calls : List AttrCall) (buf buf' : Mem)
      (m m' : StunBuffer), buildMessage messageType tid calls buf = some m →
      buildMessage messageType tid calls buf' = some m' → SameOnWire m m' := by
  intro hall
  have hsome : (buildMessage 0x0003 countingTid
    [AttrCall.mk 0x0018 (some (ofList [0x80])) 1] (fun _ => 0xAA)).isSome := by decide +kernel
  have hsome' : (buildMessage 0x0003 countingTid
    [AttrCall.mk 0x0018 (some (ofList [0x80])) 1] (fun _ => 0x55)).isSome := by decide +kernel
  obtain ⟨m, hm⟩ := Option.isSome_iff_exists.mp hsome
  obtain ⟨m', hm'⟩ := Option.isSome_iff_exists.mp hsome'
  have hsame := (hall _ _ _ _ _ m m' hm hm').2
  have hb : (buildMessage 0x0003 countingTid
      [AttrCall.mk 0x0018 (some (ofList [0x80])) 1] (fun _ => 0xAA)).map
        (fun m => slice m.buf 0 m.len) ≠
      (buildMessage 0x0003 countingTid
        [AttrCall.mk 0x0018 (some (ofList [0x80])) 1] (fun _ => 0x55)).map
        (fun m => slice m.buf 0 m.len) := by decide +kernel
  rw [hm, hm'] at hb
  exact hb (congrArg some hsame)

end TurnClient
