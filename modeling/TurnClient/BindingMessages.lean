import TurnClient.StunClient

/-!
# The options of a Binding request

The request of the STUN clients carries up to three options of RFC 5780: the
port the response is to be sent to, the change of the address it is sent from,
and padding. The getters for them are what a server reads.
-/

namespace TurnClient

open ByteMemory
set_option autoImplicit false

/-- `none` is the result -1; the two flags are what is left under their masks. -/
def stunAttrGetChangeRequestStr (buf : Mem) (attr : Option Nat) : Option (Byte × Byte) :=
  if stunAttrGetLen buf attr = 4 then
    match stunAttrGetValue buf attr with
    | some value => some (buf (value + 3) &&& 0x04, buf (value + 3) &&& 0x02)
    | none => none
  else none

def stunAttrGetResponsePortStr (buf : Mem) (attr : Option Nat) : Int :=
  if 2 ≤ stunAttrGetLen buf attr then
    match stunAttrGetValue buf attr with
    | some value => (get16 buf value).toNat
    | none => -1
  else -1

def stunAttrGetPaddingLenStr (buf : Mem) (attr : Option Nat) : Int :=
  let len := stunAttrGetLen buf attr
  if len < 0 then -1 else (BitVec.ofInt 16 len).toNat

def stunIsBindingRequestStr (buf : Mem) (len offset : Nat) : Bool :=
  if offset < len then
    let buf := fun i => buf (offset + i)
    let len := len - offset
    stunIsCommandMessageStr buf len && stunIsRequestStr buf len &&
      stunGetMethodStr buf len == stunMethodBinding
  else false

def changeFlags (changeIp changePort : Bool) : Byte :=
  if changeIp then if changePort then 0x06 else 0x04 else if changePort then 0x02 else 0x00

def optionRecords (responsePort : Int) (changeIp changePort padding : Bool) : List Tlv.Record :=
  (if 0 ≤ responsePort then
    [(stunAttributeResponsePort, be16 (BitVec.ofInt 16 responsePort) ++ [0, 0])] else []) ++
  (if changeIp || changePort then
    [(stunAttributeChangeRequest, [0, 0, 0, changeFlags changeIp changePort])] else []) ++
  (if padding then [(stunAttributePadding, List.replicate 1500 0)] else [])

theorem IsMessage.addBytes_room {m : StunBuffer} {msgType : BitVec 16} {tid : StunTid}
    {attrs : List Tlv.Record} (h : IsMessage m msgType tid attrs) (attr : BitVec 16)
    {field : List Byte} (hsmall : Tlv.size attrs ≤ 1000) (hfield : field.length ≤ 1500) :
    IsMessage (stunAttrAddBytes m attr field).2 msgType tid (attrs ++ [(attr, field)]) := by
  have hbytes := attrBytes_ofList field
  have hlen := h.len_eq
  obtain ⟨m', hadd, hm', _⟩ := h.add_ok attr (some (ofList field)) field.length
    (by rw [hbytes]; unfold maxStunMessageSize; omega)
  rw [hbytes] at hm'
  unfold stunAttrAddBytes
  rw [hadd]
  exact hm'

theorem IsMessage.addIf {m : StunBuffer} {msgType : BitVec 16} {tid : StunTid}
    {attrs : List Tlv.Record} (h : IsMessage m msgType tid attrs) {n : Nat}
    (hsize : Tlv.size attrs ≤ n) (hn : n ≤ 1000) (c : Prop) [Decidable c] (attr : BitVec 16)
    {field : List Byte} (hfield : field.length ≤ 1500) :
    IsMessage (if c then (stunAttrAddBytes m attr field).2 else m) msgType tid
        (attrs ++ if c then [(attr, field)] else []) ∧
      Tlv.size (attrs ++ if c then [(attr, field)] else []) ≤ n + field.length + 8 := by
  have hpad := Tlv.pad4_lt field.length
  rw [Tlv.size_append]
  split
  · refine ⟨h.addBytes_room attr (by omega) hfield, ?_⟩
    simp only [Tlv.size]
    omega
  · rw [List.append_nil]
    refine ⟨h, ?_⟩
    simp only [Tlv.size]
    omega

/-- The message `bindingRequest` makes of the options of a call. -/
theorem bindingRequest_isMessage (args : StunArgs) (env : StunEnv) :
    IsMessage (bindingRequest args env) (stunMakeRequest stunMethodBinding &&& 0x3FFF) env.tid
      (optionRecords args.responsePort args.changeIp args.changePort args.padding) := by
  have hinit := isMessage_initRequest stunMethodBinding env.buf env.tid
  obtain ⟨hport, hsize⟩ := hinit.addIf (n := 0) (by decide) (by decide) (0 ≤ args.responsePort)
    stunAttributeResponsePort (by simp :
      (be16 (BitVec.ofInt 16 args.responsePort) ++ [0, 0] : List Byte).length ≤ 1500)
  obtain ⟨hchange, hsize⟩ := hport.addIf hsize (by simp) (args.changeIp || args.changePort)
    stunAttributeChangeRequest (by simp :
      ([0, 0, 0, changeFlags args.changeIp args.changePort] : List Byte).length ≤ 1500)
  obtain ⟨hpadding, _⟩ := hchange.addIf hsize (by simp) args.padding stunAttributePadding
    (by rw [List.length_replicate] : (List.replicate 1500 (0 : Byte)).length ≤ 1500)
  exact hpadding

/-- What a server reads of a request: the options, each -1 or `none` when it is not there. -/
structure ReadsOptions (m : StunBuffer) (responsePort : Int) (change : Option (Byte × Byte))
    (padding : Int) : Prop where
  responsePort : stunAttrGetResponsePortStr m.buf
    (stunAttrGetFirstByTypeStr m.buf m.len stunAttributeResponsePort) = responsePort
  change : stunAttrGetChangeRequestStr m.buf
    (stunAttrGetFirstByTypeStr m.buf m.len stunAttributeChangeRequest) = change
  padding : stunAttrGetPaddingLenStr m.buf
    (stunAttrGetFirstByTypeStr m.buf m.len stunAttributePadding) = padding

theorem getResponsePort_of_recordAt {buf : Mem} {off : Nat} {port : BitVec 16}
    (h : Tlv.RecordAt buf off (stunAttributeResponsePort, be16 port ++ [0, 0])) :
    stunAttrGetResponsePortStr buf (some off) = port.toNat := by
  obtain ⟨_, hlen, hvalue⟩ := h
  have hfour : (get16 buf (off + 2)).toNat = 4 := hlen
  have hport := get16_of_slice ((slice_eq_append_iff _ _ _ _).mp hvalue).1
  simp only [stunAttrGetResponsePortStr, stunAttrGetLen_some, stunAttrGetValue_some, hfour]
  rw [if_pos (by decide), if_neg (by decide)]
  simp only [hport]

theorem getChangeRequest_of_recordAt {buf : Mem} {off : Nat} {flags : Byte}
    (h : Tlv.RecordAt buf off (stunAttributeChangeRequest, [0, 0, 0, flags])) :
    stunAttrGetChangeRequestStr buf (some off) = some (flags &&& 0x04, flags &&& 0x02) := by
  obtain ⟨_, hlen, hvalue⟩ := h
  have hfour : (get16 buf (off + 2)).toNat = 4 := hlen
  have hflags : buf (off + 4 + 3) = flags := by
    have hbyte : (slice buf (off + 4) 4)[3]? = some flags := congrArg (fun l => l[3]?) hvalue
    rw [slice_getElem?, if_pos (by decide)] at hbyte
    exact Option.some.inj hbyte
  simp only [stunAttrGetChangeRequestStr, stunAttrGetLen_some, stunAttrGetValue_some, hfour]
  rw [if_pos (by decide), if_neg (by decide)]
  simp only [hflags]

theorem getPaddingLen_of_recordAt {buf : Mem} {off : Nat} {t : BitVec 16} {v : List Byte}
    (h : Tlv.RecordAt buf off (t, v)) (hv : v.length < 65536) :
    stunAttrGetPaddingLenStr buf (some off) = v.length := by
  obtain ⟨_, hlen, _⟩ := h
  have hlen' : (get16 buf (off + 2)).toNat = v.length := hlen
  simp only [stunAttrGetPaddingLenStr, stunAttrGetLen_some, hlen']
  rw [if_neg (by omega), BitVec.ofInt_natCast, BitVec.toNat_ofNat, Nat.mod_eq_of_lt hv]

theorem find_addIf (c : Prop) [Decidable c] (attr t : BitVec 16) (field : List Byte) :
    (if c then [(attr, field)] else ([] : List Tlv.Record)).find? (fun r => r.1 == t) =
      if c ∧ attr = t then some (attr, field) else none := by
  by_cases hc : c
  · by_cases ht : attr = t
    · simp [hc, ht]
    · simp [hc, ht]
  · simp [hc]

/-- Each option is found by its own type. -/
theorem find_optionRecords (responsePort : Int) (changeIp changePort padding : Bool) :
    let rs := optionRecords responsePort changeIp changePort padding
    rs.find? (fun r => r.1 == stunAttributeResponsePort) = (if 0 ≤ responsePort then
        some (stunAttributeResponsePort, be16 (BitVec.ofInt 16 responsePort) ++ [0, 0]) else none) ∧
      rs.find? (fun r => r.1 == stunAttributeChangeRequest) = (if changeIp || changePort then
        some (stunAttributeChangeRequest, [0, 0, 0, changeFlags changeIp changePort]) else none) ∧
      rs.find? (fun r => r.1 == stunAttributePadding) = if padding then
        some (stunAttributePadding, List.replicate 1500 0) else none := by
  have h₁ : stunAttributeResponsePort ≠ stunAttributeChangeRequest := by decide
  have h₂ : stunAttributeResponsePort ≠ stunAttributePadding := by decide
  have h₃ : stunAttributeChangeRequest ≠ stunAttributePadding := by decide
  simp only [optionRecords, List.find?_append, find_addIf, h₁, h₂, h₃, h₁.symm, h₂.symm, h₃.symm,
    and_true, and_false, if_false, Option.or_none, Option.none_or]

theorem size_optionRecords (responsePort : Int) (changeIp changePort padding : Bool) :
    Tlv.size (optionRecords responsePort changeIp changePort padding) ≤ 1520 := by
  simp only [optionRecords, Tlv.size_append, apply_ite Tlv.size, Tlv.size, List.length_append,
    be16_length, List.length_cons, List.length_nil, List.length_replicate, Tlv.pad4]
  split <;> split <;> split <;> omega

/-- What a getter makes of an attribute that is there under a condition. -/
theorem IsMessage.read_option {α : Type} {m : StunBuffer} {msgType : BitVec 16} {tid : StunTid}
    {attrs : List Tlv.Record} (h : IsMessage m msgType tid attrs) {t : BitVec 16}
    (read : Option Nat → α) {c : Prop} [Decidable c] {field : List Byte} {x : α}
    (hfind : attrs.find? (fun r => r.1 == t) = if c then some (t, field) else none)
    (hread : ∀ off, Tlv.RecordAt m.buf off (t, field) → read (some off) = x) :
    read (stunAttrGetFirstByTypeStr m.buf m.len t) = if c then x else read none := by
  have hfirst := h.firstByType_find t
  rw [hfind] at hfirst
  by_cases hc : c
  · rw [if_pos hc] at hfirst ⊢
    obtain ⟨off, hoff, hrec⟩ := hfirst
    rw [hoff, hread off hrec]
  · rw [if_neg hc] at hfirst ⊢
    rw [hfirst]

/-- A server that reads a request with the getters gets the options the client was called with. -/
theorem binding_request_read_back (args : StunArgs) (env : StunEnv) :
    let m := bindingRequest args env
    stunIsBindingRequestStr m.buf m.len 0 = true ∧ stunTidFromMessageStr m.buf = env.tid ∧
      ReadsOptions m
        (if 0 ≤ args.responsePort then (BitVec.ofInt 16 args.responsePort).toNat else -1)
        (if args.changeIp || args.changePort then
          some (if args.changeIp then 0x04 else 0, if args.changePort then 0x02 else 0) else none)
        (if args.padding then 1500 else -1) := by
  intro m
  have hmsg : IsMessage m _ env.tid _ := bindingRequest_isMessage args env
  obtain ⟨hport, hchange, hpadding⟩ :=
    find_optionRecords args.responsePort args.changeIp args.changePort args.padding
  refine ⟨?_, hmsg.header.tid_eq, ?_, ?_, ?_⟩
  · have hsize := size_optionRecords args.responsePort args.changeIp args.changePort args.padding
    have hwf : WellFormed m .request stunMethodBinding env.tid :=
      wellFormed_of_isMessage hmsg (by rw [hmsg.len_eq]; unfold maxStunMessageSize; omega)
    have hlen := hwf.len_eq
    unfold stunHeaderLength at hlen
    unfold stunIsBindingRequestStr
    rw [if_pos (by omega)]
    simp only [Nat.zero_add, Nat.sub_zero]
    rw [hwf.command, hwf.request, hwf.method_eq]
    rfl
  · exact hmsg.read_option (stunAttrGetResponsePortStr m.buf) hport
      fun off hrec => getResponsePort_of_recordAt hrec
  · have hflags : some (changeFlags args.changeIp args.changePort &&& 0x04,
        changeFlags args.changeIp args.changePort &&& 0x02) =
        some ((if args.changeIp then 0x04 else 0 : Byte), (if args.changePort then 0x02 else 0)) := by
      cases args.changeIp <;> cases args.changePort <;> rfl
    rw [← hflags]
    exact hmsg.read_option (stunAttrGetChangeRequestStr m.buf) hchange
      fun off hrec => getChangeRequest_of_recordAt hrec
  · have hread := hmsg.read_option (stunAttrGetPaddingLenStr m.buf) hpadding
      fun off hrec => getPaddingLen_of_recordAt hrec (by rw [List.length_replicate]; decide)
    rw [List.length_replicate] at hread
    exact hread

end TurnClient
