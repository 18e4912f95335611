import TurnClient.AllocateResponse

/-!
# Error responses, built and read back

`stun_init_error_response_common_str` keeps at most 508 bytes of the reason and
counts its zero padding into the length of the attribute;
`stun_is_error_response_str` copies what the buffer of the caller holds and ends
it with a zero. The padding is copied too, so the string ends where the reason does.
-/

namespace TurnClient

open ByteMemory
set_option autoImplicit false

/-- The bytes of a C string, without the zero that ends it. -/
structure CString where
  bytes : List Byte
  no_zero : ∀ b ∈ bytes, b ≠ 0

/-- The text of an error: the default of its code for NULL and for "Unknown error". -/
def reasonText (errorCode : BitVec 16) : Option (List Byte) → List Byte
  | none => getDefaultReason errorCode.toNat
  | some reason =>
    if reason = ascii "Unknown error" then getDefaultReason errorCode.toNat else reason

theorem reasonText_eq (errorCode : BitVec 16) (reason : Option (List Byte)) :
    (if reason.getD (ascii "Unknown error") = ascii "Unknown error" then
      getDefaultReason errorCode.toNat else reason.getD (ascii "Unknown error")) =
      reasonText errorCode reason := by
  cases reason with
  | none => exact if_pos rfl
  | some reason => rfl

theorem ascii_no_zero {s : String}
    (h : (s.toList.all fun c => 0 < c.toNat && c.toNat < 256) = true) : ∀ b ∈ ascii s, b ≠ 0 := by
  intro b hb hzero
  obtain ⟨c, hc, rfl⟩ := List.mem_map.mp hb
  have hrange := List.all_eq_true.mp h c hc
  simp only [Bool.and_eq_true, decide_eq_true_eq] at hrange
  have hnat : c.toNat % 256 = 0 := by simpa using congrArg BitVec.toNat hzero
  omega

theorem getDefaultReason_no_zero (errorCode : Nat) : ∀ b ∈ getDefaultReason errorCode, b ≠ 0 := by
  unfold getDefaultReason
  split <;> exact ascii_no_zero (by simp)

theorem reasonText_no_zero (errorCode : BitVec 16) (reason : Option CString) :
    ∀ b ∈ reasonText errorCode (reason.map CString.bytes), b ≠ 0 := by
  cases reason with
  | none => exact getDefaultReason_no_zero _
  | some reason =>
    simp only [Option.map_some, reasonText]
    split
    · exact getDefaultReason_no_zero _
    · exact reason.no_zero

/-! ## The message -/

theorem stunMakeErrorResponse_method (method : BitVec 16) :
    let tt := stunMakeErrorResponse method &&& 0x3FFF
    (tt &&& 0x000F) ||| ((tt &&& 0x00E0) >>> 1) ||| ((tt &&& 0x0E00) >>> 2) |||
      ((tt &&& 0x3000) >>> 2) = method &&& 0x0FFF := by
  apply BitVec.eq_of_getLsbD_eq
  intro i hi
  interval_cases i <;> simp [stunMakeErrorResponse, stunMakeType]

theorem stunMakeErrorResponse_class (method : BitVec 16) :
    isStunErrResp (stunMakeErrorResponse method &&& 0x3FFF &&& 0x3FFF) = true := by
  unfold isStunErrResp
  rw [beq_iff_eq]
  apply BitVec.eq_of_getLsbD_eq
  intro i hi
  interval_cases i <;> simp [stunMakeErrorResponse, stunMakeType]

/-- The value of the attribute: the code, the text, and zeros up to the next multiple of four. -/
def errorValue (errorCode : BitVec 16) (text : List Byte) : List Byte :=
  [0, 0, BitVec.ofNat 8 (errorCode.toNat / 100), BitVec.ofNat 8 (errorCode.toNat % 100)] ++
    (text ++ List.replicate (Tlv.pad4 text.length - text.length) 0)

theorem errorValue_length (errorCode : BitVec 16) (text : List Byte) :
    (errorValue errorCode text).length = 4 + Tlv.pad4 text.length := by
  have hpad := Tlv.le_pad4 text.length
  unfold errorValue
  simp only [List.length_append, List.length_cons, List.length_nil, List.length_replicate]
  omega

/-- What the first `alen` bytes of `avalue` are. -/
theorem avalue_take (errorCode : BitVec 16) {text : List Byte} (htext : text.length ≤ 508) :
    ([0, 0, BitVec.ofNat 8 (errorCode.toNat / 100), BitVec.ofNat 8 (errorCode.toNat % 100)] ++
        text ++ List.replicate (509 - text.length) 0).take (4 + Tlv.pad4 text.length) =
      errorValue errorCode text := by
  have hle := Tlv.le_pad4 text.length
  have hpad : Tlv.pad4 text.length ≤ 508 := by
    unfold Tlv.pad4
    omega
  unfold errorValue
  rw [List.append_assoc, List.take_append, List.take_append, List.take_replicate,
    List.take_of_length_le (by simp), List.take_of_length_le (by simp; omega)]
  congr 3
  simp only [List.length_cons, List.length_nil]
  omega

/-- The padding that is counted into the length of the attribute. -/
theorem manual_padding (n : Nat) :
    (if (4 + n) % 4 ≠ 0 then 4 + n + (4 - (4 + n) % 4) else 4 + n) = 4 + Tlv.pad4 n := by
  unfold Tlv.pad4
  split <;> omega

theorem isMessage_errorResponse (method : BitVec 16) (buf : Mem) (rnd : StunTid)
    (errorCode : BitVec 16) (reason : Option (List Byte)) (id : Option StunTid) :
    IsMessage (stunInitErrorResponseStr method buf rnd errorCode reason id)
      (stunMakeErrorResponse method &&& 0x3FFF) (id.getD rnd)
      [(stunAttributeErrorCode, errorValue errorCode ((reasonText errorCode reason).take 508))] := by
  have hinit := isMessage_initCommand (stunMakeErrorResponse method) buf rnd
  unfold stunInitErrorResponseStr stunInitErrorResponseCommonStr
  simp only [reasonText_eq]
  generalize htext : (reasonText errorCode reason).take 508 = text
  have hle : text.length ≤ 508 := by
    rw [← htext]
    exact List.length_take_le _ _
  have hpad : Tlv.pad4 text.length ≤ 508 := by
    unfold Tlv.pad4
    omega
  simp only [manual_padding]
  have hbytes : attrBytes (some (ofList ([0, 0, BitVec.ofNat 8 (errorCode.toNat / 100),
      BitVec.ofNat 8 (errorCode.toNat % 100)] ++ text ++ List.replicate (509 - text.length) 0)))
      ((4 + Tlv.pad4 text.length : Nat) : Int) = errorValue errorCode text := by
    unfold attrBytes
    simp only [Int.toNat_natCast]
    rw [slice_ofList_take _ (by simp; omega), avalue_take errorCode hle]
  obtain ⟨m', hadd, hm', _⟩ := hinit.add_ok stunAttributeErrorCode (some (ofList ([0, 0,
    BitVec.ofNat 8 (errorCode.toNat / 100), BitVec.ofNat 8 (errorCode.toNat % 100)] ++ text ++
      List.replicate (509 - text.length) 0))) ((4 + Tlv.pad4 text.length : Nat) : Int) (by
        rw [hbytes, errorValue_length, hinit.len_eq]
        unfold maxStunMessageSize Tlv.size
        omega)
  rw [hbytes, List.nil_append] at hm'
  rw [hadd]
  cases id with
  | none => exact hm'
  | some tid => exact hm'.tidCpy tid

/-! ## The text -/

theorem cstr_storeString (m : Mem) {v : List Byte} {cap : Nat} (h : v.length < cap) :
    cstr (storeString m v) cap = v.takeWhile (· ≠ 0) := by
  obtain ⟨k, rfl⟩ : ∃ k, cap = v.length + 1 + k := ⟨cap - (v.length + 1), by omega⟩
  unfold cstr
  rw [slice_append, slice_storeString, List.append_assoc, List.takeWhile_append]
  split
  · rename_i hall
    rw [(List.takeWhile_sublist _).eq_of_length hall, List.singleton_append,
      List.takeWhile_cons_of_neg (by simp), List.append_nil]
  · rfl

theorem cstr_copyErrMsg {buf : Mem} {sar : Nat} {text : List Byte} {n : Nat} (pad : Nat) (errMsg : Mem)
    (hn : 1 ≤ n) (hlen : (get16 buf (sar + 2)).toNat = 4 + (text.length + pad))
    (hval : slice buf (sar + 8) (text.length + pad) = text ++ List.replicate pad 0)
    (htext : ∀ b ∈ text, b ≠ 0) :
    cstr (copyErrMsg buf sar errMsg n) n = text.take (n - 1) := by
  unfold copyErrMsg
  simp only [hlen]
  rw [if_pos (by omega), Nat.add_sub_cancel_left]
  by_cases hempty : text.length + pad = 0
  · obtain rfl := List.length_eq_zero_iff.mp (Nat.add_eq_zero_iff.mp hempty).1
    rw [if_neg (by omega), List.take_nil]
    exact cstr_storeString errMsg (v := []) hn
  · rw [if_pos (by omega)]
    generalize hk : (if n - 1 < text.length + pad then n - 1 else text.length + pad) = k
    have hk' : k = min (n - 1) (text.length + pad) := by
      rw [← hk]
      split <;> omega
    have hcopied : slice buf (sar + 8) k =
        text.take k ++ List.replicate (min (k - text.length) pad) 0 := by
      rw [← slice_take (n := text.length + pad) (by omega), hval, List.take_append,
        List.take_replicate]
    have hstore := cstr_storeString (write errMsg 0 [0])
      (show (slice buf (sar + 8) k).length < n by rw [slice_length]; omega)
    unfold storeString at hstore
    rw [slice_length] at hstore
    rw [hstore, hcopied, List.takeWhile_append_of_pos (by
      intro b hb
      simpa using htext b (List.mem_of_mem_take hb))]
    -- what follows the text are zeros, and the text is cut only by the buffer
    rw [List.takeWhile_replicate, if_neg (by simp), List.append_nil, hk']
    rw [← List.take_take, List.take_of_length_le (l := text) (by omega)]

/-! ## The round trip -/

theorem IsMessage.errorResponse_read {m : StunBuffer} {method : BitVec 16} {tid : StunTid}
    {errorCode : BitVec 16} {text : List Byte}
    (h : IsMessage m (stunMakeErrorResponse method &&& 0x3FFF) tid
      [(stunAttributeErrorCode, errorValue errorCode text)])
    (hcode : errorCode.toNat ≤ 25599) (htext : ∀ b ∈ text, b ≠ 0) (code : Int) (errMsg : Mem)
    {n : Nat} (hn : 1 ≤ n) :
    ∃ msg, stunIsErrorResponseStr m.buf m.len (some code) (some errMsg) n =
        ⟨true, some (errorCode.toNat : Int), some msg⟩ ∧ cstr msg n = text.take (n - 1) := by
  have htype := and_3FFF_lt (stunMakeErrorResponse method)
  have hpad := Tlv.le_pad4 text.length
  obtain ⟨hfirst, _, hfield, hvalue⟩ := @IsMessage.firstByType m _ tid [] [] _ h (by simp)
  simp only [Tlv.size, Nat.add_zero, errorValue_length] at hfirst hfield
  obtain ⟨hfour, hrest⟩ := (slice_eq_append_iff _ _ _ _).mp hvalue
  obtain ⟨_, _, hclass, hnumber⟩ : m.buf 24 = 0 ∧ m.buf 25 = 0 ∧
      m.buf 26 = BitVec.ofNat 8 (errorCode.toNat / 100) ∧
      m.buf 27 = BitVec.ofNat 8 (errorCode.toNat % 100) := by
    simpa [slice, List.range_succ, Tlv.size] using hfour
  refine ⟨copyErrMsg m.buf 20 errMsg n, ?_, ?_⟩
  · unfold stunIsErrorResponseStr
    rw [h.not_channel htype, h.msgType_eq, stunMakeErrorResponse_class, hfirst]
    simp only [Bool.false_eq_true, if_false, if_true, hfield]
    rw [if_pos (by omega), hclass, hnumber]
    simp only [BitVec.toNat_ofNat, Option.map_some, ErrorResult.mk.injEq, Option.some.injEq,
      true_and, and_true]
    omega
  · apply cstr_copyErrMsg (Tlv.pad4 text.length - text.length) errMsg hn
    · omega
    · simpa [Tlv.size] using hrest
    · exact htext

theorem errorResponse_round_trip (method : BitVec 16) (buf : Mem) (rnd : StunTid)
    (errorCode : BitVec 16) (reason : Option CString) (id : Option StunTid) (code : Int)
    (errMsg : Mem) (n : Nat) (hcode : errorCode.toNat ≤ 25599) (hn : 1 ≤ n) :
    let m := stunInitErrorResponseStr method buf rnd errorCode (reason.map CString.bytes) id
    let e := stunIsErrorResponseStr m.buf m.len (some code) (some errMsg) n
    stunIsCommandMessageStr m.buf m.len = true ∧
      stunGetMethodStr m.buf m.len = method &&& 0x0FFF ∧
      stunTidFromMessageStr m.buf = id.getD rnd ∧
      e.ret = true ∧ e.errCode = some (errorCode.toNat : Int) ∧
      ∃ msg, e.errMsg = some msg ∧
        cstr msg n = (reasonText errorCode (reason.map CString.bytes)).take (min 508 (n - 1)) := by
  intro m e
  have hm := isMessage_errorResponse method buf rnd errorCode (reason.map CString.bytes) id
  have hlen : 20 ≤ m.len := by
    rw [hm.len_eq]
    omega
  obtain ⟨msg, he, hmsg⟩ := hm.errorResponse_read hcode
    (fun b hb => reasonText_no_zero errorCode reason b (List.mem_of_mem_take hb)) code errMsg hn
  change e = _ at he
  refine ⟨hm.isCommand (and_3FFF_lt _), ?_, hm.header.tid_eq, by rw [he], by rw [he], msg,
    by rw [he], ?_⟩
  · rw [stunGetMethodStr, if_neg (by omega), hm.header.type_eq]
    exact stunMakeErrorResponse_method method
  · rw [hmsg, List.take_take, Nat.min_comm]

/-- A reason of 23 bytes for a buffer of 16, on a Refresh response. -/
theorem cutReason_read_back :
    let m := stunInitErrorResponseStr 0x0004 (fun _ => 0) ⟨List.replicate 12 7, rfl⟩ 437
      (some (ascii "No allocation for peer.")) none
    let e := stunIsErrorResponseStr m.buf m.len (some 0) (some fun _ => 0xFF) 16
    e.ret = true ∧ e.errCode = some 437 ∧
      ∃ msg, e.errMsg = some msg ∧ cstr msg 16 = ascii "No allocation f" := by
  intro m e
  obtain ⟨_, _, _, hret, hcode, msg, hmsg, htext⟩ :=
    errorResponse_round_trip 0x0004 (fun _ => 0) ⟨List.replicate 12 7, rfl⟩ 437
      (some ⟨ascii "No allocation for peer.", ascii_no_zero (by simp)⟩) none 0 (fun _ => 0xFF) 16
      (by decide) (by decide)
  refine ⟨hret, hcode, msg, hmsg, htext.trans ?_⟩
  simp [reasonText, ascii]

end TurnClient
