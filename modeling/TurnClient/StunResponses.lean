import TurnClient.StunAttributes

/-!
# Error and challenge responses

`stun_is_challenge_response_str` copies the realm, the nonce and the server
name of an unauthenticated message into the session. Next to the new contents
the model keeps every index it stores to, so that the capacity of the fields
can be compared with what is really written.
-/

namespace TurnClient

open ByteMemory
set_option autoImplicit false

def stunAttributeErrorCode : BitVec 16 := 0x0009
def stunAttributeRealm : BitVec 16 := 0x0014
def stunAttributeNonce : BitVec 16 := 0x0015
def stunAttributeThirdPartyAuthorization : BitVec 16 := 0x802E

def stunMaxNonceSize : Nat := 127
def stunMaxRealmSize : Nat := 127
def stunMaxServerNameSize : Nat := 1025

/-- The answer of `stun_is_error_response_str` with what its two out-pointers
hold afterwards; `none` is a NULL pointer. -/
structure ErrorResult where
  ret : Bool
  errCode : Option Int
  errMsg : Option Mem

def copyErrMsg (buf : Mem) (sar : Nat) (errMsg : Mem) (size : Nat) : Mem :=
  if 0 < size then
    let errMsg := write errMsg 0 [0]
    if 4 < (get16 buf (sar + 2)).toNat then
      let msgLen := (get16 buf (sar + 2)).toNat - 4
      let msgLen := if size - 1 < msgLen then size - 1 else msgLen
      write (write errMsg 0 (slice buf (sar + 8) msgLen)) msgLen [0]
    else errMsg
  else errMsg

def stunIsErrorResponseStr (buf : Mem) (len : Nat) (errCode : Option Int) (errMsg : Option Mem)
    (errMsgSize : Nat) : ErrorResult :=
  if isChannelMsgStr buf len then ⟨false, errCode, errMsg⟩
  else if isStunErrResp (stunGetMsgTypeStr buf len) then
    match errCode with
    | none => ⟨true, none, errMsg⟩
    | some code =>
      match stunAttrGetFirstByTypeStr buf len stunAttributeErrorCode with
      | none => ⟨true, some code, errMsg⟩
      | some sar =>
        if 4 ≤ (get16 buf (sar + 2)).toNat then
          ⟨true, some ((buf (sar + 6)).toNat * 100 + (buf (sar + 7)).toNat),
            errMsg.map fun e => copyErrMsg buf sar e errMsgSize⟩
        else ⟨true, some code, errMsg⟩
  else ⟨false, errCode, errMsg⟩

/-- `get_first_by_type`, `get_value` and `get_len` in a row: the value of the
first attribute of a type, NULL when there is none or it is empty. -/
def firstValueStr (buf : Mem) (len : Nat) (attrType : BitVec 16) : Option (List Byte) :=
  let sar := stunAttrGetFirstByTypeStr buf len attrType
  (stunAttrGetValue buf sar).map fun value => slice buf value (stunAttrGetLen buf sar).toNat

inductive CredField where
  | realm
  | nonce
  | serverName
deriving DecidableEq

def CredField.capacity : CredField → Nat
  | realm => stunMaxRealmSize + 1
  | nonce => stunMaxNonceSize + 1
  | serverName => stunMaxServerNameSize + 1

structure Credentials where
  realm : Mem
  nonce : Mem
  serverName : Mem
  oauth : Bool

/-- The credentials while they are being overwritten, with every index stored to. -/
structure ChallengeStores where
  creds : Credentials
  written : List (CredField × Nat)

def ChallengeStores.bcopy (st : ChallengeStores) (f : CredField) (off : Nat) (bs : List Byte) :
    ChallengeStores where
  creds := match f with
    | .realm => { st.creds with realm := write st.creds.realm off bs }
    | .nonce => { st.creds with nonce := write st.creds.nonce off bs }
    | .serverName => { st.creds with serverName := write st.creds.serverName off bs }
  written := st.written ++ (List.range bs.length).map fun i => (f, off + i)

structure ChallengeResult where
  ret : Bool
  errCode : Int
  errMsg : Option Mem
  stores : ChallengeStores

def stunIsChallengeResponseStr (buf : Mem) (len : Nat) (errCode : Int) (errMsg : Option Mem)
    (errMsgSize : Nat) (creds : Credentials) : ChallengeResult :=
  let e := stunIsErrorResponseStr buf len (some errCode) errMsg errMsgSize
  let code := e.errCode.getD errCode
  let st : ChallengeStores := ⟨creds, []⟩
  if e.ret && (code == 401 || code == 438) then
    match firstValueStr buf len stunAttributeRealm with
    | none => ⟨false, code, e.errMsg, st⟩
    | some value =>
      let st := (st.bcopy .realm 0 value).bcopy .realm value.length [0]
      -- the server name is copied without a terminating zero
      let third := firstValueStr buf len stunAttributeThirdPartyAuthorization
      let foundOauth := third.isSome
      let st := match third with
        | none => st
        | some name => st.bcopy .serverName 0 name
      match firstValueStr buf len stunAttributeNonce with
      | none => ⟨false, code, e.errMsg, st⟩
      | some value =>
        let st := (st.bcopy .nonce 0 value).bcopy .nonce value.length [0]
        ⟨true, code, e.errMsg, { st with creds := { st.creds with oauth := foundOauth } }⟩
  else ⟨false, code, e.errMsg, st⟩

def isChallengeCode (buf : Mem) (len : Nat) (errCode : Int) : Bool :=
  let e := stunIsErrorResponseStr buf len (some errCode) none 0
  e.ret && (e.errCode.getD errCode == 401 || e.errCode.getD errCode == 438)

theorem stunIsErrorResponseStr_errMsg (buf : Mem) (len : Nat) (errCode : Option Int)
    (errMsg : Option Mem) (size : Nat) :
    (stunIsErrorResponseStr buf len errCode errMsg size).ret =
        (stunIsErrorResponseStr buf len errCode none 0).ret ∧
      (stunIsErrorResponseStr buf len errCode errMsg size).errCode =
        (stunIsErrorResponseStr buf len errCode none 0).errCode := by
  unfold stunIsErrorResponseStr
  cases errCode with
  | none => split <;> [skip; split] <;> exact ⟨rfl, rfl⟩
  | some code =>
    cases stunAttrGetFirstByTypeStr buf len stunAttributeErrorCode with
    | none => split <;> [skip; split] <;> exact ⟨rfl, rfl⟩
    | some sar =>
      simp only
      split <;> [skip; split <;> [split; skip]] <;> exact ⟨rfl, rfl⟩

theorem firstValueStr_ne_nil {buf : Mem} {len : Nat} {attrType : BitVec 16} {v : List Byte}
    (h : firstValueStr buf len attrType = some v) : v ≠ [] := by
  simp only [firstValueStr, Option.map_eq_some_iff] at h
  obtain ⟨value, hvalue, rfl⟩ := h
  cases hs : stunAttrGetFirstByTypeStr buf len attrType with
  | none => simp [hs, stunAttrGetValue] at hvalue
  | some sar =>
    rw [hs, stunAttrGetValue_some] at hvalue
    intro hnil
    have hlen := congrArg List.length hnil
    simp only [slice_length, stunAttrGetLen_some, Int.toNat_natCast, List.length_nil] at hlen
    rw [if_pos hlen] at hvalue
    cases hvalue

def InFields (written : List (CredField × Nat)) : Prop := ∀ w ∈ written, w.2 < w.1.capacity

instance (written : List (CredField × Nat)) : Decidable (InFields written) :=
  inferInstanceAs (Decidable (∀ w ∈ written, w.2 < w.1.capacity))

theorem inFields_bcopy_iff (st : ChallengeStores) (f : CredField) (off : Nat) {bs : List Byte}
    (hbs : bs ≠ []) :
    InFields (st.bcopy f off bs).written ↔
      InFields st.written ∧ off + bs.length ≤ f.capacity := by
  have hpos := List.length_pos_iff.mpr hbs
  simp only [InFields, ChallengeStores.bcopy, List.mem_append, List.mem_map, List.mem_range]
  constructor
  · intro h
    refine ⟨fun w hw => h w (Or.inl hw), ?_⟩
    have hlast := h (f, off + (bs.length - 1)) (Or.inr ⟨bs.length - 1, by omega, rfl⟩)
    simp only at hlast
    omega
  · rintro ⟨hold, hroom⟩ w (hw | ⟨i, hi, rfl⟩)
    · exact hold w hw
    · simp only
      omega

theorem inFields_copyString_iff (st : ChallengeStores) (f : CredField) {bs : List Byte}
    (hbs : bs ≠ []) :
    InFields ((st.bcopy f 0 bs).bcopy f bs.length [0]).written ↔
      InFields st.written ∧ bs.length + 1 ≤ f.capacity := by
  rw [inFields_bcopy_iff _ _ _ (by simp), inFields_bcopy_iff _ _ _ hbs]
  simp only [List.length_cons, List.length_nil]
  constructor
  · rintro ⟨⟨hst, _⟩, hroom⟩
    exact ⟨hst, by omega⟩
  · rintro ⟨hst, hroom⟩
    exact ⟨⟨hst, by omega⟩, by omega⟩

def ChallengeFits (buf : Mem) (len : Nat) (errCode : Int) : Prop :=
  isChallengeCode buf len errCode = true →
    ∀ realm, firstValueStr buf len stunAttributeRealm = some realm →
      realm.length ≤ stunMaxRealmSize ∧
      (∀ name, firstValueStr buf len stunAttributeThirdPartyAuthorization = some name →
        name.length ≤ stunMaxServerNameSize + 1) ∧
      (∀ nonce, firstValueStr buf len stunAttributeNonce = some nonce →
        nonce.length ≤ stunMaxNonceSize)

theorem challenge_stores_in_fields_iff (buf : Mem) (len : Nat) (errCode : Int)
    (errMsg : Option Mem) (errMsgSize : Nat) (creds : Credentials) :
    InFields (stunIsChallengeResponseStr buf len errCode errMsg errMsgSize creds).stores.written ↔
      ChallengeFits buf len errCode := by
  obtain ⟨hret, hcode⟩ := stunIsErrorResponseStr_errMsg buf len (some errCode) errMsg errMsgSize
  have hnil : InFields [] := by simp [InFields]
  simp only [stunIsChallengeResponseStr, ChallengeFits, isChallengeCode, hret, hcode]
  split
  · rename_i hch
    cases hrealm : firstValueStr buf len stunAttributeRealm with
    | none => simp [hnil]
    | some realm =>
      have hr := inFields_copyString_iff ⟨creds, []⟩ .realm (firstValueStr_ne_nil hrealm)
      cases hname : firstValueStr buf len stunAttributeThirdPartyAuthorization with
      | none =>
        cases hnonce : firstValueStr buf len stunAttributeNonce with
        | none =>
          simp only [hr, hch, hnil, CredField.capacity]
          simp
        | some nonce =>
          simp only [inFields_copyString_iff _ .nonce (firstValueStr_ne_nil hnonce), hr, hch, hnil,
            CredField.capacity]
          simp
      | some name =>
        have hs := inFields_bcopy_iff
          (((⟨creds, []⟩ : ChallengeStores).bcopy .realm 0 realm).bcopy .realm realm.length [0])
          .serverName 0 (firstValueStr_ne_nil hname)
        cases hnonce : firstValueStr buf len stunAttributeNonce with
        | none =>
          simp only [hs, hr, hch, hnil, CredField.capacity]
          simp
        | some nonce =>
          simp only [inFields_copyString_iff _ .nonce (firstValueStr_ne_nil hnonce), hs, hr, hch,
            hnil, CredField.capacity]
          simp [and_assoc]
  · rename_i hch
    simp [hnil, hch]

/-- A 401 answer to an Allocate request whose realm is 128 bytes long. -/
def longRealmChallenge : List Byte :=
  [0x01, 0x13, 0x00, 0x8C, 0x21, 0x12, 0xA4, 0x42, 1, 2, 3, 4, 5, 6, 7, 8, 9, 10, 11, 12,
    0x00, 0x09, 0x00, 0x04, 0, 0, 4, 1, 0x00, 0x14, 0x00, 0x80] ++ List.replicate 128 0x61

/-- Its terminating zero is stored one past the end of the realm field. -/
theorem longRealmChallenge_outside_fields :
    ¬ InFields (stunIsChallengeResponseStr (ofList longRealmChallenge) 160 0 (some fun _ => 0) 129
      ⟨fun _ => 0, fun _ => 0, fun _ => 0, false⟩).stores.written := by
  decide +kernel

end TurnClient
