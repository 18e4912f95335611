import TurnClient.Session
import Mathlib.Data.List.TakeWhile

/-!
# What a challenge leaves in the session

`stun_is_challenge_response_str` parses and commits in turns: the realm is
stored before the nonce has been found, and the server name without the zero
that ends it. `challenge_cases` says all a call can do to the four fields.
-/

namespace TurnClient

open ByteMemory
set_option autoImplicit false

/-- A value and the zero behind it, as the two `bcopy` calls store them. -/
def storeString (m : Mem) (v : List Byte) : Mem := write (write m 0 v) v.length [0]

theorem storeString_eq (m : Mem) (v : List Byte) : storeString m v = write m 0 (v ++ [0]) := by
  have h := write_append m 0 v [0]
  rwa [Nat.zero_add] at h

def storeThird (m : Mem) : Option (List Byte) → Mem
  | none => m
  | some name => write m 0 name

theorem storeThird_eq_self_iff (m : Mem) (third : Option (List Byte)) :
    storeThird m third = m ↔ ∀ name, third = some name → slice m 0 name.length = name := by
  cases third with
  | none => simp [storeThird]
  | some name => simp [storeThird, write_eq_self_iff]

/-- Everything a call can do: nothing, a realm and a server name, or all four fields. -/
theorem challenge_cases (buf : Mem) (len : Nat) (errCode : Int) (errMsg : Option Mem)
    (errMsgSize : Nat) (creds : Credentials) :
    let r := stunIsChallengeResponseStr buf len errCode errMsg errMsgSize creds
    let third := firstValueStr buf len stunAttributeThirdPartyAuthorization
    (r.ret = false ∧ r.stores.creds = creds ∧
      (isChallengeCode buf len errCode = false ∨ firstValueStr buf len stunAttributeRealm = none)) ∨
    (r.ret = false ∧ isChallengeCode buf len errCode = true ∧
      firstValueStr buf len stunAttributeNonce = none ∧
      ∃ realm, firstValueStr buf len stunAttributeRealm = some realm ∧
        r.stores.creds = { creds with
          realm := storeString creds.realm realm
          serverName := storeThird creds.serverName third }) ∨
    (r.ret = true ∧ isChallengeCode buf len errCode = true ∧
      ∃ realm nonce, firstValueStr buf len stunAttributeRealm = some realm ∧
        firstValueStr buf len stunAttributeNonce = some nonce ∧
        r.stores.creds = {
          realm := storeString creds.realm realm
          nonce := storeString creds.nonce nonce
          serverName := storeThird creds.serverName third
          oauth := third.isSome }) := by
  obtain ⟨hret, hcode⟩ := stunIsErrorResponseStr_errMsg buf len (some errCode) errMsg errMsgSize
  simp only [stunIsChallengeResponseStr, isChallengeCode, hret, hcode]
  split
  · rename_i hch
    cases hrealm : firstValueStr buf len stunAttributeRealm with
    | none => exact Or.inl ⟨rfl, rfl, Or.inr rfl⟩
    | some realm =>
      cases hnonce : firstValueStr buf len stunAttributeNonce with
      | none =>
        refine Or.inr (Or.inl ⟨rfl, hch, rfl, realm, rfl, ?_⟩)
        cases firstValueStr buf len stunAttributeThirdPartyAuthorization <;> rfl
      | some nonce =>
        refine Or.inr (Or.inr ⟨rfl, hch, realm, nonce, rfl, rfl, ?_⟩)
        cases firstValueStr buf len stunAttributeThirdPartyAuthorization <;> rfl
  · rename_i hch
    exact Or.inl ⟨rfl, rfl, Or.inl (by simpa using hch)⟩

theorem firstValueStr_eq_some_iff (buf : Mem) (len : Nat) (attrType : BitVec 16) (v : List Byte) :
    firstValueStr buf len attrType = some v ↔
      ∃ a, stunAttrGetFirstByTypeStr buf len attrType = some a ∧
        (get16 buf (a + 2)).toNat ≠ 0 ∧ attrValue buf a = v := by
  unfold firstValueStr
  cases stunAttrGetFirstByTypeStr buf len attrType with
  | none => simp [stunAttrGetValue]
  | some a =>
    simp only [stunAttrGetValue_some, stunAttrGetLen_some, Int.toNat_natCast, Option.some.injEq,
      exists_eq_left']
    split
    · rename_i h
      simp [h]
    · rename_i h
      simp [h, attrValue]

/-! ## Accepted challenges -/

/-- The first attribute of a type that has a value. -/
def firstNonEmptyStr (buf : Mem) (len : Nat) (attrType : BitVec 16) : Option Nat :=
  (attrRefs buf len).find? fun a => get16 buf a == attrType && (get16 buf (a + 2)).toNat != 0

/-- The fields hold exactly what the message says, strings with the zero that ends them. -/
structure TakenOver (buf : Mem) (len : Nat) (creds : Credentials) : Prop where
  realm : ∃ a, stunAttrGetFirstByTypeStr buf len stunAttributeRealm = some a ∧
    slice creds.realm 0 ((attrValue buf a).length + 1) = attrValue buf a ++ [0]
  nonce : ∃ a, stunAttrGetFirstByTypeStr buf len stunAttributeNonce = some a ∧
    slice creds.nonce 0 ((attrValue buf a).length + 1) = attrValue buf a ++ [0]
  serverName : ∀ a, firstNonEmptyStr buf len stunAttributeThirdPartyAuthorization = some a →
    cstr creds.serverName 1026 = attrValue buf a
  oauth : creds.oauth = (firstNonEmptyStr buf len stunAttributeThirdPartyAuthorization).isSome

/-- The values are short enough for the fields and the zero behind them. -/
structure ValuesFit (buf : Mem) (len : Nat) : Prop where
  realm : ∀ a, stunAttrGetFirstByTypeStr buf len stunAttributeRealm = some a →
    (attrValue buf a).length ≤ stunMaxRealmSize
  nonce : ∀ a, stunAttrGetFirstByTypeStr buf len stunAttributeNonce = some a →
    (attrValue buf a).length ≤ stunMaxNonceSize
  serverName : ∀ a, firstNonEmptyStr buf len stunAttributeThirdPartyAuthorization = some a →
    (attrValue buf a).length ≤ stunMaxServerNameSize

/-- Copying the server name without a terminator makes no difference: it is the
value of the attribute that is looked at, it has no zero inside, and the byte
behind it is already zero. -/
def ServerNameEnds (buf : Mem) (len : Nat) (creds : Credentials) : Prop :=
  ∀ a, firstNonEmptyStr buf len stunAttributeThirdPartyAuthorization = some a →
    stunAttrGetFirstByTypeStr buf len stunAttributeThirdPartyAuthorization = some a ∧
    (∀ b ∈ attrValue buf a, b ≠ 0) ∧ creds.serverName (attrValue buf a).length = 0

theorem firstNonEmptyStr_of_first {buf : Mem} {len a : Nat} {attrType : BitVec 16}
    (h : stunAttrGetFirstByTypeStr buf len attrType = some a)
    (hlen : (get16 buf (a + 2)).toNat ≠ 0) : firstNonEmptyStr buf len attrType = some a := by
  rw [stunAttrGetFirstByTypeStr_eq_find, List.find?_eq_some_iff_append] at h
  obtain ⟨htype, before, after, hrefs, hbefore⟩ := h
  rw [firstNonEmptyStr, List.find?_eq_some_iff_append]
  refine ⟨by simp [htype, hlen], before, after, hrefs, ?_⟩
  intro b hb
  have hb' := hbefore b hb
  simp only [Bool.not_eq_true'] at hb' ⊢
  rw [hb', Bool.false_and]

theorem firstNonEmptyStr_spec {buf : Mem} {len a : Nat} {attrType : BitVec 16}
    (h : firstNonEmptyStr buf len attrType = some a) : (get16 buf (a + 2)).toNat ≠ 0 := by
  have hfound := List.find?_some h
  simp only [Bool.and_eq_true, bne_iff_ne] at hfound
  exact hfound.2

theorem cstr_write_eq_iff (m : Mem) {cap : Nat} {v : List Byte} (hlen : v.length < cap) :
    cstr (write m 0 v) cap = v ↔ (∀ b ∈ v, b ≠ 0) ∧ m v.length = 0 := by
  obtain ⟨k, rfl⟩ : ∃ k, cap = v.length + (k + 1) := ⟨cap - v.length - 1, by omega⟩
  have hslice : slice (write m 0 v) 0 (v.length + (k + 1)) =
      v ++ m v.length :: slice m (v.length + 1) k := by
    rw [slice_append, slice_write_same, slice_write_disjoint (by omega), Nat.zero_add,
      Nat.add_comm k 1, slice_append]
    rfl
  rw [cstr, hslice]
  constructor
  · intro h
    have hv : ∀ b ∈ v, b ≠ 0 := by
      intro b hb
      rw [← h] at hb
      simpa using List.mem_takeWhile_imp hb
    refine ⟨hv, ?_⟩
    rw [List.takeWhile_append_of_pos (by simpa using hv)] at h
    by_contra hne
    rw [List.takeWhile_cons_of_pos (by simpa using hne)] at h
    have hcount := congrArg List.length h
    simp at hcount
  · rintro ⟨hv, hzero⟩
    rw [List.takeWhile_append_of_pos (by simpa using hv), List.takeWhile_cons_of_neg (by simp [hzero]),
      List.append_nil]

theorem slice_storeString (m : Mem) (v : List Byte) :
    slice (storeString m v) 0 (v.length + 1) = v ++ [0] := by
  have h := slice_write_same m 0 (v ++ [0])
  rw [List.length_append] at h
  rw [storeString_eq]
  exact h

/-- What an accepted challenge leaves in a field whose value comes from the first attribute. -/
theorem stored_first {buf : Mem} {len : Nat} {attrType : BitVec 16} {v : List Byte}
    (h : firstValueStr buf len attrType = some v) (m : Mem) :
    ∃ a, stunAttrGetFirstByTypeStr buf len attrType = some a ∧
      slice (storeString m v) 0 ((attrValue buf a).length + 1) = attrValue buf a ++ [0] := by
  obtain ⟨a, ha, _, rfl⟩ := (firstValueStr_eq_some_iff _ _ _ _).mp h
  exact ⟨a, ha, slice_storeString m _⟩

theorem serverName_taken_over_iff (buf : Mem) (len : Nat) (creds : Credentials)
    (hfit : ValuesFit buf len) :
    let third := firstValueStr buf len stunAttributeThirdPartyAuthorization
    ((∀ a, firstNonEmptyStr buf len stunAttributeThirdPartyAuthorization = some a →
        cstr (storeThird creds.serverName third) 1026 = attrValue buf a) ∧
      third.isSome = (firstNonEmptyStr buf len stunAttributeThirdPartyAuthorization).isSome) ↔
      ServerNameEnds buf len creds := by
  intro third
  cases hne : firstNonEmptyStr buf len stunAttributeThirdPartyAuthorization with
  | none =>
    have hthird : third = none := by
      rw [Option.eq_none_iff_forall_not_mem]
      intro v hv
      obtain ⟨a, ha, hlen, _⟩ := (firstValueStr_eq_some_iff _ _ _ _).mp hv
      rw [firstNonEmptyStr_of_first ha hlen] at hne
      cases hne
    simp [hthird, ServerNameEnds, hne]
  | some a =>
    have hlen := firstNonEmptyStr_spec hne
    have hshort := hfit.serverName a hne
    unfold stunMaxServerNameSize at hshort
    simp only [Option.some.injEq, forall_eq', Option.isSome_some, ServerNameEnds, hne]
    by_cases hfirst :
        stunAttrGetFirstByTypeStr buf len stunAttributeThirdPartyAuthorization = some a
    · have hthird : third = some (attrValue buf a) :=
        (firstValueStr_eq_some_iff _ _ _ _).mpr ⟨a, hfirst, hlen, rfl⟩
      simp only [hthird, storeThird, Option.isSome_some, and_true, hfirst, true_and]
      exact cstr_write_eq_iff _ (by omega)
    · have hthird : third = none := by
        rw [Option.eq_none_iff_forall_not_mem]
        intro v hv
        obtain ⟨b, hb, hblen, _⟩ := (firstValueStr_eq_some_iff _ _ _ _).mp hv
        rw [firstNonEmptyStr_of_first hb hblen] at hne
        exact hfirst (hb.trans hne)
      simp [hthird, hfirst]

theorem challenge_taken_over_iff (buf : Mem) (len : Nat) (errCode : Int) (errMsg : Option Mem)
    (errMsgSize : Nat) (creds : Credentials)
    (hret : (stunIsChallengeResponseStr buf len errCode errMsg errMsgSize creds).ret = true)
    (hfit : ValuesFit buf len) :
    TakenOver buf len
        (stunIsChallengeResponseStr buf len errCode errMsg errMsgSize creds).stores.creds ↔
      ServerNameEnds buf len creds := by
  have hiff := serverName_taken_over_iff buf len creds hfit
  simp only at hiff
  rw [← hiff]
  rcases challenge_cases buf len errCode errMsg errMsgSize creds with
    ⟨hfalse, _⟩ | ⟨hfalse, _⟩ | ⟨_, _, realm, nonce, hrealm, hnonce, hcreds⟩
  · rw [hfalse] at hret
    cases hret
  · rw [hfalse] at hret
    cases hret
  · rw [hcreds]
    constructor
    · intro h
      exact ⟨h.serverName, h.oauth⟩
    · rintro ⟨hname, hoauth⟩
      exact ⟨stored_first hrealm creds.realm, stored_first hnonce creds.nonce, hname, hoauth⟩

/-- A 401 answer with realm "r", nonce "n" and the third-party server "xy". -/
def thirdPartyChallenge : List Byte :=
  responseBytes 0x0113 ([0x00, 0x09, 0x00, 0x04, 0, 0, 4, 1] ++
    [0x00, 0x14, 0x00, 0x01, 0x72, 0, 0, 0] ++ [0x00, 0x15, 0x00, 0x01, 0x6E, 0, 0, 0] ++
    [0x80, 0x2E, 0x00, 0x02, 0x78, 0x79, 0, 0])

/-- The credentials of a session that was told of the third-party server `name` before. -/
def knowingServer (name : List Byte) : Credentials := ⟨fun _ => 0, fun _ => 0, ofList name, true⟩

theorem thirdPartyChallenge_valuesFit : ValuesFit (ofList thirdPartyChallenge) 52 := by
  constructor
  · have hrealm : stunAttrGetFirstByTypeStr (ofList thirdPartyChallenge) 52 stunAttributeRealm =
        some 28 := by decide +kernel
    rw [hrealm]
    rintro a ⟨⟩
    decide +kernel
  · have hnonce : stunAttrGetFirstByTypeStr (ofList thirdPartyChallenge) 52 stunAttributeNonce =
        some 36 := by decide +kernel
    rw [hnonce]
    rintro a ⟨⟩
    decide +kernel
  · have hthird : firstNonEmptyStr (ofList thirdPartyChallenge) 52
        stunAttributeThirdPartyAuthorization = some 44 := by decide +kernel
    rw [hthird]
    rintro a ⟨⟩
    decide +kernel

/-- A session without an earlier server name takes the challenge over exactly. -/
theorem thirdPartyChallenge_taken_over :
    TakenOver (ofList thirdPartyChallenge) 52
      (stunIsChallengeResponseStr (ofList thirdPartyChallenge) 52 0 (some fun _ => 0) 129
        (knowingServer [])).stores.creds := by
  refine (challenge_taken_over_iff _ _ _ _ _ _ (by decide +kernel)
    thirdPartyChallenge_valuesFit).mpr ?_
  have hthird : firstNonEmptyStr (ofList thirdPartyChallenge) 52
      stunAttributeThirdPartyAuthorization = some 44 := by decide +kernel
  unfold ServerNameEnds
  rw [hthird]
  rintro a ⟨⟩
  exact ⟨by decide +kernel, by decide +kernel, by decide +kernel⟩

/-- After the server "abcd", the challenge that names "xy" leaves "xycd". -/
theorem shorter_server_name_keeps_tail :
    let r := stunIsChallengeResponseStr (ofList thirdPartyChallenge) 52 0 (some fun _ => 0) 129
      (knowingServer [0x61, 0x62, 0x63, 0x64])
    r.ret = true ∧ ValuesFit (ofList thirdPartyChallenge) 52 ∧
      ¬ TakenOver (ofList thirdPartyChallenge) 52 r.stores.creds := by
  intro r
  refine ⟨by decide +kernel, thirdPartyChallenge_valuesFit, ?_⟩
  intro h
  have hname := h.serverName 44 (by decide +kernel)
  exact absurd hname (by decide +kernel)

/-! ## Refused challenges -/

/-- No store of a refused challenge makes a difference: there is none, or the
bytes stood in the fields before. -/
def StoresNothingNew (buf : Mem) (len : Nat) (errCode : Int) (creds : Credentials) : Prop :=
  isChallengeCode buf len errCode = true →
    ∀ realm, firstValueStr buf len stunAttributeRealm = some realm →
      slice creds.realm 0 (realm.length + 1) = realm ++ [0] ∧
      ∀ name, firstValueStr buf len stunAttributeThirdPartyAuthorization = some name →
        slice creds.serverName 0 name.length = name

theorem storeString_eq_self_iff (m : Mem) (v : List Byte) :
    storeString m v = m ↔ slice m 0 (v.length + 1) = v ++ [0] := by
  rw [storeString_eq, write_eq_self_iff, List.length_append]
  rfl

theorem refused_challenge_unchanged_iff (buf : Mem) (len : Nat) (errCode : Int)
    (errMsg : Option Mem) (errMsgSize : Nat) (creds : Credentials)
    (hret : (stunIsChallengeResponseStr buf len errCode errMsg errMsgSize creds).ret = false) :
    (stunIsChallengeResponseStr buf len errCode errMsg errMsgSize creds).stores.creds = creds ↔
      StoresNothingNew buf len errCode creds := by
  unfold StoresNothingNew
  rcases challenge_cases buf len errCode errMsg errMsgSize creds with
    ⟨_, hcreds, hnone⟩ | ⟨_, hcode, _, realm, hrealm, hcreds⟩ | ⟨htrue, _⟩
  · rw [hcreds]
    rcases hnone with hcode | hrealm
    · simp [hcode]
    · simp [hrealm]
  · rw [hcreds, ← storeThird_eq_self_iff]
    simp only [hcode, hrealm, Option.some.injEq, forall_eq', forall_const,
      ← storeString_eq_self_iff]
    constructor
    · intro h
      exact ⟨congrArg Credentials.realm h, congrArg Credentials.serverName h⟩
    · rintro ⟨hr, hs⟩
      rw [hr, hs]
  · rw [hret] at htrue
    cases htrue

/-- A 401 answer with realm "r" and no nonce. -/
def noNonceChallenge : List Byte :=
  responseBytes 0x0113 ([0x00, 0x09, 0x00, 0x04, 0, 0, 4, 1] ++
    [0x00, 0x14, 0x00, 0x01, 0x72, 0, 0, 0])

/-- A session that holds this realm already is left as it was. -/
theorem noNonceChallenge_same_realm :
    let creds : Credentials := ⟨ofList [0x72], fun _ => 0, fun _ => 0, false⟩
    (stunIsChallengeResponseStr (ofList noNonceChallenge) 36 0 (some fun _ => 0) 129
      creds).stores.creds = creds := by
  intro creds
  refine (refused_challenge_unchanged_iff _ _ _ _ _ _ (by decide +kernel)).mpr ?_
  intro _ realm hrealm
  have hvalue : firstValueStr (ofList noNonceChallenge) 36 stunAttributeRealm = some [0x72] := by
    decide +kernel
  have hthird : firstValueStr (ofList noNonceChallenge) 36 stunAttributeThirdPartyAuthorization =
      none := by decide +kernel
  rw [hvalue] at hrealm
  cases hrealm
  refine ⟨by decide +kernel, ?_⟩
  rw [hthird]
  rintro name ⟨⟩

/-- A fresh session gets the realm of the refused challenge. -/
theorem refused_challenge_writes_realm :
    let r := stunIsChallengeResponseStr (ofList noNonceChallenge) 36 0 (some fun _ => 0) 129
      ConnInfo.init.creds
    r.ret = false ∧ r.stores.creds ≠ ConnInfo.init.creds := by
  intro r
  refine ⟨by decide +kernel, ?_⟩
  intro h
  have hbyte : r.stores.creds.realm 0 = 0 := by rw [h]; rfl
  exact absurd hbyte (by decide +kernel)

end TurnClient
