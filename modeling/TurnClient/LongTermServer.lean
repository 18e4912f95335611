import TurnClient.ChallengeLoops
import TurnClient.ErrorResponses
import TurnClient.Fingerprint

/-!
# A server with long-term credentials

What a server expects of a request: the name of the account, the realm and the
nonce of the moment, and the HMAC of everything before MESSAGE-INTEGRITY under
the key of name, realm and password. A request without them is challenged, one
with them is granted.
-/

namespace TurnClient

open ByteMemory
set_option autoImplicit false

/-- OpenSSL as documented: every call gives a digest of full size. -/
structure OpenSsl.FullSize (ssl : OpenSsl) : Prop where
  digest : ∀ alg s, (ssl.digest alg s).length = alg.size
  hmac : ∀ alg key msg, ∃ mac, ssl.hmac alg key msg = some mac ∧ mac.length = alg.size

/-- Realm and nonce, as they stand in messages. -/
abbrev Realm := List Byte × List Byte

/-- MESSAGE-INTEGRITY is there and is the HMAC of what stands before it. -/
def signedFor (g : Globals) (realm : List Byte) (m : StunBuffer) : Bool :=
  match stunAttrGetFirstByTypeStr m.buf m.len stunAttributeMessageIntegrity with
  | none => false
  | some sar =>
    (get16 m.buf (sar + 2)).toNat == shaSizeBytes g.shatype &&
      stunCalculateHmac g.ssl (signedBytes m.buf sar (shaSizeBytes g.shatype))
        (longTermKey g.ssl g.gUname.bytes realm g.gUpwd.bytes g.shatype) g.shatype ==
          some (attrValue m.buf sar)

/-- The server knows the account of the client. -/
def admits (g : Globals) (k : Realm) (m : StunBuffer) : Bool :=
  attrStr m.buf m.len stunAttributeUsername == some g.gUname.bytes &&
    attrStr m.buf m.len stunAttributeRealm == some k.1 &&
    attrStr m.buf m.len stunAttributeNonce == some k.2 && signedFor g k.1 m

/-- The realm and nonce a session signs with. -/
def ConnInfo.knownRealm (ci : ConnInfo) : Option Realm :=
  if nonceSet ci then some (realmStr ci, nonceStr ci) else none

/-! ## Signed requests -/

/-- How long a request may be before it is finished: origins, credentials, an access token
and the fingerprint then still fit into the buffer. -/
def requestRoom : Nat := 63200

section Signed

variable {m : StunBuffer} {msgType : BitVec 16} {tid : StunTid} {attrs : List Tlv.Record}

theorem find_plain {pre : List Tlv.Record} (hpre : ∀ r ∈ pre, r.1 ∉ signingTypes) {t : BitVec 16}
    (ht : t ∈ signingTypes) : (pre.find? fun r => r.1 == t) = none := by
  rw [List.find?_eq_none]
  intro r hr
  rw [beq_iff_eq]
  exact fun heq => hpre r hr (heq ▸ ht)

theorem IsMessage.origin (h : IsMessage m msgType tid attrs) (hlen : m.len ≤ requestRoom)
    (g : Globals) :
    ∃ extra, (∀ r ∈ extra, r.1 = stunAttributeOrigin) ∧
      IsMessage (addOrigin g m) msgType tid (attrs ++ extra) ∧ (addOrigin g m).len ≤ m.len + 200 := by
  unfold requestRoom at hlen
  have hc : carleonOrigin.length ≤ 23 := by decide +kernel
  have hu : uffrithOrigin.length ≤ 17 := by decide +kernel
  have hadded : ExtendsBy (fun r => r.1 = stunAttributeOrigin) m msgType tid attrs m.len :=
    h.extendsBy
  unfold addOrigin
  split
  · exact ⟨[], by simp, by simpa using h, by omega⟩
  · obtain ⟨m₁, h₁, e₁⟩ := hadded.addString stunAttributeOrigin _ rfl hc (by omega)
    obtain ⟨m₂, h₂, e₂⟩ := e₁.addString stunAttributeOrigin _ rfl g.origin.fits (by omega)
    obtain ⟨m₃, h₃, e₃⟩ := e₂.addString stunAttributeOrigin _ rfl hu (by omega)
    obtain ⟨⟨extra, hextra, hm⟩, hle⟩ := e₃
    simp only [h₁, h₂, h₃]
    exact ⟨extra, hextra, hm, by omega⟩

theorem hashAlg_size (shatype : ShaType) : shatype.hashAlg.size = shaSizeBytes shatype := by
  cases shatype <;> rfl

/-- The records of signing, the last one apart. -/
def credentialRecords (g : Globals) (k : Realm) : List Tlv.Record :=
  [(stunAttributeUsername, g.gUname.bytes), (stunAttributeNonce, k.2), (stunAttributeRealm, k.1)]

/-- Signing adds the credentials and the HMAC of what is there by then. -/
theorem signed_by_user {g : Globals} (hssl : g.ssl.FullSize) (h : IsMessage m msgType tid attrs)
    (hlen : m.len ≤ requestRoom + 200) {k : Realm} (hrealm : k.1.length ≤ 128)
    (hnonce : k.2.length ≤ 128) (key hmac : Mem) (pwd : List Byte) :
    ∃ m₁ mac, stunAttrAddIntegrityByUserStr g.ssl m g.gUname.bytes k.1 g.gUpwd.bytes k.2 g.shatype
        key hmac pwd = (.ok, m₁) ∧
      mac.length = shaSizeBytes g.shatype ∧ m₁.len ≤ m.len + 1000 ∧
      IsMessage m₁ msgType tid
        (attrs ++ credentialRecords g k ++ [(stunAttributeMessageIntegrity, mac)]) ∧
      stunCalculateHmac g.ssl (slice m₁.buf 0 (20 + Tlv.size (attrs ++ credentialRecords g k)))
        (longTermKey g.ssl g.gUname.bytes k.1 g.gUpwd.bytes g.shatype) g.shatype = some mac := by
  unfold requestRoom at hlen
  obtain ⟨hsize, hmod⟩ := shaSizeBytes_bounds g.shatype
  have htotal : ∀ message key shatype, (stunCalculateHmac g.ssl message key shatype).isSome := by
    intro message key shatype
    obtain ⟨mac, hmac, _⟩ := hssl.hmac shatype.hashAlg key message
    rw [stunCalculateHmac_eq, hmac]
    rfl
  have hadded : ExtendsBy (fun _ => True) m msgType tid attrs m.len := h.extendsBy
  obtain ⟨m₁, hsign, hle⟩ : ∃ m₁, stunAttrAddIntegrityByUserStr g.ssl m g.gUname.bytes k.1
      g.gUpwd.bytes k.2 g.shatype key hmac pwd = (.ok, m₁) ∧ m₁.len ≤ m.len + 1000 :=
    ⟨_, Prod.ext (signedByKey_ok htotal hadded (by omega) g.gUname.fits hrealm hnonce _ _ _ _) rfl,
      (hadded.signedByKey (fun _ _ => trivial) (by omega) g.ssl g.gUname.fits hrealm hnonce _ _ _
        _).len_le⟩
  obtain ⟨m₀, hm₀, hsigning⟩ := h.signing_eq hssl.digest hsign
  obtain ⟨mac, hmac', hmacLen⟩ := hssl.hmac g.shatype.hashAlg
    (longTermKey g.ssl g.gUname.bytes k.1 g.gUpwd.bytes g.shatype)
    (slice m₀.buf 0 (m₀.len - 4 - shaSizeBytes g.shatype))
  rw [hashAlg_size] at hmacLen
  have hfill := (hsigning g.ssl.hmac).symm.trans hsign
  rw [hmac', fillDigest, ← hmacLen, slice_ofList] at hfill
  have hm₁ : m₁ = { m₀ with buf := write m₀.buf (m₀.len - mac.length) mac } :=
    (congrArg Prod.snd hfill).symm
  have hjunk : (slice hmac 0 (shaSizeBytes g.shatype)).length = mac.length := by
    rw [slice_length, hmacLen]
  have hset := hm₀.setLast mac hjunk.symm (by rw [slice_length]; exact hmod)
  rw [hjunk, ← hm₁] at hset
  refine ⟨m₁, mac, hsign, hmacLen, hle, hset, ?_⟩
  have hlen₀ := hm₀.len_eq
  have hpad : Tlv.pad4 mac.length = mac.length := by
    unfold Tlv.pad4
    omega
  rw [Tlv.size_append, Tlv.size, Tlv.size, hjunk, hpad] at hlen₀
  have hstart : 20 + Tlv.size (attrs ++ credentialRecords g k) =
      m₀.len - 4 - shaSizeBytes g.shatype := by
    unfold credentialRecords
    omega
  rw [stunCalculateHmac_eq, ← hmac', hstart, hm₁, slice_write_disjoint (by omega)]

/-- A request of a session with a nonce: the fingerprint stands behind the signed part. -/
theorem signed_request {g : Globals} (hssl : g.ssl.FullSize) (hoauth : g.oauth = false)
    (h : IsMessage m msgType tid attrs) (hlen : m.len ≤ requestRoom)
    (hplain : ∀ r ∈ attrs, r.1 ∉ signingTypes) (c : Choice) {ci : ConnInfo}
    (hset : nonceSet ci = true) :
    ∃ m' pre mac crc, finishRequest g c ci m = (0, ci, m') ∧ (∀ r ∈ pre, r.1 ∉ signingTypes) ∧
      mac.length = shaSizeBytes g.shatype ∧
      IsMessage m' msgType tid (pre ++ credentialRecords g (realmStr ci, nonceStr ci) ++
        [(stunAttributeMessageIntegrity, mac)] ++ [(stunAttributeFingerprint, crc)]) ∧
      stunCalculateHmac g.ssl (signedBytes m'.buf (20 + Tlv.size (pre ++ credentialRecords g
        (realmStr ci, nonceStr ci))) (shaSizeBytes g.shatype))
          (longTermKey g.ssl g.gUname.bytes (realmStr ci) g.gUpwd.bytes g.shatype) g.shatype =
        some mac := by
  obtain ⟨origins, horigins, hm, hle⟩ := h.origin hlen g
  obtain ⟨m₁, mac, hsign, hmacLen, hle₁, hm₁, hmac⟩ := signed_by_user (k := (realmStr ci,
    nonceStr ci)) hssl hm (by omega) (cstr_length _ _) (cstr_length _ _) (c.junk 2) (c.junk 1)
    c.junkPwd
  unfold requestRoom at hlen
  have hm' := hm₁.fingerprinted (by unfold maxStunMessageSize; omega)
  generalize hpre : attrs ++ origins ++ credentialRecords g (realmStr ci, nonceStr ci) = pre
    at hm₁ hmac
  obtain ⟨_, hmod⟩ := shaSizeBytes_bounds g.shatype
  have hmacMod : mac.length % 4 = 0 := by
    rw [hmacLen]
    exact hmod
  have hpad : Tlv.pad4 mac.length = mac.length := by
    unfold Tlv.pad4
    omega
  have hpos : 20 ≤ mac.length := by
    rw [hmacLen]
    cases g.shatype <;> decide
  have hlen₁ := hm₁.len_eq
  rw [Tlv.size_append, Tlv.size, Tlv.size, hpad] at hlen₁
  have hstart : KeepsStart m₁ (20 + Tlv.size pre + 4) m₁ :=
    ⟨hm₁.commandLen, hm₁.len_mod, Nat.le_refl _, fun _ _ _ _ => rfl⟩
  have hbytes := signedBytes_kept hm₁ hmacMod (hstart.fingerprint (by omega))
  rw [hmacLen] at hbytes
  refine ⟨stunAttrAddFingerprintStr m₁, attrs ++ origins, mac, _, ?_, ?_, hmacLen, hm', ?_⟩
  · unfold finishRequest addIntegrity
    rw [if_pos hset, hoauth]
    simp only [Bool.false_and, Bool.false_eq_true, if_false, hsign]
    rw [if_neg (by decide)]
  · intro r hr
    rcases List.mem_append.mp hr with hr | hr
    · exact hplain r hr
    · rw [horigins r hr]
      decide
  · rw [hpre, hbytes]
    exact hmac

/-- A request of a session without a nonce is not signed. -/
theorem unsigned_request {g : Globals} (h : IsMessage m msgType tid attrs)
    (hlen : m.len ≤ requestRoom)
    (hplain : ∀ r ∈ attrs, r.1 ∉ signingTypes) (c : Choice) {ci : ConnInfo}
    (hset : nonceSet ci = false) :
    ∃ m' pre crc, finishRequest g c ci m = (0, ci, m') ∧ (∀ r ∈ pre, r.1 ∉ signingTypes) ∧
      IsMessage m' msgType tid (pre ++ [(stunAttributeFingerprint, crc)]) := by
  obtain ⟨origins, horigins, hm, hle⟩ := h.origin hlen g
  unfold requestRoom at hlen
  have hm' := hm.fingerprinted (by unfold maxStunMessageSize; omega)
  refine ⟨stunAttrAddFingerprintStr (addOrigin g m), attrs ++ origins, _, ?_, ?_, hm'⟩
  · unfold finishRequest addIntegrity
    rw [if_neg (by simp [hset])]
    simp only
    rw [if_neg (by decide)]
  · intro r hr
    rcases List.mem_append.mp hr with hr | hr
    · exact hplain r hr
    · rw [horigins r hr]
      decide

/-- A request is admitted exactly when the session knows the realm and the nonce of the moment. -/
theorem finishRequest_admits {g : Globals} (hssl : g.ssl.FullSize) (hoauth : g.oauth = false)
    (h : IsMessage m msgType tid attrs) (hlen : m.len ≤ requestRoom)
    (hplain : ∀ r ∈ attrs, r.1 ∉ signingTypes) (c : Choice) (ci : ConnInfo) :
    ∃ m', finishRequest g c ci m = (0, ci, m') ∧
      ∀ k, admits g k m' = true ↔ ci.knownRealm = some k := by
  unfold ConnInfo.knownRealm
  cases hset : nonceSet ci with
  | false =>
    obtain ⟨m', pre, crc, hrun, hpre, hm'⟩ := unsigned_request h hlen hplain c hset
    refine ⟨m', hrun, fun k => ?_⟩
    have hname : attrStr m'.buf m'.len stunAttributeUsername = none := by
      rw [hm'.attrStr_find, List.find?_append, find_plain hpre (by decide)]
      rfl
    simp [admits, hname]
  | true =>
    obtain ⟨m', pre, mac, crc, hrun, hpre, hmacLen, hm', hmac⟩ := signed_request hssl hoauth h hlen
      hplain c hset
    refine ⟨m', hrun, fun k => ?_⟩
    have hvalue : ∀ t ∈ signingTypes, attrStr m'.buf m'.len t = (((credentialRecords g (realmStr ci,
        nonceStr ci) ++ [(stunAttributeMessageIntegrity, mac)] ++ [(stunAttributeFingerprint,
          crc)]).find? fun r => r.1 == t).map Prod.snd) := by
      intro t ht
      rw [hm'.attrStr_find, List.append_assoc, List.append_assoc, List.find?_append,
        find_plain hpre ht, Option.none_or, List.append_assoc]
    have hname : attrStr m'.buf m'.len stunAttributeUsername = some g.gUname.bytes :=
      hvalue _ (by decide)
    have hrealm : attrStr m'.buf m'.len stunAttributeRealm = some (realmStr ci) :=
      hvalue _ (by decide)
    have hnonce : attrStr m'.buf m'.len stunAttributeNonce = some (nonceStr ci) :=
      hvalue _ (by decide)
    have hsigned : signedFor g (realmStr ci) m' = true := by
      have hne : ∀ r ∈ pre ++ credentialRecords g (realmStr ci, nonceStr ci),
          r.1 ≠ stunAttributeMessageIntegrity := by
        intro r hr
        rcases List.mem_append.mp hr with hr | hr
        · exact fun heq => hpre r hr (by rw [heq]; decide)
        · simp only [credentialRecords, List.mem_cons, List.not_mem_nil, or_false] at hr
          rcases hr with rfl | rfl | rfl <;> simp only <;> decide
      rw [List.append_assoc, List.singleton_append] at hm'
      obtain ⟨hfirst, _, hfield, hval⟩ :=
        hm'.firstByType (r := (stunAttributeMessageIntegrity, mac)) hne
      rw [hmacLen] at hfield hval
      simp only [signedFor, hfirst, hfield, beq_self_eq_true, Bool.true_and, hmac, attrValue, hval]
    rw [if_pos rfl]
    constructor
    · intro hadmits
      simp only [admits, hrealm, hnonce, Bool.and_eq_true, beq_iff_eq, Option.some.injEq] at hadmits
      rw [hadmits.1.1.2, hadmits.1.2]
    · rintro ⟨rfl⟩
      simp only [admits, hname, hrealm, hnonce, hsigned, beq_self_eq_true, Bool.and_self]

end Signed

/-! ## Answers -/

/-- A text that fits into a field of 128 bytes with its terminating zero. -/
def FitsField (v : List Byte) : Prop := v ≠ [] ∧ v.length ≤ 127 ∧ ∀ b ∈ v, b ≠ 0

/-- What a server asks for at some moment. -/
structure ServerRealm where
  realm : List Byte
  nonce : List Byte
  realm_fits : FitsField realm
  nonce_fits : FitsField nonce

def ServerRealm.key (k : ServerRealm) : Realm := (k.realm, k.nonce)

structure IsChallenge (k : ServerRealm) (r : StunBuffer) : Prop where
  received : 0 < r.len
  notSuccess : stunIsSuccessResponseStr r.buf r.len = false
  code : isChallengeCode r.buf r.len 0 = true
  realm : firstValueStr r.buf r.len stunAttributeRealm = some k.realm
  nonce : firstValueStr r.buf r.len stunAttributeNonce = some k.nonce
  noThird : firstValueStr r.buf r.len stunAttributeThirdPartyAuthorization = none

/-- A success response that is signed. -/
structure IsGrant (g : Globals) (r : StunBuffer) : Prop where
  received : 0 < r.len
  success : stunIsSuccessResponseStr r.buf r.len = true
  signed : ∃ sar, stunAttrGetFirstByTypeStr r.buf r.len stunAttributeMessageIntegrity = some sar ∧
    (get16 r.buf (sar + 2)).toNat = shaSizeBytes g.shatype

/-- What a server makes of a request, by what it asks for at that moment. -/
structure TurnServer (g : Globals) where
  answer : ServerRealm → StunBuffer → StunBuffer
  challenges : ∀ k m, admits g k.key m = false → IsChallenge k (answer k m)
  grants : ∀ k m, admits g k.key m = true → IsGrant g (answer k m)

/-- A turn in which this message arrives. -/
def Choice.answered (c : Choice) (r : StunBuffer) : Choice :=
  { c with recvRet := r.len, recvBuf := r.buf }

theorem cstr_fits {v : List Byte} (h : FitsField v) (m : Mem) : cstr (storeString m v) 128 = v := by
  obtain ⟨_, hlen, hzero⟩ := h
  rw [cstr_storeString m (by omega)]
  exact List.takeWhile_eq_self_iff.mpr fun b hb => by simpa using hzero b hb

theorem storeString_ne_zero {v : List Byte} (h : FitsField v) (m : Mem) :
    storeString m v 0 ≠ 0 := by
  obtain ⟨hne, _, hzero⟩ := h
  obtain ⟨b, bs, rfl⟩ := List.exists_cons_of_ne_nil hne
  rw [storeString_eq]
  simpa [write] using hzero b List.mem_cons_self

/-- A session that is challenged knows the realm and the nonce of the challenge. -/
theorem receive_of_challenge {k : ServerRealm} {r : StunBuffer} (h : IsChallenge k r) (c : Choice)
    (s : Client) :
    ∃ creds, receive (c.answered r) s = .challenge { s with
        received := s.received ++ [r], info := { s.info with creds := creds } } ∧
      ({ s.info with creds := creds } : ConnInfo).knownRealm = some k.key := by
  generalize hres : stunIsChallengeResponseStr r.buf r.len 0 (some (c.junk 3)) 129 s.info.creds =
    res
  have hfits : InFields res.stores.written := by
    rw [← hres, challenge_stores_in_fields_iff]
    intro _ realm hrealm
    rw [h.realm, Option.some.injEq] at hrealm
    rw [h.noThird, h.nonce, ← hrealm]
    refine ⟨k.realm_fits.2.1, by simp, ?_⟩
    rintro nonce ⟨rfl⟩
    exact k.nonce_fits.2.1
  rcases challenge_cases r.buf r.len 0 (some (c.junk 3)) 129 s.info.creds with
    ⟨_, _, hcode | hrealm⟩ | ⟨_, _, hnonce, _⟩ | ⟨hret, _, realm, nonce, hrealm, hnonce, hcreds⟩
  · rw [h.code] at hcode
    cases hcode
  · rw [h.realm] at hrealm
    cases hrealm
  · rw [h.nonce] at hnonce
    cases hnonce
  · rw [h.realm, Option.some.injEq] at hrealm
    rw [h.nonce, Option.some.injEq] at hnonce
    subst hrealm hnonce
    rw [hres] at hret hcreds
    have hpos := h.received
    refine ⟨res.stores.creds, ?_, ?_⟩
    · unfold receive Choice.answered
      simp only
      rw [if_neg (by omega), Int.toNat_natCast, if_neg (by simp [h.notSuccess]), hres,
        if_neg (not_not.mpr hfits), if_pos hret]
    · unfold ConnInfo.knownRealm nonceSet realmStr nonceStr
      rw [hcreds]
      simp only [cstr_fits k.realm_fits, cstr_fits k.nonce_fits, ServerRealm.key]
      rw [if_pos (by simpa using storeString_ne_zero k.nonce_fits s.info.creds.nonce)]

/-- A grant passes the check of every session. -/
theorem receive_of_grant {g : Globals} (hssl : g.ssl.FullSize) (hsha : g.shatype ≠ .error)
    {r : StunBuffer} (h : IsGrant g r) (c : Choice) (s : Client) :
    receive (c.answered r) s = .success r { s with received := s.received ++ [r] } ∧
      ∀ t : Client, ∃ checks, 0 ≤ (t.authenticate g (c.answered r) r).1 ∧
        (t.authenticate g (c.answered r) r).2 = { t with checks := checks } := by
  have hpos := h.received
  constructor
  · unfold receive Choice.answered
    simp only
    rw [if_neg (by omega), Int.toNat_natCast, if_pos h.success]
  · intro t
    unfold Client.authenticate
    split
    · refine ⟨_, ?_, rfl⟩
      obtain ⟨sar, hfirst, hlen⟩ := h.signed
      refine (checkIntegrity_eq g _ t.info r).2.mpr ⟨sar, hfirst, hlen, hsha, ?_⟩
      rw [stunCalculateHmac_eq]
      obtain ⟨mac, hmac, _⟩ := hssl.hmac g.shatype.hashAlg (sessionKey g (c.answered r) t.info)
        (signedBytes r.buf sar (shaSizeBytes g.shatype))
      rw [hmac]
      rfl
    · exact ⟨t.checks, Int.le_refl 0, rfl⟩

/-! ## A server made of the library -/

/-- Unauthorized, or a stale nonce. -/
def challengeFor (k : ServerRealm) (m : StunBuffer) : StunBuffer :=
  let r := stunInitErrorResponseStr (stunGetMethodStr m.buf m.len) (fun _ => 0) countingTid
    (if (attrStr m.buf m.len stunAttributeNonce).isSome then 438 else 401) none
    (some (stunTidFromMessageStr m.buf))
  let r := (stunAttrAddString r stunAttributeNonce k.nonce).2
  (stunAttrAddString r stunAttributeRealm k.realm).2

/-- What the server lends to an admitted Allocate request. -/
structure Lending where
  relayed : IoaAddr
  family : relayed.inetOrInet6
  lifetime : BitVec 32
  maxLifetime : BitVec 32
  reservationToken : BitVec 64

def Lending.args (lent : Lending) (tid : StunTid) : AllocateResponseArgs where
  tid := some tid
  relayedAddr1 := some lent.relayed
  relayedAddr2 := none
  reflexiveAddr := none
  lifetime := lent.lifetime
  maxLifetime := lent.maxLifetime
  errorCode := 0
  reason := none
  reservationToken := lent.reservationToken
  mobileId := none

def unsignedGrant (lent : Lending) (m : StunBuffer) : StunBuffer :=
  let tid := stunTidFromMessageStr m.buf
  let method := stunGetMethodStr m.buf m.len
  if method = stunMethodAllocate then
    (stunSetAllocateResponseStr addrMappings (fun _ => 0) countingTid (lent.args tid)).2
  else stunInitSuccessResponseStr method (fun _ => 0) countingTid (some tid)

def grantFor (g : Globals) (lent : Lending) (k : ServerRealm) (m : StunBuffer) : StunBuffer :=
  (stunAttrAddIntegrityStr g.ssl .longTerm (unsignedGrant lent m)
    (ofList (longTermKey g.ssl g.gUname.bytes k.realm g.gUpwd.bytes g.shatype)) [] g.shatype
    fun _ => 0).2

theorem firstValueStr_of_attrStr {buf : Mem} {len : Nat} {t : BitVec 16} {v : List Byte}
    (h : attrStr buf len t = some v) (hne : v ≠ []) : firstValueStr buf len t = some v := by
  obtain ⟨a, ha, rfl⟩ := Option.map_eq_some_iff.mp h
  refine (firstValueStr_eq_some_iff _ _ _ _).mpr ⟨a, ha, fun hzero => hne ?_, rfl⟩
  rw [attrValue, hzero, slice_zero]

theorem firstValueStr_of_attrStr_none {buf : Mem} {len : Nat} {t : BitVec 16}
    (h : attrStr buf len t = none) : firstValueStr buf len t = none := by
  rw [attrStr, Option.map_eq_none_iff] at h
  rw [firstValueStr, h]
  rfl

theorem not_success_of_error {msgType : BitVec 16} (h : isStunErrResp msgType = true) :
    isStunSuccessResp msgType = false := by
  unfold isStunErrResp at h
  unfold isStunSuccessResp
  rw [beq_iff_eq] at h
  rw [h]
  decide

theorem challengeCode_of_records {m : StunBuffer} {method : BitVec 16} {tid : StunTid}
    {errorCode : BitVec 16} {text : List Byte} {rest : List Tlv.Record}
    (h : IsMessage m (stunMakeErrorResponse method &&& 0x3FFF) tid
      ((stunAttributeErrorCode, errorValue errorCode text) :: rest))
    (hcode : errorCode = 401 ∨ errorCode = 438) : isChallengeCode m.buf m.len 0 = true := by
  have htype := and_3FFF_lt (stunMakeErrorResponse method)
  obtain ⟨hfirst, _, hfield, hvalue⟩ := @IsMessage.firstByType m _ tid [] rest _ h (by simp)
  simp only [Tlv.size, Nat.add_zero, errorValue_length] at hfirst hfield
  obtain ⟨hfour, _⟩ := (slice_eq_append_iff _ _ _ _).mp hvalue
  obtain ⟨_, _, hclass, hnumber⟩ : m.buf 24 = 0 ∧ m.buf 25 = 0 ∧
      m.buf 26 = BitVec.ofNat 8 (errorCode.toNat / 100) ∧
      m.buf 27 = BitVec.ofNat 8 (errorCode.toNat % 100) := by
    simpa [slice, List.range_succ, Tlv.size] using hfour
  unfold isChallengeCode stunIsErrorResponseStr
  rw [h.not_channel htype, h.msgType_eq, stunMakeErrorResponse_class, hfirst]
  simp only [Bool.false_eq_true, if_false, if_true, hfield]
  rw [if_pos (by omega), hclass, hnumber]
  rcases hcode with rfl | rfl <;> rfl

theorem challengeFor_isChallenge (k : ServerRealm) (m : StunBuffer) :
    IsChallenge k (challengeFor k m) := by
  generalize hcode : (if (attrStr m.buf m.len stunAttributeNonce).isSome then (438 : BitVec 16)
    else 401) = code
  have hcode' : code = 401 ∨ code = 438 := by
    rw [← hcode]
    split <;> simp
  have h₀ := isMessage_errorResponse (stunGetMethodStr m.buf m.len) (fun _ => 0) countingTid code
    none (some (stunTidFromMessageStr m.buf))
  have htext : ((reasonText code none).take 508).length ≤ 508 := List.length_take_le _ _
  have hlen₀ := h₀.len_eq
  have hpad := Tlv.pad4_lt ((reasonText code none).take 508).length
  have hpad' := Tlv.pad4_mod ((reasonText code none).take 508).length
  simp only [Tlv.size, errorValue_length] at hlen₀
  have hbound : Tlv.pad4 (4 + Tlv.pad4 ((reasonText code none).take 508).length) ≤ 520 := by
    have := Tlv.pad4_lt (4 + Tlv.pad4 ((reasonText code none).take 508).length)
    omega
  obtain ⟨_, hnonceLen, _⟩ := k.nonce_fits
  obtain ⟨_, hrealmLen, _⟩ := k.realm_fits
  have hn := attrBytes_ofList k.nonce
  have hr := attrBytes_ofList k.realm
  obtain ⟨m₁, h₁, e₁, hle₁⟩ := h₀.add_ok stunAttributeNonce (some (ofList k.nonce)) k.nonce.length
    (by rw [hn]; unfold maxStunMessageSize; omega)
  rw [hn] at e₁ hle₁
  obtain ⟨m₂, h₂, e₂, hle₂⟩ := e₁.add_ok stunAttributeRealm (some (ofList k.realm)) k.realm.length
    (by rw [hr]; unfold maxStunMessageSize; omega)
  rw [hr] at e₂
  have hbuilt : challengeFor k m = m₂ := by
    simp only [challengeFor, hcode, stunAttrAddString, h₁, h₂]
  rw [hbuilt]
  have htype := and_3FFF_lt (stunMakeErrorResponse (stunGetMethodStr m.buf m.len))
  simp only [List.cons_append, List.nil_append] at e₂
  refine ⟨by rw [e₂.len_eq]; omega, ?_, challengeCode_of_records e₂ hcode', ?_, ?_, ?_⟩
  · rw [stunIsSuccessResponseStr, e₂.msgType_eq,
      not_success_of_error (stunMakeErrorResponse_class _), Bool.and_false]
  · exact firstValueStr_of_attrStr (e₂.attrStr_find _) k.realm_fits.1
  · exact firstValueStr_of_attrStr (e₂.attrStr_find _) k.nonce_fits.1
  · exact firstValueStr_of_attrStr_none (e₂.attrStr_find _)

theorem Lending.relayed_known (lent : Lending) : lent.relayed.known = true := by
  rcases lent.family with h | h <;> simp [IoaAddr.known, h]

theorem responseRecords_lent (lent : Lending) (tid : StunTid) :
    responseRecords tid (lent.args tid) =
      addrRecord tid stunAttributeXorRelayedAddress lent.relayed ::
        (tokenRecords lent.reservationToken ++ [(stunAttributeLifetime,
          be32 (responseLifetime lent.lifetime lent.maxLifetime))]) := rfl

theorem responseRecords_lent_plain (lent : Lending) (tid : StunTid) :
    ∀ r ∈ responseRecords tid (lent.args tid), r.1 ∉ signingTypes := by
  intro r hr
  rw [responseRecords_lent, List.mem_cons, List.mem_append, List.mem_singleton] at hr
  rcases hr with rfl | hr | rfl
  · exact (by decide : stunAttributeXorRelayedAddress ∉ signingTypes)
  · unfold tokenRecords at hr
    split at hr
    · rw [List.mem_singleton.mp hr]
      exact (by decide : stunAttributeReservationToken ∉ signingTypes)
    · cases hr
  · exact (by decide : stunAttributeLifetime ∉ signingTypes)

theorem size_responseRecords_lent (lent : Lending) (tid : StunTid) :
    Tlv.size (responseRecords tid (lent.args tid)) ≤ 1000 := by
  have haddr := size_addrRecords tid stunAttributeXorRelayedAddress [lent.relayed]
  simp only [List.map_cons, List.map_nil, Tlv.size, List.length_cons, List.length_nil] at haddr
  have htoken : Tlv.size (tokenRecords lent.reservationToken) ≤ 12 := by
    unfold tokenRecords
    split <;> simp [Tlv.size, Tlv.pad4, be64]
  rw [responseRecords_lent]
  simp only [Tlv.size, Tlv.size_append, be32_length, Tlv.pad4] at haddr htoken ⊢
  omega

theorem isMessage_unsignedGrant (lent : Lending) (m : StunBuffer) :
    ∃ attrs, IsMessage (unsignedGrant lent m)
        (stunMakeSuccessResponse (stunGetMethodStr m.buf m.len) &&& 0x3FFF)
        (stunTidFromMessageStr m.buf) attrs ∧
      (∀ r ∈ attrs, r.1 ∉ signingTypes) ∧ Tlv.size attrs ≤ 1000 ∧
      (stunGetMethodStr m.buf m.len = stunMethodAllocate →
        attrs = responseRecords (stunTidFromMessageStr m.buf)
          (lent.args (stunTidFromMessageStr m.buf))) := by
  unfold unsignedGrant
  by_cases hmethod : stunGetMethodStr m.buf m.len = stunMethodAllocate
  · have hticket :
        (ticketBytes ((lent.args (stunTidFromMessageStr m.buf)).mobileId.getD [])).length ≤ 60000 :=
      Nat.zero_le _
    obtain ⟨m', hbuild⟩ := stunSetAllocateResponseStr_builds (fun _ => 0) countingTid
      (stunTidFromMessageStr m.buf) (lent.args (stunTidFromMessageStr m.buf)) rfl rfl
      (fun a ha => by rw [List.mem_singleton.mp ha]; exact lent.relayed_known)
      (fun a ha => absurd ha List.not_mem_nil) hticket
    obtain ⟨hm', _⟩ := stunSetAllocateResponseStr_ok rfl rfl hbuild
    simp only [hmethod, if_true, hbuild]
    exact ⟨_, hm', responseRecords_lent_plain lent _, size_responseRecords_lent lent _,
      fun _ => rfl⟩
  · simp only [hmethod, if_false]
    exact ⟨[], isMessage_init .success _ _ _ (some _), by simp, by simp [Tlv.size],
      fun h => h.elim⟩

/-- What the server's signature adds. -/
theorem isMessage_grantFor {g : Globals} (hssl : g.ssl.FullSize) (lent : Lending) (k : ServerRealm)
    (m : StunBuffer) :
    ∃ attrs mac, IsMessage (grantFor g lent k m)
        (stunMakeSuccessResponse (stunGetMethodStr m.buf m.len) &&& 0x3FFF)
        (stunTidFromMessageStr m.buf) (attrs ++ [(stunAttributeMessageIntegrity, mac)]) ∧
      mac.length = shaSizeBytes g.shatype ∧ (∀ r ∈ attrs, r.1 ∉ signingTypes) ∧
      (grantFor g lent k m).len < maxStunMessageSize ∧
      (stunGetMethodStr m.buf m.len = stunMethodAllocate →
        attrs = responseRecords (stunTidFromMessageStr m.buf)
          (lent.args (stunTidFromMessageStr m.buf))) := by
  obtain ⟨attrs, h, hplain, hsize, hrecords⟩ := isMessage_unsignedGrant lent m
  obtain ⟨hle, hmod⟩ := shaSizeBytes_bounds g.shatype
  have hlen := h.len_eq
  have hbytes : attrBytes (some fun _ => (0 : Byte)) (shaSizeBytes g.shatype : Int) =
      slice (fun _ => 0) 0 (shaSizeBytes g.shatype) := rfl
  obtain ⟨m₁, h₁, e₁, hle₁⟩ := h.add_ok stunAttributeMessageIntegrity (some fun _ => 0)
    (shaSizeBytes g.shatype) (by rw [hbytes, slice_length]; unfold maxStunMessageSize; omega)
  rw [hbytes] at e₁ hle₁
  obtain ⟨mac, hmac, hmacLen⟩ := hssl.hmac g.shatype.hashAlg (slice (ofList (longTermKey g.ssl
    g.gUname.bytes k.realm g.gUpwd.bytes g.shatype)) 0 (getHmackeySize g.shatype))
    (slice m₁.buf 0 (m₁.len - 4 - shaSizeBytes g.shatype))
  rw [hashAlg_size] at hmacLen
  have hset := e₁.setLast mac (by rw [slice_length, hmacLen]) (by rw [slice_length]; exact hmod)
  rw [slice_length] at hset
  have hbuilt : grantFor g lent k m =
      { m₁ with buf := write m₁.buf (m₁.len - shaSizeBytes g.shatype) mac } := by
    have hfull : slice (ofList mac) 0 (shaSizeBytes g.shatype) = mac := by
      rw [← hmacLen, slice_ofList]
    simp only [grantFor, stunAttrAddIntegrityStr, h₁, Rc.andThen, stunCalculateHmac_eq]
    rw [if_neg (by decide), hmac]
    simp only [hfull]
  rw [hbuilt]
  rw [slice_length] at hle₁
  exact ⟨attrs, mac, hset, hmacLen, hplain, by unfold maxStunMessageSize; simp only; omega,
    hrecords⟩

theorem grantFor_isGrant {g : Globals} (hssl : g.ssl.FullSize) (lent : Lending) (k : ServerRealm)
    (m : StunBuffer) : IsGrant g (grantFor g lent k m) := by
  obtain ⟨attrs, mac, hm, hmacLen, hplain, hlt, _⟩ := isMessage_grantFor hssl lent k m
  have hwf := wellFormed_of_isMessage (c := .success) hm hlt
  refine ⟨by rw [hm.len_eq]; omega, by rw [hwf.success]; rfl, 20 + Tlv.size attrs, ?_⟩
  obtain ⟨hfirst, _, hfield, _⟩ := hm.firstByType (r := (stunAttributeMessageIntegrity, mac))
    fun r hr heq => hplain r hr (by rw [heq]; exact (by decide :
      stunAttributeMessageIntegrity ∈ signingTypes))
  exact ⟨hfirst, hfield.trans hmacLen⟩

/-- A server that also lends relayed addresses. -/
structure RelayServer (g : Globals) extends TurnServer g where
  relayed : IoaAddr
  lends : ∀ k m, admits g k.key m = true → stunGetMethodStr m.buf m.len = stunMethodAllocate →
    ∀ daf, relayWanted daf relayed = true →
      (scanRelay daf (answer k m).buf (attrRefs (answer k m).buf (answer k m).len)).2 =
        .found relayed

theorem grantFor_lends {g : Globals} (hssl : g.ssl.FullSize) (lent : Lending) (k : ServerRealm)
    (m : StunBuffer) (hmethod : stunGetMethodStr m.buf m.len = stunMethodAllocate)
    (daf : AddressFamilyValue) (hwanted : relayWanted daf (onWire lent.relayed) = true) :
    let r := grantFor g lent k m
    (scanRelay daf r.buf (attrRefs r.buf r.len)).2 = .found (onWire lent.relayed) := by
  obtain ⟨attrs, mac, hm, _, _, _, hrecords⟩ := isMessage_grantFor hssl lent k m
  obtain ⟨v, hv⟩ := stunAddrEncode_known lent.relayed_known
    (isXored stunAttributeXorRelayedAddress) stunMagicCookie (stunTidFromMessageStr m.buf)
  generalize hrest : tokenRecords lent.reservationToken ++ [(stunAttributeLifetime,
    be32 (responseLifetime lent.lifetime lent.maxLifetime)), (stunAttributeMessageIntegrity, mac)] =
      rest
  have hall : attrs ++ [(stunAttributeMessageIntegrity, mac)] =
      [lent.relayed].map (addrRecord (stunTidFromMessageStr m.buf)
        stunAttributeXorRelayedAddress) ++ rest := by
    rw [hrecords hmethod, responseRecords_lent, ← hrest]
    simp
  have hother : ∀ r ∈ rest, r.1 ≠ stunAttributeXorRelayedAddress := by
    intro r hr
    rw [← hrest, List.mem_append, tokenRecords] at hr
    rcases hr with hr | hr
    · split at hr
      · rw [List.mem_singleton.mp hr]
        exact (by decide : stunAttributeReservationToken ≠ stunAttributeXorRelayedAddress)
      · cases hr
    · simp only [List.mem_cons, List.not_mem_nil, or_false] at hr
      rcases hr with rfl | rfl <;> simp only <;> decide
  rw [hall] at hm
  have hfam : ∀ a ∈ [lent.relayed], a.inetOrInet6 := by
    intro a ha
    rw [List.mem_singleton.mp ha]
    exact lent.family
  have henc : ∀ a ∈ [lent.relayed], Encodes (stunTidFromMessageStr m.buf)
      stunAttributeXorRelayedAddress a := by
    intro a ha
    rw [List.mem_singleton.mp ha, Encodes, hv]
    rfl
  simp only
  rw [hm.attrRefs_eq, scanRelay_relayed hm.header.tid_eq [lent.relayed] hfam henc hother hm.laidOut,
    List.find?_cons, ← relayWanted_onWire daf lent.family, hwanted]

/-- The server the library makes. -/
def libraryServer (g : Globals) (hssl : g.ssl.FullSize) (lent : Lending) : RelayServer g where
  answer k m := if admits g k.key m then grantFor g lent k m else challengeFor k m
  challenges k m h := by
    rw [h]
    exact challengeFor_isChallenge k m
  grants k m h := by
    rw [if_pos h]
    exact grantFor_isGrant hssl lent k m
  relayed := onWire lent.relayed
  lends k m h hmethod daf hwanted := by
    rw [if_pos h]
    exact grantFor_lends hssl lent k m hmethod daf hwanted

/-! ## One account -/

/-- USERNAME, NONCE and REALM of a request signed for the account user:home:pass. -/
def homeCredentials : List Byte :=
  [0x00, 0x06, 0x00, 0x04, 0x75, 0x73, 0x65, 0x72, 0x00, 0x15, 0x00, 0x04,
   0x6E, 0x31, 0x6E, 0x32, 0x00, 0x14, 0x00, 0x04, 0x68, 0x6F, 0x6D, 0x65]

/-- What is signed of a message: the header, its length counting MESSAGE-INTEGRITY, and the
attributes before that one. -/
def homeSigned (msgType : BitVec 16) (attrs : List Byte) : List Byte :=
  be16 msgType ++ be16 (BitVec.ofNat 16 (attrs.length + 24)) ++ be32 stunMagicCookie ++
    List.replicate 12 0 ++ attrs

/-- The MD5 digest of user:home:pass. -/
def homeKey : List Byte :=
  [0x3D, 0x6D, 0x84, 0x3D, 0x66, 0x93, 0x10, 0x31, 0x1C, 0x66, 0x10, 0xC2,
   0x96, 0x5B, 0x67, 0x0C]

/-- The SHA-1 HMACs under that key of the messages with which the server below is shown to answer,
each request with its response. -/
def homeMacs : List (List Byte × List Byte) :=
  [(homeSigned 0x0009 ([0x00, 0x0C, 0x00, 0x04, 0x40, 0x00, 0x00, 0x00, 0x00, 0x12, 0x00, 0x08,
         0x00, 0x01, 0x2C, 0x84, 0x2B, 0x12, 0xA4, 0x40] ++
        homeCredentials),
      [0x74, 0x51, 0xF8, 0xE8, 0xE2, 0x6F, 0x15, 0xF1, 0x87, 0x31, 0xD2, 0x6D,
       0xA2, 0x32, 0x61, 0xDD, 0xF5, 0x50, 0x17, 0x1C]),
    (homeSigned 0x0109 [],
      [0x91, 0x24, 0xA9, 0xB6, 0xA1, 0xBE, 0x9B, 0xE3, 0xE2, 0xF5, 0xB2, 0x57,
       0xFE, 0x1C, 0x30, 0x33, 0x49, 0x9B, 0x5D, 0xF6]),
    (homeSigned 0x0008 ([0x00, 0x12, 0x00, 0x08, 0x00, 0x01, 0x2C, 0x84, 0x2B, 0x12, 0xA4, 0x40,
         0x00, 0x12, 0x00, 0x14, 0x00, 0x02, 0xBD, 0x52, 0x01, 0x13, 0xA9, 0xFA,
         0x00, 0x00, 0x00, 0x00, 0x00, 0x00, 0x00, 0x00, 0x00, 0x00, 0x00, 0x01] ++
        homeCredentials),
      [0xED, 0x6E, 0x07, 0x2B, 0x50, 0xE3, 0x87, 0xA9, 0xBA, 0xA0, 0x6F, 0xEC,
       0x74, 0x78, 0xB3, 0x1F, 0x98, 0xA1, 0xD7, 0xFB]),
    (homeSigned 0x0108 [],
      [0xCB, 0x10, 0xD0, 0x80, 0x5B, 0x60, 0x85, 0xA2, 0xE5, 0x50, 0x98, 0x33,
       0xD6, 0x05, 0x52, 0x98, 0x76, 0xEC, 0xE7, 0x87]),
    (homeSigned 0x0003 ([0x00, 0x19, 0x00, 0x04, 0x11, 0x00, 0x00, 0x00, 0x00, 0x0D, 0x00, 0x04,
         0x00, 0x00, 0x03, 0x09, 0x00, 0x18, 0x00, 0x01, 0x80, 0x00, 0x00, 0x00,
         0x00, 0x17, 0x00, 0x04, 0x01, 0x00, 0x00, 0x00] ++
        homeCredentials),
      [0x43, 0xC8, 0x14, 0xDB, 0x3C, 0xE7, 0xB2, 0x4A, 0x57, 0xDB, 0xD5, 0x0E,
       0xD5, 0x2E, 0xFF, 0x6A, 0xA4, 0x89, 0xD1, 0xAB]),
    (homeSigned 0x0103 ([0x00, 0x16, 0x00, 0x08, 0x00, 0x01, 0xE1, 0x12, 0xE1, 0x12, 0xA6, 0x43,
         0x00, 0x0D, 0x00, 0x04, 0x00, 0x00, 0x02, 0x58]),
      [0x85, 0x81, 0xEA, 0xD9, 0x0D, 0x65, 0xF4, 0xCE, 0x21, 0x7D, 0x7E, 0xB1,
       0xD8, 0xEC, 0x39, 0x64, 0xB0, 0x20, 0x9E, 0xBE]),
    (homeSigned 0x0004 ([0x00, 0x0D, 0x00, 0x04, 0x00, 0x00, 0x03, 0x09] ++
        homeCredentials),
      [0x81, 0xC3, 0xF1, 0x95, 0xC5, 0xAA, 0xF7, 0xB3, 0x52, 0x30, 0x82, 0xEA,
       0xD1, 0x42, 0x26, 0x22, 0x05, 0x8F, 0xB6, 0xE4]),
    (homeSigned 0x0104 [],
      [0x35, 0xBD, 0xD3, 0x1C, 0xAB, 0x34, 0xFB, 0x90, 0xDA, 0x89, 0xE0, 0xC1,
       0xAF, 0xCA, 0x8C, 0xDE, 0x43, 0xF0, 0x01, 0xC2])]

/-- OpenSSL's answers for the account user:home:pass. -/
def homeSsl : OpenSsl where
  hmac := fun alg key msg =>
    if alg = .sha1 ∧ key = homeKey then
      some ((homeMacs.lookup msg).getD (List.replicate 20 0))
    else some (List.replicate alg.size 0)
  digest := fun alg msg =>
    if alg = .md5 ∧ msg = ascii "user:home:pass" then homeKey else List.replicate alg.size 0

theorem homeSsl_fullSize : homeSsl.FullSize := by
  constructor
  · intro alg msg
    simp only [homeSsl]
    split
    · rename_i h
      rw [h.1]
      rfl
    · exact List.length_replicate
  · intro alg key msg
    simp only [homeSsl]
    split
    · rename_i h
      refine ⟨_, rfl, ?_⟩
      rw [h.1]
      have hall : ∀ p ∈ homeMacs, p.2.length = 20 := by decide
      cases hlookup : homeMacs.lookup msg with
      | none => rfl
      | some mac =>
        obtain ⟨front, back, hsplit, _⟩ := List.lookup_eq_some_iff.mp hlookup
        exact hall (msg, mac) (by rw [hsplit]; simp)
    · exact ⟨_, rfl, List.length_replicate⟩

def homeGlobals : Globals :=
  { Globals.initial homeSsl with gUname := ⟨[0x75, 0x73, 0x65, 0x72], by decide⟩
                                 gUpwd := ⟨[0x70, 0x61, 0x73, 0x73], by decide⟩ }

def homeRealm : ServerRealm where
  realm := [0x68, 0x6F, 0x6D, 0x65]
  nonce := [0x6E, 0x31, 0x6E, 0x32]
  realm_fits := ⟨by decide, by decide, by decide⟩
  nonce_fits := ⟨by decide, by decide, by decide⟩

def homeServer : RelayServer homeGlobals :=
  libraryServer homeGlobals homeSsl_fullSize
    { relayed := { IoaAddr.any with family := .inet, port := 49152, word := 0xC0000201 }
      family := Or.inl rfl
      lifetime := 600
      maxLifetime := 3600
      reservationToken := 0 }

end TurnClient
