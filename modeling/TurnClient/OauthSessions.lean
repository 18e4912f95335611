import TurnClient.Session
import TurnClient.StunRoundTrip
import TurnClient.StepRuns
import TurnClient.Datagrams

/-!
# Signing with access tokens

In OAuth mode `add_integrity` draws a key, seals a fresh MAC key in a token and
puts the token into the message; later messages are signed with what the
session remembers of it. The session keeps the index of the key and the MAC
key, which it stores before and after the steps that can fail. What was really
sent is followed beside it: the index and the MAC key of the last token that
made it into a message.
-/

namespace TurnClient

open ByteMemory
set_option autoImplicit false

/-- A call in OAuth mode: the challenge the session has by then, what the
environment decides, and a message nobody has signed. -/
structure OauthCall where
  creds : Credentials
  choice : Choice
  message : StunBuffer
  oauth : creds.oauth = true
  unsigned : ∃ msgType tid attrs, IsMessage message msgType tid attrs ∧
    ∀ r ∈ attrs, r.1 ≠ stunAttributeUsername ∧ r.1 ≠ stunAttributeMessageIntegrity

/-- A session and the last token placed: the index of its key and the MAC key in it. -/
structure OauthSession where
  info : ConnInfo
  placed : Option (Nat × List Byte)

def OauthSession.start (info : ConnInfo) : OauthSession := ⟨{ info with keySet := false }, none⟩

def tokenKeyIndex (c : Choice) : Nat := c.random 0 % 65536 % 3

def tokenMacKey (g : Globals) (c : Choice) : List Byte :=
  slice c.randBytes 12 (shaSizeBytes g.shatype)

def encodedToken (g : Globals) (c : Choice) (serverName : Mem) : Option (ByteString 1024) :=
  g.encodeOauthToken (cstr serverName 1026) (tokenKeyIndex c)
    ⟨555 / 2 + c.random 1 % (555 / 2), c.turnTime * 65536, tokenMacKey g c⟩ (slice c.randBytes 0 12)

namespace OauthCall

variable (g : Globals) (s : OauthSession) (call : OauthCall)

def info : ConnInfo := { s.info with creds := call.creds }

def result : Int × ConnInfo × StunBuffer := addIntegrity g call.choice (call.info s) call.message

def token : Option (ByteString 1024) := encodedToken g call.choice call.creds.serverName

def withToken (token : ByteString 1024) : Rc × StunBuffer :=
  stunAttrAddStr call.message stunAttributeOauthAccessToken (some (ofList token.bytes))
    token.bytes.length

def makesToken : Bool := nonceSet (call.info s) && needsToken (call.info s) call.message

/-- What the call puts into the message. -/
def placed : Option (Nat × List Byte) :=
  if call.makesToken s then
    match call.token g with
    | none => none
    | some token =>
      if (call.withToken token).1 = .ok then
        some (tokenKeyIndex call.choice, tokenMacKey g call.choice)
      else none
  else none

end OauthCall

def OauthSession.step (g : Globals) (s : OauthSession) (call : OauthCall) : OauthSession :=
  ⟨(call.result g s).2.1, (call.placed g s).or s.placed⟩

/-- The message names the key and authenticates under the MAC key. -/
structure SignedWith (g : Globals) (kid macKey : List Byte) (m : StunBuffer) : Prop where
  username : ∃ sar, stunAttrGetFirstByTypeStr m.buf m.len stunAttributeUsername = some sar ∧
    attrValue m.buf sar = kid
  integrity : ∃ sar digest,
    stunAttrGetFirstByTypeStr m.buf m.len stunAttributeMessageIntegrity = some sar ∧
    stunCalculateHmac g.ssl (slice m.buf 0 sar) macKey g.shatype = some digest ∧
    attrValue m.buf sar = slice (ofList digest) 0 (shaSizeBytes g.shatype)

/-- A successful call signs for the token that was placed last. Without a nonce nothing is signed. -/
def SignsForToken (g : Globals) (s : OauthSession) (call : OauthCall) : Prop :=
  (call.result g s).1 = 0 → nonceSet (call.info s) = true → ∃ okey macKey,
    (s.step g call).placed = some (okey, macKey) ∧
    SignedWith g (g.okeyKid okey).bytes macKey (call.result g s).2.2

/-- The name of the key the session would sign with. -/
def OauthSession.kid (g : Globals) (s : OauthSession) : List Byte := (g.okeyKid s.info.cok).bytes

/-- A token that is made is also placed; one that cannot be made leaves the name of the key alone. -/
def TokenPlaced (g : Globals) (s : OauthSession) (call : OauthCall) : Prop :=
  call.makesToken s = true →
    match call.token g with
    | some token => call.message.len + 4 + Tlv.pad4 token.bytes.length < maxStunMessageSize
    | none => s.info.keySet = false ∨ (g.okeyKid (tokenKeyIndex call.choice)).bytes = s.kid g

/-- The whole MAC key is used as the HMAC key. -/
def FullKey (g : Globals) : Prop :=
  g.shatype = .sha256 ∨ g.shatype = .sha384 ∨ g.shatype = .sha512

theorem FullKey.size_eq {g : Globals} (h : FullKey g) :
    getHmackeySize g.shatype = shaSizeBytes g.shatype := by
  rcases h with h | h | h <;> rw [h] <;> rfl

theorem getHmackeySize_le (shatype : ShaType) : getHmackeySize shatype ≤ shaSizeBytes shatype := by
  cases shatype <;> decide

/-! ## Signing by key -/

theorem IsMessage.signedByKey {m m' : StunBuffer} {msgType : BitVec 16} {tid : StunTid}
    {attrs : List Tlv.Record} (h : IsMessage m msgType tid attrs) {ssl : OpenSsl}
    {uname realm nonce : List Byte} {key hmac : Mem} {shatype : ShaType} {pwd : List Byte}
    (hsign : stunAttrAddIntegrityByKeyStr ssl m uname realm key nonce shatype hmac pwd = (.ok, m')) :
    ∃ digest, IsMessage m' msgType tid (attrs ++ [(stunAttributeUsername, uname),
        (stunAttributeNonce, nonce), (stunAttributeRealm, realm)] ++
        [(stunAttributeMessageIntegrity, slice (ofList digest) 0 (shaSizeBytes shatype))]) ∧
      stunCalculateHmac ssl (slice m'.buf 0 (m'.len - 4 - shaSizeBytes shatype))
        (slice key 0 (getHmackeySize shatype)) shatype = some digest := by
  obtain ⟨_, hmod⟩ := shaSizeBytes_bounds shatype
  unfold stunAttrAddIntegrityByKeyStr at hsign
  obtain ⟨mu, hu, hsign⟩ := Rc.andThen_eq_ok hsign
  obtain ⟨mn, hn, hsign⟩ := Rc.andThen_eq_ok hsign
  obtain ⟨mr, hr, hsign⟩ := Rc.andThen_eq_ok hsign
  unfold stunAttrAddIntegrityStr at hsign
  obtain ⟨m₀, hi, hsign⟩ := Rc.andThen_eq_ok hsign
  have hm₀ := (((h.addedString hu).addedString hn).addedString hr).added hi
  have hbytes : attrBytes (some hmac) (shaSizeBytes shatype : Int) =
      slice hmac 0 (shaSizeBytes shatype) := rfl
  rw [hbytes] at hm₀
  simp only at hsign
  split at hsign
  · cases hsign
  · rename_i digest hdigest
    cases hsign
    have hset := hm₀.setLast (slice (ofList digest) 0 (shaSizeBytes shatype)) (by simp)
      (by rw [slice_length]; exact hmod)
    rw [slice_length] at hset
    refine ⟨digest, by simpa using hset, ?_⟩
    rw [if_neg (by decide)] at hdigest
    rw [← hdigest]
    congr 1
    exact slice_write_disjoint (by simp only; omega)

theorem IsMessage.signedWith {m m' : StunBuffer} {msgType : BitVec 16} {tid : StunTid}
    {attrs : List Tlv.Record} (h : IsMessage m msgType tid attrs)
    (hunsigned : ∀ r ∈ attrs, r.1 ≠ stunAttributeUsername ∧ r.1 ≠ stunAttributeMessageIntegrity)
    {g : Globals} {uname realm nonce macKey : List Byte} {key hmac : Mem} {pwd : List Byte}
    (hkey : slice key 0 (getHmackeySize g.shatype) = macKey)
    (hsign : stunAttrAddIntegrityByKeyStr g.ssl m uname realm key nonce g.shatype hmac pwd =
      (.ok, m')) : SignedWith g uname macKey m' := by
  obtain ⟨digest, hm', hdigest⟩ := h.signedByKey hsign
  rw [hkey] at hdigest
  generalize hpre : attrs ++ [(stunAttributeUsername, uname), (stunAttributeNonce, nonce),
    (stunAttributeRealm, realm)] = pre at hm'
  have hpad : Tlv.pad4 (shaSizeBytes g.shatype) = shaSizeBytes g.shatype := by
    obtain ⟨_, hmod⟩ := shaSizeBytes_bounds g.shatype
    unfold Tlv.pad4
    omega
  constructor
  · have hsplit : pre ++ [(stunAttributeMessageIntegrity,
        slice (ofList digest) 0 (shaSizeBytes g.shatype))] =
        attrs ++ (stunAttributeUsername, uname) :: [(stunAttributeNonce, nonce),
          (stunAttributeRealm, realm), (stunAttributeMessageIntegrity,
          slice (ofList digest) 0 (shaSizeBytes g.shatype))] := by
      rw [← hpre]
      simp
    rw [hsplit] at hm'
    obtain ⟨hfirst, hrec⟩ := hm'.firstByType fun r hr => (hunsigned r hr).1
    exact ⟨_, hfirst, attrValue_of_recordAt hrec⟩
  · have hnone : ∀ r ∈ pre, r.1 ≠ stunAttributeMessageIntegrity := by
      intro r hr
      rw [← hpre] at hr
      rcases List.mem_append.mp hr with hr | hr
      · exact (hunsigned r hr).2
      · simp only [List.mem_cons, List.not_mem_nil, or_false] at hr
        rcases hr with rfl | rfl | rfl
        · exact (by decide : stunAttributeUsername ≠ stunAttributeMessageIntegrity)
        · exact (by decide : stunAttributeNonce ≠ stunAttributeMessageIntegrity)
        · exact (by decide : stunAttributeRealm ≠ stunAttributeMessageIntegrity)
    obtain ⟨hfirst, hrec⟩ := hm'.firstByType hnone
    have hlen := hm'.len_eq
    rw [Tlv.size_append, Tlv.size, Tlv.size, slice_length, hpad] at hlen
    have hoff : m'.len - 4 - shaSizeBytes g.shatype = 20 + Tlv.size pre := by omega
    rw [hoff] at hdigest
    exact ⟨_, digest, hfirst, hdigest, attrValue_of_recordAt hrec⟩

/-! ## What the session remembers -/

/-- The key the session remembers is the one in the token that was placed last. -/
def Remembers (g : Globals) (s : OauthSession) : Prop :=
  s.info.keySet = true → ∃ okey macKey, s.placed = some (okey, macKey) ∧
    (g.okeyKid okey).bytes = s.kid g ∧ slice s.info.key 0 (shaSizeBytes g.shatype) = macKey

section Call

variable {g : Globals} {s : OauthSession} {call : OauthCall}

/-- The first half of the call: nothing, or a new token. -/
def OauthCall.afterToken (g : Globals) (s : OauthSession) (call : OauthCall) :
    Int × ConnInfo × StunBuffer :=
  if call.makesToken s then addOauthToken g call.choice (call.info s) call.message
  else (0, call.info s, call.message)

theorem OauthCall.result_no_nonce (hnonce : nonceSet (call.info s) = false) :
    call.result g s = call.afterToken g s := by
  unfold OauthCall.result addIntegrity OauthCall.afterToken OauthCall.makesToken
  rw [hnonce]
  rfl

/-- The second half neither changes the session nor what has been placed. -/
theorem OauthCall.result_cases (hoauth : g.oauth = true) (hnonce : nonceSet (call.info s) = true) :
    (call.result g s).2.1 = (call.afterToken g s).2.1 ∧
      ((call.result g s).1 = 0 → 0 ≤ (call.afterToken g s).1 ∧
        stunAttrAddIntegrityByKeyStr g.ssl (call.afterToken g s).2.2
          (g.okeyKid (call.afterToken g s).2.1.cok).bytes (realmStr (call.afterToken g s).2.1)
          (call.afterToken g s).2.1.key (nonceStr (call.afterToken g s).2.1) g.shatype
          (call.choice.junk 1) call.choice.junkPwd = (.ok, (call.result g s).2.2)) := by
  have hmode : (g.oauth && (call.info s).creds.oauth) = true := by
    simp [OauthCall.info, hoauth, call.oauth]
  unfold OauthCall.result addIntegrity OauthCall.afterToken OauthCall.makesToken
  rw [if_pos hnonce, if_pos hmode, hnonce, Bool.true_and]
  generalize (if needsToken (call.info s) call.message then
    addOauthToken g call.choice (call.info s) call.message
    else (0, call.info s, call.message)) = r
  obtain ⟨rc, ci, m⟩ := r
  simp only
  split
  · exact ⟨rfl, fun h => absurd h (by simp)⟩
  · rename_i hrc
    split
    · rename_i m' hsign
      rw [stunCheckMessageIntegrityByKeyStr_buf]
      split
      · exact ⟨rfl, fun h => absurd h (by simp)⟩
      · exact ⟨rfl, fun _ => ⟨by omega, hsign⟩⟩
    · exact ⟨rfl, fun h => absurd h (by simp)⟩

/-- The session's key belongs to the token placed last, and the message is still unsigned. -/
def OauthCall.ReadyToSign (g : Globals) (s : OauthSession) (call : OauthCall) : Prop :=
  ∃ okey macKey, (call.placed g s).or s.placed = some (okey, macKey) ∧
    (g.okeyKid okey).bytes = (g.okeyKid (call.afterToken g s).2.1.cok).bytes ∧
    slice (call.afterToken g s).2.1.key 0 (shaSizeBytes g.shatype) = macKey ∧
    ∃ msgType tid attrs, IsMessage (call.afterToken g s).2.2 msgType tid attrs ∧
      ∀ r ∈ attrs, r.1 ≠ stunAttributeUsername ∧ r.1 ≠ stunAttributeMessageIntegrity

theorem OauthCall.afterToken_no_token (hneeds : call.makesToken s = true)
    (hnone : call.token g = none) : call.afterToken g s =
      (-1, { call.info s with cok := tokenKeyIndex call.choice }, call.message) := by
  unfold OauthCall.token encodedToken tokenMacKey tokenKeyIndex at hnone
  unfold OauthCall.afterToken
  rw [if_pos hneeds]
  simp only [addOauthToken, OauthCall.info, hnone]
  rfl

theorem OauthCall.afterToken_token (hneeds : call.makesToken s = true)
    {token : ByteString 1024} (hsome : call.token g = some token) : call.afterToken g s =
      (0, { call.info s with
            cok := tokenKeyIndex call.choice
            key := write s.info.key 0 (tokenMacKey g call.choice)
            keySet := true }, (call.withToken token).2) := by
  unfold OauthCall.token encodedToken tokenMacKey tokenKeyIndex at hsome
  unfold OauthCall.afterToken
  rw [if_pos hneeds]
  simp only [addOauthToken, OauthCall.info, hsome]
  rfl

theorem OauthCall.ready_of_token (hneeds : call.makesToken s = true) {token : ByteString 1024}
    (hsome : call.token g = some token)
    (hroom : call.message.len + 4 + Tlv.pad4 token.bytes.length < maxStunMessageSize) :
    call.ReadyToSign g s := by
  obtain ⟨msgType, tid, attrs, hm, hunsigned⟩ := call.unsigned
  have hfits : (call.withToken token).1 = .ok ∧ IsMessage (call.withToken token).2 msgType tid
      (attrs ++ [(stunAttributeOauthAccessToken, token.bytes)]) := by
    have hbytes : attrBytes (some (ofList token.bytes)) token.bytes.length = token.bytes :=
      attrBytes_ofList _
    have hmax : maxStunMessageSize = 65507 := rfl
    have hint : intMax = 2147483647 := rfl
    cases hadd : call.withToken token with
    | mk rc m' =>
      have hcases := hm.add_cases _ _ _ hadd
      rw [hbytes] at hcases
      rcases hcases with ⟨_, _, h⟩ | ⟨_, _, h⟩ | ⟨hrc, _, _, hm'⟩
      · omega
      · omega
      · exact ⟨hrc, hm'⟩
  unfold OauthCall.ReadyToSign OauthCall.placed
  rw [if_pos hneeds, OauthCall.afterToken_token hneeds hsome, hsome]
  simp only [hfits.1, if_true, Option.some_or]
  refine ⟨_, _, rfl, rfl, ?_, msgType, tid, _, hfits.2, ?_⟩
  · have hlen : (tokenMacKey g call.choice).length = shaSizeBytes g.shatype := slice_length _ _ _
    rw [← hlen]
    exact slice_write_same _ _ _
  · intro r hr
    rcases List.mem_append.mp hr with hr | hr
    · exact hunsigned r hr
    · rw [List.mem_singleton.mp hr]
      exact (by decide : stunAttributeOauthAccessToken ≠ stunAttributeUsername ∧
        stunAttributeOauthAccessToken ≠ stunAttributeMessageIntegrity)

theorem OauthCall.ready_of_kept (hnonce : nonceSet (call.info s) = true)
    (hneeds : call.makesToken s = false) (hrem : Remembers g s) : call.ReadyToSign g s := by
  obtain ⟨msgType, tid, attrs, hm, hunsigned⟩ := call.unsigned
  have hset : s.info.keySet = true := by
    unfold OauthCall.makesToken needsToken at hneeds
    rw [hnonce, Bool.true_and] at hneeds
    simp only [Bool.or_eq_false_iff, Bool.not_eq_false'] at hneeds
    exact hneeds.2
  obtain ⟨okey, macKey, hlast, hkid, hkey⟩ := hrem hset
  unfold OauthCall.ReadyToSign OauthCall.placed OauthCall.afterToken
  rw [if_neg (by simp [hneeds]), if_neg (by simp [hneeds])]
  exact ⟨okey, macKey, hlast, hkid, hkey, msgType, tid, attrs, hm, hunsigned⟩

/-- A call that cannot make its token fails, and no token is placed. -/
theorem OauthCall.kept_of_no_token (hneeds : call.makesToken s = true)
    (hnone : call.token g = none) (hplaced : TokenPlaced g s call) (hrem : Remembers g s) :
    call.placed g s = none ∧ Remembers g ⟨(call.afterToken g s).2.1, s.placed⟩ := by
  have hcase := hplaced hneeds
  rw [hnone] at hcase
  rw [OauthCall.afterToken_no_token hneeds hnone]
  constructor
  · unfold OauthCall.placed
    rw [if_pos hneeds, hnone]
  · intro hset
    have hset' : s.info.keySet = true := hset
    rcases hcase with hunset | hsame
    · rw [hset'] at hunset
      cases hunset
    · obtain ⟨okey, macKey, hlast, hkid, hkey⟩ := hrem hset'
      exact ⟨okey, macKey, hlast, hkid.trans hsame.symm, hkey⟩

/-- With a nonce, the call is ready to sign or cannot make its token. -/
theorem OauthCall.ready_or_failed (hnonce : nonceSet (call.info s) = true)
    (hplaced : TokenPlaced g s call) (hrem : Remembers g s) :
    call.ReadyToSign g s ∨ (call.makesToken s = true ∧ call.token g = none) := by
  cases hneeds : call.makesToken s with
  | false => exact Or.inl (OauthCall.ready_of_kept hnonce hneeds hrem)
  | true =>
    cases htoken : call.token g with
    | none => exact Or.inr ⟨rfl, rfl⟩
    | some token =>
      have hroom := hplaced hneeds
      rw [htoken] at hroom
      exact Or.inl (OauthCall.ready_of_token hneeds htoken hroom)

theorem Remembers.step (hoauth : g.oauth = true) (hrem : Remembers g s)
    (hplaced : TokenPlaced g s call) : Remembers g (s.step g call) := by
  unfold OauthSession.step
  cases hnonce : nonceSet (call.info s) with
  | false =>
    have hneeds : call.makesToken s = false := by
      unfold OauthCall.makesToken
      rw [hnonce, Bool.false_and]
    rw [OauthCall.result_no_nonce hnonce]
    unfold OauthCall.afterToken OauthCall.placed
    rw [if_neg (by simp [hneeds]), if_neg (by simp [hneeds])]
    exact hrem
  | true =>
    rw [(OauthCall.result_cases hoauth hnonce).1]
    rcases OauthCall.ready_or_failed hnonce hplaced hrem with hready | ⟨hneeds, hnone⟩
    · obtain ⟨okey, macKey, hlast, hkid, hkey, _⟩ := hready
      exact fun _ => ⟨okey, macKey, hlast, hkid, hkey⟩
    · obtain ⟨hno, hkept⟩ := OauthCall.kept_of_no_token hneeds hnone hplaced hrem
      rw [hno]
      exact hkept

/-- Whatever the hash, the HMAC key is as much of the MAC key as the hash has key bytes. -/
theorem Remembers.signs (hoauth : g.oauth = true) (hrem : Remembers g s)
    (hplaced : TokenPlaced g s call) (hrc : (call.result g s).1 = 0)
    (hnonce : nonceSet (call.info s) = true) :
    ∃ okey macKey, (s.step g call).placed = some (okey, macKey) ∧
      macKey.length = shaSizeBytes g.shatype ∧ SignedWith g (g.okeyKid okey).bytes
        (macKey.take (getHmackeySize g.shatype)) (call.result g s).2.2 := by
  obtain ⟨_, hsigned⟩ := OauthCall.result_cases (g := g) hoauth hnonce
  obtain ⟨hgo, hsign⟩ := hsigned hrc
  rcases OauthCall.ready_or_failed hnonce hplaced hrem with hready | ⟨hneeds, hnone⟩
  · obtain ⟨okey, macKey, hlast, hkid, hkey, msgType, tid, attrs, hm, hunsigned⟩ := hready
    rw [← hkid] at hsign
    refine ⟨okey, macKey, hlast, by rw [← hkey, slice_length], hm.signedWith hunsigned ?_ hsign⟩
    rw [← hkey, slice_take (getHmackeySize_le _)]
  · rw [OauthCall.afterToken_no_token hneeds hnone] at hgo
    exact absurd hgo (by simp)

end Call

theorem Remembers.start (g : Globals) (info : ConnInfo) : Remembers g (OauthSession.start info) :=
  fun h => Bool.noConfusion h

/-- Every successful call of such a run signs for the token placed last. -/
theorem oauth_signing_consistent (g : Globals) (hoauth : g.oauth = true) (hfull : FullKey g)
    (info : ConnInfo) (calls : List OauthCall) (call : OauthCall)
    (hplaced : StepRuns.Meets (TokenPlaced g) (OauthSession.step g) (OauthSession.start info)
      (calls ++ [call])) :
    SignsForToken g (StepRuns.run (OauthSession.step g) (OauthSession.start info) calls) call := by
  obtain ⟨hcalls, hlast⟩ := StepRuns.meets_append.mp hplaced
  have hrem : Remembers g (StepRuns.run (OauthSession.step g) (OauthSession.start info) calls) :=
    StepRuns.run_inv_of_meets (fun _ _ hrem hok => hrem.step hoauth hok) calls hcalls
      (Remembers.start g info)
  intro hrc hnonce
  obtain ⟨okey, macKey, htoken, hlen, hsigned⟩ := hrem.signs hoauth hlast.1 hrc hnonce
  rw [hfull.size_eq, ← hlen, List.take_length] at hsigned
  exact ⟨okey, macKey, htoken, hsigned⟩

/-- A token as AES-256-GCM seals it under an all-zero key, for the bytes 0, 1, 2, … from
`RAND_bytes` and the server name "turn". -/
def sealedToken : ByteString 1024 where
  bytes := [0x00, 0x0C, 0x00, 0x01, 0x02, 0x03, 0x04, 0x05, 0x06, 0x07, 0x08, 0x09, 0x0A, 0x0B,
    0x88, 0xEB, 0x3F, 0x5F, 0x0E, 0xF2, 0x9F, 0xE8, 0xD0, 0x6B, 0x46, 0xF0, 0xEB, 0x14, 0xC6, 0x15,
    0x4E, 0x77, 0xB4, 0x87, 0xA1, 0x82, 0xAF, 0xD7, 0xED, 0xE8, 0xC0, 0x2E, 0xAB, 0x12, 0x27, 0x46,
    0xC6, 0xDC, 0xBC, 0xA5, 0x4C, 0x67, 0x32, 0x14, 0x38, 0xD0, 0xCD, 0x8A, 0xAF, 0xAB, 0x75, 0x9F,
    0x89, 0x2E, 0xBE, 0x4E, 0x0B, 0xBF, 0x86, 0xC8, 0xF1, 0x16, 0xDE, 0x22, 0x11, 0x31]
  fits := by decide

/-- HMAC-SHA-256 under the MAC key in that token: of an Allocate request with the token, and of
later requests that name the key "north" or another one. -/
def tokenSsl : OpenSsl where
  hmac := fun _ _ msg => some (if msg.length = 128 then
      [0x40, 0x22, 0xBB, 0xFE, 0xAF, 0x74, 0xAD, 0xE1, 0x54, 0xA7, 0xD1, 0x25, 0x69, 0x27,
       0x4B, 0xC1, 0xB1, 0x9E, 0xE8, 0xE1, 0x28, 0xFC, 0xC9, 0x4F, 0x53, 0xFB, 0xA9, 0x29,
       0x3C, 0x1D, 0x48, 0x01]
    else if (msg.drop 24).take 5 = ascii "north" then
      [0xC9, 0x5F, 0xF1, 0x6E, 0x7E, 0xF7, 0xF8, 0xE5, 0x8D, 0x64, 0xEA, 0xCB, 0x76, 0xC8,
       0x4C, 0xA8, 0x93, 0x0F, 0x4C, 0xEC, 0xC5, 0x7C, 0xCE, 0xF9, 0x64, 0x68, 0xAC, 0x09,
       0x6D, 0x3B, 0x9D, 0x1E]
    else
      [0x21, 0x7B, 0xFA, 0x20, 0x23, 0xE6, 0xE2, 0x89, 0xD0, 0xDE, 0x79, 0xB5, 0x93, 0xED,
       0xEF, 0x11, 0x11, 0x71, 0x6C, 0xFF, 0x2B, 0x34, 0x50, 0x00, 0x31, 0x90, 0x1D, 0x9C,
       0x21, 0x86, 0x43, 0xE7])
  digest := fun _ _ => []

/-- Three keys of which only the first names a cipher OpenSSL has. -/
def oneGoodKey : Globals :=
  { Globals.initial tokenSsl with
    encodeOauthToken := fun _ okey _ _ => if okey = 0 then some sealedToken else none
    okeyKid := fun okey =>
      if okey = 0 then ⟨ascii "north", by decide⟩ else ⟨ascii "union", by decide⟩
    oauth := true
    shatype := .sha256 }

/-- A request with no attributes, signed with a nonce "n" in the realm "r". -/
def tokenCall (method : BitVec 16) (okey : Nat) : OauthCall where
  creds := ⟨ofList (ascii "r"), ofList (ascii "n"), ofList (ascii "turn"), true⟩
  choice := { Choice.idle with
    random := fun i => if i = 0 then okey else 1
    randBytes := fun i => BitVec.ofNat 8 i
    turnTime := 1000 }
  message := stunInitRequestStr method (fun _ => 0) countingTid
  oauth := rfl
  unsigned := ⟨_, _, [], isMessage_initCommand _ _ _, by simp⟩

def afterCalls (calls : List OauthCall) : OauthSession :=
  StepRuns.run (OauthSession.step oneGoodKey) (OauthSession.start ConnInfo.init) calls

theorem later_request_signed :
    ((tokenCall stunMethodCreatePermission 0).result oneGoodKey
      (afterCalls [tokenCall stunMethodAllocate 0])).1 = 0 ∧
    SignsForToken oneGoodKey (afterCalls [tokenCall stunMethodAllocate 0])
      (tokenCall stunMethodCreatePermission 0) := by
  refine ⟨by decide +kernel, ?_⟩
  apply oauth_signing_consistent oneGoodKey rfl (Or.inl rfl)
  refine ⟨fun _ => ?_, fun h => ?_, trivial⟩
  · exact (by decide : 20 + 4 + Tlv.pad4 sealedToken.bytes.length < maxStunMessageSize)
  · have hnot : (tokenCall stunMethodCreatePermission 0).makesToken
        (afterCalls [tokenCall stunMethodAllocate 0]) = false := by decide +kernel
    exact absurd (hnot.symm.trans h) (by decide)

/-- The key of the second call has no cipher, so that call cannot make its token. -/
def afterFailure : OauthSession :=
  afterCalls [tokenCall stunMethodAllocate 0, tokenCall stunMethodRefresh 1]

/-- A Refresh request that cannot make a token leaves its key behind for the next request. -/
theorem failed_refresh_renames_key :
    ¬ SignsForToken oneGoodKey afterFailure (tokenCall stunMethodCreatePermission 0) := by
  intro h
  obtain ⟨okey, macKey, hlast, ⟨sar, hfirst, hkid⟩, _⟩ := h (by decide +kernel) (by decide +kernel)
  have hplaced : (afterFailure.step oneGoodKey
      (tokenCall stunMethodCreatePermission 0)).placed.map Prod.fst = some 0 := by
    decide +kernel
  rw [hlast] at hplaced
  cases hplaced
  have husername :
      let m := ((tokenCall stunMethodCreatePermission 0).result oneGoodKey afterFailure).2.2
      stunAttrGetFirstByTypeStr m.buf m.len stunAttributeUsername = some 20 := by
    decide +kernel
  cases hfirst.symm.trans husername
  exact absurd hkid (by decide +kernel)

end TurnClient
