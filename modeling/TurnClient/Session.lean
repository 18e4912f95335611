import TurnClient.StunIntegrity
import TurnClient.StunAddr

/-!
# Sessions

The global settings of `uclient_manager.c`, the connection info of a session,
and the functions every request and every response goes through:
`add_origin`, `add_integrity` and `check_integrity`.
-/

namespace TurnClient

open ByteMemory
set_option autoImplicit false

structure ByteString (cap : Nat) where
  bytes : List Byte
  fits : bytes.length ≤ cap

def cstr (m : Mem) (cap : Nat) : List Byte := (slice m 0 cap).takeWhile (· ≠ 0)

theorem cstr_length (m : Mem) (cap : Nat) : (cstr m cap).length ≤ cap := by
  have h := (List.takeWhile_sublist (l := slice m 0 cap) fun b => decide (b ≠ 0)).length_le
  rwa [slice_length] at h

structure OauthEncBlock where
  lifetime : Nat
  timestamp : Nat
  macKey : List Byte

/-- The settings that stay as they are while a client runs. `okeyKid` and
`encodeOauthToken` stand for `okey_array` and the token cipher. -/
structure Globals where
  ssl : OpenSsl
  encodeOauthToken :
    (serverName : List Byte) → (okey : Nat) → OauthEncBlock → (nonce : List Byte) →
      Option (ByteString 1024)
  okeyKid : Nat → ByteString 128
  oauth : Bool
  shatype : ShaType
  gUname : ByteString 512
  gUpwd : ByteString 256
  origin : ByteString 127
  noRtcp : Bool
  dualAllocation : Bool
  mobility : Bool
  dontFragment : Bool
  noPermissions : Bool
  doNotUseChannel : Bool
  useTcp : Bool
  relayTransport : Byte
  bps : BitVec 64

/-- The values `uclient_manager.c` starts with. -/
def Globals.initial (ssl : OpenSsl) : Globals where
  ssl := ssl
  encodeOauthToken := fun _ _ _ _ => none
  okeyKid := fun _ => ⟨[], Nat.zero_le _⟩
  oauth := false
  shatype := .sha1
  gUname := ⟨[], Nat.zero_le _⟩
  gUpwd := ⟨[], Nat.zero_le _⟩
  origin := ⟨[], Nat.zero_le _⟩
  noRtcp := false
  dualAllocation := false
  mobility := false
  dontFragment := false
  noPermissions := false
  doNotUseChannel := false
  useTcp := false
  relayTransport := 17
  bps := 0

/-- `app_ur_conn_info`, without the TCP data connections. -/
structure ConnInfo where
  localAddr : IoaAddr
  remoteAddr : IoaAddr
  peerAddr : IoaAddr
  relayAddr : IoaAddr
  fd : Int
  ssl : Option Nat
  creds : Credentials
  key : Mem
  keySet : Bool
  cok : Nat
  sMobileId : Mem

/-- A session right after `create_new_ss`: all zero but the descriptor. -/
def ConnInfo.init : ConnInfo where
  localAddr := .any
  remoteAddr := .any
  peerAddr := .any
  relayAddr := .any
  fd := -1
  ssl := none
  creds := ⟨fun _ => 0, fun _ => 0, fun _ => 0, false⟩
  key := fun _ => 0
  keySet := false
  cok := 0
  sMobileId := fun _ => 0

/-- What the operating system and the peer decide in one turn: the transaction
id, a result of `random` for each place that calls it, `RAND_bytes`, the clock,
what each uninitialised array holds, and the outcome of the socket calls. -/
structure Choice where
  tid : StunTid
  random : Nat → Nat
  randBytes : Mem
  turnTime : Nat
  junk : Nat → Mem
  junkPwd : List Byte
  sendRet : Int
  recvRet : Int
  recvBuf : Mem
  connectRet : Int
  connected : ConnInfo

/-- A turn in which nothing arrives and every call answers 0. -/
def Choice.idle : Choice where
  tid := ⟨List.replicate 12 0, rfl⟩
  random := fun _ => 0
  randBytes := fun _ => 0
  turnTime := 0
  junk := fun _ _ => 0
  junkPwd := []
  sendRet := 0
  recvRet := 0
  recvBuf := fun _ => 0
  connectRet := 0
  connected := ConnInfo.init

def Choice.sends : Choice := { Choice.idle with sendRet := 1 }

def Choice.receives (bs : List Byte) : Choice :=
  { Choice.idle with recvRet := bs.length, recvBuf := ofList bs }

/-- A header with the transaction id of an idle turn, then the attributes. -/
def responseBytes (msgType : BitVec 16) (attrs : List Byte) : List Byte :=
  be16 msgType ++ be16 (BitVec.ofNat 16 attrs.length) ++ be32 stunMagicCookie ++
    List.replicate 12 0 ++ attrs

def integrityAttr : List Byte := [0x00, 0x08, 0x00, 0x14] ++ List.replicate 20 1

def constantSsl : OpenSsl :=
  ⟨fun _ _ _ => some (List.replicate 20 1), fun _ _ => List.replicate 16 0⟩

def getTurnCredentialsType : TurnCredentialType := .longTerm

/-! ## Building requests -/

def stunAttributeOrigin : BitVec 16 := 0x802F
def stunAttributeOauthAccessToken : BitVec 16 := 0x001B
def stunMethodAllocate : BitVec 16 := 0x0003
def stunMethodRefresh : BitVec 16 := 0x0004
def stunMethodCreatePermission : BitVec 16 := 0x0008
def stunMethodChannelBind : BitVec 16 := 0x0009

def carleonOrigin : List Byte := "https://carleon.gov:443".toUTF8.data.toList.map (·.toBitVec)
def uffrithOrigin : List Byte := "ftp://uffrith.net".toUTF8.data.toList.map (·.toBitVec)

/-- The results of the three appends are not looked at. -/
def addOrigin (g : Globals) (m : StunBuffer) : StunBuffer :=
  if g.origin.bytes.isEmpty then m
  else
    let m := (stunAttrAddString m stunAttributeOrigin carleonOrigin).2
    let m := (stunAttrAddString m stunAttributeOrigin g.origin.bytes).2
    (stunAttrAddString m stunAttributeOrigin uffrithOrigin).2

def nonceSet (ci : ConnInfo) : Bool := ci.creds.nonce 0 ≠ 0

def realmStr (ci : ConnInfo) : List Byte := cstr ci.creds.realm 128
def nonceStr (ci : ConnInfo) : List Byte := cstr ci.creds.nonce 128

def addOauthToken (g : Globals) (c : Choice) (ci : ConnInfo) (m : StunBuffer) :
    Int × ConnInfo × StunBuffer :=
  let ci := { ci with cok := c.random 0 % 65536 % 3 }
  let halflifetime := 555 / 2
  let keyLength := shaSizeBytes g.shatype
  let macKey := slice c.randBytes 12 keyLength
  let enc : OauthEncBlock := ⟨halflifetime + c.random 1 % halflifetime, c.turnTime * 65536, macKey⟩
  match g.encodeOauthToken (cstr ci.creds.serverName 1026) ci.cok enc (slice c.randBytes 0 12) with
  | none => (-1, ci, m)
  | some token =>
    let m := (stunAttrAddStr m stunAttributeOauthAccessToken (some (ofList token.bytes))
      token.bytes.length).2
    (0, { ci with key := write ci.key 0 macKey, keySet := true }, m)

def needsToken (ci : ConnInfo) (m : StunBuffer) : Bool :=
  let method := stunGetMethodStr m.buf m.len
  method == stunMethodAllocate || method == stunMethodRefresh || !ci.keySet

def addIntegrity (g : Globals) (c : Choice) (ci : ConnInfo) (m : StunBuffer) :
    Int × ConnInfo × StunBuffer :=
  if nonceSet ci then
    if g.oauth && ci.creds.oauth then
      let (rc, ci, m) := if needsToken ci m then addOauthToken g c ci m else (0, ci, m)
      if rc < 0 then (-1, ci, m)
      else
        match stunAttrAddIntegrityByKeyStr g.ssl m (g.okeyKid ci.cok).bytes (realmStr ci) ci.key
            (nonceStr ci) g.shatype (c.junk 1) c.junkPwd with
        | (.ok, m) =>
          let test := stunCheckMessageIntegrityByKeyStr g.ssl getTurnCredentialsType m.buf m.len
            ci.key c.junkPwd g.shatype
          if test.1 < 1 then (-1, ci, { m with buf := test.2 })
          else (0, ci, { m with buf := test.2 })
        | (_, m) => (-1, ci, m)
    else
      match stunAttrAddIntegrityByUserStr g.ssl m g.gUname.bytes (realmStr ci) g.gUpwd.bytes
          (nonceStr ci) g.shatype (c.junk 2) (c.junk 1) c.junkPwd with
      | (.ok, m) => (0, ci, m)
      | (_, m) => (-1, ci, m)
  else (0, ci, m)

/-! ## Checking responses -/

def checkIntegrity (g : Globals) (c : Choice) (ci : ConnInfo) (m : StunBuffer) : Int × StunBuffer :=
  let sht := g.shatype
  if g.oauth && ci.creds.oauth then
    let r := stunCheckMessageIntegrityByKeyStr g.ssl getTurnCredentialsType m.buf m.len ci.key
      c.junkPwd sht
    (r.1, { m with buf := r.2 })
  else
    let r := stunCheckMessageIntegrityStr g.ssl getTurnCredentialsType m.buf m.len g.gUname.bytes
      (realmStr ci) g.gUpwd.bytes (c.junk 2) c.junkPwd sht
    if r.1 < 1 then (-1, { m with buf := r.2 }) else (0, { m with buf := r.2 })

/-- The HMAC key of a session: the token key, or the digest of name, realm and password. -/
def sessionKey (g : Globals) (c : Choice) (ci : ConnInfo) : List Byte :=
  let key := if g.oauth && ci.creds.oauth then ci.key
    else stunProduceIntegrityKeyStr g.ssl g.gUname.bytes (realmStr ci) g.gUpwd.bytes (c.junk 2)
      g.shatype
  slice key 0 (getHmackeySize g.shatype)

/-- The attribute is a MESSAGE-INTEGRITY of the digest length that holds the
HMAC of the bytes before it. -/
structure CarriesHmac (g : Globals) (key : List Byte) (buf : Mem) (a : Nat) : Prop where
  type_eq : get16 buf a = stunAttributeMessageIntegrity
  length_eq : (get16 buf (a + 2)).toNat = shaSizeBytes g.shatype
  value_eq : stunCalculateHmac g.ssl (signedBytes buf a (shaSizeBytes g.shatype)) key g.shatype =
    some (attrValue buf a)

/-- `check_integrity` accepts exactly the messages whose first MESSAGE-INTEGRITY
has the right length and can be recomputed, and leaves every message as it was. -/
theorem checkIntegrity_eq (g : Globals) (c : Choice) (ci : ConnInfo) (m : StunBuffer) :
    (checkIntegrity g c ci m).2 = m ∧
      (0 ≤ (checkIntegrity g c ci m).1 ↔
        ∃ sar, stunAttrGetFirstByTypeStr m.buf m.len stunAttributeMessageIntegrity = some sar ∧
          (get16 m.buf (sar + 2)).toNat = shaSizeBytes g.shatype ∧ g.shatype ≠ .error ∧
          (stunCalculateHmac g.ssl (signedBytes m.buf sar (shaSizeBytes g.shatype))
            (sessionKey g c ci) g.shatype).isSome) := by
  have hlong : getTurnCredentialsType ≠ .shortTerm := by decide
  unfold checkIntegrity sessionKey stunCheckMessageIntegrityStr
  simp only [stunCheckMessageIntegrityByKeyStr_eq, if_neg hlong]
  cases stunAttrGetFirstByTypeStr m.buf m.len stunAttributeMessageIntegrity with
  | none => split <;> simp
  | some sar =>
    simp only [Option.some.injEq, exists_eq_left']
    by_cases hoauth : (g.oauth && ci.creds.oauth) = true
    · simp only [if_pos hoauth]
      split <;> simp [*]
    · simp only [if_neg hoauth]
      split <;> simp [*]

/-- A message that has the shape of a signed one really is signed: the first
MESSAGE-INTEGRITY holds its HMAC, or another one does. -/
def SignedIfShaped (g : Globals) (key : List Byte) (buf : Mem) (len : Nat) : Prop :=
  ∀ sar mac, stunAttrGetFirstByTypeStr buf len stunAttributeMessageIntegrity = some sar →
    (get16 buf (sar + 2)).toNat = shaSizeBytes g.shatype → g.shatype ≠ .error →
    stunCalculateHmac g.ssl (signedBytes buf sar (shaSizeBytes g.shatype)) key g.shatype = some mac →
    attrValue buf sar = mac ∨ ∃ a ∈ attrRefs buf len, a ≠ sar ∧ CarriesHmac g key buf a

theorem checkIntegrity_sound_iff (g : Globals) (c : Choice) (ci : ConnInfo) (m : StunBuffer) :
    (0 ≤ (checkIntegrity g c ci m).1 →
        ∃ a ∈ attrRefs m.buf m.len, CarriesHmac g (sessionKey g c ci) m.buf a) ↔
      SignedIfShaped g (sessionKey g c ci) m.buf m.len := by
  rw [(checkIntegrity_eq g c ci m).2]
  constructor
  · intro h sar mac hfirst hlen herr hmac
    obtain ⟨a, hmem, ha⟩ := h ⟨sar, hfirst, hlen, herr, by rw [hmac]; rfl⟩
    by_cases hsar : a = sar
    · subst hsar
      have hval := ha.value_eq
      rw [hmac] at hval
      exact Or.inl (Option.some.inj hval).symm
    · exact Or.inr ⟨a, hmem, hsar, ha⟩
  · rintro h ⟨sar, hfirst, hlen, herr, hsome⟩
    obtain ⟨mac, hmac⟩ := Option.isSome_iff_exists.mp hsome
    obtain ⟨hmem, htype⟩ := stunAttrGetFirstByTypeStr_some hfirst
    rcases h sar mac hfirst hlen herr hmac with hval | ⟨a, ha, _, hcar⟩
    · exact ⟨sar, hmem, htype, hlen, by rw [hmac, hval]⟩
    · exact ⟨a, ha, hcar⟩

def forgedAllocateSuccess : List Byte :=
  [0x01, 0x03, 0x00, 0x18, 0x21, 0x12, 0xA4, 0x42] ++ List.replicate 12 0 ++
    [0x00, 0x08, 0x00, 0x14] ++ List.replicate 20 0

theorem forged_message_accepted :
    let g := Globals.initial constantSsl
    let m : StunBuffer := ⟨ofList forgedAllocateSuccess, 44⟩
    0 ≤ (checkIntegrity g Choice.idle ConnInfo.init m).1 ∧
      ¬∃ a ∈ attrRefs m.buf m.len,
        CarriesHmac g (sessionKey g Choice.idle ConnInfo.init) m.buf a := by
  intro g m
  refine ⟨by decide +kernel, ?_⟩
  rintro ⟨a, hmem, ha⟩
  have hrefs : attrRefs m.buf m.len = [20] := by decide +kernel
  have hzero : attrValue m.buf 20 = List.replicate 20 0 := by decide +kernel
  rw [hrefs, List.mem_singleton] at hmem
  subst hmem
  have hval := ha.value_eq
  rw [hzero] at hval
  exact absurd (Option.some.inj hval) (by decide)

end TurnClient
