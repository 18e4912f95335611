import TurnClient.StunBuilding
import TurnClient.StunResponses
import TurnClient.NsCrc32

/-!
# MESSAGE-INTEGRITY and FINGERPRINT

Signing appends an attribute and then fills its value in place; checking
rewrites the header length for the time of one HMAC and restores it. OpenSSL is
a parameter: any HMAC and any digest. Strings are byte lists without the
terminating zero.
-/

namespace TurnClient

open ByteMemory
set_option autoImplicit false

def stunAttributeUsername : BitVec 16 := 0x0006
def stunAttributeMessageIntegrity : BitVec 16 := 0x0008
def stunAttributeFingerprint : BitVec 16 := 0x8028

inductive ShaType where
  | error
  | sha1
  | sha256
  | sha384
  | sha512
deriving DecidableEq

inductive HashAlg where
  | md5
  | sha1
  | sha256
  | sha384
  | sha512
deriving DecidableEq

inductive TurnCredentialType where
  | none
  | longTerm
  | shortTerm
  | undefined
deriving DecidableEq

/-- The OpenSSL calls: `HMAC` answers NULL when it fails. -/
structure OpenSsl where
  hmac : HashAlg → (key msg : List Byte) → Option (List Byte)
  digest : HashAlg → List Byte → List Byte

def getHmackeySize : ShaType → Nat
  | .sha256 => 32
  | .sha384 => 48
  | .sha512 => 64
  | _ => 16

def shaSizeBytes : ShaType → Nat
  | .sha256 => 32
  | .sha384 => 48
  | .sha512 => 64
  | _ => 20

def stunCalculateHmac (ssl : OpenSsl) (msg key : List Byte) (shatype : ShaType) :
    Option (List Byte) :=
  match shatype with
  | .sha256 => ssl.hmac .sha256 key msg
  | .sha384 => ssl.hmac .sha384 key msg
  | .sha512 => ssl.hmac .sha512 key msg
  | _ => ssl.hmac .sha1 key msg

def stunProduceIntegrityKeyStr (ssl : OpenSsl) (uname realm upwd : List Byte) (key : Mem)
    (shatype : ShaType) : Mem :=
  let str := uname ++ [0x3A] ++ realm ++ [0x3A] ++ upwd
  match shatype with
  | .sha256 => write key 0 (ssl.digest .sha256 str)
  | .sha384 => write key 0 (ssl.digest .sha384 str)
  | .sha512 => write key 0 (ssl.digest .sha512 str)
  | _ => write key 0 (ssl.digest .md5 str)

/-! ## Checking -/

def checkedShaSize (sarlen : Nat) (shatype : ShaType) : Option Nat :=
  if sarlen = 32 then if shatype = .sha256 then some 32 else none
  else if sarlen = 48 then if shatype = .sha384 then some 48 else none
  else if sarlen = 64 then if shatype = .sha512 then some 64 else none
  else if sarlen = 20 then if shatype = .sha1 then some 20 else none
  else none

def stunCheckMessageIntegrityByKeyStr (ssl : OpenSsl) (ct : TurnCredentialType) (buf : Mem)
    (len : Nat) (key : Mem) (pwd : List Byte) (shatype : ShaType) : Int × Mem :=
  match stunAttrGetFirstByTypeStr buf len stunAttributeMessageIntegrity with
  | none => (-1, buf)
  | some sar =>
    match checkedShaSize (get16 buf (sar + 2)).toNat shatype with
    | none => (-1, buf)
    | some shasize =>
      let origLen := stunGetCommandMessageLenStr buf len
      if origLen < 0 then (-1, buf)
      else
        let newLen : Int := (sar + 4 + shasize : Nat)
        if origLen < newLen then (-1, buf)
        else
          let set := stunSetCommandMessageLenStr buf newLen
          if set.1 < 0 then (-1, set.2)
          else
            let hmacKey := if ct = .shortTerm then pwd else slice key 0 (getHmackeySize shatype)
            let res := stunCalculateHmac ssl (slice set.2 0 (newLen - 4 - shasize).toNat) hmacKey
              shatype
            let buf := (stunSetCommandMessageLenStr set.2 origLen).2
            match res with
            | none => (-1, buf)
            | some _ =>
              match stunAttrGetValue buf (some sar) with
              | none => (-1, buf)
              -- the source has the comparison of the two digests commented out here
              | some _ => (1, buf)

/-- `key` and `pwd` are the two uninitialised local arrays. -/
def stunCheckMessageIntegrityStr (ssl : OpenSsl) (ct : TurnCredentialType) (buf : Mem) (len : Nat)
    (uname realm upwd : List Byte) (key : Mem) (pwd : List Byte) (shatype : ShaType) : Int × Mem :=
  if ct = .shortTerm then stunCheckMessageIntegrityByKeyStr ssl ct buf len key upwd shatype
  else stunCheckMessageIntegrityByKeyStr ssl ct buf len
    (stunProduceIntegrityKeyStr ssl uname realm upwd key shatype) pwd shatype

theorem checkedShaSize_eq_some {sarlen : Nat} {shatype : ShaType} {shasize : Nat} :
    checkedShaSize sarlen shatype = some shasize ↔
      shasize = sarlen ∧ sarlen = shaSizeBytes shatype ∧ shatype ≠ .error := by
  cases shatype <;> simp only [checkedShaSize, shaSizeBytes] <;> split_ifs <;> simp_all <;> omega

/-- What is signed: the bytes before the attribute, under a header length that ends right after it. -/
def signedBytes (buf : Mem) (sar shasize : Nat) : List Byte :=
  slice (put16 buf 2 (BitVec.ofNat 16 (sar + 4 + shasize - 20))) 0 sar

theorem restore_commandLen (buf : Mem) (x : BitVec 16) :
    (stunSetCommandMessageLenStr (put16 buf 2 x) (((get16 buf 2).toNat + 20 : Nat) : Int)).2 =
      buf := by
  have hsub : (((get16 buf 2).toNat + 20 : Nat) : Int) - (stunHeaderLength : Int) =
      ((get16 buf 2).toNat : Int) := by
    unfold stunHeaderLength
    omega
  rw [stunSetCommandMessageLenStr, if_neg (by unfold stunHeaderLength; omega), hsub,
    BitVec.ofInt_natCast, BitVec.ofNat_toNat, BitVec.setWidth_eq, put16_put16, put16_get16]

/-- The check by key as one equation: its answer depends on the attribute
length and on whether HMAC can be computed, and the buffer is left as it was. -/
theorem stunCheckMessageIntegrityByKeyStr_eq (ssl : OpenSsl) (ct : TurnCredentialType) (buf : Mem)
    (len : Nat) (key : Mem) (pwd : List Byte) (shatype : ShaType) :
    stunCheckMessageIntegrityByKeyStr ssl ct buf len key pwd shatype =
      match stunAttrGetFirstByTypeStr buf len stunAttributeMessageIntegrity with
      | none => (-1, buf)
      | some sar =>
        if (get16 buf (sar + 2)).toNat = shaSizeBytes shatype ∧ shatype ≠ .error ∧
            (stunCalculateHmac ssl (signedBytes buf sar (shaSizeBytes shatype))
              (if ct = .shortTerm then pwd else slice key 0 (getHmackeySize shatype))
              shatype).isSome
        then (1, buf) else (-1, buf) := by
  unfold stunCheckMessageIntegrityByKeyStr
  cases hsar : stunAttrGetFirstByTypeStr buf len stunAttributeMessageIntegrity with
  | none => rfl
  | some sar =>
    simp only
    cases hsize : checkedShaSize (get16 buf (sar + 2)).toNat shatype with
    | none =>
      refine (if_neg ?_).symm
      rintro ⟨hlen, herr, _⟩
      have hsome := checkedShaSize_eq_some.mpr ⟨rfl, hlen, herr⟩
      rw [hsize] at hsome
      cases hsome
    | some shasize =>
      obtain ⟨rfl, hlen, herr⟩ := checkedShaSize_eq_some.mp hsize
      obtain ⟨hlo, hin, hle⟩ := inMessage_of_mem (stunAttrGetFirstByTypeStr_some hsar).1
      have hpad := Tlv.le_pad4 (get16 buf (sar + 2)).toNat
      have horig : stunGetCommandMessageLenStr buf len = (((get16 buf 2).toNat + 20 : Nat) : Int) := by
        unfold stunGetCommandMessageLenStr stunHeaderLength
        rw [if_neg (by omega), if_neg (by omega)]
      have hset : stunSetCommandMessageLenStr buf
          ((sar + 4 + (get16 buf (sar + 2)).toNat : Nat) : Int) =
          (0, put16 buf 2 (BitVec.ofNat 16 (sar + 4 + (get16 buf (sar + 2)).toNat - 20))) := by
        rw [stunSetCommandMessageLenStr, if_neg (by unfold stunHeaderLength; omega)]
        simp only [stunHeaderLength]
        rw [← Nat.cast_sub (by omega), BitVec.ofInt_natCast]
      have hbytes : (((sar + 4 + (get16 buf (sar + 2)).toNat : Nat) : Int) - 4 -
          ((get16 buf (sar + 2)).toNat : Int)).toNat = sar := by omega
      have hpos : (get16 buf (sar + 2)).toNat ≠ 0 := by
        rw [hlen]
        cases shatype <;> decide
      simp only [horig, hset, hbytes, restore_commandLen, stunAttrGetValue_some, if_neg hpos]
      rw [if_neg (by omega), if_neg (by omega), if_neg (by omega)]
      simp only [hlen, signedBytes, true_and, herr, ne_eq, not_false_eq_true]
      cases stunCalculateHmac ssl (slice (put16 buf 2
        (BitVec.ofNat 16 (sar + 4 + shaSizeBytes shatype - 20))) 0 sar)
        (if ct = .shortTerm then pwd else slice key 0 (getHmackeySize shatype)) shatype <;> rfl

theorem stunCheckMessageIntegrityByKeyStr_buf (ssl : OpenSsl) (ct : TurnCredentialType) (buf : Mem)
    (len : Nat) (key : Mem) (pwd : List Byte) (shatype : ShaType) :
    (stunCheckMessageIntegrityByKeyStr ssl ct buf len key pwd shatype).2 = buf := by
  rw [stunCheckMessageIntegrityByKeyStr_eq]
  split
  · rfl
  · rw [apply_ite Prod.snd, ite_self]

/-! ## Signing -/

def Rc.andThen (r : Rc × StunBuffer) (rest : StunBuffer → Rc × StunBuffer) : Rc × StunBuffer :=
  match r with
  | (.ok, m) => rest m
  | r => r

theorem Rc.andThen_eq_ok {r : Rc × StunBuffer} {rest : StunBuffer → Rc × StunBuffer}
    {m : StunBuffer} (h : Rc.andThen r rest = (.ok, m)) :
    ∃ m₁, r = (.ok, m₁) ∧ rest m₁ = (.ok, m) := by
  obtain ⟨rc, m₁⟩ := r
  cases rc with
  | ok => exact ⟨m₁, rfl, h⟩
  | fail => cases h
  | undef => cases h

def stunAttrAddString (m : StunBuffer) (attr : BitVec 16) (s : List Byte) : Rc × StunBuffer :=
  stunAttrAddStr m attr (some (ofList s)) s.length

theorem IsMessage.addedString {m m' : StunBuffer} {msgType : BitVec 16} {tid : StunTid}
    {attrs : List Tlv.Record} (h : IsMessage m msgType tid attrs) {attr : BitVec 16}
    {s : List Byte} (hadd : stunAttrAddString m attr s = (.ok, m')) :
    IsMessage m' msgType tid (attrs ++ [(attr, s)]) := by
  have hm' := h.added hadd
  rwa [attrBytes_ofList] at hm'

/-- `hmac` is the uninitialised local array the attribute is first filled from. -/
def stunAttrAddIntegrityStr (ssl : OpenSsl) (ct : TurnCredentialType) (m : StunBuffer) (key : Mem)
    (pwd : List Byte) (shatype : ShaType) (hmac : Mem) : Rc × StunBuffer :=
  let shasize := shaSizeBytes shatype
  Rc.andThen (stunAttrAddStr m stunAttributeMessageIntegrity (some hmac) shasize) fun m =>
    let hmacKey := if ct = .shortTerm then pwd else slice key 0 (getHmackeySize shatype)
    match stunCalculateHmac ssl (slice m.buf 0 (m.len - 4 - shasize)) hmacKey shatype with
    | none => (.fail, m)
    -- HMAC fills exactly the bytes of the digest
    | some h => (.ok, { m with buf := write m.buf (m.len - shasize) (slice (ofList h) 0 shasize) })

def stunAttrAddIntegrityByKeyStr (ssl : OpenSsl) (m : StunBuffer) (uname realm : List Byte)
    (key : Mem) (nonce : List Byte) (shatype : ShaType) (hmac : Mem) (pwd : List Byte) :
    Rc × StunBuffer :=
  Rc.andThen (stunAttrAddString m stunAttributeUsername uname) fun m =>
  Rc.andThen (stunAttrAddString m stunAttributeNonce nonce) fun m =>
  Rc.andThen (stunAttrAddString m stunAttributeRealm realm) fun m =>
  stunAttrAddIntegrityStr ssl .longTerm m key pwd shatype hmac

def stunAttrAddIntegrityByUserStr (ssl : OpenSsl) (m : StunBuffer) (uname realm upwd nonce : List Byte)
    (shatype : ShaType) (key hmac : Mem) (pwd : List Byte) : Rc × StunBuffer :=
  stunAttrAddIntegrityByKeyStr ssl m uname realm
    (stunProduceIntegrityKeyStr ssl uname realm upwd key shatype) nonce shatype hmac pwd

/-- The result code of the inner append is not looked at. -/
def stunAttrAddFingerprintStr (m : StunBuffer) : StunBuffer :=
  let m := (stunAttrAddStr m stunAttributeFingerprint (some fun _ => 0) 4).2
  let crc32 := nsCrc32 (slice m.buf 0 (m.len - 8))
  { m with buf := put32 m.buf (m.len - 4) (crc32 ^^^ 0x5354554E) }

/-! ## What signing keeps -/

theorem IsMessage.setLast {m : StunBuffer} {msgType : BitVec 16} {tid : StunTid}
    {attrs : List Tlv.Record} {attr : BitVec 16} {v : List Byte}
    (h : IsMessage m msgType tid (attrs ++ [(attr, v)])) (v' : List Byte) (hlen : v'.length = v.length)
    (hmod : v.length % 4 = 0) :
    IsMessage { m with buf := write m.buf (m.len - v.length) v' } msgType tid
      (attrs ++ [(attr, v')]) := by
  have hpad : Tlv.pad4 v.length = v.length := by unfold Tlv.pad4; omega
  have hsize : Tlv.size (attrs ++ [(attr, v)]) = Tlv.size attrs + (4 + v.length) := by
    simp [Tlv.size, hpad]
  have hsize' : Tlv.size (attrs ++ [(attr, v')]) = Tlv.size (attrs ++ [(attr, v)]) := by
    simp [Tlv.size, hlen]
  have hoff : m.len - v.length = 20 + Tlv.size attrs + 4 := by
    rw [h.len_eq, hsize]
    omega
  have hl := h.laidOut
  rw [Tlv.laidOut_append] at hl
  obtain ⟨hinit, ⟨htype, hlast, _⟩, _⟩ := hl
  rw [hoff]
  refine ⟨h.header.write (by unfold stunHeaderLength; omega), ?_, ?_, ?_⟩
  · rw [hsize', ← h.lenField]
    exact congrArg _ (get16_write_disjoint (by omega))
  · rw [hsize']
    exact h.len_eq
  · rw [Tlv.laidOut_append]
    refine ⟨Tlv.laidOut_write (by omega) hinit, ⟨?_, ?_, slice_write_same _ _ _⟩, trivial⟩
    · exact (get16_write_disjoint (by omega)).trans htype
    · rw [hlen, ← hlast]
      exact congrArg _ (get16_write_disjoint (by omega))

/-- A message that starts with these attributes and has not outgrown a size. -/
structure Extends (m : StunBuffer) (msgType : BitVec 16) (tid : StunTid) (attrs : List Tlv.Record)
    (bound : Nat) : Prop where
  isMessage : ∃ extra, IsMessage m msgType tid (attrs ++ extra)
  len_le : m.len ≤ bound

/-- The same with a condition on everything that follows these attributes. -/
structure ExtendsBy (added : Tlv.Record → Prop) (m : StunBuffer) (msgType : BitVec 16)
    (tid : StunTid) (attrs : List Tlv.Record) (bound : Nat) : Prop where
  isMessage : ∃ extra, (∀ r ∈ extra, added r) ∧ IsMessage m msgType tid (attrs ++ extra)
  len_le : m.len ≤ bound

/-- The types of the attributes that signing a message and its fingerprint add. -/
def signingTypes : List (BitVec 16) :=
  [stunAttributeUsername, stunAttributeNonce, stunAttributeRealm, stunAttributeMessageIntegrity,
    stunAttributeFingerprint]

section Extends

variable {m : StunBuffer} {msgType : BitVec 16} {tid : StunTid} {attrs : List Tlv.Record}
  {bound : Nat} {added : Tlv.Record → Prop}

theorem IsMessage.toExtends (h : IsMessage m msgType tid attrs) :
    Extends m msgType tid attrs m.len :=
  ⟨⟨[], by simpa using h⟩, Nat.le_refl _⟩

theorem Extends.mono (h : Extends m msgType tid attrs bound) {bound' : Nat}
    (hle : bound ≤ bound') : Extends m msgType tid attrs bound' :=
  ⟨h.isMessage, Nat.le_trans h.len_le hle⟩

theorem extends_iff_extendsBy :
    Extends m msgType tid attrs bound ↔ ExtendsBy (fun _ => True) m msgType tid attrs bound :=
  ⟨fun ⟨⟨extra, hm⟩, hlen⟩ => ⟨⟨extra, fun _ _ => trivial, hm⟩, hlen⟩,
    fun ⟨⟨extra, _, hm⟩, hlen⟩ => ⟨⟨extra, hm⟩, hlen⟩⟩

theorem IsMessage.extendsBy (h : IsMessage m msgType tid attrs) :
    ExtendsBy added m msgType tid attrs m.len :=
  ⟨⟨[], by simp, by simpa using h⟩, Nat.le_refl _⟩

theorem ExtendsBy.mono (h : ExtendsBy added m msgType tid attrs bound) {bound' : Nat}
    (hle : bound ≤ bound') : ExtendsBy added m msgType tid attrs bound' :=
  ⟨h.isMessage, Nat.le_trans h.len_le hle⟩

theorem IsMessage.extendsBy_append {extra : List Tlv.Record} {r : Tlv.Record}
    (h : IsMessage m msgType tid (attrs ++ (extra ++ [r]))) (hextra : ∀ r ∈ extra, added r)
    (hr : added r) (hlen : m.len ≤ bound) : ExtendsBy added m msgType tid attrs bound :=
  ⟨⟨_, List.forall_mem_append.mpr ⟨hextra, List.forall_mem_singleton.mpr hr⟩, h⟩, hlen⟩

theorem ExtendsBy.add (h : ExtendsBy added m msgType tid attrs bound) (attr : BitVec 16)
    (avalue : Option Mem) (alen : Int) {n : Nat} (hn : (attrBytes avalue alen).length ≤ n)
    (hroom : bound + n + 8 ≤ 65507) :
    ∃ m', stunAttrAddStr m attr avalue alen = (.ok, m') ∧
      (∃ extra, (∀ r ∈ extra, added r) ∧
        IsMessage m' msgType tid (attrs ++ (extra ++ [(attr, attrBytes avalue alen)]))) ∧
      m'.len ≤ bound + n + 8 := by
  obtain ⟨⟨extra, hextra, hm⟩, hlen⟩ := h
  obtain ⟨m', hcall, hm', hlen'⟩ := hm.add_ok attr avalue alen (by unfold maxStunMessageSize; omega)
  rw [List.append_assoc] at hm'
  exact ⟨m', hcall, ⟨extra, hextra, hm'⟩, by omega⟩

theorem ExtendsBy.addStr (h : ExtendsBy added m msgType tid attrs bound) (attr : BitVec 16)
    (avalue : Option Mem) (alen : Int) (hadded : added (attr, attrBytes avalue alen)) {n : Nat}
    (hn : (attrBytes avalue alen).length ≤ n) (hroom : bound + n + 8 ≤ 65507) :
    ∃ m', stunAttrAddStr m attr avalue alen = (.ok, m') ∧
      ExtendsBy added m' msgType tid attrs (bound + n + 8) := by
  obtain ⟨m', hcall, ⟨extra, hextra, hm'⟩, hlen⟩ := h.add attr avalue alen hn hroom
  exact ⟨m', hcall, hm'.extendsBy_append hextra hadded hlen⟩

theorem ExtendsBy.addString (h : ExtendsBy added m msgType tid attrs bound) (attr : BitVec 16)
    (s : List Byte) (hadded : added (attr, s)) {n : Nat} (hn : s.length ≤ n)
    (hroom : bound + n + 8 ≤ 65507) :
    ∃ m', stunAttrAddString m attr s = (.ok, m') ∧
      ExtendsBy added m' msgType tid attrs (bound + n + 8) :=
  h.addStr attr _ _ (by rwa [attrBytes_ofList]) (by rwa [attrBytes_ofList]) hroom

theorem shaSizeBytes_bounds (shatype : ShaType) :
    shaSizeBytes shatype ≤ 64 ∧ shaSizeBytes shatype % 4 = 0 := by
  cases shatype <;> decide

variable (hsigning : ∀ r : Tlv.Record, r.1 ∈ signingTypes → added r)
include hsigning

theorem ExtendsBy.signed (h : ExtendsBy added m msgType tid attrs bound)
    (hroom : bound + 72 ≤ 65507) (ssl : OpenSsl) (ct : TurnCredentialType) (key : Mem)
    (pwd : List Byte) (shatype : ShaType) (hmac : Mem) :
    ExtendsBy added (stunAttrAddIntegrityStr ssl ct m key pwd shatype hmac).2 msgType tid attrs
      (bound + 72) := by
  have hadded (v : List Byte) : added (stunAttributeMessageIntegrity, v) :=
    hsigning _ (by simp [signingTypes])
  obtain ⟨hle, hmod⟩ := shaSizeBytes_bounds shatype
  have hbytes : attrBytes (some hmac) (shaSizeBytes shatype : Int) =
      slice hmac 0 (shaSizeBytes shatype) := rfl
  obtain ⟨m', hcall, ⟨extra, hextra, hm'⟩, hlen⟩ := h.add stunAttributeMessageIntegrity (some hmac)
    (shaSizeBytes shatype) (n := 64) (by rw [hbytes, slice_length]; exact hle) hroom
  simp only [stunAttrAddIntegrityStr, hcall, Rc.andThen]
  split
  · exact hm'.extendsBy_append hextra (hadded _) hlen
  · rename_i mac _
    rw [hbytes, ← List.append_assoc] at hm'
    have hset := hm'.setLast (slice (ofList mac) 0 (shaSizeBytes shatype)) (by simp)
      (by rw [slice_length]; exact hmod)
    rw [slice_length, List.append_assoc] at hset
    exact hset.extendsBy_append hextra (hadded _) hlen

theorem ExtendsBy.signedByKey (h : ExtendsBy added m msgType tid attrs bound)
    (hroom : bound + 1000 ≤ 65507) (ssl : OpenSsl) {uname realm nonce : List Byte}
    (huname : uname.length ≤ 512) (hrealm : realm.length ≤ 128) (hnonce : nonce.length ≤ 128)
    (key : Mem) (shatype : ShaType) (hmac : Mem) (pwd : List Byte) :
    ExtendsBy added (stunAttrAddIntegrityByKeyStr ssl m uname realm key nonce shatype hmac pwd).2
      msgType tid attrs (bound + 1000) := by
  obtain ⟨m₁, h₁, e₁⟩ := h.addString stunAttributeUsername uname
    (hsigning _ (by simp [signingTypes])) huname (by omega)
  obtain ⟨m₂, h₂, e₂⟩ := e₁.addString stunAttributeNonce nonce
    (hsigning _ (by simp [signingTypes])) hnonce (by omega)
  obtain ⟨m₃, h₃, e₃⟩ := e₂.addString stunAttributeRealm realm
    (hsigning _ (by simp [signingTypes])) hrealm (by omega)
  simp only [stunAttrAddIntegrityByKeyStr, h₁, h₂, h₃, Rc.andThen]
  exact (e₃.signed hsigning (by omega) ssl .longTerm key pwd shatype hmac).mono (by omega)

theorem ExtendsBy.fingerprint (h : ExtendsBy added m msgType tid attrs bound)
    (hroom : bound + 12 ≤ 65507) :
    ExtendsBy added (stunAttrAddFingerprintStr m) msgType tid attrs (bound + 12) := by
  obtain ⟨m', hcall, ⟨extra, hextra, hm'⟩, hlen⟩ := h.add stunAttributeFingerprint
    (some fun _ => 0) 4 (n := 4) (Nat.le_refl _) hroom
  rw [← List.append_assoc] at hm'
  simp only [stunAttrAddFingerprintStr, hcall]
  have hset := hm'.setLast (be32 (nsCrc32 (slice m'.buf 0 (m'.len - 8)) ^^^ 0x5354554E)) rfl rfl
  rw [List.append_assoc] at hset
  exact hset.extendsBy_append hextra (hsigning _ (by simp [signingTypes])) hlen

end Extends

end TurnClient
