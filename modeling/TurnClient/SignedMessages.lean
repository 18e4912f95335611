import TurnClient.StunIntegrity
import TurnClient.StunRoundTrip

/-!
# Checking what was signed

A signed message grows: attributes appended behind MESSAGE-INTEGRITY move the
header length on, and the check has to find the signed bytes again. All that is
needed of the later additions is a frame: they leave the bytes up to and
including the header of MESSAGE-INTEGRITY alone, the length field apart.
-/

namespace TurnClient

open ByteMemory
set_option autoImplicit false

def HashAlg.size : HashAlg → Nat
  | md5 => 16
  | sha1 => 20
  | sha256 => 32
  | sha384 => 48
  | sha512 => 64

def ShaType.hashAlg : ShaType → HashAlg
  | sha256 => .sha256
  | sha384 => .sha384
  | sha512 => .sha512
  | _ => .sha1

/-- A computation that looks at HMAC at one place only, and whose outcome
depends on what HMAC answers there. -/
def FeedsHmac {α : Type} (f : (HashAlg → List Byte → List Byte → Option (List Byte)) → α)
    (alg : HashAlg) (key msg : List Byte) : Prop :=
  ∃ g : Option (List Byte) → α, (∃ x y, g x ≠ g y) ∧ ∀ hmac, f hmac = g (hmac alg key msg)

theorem stunCalculateHmac_eq (ssl : OpenSsl) (msg key : List Byte) (shatype : ShaType) :
    stunCalculateHmac ssl msg key shatype = ssl.hmac shatype.hashAlg key msg := by
  cases shatype <;> rfl

/-! ## Additions after signing -/

/-- A call that adds an attribute: `stun_attr_add_str`, or the fingerprint,
which answers 0 also when its append was refused. -/
inductive Addition where
  | attr (call : AttrCall)
  | fingerprint

def Addition.result (a : Addition) (m : StunBuffer) : Rc × StunBuffer :=
  match a with
  | attr call => call.result m
  | fingerprint => (.ok, stunAttrAddFingerprintStr m)

/-- A row of additions, all of which answer 0. -/
def addSuccessfully (m : StunBuffer) : List Addition → Option StunBuffer
  | [] => some m
  | a :: as =>
    match a.result m with
    | (.ok, m') => addSuccessfully m' as
    | _ => none

/-- The message still begins with the first `n` bytes of another one, up to the
length field, and ends no earlier than it did. -/
structure KeepsStart (m₀ : StunBuffer) (n : Nat) (m : StunBuffer) : Prop where
  commandLen : stunGetCommandMessageLenStr m.buf m.len = (m.len : Int)
  len_mod : m.len % 4 = 0
  len_le : m₀.len ≤ m.len
  bytes : ∀ i, i < n → i ≠ 2 → i ≠ 3 → m.buf i = m₀.buf i

theorem appendRecord_start {buf : Mem} {clen : Nat} {attr : BitVec 16} {v : List Byte} {i : Nat}
    (h2 : i ≠ 2) (h3 : i ≠ 3) (hi : i < clen) : appendRecord buf clen attr v i = buf i := by
  simp only [appendRecord, put16]
  rw [write_outside (by omega), write_outside (by omega), write_outside (by omega),
    write_outside (by simp only [be16_length]; omega)]

theorem commandLen_of_lenField {buf : Mem} {len : Nat} (h20 : 20 ≤ len)
    (h : (get16 buf 2).toNat = len - 20) : stunGetCommandMessageLenStr buf len = (len : Int) := by
  unfold stunGetCommandMessageLenStr stunHeaderLength
  simp only
  rw [if_neg (by omega), if_neg (by omega)]
  omega

theorem twenty_le_of_commandLen {buf : Mem} {len : Nat}
    (h : stunGetCommandMessageLenStr buf len = (len : Int)) :
    20 ≤ len ∧ (get16 buf 2).toNat = len - 20 := by
  rcases stunGetCommandMessageLenStr_cases buf len with hl | ⟨hl, _⟩
  · omega
  · omega

section KeepsStart
variable {m₀ m : StunBuffer} {n : Nat}

theorem KeepsStart.add_cases (h : KeepsStart m₀ n m) (hn : n ≤ m₀.len) (attr : BitVec 16)
    (avalue : Option Mem) (alen : Int) :
    (stunAttrAddStr m attr avalue alen).2 = m ∧ (stunAttrAddStr m attr avalue alen).1 ≠ .ok ∨
    KeepsStart m₀ n (stunAttrAddStr m attr avalue alen).2 ∧
      m.len + Tlv.pad4 (attrBytes avalue alen).length + 4 =
        (stunAttrAddStr m attr avalue alen).2.len := by
  have hle := h.len_le
  obtain ⟨h20, _⟩ := twenty_le_of_commandLen h.commandLen
  have hmod := h.len_mod
  have hpad := Tlv.pad4_mod (attrBytes avalue alen).length
  rw [stunAttrAddStr_eq attr avalue alen h.commandLen hmod]
  simp only
  split
  · exact Or.inl ⟨rfl, by simp⟩
  · split
    · exact Or.inl ⟨rfl, by simp⟩
    · rename_i hroom
      unfold maxStunMessageSize at hroom
      refine Or.inr ⟨⟨?_, ?_, ?_, ?_⟩, ?_⟩
      · apply commandLen_of_lenField
        · simp only
          omega
        · rw [appendRecord_lenField _ _ _ _ h20, BitVec.toNat_ofNat, Nat.mod_eq_of_lt (by omega)]
      · simp only
        omega
      · simp only
        omega
      · intro i hi h2 h3
        exact (appendRecord_start h2 h3 (by omega)).trans (h.bytes i hi h2 h3)
      · simp only
        omega

theorem KeepsStart.writeBehind (h : KeepsStart m₀ n m) {off : Nat} {bs : List Byte}
    (hn : n ≤ off) (hoff : 4 ≤ off) :
    KeepsStart m₀ n { m with buf := write m.buf off bs } := by
  obtain ⟨h20, hfield⟩ := twenty_le_of_commandLen h.commandLen
  refine ⟨?_, h.len_mod, h.len_le, ?_⟩
  · apply commandLen_of_lenField h20
    rw [get16_write_disjoint (by omega)]
    exact hfield
  · intro i hi h2 h3
    exact (write_outside (Or.inl (by omega))).trans (h.bytes i hi h2 h3)

theorem KeepsStart.fingerprint (h : KeepsStart m₀ n m) (hn : n + 4 ≤ m₀.len) :
    KeepsStart m₀ n (stunAttrAddFingerprintStr m) := by
  obtain ⟨h20, _⟩ := twenty_le_of_commandLen h.commandLen
  have hle := h.len_le
  simp only [stunAttrAddFingerprintStr, put32]
  rcases h.add_cases (by omega) stunAttributeFingerprint (some fun _ => 0) 4 with
    ⟨hsame, _⟩ | ⟨hkeeps, hlen⟩
  · rw [hsame]
    exact h.writeBehind (by omega) (by omega)
  · exact hkeeps.writeBehind (by omega) (by omega)

/-- What one addition that answers 0 can do to a message that keeps its start. -/
theorem KeepsStart.addition (h : KeepsStart m₀ n m) (hn : n + 4 ≤ m₀.len) {a : Addition}
    {m' : StunBuffer} (ha : a.result m = (.ok, m')) : KeepsStart m₀ n m' := by
  cases a with
  | attr call =>
    rw [Addition.result, AttrCall.result] at ha
    rcases h.add_cases (by omega) call.attr call.avalue call.alen with ⟨_, hrc⟩ | ⟨hkeeps, _⟩
    · rw [ha] at hrc
      exact absurd rfl hrc
    · rw [ha] at hkeeps
      exact hkeeps
  | fingerprint =>
    cases ha
    exact h.fingerprint hn

theorem KeepsStart.additions (as : List Addition) (h : KeepsStart m₀ n m) (hn : n + 4 ≤ m₀.len)
    {m' : StunBuffer} (hadd : addSuccessfully m as = some m') : KeepsStart m₀ n m' := by
  induction as generalizing m with
  | nil =>
    cases hadd
    exact h
  | cons a as ih =>
    rw [addSuccessfully] at hadd
    cases hres : a.result m with
    | mk rc m₁ =>
      rw [hres] at hadd
      cases rc with
      | ok => exact ih (h.addition hn hres) hadd
      | fail => cases hadd
      | undef => cases hadd

end KeepsStart

/-! ## Finding the attribute again -/

theorem stunAttrCheckValid_of_room {buf : Mem} {off remaining : Nat}
    (h : 4 + Tlv.pad4 (get16 buf (off + 2)).toNat ≤ remaining) :
    stunAttrCheckValid buf off remaining = some off := by
  simp only [stunAttrCheckValid, roundToBoundary_eq]
  rw [if_pos (by omega), if_pos (by omega)]

/-- The walk passes over laid-out records and arrives behind them. -/
theorem visits_over_laidOut {buf : Mem} {len : Nat}
    (hcmd : stunGetCommandMessageLenStr buf len = (len : Int)) (rs : List Tlv.Record) {off : Nat}
    {refs : List Nat} (h : Tlv.LaidOut buf off rs)
    (hroom : off + Tlv.size rs + 4 + Tlv.pad4 (get16 buf (off + Tlv.size rs + 2)).toNat ≤ len)
    (hrest : Visits buf len (some (off + Tlv.size rs)) refs) :
    stunAttrCheckValid buf off (len - off) = some off ∧
      Visits buf len (some off) (Tlv.offsets off rs ++ refs) := by
  induction rs generalizing off with
  | nil =>
    simp only [Tlv.size, Nat.add_zero] at hroom hrest
    exact ⟨stunAttrCheckValid_of_room (by omega), hrest⟩
  | cons r rs ih =>
    have hlen := h.1.2.1
    have hoff : off + Tlv.size (r :: rs) = off + 4 + Tlv.pad4 r.2.length + Tlv.size rs := by
      rw [Tlv.size]
      omega
    rw [hoff] at hroom hrest
    obtain ⟨hvalid, hvisits⟩ := ih h.2 hroom hrest
    refine ⟨stunAttrCheckValid_of_room (by rw [hlen]; omega), .attr ?_⟩
    have hnext : stunAttrGetNextStr buf len (some off) =
        some (off + 4 + Tlv.pad4 r.2.length) := by
      simp only [stunAttrGetNextStr, roundToBoundary_eq, hcmd, hlen]
      rw [if_pos (by omega), ← Nat.cast_sub (by omega), Int.toNat_natCast]
      exact hvalid
    rw [hnext]
    exact hvisits

theorem type_of_mem_offsets {buf : Mem} {off a : Nat} {rs : List Tlv.Record}
    (h : Tlv.LaidOut buf off rs) (ha : a ∈ Tlv.offsets off rs) : ∃ r ∈ rs, get16 buf a = r.1 := by
  induction rs generalizing off with
  | nil => cases ha
  | cons r rs ih =>
    rcases List.mem_cons.mp ha with rfl | ha
    · exact ⟨r, List.mem_cons_self, h.1.1⟩
    · obtain ⟨r', hr', htype⟩ := ih h.2 ha
      exact ⟨r', List.mem_cons_of_mem r hr', htype⟩

/-- The records before the kept part ends, and the header of the one where it does. -/
theorem IsMessage.laidOut_kept {m₀ m : StunBuffer} {msgType : BitVec 16} {tid : StunTid}
    {pre : List Tlv.Record} {r : Tlv.Record} (h : IsMessage m₀ msgType tid (pre ++ [r]))
    (hkeep : KeepsStart m₀ (20 + Tlv.size pre + 4) m) :
    Tlv.LaidOut m.buf 20 pre ∧ get16 m.buf (20 + Tlv.size pre) = r.1 ∧
      (get16 m.buf (20 + Tlv.size pre + 2)).toNat = r.2.length := by
  have hlen := h.len_eq
  have hlaid := h.laidOut
  rw [Tlv.laidOut_append] at hlaid
  obtain ⟨hinit, ⟨htype, hsize, _⟩, _⟩ := hlaid
  rw [Tlv.size_append, Tlv.size, Tlv.size] at hlen
  have hbyte : ∀ i, 20 ≤ i → i < 20 + Tlv.size pre + 4 → m₀.buf i = m.buf i := by
    intro i hlo hhi
    exact (hkeep.bytes i hhi (by omega) (by omega)).symm
  refine ⟨Tlv.laidOut_congr (fun i hlo hhi => hbyte i hlo (by omega)) hinit, ?_, ?_⟩
  · rw [← htype]
    exact (get16_congr (hbyte _ (by omega) (by omega)) (hbyte _ (by omega) (by omega))).symm
  · rw [← hsize]
    exact congrArg _
      (get16_congr (hbyte _ (by omega) (by omega)) (hbyte _ (by omega) (by omega))).symm

theorem find_offsets_none {buf : Mem} {off : Nat} {rs : List Tlv.Record}
    (h : Tlv.LaidOut buf off rs) {attrType : BitVec 16} (hrs : ∀ p ∈ rs, p.1 ≠ attrType) :
    (Tlv.offsets off rs).find? (fun a => get16 buf a == attrType) = none := by
  rw [List.find?_eq_none]
  intro a ha
  obtain ⟨p, hp, htag⟩ := type_of_mem_offsets h ha
  rw [htag, beq_iff_eq]
  exact hrs p hp

theorem IsMessage.firstByType_kept {m₀ m : StunBuffer} {msgType : BitVec 16} {tid : StunTid}
    {pre : List Tlv.Record} {r : Tlv.Record} (h : IsMessage m₀ msgType tid (pre ++ [r]))
    (hpre : ∀ p ∈ pre, p.1 ≠ r.1) (hkeep : KeepsStart m₀ (20 + Tlv.size pre + 4) m) :
    stunAttrGetFirstByTypeStr m.buf m.len r.1 = some (20 + Tlv.size pre) ∧
      (get16 m.buf (20 + Tlv.size pre + 2)).toNat = r.2.length := by
  obtain ⟨hinit, htype, hsize⟩ := h.laidOut_kept hkeep
  have hlen := h.len_eq
  have hle := hkeep.len_le
  rw [Tlv.size_append, Tlv.size, Tlv.size] at hlen
  have hfield := (twenty_le_of_commandLen hkeep.commandLen).2
  have hin : InMessage m.buf m.len (20 + Tlv.size pre) :=
    ⟨by omega, by rw [hsize, hfield]; omega, by omega⟩
  have hrest : Visits m.buf m.len (some (20 + Tlv.size pre))
      (attrRefsFrom m.buf m.len (m.len - 1 + 1) (some (20 + Tlv.size pre))) := by
    apply visits_attrRefsFrom
    intro a ha
    cases ha
    exact ⟨hin, by omega⟩
  obtain ⟨hvalid, hvisits⟩ := visits_over_laidOut hkeep.commandLen pre hinit
    (by rw [hsize]; omega) hrest
  have hfirst : stunAttrGetFirstStr m.buf m.len = some 20 := by
    rw [stunAttrGetFirstStr_of_commandLen hkeep.commandLen (by omega), hvalid]
  have hrefs := visits_attrRefs m.buf m.len
  rw [hfirst] at hrefs
  refine ⟨?_, hsize⟩
  rw [stunAttrGetFirstByTypeStr_eq_find, hrefs.unique hvisits, List.find?_append,
    find_offsets_none hinit hpre, attrRefsFrom, List.find?_cons, htype, beq_self_eq_true]
  rfl

/-! ## Signing by user name -/

/-- The key both sides compute from name, realm and password. -/
def longTermKey (ssl : OpenSsl) (uname realm upwd : List Byte) (shatype : ShaType) : List Byte :=
  slice (stunProduceIntegrityKeyStr ssl uname realm upwd (fun _ => 0) shatype) 0
    (getHmackeySize shatype)

/-- A digest of full size leaves nothing of the uninitialised array in the key. -/
theorem producedKey_eq {ssl : OpenSsl} (hdigest : ∀ alg s, (ssl.digest alg s).length = alg.size)
    (uname realm upwd : List Byte) (key : Mem) (shatype : ShaType) :
    slice (stunProduceIntegrityKeyStr ssl uname realm upwd key shatype) 0
      (getHmackeySize shatype) = longTermKey ssl uname realm upwd shatype := by
  have hfull : ∀ (alg : HashAlg) (s : List Byte) (n : Nat) (k k' : Mem), alg.size = n →
      slice (write k 0 (ssl.digest alg s)) 0 n = slice (write k' 0 (ssl.digest alg s)) 0 n := by
    intro alg s n k k' hn
    have hlen := hdigest alg s
    rw [hn] at hlen
    rw [← hlen, slice_write_same, slice_write_same]
  unfold longTermKey
  cases shatype with
  | error => exact hfull .md5 _ _ _ _ rfl
  | sha1 => exact hfull .md5 _ _ _ _ rfl
  | sha256 => exact hfull .sha256 _ _ _ _ rfl
  | sha384 => exact hfull .sha384 _ _ _ _ rfl
  | sha512 => exact hfull .sha512 _ _ _ _ rfl

/-- The end of signing: HMAC fills the value of the attribute just appended. -/
def fillDigest (m : StunBuffer) (shasize : Nat) : Option (List Byte) → Rc × StunBuffer
  | none => (.fail, m)
  | some h => (.ok, { m with buf := write m.buf (m.len - shasize) (slice (ofList h) 0 shasize) })

theorem IsMessage.signing_eq {m m₁ : StunBuffer} {msgType : BitVec 16} {tid : StunTid}
    {attrs : List Tlv.Record} (h : IsMessage m msgType tid attrs) {ssl : OpenSsl}
    (hdigest : ∀ alg s, (ssl.digest alg s).length = alg.size)
    {uname realm upwd nonce : List Byte} {shatype : ShaType} {key hmac : Mem} {pwd : List Byte}
    (hsign : stunAttrAddIntegrityByUserStr ssl m uname realm upwd nonce shatype key hmac pwd =
      (.ok, m₁)) :
    ∃ m₀, IsMessage m₀ msgType tid (attrs ++ [(stunAttributeUsername, uname),
        (stunAttributeNonce, nonce), (stunAttributeRealm, realm)] ++
        [(stunAttributeMessageIntegrity, slice hmac 0 (shaSizeBytes shatype))]) ∧
      ∀ answer, stunAttrAddIntegrityByUserStr { ssl with hmac := answer } m uname realm upwd nonce
          shatype key hmac pwd =
        fillDigest m₀ (shaSizeBytes shatype) (answer shatype.hashAlg
          (longTermKey ssl uname realm upwd shatype)
          (slice m₀.buf 0 (m₀.len - 4 - shaSizeBytes shatype))) := by
  unfold stunAttrAddIntegrityByUserStr stunAttrAddIntegrityByKeyStr at hsign
  obtain ⟨mu, hu, hsign⟩ := Rc.andThen_eq_ok hsign
  obtain ⟨mn, hn, hsign⟩ := Rc.andThen_eq_ok hsign
  obtain ⟨mr, hr, hsign⟩ := Rc.andThen_eq_ok hsign
  obtain ⟨m₀, hi, _⟩ := Rc.andThen_eq_ok hsign
  have hm₀ := (((h.addedString hu).addedString hn).addedString hr).added hi
  have hbytes : attrBytes (some hmac) (shaSizeBytes shatype : Int) =
      slice hmac 0 (shaSizeBytes shatype) := rfl
  refine ⟨m₀, by simpa [hbytes] using hm₀, ?_⟩
  intro answer
  have hkey : slice (stunProduceIntegrityKeyStr { ssl with hmac := answer } uname realm upwd key
      shatype) 0 (getHmackeySize shatype) = longTermKey ssl uname realm upwd shatype :=
    producedKey_eq hdigest uname realm upwd key shatype
  simp only [stunAttrAddIntegrityByUserStr, stunAttrAddIntegrityByKeyStr, hu, hn, hr, Rc.andThen,
    stunAttrAddIntegrityStr, hi, stunCalculateHmac_eq]
  rw [if_neg (by decide), hkey]
  cases answer shatype.hashAlg (longTermKey ssl uname realm upwd shatype)
    (slice m₀.buf 0 (m₀.len - 4 - shaSizeBytes shatype)) <;> rfl

theorem fillDigest_ok {m m₁ : StunBuffer} {msgType : BitVec 16} {tid : StunTid}
    {attrs : List Tlv.Record} {attr : BitVec 16} {v : List Byte}
    (h : IsMessage m msgType tid (attrs ++ [(attr, v)])) (hmod : v.length % 4 = 0)
    {answer : Option (List Byte)} (hfill : fillDigest m v.length answer = (.ok, m₁)) :
    answer.isSome ∧ ∃ v', v'.length = v.length ∧
      m₁ = { m with buf := write m.buf (m.len - v.length) v' } ∧
      IsMessage m₁ msgType tid (attrs ++ [(attr, v')]) := by
  cases answer with
  | none => cases hfill
  | some digest =>
    cases hfill
    refine ⟨rfl, slice (ofList digest) 0 v.length, slice_length _ _ _, rfl, ?_⟩
    exact h.setLast _ (slice_length _ _ _) hmod

/-- What the check reconstructs of a message that kept its start is what was signed. -/
theorem signedBytes_kept {m₀ m : StunBuffer} {msgType : BitVec 16} {tid : StunTid}
    {pre : List Tlv.Record} {r : Tlv.Record} (h : IsMessage m₀ msgType tid (pre ++ [r]))
    (hmod : r.2.length % 4 = 0) (hkeep : KeepsStart m₀ (20 + Tlv.size pre + 4) m) :
    signedBytes m.buf (20 + Tlv.size pre) r.2.length = slice m₀.buf 0 (20 + Tlv.size pre) := by
  have hsize := h.size_lt
  have hfield := h.lenField
  rw [Tlv.size_append, Tlv.size, Tlv.size] at hsize hfield
  have hpad : Tlv.pad4 r.2.length = r.2.length := by unfold Tlv.pad4; omega
  have hlen : BitVec.ofNat 16 (20 + Tlv.size pre + 4 + r.2.length - 20) = get16 m₀.buf 2 := by
    apply BitVec.eq_of_toNat_eq
    rw [hfield, BitVec.toNat_ofNat, Nat.mod_eq_of_lt (by omega)]
    omega
  rw [signedBytes, hlen]
  apply (slice_eq_iff _ _ _ _).mpr
  intro i _ hi
  by_cases h23 : i = 2 ∨ i = 3
  · have hput := congrFun (put16_get16 m₀.buf 2) i
    rw [← hput]
    rcases h23 with rfl | rfl
    · rfl
    · rfl
  · rw [put16, write_outside (by simp only [be16_length]; omega)]
    exact hkeep.bytes i (by omega) (by omega) (by omega)

/-- The long-term check of a message whose first MESSAGE-INTEGRITY has the right length. -/
theorem longTermCheck_eq {ssl : OpenSsl}
    (hdigest : ∀ alg s, (ssl.digest alg s).length = alg.size) {buf : Mem} {len sar : Nat}
    {shatype : ShaType} (hsha : shatype ≠ .error)
    (hfirst : stunAttrGetFirstByTypeStr buf len stunAttributeMessageIntegrity = some sar)
    (hlen : (get16 buf (sar + 2)).toNat = shaSizeBytes shatype) (uname realm upwd : List Byte)
    (key : Mem) (pwd : List Byte)
    (answer : HashAlg → List Byte → List Byte → Option (List Byte)) :
    stunCheckMessageIntegrityStr { ssl with hmac := answer } .longTerm buf len uname realm upwd key
        pwd shatype =
      if (answer shatype.hashAlg (longTermKey ssl uname realm upwd shatype)
        (signedBytes buf sar (shaSizeBytes shatype))).isSome then (1, buf) else (-1, buf) := by
  have hkey : slice (stunProduceIntegrityKeyStr { ssl with hmac := answer } uname realm upwd key
      shatype) 0 (getHmackeySize shatype) = longTermKey ssl uname realm upwd shatype :=
    producedKey_eq hdigest uname realm upwd key shatype
  have hlong : TurnCredentialType.longTerm ≠ .shortTerm := by decide
  rw [stunCheckMessageIntegrityStr, if_neg hlong, stunCheckMessageIntegrityByKeyStr_eq, hfirst]
  simp only [if_neg hlong, hkey, stunCalculateHmac_eq, hlen, hsha, ne_eq, not_false_eq_true,
    true_and]

/-- Completeness of the integrity check: whatever is added after signing, the
check feeds HMAC what the signer fed it, accepts, and gives the buffer back. -/
theorem signed_message_checks {ssl : OpenSsl}
    (hdigest : ∀ alg s, (ssl.digest alg s).length = alg.size) {m m₁ m' : StunBuffer}
    {msgType : BitVec 16} {tid : StunTid} {attrs : List Tlv.Record}
    (hm : IsMessage m msgType tid attrs)
    (hunsigned : ∀ r ∈ attrs, r.1 ≠ stunAttributeMessageIntegrity)
    {uname realm upwd nonce : List Byte} {shatype : ShaType} (hsha : shatype ≠ .error)
    {key hmac : Mem} {pwd : List Byte}
    (hsign : stunAttrAddIntegrityByUserStr ssl m uname realm upwd nonce shatype key hmac pwd =
      (.ok, m₁))
    {later : List Addition} (hlater : addSuccessfully m₁ later = some m') (key' : Mem)
    (pwd' : List Byte) :
    ∃ alg k bytes,
      FeedsHmac (fun answer => stunAttrAddIntegrityByUserStr { ssl with hmac := answer } m uname
        realm upwd nonce shatype key hmac pwd) alg k bytes ∧
      FeedsHmac (fun answer => stunCheckMessageIntegrityStr { ssl with hmac := answer } .longTerm
        m'.buf m'.len uname realm upwd key' pwd' shatype) alg k bytes ∧
      stunCheckMessageIntegrityStr ssl .longTerm m'.buf m'.len uname realm upwd key' pwd' shatype =
        (1, m'.buf) := by
  obtain ⟨hsize, hmod⟩ := shaSizeBytes_bounds shatype
  obtain ⟨m₀, hm₀, hsigning⟩ := hm.signing_eq hdigest hsign
  generalize hpre : attrs ++ [(stunAttributeUsername, uname), (stunAttributeNonce, nonce),
    (stunAttributeRealm, realm)] = pre at hm₀
  have hfill := (hsigning ssl.hmac).symm.trans hsign
  have hjunk : (slice hmac 0 (shaSizeBytes shatype)).length = shaSizeBytes shatype :=
    slice_length _ _ _
  rw [← hjunk] at hmod hfill
  obtain ⟨hsome, v, hv, hm₁eq, hm₁⟩ := fillDigest_ok hm₀ hmod hfill
  rw [hjunk] at hsome hm₁eq hmod hv
  have hlen₀ := hm₀.len_eq
  have hpad : Tlv.pad4 (shaSizeBytes shatype) = shaSizeBytes shatype := by unfold Tlv.pad4; omega
  rw [Tlv.size_append, Tlv.size, Tlv.size, hjunk, hpad] at hlen₀
  have hlen₁ : m₁.len = m₀.len := by rw [hm₁eq]
  have hpos : 20 ≤ shaSizeBytes shatype := by cases shatype <;> decide
  -- the bytes of MESSAGE-INTEGRITY's value are not among those that are kept
  have hstart : KeepsStart m₁ (20 + Tlv.size pre + 4) m₁ :=
    ⟨hm₁.commandLen, by have := Tlv.size_mod pre; omega, Nat.le_refl _, fun _ _ _ _ => rfl⟩
  have hkeep := hstart.additions later (by omega) hlater
  have hpre' : ∀ p ∈ pre, p.1 ≠ stunAttributeMessageIntegrity := by
    intro p hp
    rw [← hpre, List.mem_append] at hp
    rcases hp with hp | hp
    · exact hunsigned p hp
    · simp only [List.mem_cons, List.not_mem_nil, or_false] at hp
      rcases hp with rfl | rfl | rfl <;> simp only <;> decide
  obtain ⟨hfirst, hlenv⟩ := hm₁.firstByType_kept hpre' hkeep
  have hbytes := signedBytes_kept hm₁ (by rw [hv]; exact hmod) hkeep
  rw [hv] at hlenv hbytes
  have hsigned : slice m₁.buf 0 (20 + Tlv.size pre) =
      slice m₀.buf 0 (m₀.len - 4 - shaSizeBytes shatype) := by
    rw [hm₁eq, slice_write_disjoint (by omega)]
    congr 1
    omega
  have hcheck := longTermCheck_eq hdigest hsha hfirst hlenv uname realm upwd key' pwd'
  rw [hbytes, hsigned] at hcheck
  refine ⟨shatype.hashAlg, longTermKey ssl uname realm upwd shatype, _,
    ⟨fillDigest m₀ (shaSizeBytes shatype), ⟨none, some [], ?_⟩, hsigning⟩,
    ⟨fun x => if x.isSome then (1, m'.buf) else (-1, m'.buf), ⟨none, some [], ?_⟩, hcheck⟩, ?_⟩
  · intro heq
    cases congrArg Prod.fst heq
  · intro heq
    cases congrArg Prod.fst heq
  · exact (hcheck ssl.hmac).trans (if_pos hsome)

/-- OpenSSL's answers for the key "user:home:pass" and the request of `signed_request_checks`. -/
def exampleSsl : OpenSsl where
  hmac := fun _ _ _ => some [0xB1, 0x7A, 0xC1, 0xF2, 0x04, 0x3A, 0xAC, 0x01, 0x75, 0x69,
    0xD2, 0x98, 0xA0, 0x5A, 0x98, 0x51, 0x5F, 0xF1, 0x27, 0x58]
  digest := fun alg _ =>
    match alg with
    | .md5 => [0x3D, 0x6D, 0x84, 0x3D, 0x66, 0x93, 0x10, 0x31,
      0x1C, 0x66, 0x10, 0xC2, 0x96, 0x5B, 0x67, 0x0C]
    | alg => List.replicate alg.size 0

/-- An Allocate request signed with SHA-1, a SOFTWARE attribute and a fingerprint behind it. -/
theorem signed_request_checks :
    let m := MsgClass.init .request 0x0003 (fun _ => 0)
      ⟨[1, 2, 3, 4, 5, 6, 7, 8, 9, 10, 11, 12], rfl⟩ none
    let uname : List Byte := [0x75, 0x73, 0x65, 0x72]
    let realm : List Byte := [0x68, 0x6F, 0x6D, 0x65]
    let upwd : List Byte := [0x70, 0x61, 0x73, 0x73]
    let nonce : List Byte := [0x6E, 0x31, 0x6E, 0x32]
    ∃ m₁ m', stunAttrAddIntegrityByUserStr exampleSsl m uname realm upwd nonce .sha1 (fun _ => 0xAA)
        (fun _ => 0xBB) [] = (.ok, m₁) ∧
      addSuccessfully m₁ [.attr ⟨0x8022, some (ofList [0x61]), 1⟩, .fingerprint] = some m' ∧
      stunCheckMessageIntegrityStr exampleSsl .longTerm m'.buf m'.len uname realm upwd
        (fun _ => 0xCC) [] .sha1 = (1, m'.buf) := by
  intro m uname realm upwd nonce
  have hok : (stunAttrAddIntegrityByUserStr exampleSsl m uname realm upwd nonce .sha1
      (fun _ => 0xAA) (fun _ => 0xBB) []).1 = .ok := by decide +kernel
  generalize hsign : stunAttrAddIntegrityByUserStr exampleSsl m uname realm upwd nonce .sha1
    (fun _ => 0xAA) (fun _ => 0xBB) [] = signed at hok
  obtain ⟨rc, m₁⟩ := signed
  cases hok
  have hsome : (addSuccessfully (stunAttrAddIntegrityByUserStr exampleSsl m uname realm upwd nonce
      .sha1 (fun _ => 0xAA) (fun _ => 0xBB) []).2
      [.attr ⟨0x8022, some (ofList [0x61]), 1⟩, .fingerprint]).isSome := by decide +kernel
  rw [hsign] at hsome
  obtain ⟨m', hlater⟩ := Option.isSome_iff_exists.mp hsome
  have hdigest : ∀ alg s, (exampleSsl.digest alg s).length = alg.size := by
    intro alg s
    cases alg <;> rfl
  obtain ⟨_, _, _, _, _, hcheck⟩ := signed_message_checks hdigest
    (isMessage_init .request 0x0003 (fun _ => 0) _ none) (by simp) (by decide) hsign hlater
    (fun _ => 0xCC) []
  exact ⟨m₁, m', rfl, hlater, hcheck⟩

end TurnClient
