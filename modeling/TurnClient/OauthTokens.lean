import TurnClient.EvpCipher

/-!
# OAuth tokens

`encode_oauth_token_gcm` writes the nonce with its length in clear text, then
the sealed block and the tag; `decode_oauth_token_gcm` takes the nonce length
from the token, finds the other parts by it and copies a key of the length that
the block names. Both are given pointers that are not NULL. The decoder is
modelled with the ranges of its arrays that it reads and writes.
-/

namespace TurnClient

open ByteMemory
set_option autoImplicit false

def oauthMaxNonceSize : Nat := 256
def maxShaSize : Nat := 128
def maxEncodedOauthTokenSize : Nat := 1024

inductive EncAlg where
  | error
  | a256gcm
  | a128gcm
  | num
deriving DecidableEq

def getCipherType : EncAlg → Option EvpCipher
  | .a128gcm => some .aes128Gcm
  | .a256gcm => some .aes256Gcm
  | _ => none

structure OauthKey where
  asRsAlg : EncAlg
  asRsKey : Mem

structure OauthEncryptedBlock where
  nonceLength : BitVec 16
  nonce : Mem
  keyLength : BitVec 16
  macKey : Mem
  timestamp : BitVec 64
  lifetime : BitVec 32

structure OauthToken where
  encBlock : OauthEncryptedBlock

structure EncodedOauthToken where
  token : Mem
  size : Nat

structure GcmNonce where
  bytes : List Byte
  size_eq : bytes.length = oauthGcmNonceSize

/-- The associated data: `strlen` goes through an `int`. -/
def serverNameAad (serverName : List Byte) : List Byte :=
  serverName.take (BitVec.ofNat 32 serverName.length).toInt.toNat

/-! ## Encoding -/

/-- `orig_field` and the length in use. -/
def origField (nonce : GcmNonce) (b : OauthEncryptedBlock) : Mem × Nat :=
  let field := put16 (fun _ => 0) 0 (BitVec.ofNat 16 oauthGcmNonceSize)
  let len := 2
  let field := write field len nonce.bytes
  let len := len + oauthGcmNonceSize
  let field := put16 field len b.keyLength
  let len := len + 2
  let field := write field len (slice b.macKey 0 b.keyLength.toNat)
  let len := len + b.keyLength.toNat
  let field := write field len (be64 b.timestamp)
  let len := len + 8
  let field := put32 field len b.lifetime
  let len := len + 4
  (field, len)

/-- Without a nonce `rnd` is drawn. A call that fails leaves what has been written so far. -/
def encodeOauthTokenGcm (evp : Evp) (serverName : List Byte) (etoken : EncodedOauthToken)
    (key : OauthKey) (dtoken : OauthToken) (nonce0 : Option GcmNonce) (rnd : GcmNonce) :
    Int × EncodedOauthToken :=
  if dtoken.encBlock.keyLength.toNat ≤ maxShaSize then
    let nonce := nonce0.getD rnd
    let (field, len) := origField nonce dtoken.encBlock
    match getCipherType key.asRsAlg with
    | none => (-1, etoken)
    | some cipher =>
      match evp.startEncrypt cipher (slice key.asRsKey 0 cipher.keyLength) nonce.bytes with
      | none => (-1, etoken)
      | some ctx =>
        let aad := evp.myEvpEncryptUpdate ctx false (serverNameAad serverName)
        if aad.ret ≠ 1 then (-1, etoken)
        else
          let start := oauthGcmNonceSize + 2
          let token := write etoken.token 0 (slice field 0 start)
          let data := evp.myEvpEncryptUpdate aad.ctx true (slice field start (len - start))
          let token := write token start data.out
          if data.ret ≠ 1 then (-1, { etoken with token })
          else
            let outl := data.out.length
            let last := evp.encrypt.final data.ctx
            let token := write token (start + outl) last.out
            let outl := outl + last.out.length
            let token := write token (start + outl) (evp.getTag last.ctx)
            let outl := outl + oauthGcmTagSize
            (0, ⟨token, 2 + oauthGcmNonceSize + outl⟩)
  else (-1, etoken)

def encodeOauthToken (evp : Evp) (serverName : List Byte) (etoken : EncodedOauthToken)
    (key : OauthKey) (dtoken : OauthToken) (nonce0 : Option GcmNonce) (rnd : GcmNonce) :
    Int × EncodedOauthToken :=
  match key.asRsAlg with
  | .a256gcm => encodeOauthTokenGcm evp serverName etoken key dtoken nonce0 rnd
  | .a128gcm => encodeOauthTokenGcm evp serverName etoken key dtoken nonce0 rnd
  | _ => (-1, etoken)

/-! ## Decoding -/

inductive OauthArray where
  | token
  | decodedField
  | nonce
  | macKey
deriving DecidableEq

/-- A range of bytes that is read (of `token` and `decoded_field`) or written (of `nonce` and
`mac_key`). -/
structure OauthAccess where
  array : OauthArray
  off : Nat
  count : Nat

/-- The answer and `*dtoken`, how many bytes of `decoded_field` were filled, and the ranges. -/
structure DecodeResult where
  ret : Int
  dtoken : OauthToken
  outl : Nat
  accesses : List OauthAccess

/-- The block as it is read from `decoded_field`. -/
def readBlock (field : Mem) (b : OauthEncryptedBlock) : OauthEncryptedBlock × List OauthAccess :=
  let len := 0
  let keyLength := get16 field len
  let len := len + 2
  let k := keyLength.toNat
  let macKey := write b.macKey 0 (slice field len k)
  let len := len + k
  let timestamp := get64 field len
  let len := len + 8
  let lifetime := get32 field len
  ({ b with keyLength, macKey, timestamp, lifetime },
    [⟨.decodedField, 0, 2⟩, ⟨.decodedField, 2, k⟩, ⟨.macKey, 0, k⟩, ⟨.decodedField, 2 + k, 8⟩,
      ⟨.decodedField, 2 + k + 8, 4⟩])

/-- `junk` is what `decoded_field` holds before. A nonce that is too long for its array is copied
in full. -/
def decodeOauthTokenGcm (evp : Evp) (serverName : List Byte) (etoken : EncodedOauthToken)
    (key : OauthKey) (dtoken : OauthToken) (junk : Mem) : DecodeResult :=
  let accesses := [⟨.token, 0, 2⟩]
  let nonceLen := get16 etoken.token 0
  let b := { dtoken.encBlock with nonceLength := nonceLen }
  let n := nonceLen.toNat
  if etoken.size < 2 + 4 + 8 + n + 2 + oauthGcmTagSize + 1 then ⟨-1, ⟨b⟩, 0, accesses⟩
  else
    let encodedFieldSize : BitVec 32 :=
      BitVec.ofNat 32 etoken.size - nonceLen.setWidth 32 - 2 - BitVec.ofNat 32 oauthGcmTagSize
    let nonce := slice etoken.token 2 n
    let b := { b with nonce := write b.nonce 0 nonce }
    let accesses := accesses ++ [⟨.token, 2, n⟩, ⟨.nonce, 0, n⟩]
    let tagOff := n + 2 + encodedFieldSize.toNat
    let tag := slice etoken.token tagOff oauthGcmTagSize
    let accesses := accesses ++ [⟨.token, tagOff, oauthGcmTagSize⟩]
    match getCipherType key.asRsAlg with
    | none => ⟨-1, ⟨b⟩, 0, accesses⟩
    | some cipher =>
      -- the cipher takes the nonce from the token, the range that is listed already
      match evp.startDecrypt cipher (slice key.asRsKey 0 cipher.keyLength) nonce tag with
      | none => ⟨-1, ⟨b⟩, 0, accesses⟩
      | some ctx =>
        let aad := evp.myEvpDecryptUpdate ctx false (serverNameAad serverName)
        if aad.ret ≠ 1 then ⟨-1, ⟨b⟩, 0, accesses⟩
        else
          let inl := encodedFieldSize.toInt.toNat
          let data := evp.myEvpDecryptUpdate aad.ctx true (slice etoken.token (n + 2) inl)
          let accesses := accesses ++ [⟨.token, n + 2, inl⟩]
          if data.ret ≠ 1 then ⟨-1, ⟨b⟩, data.out.length, accesses⟩
          else
            let last := evp.decrypt.final data.ctx
            let outl := data.out.length + last.out.length
            if last.ret < 1 then ⟨-1, ⟨b⟩, outl, accesses⟩
            else
              let field := write (write junk 0 data.out) data.out.length last.out
              let (b, reads) := readBlock field b
              ⟨0, ⟨b⟩, outl, accesses ++ reads⟩

def decodeOauthToken (evp : Evp) (serverName : List Byte) (etoken : EncodedOauthToken)
    (key : OauthKey) (dtoken : OauthToken) (junk : Mem) : DecodeResult :=
  match key.asRsAlg with
  | .a256gcm => decodeOauthTokenGcm evp serverName etoken key dtoken junk
  | .a128gcm => decodeOauthTokenGcm evp serverName etoken key dtoken junk
  | _ => ⟨-1, dtoken, 0, []⟩

/-! ## What is sealed -/

/-- The part of `orig_field` behind the nonce. -/
def blockBytes (b : OauthEncryptedBlock) : List Byte :=
  be16 b.keyLength ++ (slice b.macKey 0 b.keyLength.toNat ++ (be64 b.timestamp ++ be32 b.lifetime))

/-- The part in front of it. -/
def noncePart (nonce : GcmNonce) : List Byte :=
  be16 (BitVec.ofNat 16 oauthGcmNonceSize) ++ nonce.bytes

theorem blockBytes_length (b : OauthEncryptedBlock) :
    (blockBytes b).length = 14 + b.keyLength.toNat := by
  unfold blockBytes
  simp only [List.length_append, be16_length, be32_length, be64_length, slice_length]
  omega

theorem noncePart_length (nonce : GcmNonce) : (noncePart nonce).length = 14 := by
  unfold noncePart
  rw [List.length_append, be16_length, nonce.size_eq]
  rfl

theorem origField_len (nonce : GcmNonce) (b : OauthEncryptedBlock) :
    (origField nonce b).2 = 14 + (blockBytes b).length := by
  rw [blockBytes_length]
  unfold origField oauthGcmNonceSize
  simp only
  omega

theorem origField_bytes (nonce : GcmNonce) (b : OauthEncryptedBlock) :
    slice (origField nonce b).1 0 (noncePart nonce ++ blockBytes b).length =
      noncePart nonce ++ blockBytes b := by
  have hnonce := noncePart_length nonce
  unfold noncePart oauthGcmNonceSize at hnonce
  unfold noncePart blockBytes origField put16 put32 oauthGcmNonceSize
  simp only [← List.append_assoc]
  -- the stores follow one another, each at the end of what the field holds already
  apply slice_write_end
  · apply slice_write_end
    · apply slice_write_end
      · apply slice_write_end _ hnonce.symm
        exact slice_write_end (slice_write_same _ 0 _) rfl _
      · rw [List.length_append, hnonce, be16_length]
    · rw [List.length_append, List.length_append, hnonce, be16_length, slice_length]
  · rw [List.length_append, List.length_append, List.length_append, hnonce, be16_length,
      slice_length, be64_length]

theorem origField_parts (nonce : GcmNonce) (b : OauthEncryptedBlock) :
    slice (origField nonce b).1 0 14 = noncePart nonce ∧
      slice (origField nonce b).1 14 (blockBytes b).length = blockBytes b := by
  have h := origField_bytes nonce b
  rw [slice_eq_append_iff, noncePart_length, Nat.zero_add] at h
  exact h

/-! ## The token -/

theorem serverNameAad_length (serverName : List Byte) :
    (serverNameAad serverName).length < 2 ^ 31 := by
  have hint := BitVec.toInt_lt (x := BitVec.ofNat 32 serverName.length)
  unfold serverNameAad
  rw [List.length_take]
  omega

theorem gcmInput_of_block (serverName : List Byte) (keyBytes : Mem) (cipher : EvpCipher)
    (nonce : GcmNonce) (b : OauthEncryptedBlock) :
    GcmInput cipher (slice keyBytes 0 cipher.keyLength) nonce.bytes (serverNameAad serverName)
      (blockBytes b) := by
  have hlen := blockBytes_length b
  have hkey := b.keyLength.isLt
  refine ⟨slice_length _ _ _, nonce.size_eq, serverNameAad_length serverName, by omega, ?_⟩
  intro hnil
  rw [hnil] at hlen
  simp only [List.length_nil] at hlen
  omega

theorem token_length (nonce : GcmNonce) (sealed : List Byte) {tag : List Byte}
    (htag : tag.length = oauthGcmTagSize) :
    (noncePart nonce ++ sealed ++ tag).length = 30 + sealed.length := by
  unfold oauthGcmTagSize at htag
  rw [List.length_append, List.length_append, noncePart_length, htag]
  omega

/-- The whole token: the nonce, the sealed block and the tag. -/
theorem encodeOauthTokenGcm_of_seals {evp : Evp} {serverName : List Byte} {key : OauthKey}
    {dtoken : OauthToken} {cipher : EvpCipher} {nonce0 : Option GcmNonce} {rnd : GcmNonce}
    {sealed tag : List Byte} (etoken : EncodedOauthToken)
    (hkey : dtoken.encBlock.keyLength.toNat ≤ maxShaSize)
    (hcipher : getCipherType key.asRsAlg = some cipher)
    (hseals : evp.Seals cipher (slice key.asRsKey 0 cipher.keyLength) (nonce0.getD rnd).bytes
      (serverNameAad serverName) (blockBytes dtoken.encBlock) sealed tag) :
    ∃ token, encodeOauthTokenGcm evp serverName etoken key dtoken nonce0 rnd =
        (0, ⟨token, 30 + sealed.length⟩) ∧
      slice token 0 (30 + sealed.length) = noncePart (nonce0.getD rnd) ++ sealed ++ tag := by
  unfold encodeOauthTokenGcm
  generalize nonce0.getD rnd = nonce at hseals
  obtain ⟨ctx₁, ctx₂, ctx₃, hstart, haad, hdata, hlen, hlast, htag, htagLen⟩ := hseals
  obtain ⟨out, hloop⟩ := myEvpLoop_of_takesAad haad 126
  have hne := (gcmInput_of_block serverName key.asRsKey cipher nonce dtoken.encBlock).plain_ne_nil
  have hsealed := myEvpLoop_of_call hdata hne hlen 126
  have hclear := noncePart_length nonce
  obtain ⟨hfirst, hrest⟩ := origField_parts nonce dtoken.encBlock
  have hstop : (origField nonce dtoken.encBlock).2 - 14 = (blockBytes dtoken.encBlock).length := by
    rw [origField_len, Nat.add_sub_cancel_left]
  have hprefix : oauthGcmNonceSize + 2 = 14 := rfl
  simp only [if_pos hkey, hcipher, hstart, Evp.myEvpEncryptUpdate, hloop, hprefix, hstop, hfirst,
    hrest, hsealed, hlast, htag, ne_eq, not_true_eq_false, if_false, List.length_nil, Nat.add_zero,
    write_nil]
  have hsize : 2 + oauthGcmNonceSize + (sealed.length + oauthGcmTagSize) = 30 + sealed.length := by
    unfold oauthGcmNonceSize oauthGcmTagSize
    omega
  rw [hsize]
  refine ⟨_, rfl, ?_⟩
  rw [← token_length nonce sealed htagLen]
  apply slice_write_end (slice_write_end (slice_write_same _ 0 _) hclear.symm _)
  rw [List.length_append, hclear]

/-! ## Taking a token apart -/

/-- The ranges of the clear part, read before the token is decrypted. -/
def clearAccesses (n size : Nat) : List OauthAccess :=
  [⟨.token, 0, 2⟩, ⟨.token, 2, n⟩, ⟨.nonce, 0, n⟩, ⟨.token, size - 16, 16⟩]

theorem encodedFieldSize_eq {size : Nat} {nonceLen : BitVec 16} (hmin : 33 + nonceLen.toNat ≤ size)
    (hmax : size ≤ maxEncodedOauthTokenSize) :
    (BitVec.ofNat 32 size - nonceLen.setWidth 32 - 2 - BitVec.ofNat 32 oauthGcmTagSize).toNat =
        size - nonceLen.toNat - 18 ∧
      (BitVec.ofNat 32 size - nonceLen.setWidth 32 - 2 -
        BitVec.ofNat 32 oauthGcmTagSize).toInt.toNat = size - nonceLen.toNat - 18 := by
  have hlt := nonceLen.isLt
  unfold maxEncodedOauthTokenSize at hmax
  have hnat : (BitVec.ofNat 32 size - nonceLen.setWidth 32 - 2 -
      BitVec.ofNat 32 oauthGcmTagSize).toNat = size - nonceLen.toNat - 18 := by
    have htwo : (2 : BitVec 32).toNat = 2 := rfl
    unfold oauthGcmTagSize
    simp only [BitVec.toNat_sub, BitVec.toNat_ofNat, BitVec.toNat_setWidth, htwo]
    omega
  refine ⟨hnat, ?_⟩
  rw [BitVec.toInt_eq_toNat_of_lt (by omega), Int.toNat_natCast, hnat]

/-- What the cipher opens a token to, with the nonce and the tag where the decoder looks for them. -/
def openedBlock (evp : Evp) (serverName : List Byte) (etoken : EncodedOauthToken) (key : OauthKey)
    (cipher : EvpCipher) : Option (List Byte) :=
  let n := (get16 etoken.token 0).toNat
  evp.opened cipher (slice key.asRsKey 0 cipher.keyLength) (slice etoken.token 2 n)
    (serverNameAad serverName) (slice etoken.token (n + 2) (etoken.size - n - 18))
    (slice etoken.token (etoken.size - 16) 16)

/-- The outcome of the decryption decides: nothing is read from what does not open. -/
theorem decodeOauthTokenGcm_cases (evp : Evp) (serverName : List Byte) (etoken : EncodedOauthToken)
    (key : OauthKey) (dtoken : OauthToken) (junk : Mem) {cipher : EvpCipher} {n : Nat}
    (hn : n = (get16 etoken.token 0).toNat) (hmin : 33 + n ≤ etoken.size)
    (hmax : etoken.size ≤ maxEncodedOauthTokenSize)
    (hcipher : getCipherType key.asRsAlg = some cipher) :
    let b := { dtoken.encBlock with
      nonceLength := get16 etoken.token 0
      nonce := write dtoken.encBlock.nonce 0 (slice etoken.token 2 n) }
    let d := decodeOauthTokenGcm evp serverName etoken key dtoken junk
    match openedBlock evp serverName etoken key cipher with
    | none => d.ret = -1 ∧ (d.accesses = clearAccesses n etoken.size ∨ d.accesses =
        clearAccesses n etoken.size ++ [⟨.token, n + 2, etoken.size - n - 18⟩])
    | some plain => d = ⟨0, ⟨(readBlock (write junk 0 plain) b).1⟩, plain.length,
        clearAccesses n etoken.size ++ [⟨.token, n + 2, etoken.size - n - 18⟩] ++
          (readBlock (write junk 0 plain) b).2⟩ := by
  subst hn
  intro b d
  obtain ⟨hnat, hint⟩ := encodedFieldSize_eq hmin hmax
  have htag : (get16 etoken.token 0).toNat + 2 + (etoken.size - (get16 etoken.token 0).toNat - 18) =
      etoken.size - 16 := by omega
  have hsize : oauthGcmTagSize = 16 := rfl
  have hfits : ¬ etoken.size < 2 + 4 + 8 + (get16 etoken.token 0).toNat + 2 + oauthGcmTagSize + 1 := by
    omega
  have hd : d = decodeOauthTokenGcm evp serverName etoken key dtoken junk := rfl
  unfold decodeOauthTokenGcm at hd
  rw [if_neg hfits] at hd
  simp only [hcipher, hnat, hint, htag] at hd
  simp only [openedBlock, Evp.opened]
  rw [hsize] at hd
  cases hstart : evp.startDecrypt cipher (slice key.asRsKey 0 cipher.keyLength)
    (slice etoken.token 2 (get16 etoken.token 0).toNat)
    (slice etoken.token (etoken.size - 16) 16) with
  | none =>
    rw [hstart] at hd
    simp only
    rw [hd]
    exact ⟨rfl, .inl rfl⟩
  | some ctx =>
    rw [hstart] at hd
    simp only at hd ⊢
    generalize evp.myEvpDecryptUpdate ctx false (serverNameAad serverName) = aad at hd ⊢
    by_cases haad : aad.ret ≠ 1
    · rw [if_pos haad] at hd ⊢
      rw [hd]
      exact ⟨rfl, .inl rfl⟩
    rw [if_neg haad] at hd ⊢
    generalize evp.myEvpDecryptUpdate aad.ctx true (slice etoken.token
      ((get16 etoken.token 0).toNat + 2) (etoken.size - (get16 etoken.token 0).toNat - 18)) =
        data at hd ⊢
    by_cases hdata : data.ret ≠ 1
    · rw [if_pos hdata] at hd ⊢
      rw [hd]
      exact ⟨rfl, .inr rfl⟩
    rw [if_neg hdata] at hd ⊢
    generalize evp.decrypt.final data.ctx = last at hd ⊢
    by_cases hlast : last.ret < 1
    · rw [if_pos hlast] at hd ⊢
      rw [hd]
      exact ⟨rfl, .inr rfl⟩
    rw [if_neg hlast] at hd ⊢
    have hfield := write_append junk 0 data.out last.out
    rw [Nat.zero_add] at hfield
    rw [hfield] at hd
    simp only [List.length_append]
    exact hd

theorem readBlock_blockBytes {field : Mem} (b : OauthEncryptedBlock) {sent : OauthEncryptedBlock}
    (h : slice field 0 (blockBytes sent).length = blockBytes sent) :
    (readBlock field b).1 =
      { b with
        keyLength := sent.keyLength
        macKey := write b.macKey 0 (slice sent.macKey 0 sent.keyLength.toNat)
        timestamp := sent.timestamp
        lifetime := sent.lifetime } := by
  unfold blockBytes at h
  rw [slice_eq_append_iff, slice_eq_append_iff, slice_eq_append_iff] at h
  simp only [be16_length, be32_length, be64_length, slice_length, Nat.zero_add] at h
  obtain ⟨hkey, hmac, htimestamp, hlifetime⟩ := h
  unfold readBlock
  simp only [Nat.zero_add, get16_of_slice hkey, hmac, get64_of_slice htimestamp,
    get32_of_slice hlifetime]

/-- The parts of a token, where the decoder looks for them. -/
theorem token_parts {token : Mem} {nonce : GcmNonce} {sealed tag : List Byte}
    (htag : tag.length = oauthGcmTagSize)
    (h : slice token 0 (30 + sealed.length) = noncePart nonce ++ sealed ++ tag) :
    get16 token 0 = BitVec.ofNat 16 oauthGcmNonceSize ∧ slice token 2 12 = nonce.bytes ∧
      slice token 14 sealed.length = sealed ∧ slice token (14 + sealed.length) 16 = tag := by
  have hclear := noncePart_length nonce
  have hnonce := nonce.size_eq
  rw [← token_length nonce sealed htag] at h
  unfold oauthGcmTagSize at htag
  unfold oauthGcmNonceSize at hnonce
  rw [slice_eq_append_iff, slice_eq_append_iff, List.length_append, hclear, htag] at h
  obtain ⟨⟨hfirst, hsealed⟩, hlast⟩ := h
  rw [← hclear] at hfirst
  unfold noncePart at hfirst
  rw [slice_eq_append_iff, hnonce] at hfirst
  rw [Nat.zero_add] at hsealed hlast
  exact ⟨get16_of_slice hfirst.1, hfirst.2, hsealed, hlast⟩

/-! ## The round trip -/

/-- The answer is 0, and what was sent arrives. -/
structure TokenReadBack (sent : OauthToken) (nonce : GcmNonce) (d : DecodeResult) : Prop where
  decoded : d.ret = 0
  keyLength : d.dtoken.encBlock.keyLength = sent.encBlock.keyLength
  macKey : slice d.dtoken.encBlock.macKey 0 sent.encBlock.keyLength.toNat =
    slice sent.encBlock.macKey 0 sent.encBlock.keyLength.toNat
  timestamp : d.dtoken.encBlock.timestamp = sent.encBlock.timestamp
  lifetime : d.dtoken.encBlock.lifetime = sent.encBlock.lifetime
  nonceLength : d.dtoken.encBlock.nonceLength.toNat = oauthGcmNonceSize
  nonce : slice d.dtoken.encBlock.nonce 0 oauthGcmNonceSize = nonce.bytes

theorem decodeOauthTokenGcm_of_opens {evp : Evp} {serverName : List Byte} {key : OauthKey}
    {cipher : EvpCipher} {sent : OauthToken} {nonce : GcmNonce} {token : Mem}
    {sealed tag : List Byte} (old : OauthToken) (junk : Mem)
    (hcipher : getCipherType key.asRsAlg = some cipher)
    (hlo : 1 ≤ sent.encBlock.keyLength.toNat) (hhi : sent.encBlock.keyLength.toNat ≤ 128)
    (htag : tag.length = oauthGcmTagSize)
    (hopens : evp.Opens cipher (slice key.asRsKey 0 cipher.keyLength) nonce.bytes
      (serverNameAad serverName) sealed tag (blockBytes sent.encBlock))
    (hbytes : slice token 0 (30 + sealed.length) = noncePart nonce ++ sealed ++ tag) :
    TokenReadBack sent nonce
      (decodeOauthTokenGcm evp serverName ⟨token, 30 + sealed.length⟩ key old junk) := by
  obtain ⟨_, _, _, _, _, _, hlen, _⟩ := id hopens
  rw [blockBytes_length] at hlen
  have hopened := hopens.opened (List.ne_nil_of_length_pos (by omega))
  obtain ⟨hn, hnonce, hsealed, hlast⟩ := token_parts htag hbytes
  have htwelve : (get16 token 0).toNat = 12 := congrArg BitVec.toNat hn
  have hinl : 30 + sealed.length - 12 - 18 = sealed.length := by omega
  have htagOff : 30 + sealed.length - 16 = 14 + sealed.length := by omega
  have hblock : openedBlock evp serverName ⟨token, 30 + sealed.length⟩ key cipher =
      some (blockBytes sent.encBlock) := by
    simp only [openedBlock, htwelve, hinl, htagOff, hnonce, hlast]
    rw [hsealed, hopened]
  have hcases := decodeOauthTokenGcm_cases evp serverName ⟨token, 30 + sealed.length⟩ key old junk
    htwelve.symm (by simp only; omega) (by unfold maxEncodedOauthTokenSize; simp only; omega) hcipher
  rw [hblock] at hcases
  simp only [hnonce, readBlock_blockBytes _ (slice_write_same junk 0 (blockBytes sent.encBlock))]
    at hcases
  rw [hcases]
  have hmac := slice_write_same old.encBlock.macKey 0
    (slice sent.encBlock.macKey 0 sent.encBlock.keyLength.toNat)
  have hkept := slice_write_same old.encBlock.nonce 0 nonce.bytes
  rw [slice_length] at hmac
  rw [nonce.size_eq] at hkept
  exact ⟨rfl, rfl, hmac, rfl, rfl, htwelve, hkept⟩

theorem cipher_of_supported {alg : EncAlg} (halg : alg = .a256gcm ∨ alg = .a128gcm) :
    ∃ cipher, getCipherType alg = some cipher := by
  rcases halg with rfl | rfl
  · exact ⟨_, rfl⟩
  · exact ⟨_, rfl⟩

theorem encodeOauthToken_supported {evp : Evp} {serverName : List Byte}
    {etoken : EncodedOauthToken} {key : OauthKey} {dtoken : OauthToken} {nonce0 : Option GcmNonce}
    {rnd : GcmNonce} (halg : key.asRsAlg = .a256gcm ∨ key.asRsAlg = .a128gcm) :
    encodeOauthToken evp serverName etoken key dtoken nonce0 rnd =
      encodeOauthTokenGcm evp serverName etoken key dtoken nonce0 rnd := by
  unfold encodeOauthToken
  rcases halg with halg | halg <;> rw [halg]

theorem decodeOauthToken_supported {evp : Evp} {serverName : List Byte}
    {etoken : EncodedOauthToken} {key : OauthKey} {dtoken : OauthToken} {junk : Mem}
    (halg : key.asRsAlg = .a256gcm ∨ key.asRsAlg = .a128gcm) :
    decodeOauthToken evp serverName etoken key dtoken junk =
      decodeOauthTokenGcm evp serverName etoken key dtoken junk := by
  unfold decodeOauthToken
  rcases halg with halg | halg <;> rw [halg]

theorem oauthToken_round_trip (evp : Evp) (serverName : List Byte) (etoken : EncodedOauthToken)
    (key : OauthKey) (dtoken old : OauthToken) (nonce0 : Option GcmNonce) (rnd : GcmNonce)
    (junk : Mem) (hgcm : evp.IsGcm) (halg : key.asRsAlg = .a256gcm ∨ key.asRsAlg = .a128gcm)
    (hlo : 1 ≤ dtoken.encBlock.keyLength.toNat) (hhi : dtoken.encBlock.keyLength.toNat ≤ 128) :
    let e := encodeOauthToken evp serverName etoken key dtoken nonce0 rnd
    e.1 = 0 ∧ TokenReadBack dtoken (nonce0.getD rnd)
      (decodeOauthToken evp serverName e.2 key old junk) := by
  intro e
  obtain ⟨cipher, hcipher⟩ := cipher_of_supported halg
  have hinput := gcmInput_of_block serverName key.asRsKey cipher (nonce0.getD rnd) dtoken.encBlock
  obtain ⟨sealed, tag, hseals⟩ := hgcm.seals hinput
  have hopens := hgcm.opens hinput hseals
  obtain ⟨token, hencoded, hbytes⟩ := encodeOauthTokenGcm_of_seals etoken hhi hcipher hseals
  obtain ⟨_, _, _, _, _, _, _, _, _, htag⟩ := hseals
  have he : e = (0, ⟨token, 30 + sealed.length⟩) := (encodeOauthToken_supported halg).trans hencoded
  rw [he, decodeOauthToken_supported halg]
  exact ⟨rfl, decodeOauthTokenGcm_of_opens old junk hcipher hlo hhi htag hopens hbytes⟩

/-! ## A cipher for one token -/

def sampleKey : OauthKey := ⟨.a256gcm, fun i => BitVec.ofNat 8 i⟩

def sampleNonce : GcmNonce := ⟨(List.range 12).map fun i => BitVec.ofNat 8 (0x68 + i), rfl⟩

def sampleToken : OauthToken :=
  ⟨{ nonceLength := 0, nonce := fun _ => 0, keyLength := 20, macKey := fun _ => 0x41,
     timestamp := 0x5F0000000000, lifetime := 1800 }⟩

def sampleInput : EvpCipher × List Byte × List Byte × List Byte :=
  (.aes256Gcm, slice sampleKey.asRsKey 0 32, sampleNonce.bytes, [0x6E, 0x6F, 0x72, 0x74, 0x68])

/-- What AES-256-GCM makes of `sampleToken` under this input. -/
def sampleSealed : List Byte :=
  [0x2E, 0xF7, 0x48, 0x0C, 0xF9, 0xBE, 0xD9, 0x05, 0x34, 0x34, 0x05, 0xAB, 0x65, 0x04, 0x19, 0x9A,
    0xAB, 0x51, 0xF4, 0x10, 0xAC, 0xD4, 0x4C, 0x93, 0x3C, 0xA3, 0xEC, 0x87, 0x1F, 0xB5, 0xFB, 0x24,
    0x0A, 0x7E]

def sampleTag : List Byte :=
  [0x8B, 0x64, 0x46, 0x7C, 0xC0, 0x67, 0xA9, 0x85, 0x88, 0x79, 0x39, 0xD2, 0x90, 0xC6, 0x5E, 0xB9]

structure SampleCtx where
  input : EvpCipher × List Byte × List Byte × List Byte
  data : List Byte
  tag : List Byte

/-- Any other input is left as it is, under a tag of zeros. -/
def sealSample (input : EvpCipher × List Byte × List Byte × List Byte) (plain : List Byte) :
    List Byte × List Byte :=
  if input = sampleInput ∧ plain = blockBytes sampleToken.encBlock then (sampleSealed, sampleTag)
  else (plain, List.replicate 16 0)

def openSample (input : EvpCipher × List Byte × List Byte × List Byte)
    (sealed tag : List Byte) : Option (List Byte) :=
  if input = sampleInput ∧ sealed = sampleSealed ∧ tag = sampleTag then
    some (blockBytes sampleToken.encBlock)
  else if tag = List.replicate 16 0 then some sealed
  else none

def sampleDirection (transform : SampleCtx → List Byte → List Byte) (answer : SampleCtx → Int) :
    EvpDirection SampleCtx where
  initCipher ctx cipher := (1, { ctx with input := (cipher, ctx.input.2) })
  initKey ctx key nonce := (1, { ctx with input := (ctx.input.1, key, nonce, []) })
  update ctx toOut bytes :=
    if toOut then ⟨1, transform ctx bytes, { ctx with data := bytes }⟩
    else ⟨1, bytes,
      { ctx with input := (ctx.input.1, ctx.input.2.1, ctx.input.2.2.1, bytes) }⟩
  final ctx := ⟨answer ctx, [], ctx⟩

def sampleEvp : Evp where
  Ctx := SampleCtx
  new := ⟨(.aes128Gcm, [], [], []), [], []⟩
  setPadding := id
  setIvLen ctx _ := (1, ctx)
  setTag ctx tag := { ctx with tag }
  getTag ctx := (sealSample ctx.input ctx.data).2
  encrypt := sampleDirection (fun ctx plain => (sealSample ctx.input plain).1) fun _ => 1
  decrypt := sampleDirection (fun ctx sealed => (openSample ctx.input sealed ctx.tag).getD sealed)
    fun ctx => if (openSample ctx.input ctx.data ctx.tag).isSome then 1 else 0

theorem sealSample_lengths (input : EvpCipher × List Byte × List Byte × List Byte)
    (plain : List Byte) :
    (sealSample input plain).1.length = plain.length ∧
      (sealSample input plain).2.length = oauthGcmTagSize := by
  unfold sealSample
  split
  · rename_i h
    rw [h.2, blockBytes_length]
    exact ⟨rfl, rfl⟩
  · exact ⟨rfl, rfl⟩

theorem openSample_sealSample (input : EvpCipher × List Byte × List Byte × List Byte)
    (plain : List Byte) :
    openSample input (sealSample input plain).1 (sealSample input plain).2 = some plain := by
  have htag : List.replicate 16 0 ≠ sampleTag := by decide
  unfold sealSample openSample
  by_cases h : input = sampleInput ∧ plain = blockBytes sampleToken.encBlock
  · rw [if_pos h, if_pos ⟨h.1, rfl, rfl⟩, h.2]
  · rw [if_neg h, if_neg fun h' => htag h'.2.2, if_pos rfl]

theorem sampleDirection_takesAad_iff (transform : SampleCtx → List Byte → List Byte)
    (answer : SampleCtx → Int) (cipher : EvpCipher) (key nonce aad data tag : List Byte)
    (ctx : SampleCtx) :
    (sampleDirection transform answer).TakesAad ⟨(cipher, key, nonce, []), data, tag⟩ aad ctx ↔
      ctx = ⟨(cipher, key, nonce, aad), data, tag⟩ := by
  unfold EvpDirection.TakesAad sampleDirection
  by_cases haad : aad = []
  · subst haad
    simp
  · simp [haad, eq_comm]

theorem sampleEvp_seals_eq {cipher : EvpCipher} {key nonce aad plain sealed tag : List Byte}
    (h : sampleEvp.Seals cipher key nonce aad plain sealed tag) :
    sealed = (sealSample (cipher, key, nonce, aad) plain).1 ∧
      tag = (sealSample (cipher, key, nonce, aad) plain).2 := by
  obtain ⟨ctx₁, ctx₂, ctx₃, hstart, haad, hdata, _, _, htag, _⟩ := h
  obtain rfl : SampleCtx.mk (cipher, key, nonce, []) [] [] = ctx₁ := Option.some.inj hstart
  obtain rfl := (sampleDirection_takesAad_iff _ _ _ _ _ _ _ _ _).mp haad
  obtain ⟨_, hsealed, hctx⟩ := EvpOutput.mk.inj hdata
  rw [← hctx] at htag
  exact ⟨hsealed.symm, htag.symm⟩

theorem sampleEvp_isGcm : sampleEvp.IsGcm where
  seals := by
    intro cipher key nonce aad plain _
    obtain ⟨hlen, htag⟩ := sealSample_lengths (cipher, key, nonce, aad) plain
    exact ⟨_, _, ⟨(cipher, key, nonce, []), [], []⟩, ⟨(cipher, key, nonce, aad), [], []⟩,
      ⟨(cipher, key, nonce, aad), plain, []⟩, rfl,
      (sampleDirection_takesAad_iff _ _ _ _ _ _ _ _ _).mpr rfl, rfl, hlen, rfl, rfl, htag⟩
  opens := by
    intro cipher key nonce aad plain sealed tag _ hseals
    obtain ⟨rfl, rfl⟩ := sampleEvp_seals_eq hseals
    have hopen := openSample_sealSample (cipher, key, nonce, aad) plain
    obtain ⟨hlen, _⟩ := sealSample_lengths (cipher, key, nonce, aad) plain
    generalize (sealSample (cipher, key, nonce, aad) plain).1 = sealed at hopen hlen
    generalize (sealSample (cipher, key, nonce, aad) plain).2 = tag at hopen
    refine ⟨⟨(cipher, key, nonce, []), [], tag⟩, ⟨(cipher, key, nonce, aad), [], tag⟩,
      ⟨(cipher, key, nonce, aad), sealed, tag⟩, rfl,
      (sampleDirection_takesAad_iff _ _ _ _ _ _ _ _ _).mpr rfl, ?_, hlen.symm, ?_, rfl⟩
    · change EvpOutput.mk 1 ((openSample (cipher, key, nonce, aad) sealed tag).getD sealed) _ = _
      rw [hopen]
      rfl
    · change 1 ≤ if (openSample (cipher, key, nonce, aad) sealed tag).isSome then (1 : Int) else 0
      rw [hopen]
      exact Int.le_refl 1

def blankToken : OauthToken :=
  ⟨{ nonceLength := 0, nonce := fun _ => 0, keyLength := 0, macKey := fun _ => 0, timestamp := 0,
     lifetime := 0 }⟩

/-- The token is read back, and it is the one that AES-256-GCM makes. -/
theorem sampleToken_read_back :
    let e := encodeOauthToken sampleEvp [0x6E, 0x6F, 0x72, 0x74, 0x68] ⟨fun _ => 0, 0⟩ sampleKey
      sampleToken (some sampleNonce) sampleNonce
    slice e.2.token 14 50 = sampleSealed ++ sampleTag ∧ e.1 = 0 ∧
      TokenReadBack sampleToken sampleNonce
        (decodeOauthToken sampleEvp [0x6E, 0x6F, 0x72, 0x74, 0x68] e.2 sampleKey blankToken
          fun _ => 0xCC) := by
  intro e
  refine ⟨?_, oauthToken_round_trip sampleEvp _ _ sampleKey sampleToken blankToken
    (some sampleNonce) sampleNonce _ sampleEvp_isGcm (.inl rfl) (by decide) (by decide)⟩
  decide +kernel

end TurnClient
