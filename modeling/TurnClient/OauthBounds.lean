import TurnClient.OauthTokens

/-!
# What decoding a token reads and writes

Two lengths come with the token. The one in clear text drives the copy into
`nonce` and is compared with the size of the token only; the one inside the
sealed block drives the copy into `mac_key` and is compared with nothing.
-/

namespace TurnClient

open ByteMemory
set_option autoImplicit false

def OauthAccess.Inside (a : OauthAccess) (cap : Nat) : Prop :=
  ∀ i, i < a.count → a.off + i < cap

theorem inside_iff (a : OauthAccess) (cap : Nat) :
    a.Inside cap ↔ a.count = 0 ∨ a.off + a.count ≤ cap := by
  unfold OauthAccess.Inside
  constructor
  · intro h
    by_cases hzero : a.count = 0
    · exact .inl hzero
    · have hlast := h (a.count - 1) (by omega)
      exact .inr (by omega)
  · rintro (hzero | hle) i hi
    · omega
    · omega

/-- How much of each array was filled, or may be written. -/
def DecodeResult.capacity (d : DecodeResult) (size : Nat) : OauthArray → Nat
  | .token => size
  | .decodedField => d.outl
  | .nonce => oauthMaxNonceSize
  | .macKey => maxShaSize

def DecodeResult.InBounds (d : DecodeResult) (size : Nat) : Prop :=
  ∀ a ∈ d.accesses, a.Inside (d.capacity size a.array)

/-- The length in clear text fits into `nonce`, and wherever the block opens, the length in it
fits into `mac_key` and into the block. -/
def LengthsFit (evp : Evp) (serverName : List Byte) (etoken : EncodedOauthToken) (key : OauthKey) :
    Prop :=
  (get16 etoken.token 0).toNat ≤ oauthMaxNonceSize ∧
    ∀ cipher, getCipherType key.asRsAlg = some cipher →
      ∀ plain, openedBlock evp serverName etoken key cipher = some plain →
        (get16 (ofList plain) 0).toNat ≤ maxShaSize ∧
          14 + (get16 (ofList plain) 0).toNat ≤ plain.length

/-! ## The ranges -/

theorem decode_tooSmall {evp : Evp} {serverName : List Byte} {etoken : EncodedOauthToken}
    {key : OauthKey} {dtoken : OauthToken} {junk : Mem}
    (h : etoken.size < 33 + (get16 etoken.token 0).toNat) :
    (decodeOauthTokenGcm evp serverName etoken key dtoken junk).accesses = [⟨.token, 0, 2⟩] := by
  have hsize : oauthGcmTagSize = 16 := rfl
  unfold decodeOauthTokenGcm
  rw [if_pos (by omega)]

theorem decode_noCipher {evp : Evp} {serverName : List Byte} {etoken : EncodedOauthToken}
    {key : OauthKey} {dtoken : OauthToken} {junk : Mem}
    (hmin : 33 + (get16 etoken.token 0).toNat ≤ etoken.size)
    (hmax : etoken.size ≤ maxEncodedOauthTokenSize) (hcipher : getCipherType key.asRsAlg = none) :
    (decodeOauthTokenGcm evp serverName etoken key dtoken junk).accesses =
      clearAccesses (get16 etoken.token 0).toNat etoken.size := by
  have hsize : oauthGcmTagSize = 16 := rfl
  have htag : (get16 etoken.token 0).toNat + 2 + (etoken.size - (get16 etoken.token 0).toNat - 18) =
      etoken.size - 16 := by omega
  unfold decodeOauthTokenGcm
  rw [if_neg (by omega)]
  simp only [hcipher, (encodedFieldSize_eq hmin hmax).1, htag]
  rfl

theorem clearAccesses_inside_iff (d : DecodeResult) {n size : Nat} (hmin : 33 + n ≤ size) :
    (∀ a ∈ clearAccesses n size, a.Inside (d.capacity size a.array)) ↔ n ≤ oauthMaxNonceSize := by
  unfold clearAccesses
  simp only [List.forall_mem_cons, List.not_mem_nil, false_implies, implies_true, inside_iff,
    DecodeResult.capacity, and_true]
  unfold oauthMaxNonceSize
  omega

theorem sealedAccess_inside (d : DecodeResult) {n size : Nat} (hmin : 33 + n ≤ size) :
    ∀ a ∈ [OauthAccess.mk .token (n + 2) (size - n - 18)],
      a.Inside (d.capacity size a.array) := by
  simp only [List.forall_mem_cons, List.not_mem_nil, false_implies, implies_true, inside_iff,
    DecodeResult.capacity, and_true]
  omega

theorem readBlock_inside_iff (d : DecodeResult) (size : Nat) (field : Mem)
    (b : OauthEncryptedBlock) :
    (∀ a ∈ (readBlock field b).2, a.Inside (d.capacity size a.array)) ↔
      (get16 field 0).toNat ≤ maxShaSize ∧ 14 + (get16 field 0).toNat ≤ d.outl := by
  unfold readBlock
  simp only [List.forall_mem_cons, List.not_mem_nil, false_implies, implies_true, inside_iff,
    DecodeResult.capacity, and_true]
  unfold maxShaSize
  omega

theorem get16_write_ofList (junk : Mem) {plain : List Byte} (h : 2 ≤ plain.length) :
    get16 (write junk 0 plain) 0 = get16 (ofList plain) 0 := by
  have hagree := (slice_eq_iff (write junk 0 plain) (ofList plain) 0 plain.length).mp
    ((slice_write_same junk 0 plain).trans (slice_ofList plain).symm)
  exact get16_congr (hagree 0 (by omega) (by omega)) (hagree 1 (by omega) (by omega))

/-! ## Every token -/

theorem decode_inBounds_of_min {evp : Evp} {serverName : List Byte} {etoken : EncodedOauthToken}
    {key : OauthKey} {dtoken : OauthToken} {junk : Mem}
    (hmin : 33 + (get16 etoken.token 0).toNat ≤ etoken.size)
    (hmax : etoken.size ≤ maxEncodedOauthTokenSize) (hevp : evp.decrypt.SameLength) :
    (decodeOauthTokenGcm evp serverName etoken key dtoken junk).InBounds etoken.size ↔
      LengthsFit evp serverName etoken key := by
  unfold DecodeResult.InBounds LengthsFit
  cases hcipher : getCipherType key.asRsAlg with
  | none =>
    rw [decode_noCipher hmin hmax hcipher, clearAccesses_inside_iff _ hmin]
    simp
  | some cipher =>
    have hcases := decodeOauthTokenGcm_cases evp serverName etoken key dtoken junk rfl hmin hmax
      hcipher
    cases hopen : openedBlock evp serverName etoken key cipher with
    | none =>
      rw [hopen] at hcases
      have hclear : (∀ a ∈ (decodeOauthTokenGcm evp serverName etoken key dtoken junk).accesses,
          a.Inside ((decodeOauthTokenGcm evp serverName etoken key dtoken junk).capacity
            etoken.size a.array)) ↔ (get16 etoken.token 0).toNat ≤ oauthMaxNonceSize := by
        rw [← clearAccesses_inside_iff _ hmin]
        rcases hcases.2 with hacc | hacc
        · rw [hacc]
        · rw [hacc, List.forall_mem_append, and_iff_left (sealedAccess_inside _ hmin)]
      rw [hclear]
      simp [hopen]
    | some plain =>
      rw [hopen] at hcases
      simp only at hcases
      have hlen := Evp.opened_length hevp hopen
      rw [slice_length] at hlen
      rw [hcases, List.forall_mem_append, List.forall_mem_append,
        clearAccesses_inside_iff _ hmin, and_iff_left (sealedAccess_inside _ hmin),
        readBlock_inside_iff, get16_write_ofList junk (by omega)]
      simp [hopen]

theorem decode_inBounds_iff (evp : Evp) (serverName : List Byte) (etoken : EncodedOauthToken)
    (key : OauthKey) (dtoken : OauthToken) (junk : Mem)
    (hmax : etoken.size ≤ maxEncodedOauthTokenSize) (hevp : evp.decrypt.SameLength) :
    (decodeOauthTokenGcm evp serverName etoken key dtoken junk).InBounds etoken.size ↔
      2 ≤ etoken.size ∧ (33 + (get16 etoken.token 0).toNat ≤ etoken.size →
        LengthsFit evp serverName etoken key) := by
  by_cases hmin : 33 + (get16 etoken.token 0).toNat ≤ etoken.size
  · have htwo : 2 ≤ etoken.size := by omega
    rw [decode_inBounds_of_min hmin hmax hevp]
    simp only [htwo, hmin, true_implies, true_and]
  · unfold DecodeResult.InBounds
    rw [decode_tooSmall (by omega)]
    simp only [List.forall_mem_cons, List.not_mem_nil, false_implies, implies_true, inside_iff,
      DecodeResult.capacity, hmin, and_true]
    omega

/-! ## Tokens of zeros but for the two lengths -/

def lengthsToken (nonceLen keyLen : BitVec 16) (size : Nat) : EncodedOauthToken :=
  ⟨put16 (put16 (fun _ => 0) 0 nonceLen) (nonceLen.toNat + 2) keyLen, size⟩

theorem sampleEvp_sameLength : sampleEvp.decrypt.SameLength where
  update := by
    intro ctx input _
    change ((openSample ctx.input input ctx.tag).getD input).length = input.length
    unfold openSample
    split
    · rename_i h
      rw [h.2.1]
      exact blockBytes_length _
    · split
      · rfl
      · rfl
  final := fun _ _ => rfl

/-- A block of 34 bytes with a key of 20. -/
theorem lengthsToken_inBounds :
    (decodeOauthTokenGcm sampleEvp [] (lengthsToken 12 20 64) sampleKey blankToken
      fun _ => 0).InBounds 64 := by
  refine (decode_inBounds_iff sampleEvp [] (lengthsToken 12 20 64) sampleKey blankToken _
    (by decide) sampleEvp_sameLength).mpr ⟨by decide, fun _ => ⟨by decide, ?_⟩⟩
  intro cipher hcipher plain hopen
  obtain rfl : EvpCipher.aes256Gcm = cipher := Option.some.inj hcipher
  have hzeros : openedBlock sampleEvp [] (lengthsToken 12 20 64) sampleKey .aes256Gcm =
      some (slice (lengthsToken 12 20 64).token 14 34) := by decide +kernel
  obtain rfl := Option.some.inj (hzeros.symm.trans hopen)
  decide +kernel

/-- A nonce of 300 bytes, a key of 129, a key of 21 in the block of 34, and a token of one byte. -/
theorem lengthsToken_out_of_bounds :
    sampleEvp.decrypt.SameLength ∧
      ¬ (decodeOauthTokenGcm sampleEvp [] (lengthsToken 300 20 1024) sampleKey blankToken
        fun _ => 0).InBounds 1024 ∧
      ¬ (decodeOauthTokenGcm sampleEvp [] (lengthsToken 12 129 200) sampleKey blankToken
        fun _ => 0).InBounds 200 ∧
      ¬ (decodeOauthTokenGcm sampleEvp [] (lengthsToken 12 21 64) sampleKey blankToken
        fun _ => 0).InBounds 64 ∧
      ¬ (decodeOauthTokenGcm sampleEvp [] (lengthsToken 12 20 1) sampleKey blankToken
        fun _ => 0).InBounds 1 := by
  refine ⟨sampleEvp_sameLength, fun h => ?_, fun h => ?_, fun h => ?_, fun h => ?_⟩
  · have hfit := (decode_inBounds_of_min (by decide) (by decide) sampleEvp_sameLength).mp h
    exact absurd hfit.1 (by decide)
  · have hfit := (decode_inBounds_of_min (by decide) (by decide) sampleEvp_sameLength).mp h
    have hopen : openedBlock sampleEvp [] (lengthsToken 12 129 200) sampleKey .aes256Gcm =
        some (slice (lengthsToken 12 129 200).token 14 170) := by decide +kernel
    exact absurd (hfit.2 .aes256Gcm rfl _ hopen).1 (by decide +kernel)
  · have hfit := (decode_inBounds_of_min (by decide) (by decide) sampleEvp_sameLength).mp h
    have hopen : openedBlock sampleEvp [] (lengthsToken 12 21 64) sampleKey .aes256Gcm =
        some (slice (lengthsToken 12 21 64).token 14 34) := by decide +kernel
    exact absurd (hfit.2 .aes256Gcm rfl _ hopen).2 (by decide +kernel)
  · unfold DecodeResult.InBounds at h
    rw [decode_tooSmall (by decide)] at h
    have hread := h ⟨.token, 0, 2⟩ List.mem_cons_self 1 (by decide)
    exact absurd hread (by decide)

end TurnClient
