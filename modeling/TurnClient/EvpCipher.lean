import TurnClient.ByteMemory

/-!
# The cipher calls

OpenSSL is a parameter: a type of contexts and one function for every call that
the token functions make. `Seals` and `Opens` are whole sequences of such calls
in which each update takes its input at once; `IsGcm` says of them what an
authenticated cipher promises. The update loops of `ns_turn_msg.c` are modelled
over the calls, and on such a cipher they make one turn.
-/

namespace TurnClient

open ByteMemory
set_option autoImplicit false

def oauthGcmNonceSize : Nat := 12
def oauthGcmTagSize : Nat := 16

inductive EvpCipher where
  | aes128Gcm
  | aes256Gcm
deriving DecidableEq

def EvpCipher.keyLength : EvpCipher → Nat
  | aes128Gcm => 16
  | aes256Gcm => 32

/-- The answer of a call, the bytes it counts in `outl`, and the context after it. -/
structure EvpOutput (Ctx : Type) where
  ret : Int
  out : List Byte
  ctx : Ctx

/-- `EVP_EncryptInit_ex`, `EVP_EncryptUpdate` and `EVP_EncryptFinal_ex`, or those for decryption.
The first is called twice, with the cipher and then with the key and the nonce. -/
structure EvpDirection (Ctx : Type) where
  initCipher : Ctx → EvpCipher → Int × Ctx
  initKey : Ctx → List Byte → List Byte → Int × Ctx
  /-- The flag says whether there is an output; without one the input is associated data. -/
  update : Ctx → Bool → List Byte → EvpOutput Ctx
  final : Ctx → EvpOutput Ctx

structure Evp where
  Ctx : Type
  new : Ctx
  setPadding : Ctx → Ctx
  setIvLen : Ctx → Nat → Int × Ctx
  setTag : Ctx → List Byte → Ctx
  getTag : Ctx → List Byte
  encrypt : EvpDirection Ctx
  decrypt : EvpDirection Ctx

/-- The loop of `my_EVP_EncryptUpdate` and `my_EVP_DecryptUpdate`, with the turns it has left. -/
def myEvpLoop {Ctx : Type} (d : EvpDirection Ctx) (toOut : Bool) (input : List Byte) :
    Nat → List Byte → Ctx → EvpOutput Ctx
  | 0, out, ctx => ⟨1, out, ctx⟩
  | turns + 1, out, ctx =>
    if out.length < input.length then
      let r := d.update ctx toOut (input.drop out.length)
      if r.ret < 1 then ⟨r.ret, out ++ r.out, r.ctx⟩
      else myEvpLoop d toOut input turns (out ++ r.out) r.ctx
    else ⟨1, out, ctx⟩

def Evp.myEvpEncryptUpdate (evp : Evp) (ctx : evp.Ctx) (toOut : Bool) (input : List Byte) :
    EvpOutput evp.Ctx :=
  myEvpLoop evp.encrypt toOut input 127 [] ctx

def Evp.myEvpDecryptUpdate (evp : Evp) (ctx : evp.Ctx) (toOut : Bool) (input : List Byte) :
    EvpOutput evp.Ctx :=
  myEvpLoop evp.decrypt toOut input 127 [] ctx

/-! ## The loops -/

theorem myEvpLoop_done {Ctx : Type} (d : EvpDirection Ctx) (toOut : Bool) {input out : List Byte}
    (turns : Nat) (ctx : Ctx) (h : input.length ≤ out.length) :
    myEvpLoop d toOut input turns out ctx = ⟨1, out, ctx⟩ := by
  cases turns with
  | zero => rfl
  | succ turns =>
    unfold myEvpLoop
    rw [if_neg (by omega)]

theorem myEvpLoop_one_call {Ctx : Type} (d : EvpDirection Ctx) (toOut : Bool) {input : List Byte}
    (turns : Nat) (ctx : Ctx) (hinput : input ≠ []) (hret : 1 ≤ (d.update ctx toOut input).ret)
    (hlen : (d.update ctx toOut input).out.length = input.length) :
    myEvpLoop d toOut input (turns + 1) [] ctx =
      ⟨1, (d.update ctx toOut input).out, (d.update ctx toOut input).ctx⟩ := by
  have hpos := List.length_pos_iff.mpr hinput
  unfold myEvpLoop
  rw [if_pos (by simpa using hpos)]
  simp only [List.length_nil, List.drop_zero, List.nil_append]
  rw [if_neg (by omega), myEvpLoop_done d toOut turns _ (by omega)]

/-- Updates that succeed put out as many bytes as they are given, and nothing comes after them. -/
structure EvpDirection.SameLength {Ctx : Type} (d : EvpDirection Ctx) : Prop where
  update : ∀ ctx input, 1 ≤ (d.update ctx true input).ret →
    (d.update ctx true input).out.length = input.length
  final : ∀ ctx, 1 ≤ (d.final ctx).ret → (d.final ctx).out = []

theorem myEvpLoop_sameLength {Ctx : Type} {d : EvpDirection Ctx} (hd : d.SameLength)
    (input : List Byte) (turns : Nat) (ctx : Ctx)
    (hret : (myEvpLoop d true input (turns + 1) [] ctx).ret = 1) :
    (myEvpLoop d true input (turns + 1) [] ctx).out.length = input.length := by
  by_cases hinput : input = []
  · subst hinput
    rw [myEvpLoop_done d true _ _ (by simp)]
  · by_cases hcall : 1 ≤ (d.update ctx true input).ret
    · rw [myEvpLoop_one_call d true turns ctx hinput hcall (hd.update ctx input hcall)]
      exact hd.update ctx input hcall
    · have hpos := List.length_pos_iff.mpr hinput
      unfold myEvpLoop at hret
      rw [if_pos (by simpa using hpos)] at hret
      simp only [List.length_nil, List.drop_zero] at hret
      rw [if_pos (by omega)] at hret
      simp only at hret
      omega

/-! ## Whole sequences of calls -/

/-- Associated data goes in by one call, and by none when there is nothing to put in. -/
def EvpDirection.TakesAad {Ctx : Type} (d : EvpDirection Ctx) (ctx : Ctx) (aad : List Byte)
    (ctx' : Ctx) : Prop :=
  aad = [] ∧ ctx' = ctx ∨
    aad ≠ [] ∧ ∃ out, d.update ctx false aad = ⟨1, out, ctx'⟩ ∧ out.length = aad.length

def Evp.startEncrypt (evp : Evp) (cipher : EvpCipher) (key nonce : List Byte) : Option evp.Ctx :=
  let (ret, ctx) := evp.encrypt.initCipher evp.new cipher
  if ret ≠ 1 then none
  else
    let (ret, ctx) := evp.setIvLen (evp.setPadding ctx) oauthGcmNonceSize
    if ret ≠ 1 then none
    else
      let (ret, ctx) := evp.encrypt.initKey ctx key nonce
      if ret ≠ 1 then none else some ctx

def Evp.startDecrypt (evp : Evp) (cipher : EvpCipher) (key nonce tag : List Byte) :
    Option evp.Ctx :=
  let (ret, ctx) := evp.decrypt.initCipher evp.new cipher
  if ret ≠ 1 then none
  else
    let (ret, ctx) := evp.setIvLen ctx nonce.length
    if ret ≠ 1 then none
    else
      let (ret, ctx) := evp.decrypt.initKey ctx key nonce
      if ret ≠ 1 then none else some (evp.setTag ctx tag)

/-- An encryption in which everything succeeds. -/
def Evp.Seals (evp : Evp) (cipher : EvpCipher) (key nonce aad plain sealed tag : List Byte) :
    Prop :=
  ∃ ctx₁ ctx₂ ctx₃, evp.startEncrypt cipher key nonce = some ctx₁ ∧
    evp.encrypt.TakesAad ctx₁ aad ctx₂ ∧
    evp.encrypt.update ctx₂ true plain = ⟨1, sealed, ctx₃⟩ ∧ sealed.length = plain.length ∧
    (evp.encrypt.final ctx₃).out = [] ∧ evp.getTag (evp.encrypt.final ctx₃).ctx = tag ∧
    tag.length = oauthGcmTagSize

/-- A decryption in which everything succeeds, the comparison of the tag at its end included. -/
def Evp.Opens (evp : Evp) (cipher : EvpCipher) (key nonce aad sealed tag plain : List Byte) :
    Prop :=
  ∃ ctx₁ ctx₂ ctx₃, evp.startDecrypt cipher key nonce tag = some ctx₁ ∧
    evp.decrypt.TakesAad ctx₁ aad ctx₂ ∧
    evp.decrypt.update ctx₂ true sealed = ⟨1, plain, ctx₃⟩ ∧ plain.length = sealed.length ∧
    1 ≤ (evp.decrypt.final ctx₃).ret ∧ (evp.decrypt.final ctx₃).out = []

theorem myEvpLoop_of_takesAad {Ctx : Type} {d : EvpDirection Ctx} {ctx ctx' : Ctx}
    {aad : List Byte} (h : d.TakesAad ctx aad ctx') (turns : Nat) :
    ∃ out, myEvpLoop d false aad (turns + 1) [] ctx = ⟨1, out, ctx'⟩ := by
  rcases h with ⟨rfl, rfl⟩ | ⟨hne, out, hcall, hlen⟩
  · exact ⟨[], myEvpLoop_done d false _ _ (by simp)⟩
  · refine ⟨out, ?_⟩
    rw [myEvpLoop_one_call d false turns ctx hne (by rw [hcall]) (by rw [hcall]; exact hlen), hcall]

theorem myEvpLoop_of_call {Ctx : Type} {d : EvpDirection Ctx} {ctx ctx' : Ctx}
    {input out : List Byte} (hcall : d.update ctx true input = ⟨1, out, ctx'⟩)
    (hinput : input ≠ []) (hlen : out.length = input.length) (turns : Nat) :
    myEvpLoop d true input (turns + 1) [] ctx = ⟨1, out, ctx'⟩ := by
  rw [myEvpLoop_one_call d true turns ctx hinput (by rw [hcall]) (by rw [hcall]; exact hlen), hcall]

/-- What comes out of a decryption as the code makes it. -/
def Evp.opened (evp : Evp) (cipher : EvpCipher) (key nonce aad sealed tag : List Byte) :
    Option (List Byte) :=
  match evp.startDecrypt cipher key nonce tag with
  | none => none
  | some ctx =>
    let aad := evp.myEvpDecryptUpdate ctx false aad
    if aad.ret ≠ 1 then none
    else
      let data := evp.myEvpDecryptUpdate aad.ctx true sealed
      if data.ret ≠ 1 then none
      else
        let last := evp.decrypt.final data.ctx
        if last.ret < 1 then none else some (data.out ++ last.out)

theorem Evp.Opens.opened {evp : Evp} {cipher : EvpCipher} {key nonce aad sealed tag plain : List Byte}
    (h : evp.Opens cipher key nonce aad sealed tag plain) (hsealed : sealed ≠ []) :
    evp.opened cipher key nonce aad sealed tag = some plain := by
  obtain ⟨ctx₁, ctx₂, ctx₃, hstart, haad, hdata, hlen, hret, hlast⟩ := h
  obtain ⟨out, hloop⟩ := myEvpLoop_of_takesAad haad 126
  have hplain := myEvpLoop_of_call hdata hsealed hlen 126
  unfold Evp.opened Evp.myEvpDecryptUpdate
  rw [hstart]
  simp only [hloop, hplain, ne_eq, not_true_eq_false, if_false]
  rw [if_neg (by omega), hlast, List.append_nil]

theorem Evp.opened_length {evp : Evp} (hevp : evp.decrypt.SameLength) {cipher : EvpCipher}
    {key nonce aad sealed tag plain : List Byte}
    (h : evp.opened cipher key nonce aad sealed tag = some plain) :
    plain.length = sealed.length := by
  unfold Evp.opened at h
  cases hstart : evp.startDecrypt cipher key nonce tag with
  | none =>
    rw [hstart] at h
    cases h
  | some ctx =>
    rw [hstart] at h
    simp only at h
    split at h
    · cases h
    · split at h
      · cases h
      · rename_i hdata
        split at h
        · cases h
        · rename_i hlast
          obtain rfl := Option.some.inj h
          rw [hevp.final _ (by omega), List.append_nil]
          exact myEvpLoop_sameLength hevp _ _ _ (not_ne_iff.mp hdata)

/-- What the calls are documented for: a key and a nonce of the right size and `int` lengths. -/
structure GcmInput (cipher : EvpCipher) (key nonce aad plain : List Byte) : Prop where
  key_length : key.length = cipher.keyLength
  nonce_length : nonce.length = oauthGcmNonceSize
  aad_length : aad.length < 2 ^ 31
  plain_length : plain.length < 2 ^ 31
  plain_ne_nil : plain ≠ []

/-- Every input can be sealed, and what is sealed is opened again under the same key, nonce and
associated data. -/
structure Evp.IsGcm (evp : Evp) : Prop where
  seals : ∀ {cipher key nonce aad plain}, GcmInput cipher key nonce aad plain →
    ∃ sealed tag, evp.Seals cipher key nonce aad plain sealed tag
  opens : ∀ {cipher key nonce aad plain sealed tag}, GcmInput cipher key nonce aad plain →
    evp.Seals cipher key nonce aad plain sealed tag →
      evp.Opens cipher key nonce aad sealed tag plain

end TurnClient
