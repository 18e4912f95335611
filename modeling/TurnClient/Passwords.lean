import TurnClient.MessageFraming
import TurnClient.StunIntegrity

/-!
# Stored passwords

`generate_new_enc_password` and `check_password`: a password is stored as a salt
and the digest of salt and password, both in hexadecimal. Texts that do not look
like that are taken for passwords in the clear. The salt of a stored password is
read with `strtoul`, which takes signs, blanks and capitals for granted; what is
compared in the end is the text.
-/

namespace TurnClient

open ByteMemory
set_option autoImplicit false

def pwdSaltSize : Nat := 8

/-! ## Hexadecimal -/

/-- A digit as `%x` writes it. -/
def hexDigit (n : Nat) : Byte := BitVec.ofNat 8 (if n < 10 then 0x30 + n else 0x57 + n)

def readableByte (b : Byte) : List Byte := [hexDigit (b.toNat / 16), hexDigit (b.toNat % 16)]

def readableString (orig : List Byte) : List Byte := orig.flatMap readableByte

def isxdigit (b : Byte) : Bool :=
  isdigit b || decide (0x61 ≤ b ∧ b ≤ 0x66) || decide (0x41 ≤ b ∧ b ≤ 0x46)

def xdigitValue (b : Byte) : Nat :=
  if isdigit b then b.toNat - 0x30 else if 0x61 ≤ b then b.toNat - 0x57 else b.toNat - 0x37

/-- The text behind an optional `0x` in front of a digit. -/
def afterRadix : List Byte → List Byte
  | 0x30 :: x :: d :: rest =>
    if (x = 0x78 ∨ x = 0x58) ∧ isxdigit d then d :: rest else 0x30 :: x :: d :: rest
  | str => str

/-- `strtoul` with base 16. -/
def strtoulHex (ulongMax : Nat) (str : List Byte) : Nat :=
  let (negative, digits) := afterSign (str.dropWhile isspace)
  let value := ((afterRadix digits).takeWhile isxdigit).foldl (fun v b => 16 * v + xdigitValue b) 0
  if ulongMax < value then ulongMax
  else if negative then (ulongMax + 1 - value) % (ulongMax + 1)
  else value

/-! ## Storing and checking -/

/-- With the salt that was given or drawn. -/
def generateEncPassword (ssl : OpenSsl) (pwd salt : List Byte) : List Byte :=
  ascii "$5$" ++ (readableString salt ++
    (ascii "$" ++ readableString (ssl.digest .sha256 (salt ++ pwd))))

/-- The salt of a text that looks like a stored password. -/
def encryptedPassword (ulongMax : Nat) (pin : List Byte) : Option (List Byte) :=
  if 3 + pwdSaltSize + pwdSaltSize + 1 + 32 ≤ pin.length then
    if pin[0]? = some 0x24 ∧ pin[1]? = some 0x35 ∧ pin[2]? = some 0x24 ∧
        pin[3 + pwdSaltSize + pwdSaltSize]? = some 0x24 then
      some ((List.range pwdSaltSize).map fun i =>
        BitVec.ofNat 8 (strtoulHex ulongMax [pin.getD (3 + i + i) 0, pin.getD (3 + i + i + 1) 0]))
    else none
  else none

/-- The sign of what `strcmp` returns. -/
def strcmp : List Byte → List Byte → Int
  | [], [] => 0
  | [], _ :: _ => -1
  | _ :: _, [] => 1
  | a :: as, b :: bs => if a = b then strcmp as bs else if a < b then -1 else 1

def checkPassword (ssl : OpenSsl) (ulongMax : Nat) (pin pwd : List Byte) : Int :=
  match encryptedPassword ulongMax pwd with
  | none => strcmp pin pwd
  | some salt => strcmp (generateEncPassword ssl pin salt) pwd

theorem strcmp_eq_zero_iff (as bs : List Byte) : strcmp as bs = 0 ↔ as = bs := by
  induction as generalizing bs with
  | nil => cases bs <;> simp [strcmp]
  | cons a as ih =>
    cases bs with
    | nil => simp [strcmp]
    | cons b bs =>
      rw [strcmp]
      by_cases hab : a = b
      · rw [if_pos hab, ih, hab, List.cons.injEq]
        simp
      · rw [if_neg hab]
        constructor
        · intro h
          split at h <;> cases h
        · intro h
          exact absurd (List.cons.inj h).1 hab

/-! ## What is written is read back -/

theorem readableByte_digits (b : Byte) :
    (readableByte b).dropWhile isspace = readableByte b ∧
      afterSign (readableByte b) = (false, readableByte b) ∧
      afterRadix (readableByte b) = readableByte b ∧
      (readableByte b).takeWhile isxdigit = readableByte b ∧
      (readableByte b).foldl (fun v b => 16 * v + xdigitValue b) 0 = b.toNat := by
  revert b
  decide +kernel

theorem strtoulHex_readableByte {ulongMax : Nat} (hmax : 255 ≤ ulongMax) (b : Byte) :
    strtoulHex ulongMax (readableByte b) = b.toNat := by
  obtain ⟨hspace, hsign, hradix, hdigits, hvalue⟩ := readableByte_digits b
  have hb := b.isLt
  unfold strtoulHex
  rw [hspace, hsign]
  simp only [hradix, hdigits, hvalue]
  rw [if_neg (by omega)]
  rfl

theorem readableString_length (bs : List Byte) : (readableString bs).length = 2 * bs.length := by
  induction bs with
  | nil => rfl
  | cons b bs ih =>
    rw [readableString, List.flatMap_cons, List.length_append, ← readableString, ih]
    simp only [readableByte, List.length_cons, List.length_nil]
    omega

/-- The two digits of a byte stand where `encrypted_password` looks for them. -/
theorem readableString_getD (rest : List Byte) {bs : List Byte} {i : Nat} (hi : i < bs.length) :
    [(readableString bs ++ rest).getD (i + i) 0, (readableString bs ++ rest).getD (i + i + 1) 0] =
      readableByte bs[i] := by
  induction bs generalizing i with
  | nil => cases hi
  | cons b bs ih =>
    cases i with
    | zero => rfl
    | succ i =>
      have hrest := ih (Nat.lt_of_succ_lt_succ hi)
      rw [← show i + i + 2 = i + 1 + (i + 1) by omega]
      exact hrest

theorem readableString_injective {as bs : List Byte} (h : readableString as = readableString bs) :
    as = bs := by
  induction as generalizing bs with
  | nil =>
    cases bs with
    | nil => rfl
    | cons b bs => cases h
  | cons a as ih =>
    cases bs with
    | nil => cases h
    | cons b bs =>
      have hparts : readableByte a = readableByte b ∧ readableString as = readableString bs :=
        List.append_inj h rfl
      have hvalue := congrArg (List.foldl (fun v b => 16 * v + xdigitValue b) 0) hparts.1
      rw [(readableByte_digits a).2.2.2.2, (readableByte_digits b).2.2.2.2] at hvalue
      rw [BitVec.eq_of_toNat_eq hvalue, ih hparts.2]

theorem generateEncPassword_length (ssl : OpenSsl) (pwd salt : List Byte) :
    (generateEncPassword ssl pwd salt).length =
      4 + 2 * salt.length + 2 * (ssl.digest .sha256 (salt ++ pwd)).length := by
  have hfront : (ascii "$5$").length = 3 ∧ (ascii "$").length = 1 := ⟨rfl, rfl⟩
  rw [generateEncPassword, List.length_append, List.length_append, List.length_append,
    readableString_length, readableString_length, hfront.1, hfront.2]
  omega

section Checking
variable {ssl : OpenSsl} {ulongMax : Nat}

/-- The salt is read back from what was stored. -/
theorem encryptedPassword_generate (hdigest : ∀ s, (ssl.digest .sha256 s).length = 32)
    (hmax : 255 ≤ ulongMax) (pwd : List Byte) {salt : List Byte}
    (hsalt : salt.length = pwdSaltSize) :
    encryptedPassword ulongMax (generateEncPassword ssl pwd salt) = some salt := by
  have hlen : (readableString salt).length = 16 := by
    rw [readableString_length, hsalt]
    rfl
  have hlong : 3 + pwdSaltSize + pwdSaltSize + 1 + 32 ≤
      (generateEncPassword ssl pwd salt).length := by
    rw [generateEncPassword_length, hsalt, hdigest]
    decide
  have hdollar : (generateEncPassword ssl pwd salt)[3 + pwdSaltSize + pwdSaltSize]? =
      some 0x24 := by
    change (readableString salt ++ _)[16]? = _
    rw [List.getElem?_append_right (le_of_eq hlen), hlen]
    rfl
  unfold encryptedPassword
  rw [if_pos hlong, if_pos ⟨rfl, rfl, rfl, hdollar⟩]
  congr 1
  apply List.ext_getElem?
  intro i
  rw [List.getElem?_map]
  by_cases hi : i < salt.length
  · have hpair := readableString_getD
      (ascii "$" ++ readableString (ssl.digest .sha256 (salt ++ pwd))) hi
    have hread := strtoulHex_readableByte hmax salt[i]
    rw [← hpair] at hread
    have hbehind : ∀ n, (generateEncPassword ssl pwd salt).getD (n + 3) 0 = (readableString salt ++
        (ascii "$" ++ readableString (ssl.digest .sha256 (salt ++ pwd)))).getD n 0 := fun n => rfl
    have hindex : 3 + i + i = i + i + 3 ∧ 3 + i + i + 1 = i + i + 1 + 3 := ⟨by omega, by omega⟩
    rw [List.getElem?_range (by omega), List.getElem?_eq_getElem hi, Option.map_some, hindex.2,
      hindex.1, hbehind, hbehind, hread, BitVec.ofNat_toNat, BitVec.setWidth_eq]
  · rw [List.getElem?_eq_none (by rw [List.length_range]; omega),
      List.getElem?_eq_none (Nat.le_of_not_lt hi)]
    rfl

theorem encryptedPassword_length {pwd salt : List Byte}
    (h : encryptedPassword ulongMax pwd = some salt) : salt.length = pwdSaltSize := by
  unfold encryptedPassword at h
  split at h
  · split at h
    · rw [← Option.some.inj h, List.length_map, List.length_range]
    · cases h
  · cases h

/-- What was stored for a password is accepted for whatever has the same digest with the salt. -/
theorem checkPassword_generate (hdigest : ∀ s, (ssl.digest .sha256 s).length = 32)
    (hmax : 255 ≤ ulongMax) (pin pwd : List Byte) {salt : List Byte}
    (hsalt : salt.length = pwdSaltSize) :
    checkPassword ssl ulongMax pin (generateEncPassword ssl pwd salt) = 0 ↔
      ssl.digest .sha256 (salt ++ pin) = ssl.digest .sha256 (salt ++ pwd) := by
  rw [checkPassword, encryptedPassword_generate hdigest hmax pwd hsalt]
  simp only [strcmp_eq_zero_iff]
  constructor
  · intro h
    have htail := List.append_cancel_left (List.append_cancel_left (List.append_cancel_left h))
    exact readableString_injective htail
  · intro h
    rw [generateEncPassword, generateEncPassword, h]

/-- Although `strtoul` takes more for hexadecimal than `readable_string` writes, a text that is not
taken for a password in the clear is accepted only if it is what storing the password writes, digit
for digit; and what was stored for one password is accepted for the passwords with the same salted
digest. -/
theorem check_password_iff (hdigest : ∀ s, (ssl.digest .sha256 s).length = 32)
    (hmax : 255 ≤ ulongMax) (pin stored : List Byte) :
    (checkPassword ssl ulongMax pin stored = 0 ↔
      (encryptedPassword ulongMax stored = none ∧ stored = pin) ∨
        ∃ salt, salt.length = pwdSaltSize ∧ stored = generateEncPassword ssl pin salt) ∧
      ∀ pwd salt, salt.length = pwdSaltSize → stored = generateEncPassword ssl pwd salt →
        (checkPassword ssl ulongMax pin stored = 0 ↔
          ssl.digest .sha256 (salt ++ pin) = ssl.digest .sha256 (salt ++ pwd)) := by
  constructor
  · constructor
    · intro h
      cases henc : encryptedPassword ulongMax stored with
      | none =>
        rw [checkPassword, henc] at h
        exact Or.inl ⟨rfl, ((strcmp_eq_zero_iff _ _).mp h).symm⟩
      | some salt =>
        rw [checkPassword, henc] at h
        exact Or.inr ⟨salt, encryptedPassword_length henc, ((strcmp_eq_zero_iff _ _).mp h).symm⟩
    · intro h
      rcases h with ⟨hclear, hsame⟩ | ⟨salt, hsalt, hstored⟩
      · rw [checkPassword, hclear]
        exact (strcmp_eq_zero_iff _ _).mpr hsame.symm
      · rw [hstored]
        exact (checkPassword_generate hdigest hmax pin pin hsalt).mpr rfl
  · intro pwd salt hsalt hstored
    rw [hstored]
    exact checkPassword_generate hdigest hmax pin pwd hsalt

end Checking

/-- The salt A1A2A3A4A5A6A7A8. -/
def exampleSalt : List Byte := [0xA1, 0xA2, 0xA3, 0xA4, 0xA5, 0xA6, 0xA7, 0xA8]

/-- OpenSSL's answers for the passwords pass and past with that salt. -/
def passwordSsl : OpenSsl where
  hmac := fun _ _ _ => none
  digest := fun _ msg =>
    if msg = exampleSalt ++ ascii "pass" then
      [0x5E, 0xF8, 0x8F, 0xDA, 0x4E, 0xD4, 0x4F, 0x58, 0x5C, 0xDC, 0xAA, 0x2C,
        0x2D, 0x43, 0x00, 0x03, 0xB9, 0x98, 0x80, 0xDB, 0xFF, 0xF5, 0x81, 0x8C,
        0x99, 0x20, 0xF7, 0x69, 0x4D, 0x66, 0x5A, 0xB3]
    else if msg = exampleSalt ++ ascii "past" then
      [0x49, 0xAE, 0x80, 0x1D, 0x51, 0xED, 0xF9, 0xAF, 0xC7, 0xEF, 0x58, 0x9E,
        0xC5, 0x84, 0x5D, 0x33, 0xF4, 0x2E, 0xD4, 0xD4, 0x7B, 0x8B, 0x1A, 0x22,
        0xA0, 0xC7, 0xF0, 0x89, 0x85, 0xE6, 0x52, 0x97]
    else List.replicate 32 0

/-- The salt is written in small letters: one capital and the text is refused. -/
def capitalStored : List Byte :=
  (generateEncPassword passwordSsl (ascii "pass") exampleSalt).set 3 0x41

theorem capital_refused :
    checkPassword passwordSsl (2 ^ 64 - 1) (ascii "pass")
        (generateEncPassword passwordSsl (ascii "pass") exampleSalt) = 0 ∧
      encryptedPassword (2 ^ 64 - 1) capitalStored = some exampleSalt ∧
      ¬∃ salt, salt.length = pwdSaltSize ∧
        capitalStored = generateEncPassword passwordSsl (ascii "pass") salt := by
  have hdigest : ∀ s, (passwordSsl.digest .sha256 s).length = 32 := by
    intro s
    unfold passwordSsl
    simp only
    split
    · rfl
    · split <;> rfl
  have hmax : 255 ≤ 2 ^ 64 - 1 := by decide
  have hsalt : exampleSalt.length = pwdSaltSize := rfl
  refine ⟨?_, by decide +kernel, ?_⟩
  · exact ((check_password_iff hdigest hmax (ascii "pass") _).2 (ascii "pass") exampleSalt hsalt
      rfl).mpr rfl
  · intro hstored
    have hzero := (check_password_iff hdigest hmax (ascii "pass") capitalStored).1.mpr
      (Or.inr hstored)
    revert hzero
    decide +kernel

end TurnClient
