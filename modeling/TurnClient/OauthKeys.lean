import Mathlib.Data.List.TakeWhile
import TurnClient.OauthTokens
import TurnClient.Session
import TurnClient.StringLoops

/-!
# OAuth keys

`convert_oauth_key_data` trims the strings it is given in its own copy, names an
error for a key without bytes, and derives the key of the cipher by copying as
many bytes as the cipher takes. The pointers are not NULL, except that of the
message for the caller. Each array of characters is a memory of its own.
-/

namespace TurnClient

open ByteMemory StringLoops
set_option autoImplicit false

def oauthKidSize : Nat := 128
def oauthAlgSize : Nat := 64
def oauthKeySize : Nat := 256
def oauthDefaultLifetime : BitVec 32 := 0

structure OauthKeyData where
  kid : Mem
  ikmKey : Mem
  ikmKeySize : Nat
  timestamp : BitVec 32
  lifetime : BitVec 32
  asRsAlg : Mem

/-- All of `oauth_key`; the token functions read the fields of `OauthKey`. -/
structure OauthKeyRecord extends OauthKey where
  kid : Mem
  ikmKey : Mem
  ikmKeySize : Nat
  timestamp : BitVec 32
  lifetime : BitVec 32
  asRsKeySize : Nat
  authKey : Mem
  authKeySize : Nat

/-! ## The strings -/

def isSpace (c : Byte) : Bool := c = 0x20

/-- `*s && (*s != ' ')` -/
def isWordChar (c : Byte) : Bool := c ≠ 0 && c ≠ 0x20

def removeSpaces (cap : Nat) (s : Mem) : Mem :=
  let sfns := skipWhile isSpace s cap 0
  if s sfns ≠ 0 then
    if sfns ≠ 0 then
      let copied := copyWhile isWordChar cap s sfns 0
      write copied.1 copied.2 [0]
    else
      let place := skipWhile isWordChar s cap 0
      if s place = 0x20 then write s place [0] else s
  else s

def normalizeChar (c : Byte) : Byte :=
  if c = 0x5F then 0x2D
  else if 0x61 ≤ c ∧ c ≤ 0x7A then c - 0x61 + 0x41
  else c

def normalizeAlgorithm (cap : Nat) (s : Mem) : Mem := mapString normalizeChar cap s 0

/-- The first run of characters that are no spaces. -/
def firstWord (bs : List Byte) : List Byte := (bs.dropWhile isSpace).takeWhile fun c => !isSpace c

/-- What `remove_spaces` leaves; only spaces stay as they are. -/
def trimmed (bs : List Byte) : List Byte := if firstWord bs = [] then bs else firstWord bs

theorem isSpace_iff (c : Byte) : isSpace c = true ↔ c = 0x20 := decide_eq_true_iff

theorem isWordChar_eq {c : Byte} (hc : c ≠ 0) : isWordChar c = !isSpace c := by
  rw [isWordChar, decide_eq_true hc, Bool.true_and, isSpace]
  exact decide_not

theorem takeWhile_isWordChar {bs : List Byte} (hnz : ∀ b ∈ bs, b ≠ 0) :
    bs.takeWhile isWordChar = bs.takeWhile fun c => !isSpace c := by
  induction bs with
  | nil => rfl
  | cons b bs ih =>
    rw [List.takeWhile_cons, List.takeWhile_cons, isWordChar_eq (hnz b List.mem_cons_self),
      ih fun c hc => hnz c (List.mem_cons_of_mem b hc)]

theorem firstWord_eq_nil_iff (bs : List Byte) : firstWord bs = [] ↔ ∀ b ∈ bs, b = 0x20 := by
  unfold firstWord
  induction bs with
  | nil => exact iff_of_true rfl (List.forall_mem_nil _)
  | cons b bs ih =>
    cases hb : isSpace b with
    | true =>
      rw [List.dropWhile_cons_of_pos hb, ih, List.forall_mem_cons]
      exact (and_iff_right ((isSpace_iff b).mp hb)).symm
    | false =>
      rw [List.dropWhile_cons_of_neg (by simp [hb]), List.takeWhile_cons_of_pos (by simp [hb])]
      refine iff_of_false (List.cons_ne_nil b _) fun h => ?_
      rw [(isSpace_iff b).mpr (h b List.mem_cons_self)] at hb
      cases hb

theorem mem_firstWord {bs : List Byte} {b : Byte} (h : b ∈ firstWord bs) : b ∈ bs :=
  (List.dropWhile_sublist isSpace).subset ((List.takeWhile_sublist _).subset h)

theorem firstWord_length_le (bs : List Byte) : (firstWord bs).length ≤ bs.length :=
  ((List.takeWhile_sublist _).trans (List.dropWhile_sublist isSpace)).length_le

/-- Without a space in front the word is cut off where it ends. -/
theorem cutWord_stringAt {s : Mem} {cap : Nat} {bs : List Byte} (h : HoldsString s cap bs) :
    StringAt (if s (skipWhile isWordChar s cap 0) = 0x20 then
      write s (skipWhile isWordChar s cap 0) [0] else s) 0 (bs.takeWhile isWordChar) := by
  have hskip : skipWhile isWordChar s cap 0 = 0 + (bs.takeWhile isWordChar).length :=
    skipWhile_eq rfl h.stringAt h.fits
  have hsplit : bs = bs.takeWhile isWordChar ++ bs.dropWhile isWordChar :=
    List.takeWhile_append_dropWhile.symm
  have hafter := h.stringAt.dropWhile isWordChar
  have hstring := h.stringAt
  rw [hsplit] at hstring
  rw [hskip]
  by_cases hempty : bs.dropWhile isWordChar = []
  · rw [hempty, stringAt_nil] at hafter
    rw [hempty, List.append_nil] at hstring
    rw [hafter, if_neg (by decide)]
    exact hstring
  · have hhead := List.head_dropWhile_not isWordChar hempty
    have hmem : (bs.dropWhile isWordChar).head hempty ≠ 0 :=
      h.no_zero _ ((List.dropWhile_sublist _).subset (List.head_mem hempty))
    rw [← List.cons_head_tail hempty, stringAt_cons] at hafter
    rw [isWordChar_eq hmem, Bool.not_eq_false', isSpace_iff] at hhead
    rw [hafter.1, if_pos hhead]
    exact hstring.cut

/-- The word is cut off where it ends, or copied to the front. -/
theorem removeSpaces_stringAt {s : Mem} {cap : Nat} {bs : List Byte} (h : HoldsString s cap bs) :
    StringAt (removeSpaces cap s) 0 (trimmed bs) := by
  have hskip : skipWhile isSpace s cap 0 = (bs.takeWhile isSpace).length := by
    rw [skipWhile_eq rfl h.stringAt h.fits, Nat.zero_add]
  have hrest : StringAt s (bs.takeWhile isSpace).length (bs.dropWhile isSpace) := by
    have hdrop := h.stringAt.dropWhile isSpace
    rwa [Nat.zero_add] at hdrop
  have hnz : ∀ b ∈ bs.dropWhile isSpace, b ≠ 0 := fun b hb =>
    h.no_zero b ((List.dropWhile_sublist isSpace).subset hb)
  have hword : (bs.dropWhile isSpace).takeWhile isWordChar = firstWord bs :=
    takeWhile_isWordChar hnz
  have hlen : (bs.dropWhile isSpace).length < cap :=
    Nat.lt_of_le_of_lt (List.dropWhile_sublist isSpace).length_le h.fits
  simp only [removeSpaces, hskip]
  by_cases hempty : bs.dropWhile isSpace = []
  · have hfirst : firstWord bs = [] := by rw [firstWord, hempty]; rfl
    rw [hempty, stringAt_nil] at hrest
    rw [if_neg (not_not.mpr hrest), trimmed, if_pos hfirst]
    exact h.stringAt
  · have hend : s (bs.takeWhile isSpace).length ≠ 0 := by
      rw [← List.cons_head_tail hempty, stringAt_cons] at hrest
      rw [hrest.1]
      exact hnz _ (List.head_mem hempty)
    have hfirst : firstWord bs ≠ [] := by
      intro hnil
      apply hempty
      exact List.dropWhile_eq_nil_iff.mpr fun b hb =>
        (isSpace_iff b).mpr ((firstWord_eq_nil_iff bs).mp hnil b hb)
    rw [if_pos hend, trimmed, if_neg hfirst]
    by_cases hfront : (bs.takeWhile isSpace).length = 0
    · have hall : bs.dropWhile isSpace = bs := by
        have hsplit := List.takeWhile_append_dropWhile (p := isSpace) (l := bs)
        rwa [List.eq_nil_of_length_eq_zero hfront] at hsplit
      rw [if_neg (not_not.mpr hfront), ← hword, hall]
      exact cutWord_stringAt h
    · rw [if_pos hfront, copyWhile_eq rfl hrest (Nat.zero_le _) hlen, hword]
      simp only [write_append]
      exact slice_write_same s 0 (firstWord bs ++ [0])

theorem trimmed_or (bs : List Byte) : trimmed bs = bs ∨ trimmed bs = firstWord bs := by
  unfold trimmed
  split
  · exact .inl rfl
  · exact .inr rfl

theorem removeSpaces_holds {s : Mem} {cap : Nat} {bs : List Byte} (h : HoldsString s cap bs) :
    HoldsString (removeSpaces cap s) cap (trimmed bs) := by
  refine ⟨removeSpaces_stringAt h, ?_, ?_⟩
  · rcases trimmed_or bs with heq | heq
    · rw [heq]
      exact h.no_zero
    · rw [heq]
      exact fun b hb => h.no_zero b (mem_firstWord hb)
  · rcases trimmed_or bs with heq | heq
    · rw [heq]
      exact h.fits
    · rw [heq]
      exact Nat.lt_of_le_of_lt (firstWord_length_le bs) h.fits

theorem normalizeChar_ne_zero {c : Byte} (hc : c ≠ 0) : normalizeChar c ≠ 0 := by
  revert c
  decide +kernel

theorem normalizeAlgorithm_holds {s : Mem} {cap : Nat} {bs : List Byte}
    (h : HoldsString s cap bs) :
    HoldsString (normalizeAlgorithm cap s) cap (bs.map normalizeChar) := by
  have hlen : (bs.map normalizeChar).length = bs.length := List.length_map normalizeChar
  rw [normalizeAlgorithm, mapString_eq h.stringAt h.no_zero h.fits]
  refine ⟨h.stringAt.write_same hlen, ?_, ?_⟩
  · intro c hc
    obtain ⟨b, hb, rfl⟩ := List.mem_map.mp hc
    exact normalizeChar_ne_zero (h.no_zero b hb)
  · rw [hlen]
    exact h.fits

/-! ## The conversion -/

def calculateEncKeyLength : EncAlg → Nat
  | .a128gcm => 16
  | _ => 32

def calculateAuthKeyLength : EncAlg → Nat
  | .a256gcm => 0
  | .a128gcm => 0
  | _ => 0

/-- The length of the key is not looked at. -/
def calculateKey (key : Mem) (_keySize : Nat) (newKey : Mem) (newKeySize : Nat) : Int × Mem :=
  (0, write newKey 0 (slice key 0 newKeySize))

/-- `snprintf` of a text into a buffer of the caller, if there is one. -/
def printMsg (errMsgSize : Nat) (text : List Byte) (errMsg : Option Mem) : Option Mem :=
  errMsg.map fun m => if errMsgSize = 0 then m else write m 0 (text.take (errMsgSize - 1) ++ [0])

/-- `STRCPY` into an array of so many characters: zeros behind the string, and the last one zero. -/
def strcpyArray (cap : Nat) (src : Mem) : Mem := ofList ((cstr src cap).take (cap - 1))

structure OauthKeyResult where
  ret : Int
  key : OauthKeyRecord
  errMsg : Option Mem
  errors : List (List Byte)

/-- The keys that are derived last, for the authentication and for the cipher. -/
def deriveKeys (key : OauthKeyRecord) : Int × OauthKeyRecord :=
  let key := { key with authKeySize := calculateAuthKeyLength key.asRsAlg }
  let auth := if key.authKeySize ≠ 0 then
      calculateKey key.ikmKey key.ikmKeySize key.authKey key.authKeySize
    else (0, key.authKey)
  let key := { key with authKey := auth.2 }
  if auth.1 < 0 then (-1, key)
  else
    let key := { key with asRsKeySize := calculateEncKeyLength key.asRsAlg }
    let enc := calculateKey key.ikmKey key.ikmKeySize key.asRsKey key.asRsKeySize
    let key := { key with asRsKey := enc.2 }
    if enc.1 < 0 then (-1, key) else (0, key)

/-- `now` is the time that `turn_time` reads. -/
def convertOauthKeyData (now : BitVec 32) (oakd0 : OauthKeyData) (key : OauthKeyRecord)
    (errMsg : Option Mem) (errMsgSize : Nat) : OauthKeyResult :=
  -- the message is written, and the conversion goes on
  let errMsg := if oakd0.ikmKeySize = 0 then
      printMsg errMsgSize (ascii "key is not defined") errMsg
    else errMsg
  let kid := removeSpaces (oauthKidSize + 1) oakd0.kid
  let asRsAlg :=
    normalizeAlgorithm (oauthAlgSize + 1) (removeSpaces (oauthAlgSize + 1) oakd0.asRsAlg)
  if kid 0 = 0 then
    ⟨-1, key, printMsg errMsgSize (ascii "KID is not defined") errMsg,
      [ascii "KID is not defined\n"]⟩
  else
    let key : OauthKeyRecord :=
      { kid := strcpyArray (oauthKidSize + 1) kid
        ikmKey := ofList (slice oakd0.ikmKey 0 (oauthKeySize + 1))
        ikmKeySize := oakd0.ikmKeySize
        timestamp := if oakd0.timestamp = 0 then now else oakd0.timestamp
        lifetime := if oakd0.lifetime = 0 then oauthDefaultLifetime else oakd0.lifetime
        asRsAlg := .a256gcm
        asRsKey := fun _ => 0
        asRsKeySize := 0
        authKey := fun _ => 0
        authKeySize := 0 }
    let alg := cstr asRsAlg (oauthAlgSize + 1)
    if alg = ascii "A128GCM" then
      let derived := deriveKeys { key with
        asRsAlg := .a128gcm, authKeySize := 0, authKey := write key.authKey 0 [0] }
      ⟨derived.1, derived.2, errMsg, []⟩
    else if alg = ascii "A256GCM" then
      let derived := deriveKeys { key with
        asRsAlg := .a256gcm, authKeySize := 0, authKey := write key.authKey 0 [0] }
      ⟨derived.1, derived.2, errMsg, []⟩
    else
      ⟨-1, key,
        printMsg errMsgSize
          (ascii "Wrong oAuth token encryption algorithm: " ++ alg ++ ascii " (2)\n") errMsg,
        [ascii "Wrong oAuth token encryption algorithm: " ++ alg ++ ascii " (3)\n"]⟩

theorem strcpyArray_holds {src : Mem} {cap : Nat} {bs : List Byte} (h : HoldsString src cap bs) :
    HoldsString (strcpyArray cap src) cap bs := by
  have htake : (cstr src cap).take (cap - 1) = bs := by
    rw [cstr, h.takeWhile_slice]
    exact List.take_of_length_le (Nat.le_sub_one_of_lt h.fits)
  rw [strcpyArray, htake]
  exact ⟨stringAt_ofList bs, h.no_zero, h.fits⟩

theorem deriveKeys_eq (key : OauthKeyRecord) :
    deriveKeys key =
      (0, { key with
        authKeySize := 0
        asRsKeySize := calculateEncKeyLength key.asRsAlg
        asRsKey := write key.asRsKey 0
          (slice key.ikmKey 0 (calculateEncKeyLength key.asRsAlg)) }) := by
  have hauth : calculateAuthKeyLength key.asRsAlg = 0 := by
    cases key.asRsAlg <;> rfl
  simp only [deriveKeys, hauth]
  rfl

/-- The name of the algorithm as the conversion reads it. -/
def algName (alg : List Byte) : List Byte := (firstWord alg).map normalizeChar

def KnownAlg (alg : List Byte) : Prop :=
  algName alg = ascii "A128GCM" ∨ algName alg = ascii "A256GCM"

/-- The length of the key for the cipher of this name. -/
def keyLength (alg : List Byte) : Nat := if algName alg = ascii "A128GCM" then 16 else 32

/-- Only spaces stand for no algorithm. -/
theorem trimmed_named_iff (alg : List Byte) {name : List Byte} (hname : name ≠ [])
    (hspace : 0x20 ∉ name) : (trimmed alg).map normalizeChar = name ↔ algName alg = name := by
  unfold trimmed algName
  split
  · rename_i hnil
    refine iff_of_false ?_ ?_
    · rintro rfl
      obtain ⟨c, hc⟩ := List.exists_mem_of_ne_nil _ hname
      obtain ⟨b, hb, rfl⟩ := List.mem_map.mp hc
      rw [(firstWord_eq_nil_iff alg).mp hnil b hb] at hc
      exact hspace hc
    · rw [hnil]
      exact hname.symm
  · rfl

variable {oakd0 : OauthKeyData} {kid alg : List Byte}

theorem cstr_asRsAlg (halg : HoldsString oakd0.asRsAlg (oauthAlgSize + 1) alg) :
    cstr (normalizeAlgorithm (oauthAlgSize + 1) (removeSpaces (oauthAlgSize + 1) oakd0.asRsAlg))
      (oauthAlgSize + 1) = (trimmed alg).map normalizeChar :=
  (normalizeAlgorithm_holds (removeSpaces_holds halg)).takeWhile_slice

theorem trimmed_eq_nil_iff (bs : List Byte) : trimmed bs = [] ↔ bs = [] := by
  unfold trimmed
  split
  · rfl
  · rename_i hne
    refine iff_of_false hne ?_
    rintro rfl
    exact hne rfl

theorem convertOauthKeyData_refuses (hkid : HoldsString oakd0.kid (oauthKidSize + 1) kid)
    (halg : HoldsString oakd0.asRsAlg (oauthAlgSize + 1) alg) (now : BitVec 32)
    (key : OauthKeyRecord) (errMsg : Option Mem) (errMsgSize : Nat)
    (h : kid = [] ∨ ¬ KnownAlg alg) :
    (convertOauthKeyData now oakd0 key errMsg errMsgSize).ret = -1 := by
  have hfirst := (removeSpaces_holds hkid).first_eq_zero_iff
  rw [trimmed_eq_nil_iff] at hfirst
  simp only [convertOauthKeyData, cstr_asRsAlg halg]
  by_cases hzero : kid = []
  · rw [if_pos (hfirst.mpr hzero)]
  · have hunknown := not_or.mp (h.resolve_left hzero)
    rw [if_neg (mt hfirst.mp hzero),
      if_neg (mt (trimmed_named_iff alg (by decide) (by decide)).mp hunknown.1),
      if_neg (mt (trimmed_named_iff alg (by decide) (by decide)).mp hunknown.2)]

theorem copied_slice (newKey ikmKey : Mem) {n : Nat} (hn : n ≤ oauthKeySize + 1) :
    slice (write newKey 0 (slice (ofList (slice ikmKey 0 (oauthKeySize + 1))) 0 n)) 0 n =
      slice ikmKey 0 n := by
  have hcopy : slice (ofList (slice ikmKey 0 (oauthKeySize + 1))) 0 n = slice ikmKey 0 n := by
    rw [slice_ofList_take _ (by rwa [slice_length]), slice_take hn]
  have hsame := slice_write_same newKey 0 (slice ikmKey 0 n)
  rw [slice_length] at hsame
  rw [hcopy, hsame]

/-- Whatever the length of the given key, as many bytes as the cipher takes are copied. -/
theorem convertOauthKeyData_accepts (hkid : HoldsString oakd0.kid (oauthKidSize + 1) kid)
    (halg : HoldsString oakd0.asRsAlg (oauthAlgSize + 1) alg) (now : BitVec 32)
    (key : OauthKeyRecord) (errMsg : Option Mem) (errMsgSize : Nat)
    (hne : kid ≠ []) (hknown : KnownAlg alg) {r : OauthKeyResult}
    (hr : convertOauthKeyData now oakd0 key errMsg errMsgSize = r) :
    r.ret = 0 ∧ HoldsString r.key.kid (oauthKidSize + 1) (trimmed kid) ∧
      r.key.asRsKeySize = keyLength alg ∧
      slice r.key.asRsKey 0 (keyLength alg) = slice oakd0.ikmKey 0 (keyLength alg) := by
  have hfirst := (removeSpaces_holds hkid).first_eq_zero_iff
  have hcopied := strcpyArray_holds (removeSpaces_holds hkid)
  rw [trimmed_eq_nil_iff] at hfirst
  simp only [convertOauthKeyData, cstr_asRsAlg halg, deriveKeys_eq] at hr
  rw [if_neg (mt hfirst.mp hne)] at hr
  by_cases h128 : algName alg = ascii "A128GCM"
  · rw [if_pos ((trimmed_named_iff alg (by decide) (by decide)).mpr h128)] at hr
    subst hr
    have hlen : keyLength alg = 16 := if_pos h128
    rw [hlen]
    exact ⟨rfl, hcopied, rfl, copied_slice _ _ (by decide)⟩
  · rw [if_neg (mt (trimmed_named_iff alg (by decide) (by decide)).mp h128),
      if_pos ((trimmed_named_iff alg (by decide) (by decide)).mpr (hknown.resolve_left h128))] at hr
    subst hr
    have hlen : keyLength alg = 32 := if_neg h128
    rw [hlen]
    exact ⟨rfl, hcopied, rfl, copied_slice _ _ (by decide)⟩

/-- What is refused is named on stderr; the message about a missing key is no refusal. -/
theorem convertOauthKeyData_reports (now : BitVec 32) (oakd0 : OauthKeyData) (key : OauthKeyRecord)
    (errMsg : Option Mem) (errMsgSize : Nat) :
    (convertOauthKeyData now oakd0 key errMsg errMsgSize).errors = [] ↔
      (convertOauthKeyData now oakd0 key errMsg errMsgSize).ret = 0 := by
  have hminus : (-1 : Int) ≠ 0 := by decide
  simp only [convertOauthKeyData, deriveKeys_eq]
  split
  · exact iff_of_false (List.cons_ne_nil _ _) hminus
  · split
    · exact iff_of_true rfl rfl
    · split
      · exact iff_of_true rfl rfl
      · exact iff_of_false (List.cons_ne_nil _ _) hminus

/-- What is promised of a key that is accepted. -/
structure Usable (oakd0 : OauthKeyData) (kid alg : List Byte) (key : OauthKeyRecord) : Prop where
  kid_word : HoldsString key.kid (oauthKidSize + 1) (firstWord kid)
  kid_ne : firstWord kid ≠ []
  alg_known : KnownAlg alg
  enough : key.asRsKeySize ≤ oakd0.ikmKeySize
  derived : slice key.asRsKey 0 key.asRsKeySize = slice oakd0.ikmKey 0 key.asRsKeySize

theorem accepted_key_usable_iff (hkid : HoldsString oakd0.kid (oauthKidSize + 1) kid)
    (halg : HoldsString oakd0.asRsAlg (oauthAlgSize + 1) alg) (now : BitVec 32)
    (key : OauthKeyRecord) (errMsg : Option Mem) (errMsgSize : Nat) :
    ((convertOauthKeyData now oakd0 key errMsg errMsgSize).ret = 0 →
        Usable oakd0 kid alg (convertOauthKeyData now oakd0 key errMsg errMsgSize).key) ↔
      kid = [] ∨ ¬ KnownAlg alg ∨
        ((∃ b ∈ kid, b ≠ 0x20) ∧ keyLength alg ≤ oakd0.ikmKeySize) := by
  by_cases hrefused : kid = [] ∨ ¬ KnownAlg alg
  · have hret := convertOauthKeyData_refuses hkid halg now key errMsg errMsgSize hrefused
    refine iff_of_true ?_ ?_
    · rw [hret]
      intro hzero
      cases hzero
    · exact or_assoc.mp (.inl hrefused)
  · obtain ⟨hne, hknown⟩ := not_or.mp hrefused
    have hknown := not_not.mp hknown
    have haccepts := convertOauthKeyData_accepts hkid halg now key errMsg errMsgSize hne hknown rfl
    obtain ⟨hret, hkept, hsize, hderived⟩ := haccepts
    have hword : firstWord kid ≠ [] ↔ ∃ b ∈ kid, b ≠ 0x20 := by
      rw [Ne, firstWord_eq_nil_iff]
      simp only [not_forall, exists_prop]
    rw [← or_assoc, or_iff_right hrefused, ← hword]
    constructor
    · intro husable
      obtain ⟨_, hkidne, _, henough, _⟩ := husable hret
      rw [hsize] at henough
      exact ⟨hkidne, henough⟩
    · rintro ⟨hkidne, henough⟩ _
      rw [trimmed, if_neg hkidne] at hkept
      rw [← hsize] at hderived henough
      exact ⟨hkept, hkidne, hknown, henough, hderived⟩

theorem holdsString_ofList {bs : List Byte} {cap : Nat} (hnz : ∀ b ∈ bs, b ≠ 0)
    (hlen : bs.length < cap) : HoldsString (ofList bs) cap bs :=
  ⟨stringAt_ofList bs, hnz, hlen⟩

/-- Memory that was cleared. -/
def clearedKey : OauthKeyRecord :=
  ⟨⟨.error, fun _ => 0⟩, fun _ => 0, fun _ => 0, 0, 0, 0, 0, fun _ => 0, 0⟩

/-- A name after a space, a key of 16 bytes and an algorithm in small letters. -/
def northData : OauthKeyData :=
  ⟨ofList (ascii " north 1"), ofList (ascii "0123456789abcdef"), 16, 0, 3600,
    ofList (ascii "a128gcm ")⟩

theorem north_usable :
    Usable northData (ascii " north 1") (ascii "a128gcm ")
      (convertOauthKeyData 0 northData clearedKey none 0).key := by
  have hkid : HoldsString northData.kid 129 (ascii " north 1") :=
    holdsString_ofList (by decide) (by decide)
  have halg : HoldsString northData.asRsAlg 65 (ascii "a128gcm ") :=
    holdsString_ofList (by decide) (by decide)
  refine (accepted_key_usable_iff hkid halg 0 clearedKey none 0).mpr ?_ (by decide +kernel)
  exact .inr (.inr ⟨⟨0x6E, by decide, by decide⟩, by decide⟩)

/-- A name and an algorithm, and no key. -/
def keylessData : OauthKeyData :=
  ⟨ofList (ascii "north"), fun _ => 0, 0, 0, 3600, ofList (ascii "A256GCM")⟩

/-- The message names the error, and zeros are the key that is used. -/
theorem keyless_accepted :
    HoldsString keylessData.kid 129 (ascii "north") ∧
      HoldsString keylessData.asRsAlg 65 (ascii "A256GCM") ∧
      (convertOauthKeyData 0 keylessData clearedKey (some fun _ => 0) 1024).ret = 0 ∧
      (convertOauthKeyData 0 keylessData clearedKey (some fun _ => 0) 1024).errMsg.map (cstr · 1024) =
        some (ascii "key is not defined") ∧
      ¬ Usable keylessData (ascii "north") (ascii "A256GCM")
        (convertOauthKeyData 0 keylessData clearedKey (some fun _ => 0) 1024).key := by
  refine ⟨holdsString_ofList (by decide) (by decide), holdsString_ofList (by decide) (by decide),
    by decide +kernel, by decide +kernel, fun husable => ?_⟩
  have henough := husable.enough
  revert henough
  decide +kernel

end TurnClient
