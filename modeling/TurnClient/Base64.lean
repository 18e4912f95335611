import TurnClient.OauthKeys
import TurnClient.Radix64
import TurnClient.StunHeader

/-!
# Base64

`base64_encode` writes the digits of each three bytes and then the padding over
the last ones; `base64_decode` looks every character up in a table that is zero
where no character of the alphabet is, and stores as many bytes as the last two
characters leave. Memory that `malloc` gives is as it was before.
-/

namespace TurnClient

open ByteMemory StringLoops
set_option autoImplicit false

/-- A block and the length that goes with it. -/
structure Block where
  data : Mem
  length : Nat

def Block.bytes (b : Block) : List Byte := slice b.data 0 b.length

def encodingTable : List Byte :=
  ascii "ABCDEFGHIJKLMNOPQRSTUVWXYZabcdefghijklmnopqrstuvwxyz0123456789+/"

def encodingChar (i : Nat) : Byte := encodingTable.getD i 0

def modTable (n : Nat) : Nat := [0, 2, 1].getD n 0

/-! ## The encoder -/

def encodeGroup (octetA octetB octetC : Byte) : List Byte :=
  let triple : BitVec 32 :=
    (octetA.setWidth 32 <<< 0x10) + (octetB.setWidth 32 <<< 0x08) + octetC.setWidth 32
  [encodingChar ((triple >>> (3 * 6)) &&& 0x3F).toNat,
    encodingChar ((triple >>> (2 * 6)) &&& 0x3F).toNat,
    encodingChar ((triple >>> (1 * 6)) &&& 0x3F).toNat,
    encodingChar ((triple >>> (0 * 6)) &&& 0x3F).toNat]

/-- The turns of the loop; an octet behind the end is zero. -/
def encodeLoop : List Byte → List Byte
  | [] => []
  | [a] => encodeGroup a 0 0
  | [a, b] => encodeGroup a b 0
  | a :: b :: c :: rest => encodeGroup a b c ++ encodeLoop rest

/-- `none` is NULL. -/
def base64Encode (malloc : Nat → Option Mem) (data : List Byte) : Option Block :=
  let outputLength := 4 * ((data.length + 2) / 3)
  match malloc (outputLength + 1) with
  | none => none
  | some encodedData =>
    let encodedData := write encodedData 0 (encodeLoop data)
    let encodedData := (List.range (modTable (data.length % 3))).foldl
      (fun m i => write m (outputLength - 1 - i) [0x3D]) encodedData
    some ⟨write encodedData outputLength [0], outputLength⟩

/-! ## The decoder -/

def decodingTable : Mem :=
  (List.range 64).foldl (fun t i => write t (encodingChar i).toNat [BitVec.ofNat 8 i]) fun _ => 0

/-- `none` for a character whose place in the table depends on the sign of `char`. -/
def sextet (c : Byte) : Option (BitVec 32) :=
  if c = 0x3D then some 0
  else if c < 0x80 then some ((decodingTable c.toNat).setWidth 32)
  else none

def storeByte (outputLength : Nat) (p : Mem × Nat) (b : Byte) : Mem × Nat :=
  if p.2 < outputLength then (write p.1 p.2 [b], p.2 + 1) else p

/-- The turns of the loop with the block and `j`. -/
def decodeLoop (outputLength : Nat) : List Byte → Mem × Nat → Option (Mem × Nat)
  | w :: x :: y :: z :: rest, p => do
    let sextetA ← sextet w
    let sextetB ← sextet x
    let sextetC ← sextet y
    let sextetD ← sextet z
    let triple := (sextetA <<< (3 * 6)) + (sextetB <<< (2 * 6)) + (sextetC <<< (1 * 6)) +
      (sextetD <<< (0 * 6))
    let p := storeByte outputLength p (((triple >>> (2 * 8)) &&& 0xFF).setWidth 8)
    let p := storeByte outputLength p (((triple >>> (1 * 8)) &&& 0xFF).setWidth 8)
    let p := storeByte outputLength p (((triple >>> (0 * 8)) &&& 0xFF).setWidth 8)
    decodeLoop outputLength rest p
  | _, p => some p

/-- What `base64_decode` returns; `undefined` when it reads outside an array. -/
inductive DecodeAnswer where
  | undefined
  | null
  | decoded (b : Block)

/-- `*output_length`, from the length and the last two characters. -/
def decodedLength (data : List Byte) : Nat :=
  let outputLength := data.length / 4 * 3
  let outputLength :=
    if data[data.length - 1]? = some 0x3D then outputLength - 1 else outputLength
  if data[data.length - 2]? = some 0x3D then outputLength - 1 else outputLength

def base64Decode (malloc : Nat → Option Mem) (data : List Byte) : DecodeAnswer :=
  if data.length % 4 ≠ 0 then .null
  else if data = [] then .undefined
  else
    let outputLength := decodedLength data
    match malloc outputLength with
    | none => .null
    | some decodedData =>
      match decodeLoop outputLength (data.take (castInt data.length).toNat) (decodedData, 0) with
      | none => .undefined
      | some p => .decoded ⟨p.1, outputLength⟩

/-- `oauth_key_data_raw` without the realm, which the conversion does not read. -/
structure OauthKeyDataRaw where
  kid : Mem
  ikmKey : Mem
  timestamp : BitVec 64
  lifetime : BitVec 32
  asRsAlg : Mem

/-- `none` when the decoder reads outside an array. -/
def convertOauthKeyDataRaw (malloc : Nat → Option Mem) (raw : OauthKeyDataRaw) :
    Option OauthKeyData :=
  let oakd : OauthKeyData :=
    { kid := ofList (slice raw.kid 0 (oauthKidSize + 1))
      ikmKey := fun _ => 0
      ikmKeySize := 0
      timestamp := raw.timestamp.setWidth 32
      lifetime := raw.lifetime
      asRsAlg := ofList (slice raw.asRsAlg 0 (oauthAlgSize + 1)) }
  if raw.ikmKey 0 ≠ 0 then
    match base64Decode malloc (cstr raw.ikmKey (oauthKeySize + 1)) with
    | .undefined => none
    | .null => some oakd
    | .decoded b => some { oakd with ikmKey := write oakd.ikmKey 0 b.bytes, ikmKeySize := b.length }
  else some oakd

theorem decodedLength_le (data : List Byte) : decodedLength data ≤ data.length / 4 * 3 := by
  simp only [decodedLength]
  split <;> split <;> omega

theorem base64Decode_length {malloc : Nat → Option Mem} {data : List Byte} {b : Block}
    (h : base64Decode malloc data = .decoded b) : b.length = decodedLength data := by
  simp only [base64Decode] at h
  split at h
  · cases h
  · split at h
    · cases h
    · split at h
      · cases h
      · split at h
        · cases h
        · cases h
          rfl

/-- The decoded key fits in its array. -/
theorem convertOauthKeyDataRaw_fits {malloc : Nat → Option Mem} {raw : OauthKeyDataRaw}
    {oakd : OauthKeyData} (h : convertOauthKeyDataRaw malloc raw = some oakd) :
    oakd.ikmKeySize ≤ oauthKeySize := by
  simp only [convertOauthKeyDataRaw] at h
  split at h
  · split at h
    · cases h
    · cases h
      exact Nat.zero_le _
    · rename_i b hdecode
      cases h
      have hlen := cstr_length raw.ikmKey (oauthKeySize + 1)
      have hdecoded := decodedLength_le (cstr raw.ikmKey (oauthKeySize + 1))
      simp only [base64Decode_length hdecode]
      unfold oauthKeySize at hlen hdecoded ⊢
      omega
  · cases h
    exact Nat.zero_le _

/-! ## The alphabet -/

def sextetValue (c : Byte) : Nat := if c = 0x3D then 0 else (decodingTable c.toNat).toNat

theorem sextetValue_encodingChar : ∀ i < 64, sextetValue (encodingChar i) = i := by
  decide +kernel

/-- Storing small values leaves a table of small values. -/
theorem foldl_write_lt {place : Nat → Nat} {l : List Nat} {t : Mem} (hl : ∀ k ∈ l, k < 64)
    (ht : ∀ j, (t j).toNat < 64) (j : Nat) :
    (l.foldl (fun t k => write t (place k) [BitVec.ofNat 8 k]) t j).toNat < 64 := by
  induction l generalizing t with
  | nil => exact ht j
  | cons k l ih =>
    have hk := hl k List.mem_cons_self
    apply ih fun i hi => hl i (List.mem_cons_of_mem k hi)
    intro i
    simp only [write_apply]
    split
    · rename_i hi
      have hfirst : i - place k = 0 := by
        rw [List.length_singleton] at hi
        omega
      rw [hfirst, List.getD_cons_zero, BitVec.toNat_ofNat]
      omega
    · exact ht i

theorem sextetValue_lt (c : Byte) : sextetValue c < 64 := by
  unfold sextetValue
  split
  · decide
  · exact foldl_write_lt (fun k hk => List.mem_range.mp hk) (fun _ => by decide) c.toNat

/-- The alphabet with the reader of `base64_decode`. -/
def alphabet : Radix64.Alphabet Byte where
  char := encodingChar
  digit := sextetValue
  pad := 0x3D
  digit_char := sextetValue_encodingChar
  digit_lt := sextetValue_lt
  digit_pad := rfl
  char_ne_pad := by decide +kernel

theorem encodingChar_mem {i : Nat} (hi : i < 64) : encodingChar i ∈ encodingTable := by
  have hlen : i < encodingTable.length := hi
  rw [encodingChar, List.getD_eq_getElem _ _ hlen]
  exact List.getElem_mem hlen

theorem member_alphabet_iff (c : Byte) : alphabet.Member c ↔ c ∈ encodingTable := by
  constructor
  · intro h
    rw [← h]
    exact encodingChar_mem (sextetValue_lt c)
  · intro h
    obtain ⟨i, hi, rfl⟩ := List.getElem_of_mem h
    rw [← List.getD_eq_getElem encodingTable 0 hi]
    exact alphabet.member_char hi

/-! ## What is written -/

theorem and_low6_toNat (x : BitVec 32) : (x &&& 0x3F).toNat = x.toNat % 64 := by
  rw [BitVec.toNat_and]
  exact Nat.and_two_pow_sub_one_eq_mod x.toNat 6

theorem encodeGroup_eq (a b c : Byte) : encodeGroup a b c = Radix64.group alphabet a b c := by
  have ha := a.isLt
  have hb := b.isLt
  have hc := c.isLt
  have htriple : ((a.setWidth 32 <<< 0x10) + (b.setWidth 32 <<< 0x08) + c.setWidth 32 :
      BitVec 32).toNat = a.toNat * 65536 + b.toNat * 256 + c.toNat := by
    simp only [BitVec.toNat_add, BitVec.toNat_shiftLeft, BitVec.toNat_setWidth, Nat.shiftLeft_eq]
    omega
  have h0 : (a.toNat * 65536 + b.toNat * 256 + c.toNat) / 2 ^ (3 * 6) % 64 = a.toNat / 4 := by
    omega
  have h1 : (a.toNat * 65536 + b.toNat * 256 + c.toNat) / 2 ^ (2 * 6) % 64 =
      a.toNat % 4 * 16 + b.toNat / 16 := by
    omega
  have h2 : (a.toNat * 65536 + b.toNat * 256 + c.toNat) / 2 ^ (1 * 6) % 64 =
      b.toNat % 16 * 4 + c.toNat / 64 := by
    omega
  have h3 : (a.toNat * 65536 + b.toNat * 256 + c.toNat) / 2 ^ (0 * 6) % 64 = c.toNat % 64 := by
    omega
  simp only [encodeGroup, and_low6_toNat, BitVec.toNat_ushiftRight, Nat.shiftRight_eq_div_pow,
    htriple, h0, h1, h2, h3]
  rfl

theorem encodeLoop_eq (data : List Byte) : encodeLoop data = Radix64.digits alphabet data := by
  induction data using encodeLoop.induct with
  | case1 => rfl
  | case2 a => exact encodeGroup_eq a 0 0
  | case3 a b => exact encodeGroup_eq a b 0
  | case4 a b c rest ih => rw [encodeLoop, Radix64.digits, encodeGroup_eq, ih]

/-- The padding is stored from the end on. -/
theorem storePadding_eq (m : Mem) (n k : Nat) (hk : k ≤ n) :
    (List.range k).foldl (fun m i => write m (n - 1 - i) [0x3D]) m =
      write m (n - k) (List.replicate k 0x3D) := by
  induction k with
  | zero => exact (write_nil m n).symm
  | succ k ih =>
    rw [List.range_succ, List.foldl_append, ih (Nat.le_of_succ_le hk), List.foldl_cons,
      List.foldl_nil]
    obtain ⟨off, rfl⟩ := Nat.exists_eq_add_of_le' hk
    have hoff : off + (k + 1) - 1 - k = off := by omega
    have hnext : off + (k + 1) - k = off + 1 := by omega
    have hdisjoint : off + 1 + (List.replicate k (0x3D : Byte)).length ≤ off ∨
        off + [(0x3D : Byte)].length ≤ off + 1 := .inr (Nat.le_refl _)
    rw [hoff, hnext, Nat.add_sub_cancel, write_comm hdisjoint]
    exact write_append m off [0x3D] (List.replicate k 0x3D)

theorem modTable_eq (n : Nat) : modTable (n % 3) = Radix64.lacking n := by
  have hn := Nat.mod_lt n (Nat.zero_lt_succ 2)
  unfold Radix64.lacking
  generalize n % 3 = r at hn ⊢
  revert r
  decide

theorem write_over_end (m : Mem) (off : Nat) (front : List Byte) {tail tail' : List Byte}
    (h : tail.length = tail'.length) :
    write (write m off (front ++ tail)) (off + front.length) tail' =
      write m off (front ++ tail') := by
  rw [← write_append, write_covered ⟨Nat.le_refl _, by rw [h]⟩, write_append]

/-- The padding is written over the last digits. -/
theorem padded_eq (m : Mem) (data : List Byte) :
    write (write m 0 (Radix64.digits alphabet data))
        ((Radix64.digits alphabet data).length - Radix64.lacking data.length)
        (List.replicate (Radix64.lacking data.length) 0x3D) =
      write m 0 (Radix64.encode alphabet data) := by
  have hlack := Radix64.lacking_le_length alphabet data
  have hencode := Radix64.encode_eq_digits alphabet data
  generalize Radix64.digits alphabet data = text at hlack hencode ⊢
  have hfront : (text.take (text.length - Radix64.lacking data.length)).length =
      text.length - Radix64.lacking data.length := by
    rw [List.length_take]
    omega
  have htail : (text.drop (text.length - Radix64.lacking data.length)).length =
      (List.replicate (Radix64.lacking data.length) (0x3D : Byte)).length := by
    rw [List.length_drop, List.length_replicate]
    omega
  have hover := write_over_end m 0 (text.take (text.length - Radix64.lacking data.length)) htail
  rw [List.take_append_drop, hfront, Nat.zero_add] at hover
  rw [hover, hencode]
  rfl

/-- The text is written over the digits, whatever the block held. -/
theorem base64Encode_eq (malloc : Nat → Option Mem) (data : List Byte) :
    (base64Encode malloc data).map Block.bytes =
      (malloc (4 * ((data.length + 2) / 3) + 1)).map fun _ => Radix64.encode alphabet data := by
  have hdigits := Radix64.digits_length alphabet data
  have hencode := Radix64.encode_length alphabet data
  have hroom := Radix64.lacking_le_length alphabet data
  rw [hdigits] at hroom
  cases hm : malloc (4 * ((data.length + 2) / 3) + 1) with
  | none => simp only [base64Encode, hm, Option.map_none]
  | some m =>
    have hsame := slice_write_same m 0 (Radix64.encode alphabet data)
    rw [hencode] at hsame
    simp only [base64Encode, hm, Option.map_some, Option.some.injEq, Block.bytes]
    rw [slice_write_disjoint (.inl (Nat.le_of_eq (Nat.zero_add _))), encodeLoop_eq, modTable_eq,
      storePadding_eq _ _ _ hroom, ← hdigits, padded_eq, hdigits, hsame]

/-! ## What is read -/

theorem sextet_eq {c : Byte} (hc : c < 0x80) :
    sextet c = some (BitVec.ofNat 32 (sextetValue c)) := by
  unfold sextet sextetValue
  by_cases hpad : c = 0x3D
  · rw [if_pos hpad, if_pos hpad]
    rfl
  · rw [if_neg hpad, if_neg hpad, if_pos hc, BitVec.ofNat_toNat]

theorem and_low8_eq (x : BitVec 32) : (x &&& 0xFF).setWidth 8 = BitVec.ofNat 8 x.toNat := by
  apply BitVec.eq_of_toNat_eq
  have hmask : (x &&& 0xFF).toNat = x.toNat % 256 := by
    rw [BitVec.toNat_and]
    exact Nat.and_two_pow_sub_one_eq_mod x.toNat 8
  rw [BitVec.toNat_setWidth, hmask, BitVec.toNat_ofNat]
  exact Nat.mod_mod x.toNat 256

/-- The bytes of four sextets. -/
theorem triple_bytes {a b c d : Nat} (ha : a < 64) (hb : b < 64) (hc : c < 64) (hd : d < 64)
    {triple : BitVec 32}
    (h : triple = (BitVec.ofNat 32 a <<< (3 * 6)) + (BitVec.ofNat 32 b <<< (2 * 6)) +
      (BitVec.ofNat 32 c <<< (1 * 6)) + (BitVec.ofNat 32 d <<< (0 * 6))) :
    ((triple >>> (2 * 8)) &&& 0xFF).setWidth 8 = BitVec.ofNat 8 (a * 4 + b / 16) ∧
      ((triple >>> (1 * 8)) &&& 0xFF).setWidth 8 = BitVec.ofNat 8 (b % 16 * 16 + c / 4) ∧
      ((triple >>> (0 * 8)) &&& 0xFF).setWidth 8 = BitVec.ofNat 8 (c % 4 * 64 + d) := by
  have htriple : triple.toNat = a * 262144 + b * 4096 + c * 64 + d := by
    simp only [h, BitVec.toNat_add, BitVec.toNat_shiftLeft, BitVec.toNat_ofNat, Nat.shiftLeft_eq]
    omega
  simp only [and_low8_eq, BitVec.toNat_ushiftRight, Nat.shiftRight_eq_div_pow, htriple]
  refine ⟨?_, ?_, ?_⟩
  · congr 1
    omega
  · apply BitVec.eq_of_toNat_eq
    simp only [BitVec.toNat_ofNat]
    omega
  · apply BitVec.eq_of_toNat_eq
    simp only [BitVec.toNat_ofNat]
    omega

theorem foldl_storeByte (n : Nat) (bs : List Byte) (m : Mem) {j : Nat} (hj : j ≤ n) :
    bs.foldl (storeByte n) (m, j) =
      (write m j (bs.take (n - j)), j + (bs.take (n - j)).length) := by
  induction bs generalizing m j with
  | nil => simp
  | cons b bs ih =>
    rw [List.foldl_cons, storeByte]
    by_cases hroom : j < n
    · have hleft : n - j = n - (j + 1) + 1 := by omega
      rw [if_pos hroom, ih _ hroom, hleft, List.take_succ_cons]
      refine Prod.ext (write_append m j [b] _) ?_
      simp only [List.length_cons, Nat.succ_eq_add_one]
      omega
    · have hfull : n - j = 0 := by omega
      rw [if_neg hroom, ih m hj, hfull, List.take_zero, List.take_zero]

/-- The loop stores what the text stands for, as far as there is room. -/
theorem decodeLoop_eq (n : Nat) {s : List Byte} (h7 : ∀ c ∈ s, c < 0x80) (p : Mem × Nat) :
    decodeLoop n s p = some ((Radix64.decode alphabet s).foldl (storeByte n) p) := by
  induction s using Radix64.decode.induct generalizing p with
  | case1 w x y z rest ih =>
    simp only [List.forall_mem_cons] at h7
    obtain ⟨hw, hx, hy, hz, hrest⟩ := h7
    obtain ⟨h1, h2, h3⟩ := triple_bytes (sextetValue_lt w) (sextetValue_lt x) (sextetValue_lt y)
      (sextetValue_lt z) rfl
    simp only [decodeLoop, sextet_eq hw, sextet_eq hx, sextet_eq hy, sextet_eq hz,
      Option.bind_eq_bind, Option.bind_some, h1, h2, h3]
    rw [ih hrest, Radix64.decode, List.foldl_append]
    rfl
  | case2 s hshort =>
    rw [decodeLoop, Radix64.decode]
    · rfl
    · exact hshort
    · exact hshort

theorem decodedLength_eq (s : List Byte) : decodedLength s = Radix64.byteCount alphabet s :=
  (Radix64.byteCount_eq alphabet s).symm

theorem base64Decode_eq (malloc : Nat → Option Mem) {s : List Byte} (hne : s ≠ [])
    (hfour : s.length % 4 = 0) (h7 : ∀ c ∈ s, c < 0x80) :
    base64Decode malloc s =
      match malloc (Radix64.byteCount alphabet s) with
      | none => .null
      | some m => .decoded
        ⟨write m 0 ((Radix64.decode alphabet (s.take (castInt s.length).toNat)).take
          (Radix64.byteCount alphabet s)), Radix64.byteCount alphabet s⟩ := by
  have hread : ∀ c ∈ s.take (castInt s.length).toNat, c < 0x80 := fun c hc =>
    h7 c (List.mem_of_mem_take hc)
  simp only [base64Decode, decodedLength_eq, decodeLoop_eq _ hread]
  rw [if_neg (not_not.mpr hfour), if_neg hne]
  cases malloc (Radix64.byteCount alphabet s) with
  | none => rfl
  | some m =>
    simp only [foldl_storeByte _ _ _ (Nat.zero_le _)]
    rfl

/-! ## The round trip -/

theorem lt_of_mem_encode {data : List Byte} {c : Byte} (h : c ∈ Radix64.encode alphabet data) :
    c < 0x80 := by
  have hall : encodingTable.all fun c => c < 0x80 := by
    decide +kernel
  have htable : ∀ c ∈ encodingTable, c < 0x80 := List.all_iff_forall_prop.mp hall
  rw [Radix64.encode_eq_digits] at h
  rcases List.mem_append.mp h with h | h
  · apply htable c
    rw [← member_alphabet_iff]
    exact Radix64.member_of_mem_digits alphabet (List.mem_of_mem_take h)
  · rw [List.eq_of_mem_replicate h]
    decide

/-- Short texts are read to the end. -/
theorem take_castInt {s : List Byte} (h : s.length < 2 ^ 31) :
    s.take (castInt s.length).toNat = s := by
  rw [castInt_of_lt h, Int.toNat_natCast, List.take_length]

theorem decoded_bytes (m : Mem) {bs : List Byte} {n : Nat} (h : n ≤ bs.length) :
    Block.bytes ⟨write m 0 (bs.take n), n⟩ = bs.take n := by
  have hsame := slice_write_same m 0 (bs.take n)
  rwa [List.length_take, Nat.min_eq_left h] at hsame

theorem byteCount_le (s : List Byte) :
    Radix64.byteCount alphabet s ≤ (Radix64.decode alphabet s).length := by
  rw [Radix64.decode_length]
  exact Nat.sub_le _ _

/-- What was written is read back, whatever the blocks held. -/
theorem base64Decode_encode {malloc : Nat → Option Mem} (hmalloc : ∀ n, malloc n ≠ none)
    {data : List Byte} (hne : data ≠ [])
    (hshort : (Radix64.encode alphabet data).length < 2 ^ 31) :
    ∃ decoded, base64Decode malloc (Radix64.encode alphabet data) = .decoded decoded ∧
      decoded.bytes = data ∧ decoded.length = data.length := by
  have hlen := Radix64.encode_length alphabet data
  have hcount := Radix64.byteCount_encode alphabet hne
  have hread := Radix64.take_decode_encode alphabet hne
  have hroom := byteCount_le (Radix64.encode alphabet data)
  rw [hcount] at hroom hread
  obtain ⟨m, hm⟩ := Option.ne_none_iff_exists'.mp (hmalloc data.length)
  have hnonempty : Radix64.encode alphabet data ≠ [] := by
    have hpos := List.length_pos_of_ne_nil hne
    apply List.ne_nil_of_length_pos
    rw [hlen]
    omega
  have hdecode := base64Decode_eq malloc hnonempty (by rw [hlen]; exact Nat.mul_mod_right 4 _)
    fun c hc => lt_of_mem_encode hc
  rw [hcount, hm, take_castInt hshort] at hdecode
  refine ⟨_, hdecode, ?_, rfl⟩
  rw [decoded_bytes m hroom, hread]

/-- As long as `malloc` gives memory, with anything in it. -/
theorem base64_round_trip {malloc malloc' : Nat → Option Mem} (hmalloc : ∀ n, malloc n ≠ none)
    (hmalloc' : ∀ n, malloc' n ≠ none) {data : List Byte} (hne : data ≠ [])
    (hshort : 4 * ((data.length + 2) / 3) < 2 ^ 31) :
    ∃ text decoded, base64Encode malloc data = some text ∧
      base64Decode malloc' text.bytes = .decoded decoded ∧
      decoded.bytes = data ∧ decoded.length = data.length ∧
      text.length = 4 * ((data.length + 2) / 3) ∧
      ∃ body k, text.bytes = body ++ List.replicate k 0x3D ∧ k ≤ 2 ∧
        ∀ c ∈ body, c ∈ encodingTable := by
  have hlen := Radix64.encode_length alphabet data
  obtain ⟨m, hm⟩ := Option.ne_none_iff_exists'.mp (hmalloc (4 * ((data.length + 2) / 3) + 1))
  have hencode := base64Encode_eq malloc data
  rw [hm, Option.map_some, Option.map_eq_some_iff] at hencode
  obtain ⟨text, htext, hbytes⟩ := hencode
  rw [← hlen] at hshort
  obtain ⟨decoded, hdecode, hdata, hcount⟩ := base64Decode_encode hmalloc' hne hshort
  rw [← hbytes] at hdecode
  refine ⟨text, decoded, htext, hdecode, hdata, hcount, ?_, ?_⟩
  · have hslice := slice_length text.data 0 text.length
    rw [← hslice, ← hlen]
    exact congrArg List.length hbytes
  · refine ⟨_, _, hbytes.trans (Radix64.encode_eq_digits alphabet data), Radix64.lacking_le _, ?_⟩
    intro c hc
    rw [← member_alphabet_iff]
    exact Radix64.member_of_mem_digits alphabet (List.mem_of_mem_take hc)

/-- Five bytes take eight characters. -/
theorem hello_round_trip :
    ∃ text decoded, base64Encode (fun _ => some fun _ => 0xCD) (ascii "hello") = some text ∧
      base64Decode (fun _ => some fun _ => 0xAB) text.bytes = .decoded decoded ∧
      decoded.bytes = ascii "hello" ∧ decoded.length = 5 ∧ text.length = 8 ∧
      ∃ body k, text.bytes = body ++ List.replicate k 0x3D ∧ k ≤ 2 ∧
        ∀ c ∈ body, c ∈ encodingTable :=
  base64_round_trip (fun _ => Option.some_ne_none _) (fun _ => Option.some_ne_none _) (by decide)
    (by decide)

/-- A key that was written in base 64 arrives in the record as it was. -/
theorem convertOauthKeyDataRaw_encoded {malloc : Nat → Option Mem} (hmalloc : ∀ n, malloc n ≠ none)
    {raw : OauthKeyDataRaw} {key : List Byte} (hne : key ≠ [])
    (hraw : HoldsString raw.ikmKey (oauthKeySize + 1) (Radix64.encode alphabet key)) :
    ∃ oakd, convertOauthKeyDataRaw malloc raw = some oakd ∧ oakd.ikmKeySize = key.length ∧
      slice oakd.ikmKey 0 key.length = key := by
  have hfits := hraw.fits
  unfold oauthKeySize at hfits
  obtain ⟨decoded, hdecode, hbytes, hlen⟩ :=
    base64Decode_encode hmalloc hne (Nat.lt_trans hfits (by decide))
  have hfirst : raw.ikmKey 0 ≠ 0 := by
    rw [Ne, hraw.first_eq_zero_iff]
    apply List.ne_nil_of_length_pos
    have hpos := List.length_pos_of_ne_nil hne
    rw [Radix64.encode_length]
    omega
  have hstring : cstr raw.ikmKey (oauthKeySize + 1) = Radix64.encode alphabet key :=
    hraw.takeWhile_slice
  simp only [convertOauthKeyDataRaw, hstring, hdecode]
  rw [if_pos hfirst]
  refine ⟨_, rfl, hlen, ?_⟩
  rw [hbytes]
  exact slice_write_same _ 0 key

/-! ## Texts that are not canonical -/

/-- What is promised of a text: only the bytes that are written so are read from it. -/
def StrictlyDecoded (s : List Byte) : Prop :=
  ∀ malloc malloc' decoded text, base64Decode malloc s = .decoded decoded →
    base64Encode malloc' decoded.bytes = some text → text.bytes = s

theorem strictlyDecoded_iff_encode (s : List Byte) :
    StrictlyDecoded s ↔ ∀ malloc decoded, base64Decode malloc s = .decoded decoded →
      Radix64.encode alphabet decoded.bytes = s := by
  constructor
  · intro h malloc decoded hdecode
    have hencode := base64Encode_eq (fun _ => some fun _ => 0) decoded.bytes
    rw [Option.map_some, Option.map_eq_some_iff] at hencode
    obtain ⟨text, htext, hbytes⟩ := hencode
    rw [← hbytes]
    exact h malloc _ decoded text hdecode htext
  · intro h malloc malloc' decoded text hdecode htext
    have hencode := base64Encode_eq malloc' decoded.bytes
    rw [htext, Option.map_some] at hencode
    obtain ⟨_, _, hbytes⟩ := Option.map_eq_some_iff.mp hencode.symm
    rw [← hbytes]
    exact h malloc decoded hdecode

/-- Behind the bytes that are stored the block is as it was. -/
theorem unwritten_byte (m : Mem) {bs : List Byte} {n : Nat} (h : bs.length < n) :
    (Block.bytes ⟨write m 0 (bs.take n), n⟩)[n - 1]? = some (m (n - 1)) := by
  have hlen : (bs.take n).length ≤ n - 1 := by
    rw [List.length_take]
    omega
  have hpos : n - 1 < n := by omega
  simp only [Block.bytes]
  rw [slice_getElem?, if_pos hpos, Nat.zero_add, write_outside (.inr (by omega))]

theorem strictlyDecoded_short_iff {s : List Byte} (hne : s ≠ []) (hfour : s.length % 4 = 0)
    (h7 : ∀ c ∈ s, c < 0x80) (hshort : s.length < 2 ^ 31) :
    StrictlyDecoded s ↔ Radix64.Canonical alphabet s := by
  have hdecode := fun malloc => base64Decode_eq malloc hne hfour h7
  simp only [take_castInt hshort] at hdecode
  rw [strictlyDecoded_iff_encode, ← Radix64.encode_take_decode_iff alphabet hne hfour]
  constructor
  · intro h
    have hany := h (fun _ => some fun _ => 0) _ (hdecode _)
    rwa [decoded_bytes _ (byteCount_le s)] at hany
  · intro h malloc decoded hdecoded
    rw [hdecode malloc] at hdecoded
    cases hm : malloc (Radix64.byteCount alphabet s) with
    | none =>
      rw [hm] at hdecoded
      cases hdecoded
    | some m =>
      rw [hm] at hdecoded
      cases hdecoded
      rwa [decoded_bytes m (byteCount_le s)]

/-- A long text is not read to the end: what the block held shows through. -/
theorem not_strictlyDecoded_of_long {s : List Byte} (hfour : s.length % 4 = 0)
    (h7 : ∀ c ∈ s, c < 0x80) (hlong : ¬ s.length < 2 ^ 31) : ¬ StrictlyDecoded s := by
  have hne : s ≠ [] := by
    rintro rfl
    exact hlong (by decide)
  have hcast := castInt_toNat_lt s.length
  have hpads := Radix64.pads_le alphabet s
  have hread : (Radix64.decode alphabet (s.take (castInt s.length).toNat)).length <
      Radix64.byteCount alphabet s := by
    rw [Radix64.decode_length, List.length_take]
    unfold Radix64.byteCount
    omega
  have hdecode := fun malloc => base64Decode_eq malloc hne hfour h7
  rw [strictlyDecoded_iff_encode]
  intro h
  have hlast : ∀ m : Mem, Block.bytes ⟨write m 0 ((Radix64.decode alphabet
      (s.take (castInt s.length).toNat)).take (Radix64.byteCount alphabet s)),
      Radix64.byteCount alphabet s⟩ ≠ [] := by
    intro m hnil
    have hbyte := unwritten_byte m hread
    rw [hnil] at hbyte
    cases hbyte
  have hzero := h (fun _ => some fun _ => 0) _ (hdecode _)
  have hone := h (fun _ => some fun _ => 1) _ (hdecode _)
  have hsame := Radix64.encode_injective alphabet (hlast _) (hlast _) (hzero.trans hone.symm)
  have hbyte := unwritten_byte (fun _ => 0) hread
  rw [hsame, unwritten_byte (fun _ => 1) hread] at hbyte
  cases hbyte

theorem strictlyDecoded_iff {s : List Byte} (hne : s ≠ []) (h7 : ∀ c ∈ s, c < 0x80) :
    StrictlyDecoded s ↔
      s.length % 4 ≠ 0 ∨ (s.length < 2 ^ 31 ∧ Radix64.Canonical alphabet s) := by
  by_cases hfour : s.length % 4 = 0
  · rw [or_iff_right (not_not.mpr hfour)]
    by_cases hshort : s.length < 2 ^ 31
    · rw [strictlyDecoded_short_iff hne hfour h7 hshort, and_iff_right hshort]
    · exact iff_of_false (not_strictlyDecoded_of_long hfour h7 hshort) fun h => hshort h.1
  · refine iff_of_true ?_ (.inl hfour)
    intro malloc malloc' decoded text hdecode _
    rw [base64Decode, if_pos hfour] at hdecode
    cases hdecode

/-- A text of the alphabet with the padding of one byte. -/
theorem padded_strictlyDecoded : StrictlyDecoded (ascii "aGVsbA==") :=
  (strictlyDecoded_iff (by decide) (by decide)).mpr (.inr ⟨by decide, by decide +kernel⟩)

/-- A mistyped character counts as an A, and another key comes out. -/
theorem mistyped_decoded :
    (∀ c ∈ ascii "aG!s", c < 0x80) ∧
      (∃ decoded text,
        base64Decode (fun _ => some fun _ => 0) (ascii "aG!s") = .decoded decoded ∧
        base64Encode (fun _ => some fun _ => 0) decoded.bytes = some text ∧
        text.bytes = ascii "aGAs") ∧
      ¬ StrictlyDecoded (ascii "aG!s") ∧
      (convertOauthKeyDataRaw (fun _ => some fun _ => 0)
        ⟨ofList (ascii "north"), ofList (ascii "aG!s"), 0, 0, ofList (ascii "A128GCM")⟩).map
          (fun oakd => slice oakd.ikmKey 0 oakd.ikmKeySize) = some [0x68, 0x60, 0x2C] := by
  have hdecode : base64Decode (fun _ => some fun _ => 0) (ascii "aG!s") = .decoded
      ⟨write (fun _ => 0) 0 ((Radix64.decode alphabet ((ascii "aG!s").take 4)).take 3), 3⟩ :=
    base64Decode_eq _ (by decide) (by decide) (by decide)
  have hbytes : Block.bytes
      ⟨write (fun _ => 0) 0 ((Radix64.decode alphabet ((ascii "aG!s").take 4)).take 3), 3⟩ =
        [0x68, 0x60, 0x2C] := by
    decide +kernel
  have hencode : ∃ text, base64Encode (fun _ => some fun _ => 0) [0x68, 0x60, 0x2C] = some text ∧
      text.bytes = ascii "aGAs" := by
    have hmap := base64Encode_eq (fun _ => some fun _ => 0) [0x68, 0x60, 0x2C]
    obtain ⟨text, htext, htextBytes⟩ := Option.map_eq_some_iff.mp hmap
    exact ⟨text, htext, htextBytes.trans (by decide +kernel)⟩
  obtain ⟨text, htext, htextBytes⟩ := hencode
  rw [← hbytes] at htext
  refine ⟨by decide, ⟨_, text, hdecode, htext, htextBytes⟩, ?_, by decide +kernel⟩
  intro hstrict
  have hsame := hstrict _ _ _ _ hdecode htext
  rw [htextBytes] at hsame
  revert hsame
  decide

end TurnClient
