import TurnClient.StunBuilding
import Mathlib.Data.List.TakeWhile

/-!
# The length of the message at the front of a stream

`stun_get_message_len_str` guesses from the first bytes whether a STUN message,
an HTTP request or a ChannelData message begins there, in that order; a guess
that is incomplete gives way to the next one. The buffer is the memory that can
be read from the pointer, of which `blen` bytes have arrived: the number in the
content-length header is read by `strtoul`, which does not know `blen`.
-/

namespace TurnClient

open ByteMemory
set_option autoImplicit false

/-! ## Text search -/

def tolower (b : Byte) : Byte := if 0x41 ≤ b ∧ b ≤ 0x5A then b + 0x20 else b

def sheadof (ignoreCase : Bool) (full : Mem) : List Byte → Nat → Bool
  | [], _ => true
  | b :: head, off =>
    (b == full off || ignoreCase && tolower b == tolower (full off)) &&
      sheadof ignoreCase full head (off + 1)

/-- The first place of the needle among the `slen` bytes from `hay` on. -/
def findstr (m : Mem) (hay slen : Nat) (needle : List Byte) (ignoreCase : Bool) : Option Nat :=
  if slen ≠ 0 ∧ needle.length ≤ slen then
    ((List.range (slen - needle.length + 1)).find? fun i =>
      sheadof ignoreCase m needle (hay + i)).map (hay + ·)
  else none

def isspace (b : Byte) : Bool := b == 0x20 || decide (0x09 ≤ b ∧ b ≤ 0x0D)

def isdigit (b : Byte) : Bool := decide (0x30 ≤ b ∧ b ≤ 0x39)

/-- The text behind an optional sign, and whether the sign is a minus. -/
def afterSign (str : List Byte) : Bool × List Byte :=
  match str with
  | [] => (false, [])
  | b :: rest => if b = 0x2D then (true, rest) else if b = 0x2B then (false, rest) else (false, str)

/-- `strtoul` with base 10; `ulongMax` is ULONG_MAX of the platform. -/
def strtoul (ulongMax : Nat) (str : List Byte) : Nat :=
  let (negative, digits) := afterSign (str.dropWhile isspace)
  let value := (digits.takeWhile isdigit).foldl (fun v b => 10 * v + (b.toNat - 0x30)) 0
  if ulongMax < value then ulongMax
  else if negative then (ulongMax + 1 - value) % (ulongMax + 1)
  else value

/-! ## The three guesses -/

def httpMethods : List (List Byte) := [ascii "GET ", ascii "POST ", ascii "DELETE ", ascii "PUT "]

/-- The empty line that ends the head of an HTTP request. -/
def httpHeadEnd (s : Mem) (blen : Nat) : Option Nat :=
  if 12 ≤ blen ∧ httpMethods.any (fun method => sheadof false s method 0) then
    match findstr s 4 (blen - 4) (ascii " HTTP/") false with
    | none => none
    | some sp =>
      let diffBlen := sp + 6
      if diffBlen + 4 ≤ blen then
        findstr s diffBlen (blen - diffBlen) (ascii "\r\n\r\n") false
      else none
  else none

def clheader : List Byte := ascii "content-length: "

/-- What the head, which ends at `sp`, says about the length of the body. -/
def contentLength (ulongMax : Nat) (s : List Byte) (sp : Nat) : Nat :=
  match findstr (ofList s) 0 sp clheader true with
  | none => 0
  | some cl =>
    let clen := strtoul ulongMax (s.drop (cl + clheader.length))
    if 0 < clen ∧ clen < 0x0FFFFFFF then clen else 0

/-- The length of head and body as an `int`; no buffer of the client is so long that it wraps. -/
def isHttpInline (ulongMax : Nat) (s : List Byte) (blen : Nat) : Int :=
  match httpHeadEnd (ofList s) blen with
  | none => 0
  | some sp => castInt (sp + 4 + contentLength ulongMax s sp)

/-- The STUN guess, with the length in 16 bits as the code adds it up. -/
def startsWithCommand (m : Mem) (blen : Nat) : Bool :=
  decide (stunHeaderLength ≤ blen) && !stunValidChannel (get16 m 0) && (m 0 &&& 0xC0 == 0) &&
    get32 m 4 == stunMagicCookie && (get16 m 2 &&& 0x0003 == 0) &&
    decide ((get16 m 2 + 20).toNat ≤ blen)

/-- To a multiple of four, when padding is wanted. -/
def roundUp (padding : Bool) (len : BitVec 16) : BitVec 16 :=
  if padding ∧ len &&& 0x0003 ≠ 0 then ((len >>> 2) + 1) <<< 2 else len

/-- The result and what `app_len` holds afterwards. -/
def stunGetMessageLenStr (ulongMax : Nat) (buf : List Byte) (blen : Nat) (padding : Bool)
    (appLen : Nat) : Int × Nat :=
  let m := ofList buf
  if blen = 0 then (-1, appLen)
  else if startsWithCommand m blen then
    ((get16 m 2 + 20).toNat, (get16 m 2 + 20).toNat)
  else
    let httpLen := isHttpInline ulongMax buf blen
    if 0 < httpLen ∧ httpLen ≤ blen then (httpLen, httpLen.toNat)
    else if 4 ≤ blen ∧ stunValidChannel (get16 m 0) = true then
      let bret := 4 + get16 m 2
      if (roundUp padding bret).toNat ≤ blen then ((roundUp padding bret).toNat, bret.toNat)
      else (-1, bret.toNat)
    else (-1, appLen)

/-- The HTTP guess: the length of a request that has arrived completely. -/
def httpFramed (ulongMax : Nat) (s : List Byte) (blen : Nat) : Option Nat :=
  let httpLen := isHttpInline ulongMax s blen
  if 0 < httpLen ∧ httpLen ≤ blen then some httpLen.toNat else none

/-- The ChannelData guess: the size on the stream and the size without padding. -/
def channelSizes (padding : Bool) (m : Mem) : Nat × Nat :=
  ((roundUp padding (4 + get16 m 2)).toNat, (4 + get16 m 2).toNat)

/-! ## Building ChannelData -/

/-- The header of a ChannelData message and the length it will have. -/
def stunInitChannelMessageStr (chnumber : BitVec 16) (m : StunBuffer) (length : Int)
    (doPadding : Bool) : Rc × StunBuffer :=
  if length < 0 then (.fail, m)
  else if intMax < 4 + length then (.undef, m)
  else if maxStunMessageSize < 4 + length then (.fail, m)
  else
    let rlen := BitVec.ofInt 16 length
    (.ok, ⟨put16 (put16 m.buf 0 chnumber) 2 rlen, 4 + (roundUp doPadding rlen).toNat⟩)

/-! ## Searching in a longer text -/

theorem sheadof_agree {ignoreCase : Bool} {m m' : Mem} {head : List Byte} {off : Nat}
    (h : ∀ i, off ≤ i → i < off + head.length → m i = m' i) :
    sheadof ignoreCase m head off = sheadof ignoreCase m' head off := by
  induction head generalizing off with
  | nil => rfl
  | cons b head ih =>
    rw [List.length_cons] at h
    simp only [sheadof]
    rw [h off (by omega) (by omega), ih fun i hlo hhi => h i (by omega) (by omega)]

theorem findstr_eq_some_iff {m : Mem} {hay slen : Nat} {needle : List Byte} {ignoreCase : Bool}
    (hneedle : needle ≠ []) {p : Nat} :
    findstr m hay slen needle ignoreCase = some p ↔
      hay ≤ p ∧ p + needle.length ≤ hay + slen ∧ sheadof ignoreCase m needle p = true ∧
        ∀ q, hay ≤ q → q < p → sheadof ignoreCase m needle q = false := by
  have hlen : 0 < needle.length := List.length_pos_iff.mpr hneedle
  unfold findstr
  constructor
  · intro h
    split at h
    · obtain ⟨i, hi, rfl⟩ := Option.map_eq_some_iff.mp h
      rw [List.find?_range_eq_some] at hi
      obtain ⟨hhead, hmem, hfirst⟩ := hi
      rw [List.mem_range] at hmem
      refine ⟨by omega, by omega, hhead, ?_⟩
      intro q hlo hhi
      have hq := hfirst (q - hay) (by omega)
      rw [Nat.add_sub_cancel' hlo] at hq
      simpa using hq
    · cases h
  · rintro ⟨hlo, hhi, hhead, hfirst⟩
    rw [if_pos (by omega)]
    refine Option.map_eq_some_iff.mpr ⟨p - hay, ?_, by omega⟩
    rw [List.find?_range_eq_some]
    refine ⟨by rwa [Nat.add_sub_cancel' hlo], List.mem_range.mpr (by omega), ?_⟩
    intro j hj
    rw [hfirst (hay + j) (by omega) (by omega)]
    rfl

/-- A place found stays the first one when more bytes follow. -/
theorem findstr_extend {m m' : Mem} {hay slen slen' : Nat} {needle : List Byte} {ignoreCase : Bool}
    (hneedle : needle ≠ []) {p : Nat} (hlen : slen ≤ slen')
    (hagree : ∀ i, i < hay + slen → m i = m' i)
    (h : findstr m hay slen needle ignoreCase = some p) :
    findstr m' hay slen' needle ignoreCase = some p := by
  obtain ⟨hlo, hhi, hhead, hfirst⟩ := (findstr_eq_some_iff hneedle).mp h
  refine (findstr_eq_some_iff hneedle).mpr ⟨hlo, by omega, ?_, ?_⟩
  · rw [← hhead]
    exact (sheadof_agree fun i _ hi => hagree i (by omega)).symm
  · intro q hq hqp
    rw [← hfirst q hq hqp]
    exact (sheadof_agree fun i _ hi => hagree i (by omega)).symm

theorem findstr_agree {m m' : Mem} {hay slen : Nat} {needle : List Byte} {ignoreCase : Bool}
    (hneedle : needle ≠ []) (hagree : ∀ i, i < hay + slen → m i = m' i) :
    findstr m hay slen needle ignoreCase = findstr m' hay slen needle ignoreCase := by
  apply Option.ext
  intro p
  exact ⟨findstr_extend hneedle (Nat.le_refl _) hagree,
    findstr_extend hneedle (Nat.le_refl _) fun i hi => (hagree i hi).symm⟩

/-! ## The HTTP guess -/

theorem sheadof_bytes {m : Mem} {head : List Byte} {off : Nat}
    (h : sheadof false m head off = true) {i : Nat} (hi : i < head.length) :
    m (off + i) = ofList head i := by
  induction head generalizing off i with
  | nil => cases hi
  | cons b head ih =>
    simp only [sheadof, Bool.false_and, Bool.or_false, Bool.and_eq_true, beq_iff_eq] at h
    cases i with
    | zero => exact h.1.symm
    | succ i =>
      have hi' := ih h.2 (Nat.lt_of_succ_lt_succ hi)
      rw [Nat.add_right_comm] at hi'
      exact hi'

/-- The first two letters of the methods, read as a channel number. -/
def httpChannels : List (BitVec 16) := [0x4745, 0x504F, 0x4445, 0x5055]

theorem httpHeadEnd_cases {m : Mem} {blen sp : Nat} (h : httpHeadEnd m blen = some sp) :
    12 ≤ blen ∧ httpMethods.any (fun method => sheadof false m method 0) = true ∧
      ∃ sp₀, findstr m 4 (blen - 4) (ascii " HTTP/") false = some sp₀ ∧ sp₀ + 10 ≤ blen ∧
        findstr m (sp₀ + 6) (blen - (sp₀ + 6)) (ascii "\r\n\r\n") false = some sp := by
  unfold httpHeadEnd at h
  split at h
  · rename_i hstart
    split at h
    · cases h
    · rename_i sp₀ hsp₀
      simp only at h
      split at h
      · exact ⟨hstart.1, hstart.2, sp₀, hsp₀, by omega, h⟩
      · cases h
  · cases h

theorem httpChannels_of_head {m : Mem} {blen sp : Nat} (h : httpHeadEnd m blen = some sp) :
    get16 m 0 ∈ httpChannels := by
  obtain ⟨_, hstart, _⟩ := httpHeadEnd_cases h
  obtain ⟨method, hmem, hhead⟩ := List.any_eq_true.mp hstart
  obtain ⟨htwo, hchannel⟩ := (by decide : ∀ method ∈ httpMethods,
    2 ≤ method.length ∧ get16 (ofList method) 0 ∈ httpChannels) method hmem
  have h0 := sheadof_bytes hhead (i := 0) (by omega)
  have h1 := sheadof_bytes hhead (i := 1) (by omega)
  rwa [get16_congr h0 h1]

theorem httpChannels_valid {chn : BitVec 16} (h : chn ∈ httpChannels) :
    stunValidChannel chn = true := by
  simp only [httpChannels, List.mem_cons, List.not_mem_nil, or_false] at h
  rcases h with rfl | rfl | rfl | rfl <;> rfl

theorem httpHeadEnd_extend {m m' : Mem} {blen blen' sp : Nat} (hlen : blen ≤ blen')
    (hagree : ∀ i, i < blen → m i = m' i) (h : httpHeadEnd m blen = some sp) :
    httpHeadEnd m' blen' = some sp := by
  obtain ⟨h12, hstart, sp₀, hhttp, hroom, hend⟩ := httpHeadEnd_cases h
  have hstart' : httpMethods.any (fun method => sheadof false m' method 0) = true := by
    obtain ⟨method, hmem, hhead⟩ := List.any_eq_true.mp hstart
    have hshort : method.length ≤ 12 :=
      (by decide : ∀ method ∈ httpMethods, method.length ≤ 12) method hmem
    refine List.any_eq_true.mpr ⟨method, hmem, ?_⟩
    rw [← hhead]
    exact (sheadof_agree fun i _ hi => hagree i (by omega)).symm
  unfold httpHeadEnd
  rw [if_pos ⟨by omega, hstart'⟩, findstr_extend (by decide) (by omega)
    (fun i hi => hagree i (by omega)) hhttp]
  simp only
  rw [if_pos (by omega)]
  exact findstr_extend (by decide) (by omega) (fun i hi => hagree i (by omega)) hend

theorem castInt_inj {n n' : Nat} (h : castInt n = castInt n') : n % 2 ^ 32 = n' % 2 ^ 32 := by
  have hbits : BitVec.ofNat 32 n = BitVec.ofNat 32 n' := BitVec.eq_of_toInt_eq h
  simpa only [BitVec.toNat_ofNat] using congrArg BitVec.toNat hbits

theorem contentLength_lt (ulongMax : Nat) (s : List Byte) (sp : Nat) :
    contentLength ulongMax s sp < 0x0FFFFFFF := by
  unfold contentLength
  split
  · decide
  · simp only
    split
    · rename_i hclen
      exact hclen.2
    · decide

theorem contentLength_of_short {ulongMax sp : Nat} {s : List Byte} (h : sp < clheader.length) :
    contentLength ulongMax s sp = 0 := by
  unfold contentLength findstr
  rw [if_neg (by omega)]

/-- The length of the body that is taken from the head of a request. -/
def bodyLength (ulongMax : Nat) (s : List Byte) (blen : Nat) : Nat :=
  match httpHeadEnd (ofList s) blen with
  | none => 0
  | some sp => contentLength ulongMax s sp

theorem httpFramed_eq_some_iff {ulongMax blen h : Nat} {s : List Byte} :
    httpFramed ulongMax s blen = some h ↔
      ∃ sp, httpHeadEnd (ofList s) blen = some sp ∧
        castInt (sp + 4 + bodyLength ulongMax s blen) = h ∧ 0 < h ∧ h ≤ blen := by
  unfold httpFramed isHttpInline bodyLength
  cases httpHeadEnd (ofList s) blen with
  | none => simp
  | some sp =>
    simp only [Option.some.injEq, exists_eq_left']
    split
    · simp only [Option.some.injEq]
      omega
    · simp only [reduceCtorEq, false_iff]
      omega

/-- The same request is found when more bytes follow, unless its length is read differently. -/
theorem httpFramed_extend_iff {ulongMax blen blen' h : Nat} {s s' : List Byte}
    (hlen : blen ≤ blen') (hagree : ∀ i, i < blen → ofList s i = ofList s' i)
    (hframed : httpFramed ulongMax s blen = some h) :
    httpFramed ulongMax s' blen' = some h ↔
      bodyLength ulongMax s' blen' = bodyLength ulongMax s blen := by
  obtain ⟨sp, hsp, hsum, hpos, hfits⟩ := httpFramed_eq_some_iff.mp hframed
  have hsp' := httpHeadEnd_extend hlen hagree hsp
  rw [httpFramed_eq_some_iff]
  constructor
  · rintro ⟨sp', hsp'', hsum', _⟩
    rw [hsp'] at hsp''
    cases hsp''
    have hmod := castInt_inj (hsum'.trans hsum.symm)
    have hb : bodyLength ulongMax s blen < 0x0FFFFFFF := by
      rw [bodyLength, hsp]
      exact contentLength_lt _ _ _
    have hb' : bodyLength ulongMax s' blen' < 0x0FFFFFFF := by
      rw [bodyLength, hsp']
      exact contentLength_lt _ _ _
    omega
  · intro hbody
    refine ⟨sp, hsp', ?_, hpos, by omega⟩
    rw [hbody]
    exact hsum

/-! ## A number across the end of the head -/

theorem afterSign_append {xs : List Byte} (h : xs ≠ []) (ys : List Byte) :
    afterSign (xs ++ ys) = ((afterSign xs).1, (afterSign xs).2 ++ ys) := by
  cases xs with
  | nil => exact absurd rfl h
  | cons b xs =>
    simp only [afterSign, List.cons_append]
    split
    · rfl
    · split <;> rfl

theorem takeWhile_isdigit_append_cr (xs ys : List Byte) :
    (xs ++ 0x0D :: ys).takeWhile isdigit = xs.takeWhile isdigit := by
  induction xs with
  | nil => rfl
  | cons b xs ih => simp only [List.cons_append, List.takeWhile_cons, ih]

/-- A number is not read across the end of its line unless the line is blank up to there. -/
theorem strtoul_line (ulongMax : Nat) {line : List Byte} (hline : ∃ b ∈ line, isspace b = false)
    (ys : List Byte) : strtoul ulongMax (line ++ 0x0D :: ys) = strtoul ulongMax line := by
  have hne : line.dropWhile isspace ≠ [] := by
    obtain ⟨b, hb, hspace⟩ := hline
    intro hnil
    have hall := List.dropWhile_eq_nil_iff.mp hnil b hb
    rw [hspace] at hall
    cases hall
  have hdrop : (line ++ 0x0D :: ys).dropWhile isspace = line.dropWhile isspace ++ 0x0D :: ys := by
    rw [List.dropWhile_append, if_neg (by simpa using hne)]
  unfold strtoul
  rw [hdrop, afterSign_append hne]
  simp only
  rw [takeWhile_isdigit_append_cr]

/-- The value of the content-length header is blank up to the end of the head. -/
def BlankLength (b : List Byte) : Prop :=
  ∃ sp cl, httpHeadEnd (ofList b) b.length = some sp ∧
    findstr (ofList b) 0 sp clheader true = some cl ∧
      ∀ x ∈ (b.take sp).drop (cl + clheader.length), isspace x = true

/-- Otherwise the number is read from the head alone. -/
theorem contentLength_append {ulongMax sp : Nat} {b : List Byte} (hblank : ¬ BlankLength b)
    (hsp : httpHeadEnd (ofList b) b.length = some sp) (x : List Byte) :
    contentLength ulongMax (b ++ x) sp = contentLength ulongMax (b.take sp) sp := by
  obtain ⟨_, _, sp₀, _, hroom, hend⟩ := httpHeadEnd_cases hsp
  obtain ⟨hlo, hfits, hcr, _⟩ := (findstr_eq_some_iff (by decide)).mp hend
  have hlen : (ascii "\r\n\r\n").length = 4 := rfl
  have hcrlf : b.drop sp = 0x0D :: b.drop (sp + 1) := by
    have hbyte : ofList b sp = 0x0D := sheadof_bytes hcr (i := 0) (by decide)
    rw [List.drop_eq_getElem_cons (by omega : sp < b.length)]
    congr 1
    rw [ofList, List.getD_eq_getElem?_getD, List.getElem?_eq_getElem (by omega)] at hbyte
    exact hbyte
  have hfind : findstr (ofList (b ++ x)) 0 sp clheader true = findstr (ofList b) 0 sp clheader true :=
    findstr_agree (by decide) fun i hi => ofList_append_left x (by omega)
  have hhead : findstr (ofList (b.take sp)) 0 sp clheader true =
      findstr (ofList b) 0 sp clheader true :=
    findstr_agree (by decide) fun i hi => by
      simp [ofList, List.getElem?_take_of_lt (by omega : i < sp)]
  unfold contentLength
  rw [hfind, hhead]
  cases hcl : findstr (ofList b) 0 sp clheader true with
  | none => rfl
  | some cl =>
    obtain ⟨_, hclfits, _⟩ := (findstr_eq_some_iff (by decide)).mp hcl
    have hline : ∃ y ∈ (b.take sp).drop (cl + clheader.length), isspace y = false := by
      by_contra hall
      refine hblank ⟨sp, cl, hsp, hcl, fun y hy => ?_⟩
      by_contra hspace
      exact hall ⟨y, hy, by simpa using hspace⟩
    have hwhole : b ++ x = b.take sp ++ 0x0D :: (b.drop (sp + 1) ++ x) := by
      rw [← List.cons_append, ← hcrlf, ← List.append_assoc, List.take_append_drop]
    have hdrop : (b ++ x).drop (cl + clheader.length) =
        (b.take sp).drop (cl + clheader.length) ++ 0x0D :: (b.drop (sp + 1) ++ x) := by
      rw [hwhole, List.drop_append_of_le_length (by rw [List.length_take]; omega)]
    simp only
    rw [hdrop, strtoul_line ulongMax hline]

/-- A request is found again when more bytes follow, unless its length is blank. -/
theorem httpFramed_append {ulongMax h : Nat} {b d : List Byte} (hblank : ¬ BlankLength b)
    (hframed : httpFramed ulongMax (b ++ d) b.length = some h) (c e : List Byte) :
    httpFramed ulongMax (b ++ c ++ e) (b ++ c).length = some h := by
  have hlen : b.length ≤ (b ++ c).length := by simp
  have hagree : ∀ x i, i < b.length → ofList (b ++ x) i = ofList b i :=
    fun x i hi => ofList_append_left x hi
  obtain ⟨sp, hsp, _⟩ := httpFramed_eq_some_iff.mp hframed
  have hb := httpHeadEnd_extend (Nat.le_refl _) (hagree d) hsp
  have hlong := httpHeadEnd_extend hlen (fun i hi => (hagree (c ++ e) i hi).symm) hb
  rw [List.append_assoc]
  refine (httpFramed_extend_iff hlen ?_ hframed).mpr ?_
  · exact fun i hi => (hagree d i hi).trans (hagree (c ++ e) i hi).symm
  · rw [bodyLength, bodyLength, hsp, hlong]
    exact (contentLength_append hblank hb (c ++ e)).trans (contentLength_append hblank hb d).symm

/-! ## The answer -/

/-- The answer where a channel number stands: the request that has arrived, else ChannelData. -/
def channelAnswer (http : Option Nat) (sizes : Nat × Nat) (blen : Nat) : Int × Nat :=
  match http with
  | some h => (h, h)
  | none => if sizes.1 ≤ blen then (sizes.1, sizes.2) else (-1, sizes.2)

theorem channelAnswer_none_eq_iff {sizes : Nat × Nat} {blen a : Nat} {r : Int} (hr : 0 < r) :
    channelAnswer none sizes blen = (r, a) ↔ sizes.1 ≤ blen ∧ (sizes.1 : Int) = r ∧ sizes.2 = a := by
  unfold channelAnswer
  simp only
  split
  · simp [*]
  · simp only [Prod.mk.injEq]
    omega

theorem messageLen_of_channel {ulongMax blen appLen : Nat} {buf : List Byte} {padding : Bool}
    (hlen : 4 ≤ blen) (hvalid : stunValidChannel (get16 (ofList buf) 0) = true) :
    stunGetMessageLenStr ulongMax buf blen padding appLen =
      channelAnswer (httpFramed ulongMax buf blen) (channelSizes padding (ofList buf)) blen := by
  have hcommand : startsWithCommand (ofList buf) blen = false := by
    simp [startsWithCommand, hvalid]
  unfold stunGetMessageLenStr httpFramed channelSizes channelAnswer
  simp only [hcommand, hvalid]
  rw [if_neg (by omega), if_neg (by simp)]
  split
  · rename_i hhttp
    simp only [Prod.mk.injEq, and_true]
    omega
  · rw [if_pos ⟨hlen, trivial⟩]

/-- Nothing but a STUN message is found where no channel number stands. -/
theorem channel_of_messageLen {ulongMax blen appLen a : Nat} {buf : List Byte} {padding : Bool}
    {r : Int} (hcommand : startsWithCommand (ofList buf) blen = false) (hr : 0 < r)
    (h : stunGetMessageLenStr ulongMax buf blen padding appLen = (r, a)) :
    4 ≤ blen ∧ stunValidChannel (get16 (ofList buf) 0) = true := by
  unfold stunGetMessageLenStr at h
  simp only [hcommand] at h
  split at h
  · cases h
    omega
  · rw [if_neg (by simp)] at h
    split at h
    · rename_i hhttp
      have hhead : ∃ sp, httpHeadEnd (ofList buf) blen = some sp := by
        cases hsp : httpHeadEnd (ofList buf) blen with
        | none =>
          rw [isHttpInline, hsp] at hhttp
          exact absurd hhttp.1 (by simp)
        | some sp => exact ⟨sp, rfl⟩
      obtain ⟨sp, hsp⟩ := hhead
      obtain ⟨h12, _⟩ := httpHeadEnd_cases hsp
      exact ⟨by omega, httpChannels_valid (httpChannels_of_head hsp)⟩
    · split at h
      · rename_i hchannel
        exact hchannel
      · cases h
        omega

theorem startsWithCommand_extend {m m' : Mem} {blen blen' : Nat} (hlen : blen ≤ blen')
    (hagree : ∀ i, i < blen → m i = m' i) (h : startsWithCommand m blen = true) :
    startsWithCommand m' blen' = true ∧ get16 m' 2 = get16 m 2 := by
  unfold startsWithCommand at h ⊢
  simp only [Bool.and_eq_true, decide_eq_true_eq] at h ⊢
  obtain ⟨⟨⟨⟨⟨h20, hchannel⟩, hbits⟩, hcookie⟩, hmod⟩, hfits⟩ := h
  unfold stunHeaderLength at h20 ⊢
  have h16 : ∀ off, off + 2 ≤ 20 → get16 m' off = get16 m off := fun off hoff =>
    get16_congr (hagree _ (by omega)).symm (hagree _ (by omega)).symm
  have h32 : get32 m' 4 = get32 m 4 := by
    rw [get32, get32, h16 4 (by omega), h16 (4 + 2) (by omega)]
  rw [h16 0 (by omega), h16 2 (by omega), h32, ← hagree 0 (by omega)]
  exact ⟨⟨⟨⟨⟨⟨by omega, hchannel⟩, hbits⟩, hcookie⟩, hmod⟩, by omega⟩, rfl⟩

theorem messageLen_of_command {ulongMax blen appLen : Nat} {buf : List Byte} {padding : Bool}
    (hcommand : startsWithCommand (ofList buf) blen = true) :
    stunGetMessageLenStr ulongMax buf blen padding appLen =
      (((get16 (ofList buf) 2 + 20).toNat : Int), (get16 (ofList buf) 2 + 20).toNat) := by
  have hblen : blen ≠ 0 := by
    rintro rfl
    simp [startsWithCommand, stunHeaderLength] at hcommand
  unfold stunGetMessageLenStr
  simp only [hcommand, if_neg hblen, if_true]

/-! ## More bytes behind the first ones -/

/-- When the bytes of `c` arrive behind those of `b`, a request in `b` has the same length read
from its head, and ChannelData in `b` does not become a request; or a request and ChannelData
of one size stand there. Behind the bytes that arrived lie `d` and `e`. -/
def FramingKept (ulongMax : Nat) (padding : Bool) (b c d e : List Byte) : Prop :=
  startsWithCommand (ofList (b ++ d)) b.length = true ∨
  match httpFramed ulongMax (b ++ d) b.length with
  | some h =>
    bodyLength ulongMax (b ++ c ++ e) (b ++ c).length = bodyLength ulongMax (b ++ d) b.length ∨
      (httpFramed ulongMax (b ++ c ++ e) (b ++ c).length = none ∧
        channelSizes padding (ofList (b ++ d)) = (h, h))
  | none =>
    ∀ h, httpFramed ulongMax (b ++ c ++ e) (b ++ c).length = some h →
      channelSizes padding (ofList (b ++ d)) = (h, h)

/-- The request found is found again, or none is found and the sizes agree; or there was none, and
one that is found now has the size of the ChannelData. -/
def AnswerKept (sizes : Nat × Nat) (http http' : Option Nat) : Prop :=
  match http with
  | some h => http' = some h ∨ (http' = none ∧ sizes = (h, h))
  | none => ∀ h, http' = some h → sizes = (h, h)

theorem channelAnswer_kept_iff {http http' : Option Nat} {sizes : Nat × Nat} {blen blen' a : Nat}
    {r : Int} (hr : 0 < r) (hlen : blen ≤ blen') (hfits : ∀ h, http = some h → h ≤ blen)
    (hb : channelAnswer http sizes blen = (r, a)) :
    channelAnswer http' sizes blen' = (r, a) ↔ AnswerKept sizes http http' := by
  unfold AnswerKept
  cases http with
  | some h =>
    have hh := hfits h rfl
    cases hb
    cases http' with
    | some h' => simp [channelAnswer]
    | none =>
      simp only [reduceCtorEq, true_and, false_or]
      rw [channelAnswer_none_eq_iff hr, Prod.ext_iff]
      simp only
      omega
  | none =>
    rw [channelAnswer_none_eq_iff hr] at hb
    obtain ⟨hsize, rfl, rfl⟩ := hb
    cases http' with
    | some h =>
      simp only [channelAnswer, Option.some.injEq, forall_eq', Prod.ext_iff]
      omega
    | none =>
      rw [channelAnswer_none_eq_iff hr]
      simp only [reduceCtorEq, false_implies, implies_true, iff_true, and_true]
      omega

theorem framing_kept_iff (ulongMax : Nat) (padding : Bool) (b c d e : List Byte)
    (appLen appLen' : Nat) {r : Int} {a : Nat} (hr : 0 < r)
    (hb : stunGetMessageLenStr ulongMax (b ++ d) b.length padding appLen = (r, a)) :
    stunGetMessageLenStr ulongMax (b ++ c ++ e) (b ++ c).length padding appLen' = (r, a) ↔
      FramingKept ulongMax padding b c d e := by
  have hlen : b.length ≤ (b ++ c).length := by simp
  have hagree : ∀ i, i < b.length → ofList (b ++ d) i = ofList (b ++ c ++ e) i := by
    intro i hi
    rw [List.append_assoc, ofList_append_left d hi, ofList_append_left (c ++ e) hi]
  cases hcommand : startsWithCommand (ofList (b ++ d)) b.length with
  | true =>
    obtain ⟨hcommand', hlenField⟩ := startsWithCommand_extend hlen hagree hcommand
    rw [messageLen_of_command hcommand] at hb
    rw [messageLen_of_command hcommand', hlenField, hb]
    exact ⟨fun _ => Or.inl hcommand, fun _ => rfl⟩
  | false =>
    obtain ⟨h4, hvalid⟩ := channel_of_messageLen hcommand hr hb
    have h16 : ∀ off, off + 2 ≤ 4 → get16 (ofList (b ++ c ++ e)) off = get16 (ofList (b ++ d)) off :=
      fun off hoff => get16_congr (hagree _ (by omega)).symm (hagree _ (by omega)).symm
    have hsizes : channelSizes padding (ofList (b ++ c ++ e)) =
        channelSizes padding (ofList (b ++ d)) := by
      unfold channelSizes
      rw [h16 2 (by omega)]
    rw [messageLen_of_channel h4 hvalid] at hb
    rw [messageLen_of_channel (by omega) (by rw [h16 0 (by omega)]; exact hvalid), hsizes]
    have hfits : ∀ h, httpFramed ulongMax (b ++ d) b.length = some h → h ≤ b.length := by
      intro h hh
      obtain ⟨_, _, _, _, hle⟩ := httpFramed_eq_some_iff.mp hh
      exact hle
    rw [channelAnswer_kept_iff hr hlen hfits hb]
    unfold FramingKept AnswerKept
    rw [hcommand]
    simp only [Bool.false_eq_true, false_or]
    cases hhttp : httpFramed ulongMax (b ++ d) b.length with
    | some h => simp only [httpFramed_extend_iff hlen hagree hhttp]
    | none => exact Iff.rfl

/-- A request with a body of two bytes, and part of the next request behind it. -/
theorem put_request_kept :
    let b := ascii "PUT /a HTTP/1.1\r\nContent-Length: 2\r\n\r\nok"
    let c := ascii "GET /b HTTP"
    stunGetMessageLenStr (2 ^ 64 - 1) (b ++ [0]) b.length true b.length = (40, 40) ∧
      stunGetMessageLenStr (2 ^ 64 - 1) (b ++ c ++ [0]) (b ++ c).length true (b ++ c).length =
        (40, 40) := by
  intro b c
  have hb : stunGetMessageLenStr (2 ^ 64 - 1) (b ++ [0]) b.length true b.length = (40, 40) := by
    decide +kernel
  have hhttp : httpFramed (2 ^ 64 - 1) (b ++ [0]) b.length = some 40 := by decide +kernel
  refine ⟨hb, (framing_kept_iff _ true b c [0] [0] _ _ (by decide) hb).mpr ?_⟩
  unfold FramingKept
  rw [hhttp]
  exact Or.inr (Or.inl (by decide +kernel))

theorem blank_length_not_kept :
    let b := ascii "PUT /a HTTP/1.1\r\nContent-Length: \r\n\r\n"
    let c := ascii "5 bytes"
    stunGetMessageLenStr (2 ^ 64 - 1) (b ++ [0]) b.length true b.length = (37, 37) ∧
      stunGetMessageLenStr (2 ^ 64 - 1) (b ++ c ++ [0]) (b ++ c).length true (b ++ c).length =
        (42, 42) := by
  decide +kernel

end TurnClient
