import TurnClient.IoaAddr
import TurnClient.MessageFraming

/-!
# Addresses written out and read back

`addr_to_string` puts brackets around an IPv6 address only where a port follows.
`make_ioa_addr_from_full_string` takes what stands before the first colon for the
address, unless there is a bracket.
-/

namespace TurnClient

open ByteMemory
set_option autoImplicit false

def maxIoaAddrString : Nat := 65

/-- The characters of a text as a C string. -/
def charBytes (text : List Char) : List Byte := text.map fun c => BitVec.ofNat 8 c.toNat

/-- The text `inet_ntop` writes into `addrtmp`. -/
def addrtmp (addr : IoaAddr) : List Byte := charBytes (addrText addr)

/-- The string, or `none` for -1. -/
def addrToString (addr : IoaAddr) : Option (List Byte) :=
  let port := addrGetPort addr
  let digits := charBytes (Nat.toDigits 10 port)
  match addr.family with
  | .inet =>
    if 0 < port then some ((addrtmp addr ++ [0x3A] ++ digits).take (maxIoaAddrString - 1))
    else some ((addrtmp addr).take maxIoaAddrString)
  | .inet6 =>
    if 0 < port then
      some (([0x5B] ++ addrtmp addr ++ [0x5D, 0x3A] ++ digits).take (maxIoaAddrString - 1))
    else some ((addrtmp addr).take maxIoaAddrString)
  | _ => none

/-- `atoi`, for a number that fits into an int. -/
def atoi (str : List Byte) : Int :=
  let (negative, digits) := afterSign (str.dropWhile isspace)
  let value : Nat := (digits.takeWhile isdigit).foldl (fun v b => 10 * v + (b.toNat - 0x30)) 0
  if negative then -(value : Int) else value

/-- `strstr` for one character: what stands before it and behind it. -/
def cutAt (c : Byte) (s : List Byte) : Option (List Byte × List Byte) :=
  if c ∈ s then some (s.takeWhile (· ≠ c), (s.dropWhile (· ≠ c)).tail) else none

def getAddrStringAndPort (s0 : List Byte) : Option (List Byte × Int) :=
  let s := s0.dropWhile (· == 0x20)
  if s.head? = some 0x5B then
    match cutAt 0x5D s.tail with
    | none => none
    | some (sa, tail) =>
      let tail := tail.dropWhile (· == 0x20)
      if tail.head? = some 0x3A then some (sa, atoi tail.tail)
      else if tail = [] then some (sa, 0)
      else none
  else
    match cutAt 0x3A s with
    | some (sa, tail) => some (sa, atoi tail)
    | none => some (s, 0)

/-- `addr` is what the caller's address holds before. -/
def makeIoaAddrFromFullString (env : Resolver) (saddr : List Byte) (defaultPort : Int)
    (addr : IoaAddr) : Int × IoaAddr :=
  match getAddrStringAndPort saddr with
  | none => (-1, addr)
  | some (sa, port) =>
    let port := if port < 1 then defaultPort else port
    makeIoaAddr env sa port

/-! ## The characters -/

theorem cutAt_append {c : Byte} {s : List Byte} (h : c ∉ s) (tail : List Byte) :
    cutAt c (s ++ c :: tail) = some (s, tail) := by
  have hall : ∀ b ∈ s, (decide (b ≠ c)) = true := by
    intro b hb
    rw [decide_eq_true_eq]
    rintro rfl
    exact h hb
  unfold cutAt
  rw [if_pos (by simp), List.takeWhile_append_of_pos hall, List.dropWhile_append_of_pos hall,
    List.takeWhile_cons_of_neg (by simp), List.dropWhile_cons_of_neg (by simp), List.append_nil]
  rfl

theorem cutAt_none {c : Byte} {s : List Byte} (h : c ∉ s) : cutAt c s = none := if_neg h

/-- The bytes of an address have none of the characters around it. -/
structure Plain (s : List Byte) : Prop where
  space : 0x20 ∉ s
  opening : 0x5B ∉ s
  closing : 0x5D ∉ s

theorem not_mem_charBytes {text : List Char} {b : Byte}
    (h : ∀ c ∈ text, BitVec.ofNat 8 c.toNat ≠ b) : b ∉ charBytes text := by
  intro hmem
  obtain ⟨c, hc, heq⟩ := List.mem_map.mp hmem
  exact h c hc heq

theorem plain_of_chars {text : List Char} (h : ∀ c ∈ text, c ∈ InetText.addrChars) :
    Plain (charBytes text) := by
  have hbytes : ∀ c ∈ InetText.addrChars, BitVec.ofNat 8 c.toNat ≠ (0x20 : Byte) ∧
      BitVec.ofNat 8 c.toNat ≠ (0x5B : Byte) ∧ BitVec.ofNat 8 c.toNat ≠ (0x5D : Byte) :=
    List.all_iff_forall_prop.mp (by decide)
  constructor
  · exact not_mem_charBytes fun c hc => (hbytes c (h c hc)).1
  · exact not_mem_charBytes fun c hc => (hbytes c (h c hc)).2.1
  · exact not_mem_charBytes fun c hc => (hbytes c (h c hc)).2.2

theorem colon_mem_charBytes {text : List Char} (h : ∀ c ∈ text, c ∈ InetText.addrChars) :
    0x3A ∈ charBytes text ↔ ':' ∈ text := by
  have hcolon : ∀ c ∈ InetText.addrChars, BitVec.ofNat 8 c.toNat = (0x3A : Byte) → c = ':' :=
    List.all_iff_forall_prop.mp (by decide)
  constructor
  · intro hmem
    obtain ⟨c, hc, heq⟩ := List.mem_map.mp hmem
    rw [← hcolon c (h c hc) heq]
    exact hc
  · intro hmem
    exact List.mem_map.mpr ⟨':', hmem, rfl⟩

theorem addrText_chars (a : IoaAddr) : ∀ c ∈ addrText a, c ∈ InetText.addrChars := by
  unfold addrText
  split
  · exact InetText.inetNtop4_chars _
  · exact InetText.inetNtop6_chars _
  · simp

theorem addrtmp_plain (a : IoaAddr) : Plain (addrtmp a) := plain_of_chars (addrText_chars a)

theorem addrtmp_length_le (a : IoaAddr) : (addrtmp a).length ≤ 52 := by
  have h4 := InetText.inetNtop4_length_le a.word
  have h6 := InetText.inetNtop6_length_le a.in6.bytes
  unfold addrtmp charBytes
  rw [List.length_map]
  unfold addrText
  split
  · omega
  · exact h6
  · exact Nat.zero_le _

theorem colon_not_mem_addrtmp {a : IoaAddr} (h : a.family = .inet) : 0x3A ∉ addrtmp a := by
  rw [addrtmp, colon_mem_charBytes (addrText_chars a), addrText, h]
  exact InetText.colon_not_mem_inetNtop4 _

theorem colon_mem_addrtmp {a : IoaAddr} (h : a.family = .inet6) : 0x3A ∈ addrtmp a := by
  rw [addrtmp, colon_mem_charBytes (addrText_chars a), addrText, h]
  exact InetText.colon_mem_inetNtop6 _

theorem addrtmp_ne_nil {a : IoaAddr} (h : a.family = .inet ∨ a.family = .inet6) :
    addrtmp a ≠ [] := by
  rcases h with h | h
  · have hdot : '.' ∈ InetText.inetNtop4 a.word := by
      simp [InetText.inetNtop4, InetText.dotted]
    have hmem : '.' ∈ addrText a := by
      rw [addrText, h]
      exact hdot
    exact List.ne_nil_of_mem (List.mem_map.mpr ⟨'.', hmem, rfl⟩)
  · exact List.ne_nil_of_mem (colon_mem_addrtmp h)

/-! ## The port -/

theorem digit_toNat {c : Char} (h : c.isDigit = true) :
    (BitVec.ofNat 8 c.toNat).toNat = c.toNat ∧ 48 ≤ c.toNat ∧ c.toNat ≤ 57 := by
  have hrange : 48 ≤ c.toNat ∧ c.toNat ≤ 57 := by
    unfold Char.isDigit at h
    simp only [Bool.and_eq_true, decide_eq_true_eq, ge_iff_le] at h
    exact ⟨UInt32.le_iff_toNat_le.mp h.1, UInt32.le_iff_toNat_le.mp h.2⟩
  refine ⟨?_, hrange⟩
  rw [BitVec.toNat_ofNat]
  exact Nat.mod_eq_of_lt (by omega)

theorem isdigit_of_digit {c : Char} (h : c.isDigit = true) :
    isdigit (BitVec.ofNat 8 c.toNat) = true := by
  obtain ⟨hnat, hlo, hhi⟩ := digit_toNat h
  unfold isdigit
  rw [decide_eq_true_eq, BitVec.le_def, BitVec.le_def, hnat]
  exact ⟨hlo, hhi⟩

theorem foldl_charBytes {text : List Char} (h : ∀ c ∈ text, c.isDigit = true) (init : Nat) :
    (charBytes text).foldl (fun v b => 10 * v + (b.toNat - 0x30)) init =
      Nat.ofDigitChars 10 text init := by
  induction text generalizing init with
  | nil => rfl
  | cons c cs ih =>
    have hnat := (digit_toNat (h c List.mem_cons_self)).1
    rw [Nat.ofDigitChars_cons, ← ih fun d hd => h d (List.mem_cons_of_mem c hd)]
    simp only [charBytes, List.map_cons, List.foldl_cons, hnat]
    rfl

theorem atoi_of_digits {s : List Byte} (h : ∀ b ∈ s, isdigit b = true) :
    atoi s = (s.foldl (fun v b => 10 * v + (b.toNat - 0x30)) 0 : Nat) := by
  have hfirst : ∀ b : Byte, isdigit b = true → isspace b = false ∧ b ≠ 0x2D ∧ b ≠ 0x2B := by
    decide +kernel
  have hwhile : s.takeWhile isdigit = s := List.takeWhile_eq_self_iff.mpr h
  have hstart : afterSign (s.dropWhile isspace) = (false, s) := by
    cases s with
    | nil => rfl
    | cons b rest =>
      obtain ⟨hspace, hminus, hplus⟩ := hfirst b (h b List.mem_cons_self)
      rw [List.dropWhile_cons_of_neg (by simp [hspace]), afterSign, if_neg hminus, if_neg hplus]
  unfold atoi
  rw [hstart]
  simp only [hwhile]
  rfl

theorem atoi_toDigits (n : Nat) : atoi (charBytes (Nat.toDigits 10 n)) = n := by
  have hdigit : ∀ c ∈ Nat.toDigits 10 n, c.isDigit = true := fun c hc =>
    Nat.isDigit_of_mem_toDigits (by decide) (by decide) hc
  rw [atoi_of_digits, foldl_charBytes hdigit, Nat.ofDigitChars_ten_toDigits]
  intro b hb
  obtain ⟨c, hc, rfl⟩ := List.mem_map.mp hb
  exact isdigit_of_digit (hdigit c hc)

theorem port_length_le {port : Nat} (h : port < 65536) :
    (charBytes (Nat.toDigits 10 port)).length ≤ 5 := by
  unfold charBytes
  rw [List.length_map, Nat.length_toDigits_le_iff (by decide) (by decide)]
  omega

/-! ## Reading back -/

/-- `inet_pton` reads what was written for this address, and each notation is read in its own
family only. -/
structure PtonInverts (inetPton4 : List Byte → Option (BitVec 32))
    (inetPton6 : List Byte → Option In6Addr) (a : IoaAddr) : Prop where
  inet : a.family = .inet → inetPton4 (addrtmp a) = some a.word
  inet6 : a.family = .inet6 → inetPton6 (addrtmp a) = some a.in6
  four : ∀ s, 0x3A ∈ s → inetPton4 s = none
  six : ∀ s, 0x3A ∉ s → inetPton6 s = none

/-- The text is read back with 0 and as the same address. -/
def FullStringRoundTrips (env : Resolver) (a old : IoaAddr) : Prop :=
  ∃ text, addrToString a = some text ∧
    (makeIoaAddrFromFullString env text 0 old).1 = 0 ∧
    addrEq (makeIoaAddrFromFullString env text 0 old).2 a = true

theorem trimmedAddr_plain {s : List Byte} (h : 0x20 ∉ s) (hlen : s.length ≤ 256) :
    trimmedAddr s = s := by
  have hdrop : ∀ l : List Byte, 0x20 ∉ l → l.dropWhile (· == 0x20) = l := by
    intro l hl
    cases l with
    | nil => rfl
    | cons b bs =>
      apply List.dropWhile_cons_of_neg
      rw [beq_iff_eq]
      rintro rfl
      exact hl List.mem_cons_self
  unfold trimmedAddr
  rw [List.take_of_length_le hlen, hdrop s h, hdrop _ (by simpa using h), List.reverse_reverse]

/-- The address is read from its own text alone. -/
theorem makeIoaAddr_addrtmp {env : Resolver} {a : IoaAddr}
    (hpton : PtonInverts env.inetPton4 env.inetPton6 a)
    (hfam : a.family = .inet ∨ a.family = .inet6) (port : Int) :
    (makeIoaAddr env (addrtmp a) port).1 = 0 ∧
      addrEq (makeIoaAddr env (addrtmp a) port).2 { a with port := BitVec.ofInt 16 port } = true := by
  have htrim : trimmedAddr (addrtmp a) = addrtmp a :=
    trimmedAddr_plain (addrtmp_plain a).space (Nat.le_trans (addrtmp_length_le a) (by decide))
  have hne : (addrtmp a).isEmpty = false := by
    simpa using addrtmp_ne_nil hfam
  unfold makeIoaAddr
  simp only [htrim, hne, Bool.false_eq_true, if_false]
  rcases hfam with h | h
  · rw [hpton.inet h]
    simp [addrEq, h]
  · rw [hpton.four _ (colon_mem_addrtmp h), hpton.inet6 h]
    simp [addrEq, h]

/-- A string that starts with an address: neither space nor bracket is met first. -/
theorem getAddrStringAndPort_unbracketed {s : List Byte} (hne : s ≠ []) (hplain : Plain s)
    (tail : List Byte) :
    getAddrStringAndPort (s ++ tail) =
      match cutAt 0x3A (s ++ tail) with
      | some (sa, tail) => some (sa, atoi tail)
      | none => some (s ++ tail, 0) := by
  obtain ⟨b, bs, rfl⟩ := List.exists_cons_of_ne_nil hne
  have hspace : b ≠ 0x20 := by
    rintro rfl
    exact hplain.space List.mem_cons_self
  have hopening : b ≠ 0x5B := by
    rintro rfl
    exact hplain.opening List.mem_cons_self
  unfold getAddrStringAndPort
  rw [List.cons_append, List.dropWhile_cons_of_neg (by simpa using hspace)]
  simp only [List.head?_cons, Option.some.injEq, hopening, if_false]

theorem getAddrStringAndPort_bracketed {s : List Byte} (hplain : Plain s) (digits : List Byte) :
    getAddrStringAndPort ([0x5B] ++ s ++ [0x5D, 0x3A] ++ digits) = some (s, atoi digits) := by
  have hcut := cutAt_append hplain.closing (0x3A :: digits)
  unfold getAddrStringAndPort
  simp only [List.cons_append, List.append_assoc, List.nil_append]
  rw [List.dropWhile_cons_of_neg (by decide)]
  simp only [List.head?_cons, List.tail_cons, if_true, hcut]
  rw [List.dropWhile_cons_of_neg (by decide)]
  simp only [List.head?_cons, List.tail_cons, if_true]

/-- What is read from the text, where no IPv6 address stands without its port. -/
theorem getAddrStringAndPort_addrToString {a : IoaAddr}
    (hfam : a.family = .inet ∨ a.family = .inet6 ∧ a.port ≠ 0) :
    ∃ text, addrToString a = some text ∧
      getAddrStringAndPort text = some (addrtmp a, (addrGetPort a : Int)) := by
  have hlen := addrtmp_length_le a
  have hplain := addrtmp_plain a
  have hport : addrGetPort a = a.port.toNat := by
    rcases hfam with h | ⟨h, _⟩ <;> simp [addrGetPort, h]
  have hdigits := port_length_le (hport ▸ a.port.isLt : addrGetPort a < 65536)
  rcases hfam with h | ⟨h, hne⟩
  · have hne := addrtmp_ne_nil (.inl h)
    have hcolon := colon_not_mem_addrtmp h
    simp only [addrToString, h]
    by_cases hpos : 0 < addrGetPort a
    · refine ⟨_, if_pos hpos, ?_⟩
      rw [List.take_of_length_le (by
        simp only [List.length_append, List.length_cons, List.length_nil, maxIoaAddrString]
        omega), List.append_assoc, getAddrStringAndPort_unbracketed hne hplain,
        List.singleton_append, cutAt_append hcolon]
      exact congrArg (fun port => some (addrtmp a, port)) (atoi_toDigits _)
    · have hzero : addrGetPort a = 0 := by omega
      have hread := getAddrStringAndPort_unbracketed hne hplain []
      refine ⟨_, if_neg hpos, ?_⟩
      rw [List.append_nil, cutAt_none hcolon] at hread
      rw [List.take_of_length_le (by unfold maxIoaAddrString; omega), hread, hzero]
      rfl
  · have hpos : 0 < addrGetPort a := by
      rw [hport]
      apply Nat.pos_of_ne_zero
      intro hzero
      exact hne (BitVec.eq_of_toNat_eq hzero)
    simp only [addrToString, h]
    refine ⟨_, if_pos hpos, ?_⟩
    rw [List.take_of_length_le (by
      simp only [List.length_append, List.length_cons, List.length_nil, maxIoaAddrString]
      omega), getAddrStringAndPort_bracketed hplain, atoi_toDigits]

theorem fullStringRoundTrips_of {env : Resolver} {a : IoaAddr}
    (hpton : PtonInverts env.inetPton4 env.inetPton6 a)
    (hfam : a.family = .inet ∨ a.family = .inet6 ∧ a.port ≠ 0) (old : IoaAddr) :
    FullStringRoundTrips env a old := by
  obtain ⟨text, htext, hread⟩ := getAddrStringAndPort_addrToString hfam
  have hknown : a.family = .inet ∨ a.family = .inet6 := hfam.imp_right And.left
  have hport : addrGetPort a = a.port.toNat := by
    rcases hknown with h | h <;> simp [addrGetPort, h]
  have hdefault : (if (addrGetPort a : Int) < 1 then 0 else (addrGetPort a : Int)) = a.port.toNat := by
    split <;> omega
  have hsame : { a with port := BitVec.ofInt 16 (a.port.toNat : Int) } = a := by
    rw [BitVec.ofInt_natCast, BitVec.ofNat_toNat, BitVec.setWidth_eq]
  have hmade := makeIoaAddr_addrtmp hpton hknown a.port.toNat
  rw [hsame] at hmade
  refine ⟨text, htext, ?_⟩
  unfold makeIoaAddrFromFullString
  simp only [hread, hdefault]
  exact hmade

/-! ## Where the colon is taken for the one before the port -/

theorem mem_of_mem_trimmedAddr {s : List Byte} {b : Byte} (h : b ∈ trimmedAddr s) : b ∈ s := by
  unfold trimmedAddr at h
  have hback := (List.dropWhile_sublist _).subset (List.mem_reverse.mp h)
  have hfront := (List.dropWhile_sublist _).subset (List.mem_reverse.mp hback)
  exact List.mem_of_mem_take hfront

/-- Without a colon, and with nothing known under that name, no IPv6 address is read. -/
theorem makeIoaAddr_no_colon {inetPton4 : List Byte → Option (BitVec 32)}
    {inetPton6 : List Byte → Option In6Addr} {sa : List Byte} (hsa : 0x3A ∉ sa)
    (hsix : ∀ s, 0x3A ∉ s → inetPton6 s = none) (port : Int)
    (h : (makeIoaAddr ⟨inetPton4, inetPton6, fun _ => none⟩ sa port).1 = 0) :
    (makeIoaAddr ⟨inetPton4, inetPton6, fun _ => none⟩ sa port).2.family = .inet := by
  have hnone : inetPton6 (trimmedAddr sa) = none :=
    hsix _ fun hmem => hsa (mem_of_mem_trimmedAddr hmem)
  unfold makeIoaAddr at h ⊢
  simp only [hnone] at h ⊢
  split at h
  · rfl
  · cases h

theorem full_string_round_trip_iff {inetPton4 : List Byte → Option (BitVec 32)}
    {inetPton6 : List Byte → Option In6Addr} {a : IoaAddr}
    (hpton : PtonInverts inetPton4 inetPton6 a) (hfam : a.family = .inet ∨ a.family = .inet6) :
    (∀ getaddrinfo old, FullStringRoundTrips ⟨inetPton4, inetPton6, getaddrinfo⟩ a old) ↔
      ¬ (a.family = .inet6 ∧ a.port = 0) := by
  constructor
  · rintro hall ⟨h6, hport⟩
    obtain ⟨text, htext, hret, heq⟩ := hall (fun _ => none) IoaAddr.any
    have hlen := addrtmp_length_le a
    have hcolon := colon_mem_addrtmp h6
    -- the text is the bare address, and it is cut at its first colon
    have hbare : text = addrtmp a ++ [] := by
      simp only [addrToString, h6, addrGetPort, hport] at htext
      rw [List.append_nil, ← Option.some.inj htext]
      exact List.take_of_length_le (by unfold maxIoaAddrString; omega)
    have hread := getAddrStringAndPort_unbracketed (addrtmp_ne_nil hfam) (addrtmp_plain a) []
    rw [← hbare, cutAt, if_pos (by rw [hbare, List.append_nil]; exact hcolon)] at hread
    have hcut : 0x3A ∉ text.takeWhile (· ≠ 0x3A) := by
      intro hmem
      have hne := List.mem_takeWhile_imp hmem
      simp at hne
    simp only [makeIoaAddrFromFullString, hread] at hret heq
    have hinet := makeIoaAddr_no_colon hcut hpton.six _ hret
    unfold addrEq at heq
    rw [hinet, h6, if_neg (by decide)] at heq
    cases heq
  · intro hnot getaddrinfo old
    apply fullStringRoundTrips_of hpton
    rcases hfam with h4 | h6
    · exact .inl h4
    · exact .inr ⟨h6, fun hport => hnot ⟨h6, hport⟩⟩

/-- A library that knows one text. -/
def pton4Of (a : IoaAddr) (s : List Byte) : Option (BitVec 32) :=
  if a.family = .inet ∧ s = addrtmp a then some a.word else none

def pton6Of (a : IoaAddr) (s : List Byte) : Option In6Addr :=
  if a.family = .inet6 ∧ s = addrtmp a then some a.in6 else none

theorem ptonOf_inverts (a : IoaAddr) : PtonInverts (pton4Of a) (pton6Of a) a where
  inet h := if_pos ⟨h, rfl⟩
  inet6 h := if_pos ⟨h, rfl⟩
  four s hs := if_neg (by
    rintro ⟨h, rfl⟩
    exact colon_not_mem_addrtmp h hs)
  six s hs := if_neg (by
    rintro ⟨h, rfl⟩
    exact hs (colon_mem_addrtmp h))

def loopback6 (port : BitVec 16) : IoaAddr :=
  { IoaAddr.any with
    family := .inet6
    port
    in6 := ⟨[0, 0, 0, 0, 0, 0, 0, 0, 0, 0, 0, 0, 0, 0, 0, 1], rfl⟩ }

/-- [::1]:3478 -/
theorem loopback6_round_trips :
    FullStringRoundTrips ⟨pton4Of (loopback6 3478), pton6Of (loopback6 3478), fun _ => none⟩
      (loopback6 3478) IoaAddr.any :=
  (full_string_round_trip_iff (ptonOf_inverts (loopback6 3478)) (.inr rfl)).mpr (by decide) _ _

/-- The text ::1 is read as the IPv4 address that is any, whatever the library answers. -/
theorem bare_loopback6_lost :
    addrToString (loopback6 0) = some [0x3A, 0x3A, 0x31] ∧
      ∀ (env : Resolver) (old : IoaAddr),
        makeIoaAddrFromFullString env [0x3A, 0x3A, 0x31] 0 old =
          (0, { IoaAddr.any with family := .inet }) ∧
        ¬ FullStringRoundTrips env (loopback6 0) old := by
  have htext : addrToString (loopback6 0) = some [0x3A, 0x3A, 0x31] := by decide +kernel
  have hcut : getAddrStringAndPort [0x3A, 0x3A, 0x31] = some ([], 0) := by decide +kernel
  refine ⟨htext, fun env old => ?_⟩
  have hread : makeIoaAddrFromFullString env [0x3A, 0x3A, 0x31] 0 old =
      (0, { IoaAddr.any with family := .inet }) := by
    rw [makeIoaAddrFromFullString, hcut]
    rfl
  refine ⟨hread, ?_⟩
  rintro ⟨text, hwritten, _, heq⟩
  obtain rfl := Option.some.inj (htext.symm.trans hwritten)
  rw [hread] at heq
  exact absurd heq (by decide)

end TurnClient
