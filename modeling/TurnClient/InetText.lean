import Mathlib.Data.Bool.AllAny
import TurnClient.ByteMemory

/-!
# Internet addresses as text

What `inet_ntop` writes for the two address families. The IPv6 form compresses
the first longest run of at least two zero groups and shows an embedded IPv4
address in dotted notation. The two notations never meet: only the IPv6 one
has a colon.
-/

namespace InetText

open ByteMemory
set_option autoImplicit false

def decimal (b : Byte) : List Char := Nat.toDigits 10 b.toNat

def hex (w : BitVec 16) : List Char := Nat.toDigits 16 w.toNat

def dotted (a b c d : Byte) : List Char :=
  decimal a ++ ['.'] ++ decimal b ++ ['.'] ++ decimal c ++ ['.'] ++ decimal d

/-- `inet_ntop(AF_INET, ...)` of an address in network order. -/
def inetNtop4 (addr : BitVec 32) : List Char :=
  dotted (addr.extractLsb' 24 8) (addr.extractLsb' 16 8) (addr.extractLsb' 8 8)
    (addr.extractLsb' 0 8)

def group (bytes : List Byte) (i : Nat) : BitVec 16 :=
  bytes.getD (2 * i) 0 ++ bytes.getD (2 * i + 1) 0

def zeroRun (bytes : List Byte) (i : Nat) : Nat :=
  (((List.range 8).drop i).takeWhile fun j => group bytes j == 0).length

/-- Where the run that is written as a double colon starts and how long it is. -/
def bestRun (bytes : List Byte) : Option (Nat × Nat) :=
  let runs := (List.range 8).map (zeroRun bytes)
  let best := runs.foldl max 0
  if best < 2 then none else some (runs.findIdx (· == best), best)

def embedsV4 (bytes : List Byte) : Option (Nat × Nat) → Bool
  | some (0, 6) => true
  | some (0, 5) => group bytes 5 == 0xFFFF
  | _ => false

/-- What the loop of `inet_ntop6` writes for one group. -/
def groupText (bytes : List Byte) (best : Option (Nat × Nat)) (i : Nat) : List Char :=
  let inRun := best.any fun r => decide (r.1 ≤ i ∧ i < r.1 + r.2)
  if inRun then if best.any fun r => r.1 == i then [':'] else []
  else
    let colon := if i = 0 then [] else [':']
    if embedsV4 bytes best && i == 6 then
      colon ++ dotted (bytes.getD 12 0) (bytes.getD 13 0) (bytes.getD 14 0) (bytes.getD 15 0)
    else if embedsV4 bytes best && i == 7 then []
    else colon ++ hex (group bytes i)

/-- `inet_ntop(AF_INET6, ...)` of sixteen bytes. -/
def inetNtop6 (bytes : List Byte) : List Char :=
  let best := bestRun bytes
  let closing := if best.any fun r => r.1 + r.2 == 8 then [':'] else []
  (List.range 8).flatMap (groupText bytes best) ++ closing

example : inetNtop4 0xC0000201 = ['1', '9', '2', '.', '0', '.', '2', '.', '1'] := by decide

example : inetNtop6 [0x20, 0x01, 0x0D, 0xB8, 0, 0, 0, 0, 0, 0, 0, 0, 0, 0, 0, 1] =
    ['2', '0', '0', '1', ':', 'd', 'b', '8', ':', ':', '1'] := by decide +kernel

example : inetNtop6 [0, 0, 0, 0, 0, 0, 0, 0, 0, 0, 0xFF, 0xFF, 10, 0, 0, 1] =
    [':', ':', 'f', 'f', 'f', 'f', ':', '1', '0', '.', '0', '.', '0', '.', '1'] := by decide +kernel

theorem two_le_of_bestRun {bytes : List Byte} {base n : Nat} (h : bestRun bytes = some (base, n)) :
    2 ≤ n := by
  simp only [bestRun] at h
  split at h
  · cases h
  · cases h
    omega

theorem colon_not_mem_inetNtop4 (addr : BitVec 32) : ':' ∉ inetNtop4 addr := by
  have hdecimal : ∀ b : Byte, ':' ∉ decimal b := by decide +kernel
  simp [inetNtop4, dotted, hdecimal]

/-- The group that starts the double colon is written with it, and the second
group is written behind one when no run covers it. -/
theorem colon_mem_inetNtop6 (bytes : List Byte) : ':' ∈ inetNtop6 bytes := by
  have hfrom : ∀ i < 8, ':' ∈ groupText bytes (bestRun bytes) i → ':' ∈ inetNtop6 bytes := by
    intro i hi h
    exact List.mem_append_left _ (List.mem_flatMap.mpr ⟨i, List.mem_range.mpr hi, h⟩)
  cases hbest : bestRun bytes with
  | none =>
    apply hfrom 1 (by decide)
    simp [groupText, hbest]
  | some r =>
    obtain ⟨base, n⟩ := r
    have hn : 0 < n := Nat.lt_of_lt_of_le (by decide) (two_le_of_bestRun hbest)
    by_cases h0 : base = 0
    · apply hfrom 0 (by decide)
      simp [groupText, hbest, hn, h0]
    · apply hfrom 1 (by decide)
      by_cases h1 : base = 1
      · simp [groupText, hbest, hn, h1]
      · have hrun : ¬(base ≤ 1 ∧ 1 < base + n) := by omega
        simp only [groupText, hbest, Option.any_some, hrun, decide_false]
        simp

theorem inetNtop4_ne_inetNtop6 (addr : BitVec 32) (bytes : List Byte) :
    inetNtop4 addr ≠ inetNtop6 bytes := by
  intro h
  exact colon_not_mem_inetNtop4 addr (h ▸ colon_mem_inetNtop6 bytes)

/-! ## Characters and lengths -/

/-- What addresses are written with. -/
def addrChars : List Char :=
  ['0', '1', '2', '3', '4', '5', '6', '7', '8', '9', 'a', 'b', 'c', 'd', 'e', 'f', '.', ':']

theorem hex_chars (n : Nat) : ∀ c ∈ Nat.toDigits 16 n, c ∈ addrChars := by
  have hdigit : ∀ d : Fin 16, Nat.digitChar d ∈ addrChars := by decide
  induction n using Nat.strong_induction_on with
  | _ n ih =>
    rw [Nat.toDigits_eq_if (by decide)]
    split
    · rename_i hlt
      intro c hc
      rw [List.mem_singleton.mp hc]
      exact hdigit ⟨n, hlt⟩
    · intro c hc
      rcases List.mem_append.mp hc with hc | hc
      · exact ih (n / 16) (by omega) c hc
      · rw [List.mem_singleton.mp hc]
        exact hdigit ⟨n % 16, Nat.mod_lt _ (by decide)⟩

theorem dotted_chars (a b c d : Byte) : ∀ x ∈ dotted a b c d, x ∈ addrChars := by
  have hall : ∀ b : Byte, (decimal b).all fun x => x ∈ addrChars := by decide +kernel
  have hdecimal : ∀ b : Byte, ∀ x ∈ decimal b, x ∈ addrChars := fun b =>
    List.all_iff_forall_prop.mp (hall b)
  have hdot : '.' ∈ addrChars := by decide
  intro x hx
  simp only [dotted, List.mem_append, List.mem_singleton] at hx
  rcases hx with (((((hx | rfl) | hx) | rfl) | hx) | rfl) | hx
  · exact hdecimal a x hx
  · exact hdot
  · exact hdecimal b x hx
  · exact hdot
  · exact hdecimal c x hx
  · exact hdot
  · exact hdecimal d x hx

theorem groupText_chars (bytes : List Byte) (best : Option (Nat × Nat)) (i : Nat) :
    ∀ c ∈ groupText bytes best i, c ∈ addrChars := by
  have hcolon : ':' ∈ addrChars := by decide
  have hfront : ∀ c ∈ (if i = 0 then [] else [':']), c ∈ addrChars := by
    split
    · simp
    · simpa using hcolon
  intro c hc
  unfold groupText at hc
  simp only at hc
  split at hc
  · split at hc
    · rw [List.mem_singleton.mp hc]
      exact hcolon
    · cases hc
  split at hc
  · rcases List.mem_append.mp hc with hc | hc
    · exact hfront c hc
    · exact dotted_chars _ _ _ _ c hc
  split at hc
  · cases hc
  rcases List.mem_append.mp hc with hc | hc
  · exact hfront c hc
  · exact hex_chars _ c hc

theorem inetNtop4_chars (addr : BitVec 32) : ∀ c ∈ inetNtop4 addr, c ∈ addrChars :=
  dotted_chars _ _ _ _

theorem inetNtop6_chars (bytes : List Byte) : ∀ c ∈ inetNtop6 bytes, c ∈ addrChars := by
  intro c hc
  rcases List.mem_append.mp hc with hc | hc
  · obtain ⟨i, _, hc⟩ := List.mem_flatMap.mp hc
    exact groupText_chars _ _ i c hc
  · split at hc
    · rw [List.mem_singleton.mp hc]
      decide
    · cases hc

theorem dotted_length_le (a b c d : Byte) : (dotted a b c d).length ≤ 15 := by
  have hdecimal : ∀ b : Byte, (decimal b).length ≤ 3 := by decide +kernel
  have ha := hdecimal a
  have hb := hdecimal b
  have hc := hdecimal c
  have hd := hdecimal d
  simp only [dotted, List.length_append, List.length_cons, List.length_nil]
  omega

theorem inetNtop4_length_le (addr : BitVec 32) : (inetNtop4 addr).length ≤ 15 :=
  dotted_length_le _ _ _ _

/-- Only the embedded IPv4 address is longer than a colon and four digits. -/
theorem groupText_length_le (bytes : List Byte) (best : Option (Nat × Nat)) (i : Nat) :
    (groupText bytes best i).length ≤ 5 ∨ i = 6 ∧ (groupText bytes best i).length ≤ 16 := by
  have hdotted := dotted_length_le (bytes.getD 12 0) (bytes.getD 13 0) (bytes.getD 14 0)
    (bytes.getD 15 0)
  have hhex : (hex (group bytes i)).length ≤ 4 :=
    (Nat.length_toDigits_le_iff (by decide) (by decide)).mpr (group bytes i).isLt
  have hfront : (if i = 0 then [] else [':'] : List Char).length ≤ 1 := by
    split <;> simp
  unfold groupText
  simp only
  split
  · left
    split <;> simp
  split
  · rename_i hv4
    refine .inr ⟨by simpa using (Bool.and_eq_true_iff.mp hv4).2, ?_⟩
    rw [List.length_append]
    omega
  · left
    split
    · simp
    · rw [List.length_append]
      omega

theorem inetNtop6_length_le (bytes : List Byte) : (inetNtop6 bytes).length ≤ 52 := by
  have h := groupText_length_le bytes (bestRun bytes)
  have hclosing : (if (bestRun bytes).any fun r => r.1 + r.2 == 8 then [':'] else []).length ≤ 1 := by
    split <;> simp
  have hrange : List.range 8 = [0, 1, 2, 3, 4, 5, 6, 7] := rfl
  have h0 := h 0
  have h1 := h 1
  have h2 := h 2
  have h3 := h 3
  have h4 := h 4
  have h5 := h 5
  have h6 := h 6
  have h7 := h 7
  simp only [inetNtop6, hrange, List.flatMap_cons, List.flatMap_nil, List.length_append,
    List.length_nil]
  omega

end InetText
