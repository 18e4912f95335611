import Mathlib.Data.List.Basic
import Mathlib.Logic.Function.Iterate

/-!
# The reflected shift register

A reflected CRC takes the bits of a message lowest first. One step of its
register is linear in exclusive or, and a word whose low bits are clear only
moves down, so any number of steps at once is one word that depends on the low
bits alone, with the rest moved down. With the top bit set in the polynomial a
step loses nothing.
-/

namespace ReflectedCrc

set_option autoImplicit false

variable {w : Nat}

def shiftStep (poly r : BitVec w) : BitVec w :=
  if r.getLsbD 0 then (r >>> 1) ^^^ poly else r >>> 1

/-- One bit of the message. -/
def bitStep (poly r : BitVec w) (b : Bool) : BitVec w :=
  if r.getLsbD 0 ^^ b then (r >>> 1) ^^^ poly else r >>> 1

/-- The bits of a word, the lowest first. -/
def bitsOf {n : Nat} (x : BitVec n) : List Bool := (List.range n).map x.getLsbD

/-- The register after the words of a message, bit by bit. -/
def register {n : Nat} (poly init : BitVec w) (message : List (BitVec n)) : BitVec w :=
  (message.flatMap bitsOf).foldl (bitStep poly) init

/-- So many steps without a message. -/
def shifts (poly : BitVec w) : Nat → BitVec w → BitVec w
  | 0, r => r
  | n + 1, r => shiftStep poly (shifts poly n r)

/-- The low bits of a word, in a word of the register's width. -/
def low (n : Nat) (r : BitVec w) : BitVec w := (r.setWidth n).setWidth w

/-! ## Linearity -/

theorem shiftStep_xor (poly a b : BitVec w) :
    shiftStep poly (a ^^^ b) = shiftStep poly a ^^^ shiftStep poly b := by
  have hcancel : ∀ x y p : BitVec w, x ^^^ p ^^^ (y ^^^ p) = x ^^^ y := by
    intro x y p
    rw [BitVec.xor_comm y p, BitVec.xor_assoc, ← BitVec.xor_assoc p p y, BitVec.xor_self,
      BitVec.zero_xor]
  unfold shiftStep
  simp only [BitVec.getLsbD_xor, BitVec.ushiftRight_xor_distrib]
  cases a.getLsbD 0 with
  | false =>
    cases b.getLsbD 0 with
    | false => rfl
    | true => exact BitVec.xor_assoc _ _ _
  | true =>
    cases b.getLsbD 0 with
    | false =>
      change a >>> 1 ^^^ b >>> 1 ^^^ poly = a >>> 1 ^^^ poly ^^^ b >>> 1
      rw [BitVec.xor_assoc, BitVec.xor_assoc, BitVec.xor_comm poly]
    | true => exact (hcancel _ _ _).symm

theorem shifts_xor (poly : BitVec w) (n : Nat) (a b : BitVec w) :
    shifts poly n (a ^^^ b) = shifts poly n a ^^^ shifts poly n b := by
  induction n with
  | zero => rfl
  | succ n ih => rw [shifts, ih, shiftStep_xor, shifts, shifts]

/-- A word with clear low bits only moves down. -/
theorem shifts_of_clear (poly : BitVec w) {n : Nat} {r : BitVec w}
    (h : ∀ i, i < n → r.getLsbD i = false) : shifts poly n r = r >>> n := by
  induction n with
  | zero => simp [shifts]
  | succ n ih =>
    have hbit : (r >>> n).getLsbD 0 = false := by
      rw [BitVec.getLsbD_ushiftRight]
      exact h n (Nat.lt_succ_self n)
    rw [shifts, ih fun i hi => h i (Nat.lt_succ_of_lt hi), shiftStep, hbit, BitVec.shiftRight_add]
    rfl

theorem getLsbD_low (n : Nat) (r : BitVec w) (i : Nat) :
    (low n r).getLsbD i = (decide (i < n) && r.getLsbD i) := by
  unfold low
  rw [BitVec.getLsbD_setWidth, BitVec.getLsbD_setWidth]
  by_cases hi : i < w
  · simp [hi]
  · simp [BitVec.getLsbD_of_ge r i (by omega)]

/-- So many steps at once: the word of the low bits, and the others moved down. -/
theorem shifts_eq_low (poly : BitVec w) (n : Nat) (r : BitVec w) :
    shifts poly n r = shifts poly n (low n r) ^^^ (r >>> n) := by
  have hclear : ∀ i, i < n → (low n r ^^^ r).getLsbD i = false := by
    intro i hi
    simp [getLsbD_low, hi]
  have hdown : (low n r ^^^ r) >>> n = r >>> n := by
    apply BitVec.eq_of_getLsbD_eq
    intro i _
    have hnot : ¬ n + i < n := by omega
    simp [getLsbD_low, hnot]
  have hsplit : r = low n r ^^^ (low n r ^^^ r) := by
    rw [← BitVec.xor_assoc, BitVec.xor_self, BitVec.zero_xor]
  calc shifts poly n r = shifts poly n (low n r ^^^ (low n r ^^^ r)) := congrArg _ hsplit
    _ = shifts poly n (low n r) ^^^ shifts poly n (low n r ^^^ r) := shifts_xor poly n _ _
    _ = shifts poly n (low n r) ^^^ (r >>> n) := by rw [shifts_of_clear poly hclear, hdown]

/-! ## A word of the message -/

/-- One bit, as a word of the register's width. -/
def bit (w : Nat) (b : Bool) : BitVec w := (BitVec.ofBool b).setWidth w

theorem getLsbD_bit (b : Bool) {i : Nat} (hi : i < w) :
    (bit w b).getLsbD i = (decide (i = 0) && b) := by
  unfold bit
  rw [BitVec.getLsbD_setWidth, BitVec.getLsbD_ofBool]
  simp [hi]

theorem bitStep_eq (poly r : BitVec w) (b : Bool) (hw : 0 < w) :
    bitStep poly r b = shiftStep poly (r ^^^ bit w b) := by
  have hdown : bit w b >>> 1 = 0#w := by
    apply BitVec.eq_of_getLsbD_eq
    intro i hi
    rw [BitVec.getLsbD_ushiftRight]
    by_cases hlt : 1 + i < w
    · rw [getLsbD_bit b hlt]
      simp
    · rw [BitVec.getLsbD_of_ge _ _ (Nat.le_of_not_lt hlt)]
      simp
  unfold bitStep shiftStep
  rw [BitVec.getLsbD_xor, getLsbD_bit b hw, BitVec.ushiftRight_xor_distrib, hdown, BitVec.xor_zero]
  rfl

theorem low_succ (x : BitVec w) (k : Nat) :
    low (k + 1) x = low k x ^^^ (bit w (x.getLsbD k) <<< k) := by
  apply BitVec.eq_of_getLsbD_eq
  intro i hi
  rw [BitVec.getLsbD_xor, getLsbD_low, getLsbD_low, BitVec.getLsbD_shiftLeft,
    getLsbD_bit _ (by omega)]
  rcases Nat.lt_trichotomy i k with hlt | rfl | hgt
  · have hle : i < k + 1 := by omega
    simp [hlt, hle]
  · simp [hi]
  · have hnot : ¬ i < k + 1 := by omega
    have hnot' : ¬ i < k := by omega
    have hne : ¬ i - k = 0 := by omega
    simp [hnot, hnot', hne]

/-- A bit at the place that so many steps bring down to the lowest. -/
theorem shifts_bit (poly : BitVec w) (b : Bool) {k : Nat} (hk : k < w) :
    shifts poly k (bit w b <<< k) = bit w b := by
  have hclear : ∀ i, i < k → (bit w b <<< k).getLsbD i = false := by
    intro i hi
    rw [BitVec.getLsbD_shiftLeft]
    simp [hi]
  rw [shifts_of_clear poly hclear]
  apply BitVec.eq_of_getLsbD_eq
  intro i hi
  rw [BitVec.getLsbD_ushiftRight, BitVec.getLsbD_shiftLeft, Nat.add_sub_cancel_left,
    getLsbD_bit b hi]
  by_cases hzero : i = 0
  · simp [hzero, hk]
  · simp [hzero]

/-- The bits of the message may be added to the register beforehand. -/
theorem foldl_bits_eq (poly : BitVec w) (r x : BitVec w) {k : Nat} (hk : k ≤ w) :
    ((List.range k).map x.getLsbD).foldl (bitStep poly) r = shifts poly k (r ^^^ low k x) := by
  induction k with
  | zero =>
    have hnone : low 0 x = 0#w := by
      apply BitVec.eq_of_getLsbD_eq
      intro i _
      simp [getLsbD_low]
    simp [hnone, shifts]
  | succ k ih =>
    rw [List.range_succ, List.map_append, List.foldl_append, ih (by omega)]
    simp only [List.map_cons, List.map_nil, List.foldl_cons, List.foldl_nil]
    rw [bitStep_eq poly _ _ (by omega), shifts, low_succ, ← BitVec.xor_assoc, shifts_xor poly k _
      (bit w (x.getLsbD k) <<< k), shifts_bit poly _ (by omega)]

/-- Eight steps, or as many as the word has bits, in one. -/
theorem foldl_bitsOf (poly r : BitVec w) {n : Nat} (x : BitVec n) (hn : n ≤ w) :
    (bitsOf x).foldl (bitStep poly) r = shifts poly n (r ^^^ x.setWidth w) := by
  have hbits : bitsOf x = (List.range n).map (x.setWidth w).getLsbD := by
    apply List.map_congr_left
    intro i hi
    have hlt : i < w := Nat.lt_of_lt_of_le (List.mem_range.mp hi) hn
    simp [hlt]
  have hlow : low n (x.setWidth w) = x.setWidth w := by
    apply BitVec.eq_of_getLsbD_eq
    intro i _
    rw [getLsbD_low, BitVec.getLsbD_setWidth]
    by_cases hi : i < n
    · simp [hi]
    · simp [BitVec.getLsbD_of_ge x i (by omega)]
  rw [hbits, foldl_bits_eq poly r _ hn, hlow]

/-- A table of the steps of every word replaces them, whatever the register holds. -/
theorem foldl_bitsOf_table (poly r : BitVec w) {n : Nat} (x : BitVec n) (hn : n ≤ w)
    {table : BitVec n → BitVec w} (htable : ∀ i, table i = shifts poly n (i.setWidth w)) :
    (bitsOf x).foldl (bitStep poly) r = table (r.setWidth n ^^^ x) ^^^ (r >>> n) := by
  have hxlow : ∀ i, i < n → (r ^^^ x.setWidth w).getLsbD i = (r.setWidth n ^^^ x).getLsbD i := by
    intro i hi
    have hlt : i < w := Nat.lt_of_lt_of_le hi hn
    simp [hi, hlt]
  have hindex : low n (r ^^^ x.setWidth w) = (r.setWidth n ^^^ x).setWidth w := by
    apply BitVec.eq_of_getLsbD_eq
    intro i hi
    rw [getLsbD_low, BitVec.getLsbD_setWidth]
    by_cases hin : i < n
    · simp only [hin, hi, decide_true, Bool.true_and]
      exact hxlow i hin
    · simp [hin, BitVec.getLsbD_of_ge _ i (Nat.le_of_not_lt hin)]
  have hdown : (r ^^^ x.setWidth w) >>> n = r >>> n := by
    apply BitVec.eq_of_getLsbD_eq
    intro i _
    simp
  rw [foldl_bitsOf poly r x hn, shifts_eq_low, hindex, hdown, htable]

/-! ## Nothing is lost -/

theorem shiftStep_eq_zero {poly r : BitVec w} (hpoly : poly.getLsbD (w - 1) = true)
    (h : shiftStep poly r = 0#w) : r = 0#w := by
  have hdown : ∀ i, (r >>> 1).getLsbD i = r.getLsbD (i + 1) := by
    intro i
    rw [BitVec.getLsbD_ushiftRight, Nat.add_comm]
  cases hbit : r.getLsbD 0 with
  | true =>
    -- the top bit comes from the polynomial alone
    have htop := congrArg (fun x : BitVec w => x.getLsbD (w - 1)) h
    have hge : r.getLsbD (w - 1 + 1) = false := BitVec.getLsbD_of_ge r _ (by omega)
    simp only [shiftStep, hbit, if_true, BitVec.getLsbD_xor, hdown, hge, hpoly, BitVec.getLsbD_zero]
      at htop
    cases htop
  | false =>
    simp only [shiftStep, hbit, Bool.false_eq_true, if_false] at h
    apply BitVec.eq_of_getLsbD_eq
    intro i _
    cases i with
    | zero => simpa using hbit
    | succ i =>
      rw [← hdown, h]
      simp

theorem shifts_eq_zero {poly : BitVec w} (hpoly : poly.getLsbD (w - 1) = true) {n : Nat}
    {r : BitVec w} (h : shifts poly n r = 0#w) : r = 0#w := by
  induction n with
  | zero => exact h
  | succ n ih => exact ih (shiftStep_eq_zero hpoly h)

theorem shifts_inj {poly : BitVec w} (hpoly : poly.getLsbD (w - 1) = true) (n : Nat)
    {a b : BitVec w} : shifts poly n a = shifts poly n b ↔ a = b := by
  constructor
  · intro h
    have hzero : shifts poly n (a ^^^ b) = 0#w := by rw [shifts_xor, h, BitVec.xor_self]
    exact BitVec.xor_eq_zero_iff.mp (shifts_eq_zero hpoly hzero)
  · rintro rfl
    rfl

variable {n : Nat} {poly : BitVec w}

theorem register_append (init : BitVec w) (as bs : List (BitVec n)) :
    register poly init (as ++ bs) = register poly (register poly init as) bs := by
  unfold register
  rw [List.flatMap_append, List.foldl_append]

theorem register_cons (init : BitVec w) (a : BitVec n) (as : List (BitVec n)) :
    register poly init (a :: as) = register poly ((bitsOf a).foldl (bitStep poly) init) as := by
  unfold register
  rw [List.flatMap_cons, List.foldl_append]

theorem register_inj (hpoly : poly.getLsbD (w - 1) = true) (hn : n ≤ w) {init init' : BitVec w}
    (message : List (BitVec n)) :
    register poly init message = register poly init' message ↔ init = init' := by
  induction message generalizing init init' with
  | nil => rfl
  | cons a as ih =>
    rw [register_cons, register_cons, ih, foldl_bitsOf poly init a hn, foldl_bitsOf poly init' a hn,
      shifts_inj hpoly, BitVec.xor_left_inj]

/-- Two messages that differ in one word leave different registers. -/
theorem register_word_inj (hpoly : poly.getLsbD (w - 1) = true) (hn : n ≤ w) (init : BitVec w)
    (as bs : List (BitVec n)) {x y : BitVec n} :
    register poly init (as ++ x :: bs) = register poly init (as ++ y :: bs) ↔ x = y := by
  rw [register_append, register_append, register_cons, register_cons, register_inj hpoly hn,
    foldl_bitsOf poly _ x hn, foldl_bitsOf poly _ y hn, shifts_inj hpoly, BitVec.xor_right_inj]
  constructor
  · intro h
    have hback := congrArg (fun z : BitVec w => z.setWidth n) h
    simpa [BitVec.setWidth_setWidth_of_le _ hn] using hback
  · rintro rfl
    rfl

/-! ## Bursts -/

theorem bitStep_inj (hpoly : poly.getLsbD (w - 1) = true) {r r' : BitVec w} (b : Bool) :
    bitStep poly r b = bitStep poly r' b ↔ r = r' := by
  have hw : 0 < w := by
    apply Nat.pos_of_ne_zero
    rintro rfl
    simp at hpoly
  have hone : ∀ a : BitVec w, shiftStep poly a = shifts poly 1 a := fun _ => rfl
  rw [bitStep_eq poly r b hw, bitStep_eq poly r' b hw, hone, hone, shifts_inj hpoly,
    BitVec.xor_left_inj]

theorem foldl_bitStep_inj (hpoly : poly.getLsbD (w - 1) = true) {r r' : BitVec w}
    (bits : List Bool) : bits.foldl (bitStep poly) r = bits.foldl (bitStep poly) r' ↔ r = r' := by
  induction bits generalizing r r' with
  | nil => rfl
  | cons b bits ih => rw [List.foldl_cons, List.foldl_cons, ih, bitStep_inj hpoly]

/-- A row of bits that fits into the register, as a word. -/
theorem exists_word_of_bits (bits : List Bool) (hw : bits.length ≤ w) :
    ∃ x : BitVec w, bits = (List.range bits.length).map x.getLsbD := by
  refine ⟨(BitVec.ofBoolListLE bits).setWidth w, ?_⟩
  apply List.ext_getElem
  · rw [List.length_map, List.length_range]
  · intro i hi _
    have hlt : i < w := Nat.lt_of_lt_of_le hi hw
    rw [List.getElem_map, List.getElem_range, BitVec.getLsbD_setWidth, BitVec.getLsbD_ofBoolListLE]
    simp [hlt, hi]

/-- As many bits as the register has can be read back from it. -/
theorem foldl_bits_inj (hpoly : poly.getLsbD (w - 1) = true) (r : BitVec w) {xs ys : List Bool}
    (hlen : xs.length = ys.length) (hw : xs.length ≤ w) :
    xs.foldl (bitStep poly) r = ys.foldl (bitStep poly) r ↔ xs = ys := by
  constructor
  · intro h
    obtain ⟨x, hx⟩ := exists_word_of_bits xs hw
    obtain ⟨y, hy⟩ := exists_word_of_bits ys (hlen ▸ hw)
    rw [← hlen] at hy
    rw [hx, hy, foldl_bits_eq poly r x hw, foldl_bits_eq poly r y hw, shifts_inj hpoly,
      BitVec.xor_right_inj] at h
    rw [hx, hy]
    apply List.map_congr_left
    intro i hi
    have hbit := congrArg (fun z : BitVec w => z.getLsbD i) h
    simpa [getLsbD_low, List.mem_range.mp hi] using hbit
  · intro h
    rw [h]

/-- The words of a message can be read back from its bits. -/
theorem flatMap_bitsOf_inj {as bs : List (BitVec n)} (hlen : as.length = bs.length)
    (h : as.flatMap bitsOf = bs.flatMap bitsOf) : as = bs := by
  induction as generalizing bs with
  | nil => rw [List.eq_nil_of_length_eq_zero hlen.symm]
  | cons a as ih =>
    cases bs with
    | nil => cases hlen
    | cons b bs =>
      rw [List.flatMap_cons, List.flatMap_cons] at h
      obtain ⟨hword, hrest⟩ := List.append_inj h (by simp [bitsOf])
      have hab : a = b := by
        apply BitVec.eq_of_getLsbD_eq
        intro i hi
        exact List.map_inj_left.mp hword i (List.mem_range.mpr hi)
      rw [hab, ih (Nat.succ.inj hlen) hrest]

/-- Two messages that differ only within as many consecutive bits as the register has leave
different registers. -/
theorem register_burst_inj (hpoly : poly.getLsbD (w - 1) = true) (init : BitVec w)
    {as bs : List (BitVec n)} (hlen : as.length = bs.length) (i : Nat)
    (hpre : (as.flatMap bitsOf).take i = (bs.flatMap bitsOf).take i)
    (hpost : (as.flatMap bitsOf).drop (i + w) = (bs.flatMap bitsOf).drop (i + w)) :
    register poly init as = register poly init bs ↔ as = bs := by
  constructor
  · intro h
    apply flatMap_bitsOf_inj hlen
    have hsplit : ∀ bits : List Bool,
        bits = bits.take i ++ ((bits.drop i).take w ++ bits.drop (i + w)) := by
      intro bits
      rw [← List.drop_drop, List.take_append_drop, List.take_append_drop]
    have hbits : ((as.flatMap bitsOf).drop i).length = ((bs.flatMap bitsOf).drop i).length := by
      simp [bitsOf, List.length_flatMap, hlen]
    unfold register at h
    rw [hsplit (as.flatMap bitsOf), hsplit (bs.flatMap bitsOf), hpre, hpost] at h ⊢
    simp only [List.foldl_append] at h
    rw [foldl_bitStep_inj hpoly, foldl_bits_inj hpoly _ (by simp only [List.length_take, hbits])
      (List.length_take_le _ _)] at h
    rw [h]
  · intro h
    rw [h]

end ReflectedCrc
