import Mathlib.Data.List.Basic
import Mathlib.Data.Nat.Find
import Mathlib.Tactic.Ring

/-!
# Numbers written in digits

A list of digits, the most significant first. For lists of one length the order
of the numbers is the lexicographic order of the lists. The componentwise order
is smaller: it fails to see that a later digit does not count once an earlier
one decides.
-/

namespace BigEndian

set_option autoImplicit false

variable {k : Nat}

def value : List (BitVec k) → Nat
  | [] => 0
  | d :: ds => d.toNat * (2 ^ k) ^ ds.length + value ds

theorem value_lt (ds : List (BitVec k)) : value ds < (2 ^ k) ^ ds.length := by
  induction ds with
  | nil => exact Nat.one_pos
  | cons d ds ih =>
    calc value (d :: ds) = d.toNat * (2 ^ k) ^ ds.length + value ds := rfl
      _ < (d.toNat + 1) * (2 ^ k) ^ ds.length := by
        rw [Nat.succ_mul]
        exact Nat.add_lt_add_left ih _
      _ ≤ 2 ^ k * (2 ^ k) ^ ds.length := Nat.mul_le_mul_right _ d.isLt
      _ = (2 ^ k) ^ (d :: ds).length := by
        rw [List.length_cons]
        ring

/-- The first digit decides unless it is the same. -/
theorem value_cons_lt_iff {c d : BitVec k} {cs ds : List (BitVec k)} (h : cs.length = ds.length) :
    value (c :: cs) < value (d :: ds) ↔ c < d ∨ c = d ∧ value cs < value ds := by
  have hcs := value_lt cs
  have hds := value_lt ds
  rw [value, value, h] at *
  rcases Nat.lt_trichotomy c.toNat d.toNat with hlt | heq | hgt
  · have hmul : (c.toNat + 1) * (2 ^ k) ^ ds.length ≤ d.toNat * (2 ^ k) ^ ds.length :=
      Nat.mul_le_mul_right _ hlt
    rw [Nat.succ_mul] at hmul
    exact iff_of_true (by omega) (.inl hlt)
  · obtain rfl : c = d := BitVec.eq_of_toNat_eq heq
    simp
  · have hmul : (d.toNat + 1) * (2 ^ k) ^ ds.length ≤ c.toNat * (2 ^ k) ^ ds.length :=
      Nat.mul_le_mul_right _ hgt
    rw [Nat.succ_mul] at hmul
    apply iff_of_false (by omega)
    rintro (hlt | ⟨rfl, _⟩)
    · exact Nat.lt_asymm hgt hlt
    · exact Nat.lt_irrefl _ hgt

theorem value_lt_iff {cs ds : List (BitVec k)} (h : cs.length = ds.length) :
    value cs < value ds ↔ cs < ds := by
  induction cs generalizing ds with
  | nil =>
    obtain rfl := List.eq_nil_of_length_eq_zero h.symm
    simp
  | cons c cs ih =>
    cases ds with
    | nil => cases h
    | cons d ds =>
      have hlen : cs.length = ds.length := Nat.succ.inj h
      rw [value_cons_lt_iff hlen, List.cons_lt_cons_iff, ih hlen]

/-- At the first place where they differ the digit is smaller, at a later one it is greater. -/
def Crossing (cs ds : List (BitVec k)) : Prop :=
  ∃ i j, i < j ∧ j < ds.length ∧ (∀ n, n < i → cs.getD n 0 = ds.getD n 0) ∧
    cs.getD i 0 < ds.getD i 0 ∧ ds.getD j 0 < cs.getD j 0

/-- The digits are compared one by one, and none may be greater. -/
def Componentwise (cs ds : List (BitVec k)) : Prop :=
  ∀ i, i < ds.length → cs.getD i 0 ≤ ds.getD i 0

theorem lt_iff_first {cs ds : List (BitVec k)} (h : cs.length = ds.length) :
    cs < ds ↔ ∃ i, i < ds.length ∧ (∀ n, n < i → cs.getD n 0 = ds.getD n 0) ∧
      cs.getD i 0 < ds.getD i 0 := by
  induction cs generalizing ds with
  | nil =>
    obtain rfl := List.eq_nil_of_length_eq_zero h.symm
    simp
  | cons c cs ih =>
    cases ds with
    | nil => cases h
    | cons d ds =>
      rw [List.cons_lt_cons_iff, ih (Nat.succ.inj h)]
      constructor
      · rintro (hlt | ⟨rfl, i, hi, hsame, hless⟩)
        · exact ⟨0, Nat.succ_pos _, fun n hn => absurd hn (Nat.not_lt_zero n), hlt⟩
        · refine ⟨i + 1, Nat.succ_lt_succ hi, ?_, hless⟩
          intro n hn
          cases n with
          | zero => rfl
          | succ n => exact hsame n (Nat.lt_of_succ_lt_succ hn)
      · rintro ⟨i, hi, hsame, hless⟩
        cases i with
        | zero => exact .inl hless
        | succ i =>
          have hhead : c = d := hsame 0 (Nat.succ_pos i)
          exact .inr ⟨hhead, i, Nat.lt_of_succ_lt_succ hi,
            fun n hn => hsame (n + 1) (Nat.succ_lt_succ hn), hless⟩

theorem Crossing.value_lt {cs ds : List (BitVec k)} (hcross : Crossing cs ds)
    (h : cs.length = ds.length) : value cs < value ds := by
  obtain ⟨i, j, hij, hj, hsame, hless, _⟩ := hcross
  apply (value_lt_iff h).mpr
  exact (lt_iff_first h).mpr ⟨i, Nat.lt_trans hij hj, hsame, hless⟩

/-- The two orders differ exactly on digits that cross. -/
theorem componentwise_iff {cs ds : List (BitVec k)} (h : cs.length = ds.length) :
    Componentwise cs ds ↔ value cs ≤ value ds ∧ ¬ Crossing cs ds := by
  constructor
  · intro hall
    constructor
    · apply Nat.le_of_not_lt
      intro hgt
      obtain ⟨i, hi, _, hless⟩ := (lt_iff_first h.symm).mp ((value_lt_iff h.symm).mp hgt)
      have hle := hall i (h ▸ hi)
      exact absurd hless (Nat.not_lt_of_le hle)
    · rintro ⟨_, j, _, hj, _, _, hgreater⟩
      exact absurd hgreater (Nat.not_lt_of_le (hall j hj))
  · rintro ⟨hle, hcross⟩ j hj
    apply Nat.le_of_not_lt
    intro hgreater
    have hdiffers : ∃ n, cs.getD n 0 ≠ ds.getD n 0 :=
      ⟨j, fun heq => Nat.lt_irrefl _ (heq ▸ hgreater : ds.getD j 0 < ds.getD j 0)⟩
    -- the first place where they differ decides, and it comes before `j`
    obtain ⟨i, hne, hsame⟩ : ∃ i, cs.getD i 0 ≠ ds.getD i 0 ∧
        ∀ n, n < i → cs.getD n 0 = ds.getD n 0 :=
      ⟨Nat.find hdiffers, Nat.find_spec hdiffers,
        fun n hn => not_not.mp (Nat.find_min hdiffers hn)⟩
    have hij : i ≤ j := by
      apply Nat.le_of_not_lt
      intro hji
      rw [hsame j hji] at hgreater
      exact Nat.lt_irrefl _ hgreater
    rcases BitVec.lt_trichotomy (cs.getD i 0) (ds.getD i 0) with hless | heq | hmore
    · have hlt : i < j := by
        apply Nat.lt_of_le_of_ne hij
        rintro rfl
        exact Nat.lt_asymm hless hgreater
      exact hcross ⟨i, j, hlt, hj, hsame, hless, hgreater⟩
    · exact absurd heq hne
    · have hlex : ds < cs :=
        (lt_iff_first h.symm).mpr ⟨i, by omega, fun n hn => (hsame n hn).symm, hmore⟩
      have hgt := (value_lt_iff h.symm).mpr hlex
      omega

end BigEndian
