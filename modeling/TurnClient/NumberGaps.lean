import Mathlib.Data.Finset.Card
import Mathlib.Order.Interval.Finset.Nat

/-!
# Gaps in a row of numbers

Numbered messages that may be lost on the way. A receiver that remembers the
last number it saw notices each place where the row does not go on with the next
one; it counts the gaps, not what is missing in them. With a row that only rises
the two counts agree just in case no two neighbours are missing.
-/

namespace NumberGaps

set_option autoImplicit false

/-- How often a number is not the one expected; behind each the next one is. -/
def breaks (next : Nat) : List Nat → Nat
  | [] => 0
  | n :: ns => (if n = next then 0 else 1) + breaks (n + 1) ns

/-- The number expected behind a row. -/
def after (next : Nat) : List Nat → Nat
  | [] => next
  | n :: ns => after (n + 1) ns

def Rising (next : Nat) : List Nat → Prop
  | [] => True
  | n :: ns => next ≤ n ∧ Rising (n + 1) ns

/-- The numbers that the row has passed over. -/
def missing (next : Nat) (ns : List Nat) : Finset Nat :=
  {n ∈ Finset.Ico next (after next ns) | n ∉ ns}

/-- No two neighbours are in the set. -/
def Scattered (s : Finset Nat) : Prop := ∀ n ∈ s, n + 1 ∉ s

variable {next : Nat} {ns : List Nat}

/-! ## Rows one behind the other -/

theorem after_append (next : Nat) (ms ns : List Nat) :
    after next (ms ++ ns) = after (after next ms) ns := by
  induction ms generalizing next with
  | nil => rfl
  | cons m ms ih => exact ih (m + 1)

theorem breaks_append (next : Nat) (ms ns : List Nat) :
    breaks next (ms ++ ns) = breaks next ms + breaks (after next ms) ns := by
  induction ms generalizing next with
  | nil => rw [List.nil_append, breaks, Nat.zero_add, after]
  | cons m ms ih => rw [List.cons_append, breaks, breaks, ih, after, Nat.add_assoc]

theorem rising_append (next : Nat) (ms ns : List Nat) :
    Rising next (ms ++ ns) ↔ Rising next ms ∧ Rising (after next ms) ns := by
  induction ms generalizing next with
  | nil => simp [Rising, after]
  | cons m ms ih => rw [List.cons_append, Rising, Rising, ih, after, and_assoc]

theorem Rising.le (h : Rising next ns) {n : Nat} (hn : n ∈ ns) : next ≤ n := by
  induction ns generalizing next with
  | nil => cases hn
  | cons m ms ih =>
    obtain ⟨hm, hrest⟩ := h
    cases List.mem_cons.mp hn with
    | inl heq => omega
    | inr hmem =>
      have hle := ih hrest hmem
      omega

theorem Rising.le_after (h : Rising next ns) : next ≤ after next ns := by
  induction ns generalizing next with
  | nil => exact Nat.le_refl next
  | cons m ms ih =>
    have hle := ih h.2
    have hm := h.1
    rw [after]
    omega

theorem after_le {b : Nat} (hnext : next ≤ b) (h : ∀ n ∈ ns, n < b) : after next ns ≤ b := by
  induction ns generalizing next with
  | nil => exact hnext
  | cons m ms ih =>
    have hm := h m (List.mem_cons_self ..)
    exact ih hm fun n hn => h n (List.mem_cons_of_mem m hn)

theorem Rising.weaken {next' : Nat} (h : Rising next ns) (hle : next' ≤ next) :
    Rising next' ns := by
  cases ns with
  | nil => exact h
  | cons m ms => exact ⟨Nat.le_trans hle h.1, h.2⟩

theorem Rising.sublist {ms : List Nat} (h : Rising next ns) (hsub : ms.Sublist ns) :
    Rising next ms := by
  induction hsub generalizing next with
  | slnil => exact h
  | cons n _ ih => exact ih (h.2.weaken (Nat.le_succ_of_le h.1))
  | cons_cons n _ ih => exact ⟨h.1, ih h.2⟩

/-! ## What is missing -/

theorem mem_missing {n : Nat} :
    n ∈ missing next ns ↔ (next ≤ n ∧ n < after next ns) ∧ n ∉ ns := by
  rw [missing, Finset.mem_filter, Finset.mem_Ico]

theorem missing_cons {n : Nat} (h : Rising next (n :: ns)) :
    missing next (n :: ns) = Finset.Ico next n ∪ missing (n + 1) ns := by
  obtain ⟨hn, hrest⟩ := h
  have hafter := hrest.le_after
  apply Finset.ext
  intro m
  rw [Finset.mem_union, mem_missing, mem_missing, Finset.mem_Ico, List.mem_cons, after]
  constructor
  · intro hm
    by_cases hlt : m < n
    · exact Or.inl ⟨hm.1.1, hlt⟩
    · have hne : m ≠ n := fun heq => hm.2 (Or.inl heq)
      exact Or.inr ⟨⟨by omega, hm.1.2⟩, fun hmem => hm.2 (Or.inr hmem)⟩
  · intro hm
    cases hm with
    | inl hfront =>
      refine ⟨⟨hfront.1, by omega⟩, ?_⟩
      intro hmem
      cases hmem with
      | inl heq => omega
      | inr hmem =>
        have hle := hrest.le hmem
        omega
    | inr hbehind =>
      refine ⟨⟨by omega, hbehind.1.2⟩, ?_⟩
      intro hmem
      cases hmem with
      | inl heq => omega
      | inr hmem => exact hbehind.2 hmem

theorem card_missing_cons {n : Nat} (h : Rising next (n :: ns)) :
    (missing next (n :: ns)).card = (n - next) + (missing (n + 1) ns).card := by
  have hdisj : Disjoint (Finset.Ico next n) (missing (n + 1) ns) := by
    apply Finset.disjoint_left.mpr
    intro m hm hm'
    have hlt := (Finset.mem_Ico.mp hm).2
    have hle := (mem_missing.mp hm').1.1
    omega
  rw [missing_cons h, Finset.card_union_of_disjoint hdisj, Nat.card_Ico]

theorem scattered_cons {n : Nat} (h : Rising next (n :: ns)) :
    Scattered (missing next (n :: ns)) ↔ n - next ≤ 1 ∧ Scattered (missing (n + 1) ns) := by
  have hmem : ∀ m, m ∈ missing next (n :: ns) ↔
      (next ≤ m ∧ m < n) ∨ m ∈ missing (n + 1) ns := by
    intro m
    rw [missing_cons h, Finset.mem_union, Finset.mem_Ico]
  have hlow : ∀ m, m ∈ missing (n + 1) ns → n + 1 ≤ m := fun m hm => (mem_missing.mp hm).1.1
  constructor
  · intro hscat
    constructor
    · by_contra hgap
      refine hscat next ((hmem next).mpr (Or.inl (by omega))) ?_
      exact (hmem (next + 1)).mpr (Or.inl (by omega))
    · intro m hm hm'
      exact hscat m ((hmem m).mpr (Or.inr hm)) ((hmem (m + 1)).mpr (Or.inr hm'))
  · intro hboth m hm hm'
    obtain ⟨hgap, hscat⟩ := hboth
    cases (hmem m).mp hm with
    | inl hfront =>
      cases (hmem (m + 1)).mp hm' with
      | inl hfront' => omega
      | inr hbehind' =>
        have hle := hlow _ hbehind'
        omega
    | inr hbehind =>
      cases (hmem (m + 1)).mp hm' with
      | inl hfront' =>
        have hle := hlow _ hbehind
        omega
      | inr hbehind' => exact hscat m hbehind hbehind'

/-! ## The two counts -/

theorem breaks_le_card_missing (h : Rising next ns) : breaks next ns ≤ (missing next ns).card := by
  induction ns generalizing next with
  | nil => exact Nat.zero_le _
  | cons n ns ih =>
    have hrest := ih h.2
    have hn := h.1
    rw [card_missing_cons h, breaks]
    split
    · omega
    · omega

theorem breaks_eq_card_missing_iff (h : Rising next ns) :
    breaks next ns = (missing next ns).card ↔ Scattered (missing next ns) := by
  induction ns generalizing next with
  | nil =>
    have hnone : missing next [] = ∅ := by simp [missing, after]
    rw [hnone]
    simp [Scattered, breaks]
  | cons n ns ih =>
    have hle := breaks_le_card_missing h.2
    have hn := h.1
    rw [scattered_cons h, ← ih h.2, card_missing_cons h, breaks]
    split
    · omega
    · omega

end NumberGaps
