import TurnClient.ByteMemory
import Mathlib.Data.List.Forall2

/-!
# Padded type-length-value records in memory

A record is a 16-bit type, a 16-bit length and that many value bytes, followed
by padding up to a multiple of four. Records stand one after the other; the
padding bytes are not constrained. The layout of a list is stated by recursion
on the list, so that appending a record is one rewriting step and a store
outside the region is one frame step.
-/

namespace Tlv

open ByteMemory
set_option autoImplicit false

abbrev Record := BitVec 16 × List Byte

def pad4 (n : Nat) : Nat := (n + 3) / 4 * 4

theorem le_pad4 (n : Nat) : n ≤ pad4 n := by unfold pad4; omega

theorem pad4_lt (n : Nat) : pad4 n < n + 4 := by unfold pad4; omega

theorem pad4_mod (n : Nat) : pad4 n % 4 = 0 := by unfold pad4; omega

def size : List Record → Nat
  | [] => 0
  | r :: rs => 4 + pad4 r.2.length + size rs

/-- Where each record of a list starts. -/
def offsets (off : Nat) : List Record → List Nat
  | [] => []
  | r :: rs => off :: offsets (off + 4 + pad4 r.2.length) rs

def RecordAt (m : Mem) (off : Nat) (r : Record) : Prop :=
  get16 m off = r.1 ∧ (get16 m (off + 2)).toNat = r.2.length ∧
    slice m (off + 4) r.2.length = r.2

def LaidOut (m : Mem) (off : Nat) : List Record → Prop
  | [] => True
  | r :: rs => RecordAt m off r ∧ LaidOut m (off + 4 + pad4 r.2.length) rs

@[simp] theorem size_append (rs ss : List Record) : size (rs ++ ss) = size rs + size ss := by
  induction rs with
  | nil => simp [size]
  | cons r rs ih =>
    simp only [List.cons_append, size, ih]
    omega

theorem size_mod (rs : List Record) : size rs % 4 = 0 := by
  induction rs with
  | nil => rfl
  | cons r rs ih =>
    have hp := pad4_mod r.2.length
    simp only [size]
    omega

theorem laidOut_append (m : Mem) (off : Nat) (rs ss : List Record) :
    LaidOut m off (rs ++ ss) ↔ LaidOut m off rs ∧ LaidOut m (off + size rs) ss := by
  induction rs generalizing off with
  | nil => simp [LaidOut, size]
  | cons r rs ih =>
    have hoff : off + (4 + pad4 r.2.length + size rs) = off + 4 + pad4 r.2.length + size rs := by
      omega
    simp only [List.cons_append, LaidOut, size, ih, hoff, and_assoc]

theorem recordAt_congr {m m' : Mem} {off : Nat} {r : Record}
    (h : ∀ i, off ≤ i → i < off + 4 + r.2.length → m i = m' i) (hr : RecordAt m off r) :
    RecordAt m' off r := by
  obtain ⟨htype, hlen, hval⟩ := hr
  have htag : get16 m off = get16 m' off :=
    get16_congr (h _ (by omega) (by omega)) (h _ (by omega) (by omega))
  have hsz : get16 m (off + 2) = get16 m' (off + 2) :=
    get16_congr (h _ (by omega) (by omega)) (h _ (by omega) (by omega))
  have hbytes : slice m (off + 4) r.2.length = slice m' (off + 4) r.2.length := by
    apply (slice_eq_iff _ _ _ _).mpr
    intro i hlo hhi
    exact h i (by omega) (by omega)
  exact ⟨htag ▸ htype, hsz ▸ hlen, hbytes ▸ hval⟩

/-- The layout only depends on the bytes of its own region. -/
theorem laidOut_congr {m m' : Mem} {off : Nat} {rs : List Record}
    (h : ∀ i, off ≤ i → i < off + size rs → m i = m' i) (hl : LaidOut m off rs) :
    LaidOut m' off rs := by
  induction rs generalizing off with
  | nil => trivial
  | cons r rs ih =>
    have hp := le_pad4 r.2.length
    simp only [size] at h
    refine ⟨recordAt_congr (fun i hlo hhi => h i hlo (by omega)) hl.1, ?_⟩
    exact ih (fun i hlo hhi => h i (by omega) (by omega)) hl.2

theorem laidOut_write {m : Mem} {off : Nat} {rs : List Record} {o : Nat} {bs : List Byte}
    (h : o + bs.length ≤ off ∨ off + size rs ≤ o) (hl : LaidOut m off rs) :
    LaidOut (write m o bs) off rs :=
  laidOut_congr (fun _ _ _ => (write_outside (by omega)).symm) hl

theorem forall₂_recordAt {m : Mem} {off : Nat} {rs : List Record} (hl : LaidOut m off rs) :
    List.Forall₂ (RecordAt m) (offsets off rs) rs := by
  induction rs generalizing off with
  | nil => exact .nil
  | cons r rs ih => exact .cons hl.1 (ih hl.2)

theorem exists_recordAt {m : Mem} {off a : Nat} {rs : List Record} (hl : LaidOut m off rs)
    (ha : a ∈ offsets off rs) : ∃ r ∈ rs, RecordAt m a r := by
  induction rs generalizing off with
  | nil => cases ha
  | cons r rs ih =>
    rcases List.mem_cons.mp ha with rfl | hmem
    · exact ⟨r, List.mem_cons_self, hl.1⟩
    · obtain ⟨r', hr', hrec⟩ := ih hl.2 hmem
      exact ⟨r', List.mem_cons_of_mem r hr', hrec⟩

/-! ## Padding -/

/-- The offsets between the end of a value and the next record. -/
def padding (off : Nat) : List Record → List Nat
  | [] => []
  | r :: rs =>
    List.range' (off + 4 + r.2.length) (pad4 r.2.length - r.2.length) ++
      padding (off + 4 + pad4 r.2.length) rs

theorem padding_append (off : Nat) (rs ss : List Record) :
    padding off (rs ++ ss) = padding off rs ++ padding (off + size rs) ss := by
  induction rs generalizing off with
  | nil => simp [padding, size]
  | cons r rs ih =>
    have hoff : off + (4 + pad4 r.2.length + size rs) = off + 4 + pad4 r.2.length + size rs := by
      omega
    simp only [List.cons_append, padding, size, ih, hoff, List.append_assoc]

theorem padding_bounds {off i : Nat} {rs : List Record} (hi : i ∈ padding off rs) :
    off + 4 ≤ i ∧ i < off + size rs := by
  induction rs generalizing off with
  | nil => cases hi
  | cons r rs ih =>
    have hp := le_pad4 r.2.length
    rcases List.mem_append.mp hi with hhere | hlater
    · obtain ⟨k, hk, rfl⟩ := List.mem_range'.mp hhere
      simp only [size]
      omega
    · have hb := ih hlater
      simp only [size]
      omega

theorem padding_eq_nil_iff (off : Nat) (rs : List Record) :
    padding off rs = [] ↔ ∀ r ∈ rs, r.2.length % 4 = 0 := by
  induction rs generalizing off with
  | nil => simp [padding]
  | cons r rs ih =>
    have hpad : pad4 r.2.length - r.2.length = 0 ↔ r.2.length % 4 = 0 := by
      unfold pad4
      omega
    simp only [padding, List.append_eq_nil_iff, List.range'_eq_nil_iff, ih, hpad,
      List.forall_mem_cons]

theorem recordAt_agree {m m' : Mem} {off : Nat} {r : Record} (h : RecordAt m off r)
    (h' : RecordAt m' off r) {i : Nat} (hlo : off ≤ i) (hhi : i < off + 4 + r.2.length) :
    m i = m' i := by
  obtain ⟨htype, hlen, hval⟩ := h
  obtain ⟨htype', hlen', hval'⟩ := h'
  have hlens : get16 m (off + 2) = get16 m' (off + 2) :=
    BitVec.eq_of_toNat_eq (hlen.trans hlen'.symm)
  obtain ⟨h0, h1⟩ := bytes_of_get16 (htype.trans htype'.symm)
  obtain ⟨h2, h3⟩ := bytes_of_get16 hlens
  have hi : i = off ∨ i = off + 1 ∨ i = off + 2 ∨ i = off + 3 ∨ off + 4 ≤ i := by omega
  rcases hi with rfl | rfl | rfl | rfl | hi
  · exact h0
  · exact h1
  · exact h2
  · exact h3
  · exact (slice_eq_iff _ _ _ _).mp (hval.trans hval'.symm) i hi hhi

/-- Two memories that hold the same records can differ in the padding only. -/
theorem laidOut_agree {m m' : Mem} {off : Nat} {rs : List Record} (h : LaidOut m off rs)
    (h' : LaidOut m' off rs) (hpad : ∀ i ∈ padding off rs, m i = m' i) {i : Nat} (hlo : off ≤ i)
    (hhi : i < off + size rs) : m i = m' i := by
  induction rs generalizing off with
  | nil =>
    simp only [size] at hhi
    omega
  | cons r rs ih =>
    simp only [padding, List.mem_append] at hpad
    simp only [size] at hhi
    by_cases hval : i < off + 4 + r.2.length
    · exact recordAt_agree h.1 h'.1 hlo hval
    · by_cases hgap : i < off + 4 + pad4 r.2.length
      · apply hpad i (Or.inl (List.mem_range'.mpr ⟨i - (off + 4 + r.2.length), ?_, ?_⟩))
        · omega
        · omega
      · exact ih h.2 h'.2 (fun j hj => hpad j (Or.inr hj)) (by omega) (by omega)

end Tlv
