import TurnClient.ByteMemory

/-!
# Loops over zero-terminated strings

A string in memory is a list of bytes with a zero behind it. The loops are those
that go on while a condition holds of the byte they are at; one skips, one copies
to a place that is not ahead. Each is bounded by the size of the array, which a
string inside the array does not reach when the condition fails at zero.
-/

namespace StringLoops

open ByteMemory
set_option autoImplicit false

/-- The memory holds these bytes from an offset on, and a zero behind them. -/
def StringAt (m : Mem) (off : Nat) (bs : List Byte) : Prop :=
  slice m off (bs ++ [0]).length = bs ++ [0]

theorem stringAt_append {m : Mem} {off : Nat} {as bs : List Byte} :
    StringAt m off (as ++ bs) ↔
      slice m off as.length = as ∧ StringAt m (off + as.length) bs := by
  unfold StringAt
  rw [List.append_assoc, slice_eq_append_iff]

theorem stringAt_cons {m : Mem} {off : Nat} {b : Byte} {bs : List Byte} :
    StringAt m off (b :: bs) ↔ m off = b ∧ StringAt m (off + 1) bs := by
  rw [← List.singleton_append, stringAt_append]
  simp [slice]

theorem stringAt_nil {m : Mem} {off : Nat} : StringAt m off [] ↔ m off = 0 := by
  simp [StringAt, slice]

theorem StringAt.write_before {m : Mem} {off : Nat} {bs : List Byte} (h : StringAt m off bs)
    {o : Nat} (ho : o < off) (c : Byte) : StringAt (write m o [c]) off bs := by
  unfold StringAt
  rw [slice_write_disjoint (.inr ho)]
  exact h

theorem StringAt.dropWhile {m : Mem} {off : Nat} {bs : List Byte} (h : StringAt m off bs)
    (p : Byte → Bool) : StringAt m (off + (bs.takeWhile p).length) (bs.dropWhile p) := by
  rw [← List.takeWhile_append_dropWhile (p := p) (l := bs), stringAt_append] at h
  exact h.2

theorem stringAt_ofList (bs : List Byte) : StringAt (ofList bs) 0 bs := by
  rw [← List.append_nil bs, stringAt_append, stringAt_nil, List.append_nil]
  refine ⟨slice_ofList bs, ?_⟩
  rw [ofList, Nat.zero_add, List.getD_eq_default _ _ (Nat.le_refl _)]

/-- A zero in a string ends it there. -/
theorem StringAt.cut {m : Mem} {off : Nat} {as bs : List Byte} (h : StringAt m off (as ++ bs)) :
    StringAt (write m (off + as.length) [0]) off as := by
  have hfront := (stringAt_append.mp h).1
  rw [← List.append_nil as, stringAt_append, stringAt_nil, List.append_nil]
  constructor
  · rwa [slice_write_disjoint (.inl (Nat.le_refl _))]
  · exact @write_inside m (off + as.length) [0] 0 Nat.zero_lt_one

/-! ## Skipping -/

/-- `while (p(*s)) ++s`, within so many bytes. -/
def skipWhile (p : Byte → Bool) (m : Mem) : Nat → Nat → Nat
  | 0, s => s
  | n + 1, s => if p (m s) then skipWhile p m n (s + 1) else s

theorem skipWhile_eq {p : Byte → Bool} (hp : p 0 = false) {m : Mem} {off n : Nat} {bs : List Byte}
    (h : StringAt m off bs) (hn : bs.length < n) :
    skipWhile p m n off = off + (bs.takeWhile p).length := by
  induction bs generalizing off n with
  | nil =>
    cases n with
    | zero => rfl
    | succ n =>
      rw [skipWhile, stringAt_nil.mp h, hp]
      rfl
  | cons b bs ih =>
    obtain ⟨hb, hrest⟩ := stringAt_cons.mp h
    cases n with
    | zero => cases hn
    | succ n =>
      rw [skipWhile, hb]
      cases hpb : p b with
      | true =>
        rw [if_pos rfl, ih hrest (Nat.lt_of_succ_lt_succ hn), List.takeWhile_cons_of_pos hpb,
          List.length_cons]
        omega
      | false =>
        rw [List.takeWhile_cons_of_neg (by simp [hpb])]
        rfl

/-! ## Copying -/

/-- `while (p(*src)) *dst++ = *src++`, with the place behind the copy. -/
def copyWhile (p : Byte → Bool) : Nat → Mem → Nat → Nat → Mem × Nat
  | 0, m, _, dst => (m, dst)
  | n + 1, m, src, dst =>
    if p (m src) then copyWhile p n (write m dst [m src]) (src + 1) (dst + 1) else (m, dst)

theorem copyWhile_eq {p : Byte → Bool} (hp : p 0 = false) {m : Mem} {src dst n : Nat}
    {bs : List Byte} (h : StringAt m src bs) (hdst : dst ≤ src) (hn : bs.length < n) :
    copyWhile p n m src dst =
      (write m dst (bs.takeWhile p), dst + (bs.takeWhile p).length) := by
  induction bs generalizing m src dst n with
  | nil =>
    cases n with
    | zero => cases hn
    | succ n =>
      rw [copyWhile, stringAt_nil.mp h, hp]
      simp
  | cons b bs ih =>
    obtain ⟨hb, hrest⟩ := stringAt_cons.mp h
    cases n with
    | zero => cases hn
    | succ n =>
      rw [copyWhile, hb]
      cases hpb : p b with
      | true =>
        -- what is still to be read lies behind the byte that is written
        rw [if_pos rfl, ih (hrest.write_before (Nat.lt_succ_of_le hdst) b) (Nat.succ_le_succ hdst)
          (Nat.lt_of_succ_lt_succ hn), List.takeWhile_cons_of_pos hpb, List.length_cons]
        refine Prod.ext (write_append m dst [b] (bs.takeWhile p)) ?_
        simp only
        omega
      | false =>
        rw [List.takeWhile_cons_of_neg (by simp [hpb])]
        simp

/-! ## Replacing -/

/-- `while (*s) { *s = f(*s); ++s; }` -/
def mapString (f : Byte → Byte) : Nat → Mem → Nat → Mem
  | 0, m, _ => m
  | n + 1, m, s => if m s = 0 then m else mapString f n (write m s [f (m s)]) (s + 1)

theorem mapString_eq {f : Byte → Byte} {m : Mem} {off n : Nat} {bs : List Byte}
    (h : StringAt m off bs) (hnz : ∀ b ∈ bs, b ≠ 0) (hn : bs.length < n) :
    mapString f n m off = write m off (bs.map f) := by
  induction bs generalizing m off n with
  | nil =>
    cases n with
    | zero => cases hn
    | succ n =>
      rw [mapString, if_pos (stringAt_nil.mp h)]
      exact (write_nil m off).symm
  | cons b bs ih =>
    obtain ⟨hb, hrest⟩ := stringAt_cons.mp h
    cases n with
    | zero => cases hn
    | succ n =>
      rw [mapString, hb, if_neg (hnz b List.mem_cons_self),
        ih (hrest.write_before (Nat.lt_succ_self off) (f b))
          (fun c hc => hnz c (List.mem_cons_of_mem b hc)) (Nat.lt_of_succ_lt_succ hn)]
      exact write_append m off [f b] (bs.map f)

theorem StringAt.write_same {m : Mem} {off : Nat} {as bs : List Byte} (h : StringAt m off as)
    (hlen : bs.length = as.length) : StringAt (write m off bs) off bs := by
  rw [← List.append_nil as, stringAt_append, stringAt_nil] at h
  rw [← List.append_nil bs, stringAt_append, stringAt_nil, List.append_nil]
  refine ⟨slice_write_same m off bs, ?_⟩
  rw [write_outside (.inr (Nat.le_refl _)), hlen]
  exact h.2

/-! ## Arrays that hold a string -/

/-- An array of so many characters holds this string. -/
structure HoldsString (m : Mem) (cap : Nat) (bs : List Byte) : Prop where
  stringAt : StringAt m 0 bs
  no_zero : ∀ b ∈ bs, b ≠ 0
  fits : bs.length < cap

theorem HoldsString.first_eq_zero_iff {m : Mem} {cap : Nat} {bs : List Byte}
    (h : HoldsString m cap bs) : m 0 = 0 ↔ bs = [] := by
  cases bs with
  | nil => exact iff_of_true (stringAt_nil.mp h.stringAt) rfl
  | cons b bs =>
    rw [(stringAt_cons.mp h.stringAt).1]
    exact iff_of_false (h.no_zero b List.mem_cons_self) (List.cons_ne_nil b bs)

theorem HoldsString.takeWhile_slice {m : Mem} {cap : Nat} {bs : List Byte}
    (h : HoldsString m cap bs) : (slice m 0 cap).takeWhile (· ≠ 0) = bs := by
  obtain ⟨n, hn⟩ := Nat.exists_eq_add_of_le (Nat.succ_le_of_lt h.fits)
  have hfront : slice m 0 (bs.length + 1) = bs ++ [0] := by
    simpa [StringAt] using h.stringAt
  rw [hn, Nat.succ_eq_add_one, slice_append, hfront, List.append_assoc,
    List.takeWhile_append_of_pos (by simpa using h.no_zero)]
  simp

end StringLoops
