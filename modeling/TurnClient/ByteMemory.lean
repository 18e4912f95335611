import Mathlib.Data.List.Basic
import Mathlib.Data.List.GetD
import Mathlib.Tactic.Ring

/-!
# Byte memory seen through a pointer

A buffer handed around as a pointer is a total map from offsets to bytes: what
lies past the filled part is arbitrary, never an error. Every store is one
`write` of consecutive bytes, every multi-byte load is big-endian, so a frame
argument is always a comparison of two offset ranges.
-/

namespace ByteMemory

set_option autoImplicit false

abbrev Byte := BitVec 8

/-- The bytes reachable from a pointer, by offset. -/
abbrev Mem := Nat → Byte

def ofList (bs : List Byte) : Mem := fun i => bs.getD i 0

/-- The bytes of a text of the source. -/
def ascii (s : String) : List Byte := s.toList.map fun c => BitVec.ofNat 8 c.toNat

def slice (m : Mem) (off n : Nat) : List Byte := (List.range n).map fun i => m (off + i)

/-- Store consecutive bytes from offset `off` on. -/
def write (m : Mem) (off : Nat) (bs : List Byte) : Mem := fun i =>
  if off ≤ i ∧ i < off + bs.length then bs.getD (i - off) 0 else m i

/-- Store at a signed offset; what falls before the pointer is not part of this memory. -/
def writeInt (m : Mem) (off : Int) (bs : List Byte) : Mem := fun i =>
  if off ≤ i ∧ i < off + bs.length then bs.getD (i - off).toNat 0 else m i

def get16 (m : Mem) (off : Nat) : BitVec 16 := m off ++ m (off + 1)

def get32 (m : Mem) (off : Nat) : BitVec 32 := get16 m off ++ get16 m (off + 2)

def get64 (m : Mem) (off : Nat) : BitVec 64 := get32 m off ++ get32 m (off + 4)

def be16 (x : BitVec 16) : List Byte := [x.extractLsb' 8 8, x.extractLsb' 0 8]

def be32 (x : BitVec 32) : List Byte := be16 (x.extractLsb' 16 16) ++ be16 (x.extractLsb' 0 16)

def be64 (x : BitVec 64) : List Byte := be32 (x.extractLsb' 32 32) ++ be32 (x.extractLsb' 0 32)

def put16 (m : Mem) (off : Nat) (x : BitVec 16) : Mem := write m off (be16 x)

def put32 (m : Mem) (off : Nat) (x : BitVec 32) : Mem := write m off (be32 x)

@[simp] theorem be16_length (x : BitVec 16) : (be16 x).length = 2 := rfl

@[simp] theorem be32_length (x : BitVec 32) : (be32 x).length = 4 := rfl

@[simp] theorem be64_length (x : BitVec 64) : (be64 x).length = 8 := rfl

@[simp] theorem slice_length (m : Mem) (off n : Nat) : (slice m off n).length = n := by
  simp [slice]

@[simp] theorem slice_zero (m : Mem) (off : Nat) : slice m off 0 = [] := rfl

theorem slice_getElem? (m : Mem) (off n i : Nat) :
    (slice m off n)[i]? = if i < n then some (m (off + i)) else none := by
  by_cases hi : i < n
  · simp [slice, hi]
  · simp [slice, hi]

theorem slice_eq_iff (m m' : Mem) (off n : Nat) :
    slice m off n = slice m' off n ↔ ∀ i, off ≤ i → i < off + n → m i = m' i := by
  constructor
  · intro h i hlo hhi
    have hget := congrArg (fun l => l[i - off]?) h
    simp only [slice_getElem?] at hget
    rw [if_pos (by omega), if_pos (by omega), Nat.add_sub_cancel' hlo] at hget
    exact Option.some.inj hget
  · intro h
    apply List.ext_getElem?
    intro i
    simp only [slice_getElem?]
    split
    · rw [h (off + i) (by omega) (by omega)]
    · rfl

theorem slice_append (m : Mem) (off a b : Nat) :
    slice m off (a + b) = slice m off a ++ slice m (off + a) b := by
  simp [slice, List.range_add, Function.comp_def, Nat.add_assoc]

theorem slice_take {m : Mem} {off a n : Nat} (h : a ≤ n) : (slice m off n).take a = slice m off a := by
  obtain ⟨b, rfl⟩ := Nat.exists_eq_add_of_le h
  rw [slice_append, List.take_left' (slice_length m off a)]

theorem slice_eq_append_iff (m : Mem) (off : Nat) (as bs : List Byte) :
    slice m off (as ++ bs).length = as ++ bs ↔
      slice m off as.length = as ∧ slice m (off + as.length) bs.length = bs := by
  rw [List.length_append, slice_append]
  constructor
  · intro h
    exact List.append_inj h (slice_length _ _ _)
  · rintro ⟨ha, hb⟩
    rw [ha, hb]

theorem slice_ofList (bs : List Byte) : slice (ofList bs) 0 bs.length = bs := by
  apply List.ext_getElem?
  intro i
  rw [slice_getElem?]
  split
  · rename_i hi
    simp [ofList, List.getElem?_eq_getElem hi]
  · rename_i hi
    rw [List.getElem?_eq_none (Nat.le_of_not_lt hi)]

theorem ofList_append_left {bs : List Byte} (cs : List Byte) {i : Nat} (hi : i < bs.length) :
    ofList (bs ++ cs) i = ofList bs i := by
  simp [ofList, List.getElem?_append_left hi]

theorem slice_ofList_take (bs : List Byte) {n : Nat} (hn : n ≤ bs.length) :
    slice (ofList bs) 0 n = bs.take n := by
  rw [← slice_take hn, slice_ofList]

theorem write_apply (m : Mem) (off : Nat) (bs : List Byte) (i : Nat) :
    write m off bs i = if off ≤ i ∧ i < off + bs.length then bs.getD (i - off) 0 else m i := rfl

@[simp] theorem write_nil (m : Mem) (off : Nat) : write m off [] = m := by
  funext i
  rw [write_apply, if_neg (by simp only [List.length_nil]; omega)]

/-- The frame rule of a store. -/
theorem write_outside {m : Mem} {off : Nat} {bs : List Byte} {i : Nat}
    (h : i < off ∨ off + bs.length ≤ i) : write m off bs i = m i := by
  rw [write_apply, if_neg (by omega)]

theorem write_inside (m : Mem) (off : Nat) {bs : List Byte} {i : Nat}
    (h : i < bs.length) : write m off bs (off + i) = bs.getD i 0 := by
  rw [write_apply, if_pos (by omega), Nat.add_sub_cancel_left]

theorem slice_write_disjoint {m : Mem} {off : Nat} {bs : List Byte} {o n : Nat}
    (h : o + n ≤ off ∨ off + bs.length ≤ o) : slice (write m off bs) o n = slice m o n := by
  apply (slice_eq_iff _ _ _ _).mpr
  intro i hlo hhi
  exact write_outside (by omega)

theorem slice_write_same (m : Mem) (off : Nat) (bs : List Byte) :
    slice (write m off bs) off bs.length = bs := by
  apply List.ext_getElem?
  intro i
  rw [slice_getElem?]
  split
  · rename_i hi
    rw [write_inside m off hi, List.getD_eq_getElem?_getD, List.getElem?_eq_getElem hi]
    rfl
  · rename_i hi
    rw [List.getElem?_eq_none (Nat.le_of_not_lt hi)]

/-- Two stores that meet are one store. -/
theorem write_append (m : Mem) (off : Nat) (as bs : List Byte) :
    write (write m off as) (off + as.length) bs = write m off (as ++ bs) := by
  funext i
  simp only [write_apply, List.length_append]
  by_cases has : off ≤ i ∧ i < off + as.length
  · rw [if_neg (by omega), if_pos has, if_pos (by omega), List.getD_append _ _ _ _ (by omega)]
  · by_cases hbs : off + as.length ≤ i ∧ i < off + as.length + bs.length
    · rw [if_pos hbs, if_pos (by omega), List.getD_append_right _ _ _ _ (by omega), Nat.sub_add_eq]
    · rw [if_neg hbs, if_neg has, if_neg (by omega)]

/-- A buffer that holds these bytes holds more of them after a store at their end. -/
theorem slice_write_end {m : Mem} {as : List Byte} (h : slice m 0 as.length = as) {off : Nat}
    (hoff : off = as.length) (bs : List Byte) :
    slice (write m off bs) 0 (as ++ bs).length = as ++ bs := by
  subst hoff
  rw [List.length_append, slice_append, Nat.zero_add, slice_write_disjoint (by omega), h,
    slice_write_same]

theorem writeInt_natCast (m : Mem) (off : Nat) (bs : List Byte) :
    writeInt m (off : Int) bs = write m off bs := by
  funext i
  unfold writeInt write
  by_cases h : off ≤ i ∧ i < off + bs.length
  · rw [if_pos h, if_pos (by omega)]
    congr 1
    omega
  · rw [if_neg h, if_neg (by omega)]

/-- A store is not seen where a later one covers it. -/
theorem write_covered {m : Mem} {off off' : Nat} {bs cs : List Byte}
    (h : off' ≤ off ∧ off + bs.length ≤ off' + cs.length) :
    write (write m off bs) off' cs = write m off' cs := by
  funext i
  rw [write_apply, write_apply m off' cs]
  by_cases hi : off' ≤ i ∧ i < off' + cs.length
  · rw [if_pos hi, if_pos hi]
  · rw [if_neg hi, if_neg hi, write_outside (by omega)]

/-- Stores to different places may change places. -/
theorem write_comm {m : Mem} {off off' : Nat} {bs cs : List Byte}
    (h : off + bs.length ≤ off' ∨ off' + cs.length ≤ off) :
    write (write m off bs) off' cs = write (write m off' cs) off bs := by
  funext i
  by_cases hi : off ≤ i ∧ i < off + bs.length
  · rw [write_outside (by omega), write_apply, write_apply (write m off' cs), if_pos hi, if_pos hi]
  · have houtside : i < off ∨ off + bs.length ≤ i := by omega
    rw [write_apply, write_outside houtside, write_outside houtside, write_apply m off' cs]

theorem write_eq_self_iff (m : Mem) (off : Nat) (bs : List Byte) :
    write m off bs = m ↔ slice m off bs.length = bs := by
  constructor
  · intro h
    have hsame := slice_write_same m off bs
    rwa [h] at hsame
  · intro h
    have hagree := (slice_eq_iff _ _ _ _).mp (h.trans (slice_write_same m off bs).symm)
    funext i
    by_cases hi : off ≤ i ∧ i < off + bs.length
    · exact (hagree i hi.1 hi.2).symm
    · exact write_outside (by omega)

/-! ## Big-endian fields -/

theorem get16_toNat (m : Mem) (off : Nat) :
    (get16 m off).toNat = (m off).toNat * 256 + (m (off + 1)).toNat := by
  rw [get16, BitVec.toNat_append, ← Nat.shiftLeft_add_eq_or_of_lt (m (off + 1)).isLt,
    Nat.shiftLeft_eq]

theorem get16_congr {m m' : Mem} {off : Nat} (h0 : m off = m' off)
    (h1 : m (off + 1) = m' (off + 1)) : get16 m off = get16 m' off := by
  rw [get16, get16, h0, h1]

theorem bytes_of_get16 {m m' : Mem} {off : Nat} (h : get16 m off = get16 m' off) :
    m off = m' off ∧ m (off + 1) = m' (off + 1) := by
  have hnat := congrArg BitVec.toNat h
  rw [get16_toNat, get16_toNat] at hnat
  have h1 := (m (off + 1)).isLt
  have h1' := (m' (off + 1)).isLt
  constructor
  · apply BitVec.eq_of_toNat_eq
    omega
  · apply BitVec.eq_of_toNat_eq
    omega

theorem get16_of_get32 {m m' : Mem} {off : Nat} (h : get32 m off = get32 m' off) :
    get16 m off = get16 m' off ∧ get16 m (off + 2) = get16 m' (off + 2) := by
  constructor
  · have hhi := congrArg (BitVec.extractLsb' 16 16) h
    simpa only [get32, BitVec.extractLsb'_append_eq_left] using hhi
  · have hlo := congrArg (BitVec.extractLsb' 0 16) h
    simpa only [get32, BitVec.extractLsb'_append_eq_right] using hlo

theorem get16_write_disjoint {m : Mem} {off : Nat} {bs : List Byte} {o : Nat}
    (h : o + 2 ≤ off ∨ off + bs.length ≤ o) : get16 (write m off bs) o = get16 m o :=
  get16_congr (write_outside (by omega)) (write_outside (by omega))

theorem get32_write_disjoint {m : Mem} {off : Nat} {bs : List Byte} {o : Nat}
    (h : o + 4 ≤ off ∨ off + bs.length ≤ o) : get32 (write m off bs) o = get32 m o := by
  rw [get32, get32, get16_write_disjoint (by omega), get16_write_disjoint (by omega)]

@[simp] theorem get16_put16 (m : Mem) (off : Nat) (x : BitVec 16) :
    get16 (put16 m off x) off = x := by
  have h0 : put16 m off x off = x.extractLsb' 8 8 :=
    write_inside m off (i := 0) (by simp)
  have h1 : put16 m off x (off + 1) = x.extractLsb' 0 8 :=
    write_inside m off (i := 1) (by simp)
  rw [get16, h0, h1]
  exact @BitVec.extractLsb'_append_extractLsb' 8 8 x

theorem get16_of_slice {m : Mem} {off : Nat} {x : BitVec 16} (h : slice m off 2 = be16 x) :
    get16 m off = x := by
  have hput : slice (put16 m off x) off 2 = be16 x := slice_write_same m off (be16 x)
  have hagree := (slice_eq_iff _ _ _ _).mp (h.trans hput.symm)
  rw [← get16_put16 m off x]
  exact get16_congr (hagree _ (by omega) (by omega)) (hagree _ (by omega) (by omega))

theorem get32_of_slice {m : Mem} {off : Nat} {x : BitVec 32} (h : slice m off 4 = be32 x) :
    get32 m off = x := by
  obtain ⟨hhi, hlo⟩ := (slice_eq_append_iff m off (be16 _) (be16 _)).mp h
  rw [be16_length] at hlo
  rw [get32, get16_of_slice hhi, get16_of_slice hlo]
  exact @BitVec.extractLsb'_append_extractLsb' 16 16 x

theorem get64_of_slice {m : Mem} {off : Nat} {x : BitVec 64} (h : slice m off 8 = be64 x) :
    get64 m off = x := by
  obtain ⟨hhi, hlo⟩ := (slice_eq_append_iff m off (be32 _) (be32 _)).mp h
  rw [be32_length] at hlo
  rw [get64, get32_of_slice hhi, get32_of_slice hlo]
  exact @BitVec.extractLsb'_append_extractLsb' 32 32 x

theorem put32_eq (m : Mem) (off : Nat) (x : BitVec 32) :
    put32 m off x = put16 (put16 m off (x.extractLsb' 16 16)) (off + 2) (x.extractLsb' 0 16) := by
  funext i
  simp only [put32, put16, write_apply, be32, be16, List.length_append, List.length_cons,
    List.length_nil]
  by_cases h : off ≤ i ∧ i < off + 4
  · obtain ⟨k, rfl⟩ : ∃ k, i = off + k := ⟨i - off, by omega⟩
    have hk : k = 0 ∨ k = 1 ∨ k = 2 ∨ k = 3 := by omega
    rcases hk with rfl | rfl | rfl | rfl <;> simp
  · rw [if_neg (by omega), if_neg (by omega), if_neg (by omega)]

@[simp] theorem get32_put32 (m : Mem) (off : Nat) (x : BitVec 32) :
    get32 (put32 m off x) off = x := by
  rw [get32, put32_eq, get16_put16]
  have hfst : get16 (put16 (put16 m off (x.extractLsb' 16 16)) (off + 2) (x.extractLsb' 0 16)) off
      = x.extractLsb' 16 16 := by
    rw [put16, get16_write_disjoint (by omega), get16_put16]
  rw [hfst]
  exact @BitVec.extractLsb'_append_extractLsb' 16 16 x

theorem put16_get16 (m : Mem) (off : Nat) : put16 m off (get16 m off) = m := by
  funext i
  unfold put16
  by_cases h : off ≤ i ∧ i < off + 2
  · obtain ⟨k, rfl⟩ : ∃ k, i = off + k := ⟨i - off, by omega⟩
    rw [write_inside m off (by simp only [be16_length]; omega)]
    have hk : k = 0 ∨ k = 1 := by omega
    rcases hk with rfl | rfl
    · exact BitVec.extractLsb'_append_eq_left
    · exact BitVec.extractLsb'_append_eq_right
  · exact write_outside (by simp only [be16_length]; omega)

theorem put16_put16 (m : Mem) (off : Nat) (x y : BitVec 16) :
    put16 (put16 m off x) off y = put16 m off y := by
  funext i
  unfold put16
  by_cases h : off ≤ i ∧ i < off + 2
  · obtain ⟨k, rfl⟩ : ∃ k, i = off + k := ⟨i - off, by omega⟩
    have hk : k < (be16 y).length := by simp only [be16_length]; omega
    rw [write_inside _ off hk, write_inside _ off hk]
  · have hout : i < off ∨ off + 2 ≤ i := by omega
    rw [write_outside hout, write_outside hout, write_outside hout]

end ByteMemory
