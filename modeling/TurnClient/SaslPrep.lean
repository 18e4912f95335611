import TurnClient.ErrorResponses
import TurnClient.StringLoops

/-!
# Preparing passwords

`SASLprep` goes through a string with two positions, one that reads and one that
writes behind it, and gives up at the first control character it knows. The
range of the low ones ends a character early.
-/

namespace TurnClient

open ByteMemory StringLoops
set_option autoImplicit false

/-- The loop of `SASLprep`; `none` when the end of the string was not reached in so many turns. -/
def saslprepLoop : Nat → Mem → Nat → Nat → Option (Int × Mem)
  | 0, _, _, _ => none
  | fuel + 1, s, strin, strout =>
    let c := s strin
    if c = 0 then some (0, write s strout [0])
    else if c = 0xAD then saslprepLoop fuel s (strin + 1) strout
    else if c = 0xA0 ∨ c = 0x20 then
      saslprepLoop fuel (write s strout [0x20]) (strin + 1) (strout + 1)
    else if c = 0x7F then some (-1, s)
    else if c < 0x1F then some (-1, s)
    else if 0x80 ≤ c ∧ c ≤ 0x9F then some (-1, s)
    else saslprepLoop fuel (write s strout [c]) (strin + 1) (strout + 1)

def saslprep (fuel : Nat) (s : Mem) : Option (Int × Mem) := saslprepLoop fuel s 0 0

def spaced (b : Byte) : Byte := if b = 0xA0 then 0x20 else b

/-- What becomes of a string: 0xAD is left out and 0xA0 is a space. -/
def prepared (bs : List Byte) : List Byte := (bs.filter fun b => b ≠ 0xAD).map spaced

/-- The control characters, of one byte and of the second half of the table. -/
def Prohibited (b : Byte) : Prop :=
  (0x01 ≤ b ∧ b ≤ 0x1F) ∨ b = 0x7F ∨ (0x80 ≤ b ∧ b ≤ 0x9F)

/-- The same without 0x1F. -/
def Rejected (b : Byte) : Prop :=
  (0x01 ≤ b ∧ b ≤ 0x1E) ∨ b = 0x7F ∨ (0x80 ≤ b ∧ b ≤ 0x9F)

instance (b : Byte) : Decidable (Prohibited b) := inferInstanceAs (Decidable (_ ∨ _))

instance (b : Byte) : Decidable (Rejected b) := inferInstanceAs (Decidable (_ ∨ _))

theorem prohibited_iff (b : Byte) : Prohibited b ↔ Rejected b ∨ b = 0x1F := by
  revert b
  decide +kernel

/-! ## The loop -/

theorem prepared_cons (b : Byte) (bs : List Byte) :
    prepared (b :: bs) = if b = 0xAD then prepared bs else spaced b :: prepared bs := by
  unfold prepared
  by_cases h : b = 0xAD
  · rw [if_pos h, List.filter_cons_of_neg (by simpa using h)]
  · rw [if_neg h, List.filter_cons_of_pos (by simpa using h), List.map_cons]

theorem rejected_cases {b : Byte} (hzero : b ≠ 0) (hshy : b ≠ 0xAD)
    (hspace : ¬ (b = 0xA0 ∨ b = 0x20)) :
    Rejected b ↔ b = 0x7F ∨ b < 0x1F ∨ (0x80 ≤ b ∧ b ≤ 0x9F) := by
  revert b
  decide +kernel

/-- One turn of the loop, in front of the end of the string. -/
theorem saslprepLoop_succ {s : Mem} {strin : Nat} {b : Byte} (hb : s strin = b) (hzero : b ≠ 0)
    (fuel strout : Nat) :
    saslprepLoop (fuel + 1) s strin strout =
      if b = 0xAD then saslprepLoop fuel s (strin + 1) strout
      else if Rejected b then some (-1, s)
      else saslprepLoop fuel (write s strout [spaced b]) (strin + 1) (strout + 1) := by
  rw [saslprepLoop, hb]
  simp only [hzero, if_false]
  by_cases hshy : b = 0xAD
  · rw [if_pos hshy, if_pos hshy]
  rw [if_neg hshy, if_neg hshy]
  by_cases hspace : b = 0xA0 ∨ b = 0x20
  · rw [if_pos hspace]
    rcases hspace with rfl | rfl <;> rfl
  have hA0 : spaced b = b := if_neg fun h => hspace (.inl h)
  have hcases := rejected_cases hzero hshy hspace
  rw [if_neg hspace, hA0]
  by_cases hrejected : Rejected b
  · rw [if_pos hrejected]
    rcases hcases.mp hrejected with h7F | hlow | hhigh
    · rw [if_pos h7F]
    · rw [if_pos hlow]
      exact ite_self _
    · rw [if_pos hhigh, ite_self, ite_self]
  · rw [hcases] at hrejected
    have hnot := not_or.mp hrejected
    rw [if_neg hnot.1, if_neg (not_or.mp hnot.2).1, if_neg (not_or.mp hnot.2).2,
      if_neg (mt hcases.mp hrejected)]

theorem saslprepLoop_accepts {s : Mem} {strin strout : Nat} {bs : List Byte}
    (h : StringAt s strin bs) (hnz : ∀ b ∈ bs, b ≠ 0) (hnone : ∀ b ∈ bs, ¬ Rejected b)
    (hbehind : strout ≤ strin) {fuel : Nat} (hfuel : bs.length < fuel) :
    saslprepLoop fuel s strin strout = some (0, write s strout (prepared bs ++ [0])) := by
  induction bs generalizing s strin strout fuel with
  | nil =>
    obtain ⟨fuel, rfl⟩ := Nat.exists_eq_add_of_lt hfuel
    have hend := stringAt_nil.mp h
    simp [saslprepLoop, hend, prepared]
  | cons b bs ih =>
    obtain ⟨fuel, rfl⟩ := Nat.exists_eq_add_of_lt hfuel
    obtain ⟨hb, hrest⟩ := stringAt_cons.mp h
    have hnz' : ∀ c ∈ bs, c ≠ 0 := fun c hc => hnz c (List.mem_cons_of_mem b hc)
    have hnone' : ∀ c ∈ bs, ¬ Rejected c := fun c hc => hnone c (List.mem_cons_of_mem b hc)
    have hlen : bs.length < (b :: bs).length + fuel := by
      rw [List.length_cons]
      omega
    rw [saslprepLoop_succ hb (hnz b List.mem_cons_self), prepared_cons]
    by_cases hshy : b = 0xAD
    · rw [if_pos hshy, if_pos hshy]
      exact ih hrest hnz' hnone' (Nat.le_succ_of_le hbehind) hlen
    · -- the byte is written in front of what is still to be read
      rw [if_neg hshy, if_neg hshy, if_neg (hnone b List.mem_cons_self),
        ih (hrest.write_before (Nat.lt_succ_of_le hbehind) _) hnz' hnone'
          (Nat.succ_le_succ hbehind) hlen]
      exact congrArg (fun m => some (0, m)) (write_append s strout [spaced b] (prepared bs ++ [0]))

theorem saslprepLoop_refuses {s : Mem} {strin strout : Nat} {bs : List Byte}
    (h : StringAt s strin bs) (hnz : ∀ b ∈ bs, b ≠ 0) (hsome : ∃ b ∈ bs, Rejected b)
    (hbehind : strout ≤ strin) {fuel : Nat} (hfuel : bs.length < fuel) :
    ∃ s', saslprepLoop fuel s strin strout = some (-1, s') := by
  induction bs generalizing s strin strout fuel with
  | nil =>
    obtain ⟨b, hb, _⟩ := hsome
    cases hb
  | cons b bs ih =>
    obtain ⟨fuel, rfl⟩ := Nat.exists_eq_add_of_lt hfuel
    obtain ⟨hb, hrest⟩ := stringAt_cons.mp h
    have hnz' : ∀ c ∈ bs, c ≠ 0 := fun c hc => hnz c (List.mem_cons_of_mem b hc)
    have hlen : bs.length < (b :: bs).length + fuel := by
      rw [List.length_cons]
      omega
    have hlater : ¬ Rejected b → ∃ c ∈ bs, Rejected c := by
      intro hgood
      obtain ⟨c, hc, hrejected⟩ := hsome
      rcases List.mem_cons.mp hc with rfl | hc
      · exact absurd hrejected hgood
      · exact ⟨c, hc, hrejected⟩
    rw [saslprepLoop_succ hb (hnz b List.mem_cons_self)]
    by_cases hshy : b = 0xAD
    · rw [if_pos hshy]
      apply ih hrest hnz' (hlater ?_) (Nat.le_succ_of_le hbehind) hlen
      rw [hshy]
      decide
    · rw [if_neg hshy]
      by_cases hrejected : Rejected b
      · exact ⟨s, if_pos hrejected⟩
      · rw [if_neg hrejected]
        exact ih (hrest.write_before (Nat.lt_succ_of_le hbehind) _) hnz' (hlater hrejected)
          (Nat.succ_le_succ hbehind) hlen

/-! ## The filter -/

theorem mem_prepared {bs : List Byte} {b : Byte} (h : b ∈ prepared bs) :
    b ≠ 0xAD ∧ b ≠ 0xA0 ∧ (b = 0x20 ∨ b ∈ bs) := by
  obtain ⟨c, hc, rfl⟩ := List.mem_map.mp h
  obtain ⟨hmem, hshy⟩ := List.mem_filter.mp hc
  have hne : c ≠ 0xAD := by simpa using hshy
  unfold spaced
  split
  · exact ⟨by decide, by decide, .inl rfl⟩
  · rename_i hA0
    exact ⟨hne, hA0, .inr hmem⟩

/-- A prepared string stays as it is. -/
theorem prepared_prepared (bs : List Byte) : prepared (prepared bs) = prepared bs := by
  have hkeep : (prepared bs).filter (fun b => b ≠ 0xAD) = prepared bs := by
    apply List.filter_eq_self.mpr
    intro b hb
    simpa using (mem_prepared hb).1
  rw [prepared.eq_1 (prepared bs), hkeep]
  calc (prepared bs).map spaced = (prepared bs).map id :=
        List.map_congr_left fun b hb => if_neg (mem_prepared hb).2.1
    _ = prepared bs := List.map_id _

theorem prepared_length_le (bs : List Byte) : (prepared bs).length ≤ bs.length := by
  unfold prepared
  rw [List.length_map]
  exact List.length_filter_le _ _

/-- What holds of a string whose characters all pass holds of the prepared one. -/
theorem forall_mem_prepared {P : Byte → Prop} {bs : List Byte} (hspace : P 0x20)
    (h : ∀ b ∈ bs, P b) : ∀ b ∈ prepared bs, P b := by
  intro b hb
  rcases (mem_prepared hb).2.2 with rfl | hmem
  · exact hspace
  · exact h b hmem

theorem saslprep_accepts {s : Mem} {bs : List Byte} (h : StringAt s 0 bs) (hnz : ∀ b ∈ bs, b ≠ 0)
    (hnone : ∀ b ∈ bs, ¬ Rejected b) {fuel : Nat} (hfuel : bs.length < fuel) :
    saslprep fuel s = some (0, write s 0 (prepared bs ++ [0])) :=
  saslprepLoop_accepts h hnz hnone (Nat.le_refl 0) hfuel

/-- A second call leaves a prepared string as it is. -/
theorem saslprep_prepared {s : Mem} {bs : List Byte} (h : StringAt s 0 (prepared bs))
    (hnz : ∀ b ∈ bs, b ≠ 0) (hnone : ∀ b ∈ bs, ¬ Rejected b) {fuel : Nat}
    (hfuel : bs.length < fuel) : saslprep fuel s = some (0, s) := by
  have hagain := saslprep_accepts h (forall_mem_prepared (by decide) hnz)
    (forall_mem_prepared (by decide) hnone)
    (Nat.lt_of_le_of_lt (prepared_length_le bs) hfuel)
  rwa [prepared_prepared, (write_eq_self_iff _ _ _).mpr h] at hagain

/-- What is promised: 0 exactly without a prohibited character, and then the filtered string, which
a second call leaves alone. -/
def SaslprepFilters (s : Mem) (bs : List Byte) : Prop :=
  ∀ fuel, bs.length < fuel → ∃ ret s', saslprep fuel s = some (ret, s') ∧
    (ret = 0 ↔ ∀ b ∈ bs, ¬ Prohibited b) ∧
    (ret = 0 → StringAt s' 0 (prepared bs) ∧ saslprep fuel s' = some (0, s'))

theorem saslprepFilters_of_rejected {s : Mem} {bs : List Byte} (h : StringAt s 0 bs)
    (hnz : ∀ b ∈ bs, b ≠ 0) (hrejected : ∃ b ∈ bs, Rejected b) : SaslprepFilters s bs := by
  intro fuel hfuel
  obtain ⟨s', hs'⟩ := saslprepLoop_refuses h hnz hrejected (Nat.le_refl 0) hfuel
  refine ⟨-1, s', hs', ?_, ?_⟩
  · refine iff_of_false (by decide) ?_
    obtain ⟨b, hb, hrej⟩ := hrejected
    exact fun hnone => hnone b hb ((prohibited_iff b).mpr (.inl hrej))
  · intro hzero
    cases hzero

theorem saslprepFilters_of_free {s : Mem} {bs : List Byte} (h : StringAt s 0 bs)
    (hnz : ∀ b ∈ bs, b ≠ 0) (hnone : ∀ b ∈ bs, ¬ Rejected b) (hfree : 0x1F ∉ bs) :
    SaslprepFilters s bs := by
  intro fuel hfuel
  have hstring : StringAt (write s 0 (prepared bs ++ [0])) 0 (prepared bs) :=
    slice_write_same s 0 _
  refine ⟨0, _, saslprep_accepts h hnz hnone hfuel, ?_, ?_⟩
  · refine iff_of_true rfl ?_
    intro b hb hprohibited
    rcases (prohibited_iff b).mp hprohibited with hrej | rfl
    · exact hnone b hb hrej
    · exact hfree hb
  · exact fun _ => ⟨hstring, saslprep_prepared hstring hnz hnone hfuel⟩

theorem saslprep_filters_iff {s : Mem} {bs : List Byte} (h : StringAt s 0 bs)
    (hnz : ∀ b ∈ bs, b ≠ 0) :
    SaslprepFilters s bs ↔ 0x1F ∉ bs ∨ ∃ b ∈ bs, Rejected b := by
  by_cases hrejected : ∃ b ∈ bs, Rejected b
  · exact iff_of_true (saslprepFilters_of_rejected h hnz hrejected) (.inr hrejected)
  have hnone : ∀ b ∈ bs, ¬ Rejected b := fun b hb hrej => hrejected ⟨b, hb, hrej⟩
  rw [or_iff_left hrejected]
  constructor
  · intro hfilters hmem
    have hfuel := Nat.lt_succ_self bs.length
    obtain ⟨ret, s', hs', hret, _⟩ := hfilters (bs.length + 1) hfuel
    rw [saslprep_accepts h hnz hnone hfuel] at hs'
    cases hs'
    exact hret.mp rfl 0x1F hmem (by decide)
  · exact saslprepFilters_of_free h hnz hnone

/-- A no-break space becomes a space and a soft hyphen is left out. -/
theorem softHyphen_filtered :
    SaslprepFilters (ofList [0x61, 0xA0, 0xAD, 0x62, 0]) [0x61, 0xA0, 0xAD, 0x62] :=
  (saslprep_filters_iff (slice_ofList _) (by decide)).mpr (.inl (by decide))

theorem unitSeparator_accepted :
    StringAt (ofList [0x61, 0x1F, 0]) 0 [0x61, 0x1F] ∧ Prohibited 0x1F ∧
      (saslprep 3 (ofList [0x61, 0x1F, 0])).map Prod.fst = some 0 ∧
      ¬ SaslprepFilters (ofList [0x61, 0x1F, 0]) [0x61, 0x1F] := by
  have hzero : (saslprep 3 (ofList [0x61, 0x1F, 0])).map Prod.fst = some 0 := by decide
  refine ⟨slice_ofList _, by decide, hzero, fun hfilters => ?_⟩
  obtain ⟨ret, s', hs', hret, _⟩ := hfilters 3 (by decide)
  rw [hs'] at hzero
  have hprohibited := hret.mp (Option.some.inj hzero) 0x1F (by simp)
  exact hprohibited (by decide)

end TurnClient
