import TurnClient.Datagrams
import TurnClient.Fingerprint
import TurnClient.NsCrc32

/-!
# Damage on the way

What the check of `stun_is_command_message_full_check_str` says of a message
that was right when it was sent and arrives with damaged bits. The bits of a
byte are counted from the lowest, the order in which the CRC takes them; a
burst is any damage between one bit and the thirty-first behind it.
-/

namespace TurnClient

open ByteMemory
set_option autoImplicit false

def bitAt (buf : Mem) (j : Nat) : Bool := (buf (j / 8)).getLsbD (j % 8)

/-- Of the first `8 * n` bits at most those from `i` to `i + 31` differ. -/
def BurstAt (i n : Nat) (buf buf' : Mem) : Prop :=
  ∀ j, j < 8 * n → j < i ∨ i + 32 ≤ j → bitAt buf j = bitAt buf' j

theorem bitAt_byte (buf : Mem) (a : Nat) {k : Nat} (hk : k < 8) :
    bitAt buf (8 * a + k) = (buf a).getLsbD k := by
  unfold bitAt
  rw [show (8 * a + k) / 8 = a by omega, show (8 * a + k) % 8 = k by omega]

theorem byte_eq_of_bits {buf buf' : Mem} {a : Nat}
    (h : ∀ k, k < 8 → bitAt buf (8 * a + k) = bitAt buf' (8 * a + k)) : buf a = buf' a := by
  apply BitVec.eq_of_getLsbD_eq
  intro k hk
  have hbit := h k hk
  rwa [bitAt_byte buf a hk, bitAt_byte buf' a hk] at hbit

/-- The bits the CRC takes, in their order. -/
theorem bits_slice (buf : Mem) (n : Nat) :
    (slice buf 0 n).flatMap ReflectedCrc.bitsOf = (List.range (8 * n)).map (bitAt buf) := by
  induction n with
  | zero => rfl
  | succ n ih =>
    have hlast : slice buf (0 + n) 1 = [buf n] := by
      simp [slice]
    rw [slice_append, hlast, List.flatMap_append, ih, Nat.mul_succ, List.range_add, List.map_append,
      List.flatMap_cons, List.flatMap_nil, List.append_nil, List.map_map]
    congr 1
    apply List.map_congr_left
    intro k hk
    exact (bitAt_byte buf n (List.mem_range.mp hk)).symm

namespace BurstAt
variable {i n : Nat} {buf buf' : Mem}

/-- Bytes that the burst does not reach. -/
theorem byte_eq (h : BurstAt i n buf buf') {a : Nat} (ha : a < n)
    (hout : 8 * a + 8 ≤ i ∨ i + 32 ≤ 8 * a) : buf a = buf' a := by
  apply byte_eq_of_bits
  intro k hk
  exact h (8 * a + k) (by omega) (by omega)

theorem shorter (h : BurstAt i n buf buf') {k : Nat} (hk : k ≤ n) : BurstAt i k buf buf' := by
  intro j hj hout
  exact h j (by omega) hout

/-- No burst is lost on the CRC. -/
theorem nsCrc32_inj (h : BurstAt i n buf buf') :
    nsCrc32 (slice buf 0 n) = nsCrc32 (slice buf' 0 n) ↔ slice buf 0 n = slice buf' 0 n := by
  have hpoly : crcpoly.getLsbD (32 - 1) = true := by decide
  rw [nsCrc32_eq_serialCrc32, nsCrc32_eq_serialCrc32, serialCrc32, serialCrc32, BitVec.not_inj]
  apply ReflectedCrc.register_burst_inj hpoly _ (by rw [slice_length, slice_length]) i
  · rw [bits_slice, bits_slice, ← List.map_take, ← List.map_take]
    apply List.map_congr_left
    intro j hj
    rw [List.take_range, List.mem_range] at hj
    exact h j (by omega) (Or.inl (by omega))
  · rw [bits_slice, bits_slice, ← List.map_drop, ← List.map_drop]
    apply List.map_congr_left
    intro j hj
    obtain ⟨k, hk, hjk⟩ := List.getElem_of_mem hj
    rw [List.getElem_drop, List.getElem_range] at hjk
    rw [List.length_drop, List.length_range] at hk
    exact h j (by omega) (Or.inr (by omega))

end BurstAt

/-- What the full check looks at when the first FINGERPRINT of a message is at `sar`. -/
theorem fullCheck_iff {buf : Mem} {len sar : Nat} {mustCheckFingerprint : Bool}
    {fingerprintPresent : Option Int}
    (hsar : stunAttrGetFirstByTypeStr buf len stunAttributeFingerprint = some sar) :
    (stunIsCommandMessageFullCheckStr buf len mustCheckFingerprint fingerprintPresent).1 = true ↔
      stunIsCommandMessageStr buf len = true ∧ (get16 buf (sar + 2)).toNat = 4 ∧
        get32 buf (sar + 4) = nsCrc32 (slice buf 0 sar) ^^^ 0x5354554E := by
  unfold stunIsCommandMessageFullCheckStr
  cases hcmd : stunIsCommandMessageStr buf len with
  | false => simp
  | true =>
    simp only [hsar, Bool.not_true, Bool.false_eq_true, if_false, Option.isNone_some,
      stunAttrGetLen_some, stunAttrGetValue_some]
    by_cases hfour : (get16 buf (sar + 2)).toNat = 4
    · simp [hfour]
    · have hint : ¬ ((get16 buf (sar + 2)).toNat : Int) = 4 := by omega
      simp [hfour, hint]

theorem bytes_of_get32 {m m' : Mem} {off : Nat} (h : get32 m off = get32 m' off) :
    slice m off 4 = slice m' off 4 := by
  obtain ⟨hhi, hlo⟩ := get16_of_get32 h
  obtain ⟨h0, h1⟩ := bytes_of_get16 hhi
  obtain ⟨h2, h3⟩ := bytes_of_get16 hlo
  apply (slice_eq_iff _ _ _ _).mpr
  intro j hlow hhigh
  obtain rfl | rfl | rfl | rfl : j = off ∨ j = off + 1 ∨ j = off + 2 ∨ j = off + 2 + 1 := by omega
  · exact h0
  · exact h1
  · exact h2
  · exact h3

/-- The burst is in front of the value of the attribute or behind the bytes the CRC is taken of;
either way one side of the comparison is not damaged. -/
theorem BurstAt.front_and_value {i sar len : Nat} {buf buf' : Mem} (h : BurstAt i len buf buf')
    (hlen : sar + 8 ≤ len) (hcrc : get32 buf (sar + 4) = nsCrc32 (slice buf 0 sar) ^^^ 0x5354554E)
    (hcrc' : get32 buf' (sar + 4) = nsCrc32 (slice buf' 0 sar) ^^^ 0x5354554E) :
    slice buf 0 sar = slice buf' 0 sar ∧ get32 buf (sar + 4) = get32 buf' (sar + 4) := by
  by_cases hfront : i + 32 ≤ 8 * (sar + 4)
  · have hvalue : get32 buf (sar + 4) = get32 buf' (sar + 4) := by
      have hbyte : ∀ a, sar + 4 ≤ a → a < sar + 8 → buf a = buf' a := by
        intro a hlow hhigh
        exact h.byte_eq (by omega) (Or.inr (by omega))
      rw [get32, get32, get16_congr (hbyte _ (by omega) (by omega)) (hbyte _ (by omega) (by omega)),
        get16_congr (hbyte _ (by omega) (by omega)) (hbyte _ (by omega) (by omega))]
    refine ⟨?_, hvalue⟩
    rw [hcrc, hcrc', BitVec.xor_left_inj] at hvalue
    exact (h.shorter (by omega)).nsCrc32_inj.mp hvalue
  · have hslice : slice buf 0 sar = slice buf' 0 sar := by
      apply (slice_eq_iff _ _ _ _).mpr
      intro a _ ha
      exact h.byte_eq (by omega) (Or.inl (by omega))
    refine ⟨hslice, ?_⟩
    rw [hcrc, hcrc', hslice]

/-- An attribute with a value of four bytes lies in the message. -/
theorem four_behind {buf : Mem} {len a : Nat} (h : a ∈ attrRefs buf len)
    (hfour : (get16 buf (a + 2)).toNat = 4) : 20 ≤ a ∧ a + 8 ≤ len := by
  obtain ⟨h20, hend, hle⟩ := inMessage_of_mem h
  rw [hfour] at hend
  have hpad : Tlv.pad4 4 = 4 := rfl
  exact ⟨h20, by omega⟩

/-- Two messages that pass and are one burst apart do not differ up to the end of the attribute. -/
theorem agreeBelow_of_passes {buf buf' : Mem} {len sar i : Nat} {must must' : Bool}
    {present present' : Option Int}
    (hpass : (stunIsCommandMessageFullCheckStr buf len must present).1 = true)
    (hpass' : (stunIsCommandMessageFullCheckStr buf' len must' present').1 = true)
    (hsar : stunAttrGetFirstByTypeStr buf len stunAttributeFingerprint = some sar)
    (hsar' : stunAttrGetFirstByTypeStr buf' len stunAttributeFingerprint = some sar)
    (hburst : BurstAt i len buf buf') : AgreeBelow (sar + 8) buf buf' := by
  obtain ⟨_, hfour, hcrc⟩ := (fullCheck_iff hsar).mp hpass
  obtain ⟨_, hfour', hcrc'⟩ := (fullCheck_iff hsar').mp hpass'
  obtain ⟨hmem, htype⟩ := stunAttrGetFirstByTypeStr_some hsar
  obtain ⟨_, htype'⟩ := stunAttrGetFirstByTypeStr_some hsar'
  have hend := four_behind hmem hfour
  obtain ⟨hfront, hvalue⟩ := hburst.front_and_value hend.2 hcrc hcrc'
  obtain ⟨h0, h1⟩ := bytes_of_get16 (htype.trans htype'.symm)
  obtain ⟨h2, h3⟩ := bytes_of_get16 (BitVec.eq_of_toNat_eq (hfour.trans hfour'.symm))
  intro j hj
  by_cases hbefore : j < sar
  · exact (slice_eq_iff _ _ _ _).mp hfront j (by omega) (by omega)
  by_cases hbehind : sar + 4 ≤ j
  · exact (slice_eq_iff _ _ _ _).mp (bytes_of_get32 hvalue) j hbehind (by omega)
  obtain rfl | rfl | rfl | rfl : j = sar ∨ j = sar + 1 ∨ j = sar + 2 ∨ j = sar + 2 + 1 := by
    omega
  · exact h0
  · exact h1
  · exact h2
  · exact h3

/-- A message that passes the full check and is damaged in one burst that leaves its FINGERPRINT
where it is passes again just in case no byte up to the end of the attribute is damaged. -/
theorem burst_passes_iff {buf buf' : Mem} {len sar i : Nat} {must must' : Bool}
    {present present' : Option Int}
    (hpass : (stunIsCommandMessageFullCheckStr buf len must present).1 = true)
    (hsar : stunAttrGetFirstByTypeStr buf len stunAttributeFingerprint = some sar)
    (hburst : BurstAt i len buf buf')
    (hsar' : stunAttrGetFirstByTypeStr buf' len stunAttributeFingerprint = some sar) :
    (stunIsCommandMessageFullCheckStr buf' len must' present').1 = true ↔
      AgreeBelow (sar + 8) buf buf' := by
  constructor
  · intro hpass'
    exact agreeBelow_of_passes hpass hpass' hsar hsar' hburst
  · intro hagree
    obtain ⟨hcmd, hfour, hcrc⟩ := (fullCheck_iff hsar).mp hpass
    obtain ⟨h20, _⟩ := four_behind (stunAttrGetFirstByTypeStr_some hsar).1 hfour
    apply (fullCheck_iff hsar').mpr
    rw [← hagree.get16 (by omega), ← hagree.get32 (by omega), ← hagree.slice (by omega)]
    refine ⟨?_, hfour, hcrc⟩
    -- the header is all the first test reads, and the length it is given is the same
    have hheader : stunIsCommandMessageStr buf' len = stunIsCommandMessageStr buf len := by
      unfold stunIsCommandMessageStr
      rw [hagree.get16 (by omega), hagree.get16 (by omega), hagree.get32 (by omega),
        hagree 0 (by omega)]
    rw [hheader, hcmd]

/-- A Binding indication with its fingerprint. -/
def checkedIndication : Mem :=
  ofList [0x00, 0x11, 0x00, 0x08, 0x21, 0x12, 0xA4, 0x42, 1, 2, 3, 4, 5, 6, 7, 8, 9, 10, 11, 12,
    0x80, 0x28, 0x00, 0x04, 0x48, 0x62, 0xC2, 0xC6]

/-- The same with damage from the last bit of the eighth byte of the transaction id on. -/
def damagedIndication : Mem :=
  ofList [0x00, 0x11, 0x00, 0x08, 0x21, 0x12, 0xA4, 0x42, 1, 2, 3, 4, 5, 6, 7, 0x88, 0xF6, 10, 11,
    0x0D, 0x80, 0x28, 0x00, 0x04, 0x48, 0x62, 0xC2, 0xC6]

theorem damagedIndication_refused :
    ¬ (stunIsCommandMessageFullCheckStr damagedIndication 28 true none).1 = true := by
  have hburst : BurstAt 127 28 checkedIndication damagedIndication := by
    unfold BurstAt
    decide +kernel
  have hiff := @burst_passes_iff checkedIndication damagedIndication 28 20 127 true true none none
    (by decide +kernel) (by decide +kernel) hburst (by decide +kernel)
  intro hpass
  have hbyte := hiff.mp hpass 15 (by decide)
  revert hbyte
  decide

/-! ## Damage between the headers -/

section Heads
variable {buf buf' : Mem} {len sar : Nat}

theorem get16_of_head {a : Nat} (h : slice buf a 4 = slice buf' a 4) :
    get16 buf a = get16 buf' a ∧ get16 buf (a + 2) = get16 buf' (a + 2) := by
  have hbyte := (slice_eq_iff _ _ _ _).mp h
  constructor
  · exact get16_congr (hbyte _ (by omega) (by omega)) (hbyte _ (by omega) (by omega))
  · exact get16_congr (hbyte _ (by omega) (by omega)) (hbyte _ (by omega) (by omega))

theorem checkValid_of_head {a b remaining : Nat} (h : stunAttrCheckValid buf a remaining = some b)
    (hhead : slice buf b 4 = slice buf' b 4) : stunAttrCheckValid buf' a remaining = some b := by
  obtain ⟨rfl, _⟩ := stunAttrCheckValid_eq_some h
  rw [stunAttrCheckValid, ← (get16_of_head hhead).2]
  exact h

theorem commandLen_of_field (hlen : get16 buf 2 = get16 buf' 2) :
    stunGetCommandMessageLenStr buf' len = stunGetCommandMessageLenStr buf len := by
  unfold stunGetCommandMessageLenStr
  rw [hlen]

theorem first_of_head (hlen : get16 buf 2 = get16 buf' 2) {a : Nat}
    (h : stunAttrGetFirstStr buf len = some a) (hhead : slice buf a 4 = slice buf' a 4) :
    stunAttrGetFirstStr buf' len = some a := by
  simp only [stunAttrGetFirstStr, commandLen_of_field hlen] at h ⊢
  split at h
  · rename_i hroom
    rw [if_pos hroom]
    exact checkValid_of_head h hhead
  · cases h

theorem next_of_head (hlen : get16 buf 2 = get16 buf' 2) {a b : Nat}
    (hprev : slice buf a 4 = slice buf' a 4) (h : stunAttrGetNextStr buf len (some a) = some b)
    (hhead : slice buf b 4 = slice buf' b 4) : stunAttrGetNextStr buf' len (some a) = some b := by
  simp only [stunAttrGetNextStr, commandLen_of_field hlen, ← (get16_of_head hprev).2] at h ⊢
  split at h
  · rename_i hroom
    rw [if_pos hroom]
    exact checkValid_of_head h hhead
  · cases h

/-- The walk to the first attribute of a type reads the headers of the attributes, nothing else. -/
theorem attrScan_of_heads (hlen : get16 buf 2 = get16 buf' 2) (t : BitVec 16) (fuel : Nat)
    (r : Option Nat)
    (hheads : ∀ a ∈ attrRefsFrom buf len fuel r, slice buf a 4 = slice buf' a 4)
    (h : attrScan buf len (fun a => stunAttrGetType buf (some a) == (t.toNat : Int)) fuel r =
      some sar) :
    attrScan buf' len (fun a => stunAttrGetType buf' (some a) == (t.toNat : Int)) fuel r =
      some sar := by
  induction fuel generalizing r with
  | zero => cases r <;> cases h
  | succ fuel ih =>
    cases r with
    | none => cases h
    | some a =>
      have hhead := hheads a (List.mem_cons_self ..)
      have htype : stunAttrGetType buf' (some a) = stunAttrGetType buf (some a) := by
        rw [stunAttrGetType, stunAttrGetType, (get16_of_head hhead).1]
      have hrest : ∀ b ∈ attrRefsFrom buf len fuel (stunAttrGetNextStr buf len (some a)),
          slice buf b 4 = slice buf' b 4 := by
        intro b hb
        exact hheads b (List.mem_cons_of_mem a hb)
      rw [attrScan] at h ⊢
      rw [htype]
      split at h
      · rename_i hfound
        rw [if_pos hfound]
        exact h
      · -- the scan goes on, so there is a next attribute
        rename_i hother
        rw [if_neg hother]
        cases hnext : stunAttrGetNextStr buf len (some a) with
        | none =>
          rw [hnext] at h
          cases fuel <;> cases h
        | some b =>
          rw [hnext] at h hrest
          have hb : slice buf b 4 = slice buf' b 4 := by
            cases fuel with
            | zero => cases h
            | succ fuel => exact hrest b (List.mem_cons_self ..)
          rw [next_of_head hlen hhead hnext hb]
          exact ih (some b) hrest h

theorem firstByType_of_heads (hlen : get16 buf 2 = get16 buf' 2)
    (hheads : ∀ a ∈ attrRefs buf len, slice buf a 4 = slice buf' a 4) {t : BitVec 16}
    (h : stunAttrGetFirstByTypeStr buf len t = some sar) :
    stunAttrGetFirstByTypeStr buf' len t = some sar := by
  unfold stunAttrGetFirstByTypeStr at h ⊢
  cases hfirst : stunAttrGetFirstStr buf len with
  | none =>
    rw [hfirst] at h
    cases len <;> cases h
  | some a =>
    have hmem : a ∈ attrRefs buf len := by
      rw [attrRefs, hfirst]
      cases len with
      | zero => rw [hfirst] at h; cases h
      | succ len => exact List.mem_cons_self ..
    rw [first_of_head hlen hfirst (hheads a hmem), ← hfirst]
    exact attrScan_of_heads hlen t len _ hheads h

end Heads

/-- A burst in the transaction id or among the values of the attributes is always noticed. -/
theorem damaged_values_refused {buf buf' : Mem} {len sar i : Nat} {must must' : Bool}
    {present present' : Option Int}
    (hpass : (stunIsCommandMessageFullCheckStr buf len must present).1 = true)
    (hsar : stunAttrGetFirstByTypeStr buf len stunAttributeFingerprint = some sar)
    (hburst : BurstAt i len buf buf') (hlen : get16 buf 2 = get16 buf' 2)
    (hheads : ∀ a ∈ attrRefs buf len, slice buf a 4 = slice buf' a 4)
    (hdamaged : ∃ j, j < sar + 8 ∧ buf j ≠ buf' j) :
    (stunIsCommandMessageFullCheckStr buf' len must' present').1 = false := by
  have hsar' := firstByType_of_heads hlen hheads hsar
  apply Bool.eq_false_iff.mpr
  intro hpass'
  obtain ⟨j, hj, hne⟩ := hdamaged
  exact hne (agreeBelow_of_passes hpass hpass' hsar hsar' hburst j hj)

end TurnClient
