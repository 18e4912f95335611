import Mathlib.Data.List.Basic

/-!
# Bytes as digits of base 64

Three bytes are four digits of six bits. An alphabet names the digits; a last
group of one or two bytes is filled up with padding. The reader here takes any
text: what it does with characters outside the alphabet is up to the alphabet.
A text is canonical when the bits that no byte takes are zero.
-/

namespace Radix64

set_option autoImplicit false

/-- Characters for the digits below 64, what a reader takes each character for, and the padding. -/
structure Alphabet (α : Type) where
  char : Nat → α
  digit : α → Nat
  pad : α
  digit_char : ∀ i < 64, digit (char i) = i
  digit_lt : ∀ c, digit c < 64
  digit_pad : digit pad = 0
  char_ne_pad : ∀ i < 64, char i ≠ pad

variable {α : Type} (A : Alphabet α)

/-- The characters that stand for a digit. -/
def Alphabet.Member (c : α) : Prop := A.char (A.digit c) = c

theorem Alphabet.member_char {i : Nat} (hi : i < 64) : A.Member (A.char i) := by
  rw [Alphabet.Member, A.digit_char i hi]

/-! ## Groups -/

def group (a b c : BitVec 8) : List α :=
  [A.char (a.toNat / 4), A.char (a.toNat % 4 * 16 + b.toNat / 16),
    A.char (b.toNat % 16 * 4 + c.toNat / 64), A.char (c.toNat % 64)]

def ungroup (w x y z : α) : List (BitVec 8) :=
  [BitVec.ofNat 8 (A.digit w * 4 + A.digit x / 16),
    BitVec.ofNat 8 (A.digit x % 16 * 16 + A.digit y / 4),
    BitVec.ofNat 8 (A.digit y % 4 * 64 + A.digit z)]

@[simp] theorem group_length (a b c : BitVec 8) : (group A a b c).length = 4 := rfl

@[simp] theorem ungroup_length (w x y z : α) : (ungroup A w x y z).length = 3 := rfl

/-- The digits of three bytes, whatever characters stand for them. -/
theorem ungroup_of_digits {a b c : BitVec 8} {w x y z : α} (hw : A.digit w = a.toNat / 4)
    (hx : A.digit x = a.toNat % 4 * 16 + b.toNat / 16)
    (hy : A.digit y = b.toNat % 16 * 4 + c.toNat / 64) (hz : A.digit z = c.toNat % 64) :
    ungroup A w x y z = [a, b, c] := by
  have ha := a.isLt
  have hb := b.isLt
  have hc := c.isLt
  have h1 : BitVec.ofNat 8 (A.digit w * 4 + A.digit x / 16) = a := by
    apply BitVec.eq_of_toNat_eq
    rw [BitVec.toNat_ofNat, hw, hx]
    omega
  have h2 : BitVec.ofNat 8 (A.digit x % 16 * 16 + A.digit y / 4) = b := by
    apply BitVec.eq_of_toNat_eq
    rw [BitVec.toNat_ofNat, hx, hy]
    omega
  have h3 : BitVec.ofNat 8 (A.digit y % 4 * 64 + A.digit z) = c := by
    apply BitVec.eq_of_toNat_eq
    rw [BitVec.toNat_ofNat, hy, hz]
    omega
  rw [ungroup, h1, h2, h3]

theorem digit_lt_of_bytes (a b c : BitVec 8) :
    a.toNat / 4 < 64 ∧ a.toNat % 4 * 16 + b.toNat / 16 < 64 ∧
      b.toNat % 16 * 4 + c.toNat / 64 < 64 ∧ c.toNat % 64 < 64 := by
  have ha := a.isLt
  have hb := b.isLt
  have hc := c.isLt
  omega

/-! ## Texts -/

/-- All digits, with zeros for the bytes that a last group lacks. -/
def digits : List (BitVec 8) → List α
  | [] => []
  | [a] => group A a 0#8 0#8
  | [a, b] => group A a b 0#8
  | a :: b :: c :: rest => group A a b c ++ digits rest

/-- How many bytes a last group lacks. -/
def lacking (n : Nat) : Nat := (3 - n % 3) % 3

def encode : List (BitVec 8) → List α
  | [] => []
  | [a] => (group A a 0#8 0#8).take 2 ++ List.replicate 2 A.pad
  | [a, b] => (group A a b 0#8).take 3 ++ List.replicate 1 A.pad
  | a :: b :: c :: rest => group A a b c ++ encode rest

/-- Three bytes for each four characters. -/
def decode : List α → List (BitVec 8)
  | w :: x :: y :: z :: rest => ungroup A w x y z ++ decode rest
  | _ => []

theorem lacking_add_three (n : Nat) : lacking (n + 3) = lacking n := by
  rw [lacking, lacking, Nat.add_mod_right]

theorem lacking_le (n : Nat) : lacking n ≤ 2 := by
  unfold lacking
  omega

theorem digits_length (data : List (BitVec 8)) :
    (digits A data).length = 4 * ((data.length + 2) / 3) := by
  induction data using digits.induct with
  | case1 => rfl
  | case2 a => rw [digits, group_length, List.length_singleton]
  | case3 a b => rw [digits, group_length, List.length_cons, List.length_singleton]
  | case4 a b c rest ih =>
    rw [digits, List.length_append, group_length, ih]
    simp only [List.length_cons]
    omega

theorem lacking_le_length (data : List (BitVec 8)) :
    lacking data.length ≤ (digits A data).length := by
  rw [digits_length]
  unfold lacking
  omega

/-- The padding takes the place of the digits that no byte makes. -/
theorem encode_eq_digits (data : List (BitVec 8)) :
    encode A data = (digits A data).take ((digits A data).length - lacking data.length) ++
      List.replicate (lacking data.length) A.pad := by
  induction data using encode.induct with
  | case1 => rfl
  | case2 a => rfl
  | case3 a b => rfl
  | case4 a b c rest ih =>
    have hlack : lacking (a :: b :: c :: rest).length = lacking rest.length :=
      lacking_add_three rest.length
    rw [encode, digits, hlack, ih, List.length_append,
      Nat.add_sub_assoc (lacking_le_length A rest), List.take_length_add_append, List.append_assoc]

theorem encode_length (data : List (BitVec 8)) :
    (encode A data).length = 4 * ((data.length + 2) / 3) := by
  rw [encode_eq_digits, List.length_append, List.length_take, List.length_replicate,
    Nat.min_eq_left (Nat.sub_le _ _), Nat.sub_add_cancel (lacking_le_length A data), digits_length]

theorem member_of_mem_digits {data : List (BitVec 8)} {c : α} (h : c ∈ digits A data) :
    A.Member c := by
  have hgroup : ∀ {a b d : BitVec 8}, c ∈ group A a b d → A.Member c := by
    intro a b d hc
    obtain ⟨h0, h1, h2, h3⟩ := digit_lt_of_bytes a b d
    simp only [group, List.mem_cons, List.not_mem_nil, or_false] at hc
    rcases hc with rfl | rfl | rfl | rfl
    · exact A.member_char h0
    · exact A.member_char h1
    · exact A.member_char h2
    · exact A.member_char h3
  induction data using digits.induct with
  | case1 => cases h
  | case2 a => exact hgroup h
  | case3 a b => exact hgroup h
  | case4 a b d rest ih =>
    rcases List.mem_append.mp h with h | h
    · exact hgroup h
    · exact ih h

theorem decode_encode (data : List (BitVec 8)) :
    decode A (encode A data) = data ++ List.replicate (lacking data.length) 0#8 := by
  induction data using encode.induct with
  | case1 => rfl
  | case2 a =>
    obtain ⟨h0, h1, _, _⟩ := digit_lt_of_bytes a 0#8 0#8
    exact congrArg (· ++ []) (ungroup_of_digits A (A.digit_char _ h0) (A.digit_char _ h1)
      A.digit_pad A.digit_pad)
  | case3 a b =>
    obtain ⟨h0, h1, h2, _⟩ := digit_lt_of_bytes a b 0#8
    exact congrArg (· ++ []) (ungroup_of_digits A (A.digit_char _ h0) (A.digit_char _ h1)
      (A.digit_char _ h2) A.digit_pad)
  | case4 a b c rest ih =>
    obtain ⟨h0, h1, h2, h3⟩ := digit_lt_of_bytes a b c
    have hgroup := ungroup_of_digits A (A.digit_char _ h0) (A.digit_char _ h1)
      (A.digit_char _ h2) (A.digit_char _ h3)
    have hlack : lacking (a :: b :: c :: rest).length = lacking rest.length :=
      lacking_add_three rest.length
    rw [hlack, encode, group, List.cons_append, List.cons_append, List.cons_append,
      List.cons_append, List.nil_append, decode, hgroup, ih]
    rfl

theorem decode_length (s : List α) : (decode A s).length = s.length / 4 * 3 := by
  induction s using decode.induct with
  | case1 w x y z rest ih =>
    rw [decode, List.length_append, ungroup_length, ih]
    simp only [List.length_cons]
    omega
  | case2 s hshort =>
    rcases s with _ | ⟨w, _ | ⟨x, _ | ⟨y, _ | ⟨z, rest⟩⟩⟩⟩
    · simp [decode]
    · simp [decode]
    · simp [decode]
    · simp [decode]
    · exact absurd rfl (hshort w x y z rest)

/-! ## Canonical texts -/

/-- Four characters at the end. -/
def LastGroup (w x y z : α) : Prop :=
  A.Member w ∧ A.Member x ∧
    ((A.Member y ∧ A.Member z) ∨ (A.Member y ∧ A.digit y % 4 = 0 ∧ z = A.pad) ∨
      (A.digit x % 16 = 0 ∧ y = A.pad ∧ z = A.pad))

def Canonical : List α → Prop
  | w :: x :: y :: z :: rest =>
    (rest = [] ∧ LastGroup A w x y z) ∨
      ((A.Member w ∧ A.Member x ∧ A.Member y ∧ A.Member z) ∧ Canonical rest)
  | _ => False

instance [DecidableEq α] (c : α) : Decidable (A.Member c) := inferInstanceAs (Decidable (_ = _))

instance [DecidableEq α] (w x y z : α) : Decidable (LastGroup A w x y z) :=
  inferInstanceAs (Decidable (_ ∧ _ ∧ _))

instance decidableCanonical [DecidableEq α] : (s : List α) → Decidable (Canonical A s)
  | [] | [_] | [_, _] | [_, _, _] => isFalse fun h => h
  | _ :: _ :: _ :: _ :: rest =>
    have := decidableCanonical rest
    inferInstanceAs (Decidable (_ ∨ _))

/-- The digits of four characters, read and written again. -/
theorem group_of_ungroup {a b c : BitVec 8} {w x y z : α} (h : ungroup A w x y z = [a, b, c]) :
    a.toNat / 4 = A.digit w ∧ a.toNat % 4 * 16 + b.toNat / 16 = A.digit x ∧
      b.toNat % 16 * 4 + c.toNat / 64 = A.digit y ∧ c.toNat % 64 = A.digit z := by
  have hw := A.digit_lt w
  have hx := A.digit_lt x
  have hy := A.digit_lt y
  have hz := A.digit_lt z
  simp only [ungroup, List.cons.injEq, and_true] at h
  obtain ⟨rfl, rfl, rfl⟩ := h
  simp only [BitVec.toNat_ofNat]
  omega

theorem exists_ungroup (w x y z : α) : ∃ a b c, ungroup A w x y z = [a, b, c] := ⟨_, _, _, rfl⟩

theorem group_eq {a b c : BitVec 8} {w x y z : α} (hbytes : ungroup A w x y z = [a, b, c])
    (hw : A.Member w) (hx : A.Member x) (hy : A.Member y) (hz : A.Member z) :
    group A a b c = [w, x, y, z] := by
  obtain ⟨h0, h1, h2, h3⟩ := group_of_ungroup A hbytes
  rw [group, h0, h1, h2, h3, hw, hx, hy, hz]

theorem encode_lastGroup {w x y z : α} (h : LastGroup A w x y z) :
    ∃ data, data ≠ [] ∧ encode A data = [w, x, y, z] := by
  obtain ⟨a, b, c, hbytes⟩ := exists_ungroup A w x y z
  obtain ⟨h0, h1, h2, _⟩ := group_of_ungroup A hbytes
  have hb := b.isLt
  have hc := c.isLt
  obtain ⟨hw, hx, ⟨hy, hz⟩ | ⟨hy, hunused, rfl⟩ | ⟨hunused, rfl, rfl⟩⟩ := h
  · refine ⟨[a, b, c], List.cons_ne_nil _ _, ?_⟩
    rw [encode, group_eq A hbytes hw hx hy hz]
    rfl
  · have h2 : b.toNat % 16 * 4 + (0#8).toNat / 64 = A.digit y := by
      rw [BitVec.toNat_zero]
      omega
    refine ⟨[a, b], List.cons_ne_nil _ _, ?_⟩
    rw [encode, group, h0, h1, h2, hw, hx, hy]
    rfl
  · have h1 : a.toNat % 4 * 16 + (0#8).toNat / 16 = A.digit x := by
      rw [BitVec.toNat_zero]
      omega
    refine ⟨[a], List.cons_ne_nil _ _, ?_⟩
    rw [encode, group, h0, h1, hw, hx]
    rfl

theorem exists_encode_of_canonical {s : List α} (h : Canonical A s) :
    ∃ data, data ≠ [] ∧ encode A data = s := by
  induction s using Canonical.induct with
  | case1 w x y z rest ih =>
    rcases h with ⟨rfl, hlast⟩ | ⟨⟨hw, hx, hy, hz⟩, hrest⟩
    · exact encode_lastGroup A hlast
    · obtain ⟨a, b, c, hbytes⟩ := exists_ungroup A w x y z
      obtain ⟨data, _, hdata⟩ := ih hrest
      refine ⟨a :: b :: c :: data, List.cons_ne_nil _ _, ?_⟩
      rw [encode, group_eq A hbytes hw hx hy hz, hdata]
      rfl
  | case2 s hshort =>
    rw [Canonical] at h
    · exact h.elim
    · exact hshort

theorem members_group (a b c : BitVec 8) {w x y z : α} (h : group A a b c = [w, x, y, z]) :
    A.Member w ∧ A.Member x ∧ A.Member y ∧ A.Member z := by
  obtain ⟨h0, h1, h2, h3⟩ := digit_lt_of_bytes a b c
  simp only [group, List.cons.injEq, and_true] at h
  obtain ⟨rfl, rfl, rfl, rfl⟩ := h
  exact ⟨A.member_char h0, A.member_char h1, A.member_char h2, A.member_char h3⟩

theorem canonical_encode {data : List (BitVec 8)} (h : data ≠ []) :
    Canonical A (encode A data) := by
  induction data using encode.induct with
  | case1 => exact absurd rfl h
  | case2 a =>
    obtain ⟨hw, hx, _, _⟩ := members_group A a 0#8 0#8 rfl
    refine .inl ⟨rfl, hw, hx, .inr (.inr ⟨?_, rfl, rfl⟩)⟩
    obtain ⟨_, h1, _, _⟩ := digit_lt_of_bytes a 0#8 0#8
    rw [A.digit_char _ h1, BitVec.toNat_zero]
    omega
  | case3 a b =>
    obtain ⟨hw, hx, hy, _⟩ := members_group A a b 0#8 rfl
    refine .inl ⟨rfl, hw, hx, .inr (.inl ⟨hy, ?_, rfl⟩)⟩
    obtain ⟨_, _, h2, _⟩ := digit_lt_of_bytes a b 0#8
    rw [A.digit_char _ h2, BitVec.toNat_zero]
    omega
  | case4 a b c rest ih =>
    have hmembers := members_group A a b c rfl
    by_cases hrest : rest = []
    · subst hrest
      exact .inl ⟨rfl, hmembers.1, hmembers.2.1, .inl hmembers.2.2⟩
    · exact .inr ⟨hmembers, ih hrest⟩

/-- The canonical texts are those that are written. -/
theorem canonical_iff {s : List α} : Canonical A s ↔ ∃ data, data ≠ [] ∧ encode A data = s := by
  constructor
  · exact exists_encode_of_canonical A
  · rintro ⟨data, hne, rfl⟩
    exact canonical_encode A hne

/-! ## How many bytes a text stands for -/

variable [DecidableEq α]

/-- Padding is counted where the last two characters are, whatever stands before it. -/
def pads (s : List α) : Nat :=
  (if s[s.length - 1]? = some A.pad then 1 else 0) +
    if s[s.length - 2]? = some A.pad then 1 else 0

def byteCount (s : List α) : Nat := s.length / 4 * 3 - pads A s

/-- One byte less for each padding. -/
theorem byteCount_eq (s : List α) :
    byteCount A s =
      if s[s.length - 2]? = some A.pad then
        (if s[s.length - 1]? = some A.pad then s.length / 4 * 3 - 1 else s.length / 4 * 3) - 1
      else if s[s.length - 1]? = some A.pad then s.length / 4 * 3 - 1 else s.length / 4 * 3 := by
  unfold byteCount pads
  by_cases hlast : s[s.length - 1]? = some A.pad
  · by_cases hsecond : s[s.length - 2]? = some A.pad
    · rw [if_pos hlast, if_pos hsecond, if_pos hsecond, if_pos hlast, Nat.sub_sub]
    · rw [if_pos hlast, if_neg hsecond, if_neg hsecond, if_pos hlast]
  · by_cases hsecond : s[s.length - 2]? = some A.pad
    · rw [if_neg hlast, if_pos hsecond, if_pos hsecond, if_neg hlast]
    · rw [if_neg hlast, if_neg hsecond, if_neg hsecond, if_neg hlast]
      rfl

theorem pads_append (q : List α) {s : List α} (h : 2 ≤ s.length) : pads A (q ++ s) = pads A s := by
  have hlast : ∀ k, 1 ≤ k → k ≤ 2 → (q ++ s)[(q ++ s).length - k]? = s[s.length - k]? := by
    intro k hk1 hk2
    rw [List.length_append, List.getElem?_append_right (by omega)]
    congr 1
    omega
  rw [pads, hlast 1 (by omega) (by omega), hlast 2 (by omega) (by omega), pads]

theorem pads_group (a b c : BitVec 8) : pads A (group A a b c) = 0 := by
  obtain ⟨_, _, h2, h3⟩ := digit_lt_of_bytes a b c
  have hlast : (group A a b c)[3]? ≠ some A.pad := by
    simpa [group] using A.char_ne_pad _ h3
  have hsecond : (group A a b c)[2]? ≠ some A.pad := by
    simpa [group] using A.char_ne_pad _ h2
  rw [pads, group_length, if_neg hlast, if_neg hsecond]

theorem byteCount_encode {data : List (BitVec 8)} (h : data ≠ []) :
    byteCount A (encode A data) = data.length := by
  rw [byteCount, encode_length]
  suffices hpads : pads A (encode A data) = lacking data.length by
    have hpos := List.length_pos_of_ne_nil h
    rw [hpads, lacking]
    omega
  induction data using encode.induct with
  | case1 => exact absurd rfl h
  | case2 a => simp [encode, group, pads, lacking]
  | case3 a b =>
    obtain ⟨_, _, h2, _⟩ := digit_lt_of_bytes a b 0#8
    have hchar := A.char_ne_pad _ h2
    rw [BitVec.toNat_zero] at hchar
    simpa [encode, group, pads, lacking] using hchar
  | case4 a b c rest ih =>
    have hlack : lacking (a :: b :: c :: rest).length = lacking rest.length :=
      lacking_add_three rest.length
    rw [hlack, encode]
    by_cases hrest : rest = []
    · subst hrest
      exact pads_group A a b c
    · have hlong : 2 ≤ (encode A rest).length := by
        have hpos := List.length_pos_of_ne_nil hrest
        rw [encode_length]
        omega
      rw [pads_append A _ hlong, ih hrest]

/-- What is written is read back. -/
theorem take_decode_encode {data : List (BitVec 8)} (h : data ≠ []) :
    (decode A (encode A data)).take (byteCount A (encode A data)) = data := by
  rw [byteCount_encode A h, decode_encode, List.take_left' rfl]

theorem encode_injective {data data' : List (BitVec 8)} (h : data ≠ []) (h' : data' ≠ [])
    (heq : encode A data = encode A data') : data = data' := by
  rw [← take_decode_encode A h, heq, take_decode_encode A h']

theorem pads_le (s : List α) : pads A s ≤ 2 := by
  unfold pads
  split <;> split <;> decide

/-- A text is the one that is written for its bytes exactly when it is canonical. -/
theorem encode_take_decode_iff {s : List α} (hne : s ≠ []) (hfour : s.length % 4 = 0) :
    encode A ((decode A s).take (byteCount A s)) = s ↔ Canonical A s := by
  constructor
  · intro h
    apply (canonical_iff A).mpr
    refine ⟨_, ?_, h⟩
    have hpos := List.length_pos_of_ne_nil hne
    have hpads := pads_le A s
    apply List.ne_nil_of_length_pos
    rw [List.length_take, decode_length, byteCount]
    omega
  · intro h
    obtain ⟨data, hdata, rfl⟩ := (canonical_iff A).mp h
    rw [take_decode_encode A hdata]

end Radix64
