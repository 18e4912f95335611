import TurnClient.BigEndian
import TurnClient.IoaAddr

/-!
# The order of addresses

`addr_less_eq` compares IPv6 addresses byte by byte and goes on where it should
have decided: a smaller byte does not end the loop. `ioa_addr_in_range` compares
with both bounds of a range.
-/

namespace TurnClient

open ByteMemory
set_option autoImplicit false

/-- `AF_UNSPEC`, `AF_INET` and `AF_INET6` as numbers. -/
def Family.number : Family → Nat
  | .unspec => 0
  | .inet => 2
  | .inet6 => 10
  | .other af => af

/-- Neither pointer is NULL. -/
def addrLessEq (addr1 addr2 : IoaAddr) : Bool :=
  if addr1.family ≠ addr2.family then decide (addr1.family.number < addr2.family.number)
  else
    match addr1.family with
    | .inet => decide (addr1.word ≤ addr2.word)
    | .inet6 => (List.range 16).all fun i => !decide (addr2.in6.bytes.getD i 0 < addr1.in6.bytes.getD i 0)
    | _ => true

structure IoaAddrRange where
  min : IoaAddr
  max : IoaAddr

def ioaAddrInRange (range : IoaAddrRange) (addr : IoaAddr) : Bool :=
  if addrAny range.min || addrLessEq range.min addr then
    if addrAny range.max then true else addrLessEq addr range.max
  else false

/-! ## Addresses as numbers -/

/-- The address without its port, as one number. -/
def addrNumber (addr : IoaAddr) : Nat :=
  match addr.family with
  | .inet => addr.word.toNat
  | .inet6 => BigEndian.value addr.in6.bytes
  | _ => 0

/-- Two IPv6 addresses, of which the smaller one has a greater byte behind the first that differs. -/
def AddrsCross (a b : IoaAddr) : Prop :=
  a.family = .inet6 ∧ BigEndian.Crossing a.in6.bytes b.in6.bytes

theorem addrLessEq_iff {a b : IoaAddr} (hfam : a.family = b.family)
    (h : a.family = .inet ∨ a.family = .inet6) :
    addrLessEq a b = true ↔ addrNumber a ≤ addrNumber b ∧ ¬ AddrsCross a b := by
  unfold addrLessEq addrNumber AddrsCross
  rw [← hfam]
  rcases h with h | h
  · simp [h, BitVec.le_def]
  · have hsizes : a.in6.bytes.length = b.in6.bytes.length := a.in6.size_eq.trans b.in6.size_eq.symm
    have horder := BigEndian.componentwise_iff hsizes
    simp only [h, true_and]
    rw [← horder, BigEndian.Componentwise, b.in6.size_eq]
    simp

/-- The order of the numbers, for two addresses of one family. -/
def OrderNumeric (a b : IoaAddr) : Prop :=
  addrLessEq a b = true ↔ addrNumber a ≤ addrNumber b

/-- Between the bounds in the order of the numbers, where a bound that is any does not bound. -/
def InsideNumeric (range : IoaAddrRange) (addr : IoaAddr) : Prop :=
  (addrAny range.min = true ∨ addrNumber range.min ≤ addrNumber addr) ∧
    (addrAny range.max = true ∨ addrNumber addr ≤ addrNumber range.max)

def RangeNumeric (range : IoaAddrRange) (addr : IoaAddr) : Prop :=
  ioaAddrInRange range addr = true ↔ InsideNumeric range addr

/-- An address between the bounds crosses one that bounds it. -/
def CrossesBound (range : IoaAddrRange) (addr : IoaAddr) : Prop :=
  InsideNumeric range addr ∧
    (addrAny range.min = false ∧ AddrsCross range.min addr ∨
      addrAny range.max = false ∧ AddrsCross addr range.max)

theorem AddrsCross.lt {a b : IoaAddr} (h : AddrsCross a b) (hfam : a.family = b.family) :
    addrNumber a < addrNumber b := by
  unfold addrNumber
  rw [← hfam, h.1]
  exact h.2.value_lt (a.in6.size_eq.trans b.in6.size_eq.symm)

theorem orderNumeric_iff {a b : IoaAddr} (hfam : a.family = b.family)
    (h : a.family = .inet ∨ a.family = .inet6) : OrderNumeric a b ↔ ¬ AddrsCross a b := by
  have hle := addrLessEq_iff hfam h
  unfold OrderNumeric
  constructor
  · intro hnumeric hcross
    exact (hle.mp (hnumeric.mpr (Nat.le_of_lt (hcross.lt hfam)))).2 hcross
  · intro hcross
    rw [hle]
    exact and_iff_left hcross

theorem ioaAddrInRange_iff (range : IoaAddrRange) (addr : IoaAddr) :
    ioaAddrInRange range addr = true ↔
      (addrAny range.min = true ∨ addrLessEq range.min addr = true) ∧
        (addrAny range.max = true ∨ addrLessEq addr range.max = true) := by
  unfold ioaAddrInRange
  cases addrAny range.min <;> cases addrAny range.max <;> simp

/-- Each bound is any or of the family of the address. -/
structure BoundsFit (range : IoaAddrRange) (addr : IoaAddr) : Prop where
  min : addrAny range.min = true ∨ range.min.family = addr.family
  max : addrAny range.max = true ∨ range.max.family = addr.family

theorem rangeNumeric_iff {range : IoaAddrRange} {addr : IoaAddr}
    (h : addr.family = .inet ∨ addr.family = .inet6) (hfit : BoundsFit range addr) :
    RangeNumeric range addr ↔ ¬ CrossesBound range addr := by
  have hmin : addrAny range.min = true ∨ addrLessEq range.min addr = true ↔
      (addrAny range.min = true ∨ addrNumber range.min ≤ addrNumber addr) ∧
        ¬ (addrAny range.min = false ∧ AddrsCross range.min addr) := by
    rcases hfit.min with hany | hfam
    · simp [hany]
    · rw [addrLessEq_iff hfam (hfam ▸ h)]
      cases addrAny range.min <;> simp
  have hmax : addrAny range.max = true ∨ addrLessEq addr range.max = true ↔
      (addrAny range.max = true ∨ addrNumber addr ≤ addrNumber range.max) ∧
        ¬ (addrAny range.max = false ∧ AddrsCross addr range.max) := by
    rcases hfit.max with hany | hfam
    · simp [hany]
    · rw [addrLessEq_iff hfam.symm h]
      cases addrAny range.max <;> simp
  unfold RangeNumeric CrossesBound InsideNumeric
  rw [ioaAddrInRange_iff, hmin, hmax]
  constructor
  · rintro hrange ⟨hinside, hcross⟩
    obtain ⟨⟨_, hmin'⟩, _, hmax'⟩ := hrange.mpr hinside
    rcases hcross with hcross | hcross
    · exact hmin' hcross
    · exact hmax' hcross
  · intro hnone
    constructor
    · rintro ⟨⟨hlo, _⟩, hhi, _⟩
      exact ⟨hlo, hhi⟩
    · intro hinside
      exact ⟨⟨hinside.1, fun hcross => hnone ⟨hinside, .inl hcross⟩⟩,
        hinside.2, fun hcross => hnone ⟨hinside, .inr hcross⟩⟩

theorem addr_order_numeric_iff {a b : IoaAddr} (hfam : a.family = b.family)
    (h : a.family = .inet ∨ a.family = .inet6) (range : IoaAddrRange) (hfit : BoundsFit range a) :
    (OrderNumeric a b ↔ ¬ AddrsCross a b) ∧ (RangeNumeric range a ↔ ¬ CrossesBound range a) :=
  ⟨orderNumeric_iff hfam h, rangeNumeric_iff h hfit⟩

/-- 2001:db8::, with the last two groups given. -/
def docAddr (g h : Byte) : IoaAddr :=
  { IoaAddr.any with
    family := .inet6
    in6 := ⟨[0x20, 0x01, 0x0D, 0xB8, 0, 0, 0, 0, 0, 0, 0, 0, 0, g, 0, h], rfl⟩ }

theorem docAddrs_numeric :
    OrderNumeric (docAddr 1 5) (docAddr 2 9) ∧
      RangeNumeric ⟨docAddr 1 0, docAddr 2 9⟩ (docAddr 1 5) := by
  have hmin := ((addrLessEq_iff (a := docAddr 1 0) (b := docAddr 1 5) rfl (.inr rfl)).mp
    (by decide)).2
  have hmax := ((addrLessEq_iff (a := docAddr 1 5) (b := docAddr 2 9) rfl (.inr rfl)).mp
    (by decide)).2
  have hboth := addr_order_numeric_iff (a := docAddr 1 5) (b := docAddr 2 9) rfl (.inr rfl)
    ⟨docAddr 1 0, docAddr 2 9⟩ ⟨.inr rfl, .inr rfl⟩
  refine ⟨hboth.1.mpr hmax, hboth.2.mpr ?_⟩
  rintro ⟨_, ⟨_, hcross⟩ | ⟨_, hcross⟩⟩
  · exact hmin hcross
  · exact hmax hcross

/-- 2001:db8::1:5 is below 2001:db8::2:0 and in no range that ends there, and the two addresses are
not in order either way. -/
theorem docAddrs_cross :
    addrNumber (docAddr 1 5) < addrNumber (docAddr 2 0) ∧
      ¬ OrderNumeric (docAddr 1 5) (docAddr 2 0) ∧
      addrLessEq (docAddr 1 5) (docAddr 2 0) = false ∧
      addrLessEq (docAddr 2 0) (docAddr 1 5) = false ∧
      ¬ RangeNumeric ⟨docAddr 0 0, docAddr 2 0⟩ (docAddr 1 5) := by
  have hlt : addrNumber (docAddr 1 5) < addrNumber (docAddr 2 0) := by decide
  have hless : addrLessEq (docAddr 1 5) (docAddr 2 0) = false := by decide
  have hout : ioaAddrInRange ⟨docAddr 0 0, docAddr 2 0⟩ (docAddr 1 5) = false := by decide
  refine ⟨hlt, fun h => ?_, hless, by decide, fun h => ?_⟩
  · rw [OrderNumeric, hless] at h
    exact absurd (h.mpr (Nat.le_of_lt hlt)) (by decide)
  · rw [RangeNumeric, hout] at h
    exact absurd (h.mpr ⟨.inr (by decide), .inr (Nat.le_of_lt hlt)⟩) (by decide)

end TurnClient
