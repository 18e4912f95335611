import TurnClient.StunHeader

/-!
# Attributes: the walk and the append

An attribute reference is an offset into the message buffer, `none` for NULL.
`attrRefs` collects what iterating `stun_attr_get_first_str` and then
`stun_attr_get_next_str` visits; `visits_attrRefs` says that on every buffer
the iteration really ends there, so each loop of the source over attributes is
a search in that list.
-/

namespace TurnClient

open ByteMemory
set_option autoImplicit false

def roundToBoundary (n : Nat) : Nat :=
  let rem4 := n &&& 0x0003
  if rem4 ≠ 0 then n + 4 - rem4 else n

theorem roundToBoundary_eq (n : Nat) : roundToBoundary n = Tlv.pad4 n := by
  have hrem : n &&& 0x0003 = n % 4 := Nat.and_two_pow_sub_one_eq_mod n 2
  simp only [roundToBoundary, hrem, Tlv.pad4]
  split <;> omega

/-! ## Reading one attribute -/

def stunAttrGetType (buf : Mem) : Option Nat → Int
  | some attr => (get16 buf attr).toNat
  | none => -1

def stunAttrGetLen (buf : Mem) : Option Nat → Int
  | some attr => (get16 buf (attr + 2)).toNat
  | none => -1

def stunAttrGetValue (buf : Mem) : Option Nat → Option Nat
  | some attr => if (get16 buf (attr + 2)).toNat < 1 then none else some (attr + 4)
  | none => none

def attrValue (buf : Mem) (attr : Nat) : List Byte :=
  slice buf (attr + 4) (get16 buf (attr + 2)).toNat

theorem attrValue_of_recordAt {buf : Mem} {a : Nat} {r : Tlv.Record} (h : Tlv.RecordAt buf a r) :
    attrValue buf a = r.2 := by
  rw [attrValue, h.2.1]
  exact h.2.2

theorem stunAttrGetType_eq_iff (buf : Mem) (attr : Nat) (t : BitVec 16) :
    stunAttrGetType buf (some attr) = (t.toNat : Int) ↔ get16 buf attr = t := by
  rw [stunAttrGetType, Int.natCast_inj, BitVec.toNat_inj]

@[simp] theorem stunAttrGetLen_some (buf : Mem) (attr : Nat) :
    stunAttrGetLen buf (some attr) = (get16 buf (attr + 2)).toNat := rfl

theorem stunAttrGetValue_some (buf : Mem) (attr : Nat) :
    stunAttrGetValue buf (some attr) =
      if (get16 buf (attr + 2)).toNat = 0 then none else some (attr + 4) := by
  rw [stunAttrGetValue]
  split <;> split <;> first | rfl | omega

/-! ## The walk -/

def stunAttrCheckValid (buf : Mem) (attr remaining : Nat) : Option Nat :=
  if 4 ≤ remaining then
    let attrlen := roundToBoundary (get16 buf (attr + 2)).toNat
    if attrlen ≤ remaining - 4 then some attr else none
  else none

def stunAttrGetFirstStr (buf : Mem) (len : Nat) : Option Nat :=
  let bufLen := stunGetCommandMessageLenStr buf len
  if stunHeaderLength < bufLen then
    stunAttrCheckValid buf stunHeaderLength (bufLen - stunHeaderLength).toNat
  else none

def stunAttrGetNextStr (buf : Mem) (len : Nat) : Option Nat → Option Nat
  | none => stunAttrGetFirstStr buf len
  | some prev =>
    let bufEnd := stunGetCommandMessageLenStr buf len
    let attrlen := roundToBoundary (get16 buf (prev + 2)).toNat
    if (attrlen : Int) < bufEnd - prev - 4 then
      let attrEnd := prev + 4 + attrlen
      stunAttrCheckValid buf attrEnd (bufEnd - attrEnd).toNat
    else none

/-- Iterating from a reference until NULL visits exactly these attributes. -/
inductive Visits (buf : Mem) (len : Nat) : Option Nat → List Nat → Prop where
  | null : Visits buf len none []
  | attr {a : Nat} {rest : List Nat} :
      Visits buf len (stunAttrGetNextStr buf len (some a)) rest → Visits buf len (some a) (a :: rest)

/-- The first attribute a `while(attr)` loop stops at; `fuel` bounds its turns. -/
def attrScan (buf : Mem) (len : Nat) (found : Nat → Bool) : Nat → Option Nat → Option Nat
  | _, none => none
  | 0, some _ => none
  | fuel + 1, some a =>
    if found a then some a else attrScan buf len found fuel (stunAttrGetNextStr buf len (some a))

def stunAttrGetFirstByTypeStr (buf : Mem) (len : Nat) (attrType : BitVec 16) : Option Nat :=
  attrScan buf len (fun a => stunAttrGetType buf (some a) == (attrType.toNat : Int)) len
    (stunAttrGetFirstStr buf len)

def attrRefsFrom (buf : Mem) (len : Nat) : Nat → Option Nat → List Nat
  | _, none => []
  | 0, some _ => []
  | fuel + 1, some a => a :: attrRefsFrom buf len fuel (stunAttrGetNextStr buf len (some a))

/-- All attributes of a message in the order of the walk. -/
def attrRefs (buf : Mem) (len : Nat) : List Nat :=
  attrRefsFrom buf len len (stunAttrGetFirstStr buf len)

theorem stunGetCommandMessageLenStr_cases (buf : Mem) (len : Nat) :
    stunGetCommandMessageLenStr buf len = -1 ∨
    (stunGetCommandMessageLenStr buf len = ((get16 buf 2).toNat + 20 : Nat) ∧
      (get16 buf 2).toNat + 20 ≤ len) := by
  unfold stunGetCommandMessageLenStr stunHeaderLength
  simp only
  split
  · exact Or.inl rfl
  · split
    · exact Or.inl rfl
    · exact Or.inr ⟨rfl, by omega⟩

theorem stunAttrCheckValid_eq_some {buf : Mem} {attr remaining a : Nat}
    (h : stunAttrCheckValid buf attr remaining = some a) :
    a = attr ∧ 4 + Tlv.pad4 (get16 buf (attr + 2)).toNat ≤ remaining := by
  simp only [stunAttrCheckValid, roundToBoundary_eq] at h
  split at h
  · split at h
    · exact ⟨(Option.some.inj h).symm, by omega⟩
    · cases h
  · cases h

/-- What a reference returned by the walk points to: header and padded value
lie inside the declared message, which lies inside the given length. -/
def InMessage (buf : Mem) (len a : Nat) : Prop :=
  20 ≤ a ∧ a + 4 + Tlv.pad4 (get16 buf (a + 2)).toNat ≤ (get16 buf 2).toNat + 20 ∧
    (get16 buf 2).toNat + 20 ≤ len

/-- In a message of the length that its header says, the first attribute is behind the header. -/
theorem stunAttrGetFirstStr_of_commandLen {buf : Mem} {len : Nat}
    (hcmd : stunGetCommandMessageLenStr buf len = (len : Int)) (hlen : 20 < len) :
    stunAttrGetFirstStr buf len = stunAttrCheckValid buf 20 (len - 20) := by
  simp only [stunAttrGetFirstStr, hcmd, stunHeaderLength]
  rw [if_pos (by omega), ← Nat.cast_sub (by omega), Int.toNat_natCast]

theorem inMessage_first {buf : Mem} {len a : Nat} (h : stunAttrGetFirstStr buf len = some a) :
    InMessage buf len a := by
  simp only [stunAttrGetFirstStr] at h
  split at h
  · obtain ⟨rfl, hroom⟩ := stunAttrCheckValid_eq_some h
    unfold stunHeaderLength at *
    rcases stunGetCommandMessageLenStr_cases buf len with hl | ⟨hl, hle⟩
    · omega
    · rw [hl] at hroom
      exact ⟨Nat.le_refl _, by omega, hle⟩
  · cases h

theorem inMessage_next {buf : Mem} {len a b : Nat} (ha : InMessage buf len a)
    (h : stunAttrGetNextStr buf len (some a) = some b) : a + 4 ≤ b ∧ InMessage buf len b := by
  simp only [stunAttrGetNextStr, roundToBoundary_eq] at h
  split at h
  · obtain ⟨rfl, hroom⟩ := stunAttrCheckValid_eq_some h
    obtain ⟨hlo, _, _⟩ := ha
    rcases stunGetCommandMessageLenStr_cases buf len with hl | ⟨hl, hle⟩
    · omega
    · rw [hl] at hroom
      refine ⟨by omega, by omega, ?_, hle⟩
      omega
  · cases h

/-- One turn per four bytes is enough fuel. -/
theorem visits_attrRefsFrom {buf : Mem} {len : Nat} (fuel : Nat) (r : Option Nat)
    (hr : ∀ a, r = some a → InMessage buf len a ∧ (get16 buf 2).toNat + 20 - a ≤ 4 * fuel) :
    Visits buf len r (attrRefsFrom buf len fuel r) := by
  induction fuel generalizing r with
  | zero =>
    cases r with
    | none => exact .null
    | some a =>
      obtain ⟨⟨_, hin, _⟩, hfuel⟩ := hr a rfl
      omega
  | succ fuel ih =>
    cases r with
    | none => exact .null
    | some a =>
      obtain ⟨ha, hfuel⟩ := hr a rfl
      refine .attr (ih _ ?_)
      intro b hb
      obtain ⟨hab, hb'⟩ := inMessage_next ha hb
      exact ⟨hb', by omega⟩

/-- On every buffer and length the iteration ends, after the attributes of `attrRefs`. -/
theorem visits_attrRefs (buf : Mem) (len : Nat) :
    Visits buf len (stunAttrGetFirstStr buf len) (attrRefs buf len) := by
  apply visits_attrRefsFrom
  intro a ha
  have hin := inMessage_first ha
  have hle := hin.2.2
  exact ⟨hin, by omega⟩

theorem Visits.unique {buf : Mem} {len : Nat} {r : Option Nat} {as bs : List Nat}
    (ha : Visits buf len r as) (hb : Visits buf len r bs) : as = bs := by
  induction ha generalizing bs with
  | null =>
    cases hb
    rfl
  | attr _ ih =>
    cases hb with
    | attr h => rw [ih h]

theorem Visits.inMessage {buf : Mem} {len : Nat} {r : Option Nat} {as : List Nat}
    (h : Visits buf len r as) (hr : ∀ a, r = some a → InMessage buf len a) :
    ∀ a ∈ as, InMessage buf len a := by
  induction h with
  | null => simp
  | @attr a rest _ ih =>
    have ha := hr a rfl
    intro b hb
    rcases List.mem_cons.mp hb with rfl | hb
    · exact ha
    · exact ih (fun c hc => (inMessage_next ha hc).2) b hb

theorem Visits.isChain {buf : Mem} {len : Nat} {r : Option Nat} {as : List Nat}
    (h : Visits buf len r as) (hr : ∀ a, r = some a → InMessage buf len a) :
    as.IsChain fun a b => a + 4 ≤ b := by
  induction h with
  | null => exact .nil
  | @attr a rest hrest ih =>
    have ha := hr a rfl
    have htail := ih fun c hc => (inMessage_next ha hc).2
    generalize hnext : stunAttrGetNextStr buf len (some a) = next at hrest
    cases hrest with
    | null => exact .singleton a
    | attr _ => exact .cons_cons (inMessage_next ha hnext).1 htail

/-- Attribute iteration on hostile input: whatever the buffer holds, it ends,
stays inside the declared message and moves forward. -/
theorem attribute_iteration_safe (buf : Mem) (len : Nat) :
    ∃ refs, Visits buf len (stunAttrGetFirstStr buf len) refs ∧
      (∀ a ∈ refs, InMessage buf len a) ∧ refs.IsChain fun a b => a + 4 ≤ b := by
  have hvisits := visits_attrRefs buf len
  have hfirst : ∀ a, stunAttrGetFirstStr buf len = some a → InMessage buf len a :=
    fun _ ha => inMessage_first ha
  exact ⟨attrRefs buf len, hvisits, hvisits.inMessage hfirst, hvisits.isChain hfirst⟩

theorem inMessage_of_mem {buf : Mem} {len a : Nat} (h : a ∈ attrRefs buf len) :
    InMessage buf len a :=
  (visits_attrRefs buf len).inMessage (fun _ ha => inMessage_first ha) a h

theorem Visits.length_le {buf : Mem} {len : Nat} {r : Option Nat} {as : List Nat}
    (h : Visits buf len r as) (hr : ∀ a, r = some a → InMessage buf len a) (k : Nat)
    (hk : ∀ a, r = some a → (get16 buf 2).toNat + 20 ≤ a + 4 * k) : as.length ≤ k := by
  induction h generalizing k with
  | null => simp
  | @attr a rest _ ih =>
    have ha := hr a rfl
    have hend := hk a rfl
    have hin := ha.2.1
    have hrest := ih (fun c hc => (inMessage_next ha hc).2) (k - 1) (fun c hc => by
      have := (inMessage_next ha hc).1
      omega)
    rw [List.length_cons]
    omega

theorem attrRefs_length_le (buf : Mem) (len : Nat) : (attrRefs buf len).length ≤ len := by
  apply (visits_attrRefs buf len).length_le (fun _ ha => inMessage_first ha)
  intro a ha
  have hle := (inMessage_first ha).2.2
  omega

theorem attrScan_eq_find {buf : Mem} {len : Nat} {r : Option Nat} {as : List Nat}
    (h : Visits buf len r as) (found : Nat → Bool) {fuel : Nat} (hfuel : as.length ≤ fuel) :
    attrScan buf len found fuel r = as.find? found := by
  induction h generalizing fuel with
  | null => cases fuel <;> rfl
  | attr _ ih =>
    cases fuel with
    | zero => simp at hfuel
    | succ fuel =>
      rw [attrScan, List.find?_cons, ih (by simpa using hfuel)]
      split <;> simp_all

theorem stunAttrGetFirstByTypeStr_eq_find (buf : Mem) (len : Nat) (attrType : BitVec 16) :
    stunAttrGetFirstByTypeStr buf len attrType =
      (attrRefs buf len).find? fun a => get16 buf a == attrType := by
  rw [stunAttrGetFirstByTypeStr,
    attrScan_eq_find (visits_attrRefs buf len) _ (attrRefs_length_le buf len)]
  congr 1
  funext a
  rw [Bool.eq_iff_iff, beq_iff_eq, beq_iff_eq, stunAttrGetType_eq_iff]

theorem stunAttrGetFirstByTypeStr_some {buf : Mem} {len : Nat} {attrType : BitVec 16} {a : Nat}
    (h : stunAttrGetFirstByTypeStr buf len attrType = some a) :
    a ∈ attrRefs buf len ∧ get16 buf a = attrType := by
  rw [stunAttrGetFirstByTypeStr_eq_find] at h
  exact ⟨List.mem_of_find?_eq_some h, by simpa using List.find?_some h⟩

end TurnClient
