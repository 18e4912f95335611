import TurnClient.StepRuns
import Mathlib.Data.List.Nodup

/-!
# Address translation

A translator stands between sources and destinations. A packet that leaves gets
an outside name, leased to its source and to what the mapping makes of its
destination; a packet that comes in passes if the filter remembers a packet sent
from that name to where it comes from. The mapping and the filter look at the
destination through a key each; the usual translators look at nothing of it, at
its host, or at its host and its port.
-/

namespace Translation

set_option autoImplicit false

/-! ## Leases -/

section Leases

variable {Key Name : Type}

/-- No key holds two names and no name is leased twice. -/
structure Leases (Key Name : Type) where
  entries : List (Key × Name)
  keys_nodup : (entries.map Prod.fst).Nodup
  names_nodup : (entries.map Prod.snd).Nodup

/-- Where new names come from. There may be none left; what comes is not in use. -/
structure Supply (Key Name : Type) where
  next : Key → List Name → Option Name
  unused : ∀ {k : Key} {used : List Name} {n : Name}, next k used = some n → n ∉ used

namespace Leases

def names (t : Leases Key Name) : List Name := t.entries.map Prod.snd

def none : Leases Key Name := ⟨[], List.nodup_nil, List.nodup_nil⟩

variable [DecidableEq Key]

def find (t : Leases Key Name) (k : Key) : Option Name :=
  (t.entries.find? fun p => p.1 == k).map Prod.snd

theorem mem_of_find {t : Leases Key Name} {k : Key} {n : Name} (h : t.find k = some n) :
    (k, n) ∈ t.entries := by
  obtain ⟨p, hp, rfl⟩ := Option.map_eq_some_iff.mp h
  have hkey := List.find?_some hp
  rw [beq_iff_eq] at hkey
  rw [← hkey]
  exact List.mem_of_find?_eq_some hp

theorem key_notMem_of_find {t : Leases Key Name} {k : Key} (h : t.find k = Option.none) :
    k ∉ t.entries.map Prod.fst := by
  intro hmem
  obtain ⟨p, hp, hkey⟩ := List.mem_map.mp hmem
  have hnone := Option.map_eq_none_iff.mp h
  exact List.find?_eq_none.mp hnone p hp (beq_iff_eq.mpr hkey)

theorem find_iff_mem {t : Leases Key Name} {k : Key} {n : Name} :
    t.find k = some n ↔ (k, n) ∈ t.entries := by
  constructor
  · exact mem_of_find
  · intro h
    cases hfind : t.find k with
    | none => exact absurd (List.mem_map_of_mem h) (key_notMem_of_find hfind)
    | some n' =>
      have heq := List.inj_on_of_nodup_map t.keys_nodup (mem_of_find hfind) h rfl
      rw [(Prod.mk.inj heq).2]

/-- Two leases carry the same name exactly when they are one. -/
theorem name_eq_iff {t : Leases Key Name} {k k' : Key} {n n' : Name} (h : t.find k = some n)
    (h' : t.find k' = some n') : n = n' ↔ k = k' := by
  constructor
  · intro hname
    have heq := List.inj_on_of_nodup_map t.names_nodup (mem_of_find h) (mem_of_find h') hname
    exact (Prod.mk.inj heq).1
  · intro hkey
    rw [hkey, h'] at h
    exact (Option.some.inj h).symm

def add (t : Leases Key Name) (k : Key) (n : Name) (hk : k ∉ t.entries.map Prod.fst)
    (hn : n ∉ t.entries.map Prod.snd) : Leases Key Name :=
  ⟨(k, n) :: t.entries, List.nodup_cons.mpr ⟨hk, t.keys_nodup⟩,
    List.nodup_cons.mpr ⟨hn, t.names_nodup⟩⟩

def lease (s : Supply Key Name) (t : Leases Key Name) (k : Key) : Option Name × Leases Key Name :=
  match hfind : t.find k with
  | some n => (some n, t)
  | Option.none =>
    match hnext : s.next k t.names with
    | some n => (some n, t.add k n (key_notMem_of_find hfind) (s.unused hnext))
    | Option.none => (Option.none, t)

/-- What a lease leaves: every older one, and the name that was given out. -/
theorem lease_spec (s : Supply Key Name) (t : Leases Key Name) (k : Key) :
    (∀ p ∈ t.entries, p ∈ (t.lease s k).2.entries) ∧
      (∀ p ∈ (t.lease s k).2.entries, p ∈ t.entries ∨ p.1 = k) ∧
      ∀ n, (t.lease s k).1 = some n → (t.lease s k).2.find k = some n := by
  unfold lease
  split
  · rename_i n hfind
    refine ⟨fun _ => id, fun _ => Or.inl, fun n' hn' => ?_⟩
    rw [← hn']
    exact hfind
  · split
    · rename_i n hnext
      refine ⟨fun p => List.mem_cons_of_mem _, fun p hp => ?_, fun n' hn' => ?_⟩
      · rcases List.mem_cons.mp hp with rfl | hp
        · exact Or.inr rfl
        · exact Or.inl hp
      · cases hn'
        exact find_iff_mem.mpr List.mem_cons_self
    · exact ⟨fun _ => id, fun _ => Or.inl, fun n hn => by cases hn⟩

end Leases

end Leases

/-! ## Translators -/

/-- What the mapping and the filter look at of a destination. -/
structure Policy (Dst M F : Type) where
  mapKey : Dst → M
  filterKey : Dst → F

/-- The names leased, and which destinations were sent to from each of them. -/
structure State (Src M F Name : Type) where
  leases : Leases (Src × M) Name
  passes : List (Name × F)
  held : ∀ p ∈ passes, p.1 ∈ leases.names

section Packets

variable {Src Dst M F Name : Type} [DecidableEq Src] [DecidableEq M]
variable (pol : Policy Dst M F) (s : Supply (Src × M) Name)

def State.initial : State Src M F Name :=
  ⟨Leases.none, [], fun _ h => absurd h List.not_mem_nil⟩

/-- A packet for which no name is left is dropped. -/
def outbound (t : State Src M F Name) (src : Src) (dst : Dst) :
    Option Name × State Src M F Name :=
  let r := t.leases.lease s (src, pol.mapKey dst)
  match hr : r.1 with
  | some n => (some n, ⟨r.2, (n, pol.filterKey dst) :: t.passes, by
      intro p hp
      obtain ⟨hkeep, _, hnew⟩ := Leases.lease_spec s t.leases (src, pol.mapKey dst)
      rcases List.mem_cons.mp hp with rfl | hp
      · exact List.mem_map_of_mem (Leases.mem_of_find (hnew n hr))
      · obtain ⟨q, hq, hname⟩ := List.mem_map.mp (t.held p hp)
        rw [← hname]
        exact List.mem_map_of_mem (hkeep q hq)⟩)
  | none => (none, t)

variable [DecidableEq Name] [DecidableEq F]

/-- Where a packet to a leased name is handed on to. -/
def inbound (t : State Src M F Name) (n : Name) (peer : Dst) : Option Src :=
  if (n, pol.filterKey peer) ∈ t.passes then
    (t.leases.entries.find? fun p => p.2 == n).map fun p => p.1.1
  else none

/-- Packets that leave, one after the other. -/
def traffic (t : State Src M F Name) (ps : List (Src × Dst)) : State Src M F Name :=
  StepRuns.run (fun t p => (outbound pol s t p.1 p.2).2) t ps

/-! ## What a packet does -/

omit [DecidableEq Name] [DecidableEq F] in
theorem outbound_keeps (t : State Src M F Name) (src : Src) (dst : Dst) {q : Src × M} {n : Name}
    (h : t.leases.find q = some n) : (outbound pol s t src dst).2.leases.find q = some n := by
  unfold outbound
  simp only
  split
  · rw [Leases.find_iff_mem] at h ⊢
    exact (Leases.lease_spec s t.leases _).1 _ h
  · exact h

omit [DecidableEq Name] [DecidableEq F] in
theorem outbound_some {t : State Src M F Name} {src : Src} {dst : Dst} {n : Name}
    (h : (outbound pol s t src dst).1 = some n) :
    (outbound pol s t src dst).2.leases.find (src, pol.mapKey dst) = some n ∧
      (outbound pol s t src dst).2.passes = (n, pol.filterKey dst) :: t.passes := by
  unfold outbound at h ⊢
  simp only at h ⊢
  split at h
  · rename_i n' hn'
    cases h
    exact ⟨(Leases.lease_spec s t.leases _).2.2 n hn', rfl⟩
  · cases h

omit [DecidableEq Name] [DecidableEq F] in
theorem traffic_keeps (ps : List (Src × Dst)) {t : State Src M F Name} {q : Src × M} {n : Name}
    (h : t.leases.find q = some n) : (traffic pol s t ps).leases.find q = some n := by
  unfold traffic
  exact StepRuns.run_inv (fun t p ht => outbound_keeps pol s t p.1 p.2 ht) ps h

omit [DecidableEq Name] [DecidableEq F] in
/-- Whatever is sent in between, two packets leave under one name exactly when their source and
what the mapping sees of their destination are the same. -/
theorem outbound_name_eq_iff {t : State Src M F Name} {src src' : Src} {dst dst' : Dst}
    {ps : List (Src × Dst)} {n n' : Name} (h : (outbound pol s t src dst).1 = some n)
    (h' : (outbound pol s (traffic pol s (outbound pol s t src dst).2 ps) src' dst').1 = some n') :
    n = n' ↔ src = src' ∧ pol.mapKey dst = pol.mapKey dst' := by
  have hfirst := (outbound_some pol s h).1
  have hlater := outbound_keeps pol s _ src' dst' (traffic_keeps pol s ps hfirst)
  rw [Leases.name_eq_iff hlater (outbound_some pol s h').1, Prod.mk.injEq]

omit [DecidableEq Name] [DecidableEq F] in
/-- A packet of another source lets nothing more in under a name of this one. -/
theorem outbound_passes_of_ne {t : State Src M F Name} {src src' : Src} {dst' : Dst} {m : M}
    {n : Name} (hn : t.leases.find (src, m) = some n) (hne : src' ≠ src) (f : F) :
    (n, f) ∈ (outbound pol s t src' dst').2.passes ↔ (n, f) ∈ t.passes := by
  cases hr : (outbound pol s t src' dst').1 with
  | none =>
    have hsame : (outbound pol s t src' dst').2 = t := by
      unfold outbound at hr ⊢
      simp only at hr ⊢
      split at hr
      · cases hr
      · rfl
    rw [hsame]
  | some n' =>
    obtain ⟨hfind, hpasses⟩ := outbound_some pol s hr
    rw [hpasses, List.mem_cons]
    apply or_iff_right
    intro heq
    have hkept := outbound_keeps pol s t src' dst' hn
    have hkey := (Leases.name_eq_iff hkept hfind).mp (Prod.mk.inj heq).1
    exact hne (Prod.mk.inj hkey).1.symm

omit [DecidableEq Name] [DecidableEq F] in
theorem traffic_passes_of_ne (ps : List (Src × Dst)) {t : State Src M F Name} {src : Src} {m : M}
    {n : Name} (hn : t.leases.find (src, m) = some n) (hne : ∀ p ∈ ps, p.1 ≠ src) (f : F) :
    (n, f) ∈ (traffic pol s t ps).passes ↔ (n, f) ∈ t.passes := by
  induction ps generalizing t with
  | nil => exact Iff.rfl
  | cons p ps ih =>
    rw [← outbound_passes_of_ne pol s hn (hne p List.mem_cons_self) f]
    exact ih (outbound_keeps pol s t p.1 p.2 hn) fun q hq => hne q (List.mem_cons_of_mem p hq)

omit [DecidableEq F] [DecidableEq Name] in
/-- A name that was not leased before lets in nothing but what answers the packet. -/
theorem outbound_passes_of_new {t : State Src M F Name} {src : Src} {dst : Dst} {n : Name}
    (hnew : t.leases.find (src, pol.mapKey dst) = none)
    (h : (outbound pol s t src dst).1 = some n) (f : F) :
    (n, f) ∈ (outbound pol s t src dst).2.passes ↔ f = pol.filterKey dst := by
  obtain ⟨hfind, hpasses⟩ := outbound_some pol s h
  rw [hpasses, List.mem_cons, Prod.mk.injEq]
  constructor
  · intro hmem
    rcases hmem with ⟨_, hf⟩ | hold
    · exact hf
    · obtain ⟨q, hq, hname⟩ := List.mem_map.mp (t.held _ hold)
      simp only at hname
      subst hname
      have hold' := Leases.find_iff_mem.mpr hq
      have hkey := (Leases.name_eq_iff (outbound_keeps pol s t src dst hold') hfind).mp rfl
      rw [hkey, hnew] at hold'
      cases hold'
  · intro hf
    exact Or.inl ⟨rfl, hf⟩

/-- What comes in under a leased name reaches its source if the filter lets it pass. -/
theorem inbound_eq {t : State Src M F Name} {src : Src} {m : M} {n : Name}
    (hn : t.leases.find (src, m) = some n) (peer : Dst) :
    inbound pol t n peer = if (n, pol.filterKey peer) ∈ t.passes then some src else none := by
  unfold inbound
  split
  · cases hfind : t.leases.entries.find? fun p => p.2 == n with
    | none =>
      have hmem := Leases.mem_of_find hn
      exact absurd (beq_self_eq_true n) (List.find?_eq_none.mp hfind _ hmem)
    | some p =>
      have hname := List.find?_some hfind
      rw [beq_iff_eq] at hname
      have hp : (p.1, n) ∈ t.leases.entries := hname ▸ List.mem_of_find?_eq_some hfind
      have hkey := (Leases.name_eq_iff (Leases.find_iff_mem.mpr hp) hn).mp rfl
      rw [Option.map_some, hkey]
  · rfl

end Packets

/-! ## The usual translators -/

/-- What of a destination is looked at. -/
inductive Dependence where
  | endpointIndependent
  | addressDependent
  | addressAndPortDependent
deriving DecidableEq

namespace Dependence

variable {Host Port : Type}

def key : Dependence → Host × Port → Option Host × Option Port
  | endpointIndependent, _ => (none, none)
  | addressDependent, d => (some d.1, none)
  | addressAndPortDependent, d => (some d.1, some d.2)

/-- Two destinations look the same. -/
def same : Dependence → Host × Port → Host × Port → Prop
  | endpointIndependent, _, _ => True
  | addressDependent, d, d' => d.1 = d'.1
  | addressAndPortDependent, d, d' => d = d'

instance [DecidableEq Host] [DecidableEq Port] (k : Dependence) (d d' : Host × Port) :
    Decidable (k.same d d') :=
  match k with
  | endpointIndependent => isTrue trivial
  | addressDependent => inferInstanceAs (Decidable (d.1 = d'.1))
  | addressAndPortDependent => inferInstanceAs (Decidable (d = d'))

theorem key_eq_iff (k : Dependence) (d d' : Host × Port) : k.key d = k.key d' ↔ k.same d d' := by
  cases k with
  | endpointIndependent => simp [key, same]
  | addressDependent => simp [key, same]
  | addressAndPortDependent =>
    simp only [key, same, Prod.mk.injEq, Option.some.injEq]
    exact Prod.ext_iff.symm

def policy (mapping filtering : Dependence) :
    Policy (Host × Port) (Option Host × Option Port) (Option Host × Option Port) :=
  ⟨mapping.key, filtering.key⟩

end Dependence

end Translation
