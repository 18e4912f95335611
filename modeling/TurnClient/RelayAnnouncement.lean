import TurnClient.Transactions

/-!
# Announcing the relayed address

`clnet_allocate` announces every relayed address it decodes on the way to the
one it stores, and it announces each of them as IPv4 text. What the callback
hears agrees with the address of the session only when the first
XOR-RELAYED-ADDRESS attribute is the one that is stored.
-/

namespace TurnClient

open ByteMemory
set_option autoImplicit false

/-- What the callback is given for an address: the text and the port. -/
structure AddressAnnouncement where
  text : List Char
  port : Nat
deriving DecidableEq

def notifyIp (addr : IoaAddr) : AddressAnnouncement := ⟨notifiedText addr, addr.port.toNat⟩

/-- An address in the notation of its own family. -/
def ownNotation (addr : IoaAddr) : AddressAnnouncement := ⟨addrText addr, addr.port.toNat⟩

/-- The RELAY_IP calls of the callback from one state to another. -/
def relayAnnouncements (s s' : Client) : List AddressAnnouncement :=
  ((s'.notified.drop s.notified.length).filter fun n => n.1 == .relayIp).map fun n => notifyIp n.2

def decodedRelay (buf : Mem) (sar : Nat) : Option IoaAddr :=
  match stunAttrGetAddrStr addrMappings buf (some sar) none with
  | (0, addr) => some addr
  | _ => none

def isRelayAttr (buf : Mem) (sar : Nat) : Bool := get16 buf sar == stunAttributeXorRelayedAddress

/-- The response has a relayed address of the family the session works with. -/
def HasUsableRelay (daf : AddressFamilyValue) (m : StunBuffer) : Prop :=
  ∃ sar ∈ attrRefs m.buf m.len, isRelayAttr m.buf sar = true ∧
    ∃ addr, decodedRelay m.buf sar = some addr ∧ relayWanted daf addr = true

/-- One announcement, of the address that is stored; none without a usable address. -/
structure AnnouncedOnce (s : Client) (m : StunBuffer) (turn : Drive.Turn AllocPc Client Ret) :
    Prop where
  usable : HasUsableRelay s.defaultAddressFamily m →
    ∃ s', turn = .again .allocated s' ∧ relayAnnouncements s s' = [ownNotation s'.info.relayAddr]
  unusable : ¬HasUsableRelay s.defaultAddressFamily m → relayAnnouncements s turn.state = []

/-- The first relayed address is a usable IPv4 address, or it cannot be decoded
and no later one is usable. -/
def FirstRelayDecides (daf : AddressFamilyValue) (m : StunBuffer) : Prop :=
  ∀ sar, (attrRefs m.buf m.len).find? (isRelayAttr m.buf) = some sar →
    match decodedRelay m.buf sar with
    | some addr => relayWanted daf addr = true ∧ addr.family = .inet
    | none => ¬HasUsableRelay daf m

/-! ## The walk -/

theorem decodedRelay_cases (buf : Mem) (sar : Nat) :
    (decodedRelay buf sar = none ∧ (stunAttrGetAddrStr addrMappings buf (some sar) none).1 < 0) ∨
    ∃ addr, decodedRelay buf sar = some addr ∧
      stunAttrGetAddrStr addrMappings buf (some sar) none = (0, addr) ∧
      (addr.family = .inet ∨ addr.family = .inet6) := by
  unfold decodedRelay
  rcases stunAttrGetAddrStr_cases buf (some sar) with h | ⟨addr, h, hfam⟩
  · rw [addrMappings, h]
    exact Or.inl ⟨rfl, by decide⟩
  · rw [addrMappings, h]
    exact Or.inr ⟨addr, rfl, rfl, hfam⟩

theorem scanRelay_skip {daf : AddressFamilyValue} {buf : Mem} {pre : List Nat}
    (hpre : ∀ sar ∈ pre, isRelayAttr buf sar = false) (rest : List Nat) :
    scanRelay daf buf (pre ++ rest) = scanRelay daf buf rest := by
  induction pre with
  | nil => rfl
  | cons sar pre ih =>
    have hne : get16 buf sar ≠ stunAttributeXorRelayedAddress := by
      simpa [isRelayAttr] using hpre sar List.mem_cons_self
    rw [List.cons_append, scanRelay, if_neg hne]
    exact ih fun b hb => hpre b (List.mem_cons_of_mem sar hb)

theorem scanRelay_found_ne_nil {daf : AddressFamilyValue} {buf : Mem} {refs : List Nat}
    {addr : IoaAddr} (h : (scanRelay daf buf refs).2 = .found addr) :
    (scanRelay daf buf refs).1 ≠ [] := by
  induction refs with
  | nil => cases h
  | cons sar refs ih =>
    rw [scanRelay] at h ⊢
    by_cases htype : get16 buf sar = stunAttributeXorRelayedAddress
    · simp only [if_pos htype] at h ⊢
      split at h
      · cases h
      · rename_i hrc
        rw [if_neg hrc]
        split <;> simp
    · rw [if_neg htype] at h ⊢
      exact ih h

/-- What the walk does, by the first attribute that holds a relayed address. -/
theorem scanRelay_cases (daf : AddressFamilyValue) (buf : Mem) (refs : List Nat) :
    (refs.find? (isRelayAttr buf) = none ∧ scanRelay daf buf refs = ([], .missing)) ∨
    ∃ sar, refs.find? (isRelayAttr buf) = some sar ∧
      ((decodedRelay buf sar = none ∧ scanRelay daf buf refs = ([], .failed)) ∨
      ∃ addr, decodedRelay buf sar = some addr ∧ (addr.family = .inet ∨ addr.family = .inet6) ∧
        ((relayWanted daf addr = true ∧ scanRelay daf buf refs = ([addr], .found addr)) ∨
        (relayWanted daf addr = false ∧ ∃ more outcome,
          scanRelay daf buf refs = (addr :: more, outcome) ∧
          ∀ found, outcome = .found found → more ≠ []))) := by
  cases hfind : refs.find? (isRelayAttr buf) with
  | none =>
    refine Or.inl ⟨rfl, ?_⟩
    have hpre : ∀ sar ∈ refs, isRelayAttr buf sar = false := by
      intro sar hsar
      simpa using List.find?_eq_none.mp hfind sar hsar
    have hskip : scanRelay daf buf (refs ++ []) = ([], .missing) := scanRelay_skip hpre []
    rwa [List.append_nil] at hskip
  | some sar =>
    refine Or.inr ⟨sar, rfl, ?_⟩
    obtain ⟨htype, pre, post, rfl, hpre⟩ := List.find?_eq_some_iff_append.mp hfind
    have htype' : get16 buf sar = stunAttributeXorRelayedAddress := by
      simpa [isRelayAttr] using htype
    rw [scanRelay_skip (fun b hb => by simpa using hpre b hb), scanRelay, if_pos htype']
    rcases decodedRelay_cases buf sar with ⟨hnone, hrc⟩ | ⟨addr, hsome, hok, hfam⟩
    · exact Or.inl ⟨hnone, by simp only [if_pos hrc]⟩
    · refine Or.inr ⟨addr, hsome, hfam, ?_⟩
      simp only [hok]
      rw [if_neg (by decide)]
      by_cases hwanted : relayWanted daf addr = true
      · exact Or.inl ⟨hwanted, if_pos hwanted⟩
      · refine Or.inr ⟨by simpa using hwanted, _, _, if_neg hwanted, ?_⟩
        intro found hfound
        exact scanRelay_found_ne_nil hfound

/-! ## The response of a successful allocation -/

/-- Taking a success response over, by what the walk found. -/
theorem allocateSucceeded_cases (s : Client) (m : StunBuffer) :
    let scan := scanRelay s.defaultAddressFamily m.buf (attrRefs m.buf m.len)
    (allocateSucceeded s m).2.notified = s.notified ++ scan.1.map (fun a => (.relayIp, a)) ∧
    ((∃ addr, scan.2 = .found addr ∧ (allocateSucceeded s m).1 = 0 ∧
        (allocateSucceeded s m).2.info.relayAddr = addr) ∨
      ((∀ addr, scan.2 ≠ .found addr) ∧ (allocateSucceeded s m).1 = -1)) := by
  unfold allocateSucceeded
  simp only
  cases hscan : (scanRelay s.defaultAddressFamily m.buf (attrRefs m.buf m.len)).2 with
  | failed => exact ⟨rfl, Or.inr ⟨by simp, rfl⟩⟩
  | missing => exact ⟨rfl, Or.inr ⟨by simp, rfl⟩⟩
  | found addr =>
    refine ⟨rfl, Or.inl ⟨addr, rfl, rfl, ?_⟩⟩
    simp only [Client.accept, readMobilityTicket]
    split
    · rfl
    · split <;> rfl

theorem relayAnnouncements_eq {s s' : Client} {addrs : List IoaAddr}
    (h : s'.notified = s.notified ++ addrs.map fun a => (.relayIp, a)) :
    relayAnnouncements s s' = addrs.map notifyIp := by
  rw [relayAnnouncements, h, List.drop_left, List.filter_map, List.map_map]
  simp [Function.comp_def]

/-- The turn of `clnet_allocate` that takes an authentic success response over. -/
theorem allocateResponse_turn {g : Globals} {af : AddressFamilyValue} {c : Choice}
    {s s₁ : Client} {m : StunBuffer} (afCycle : Nat) (reopenSocket : Bool)
    (hrecv : receive c s = .success m s₁) (hauth : 0 ≤ (s₁.authenticate g c m).1) :
    clnetAllocateStep g af c (.allocateResponse afCycle reopenSocket) s =
      let r := allocateSucceeded (s₁.authenticate g c m).2 m
      if r.1 < 0 then .stop (.rc (-1)) r.2 else .again .allocated r.2 := by
  simp only [clnetAllocateStep, hrecv]
  rw [if_neg (by omega)]

theorem receive_success {c : Choice} {s s₁ : Client} {m : StunBuffer}
    (h : receive c s = .success m s₁) :
    s₁ = { s with received := s.received ++ [m] } ∧
      stunIsSuccessResponseStr m.buf m.len = true := by
  unfold receive at h
  simp only at h
  split at h
  · cases h
  split at h
  · rename_i hsuccess
    cases h
    exact ⟨rfl, hsuccess⟩
  split at h
  · cases h
  split at h
  · cases h
  split at h <;> cases h

theorem authenticate_frame (g : Globals) (c : Choice) (s : Client) (m : StunBuffer) :
    (s.authenticate g c m).2.notified = s.notified ∧
      (s.authenticate g c m).2.defaultAddressFamily = s.defaultAddressFamily := by
  obtain ⟨checks, hcheck⟩ := s.authenticate_eq g c m
  rw [hcheck]
  exact ⟨rfl, rfl⟩

/-- How a turn of an accepted response ends, by the return code of the walk. -/
def allocateTurn (rc : Int) (s : Client) : Drive.Turn AllocPc Client Ret :=
  if rc < 0 then .stop (.rc (-1)) s else .again .allocated s

theorem allocateTurn_state (rc : Int) (s : Client) : (allocateTurn rc s).state = s := by
  unfold allocateTurn
  split <;> rfl

theorem allocateTurn_eq_again_iff (rc : Int) (s s' : Client) :
    allocateTurn rc s = .again .allocated s' ↔ 0 ≤ rc ∧ s' = s := by
  unfold allocateTurn
  split
  · simp only [reduceCtorEq, false_iff]
    omega
  · simp only [Drive.Turn.again.injEq, true_and]
    constructor
    · rintro rfl
      exact ⟨by omega, rfl⟩
    · rintro ⟨_, rfl⟩
      rfl

theorem notifyIp_eq_ownNotation_iff {addr : IoaAddr}
    (h : addr.family = .inet ∨ addr.family = .inet6) :
    notifyIp addr = ownNotation addr ↔ addr.family = .inet := by
  rw [notifyIp, ownNotation, AddressAnnouncement.mk.injEq, notifiedText_eq_addrText_iff h]
  exact and_iff_left rfl

/-- Where no address is usable, the turn has to be silent and is. -/
theorem announcedOnce_of_silent {s s' : Client} {m : StunBuffer} {rc : Int}
    (hno : ¬HasUsableRelay s.defaultAddressFamily m) (hann : relayAnnouncements s s' = []) :
    AnnouncedOnce s m (allocateTurn rc s') := by
  constructor
  · intro husable
    exact absurd husable hno
  · intro _
    rw [allocateTurn_state, hann]

/-- An address that is stored is announced, and the notations agree for IPv4 only. -/
theorem announcedOnce_of_stored {s s' : Client} {m : StunBuffer} {rc : Int} {addr : IoaAddr}
    (husable : HasUsableRelay s.defaultAddressFamily m)
    (hfam : addr.family = .inet ∨ addr.family = .inet6)
    (hann : relayAnnouncements s s' = [notifyIp addr]) (hrc : rc = 0)
    (hstored : s'.info.relayAddr = addr) :
    AnnouncedOnce s m (allocateTurn rc s') ↔ addr.family = .inet := by
  rw [← notifyIp_eq_ownNotation_iff hfam]
  constructor
  · intro h
    obtain ⟨s'', hturn, hone⟩ := h.usable husable
    obtain ⟨_, rfl⟩ := (allocateTurn_eq_again_iff _ _ _).mp hturn
    rw [hann, hstored] at hone
    exact (List.cons.inj hone).1
  · intro heq
    refine ⟨fun _ => ⟨s', ?_, ?_⟩, fun h => absurd husable h⟩
    · exact (allocateTurn_eq_again_iff _ _ _).mpr ⟨by omega, rfl⟩
    · rw [hann, hstored, ← heq]

/-- An address that is announced and passed over is one announcement too many. -/
theorem not_announcedOnce_of_passed {s s' : Client} {m : StunBuffer} {rc : Int} {addr : IoaAddr}
    {more : List IoaAddr} (hann : relayAnnouncements s s' = (addr :: more).map notifyIp)
    (hmore : 0 ≤ rc → more ≠ []) : ¬ AnnouncedOnce s m (allocateTurn rc s') := by
  intro h
  by_cases husable : HasUsableRelay s.defaultAddressFamily m
  · obtain ⟨s'', hturn, hone⟩ := h.usable husable
    obtain ⟨hpos, rfl⟩ := (allocateTurn_eq_again_iff _ _ _).mp hturn
    rw [hann, List.map_cons] at hone
    exact hmore hpos (List.map_eq_nil_iff.mp (List.cons.inj hone).2)
  · have hnil := h.unusable husable
    rw [allocateTurn_state, hann] at hnil
    cases hnil

/-- The announcements of the walk against the address it stores. -/
theorem announcedOnce_iff {s s' : Client} {m : StunBuffer} {rc : Int}
    (hann : relayAnnouncements s s' =
      (scanRelay s.defaultAddressFamily m.buf (attrRefs m.buf m.len)).1.map notifyIp)
    (hend : (∃ addr, (scanRelay s.defaultAddressFamily m.buf (attrRefs m.buf m.len)).2 =
          .found addr ∧ rc = 0 ∧ s'.info.relayAddr = addr) ∨
      ((∀ addr, (scanRelay s.defaultAddressFamily m.buf (attrRefs m.buf m.len)).2 ≠
          .found addr) ∧ rc = -1)) :
    AnnouncedOnce s m (allocateTurn rc s') ↔ FirstRelayDecides s.defaultAddressFamily m := by
  unfold FirstRelayDecides
  rcases scanRelay_cases s.defaultAddressFamily m.buf (attrRefs m.buf m.len) with
    ⟨hfind, hscan⟩ | ⟨sar, hfind, ⟨hnone, hscan⟩ | ⟨addr, hsome, hfam, ⟨hwanted, hscan⟩ |
      ⟨hwanted, more, outcome, hscan, hmore⟩⟩⟩
  · -- no relayed address at all
    rw [hscan] at hann
    have hno : ¬HasUsableRelay s.defaultAddressFamily m := by
      rintro ⟨sar, hmem, htype, _⟩
      exact List.find?_eq_none.mp hfind sar hmem htype
    simp only [hfind, reduceCtorEq, false_implies, implies_true, iff_true]
    exact announcedOnce_of_silent hno hann
  · -- the first one cannot be decoded: the walk ends there
    rw [hscan] at hann hend
    have hrc : rc = -1 := by simpa using hend
    simp only [hfind, Option.some.injEq, forall_eq', hnone]
    constructor
    · intro h husable
      obtain ⟨_, hturn, _⟩ := h.usable husable
      have hpos := ((allocateTurn_eq_again_iff _ _ _).mp hturn).1
      omega
    · intro hno
      exact announcedOnce_of_silent hno hann
  · -- the first one is stored
    rw [hscan] at hann hend
    obtain ⟨hrc, hstored⟩ : rc = 0 ∧ s'.info.relayAddr = addr := by
      rcases hend with ⟨found, hfound, hrc, hstored⟩ | ⟨hno, _⟩
      · cases hfound
        exact ⟨hrc, hstored⟩
      · exact absurd rfl (hno addr)
    have husable : HasUsableRelay s.defaultAddressFamily m :=
      ⟨sar, List.mem_of_find?_eq_some hfind, List.find?_some hfind, addr, hsome, hwanted⟩
    simp only [hfind, Option.some.injEq, forall_eq', hsome, hwanted, true_and]
    exact announcedOnce_of_stored husable hfam hann hrc hstored
  · -- the first one is announced but not stored
    rw [hscan] at hann hend
    simp only [hfind, Option.some.injEq, forall_eq', hsome, hwanted, Bool.false_eq_true, false_and,
      iff_false]
    refine not_announcedOnce_of_passed hann fun hpos => ?_
    rcases hend with ⟨found, hfound, _, _⟩ | ⟨_, hrc⟩
    · exact hmore found hfound
    · omega

theorem relay_announced_once_iff (g : Globals) (af : AddressFamilyValue) (c : Choice)
    (s s₁ : Client) (m : StunBuffer) (afCycle : Nat) (reopenSocket : Bool)
    (hrecv : receive c s = .success m s₁) (hauth : 0 ≤ (s₁.authenticate g c m).1) :
    AnnouncedOnce s m (clnetAllocateStep g af c (.allocateResponse afCycle reopenSocket) s) ↔
      FirstRelayDecides s.defaultAddressFamily m := by
  obtain ⟨hnotified, hdaf⟩ := authenticate_frame g c s₁ m
  rw [(receive_success hrecv).1] at hnotified hdaf
  rw [allocateResponse_turn afCycle reopenSocket hrecv hauth, (receive_success hrecv).1]
  generalize ({ s with received := s.received ++ [m] }.authenticate g c m).2 = s₂ at hnotified hdaf
  obtain ⟨hlog, hend⟩ := allocateSucceeded_cases s₂ m
  rw [hnotified, hdaf] at hlog
  rw [hdaf] at hend
  exact announcedOnce_iff (relayAnnouncements_eq hlog) hend

/-- XOR-RELAYED-ADDRESS 198.51.100.7:54321. -/
def relayedV4 : List Byte := [0x00, 0x16, 0x00, 0x08, 0, 1, 0xF5, 0x23, 0xE7, 0x21, 0xC0, 0x45]

/-- XOR-RELAYED-ADDRESS [2001:db8::7]:54321, for a transaction id of zeros. -/
def relayedV6 : List Byte :=
  [0x00, 0x16, 0x00, 0x14, 0, 2, 0xF5, 0x23, 0x01, 0x13, 0xA9, 0xFA] ++ List.replicate 11 0 ++ [7]

def allocateSuccess (attrs : List Byte) : StunBuffer :=
  let bytes := responseBytes 0x0103 attrs
  ⟨ofList bytes, bytes.length⟩

/-- A fresh session that has received this response. -/
def receivedBy (m : StunBuffer) : Client := { Client.init with received := [m] }

theorem single_ipv4_relay_announced_once :
    let m := allocateSuccess relayedV4
    AnnouncedOnce Client.init m (clnetAllocateStep (Globals.initial constantSsl) .ipv4
      (Choice.receives (responseBytes 0x0103 relayedV4)) (.allocateResponse 1 false)
      Client.init) := by
  intro m
  have hrecv : receive (Choice.receives (responseBytes 0x0103 relayedV4)) Client.init =
      .success m (receivedBy m) := by
    unfold receive
    rw [if_neg (by decide), if_pos (by decide +kernel)]
    rfl
  refine (relay_announced_once_iff _ _ _ _ (receivedBy m) m _ _ hrecv (by decide +kernel)).mpr ?_
  have hfind : (attrRefs m.buf m.len).find? (isRelayAttr m.buf) = some 20 := by decide +kernel
  have hdecoded : decodedRelay m.buf 20 = some { IoaAddr.any with
      family := .inet, port := 54321, word := 0xC6336407 } := by decide +kernel
  unfold FirstRelayDecides
  rw [hfind]
  rintro sar ⟨⟩
  rw [hdecoded]
  decide

/-- A dual allocation: the IPv6 address is announced as "0.0.0.0" before the one stored. -/
theorem dual_relay_announced_twice :
    let m := allocateSuccess (relayedV6 ++ relayedV4)
    let c := Choice.receives (responseBytes 0x0103 (relayedV6 ++ relayedV4))
    receive c Client.init = .success m (receivedBy m) ∧
      0 ≤ ((receivedBy m).authenticate (Globals.initial constantSsl) c m).1 ∧
      ¬ AnnouncedOnce Client.init m (clnetAllocateStep (Globals.initial constantSsl) .ipv4 c
        (.allocateResponse 1 false) Client.init) := by
  intro m c
  refine ⟨?_, by decide +kernel, ?_⟩
  · unfold receive
    rw [if_neg (by decide), if_pos (by decide +kernel)]
    rfl
  · intro h
    have husable : HasUsableRelay Client.init.defaultAddressFamily m :=
      ⟨44, by decide +kernel, by decide +kernel, { IoaAddr.any with
        family := .inet, port := 54321, word := 0xC6336407 }, by decide +kernel, by decide⟩
    obtain ⟨s', hturn, hone⟩ := h.usable husable
    have hcount : (relayAnnouncements Client.init (clnetAllocateStep
        (Globals.initial constantSsl) .ipv4 c (.allocateResponse 1 false) Client.init).state).length =
        2 := by decide +kernel
    rw [hturn] at hcount
    have hlen := congrArg List.length hone
    rw [Drive.Turn.state] at hcount
    rw [hcount] at hlen
    cases hlen

end TurnClient
