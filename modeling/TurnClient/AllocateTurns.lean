import TurnClient.RelayAnnouncement

/-!
# The turns of an allocation

What a turn of `clnet_allocate` does to the two statics that outlive the call,
the token of the last allocation and the flag that alternates between the two
allocations of a pair, and which attributes the Allocate request carries for
them. The builder takes the token in place of EVEN-PORT and the address
families; the tail that every request shares adds none of these.
-/

namespace TurnClient

open ByteMemory
set_option autoImplicit false

/-- The token `clnet_allocate` reads from a response; 0 stands for none. -/
def reservationToken (m : StunBuffer) : BitVec 64 :=
  stunAttrGetReservationTokenValue m.buf
    (stunAttrGetFirstByTypeStr m.buf m.len stunAttributeReservationToken)

/-- The value of every RESERVATION-TOKEN attribute of a message. -/
def carriedTokens (m : StunBuffer) : List (List Byte) :=
  ((attrRefs m.buf m.len).filter fun sar => get16 m.buf sar == stunAttributeReservationToken).map
    (attrValue m.buf)

/-- EVEN-PORT and the address families, which a reservation excludes. -/
def excludedTypes : List (BitVec 16) :=
  [stunAttributeEvenPort, stunAttributeRequestedAddressFamily, stunAttributeAdditionalAddressFamily]

/-! ## The attributes of an Allocate request -/

/-- A record that may stand in a request built for this token. -/
def FitsToken (rt : Option (List Byte)) (r : Tlv.Record) : Prop :=
  (r.1 = stunAttributeReservationToken → rt = some r.2) ∧ (rt.isSome → r.1 ∉ excludedTypes)

theorem fitsToken_of_not_mem {rt : Option (List Byte)} {attr : BitVec 16} (v : List Byte)
    (h : attr ∉ stunAttributeReservationToken :: excludedTypes) : FitsToken rt (attr, v) := by
  rw [List.mem_cons, not_or] at h
  exact ⟨fun htype => absurd htype h.1, fun _ => h.2⟩

theorem fitsToken_of_tail {rt : Option (List Byte)} (r : Tlv.Record) (h : r.1 ∈ tailTypes) :
    FitsToken rt r := by
  have hdisjoint : (tailTypes.all fun t =>
      decide (t ∉ stunAttributeReservationToken :: excludedTypes)) = true := by decide
  exact fitsToken_of_not_mem r.2 (of_decide_eq_true (List.all_eq_true.mp hdisjoint r.1 h))

section Request

variable {m : StunBuffer} {msgType : BitVec 16} {tid : StunTid} {bound : Nat}

theorem ExtendsBy.forall_attrRefs {added : Tlv.Record → Prop}
    (h : ExtendsBy added m msgType tid [] bound) :
    ∀ sar ∈ attrRefs m.buf m.len, added (get16 m.buf sar, attrValue m.buf sar) := by
  obtain ⟨⟨extra, hextra, hm⟩, _⟩ := h
  intro sar hsar
  obtain ⟨r, hr, htype, hval⟩ := hm.exists_record hsar
  rw [htype, hval]
  exact hextra r hr

variable {rt : Option (List Byte)}

/-- An attribute that is added under a condition. -/
theorem ExtendsBy.addIf (h : ExtendsBy (FitsToken rt) m msgType tid [] bound) (b : Prop)
    [Decidable b] (attr : BitVec 16) (v : List Byte) (hfits : b → FitsToken rt (attr, v)) {n : Nat}
    (hn : v.length ≤ n) (hroom : bound + n + 8 ≤ 65507) :
    ∃ m', (if b then stunAttrAddBytes m attr v else (.ok, m)) = (.ok, m') ∧
      ExtendsBy (FitsToken rt) m' msgType tid [] (bound + n + 8) := by
  by_cases hb : b
  · rw [if_pos hb]
    exact h.addString attr v (hfits hb) hn hroom
  · rw [if_neg hb]
    exact ⟨m, rfl, h.mono (by omega)⟩

theorem ExtendsBy.requestedFamily (h : ExtendsBy (FitsToken rt) m msgType tid [] bound)
    (hrt : ∀ token, rt = some token → token.length = 8) (hroom : bound + 16 ≤ 65507)
    (af4 af6 : Bool) :
    ExtendsBy (FitsToken rt) (addRequestedFamily m af4 af6 rt).2 msgType tid [] (bound + 16) := by
  cases rt with
  | some token =>
    have halone : stunAttributeReservationToken ∉ excludedTypes := by decide
    have hfits : FitsToken (some token) (stunAttributeReservationToken, token) :=
      ⟨fun _ => rfl, fun _ => halone⟩
    obtain ⟨m', hcall, e⟩ := h.addString stunAttributeReservationToken token hfits
      (Nat.le_of_eq (hrt token rfl)) hroom
    rw [stunAttrAddString, hrt token rfl] at hcall
    change ExtendsBy _ (stunAttrAddStr m stunAttributeReservationToken (some (ofList token))
      ((8 : Nat) : Int)).2 msgType tid [] (bound + 16)
    rw [hcall]
    exact e
  | none =>
    have hfamily (attr : BitVec 16) (hattr : attr ≠ stunAttributeReservationToken) (x : Byte) :
        ExtendsBy (FitsToken none) (stunAttrAddBytes m attr [x, 0, 0, 0]).2 msgType tid []
          (bound + 16) := by
      obtain ⟨m', hcall, e⟩ := h.addString attr [x, 0, 0, 0] (n := 4)
        ⟨fun heq => absurd heq hattr, fun hsome => by cases hsome⟩ (Nat.le_refl _) (by omega)
      rw [stunAttrAddBytes, ← stunAttrAddString, hcall]
      exact e.mono (by omega)
    unfold addRequestedFamily
    simp only
    split
    · exact hfamily _ (by decide) _
    split
    · exact hfamily _ (by decide) _
    split
    · exact hfamily _ (by decide) _
    · exact h.mono (by omega)

end Request

theorem stunSetAllocateRequestStr_fits (c : Choice) (lifetime : BitVec 32) (af4 af6 : Bool)
    (transport : Byte) (mobile : Bool) {rt : Option (List Byte)}
    (hrt : ∀ token, rt = some token → token.length = 8) {ep : Int} (hep : rt.isSome → ep = -1) :
    ExtendsBy (FitsToken rt)
      (stunSetAllocateRequestStr c lifetime af4 af6 transport mobile rt ep).2
      (stunMakeRequest stunMethodAllocate &&& 0x3FFF) c.tid [] 100 := by
  have h₀ : ExtendsBy (FitsToken rt) (stunInitRequestStr stunMethodAllocate (c.junk 0) c.tid)
      (stunMakeRequest stunMethodAllocate &&& 0x3FFF) c.tid [] 20 :=
    (isMessage_initRequest stunMethodAllocate (c.junk 0) c.tid).extendsBy
  obtain ⟨m₁, h₁, e₁⟩ := h₀.addString stunAttributeRequestedTransport [transport, 0, 0, 0]
    (fitsToken_of_not_mem _ (by decide)) (Nat.le_refl 4) (by omega)
  obtain ⟨m₂, h₂, e₂⟩ := e₁.addString stunAttributeLifetime
    (be32 (if lifetime.toNat < 1 then 600 else lifetime)) (fitsToken_of_not_mem _ (by decide))
    (Nat.le_refl 4) (by omega)
  obtain ⟨m₃, h₃, e₃⟩ := e₂.addIf (mobile = true) stunAttributeMobilityTicket []
    (fun _ => fitsToken_of_not_mem _ (by decide)) (Nat.le_refl 0) (by omega)
  have hport : -1 < ep →
      FitsToken rt (stunAttributeEvenPort, [if ep ≠ 0 then 0x80 else 0x00]) := by
    intro hlt
    have hne : stunAttributeEvenPort ≠ stunAttributeReservationToken := by decide
    refine ⟨fun htype => absurd htype hne, fun hsome => ?_⟩
    have hminus := hep hsome
    omega
  obtain ⟨m₄, h₄, e₄⟩ := e₃.addIf (-1 < ep) stunAttributeEvenPort
    [if ep ≠ 0 then 0x80 else 0x00] hport (Nat.le_refl 1) (by omega)
  have e₅ := e₄.requestedFamily hrt (by omega) af4 af6
  rw [stunAttrAddString, ← stunAttrAddBytes] at h₁ h₂
  simp only [stunSetAllocateRequestStr, h₁, h₂, h₃, h₄, Rc.andThen]
  exact e₅.mono (by omega)

/-- The token the next Allocate request of a client carries. -/
def nextToken (s : Client) : Option (List Byte) :=
  if s.allocateRtcp then some (be64 s.currentReservationToken) else none

theorem allocateRequest_fits {g : Globals} (hg : g.noRtcp = false) (af : AddressFamilyValue)
    (c : Choice) (s : Client) :
    ExtendsBy (FitsToken (nextToken s)) (allocateRequest g af c s)
      (stunMakeRequest stunMethodAllocate &&& 0x3FFF) c.tid [] 200 := by
  have hrt : (if (!g.noRtcp && s.allocateRtcp) = true then some (be64 s.currentReservationToken)
      else none) = nextToken s := by
    rw [hg]
    rfl
  have hlen : ∀ token, nextToken s = some token → token.length = 8 := by
    intro token htoken
    unfold nextToken at htoken
    split at htoken <;> cases htoken
    rfl
  unfold allocateRequest
  simp only [hrt]
  generalize hep : (if g.relayTransport = 6 then (-1 : Int) else if (nextToken s).isSome then -1
    else _) = ep
  have hep' : (nextToken s).isSome → ep = -1 := by
    intro hsome
    rw [← hep, if_pos hsome, ite_self]
  have e₁ := stunSetAllocateRequestStr_fits c uclientSessionLifetime
    (g.dualAllocation || af == .ipv4) (g.dualAllocation || af == .ipv6) g.relayTransport g.mobility
    hlen hep'
  generalize (stunSetAllocateRequestStr c uclientSessionLifetime (g.dualAllocation || af == .ipv4)
    (g.dualAllocation || af == .ipv6) g.relayTransport g.mobility (nextToken s) ep).2 = m₁ at e₁ ⊢
  have e₂ : ExtendsBy (FitsToken (nextToken s))
      (if g.bps ≠ 0 then (stunAttrAddBandwidthStr m₁ g.bps).2 else m₁)
      (stunMakeRequest stunMethodAllocate &&& 0x3FFF) c.tid [] 112 := by
    obtain ⟨m₂, h₂, e₂⟩ := e₁.addString stunAttributeNewBandwidth
      (be32 ((g.bps >>> 7).setWidth 32)) (fitsToken_of_not_mem _ (by decide)) (Nat.le_refl 4)
      (by omega)
    split
    · rw [stunAttrAddBandwidthStr, stunAttrAddBytes, ← stunAttrAddString, h₂]
      exact e₂
    · exact e₁.mono (by omega)
  generalize (if g.bps ≠ 0 then (stunAttrAddBandwidthStr m₁ g.bps).2 else m₁) = m₂ at e₂ ⊢
  obtain ⟨m₃, h₃, e₃⟩ := e₂.addStr stunAttributeDontFragment none 0
    (fitsToken_of_not_mem _ (by decide)) (Nat.le_refl 0) (by omega)
  split
  · rw [h₃]
    exact e₃.mono (by omega)
  · exact e₂.mono (by omega)

/-- The tokens and the other attributes of a request agree with the statics. -/
structure FitsStatics (s : Client) (m : StunBuffer) : Prop where
  tokens : ∀ token ∈ carriedTokens m, nextToken s = some token
  alone : (nextToken s).isSome → ∀ sar ∈ attrRefs m.buf m.len, get16 m.buf sar ∉ excludedTypes

theorem finishRequest_fits {g : Globals} (hg : g.noRtcp = false) (af : AddressFamilyValue)
    (c : Choice) (ci : ConnInfo) (s : Client) :
    FitsStatics s (finishRequest g c ci (allocateRequest g af c s)).2.2 := by
  have h := ((allocateRequest_fits hg af c s).finish fitsToken_of_tail (by omega) g c
    ci).forall_attrRefs
  refine ⟨?_, fun hsome sar hsar => (h sar hsar).2 hsome⟩
  intro token htoken
  obtain ⟨sar, hsar, rfl⟩ := List.mem_map.mp htoken
  obtain ⟨hmem, htype⟩ := List.mem_filter.mp hsar
  exact (h sar hmem).1 (beq_iff_eq.mp htype)

/-! ## What a turn does to the statics -/

structure SameStatics (s s' : Client) : Prop where
  token : s'.currentReservationToken = s.currentReservationToken
  rtcp : s'.allocateRtcp = s.allocateRtcp
  family : s'.defaultAddressFamily = s.defaultAddressFamily

theorem SameStatics.refl (s : Client) : SameStatics s s := ⟨rfl, rfl, rfl⟩

theorem SameStatics.trans {s s' s'' : Client} (h : SameStatics s s') (h' : SameStatics s' s'') :
    SameStatics s s'' :=
  ⟨h'.token.trans h.token, h'.rtcp.trans h.rtcp, h'.family.trans h.family⟩

theorem SameStatics.nextToken_eq {s s' : Client} (h : SameStatics s s') :
    nextToken s' = nextToken s := by
  rw [nextToken, h.token, h.rtcp, nextToken]

theorem authenticate_statics (g : Globals) (c : Choice) (s : Client) (m : StunBuffer) :
    SameStatics s (s.authenticate g c m).2 := by
  obtain ⟨checks, hcheck⟩ := s.authenticate_eq g c m
  rw [hcheck]
  exact ⟨rfl, rfl, rfl⟩

theorem receive_statics (c : Choice) (s : Client) : (receive c s).All (SameStatics s) :=
  receive_all c fun _ _ => ⟨rfl, rfl, rfl⟩

theorem reopenSocketStep_statics {g : Globals} {c : Choice} {reopenSocket reopenSocket' : Bool}
    {s s' : Client} (h : reopenSocketStep g c reopenSocket s = some (reopenSocket', s')) :
    SameStatics s s' ∧ s'.sent = s.sent := by
  rcases reopenSocketStep_cases h with ⟨_, rfl⟩ | ⟨_, rfl⟩
  · exact ⟨⟨rfl, rfl, rfl⟩, rfl⟩
  · exact ⟨.refl s', rfl⟩

theorem reopenForMobility_statics {c : Choice} {s s' : Client}
    (h : reopenForMobility c s = some s') : SameStatics s s' := by
  rcases reopenForMobility_cases h with ⟨_, rfl⟩ | ⟨_, rfl⟩
  · exact ⟨rfl, rfl, rfl⟩
  · exact .refl s'

/-- One Allocate request goes out, or none does and the call is over. -/
theorem allocate_turn {g : Globals} (hg : g.noRtcp = false) (af : AddressFamilyValue) (c : Choice)
    (afCycle : Nat) (reopenSocket : Bool) (s : Client) :
    (clnetAllocateStep g af c (.allocate afCycle reopenSocket) s).Holds
      (fun pc s' => (∃ n reopen, pc = .allocateResponse n reopen) ∧ SameStatics s s' ∧
        ∃ m, s'.sent = s.sent ++ [m] ∧ FitsStatics s m)
      (fun _ s' => SameStatics s s' ∧
        (s'.sent = s.sent ∨ ∃ m, s'.sent = s.sent ++ [m] ∧ FitsStatics s m)) := by
  -- what is built behind the socket step fits the statics from before it
  have hfits {s₁ : Client} {rc : Int} {info : ConnInfo} {m : StunBuffer} {reopen : Bool}
      (hreopen : reopenSocketStep g c reopenSocket s = some (reopen, s₁))
      (hbuilt : finishRequest g c s₁.info (allocateRequest g af c s₁) = (rc, info, m)) :
      FitsStatics s m := by
    have hbuilt' := finishRequest_fits hg af c s₁.info s₁
    rw [hbuilt] at hbuilt'
    have hnext := (reopenSocketStep_statics hreopen).1.nextToken_eq
    exact ⟨hnext ▸ hbuilt'.tokens, hnext ▸ hbuilt'.alone⟩
  have hturn := clnetAllocateStep_turn g af c (.allocate afCycle reopenSocket) s
  generalize clnetAllocateStep g af c (.allocate afCycle reopenSocket) s = turn at hturn
  cases hturn with
  | ended _ => exact ⟨.refl s, Or.inl rfl⟩
  | allocateEnds _ hreopen hbuilt hsent _ =>
    obtain ⟨hstatics, hlog⟩ := reopenSocketStep_statics hreopen
    refine ⟨⟨hstatics.token, hstatics.rtcp, hstatics.family⟩, ?_⟩
    rw [← hlog]
    exact hsent.imp_right fun hsent => ⟨_, hsent, hfits hreopen hbuilt⟩
  | allocateSent _ hreopen hbuilt =>
    obtain ⟨hstatics, hlog⟩ := reopenSocketStep_statics hreopen
    refine ⟨⟨_, _, rfl⟩, ⟨hstatics.token, hstatics.rtcp, hstatics.family⟩, ?_⟩
    rw [← hlog]
    exact ⟨_, rfl, hfits hreopen hbuilt⟩

def AllocPc.refreshing : AllocPc → Bool
  | .refresh _ => true
  | .refreshResponse _ => true
  | _ => false

theorem refresh_turn (g : Globals) (af : AddressFamilyValue) (c : Choice) {pc : AllocPc}
    (hpc : pc.refreshing = true) (s : Client) :
    (clnetAllocateStep g af c pc s).Holds
      (fun pc' s' => pc'.refreshing = true ∧ SameStatics s s') (fun _ s' => SameStatics s s') := by
  have hrecv := receive_statics c s
  have hturn := clnetAllocateStep_turn g af c pc s
  generalize clnetAllocateStep g af c pc s = turn at hturn
  cases hturn with
  | ended _ => exact SameStatics.refl s
  | refreshEnds _ _ _ _ => exact ⟨rfl, rfl, rfl⟩
  | refreshSent _ _ _ => exact ⟨rfl, rfl, rfl, rfl⟩
  | refreshTaken hr =>
    rw [hr] at hrecv
    have hsame : SameStatics s _ := hrecv
    exact ⟨hsame.token, hsame.rtcp, hsame.family⟩
  | refreshChallenged hr =>
    rw [hr] at hrecv
    exact ⟨rfl, hrecv⟩
  | refreshRefused hr _ =>
    rw [hr] at hrecv
    exact hrecv
  | refreshUnknown hr =>
    rw [hr] at hrecv
    exact ⟨rfl, hrecv⟩
  | _ => cases hpc

/-! ## Taking a success response over -/

/-- A usable relayed address stands before every one that cannot be decoded. -/
def RelayReadable (daf : AddressFamilyValue) (buf : Mem) (refs : List Nat) : Prop :=
  ∃ pre sar post, refs = pre ++ sar :: post ∧ isRelayAttr buf sar = true ∧
    (∃ addr, decodedRelay buf sar = some addr ∧ relayWanted daf addr = true) ∧
    ∀ a ∈ pre, isRelayAttr buf a = true → (decodedRelay buf a).isSome

theorem relayReadable_cons (daf : AddressFamilyValue) (buf : Mem) (a : Nat) (refs : List Nat) :
    RelayReadable daf buf (a :: refs) ↔
      (isRelayAttr buf a = true ∧
        ∃ addr, decodedRelay buf a = some addr ∧ relayWanted daf addr = true) ∨
      ((isRelayAttr buf a = true → (decodedRelay buf a).isSome) ∧ RelayReadable daf buf refs) := by
  constructor
  · rintro ⟨pre, sar, post, hrefs, hattr, husable, hpre⟩
    cases pre with
    | nil =>
      cases hrefs
      exact Or.inl ⟨hattr, husable⟩
    | cons b pre =>
      cases hrefs
      refine Or.inr ⟨hpre a List.mem_cons_self, pre, sar, post, rfl, hattr, husable, ?_⟩
      intro b hb
      exact hpre b (List.mem_cons_of_mem a hb)
  · rintro (⟨hattr, husable⟩ | ⟨ha, pre, sar, post, rfl, hattr, husable, hpre⟩)
    · exact ⟨[], a, refs, rfl, hattr, husable, by simp⟩
    · exact ⟨a :: pre, sar, post, rfl, hattr, husable, List.forall_mem_cons.mpr ⟨ha, hpre⟩⟩

theorem scanRelay_found_iff (daf : AddressFamilyValue) (buf : Mem) (refs : List Nat) :
    (∃ addr, (scanRelay daf buf refs).2 = .found addr) ↔ RelayReadable daf buf refs := by
  induction refs with
  | nil =>
    constructor
    · rintro ⟨addr, h⟩
      cases h
    · rintro ⟨pre, sar, post, h, _⟩
      simp at h
  | cons a refs ih =>
    rw [relayReadable_cons, scanRelay, ← ih]
    by_cases hattr : get16 buf a = stunAttributeXorRelayedAddress
    · have hattr' : isRelayAttr buf a = true := by simpa [isRelayAttr] using hattr
      rw [if_pos hattr]
      rcases decodedRelay_cases buf a with ⟨hnone, hrc⟩ | ⟨addr, hsome, hok, _⟩
      · simp [hattr', hnone, hrc]
      · simp only [hok, hattr', hsome]
        by_cases hwanted : relayWanted daf addr = true <;> simp [hwanted]
    · have hattr' : isRelayAttr buf a = false := by simpa [isRelayAttr] using hattr
      rw [if_neg hattr]
      simp [hattr']

instance RelayReadable.decidable (daf : AddressFamilyValue) (buf : Mem) (refs : List Nat) :
    Decidable (RelayReadable daf buf refs) :=
  have : Decidable (∃ addr, (scanRelay daf buf refs).2 = .found addr) :=
    match (scanRelay daf buf refs).2 with
    | .found addr => isTrue ⟨addr, rfl⟩
    | .failed => isFalse (by simp)
    | .missing => isFalse (by simp)
  decidable_of_iff _ (scanRelay_found_iff daf buf refs)

/-- An authentic success response: the statics it leaves, by whether a relayed
address is readable in it. -/
theorem allocateSucceeded_statics (s : Client) (m : StunBuffer) :
    let scan := scanRelay s.defaultAddressFamily m.buf (attrRefs m.buf m.len)
    (allocateSucceeded s m).2.allocateRtcp = s.allocateRtcp ∧
      (((∃ addr, scan.2 = .found addr) ∧ (allocateSucceeded s m).1 = 0 ∧
        (allocateSucceeded s m).2.currentReservationToken = reservationToken m) ∨
      ((¬∃ addr, scan.2 = .found addr) ∧ (allocateSucceeded s m).1 = -1)) := by
  unfold allocateSucceeded
  simp only
  cases (scanRelay s.defaultAddressFamily m.buf (attrRefs m.buf m.len)).2 with
  | failed => exact ⟨rfl, Or.inr ⟨by simp, rfl⟩⟩
  | missing => exact ⟨rfl, Or.inr ⟨by simp, rfl⟩⟩
  | found addr => exact ⟨rfl, Or.inl ⟨⟨addr, rfl⟩, rfl, rfl⟩⟩

end TurnClient
