import TurnClient.RequestBounds

/-!
# The handles of a session with a mobility ticket

Behind an allocation with a ticket `clnet_allocate` connects anew and releases
the descriptor and the TLS object of the old connection, before or behind the
new one as two random draws say. SSL_free closes the descriptor of a DTLS
object, whose BIO is made with BIO_CLOSE, and leaves the one of a TLS object
over TCP open. `sslFd` says on which descriptor a TLS object was made.
-/

namespace TurnClient

open ByteMemory
set_option autoImplicit false

/-! ## What a call releases -/

def Handle.ssl? : Handle → Option Nat
  | .ssl n => some n
  | .fd _ => none

/-- The TLS objects that were shut down and freed. -/
def freedSsls (released : List Handle) : List Nat := released.filterMap Handle.ssl?

def Handle.closes (useTcp : Bool) (sslFd : Nat → Int) : Handle → List Int
  | .fd n => [n]
  | .ssl n => if useTcp then [] else [sslFd n]

/-- The descriptors that were closed, by `close` or with a DTLS object. -/
def closedFds (useTcp : Bool) (sslFd : Nat → Int) (released : List Handle) : List Int :=
  released.flatMap (Handle.closes useTcp sslFd)

/-- The turns that connect anew: behind error 437 over UDP, and behind an allocation with a ticket. -/
def connectsAnew (g : Globals) : AllocPc → Client → Prop
  | .allocate _ reopenSocket, _ => reopenSocket = true ∧ g.useTcp = false
  | .allocated, s => s.info.sMobileId 0 ≠ 0
  | _, _ => False

instance (g : Globals) (pc : AllocPc) (s : Client) : Decidable (connectsAnew g pc s) :=
  match pc with
  | .allocate _ _ => inferInstanceAs (Decidable (_ ∧ _))
  | .allocated => inferInstanceAs (Decidable (_ ≠ _))
  | .allocateResponse _ _ | .refresh _ | .refreshResponse _ => isFalse id

def turnReleases (c : Choice) : AllocPc → Client → List Handle
  | .allocate _ _, s => [.fd s.info.fd]
  | .allocated, s => mobilityReleases c s.info
  | _, _ => []

structure SameHandles (s s' : Client) : Prop where
  fd : s'.info.fd = s.info.fd
  ssl : s'.info.ssl = s.info.ssl
  released : s'.released = s.released

structure NewHandles (c : Choice) (pc : AllocPc) (s s' : Client) : Prop where
  fd : s'.info.fd = c.connected.fd
  ssl : s'.info.ssl = c.connected.ssl
  released : s'.released = s.released ++ turnReleases c pc s

theorem SameHandles.refl (s : Client) : SameHandles s s := ⟨rfl, rfl, rfl⟩

theorem SameHandles.authenticate {s s' : Client} (h : SameHandles s s') (g : Globals) (c : Choice)
    (m : StunBuffer) : SameHandles s (s'.authenticate g c m).2 := by
  obtain ⟨checks, hcheck⟩ := s'.authenticate_eq g c m
  rw [hcheck]
  exact ⟨h.fd, h.ssl, h.released⟩

theorem readMobilityTicket_handles (ci : ConnInfo) (m : StunBuffer) :
    (readMobilityTicket ci m).fd = ci.fd ∧ (readMobilityTicket ci m).ssl = ci.ssl := by
  unfold readMobilityTicket
  split
  · exact ⟨rfl, rfl⟩
  · simp only
    split <;> exact ⟨rfl, rfl⟩

theorem SameHandles.allocateSucceeded {s s' : Client} (h : SameHandles s s') (m : StunBuffer) :
    SameHandles s (allocateSucceeded s' m).2 := by
  unfold TurnClient.allocateSucceeded
  simp only
  split
  · rename_i addr _
    obtain ⟨hfd, hssl⟩ := readMobilityTicket_handles { s'.info with relayAddr := addr } m
    exact ⟨hfd.trans h.fd, hssl.trans h.ssl, h.released⟩
  · exact ⟨h.fd, h.ssl, h.released⟩

theorem reopenSocketStep_handles {g : Globals} {c : Choice} {afCycle : Nat}
    {reopenSocket reopenSocket' : Bool} {s s' : Client}
    (h : reopenSocketStep g c reopenSocket s = some (reopenSocket', s')) :
    (connectsAnew g (.allocate afCycle reopenSocket) s ∧
        NewHandles c (.allocate afCycle reopenSocket) s s') ∨
      (¬ connectsAnew g (.allocate afCycle reopenSocket) s ∧ SameHandles s s') := by
  rcases reopenSocketStep_cases h with ⟨hanew, rfl⟩ | ⟨hkeep, rfl⟩
  · exact Or.inl ⟨hanew, rfl, rfl, rfl⟩
  · exact Or.inr ⟨hkeep, .refl s'⟩

theorem reopenForMobility_handles (g : Globals) {c : Choice} {s s' : Client}
    (h : reopenForMobility c s = some s') :
    (connectsAnew g .allocated s ∧ NewHandles c .allocated s s') ∨
      (¬ connectsAnew g .allocated s ∧ SameHandles s s') := by
  rcases reopenForMobility_cases h with ⟨hanew, rfl⟩ | ⟨hkeep, rfl⟩
  · exact Or.inl ⟨hanew, rfl, rfl, rfl⟩
  · exact Or.inr ⟨hkeep, .refl s'⟩

theorem SameHandles.requestBuilt {g : Globals} {c : Choice} {s : Client} {m m' : StunBuffer}
    {rc : Int} {info : ConnInfo} (hbuilt : finishRequest g c s.info m = (rc, info, m'))
    (sent : List StunBuffer) : SameHandles s { s with info := info, sent := sent } := by
  obtain ⟨key, keySet, cok, hinfo⟩ := finishRequest_info g c s.info m
  rw [hbuilt] at hinfo
  have hinfo' : info = _ := hinfo
  exact ⟨by rw [hinfo'], by rw [hinfo'], rfl⟩

theorem SameHandles.trans {s s' s'' : Client} (h : SameHandles s s') (h' : SameHandles s' s'') :
    SameHandles s s'' :=
  ⟨h'.fd.trans h.fd, h'.ssl.trans h.ssl, h'.released.trans h.released⟩

theorem NewHandles.trans {c : Choice} {pc : AllocPc} {s s' s'' : Client} (h : NewHandles c pc s s')
    (h' : SameHandles s' s'') : NewHandles c pc s s'' :=
  ⟨h'.fd.trans h.fd, h'.ssl.trans h.ssl, h'.released.trans h.released⟩

/-- What one turn does to the handles: it connects anew, or it leaves them. A call returns 0 behind
the Refresh only. -/
def MovesHandles (g : Globals) (c : Choice) (pc : AllocPc) (s s' : Client) : Prop :=
  (connectsAnew g pc s ∧ NewHandles c pc s s') ∨ (¬ connectsAnew g pc s ∧ SameHandles s s')

theorem MovesHandles.trans {g : Globals} {c : Choice} {pc : AllocPc} {s s' s'' : Client}
    (h : MovesHandles g c pc s s') (h' : SameHandles s' s'') : MovesHandles g c pc s s'' := by
  rcases h with ⟨hanew, hnew⟩ | ⟨hkeep, hsame⟩
  · exact Or.inl ⟨hanew, hnew.trans h'⟩
  · exact Or.inr ⟨hkeep, hsame.trans h'⟩

theorem receive_handles (c : Choice) (s : Client) : (receive c s).All (SameHandles s) :=
  receive_all c fun _ _ => ⟨rfl, rfl, rfl⟩

theorem clnetAllocateStep_handles (g : Globals) (af : AddressFamilyValue) (c : Choice) (pc : AllocPc)
    (s : Client) :
    (clnetAllocateStep g af c pc s).Holds (fun _ s' => MovesHandles g c pc s s')
      (fun ret s' => (MovesHandles g c pc s s' ∨ SameHandles s s') ∧
        (ret = .rc 0 → ∃ afCycle, pc = .refreshResponse afCycle)) := by
  have hkeep := receive_handles c s
  have hturn := clnetAllocateStep_turn g af c pc s
  generalize clnetAllocateStep g af c pc s = turn at hturn
  cases hturn with
  | ended hret => exact ⟨Or.inr (.refl s), fun h => absurd h hret⟩
  | allocateEnds _ hreopen hbuilt _ hret =>
    exact ⟨Or.inl (MovesHandles.trans (reopenSocketStep_handles hreopen)
      (.requestBuilt hbuilt _)), fun h => absurd h hret⟩
  | allocateSent _ hreopen hbuilt =>
    exact MovesHandles.trans (reopenSocketStep_handles hreopen) (.requestBuilt hbuilt _)
  | allocateUnanswered _ => exact Or.inr ⟨id, .refl s⟩
  | allocateUnchecked hr _ hret =>
    rw [hr] at hkeep
    exact ⟨Or.inr (SameHandles.authenticate hkeep g c _), fun h => absurd h hret⟩
  | allocateUnusable hr _ _ hret =>
    rw [hr] at hkeep
    exact ⟨Or.inr ((SameHandles.authenticate hkeep g c _).allocateSucceeded _),
      fun h => absurd h hret⟩
  | allocateTaken hr _ _ =>
    rw [hr] at hkeep
    exact Or.inr ⟨id, (SameHandles.authenticate hkeep g c _).allocateSucceeded _⟩
  | allocateRefused hr hcheck _ hret =>
    rw [hr] at hkeep
    have hsame : SameHandles s _ := hkeep
    refine ⟨Or.inr ?_, fun h => absurd h hret⟩
    rcases hcheck with rfl | rfl
    · exact ⟨hsame.fd, hsame.ssl, hsame.released⟩
    · exact ⟨(hsame.authenticate g c _).fd, (hsame.authenticate g c _).ssl,
        (hsame.authenticate g c _).released⟩
  | moved hmobility =>
    rcases reopenForMobility_handles g hmobility with ⟨hanew, hnew⟩ | ⟨hstay, hsame⟩
    · exact Or.inl ⟨hanew, hnew.fd, hnew.ssl, hnew.released⟩
    · exact Or.inr ⟨hstay, hsame.fd, hsame.ssl, hsame.released⟩
  | refreshEnds _ hbuilt _ hret =>
    exact ⟨Or.inr (.requestBuilt hbuilt _), fun h => absurd h hret⟩
  | refreshSent _ hbuilt _ => exact Or.inr ⟨id, .requestBuilt hbuilt _⟩
  | refreshTaken hr =>
    rw [hr] at hkeep
    have hsame : SameHandles s _ := hkeep
    obtain ⟨hfd, hssl⟩ := readMobilityTicket_handles _ _
    exact ⟨Or.inr ⟨hfd.trans hsame.fd, hssl.trans hsame.ssl, hsame.released⟩, fun _ => ⟨_, rfl⟩⟩
  | refreshRefused hr hret =>
    rw [hr] at hkeep
    exact ⟨Or.inr hkeep, fun h => absurd h hret⟩
  | allocateChallenged hr | allocateMismatch hr | allocateUnknown hr | refreshChallenged hr
  | refreshUnknown hr =>
    rw [hr] at hkeep
    exact Or.inr ⟨id, hkeep⟩

/-! ## Each handle once -/

section

variable (useTcp : Bool) (sslFd : Nat → Int)

/-- No TLS object was freed twice, no descriptor closed twice, and the object the session goes on
with was not freed. -/
structure HandlesOnce (s : Client) : Prop where
  freed : (freedSsls s.released).Nodup
  closed : (closedFds useTcp sslFd s.released).Nodup
  live : ∀ n, s.info.ssl = some n → n ∉ freedSsls s.released

/-- The descriptor and the TLS object of these sessions are gone. -/
def BothReleased (olds : List ConnInfo) (s : Client) : Prop :=
  ∀ old ∈ olds, old.fd ∈ closedFds useTcp sslFd s.released ∧
    ∀ n, old.ssl = some n → n ∈ freedSsls s.released

/-- The session as it is found by the mobility branch. -/
def reopenedSession (_ : Choice) : AllocPc → Client → List ConnInfo
  | .allocated, s => if s.info.sMobileId 0 ≠ 0 then [s.info] else []
  | _, _ => []

/-- A connection that is made succeeds, with a descriptor and a TLS object that are new. -/
def connectsFresh (g : Globals) (c : Choice) (pc : AllocPc) (s : Client) : Prop :=
  connectsAnew g pc s → 0 ≤ c.connectRet ∧ 0 ≤ c.connected.fd ∧ c.connected.fd ≠ s.info.fd ∧
    c.connected.fd ∉ closedFds g.useTcp sslFd s.released ∧
    ∀ n ∈ c.connected.ssl, sslFd n = c.connected.fd ∧ s.info.ssl ≠ some n ∧
      n ∉ freedSsls s.released

/-- A plain session, or one over DTLS that is released behind the new connection. -/
def releasesBoth (g : Globals) (c : Choice) : AllocPc → Client → Prop
  | .allocated, s => s.info.sMobileId 0 ≠ 0 → s.info.ssl ≠ none →
      g.useTcp = false ∧ c.random 0 % 2 ≠ 1
  | _, _ => True

instance (g : Globals) (c : Choice) (pc : AllocPc) (s : Client) :
    Decidable (connectsFresh sslFd g c pc s) :=
  inferInstanceAs (Decidable (_ → _))

instance (g : Globals) (c : Choice) (pc : AllocPc) (s : Client) :
    Decidable (releasesBoth g c pc s) :=
  match pc with
  | .allocated => inferInstanceAs (Decidable (_ → _))
  | .allocate _ _ | .allocateResponse _ _ | .refresh _ | .refreshResponse _ => isTrue trivial

/-- The connection a call starts with. -/
structure OpenSession (s : Client) : Prop where
  fd : 0 ≤ s.info.fd
  ssl : ∀ n, s.info.ssl = some n → sslFd n = s.info.fd
  released : s.released = []

/-- `HandlesOnce` with what carries it over the next turns. -/
structure CleanHandles (s : Client) : Prop extends HandlesOnce useTcp sslFd s where
  valid : 0 ≤ s.info.fd
  opened : s.info.fd ∉ closedFds useTcp sslFd s.released
  made : ∀ n, s.info.ssl = some n → sslFd n = s.info.fd

end

section

variable {useTcp : Bool} {sslFd : Nat → Int}

theorem OpenSession.clean {s : Client} (h : OpenSession sslFd s) : CleanHandles useTcp sslFd s := by
  refine ⟨⟨?_, ?_, ?_⟩, h.fd, ?_, h.ssl⟩
  · simp [freedSsls, h.released]
  · simp [closedFds, h.released]
  · simp [freedSsls, h.released]
  · simp [closedFds, h.released]

theorem SameHandles.handlesOnce {s s' : Client} (h : SameHandles s s') :
    HandlesOnce useTcp sslFd s' ↔ HandlesOnce useTcp sslFd s := by
  constructor
  · intro hs
    refine ⟨?_, ?_, ?_⟩
    · rw [← h.released]
      exact hs.freed
    · rw [← h.released]
      exact hs.closed
    · rw [← h.released, ← h.ssl]
      exact hs.live
  · intro hs
    refine ⟨?_, ?_, ?_⟩
    · rw [h.released]
      exact hs.freed
    · rw [h.released]
      exact hs.closed
    · rw [h.released, h.ssl]
      exact hs.live

theorem SameHandles.bothReleased {s s' : Client} (h : SameHandles s s') (olds : List ConnInfo) :
    BothReleased useTcp sslFd olds s' ↔ BothReleased useTcp sslFd olds s := by
  unfold BothReleased
  rw [h.released]

theorem SameHandles.clean {s s' : Client} (h : SameHandles s s')
    (hs : CleanHandles useTcp sslFd s) : CleanHandles useTcp sslFd s' := by
  refine ⟨h.handlesOnce.mpr hs.toHandlesOnce, ?_, ?_, ?_⟩
  · rw [h.fd]
    exact hs.valid
  · rw [h.released, h.fd]
    exact hs.opened
  · rw [h.ssl, h.fd]
    exact hs.made

theorem freedSsls_append (l l' : List Handle) : freedSsls (l ++ l') = freedSsls l ++ freedSsls l' :=
  List.filterMap_append

theorem closedFds_append (l l' : List Handle) :
    closedFds useTcp sslFd (l ++ l') = closedFds useTcp sslFd l ++ closedFds useTcp sslFd l' :=
  List.flatMap_append

/-- The old handles released once each, and new ones in their place. -/
theorem NewHandles.clean {g : Globals} {c : Choice} {pc : AllocPc} {s s' : Client}
    (h : NewHandles c pc s s') (hanew : connectsAnew g pc s)
    (hfresh : connectsFresh sslFd g c pc s) (hs : CleanHandles g.useTcp sslFd s)
    (hclosed : closedFds g.useTcp sslFd (turnReleases c pc s) = [s.info.fd])
    (hfreed : (freedSsls (turnReleases c pc s)).Sublist s.info.ssl.toList) :
    CleanHandles g.useTcp sslFd s' := by
  obtain ⟨_, hvalid, hother, hunclosed, hssl⟩ := hfresh hanew
  have hold : ∀ n ∈ freedSsls (turnReleases c pc s), s.info.ssl = some n := by
    intro n hn
    exact Option.mem_toList.mp (hfreed.subset hn)
  refine ⟨⟨?_, ?_, ?_⟩, ?_, ?_, ?_⟩
  · rw [h.released, freedSsls_append, List.nodup_append]
    refine ⟨hs.freed, hfreed.nodup (by cases s.info.ssl <;> simp), ?_⟩
    intro n hn m hm heq
    exact hs.live m (hold m hm) (heq ▸ hn)
  · rw [h.released, closedFds_append, hclosed, List.nodup_append]
    refine ⟨hs.closed, by simp, ?_⟩
    intro fd hfd fd' hfd' heq
    rw [List.mem_singleton.mp hfd'] at heq
    exact hs.opened (heq ▸ hfd)
  · intro n hn
    rw [h.ssl] at hn
    obtain ⟨_, hne, hunfreed⟩ := hssl n hn
    rw [h.released, freedSsls_append, List.mem_append]
    intro hmem
    rcases hmem with hmem | hmem
    · exact hunfreed hmem
    · exact hne (hold n hmem)
  · rw [h.fd]
    exact hvalid
  · rw [h.fd, h.released, closedFds_append, hclosed, List.mem_append, List.mem_singleton]
    intro hmem
    rcases hmem with hmem | hmem
    · exact hunclosed hmem
    · exact hother hmem
  · intro n hn
    rw [h.ssl] at hn
    rw [h.fd]
    exact (hssl n hn).1

/-- With the condition the mobility branch releases the one descriptor and the object on it. -/
theorem mobilityReleases_once {g : Globals} {c : Choice} {s : Client}
    (hs : CleanHandles g.useTcp sslFd s)
    (hok : s.info.ssl ≠ none → g.useTcp = false ∧ c.random 0 % 2 ≠ 1) :
    closedFds g.useTcp sslFd (mobilityReleases c s.info) = [s.info.fd] ∧
      freedSsls (mobilityReleases c s.info) = s.info.ssl.toList := by
  have hmade := hs.made
  unfold mobilityReleases
  cases hssl : s.info.ssl with
  | none =>
    simp only [if_pos hs.valid]
    exact ⟨rfl, rfl⟩
  | some n =>
    obtain ⟨htcp, hlate⟩ := hok (by rw [hssl]; exact fun h => by cases h)
    simp only [if_neg hlate]
    refine ⟨?_, rfl⟩
    rw [← hmade n hssl, htcp]
    rfl

/-- Without it something is released twice, or not at all. -/
theorem mobilityReleases_not_once (sslFd : Nat → Int) {g : Globals} {c : Choice} {s : Client}
    {n : Nat} (hvalid : 0 ≤ s.info.fd) (hssl : s.info.ssl = some n)
    (hbad : ¬ (g.useTcp = false ∧ c.random 0 % 2 ≠ 1)) :
    freedSsls (mobilityReleases c s.info) = [n, n] ∨ freedSsls (mobilityReleases c s.info) = [] ∨
      closedFds g.useTcp sslFd (mobilityReleases c s.info) = [] := by
  unfold mobilityReleases
  rw [hssl]
  by_cases hnow : c.random 0 % 2 = 1
  · by_cases hsocket : c.random 1 % 2 = 1
    · simp only [if_pos hnow, if_pos hsocket, if_pos hvalid]
      exact Or.inr (Or.inl rfl)
    · simp only [if_pos hnow, if_neg hsocket]
      exact Or.inl rfl
  · have htcp : g.useTcp = true := by
      cases htcp : g.useTcp with
      | true => rfl
      | false => exact absurd ⟨htcp, hnow⟩ hbad
    simp only [if_neg hnow, htcp]
    exact Or.inr (Or.inr rfl)

/-! ## Turns and runs -/

theorem MovesHandles.clean {g : Globals} {c : Choice} {pc : AllocPc} {s s' : Client}
    (h : MovesHandles g c pc s s') (hfresh : connectsFresh sslFd g c pc s)
    (hok : releasesBoth g c pc s) (hs : CleanHandles g.useTcp sslFd s) :
    CleanHandles g.useTcp sslFd s' := by
  rcases h with ⟨hanew, hnew⟩ | ⟨_, hsame⟩
  · cases pc with
    | allocate afCycle reopenSocket =>
      exact hnew.clean hanew hfresh hs rfl (List.nil_sublist _)
    | allocated =>
      obtain ⟨hclosed, hfreed⟩ := mobilityReleases_once hs (hok hanew)
      exact hnew.clean hanew hfresh hs hclosed (by rw [turnReleases, hfreed])
    | allocateResponse afCycle reopenSocket => cases hanew
    | refresh afCycle => cases hanew
    | refreshResponse afCycle => cases hanew
  · exact hsame.clean hs

theorem clnetAllocateStep_clean (g : Globals) (af : AddressFamilyValue) (c : Choice) (pc : AllocPc)
    (s : Client) (hturn : connectsFresh sslFd g c pc s ∧ releasesBoth g c pc s)
    (hs : CleanHandles g.useTcp sslFd s) :
    (clnetAllocateStep g af c pc s).Holds (fun _ s' => CleanHandles g.useTcp sslFd s')
      (fun _ s' => HandlesOnce g.useTcp sslFd s') := by
  have hmoves := clnetAllocateStep_handles g af c pc s
  cases hstep : clnetAllocateStep g af c pc s with
  | again pc' s' =>
    rw [hstep] at hmoves
    exact hmoves.clean hturn.1 hturn.2 hs
  | stop ret s' =>
    rw [hstep] at hmoves
    rcases hmoves.1 with hmoves | hsame
    · exact (hmoves.clean hturn.1 hturn.2 hs).toHandlesOnce
    · exact (hsame.clean hs).toHandlesOnce

theorem allocNext_refreshing {pc pc' : AllocPc} (h : allocNext pc pc') :
    pc'.refreshing = true ↔ pc = .allocated ∨ pc.refreshing = true := by
  cases pc with
  | allocate afCycle reopenSocket =>
    obtain ⟨_, _, rfl⟩ := h
    simp [AllocPc.refreshing]
  | allocateResponse afCycle reopenSocket =>
    rcases h with rfl | ⟨_, rfl | rfl⟩ <;> simp [AllocPc.refreshing]
  | allocated =>
    subst h
    simp [AllocPc.refreshing]
  | refresh afCycle =>
    obtain ⟨_, rfl⟩ := h
    simp [AllocPc.refreshing]
  | refreshResponse afCycle =>
    rcases h with rfl | rfl <;> simp [AllocPc.refreshing]

/-- Nothing is wrong before the mobility branch; behind it the count says whether something is. -/
def CountsHandles (g : Globals) (sslFd : Nat → Int) (n : Nat) (olds : List ConnInfo) (pc : AllocPc)
    (s : Client) : Prop :=
  if pc.refreshing then
    n = 0 ↔ HandlesOnce g.useTcp sslFd s ∧ BothReleased g.useTcp sslFd olds s
  else n = 0 ∧ olds = [] ∧ CleanHandles g.useTcp sslFd s

theorem bothReleased_of_releases {g : Globals} {c : Choice} {s s' : Client}
    (hnew : NewHandles c .allocated s s') (hs : CleanHandles g.useTcp sslFd s)
    (hok : s.info.ssl ≠ none → g.useTcp = false ∧ c.random 0 % 2 ≠ 1) :
    BothReleased g.useTcp sslFd [s.info] s' := by
  obtain ⟨hclosed, hfreed⟩ := mobilityReleases_once hs hok
  intro old hold
  rw [List.mem_singleton.mp hold, hnew.released, turnReleases, closedFds_append, freedSsls_append,
    hclosed, hfreed]
  refine ⟨List.mem_append_right _ (List.mem_singleton_self _), ?_⟩
  intro n hn
  exact List.mem_append_right _ (Option.mem_toList.mpr hn)

theorem not_right_of_releases {g : Globals} {c : Choice} {s s' : Client}
    (hnew : NewHandles c .allocated s s') (hs : CleanHandles g.useTcp sslFd s) {n : Nat}
    (hssl : s.info.ssl = some n) (hbad : ¬ (g.useTcp = false ∧ c.random 0 % 2 ≠ 1)) :
    ¬ (HandlesOnce g.useTcp sslFd s' ∧ BothReleased g.useTcp sslFd [s.info] s') := by
  intro hright
  obtain ⟨honce, hboth⟩ := hright
  obtain ⟨hfd, hobject⟩ := hboth s.info (List.mem_singleton_self _)
  have hfreed := honce.freed
  have hmem := hobject n hssl
  rw [hnew.released, turnReleases, closedFds_append] at hfd
  rw [hnew.released, turnReleases, freedSsls_append] at hfreed hmem
  rcases mobilityReleases_not_once sslFd hs.valid hssl hbad with htwice | hnone | hopen
  · rw [htwice] at hfreed
    exact absurd (List.nodup_append.mp hfreed).2.1 (by simp)
  · rw [hnone, List.append_nil] at hmem
    exact hs.live n hssl hmem
  · rw [hopen, List.append_nil] at hfd
    exact hs.opened hfd

/-- The mobility branch is right exactly under the condition. -/
theorem mobility_right_iff {g : Globals} {c : Choice} {s s' : Client}
    (hanew : connectsAnew g .allocated s) (hfresh : connectsFresh sslFd g c .allocated s)
    (hnew : NewHandles c .allocated s s') (hs : CleanHandles g.useTcp sslFd s) :
    HandlesOnce g.useTcp sslFd s' ∧ BothReleased g.useTcp sslFd [s.info] s' ↔
      releasesBoth g c .allocated s := by
  constructor
  · intro hright _ hssl
    obtain ⟨n, hn⟩ := Option.ne_none_iff_exists'.mp hssl
    by_cases hok : g.useTcp = false ∧ c.random 0 % 2 ≠ 1
    · exact hok
    · exact absurd hright (not_right_of_releases hnew hs hn hok)
  · intro hok
    refine ⟨?_, bothReleased_of_releases hnew hs (hok hanew)⟩
    exact (MovesHandles.clean (Or.inl ⟨hanew, hnew⟩) hfresh hok hs).toHandlesOnce

theorem turn_quiet {g : Globals} {c : Choice} {pc : AllocPc} {s : Client} (hpc : pc ≠ .allocated) :
    releasesBoth g c pc s ∧ reopenedSession c pc s = [] := by
  cases pc with
  | allocated => exact absurd rfl hpc
  | allocate afCycle reopenSocket => exact ⟨trivial, rfl⟩
  | allocateResponse afCycle reopenSocket => exact ⟨trivial, rfl⟩
  | refresh afCycle => exact ⟨trivial, rfl⟩
  | refreshResponse afCycle => exact ⟨trivial, rfl⟩

theorem MovesHandles.same {g : Globals} {c : Choice} {pc : AllocPc} {s s' : Client}
    (h : MovesHandles g c pc s s') (hpc : pc.refreshing = true) : SameHandles s s' := by
  rcases h with ⟨hanew, _⟩ | ⟨_, hsame⟩
  · cases pc with
    | refresh afCycle => cases hanew
    | refreshResponse afCycle => cases hanew
    | allocate afCycle reopenSocket => cases hpc
    | allocateResponse afCycle reopenSocket => cases hpc
    | allocated => cases hpc
  · exact hsame

theorem CountsHandles.moved {g : Globals} {n : Nat} {olds : List ConnInfo} {c : Choice}
    {pc' : AllocPc} {s s' : Client} (h : CountsHandles g sslFd n olds .allocated s)
    (hfresh : connectsFresh sslFd g c .allocated s) (hmoved : MovesHandles g c .allocated s s')
    (hrefreshing : pc'.refreshing = true) :
    (releasesBoth g c .allocated s ∧
        CountsHandles g sslFd n (olds ++ reopenedSession c .allocated s) pc' s') ∨
      (¬ releasesBoth g c .allocated s ∧
        CountsHandles g sslFd (n + 1) (olds ++ reopenedSession c .allocated s) pc' s') := by
  obtain ⟨rfl, rfl, hs⟩ := h
  simp only [CountsHandles, hrefreshing, if_true, List.nil_append]
  rcases hmoved with ⟨hanew, hnew⟩ | ⟨hkeep, hsame⟩
  · have hticket : s.info.sMobileId 0 ≠ 0 := hanew
    have hright := mobility_right_iff hanew hfresh hnew hs
    rw [reopenedSession, if_pos hticket, hright]
    by_cases hok : releasesBoth g c .allocated s
    · simp [hok]
    · simp [hok]
  · have hticket : ¬ s.info.sMobileId 0 ≠ 0 := hkeep
    have hok : releasesBoth g c .allocated s := fun h => absurd h hticket
    rw [reopenedSession, if_neg hticket]
    refine Or.inl ⟨hok, fun _ => ⟨(hsame.clean hs).toHandlesOnce, ?_⟩, fun _ => trivial⟩
    intro old hold
    cases hold

theorem CountsHandles.kept {g : Globals} {n : Nat} {olds : List ConnInfo} {c : Choice}
    {pc pc' : AllocPc} {s s' : Client} (h : CountsHandles g sslFd n olds pc s)
    (hfresh : connectsFresh sslFd g c pc s) (hmoved : MovesHandles g c pc s s')
    (hnext : allocNext pc pc') (hpc : pc ≠ .allocated) : CountsHandles g sslFd n olds pc' s' := by
  have hstart := allocNext_refreshing hnext
  unfold CountsHandles at h ⊢
  cases hrefreshing : pc.refreshing with
  | true =>
    have hsame := hmoved.same hrefreshing
    rw [hrefreshing] at h
    rw [hstart.mpr (Or.inr hrefreshing), if_pos rfl, hsame.handlesOnce, hsame.bothReleased]
    exact h
  | false =>
    rw [hrefreshing] at h
    have hstays : pc'.refreshing = false := by
      rw [Bool.eq_false_iff, ne_eq, hstart, hrefreshing]
      simp [hpc]
    rw [hstays]
    exact ⟨h.1, h.2.1, hmoved.clean hfresh (turn_quiet hpc).1 h.2.2⟩

theorem clnetAllocateStep_counts (g : Globals) (af : AddressFamilyValue) (n : Nat)
    (olds : List ConnInfo) (c : Choice) (pc : AllocPc) (s : Client)
    (hfresh : connectsFresh sslFd g c pc s) (h : CountsHandles g sslFd n olds pc s) :
    (clnetAllocateStep g af c pc s).Holds
      (fun pc' s' =>
        (releasesBoth g c pc s ∧ CountsHandles g sslFd n (olds ++ reopenedSession c pc s) pc' s') ∨
        (¬ releasesBoth g c pc s ∧
          CountsHandles g sslFd (n + 1) (olds ++ reopenedSession c pc s) pc' s'))
      (fun ret s' => ret = .rc 0 →
        ((HandlesOnce g.useTcp sslFd s' ∧
            BothReleased g.useTcp sslFd (olds ++ reopenedSession c pc s) s') ↔
          n = 0 ∧ releasesBoth g c pc s)) := by
  have hmoves := clnetAllocateStep_handles g af c pc s
  cases hstep : clnetAllocateStep g af c pc s with
  | again pc' s' =>
    rw [hstep] at hmoves
    have hmoved : MovesHandles g c pc s s' := hmoves
    have hnext := clnetAllocateStep_next hstep
    by_cases hpc : pc = .allocated
    · subst hpc
      exact h.moved hfresh hmoved ((allocNext_refreshing hnext).mpr (Or.inl rfl))
    · obtain ⟨hok, hout⟩ := turn_quiet (g := g) (c := c) (s := s) hpc
      refine Or.inl ⟨hok, ?_⟩
      rw [hout, List.append_nil]
      exact h.kept hfresh hmoved hnext hpc
  | stop ret s' =>
    rw [hstep] at hmoves
    intro hret
    obtain ⟨hhandles, hpc⟩ := hmoves
    obtain ⟨afCycle, rfl⟩ := hpc hret
    have hsame : SameHandles s s' := by
      rcases hhandles with hmoved | hsame
      · exact hmoved.same rfl
      · exact hsame
    rw [hsame.handlesOnce, hsame.bothReleased]
    simpa [reopenedSession, releasesBoth] using h.symm

/-- In every state of the run each handle was released once at most; a call that returns 0 has
released both handles of the session it found with a ticket. -/
def ReleasesOnce (g : Globals) (af : AddressFamilyValue) (sslFd : Nat → Int) (cs : List Choice)
    (s : Client) : Prop :=
  (∀ t ∈ Drive.trace (clnetAllocateStep g af) cs (.allocate 0 false) s,
    HandlesOnce g.useTcp sslFd t) ∧
  ∀ s', clnetAllocate g af cs s = .stop (.rc 0) s' →
    BothReleased g.useTcp sslFd
      (Drive.collect reopenedSession (clnetAllocateStep g af) cs (.allocate 0 false) s) s'

theorem returned_right_iff {g : Globals} {af : AddressFamilyValue} {cs : List Choice} {s s' : Client}
    (hs : OpenSession sslFd s)
    (hfresh : Drive.Along (connectsFresh sslFd g) (clnetAllocateStep g af) cs (.allocate 0 false) s)
    (hstop : clnetAllocate g af cs s = .stop (.rc 0) s') :
    (HandlesOnce g.useTcp sslFd s' ∧ BothReleased g.useTcp sslFd
        (Drive.collect reopenedSession (clnetAllocateStep g af) cs (.allocate 0 false) s) s') ↔
      Drive.Along (releasesBoth g) (clnetAllocateStep g af) cs (.allocate 0 false) s := by
  have hstart : CountsHandles g sslFd 0 [] (.allocate 0 false) s := ⟨rfl, rfl, hs.clean⟩
  have hcounts := @Drive.right_iff_along_collect _ _ _ _ _ (connectsFresh sslFd g) (releasesBoth g)
    reopenedSession _ (CountsHandles g sslFd) (· = .rc 0)
    (fun olds _ s' => HandlesOnce g.useTcp sslFd s' ∧ BothReleased g.useTcp sslFd olds s')
    (clnetAllocateStep_counts g af) cs _ _ _ _ s' _ hstart hfresh hstop rfl
  simpa using hcounts

theorem mobility_releases_once (g : Globals) (af : AddressFamilyValue) (sslFd : Nat → Int)
    (cs : List Choice) (s : Client) (hs : OpenSession sslFd s)
    (hfresh : Drive.Along (connectsFresh sslFd g) (clnetAllocateStep g af) cs (.allocate 0 false) s) :
    (Drive.Along (releasesBoth g) (clnetAllocateStep g af) cs (.allocate 0 false) s →
      ReleasesOnce g af sslFd cs s) ∧
    ∀ s', clnetAllocate g af cs s = .stop (.rc 0) s' →
      (ReleasesOnce g af sslFd cs s ↔
        Drive.Along (releasesBoth g) (clnetAllocateStep g af) cs (.allocate 0 false) s) := by
  have hsufficient : Drive.Along (releasesBoth g) (clnetAllocateStep g af) cs (.allocate 0 false) s →
      ReleasesOnce g af sslFd cs s := by
    intro hok
    refine ⟨?_, fun s' hstop => ((returned_right_iff hs hfresh hstop).mpr hok).2⟩
    exact Drive.trace_holds (fun _ _ h => h.toHandlesOnce) (clnetAllocateStep_clean g af) cs hs.clean
      (hfresh.and hok)
  refine ⟨hsufficient, fun s' hstop => ⟨fun hright => ?_, hsufficient⟩⟩
  have hlast := List.mem_of_getLast? (Drive.trace_last_of_stop hstop)
  exact (returned_right_iff hs hfresh hstop).mp ⟨hright.1 s' hlast, hright.2 s' hstop⟩

/-- A session on socket 3 with TLS object 1. -/
def securedSession : Client :=
  { Client.init with info := { ConnInfo.init with fd := 3, ssl := some 1 } }

/-- An allocation with a ticket, the new connection on socket 4 with TLS object 2, and a Refresh. -/
def mobileAllocation (closeNow closeSocket : Nat) : List Choice :=
  [.sends, .receives (responseBytes 0x0103 ([0x00, 0x16, 0x00, 0x08, 0, 1, 0x21, 0x12, 1, 2, 3, 4] ++
      [0x80, 0x30, 0x00, 0x04, 0x74, 0x69, 0x63, 0x6B])),
    { Choice.idle with
      random := fun i => if i = 0 then closeNow else closeSocket
      connected := { ConnInfo.init with fd := 4, ssl := some 2 } },
    .sends, .receives (responseBytes 0x0104 [])]

def nextFd (ssl : Nat) : Int := ssl + 2

/-- Over DTLS, with the release behind the new connection. -/
theorem late_release_once :
    ReleasesOnce (Globals.initial constantSsl) .default nextFd (mobileAllocation 0 0)
      securedSession := by
  have hopen : OpenSession nextFd securedSession := by
    refine ⟨by decide, ?_, rfl⟩
    intro n hn
    cases hn
    rfl
  apply (mobility_releases_once (Globals.initial constantSsl) .default nextFd (mobileAllocation 0 0)
    securedSession hopen (by decide +kernel)).1
  decide +kernel

/-- Over DTLS, freed before the new connection and once more behind it. -/
theorem early_release_twice :
    Drive.Along (connectsFresh nextFd (Globals.initial constantSsl))
        (clnetAllocateStep (Globals.initial constantSsl) .default) (mobileAllocation 1 0)
        (.allocate 0 false) securedSession ∧
      (clnetAllocate (Globals.initial constantSsl) .default (mobileAllocation 1 0)
        securedSession).state.released = [.ssl 1, .ssl 1] ∧
      ¬ ReleasesOnce (Globals.initial constantSsl) .default nextFd (mobileAllocation 1 0)
        securedSession := by
  have hreleased : (clnetAllocate (Globals.initial constantSsl) .default (mobileAllocation 1 0)
      securedSession).state.released = [.ssl 1, .ssl 1] := by
    decide +kernel
  refine ⟨by decide +kernel, hreleased, ?_⟩
  intro h
  have hlast := List.mem_of_getLast? (Drive.trace_last
    (clnetAllocateStep (Globals.initial constantSsl) .default) (mobileAllocation 1 0)
    (.allocate 0 false) securedSession)
  have honce : (freedSsls (clnetAllocate (Globals.initial constantSsl) .default
      (mobileAllocation 1 0) securedSession).state.released).Nodup := (h.1 _ hlast).freed
  rw [hreleased] at honce
  exact absurd honce (by decide)

end

end TurnClient
