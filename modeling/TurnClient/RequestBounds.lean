import TurnClient.AllocateTurns
import TurnClient.AuthenticatedRuns

/-!
# How many requests a call builds

`clnet_allocate` counts its requests in `af_cycle`, which the challenges, the
error 437 and the failed receives all pass through, and which starts again at
zero for the Refresh. `turn_channel_bind` and `turn_create_permission` jump
back at every challenge and count nothing: the server decides how many requests
one call builds.
-/

namespace TurnClient

open ByteMemory
set_option autoImplicit false

/-! ## `clnet_allocate` -/

/-- The request a turn builds, with its method. -/
def builtRequest (g : Globals) (af : AddressFamilyValue) (c : Choice) :
    AllocPc → Client → List (BitVec 16 × StunBuffer)
  | .allocate afCycle reopenSocket, s =>
    if 32 ≤ afCycle then []
    else
      match reopenSocketStep g c reopenSocket s with
      | none => []
      | some (_, s) =>
        [(stunMethodAllocate, (finishRequest g c s.info (allocateRequest g af c s)).2.2)]
  | .refresh afCycle, s =>
    if 32 < afCycle then []
    else [(stunMethodRefresh, (finishRequest g c s.info (refreshRequest g c s.info)).2.2)]
  | _, _ => []

/-- The requests one call builds. -/
def builtRequests (g : Globals) (af : AddressFamilyValue) (cs : List Choice) (s : Client) :
    List (BitVec 16 × StunBuffer) :=
  Drive.collect (builtRequest g af) (clnetAllocateStep g af) cs (.allocate 0 false) s

def ofMethod (method : BitVec 16) (r : BitVec 16 × StunBuffer) : Bool := r.1 == method

def allocatesLeft : AllocPc → Nat
  | .allocate afCycle _ => 32 - afCycle
  | .allocateResponse afCycle _ => 32 - afCycle
  | _ => 0

def refreshesLeft : AllocPc → Nat
  | .refresh afCycle => 33 - afCycle
  | .refreshResponse afCycle => 33 - afCycle
  | _ => 33

def allocatesSpent : AllocPc → Nat
  | .allocate afCycle _ => if afCycle < 32 then 1 else 0
  | _ => 0

def refreshesSpent : AllocPc → Nat
  | .refresh afCycle => if afCycle ≤ 32 then 1 else 0
  | _ => 0

/-- The control points one turn can lead to. -/
def allocNext : AllocPc → AllocPc → Prop
  | .allocate afCycle _, pc =>
      afCycle < 32 ∧ ∃ reopenSocket, pc = .allocateResponse (afCycle + 1) reopenSocket
  | .allocateResponse afCycle _, pc => pc = .allocated ∨
      ∃ reopenSocket,
        pc = .allocate afCycle reopenSocket ∨ pc = .allocateResponse afCycle reopenSocket
  | .allocated, pc => pc = .refresh 0
  | .refresh afCycle, pc => afCycle ≤ 32 ∧ pc = .refreshResponse (afCycle + 1)
  | .refreshResponse afCycle, pc => pc = .refresh afCycle ∨ pc = .refreshResponse afCycle

theorem clnetAllocateStep_next {g : Globals} {af : AddressFamilyValue} {c : Choice} {pc pc' : AllocPc}
    {s s' : Client} (h : clnetAllocateStep g af c pc s = .again pc' s') : allocNext pc pc' := by
  have hturn := clnetAllocateStep_turn g af c pc s
  rw [h] at hturn
  cases hturn with
  | allocateSent hcycle _ _ => exact ⟨hcycle, _, rfl⟩
  | allocateUnanswered _ => exact Or.inr ⟨_, Or.inl rfl⟩
  | allocateTaken _ _ _ => exact Or.inl rfl
  | allocateChallenged _ => exact Or.inr ⟨_, Or.inl rfl⟩
  | allocateMismatch _ => exact Or.inr ⟨_, Or.inl rfl⟩
  | allocateUnknown _ => exact Or.inr ⟨_, Or.inr rfl⟩
  | moved _ => rfl
  | refreshSent hcycle _ _ => exact ⟨hcycle, rfl⟩
  | refreshChallenged _ => exact Or.inl rfl
  | refreshUnknown _ => exact Or.inr rfl

/-- The turns that build a request take one from what is left. -/
theorem allocNext_left {pc pc' : AllocPc} (h : allocNext pc pc') :
    allocatesSpent pc + allocatesLeft pc' ≤ allocatesLeft pc ∧
      refreshesSpent pc + refreshesLeft pc' ≤ refreshesLeft pc := by
  cases pc with
  | allocate afCycle reopenSocket =>
    obtain ⟨hlt, _, rfl⟩ := h
    simp only [allocatesSpent, refreshesSpent, allocatesLeft, refreshesLeft, if_pos hlt]
    omega
  | allocateResponse afCycle reopenSocket =>
    rcases h with rfl | ⟨_, rfl | rfl⟩ <;>
      simp [allocatesSpent, refreshesSpent, allocatesLeft, refreshesLeft]
  | allocated =>
    subst h
    exact ⟨Nat.le_refl _, Nat.le_refl _⟩
  | refresh afCycle =>
    obtain ⟨hle, rfl⟩ := h
    simp only [allocatesSpent, refreshesSpent, allocatesLeft, refreshesLeft, if_pos hle]
    omega
  | refreshResponse afCycle =>
    rcases h with rfl | rfl <;>
      simp [allocatesSpent, refreshesSpent, allocatesLeft, refreshesLeft]

theorem spent_le_left (pc : AllocPc) :
    allocatesSpent pc ≤ allocatesLeft pc ∧ refreshesSpent pc ≤ refreshesLeft pc := by
  cases pc with
  | allocate afCycle reopenSocket =>
    simp only [allocatesSpent, allocatesLeft]
    refine ⟨?_, Nat.zero_le _⟩
    split <;> omega
  | refresh afCycle =>
    simp only [refreshesSpent, refreshesLeft]
    refine ⟨Nat.zero_le _, ?_⟩
    split <;> omega
  | allocateResponse afCycle reopenSocket => exact ⟨Nat.zero_le _, Nat.zero_le _⟩
  | allocated => exact ⟨Nat.zero_le _, Nat.zero_le _⟩
  | refreshResponse afCycle => exact ⟨Nat.zero_le _, Nat.zero_le _⟩

theorem builtRequest_spent (g : Globals) (af : AddressFamilyValue) (c : Choice) (pc : AllocPc)
    (s : Client) :
    ((builtRequest g af c pc s).filter (ofMethod stunMethodAllocate)).length ≤ allocatesSpent pc ∧
      ((builtRequest g af c pc s).filter (ofMethod stunMethodRefresh)).length ≤
        refreshesSpent pc := by
  cases pc with
  | allocate afCycle reopenSocket =>
    simp only [builtRequest, allocatesSpent, refreshesSpent]
    split
    · simp
    · rw [if_pos (by omega)]
      split
      · simp
      · exact ⟨Nat.le_refl _, Nat.le_refl _⟩
  | refresh afCycle =>
    simp only [builtRequest, allocatesSpent, refreshesSpent]
    split
    · simp
    · rw [if_pos (by omega)]
      exact ⟨Nat.le_refl _, Nat.le_refl _⟩
  | allocateResponse afCycle reopenSocket => exact ⟨Nat.le_refl _, Nat.le_refl _⟩
  | allocated => exact ⟨Nat.le_refl _, Nat.le_refl _⟩
  | refreshResponse afCycle => exact ⟨Nat.le_refl _, Nat.le_refl _⟩

/-- In a turn, what is built and what may still be built stay below what is left. -/
theorem clnetAllocateStep_left (g : Globals) (af : AddressFamilyValue) (c : Choice) (pc : AllocPc)
    (s : Client) :
    allocatesSpent pc + (clnetAllocateStep g af c pc s).owed allocatesLeft ≤ allocatesLeft pc ∧
      refreshesSpent pc + (clnetAllocateStep g af c pc s).owed refreshesLeft ≤ refreshesLeft pc := by
  cases hs : clnetAllocateStep g af c pc s with
  | again pc' s' => exact allocNext_left (clnetAllocateStep_next hs)
  | stop a s' => exact spent_le_left pc

theorem builtRequests_bounded (g : Globals) (af : AddressFamilyValue) (cs : List Choice)
    (s : Client) :
    ((builtRequests g af cs s).filter (ofMethod stunMethodAllocate)).length ≤ 32 ∧
      ((builtRequests g af cs s).filter (ofMethod stunMethodRefresh)).length ≤ 33 := by
  unfold builtRequests
  rw [Drive.collect_filter, Drive.collect_filter]
  constructor
  · apply Drive.collect_length_le_credit allocatesLeft
    intro c pc s
    have hbuilt := (builtRequest_spent g af c pc s).1
    have hleft := (clnetAllocateStep_left g af c pc s).1
    omega
  · apply Drive.collect_length_le_credit refreshesLeft
    intro c pc s
    have hbuilt := (builtRequest_spent g af c pc s).2
    have hleft := (clnetAllocateStep_left g af c pc s).2
    omega

/-! ### The logs -/

/-- Nothing is sent or accepted; something may have been received. -/
structure KeepsLogs (s s' : Client) : Prop where
  sent : s'.sent = s.sent
  accepted : s'.accepted = s.accepted
  received : s.received <+: s'.received

theorem KeepsLogs.refl (s : Client) : KeepsLogs s s := ⟨rfl, rfl, List.prefix_refl _⟩

theorem receive_keepsLogs (c : Choice) (s : Client) : (receive c s).All (KeepsLogs s) :=
  receive_all c fun _ _ => ⟨rfl, rfl, List.prefix_append _ _⟩

theorem KeepsLogs.authenticate {s s' : Client} (h : KeepsLogs s s') (g : Globals) (c : Choice)
    (m : StunBuffer) : KeepsLogs s (s'.authenticate g c m).2 := by
  obtain ⟨checks, hcheck⟩ := s'.authenticate_eq g c m
  rw [hcheck]
  exact ⟨h.sent, h.accepted, h.received⟩

theorem KeepsLogs.reopenSocket {g : Globals} {c : Choice} {reopen reopen' : Bool} {s s' : Client}
    (h : reopenSocketStep g c reopen s = some (reopen', s')) : KeepsLogs s s' := by
  rcases reopenSocketStep_cases h with ⟨_, rfl⟩ | ⟨_, rfl⟩
  · exact ⟨rfl, rfl, List.prefix_refl _⟩
  · exact .refl s'

theorem KeepsLogs.mobility {c : Choice} {s s' : Client} (h : reopenForMobility c s = some s') :
    KeepsLogs s s' := by
  rcases reopenForMobility_cases h with ⟨_, rfl⟩ | ⟨_, rfl⟩
  · exact ⟨rfl, rfl, List.prefix_refl _⟩
  · exact .refl s'

/-- A success response is received and taken over. -/
def Accepts (method : BitVec 16) (s s' : Client) : Prop :=
  ∃ m, s'.accepted = s.accepted ++ [(method, m)] ∧ s'.received = s.received ++ [m] ∧
    stunIsSuccessResponseStr m.buf m.len = true

theorem allocateSucceeded_logs (s : Client) (m : StunBuffer) :
    (allocateSucceeded s m).2.received = s.received ∧
      (¬ (allocateSucceeded s m).1 < 0 →
        (allocateSucceeded s m).2.accepted = s.accepted ++ [(stunMethodAllocate, m)]) := by
  unfold allocateSucceeded
  simp only
  split
  · exact ⟨rfl, fun _ => rfl⟩
  · exact ⟨rfl, fun h => absurd (by simp) h⟩

theorem accepts_allocate {g : Globals} {c : Choice} {s : Client} {m : StunBuffer}
    (hrc : ¬ (allocateSucceeded
      (Client.authenticate g c { s with received := s.received ++ [m] } m).2 m).1 < 0)
    (hsuccess : stunIsSuccessResponseStr m.buf m.len = true) :
    Accepts stunMethodAllocate s (allocateSucceeded
      (Client.authenticate g c { s with received := s.received ++ [m] } m).2 m).2 := by
  obtain ⟨hreceived, haccepted⟩ := allocateSucceeded_logs
    (Client.authenticate g c { s with received := s.received ++ [m] } m).2 m
  have hauth : (Client.authenticate g c { s with received := s.received ++ [m] } m).2.accepted =
        s.accepted ∧
      (Client.authenticate g c { s with received := s.received ++ [m] } m).2.received =
        s.received ++ [m] := by
    obtain ⟨checks, hcheck⟩ :=
      Client.authenticate_eq g c { s with received := s.received ++ [m] } m
    rw [hcheck]
    exact ⟨rfl, rfl⟩
  exact ⟨m, by rw [haccepted hrc, hauth.1], by rw [hreceived, hauth.2], hsuccess⟩

/-- What one turn does to the logs, by where it stands. -/
theorem clnetAllocateStep_logs (g : Globals) (af : AddressFamilyValue) (c : Choice) (pc : AllocPc)
    (s : Client) :
    (clnetAllocateStep g af c pc s).Holds
      (fun pc' s' => (pc' = .allocated ∧ Accepts stunMethodAllocate s s') ∨
        (s'.accepted = s.accepted ∧ s.received <+: s'.received ∧ pc' ≠ .allocated))
      (fun r s' => r = .rc 0 →
        (∃ afCycle, pc = .refreshResponse afCycle) ∧ Accepts stunMethodRefresh s s') := by
  have hkeep := receive_keepsLogs c s
  have hturn := clnetAllocateStep_turn g af c pc s
  generalize clnetAllocateStep g af c pc s = turn at hturn
  cases hturn with
  | allocateSent _ hreopen _ =>
    have hsame := KeepsLogs.reopenSocket hreopen
    exact Or.inr ⟨hsame.accepted, hsame.received, fun h => (by cases h)⟩
  | allocateUnanswered _ => exact Or.inr ⟨rfl, List.prefix_refl _, fun h => (by cases h)⟩
  | allocateTaken hr _ hrelay =>
    obtain ⟨rfl, hsuccess⟩ := receive_success hr
    exact Or.inl ⟨rfl, accepts_allocate hrelay hsuccess⟩
  | moved hmobility =>
    have hsame := KeepsLogs.mobility hmobility
    exact Or.inr ⟨hsame.accepted, hsame.received, fun h => (by cases h)⟩
  | refreshSent _ _ _ => exact Or.inr ⟨rfl, List.prefix_refl _, fun h => (by cases h)⟩
  | refreshTaken hr =>
    obtain ⟨rfl, hsuccess⟩ := receive_success hr
    exact fun _ => ⟨⟨_, rfl⟩, _, rfl, rfl, hsuccess⟩
  | allocateChallenged hr | allocateMismatch hr | allocateUnknown hr | refreshChallenged hr
  | refreshUnknown hr =>
    rw [hr] at hkeep
    exact Or.inr ⟨hkeep.accepted, hkeep.received, fun h => (by cases h)⟩
  | ended hret | allocateEnds _ _ _ _ hret | allocateUnchecked _ _ hret
  | allocateUnusable _ _ _ hret | allocateRefused _ _ _ hret | refreshEnds _ _ _ hret
  | refreshRefused _ hret => exact fun h => absurd h hret

/-! ### The requests that are sent -/

theorem allocateSucceeded_sent (s : Client) (m : StunBuffer) :
    (allocateSucceeded s m).2.sent = s.sent := by
  unfold allocateSucceeded
  simp only
  split <;> rfl

/-- What a turn sends is what it builds; the Refresh of a session with a ticket goes out twice. -/
theorem clnetAllocateStep_sent (g : Globals) (af : AddressFamilyValue) (c : Choice) (pc : AllocPc)
    (s : Client) :
    ∀ m ∈ (clnetAllocateStep g af c pc s).state.sent,
      m ∈ s.sent ∨ m ∈ (builtRequest g af c pc s).map Prod.snd := by
  intro m hm
  have hkeep := receive_keepsLogs c s
  have hturn := clnetAllocateStep_turn g af c pc s
  generalize clnetAllocateStep g af c pc s = turn at hturn hm
  cases hturn with
  | ended _ => exact Or.inl hm
  | allocateEnds hcycle hreopen hbuilt hsent _ =>
    simp only [builtRequest, if_neg (Nat.not_le.mpr hcycle), hreopen, hbuilt]
    rw [← (KeepsLogs.reopenSocket hreopen).sent]
    rcases hsent with rfl | rfl
    · exact Or.inl hm
    · exact List.mem_append.mp hm
  | allocateSent hcycle hreopen hbuilt =>
    simp only [builtRequest, if_neg (Nat.not_le.mpr hcycle), hreopen, hbuilt]
    rw [← (KeepsLogs.reopenSocket hreopen).sent]
    exact List.mem_append.mp hm
  | allocateUnanswered _ => exact Or.inl hm
  | allocateUnchecked hr _ _ =>
    rw [hr] at hkeep
    exact Or.inl ((KeepsLogs.authenticate hkeep g c _).sent ▸ hm)
  | allocateUnusable hr _ _ _ =>
    rw [hr] at hkeep
    exact Or.inl ((KeepsLogs.authenticate hkeep g c _).sent ▸ allocateSucceeded_sent _ _ ▸ hm)
  | allocateTaken hr _ _ =>
    rw [hr] at hkeep
    exact Or.inl ((KeepsLogs.authenticate hkeep g c _).sent ▸ allocateSucceeded_sent _ _ ▸ hm)
  | allocateRefused hr hcheck _ _ =>
    rw [hr] at hkeep
    rcases hcheck with rfl | rfl
    · exact Or.inl (hkeep.sent ▸ hm)
    · exact Or.inl ((KeepsLogs.authenticate hkeep g c _).sent ▸ hm)
  | moved hmobility => exact Or.inl ((KeepsLogs.mobility hmobility).sent ▸ hm)
  | refreshEnds hcycle hbuilt hsent _ =>
    simp only [builtRequest, if_neg (Nat.not_lt.mpr hcycle), hbuilt]
    rcases hsent with rfl | rfl
    · exact Or.inl hm
    · exact List.mem_append.mp hm
  | refreshSent hcycle hbuilt hsent =>
    simp only [builtRequest, if_neg (Nat.not_lt.mpr hcycle), hbuilt]
    rcases hsent with rfl | rfl
    · exact List.mem_append.mp hm
    · rcases List.mem_append.mp hm with hm | hm
      · exact List.mem_append.mp hm
      · exact Or.inr hm
  | allocateChallenged hr | allocateMismatch hr | allocateUnknown hr | refreshTaken hr
  | refreshChallenged hr | refreshRefused hr _ | refreshUnknown hr =>
    rw [hr] at hkeep
    exact Or.inl (hkeep.sent ▸ hm)

/-! ### Whole calls -/

def AllocPc.answered : AllocPc → Bool
  | .allocate _ _ => false
  | .allocateResponse _ _ => false
  | _ => true

theorem allocNext_answered {pc pc' : AllocPc} (h : allocNext pc pc') :
    (pc' = .allocated ∧ pc.answered = false) ∨
      (pc' ≠ .allocated ∧ pc'.answered = pc.answered) := by
  cases pc with
  | allocate afCycle reopenSocket =>
    obtain ⟨_, _, rfl⟩ := h
    exact Or.inr ⟨fun h => (by cases h), rfl⟩
  | allocateResponse afCycle reopenSocket =>
    rcases h with rfl | ⟨_, rfl | rfl⟩
    · exact Or.inl ⟨rfl, rfl⟩
    · exact Or.inr ⟨fun h => (by cases h), rfl⟩
    · exact Or.inr ⟨fun h => (by cases h), rfl⟩
  | allocated =>
    subst h
    exact Or.inr ⟨fun h => (by cases h), rfl⟩
  | refresh afCycle =>
    obtain ⟨_, rfl⟩ := h
    exact Or.inr ⟨fun h => (by cases h), rfl⟩
  | refreshResponse afCycle => rcases h with rfl | rfl <;> exact Or.inr ⟨fun h => (by cases h), rfl⟩

/-- Before the Allocate is answered, and behind it. -/
def AllocProgress (s₀ : Client) (pc : AllocPc) (s : Client) : Prop :=
  if pc.answered then
    ∃ before a, s.accepted = s₀.accepted ++ [(stunMethodAllocate, a)] ∧
      s₀.received ++ before ++ [a] <+: s.received ∧ stunIsSuccessResponseStr a.buf a.len = true
  else s.accepted = s₀.accepted ∧ s₀.received <+: s.received

theorem AllocProgress.kept {s₀ s s' : Client} {pc pc' : AllocPc} (h : AllocProgress s₀ pc s)
    (hpc : pc'.answered = pc.answered) (haccepted : s'.accepted = s.accepted)
    (hreceived : s.received <+: s'.received) : AllocProgress s₀ pc' s' := by
  unfold AllocProgress at h ⊢
  rw [hpc, haccepted]
  split
  · rename_i hanswered
    rw [if_pos hanswered] at h
    obtain ⟨before, a, hacc, hprefix, ha⟩ := h
    exact ⟨before, a, hacc, hprefix.trans hreceived, ha⟩
  · rename_i hanswered
    rw [if_neg hanswered] at h
    exact ⟨h.1, h.2.trans hreceived⟩

/-- One Allocate and then one Refresh success response were taken over. -/
def AllocAnswered (s₀ s : Client) : Prop :=
  ∃ before a between r,
    s.accepted = s₀.accepted ++ [(stunMethodAllocate, a), (stunMethodRefresh, r)] ∧
      s.received = s₀.received ++ before ++ [a] ++ between ++ [r] ∧
      stunIsSuccessResponseStr a.buf a.len = true ∧ stunIsSuccessResponseStr r.buf r.len = true

theorem clnetAllocateStep_progress (g : Globals) (af : AddressFamilyValue) (s₀ : Client) (c : Choice)
    (pc : AllocPc) (s : Client) (h : AllocProgress s₀ pc s) :
    (clnetAllocateStep g af c pc s).Holds (AllocProgress s₀)
      (fun r s' => r = .rc 0 → AllocAnswered s₀ s') := by
  have hlogs := clnetAllocateStep_logs g af c pc s
  cases hs : clnetAllocateStep g af c pc s with
  | again pc' s' =>
    rw [hs] at hlogs
    rcases hlogs with ⟨rfl, m, haccepted, hreceived, hsuccess⟩ | ⟨haccepted, hreceived, hpc⟩
    · rcases allocNext_answered (clnetAllocateStep_next hs) with ⟨_, hpc⟩ | ⟨hne, _⟩
      · rw [AllocProgress, if_neg (by simp [hpc])] at h
        obtain ⟨haccepted', before, hbefore⟩ := h
        refine ⟨before, m, by rw [haccepted, haccepted'], ?_, hsuccess⟩
        have hall : s'.received = s₀.received ++ before ++ [m] := by
          rw [hreceived, ← hbefore]
        exact hall ▸ List.prefix_refl _
      · exact absurd rfl hne
    · rcases allocNext_answered (clnetAllocateStep_next hs) with ⟨heq, _⟩ | ⟨_, hsame⟩
      · exact absurd heq hpc
      · exact h.kept hsame haccepted hreceived
  | stop r s' =>
    rw [hs] at hlogs
    intro hzero
    obtain ⟨⟨afCycle, rfl⟩, m, haccepted, hreceived, hsuccess⟩ := hlogs hzero
    obtain ⟨before, a, haccepted', ⟨between, hbetween⟩, ha⟩ := h
    refine ⟨before, a, between, m, ?_, ?_, ha, hsuccess⟩
    · rw [haccepted, haccepted', List.append_assoc, List.singleton_append]
    · rw [hreceived, ← hbetween]

/-- At most 32 Allocate and 33 Refresh requests are built, and nothing else is sent; the result is
zero only when an Allocate and then a Refresh success response have been taken over. -/
theorem allocation_attempts_bounded (g : Globals) (af : AddressFamilyValue) (cs : List Choice)
    (s : Client) :
    (((builtRequests g af cs s).filter (ofMethod stunMethodAllocate)).length ≤ 32 ∧
      ((builtRequests g af cs s).filter (ofMethod stunMethodRefresh)).length ≤ 33 ∧
      ∀ m ∈ (clnetAllocate g af cs s).state.sent,
        m ∈ s.sent ∨ m ∈ (builtRequests g af cs s).map Prod.snd) ∧
    ∀ s', clnetAllocate g af cs s = .stop (.rc 0) s' → AllocAnswered s s' := by
  obtain ⟨hallocates, hrefreshes⟩ := builtRequests_bounded g af cs s
  refine ⟨⟨hallocates, hrefreshes, ?_⟩, ?_⟩
  · unfold builtRequests
    rw [Drive.map_collect]
    exact Drive.log_mem_collect (clnetAllocateStep_sent g af) cs _ s
  · intro s' hstop
    have hrun := Drive.run_holds (clnetAllocateStep_progress g af s) cs (b := .allocate 0 false)
      ⟨rfl, List.prefix_refl _⟩
    rw [← clnetAllocate, hstop] at hrun
    exact hrun rfl

end TurnClient
