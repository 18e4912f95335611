import TurnClient.Transactions

/-!
# Only authenticated responses change an authenticated session

A turn of one of the three procedures either leaves the relayed address, the
mobility ticket, the reservation token and the accepted responses alone, or it
follows a check of the response it received. Three turns fall outside of this
rule: a Refresh success, which is taken unchecked, a challenge whose NONCE
starts with a zero byte, after which the session counts as one without nonce,
and a challenge that is stored beyond the fields of the session.
-/

namespace TurnClient

open ByteMemory
set_option autoImplicit false

/-- What an unauthenticated message must not bring about. -/
def Changed (s s' : Client) : Prop :=
  s'.info.relayAddr ≠ s.info.relayAddr ∨ s'.info.sMobileId ≠ s.info.sMobileId ∨
    (s'.currentReservationToken ≠ s.currentReservationToken ∧ s'.currentReservationToken ≠ 0) ∨
    s'.accepted ≠ s.accepted

def Authenticated (s s' : Client) : Prop :=
  ∃ m rc, s'.received = s.received ++ [m] ∧ s'.checks = s.checks ++ [(m, rc)] ∧ 0 ≤ rc

def TurnLaw (s s' : Client) : Prop := Changed s s' → Authenticated s s'

/-- The law together with what makes it last: a nonce is never lost. -/
def KeepsLaw (s s' : Client) : Prop :=
  nonceSet s.info = true → nonceSet s'.info = true ∧ TurnLaw s s'

structure SameSession (s s' : Client) : Prop where
  relayAddr : s'.info.relayAddr = s.info.relayAddr
  sMobileId : s'.info.sMobileId = s.info.sMobileId
  token : s'.currentReservationToken = s.currentReservationToken ∨ s'.currentReservationToken = 0
  accepted : s'.accepted = s.accepted
  nonce : nonceSet s.info = true → nonceSet s'.info = true

theorem SameSession.keepsLaw {s s' : Client} (h : SameSession s s') : KeepsLaw s s' := by
  intro hnonce
  refine ⟨h.nonce hnonce, ?_⟩
  rintro (hr | hm | ⟨ht, h0⟩ | ha)
  · exact absurd h.relayAddr hr
  · exact absurd h.sMobileId hm
  · rcases h.token with hsame | hzero
    · exact absurd hsame ht
    · exact absurd hzero h0
  · exact absurd h.accepted ha

theorem keepsLaw_refl (s : Client) : KeepsLaw s s :=
  SameSession.keepsLaw ⟨rfl, rfl, Or.inl rfl, rfl, id⟩

theorem keepsLaw_of_nonce {s s' : Client} (h : nonceSet s.info = true → KeepsLaw s s') :
    KeepsLaw s s' := fun hset => h hset hset

/-! ## What the parts of a turn do -/

theorem SameSession.requestBuilt {s s' : Client} (g : Globals) (c : Choice) (m : StunBuffer)
    (h : SameSession s s') :
    SameSession s { s' with info := (finishRequest g c s'.info m).2.1 } := by
  obtain ⟨key, keySet, cok, heq⟩ := finishRequest_info g c s'.info m
  rw [heq]
  exact ⟨h.relayAddr, h.sMobileId, h.token, h.accepted, h.nonce⟩

theorem SameSession.send {s s' : Client} (m : StunBuffer) (h : SameSession s s') :
    SameSession s (s'.send m) :=
  ⟨h.relayAddr, h.sMobileId, h.token, h.accepted, h.nonce⟩

/-- The message received in this turn is a challenge whose NONCE starts with a zero byte. -/
def EmptiesNonce (c : Choice) : Prop :=
  isChallengeCode c.recvBuf c.recvRet.toNat 0 = true ∧
    (firstValueStr c.recvBuf c.recvRet.toNat stunAttributeRealm).isSome ∧
    ∃ v, firstValueStr c.recvBuf c.recvRet.toNat stunAttributeNonce = some (0 :: v)

/-- The message received in this turn stores nothing outside of the fields of a challenge,
behind which the mobility ticket lies. -/
def StoresInside (c : Choice) (s : Client) : Prop :=
  InFields (stunIsChallengeResponseStr c.recvBuf c.recvRet.toNat 0 (some (c.junk 3)) 129
    s.info.creds).stores.written

def ReceivesSuccess (c : Choice) : Prop :=
  0 < c.recvRet ∧ stunIsSuccessResponseStr c.recvBuf c.recvRet.toNat = true

theorem challenge_nonce_head (buf : Mem) (len : Nat) (errMsg : Option Mem) (size : Nat)
    (creds : Credentials) :
    (stunIsChallengeResponseStr buf len 0 errMsg size creds).stores.creds.nonce 0 = creds.nonce 0 ∨
      (isChallengeCode buf len 0 = true ∧ (firstValueStr buf len stunAttributeRealm).isSome ∧
        ∃ b v, firstValueStr buf len stunAttributeNonce = some (b :: v) ∧
          (stunIsChallengeResponseStr buf len 0 errMsg size creds).stores.creds.nonce 0 = b) := by
  obtain ⟨hret, hcode⟩ := stunIsErrorResponseStr_errMsg buf len (some 0) errMsg size
  unfold stunIsChallengeResponseStr isChallengeCode
  simp only [hret, hcode]
  split
  · rename_i hch
    cases hrealm : firstValueStr buf len stunAttributeRealm with
    | none => exact Or.inl rfl
    | some realm =>
      cases hnonce : firstValueStr buf len stunAttributeNonce with
      | none =>
        left
        simp only
        split <;> rfl
      | some nonce =>
        cases nonce with
        | nil => exact absurd rfl (firstValueStr_ne_nil hnonce)
        | cons b v =>
          refine Or.inr ⟨hch, rfl, b, v, rfl, ?_⟩
          simp only [ChallengeStores.bcopy]
          rw [write_outside (by simp)]
          exact write_inside _ 0 (i := 0) (by simp)
  · exact Or.inl rfl

/-- Everything `receive` can answer, for a message that stays inside the fields and does
not empty the nonce. -/
theorem receive_cases {c : Choice} (s : Client) (hinside : StoresInside c s)
    (hkeep : ¬EmptiesNonce c) :
    (receive c s = .nothing) ∨
    (∃ m, receive c s = .success m { s with received := s.received ++ [m] } ∧ ReceivesSuccess c) ∨
    (∃ s', SameSession s s' ∧ s'.checks = s.checks ∧
      (receive c s = .challenge s' ∨ (∃ code m, receive c s = .error code m s') ∨
        receive c s = .unknown s')) := by
  unfold receive
  simp only
  split
  · exact Or.inl rfl
  rename_i hlen
  split
  · rename_i hsucc
    exact Or.inr (Or.inl ⟨_, rfl, by omega, hsucc⟩)
  split
  · rename_i hover
    exact absurd hinside hover
  right; right
  refine ⟨{ s with
    received := s.received ++ [⟨c.recvBuf, c.recvRet.toNat⟩]
    info := { s.info with creds := (stunIsChallengeResponseStr c.recvBuf c.recvRet.toNat 0
      (some (c.junk 3)) 129 s.info.creds).stores.creds } },
    ⟨rfl, rfl, Or.inl rfl, rfl, ?_⟩, rfl, ?_⟩
  · intro hset
    rcases challenge_nonce_head c.recvBuf c.recvRet.toNat (some (c.junk 3)) 129 s.info.creds with
      heq | ⟨hch, hrealm, b, v, hnonce, heq⟩
    · simpa [nonceSet, heq] using hset
    · have hb : b ≠ 0 := by
        rintro rfl
        exact hkeep ⟨hch, hrealm, v, hnonce⟩
      simpa [nonceSet, heq] using hb
  · split
    · exact Or.inl rfl
    · split
      · exact Or.inr (Or.inl ⟨_, _, rfl⟩)
      · exact Or.inr (Or.inr rfl)

theorem SameSession.authenticate {s s' : Client} (g : Globals) (c : Choice) (m : StunBuffer)
    (h : SameSession s s') : SameSession s (s'.authenticate g c m).2 := by
  obtain ⟨checks, hcheck⟩ := s'.authenticate_eq g c m
  rw [hcheck]
  exact ⟨h.relayAddr, h.sMobileId, h.token, h.accepted, h.nonce⟩

theorem authenticate_info (g : Globals) (c : Choice) (s : Client) (m : StunBuffer) :
    (s.authenticate g c m).2.info = s.info := by
  obtain ⟨checks, hcheck⟩ := s.authenticate_eq g c m
  rw [hcheck]

theorem sameSession_received (s : Client) (m : StunBuffer) :
    SameSession s { s with received := s.received ++ [m] } :=
  ⟨rfl, rfl, Or.inl rfl, rfl, id⟩

theorem keepsLaw_after_check {g : Globals} {c : Choice} {s s' : Client} {m : StunBuffer}
    (hrc : ¬(Client.authenticate g c { s with received := s.received ++ [m] } m).1 < 0)
    (hreceived : s'.received =
      (Client.authenticate g c { s with received := s.received ++ [m] } m).2.received)
    (hchecks : s'.checks =
      (Client.authenticate g c { s with received := s.received ++ [m] } m).2.checks)
    (hnonce : nonceSet s'.info = nonceSet s.info) : KeepsLaw s s' := by
  intro hset
  refine ⟨hnonce.trans hset, fun _ => ?_⟩
  simp only [Client.authenticate, hset, if_true] at hrc hreceived hchecks
  exact ⟨m, _, hreceived, hchecks, by omega⟩

/-! ## Turns -/

def keepsNonce (c : Choice) (s : Client) : Prop := nonceSet s.info = true → ¬EmptiesNonce c

/-- What a turn may receive while it waits for a response. -/
structure ResponseOk (c : Choice) (s : Client) : Prop where
  inside : StoresInside c s
  nonce : keepsNonce c s

def bindTurnOk (c : Choice) (pc : BindPc) (s : Client) : Prop :=
  match pc with
  | .begBind _ => True
  | .response _ => ResponseOk c s

def permissionTurnOk (c : Choice) (pc : PermissionPc) (s : Client) : Prop :=
  match pc with
  | .begCp => True
  | .response => ResponseOk c s

/-- In `clnet_allocate` also a Refresh success of a session with a nonce is left out. -/
def allocTurnOk (c : Choice) (pc : AllocPc) (s : Client) : Prop :=
  match pc with
  | .allocateResponse _ _ => ResponseOk c s
  | .refreshResponse _ => ResponseOk c s ∧ (nonceSet s.info = true → ¬ReceivesSuccess c)
  | _ => True

theorem sameSession_refl (s : Client) : SameSession s s := ⟨rfl, rfl, Or.inl rfl, rfl, id⟩

theorem turnChannelBindStep_keepsLaw (g : Globals) (peer : IoaAddr) (c : Choice) (pc : BindPc)
    (s : Client) (hok : bindTurnOk c pc s) :
    KeepsLaw s (turnChannelBindStep g peer c pc s).state := by
  cases pc with
  | begBind chn =>
    have hbuilt := (sameSession_refl s).requestBuilt g c
      (stunSetChannelBindRequestStr c (some peer) chn).2
    simp only [turnChannelBindStep]
    split
    · exact hbuilt.keepsLaw
    · split <;> exact (hbuilt.send _).keepsLaw
  | response chn =>
    refine keepsLaw_of_nonce fun hset => ?_
    simp only [turnChannelBindStep]
    rcases receive_cases s hok.inside (hok.nonce hset) with hr | ⟨m, hr, _⟩ |
      ⟨s', hsame, _, hr | ⟨code, m, hr⟩ | hr⟩ <;> rw [hr]
    · exact keepsLaw_refl s
    · simp only
      split
      · exact ((sameSession_received s m).authenticate g c m).keepsLaw
      · rename_i hrc
        refine keepsLaw_after_check hrc rfl rfl ?_
        exact congrArg nonceSet (authenticate_info g c _ m)
    all_goals exact hsame.keepsLaw

theorem turnCreatePermissionStep_keepsLaw (g : Globals) (peers : List IoaAddr) (c : Choice)
    (pc : PermissionPc) (s : Client) (hok : permissionTurnOk c pc s) :
    KeepsLaw s (turnCreatePermissionStep g peers c pc s).state := by
  cases pc with
  | begCp =>
    have hbuilt := (sameSession_refl s).requestBuilt g c (createPermissionRequest c peers)
    simp only [turnCreatePermissionStep]
    split
    · exact keepsLaw_refl s
    · split
      · exact hbuilt.keepsLaw
      · split <;> exact (hbuilt.send _).keepsLaw
  | response =>
    refine keepsLaw_of_nonce fun hset => ?_
    simp only [turnCreatePermissionStep]
    rcases receive_cases s hok.inside (hok.nonce hset) with hr | ⟨m, hr, _⟩ |
      ⟨s', hsame, _, hr | ⟨code, m, hr⟩ | hr⟩ <;> rw [hr]
    · exact keepsLaw_refl s
    · simp only
      split
      · exact ((sameSession_received s m).authenticate g c m).keepsLaw
      · rename_i hrc
        refine keepsLaw_after_check hrc rfl rfl ?_
        exact congrArg nonceSet (authenticate_info g c _ m)
    all_goals exact hsame.keepsLaw

/-! ### The turns of `clnet_allocate` -/

theorem SameSession.reopenSocket {s s' : Client} {g : Globals} {c : Choice} {reopen reopen' : Bool}
    (h : reopenSocketStep g c reopen s = some (reopen', s')) : SameSession s s' := by
  rcases reopenSocketStep_cases h with ⟨_, rfl⟩ | ⟨_, rfl⟩
  · exact ⟨rfl, rfl, Or.inl rfl, rfl, id⟩
  · exact sameSession_refl s'

theorem SameSession.mobility {s s' : Client} {c : Choice} (h : reopenForMobility c s = some s') :
    SameSession s s' := by
  rcases reopenForMobility_cases h with ⟨_, rfl⟩ | ⟨_, rfl⟩
  · exact ⟨rfl, rfl, Or.inl rfl, rfl, id⟩
  · exact sameSession_refl s'

theorem allocateSucceeded_frame (s : Client) (m : StunBuffer) :
    (allocateSucceeded s m).2.received = s.received ∧ (allocateSucceeded s m).2.checks = s.checks ∧
      (allocateSucceeded s m).2.info.creds = s.info.creds := by
  unfold allocateSucceeded
  simp only
  split
  · refine ⟨rfl, rfl, ?_⟩
    simp only [Client.accept, readMobilityTicket]
    split
    · rfl
    · split <;> rfl
  · exact ⟨rfl, rfl, rfl⟩

/-- Everything the success branch writes is written behind the check. -/
theorem keepsLaw_allocateSucceeded {g : Globals} {c : Choice} {s : Client} {m : StunBuffer}
    (hrc : ¬(Client.authenticate g c { s with received := s.received ++ [m] } m).1 < 0) :
    KeepsLaw s (allocateSucceeded
      (Client.authenticate g c { s with received := s.received ++ [m] } m).2 m).2 := by
  obtain ⟨hreceived, hchecks, hcreds⟩ := allocateSucceeded_frame
    (Client.authenticate g c { s with received := s.received ++ [m] } m).2 m
  have hinfo := congrArg ConnInfo.creds
    (authenticate_info g c { s with received := s.received ++ [m] } m)
  exact keepsLaw_after_check hrc hreceived hchecks (by simp only [nonceSet, hcreds, hinfo])

theorem allocateResponse_keepsLaw (g : Globals) (af : AddressFamilyValue) (c : Choice)
    (afCycle : Nat) (reopen : Bool) (s : Client) (hok : ResponseOk c s) :
    KeepsLaw s (clnetAllocateStep g af c (.allocateResponse afCycle reopen) s).state := by
  refine keepsLaw_of_nonce fun hset => ?_
  simp only [clnetAllocateStep]
  rcases receive_cases s hok.inside (hok.nonce hset) with hr | ⟨m, hr, _⟩ |
    ⟨s', hsame, _, hr | ⟨code, m, hr⟩ | hr⟩ <;> rw [hr]
  · exact keepsLaw_refl s
  · simp only
    split
    · exact ((sameSession_received s m).authenticate g c m).keepsLaw
    · rename_i hrc
      have hkeep := keepsLaw_allocateSucceeded hrc
      split <;> exact hkeep
  · exact hsame.keepsLaw
  · have hauth : SameSession s (if code = 300 then s'.authenticate g c m else (0, s')).2 := by
      split
      · exact hsame.authenticate g c m
      · exact hsame
    simp only
    generalize (if code = 300 then s'.authenticate g c m else (0, s')) = r at hauth ⊢
    split
    · exact hauth.keepsLaw
    · split
      · exact SameSession.keepsLaw
          ⟨hauth.relayAddr, hauth.sMobileId, Or.inr rfl, hauth.accepted, hauth.nonce⟩
      · exact hauth.keepsLaw
  · exact hsame.keepsLaw

theorem refreshResponse_keepsLaw (g : Globals) (af : AddressFamilyValue) (c : Choice)
    (afCycle : Nat) (s : Client) (hok : ResponseOk c s)
    (hunchecked : nonceSet s.info = true → ¬ReceivesSuccess c) :
    KeepsLaw s (clnetAllocateStep g af c (.refreshResponse afCycle) s).state := by
  refine keepsLaw_of_nonce fun hset => ?_
  simp only [clnetAllocateStep]
  rcases receive_cases s hok.inside (hok.nonce hset) with hr | ⟨m, hr, hsucc⟩ |
    ⟨s', hsame, _, hr | ⟨code, m, hr⟩ | hr⟩ <;> rw [hr]
  · exact keepsLaw_refl s
  · exact absurd hsucc (hunchecked hset)
  all_goals exact hsame.keepsLaw

theorem clnetAllocateStep_keepsLaw (g : Globals) (af : AddressFamilyValue) (c : Choice)
    (pc : AllocPc) (s : Client) (hok : allocTurnOk c pc s) :
    KeepsLaw s (clnetAllocateStep g af c pc s).state := by
  cases pc with
  | allocate afCycle reopen =>
    simp only [clnetAllocateStep]
    split
    · exact keepsLaw_refl s
    · cases hreopen : reopenSocketStep g c reopen s with
      | none => exact keepsLaw_refl s
      | some r =>
        obtain ⟨reopen', s'⟩ := r
        have hbuilt := (SameSession.reopenSocket hreopen).requestBuilt g c
          (allocateRequest g af c s')
        simp only
        split
        · exact hbuilt.keepsLaw
        · split <;> exact (hbuilt.send _).keepsLaw
  | allocateResponse afCycle reopen => exact allocateResponse_keepsLaw g af c afCycle reopen s hok
  | allocated =>
    simp only [clnetAllocateStep]
    cases hmob : reopenForMobility c { s with allocateRtcp := !s.allocateRtcp } with
    | none => exact keepsLaw_refl s
    | some s' =>
      have hsame := SameSession.mobility hmob
      exact SameSession.keepsLaw
        ⟨hsame.relayAddr, hsame.sMobileId, hsame.token, hsame.accepted, hsame.nonce⟩
  | refresh afCycle =>
    have hbuilt := (sameSession_refl s).requestBuilt g c (refreshRequest g c s.info)
    simp only [clnetAllocateStep]
    split
    · exact keepsLaw_refl s
    · split
      · exact hbuilt.keepsLaw
      · split
        · exact (hbuilt.send _).keepsLaw
        · split
          · exact ((hbuilt.send _).send _).keepsLaw
          · exact (hbuilt.send _).keepsLaw
  | refreshResponse afCycle => exact refreshResponse_keepsLaw g af c afCycle s hok.1 hok.2

/-! ## Runs -/

inductive Call where
  | allocate (af : AddressFamilyValue)
  | channelBind (peer : IoaAddr) (chn : BitVec 16)
  | createPermission (peers : List IoaAddr)

def Call.trace (g : Globals) (call : Call) (cs : List Choice) (s : Client) : List Client :=
  match call with
  | allocate af => Drive.trace (clnetAllocateStep g af) cs (.allocate 0 false) s
  | channelBind peer chn => Drive.trace (turnChannelBindStep g peer) cs (.begBind chn) s
  | createPermission peers => Drive.trace (turnCreatePermissionStep g peers) cs .begCp s

def Call.returned (g : Globals) (call : Call) (cs : List Choice) (s : Client) : Option Client :=
  match call with
  | allocate af =>
    match clnetAllocate g af cs s with
    | .stop (.rc _) s' => some s'
    | _ => none
  | channelBind peer chn =>
    match Drive.run (turnChannelBindStep g peer) cs (.begBind chn) s with
    | .stop (.rc _, _) s' => some s'
    | _ => none
  | createPermission peers =>
    match Drive.run (turnCreatePermissionStep g peers) cs .begCp s with
    | .stop (.rc _) s' => some s'
    | _ => none

/-- No turn of the call takes an unchecked Refresh success, an empty nonce or a challenge
too long for its fields. -/
def Call.Ok (g : Globals) (call : Call) (cs : List Choice) (s : Client) : Prop :=
  match call with
  | allocate af => Drive.Along allocTurnOk (clnetAllocateStep g af) cs (.allocate 0 false) s
  | channelBind peer chn => Drive.Along bindTurnOk (turnChannelBindStep g peer) cs (.begBind chn) s
  | createPermission peers =>
    Drive.Along permissionTurnOk (turnCreatePermissionStep g peers) cs .begCp s

def callsTrace (g : Globals) : List (Call × List Choice) → Client → List Client
  | [], s => [s]
  | (call, cs) :: rest, s =>
    call.trace g cs s ++ match call.returned g cs s with
      | some s' => callsTrace g rest s'
      | none => []

def CallsOk (g : Globals) : List (Call × List Choice) → Client → Prop
  | [], _ => True
  | (call, cs) :: rest, s =>
    call.Ok g cs s ∧ match call.returned g cs s with
      | some s' => CallsOk g rest s'
      | none => True

theorem Call.trace_isChain {g : Globals} {call : Call} {cs : List Choice} {s : Client}
    (h : call.Ok g cs s) : (call.trace g cs s).IsChain KeepsLaw := by
  cases call with
  | allocate af => exact Drive.trace_isChain (clnetAllocateStep_keepsLaw g af) cs h
  | channelBind peer chn => exact Drive.trace_isChain (turnChannelBindStep_keepsLaw g peer) cs h
  | createPermission peers =>
    exact Drive.trace_isChain (turnCreatePermissionStep_keepsLaw g peers) cs h

theorem Call.returned_last {g : Globals} {call : Call} {cs : List Choice} {s s' : Client}
    (h : call.returned g cs s = some s') : (call.trace g cs s).getLast? = some s' := by
  cases call with
  | allocate af =>
    simp only [Call.returned, clnetAllocate] at h
    split at h
    · rename_i hrun
      cases h
      exact Drive.trace_last_of_stop hrun
    · cases h
  | channelBind peer chn =>
    simp only [Call.returned] at h
    split at h
    · rename_i hrun
      cases h
      exact Drive.trace_last_of_stop hrun
    · cases h
  | createPermission peers =>
    simp only [Call.returned] at h
    split at h
    · rename_i hrun
      cases h
      exact Drive.trace_last_of_stop hrun
    · cases h

theorem Call.trace_head (g : Globals) (call : Call) (cs : List Choice) (s : Client) :
    (call.trace g cs s).head? = some s := by
  cases call with
  | allocate af => exact Drive.head?_trace _ cs _ s
  | channelBind peer chn => exact Drive.head?_trace _ cs _ s
  | createPermission peers => exact Drive.head?_trace _ cs _ s

theorem callsTrace_isChain {g : Globals} (calls : List (Call × List Choice)) {s : Client}
    (h : CallsOk g calls s) :
    (callsTrace g calls s).IsChain KeepsLaw ∧ (callsTrace g calls s).head? = some s := by
  induction calls generalizing s with
  | nil => exact ⟨List.isChain_singleton s, rfl⟩
  | cons cc rest ih =>
    obtain ⟨call, cs⟩ := cc
    obtain ⟨hcall, hrest⟩ := h
    have hchain := Call.trace_isChain hcall
    have hhead := Call.trace_head g call cs s
    rw [callsTrace]
    cases hret : call.returned g cs s with
    | none =>
      simp only [List.append_nil]
      exact ⟨hchain, hhead⟩
    | some s' =>
      rw [hret] at hrest
      obtain ⟨hnext, hnextHead⟩ := ih hrest
      refine ⟨List.isChain_append.mpr ⟨hchain, hnext, ?_⟩, by rw [List.head?_append, hhead]; rfl⟩
      intro x hx y hy
      rw [Call.returned_last hret] at hx
      rw [hnextHead] at hy
      cases hx
      cases hy
      exact keepsLaw_refl s'

/-- From the first state with a nonce on, whatever changes the session or is
accepted in a turn was received and checked in that turn. -/
theorem authenticated_session_changes_only_by_checked_responses (g : Globals)
    (calls : List (Call × List Choice)) (s : Client) (h : CallsOk g calls s) :
    ((callsTrace g calls s).dropWhile fun s => !nonceSet s.info).IsChain TurnLaw :=
  Drive.isChain_dropWhile (callsTrace_isChain calls h).1

/-- Error 401 with a one-byte realm and a one-byte nonce. -/
def challengeAttrs : List Byte :=
  [0x00, 0x09, 0x00, 0x04, 0, 0, 4, 1, 0x00, 0x14, 0x00, 0x01, 0x72, 0, 0, 0,
    0x00, 0x15, 0x00, 0x01, 0x6E, 0, 0, 0]

def challengedBind : List Choice :=
  [.sends, .receives (responseBytes 0x0119 challengeAttrs), .sends,
    .receives (responseBytes 0x0109 integrityAttr)]

/-- Realm and nonce of one byte each, nothing about a third party: a challenge that fits. -/
theorem shortChallenge {buf : Mem} {len : Nat} (hcode : isChallengeCode buf len 0 = true)
    {r n : Byte} (hrealm : firstValueStr buf len stunAttributeRealm = some [r])
    (hthird : firstValueStr buf len stunAttributeThirdPartyAuthorization = none)
    (hnonce : firstValueStr buf len stunAttributeNonce = some [n]) (errMsg : Option Mem)
    (size : Nat) (creds : Credentials) :
    (stunIsChallengeResponseStr buf len 0 errMsg size creds).ret = true ∧
      InFields (stunIsChallengeResponseStr buf len 0 errMsg size creds).stores.written := by
  obtain ⟨hret', hcode'⟩ := stunIsErrorResponseStr_errMsg buf len (some 0) errMsg size
  unfold isChallengeCode at hcode
  have hfields : InFields [(.realm, 0), (.realm, 1), (.nonce, 0), (.nonce, 1)] := by decide
  unfold stunIsChallengeResponseStr
  simp only [hret', hcode', hcode, hrealm, hthird, hnonce, if_true]
  exact ⟨trivial, hfields⟩

theorem storesInside_of_not_challenge {c : Choice}
    (hcode : isChallengeCode c.recvBuf c.recvRet.toNat 0 = false) (s : Client) :
    StoresInside c s := by
  obtain ⟨hret', hcode'⟩ := stunIsErrorResponseStr_errMsg c.recvBuf c.recvRet.toNat (some 0)
    (some (c.junk 3)) 129
  unfold isChallengeCode at hcode
  unfold StoresInside stunIsChallengeResponseStr
  simp only [hret', hcode', hcode, Bool.false_eq_true, if_false]
  exact fun w hw => absurd hw List.not_mem_nil

theorem challengedBind_inside (s : Client) : ∀ c ∈ challengedBind, StoresInside c s := by
  intro c hc
  simp only [challengedBind, List.mem_cons, List.not_mem_nil, or_false] at hc
  rcases hc with rfl | rfl | rfl | rfl
  · exact storesInside_of_not_challenge (by decide +kernel) s
  · exact (shortChallenge (r := 0x72) (n := 0x6E) (by decide +kernel) (by decide +kernel)
      (by decide +kernel) (by decide +kernel) _ _ _).2
  · exact storesInside_of_not_challenge (by decide +kernel) s
  · exact storesInside_of_not_challenge (by decide +kernel) s

theorem challenged_bind_changes_by_checked_response :
    let g := Globals.initial constantSsl
    let calls := [(Call.channelBind IoaAddr.any 0, challengedBind)]
    CallsOk g calls Client.init ∧
      ((callsTrace g calls Client.init).dropWhile fun s => !nonceSet s.info).IsChain TurnLaw := by
  intro g calls
  have hkeep : ∀ c ∈ challengedBind, ¬EmptiesNonce c := by
    intro c hc
    rintro ⟨_, _, v, hv⟩
    have hnonce : ∀ c ∈ challengedBind,
        firstValueStr c.recvBuf c.recvRet.toNat stunAttributeNonce = none ∨
        firstValueStr c.recvBuf c.recvRet.toNat stunAttributeNonce = some [0x6E] := by
      decide +kernel
    rcases hnonce c hc with h | h <;> rw [h] at hv <;> cases hv
  have hok : CallsOk g calls Client.init := by
    refine ⟨Drive.along_of_forall _ fun c hc pc s => ?_, by split <;> trivial⟩
    cases pc with
    | begBind chn => trivial
    | response chn => exact ⟨challengedBind_inside s c hc, fun _ => hkeep c hc⟩
  exact ⟨hok, authenticated_session_changes_only_by_checked_responses g calls Client.init hok⟩

/-- A challenged Allocate, then a Refresh success without MESSAGE-INTEGRITY that carries a ticket. -/
def uncheckedRefresh : List Choice :=
  [.sends, .receives (responseBytes 0x0113 challengeAttrs), .sends,
    .receives (responseBytes 0x0103
      ([0x00, 0x16, 0x00, 0x08, 0, 1, 0x21, 0x12, 1, 2, 3, 4] ++ integrityAttr)),
    .idle, .sends,
    .receives (responseBytes 0x0104 [0x80, 0x30, 0x00, 0x04, 0x65, 0x76, 0x69, 0x6C])]

theorem unchecked_refresh_changes_session :
    ¬((callsTrace (Globals.initial constantSsl) [(Call.allocate .default, uncheckedRefresh)]
      Client.init).dropWhile fun s => !nonceSet s.info).IsChain TurnLaw := by
  intro h
  -- the law seen through the lengths of the two logs
  let logs (s : Client) : Nat × Nat := (s.accepted.length, s.checks.length)
  let LogLaw (x y : Nat × Nat) : Prop := y.1 ≠ x.1 → y.2 ≠ x.2
  have hobs : ∀ s s', TurnLaw s s' → LogLaw (logs s) (logs s') := by
    intro s s' hlaw hacc
    obtain ⟨m, rc, _, hchecks, _⟩ :=
      hlaw (Or.inr (Or.inr (Or.inr fun heq => hacc (congrArg List.length heq))))
    simp only [logs, hchecks, List.length_append, List.length_singleton]
    omega
  have hlast : List.IsChain LogLaw _ := (List.isChain_map logs).mpr (h.imp hobs)
  have hrun : ((callsTrace (Globals.initial constantSsl)
      [(Call.allocate .default, uncheckedRefresh)] Client.init).dropWhile
        fun s => !nonceSet s.info).map logs =
      [(0, 0), (0, 0), (1, 1), (1, 1), (1, 1), (2, 1), (2, 1)] := by
    decide +kernel
  rw [hrun] at hlast
  have hpair : LogLaw (1, 1) (2, 1) := by
    simp only [List.isChain_cons_cons] at hlast
    exact hlast.2.2.2.2.1
  exact hpair (by decide) rfl

end TurnClient
