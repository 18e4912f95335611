import TurnClient.AllocateTurns

/-!
# Reservation tokens across allocations

A run is any number of calls of `clnet_allocate` on any sessions, with the two
statics of `connect_manager.c` handed from call to call; next to the client it
keeps the history of the Allocate requests that were sent and of the success
responses that passed the integrity check. A request that carries a token is in
order when the token is that of the last success, was not spent before, and
stands without the attributes it excludes.
-/

namespace TurnClient

open ByteMemory
set_option autoImplicit false

inductive AllocEvent where
  | request (m : StunBuffer)
  | success (m : StunBuffer)

/-! ## Histories, the newest event first -/

def lastRequest : List AllocEvent → Option StunBuffer
  | [] => none
  | .request m :: _ => some m
  | .success _ :: h => lastRequest h

def lastSuccess : List AllocEvent → Option StunBuffer
  | [] => none
  | .request _ :: h => lastSuccess h
  | .success m :: _ => some m

def tokensInFlight (h : List AllocEvent) : List (List Byte) :=
  match lastRequest h with
  | none => []
  | some m => carriedTokens m

/-- The tokens of the requests that were answered by a success. -/
def spentTokens : List AllocEvent → List (List Byte)
  | [] => []
  | .request _ :: h => spentTokens h
  | .success _ :: h => tokensInFlight h ++ spentTokens h

/-- A token a request may carry after this history, and what else the request holds then. -/
structure TokenInOrder (h : List AllocEvent) (m : StunBuffer) (token : List Byte) : Prop where
  granted : ∃ r, lastSuccess h = some r ∧ reservationToken r ≠ 0 ∧ token = be64 (reservationToken r)
  unspent : token ∉ spentTokens h
  alone : ∀ sar ∈ attrRefs m.buf m.len, get16 m.buf sar ∉ excludedTypes

def Disciplined : List AllocEvent → Prop
  | [] => True
  | .request m :: h => (∀ token ∈ carriedTokens m, TokenInOrder h m token) ∧ Disciplined h
  | .success _ :: h => Disciplined h

instance TokenInOrder.decidable (h : List AllocEvent) (m : StunBuffer) (token : List Byte) :
    Decidable (TokenInOrder h m token) :=
  decidable_of_iff
    ((∃ r ∈ lastSuccess h, reservationToken r ≠ 0 ∧ token = be64 (reservationToken r)) ∧
      token ∉ spentTokens h ∧ ∀ sar ∈ attrRefs m.buf m.len, get16 m.buf sar ∉ excludedTypes)
    ⟨fun ⟨hgranted, hunspent, halone⟩ => ⟨hgranted, hunspent, halone⟩,
      fun h => ⟨h.granted, h.unspent, h.alone⟩⟩

instance Disciplined.decidable : (h : List AllocEvent) → Decidable (Disciplined h)
  | [] => isTrue trivial
  | .request m :: h =>
    have := Disciplined.decidable h
    inferInstanceAs (Decidable ((∀ token ∈ carriedTokens m, TokenInOrder h m token) ∧ _))
  | .success _ :: h => Disciplined.decidable h

/-! ## Runs of calls -/

inductive AllocPoint where
  | idle
  | busy (af : AddressFamilyValue) (pc : AllocPc)

structure Reservations where
  client : Client
  history : List AllocEvent

/-- A call on any session, or one turn of the call that is under way. -/
inductive AllocInput where
  | call (af : AddressFamilyValue) (info : ConnInfo) (defaultAddressFamily : AddressFamilyValue)
  | turn (c : Choice)

def successEvent (g : Globals) (c : Choice) : Response → List AllocEvent
  | .success m s => if (s.authenticate g c m).1 < 0 then [] else [.success m]
  | _ => []

def turnEvents (g : Globals) (c : Choice) (s s' : Client) : AllocPc → List AllocEvent
  | .allocate _ _ => (s'.sent.drop s.sent.length).map .request
  | .allocateResponse _ _ => successEvent g c (receive c s)
  | _ => []

/-- The calls run one after the other; the statics are what they share. -/
def allocationsStep (g : Globals) :
    AllocInput → AllocPoint → Reservations → Drive.Turn AllocPoint Reservations Ret
  | .call af info daf, .idle, r =>
    .again (.busy af (.allocate 0 false))
      { r with client := { r.client with info := info, defaultAddressFamily := daf } }
  | .turn c, .busy af pc, r =>
    let turn := clnetAllocateStep g af c pc r.client
    let r' := ⟨turn.state, turnEvents g c r.client turn.state pc ++ r.history⟩
    match turn with
    | .again pc' _ => .again (.busy af pc') r'
    | .stop (.rc _) _ => .again .idle r'
    | .stop ret _ => .stop ret r'
  | _, point, r => .again point r

/-! ## When the tokens stay in order -/

/-- The response grants a token that was not spent before. -/
def GrantsFresh (h : List AllocEvent) (m : StunBuffer) : Prop :=
  reservationToken m ≠ 0 ∧ be64 (reservationToken m) ∉ spentTokens h

/-- A first allocation that succeeds is granted a fresh token; a second one
succeeds with a usable address, or is refused with 437, or is redirected by a
message that fails the integrity check. -/
def ServesPair (g : Globals) (c : Choice) (r : Reservations) : Response → Prop
  | .success m s => 0 ≤ (s.authenticate g c m).1 →
    (r.client.allocateRtcp = true →
      RelayReadable r.client.defaultAddressFamily m.buf (attrRefs m.buf m.len)) ∧
    (r.client.allocateRtcp = false →
      RelayReadable r.client.defaultAddressFamily m.buf (attrRefs m.buf m.len) →
        GrantsFresh r.history m)
  | .error code m s => r.client.allocateRtcp = true →
    code = 437 ∨ (code = 300 ∧ (s.authenticate g c m).1 < 0)
  | _ => True

def PairServed (g : Globals) : AllocInput → AllocPoint → Reservations → Prop
  | .turn c, .busy _ (.allocateResponse _ _), r => ServesPair g c r (receive c r.client)
  | _, _, _ => True

instance GrantsFresh.decidable (h : List AllocEvent) (m : StunBuffer) :
    Decidable (GrantsFresh h m) :=
  inferInstanceAs (Decidable (_ ∧ _))

instance ServesPair.decidable (g : Globals) (c : Choice) (r : Reservations) :
    (response : Response) → Decidable (ServesPair g c r response)
  | .success _ _ => inferInstanceAs (Decidable (_ → _ ∧ _))
  | .error _ _ _ => inferInstanceAs (Decidable (_ → _ ∨ _))
  | .nothing => isTrue trivial
  | .challenge _ => isTrue trivial
  | .unknown _ => isTrue trivial
  | .overflow => isTrue trivial

instance PairServed.decidable (g : Globals) :
    (e : AllocInput) → (b : AllocPoint) → (r : Reservations) → Decidable (PairServed g e b r)
  | .turn c, .busy _ (.allocateResponse _ _), r =>
    inferInstanceAs (Decidable (ServesPair g c r (receive c r.client)))
  | .call _ _ _, _, _ => isTrue trivial
  | .turn _, .idle, _ => isTrue trivial
  | .turn _, .busy _ (.allocate _ _), _ => isTrue trivial
  | .turn _, .busy _ .allocated, _ => isTrue trivial
  | .turn _, .busy _ (.refresh _), _ => isTrue trivial
  | .turn _, .busy _ (.refreshResponse _), _ => isTrue trivial

/-! ## The invariant -/

/-- The token that is kept is the one of the last success, and it may be spent. -/
def HoldsToken (r : Reservations) : Prop :=
  ∃ m, lastSuccess r.history = some m ∧
    r.client.currentReservationToken = reservationToken m ∧ GrantsFresh r.history m

/-- Whether the next Allocate request carries a token; the flag is about to flip
right after a success. -/
def reservesNext : AllocPoint → Client → Bool
  | .busy _ .allocated, s => !s.allocateRtcp
  | _, s => s.allocateRtcp

def AllocPoint.awaitsResponse : AllocPoint → Bool
  | .busy _ (.allocateResponse _ _) => true
  | _ => false

structure AllocInv (point : AllocPoint) (r : Reservations) : Prop where
  disciplined : Disciplined r.history
  reserved : reservesNext point r.client = true → HoldsToken r
  plain : point.awaitsResponse = true → r.client.allocateRtcp = false →
    tokensInFlight r.history = []

/-- What holds where a call ends; nothing runs after the end of the process. -/
def AllocEnd (ret : Ret) (r : Reservations) : Prop :=
  Disciplined r.history ∧ ∀ n, ret = .rc n → AllocInv .idle r

theorem AllocInv.allocEnd {r : Reservations} (h : AllocInv .idle r) (ret : Ret) : AllocEnd ret r :=
  ⟨h.disciplined, fun _ _ => h⟩

/-- Nothing is sent or accepted and the flag keeps its meaning. -/
theorem AllocInv.congr {point point' : AllocPoint} {r : Reservations} (h : AllocInv point r)
    {s' : Client} (hs : SameStatics r.client s')
    (hnext : reservesNext point' s' = reservesNext point r.client)
    (hawaits : point'.awaitsResponse = true → point.awaitsResponse = true) :
    AllocInv point' ⟨s', r.history⟩ := by
  refine ⟨h.disciplined, ?_, ?_⟩
  · intro hflag
    obtain ⟨m, hlast, htoken, hfresh⟩ := h.reserved (hnext ▸ hflag)
    exact ⟨m, hlast, hs.token.trans htoken, hfresh⟩
  · intro hpoint hrtcp
    exact h.plain (hawaits hpoint) (hs.rtcp ▸ hrtcp)

theorem disciplined_request {r : Reservations} {m : StunBuffer} (h : Disciplined r.history)
    (hreserved : r.client.allocateRtcp = true → HoldsToken r) (hfits : FitsStatics r.client m) :
    Disciplined (.request m :: r.history) := by
  refine ⟨?_, h⟩
  intro token htoken
  have hnext := hfits.tokens token htoken
  have halone := hfits.alone (by rw [hnext]; rfl)
  unfold nextToken at hnext
  split at hnext
  · rename_i hrtcp
    cases hnext
    obtain ⟨m', hlast, hcurrent, hne, hunspent⟩ := hreserved hrtcp
    rw [hcurrent]
    exact ⟨⟨m', hlast, hne, rfl⟩, hunspent, halone⟩
  · cases hnext

theorem AllocInv.request {af : AddressFamilyValue} {afCycle : Nat} {reopenSocket : Bool}
    {r : Reservations} (h : AllocInv (.busy af (.allocate afCycle reopenSocket)) r) {s' : Client}
    (hs : SameStatics r.client s') {m : StunBuffer} (hfits : FitsStatics r.client m)
    {point' : AllocPoint} (hnext : reservesNext point' s' = s'.allocateRtcp) :
    AllocInv point' ⟨s', .request m :: r.history⟩ := by
  refine ⟨disciplined_request h.disciplined h.reserved hfits, ?_, ?_⟩
  · intro hflag
    rw [hnext, hs.rtcp] at hflag
    obtain ⟨m', hlast, htoken, hfresh⟩ := h.reserved hflag
    exact ⟨m', hlast, hs.token.trans htoken, hfresh⟩
  · intro _ hrtcp
    rw [hs.rtcp] at hrtcp
    refine List.eq_nil_iff_forall_not_mem.mpr fun token htoken => ?_
    have hnone := hfits.tokens token htoken
    rw [nextToken, hrtcp] at hnone
    cases hnone

/-! ## One turn -/

theorem allocationsStep_holds {g : Globals} {c : Choice} {af : AddressFamilyValue} {pc : AllocPc}
    {r : Reservations}
    (h : (clnetAllocateStep g af c pc r.client).Holds
      (fun pc' s' => AllocInv (.busy af pc') ⟨s', turnEvents g c r.client s' pc ++ r.history⟩)
      (fun ret s' => AllocEnd ret ⟨s', turnEvents g c r.client s' pc ++ r.history⟩)) :
    (allocationsStep g (.turn c) (.busy af pc) r).Holds AllocInv
      fun _ r' => Disciplined r'.history := by
  simp only [allocationsStep]
  cases hturn : clnetAllocateStep g af c pc r.client with
  | again pc' s' =>
    rw [hturn] at h
    exact h
  | stop ret s' =>
    rw [hturn] at h
    cases ret with
    | rc n => exact h.2 n rfl
    | exited => exact h.1
    | undef => exact h.1

theorem turnEvents_allocate {g : Globals} {c : Choice} {s s' : Client} (afCycle : Nat)
    (reopenSocket : Bool) {ms : List StunBuffer} (h : s'.sent = s.sent ++ ms) :
    turnEvents g c s s' (.allocate afCycle reopenSocket) = ms.map .request := by
  rw [turnEvents, h, List.drop_left]

theorem allocate_holds {g : Globals} (hg : g.noRtcp = false) {af : AddressFamilyValue} (c : Choice)
    {afCycle : Nat} {reopenSocket : Bool} {r : Reservations}
    (h : AllocInv (.busy af (.allocate afCycle reopenSocket)) r) :
    (allocationsStep g (.turn c) (.busy af (.allocate afCycle reopenSocket)) r).Holds AllocInv
      fun _ r' => Disciplined r'.history := by
  apply allocationsStep_holds
  have hturn := allocate_turn hg af c afCycle reopenSocket r.client
  cases hcase : clnetAllocateStep g af c (.allocate afCycle reopenSocket) r.client with
  | again pc' s' =>
    rw [hcase] at hturn
    obtain ⟨⟨n, reopen, rfl⟩, hs, m, hsent, hfits⟩ := hturn
    simp only [Drive.Turn.Holds, turnEvents_allocate afCycle reopenSocket hsent]
    exact h.request hs hfits rfl
  | stop ret s' =>
    rw [hcase] at hturn
    obtain ⟨hs, hsent | ⟨m, hsent, hfits⟩⟩ := hturn
    · have hnone : s'.sent = r.client.sent ++ [] := by rw [hsent, List.append_nil]
      simp only [Drive.Turn.Holds, turnEvents_allocate afCycle reopenSocket hnone]
      have hidle : AllocInv .idle ⟨s', r.history⟩ :=
        h.congr hs hs.rtcp (by intro hfalse; cases hfalse)
      exact hidle.allocEnd ret
    · simp only [Drive.Turn.Holds, turnEvents_allocate afCycle reopenSocket hsent]
      exact (h.request hs hfits rfl).allocEnd ret

theorem refreshing_holds (g : Globals) (c : Choice) {af : AddressFamilyValue} {pc : AllocPc}
    (hpc : pc.refreshing = true) {r : Reservations} (h : AllocInv (.busy af pc) r) :
    (allocationsStep g (.turn c) (.busy af pc) r).Holds AllocInv
      fun _ r' => Disciplined r'.history := by
  have hevents (s' : Client) : turnEvents g c r.client s' pc = [] := by
    cases pc <;> first | rfl | cases hpc
  have hquiet (pc : AllocPc) (hpc : pc.refreshing = true) (s : Client) :
      reservesNext (.busy af pc) s = s.allocateRtcp ∧
        (AllocPoint.busy af pc).awaitsResponse = false := by
    cases pc <;> first | exact ⟨rfl, rfl⟩ | cases hpc
  apply allocationsStep_holds
  have hturn := refresh_turn g af c hpc r.client
  cases hcase : clnetAllocateStep g af c pc r.client with
  | again pc' s' =>
    rw [hcase] at hturn
    obtain ⟨hpc', hs⟩ := hturn
    simp only [Drive.Turn.Holds, hevents]
    refine h.congr hs ?_ ?_
    · rw [(hquiet pc' hpc' s').1, (hquiet pc hpc r.client).1, hs.rtcp]
    · rw [(hquiet pc' hpc' s').2]
      intro hfalse
      cases hfalse
  | stop ret s' =>
    rw [hcase] at hturn
    simp only [Drive.Turn.Holds, hevents]
    refine (h.congr hturn ?_ (by intro hidle; cases hidle)).allocEnd ret
    rw [(hquiet pc hpc r.client).1]
    exact hturn.rtcp

/-- The flag flips, and with it the meaning of the point. -/
theorem allocated_holds (g : Globals) (c : Choice) {af : AddressFamilyValue} {r : Reservations}
    (h : AllocInv (.busy af .allocated) r) :
    (allocationsStep g (.turn c) (.busy af .allocated) r).Holds AllocInv
      fun _ r' => Disciplined r'.history := by
  apply allocationsStep_holds
  simp only [clnetAllocateStep]
  cases hreopen : reopenForMobility c { r.client with allocateRtcp := !r.client.allocateRtcp } with
  | none => exact ⟨h.disciplined, by intro n hn; cases hn⟩
  | some s' =>
    have hs := reopenForMobility_statics hreopen
    refine ⟨h.disciplined, ?_, by intro hfalse; cases hfalse⟩
    intro hflag
    obtain ⟨m, hlast, htoken, hfresh⟩ := h.reserved (hs.rtcp.symm.trans hflag)
    exact ⟨m, hlast, hs.token.trans htoken, hfresh⟩

theorem AllocInv.success {af : AddressFamilyValue} {afCycle : Nat} {reopenSocket : Bool}
    {r : Reservations} (h : AllocInv (.busy af (.allocateResponse afCycle reopenSocket)) r)
    {m : StunBuffer} {s' : Client} (hs : SameStatics r.client s')
    (hrtcp : r.client.allocateRtcp = true →
      RelayReadable r.client.defaultAddressFamily m.buf (attrRefs m.buf m.len))
    (hfresh : r.client.allocateRtcp = false →
      RelayReadable r.client.defaultAddressFamily m.buf (attrRefs m.buf m.len) →
        GrantsFresh r.history m) :
    (allocateTurn (allocateSucceeded s' m).1 (allocateSucceeded s' m).2).Holds
      (fun pc' s'' => AllocInv (.busy af pc') ⟨s'', .success m :: r.history⟩)
      (fun ret s'' => AllocEnd ret ⟨s'', .success m :: r.history⟩) := by
  obtain ⟨hflag, hend⟩ := allocateSucceeded_statics s' m
  rw [hs.family, scanRelay_found_iff] at hend
  rw [hs.rtcp] at hflag
  unfold allocateTurn
  rcases hend with ⟨hread, hrc, htoken⟩ | ⟨hread, hrc⟩
  · rw [if_neg (by omega)]
    refine ⟨h.disciplined, ?_, by intro hfalse; cases hfalse⟩
    intro hnext
    have hfalse : r.client.allocateRtcp = false := by
      simpa [reservesNext, hflag] using hnext
    obtain ⟨hne, hunspent⟩ := hfresh hfalse hread
    refine ⟨m, rfl, htoken, hne, ?_⟩
    rw [spentTokens, h.plain rfl hfalse]
    exact hunspent
  · rw [if_pos (by omega)]
    have hfalse : r.client.allocateRtcp = false := by
      cases hcase : r.client.allocateRtcp with
      | false => rfl
      | true => exact absurd (hrtcp hcase) hread
    have hidle : AllocInv .idle ⟨(allocateSucceeded s' m).2, .success m :: r.history⟩ := by
      refine ⟨h.disciplined, ?_, by intro hfalse; cases hfalse⟩
      intro hnext
      have htrue : (allocateSucceeded s' m).2.allocateRtcp = true := hnext
      rw [hflag, hfalse] at htrue
      cases htrue
    exact hidle.allocEnd _

theorem AllocInv.retry {af : AddressFamilyValue} {afCycle : Nat} {reopenSocket : Bool}
    {r : Reservations} (h : AllocInv (.busy af (.allocateResponse afCycle reopenSocket)) r)
    (reopen : Bool) {s' : Client} (hs : SameStatics r.client s') :
    AllocInv (.busy af (.allocate afCycle reopen)) ⟨s', r.history⟩ :=
  h.congr hs hs.rtcp (by intro hfalse; cases hfalse)

theorem AllocInv.giveUp {af : AddressFamilyValue} {afCycle : Nat} {reopenSocket : Bool}
    {r : Reservations} (h : AllocInv (.busy af (.allocateResponse afCycle reopenSocket)) r)
    {s' : Client} (hs : SameStatics r.client s') (ret : Ret) : AllocEnd ret ⟨s', r.history⟩ := by
  have hidle : AllocInv .idle ⟨s', r.history⟩ :=
    h.congr hs hs.rtcp (by intro hfalse; cases hfalse)
  exact hidle.allocEnd ret

/-- An error response after the check that a redirection gets. -/
theorem AllocInv.refused {af : AddressFamilyValue} {afCycle : Nat} {reopenSocket : Bool}
    {r : Reservations} (h : AllocInv (.busy af (.allocateResponse afCycle reopenSocket)) r)
    {code rc : Int} {s' : Client} (hs : SameStatics r.client s')
    (hplain : ¬rc < 0 → code ≠ 437 → r.client.allocateRtcp ≠ true) :
    (if rc < 0 then .stop (.rc (-1)) s'
      else if code ≠ 437 then .stop (.rc (-1)) { s' with currentReservationToken := 0 }
      else .again (.allocate afCycle true) s' : Drive.Turn AllocPc Client Ret).Holds
      (fun pc' s'' => AllocInv (.busy af pc') ⟨s'', r.history⟩)
      (fun ret s'' => AllocEnd ret ⟨s'', r.history⟩) := by
  by_cases hauth : rc < 0
  · rw [if_pos hauth]
    exact h.giveUp hs _
  · rw [if_neg hauth]
    by_cases hcode : code ≠ 437
    · rw [if_pos hcode]
      -- the token is gone, so the flag must not ask for one
      have hzero : AllocInv .idle ⟨{ s' with currentReservationToken := 0 }, r.history⟩ := by
        refine ⟨h.disciplined, ?_, by intro hfalse; cases hfalse⟩
        intro hflag
        exact absurd (hs.rtcp.symm.trans hflag) (hplain hauth hcode)
      exact hzero.allocEnd _
    · rw [if_neg hcode]
      exact h.retry true hs

theorem allocateResponse_holds (g : Globals) (c : Choice) {af : AddressFamilyValue} {afCycle : Nat}
    {reopenSocket : Bool} {r : Reservations}
    (h : AllocInv (.busy af (.allocateResponse afCycle reopenSocket)) r)
    (hserved : ServesPair g c r (receive c r.client)) :
    (allocationsStep g (.turn c) (.busy af (.allocateResponse afCycle reopenSocket)) r).Holds
      AllocInv fun _ r' => Disciplined r'.history := by
  apply allocationsStep_holds
  have hrecv := receive_statics c r.client
  simp only [clnetAllocateStep, turnEvents]
  generalize receive c r.client = response at hrecv hserved
  cases response with
  | nothing => exact h.retry reopenSocket (.refl r.client)
  | challenge s₁ => exact h.retry reopenSocket hrecv
  | unknown s₁ =>
    have hs : SameStatics r.client s₁ := hrecv
    exact h.congr hs hs.rtcp fun _ => rfl
  | overflow => exact ⟨h.disciplined, by intro n hn; cases hn⟩
  | success m s₁ =>
    have hs : SameStatics r.client s₁ := hrecv
    have hs' := hs.trans (authenticate_statics g c s₁ m)
    simp only [successEvent]
    by_cases hauth : (s₁.authenticate g c m).1 < 0
    · rw [if_pos hauth, if_pos hauth]
      exact h.giveUp hs' _
    · rw [if_neg hauth, if_neg hauth]
      obtain ⟨hrtcp, hfresh⟩ := hserved (not_lt.mp hauth)
      exact h.success hs' hrtcp hfresh
  | error code m s₁ =>
    have hs : SameStatics r.client s₁ := hrecv
    have hs' : SameStatics r.client (if code = 300 then s₁.authenticate g c m else (0, s₁)).2 := by
      split
      · exact hs.trans (authenticate_statics g c s₁ m)
      · exact hs
    refine h.refused hs' ?_
    intro hpass hcode hrtcp
    rcases hserved hrtcp with h437 | ⟨h300, hfail⟩
    · exact hcode h437
    · rw [if_pos h300] at hpass
      exact hpass hfail

theorem allocationsStep_inv {g : Globals} (hg : g.noRtcp = false) (e : AllocInput)
    (point : AllocPoint) (r : Reservations) (hok : PairServed g e point r)
    (h : AllocInv point r) :
    (allocationsStep g e point r).Holds AllocInv fun _ r' => Disciplined r'.history := by
  cases e with
  | call af info daf =>
    cases point with
    | idle => exact ⟨h.disciplined, h.reserved, by intro hfalse; cases hfalse⟩
    | busy af' pc => exact h
  | turn c =>
    cases point with
    | idle => exact h
    | busy af pc =>
      cases pc with
      | allocate afCycle reopenSocket => exact allocate_holds hg c h
      | allocateResponse afCycle reopenSocket => exact allocateResponse_holds g c h hok
      | allocated => exact allocated_holds g c h
      | refresh afCycle => exact refreshing_holds g c rfl h
      | refreshResponse afCycle => exact refreshing_holds g c rfl h

/-- In every run of calls in which the server serves the pairs of allocations,
every token that is sent is in order. -/
theorem reservation_tokens_in_order (g : Globals) (hg : g.noRtcp = false) (es : List AllocInput)
    (h : Drive.Along (PairServed g) (allocationsStep g) es .idle ⟨Client.init, []⟩) :
    ∀ r ∈ Drive.trace (allocationsStep g) es .idle ⟨Client.init, []⟩, Disciplined r.history := by
  refine Drive.trace_holds (fun _ _ hinv => AllocInv.disciplined hinv)
    (allocationsStep_inv hg) es ?_ h
  exact ⟨trivial, (by intro hflag; cases hflag), (by intro hfalse; cases hfalse)⟩

/-- A whole call that the server answers with these attributes, and its Refresh. -/
def allocateCall (attrs : List Byte) : List AllocInput :=
  [.call .ipv4 ConnInfo.init .default, .turn Choice.sends,
    .turn (Choice.receives (responseBytes 0x0103 attrs)), .turn Choice.idle, .turn Choice.sends,
    .turn (Choice.receives (responseBytes 0x0104 []))]

/-- RESERVATION-TOKEN 0102030405060708. -/
def grantedToken : List Byte := [0x00, 0x22, 0x00, 0x08, 1, 2, 3, 4, 5, 6, 7, 8]

/-- The token of the first allocation is spent by the second. -/
theorem granted_token_in_order :
    let g := Globals.initial constantSsl
    let es := allocateCall (relayedV4 ++ grantedToken) ++ allocateCall relayedV4
    (∀ r ∈ Drive.trace (allocationsStep g) es .idle ⟨Client.init, []⟩, Disciplined r.history) ∧
      spentTokens (Drive.run (allocationsStep g) es .idle ⟨Client.init, []⟩).state.history =
        [[1, 2, 3, 4, 5, 6, 7, 8]] :=
  ⟨reservation_tokens_in_order _ rfl _ (by decide +kernel), by decide +kernel⟩

/-- The server grants no token, and the next request carries eight zero bytes as one. -/
theorem missing_token_requested :
    ¬ ∀ r ∈ Drive.trace (allocationsStep (Globals.initial constantSsl))
      (allocateCall relayedV4 ++ allocateCall relayedV4) .idle ⟨Client.init, []⟩,
        Disciplined r.history := by
  decide +kernel

end TurnClient
