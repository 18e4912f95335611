import Mathlib.Algebra.BigOperators.Ring.Finset
import Mathlib.Data.BitVec
import Mathlib.Data.LawfulXor.Basic
import TurnClient.StepRuns
import TurnClient.RelayedMessages

/-!
# Runs of the test client

The main loop of `start_mclient` once all sessions are connected: ticks of the
timer, reads of the sessions and losses of the network in any order. What is
sent is counted, lost or still on its way, whatever the interleaving; the loss
that the sessions keep themselves is a count of gaps.
-/

namespace TurnClient

open ByteMemory
set_option autoImplicit false

structure TrafficWorld where
  now : BitVec 64
  totals : Totals
  elems : List UrSession

/-- One turn of the event loop: the timer fires, or something can be read for a session. -/
inductive TrafficEvent where
  | tick (now : BitVec 64) (c : Nat → TickChoice)
  | read (i : Nat) (c : ReadChoice)

def trafficStep (g : Globals) (hangOn : Bool) (w : TrafficWorld) : TrafficEvent → TrafficWorld
  | .tick now c =>
    let r := timerHandler g hangOn now c w.totals w.elems
    ⟨now, r.1, r.2⟩
  | .read i c =>
    match w.elems[i]? with
    | none => w
    | some s =>
      let r := (trafficRead g c w.now w.totals s).2
      { w with totals := r.1, elems := w.elems.set i r.2 }

/-! ## The start -/

/-- The time of the first message, between one and six seconds away. -/
def UrSession.setOff (now : BitVec 64) (rnd : Nat) (s : UrSession) : UrSession :=
  let toSendTimems := later now (1000 + rnd % 2 ^ 32 % 5000)
  { s with toSendTimems := toSendTimems, journey := ⟨toSendTimems.toNat, [], []⟩ }

def totMessagesOf : List ClientStart → BitVec 32
  | [] => 0
  | a :: rest => BitVec.ofInt 32 (a.messagenumber * (rest.length + 1))

def startTraffic (now : BitVec 64) (random : Nat → Nat) (starts : List ClientStart) :
    TrafficWorld where
  now := now
  totals := Totals.start starts.length (totMessagesOf starts)
  elems := starts.mapIdx fun i a => (startSession a).setOff now (random i)

/-- How many clients `start_mclient` starts when it is asked for `mclient`. -/
def totClients (c2c noRtcp : Bool) (mclient : Int) : Nat :=
  let mclient := if mclient < 1 then 1 else mclient.toNat
  if c2c then
    if !noRtcp then ((mclient + ((4 - (mclient &&& 3)) &&& 3)) >>> 2) * 4
    else ((mclient + (mclient &&& 1)) >>> 1) * 2
  else if !noRtcp then ((mclient + (mclient &&& 1)) >>> 1) * 2
  else mclient

/-- The session whose messages the relay delivers to session `i`: itself, by way of a peer that
sends them back, or in the order of `start_c2c` the one it is paired with. -/
def hears (c2c noRtcp : Bool) (i : Nat) : Nat :=
  if c2c then (if !noRtcp then i ^^^ 2 else i ^^^ 1) else i

theorem hears_hears (c2c noRtcp : Bool) (i : Nat) :
    hears c2c noRtcp (hears c2c noRtcp i) = i := by
  cases c2c <;> cases noRtcp <;> simp [hears]

theorem xor_lt_mul {i j k n : Nat} (hj : j < 2 ^ n) (hi : i < k * 2 ^ n) :
    i ^^^ j < k * 2 ^ n := by
  have hsame : (i ^^^ j) / 2 ^ n = i / 2 ^ n := by
    rw [Nat.xor_div_two_pow, Nat.div_eq_of_lt hj, Nat.xor_zero]
  have hpos : 0 < 2 ^ n := Nat.two_pow_pos n
  rw [← Nat.div_lt_iff_lt_mul hpos] at hi ⊢
  rw [hsame]
  exact hi

/-- The clients come in pairs. -/
theorem hears_lt {c2c noRtcp : Bool} {mclient : Int} {i : Nat}
    (h : i < totClients c2c noRtcp mclient) :
    hears c2c noRtcp i < totClients c2c noRtcp mclient := by
  cases c2c with
  | false => exact h
  | true =>
    cases noRtcp with
    | false => exact xor_lt_mul (j := 2) (n := 2) (by decide) h
    | true => exact xor_lt_mul (j := 1) (n := 1) (by decide) h

/-! ## What holds of every session -/

/-- The message that a read counts, if it counts one. -/
def TrafficWorld.takes (g : Globals) (w : TrafficWorld) (i : Nat) (c : ReadChoice) :
    Option MessageInfo :=
  match w.elems[i]? with
  | none => none
  | some s =>
    ((trafficRead g c w.now w.totals s).2.2.journey.taken.drop s.journey.taken.length).head?

/-- The session `s` counts the message `mi`. -/
def Takes (g : Globals) (w : TrafficWorld) (i : Nat) (c : ReadChoice) (s : UrSession)
    (mi : MessageInfo) : Prop :=
  w.elems[i]? = some s ∧
    (trafficRead g c w.now w.totals s).2.2.journey.taken = s.journey.taken ++ [mi]

theorem ready_of_known {s : UrSession} (hknown : s.elem.state ≠ .unknown)
    (hdone : s.elem.state ≠ .done) : s.elem.state = .ready := by
  cases hcase : s.elem.state with
  | unknown => exact absurd hcase hknown
  | ready => rfl
  | done => exact absurd hcase hdone

theorem takes_eq_some {g : Globals} {w : TrafficWorld} {i : Nat} {c : ReadChoice} {s : UrSession}
    {mi : MessageInfo} (h : Takes g w i c s mi) : w.takes g i c = some mi := by
  obtain ⟨hs, htaken⟩ := h
  simp only [TrafficWorld.takes, hs, htaken, List.drop_left, List.head?_cons]

section Sessions
variable {g : Globals} {hangOn : Bool} {Q : BitVec 64 → Traffic → Prop}

theorem timerHandler_sessions {now now' : BitVec 64}
    (hdone : ∀ x, Q now x → x.state = .done → Q now' x)
    (hready : ∀ c t s, Q now s.traffic → s.elem.state ≠ .done →
      Q now' (clientTimerHandler g hangOn c now' t s).2.traffic)
    (c : Nat → TickChoice) (t : Totals) {elems : List UrSession}
    (h : ∀ s ∈ elems, Q now s.traffic) :
    ∀ s ∈ (timerHandler g hangOn now' c t elems).2, Q now' s.traffic := by
  induction elems generalizing c t with
  | nil =>
    intro s hs
    cases hs
  | cons s elems ih =>
    obtain ⟨hhead, htail⟩ := List.forall_mem_cons.mp h
    simp only [timerHandler]
    refine List.forall_mem_cons.mpr ⟨?_, ?_⟩
    · split
      · rename_i hstate
        exact hdone _ hhead hstate
      · rename_i hstate
        exact hready _ _ _ hhead hstate
    · exact ih _ _ htail

theorem forall_mem_set {elems : List UrSession} {i : Nat} {s s' : UrSession} {now : BitVec 64}
    (h : ∀ s ∈ elems, Q now s.traffic) (hs : elems[i]? = some s)
    (hs' : Q now s.traffic → Q now s'.traffic) : ∀ s ∈ elems.set i s', Q now s.traffic := by
  intro r hr
  rcases List.mem_or_eq_of_mem_set hr with hmem | heq
  · exact h r hmem
  · rw [heq]
    exact hs' (h s (List.mem_of_getElem? hs))

/-- The steps of one session, each of which has to keep what holds of all sessions. -/
structure SessionKeeps (g : Globals) (hangOn : Bool) (ok : TrafficWorld → TrafficEvent → Prop)
    (Q : BitVec 64 → Traffic → Prop) : Prop where
  done : ∀ w now c x, ok w (.tick now c) → Q w.now x → x.state = .done → Q now x
  tick : ∀ w now cs c t s, ok w (.tick now cs) → Q w.now s.traffic → s.elem.state ≠ .done →
    Q now (clientTimerHandler g hangOn c now t s).2.traffic
  read : ∀ w i c s mi, ok w (.read i c) → Takes g w i c s mi →
    (∀ r ∈ w.elems, Q w.now r.traffic) → Q w.now s.traffic → Q w.now (s.traffic.read mi)

theorem trafficStep_sessions {ok : TrafficWorld → TrafficEvent → Prop}
    (hkeeps : SessionKeeps g hangOn ok Q) (w : TrafficWorld) (e : TrafficEvent)
    (h : ∀ s ∈ w.elems, Q w.now s.traffic) (hok : ok w e) :
    ∀ s ∈ (trafficStep g hangOn w e).elems, Q (trafficStep g hangOn w e).now s.traffic := by
  cases e with
  | tick now c =>
    exact timerHandler_sessions (fun x => hkeeps.done w now c x hok)
      (fun d t s => hkeeps.tick w now c d t s hok) c w.totals h
  | read i c =>
    cases hs : w.elems[i]? with
    | none =>
      simp only [trafficStep, hs]
      exact h
    | some s =>
      simp only [trafficStep, hs]
      apply forall_mem_set h hs
      intro hQ
      rcases trafficRead_countsOne g c w.now w.totals s with ⟨_, hsame⟩ | ⟨mi, _, hread⟩
      · rw [hsame]
        exact hQ
      · rw [hread]
        have htaken : (trafficRead g c w.now w.totals s).2.2.journey.taken =
            s.journey.taken ++ [mi] := congrArg (fun x => x.journey.taken) hread
        exact hkeeps.read w i c s mi hok ⟨hs, htaken⟩ h hQ

end Sessions

/-! ## What is in balance -/

/-- A total against the sum of what the sessions have, in integers or in the width of the total. -/
def TrafficWorld.balance {A : Type} [AddCommGroup A] (F : Counts → A) (b : Traffic → A)
    (w : TrafficWorld) : A :=
  F w.totals.counts - (w.elems.map fun s => b s.traffic).sum

section Balance
variable {A : Type} [AddCommGroup A] {g : Globals} {hangOn : Bool} {F : Counts → A}
  {b : Traffic → A}

theorem timerHandler_balance {now : BitVec 64} (hrelay : isTcpRelay g = false)
    (hkeeps : ∀ n, TimerKeeps hangOn now fun k x => F k - b x = n) (c : Nat → TickChoice)
    (t : Totals) (elems : List UrSession) (hstates : ∀ s ∈ elems, s.elem.state ≠ .unknown) :
    let r := timerHandler g hangOn now c t elems
    F r.1.counts - (r.2.map fun s => b s.traffic).sum =
      F t.counts - (elems.map fun s => b s.traffic).sum := by
  induction elems generalizing c t with
  | nil => rfl
  | cons s elems ih =>
    obtain ⟨hhead, htail⟩ := List.forall_mem_cons.mp hstates
    rw [timerHandler]
    simp only [List.map_cons, List.sum_cons]
    generalize hr : (if s.elem.state = .done then (t, s) else
      clientTimerHandler g hangOn (c 0) now t s) = r
    have hbal : F r.1.counts - b r.2.traffic = F t.counts - b s.traffic := by
      rw [← hr]
      split
      · rfl
      · rename_i hstate
        exact clientTimerHandler_keeps hrelay (hkeeps (F t.counts - b s.traffic)) (c 0) rfl
          (ready_of_known hhead hstate)
    have hrest := ih (fun i => c (i + 1)) r.1 htail
    simp only at hrest
    rw [sub_add_eq_sub_sub_swap, hrest, sub_right_comm, hbal, sub_add_eq_sub_sub]

theorem sum_map_set {elems : List UrSession} {i : Nat} {s : UrSession} (s' : UrSession)
    (hs : elems[i]? = some s) :
    ((elems.set i s').map fun s => b s.traffic).sum =
      (elems.map fun s => b s.traffic).sum - b s.traffic + b s'.traffic := by
  obtain ⟨hlt, hget⟩ := List.getElem?_eq_some_iff.mp hs
  rw [List.map_set, List.sum_set', dif_pos (by rwa [List.length_map]), List.getElem_map, hget,
    sub_eq_add_neg, add_assoc]

/-- A balance that the timer keeps, and every read that may be made while `Q` holds. -/
structure BalanceKeeps (g : Globals) (hangOn : Bool) (ok : TrafficWorld → TrafficEvent → Prop)
    (Q : BitVec 64 → Traffic → Prop) (F : Counts → A) (b : Traffic → A) : Prop where
  timer : ∀ now n, TimerKeeps hangOn now fun k x => F k - b x = n
  read : ∀ w i c s mi k, ok w (.read i c) → Takes g w i c s mi →
    (∀ r ∈ w.elems, Q w.now r.traffic) → Q w.now s.traffic →
    F k.read - b (s.traffic.read mi) = F k - b s.traffic

theorem trafficStep_balance {ok : TrafficWorld → TrafficEvent → Prop}
    {Q : BitVec 64 → Traffic → Prop} (hrelay : isTcpRelay g = false)
    (hkeeps : BalanceKeeps g hangOn ok Q F b) (w : TrafficWorld) (e : TrafficEvent)
    (hQ : ∀ s ∈ w.elems, Q w.now s.traffic)
    (hstates : ∀ s ∈ w.elems, s.elem.state ≠ .unknown) (hok : ok w e) :
    (trafficStep g hangOn w e).balance F b = w.balance F b := by
  cases e with
  | tick now c => exact timerHandler_balance hrelay (hkeeps.timer now) c w.totals w.elems hstates
  | read i c =>
    cases hs : w.elems[i]? with
    | none => simp only [trafficStep, hs]
    | some s =>
      simp only [trafficStep, hs, TrafficWorld.balance]
      rw [sum_map_set _ hs]
      rcases trafficRead_countsOne g c w.now w.totals s with
        ⟨hcounts, htraffic⟩ | ⟨mi, hcounts, htraffic⟩
      · rw [hcounts, htraffic, sub_add_cancel]
      · have htaken : (trafficRead g c w.now w.totals s).2.2.journey.taken =
            s.journey.taken ++ [mi] := congrArg (fun x => x.journey.taken) htraffic
        have hread := hkeeps.read w i c s mi w.totals.counts hok ⟨hs, htaken⟩ hQ
          (hQ s (List.mem_of_getElem? hs))
        rw [hcounts, htraffic, sub_add_eq_sub_sub_swap, hread, sub_sub, add_sub_cancel]

end Balance

theorem mem_startTraffic {now : BitVec 64} {random : Nat → Nat} {starts : List ClientStart}
    {s : UrSession} (h : s ∈ (startTraffic now random starts).elems) :
    ∃ a ∈ starts, ∃ i, s = (startSession a).setOff now (random i) := by
  obtain ⟨i, hi, rfl⟩ := List.mem_mapIdx.mp h
  exact ⟨starts[i], List.getElem_mem hi, i, rfl⟩

theorem startTraffic_balance {A : Type} [AddCommGroup A] {F : Counts → A} {b : Traffic → A}
    (now : BitVec 64) (random : Nat → Nat) (starts : List ClientStart)
    (hF : F (Totals.start starts.length (totMessagesOf starts)).counts = 0)
    (hb : ∀ a i, b ((startSession a).setOff now (random i)).traffic = 0) :
    (startTraffic now random starts).balance F b = 0 := by
  have hsum : ((startTraffic now random starts).elems.map fun s => b s.traffic).sum = 0 := by
    apply List.sum_eq_zero
    intro n hn
    obtain ⟨s, hs, rfl⟩ := List.mem_map.mp hn
    obtain ⟨a, _, i, rfl⟩ := mem_startTraffic hs
    exact hb a i
  rw [TrafficWorld.balance, hsum]
  exact (sub_zero _).trans hF

/-! ## What was heard -/

def journeyOf (elems : List UrSession) (i : Nat) : Journey :=
  match elems[i]? with
  | none => ⟨0, [], []⟩
  | some s => s.journey

def TrafficWorld.journeyAt (w : TrafficWorld) (i : Nat) : Journey := journeyOf w.elems i

/-- The messages for session `i`. -/
def TrafficWorld.sentTo (c2c noRtcp : Bool) (w : TrafficWorld) (i : Nat) : List MessageInfo :=
  (w.journeyAt (hears c2c noRtcp i)).sent

/-- Those that were not read. -/
def TrafficWorld.unread (c2c noRtcp : Bool) (w : TrafficWorld) (i : Nat) : List MessageInfo :=
  (w.sentTo c2c noRtcp i).diff (w.journeyAt i).taken

/-- What a session reads, with all it has read before, stands in the relation `R` to what was sent
to it. -/
def PassedOn (R : List MessageInfo → List MessageInfo → Prop) (g : Globals) (c2c : Bool)
    (w : TrafficWorld) : TrafficEvent → Prop
  | .read i c => ∀ mi ∈ w.takes g i c, R ((w.journeyAt i).taken ++ [mi]) (w.sentTo c2c g.noRtcp i)
  | .tick _ _ => True

instance (R : List MessageInfo → List MessageInfo → Prop) [DecidableRel R] (g : Globals)
    (c2c : Bool) (w : TrafficWorld) : (e : TrafficEvent) → Decidable (PassedOn R g c2c w e)
  | .read i c => inferInstanceAs (Decidable (∀ mi ∈ w.takes g i c,
      R ((w.journeyAt i).taken ++ [mi]) (w.sentTo c2c g.noRtcp i)))
  | .tick _ _ => isTrue trivial

/-- The relation holds for all sessions. -/
def Heard (R : List MessageInfo → List MessageInfo → Prop) (c2c noRtcp : Bool)
    (w : TrafficWorld) : Prop :=
  ∀ i, R (w.journeyAt i).taken (w.sentTo c2c noRtcp i)

/-- The timer only adds to what was sent. -/
structure Journey.Grows (j j' : Journey) : Prop where
  start : j'.start = j.start
  taken : j'.taken = j.taken
  sent : j.sent <+: j'.sent

theorem Journey.Grows.refl (j : Journey) : j.Grows j := ⟨rfl, rfl, List.prefix_refl _⟩

theorem grows_keeps (hangOn : Bool) (now : BitVec 64) (j : Journey) :
    TimerKeeps hangOn now fun _ x => j.Grows x.journey where
  write := by
    intro k x sent h _ _
    cases sent with
    | false => exact h
    | true => exact ⟨h.start, h.taken, h.sent.trans (List.prefix_append _ _)⟩
  complete := by
    intro k x h _ _
    exact h
  shutdown := by
    intro k x h _ _ _
    exact h

section Heard
variable {g : Globals} {hangOn c2c : Bool} {R : List MessageInfo → List MessageInfo → Prop}

theorem timerHandler_grows (hrelay : isTcpRelay g = false) (now : BitVec 64)
    (c : Nat → TickChoice) (t : Totals) (elems : List UrSession)
    (hstates : ∀ s ∈ elems, s.elem.state ≠ .unknown) (i : Nat) :
    (journeyOf elems i).Grows (journeyOf (timerHandler g hangOn now c t elems).2 i) := by
  induction elems generalizing c t i with
  | nil => exact Journey.Grows.refl _
  | cons s elems ih =>
    obtain ⟨hhead, htail⟩ := List.forall_mem_cons.mp hstates
    cases i with
    | zero =>
      change s.journey.Grows _
      rw [timerHandler]
      by_cases hdone : s.elem.state = .done
      · simp only [journeyOf, hdone, if_true, List.getElem?_cons_zero]
        exact Journey.Grows.refl _
      · simp only [journeyOf, hdone, if_false, List.getElem?_cons_zero]
        exact clientTimerHandler_keeps hrelay (grows_keeps hangOn now s.journey) (c 0)
          (Journey.Grows.refl _) (ready_of_known hhead hdone)
    | succ i => exact ih _ _ htail i

theorem journeyOf_set (elems : List UrSession) (k i : Nat) (s : UrSession) :
    journeyOf (elems.set k s) i =
      if k = i ∧ i < elems.length then s.journey else journeyOf elems i := by
  unfold journeyOf
  rw [List.getElem?_set]
  by_cases hki : k = i
  · by_cases hlt : i < elems.length
    · simp [hki, hlt]
    · simp [hki, hlt]
  · simp [hki]

/-- A read changes what the session has read and nothing that was sent. -/
theorem journeyAt_read (g : Globals) (hangOn : Bool) (w : TrafficWorld) (k i : Nat)
    (c : ReadChoice) :
    let j := (trafficStep g hangOn w (.read k c)).journeyAt i
    j.sent = (w.journeyAt i).sent ∧ (j.taken = (w.journeyAt i).taken ∨
      ∃ mi ∈ w.takes g i c, i = k ∧ j.taken = (w.journeyAt i).taken ++ [mi]) := by
  intro j
  cases hs : w.elems[k]? with
  | none =>
    have hj : j = w.journeyAt i := by
      unfold j
      simp only [trafficStep, hs]
    rw [hj]
    exact ⟨rfl, Or.inl rfl⟩
  | some s =>
    have hj : j = if k = i ∧ i < w.elems.length then
        (trafficRead g c w.now w.totals s).2.2.journey else w.journeyAt i := by
      unfold j TrafficWorld.journeyAt
      simp only [trafficStep, hs]
      exact journeyOf_set _ _ _ _
    by_cases hki : k = i ∧ i < w.elems.length
    · rw [if_pos hki] at hj
      have hi : w.journeyAt i = s.journey := by
        rw [TrafficWorld.journeyAt, journeyOf, ← hki.1, hs]
      rcases trafficRead_countsOne g c w.now w.totals s with ⟨_, hsame⟩ | ⟨mi, _, hread⟩
      · have hjourney : j = s.journey := hj.trans (congrArg Traffic.journey hsame)
        rw [hjourney, hi]
        exact ⟨rfl, Or.inl rfl⟩
      · have hjourney : j = s.journey.take mi := hj.trans (congrArg Traffic.journey hread)
        have htakes : Takes g w i c s mi := by
          refine ⟨by rw [← hki.1, hs], ?_⟩
          exact congrArg (fun x => x.journey.taken) hread
        rw [hjourney, hi]
        exact ⟨rfl, Or.inr ⟨mi, takes_eq_some htakes, hki.1.symm, rfl⟩⟩
    · rw [if_neg hki] at hj
      rw [hj]
      exact ⟨rfl, Or.inl rfl⟩

theorem trafficStep_heard (hrelay : isTcpRelay g = false)
    (hmono : ∀ l m m', R l m → m <+: m' → R l m') (w : TrafficWorld) (e : TrafficEvent)
    (hstates : ∀ s ∈ w.elems, s.elem.state ≠ .unknown) (h : Heard R c2c g.noRtcp w)
    (hok : PassedOn R g c2c w e) : Heard R c2c g.noRtcp (trafficStep g hangOn w e) := by
  intro i
  cases e with
  | tick now c =>
    have hgrows : ∀ i, (w.journeyAt i).Grows
        ((trafficStep g hangOn w (.tick now c)).journeyAt i) :=
      timerHandler_grows hrelay now c w.totals w.elems hstates
    have htaken : ((trafficStep g hangOn w (.tick now c)).journeyAt i).taken =
        (w.journeyAt i).taken := (hgrows i).taken
    rw [htaken]
    exact hmono _ _ _ (h i) (hgrows (hears c2c g.noRtcp i)).sent
  | read k c =>
    obtain ⟨_, htaken⟩ := journeyAt_read g hangOn w k i c
    obtain ⟨hsent, _⟩ := journeyAt_read g hangOn w k (hears c2c g.noRtcp i) c
    have hto : (trafficStep g hangOn w (.read k c)).sentTo c2c g.noRtcp i =
        w.sentTo c2c g.noRtcp i := hsent
    rw [hto]
    rcases htaken with hsame | ⟨mi, hmi, hki, hone⟩
    · rw [hsame]
      exact h i
    · rw [hone]
      rw [← hki] at hok
      exact hok mi hmi

end Heard

/-! ## Nothing is lost on the books -/

/-- A sum over the sessions. -/
def TrafficWorld.sum (f : Journey → Nat) (w : TrafficWorld) : Nat :=
  (w.elems.map fun s => f s.journey).sum

/-- The end of `start_mclient`, where the numbers are set that it reports. -/
def Totals.report (t : Totals) : Totals :=
  let totRecvMessages :=
    if t.totSendMessages < t.totRecvMessages then t.totSendMessages else t.totRecvMessages
  { t with totRecvMessages := totRecvMessages
           totalLoss := (t.totSendMessages - totRecvMessages).toNat }

section Conserved
variable {g : Globals} {hangOn c2c : Bool}

/-- What the timer keeps at any time, as a property of sessions that were started. -/
theorem timer_tick {ok : TrafficWorld → TrafficEvent → Prop} {Q : Traffic → Prop}
    (hrelay : isTcpRelay g = false) (hknown : ∀ x, Q x → x.state ≠ .unknown)
    (hkeeps : ∀ now, TimerKeeps hangOn now fun _ x => Q x) :
    ∀ (w : TrafficWorld) now cs c t (s : UrSession), ok w (.tick now cs) → Q s.traffic →
      s.elem.state ≠ .done → Q (clientTimerHandler g hangOn c now t s).2.traffic := by
  intro w now cs c t s _ h hdone
  exact clientTimerHandler_keeps hrelay (hkeeps now) c h (ready_of_known (hknown _ h) hdone)

/-- The sessions of the table were started. -/
theorem states_known (ok : TrafficWorld → TrafficEvent → Prop) (hrelay : isTcpRelay g = false) :
    SessionKeeps g hangOn ok fun _ x => x.state ≠ .unknown where
  done := by
    intro w now c x _ h _
    exact h
  tick := by
    apply timer_tick hrelay fun _ h => h
    intro now
    refine ⟨?_, ?_, ?_⟩
    · intro k x sent h _ _
      exact h
    · intro k x h _ _
      exact h
    · intro k x _ _ _ _ hcase
      cases hcase
  read := by
    intro w i c s mi _ _ _ h
    exact h

theorem sent_balanced (ok : TrafficWorld → TrafficEvent → Prop)
    (Q : BitVec 64 → Traffic → Prop) :
    BalanceKeeps g hangOn ok Q (fun k => k.sent)
      (fun x => BitVec.ofNat 32 x.journey.sent.length) where
  timer := by
    intro now n
    refine ⟨?_, ?_, ?_⟩
    · intro k x sent h _ _
      cases sent with
      | false => exact h
      | true =>
        simp only [Counts.write, Traffic.write, Journey.send, if_true, List.length_append,
          List.length_singleton, BitVec.ofNat_add]
        exact (add_sub_add_right_eq_sub _ _ _).trans h
    · intro k x h _ _
      exact h
    · intro k x h _ _ _
      exact h
  read := by
    intro w i c s mi k _ _ _ _
    rfl

theorem taken_balanced (ok : TrafficWorld → TrafficEvent → Prop)
    (Q : BitVec 64 → Traffic → Prop) : BalanceKeeps g hangOn ok Q (fun k => k.received)
      (fun x => BitVec.ofNat 32 x.journey.taken.length) where
  timer := by
    intro now n
    refine ⟨?_, ?_, ?_⟩
    · intro k x sent h _ _
      cases sent <;> exact h
    · intro k x h _ _
      exact h
    · intro k x h _ _ _
      exact h
  read := by
    intro w i c s mi k _ _ _ _
    simp only [Counts.read, Traffic.read, Journey.take, List.length_append, List.length_singleton,
      BitVec.ofNat_add]
    exact add_sub_add_right_eq_sub _ _ _

/-- A balance holds all the way from the start, where it is even. -/
theorem run_balance {A : Type} [AddCommGroup A] {ok : TrafficWorld → TrafficEvent → Prop}
    {Q : BitVec 64 → Traffic → Prop} {F : Counts → A} {b : Traffic → A}
    (hrelay : isTcpRelay g = false) (hsessions : SessionKeeps g hangOn ok Q)
    (hknown : ∀ now x, Q now x → x.state ≠ .unknown)
    (hkeeps : BalanceKeeps g hangOn ok Q F b) {w : TrafficWorld}
    (hQ : ∀ s ∈ w.elems, Q w.now s.traffic) (hstart : w.balance F b = 0) (es : List TrafficEvent)
    (hok : StepRuns.Meets ok (trafficStep g hangOn) w es) :
    (StepRuns.run (trafficStep g hangOn) w es).balance F b = 0 := by
  have hstep : ∀ w e, ((∀ s ∈ w.elems, Q w.now s.traffic) ∧ w.balance F b = 0) → ok w e →
      (∀ s ∈ (trafficStep g hangOn w e).elems, Q (trafficStep g hangOn w e).now s.traffic) ∧
        (trafficStep g hangOn w e).balance F b = 0 := by
    intro w e hI hev
    refine ⟨trafficStep_sessions hsessions w e hI.1 hev, ?_⟩
    rw [trafficStep_balance hrelay hkeeps w e hI.1 (fun s hs => hknown _ _ (hI.1 s hs)) hev]
    exact hI.2
  exact (StepRuns.run_inv_of_meets hstep es hok ⟨hQ, hstart⟩).2

theorem startTraffic_states (now : BitVec 64) (random : Nat → Nat) (starts : List ClientStart) :
    ∀ s ∈ (startTraffic now random starts).elems, s.elem.state ≠ .unknown := by
  intro s hs
  obtain ⟨a, _, i, rfl⟩ := mem_startTraffic hs
  intro hcase
  cases hcase

/-- A run keeps what holds of the sessions and of what they have heard. -/
theorem run_heard {R : List MessageInfo → List MessageInfo → Prop}
    (hrelay : isTcpRelay g = false) (hmono : ∀ l m m', R l m → m <+: m' → R l m')
    (hnil : R [] []) (now : BitVec 64) (random : Nat → Nat) (starts : List ClientStart)
    (es : List TrafficEvent) (hok : StepRuns.Meets (PassedOn R g c2c) (trafficStep g hangOn)
      (startTraffic now random starts) es) :
    Heard R c2c g.noRtcp (StepRuns.run (trafficStep g hangOn) (startTraffic now random starts) es)
    := by
  have hstep : ∀ w e, ((∀ s ∈ w.elems, s.elem.state ≠ .unknown) ∧ Heard R c2c g.noRtcp w) →
      PassedOn R g c2c w e → (∀ s ∈ (trafficStep g hangOn w e).elems, s.elem.state ≠ .unknown) ∧
        Heard R c2c g.noRtcp (trafficStep g hangOn w e) := by
    intro w e hI hev
    exact ⟨trafficStep_sessions (states_known (PassedOn R g c2c) hrelay) w e hI.1 hev,
      trafficStep_heard hrelay hmono w e hI.1 hI.2 hev⟩
  have hnone : ∀ i, ((startTraffic now random starts).journeyAt i).sent = [] ∧
      ((startTraffic now random starts).journeyAt i).taken = [] := by
    intro i
    rw [TrafficWorld.journeyAt, journeyOf]
    cases hs : (startTraffic now random starts).elems[i]? with
    | none => exact ⟨rfl, rfl⟩
    | some s =>
      obtain ⟨a, _, k, rfl⟩ := mem_startTraffic (List.mem_of_getElem? hs)
      exact ⟨rfl, rfl⟩
  have hstart : Heard R c2c g.noRtcp (startTraffic now random starts) := by
    intro i
    rw [TrafficWorld.sentTo, (hnone _).1, (hnone i).2]
    exact hnil
  exact (StepRuns.run_inv_of_meets hstep es hok
    ⟨startTraffic_states now random starts, hstart⟩).2

theorem timerHandler_length (now : BitVec 64) (c : Nat → TickChoice) (t : Totals)
    (elems : List UrSession) :
    (timerHandler g hangOn now c t elems).2.length = elems.length := by
  induction elems generalizing c t with
  | nil => rfl
  | cons s elems ih => exact congrArg (· + 1) (ih _ _)

theorem trafficStep_length (w : TrafficWorld) (e : TrafficEvent) :
    (trafficStep g hangOn w e).elems.length = w.elems.length := by
  cases e with
  | tick now c => exact timerHandler_length now c w.totals w.elems
  | read i c =>
    cases hs : w.elems[i]? with
    | none => simp only [trafficStep, hs]
    | some s => simp only [trafficStep, hs, List.length_set]

theorem run_length (now : BitVec 64) (random : Nat → Nat) (starts : List ClientStart)
    (es : List TrafficEvent) :
    (StepRuns.run (trafficStep g hangOn) (startTraffic now random starts) es).elems.length =
      starts.length := by
  have hstep : ∀ (w : TrafficWorld) e, w.elems.length = starts.length →
      (trafficStep g hangOn w e).elems.length = starts.length := by
    intro w e h
    rw [trafficStep_length]
    exact h
  exact StepRuns.run_inv hstep es List.length_mapIdx

theorem sum_eq_of_balance {F : Counts → BitVec 32} {f : Journey → Nat} {w : TrafficWorld}
    (h : w.balance F (fun x => BitVec.ofNat 32 (f x.journey)) = 0) :
    F w.totals.counts = BitVec.ofNat 32 (w.sum f) := by
  have hsum : BitVec.ofNat 32 (w.sum f) =
      (w.elems.map fun s => BitVec.ofNat 32 (f s.journey)).sum := by
    rw [TrafficWorld.sum, ← BitVec.natCast_eq_ofNat, Nat.cast_list_sum, List.map_map]
    rfl
  rw [hsum]
  exact sub_eq_zero.mp h

theorem sum_journeyOf (f : Journey → Nat) (elems : List UrSession) :
    (elems.map fun s => f s.journey).sum =
      ∑ i ∈ Finset.range elems.length, f (journeyOf elems i) := by
  induction elems with
  | nil => rfl
  | cons s elems ih =>
    rw [List.map_cons, List.sum_cons, List.length_cons, Finset.sum_range_succ', ih, Nat.add_comm]
    rfl

/-- As many messages were sent to all sessions as all sessions have sent. -/
theorem sum_sentTo {c2c noRtcp : Bool} {mclient : Int} {w : TrafficWorld}
    (hcount : w.elems.length = totClients c2c noRtcp mclient) :
    ∑ i ∈ Finset.range w.elems.length, (w.sentTo c2c noRtcp i).length =
      w.sum fun j => j.sent.length := by
  rw [TrafficWorld.sum, sum_journeyOf fun j => j.sent.length]
  have hmem : ∀ i ∈ Finset.range w.elems.length,
      hears c2c noRtcp i ∈ Finset.range w.elems.length := by
    intro i hi
    rw [Finset.mem_range, hcount] at hi ⊢
    exact hears_lt hi
  exact Finset.sum_nbij' (hears c2c noRtcp) (hears c2c noRtcp) hmem hmem
    (fun i _ => hears_hears c2c noRtcp i) (fun i _ => hears_hears c2c noRtcp i) fun _ _ => rfl

/-- What was not read is what was sent less what was read. -/
theorem unread_length {noRtcp : Bool} {w : TrafficWorld} (h : Heard List.Subperm c2c noRtcp w)
    (i : Nat) : (w.journeyAt i).taken.length + (w.unread c2c noRtcp i).length =
      (w.sentTo c2c noRtcp i).length := by
  have hperm := List.subperm_append_diff_self_of_count_le fun a _ => (h i).count_le a
  rw [← List.length_append]
  exact hperm.length_eq

/-- The totals of the file are the sums over the sessions, in the width they have. -/
theorem totals_counted (hrelay : isTcpRelay g = false) (ok : TrafficWorld → TrafficEvent → Prop)
    (now : BitVec 64) (random : Nat → Nat) (starts : List ClientStart) (es : List TrafficEvent)
    (hok : StepRuns.Meets ok (trafficStep g hangOn) (startTraffic now random starts) es) :
    let w := StepRuns.run (trafficStep g hangOn) (startTraffic now random starts) es
    w.totals.totSendMessages = BitVec.ofNat 32 (w.sum fun j => j.sent.length) ∧
      w.totals.totRecvMessages = BitVec.ofNat 32 (w.sum fun j => j.taken.length) := by
  intro w
  have hstates := startTraffic_states now random starts
  have hknown : SessionKeeps g hangOn ok fun _ x => x.state ≠ .unknown := states_known _ hrelay
  have hsent : w.totals.counts.sent = BitVec.ofNat 32 (w.sum fun j => j.sent.length) :=
    sum_eq_of_balance (F := fun k => k.sent) (f := fun j => j.sent.length)
      (run_balance hrelay hknown (fun _ _ h => h) (sent_balanced _ _) hstates
        (startTraffic_balance now random starts rfl fun _ _ => rfl) es hok)
  have htaken : w.totals.counts.received = BitVec.ofNat 32 (w.sum fun j => j.taken.length) :=
    sum_eq_of_balance (F := fun k => k.received) (f := fun j => j.taken.length)
      (run_balance hrelay hknown (fun _ _ h => h) (taken_balanced _ _) hstates
        (startTraffic_balance now random starts rfl fun _ _ => rfl) es hok)
  exact ⟨hsent, htaken⟩

/-- What is reported is the difference, unless one of the totals has wrapped around more often. -/
theorem Totals.report_iff {t : Totals} {sent taken : Nat}
    (hsent : t.totSendMessages = BitVec.ofNat 32 sent)
    (htaken : t.totRecvMessages = BitVec.ofNat 32 taken) (hle : taken ≤ sent) :
    (t.report.totRecvMessages = t.totRecvMessages ∧ t.report.totalLoss = sent - taken) ↔
      sent / 2 ^ 32 = taken / 2 ^ 32 := by
  have hs : t.totSendMessages.toNat = sent % 2 ^ 32 := by rw [hsent, BitVec.toNat_ofNat]
  have ht : t.totRecvMessages.toNat = taken % 2 ^ 32 := by rw [htaken, BitVec.toNat_ofNat]
  unfold Totals.report
  by_cases hless : t.totSendMessages < t.totRecvMessages
  · -- fewer seem to be sent than read: one of the totals wrapped around and the other did not
    have hlt : sent % 2 ^ 32 < taken % 2 ^ 32 := by
      rw [← hs, ← ht]
      exact BitVec.lt_def.mp hless
    simp only [if_pos hless]
    refine iff_of_false ?_ (by omega)
    rintro ⟨hsame, _⟩
    rw [hsame] at hless
    exact BitVec.lt_irrefl _ hless
  · have hge : t.totRecvMessages ≤ t.totSendMessages := BitVec.not_lt.mp hless
    have hmod : taken % 2 ^ 32 ≤ sent % 2 ^ 32 := by
      rw [← hs, ← ht]
      exact BitVec.le_def.mp hge
    simp only [if_neg hless, BitVec.toNat_sub_of_le hge, hs, ht, true_and]
    omega

/-- In every run in which the relay makes no message up and delivers none twice, whatever it loses
or reorders and in whatever order messages and ticks come, the totals are the numbers of the
messages sent and read, as far as 32 bits go; and the loss reported at the end is the number of the
messages that were not read by the session they were for exactly when the two totals have wrapped
around equally often. -/
theorem traffic_conserved (hrelay : isTcpRelay g = false) (mclient : Int) (now : BitVec 64)
    (random : Nat → Nat) (starts : List ClientStart)
    (hcount : starts.length = totClients c2c g.noRtcp mclient) (es : List TrafficEvent)
    (hok : StepRuns.Meets (PassedOn List.Subperm g c2c) (trafficStep g hangOn)
      (startTraffic now random starts) es) :
    let w := StepRuns.run (trafficStep g hangOn) (startTraffic now random starts) es
    let sent := w.sum fun j => j.sent.length
    let taken := w.sum fun j => j.taken.length
    w.totals.totSendMessages = BitVec.ofNat 32 sent ∧
      w.totals.totRecvMessages = BitVec.ofNat 32 taken ∧
      ((w.totals.report.totRecvMessages = w.totals.totRecvMessages ∧ w.totals.report.totalLoss =
        ∑ i ∈ Finset.range starts.length, (w.unread c2c g.noRtcp i).length) ↔
          sent / 2 ^ 32 = taken / 2 ^ 32) := by
  intro w sent taken
  have hcounted : w.totals.totSendMessages = BitVec.ofNat 32 sent ∧
      w.totals.totRecvMessages = BitVec.ofNat 32 taken :=
    totals_counted hrelay _ now random starts es hok
  obtain ⟨hsent, htaken⟩ := hcounted
  have hlength : w.elems.length = starts.length := run_length now random starts es
  have hheard : Heard List.Subperm c2c g.noRtcp w :=
    run_heard hrelay (fun _ _ _ h hpre => h.trans hpre.sublist.subperm) (List.Subperm.refl []) now
      random starts es hok
  have hsplit : taken + ∑ i ∈ Finset.range starts.length, (w.unread c2c g.noRtcp i).length =
      sent := by
    unfold sent taken
    rw [← sum_sentTo (hlength.trans hcount), TrafficWorld.sum,
      sum_journeyOf fun j => j.taken.length, hlength, ← Finset.sum_add_distrib]
    exact Finset.sum_congr rfl fun i _ => unread_length hheard i
  have hunread : ∑ i ∈ Finset.range starts.length, (w.unread c2c g.noRtcp i).length =
      sent - taken := by omega
  rw [hunread]
  exact ⟨hsent, htaken, Totals.report_iff hsent htaken (by omega)⟩

end Conserved

/-- Every message that is due is sent, and no request is refreshed. -/
def sendsEach : TickChoice :=
  ⟨⟨Choice.idle, Choice.idle, Choice.idle⟩, fun _ => sendsAll,
    ⟨Choice.idle, Choice.idle, Choice.idle⟩⟩

/-- Two clients on channels of their own with five messages to send. -/
def pairedClients : List ClientStart :=
  [⟨⟨ConnInfo.init, .unknown, 0x4001, none, true, true⟩, 5, 30000⟩,
    ⟨⟨ConnInfo.init, .unknown, 0x4002, none, true, true⟩, 5, 30000⟩]

def withoutRtcp : Globals := { Globals.initial constantSsl with noRtcp := true }

/-- Both clients have sent two messages when the second one reads one of the first. -/
def oneOfFourRead : List TrafficEvent :=
  [.tick 2000 fun _ => sendsEach, .tick 2020 fun _ => sendsEach,
    .read 1 (delivered 0x4002 ⟨1, 2020⟩)]

theorem three_of_four_lost :
    let w := StepRuns.run (trafficStep withoutRtcp false)
      (startTraffic 1000 (fun _ => 0) pairedClients) oneOfFourRead
    w.totals.totSendMessages = 4 ∧ w.totals.totRecvMessages = 1 ∧ w.totals.report.totalLoss = 3 := by
  intro w
  have hok : StepRuns.Meets (PassedOn List.Subperm withoutRtcp true)
      (trafficStep withoutRtcp false) (startTraffic 1000 (fun _ => 0) pairedClients)
      oneOfFourRead := by decide +kernel
  obtain ⟨hsent, htaken, hreport⟩ := traffic_conserved (by decide) 1 1000 (fun _ => 0)
    pairedClients (by decide) oneOfFourRead hok
  obtain ⟨_, hloss⟩ := hreport.mpr (by decide +kernel)
  exact ⟨hsent.trans (by decide +kernel), htaken.trans (by decide +kernel),
    hloss.trans (by decide +kernel)⟩

end TurnClient
