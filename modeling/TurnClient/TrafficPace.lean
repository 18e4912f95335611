import TurnClient.TrafficRuns

/-!
# The pace of the test client

With a timer that fires at least once a second a session is never ahead of one
message every twenty milliseconds and never behind; when the last message has
had its ten seconds, the session is completed, and with the last one the loop of
`start_mclient` ends.
-/

namespace TurnClient

set_option autoImplicit false

/-! ## Times -/

/-- How many messages are due at `now`, the first one at `start`. -/
def messagesDue (start now : Nat) : Nat :=
  if now < start then 0 else (now - start) / rtpPacketInterval + 1

theorem lt_messagesDue_iff (start now n : Nat) :
    n < messagesDue start now ↔ start + 20 * n ≤ now := by
  unfold messagesDue rtpPacketInterval
  split <;> omega

theorem messagesDue_mono (start : Nat) {now now' : Nat} (h : now ≤ now') :
    messagesDue start now ≤ messagesDue start now' := by
  unfold messagesDue rtpPacketInterval
  split <;> split <;> omega

theorem later_toNat {now : BitVec 64} {ms : Nat} (h : now.toNat + ms < 2 ^ 32) :
    (later now ms).toNat = now.toNat + ms := by
  simp only [later, BitVec.toNat_setWidth, BitVec.toNat_add, BitVec.toNat_ofNat]
  omega

/-- Below the sign bit the comparison is the one of the times. -/
theorem turnTimeBefore_of_small {t₁ : BitVec 64} {t₂ : BitVec 32} (h₁ : t₁.toNat < 2 ^ 31)
    (h₂ : t₂.toNat < 2 ^ 31) : turnTimeBefore t₁ t₂ = decide (t₁.toNat < t₂.toNat) := by
  have hleft : (t₁.setWidth 32).toInt = t₁.toNat := by
    rw [BitVec.toInt_eq_toNat_of_lt]
    · rw [BitVec.toNat_setWidth]
      omega
    · rw [BitVec.toNat_setWidth]
      omega
  have hright : t₂.toInt = t₂.toNat := BitVec.toInt_eq_toNat_of_lt (by omega)
  rw [turnTimeBefore, hleft, hright]
  apply decide_eq_decide.mpr
  omega

/-- The clock goes forward, by a second at most, and all times stay below the sign bit. -/
def Steady (w : TrafficWorld) : TrafficEvent → Prop
  | .tick now _ => w.now.toNat ≤ now.toNat ∧ now.toNat ≤ w.now.toNat + 1000 ∧
      now.toNat + 10000 < 2 ^ 31
  | _ => True

instance (w : TrafficWorld) : (e : TrafficEvent) → Decidable (Steady w e)
  | .tick now _ => inferInstanceAs (Decidable (w.now.toNat ≤ now.toNat ∧
      now.toNat ≤ w.now.toNat + 1000 ∧ now.toNat + 10000 < 2 ^ 31))
  | .read _ _ => isTrue trivial

/-! ## A session on its way -/

/-- What is settled of a session before its traffic begins. -/
structure Plan where
  totMsgnum : Int
  start : Nat

def Traffic.plan (x : Traffic) : Plan := ⟨x.totMsgnum, x.journey.start⟩

/-- The number of messages that are to be written by `now`. -/
def Plan.written (p : Plan) (now : Nat) : Nat := min p.totMsgnum.toNat (messagesDue p.start now)

/-- The time at which a session is certain to be over. -/
def Plan.deadline (p : Plan) : Nat := p.start + 20 * p.totMsgnum.toNat + 11000

theorem plan_written (x : Traffic) (now : Nat) :
    x.plan.written now = min x.totMsgnum.toNat (messagesDue x.journey.start now) := rfl

theorem plan_deadline (x : Traffic) :
    x.plan.deadline = x.journey.start + 20 * x.totMsgnum.toNat + 11000 := rfl

theorem plan_eq {x y : Traffic} (h : x.plan = y.plan) :
    x.totMsgnum = y.totMsgnum ∧ x.journey.start = y.journey.start :=
  ⟨congrArg Plan.totMsgnum h, congrArg Plan.start h⟩

theorem plan_keeps (hangOn : Bool) (now : BitVec 64) (p : Plan) :
    TimerKeeps hangOn now fun _ x => x.plan = p where
  write := by
    intro k x sent h _ _
    rw [← h]
    cases sent <;> rfl
  complete := by
    intro k x h _ _
    exact h
  shutdown := by
    intro k x h _ _ _
    exact h

/-- What holds of a session at any moment, also inside of the loop of the timer. -/
structure Paced (now : BitVec 64) (x : Traffic) : Prop where
  known : x.state ≠ .unknown
  clock : now.toNat + 10000 < 2 ^ 31
  starts : x.journey.start < 2 ^ 31
  next : x.toSendTimems.toNat = x.journey.start + 20 * x.wmsgnum
  within : x.wmsgnum ≤ x.totMsgnum.toNat
  notAhead : x.wmsgnum ≤ messagesDue x.journey.start now.toNat
  notBehind : x.wmsgnum < x.totMsgnum.toNat →
    now.toNat < x.journey.start + 20 * x.wmsgnum + 1000
  finish : x.finishedTime.toNat ≤ now.toNat + 10000
  finishes : x.finishedTime.toNat ≤
    x.journey.start + 20 * x.wmsgnum + 11000
  full : x.completed = true → x.wmsgnum = x.totMsgnum.toNat
  closed : x.state = .done → x.completed = true

/-- What holds between two turns of the timer. -/
structure OnTime (hangOn : Bool) (now : BitVec 64) (x : Traffic) : Prop extends Paced now x where
  written : x.wmsgnum = x.plan.written now.toNat
  ended : x.plan.deadline ≤ now.toNat → x.completed = true ∧ (hangOn = false → x.state = .done)

namespace Paced
variable {now : BitVec 64} {x : Traffic}

/-- A message that is not due holds up all that come after it. -/
theorem toSend_lt (h : Paced now x) : x.toSendTimems.toNat < 2 ^ 31 := by
  have hclock := h.clock
  have hstarts := h.starts
  have hnext := h.next
  cases hw : x.wmsgnum with
  | zero => omega
  | succ n =>
    have hslot : n < messagesDue x.journey.start now.toNat := by
      have hahead := h.notAhead
      omega
    have hpast := (lt_messagesDue_iff _ _ _).mp hslot
    omega

theorem before_iff (h : Paced now x) : turnTimeBefore now x.toSendTimems = false ↔
    x.wmsgnum < messagesDue x.journey.start now.toNat := by
  have hclock := h.clock
  rw [turnTimeBefore_of_small (by omega) h.toSend_lt, lt_messagesDue_iff, h.next]
  simp

theorem finished_iff (h : Paced now x) : turnTimeBefore now x.finishedTime = false ↔
    x.finishedTime.toNat ≤ now.toNat := by
  have hclock := h.clock
  have hfinish := h.finish
  rw [turnTimeBefore_of_small (by omega) (by omega)]
  simp

theorem write (h : Paced now x) (sent : Bool) (hdue : x.Due now) :
    Paced now (x.write now sent) := by
  obtain ⟨htot, hbefore⟩ := hdue
  have hslot := h.before_iff.mp hbefore
  have hnext := h.next
  have hlt := h.toSend_lt
  have hclock := h.clock
  have hbehind := h.notBehind (by omega)
  have hstart : (x.write now sent).journey.start = x.journey.start := by
    cases sent <;> rfl
  have hlater : (x.write now sent).finishedTime = later now 10000 := rfl
  have hfinished : (x.write now sent).finishedTime.toNat = now.toNat + 10000 := by
    rw [hlater]
    exact later_toNat (by omega)
  have htosend : (x.write now sent).toSendTimems.toNat =
      x.toSendTimems.toNat + 20 := by
    change (x.toSendTimems + BitVec.ofNat 32 20).toNat = _
    rw [BitVec.toNat_add, BitVec.toNat_ofNat]
    omega
  have hw : (x.write now sent).wmsgnum = x.wmsgnum + 1 := rfl
  have htotal : (x.write now sent).totMsgnum = x.totMsgnum := rfl
  refine ⟨h.known, hclock, ?_, ?_, ?_, ?_, ?_, ?_, ?_, ?_, h.closed⟩
  · rw [hstart]
    exact h.starts
  · rw [hstart, htosend, hw, hnext, Nat.mul_add]
    omega
  · rw [hw, htotal]
    omega
  · rw [hw, hstart]
    exact hslot
  · rw [hw, hstart]
    omega
  · rw [hfinished]
  · rw [hw, hstart, hfinished]
    omega
  · intro hcompleted
    have hfull := h.full hcompleted
    omega

theorem complete (h : Paced now x) {k : Counts} (hover : x.Over now k) : Paced now x.complete := by
  refine ⟨h.known, h.clock, h.starts, h.next, h.within, h.notAhead, h.notBehind, h.finish,
    h.finishes, ?_, fun _ => rfl⟩
  intro _
  have htot : x.totMsgnum ≤ x.wmsgnum := hover.1
  have hwithin := h.within
  change x.wmsgnum = x.totMsgnum.toNat
  omega

theorem shutdown (h : Paced now x) (hcompleted : x.completed = true) : Paced now x.shutdown := by
  refine ⟨?_, h.clock, h.starts, h.next, h.within, h.notAhead, h.notBehind, h.finish, h.finishes,
    h.full, fun _ => hcompleted⟩
  intro hcase
  cases hcase

theorem keeps (hangOn : Bool) (now : BitVec 64) : TimerKeeps hangOn now fun _ x => Paced now x where
  write := by
    intro k x sent h _ hdue
    exact h.write sent hdue
  complete := by
    intro k x h _ hover
    exact h.complete hover
  shutdown := by
    intro k x h _ hcompleted _
    exact h.shutdown hcompleted

/-- The clock goes on, the session waits. -/
theorem advance (h : Paced now x) {now' : BitVec 64}
    (hwritten : x.wmsgnum = x.plan.written now.toNat)
    (hforward : now.toNat ≤ now'.toNat) (hgap : now'.toNat ≤ now.toNat + 1000)
    (hclock : now'.toNat + 10000 < 2 ^ 31) : Paced now' x := by
  have hfinish := h.finish
  rw [plan_written] at hwritten
  refine ⟨h.known, hclock, h.starts, h.next, h.within, ?_, ?_, by omega, h.finishes, h.full,
    h.closed⟩
  · exact h.notAhead.trans (messagesDue_mono _ hforward)
  · intro hmore
    have hdue : ¬ x.wmsgnum < messagesDue x.journey.start now.toNat := by omega
    rw [lt_messagesDue_iff] at hdue
    omega

/-- A session that has written all it has to write by now is on time. -/
theorem written_of (h : Paced now x) (hdone : x.totMsgnum.toNat ≤ x.wmsgnum ∨
    messagesDue x.journey.start now.toNat ≤ x.wmsgnum) :
    x.wmsgnum = x.plan.written now.toNat := by
  have hwithin := h.within
  have hahead := h.notAhead
  rw [plan_written]
  omega

/-- At the deadline everything is written, and the last message has had its time. -/
theorem over_of_deadline (h : Paced now x) (hdeadline : x.plan.deadline ≤ now.toNat) (k : Counts) :
    x.Over now k ∧ turnTimeBefore now x.finishedTime = false := by
  have hwithin := h.within
  have hfinishes := h.finishes
  rw [plan_deadline] at hdeadline
  have hall : x.wmsgnum = x.totMsgnum.toNat := by
    by_contra hne
    have hbehind := h.notBehind (by omega)
    omega
  have hslot : x.wmsgnum < messagesDue x.journey.start now.toNat := by
    rw [lt_messagesDue_iff]
    omega
  have hfinished := h.finished_iff.mpr (by omega)
  exact ⟨⟨by omega, h.before_iff.mpr hslot, Or.inl hfinished⟩, hfinished⟩

end Paced

/-! ## One turn of the timer -/

section Turn
variable {g : Globals} {hangOn : Bool}

theorem finishTraffic_traffic (c : TickChoice) (now : BitVec 64) (t : Totals) (s : UrSession) :
    (finishTraffic g hangOn c now t s).2.traffic =
      if hangOn then s.traffic.complete else s.traffic.complete.shutdown := by
  cases hangOn <;> rfl

/-- In `n` turns of the loop, from `w` messages on, a session came to a message that is not due or
to the end of its messages, or it wrote one in every turn. -/
def Halts (now : BitVec 64) (w n : Nat) (x : Traffic) : Prop :=
  turnTimeBefore now x.toSendTimems = true ∨ x.totMsgnum ≤ x.wmsgnum ∨ w + n ≤ x.wmsgnum

theorem Halts.succ {now : BitVec 64} {w w' n : Nat} {x : Traffic} (hw : w' = w + 1)
    (h : Halts now w' n x) : Halts now w (n + 1) x := by
  rcases h with hbefore | hall | hmany
  · exact Or.inl hbefore
  · exact Or.inr (Or.inl hall)
  · exact Or.inr (Or.inr (by omega))

/-- A session that has written everything only waits. -/
theorem Halts.wait {now : BitVec 64} {w n : Nat} {x : Traffic} (hall : x.totMsgnum ≤ w)
    (h : Halts now w n x) : Halts now w (n + 1) x := by
  rcases h with hbefore | hall' | hmany
  · exact Or.inl hbefore
  · exact Or.inr (Or.inl hall')
  · exact Or.inr (Or.inl (by omega))

theorem sendDue_halts (hrelay : isTcpRelay g = false) (c : TickChoice) (now : BitVec 64)
    (n : Nat) (t : Totals) {s : UrSession} (hready : s.elem.state = .ready) :
    Halts now s.wmsgnum n (sendDue g hangOn c now n t s).2.traffic := by
  induction n generalizing t s with
  | zero => exact Or.inr (Or.inr (Nat.le_refl _))
  | succ n ih =>
    rw [sendDue]
    split
    · rename_i hbefore
      exact Or.inl hbefore
    split
    · rename_i htot
      split
      · rw [finishTraffic_traffic]
        cases hangOn <;> exact Or.inr (Or.inl htot)
      · have hplan : (sendDue g hangOn c now n t s).2.traffic.plan = s.traffic.plan :=
          sendDue_keeps hrelay (plan_keeps hangOn now _) c n rfl hready
        apply (ih t hready).wait
        rw [(plan_eq hplan).1]
        exact htot
    · obtain ⟨_, htraffic⟩ := clientWrite_traffic (c.write n) now t hrelay hready
      have hstate := congrArg Traffic.state htraffic
      exact (ih _ (hstate.trans hready)).succ (congrArg Traffic.wmsgnum htraffic)

/-- A session that is over is completed in the first turn of the loop. -/
theorem sendDue_over (c : TickChoice) {now : BitVec 64} (n : Nat) {t : Totals} {s : UrSession}
    (hover : s.traffic.Over now t.counts) (hfinished : turnTimeBefore now s.finishedTime = false) :
    let x := (sendDue g hangOn c now (n + 1) t s).2.traffic
    x.completed = true ∧ (hangOn = false → x.state = .done) := by
  obtain ⟨htot, hbefore, _⟩ := hover
  have hbefore' : turnTimeBefore now s.toSendTimems = false := hbefore
  have htot' : s.totMsgnum ≤ s.wmsgnum := htot
  intro x
  have hx : x = (finishTraffic g hangOn c now t s).2.traffic := by
    unfold x
    rw [sendDue, hbefore', if_neg Bool.false_ne_true, if_pos htot', hfinished]
    rfl
  rw [hx, finishTraffic_traffic]
  cases hangOn with
  | true => exact ⟨rfl, fun h => absurd h (by decide)⟩
  | false => exact ⟨rfl, fun _ => rfl⟩

/-- Fifty turns of the loop are enough for a second, in which no more messages become due. -/
theorem sendDue_onTime (hrelay : isTcpRelay g = false) (c : TickChoice) {now : BitVec 64}
    (t : Totals) {s : UrSession} (h : Paced now s.traffic) (hready : s.elem.state = .ready) :
    OnTime hangOn now (sendDue g hangOn c now 50 t s).2.traffic := by
  have hpaced : Paced now (sendDue g hangOn c now 50 t s).2.traffic :=
    sendDue_keeps hrelay (Paced.keeps hangOn now) c 50 h hready
  have hplan : (sendDue g hangOn c now 50 t s).2.traffic.plan = s.traffic.plan :=
    sendDue_keeps hrelay (plan_keeps hangOn now _) c 50 rfl hready
  have hhalts : Halts now s.wmsgnum 50 (sendDue g hangOn c now 50 t s).2.traffic :=
    sendDue_halts hrelay c now 50 t hready
  obtain ⟨htot, hstart⟩ := plan_eq hplan
  refine ⟨hpaced, hpaced.written_of ?_, ?_⟩
  · rcases hhalts with hbefore | hall | hmany
    · apply Or.inr
      have hlast := mt hpaced.before_iff.mpr (by rw [hbefore]; decide)
      omega
    · exact Or.inl (by omega)
    · have hsame : s.traffic.wmsgnum = s.wmsgnum := rfl
      by_cases hmore : s.wmsgnum < s.traffic.totMsgnum.toNat
      · have hbehind := h.notBehind hmore
        apply Or.inr
        by_contra hdue
        have hslot := (lt_messagesDue_iff _ _ _).mp (Nat.lt_of_not_ge hdue)
        omega
      · exact Or.inl (by omega)
  · rw [hplan]
    intro hdeadline
    obtain ⟨hover, hfinished⟩ := h.over_of_deadline hdeadline t.counts
    exact sendDue_over c 49 hover hfinished

/-- A turn of the timer finds a session on time and leaves it on time. -/
theorem clientTimerHandler_onTime (hrelay : isTcpRelay g = false) (c : TickChoice)
    {now : BitVec 64} (t : Totals) {s : UrSession} (h : Paced now s.traffic)
    (hdone : s.elem.state ≠ .done) :
    OnTime hangOn now (clientTimerHandler g hangOn c now t s).2.traffic := by
  have hready := ready_of_known h.known hdone
  obtain ⟨s', hsame, heq⟩ := clientTimerHandler_eq (g := g) c t s
  rw [heq]
  rw [← hsame] at h
  split
  · rename_i hwaits
    obtain ⟨hhang, hcompleted⟩ := Bool.and_eq_true_iff.mp hwaits
    refine ⟨h, h.written_of (Or.inl (h.full hcompleted).ge), ?_⟩
    intro _
    refine ⟨hcompleted, ?_⟩
    intro hoff
    rw [hhang] at hoff
    cases hoff
  · exact sendDue_onTime hrelay c t h ((congrArg Traffic.state hsame).trans hready)

end Turn

/-! ## Runs -/

section Runs
variable {g : Globals} {hangOn : Bool}

theorem onTime_sessions (hrelay : isTcpRelay g = false) :
    SessionKeeps g hangOn Steady (OnTime hangOn) where
  done := by
    intro w now c x hok h hdone
    obtain ⟨hforward, hgap, hclock⟩ := hok
    have hpaced := h.toPaced.advance h.written hforward hgap hclock
    have hcompleted := h.closed hdone
    exact ⟨hpaced, hpaced.written_of (Or.inl (h.full hcompleted).ge),
      fun _ => ⟨hcompleted, fun _ => hdone⟩⟩
  tick := by
    intro w now cs c t s hok h hdone
    obtain ⟨hforward, hgap, hclock⟩ := hok
    exact clientTimerHandler_onTime hrelay c t (h.toPaced.advance h.written hforward hgap hclock)
      hdone
  read := by
    intro w i c s mi _ _ _ h
    exact ⟨⟨h.known, h.clock, h.starts, h.next, h.within, h.notAhead, h.notBehind, h.finish,
      h.finishes, h.full, h.closed⟩, h.written, h.ended⟩

/-- The plans of the sessions, in the order of the table. -/
def TrafficWorld.plans (w : TrafficWorld) : List Plan := w.elems.map fun s => s.traffic.plan

theorem timerHandler_plans (hrelay : isTcpRelay g = false) (now : BitVec 64)
    (c : Nat → TickChoice) (t : Totals) (elems : List UrSession)
    (hstates : ∀ s ∈ elems, s.elem.state ≠ .unknown) :
    (timerHandler g hangOn now c t elems).2.map (fun s => s.traffic.plan) =
      elems.map fun s => s.traffic.plan := by
  induction elems generalizing c t with
  | nil => rfl
  | cons s elems ih =>
    obtain ⟨hhead, htail⟩ := List.forall_mem_cons.mp hstates
    rw [timerHandler]
    simp only [List.map_cons]
    rw [ih _ _ htail]
    congr 1
    split
    · rfl
    · rename_i hstate
      exact clientTimerHandler_keeps hrelay (plan_keeps hangOn now s.traffic.plan) (c 0) rfl
        (ready_of_known hhead hstate)

theorem map_set_same {α β : Type} (f : α → β) {l : List α} {i : Nat} {a a' : α}
    (ha : l[i]? = some a) (hf : f a' = f a) : (l.set i a').map f = l.map f := by
  induction l generalizing i with
  | nil => rfl
  | cons b l ih =>
    cases i with
    | zero =>
      have hb : b = a := Option.some.inj ha
      rw [List.set_cons_zero, List.map_cons, List.map_cons, hf, hb]
    | succ i => exact congrArg (f b :: ·) (ih ha)

theorem trafficStep_plans (hrelay : isTcpRelay g = false) (w : TrafficWorld) (e : TrafficEvent)
    (hstates : ∀ s ∈ w.elems, s.elem.state ≠ .unknown) :
    (trafficStep g hangOn w e).plans = w.plans := by
  cases e with
  | tick now c => exact timerHandler_plans hrelay now c w.totals w.elems hstates
  | read i c =>
    cases hs : w.elems[i]? with
    | none => simp only [trafficStep, hs]
    | some s =>
      simp only [trafficStep, hs]
      apply map_set_same _ hs
      rcases trafficRead_countsOne g c w.now w.totals s with ⟨_, hsame⟩ | ⟨mi, _, hread⟩
      · rw [hsame]
      · rw [hread]
        rfl

/-- The plan of a client that is started as the `i`-th. -/
def ClientStart.plan (now : BitVec 64) (random : Nat → Nat) (i : Nat) (a : ClientStart) : Plan :=
  ⟨a.messagenumber, now.toNat + 1000 + random i % 2 ^ 32 % 5000⟩

theorem setOff_toSend {now : BitVec 64} (hclock : now.toNat + 10000 < 2 ^ 31) (rnd : Nat) :
    (later now (1000 + rnd % 2 ^ 32 % 5000)).toNat = now.toNat + 1000 + rnd % 2 ^ 32 % 5000 := by
  rw [later_toNat (by omega), Nat.add_assoc]

theorem startTraffic_plans {now : BitVec 64} (hclock : now.toNat + 10000 < 2 ^ 31)
    (random : Nat → Nat) (starts : List ClientStart) :
    (startTraffic now random starts).plans = starts.mapIdx (ClientStart.plan now random) := by
  apply List.ext_getElem?
  intro i
  simp only [TrafficWorld.plans, startTraffic, List.getElem?_map, List.getElem?_mapIdx,
    Option.map_map]
  congr 1
  funext a
  exact congrArg (Plan.mk a.messagenumber) (setOff_toSend hclock (random i))

theorem startTraffic_onTime {now : BitVec 64} (hclock : now.toNat + 10000 < 2 ^ 31)
    (random : Nat → Nat) (starts : List ClientStart) :
    ∀ s ∈ (startTraffic now random starts).elems, OnTime hangOn now s.traffic := by
  intro s hs
  obtain ⟨a, _, i, rfl⟩ := mem_startTraffic hs
  have htosend := setOff_toSend hclock (random i)
  have hstart : ((startSession a).setOff now (random i)).traffic.journey.start =
      now.toNat + 1000 + random i % 2 ^ 32 % 5000 := htosend
  have hnone : messagesDue (now.toNat + 1000 + random i % 2 ^ 32 % 5000) now.toNat = 0 := by
    rw [messagesDue, if_pos (by omega)]
  refine ⟨⟨?_, hclock, ?_, ?_, Nat.zero_le _, Nat.zero_le _, ?_, Nat.zero_le _, Nat.zero_le _, ?_,
    ?_⟩, ?_, ?_⟩
  · intro hcase
    cases hcase
  · rw [hstart]
    omega
  · rw [hstart]
    exact htosend
  · intro _
    rw [hstart]
    omega
  · intro hcase
    cases hcase
  · intro hcase
    cases hcase
  · rw [plan_written, hstart, hnone, Nat.min_zero]
    rfl
  · rw [plan_deadline, hstart]
    intro hlate
    omega

section Started
variable {now : BitVec 64} {random : Nat → Nat} {starts : List ClientStart}
  {es : List TrafficEvent}

theorem run_onTime (hrelay : isTcpRelay g = false) (hclock : now.toNat + 10000 < 2 ^ 31)
    (hok : StepRuns.Meets Steady (trafficStep g hangOn) (startTraffic now random starts) es) :
    let w := StepRuns.run (trafficStep g hangOn) (startTraffic now random starts) es
    ∀ s ∈ w.elems, OnTime hangOn w.now s.traffic :=
  StepRuns.run_inv_of_meets (I := fun w => ∀ s ∈ w.elems, OnTime hangOn w.now s.traffic)
    (trafficStep_sessions (onTime_sessions hrelay)) es hok
    (startTraffic_onTime hclock random starts)

theorem run_plans (hrelay : isTcpRelay g = false) (hclock : now.toNat + 10000 < 2 ^ 31)
    (hok : StepRuns.Meets Steady (trafficStep g hangOn) (startTraffic now random starts) es) :
    (StepRuns.run (trafficStep g hangOn) (startTraffic now random starts) es).plans =
      starts.mapIdx (ClientStart.plan now random) := by
  have hstep : ∀ w e, ((∀ s ∈ w.elems, s.elem.state ≠ .unknown) ∧
      w.plans = starts.mapIdx (ClientStart.plan now random)) → Steady w e →
      (∀ s ∈ (trafficStep g hangOn w e).elems, s.elem.state ≠ .unknown) ∧
        (trafficStep g hangOn w e).plans = starts.mapIdx (ClientStart.plan now random) := by
    intro w e hI hev
    refine ⟨trafficStep_sessions (states_known Steady hrelay) w e hI.1 hev, ?_⟩
    rw [trafficStep_plans hrelay w e hI.1]
    exact hI.2
  exact (StepRuns.run_inv_of_meets hstep es hok ⟨startTraffic_states now random starts,
    startTraffic_plans hclock random starts⟩).2

theorem getElem?_of_plans {w : TrafficWorld} {i : Nat} {a : ClientStart}
    (hplans : w.plans = starts.mapIdx (ClientStart.plan now random)) (ha : starts[i]? = some a) :
    ∃ s, w.elems[i]? = some s ∧ s.traffic.plan = a.plan now random i := by
  have hget := congrArg (fun l : List Plan => l[i]?) hplans
  simp only [TrafficWorld.plans, List.getElem?_map, List.getElem?_mapIdx, ha,
    Option.map_some] at hget
  exact Option.map_eq_some_iff.mp hget

end Started

/-- Whatever is read and sent in between: with a timer that fires at least once a second every
session has at any moment written just the messages that were due, one every twenty milliseconds
from its start, and it is completed when it has written all of them and at its deadline at the
latest. -/
theorem traffic_paced (hrelay : isTcpRelay g = false) {now : BitVec 64}
    (hclock : now.toNat + 10000 < 2 ^ 31) (random : Nat → Nat) (starts : List ClientStart)
    (es : List TrafficEvent)
    (hok : StepRuns.Meets Steady (trafficStep g hangOn) (startTraffic now random starts) es)
    {i : Nat} {a : ClientStart} (ha : starts[i]? = some a) :
    let w := StepRuns.run (trafficStep g hangOn) (startTraffic now random starts) es
    ∃ s, w.elems[i]? = some s ∧ s.wmsgnum = (a.plan now random i).written w.now.toNat ∧
      (s.completed = true → s.wmsgnum = a.messagenumber.toNat) ∧
      ((a.plan now random i).deadline ≤ w.now.toNat → s.completed = true) := by
  intro w
  obtain ⟨s, hs, hplan⟩ := getElem?_of_plans (run_plans hrelay hclock hok) ha
  have hontime := run_onTime hrelay hclock hok s (List.mem_of_getElem? hs)
  have htot : s.traffic.totMsgnum = a.messagenumber := congrArg Plan.totMsgnum hplan
  refine ⟨s, hs, ?_, ?_, ?_⟩
  · rw [← hplan]
    exact hontime.written
  · intro hcompleted
    rw [← htot]
    exact hontime.full hcompleted
  · intro hdeadline
    rw [← hplan] at hdeadline
    exact (hontime.ended hdeadline).1

end Runs

/-- The last turn of the timer is fifty milliseconds behind the first message. -/
theorem three_messages_written :
    let w := StepRuns.run (trafficStep withoutRtcp false)
      (startTraffic 1000 (fun _ => 0) pairedClients)
      [.tick 2000 fun _ => sendsEach, .tick 2050 fun _ => sendsEach]
    ∃ s, w.elems[0]? = some s ∧ s.wmsgnum = 3 := by
  intro w
  have hok : StepRuns.Meets Steady (trafficStep withoutRtcp false)
      (startTraffic 1000 (fun _ => 0) pairedClients)
      [.tick 2000 fun _ => sendsEach, .tick 2050 fun _ => sendsEach] := by decide +kernel
  obtain ⟨s, hs, hwritten, _⟩ := traffic_paced (by decide) (by decide) (fun _ => 0) pairedClients _
    hok (i := 0) rfl
  exact ⟨s, hs, hwritten.trans (by decide +kernel)⟩

end TurnClient
