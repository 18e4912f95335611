import TurnClient.NumberGaps
import TurnClient.TrafficRuns

/-!
# The loss a session counts

A session remembers the last number it read and counts a loss whenever the next
one does not follow it. Through a relay that loses messages and keeps the others
in order, that is the number of gaps, and what was lost in a gap counts once.
-/

namespace TurnClient

open ByteMemory
set_option autoImplicit false

def Journey.numbers (j : Journey) : List Nat := j.taken.map MessageInfo.num

/-- The numbers in front of the last one read that were not read. -/
def Journey.missing (j : Journey) : Finset Nat := NumberGaps.missing 0 j.numbers

def Journey.gaps (j : Journey) : Nat := NumberGaps.breaks 0 j.numbers

/-- What a session knows of the numbers it writes and of those it has read. -/
structure Tracked (x : Traffic) : Prop where
  known : x.state ≠ .unknown
  fits : x.totMsgnum < 2 ^ 31
  within : x.wmsgnum ≤ x.totMsgnum.toNat
  numbered : ∀ mi ∈ x.journey.sent, mi.num < x.wmsgnum
  rising : NumberGaps.Rising 0 (x.journey.sent.map MessageInfo.num)
  small : ∀ mi ∈ x.journey.taken, mi.num < 2 ^ 31
  expected : x.recvmsgnum + 1 = BitVec.ofNat 32 (NumberGaps.after 0 x.journey.numbers)

theorem num_ofNat {n : Nat} (h : n < 2 ^ 31) (t : BitVec 64) :
    MessageInfo.num ⟨BitVec.ofNat 32 n, t⟩ = n := by
  simp only [MessageInfo.num, BitVec.toNat_ofNat]
  omega

namespace Tracked
variable {x : Traffic} {mi : MessageInfo}

theorem wmsgnum_lt (h : Tracked x) : x.wmsgnum < 2 ^ 31 := by
  have hfits := h.fits
  have hwithin := h.within
  omega

theorem sent_small (h : Tracked x) (hmi : mi ∈ x.journey.sent) : mi.num < 2 ^ 31 :=
  (h.numbered mi hmi).trans h.wmsgnum_lt

theorem after_le (h : Tracked x) : NumberGaps.after 0 x.journey.numbers ≤ 2 ^ 31 := by
  apply NumberGaps.after_le (Nat.zero_le _)
  intro n hn
  obtain ⟨mi, hmi, rfl⟩ := List.mem_map.mp hn
  exact h.small mi hmi

/-- What `client_read` compares is whether the number is the one expected. -/
theorem follows_iff (h : Tracked x) (mi : MessageInfo) :
    mi.msgnum = x.recvmsgnum + 1 ↔ mi.num = NumberGaps.after 0 x.journey.numbers := by
  have hafter := h.after_le
  rw [h.expected]
  constructor
  · intro heq
    rw [MessageInfo.num, heq, BitVec.toNat_ofNat]
    omega
  · intro heq
    apply BitVec.eq_of_toNat_eq
    rw [BitVec.toNat_ofNat, ← heq]
    exact (Nat.mod_eq_of_lt mi.msgnum.isLt).symm

theorem write (h : Tracked x) {now : BitVec 64} (sent : Bool) (hdue : x.Due now) :
    Tracked (x.write now sent) := by
  have hlt := h.wmsgnum_lt
  have hdue' := hdue.1
  have hnum := num_ofNat hlt now
  have hwithin : x.wmsgnum + 1 ≤ x.totMsgnum.toNat := by omega
  cases sent with
  | false =>
    exact ⟨h.known, h.fits, hwithin, fun mi hmi => Nat.lt_succ_of_lt (h.numbered mi hmi), h.rising,
      h.small, h.expected⟩
  | true =>
    refine ⟨h.known, h.fits, hwithin, ?_, ?_, h.small, h.expected⟩
    · intro mi hmi
      change mi.num < x.wmsgnum + 1
      rcases List.mem_append.mp hmi with hold | hnew
      · exact Nat.lt_succ_of_lt (h.numbered mi hold)
      · rw [List.mem_singleton.mp hnew, hnum]
        exact Nat.lt_succ_self _
    · have hsplit : (x.write now true).journey.sent.map MessageInfo.num =
          x.journey.sent.map MessageInfo.num ++ [x.wmsgnum] := by
        simp [Traffic.write, Journey.send, hnum]
      rw [hsplit, NumberGaps.rising_append]
      refine ⟨h.rising, NumberGaps.after_le (Nat.zero_le _) ?_, trivial⟩
      intro n hn
      obtain ⟨mi, hmi, rfl⟩ := List.mem_map.mp hn
      exact h.numbered mi hmi

theorem read (h : Tracked x) (hsmall : mi.num < 2 ^ 31) : Tracked (x.read mi) := by
  refine ⟨h.known, h.fits, h.within, h.numbered, h.rising, ?_, ?_⟩
  · intro m hm
    rcases List.mem_append.mp hm with hold | hnew
    · exact h.small m hold
    · rw [List.mem_singleton.mp hnew]
      exact hsmall
  · have hafter : NumberGaps.after 0 (x.read mi).journey.numbers = mi.num + 1 := by
      simp only [Journey.numbers, Traffic.read, Journey.take, List.map_append, List.map_cons,
        List.map_nil, NumberGaps.after_append, NumberGaps.after]
    have hback : BitVec.ofNat 32 mi.num = mi.msgnum := by
      simp [MessageInfo.num]
    rw [hafter, BitVec.ofNat_add, hback]
    rfl

end Tracked

/-- What was sent to a session was sent by a session of the table. -/
theorem exists_of_mem_sentTo {c2c noRtcp : Bool} {w : TrafficWorld} {i : Nat} {mi : MessageInfo}
    (h : mi ∈ w.sentTo c2c noRtcp i) : ∃ s ∈ w.elems, mi ∈ s.journey.sent := by
  rw [TrafficWorld.sentTo, TrafficWorld.journeyAt, journeyOf] at h
  cases hs : w.elems[hears c2c noRtcp i]? with
  | none =>
    rw [hs] at h
    cases h
  | some s =>
    rw [hs] at h
    exact ⟨s, List.mem_of_getElem? hs, h⟩

section Loss
variable {g : Globals} {hangOn c2c : Bool}

/-- A message that is counted is one that was sent. -/
theorem small_of_takes {w : TrafficWorld} {i : Nat} {c : ReadChoice} {s : UrSession}
    {mi : MessageInfo} (hok : PassedOn List.Sublist g c2c w (.read i c))
    (htakes : Takes g w i c s mi) (h : ∀ r ∈ w.elems, Tracked r.traffic) : mi.num < 2 ^ 31 := by
  have hsub := hok mi (takes_eq_some htakes)
  have hmem : mi ∈ w.sentTo c2c g.noRtcp i := hsub.subset (by simp)
  obtain ⟨r, hr, hsent⟩ := exists_of_mem_sentTo hmem
  exact (h r hr).sent_small hsent

theorem tracked_sessions (hrelay : isTcpRelay g = false) :
    SessionKeeps g hangOn (PassedOn List.Sublist g c2c) fun _ x => Tracked x where
  done := by
    intro w now c x _ h _
    exact h
  tick := by
    apply timer_tick (Q := Tracked) hrelay fun _ h => h.known
    intro now
    refine ⟨?_, ?_, ?_⟩
    · intro k x sent h _ hdue
      exact h.write sent hdue
    · intro k x h _ _
      exact ⟨h.known, h.fits, h.within, h.numbered, h.rising, h.small, h.expected⟩
    · intro k x h _ _ _
      refine ⟨?_, h.fits, h.within, h.numbered, h.rising, h.small, h.expected⟩
      intro hcase
      cases hcase
  read := by
    intro w i c s mi hok htakes hall h
    exact h.read (small_of_takes hok htakes hall)

/-- What the sessions noted and the total they hand it to are the gaps of all. -/
theorem loss_balanced (ok : TrafficWorld → TrafficEvent → Prop) :
    BalanceKeeps g hangOn ok (fun _ x => Tracked x) (fun k => (k.loss : Int))
      (fun x => x.journey.gaps - x.loss) where
  timer := by
    intro now n
    refine ⟨?_, ?_, ?_⟩
    · intro k x sent h _ _
      cases sent <;> exact h
    · intro k x h _ _
      simp only [Counts.complete, Traffic.complete]
      omega
    · intro k x h _ _ _
      exact h
  read := by
    intro w i c s mi k _ _ _ h
    have hgaps : (s.traffic.read mi).journey.gaps = s.journey.gaps +
        if mi.num = NumberGaps.after 0 s.journey.numbers then 0 else 1 := by
      simp only [Journey.gaps, Journey.numbers, Traffic.read, Journey.take, UrSession.traffic,
        List.map_append, List.map_cons, List.map_nil, NumberGaps.breaks_append, NumberGaps.breaks,
        Nat.add_zero]
      rfl
    have hloss : (s.traffic.read mi).loss = s.loss +
        if mi.num = NumberGaps.after 0 s.journey.numbers then 0 else 1 := by
      have hiff := h.follows_iff mi
      by_cases hnext : mi.num = NumberGaps.after 0 s.journey.numbers
      · rw [if_pos hnext, Traffic.read]
        simp only
        rw [if_pos (hiff.mpr hnext)]
        rfl
      · rw [if_neg hnext, Traffic.read]
        simp only
        rw [if_neg fun heq => hnext (hiff.mp heq)]
        rfl
    have hsession : s.traffic.journey.gaps = s.journey.gaps ∧ s.traffic.loss = s.loss := ⟨rfl, rfl⟩
    rw [hgaps, hloss, hsession.1, hsession.2]
    simp only [Counts.read]
    omega

/-- All losses noted so far, whether a session still has them or not. -/
def TrafficWorld.noted (w : TrafficWorld) : Nat :=
  w.totals.totalLoss + (w.elems.map fun s => s.loss).sum

theorem startTraffic_tracked (now : BitVec 64) (random : Nat → Nat) {starts : List ClientStart}
    (hfits : ∀ a ∈ starts, a.messagenumber < 2 ^ 31) :
    ∀ s ∈ (startTraffic now random starts).elems, Tracked s.traffic := by
  intro s hs
  obtain ⟨a, ha, i, rfl⟩ := mem_startTraffic hs
  have hnext : BitVec.ofInt 32 (-1) + 1 = BitVec.ofNat 32 0 := by decide
  refine ⟨?_, hfits a ha, Nat.zero_le _, ?_, trivial, ?_, hnext⟩
  · intro hcase
    cases hcase
  · intro mi hmi
    cases hmi
  · intro mi hmi
    cases hmi

/-- The numbers read rise, as those that were sent do. -/
theorem numbers_rising {w : TrafficWorld} {noRtcp : Bool}
    (hsessions : ∀ s ∈ w.elems, Tracked s.traffic) (hheard : Heard List.Sublist c2c noRtcp w) :
    ∀ s ∈ w.elems, NumberGaps.Rising 0 s.journey.numbers := by
  intro s hs
  obtain ⟨i, hi⟩ := List.mem_iff_getElem?.mp hs
  have hjourney : w.journeyAt i = s.journey := by
    rw [TrafficWorld.journeyAt, journeyOf, hi]
  have hsub := (hheard i).map MessageInfo.num
  rw [hjourney] at hsub
  apply NumberGaps.Rising.sublist _ hsub
  rw [TrafficWorld.sentTo, TrafficWorld.journeyAt, journeyOf]
  cases hpeer : w.elems[hears c2c noRtcp i]? with
  | none => trivial
  | some r => exact (hsessions r (List.mem_of_getElem? hpeer)).rising

theorem sum_le_and_eq_iff {α : Type} (f h : α → Nat) (l : List α) (hle : ∀ a ∈ l, f a ≤ h a) :
    (l.map f).sum ≤ (l.map h).sum ∧
      ((l.map f).sum = (l.map h).sum ↔ ∀ a ∈ l, f a = h a) := by
  induction l with
  | nil => simp
  | cons a l ih =>
    obtain ⟨ha, hl⟩ := List.forall_mem_cons.mp hle
    obtain ⟨hsum, hiff⟩ := ih hl
    simp only [List.map_cons, List.sum_cons, List.forall_mem_cons]
    rw [← hiff]
    omega

/-- What was noted is in balance with the gaps. -/
theorem noted_eq_gaps {w : TrafficWorld}
    (h : w.balance (fun k => (k.loss : Int)) (fun x => x.journey.gaps - x.loss) = 0) :
    w.noted = w.sum Journey.gaps := by
  have hadd : (w.elems.map fun s => ((s.journey.gaps : Int) - s.loss) + s.loss).sum =
      (w.elems.map fun s => (s.journey.gaps : Int) - s.loss).sum +
        (w.elems.map fun s => (s.loss : Int)).sum := List.sum_map_add
  have hgaps : (w.elems.map fun s => ((s.journey.gaps : Int) - s.loss) + s.loss).sum =
      (w.sum Journey.gaps : Int) := by
    simp only [Int.sub_add_cancel, TrafficWorld.sum, Nat.cast_list_sum, List.map_map]
    rfl
  have hloss : (w.elems.map fun s => (s.loss : Int)).sum =
      ((w.elems.map fun s => s.loss).sum : Nat) := by
    rw [Nat.cast_list_sum, List.map_map]
    rfl
  have hdiff : (w.totals.totalLoss : Int) -
      (w.elems.map fun s => (s.journey.gaps : Int) - s.loss).sum = 0 := h
  unfold TrafficWorld.noted
  omega

/-- Through a relay that loses messages but does not reorder them the losses noted are at most the
messages missing in front of the last one read, and they are all of them just in case no two
neighbours are missing. -/
theorem traffic_loss (hrelay : isTcpRelay g = false) (now : BitVec 64) (random : Nat → Nat)
    (starts : List ClientStart) (hfits : ∀ a ∈ starts, a.messagenumber < 2 ^ 31)
    (es : List TrafficEvent)
    (hok : StepRuns.Meets (PassedOn List.Sublist g c2c) (trafficStep g hangOn)
      (startTraffic now random starts) es) :
    let w := StepRuns.run (trafficStep g hangOn) (startTraffic now random starts) es
    w.noted ≤ w.sum (fun j => j.missing.card) ∧
      (w.noted = w.sum (fun j => j.missing.card) ↔
        ∀ s ∈ w.elems, NumberGaps.Scattered s.journey.missing) := by
  intro w
  have htracked := startTraffic_tracked now random hfits
  have hsessions : ∀ s ∈ w.elems, Tracked s.traffic :=
    StepRuns.run_inv_of_meets (trafficStep_sessions (tracked_sessions hrelay)) es hok htracked
  have hheard : Heard List.Sublist c2c g.noRtcp w :=
    run_heard hrelay (fun _ _ _ h hpre => h.trans hpre.sublist) (List.Sublist.refl []) now random
      starts es hok
  have hbal : w.balance (fun k => (k.loss : Int)) (fun x => x.journey.gaps - x.loss) = 0 :=
    run_balance hrelay (tracked_sessions hrelay) (fun _ _ h => h.known) (loss_balanced _) htracked
      (startTraffic_balance now random starts rfl fun _ _ => rfl) es hok
  have hnoted : w.noted = w.sum Journey.gaps := noted_eq_gaps hbal
  have hrising := numbers_rising hsessions hheard
  obtain ⟨hle, hiff⟩ := sum_le_and_eq_iff (fun s => s.journey.gaps)
    (fun s : UrSession => s.journey.missing.card) w.elems
    fun s hs => NumberGaps.breaks_le_card_missing (hrising s hs)
  rw [hnoted]
  refine ⟨hle, hiff.trans ?_⟩
  constructor
  · intro h s hs
    exact (NumberGaps.breaks_eq_card_missing_iff (hrising s hs)).mp (h s hs)
  · intro h s hs
    exact (NumberGaps.breaks_eq_card_missing_iff (hrising s hs)).mpr (h s hs)

end Loss

/-- Both clients have sent three messages when the second one reads the last of the first. -/
def lastOfThreeRead : List TrafficEvent :=
  [.tick 2000 fun _ => sendsEach, .tick 2020 fun _ => sendsEach, .tick 2040 fun _ => sendsEach,
    .read 1 (delivered 0x4002 ⟨2, 2040⟩)]

/-- Of two neighbours that are missing one is noted. -/
theorem neighbours_noted_once :
    let w := StepRuns.run (trafficStep withoutRtcp false)
      (startTraffic 1000 (fun _ => 0) pairedClients) lastOfThreeRead
    w.noted = 1 ∧ w.sum (fun j => j.missing.card) = 2 ∧
      ¬∀ s ∈ w.elems, NumberGaps.Scattered s.journey.missing := by
  intro w
  have hfits : ∀ a ∈ pairedClients, a.messagenumber < 2 ^ 31 := by decide
  have hok : StepRuns.Meets (PassedOn List.Sublist withoutRtcp true)
      (trafficStep withoutRtcp false) (startTraffic 1000 (fun _ => 0) pairedClients)
      lastOfThreeRead := by decide +kernel
  obtain ⟨_, hiff⟩ := traffic_loss (by decide) 1000 (fun _ => 0) pairedClients hfits
    lastOfThreeRead hok
  have hnoted : w.noted = 1 := by decide +kernel
  have hmissing : w.sum (fun j => j.missing.card) = 2 := by decide +kernel
  refine ⟨hnoted, hmissing, ?_⟩
  intro hscattered
  have heq : w.noted = w.sum (fun j => j.missing.card) := hiff.mpr hscattered
  rw [hnoted, hmissing] at heq
  cases heq

end TurnClient
