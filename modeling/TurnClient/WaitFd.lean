import TurnClient.RecvBuffer
import Mathlib.Tactic.Ring
import Mathlib.Tactic.Positivity

/-!
# Waiting with exponential back-off

`wait_fd` waits in `select` and goes on waiting when a signal interrupts it. It
computes the interval anew on every turn, from the parameter `cycle`, which the
computation counts down to zero: behind the first interruption the loop takes
the half second of cycle zero, and the test for the elapsed time is not reached
any more.
-/

namespace TurnClient

set_option autoImplicit false

/-- A `struct timeval`. -/
structure TimeVal where
  sec : Int
  usec : Int
deriving DecidableEq

inductive SelectResult where
  /-- A negative result with `EINTR`, and the clock behind it. -/
  | eintr (now : TimeVal)
  | other (rc : Int)

/-- One `select`: the last reading of the clock before it, and the timeout it is given. -/
structure SelectCall where
  clock : TimeVal
  timeout : TimeVal
deriving DecidableEq

inductive WaitEnd where
  | returned (rc : Int)
  | waiting
  /-- An addition of `time_t` overflowed. -/
  | undef
deriving DecidableEq

structure WaitRun where
  selects : List SelectCall
  fin : WaitEnd
deriving DecidableEq

/-- Addition in a signed `time_t` of so many bits. -/
def timeAdd (timeBits : Nat) (a b : Int) : Option Int :=
  if a + b < 2 ^ (timeBits - 1) ∧ -2 ^ (timeBits - 1) ≤ a + b then some (a + b) else none

/-- The loop `while (--cycle)`, for the value `cycle` has behind the first decrement. -/
def doubling (timeBits : Nat) : Nat → Int → Option Int
  | 0, sec => some sec
  | cycle + 1, sec => (timeAdd timeBits sec sec).bind (doubling timeBits cycle)

/-- What one turn of the loop does before `select`. -/
inductive WaitTurn where
  | select (timeout : TimeVal)
  | leave
  | undef
deriving DecidableEq

def waitTurn (timeBits : Nat) (start ctime : TimeVal) : Nat → WaitTurn
  | 0 => .select ⟨0, 500000⟩
  | cycle + 1 =>
    match doubling timeBits cycle 1 with
    | none => .undef
    | some sec =>
      if start.sec < ctime.sec then
        match timeAdd timeBits start.sec sec with
        | none => .undef
        | some last =>
          if last ≤ ctime.sec then .leave else .select ⟨sec - (ctime.sec - start.sec), 0⟩
      else .select ⟨sec, 0⟩

/-- The turn and, where it comes to `select`, what follows. -/
def WaitTurn.before (turn : WaitTurn) (ctime : TimeVal) (rc : Int) (rest : WaitRun) : WaitRun :=
  match turn with
  | .undef => ⟨[], .undef⟩
  | .leave => ⟨[], .returned rc⟩
  | .select timeout => ⟨⟨ctime, timeout⟩ :: rest.selects, rest.fin⟩

/-- The loop. `while (--cycle)` has counted `cycle` down to zero when it is entered again. -/
def waitLoop (timeBits : Nat) (start : TimeVal) :
    List SelectResult → TimeVal → Nat → Int → WaitRun
  | [], ctime, cycle, rc =>
    (waitTurn timeBits start ctime cycle).before ctime rc ⟨[], .waiting⟩
  | .other rc' :: _, ctime, cycle, rc =>
    (waitTurn timeBits start ctime cycle).before ctime rc ⟨[], .returned rc'⟩
  | .eintr now :: results, ctime, cycle, rc =>
    (waitTurn timeBits start ctime cycle).before ctime rc
      (waitLoop timeBits start results now 0 (-1))

/-- `wait_fd`, with the results of `select` and the clock readings in the order they come. -/
def waitFdRun (timeBits : Nat) (dos : Bool) (fd cycle : Nat) (start : TimeVal)
    (results : List SelectResult) : WaitRun :=
  if fdSetsize ≤ fd then ⟨[], .returned 1⟩
  else if dos ∧ cycle = 0 then ⟨[], .returned 0⟩
  else waitLoop timeBits start results start cycle 0

/-! ## The interval -/

/-- The whole seconds between two readings of the clock. -/
def wholeSeconds (start now : TimeVal) : Int :=
  ((now.sec - start.sec) * 1000000 + (now.usec - start.usec)) / 1000000

/-- Every `select` waits for the rest of the interval, and none is issued behind its end. -/
def BackoffKept (cycle : Nat) (start : TimeVal) (run : WaitRun) : Prop :=
  run.fin ≠ .undef ∧
  ∀ call ∈ run.selects,
    wholeSeconds start call.clock < 2 ^ (cycle - 1) ∧
      call.timeout = ⟨2 ^ (cycle - 1) - wholeSeconds start call.clock, 0⟩

def Interrupted : List SelectResult → Prop
  | .eintr _ :: _ => True
  | _ => False

instance (results : List SelectResult) : Decidable (Interrupted results) :=
  match results with
  | .eintr _ :: _ => isTrue trivial
  | [] => isFalse id
  | .other _ :: _ => isFalse id

theorem timeAdd_self (timeBits n : Nat) :
    timeAdd timeBits (2 ^ n) (2 ^ n) = if n + 2 < timeBits then some (2 ^ (n + 1)) else none := by
  have hsum : (2 : Int) ^ n + 2 ^ n = 2 ^ (n + 1) := by ring
  have hlow : -(2 : Int) ^ (timeBits - 1) ≤ 2 ^ (n + 1) :=
    le_trans (neg_nonpos.mpr (by positivity)) (by positivity)
  have hiff : (2 : Int) ^ (n + 1) < 2 ^ (timeBits - 1) ↔ n + 2 < timeBits := by
    rw [pow_lt_pow_iff_right₀ (by decide)]
    omega
  unfold timeAdd
  rw [hsum]
  by_cases h : n + 2 < timeBits
  · rw [if_pos h, if_pos ⟨hiff.mpr h, hlow⟩]
  · rw [if_neg h, if_neg fun hlt => h (hiff.mp hlt.1)]

/-- Doubling is defined as long as the result has a bit left for the sign. -/
theorem doubling_eq {timeBits : Nat} (cycle : Nat) {n : Nat} (hn : n + 1 < timeBits) :
    doubling timeBits cycle (2 ^ n) =
      if n + cycle + 1 < timeBits then some (2 ^ (n + cycle)) else none := by
  induction cycle generalizing n with
  | zero => rw [if_pos (by omega), doubling, Nat.add_zero]
  | succ cycle ih =>
    rw [doubling, timeAdd_self]
    by_cases h : n + 2 < timeBits
    · have hcomm : n + 1 + cycle = n + (cycle + 1) := by omega
      rw [if_pos h, Option.bind_some, ih (by omega), hcomm]
    · rw [if_neg h, if_neg (by omega), Option.bind_none]

theorem waitTurn_first {timeBits cycle : Nat} (hbits : 32 ≤ timeBits) (hcycle : 1 ≤ cycle)
    (start : TimeVal) :
    waitTurn timeBits start start cycle =
      if cycle < timeBits then .select ⟨2 ^ (cycle - 1), 0⟩ else .undef := by
  obtain ⟨n, rfl⟩ : ∃ n, cycle = n + 1 := ⟨cycle - 1, by omega⟩
  have hdouble : doubling timeBits n 1 = if n + 1 < timeBits then some (2 ^ n) else none := by
    have h := doubling_eq n (show 0 + 1 < timeBits by omega)
    rwa [pow_zero, Nat.zero_add] at h
  simp only [waitTurn, hdouble]
  by_cases h : n + 1 < timeBits
  · simp [h]
  · simp [h]

/-! ## Interruptions -/

theorem wholeSeconds_self (t : TimeVal) : wholeSeconds t t = 0 := by
  simp [wholeSeconds]

/-- The second turn waits for half a second, whatever the interval was. -/
theorem waitLoop_second (timeBits : Nat) (start : TimeVal) (results : List SelectResult)
    (ctime : TimeVal) (rc : Int) :
    ∃ rest, (waitLoop timeBits start results ctime 0 rc).selects = ⟨ctime, ⟨0, 500000⟩⟩ :: rest := by
  rcases results with _ | ⟨_ | _, results⟩
  · exact ⟨_, rfl⟩
  · exact ⟨_, rfl⟩
  · exact ⟨_, rfl⟩

theorem backoffKept_iff_loop {timeBits cycle : Nat} (hbits : 32 ≤ timeBits) (hcycle : 1 ≤ cycle)
    (start : TimeVal) (results : List SelectResult) (rc : Int) :
    BackoffKept cycle start (waitLoop timeBits start results start cycle rc) ↔
      cycle < timeBits ∧ ¬ Interrupted results := by
  have hturn := waitTurn_first hbits hcycle start
  have hfirst : (2 : Int) ^ (cycle - 1) > 0 := by positivity
  by_cases hdefined : cycle < timeBits
  · rw [if_pos hdefined] at hturn
    rcases results with _ | ⟨now | rc', results⟩
    · simp [waitLoop, hturn, WaitTurn.before, BackoffKept, Interrupted, wholeSeconds_self, hdefined]
    · obtain ⟨rest, hrest⟩ := waitLoop_second timeBits start results now (-1)
      refine iff_of_false (fun hkept => ?_) fun h => h.2 trivial
      have hcall := hkept.2 ⟨now, ⟨0, 500000⟩⟩ (by simp [waitLoop, hturn, WaitTurn.before, hrest])
      have husec : (500000 : Int) = 0 := congrArg TimeVal.usec hcall.2
      cases husec
    · simp [waitLoop, hturn, WaitTurn.before, BackoffKept, Interrupted, wholeSeconds_self, hdefined]
  · rw [if_neg hdefined] at hturn
    refine iff_of_false (fun hkept => ?_) fun h => hdefined h.1
    apply hkept.1
    rcases results with _ | ⟨_ | _, results⟩ <;> simp [waitLoop, hturn, WaitTurn.before]

theorem backoff_kept_iff (timeBits : Nat) (dos : Bool) (fd cycle : Nat) (start : TimeVal)
    (results : List SelectResult) (hbits : 32 ≤ timeBits) (hcycle : 1 ≤ cycle) :
    BackoffKept cycle start (waitFdRun timeBits dos fd cycle start results) ↔
      fdSetsize ≤ fd ∨ (cycle < timeBits ∧ ¬ Interrupted results) := by
  unfold waitFdRun
  by_cases hfd : fdSetsize ≤ fd
  · rw [if_pos hfd]
    exact iff_of_true ⟨by decide, by simp⟩ (Or.inl hfd)
  · rw [if_neg hfd, if_neg (by omega), backoffKept_iff_loop hbits hcycle]
    simp [hfd]

/-- The fourth wait for a response times out after eight seconds. -/
theorem uninterrupted_wait_kept :
    BackoffKept 4 ⟨100, 0⟩ (waitFdRun 64 false 3 4 ⟨100, 0⟩ [.other 0]) :=
  (backoff_kept_iff 64 false 3 4 ⟨100, 0⟩ [.other 0] (by decide) (by decide)).mpr
    (Or.inr ⟨by decide, by decide⟩)

/-- A signal after two seconds of eight: the next wait is half a second, not six seconds. -/
theorem interrupted_wait_not_kept :
    (waitFdRun 64 false 3 4 ⟨100, 0⟩ [.eintr ⟨102, 0⟩, .other 0]).selects =
        [⟨⟨100, 0⟩, ⟨8, 0⟩⟩, ⟨⟨102, 0⟩, ⟨0, 500000⟩⟩] ∧
      ¬ BackoffKept 4 ⟨100, 0⟩ (waitFdRun 64 false 3 4 ⟨100, 0⟩ [.eintr ⟨102, 0⟩, .other 0]) := by
  refine ⟨by decide, ?_⟩
  intro hkept
  have hcall := hkept.2 ⟨⟨102, 0⟩, ⟨0, 500000⟩⟩ (by decide)
  exact absurd (congrArg TimeVal.usec hcall.2) (by decide)

/-! ## The result -/

/-- How `recv_buffer` reads the result. -/
def selectOutcome (rc : Int) : SelectOutcome :=
  if 0 < rc then .ready else if rc < 0 then .failed else .timeout

/-- The first result that is not an interruption. -/
def answered : List SelectResult → Option Int
  | [] => none
  | .eintr _ :: results => answered results
  | .other rc :: _ => some rc

theorem waitLoop_answered {timeBits : Nat} {start : TimeVal} {results : List SelectResult} {rc : Int}
    (hanswered : answered results = some rc) {ctime : TimeVal} {cycle : Nat} {rc₀ : Int}
    {timeout : TimeVal} (hturn : waitTurn timeBits start ctime cycle = .select timeout) :
    (waitLoop timeBits start results ctime cycle rc₀).fin = .returned rc := by
  induction results generalizing ctime cycle rc₀ timeout with
  | nil => cases hanswered
  | cons result results ih =>
    cases result with
    | eintr now =>
      simp only [waitLoop, hturn, WaitTurn.before]
      exact ih hanswered rfl
    | other rc' =>
      cases hanswered
      simp only [waitLoop, hturn, WaitTurn.before]

/-- The loop around `wait_fd` sees one result of `select`, as long as the interval is defined. -/
theorem waitFdRun_eq_waitFd {timeBits fd cycle : Nat} {start : TimeVal} {results : List SelectResult}
    {rc : Int} {c : WaitChoice} (hbits : 32 ≤ timeBits) (hcycle : cycle < timeBits)
    (hanswered : answered results = some rc) (hc : c.select = selectOutcome rc) :
    ∃ rc', (waitFdRun timeBits false fd cycle start results).fin = .returned rc' ∧
      selectOutcome rc' = waitFd fd c := by
  unfold waitFdRun waitFd
  by_cases hfd : fdSetsize ≤ fd
  · rw [if_pos hfd, if_pos hfd]
    exact ⟨1, rfl, rfl⟩
  · rw [if_neg hfd, if_neg hfd, if_neg (by simp)]
    refine ⟨rc, ?_, hc.symm⟩
    rcases Nat.eq_zero_or_pos cycle with rfl | hpos
    · exact waitLoop_answered hanswered rfl
    · have hturn := waitTurn_first hbits hpos start
      rw [if_pos hcycle] at hturn
      exact waitLoop_answered hanswered hturn

end TurnClient
