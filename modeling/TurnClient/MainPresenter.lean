import Mathlib.Data.List.Basic

/-!
# The presenter of the demo application

`MainPresenter.kt`: announcements of the peer and reports of the native clients
write its fields, and three pairs of coroutines read them to send and to
receive. A job takes one step at a time between the places where it can be
cancelled or overtaken: the address of a datagram is read and resolved in one
step, its port in the next. The state keeps every announcement delivered so far,
and every datagram remembers which ones had been delivered when it was sent.
-/

namespace TurnClient

set_option autoImplicit false

structure Announcement where
  type : Int
  address : String
  port : Int
deriving DecidableEq

inductive Path where
  | lan
  | relay
  | reflexive
deriving DecidableEq

inductive Role where
  | send
  | receive
deriving DecidableEq

/-- `looping` stands before the `isActive` test of a loop, `sending` behind it, and
`resolved` between the address and the port of a datagram. -/
inductive Phase where
  | launched
  | looping
  | sending
  | resolved (host : Option String)
  | ended
deriving DecidableEq

structure Job where
  path : Path
  role : Role
  phase : Phase
  cancelled : Bool
deriving DecidableEq

/-- Where a datagram goes; `InetAddress.getByName` of null is the loopback address. -/
structure Datagram where
  path : Path
  host : Option String
  port : Int
  seen : List Announcement

structure Presenter where
  remoteLanAddr : Option String
  remotePort : Int
  localAddr : Option String
  localPort : Int
  remoteRelayAddr : Option String
  remoteRelayPort : Int
  remoteReflexiveAddr : Option String
  remoteReflexivePort : Int
  localReflexiveAddr : Option String
  localReflexivePort : Int
  jobs : List Job
  delivered : List Announcement
  sent : List Datagram
  bound : List (Path × Int)

def Presenter.init : Presenter where
  remoteLanAddr := none
  remotePort := 0
  localAddr := none
  localPort := 0
  remoteRelayAddr := none
  remoteRelayPort := 0
  remoteReflexiveAddr := none
  remoteReflexivePort := 0
  localReflexiveAddr := none
  localReflexivePort := 0
  jobs := []
  delivered := []
  sent := []
  bound := []

/-! ## Fields -/

/-- A message is delivered: the handler that `initMqtt` installs launches a coroutine. -/
def Presenter.note (s : Presenter) (a : Announcement) : Presenter :=
  { s with delivered := s.delivered ++ [a] }

/-- The handler with its coroutine run to the end before anything else happens. -/
def Presenter.handle (s : Presenter) (a : Announcement) : Presenter :=
  let s := s.note a
  if a.type = 1 then { s with remoteLanAddr := some a.address }
  else if a.type = 2 then { s with remoteRelayAddr := some a.address, remoteRelayPort := a.port }
  else if a.type = 3 then
    { s with remoteReflexiveAddr := some a.address, remoteReflexivePort := a.port }
  else if a.type = 4 then { s with remotePort := a.port }
  else s

/-- The observer of `startUClient`. -/
def Presenter.onTurnIp (s : Presenter) (a : Announcement) : Presenter :=
  if a.type = 1 then { s with localAddr := some a.address } else s

/-- The observer of `startStunClient`. -/
def Presenter.onStunIp (s : Presenter) (a : Announcement) : Presenter :=
  if a.type = 3 then { s with localReflexiveAddr := some a.address, localReflexivePort := a.port }
  else if a.type = 4 then { s with localPort := a.port }
  else s

/-! ## Jobs -/

/-- The test a job makes once, before its loop. An address never becomes null
again, so that reading it and the port at once makes no difference. -/
def Presenter.guard (s : Presenter) (path : Path) (role : Role) : Bool :=
  match role, path with
  | .send, .lan => s.remoteLanAddr.isSome && s.localPort != 0
  | .send, .relay => s.remoteRelayAddr.isSome && s.remoteRelayPort != 0
  | .send, .reflexive => s.remoteReflexiveAddr.isSome && s.remoteReflexivePort != 0
  | .receive, .lan => s.remotePort != 0
  | .receive, .relay => s.localPort != 0
  | .receive, .reflexive => s.localPort != 0

def Presenter.destinationHost (s : Presenter) : Path → Option String
  | .lan => s.remoteLanAddr
  | .relay => s.remoteRelayAddr
  | .reflexive => s.remoteRelayAddr

def Presenter.destinationPort (s : Presenter) : Path → Int
  | .lan => s.localPort
  | .relay => s.remotePort
  | .reflexive => s.remoteReflexivePort

def Presenter.listenPort (s : Presenter) : Path → Int
  | .lan => s.remotePort
  | .relay => s.localPort
  | .reflexive => s.localPort

def Presenter.transmit (s : Presenter) (path : Path) (host : Option String) : Presenter :=
  { s with sent := s.sent ++ [⟨path, host, s.destinationPort path, s.delivered⟩] }

/-- Where a job stands after one step. `ok` tells whether the socket calls of the
step succeed: only the reflexive sender catches what they throw, and only in its loop. -/
def Presenter.nextPhase (s : Presenter) (j : Job) (ok : Bool) : Phase :=
  match j.phase, j.role with
  | .launched, role => if j.cancelled || !s.guard j.path role || !ok then .ended else .looping
  | .looping, .send => if j.cancelled then .ended else .sending
  | .sending, .send =>
    if ok then .resolved (s.destinationHost j.path)
    else if j.path = .reflexive then .looping else .ended
  | .resolved _, .send => if ok || j.path = .reflexive then .looping else .ended
  | .looping, .receive => if j.cancelled || !ok then .ended else .looping
  | phase, _ => phase

def Presenter.jobEffect (s : Presenter) (j : Job) (ok : Bool) : Presenter :=
  match j.phase, j.role with
  | .resolved host, .send => if ok then s.transmit j.path host else s
  | .launched, .receive =>
    if s.nextPhase j ok = .looping then
      { s with bound := s.bound ++ [(j.path, s.listenPort j.path)] }
    else s
  | _, _ => s

def Presenter.jobStep (s : Presenter) (i : Nat) (j : Job) (ok : Bool) : Presenter :=
  { s.jobEffect j ok with jobs := s.jobs.modify i fun j => { j with phase := s.nextPhase j ok } }

def Presenter.cancelAllJob (s : Presenter) : Presenter :=
  { s with jobs := s.jobs.map fun j => { j with cancelled := true } }

/-- `startLocalUDP`, `startRelayUDP` and `startReflexiveUDP`. -/
def Presenter.startUdp (s : Presenter) (path : Path) : Presenter :=
  let s := s.cancelAllJob
  { s with jobs := s.jobs ++ [⟨path, .send, .launched, false⟩, ⟨path, .receive, .launched, false⟩] }

/-- What happens in the presenter besides the handling of messages. -/
inductive Event where
  | turnIp (a : Announcement)
  | stunIp (a : Announcement)
  | start (path : Path)
  | destroy
  | job (i : Nat) (ok : Bool)

def Presenter.step (s : Presenter) : Event → Presenter
  | .turnIp a => s.onTurnIp a
  | .stunIp a => s.onStunIp a
  | .start path => s.startUdp path
  | .destroy => s.cancelAllJob
  | .job i ok =>
    match s.jobs[i]? with
    | some j => s.jobStep i j ok
    | none => s

/-! ## What the events leave alone -/

def lastOfType (t : Int) (as : List Announcement) : Option Announcement :=
  as.reverse.find? fun a => a.type = t

@[simp] theorem lastOfType_append (t : Int) (as : List Announcement) (a : Announcement) :
    lastOfType t (as ++ [a]) = if a.type = t then some a else lastOfType t as := by
  rw [lastOfType, List.reverse_concat, List.find?_cons]
  by_cases h : a.type = t
  · simp [h]
  · simp [h, lastOfType]

/-- The fields that announcements write, and the announcements themselves. -/
structure SameFields (s s' : Presenter) : Prop where
  lanAddr : s'.remoteLanAddr = s.remoteLanAddr
  lanPort : s'.remotePort = s.remotePort
  relayAddr : s'.remoteRelayAddr = s.remoteRelayAddr
  relayPort : s'.remoteRelayPort = s.remoteRelayPort
  reflexiveAddr : s'.remoteReflexiveAddr = s.remoteReflexiveAddr
  reflexivePort : s'.remoteReflexivePort = s.remoteReflexivePort
  delivered : s'.delivered = s.delivered

theorem sameFields_jobStep (s : Presenter) (i : Nat) (j : Job) (ok : Bool) :
    SameFields s (s.jobStep i j ok) := by
  unfold Presenter.jobStep Presenter.jobEffect
  repeat' split
  all_goals exact ⟨rfl, rfl, rfl, rfl, rfl, rfl, rfl⟩

theorem sameFields_step (s : Presenter) (e : Event) : SameFields s (s.step e) := by
  cases e with
  | turnIp a =>
    simp only [Presenter.step, Presenter.onTurnIp]
    split <;> exact ⟨rfl, rfl, rfl, rfl, rfl, rfl, rfl⟩
  | stunIp a =>
    simp only [Presenter.step, Presenter.onStunIp]
    repeat' split
    all_goals exact ⟨rfl, rfl, rfl, rfl, rfl, rfl, rfl⟩
  | start path => exact ⟨rfl, rfl, rfl, rfl, rfl, rfl, rfl⟩
  | destroy => exact ⟨rfl, rfl, rfl, rfl, rfl, rfl, rfl⟩
  | job i ok =>
    simp only [Presenter.step]
    cases s.jobs[i]? with
    | none => exact ⟨rfl, rfl, rfl, rfl, rfl, rfl, rfl⟩
    | some j => exact sameFields_jobStep s i j ok

theorem onTurnIp_jobs (s : Presenter) (a : Announcement) :
    (s.onTurnIp a).jobs = s.jobs ∧ (s.onTurnIp a).sent = s.sent := by
  unfold Presenter.onTurnIp
  split <;> exact ⟨rfl, rfl⟩

theorem onStunIp_jobs (s : Presenter) (a : Announcement) :
    (s.onStunIp a).jobs = s.jobs ∧ (s.onStunIp a).sent = s.sent := by
  unfold Presenter.onStunIp
  repeat' split
  all_goals exact ⟨rfl, rfl⟩

/-- A datagram goes out in one place only, behind the address it was resolved with. -/
theorem jobStep_sent (s : Presenter) (i : Nat) (j : Job) (ok : Bool) :
    (s.jobStep i j ok).sent = s.sent ∨
      ∃ host, j.role = .send ∧ j.phase = .resolved host ∧ ok = true ∧
        (s.jobStep i j ok).sent = (s.transmit j.path host).sent := by
  unfold Presenter.jobStep Presenter.jobEffect
  split
  · rename_i host hphase hrole
    split
    · exact Or.inr ⟨host, hrole, hphase, by assumption, rfl⟩
    · exact Or.inl rfl
  · split <;> exact Or.inl rfl
  · exact Or.inl rfl

theorem mem_jobStep {s : Presenter} {i : Nat} {j j' : Job} {ok : Bool}
    (hj : s.jobs[i]? = some j) (h : j' ∈ (s.jobStep i j ok).jobs) :
    j' ∈ s.jobs ∨ j' = { j with phase := s.nextPhase j ok } := by
  obtain ⟨k, hk⟩ := List.mem_iff_getElem?.mp h
  simp only [Presenter.jobStep, List.getElem?_modify] at hk
  by_cases hik : i = k
  · subst hik
    rw [hj] at hk
    right
    simpa using hk.symm
  · left
    apply List.mem_of_getElem? (i := k)
    simpa [hik] using hk

end TurnClient
