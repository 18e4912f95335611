import TurnClient.StepRuns

/-!
# The signalling client

`MqttWrapper.kt`, `CoturnMqttWrapper.kt` and the part of `MainPresenter.kt` that
starts them. The MQTT library works on its own threads: it establishes and
loses connections, and its callbacks may come between any two statements of
`initMqtt`. Connections are numbered in the order in which they are
established, and the state remembers for which of them `connectComplete` was
delivered and on which of them the topic was subscribed.
-/

namespace TurnClient

set_option autoImplicit false

/-- The statements of `initMqtt` after which something of interest has happened. -/
inductive InitPc where
  | start
  | connecting
  | completeHandlerSet
  | willingHandlerSet
  | returned
  | threw
deriving DecidableEq

/-- What `isConnectionNormal` and `connect` meet with. -/
inductive ConnectCall where
  | noNetwork
  | throws
  | started
deriving DecidableEq

/-- An attempt in flight is `true` once the broker has accepted it. -/
structure MqttClient where
  pc : InitPc
  connection : Option Nat
  made : Nat
  attempts : List Bool
  timers : Nat
  completed : List Nat
  subscribed : List Nat
  destroyed : Bool
deriving DecidableEq

namespace MqttClient

def init : MqttClient where
  pc := .start
  connection := none
  made := 0
  attempts := []
  timers := 0
  completed := []
  subscribed := []
  destroyed := false

def isConnected (s : MqttClient) : Bool := s.connection.isSome

/-- The delay does not matter here: a posted call is pending until it runs. -/
def reconnect (s : MqttClient) : MqttClient := { s with timers := s.timers + 1 }

def doClientConnection (s : MqttClient) (call : ConnectCall) : MqttClient :=
  if s.isConnected then s
  else
    match call with
    | .noNetwork => s.reconnect
    | .throws => s.reconnect
    | .started => { s with attempts := s.attempts ++ [false] }

/-- `connectCompleteHandler` is not null. -/
def handlerInstalled (s : MqttClient) : Bool :=
  match s.pc with
  | .completeHandlerSet => true
  | .willingHandlerSet => true
  | .returned => true
  | _ => false

/-- `init` has returned. -/
def initialised (s : MqttClient) : Bool := s.handlerInstalled || s.pc == .connecting

/-- The next statement of `initMqtt`; only `init` can throw. -/
def initMqtt (s : MqttClient) (throws : Bool) (call : ConnectCall) : MqttClient :=
  match s.pc with
  | .start =>
    if throws then { s with pc := .threw }
    else { s.doClientConnection call with pc := .connecting }
  | .connecting => { s with pc := .completeHandlerSet }
  | .completeHandlerSet => { s with pc := .willingHandlerSet }
  | .willingHandlerSet => { s with pc := .returned }
  | _ => s

def establish (s : MqttClient) : MqttClient :=
  { s with connection := some s.made, made := s.made + 1 }

def handleConnectComplete (s : MqttClient) : MqttClient :=
  if s.handlerInstalled then { s with subscribed := s.connection.toList ++ s.subscribed } else s

/-- The callback adds subscriptions and nothing else. -/
theorem handleConnectComplete_eq (s : MqttClient) :
    s.handleConnectComplete = { s with subscribed :=
      if s.handlerInstalled then s.connection.toList ++ s.subscribed else s.subscribed } := by
  unfold handleConnectComplete
  split <;> rfl

inductive Event where
  | initMqtt (throws : Bool) (call : ConnectCall)
  | accepted (i : Nat)
  | automaticReconnect
  | onSuccess (i : Nat)
  | onFailure (i : Nat)
  | connectComplete (connection : Nat)
  | disconnected
  | timer (call : ConnectCall)
  | destroy
deriving DecidableEq

/-- An attempt ends in `onSuccess` if it was accepted and in `onFailure` if not;
a connection has to be established before anything can be said about it. The loss of a
connection and the callback that reports it are one event. -/
def step (s : MqttClient) : Event → MqttClient
  | .initMqtt throws call => s.initMqtt throws call
  | .accepted i =>
    if s.attempts[i]? = some false then { s.establish with attempts := s.attempts.set i true } else s
  | .automaticReconnect => if 0 < s.made ∧ ¬s.isConnected then s.establish else s
  | .onSuccess i =>
    if s.attempts[i]? = some true then { s with attempts := s.attempts.eraseIdx i } else s
  | .onFailure i =>
    if s.attempts[i]? = some false then { s with attempts := s.attempts.eraseIdx i }.reconnect else s
  | .connectComplete c =>
    if c < s.made then { s.handleConnectComplete with completed := c :: s.completed } else s
  | .disconnected => { s with connection := none }.reconnect
  | .timer call =>
    if 0 < s.timers then { s with timers := s.timers - 1 }.doClientConnection call else s
  | .destroy => { s with connection := none, destroyed := true }

def run (events : List Event) : MqttClient := StepRuns.run step init events

/-! ## Reconnecting -/

/-- Something will make the client connected again, or it is. -/
def Alive (s : MqttClient) : Prop := s.connection.isSome ∨ false ∈ s.attempts ∨ 0 < s.timers

def KeepsTrying (s : MqttClient) : Prop := s.initialised = true → s.destroyed = false → s.Alive

theorem alive_reconnect (s : MqttClient) : s.reconnect.Alive :=
  Or.inr (Or.inr (Nat.succ_pos s.timers))

theorem alive_establish (s : MqttClient) : s.establish.Alive := Or.inl rfl

theorem alive_doClientConnection (s : MqttClient) (call : ConnectCall) :
    (s.doClientConnection call).Alive := by
  unfold doClientConnection
  split
  · rename_i hconn
    exact Or.inl hconn
  · cases call with
    | noNetwork => exact alive_reconnect s
    | throws => exact alive_reconnect s
    | started => exact Or.inr (Or.inl (by simp))

theorem mem_eraseIdx_of_true {attempts : List Bool} {i : Nat} (hi : attempts[i]? = some true)
    (h : false ∈ attempts) : false ∈ attempts.eraseIdx i := by
  rw [List.mem_eraseIdx_iff_getElem?]
  obtain ⟨j, hj⟩ := List.mem_iff_getElem?.mp h
  refine ⟨j, ?_, hj⟩
  rintro rfl
  rw [hi] at hj
  cases hj

theorem keepsTrying_initMqtt {s : MqttClient} (h : KeepsTrying s) (throws : Bool)
    (call : ConnectCall) : KeepsTrying (s.initMqtt throws call) := by
  intro hinit hdestroyed
  unfold initMqtt at hinit hdestroyed ⊢
  cases hpc : s.pc with
  | start =>
    simp only [hpc] at hinit ⊢
    cases throws with
    | true => cases hinit
    | false => exact alive_doClientConnection s call
  | connecting =>
    simp only [hpc] at hdestroyed ⊢
    exact h (by simp [initialised, hpc]) hdestroyed
  | completeHandlerSet =>
    simp only [hpc] at hdestroyed ⊢
    exact h (by simp [initialised, handlerInstalled, hpc]) hdestroyed
  | willingHandlerSet =>
    simp only [hpc] at hdestroyed ⊢
    exact h (by simp [initialised, handlerInstalled, hpc]) hdestroyed
  | returned =>
    simp only [hpc] at hinit hdestroyed ⊢
    exact h hinit hdestroyed
  | threw =>
    simp only [hpc] at hinit hdestroyed ⊢
    exact h hinit hdestroyed

/-- No step leaves a client behind that has stopped trying. -/
theorem keepsTrying_step (s : MqttClient) (e : Event) (h : KeepsTrying s) :
    KeepsTrying (s.step e) := by
  cases e with
  | initMqtt throws call => exact keepsTrying_initMqtt h throws call
  | accepted i =>
    simp only [step]
    split
    · exact fun _ _ => Or.inl rfl
    · exact h
  | automaticReconnect =>
    simp only [step]
    split
    · exact fun _ _ => alive_establish s
    · exact h
  | onSuccess i =>
    simp only [step]
    split
    · rename_i hi
      intro hinit hdestroyed
      rcases h hinit hdestroyed with hconn | hattempt | htimer
      · exact Or.inl hconn
      · exact Or.inr (Or.inl (mem_eraseIdx_of_true hi hattempt))
      · exact Or.inr (Or.inr htimer)
    · exact h
  | onFailure i =>
    simp only [step]
    split
    · exact fun _ _ => alive_reconnect _
    · exact h
  | connectComplete c =>
    simp only [step, handleConnectComplete_eq]
    split
    · exact h
    · exact h
  | disconnected => exact fun _ _ => alive_reconnect _
  | timer call =>
    simp only [step]
    split
    · exact fun _ _ => alive_doClientConnection _ call
    · exact h
  | destroy =>
    intro _ hdestroyed
    cases hdestroyed

theorem keepsTrying_run (events : List Event) : KeepsTrying (run events) :=
  StepRuns.run_inv keepsTrying_step events (by intro hinit; cases hinit)

/-- In every reachable state between `init` and `destroy` the client is connected,
an attempt is in flight or a call of `doClientConnection` is pending. -/
theorem never_gives_up (events : List Event) (hinit : (run events).initialised = true)
    (hdestroyed : (run events).destroyed = false) :
    (run events).isConnected = true ∨ (run events).attempts ≠ [] ∨ 0 < (run events).timers := by
  rcases keepsTrying_run events hinit hdestroyed with hconn | hattempt | htimer
  · exact Or.inl hconn
  · exact Or.inr (Or.inl (List.ne_nil_of_mem hattempt))
  · exact Or.inr (Or.inr htimer)

/-- No network at first, then a failure, then a connection that is lost again. -/
def unluckyStart : List Event :=
  [.initMqtt false .noNetwork, .timer .throws, .timer .started, .onFailure 0, .timer .started,
    .accepted 0, .onSuccess 0, .disconnected]

theorem unluckyStart_pending :
    (run unluckyStart).isConnected = false ∧ (run unluckyStart).attempts = [] ∧
      0 < (run unluckyStart).timers := by
  have hnever := never_gives_up unluckyStart (by decide) (by decide)
  have hconn : (run unluckyStart).isConnected = false := by decide
  have hattempts : (run unluckyStart).attempts = [] := by decide
  refine ⟨hconn, hattempts, ?_⟩
  rcases hnever with h | h | h
  · rw [hconn] at h
    cases h
  · exact absurd hattempts h
  · exact h

/-! ## Subscribing -/

/-- The library never reports a connection that is still to be made, and the
topic is subscribed on the current one if it was reported. -/
structure Listening (s : MqttClient) : Prop where
  made : ∀ c ∈ s.completed, c < s.made
  current : ∀ c, s.connection = some c → c < s.made
  subscribed : ∀ c, s.connection = some c → c ∈ s.completed → c ∈ s.subscribed

/-- The handler is in place when the current connection is reported. -/
def HandlerInTime (s : MqttClient) (e : Event) : Prop :=
  ∀ c, e = .connectComplete c → s.connection = some c → s.handlerInstalled = true

instance HandlerInTime.decidable (s : MqttClient) (e : Event) : Decidable (HandlerInTime s e) :=
  match e with
  | .connectComplete c =>
    decidable_of_iff (s.connection = some c → s.handlerInstalled = true)
      ⟨fun h _ he => by cases he; exact h, fun h => h c rfl⟩
  | .initMqtt _ _ => isTrue (by intro c he; cases he)
  | .accepted _ => isTrue (by intro c he; cases he)
  | .automaticReconnect => isTrue (by intro c he; cases he)
  | .onSuccess _ => isTrue (by intro c he; cases he)
  | .onFailure _ => isTrue (by intro c he; cases he)
  | .disconnected => isTrue (by intro c he; cases he)
  | .timer _ => isTrue (by intro c he; cases he)
  | .destroy => isTrue (by intro c he; cases he)

/-- A step that touches neither the connection nor what is known about it. -/
theorem Listening.of_same {s s' : MqttClient} (h : Listening s)
    (hconn : s'.connection = s.connection) (hmade : s'.made = s.made)
    (hcompleted : s'.completed = s.completed) (hsubscribed : s'.subscribed = s.subscribed) :
    Listening s' where
  made := by rw [hcompleted, hmade]; exact h.made
  current := by rw [hconn, hmade]; exact h.current
  subscribed := by rw [hconn, hcompleted, hsubscribed]; exact h.subscribed

/-- A new connection has not been reported. -/
theorem Listening.establish {s : MqttClient} (h : Listening s) : Listening s.establish where
  made := by
    intro c hc
    have hlt := h.made c hc
    exact Nat.lt_succ_of_lt hlt
  current := by
    intro c hc
    cases hc
    exact Nat.lt_succ_self s.made
  subscribed := by
    intro c hc hcompleted
    cases hc
    exact absurd (h.made s.made hcompleted) (Nat.lt_irrefl s.made)

theorem Listening.disconnect {s s' : MqttClient} (h : Listening s) (hconn : s'.connection = none)
    (hmade : s'.made = s.made) (hcompleted : s'.completed = s.completed) : Listening s' where
  made := by rw [hcompleted, hmade]; exact h.made
  current := by rw [hconn]; intro c hc; cases hc
  subscribed := by rw [hconn]; intro c hc; cases hc

theorem Listening.doClientConnection {s : MqttClient} (h : Listening s) (call : ConnectCall) :
    Listening (s.doClientConnection call) := by
  unfold MqttClient.doClientConnection
  split
  · exact h
  · cases call <;> exact h.of_same rfl rfl rfl rfl

theorem Listening.initMqtt {s : MqttClient} (h : Listening s) (throws : Bool)
    (call : ConnectCall) : Listening (s.initMqtt throws call) := by
  unfold MqttClient.initMqtt
  split
  · split
    · exact h.of_same rfl rfl rfl rfl
    · exact (h.doClientConnection call).of_same rfl rfl rfl rfl
  · exact h.of_same rfl rfl rfl rfl
  · exact h.of_same rfl rfl rfl rfl
  · exact h.of_same rfl rfl rfl rfl
  · exact h

theorem Listening.connectComplete {s : MqttClient} (h : Listening s) {c : Nat} (hc : c < s.made)
    (hin : s.connection = some c → s.handlerInstalled = true) :
    Listening { s.handleConnectComplete with completed := c :: s.completed } := by
  rw [handleConnectComplete_eq]
  refine ⟨List.forall_mem_cons.mpr ⟨hc, h.made⟩, h.current, ?_⟩
  intro d hd hmem
  have hd' : s.connection = some d := hd
  show d ∈ if s.handlerInstalled then s.connection.toList ++ s.subscribed else s.subscribed
  rcases List.mem_cons.mp hmem with rfl | hmem
  · rw [if_pos (hin hd'), hd']
    exact List.mem_append_left _ (by simp)
  · have hold := h.subscribed d hd' hmem
    split
    · exact List.mem_append_right _ hold
    · exact hold

theorem listening_step (s : MqttClient) (e : Event) (h : Listening s) (hok : HandlerInTime s e) :
    Listening (s.step e) := by
  cases e with
  | initMqtt throws call => exact h.initMqtt throws call
  | accepted i =>
    simp only [step]
    split
    · exact h.establish.of_same rfl rfl rfl rfl
    · exact h
  | automaticReconnect =>
    simp only [step]
    split
    · exact h.establish
    · exact h
  | onSuccess i =>
    simp only [step]
    split
    · exact h.of_same rfl rfl rfl rfl
    · exact h
  | onFailure i =>
    simp only [step]
    split
    · exact h.of_same rfl rfl rfl rfl
    · exact h
  | connectComplete c =>
    simp only [step]
    split
    · rename_i hc
      exact h.connectComplete hc (hok c rfl)
    · exact h
  | disconnected => exact h.disconnect rfl rfl rfl
  | timer call =>
    simp only [step]
    split
    · have hfired : Listening { s with timers := s.timers - 1 } := h.of_same rfl rfl rfl rfl
      exact hfired.doClientConnection call
    · exact h
  | destroy => exact h.disconnect rfl rfl rfl

/-- Once `initMqtt` has returned, a connection that was reported is subscribed to the topic. -/
def Subscribed (s : MqttClient) : Prop :=
  s.pc = .returned → ∀ c, s.connection = some c → c ∈ s.completed → c ∈ s.subscribed

theorem connected_implies_subscribed (events : List Event)
    (hok : StepRuns.Meets HandlerInTime step init events) : Subscribed (run events) := by
  have hinit : Listening init := by
    constructor
    · intro c hc
      cases hc
    · intro c hc
      cases hc
    · intro c hc
      cases hc
  intro _
  exact (StepRuns.run_inv_of_meets listening_step events hok hinit).subscribed

/-- The broker answers after `initMqtt` has returned. -/
def slowBroker : List Event :=
  [.initMqtt false .started, .initMqtt false .started, .initMqtt false .started,
    .initMqtt false .started, .accepted 0, .connectComplete 0, .onSuccess 0]

theorem slowBroker_subscribed :
    (run slowBroker).pc = .returned ∧ (run slowBroker).connection = some 0 ∧
      0 ∈ (run slowBroker).subscribed := by
  have hsub := connected_implies_subscribed slowBroker (by decide)
  exact ⟨by decide, by decide, hsub (by decide) 0 (by decide) (by decide)⟩

/-- The broker answers before the statement after `init` has run. -/
theorem fast_broker_unsubscribed : ¬∀ events : List Event, Subscribed (run events) := by
  intro hall
  have hsub := hall [.initMqtt false .started, .accepted 0, .connectComplete 0, .onSuccess 0,
    .initMqtt false .started, .initMqtt false .started, .initMqtt false .started]
  exact absurd (hsub (by decide) 0 (by decide) (by decide)) (by decide)

end MqttClient

end TurnClient
