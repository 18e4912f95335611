import TurnClient.MainPresenter

/-!
# LAN ports of two peers

Two devices run the demo application against one server. A native client thread
makes its callbacks one after the other; a callback first writes the presenter's
fields and then publishes its announcement, and any step of the same device or of
the peer may come in between. Announcements are handled in publication order, each
one by its coroutine to the end.
-/

namespace TurnClient

set_option autoImplicit false

def localIp : Int := 1
def relayIp : Int := 2
def reflexiveIp : Int := 3
def remoteIp : Int := 4

/-- The server that `startUClient` and `startStunClient` name. -/
def serverAddress : String := "47.100.81.87"
def serverPort : Int := 8100

inductive NativeClient where
  | turn
  | stun
deriving DecidableEq

/-! ## Native callbacks -/

/-- What the TURN client reports: `clnet_connect` when it returns, `clnet_allocate`
for a relayed address it reads. -/
inductive TurnCall where
  | clnetConnect (localAddr : String) (localPort : Int)
  | clnetAllocate (relayAddr : String) (relayPort : Int)

def TurnCall.callbacks : TurnCall → List Announcement
  | .clnetConnect localAddr localPort =>
    [⟨localIp, localAddr, localPort⟩, ⟨remoteIp, serverAddress, serverPort⟩]
  | .clnetAllocate relayAddr relayPort => [⟨relayIp, relayAddr, relayPort⟩]

structure StunResponse where
  reflexiveAddr : String
  reflexivePort : Int
  realLocalAddr : String
  realLocalPort : Int

def StunResponse.callbacks (r : StunResponse) : List Announcement :=
  [⟨reflexiveIp, r.reflexiveAddr, r.reflexivePort⟩, ⟨4, r.realLocalAddr, r.realLocalPort⟩,
    ⟨5, serverAddress, serverPort⟩]

/-- A native call on its thread: the callbacks to come, and the one whose fields
are written and whose announcement is not yet published. -/
structure Thread where
  client : NativeClient
  callbacks : List Announcement
  publishing : Option Announcement

def startUClient (calls : List TurnCall) : Thread :=
  ⟨.turn, calls.flatMap TurnCall.callbacks, none⟩

def startStunClient (responses : List StunResponse) : Thread :=
  ⟨.stun, responses.flatMap StunResponse.callbacks, none⟩

/-! ## Devices -/

/-- `observed` logs the callbacks whose fields are written, `published` those announced. -/
structure Device where
  presenter : Presenter
  threads : List Thread
  inbox : List Announcement
  observed : List (NativeClient × Announcement)
  published : List (NativeClient × Announcement)

def Device.init : Device := ⟨Presenter.init, [], [], [], []⟩

def NativeClient.onIp : NativeClient → Announcement → Event
  | .turn => Event.turnIp
  | .stun => Event.stunIp

def Device.start (d : Device) (t : Thread) : Device := { d with threads := d.threads ++ [t] }

def Device.observe (d : Device) (i : Nat) (t : Thread) (a : Announcement)
    (rest : List Announcement) : Device :=
  { d with
    presenter := d.presenter.step (t.client.onIp a)
    threads := d.threads.set i ⟨t.client, rest, some a⟩
    observed := d.observed ++ [(t.client, a)] }

def Device.publishIp (d : Device) (i : Nat) (t : Thread) (a : Announcement) : Device :=
  { d with
    threads := d.threads.set i ⟨t.client, t.callbacks, none⟩
    published := d.published ++ [(t.client, a)] }

def Device.receive (d : Device) (a : Announcement) : Device := { d with inbox := d.inbox ++ [a] }

def Device.handleOldest (d : Device) : Device :=
  match d.inbox with
  | a :: rest => { d with presenter := d.presenter.handle a, inbox := rest }
  | [] => d

inductive Peer where
  | first
  | second
deriving DecidableEq

def Peer.other : Peer → Peer
  | .first => .second
  | .second => .first

inductive Inner where
  | startUdp (path : Path)
  | destroy
  | job (i : Nat) (ok : Bool)

def Inner.event : Inner → Event
  | .startUdp path => .start path
  | .destroy => .destroy
  | .job i ok => .job i ok

def Device.inner (d : Device) (e : Inner) : Device :=
  { d with presenter := d.presenter.step e.event }

inductive Action where
  | startUClient (calls : List TurnCall)
  | startStunClient (responses : List StunResponse)
  | thread (i : Nat)
  | handle
  | inner (e : Inner)

def System : Type := Peer → Device

def System.init : System := fun _ => Device.init

def System.set (s : System) (p : Peer) (d : Device) : System := fun q => if q = p then d else s q

def System.thread (s : System) (p : Peer) (i : Nat) (t : Thread) : System :=
  match t.publishing, t.callbacks with
  | some a, _ => (s.set p ((s p).publishIp i t a)).set p.other ((s p.other).receive a)
  | none, a :: rest => s.set p ((s p).observe i t a rest)
  | none, [] => s

def System.step (s : System) (p : Peer) : Action → System
  | .startUClient calls => s.set p ((s p).start (TurnClient.startUClient calls))
  | .startStunClient responses => s.set p ((s p).start (TurnClient.startStunClient responses))
  | .thread i =>
    match (s p).threads[i]? with
    | some t => s.thread p i t
    | none => s
  | .handle => s.set p (s p).handleOldest
  | .inner e => s.set p ((s p).inner e)

def System.run (s : System) (actions : List (Peer × Action)) : System :=
  actions.foldl (fun s x => s.step x.1 x.2) s

/-! ## What the two logs determine -/

def portOf (a : Option Announcement) : Int := (a.map Announcement.port).getD 0

def reportsOf (client : NativeClient) (log : List (NativeClient × Announcement)) :
    List Announcement :=
  (log.filter fun r => r.1 = client).map Prod.snd

def Device.stunPort (d : Device) : Int := portOf (lastOfType 4 (reportsOf .stun d.observed))

theorem reportsOf_append (client : NativeClient) (log : List (NativeClient × Announcement))
    (r : NativeClient × Announcement) :
    reportsOf client (log ++ [r]) =
      reportsOf client log ++ if r.1 = client then [r.2] else [] := by
  by_cases h : r.1 = client <;> simp [reportsOf, List.filter_append, h]

theorem onStunIp_localPort (s : Presenter) (a : Announcement) :
    (s.onStunIp a).localPort = if a.type = 4 then a.port else s.localPort := by
  unfold Presenter.onStunIp
  split
  · rename_i h
    simp [h]
  · split <;> simp [*]

theorem step_localPort (s : Presenter) (e : Event) (he : ∀ a, e ≠ .stunIp a) :
    (s.step e).localPort = s.localPort := by
  cases e with
  | turnIp a =>
    simp only [Presenter.step, Presenter.onTurnIp]
    split <;> rfl
  | stunIp a => exact absurd rfl (he a)
  | start path => rfl
  | destroy => rfl
  | job i ok =>
    simp only [Presenter.step]
    cases s.jobs[i]? with
    | none => rfl
    | some j =>
      simp only [Presenter.jobStep, Presenter.jobEffect]
      repeat' split
      all_goals rfl

theorem handle_localPort (s : Presenter) (a : Announcement) :
    (s.handle a).localPort = s.localPort := by
  unfold Presenter.handle
  repeat' split
  all_goals rfl

theorem handle_delivered (s : Presenter) (a : Announcement) :
    (s.handle a).delivered = s.delivered ++ [a] := by
  unfold Presenter.handle
  repeat' split
  all_goals rfl

theorem handle_remotePort (s : Presenter) (a : Announcement) :
    (s.handle a).remotePort = if a.type = 4 then a.port else s.remotePort := by
  unfold Presenter.handle
  simp only
  repeat' split
  all_goals simp_all [Presenter.note]

/-- Handled one after the other, the announcements leave the port of the last one of type 4. -/
def PortTracks (s : Presenter) : Prop := s.remotePort = portOf (lastOfType 4 s.delivered)

theorem PortTracks.of_same {s s' : Presenter} (h : PortTracks s) (hs : SameFields s s') :
    PortTracks s' := by
  unfold PortTracks
  rw [hs.lanPort, hs.delivered, h]

theorem PortTracks.handle {s : Presenter} (h : PortTracks s) (a : Announcement) :
    PortTracks (s.handle a) := by
  unfold PortTracks
  rw [handle_remotePort, handle_delivered, lastOfType_append, h]
  split <;> rfl

/-- A TURN client that reports a port under number 4 reports the server's. -/
def FromServer (client : NativeClient) (a : Announcement) : Prop :=
  client = .turn → a.type = 4 → a.port = serverPort

structure Thread.Sound (t : Thread) : Prop where
  callbacks : ∀ a ∈ t.callbacks, FromServer t.client a
  publishing : ∀ a ∈ t.publishing, FromServer t.client a

theorem startUClient_sound (calls : List TurnCall) : (startUClient calls).Sound := by
  constructor
  · intro a ha _ htype
    obtain ⟨call, -, hcall⟩ := List.mem_flatMap.mp ha
    cases call with
    | clnetConnect localAddr localPort =>
      simp only [TurnCall.callbacks, List.mem_cons, List.not_mem_nil, or_false] at hcall
      rcases hcall with rfl | rfl
      · simp [localIp] at htype
      · rfl
    | clnetAllocate relayAddr relayPort =>
      rw [TurnCall.callbacks, List.mem_singleton] at hcall
      rw [hcall] at htype
      simp [relayIp] at htype
  · intro a ha
    cases ha

theorem startStunClient_sound (responses : List StunResponse) :
    (startStunClient responses).Sound := by
  constructor
  · intro a _ hturn
    cases hturn
  · intro a ha
    cases ha

structure Device.Sound (d : Device) : Prop where
  remotePort : PortTracks d.presenter
  localPort : d.presenter.localPort = d.stunPort
  threads : ∀ t ∈ d.threads, t.Sound
  published : ∀ r ∈ d.published, FromServer r.1 r.2

theorem Device.Sound.start {d : Device} (h : d.Sound) {t : Thread} (ht : t.Sound) :
    (d.start t).Sound where
  remotePort := h.remotePort
  localPort := h.localPort
  threads := by
    intro t' ht'
    rcases List.mem_append.mp ht' with hold | hnew
    · exact h.threads t' hold
    · rw [List.mem_singleton.mp hnew]
      exact ht
  published := h.published

theorem Device.stunPort_observe (d : Device) (i : Nat) (t : Thread) (a : Announcement)
    (rest : List Announcement) (h : d.presenter.localPort = d.stunPort) :
    (d.observe i t a rest).presenter.localPort = (d.observe i t a rest).stunPort := by
  simp only [Device.observe, Device.stunPort, reportsOf_append]
  cases t.client with
  | turn =>
    rw [NativeClient.onIp, step_localPort _ _ (by simp), h]
    simp [Device.stunPort]
  | stun =>
    rw [NativeClient.onIp, Presenter.step, onStunIp_localPort, h]
    simp only [Device.stunPort, if_true, lastOfType_append]
    split <;> rfl

theorem Device.Sound.set_thread {d : Device} (h : d.Sound) {i : Nat} {t' : Thread}
    (ht : t'.Sound) : ∀ t ∈ d.threads.set i t', t.Sound := by
  intro t hmem
  rcases List.mem_or_eq_of_mem_set hmem with hold | rfl
  · exact h.threads t hold
  · exact ht

theorem Device.Sound.observe {d : Device} (h : d.Sound) {i : Nat} {t : Thread} (ht : t.Sound)
    {a : Announcement} {rest : List Announcement} (hcalls : t.callbacks = a :: rest) :
    (d.observe i t a rest).Sound where
  remotePort := h.remotePort.of_same (sameFields_step _ _)
  localPort := d.stunPort_observe i t a rest h.localPort
  threads := by
    apply h.set_thread
    constructor
    · intro b hb
      exact ht.callbacks b (by rw [hcalls]; exact List.mem_cons_of_mem a hb)
    · intro b hb
      rw [← Option.some.inj hb]
      exact ht.callbacks a (by rw [hcalls]; exact List.mem_cons_self)
  published := h.published

theorem Device.Sound.publishIp {d : Device} (h : d.Sound) {i : Nat} {t : Thread} (ht : t.Sound)
    {a : Announcement} (ha : t.publishing = some a) : (d.publishIp i t a).Sound where
  remotePort := h.remotePort
  localPort := h.localPort
  threads := by
    apply h.set_thread
    constructor
    · exact ht.callbacks
    · intro b hb
      cases hb
  published := by
    intro r hr
    rcases List.mem_append.mp hr with hold | hnew
    · exact h.published r hold
    · rw [List.mem_singleton.mp hnew]
      exact ht.publishing a ha

theorem Device.Sound.receive {d : Device} (h : d.Sound) (a : Announcement) :
    (d.receive a).Sound :=
  ⟨h.remotePort, h.localPort, h.threads, h.published⟩

theorem Device.Sound.handleOldest {d : Device} (h : d.Sound) : d.handleOldest.Sound := by
  unfold Device.handleOldest
  split
  · rename_i a rest _
    have hport := handle_localPort d.presenter a
    exact ⟨h.remotePort.handle a, hport.trans h.localPort, h.threads, h.published⟩
  · exact h

theorem Device.Sound.inner {d : Device} (h : d.Sound) (e : Inner) : (d.inner e).Sound where
  remotePort := h.remotePort.of_same (sameFields_step _ _)
  localPort := by
    refine Eq.trans (step_localPort d.presenter e.event ?_) h.localPort
    cases e <;> simp [Inner.event]
  threads := h.threads
  published := h.published

/-! ## Runs of both devices -/

/-- What `p` has handled and what it has still to handle is what its peer published. -/
def System.Linked (s : System) (p : Peer) : Prop :=
  (s p.other).published.map Prod.snd = (s p).presenter.delivered ++ (s p).inbox

structure System.Sound (s : System) : Prop where
  devices : ∀ p, (s p).Sound
  linked : ∀ p, s.Linked p

@[simp] theorem System.set_self (s : System) (p : Peer) (d : Device) : s.set p d p = d :=
  if_pos rfl

@[simp] theorem System.set_of_ne (s : System) {p q : Peer} (d : Device) (h : q ≠ p) :
    s.set p d q = s q :=
  if_neg h

@[simp] theorem Peer.other_ne (p : Peer) : p.other ≠ p := by
  cases p <;> decide

@[simp] theorem Peer.other_other (p : Peer) : p.other.other = p := by
  cases p <;> rfl

theorem Peer.eq_other {p q : Peer} (h : q ≠ p) : q = p.other := by
  cases p <;> cases q <;> simp_all [Peer.other]

theorem System.Sound.devices_set {s : System} (h : s.Sound) {p : Peer} {d : Device}
    (hd : d.Sound) (q : Peer) : (s.set p d q).Sound := by
  by_cases hq : q = p
  · rw [hq, System.set_self]
    exact hd
  · rw [System.set_of_ne s d hq]
    exact h.devices q

theorem System.Sound.set {s : System} (h : s.Sound) {p : Peer} {d : Device} (hd : d.Sound)
    (hpublished : d.published = (s p).published)
    (hinbox : d.presenter.delivered ++ d.inbox = (s p).presenter.delivered ++ (s p).inbox) :
    (s.set p d).Sound := by
  refine ⟨h.devices_set hd, ?_⟩
  intro q
  have hlink := h.linked q
  unfold System.Linked at hlink ⊢
  by_cases hq : q = p
  · subst hq
    rw [System.set_of_ne s d q.other_ne, System.set_self, hinbox]
    exact hlink
  · rw [Peer.eq_other hq, Peer.other_other] at hlink ⊢
    rw [System.set_self, System.set_of_ne s d p.other_ne, hpublished]
    exact hlink

theorem Device.delivered_observe (d : Device) (i : Nat) (t : Thread) (a : Announcement)
    (rest : List Announcement) :
    (d.observe i t a rest).presenter.delivered = d.presenter.delivered :=
  (sameFields_step d.presenter (t.client.onIp a)).delivered

theorem Device.delivered_inner (d : Device) (e : Inner) :
    (d.inner e).presenter.delivered = d.presenter.delivered :=
  (sameFields_step d.presenter e.event).delivered

theorem Device.delivered_handleOldest (d : Device) :
    d.handleOldest.published = d.published ∧
      d.handleOldest.presenter.delivered ++ d.handleOldest.inbox =
        d.presenter.delivered ++ d.inbox := by
  unfold Device.handleOldest
  split
  · rename_i a rest heq
    refine ⟨rfl, ?_⟩
    rw [heq]
    show (d.presenter.handle a).delivered ++ rest = _
    rw [handle_delivered, List.append_assoc, List.singleton_append]
  · exact ⟨rfl, rfl⟩

theorem System.Sound.publish {s : System} (h : s.Sound) {p : Peer} {i : Nat} {t : Thread}
    (ht : t.Sound) {a : Announcement} (ha : t.publishing = some a) :
    ((s.set p ((s p).publishIp i t a)).set p.other ((s p.other).receive a)).Sound := by
  have hsender := (h.devices p).publishIp (i := i) ht ha
  have hreceiver := (h.devices p.other).receive a
  constructor
  · intro q
    by_cases hq : q = p.other
    · rw [hq, System.set_self]
      exact hreceiver
    · rw [System.set_of_ne _ _ hq]
      exact h.devices_set hsender q
  · intro q
    have hlink := h.linked q
    unfold System.Linked at hlink ⊢
    by_cases hq : q = p
    · subst hq
      simpa [System.set_of_ne _ _ q.other_ne.symm, Device.publishIp, Device.receive] using hlink
    · rw [Peer.eq_other hq, Peer.other_other] at hlink ⊢
      rw [System.set_self, System.set_of_ne _ _ p.other_ne.symm, System.set_self]
      simp [Device.publishIp, Device.receive, hlink]

theorem System.Sound.thread {s : System} (h : s.Sound) (p : Peer) (i : Nat) {t : Thread}
    (ht : t.Sound) : (s.thread p i t).Sound := by
  unfold System.thread
  split
  · rename_i a _ ha
    exact h.publish ht ha
  · rename_i a rest _ hcalls
    refine h.set ((h.devices p).observe ht hcalls) rfl ?_
    rw [Device.delivered_observe]
    rfl
  · exact h

theorem System.Sound.step {s : System} (h : s.Sound) (p : Peer) (action : Action) :
    (s.step p action).Sound := by
  cases action with
  | startUClient calls => exact h.set ((h.devices p).start (startUClient_sound calls)) rfl rfl
  | startStunClient responses =>
    exact h.set ((h.devices p).start (startStunClient_sound responses)) rfl rfl
  | thread i =>
    simp only [System.step]
    cases ht : (s p).threads[i]? with
    | none => exact h
    | some t => exact h.thread p i ((h.devices p).threads t (List.mem_of_getElem? ht))
  | handle =>
    obtain ⟨hpublished, hinbox⟩ := (s p).delivered_handleOldest
    exact h.set (h.devices p).handleOldest hpublished hinbox
  | inner e =>
    refine h.set ((h.devices p).inner e) rfl ?_
    rw [Device.delivered_inner]
    rfl

theorem system_sound_init : System.init.Sound := by
  constructor
  · intro p
    exact ⟨rfl, rfl, fun _ h => absurd h List.not_mem_nil,
      fun _ h => absurd h List.not_mem_nil⟩
  · intro p
    rfl

theorem system_sound_run (actions : List (Peer × Action)) {s : System} (h : s.Sound) :
    (s.run actions).Sound := by
  induction actions generalizing s with
  | nil => exact h
  | cons x xs ih => exact ih (h.step x.1 x.2)

/-! ## Agreement -/

/-- The listening port is the sender's, or still 0 while the sender has none. -/
def LanPortsAgree (listener sender : Device) : Prop :=
  listener.presenter.remotePort = sender.presenter.localPort ∨
    (lastOfType 4 (reportsOf .stun sender.observed) = none ∧ listener.presenter.remotePort = 0)

def Device.lastPortReport (d : Device) : Option (NativeClient × Announcement) :=
  d.published.reverse.find? fun r => r.2.type = 4

/-- The latest publication under number 4 is that of the latest STUN report, or carries
the same port. -/
def Device.PortCurrent (d : Device) : Prop :=
  match d.lastPortReport with
  | none => d.stunPort = 0
  | some (.turn, _) => d.stunPort = serverPort
  | some (.stun, a) => d.stunPort = a.port

theorem Device.lastOfType_published (d : Device) :
    lastOfType 4 (d.published.map Prod.snd) = d.lastPortReport.map Prod.snd := by
  unfold lastOfType Device.lastPortReport
  rw [← List.map_reverse, List.find?_map]
  rfl

theorem Device.Sound.portCurrent_iff {d : Device} (h : d.Sound) :
    portOf (lastOfType 4 (d.published.map Prod.snd)) = d.stunPort ↔ d.PortCurrent := by
  rw [d.lastOfType_published]
  unfold Device.PortCurrent
  cases hlast : d.lastPortReport with
  | none => exact eq_comm
  | some r =>
    obtain ⟨client, a⟩ := r
    have hmem : (client, a) ∈ d.published := List.mem_reverse.mp (List.mem_of_find?_eq_some hlast)
    have htype : a.type = 4 := by simpa using List.find?_some hlast
    cases client with
    | stun => exact eq_comm
    | turn =>
      have hport : a.port = serverPort := h.published _ hmem rfl htype
      rw [← hport]
      exact eq_comm

theorem Device.Sound.agree_iff {listener sender : Device} (h : sender.Sound) :
    LanPortsAgree listener sender ↔ listener.presenter.remotePort = sender.stunPort := by
  unfold LanPortsAgree
  rw [h.localPort]
  constructor
  · rintro (heq | ⟨hnone, hzero⟩)
    · exact heq
    · rw [hzero, Device.stunPort, hnone]
      rfl
  · exact Or.inl

/-- Once a peer has handled all its announcements, the LAN ports agree exactly when
the TURN client has not overtaken the STUN client under number 4. -/
theorem lan_ports_agree_iff (actions : List (Peer × Action)) (p : Peer)
    (hhandled : (System.init.run actions p).inbox = []) :
    LanPortsAgree (System.init.run actions p) (System.init.run actions p.other) ↔
      (System.init.run actions p.other).PortCurrent := by
  have hsound := system_sound_run actions system_sound_init
  have hsender := hsound.devices p.other
  have hlink := hsound.linked p
  rw [System.Linked, hhandled, List.append_nil] at hlink
  have hremote := (hsound.devices p).remotePort
  rw [PortTracks, ← hlink] at hremote
  rw [hsender.agree_iff, ← hsender.portCurrent_iff, hremote]

/-- The second peer learns its local port 40000 from the STUN client, and the first handles
what it publishes. -/
def stunOnly : List (Peer × Action) :=
  (.second, .startStunClient [⟨"198.51.100.7", 40000, "192.168.1.5", 40000⟩]) ::
    (List.replicate 6 (.second, .thread 0) ++ List.replicate 3 (.first, .handle))

theorem stunOnly_ports_agree :
    LanPortsAgree (System.init.run stunOnly .first) (System.init.run stunOnly .second) :=
  (lan_ports_agree_iff stunOnly .first rfl).mpr rfl

def stunThenTurn : List (Peer × Action) :=
  stunOnly ++ (.second, .startUClient [.clnetConnect "192.168.1.5" 41000]) ::
    (List.replicate 4 (.second, .thread 1) ++ List.replicate 2 (.first, .handle))

theorem stunThenTurn_ports :
    (System.init.run stunThenTurn .first).presenter.remotePort = 8100 ∧
      (System.init.run stunThenTurn .second).presenter.localPort = 40000 := ⟨rfl, rfl⟩

theorem turn_connect_overtakes_lan_port :
    (System.init.run stunThenTurn .first).inbox = [] ∧
      (System.init.run stunThenTurn .second).inbox = [] ∧
      ¬ LanPortsAgree (System.init.run stunThenTurn .first)
        (System.init.run stunThenTurn .second) := by
  refine ⟨rfl, rfl, ?_⟩
  obtain ⟨hremote, hlocal⟩ := stunThenTurn_ports
  unfold LanPortsAgree
  rw [hremote, hlocal]
  rintro (heq | ⟨-, hzero⟩)
  · exact absurd heq (by decide)
  · exact absurd hzero (by decide)

end TurnClient
