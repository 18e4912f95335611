import TurnClient.MessageArrived

/-!
# Where the datagrams of a path go

The senders read an address and a port at different moments, while coroutines of
any number of messages write these fields one by one. A relay datagram takes its
port, and a reflexive datagram its address, from the announcements of another
type. Which destinations can come out is worked out from the announcements
delivered so far, and with it which sequences of announcements leave no other
destination than the right one.
-/

namespace TurnClient

set_option autoImplicit false

/-! ## The presenter while messages come in -/

/-- A step of a message, or one of the presenter's own. -/
inductive AppEvent where
  | race (e : RaceEvent)
  | own (e : Event)

/-- Whether the platform can send to a destination at all: `getByName`, the packet's
constructor and `send` may each refuse it. -/
abbrev Platform := Option String → Int → Bool

/-- A datagram the platform refuses is not sent, whatever else succeeds. -/
def Presenter.settle (takes : Platform) (s : Presenter) : Event → Event
  | .job i ok =>
    match s.jobs[i]? with
    | some ⟨path, .send, .resolved host, _⟩ => .job i (ok && takes host (s.destinationPort path))
    | _ => .job i ok
  | e => e

def Race.appStep (takes : Platform) (s : Race) : AppEvent → Race
  | .race e => s.step e
  | .own e => { s with fields := s.fields.step (s.fields.settle takes e) }

def app (takes : Platform) (as : List Announcement) (events : List AppEvent) : Race :=
  StepRuns.run (Race.appStep takes) (Race.start as Presenter.init) events

/-! ## Destinations -/

/-- The guard of the path's sender can have been passed. -/
def Startable (path : Path) (seen : List Announcement) : Prop :=
  match path with
  | .lan => True
  | .relay => ∃ a ∈ seen, a.type = 2 ∧ a.port ≠ 0
  | .reflexive => ∃ a ∈ seen, a.type = 3 ∧ a.port ≠ 0

/-- The hosts a sender can read: both paths read the field of the relay address. -/
def HostFrom (path : Path) (seen : List Announcement) (host : Option String) : Prop :=
  match path with
  | .lan => True
  | .relay => ∃ b ∈ seen, b.type = 2 ∧ host = some b.address
  | .reflexive => host = none ∨ ∃ b ∈ seen, b.type = 2 ∧ host = some b.address

/-- The ports a sender can read: that of the relay path is the one of the LAN. -/
def PortFrom (path : Path) (seen : List Announcement) (port : Int) : Prop :=
  match path with
  | .lan => True
  | .relay => port = 0 ∨ ∃ c ∈ seen, c.type = 4 ∧ port = c.port
  | .reflexive => ∃ c ∈ seen, c.type = 3 ∧ port = c.port

/-- The destination is the pair of one announcement, the latest of the path's own type. -/
def OwnPair (path : Path) (seen : List Announcement) (host : Option String) (port : Int) : Prop :=
  match path with
  | .lan => True
  | .relay => ∃ a, lastOfType 2 seen = some a ∧ (host, port) = (some a.address, a.port)
  | .reflexive => ∃ a, lastOfType 3 seen = some a ∧ (host, port) = (some a.address, a.port)

def Addressed (d : Datagram) : Prop := OwnPair d.path d.seen d.host d.port

def Announced (path : Path) (seen : List Announcement) : Prop :=
  match path with
  | .lan => True
  | .relay => (lastOfType 2 seen).isSome
  | .reflexive => (lastOfType 3 seen).isSome

/-- What was delivered leaves the sender no other destination that the platform takes. -/
def Forced (takes : Platform) (path : Path) (seen : List Announcement) : Prop :=
  Startable path seen → ∀ host port, HostFrom path seen host → PortFrom path seen port →
    takes host port = true → OwnPair path seen host port

/-! ## What every run keeps -/

/-- Some announcement delivered so far wrote the field last. -/
def Written (s : Presenter) (f : Field) : Prop :=
  ∃ a ∈ s.delivered, a.type = f.type ∧ s.get f = f.valueOf a

/-- What a sender behind its guard can rely on. -/
def Begun (s : Presenter) (path : Path) : Prop :=
  Startable path s.delivered ∧
    match path with
    | .lan => True
    | .relay => Written s .remoteRelayAddr
    | .reflexive => Written s .remoteReflexivePort

def JobTrack (s : Presenter) (j : Job) : Prop :=
  match j.role, j.phase with
  | .send, .looping => Begun s j.path
  | .send, .sending => Begun s j.path
  | .send, .resolved host => Begun s j.path ∧ HostFrom j.path s.delivered host
  | _, _ => True

structure SentTrack (takes : Platform) (as : List Announcement) (d : Datagram) : Prop where
  startable : Startable d.path d.seen
  host : HostFrom d.path d.seen d.host
  port : PortFrom d.path d.seen d.port
  taken : takes d.host d.port = true
  seen : d.seen <+: as

structure AppTracks (takes : Platform) (as : List Announcement) (s : Race) : Prop where
  order : s.fields.delivered ++ s.waiting = as
  writes : ∀ ws ∈ s.coroutines, ∀ w ∈ ws, w.2 ∈ s.fields.delivered ∧ w.2.type = w.1.type
  fields : ∀ f : Field, s.fields.get f = Presenter.init.get f ∨ Written s.fields f
  jobs : ∀ j ∈ s.fields.jobs, JobTrack s.fields j
  sent : ∀ d ∈ s.fields.sent, SentTrack takes as d

/-! ### Later states -/

/-- More was delivered, and a field that had been written is still a written one. -/
structure Later (s s' : Presenter) : Prop where
  delivered : s.delivered <+: s'.delivered
  written : ∀ f, Written s f → Written s' f

theorem Startable.mono {path : Path} {seen seen' : List Announcement} (h : Startable path seen)
    (hsub : seen ⊆ seen') : Startable path seen' := by
  cases path with
  | lan => trivial
  | relay =>
    obtain ⟨a, ha, hport⟩ := h
    exact ⟨a, hsub ha, hport⟩
  | reflexive =>
    obtain ⟨a, ha, hport⟩ := h
    exact ⟨a, hsub ha, hport⟩

theorem HostFrom.mono {path : Path} {seen seen' : List Announcement} {host : Option String}
    (h : HostFrom path seen host) (hsub : seen ⊆ seen') : HostFrom path seen' host := by
  cases path with
  | lan => trivial
  | relay =>
    obtain ⟨b, hb, heq⟩ := h
    exact ⟨b, hsub hb, heq⟩
  | reflexive =>
    rcases h with hnone | ⟨b, hb, heq⟩
    · exact Or.inl hnone
    · exact Or.inr ⟨b, hsub hb, heq⟩

theorem Begun.later {s s' : Presenter} {path : Path} (h : Begun s path) (hl : Later s s') :
    Begun s' path := by
  obtain ⟨hstart, hwritten⟩ := h
  refine ⟨hstart.mono hl.delivered.subset, ?_⟩
  cases path with
  | lan => trivial
  | relay => exact hl.written _ hwritten
  | reflexive => exact hl.written _ hwritten

theorem JobTrack.later {s s' : Presenter} {j : Job} (h : JobTrack s j) (hl : Later s s') :
    JobTrack s' j := by
  obtain ⟨path, role, phase, cancelled⟩ := j
  cases role with
  | receive => trivial
  | send =>
    cases phase with
    | launched => trivial
    | ended => trivial
    | looping => exact Begun.later h hl
    | sending => exact Begun.later h hl
    | resolved host => exact ⟨h.1.later hl, h.2.mono hl.delivered.subset⟩

theorem SameFields.trans {s s' s'' : Presenter} (h : SameFields s s') (h' : SameFields s' s'') :
    SameFields s s'' where
  lanAddr := h'.lanAddr.trans h.lanAddr
  lanPort := h'.lanPort.trans h.lanPort
  relayAddr := h'.relayAddr.trans h.relayAddr
  relayPort := h'.relayPort.trans h.relayPort
  reflexiveAddr := h'.reflexiveAddr.trans h.reflexiveAddr
  reflexivePort := h'.reflexivePort.trans h.reflexivePort
  delivered := h'.delivered.trans h.delivered

theorem SameFields.get {s s' : Presenter} (h : SameFields s s') (f : Field) :
    s'.get f = s.get f := by
  cases f with
  | remoteLanAddr => exact congrArg FieldValue.addr h.lanAddr
  | remotePort => exact congrArg FieldValue.port h.lanPort
  | remoteRelayAddr => exact congrArg FieldValue.addr h.relayAddr
  | remoteRelayPort => exact congrArg FieldValue.port h.relayPort
  | remoteReflexiveAddr => exact congrArg FieldValue.addr h.reflexiveAddr
  | remoteReflexivePort => exact congrArg FieldValue.port h.reflexivePort

theorem SameFields.written {s s' : Presenter} (h : SameFields s s') {f : Field}
    (hw : Written s f) : Written s' f := by
  obtain ⟨a, ha, htype, hget⟩ := hw
  refine ⟨a, ?_, htype, ?_⟩
  · rw [h.delivered]
    exact ha
  · rw [h.get f]
    exact hget

theorem SameFields.later {s s' : Presenter} (h : SameFields s s') : Later s s' where
  delivered := ⟨[], by rw [h.delivered, List.append_nil]⟩
  written := fun _ hw => h.written hw

theorem later_note (s : Presenter) (a : Announcement) : Later s (s.note a) := by
  refine ⟨⟨[a], rfl⟩, ?_⟩
  intro f hw
  obtain ⟨b, hb, htype, hget⟩ := hw
  exact ⟨b, List.mem_append_left _ hb, htype, by rw [s.get_note a f]; exact hget⟩

@[simp] theorem Presenter.write_delivered (s : Presenter) (w : FieldWrite) :
    (s.write w).delivered = s.delivered := by
  obtain ⟨f, a⟩ := w
  cases f <;> rfl

@[simp] theorem Presenter.write_jobs (s : Presenter) (w : FieldWrite) :
    (s.write w).jobs = s.jobs := by
  obtain ⟨f, a⟩ := w
  cases f <;> rfl

@[simp] theorem Presenter.write_sent (s : Presenter) (w : FieldWrite) :
    (s.write w).sent = s.sent := by
  obtain ⟨f, a⟩ := w
  cases f <;> rfl

theorem written_write {s : Presenter} {w : FieldWrite} (hmem : w.2 ∈ s.delivered)
    (htype : w.2.type = w.1.type) : Written (s.write w) w.1 := by
  refine ⟨w.2, ?_, htype, ?_⟩
  · rw [Presenter.write_delivered]
    exact hmem
  · rw [Presenter.write, Presenter.get_put, if_pos rfl]

theorem later_write {s : Presenter} {w : FieldWrite} (hmem : w.2 ∈ s.delivered)
    (htype : w.2.type = w.1.type) : Later s (s.write w) := by
  refine ⟨⟨[], by rw [Presenter.write_delivered, List.append_nil]⟩, ?_⟩
  intro f hw
  by_cases hfield : w.1 = f
  · rw [← hfield]
    exact written_write hmem htype
  · obtain ⟨a, ha, hatype, hget⟩ := hw
    refine ⟨a, ?_, hatype, ?_⟩
    · rw [Presenter.write_delivered]
      exact ha
    · rw [Presenter.write, Presenter.get_put, if_neg hfield]
      exact hget

variable {takes : Platform} {as : List Announcement} {s : Race}

theorem AppTracks.presenter_jobs (h : AppTracks takes as s) {p : Presenter} (hl : Later s.fields p)
    (hjobs : p.jobs = s.fields.jobs) : ∀ j ∈ p.jobs, JobTrack p j := by
  intro j hj
  rw [hjobs] at hj
  exact (h.jobs j hj).later hl

theorem AppTracks.fields_later (h : AppTracks takes as s) {p : Presenter} (hl : Later s.fields p)
    {f : Field} (hf : p.get f = s.fields.get f ∨ Written p f) :
    p.get f = Presenter.init.get f ∨ Written p f := by
  rcases hf with hsame | hw
  · rcases h.fields f with hinit | hwritten
    · exact Or.inl (hsame.trans hinit)
    · exact Or.inr (hl.written f hwritten)
  · exact Or.inr hw

/-! ### Steps of the messages -/

theorem AppTracks.deliver (h : AppTracks takes as s) : AppTracks takes as (s.step .deliver) := by
  simp only [Race.step]
  cases hwait : s.waiting with
  | nil => exact h
  | cons a rest =>
    have hl := later_note s.fields a
    refine ⟨?_, ?_, ?_, h.presenter_jobs hl rfl, h.sent⟩
    · have horder := h.order
      rw [hwait] at horder
      rw [← horder]
      exact List.append_assoc s.fields.delivered [a] rest
    · intro ws hws w hw
      rcases List.mem_append.mp hws with hold | hnew
      · obtain ⟨hmem, htype⟩ := h.writes ws hold w hw
        exact ⟨hl.delivered.subset hmem, htype⟩
      · rw [List.mem_singleton.mp hnew] at hw
        obtain ⟨heq, htype⟩ := (mem_fieldWrites_iff w.1 a w.2).mp hw
        rw [heq]
        exact ⟨List.mem_append_right _ (List.mem_singleton_self a), htype⟩
    · intro f
      exact h.fields_later hl (Or.inl (s.fields.get_note a f))

theorem AppTracks.advance (h : AppTracks takes as s) (i : Nat) :
    AppTracks takes as (s.step (.advance i)) := by
  simp only [Race.step]
  split
  · rename_i w ws hi
    have hmem : w :: ws ∈ s.coroutines := List.mem_of_getElem? hi
    obtain ⟨hw, htype⟩ := h.writes _ hmem w List.mem_cons_self
    have hl := later_write hw htype
    refine ⟨?_, ?_, ?_, h.presenter_jobs hl (s.fields.write_jobs w), ?_⟩
    · simp only [Presenter.write_delivered]
      exact h.order
    · intro vs hvs v hv
      simp only [Presenter.write_delivered]
      rcases List.mem_or_eq_of_mem_set hvs with hold | rfl
      · exact h.writes vs hold v hv
      · exact h.writes _ hmem v (List.mem_cons_of_mem w hv)
    · intro f
      by_cases hfield : w.1 = f
      · rw [← hfield]
        exact h.fields_later hl (Or.inr (written_write hw htype))
      · refine h.fields_later hl (Or.inl ?_)
        rw [Presenter.write, Presenter.get_put, if_neg hfield]
    · simp only [Presenter.write_sent]
      exact h.sent
  · exact h

/-! ### Steps of the presenter -/

/-- Behind the guard some announcement of the path's type has been written. -/
theorem AppTracks.begun_of_guard (h : AppTracks takes as s) {path : Path}
    (hguard : s.fields.guard path .send = true) : Begun s.fields path := by
  cases path with
  | lan => exact ⟨trivial, trivial⟩
  | relay =>
    simp only [Presenter.guard, Bool.and_eq_true, bne_iff_ne] at hguard
    obtain ⟨haddr, hport⟩ := hguard
    constructor
    · rcases h.fields .remoteRelayPort with hinit | ⟨a, ha, htype, hget⟩
      · exact absurd (FieldValue.port.inj hinit) hport
      · refine ⟨a, ha, htype, ?_⟩
        rw [← FieldValue.port.inj hget]
        exact hport
    · rcases h.fields .remoteRelayAddr with hinit | hwritten
      · have hnone : s.fields.remoteRelayAddr = none := FieldValue.addr.inj hinit
        rw [hnone] at haddr
        cases haddr
      · exact hwritten
  | reflexive =>
    simp only [Presenter.guard, Bool.and_eq_true, bne_iff_ne] at hguard
    rcases h.fields .remoteReflexivePort with hinit | hwritten
    · exact absurd (FieldValue.port.inj hinit) hguard.2
    · refine ⟨?_, hwritten⟩
      obtain ⟨a, ha, htype, hget⟩ := hwritten
      refine ⟨a, ha, htype, ?_⟩
      rw [← FieldValue.port.inj hget]
      exact hguard.2

theorem AppTracks.hostFrom (h : AppTracks takes as s) {path : Path} (hbegun : Begun s.fields path) :
    HostFrom path s.fields.delivered (s.fields.destinationHost path) := by
  cases path with
  | lan => trivial
  | relay =>
    obtain ⟨b, hb, htype, hget⟩ := hbegun.2
    exact ⟨b, hb, htype, FieldValue.addr.inj hget⟩
  | reflexive =>
    rcases h.fields .remoteRelayAddr with hinit | ⟨b, hb, htype, hget⟩
    · exact Or.inl (FieldValue.addr.inj hinit)
    · exact Or.inr ⟨b, hb, htype, FieldValue.addr.inj hget⟩

theorem AppTracks.portFrom (h : AppTracks takes as s) {path : Path} (hbegun : Begun s.fields path) :
    PortFrom path s.fields.delivered (s.fields.destinationPort path) := by
  cases path with
  | lan => trivial
  | relay =>
    rcases h.fields .remotePort with hinit | ⟨c, hc, htype, hget⟩
    · exact Or.inl (FieldValue.port.inj hinit)
    · exact Or.inr ⟨c, hc, htype, FieldValue.port.inj hget⟩
  | reflexive =>
    obtain ⟨c, hc, htype, hget⟩ := hbegun.2
    exact ⟨c, hc, htype, FieldValue.port.inj hget⟩

/-- One step of a job leaves it where it can rely on what the next step needs. -/
theorem AppTracks.nextPhase (h : AppTracks takes as s) {j : Job} (hj : j ∈ s.fields.jobs)
    (ok : Bool) : JobTrack s.fields { j with phase := s.fields.nextPhase j ok } := by
  have htrack := h.jobs j hj
  obtain ⟨path, role, phase, cancelled⟩ := j
  cases role with
  | receive => trivial
  | send =>
    cases phase with
    | launched =>
      simp only [Presenter.nextPhase]
      split
      · trivial
      · rename_i hpassed
        simp only [Bool.or_eq_true, Bool.not_eq_true', not_or, Bool.not_eq_false] at hpassed
        exact h.begun_of_guard hpassed.1.2
    | looping =>
      simp only [Presenter.nextPhase]
      split
      · trivial
      · exact htrack
    | sending =>
      simp only [Presenter.nextPhase]
      split
      · exact ⟨htrack, h.hostFrom htrack⟩
      · split
        · exact htrack
        · trivial
    | resolved host =>
      simp only [Presenter.nextPhase]
      split
      · exact htrack.1
      · trivial
    | ended => trivial

theorem AppTracks.order_prefix (h : AppTracks takes as s) : s.fields.delivered <+: as :=
  ⟨s.waiting, h.order⟩

/-- A step of the presenter keeps track if the jobs and the datagrams do. -/
theorem AppTracks.of_same (h : AppTracks takes as s) {p : Presenter} (hs : SameFields s.fields p)
    (hjobs : ∀ j ∈ p.jobs, JobTrack s.fields j) (hsent : ∀ d ∈ p.sent, SentTrack takes as d) :
    AppTracks takes as { s with fields := p } where
  order := by
    simp only [hs.delivered]
    exact h.order
  writes := by
    simp only [hs.delivered]
    exact h.writes
  fields := fun f => h.fields_later hs.later (Or.inl (hs.get f))
  jobs := fun j hj => (hjobs j hj).later hs.later
  sent := hsent

theorem AppTracks.jobStep (h : AppTracks takes as s) {i : Nat} {j : Job}
    (hj : s.fields.jobs[i]? = some j) {ok : Bool}
    (htaken : ∀ host, j.role = .send → j.phase = .resolved host → ok = true →
      takes host (s.fields.destinationPort j.path) = true) :
    AppTracks takes as { s with fields := s.fields.jobStep i j ok } := by
  have hmem := List.mem_of_getElem? hj
  refine h.of_same (sameFields_jobStep _ i j ok) ?_ ?_
  · intro j' hj'
    rcases mem_jobStep hj hj' with hold | rfl
    · exact h.jobs j' hold
    · exact h.nextPhase hmem ok
  · intro d hd
    rcases jobStep_sent s.fields i j ok with heq | ⟨host, hrole, hphase, hok, heq⟩
    · rw [heq] at hd
      exact h.sent d hd
    · rw [heq] at hd
      rcases List.mem_append.mp hd with hold | hnew
      · exact h.sent d hold
      · rw [List.mem_singleton.mp hnew]
        have htrack := h.jobs j hmem
        simp only [JobTrack, hrole, hphase] at htrack
        exact ⟨htrack.1.1, htrack.2, h.portFrom htrack.1, htaken host hrole hphase hok,
          h.order_prefix⟩

theorem settle_job (takes : Platform) (s : Presenter) (i : Nat) (ok : Bool) {j : Job}
    (hj : s.jobs[i]? = some j) : ∃ ok', s.settle takes (.job i ok) = .job i ok' ∧
      ∀ host, j.role = .send → j.phase = .resolved host → ok' = true →
        takes host (s.destinationPort j.path) = true := by
  obtain ⟨path, role, phase, cancelled⟩ := j
  simp only [Presenter.settle, hj]
  split
  · rename_i heq
    cases heq
    refine ⟨_, rfl, ?_⟩
    intro host _ hphase hok
    cases hphase
    exact (Bool.and_eq_true_iff.mp hok).2
  · rename_i hother
    refine ⟨ok, rfl, ?_⟩
    intro host hrole hphase
    cases hrole
    cases hphase
    exact absurd rfl (hother path host cancelled)

theorem AppTracks.own (h : AppTracks takes as s) (e : Event) :
    AppTracks takes as (s.appStep takes (.own e)) := by
  cases e with
  | turnIp a =>
    obtain ⟨hjobs, hsent⟩ := onTurnIp_jobs s.fields a
    refine h.of_same (sameFields_step s.fields (.turnIp a)) ?_ ?_
    · show ∀ j ∈ (s.fields.onTurnIp a).jobs, JobTrack s.fields j
      rw [hjobs]
      exact h.jobs
    · show ∀ d ∈ (s.fields.onTurnIp a).sent, SentTrack takes as d
      rw [hsent]
      exact h.sent
  | stunIp a =>
    obtain ⟨hjobs, hsent⟩ := onStunIp_jobs s.fields a
    refine h.of_same (sameFields_step s.fields (.stunIp a)) ?_ ?_
    · show ∀ j ∈ (s.fields.onStunIp a).jobs, JobTrack s.fields j
      rw [hjobs]
      exact h.jobs
    · show ∀ d ∈ (s.fields.onStunIp a).sent, SentTrack takes as d
      rw [hsent]
      exact h.sent
  | start path =>
    refine h.of_same (sameFields_step s.fields (.start path)) ?_ h.sent
    intro j hj
    rcases List.mem_append.mp hj with hold | hnew
    · obtain ⟨j₀, hmem, rfl⟩ := List.mem_map.mp hold
      exact h.jobs j₀ hmem
    · simp only [List.mem_cons, List.not_mem_nil, or_false] at hnew
      rcases hnew with rfl | rfl <;> trivial
  | destroy =>
    refine h.of_same (sameFields_step s.fields .destroy) ?_ h.sent
    intro j hj
    obtain ⟨j₀, hmem, rfl⟩ := List.mem_map.mp hj
    exact h.jobs j₀ hmem
  | job i ok =>
    simp only [Race.appStep]
    cases hj : s.fields.jobs[i]? with
    | none =>
      have hidle : s.fields.step (s.fields.settle takes (.job i ok)) = s.fields := by
        simp only [Presenter.settle, Presenter.step, hj]
      rw [hidle]
      exact h
    | some j =>
      obtain ⟨ok', hsettled, htaken⟩ := settle_job takes s.fields i ok hj
      rw [hsettled]
      simp only [Presenter.step, hj]
      exact h.jobStep hj htaken

theorem AppTracks.step (h : AppTracks takes as s) (e : AppEvent) :
    AppTracks takes as (s.appStep takes e) := by
  cases e with
  | race e =>
    cases e with
    | deliver => exact h.deliver
    | advance i => exact h.advance i
  | own e => exact h.own e

theorem appTracks_start (takes : Platform) (as : List Announcement) :
    AppTracks takes as (Race.start as Presenter.init) where
  order := rfl
  writes := fun _ hws => absurd hws List.not_mem_nil
  fields := fun _ => Or.inl rfl
  jobs := fun _ hj => absurd hj List.not_mem_nil
  sent := fun _ hd => absurd hd List.not_mem_nil

theorem appTracks_app (takes : Platform) (as : List Announcement) (events : List AppEvent) :
    AppTracks takes as (app takes as events) :=
  StepRuns.run_inv (fun _ e h => h.step e) events (appTracks_start takes as)

theorem Startable.announced {path : Path} {seen : List Announcement} (h : Startable path seen) :
    Announced path seen := by
  cases path with
  | lan => trivial
  | relay =>
    obtain ⟨a, ha, htype, _⟩ := h
    obtain ⟨b, hb⟩ := lastOfType_isSome ha htype
    simp [Announced, hb]
  | reflexive =>
    obtain ⟨a, ha, htype, _⟩ := h
    obtain ⟨b, hb⟩ := lastOfType_isSome ha htype
    simp [Announced, hb]

/-! ## Every destination comes up -/

/-- The announcement is still to be written, or it was and its fields hold it. -/
def Ready (s : Race) (i : Nat) (a : Announcement) : Prop :=
  s.coroutines[i]? = some (fieldWrites a) ∨
    (s.coroutines[i]? = some [] ∧ ∀ f : Field, f.type = a.type → s.fields.get f = f.valueOf a)

/-- What draining a coroutine leaves: the values of its announcement, all else as it was. -/
structure Drained (s s' : Race) (i : Nat) (a : Announcement) : Prop where
  empty : s'.coroutines[i]? = some []
  others : ∀ j, j ≠ i → s'.coroutines[j]? = s.coroutines[j]?
  values : ∀ f : Field, f.type = a.type → s'.fields.get f = f.valueOf a
  fields : ∀ f : Field, f.type ≠ a.type → s'.fields.get f = s.fields.get f
  jobs : s'.fields.jobs = s.fields.jobs
  delivered : s'.fields.delivered = s.fields.delivered

theorem writeAll_frame (ws : List FieldWrite) (s : Presenter) :
    (∀ f : Field, (∀ w ∈ ws, w.1 ≠ f) → (s.writeAll ws).get f = s.get f) ∧
      (s.writeAll ws).jobs = s.jobs ∧ (s.writeAll ws).delivered = s.delivered := by
  induction ws generalizing s with
  | nil => exact ⟨fun _ _ => rfl, rfl, rfl⟩
  | cons w ws ih =>
    obtain ⟨hget, hjobs, hdelivered⟩ := ih (s.write w)
    refine ⟨?_, hjobs.trans (s.write_jobs w), hdelivered.trans (s.write_delivered w)⟩
    intro f hf
    have hne : w.1 ≠ f := hf w List.mem_cons_self
    refine (hget f fun v hv => hf v (List.mem_cons_of_mem w hv)).trans ?_
    rw [Presenter.write, Presenter.get_put, if_neg hne]

/-- A coroutine leaves the fields of the other types alone. -/
theorem fieldWrites_ne {a : Announcement} {f : Field} (hne : f.type ≠ a.type) :
    ∀ w ∈ fieldWrites a, w.1 ≠ f := by
  intro w hw heq
  obtain ⟨_, htype⟩ := (mem_fieldWrites_iff w.1 a w.2).mp hw
  exact hne (by rw [← heq, htype])

theorem Ready.drained {i : Nat} {a : Announcement} (h : Ready s i a) :
    Drained s (StepRuns.run Race.step s (drain i)) i a := by
  rcases h with hpending | ⟨hempty, hvalues⟩
  · obtain ⟨hget, hjobs, hdelivered⟩ := writeAll_frame (fieldWrites a) s.fields
    have hlt : i < s.coroutines.length := (List.getElem?_eq_some_iff.mp hpending).1
    rw [drain, run_advance 2 (fieldWrites_length a) hpending]
    exact {
      empty := by simp [hlt]
      others := fun j hj => by simp [Ne.symm hj]
      values := fun f htype => get_writeAll_fieldWrites s.fields htype.symm
      fields := fun f hne => hget f (fieldWrites_ne hne)
      jobs := hjobs
      delivered := hdelivered }
  · have hidle : s.step (.advance i) = s := by simp only [Race.step, hempty]
    have hrun : StepRuns.run Race.step s (drain i) = s := by
      simp only [drain, List.replicate, StepRuns.run_cons, StepRuns.run_nil, hidle]
    rw [hrun]
    exact ⟨hempty, fun _ _ => rfl, hvalues, fun _ _ => rfl, rfl, rfl⟩

theorem Drained.ready {s' : Race} {i : Nat} {a : Announcement} (h : Drained s s' i a) :
    Ready s' i a := Or.inr ⟨h.empty, h.values⟩

/-- A coroutine of another type is not touched. -/
theorem Drained.ready_other {s' : Race} {i k : Nat} {a b : Announcement} (h : Drained s s' i a)
    (hne : k ≠ i) (htype : b.type ≠ a.type) (hb : Ready s k b) : Ready s' k b := by
  rcases hb with hpending | ⟨hempty, hvalues⟩
  · exact Or.inl ((h.others k hne).trans hpending)
  · refine Or.inr ⟨(h.others k hne).trans hempty, ?_⟩
    intro f hf
    rw [h.fields f (by rw [hf]; exact htype)]
    exact hvalues f hf

theorem foldl_note (as : List Announcement) (s : Presenter) :
    as.foldl Presenter.note s = { s with delivered := s.delivered ++ as } := by
  induction as generalizing s with
  | nil => simp
  | cons a as ih =>
    rw [List.foldl_cons, ih, Presenter.note]
    simp

theorem run_race (takes : Platform) (s : Race) (es : List RaceEvent) :
    StepRuns.run (Race.appStep takes) s (es.map .race) = StepRuns.run Race.step s es := by
  induction es generalizing s with
  | nil => rfl
  | cons e es ih => exact ih (s.step e)

/-- Every announcement of a type can still decide what the fields of this type hold. -/
def ReadyType (s : Race) (seen : List Announcement) (t : Int) : Prop :=
  ∀ (i : Nat) (a : Announcement), seen[i]? = some a → a.type = t → Ready s i a

/-- The fields of one type are brought to what a run wants there, the others stay. -/
theorem reach_value {seen : List Announcement} {f : Field} (hready : ReadyType s seen f.type)
    {v : FieldValue}
    (hv : v = s.fields.get f ∨ ∃ b ∈ seen, b.type = f.type ∧ v = f.valueOf b) :
    ∃ es : List RaceEvent, (StepRuns.run Race.step s es).fields.get f = v ∧
      (∀ g : Field, g.type ≠ f.type →
        (StepRuns.run Race.step s es).fields.get g = s.fields.get g) ∧
      (∀ t, t ≠ f.type → ReadyType s seen t → ReadyType (StepRuns.run Race.step s es) seen t) ∧
      (StepRuns.run Race.step s es).fields.jobs = s.fields.jobs ∧
      (StepRuns.run Race.step s es).fields.delivered = s.fields.delivered := by
  rcases hv with hsame | ⟨b, hb, htype, hvalue⟩
  · exact ⟨[], hsame.symm, fun _ _ => rfl, fun _ _ h => h, rfl, rfl⟩
  · obtain ⟨i, hi⟩ := List.mem_iff_getElem?.mp hb
    have hdrained := (hready i b hi htype).drained
    refine ⟨drain i, ?_, ?_, ?_, hdrained.jobs, hdrained.delivered⟩
    · rw [hdrained.values f htype.symm, hvalue]
    · intro g hg
      exact hdrained.fields g (by rw [htype]; exact hg)
    · intro t ht hother k a hk hatype
      have hne : k ≠ i := by
        intro hki
        rw [hki, hi] at hk
        exact ht (hatype.symm.trans ((congrArg Announcement.type (Option.some.inj hk)).symm.trans
          htype))
      exact hdrained.ready_other hne (by rw [hatype, htype]; exact ht) (hother k a hk hatype)

/-! ### The steps of a sender -/

def HasSender (s : Race) (path : Path) (phase : Phase) : Prop :=
  ∃ rest, s.fields.jobs = ⟨path, .send, phase, false⟩ :: rest

theorem hasSender_start (takes : Platform) (path : Path) (hjobs : s.fields.jobs = []) :
    HasSender (s.appStep takes (.own (.start path))) path .launched := by
  refine ⟨[⟨path, .receive, .launched, false⟩], ?_⟩
  simp [Race.appStep, Presenter.settle, Presenter.step, Presenter.startUdp, Presenter.cancelAllJob,
    hjobs]

theorem HasSender.next {path : Path} {phase : Phase} (h : HasSender s path phase)
    (takes : Platform) (hphase : ∀ host, phase ≠ .resolved host) :
    HasSender (s.appStep takes (.own (.job 0 true))) path
      (s.fields.nextPhase ⟨path, .send, phase, false⟩ true) := by
  obtain ⟨rest, hjobs⟩ := h
  refine ⟨rest, ?_⟩
  have hsettle : s.fields.settle takes (.job 0 true) = .job 0 true := by
    cases phase with
    | resolved host => exact absurd rfl (hphase host)
    | _ => simp [Presenter.settle, hjobs]
  simp only [Race.appStep, hsettle, Presenter.step, hjobs, List.getElem?_cons_zero,
    Presenter.jobStep, List.modify_zero_cons]

theorem HasSender.sends {path : Path} {host : Option String}
    (h : HasSender s path (.resolved host))
    (htakes : takes host (s.fields.destinationPort path) = true) :
    ⟨path, host, s.fields.destinationPort path, s.fields.delivered⟩ ∈
      (s.appStep takes (.own (.job 0 true))).fields.sent := by
  obtain ⟨rest, hjobs⟩ := h
  simp [Race.appStep, Presenter.settle, Presenter.step, Presenter.jobStep, Presenter.jobEffect,
    Presenter.transmit, hjobs, htakes]

/-- The type of the announcements that open the guard of a path's sender. -/
def Path.type : Path → Int
  | .lan => 1
  | .relay => 2
  | .reflexive => 3

theorem guard_of_same {path : Path} (hpath : path ≠ .lan) {p p' : Presenter}
    (hs : SameFields p p') : p'.guard path .send = p.guard path .send := by
  cases path with
  | lan => exact absurd rfl hpath
  | relay => simp only [Presenter.guard, hs.relayAddr, hs.relayPort]
  | reflexive => simp only [Presenter.guard, hs.reflexiveAddr, hs.reflexivePort]

theorem guard_of_values {path : Path} (hpath : path ≠ .lan) {p : Presenter} {a : Announcement}
    (hport : a.port ≠ 0) (hvalues : ∀ f : Field, f.type = path.type → p.get f = f.valueOf a) :
    p.guard path .send = true := by
  cases path with
  | lan => exact absurd rfl hpath
  | relay =>
    have haddr : p.remoteRelayAddr = some a.address :=
      FieldValue.addr.inj (hvalues .remoteRelayAddr rfl)
    have hvalue : p.remoteRelayPort = a.port := FieldValue.port.inj (hvalues .remoteRelayPort rfl)
    simp [Presenter.guard, haddr, hvalue, hport]
  | reflexive =>
    have haddr : p.remoteReflexiveAddr = some a.address :=
      FieldValue.addr.inj (hvalues .remoteReflexiveAddr rfl)
    have hvalue : p.remoteReflexivePort = a.port :=
      FieldValue.port.inj (hvalues .remoteReflexivePort rfl)
    simp [Presenter.guard, haddr, hvalue, hport]

theorem Startable.exists_own {path : Path} (hpath : path ≠ .lan) {seen : List Announcement}
    (h : Startable path seen) : ∃ a ∈ seen, a.type = path.type ∧ a.port ≠ 0 := by
  cases path with
  | lan => exact absurd rfl hpath
  | relay => exact h
  | reflexive => exact h

theorem Race.sameFields_own (takes : Platform) (s : Race) (e : Event) :
    SameFields s.fields (s.appStep takes (.own e)).fields :=
  sameFields_step s.fields (s.fields.settle takes e)

/-- A sender whose guard is open gets to the place where it reads its destination. -/
theorem exists_sending (takes : Platform) {path : Path} (hpath : path ≠ .lan)
    (hjobs : s.fields.jobs = []) (hguard : s.fields.guard path .send = true) :
    ∃ es : List AppEvent, HasSender (StepRuns.run (Race.appStep takes) s es) path .sending ∧
      SameFields s.fields (StepRuns.run (Race.appStep takes) s es).fields ∧
      (StepRuns.run (Race.appStep takes) s es).coroutines = s.coroutines := by
  let started := s.appStep takes (.own (.start path))
  let looping := started.appStep takes (.own (.job 0 true))
  let sending := looping.appStep takes (.own (.job 0 true))
  have hstarted : SameFields s.fields started.fields := s.sameFields_own takes _
  have hlooping : SameFields started.fields looping.fields := started.sameFields_own takes _
  have hsending : SameFields looping.fields sending.fields := looping.sameFields_own takes _
  refine ⟨[.own (.start path), .own (.job 0 true), .own (.job 0 true)], ?_,
    (hstarted.trans hlooping).trans hsending, rfl⟩
  have hfirst : HasSender looping path .looping := by
    have hnext := (hasSender_start takes path hjobs).next takes (fun _ h => nomatch h)
    have hopen : started.fields.guard path .send = true :=
      (guard_of_same hpath hstarted).trans hguard
    simpa [Presenter.nextPhase, hopen, started, looping] using hnext
  have hsecond := hfirst.next takes (fun _ h => nomatch h)
  simpa [Presenter.nextPhase] using hsecond

theorem Ready.of_same {s' : Race} {i : Nat} {a : Announcement} (h : Ready s i a)
    (hs : SameFields s.fields s'.fields) (hcoroutines : s'.coroutines = s.coroutines) :
    Ready s' i a := by
  unfold Ready
  rw [hcoroutines]
  rcases h with hpending | ⟨hempty, hvalues⟩
  · exact Or.inl hpending
  · exact Or.inr ⟨hempty, fun f hf => (hs.get f).trans (hvalues f hf)⟩

/-- Once the announcements are delivered, a sender whose guard one of them opens waits
to read its destination while the coroutines can still finish in any order. -/
theorem exists_sending_ready (takes : Platform) {path : Path} (hpath : path ≠ .lan)
    {seen : List Announcement} (hseen : seen <+: as) (hstart : Startable path seen) :
    ∃ events : List AppEvent, HasSender (app takes as events) path .sending ∧
      (app takes as events).fields.delivered = seen ∧
      (∀ t, ReadyType (app takes as events) seen t) ∧
      ∀ f : Field, f.type ≠ path.type →
        (app takes as events).fields.get f = Presenter.init.get f := by
  obtain ⟨rest, rfl⟩ := hseen
  obtain ⟨k, hk, htype, hport⟩ := hstart.exists_own hpath
  obtain ⟨i, hi⟩ := List.mem_iff_getElem?.mp hk
  let delivered : Race :=
    ⟨rest, seen.map fieldWrites, { Presenter.init with delivered := seen }⟩
  have hdelivered : StepRuns.run Race.step (Race.start (seen ++ rest) Presenter.init)
      (List.replicate seen.length .deliver) = delivered := by
    rw [Race.start, run_deliver, foldl_note]
    rfl
  have hpending : ∀ (j : Nat) (a : Announcement), seen[j]? = some a →
      delivered.coroutines[j]? = some (fieldWrites a) := by
    intro j a hj
    simp [delivered, hj]
  have hdrained : Drained delivered (StepRuns.run Race.step delivered (drain i)) i k :=
    Ready.drained (Or.inl (hpending i k hi))
  generalize hwon : StepRuns.run Race.step delivered (drain i) = won at hdrained
  have hready : ∀ (j : Nat) (a : Announcement), seen[j]? = some a → Ready won j a := by
    intro j a hj
    by_cases hji : j = i
    · rw [hji] at hj ⊢
      obtain rfl : k = a := Option.some.inj (hi.symm.trans hj)
      exact hdrained.ready
    · exact Or.inl ((hdrained.others j hji).trans (hpending j a hj))
  have hguard : won.fields.guard path .send = true := by
    apply guard_of_values hpath hport
    intro f hf
    exact hdrained.values f (hf.trans htype.symm)
  have hinit : ∀ f : Field, f.type ≠ path.type → won.fields.get f = Presenter.init.get f := by
    intro f hf
    rw [hdrained.fields f (by rw [htype]; exact hf)]
    cases f <;> rfl
  obtain ⟨es, hsender, hsame, hcoroutines⟩ :=
    exists_sending takes hpath (hdrained.jobs.trans rfl) hguard
  let events := (List.replicate seen.length RaceEvent.deliver ++ drain i).map AppEvent.race ++ es
  have hrun : app takes (seen ++ rest) events = StepRuns.run (Race.appStep takes) won es := by
    rw [app, StepRuns.run_append, run_race, StepRuns.run_append, hdelivered, hwon]
  refine ⟨events, ?_, ?_, ?_, ?_⟩
  · rw [hrun]
    exact hsender
  · rw [hrun, hsame.delivered, hdrained.delivered]
  · intro t j a hj _
    rw [hrun]
    exact (hready j a hj).of_same hsame hcoroutines
  · intro f hf
    rw [hrun, hsame.get f]
    exact hinit f hf

theorem HasSender.sends_to {path : Path} (hpath : path ≠ .lan) (h : HasSender s path .sending)
    (htakes : takes (s.fields.destinationHost path) (s.fields.destinationPort path) = true) :
    ⟨path, s.fields.destinationHost path, s.fields.destinationPort path, s.fields.delivered⟩ ∈
      (StepRuns.run (Race.appStep takes) s
        [.own (.job 0 true), .own (.job 0 true)]).fields.sent := by
  let resolved := s.appStep takes (.own (.job 0 true))
  have hsame : SameFields s.fields resolved.fields := s.sameFields_own takes _
  have hresolved : HasSender resolved path (.resolved (s.fields.destinationHost path)) := by
    have hnext := h.next takes (fun _ h => nomatch h)
    simpa [Presenter.nextPhase] using hnext
  have hport : resolved.fields.destinationPort path = s.fields.destinationPort path := by
    cases path with
    | lan => exact absurd rfl hpath
    | relay => exact hsame.lanPort
    | reflexive => exact hsame.reflexivePort
  have hsent := hresolved.sends (by rw [hport]; exact htakes)
  rw [hport, hsame.delivered] at hsent
  exact hsent

/-- The destination a sender would read now. -/
def Aimed (s : Presenter) (path : Path) (host : Option String) (port : Int) : Prop :=
  s.destinationHost path = host ∧ s.destinationPort path = port

/-- The coroutines can be left to bring any announced address and port together. -/
theorem reach_destination {path : Path} (hpath : path ≠ .lan) {seen : List Announcement}
    {host : Option String} {port : Int} (hready : ∀ t, ReadyType s seen t)
    (hinit : ∀ f : Field, f.type ≠ path.type → s.fields.get f = Presenter.init.get f)
    (hhost : HostFrom path seen host) (hport : PortFrom path seen port) :
    ∃ es : List RaceEvent, Aimed (StepRuns.run Race.step s es).fields path host port ∧
      (StepRuns.run Race.step s es).fields.jobs = s.fields.jobs ∧
      (StepRuns.run Race.step s es).fields.delivered = s.fields.delivered := by
  cases path with
  | lan => exact absurd rfl hpath
  | relay =>
    obtain ⟨b, hb, hbtype, hbhost⟩ := hhost
    have haddr := reach_value (f := .remoteRelayAddr) (hready 2)
      (Or.inr ⟨b, hb, hbtype, congrArg FieldValue.addr hbhost⟩)
    obtain ⟨es, hget, hothers, hstill, hjobs, hdelivered⟩ := haddr
    have hvalue : FieldValue.port port =
          (StepRuns.run Race.step s es).fields.get .remotePort ∨
        ∃ c ∈ seen, c.type = 4 ∧ FieldValue.port port = .port c.port := by
      rcases hport with hzero | ⟨c, hc, hctype, hcport⟩
      · left
        rw [hothers .remotePort (by decide), hinit .remotePort (by decide), hzero]
        rfl
      · exact Or.inr ⟨c, hc, hctype, congrArg FieldValue.port hcport⟩
    have hsecond := reach_value (f := .remotePort) (hstill 4 (by decide) (hready 4)) hvalue
    obtain ⟨es', hget', hothers', _, hjobs', hdelivered'⟩ := hsecond
    refine ⟨es ++ es', ?_⟩
    rw [StepRuns.run_append]
    refine ⟨⟨?_, FieldValue.port.inj hget'⟩, hjobs'.trans hjobs, hdelivered'.trans hdelivered⟩
    exact FieldValue.addr.inj ((hothers' .remoteRelayAddr (by decide)).trans hget)
  | reflexive =>
    obtain ⟨c, hc, hctype, hcport⟩ := hport
    have hfirst := reach_value (f := .remoteReflexivePort) (hready 3)
      (Or.inr ⟨c, hc, hctype, congrArg FieldValue.port hcport⟩)
    obtain ⟨es, hget, hothers, hstill, hjobs, hdelivered⟩ := hfirst
    have hvalue : FieldValue.addr host =
          (StepRuns.run Race.step s es).fields.get .remoteRelayAddr ∨
        ∃ b ∈ seen, b.type = 2 ∧ FieldValue.addr host = .addr (some b.address) := by
      rcases hhost with hnone | ⟨b, hb, hbtype, hbhost⟩
      · left
        rw [hothers .remoteRelayAddr (by decide), hinit .remoteRelayAddr (by decide), hnone]
        rfl
      · exact Or.inr ⟨b, hb, hbtype, congrArg FieldValue.addr hbhost⟩
    have hsecond := reach_value (f := .remoteRelayAddr) (hstill 2 (by decide) (hready 2)) hvalue
    obtain ⟨es', hget', hothers', _, hjobs', hdelivered'⟩ := hsecond
    refine ⟨es ++ es', ?_⟩
    rw [StepRuns.run_append]
    refine ⟨⟨FieldValue.addr.inj hget', ?_⟩, hjobs'.trans hjobs, hdelivered'.trans hdelivered⟩
    exact FieldValue.port.inj ((hothers' .remoteReflexivePort (by decide)).trans hget)

theorem exists_datagram (takes : Platform) {path : Path} (hpath : path ≠ .lan)
    {seen : List Announcement} (hseen : seen <+: as) (hstart : Startable path seen)
    {host : Option String} {port : Int} (hhost : HostFrom path seen host)
    (hport : PortFrom path seen port) (htakes : takes host port = true) :
    ∃ events : List AppEvent, ⟨path, host, port, seen⟩ ∈ (app takes as events).fields.sent := by
  obtain ⟨events, hsender, hdelivered, hready, hinit⟩ :=
    exists_sending_ready takes hpath hseen hstart
  obtain ⟨es, ⟨rfl, rfl⟩, hjobs, hkept⟩ := reach_destination hpath hready hinit hhost hport
  have haimed : HasSender (StepRuns.run Race.step (app takes as events) es) path .sending := by
    obtain ⟨rest, hrest⟩ := hsender
    exact ⟨rest, hjobs.trans hrest⟩
  have hsent := haimed.sends_to hpath htakes
  rw [hkept, hdelivered] at hsent
  refine ⟨events ++ (es.map .race ++ [.own (.job 0 true), .own (.job 0 true)]), ?_⟩
  rw [app, StepRuns.run_append, StepRuns.run_append, run_race]
  exact hsent

/-! ## Which sequences keep every datagram right -/

/-- Relay and reflexive datagrams go out only after an announcement of their own type.
They all go where the latest one says, whatever the order of the coroutines, exactly
when at no time what was delivered leaves another destination open. -/
theorem datagram_addressed_iff (takes : Platform) (as : List Announcement) :
    (∀ events, ∀ d ∈ (app takes as events).fields.sent, Announced d.path d.seen) ∧
    ((∀ events, ∀ d ∈ (app takes as events).fields.sent, Addressed d) ↔
      ∀ path seen, seen <+: as → Forced takes path seen) := by
  refine ⟨?_, ?_, ?_⟩
  · intro events d hd
    exact ((appTracks_app takes as events).sent d hd).startable.announced
  · intro hall path seen hseen hstart host port hhost hport htakes
    by_cases hpath : path = .lan
    · rw [hpath]
      trivial
    · obtain ⟨events, hmem⟩ := exists_datagram takes hpath hseen hstart hhost hport htakes
      exact hall events _ hmem
  · intro hforced events d hd
    have htrack := (appTracks_app takes as events).sent d hd
    exact hforced d.path d.seen htrack.seen htrack.startable d.host d.port htrack.host htrack.port
      htrack.taken

/-- UDP has no port 0, and a packet no port above 65535. -/
def udpTakes : Platform := fun _ port => decide (0 < port ∧ port ≤ 65535)

/-- One relayed address whose port is also the peer's LAN port leaves no choice. -/
theorem matching_ports_addressed :
    ∀ events, ∀ d ∈ (app udpTakes [⟨2, "203.0.113.9", 40000⟩, ⟨4, "192.168.1.5", 40000⟩]
      events).fields.sent, Addressed d := by
  refine (datagram_addressed_iff udpTakes _).2.mpr ?_
  intro path seen hseen hstart host port hhost hport htakes
  have honly : ∀ a ∈ seen, a = ⟨2, "203.0.113.9", 40000⟩ ∨ a = ⟨4, "192.168.1.5", 40000⟩ := by
    intro a ha
    simpa using hseen.subset ha
  cases path with
  | lan => trivial
  | relay =>
    obtain ⟨b, hb, hbtype, rfl⟩ := hhost
    obtain ⟨a, ha⟩ := lastOfType_isSome hb hbtype
    obtain ⟨hamem, hatype⟩ := lastOfType_mem ha
    obtain rfl : b = ⟨2, "203.0.113.9", 40000⟩ := (honly b hb).resolve_right (by
      intro hb
      simp [hb] at hbtype)
    obtain rfl : a = ⟨2, "203.0.113.9", 40000⟩ := (honly a hamem).resolve_right (by
      intro ha
      simp [ha] at hatype)
    refine ⟨_, ha, ?_⟩
    rcases hport with rfl | ⟨c, hc, hctype, rfl⟩
    · simp [udpTakes] at htakes
    · rcases honly c hc with rfl | rfl
      · simp at hctype
      · rfl
  | reflexive =>
    obtain ⟨a, ha, htype, _⟩ := hstart
    rcases honly a ha with rfl | rfl <;> simp at htype

/-- A relayed address, then the peer's LAN port, each coroutine run to its end, then the
relay sender. -/
def relayThenLanPort : List AppEvent :=
  [.race .deliver, .race (.advance 0), .race (.advance 0), .race .deliver, .race (.advance 1),
    .own (.start .relay), .own (.job 0 true), .own (.job 0 true), .own (.job 0 true),
    .own (.job 0 true)]

theorem relayThenLanPort_sent :
    (app udpTakes [⟨2, "47.100.81.87", 49152⟩, ⟨4, "192.168.1.5", 40000⟩]
      relayThenLanPort).fields.sent = [⟨.relay, some "47.100.81.87", 40000,
        [⟨2, "47.100.81.87", 49152⟩, ⟨4, "192.168.1.5", 40000⟩]⟩] := rfl

theorem relay_datagram_mixes_announcements :
    ¬ ∀ (as : List Announcement) (events : List AppEvent),
      ∀ d ∈ (app udpTakes as events).fields.sent, Addressed d := by
  intro h
  have hrun := h [⟨2, "47.100.81.87", 49152⟩, ⟨4, "192.168.1.5", 40000⟩] relayThenLanPort
  rw [relayThenLanPort_sent] at hrun
  obtain ⟨a, ha, hpair⟩ := hrun _ (List.mem_singleton_self _)
  have ha' : a = ⟨2, "47.100.81.87", 49152⟩ := (Option.some.inj ha).symm
  simp [ha'] at hpair

end TurnClient
