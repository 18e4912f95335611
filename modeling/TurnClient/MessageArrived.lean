import TurnClient.MainPresenter
import TurnClient.StepRuns
import TurnClient.ByteMemory

/-!
# From an MQTT message to the fields of the presenter

`messageArrived` parses the payload inside a `try`, on the library's thread;
the fields are read and written in a coroutine that the handler launches and
nobody waits for. Two consequences are worked out here: which malformed
payloads end in an exception that nothing catches, and which sequences of
announcements leave the values of the last one whatever the coroutines do.
-/

namespace TurnClient

open ByteMemory
set_option autoImplicit false

/-! ## The fields -/

/-- The fields of the presenter that announcements write. -/
inductive Field where
  | remoteLanAddr
  | remotePort
  | remoteRelayAddr
  | remoteRelayPort
  | remoteReflexiveAddr
  | remoteReflexivePort
deriving DecidableEq

inductive FieldValue where
  | addr (a : Option String)
  | port (p : Int)
deriving DecidableEq

def Presenter.get (s : Presenter) : Field → FieldValue
  | .remoteLanAddr => .addr s.remoteLanAddr
  | .remotePort => .port s.remotePort
  | .remoteRelayAddr => .addr s.remoteRelayAddr
  | .remoteRelayPort => .port s.remoteRelayPort
  | .remoteReflexiveAddr => .addr s.remoteReflexiveAddr
  | .remoteReflexivePort => .port s.remoteReflexivePort

/-- What an announcement has for a field. -/
def Field.valueOf (f : Field) (a : Announcement) : FieldValue :=
  match f with
  | .remoteLanAddr => .addr (some a.address)
  | .remotePort => .port a.port
  | .remoteRelayAddr => .addr (some a.address)
  | .remoteRelayPort => .port a.port
  | .remoteReflexiveAddr => .addr (some a.address)
  | .remoteReflexivePort => .port a.port

/-- One assignment of the handler. -/
def Presenter.put (s : Presenter) (f : Field) (a : Announcement) : Presenter :=
  match f with
  | .remoteLanAddr => { s with remoteLanAddr := some a.address }
  | .remotePort => { s with remotePort := a.port }
  | .remoteRelayAddr => { s with remoteRelayAddr := some a.address }
  | .remoteRelayPort => { s with remoteRelayPort := a.port }
  | .remoteReflexiveAddr => { s with remoteReflexiveAddr := some a.address }
  | .remoteReflexivePort => { s with remoteReflexivePort := a.port }

/-- The announcements that write a field. -/
def Field.type : Field → Int
  | .remoteLanAddr => 1
  | .remotePort => 4
  | .remoteRelayAddr => 2
  | .remoteRelayPort => 2
  | .remoteReflexiveAddr => 3
  | .remoteReflexivePort => 3

/-- The branches of the handler, in the order of its assignments. -/
def fieldsOf (type : Int) : List Field :=
  if type = 1 then [.remoteLanAddr]
  else if type = 2 then [.remoteRelayAddr, .remoteRelayPort]
  else if type = 3 then [.remoteReflexiveAddr, .remoteReflexivePort]
  else if type = 4 then [.remotePort]
  else []

abbrev FieldWrite := Field × Announcement

def fieldWrites (a : Announcement) : List FieldWrite := (fieldsOf a.type).map fun f => (f, a)

def Presenter.write (s : Presenter) (w : FieldWrite) : Presenter := s.put w.1 w.2

def Presenter.writeAll (s : Presenter) (ws : List FieldWrite) : Presenter :=
  ws.foldl Presenter.write s

theorem Presenter.get_put (s : Presenter) (f g : Field) (a : Announcement) :
    (s.put f a).get g = if f = g then g.valueOf a else s.get g := by
  cases f <;> cases g <;> rfl

theorem mem_fieldsOf_iff (f : Field) (type : Int) : f ∈ fieldsOf type ↔ type = f.type := by
  unfold fieldsOf
  cases f <;> simp only [Field.type] <;> repeat' split
  all_goals simp_all

theorem mem_fieldWrites_iff (f : Field) (a b : Announcement) :
    (f, b) ∈ fieldWrites a ↔ b = a ∧ a.type = f.type := by
  simp only [fieldWrites, List.mem_map, Prod.mk.injEq]
  constructor
  · rintro ⟨g, hg, rfl, rfl⟩
    exact ⟨rfl, (mem_fieldsOf_iff g a.type).mp hg⟩
  · rintro ⟨rfl, htype⟩
    exact ⟨f, (mem_fieldsOf_iff f b.type).mpr htype, rfl, rfl⟩

theorem Presenter.get_note (s : Presenter) (a : Announcement) (g : Field) :
    (s.note a).get g = s.get g := by
  cases g <;> rfl

/-- A coroutine that is not overtaken does what the handler was modelled to do at once. -/
theorem writeAll_fieldWrites (s : Presenter) (a : Announcement) :
    (s.note a).writeAll (fieldWrites a) = s.handle a := by
  unfold Presenter.handle fieldWrites fieldsOf
  repeat' split
  all_goals rfl

/-! ## Handling one message -/

/-- A value of a JSON object, by what the accessors make of it. -/
inductive JsonValue where
  | number (asInt : Int) (text : String)
  | string (text : String)
  | other (text : String)

abbrev JsonObject := String → Option JsonValue

/-- The two places where `org.json` may throw on its own: `parse` stands for
`JSONObject(String(payload))`, `coerce` for the conversion of a text to an int. -/
structure JsonLibrary where
  parse : List Byte → Option JsonObject
  coerce : String → Option Int

/-- `getInt`; `none` is a JSONException. -/
def JsonLibrary.getInt (lib : JsonLibrary) (o : JsonObject) (name : String) : Option Int :=
  match o name with
  | some (.number n _) => some n
  | some (.string text) => lib.coerce text
  | _ => none

def getString (o : JsonObject) (name : String) : Option String :=
  match o name with
  | some (.number _ text) => some text
  | some (.string text) => some text
  | some (.other text) => some text
  | none => none

inductive MessageThread where
  | callback
  | coroutine
deriving DecidableEq

/-- What the synchronous part comes to: an exception that leaves `messageArrived`,
nothing to do, or a launched coroutine. -/
inductive Arrival where
  | threw
  | ignored
  | launched (msg : JsonObject)

def handleArrivedMessage (lib : JsonLibrary) (handlerSet : Bool) (payload : Option (List Byte)) :
    Arrival :=
  match payload with
  | none => .threw
  | some payload =>
    if handlerSet then
      match lib.parse payload with
      | none => .ignored
      | some msg => .launched msg
    else .ignored

def messageArrived (lib : JsonLibrary) (handlerSet : Bool) (topic : Option String)
    (payload : Option (List Byte)) : Arrival :=
  match topic with
  | none => .threw
  | some _ => handleArrivedMessage lib handlerSet payload

/-- The reads at the top of the coroutine, all of them before the first write. -/
def readAnnouncement (lib : JsonLibrary) (msg : JsonObject) : Option Announcement := do
  let type ← lib.getInt msg "type"
  let address ← getString msg "address"
  let port ← lib.getInt msg "port"
  some ⟨type, address, port⟩

/-- Where an exception of this message is left uncaught, and the fields after it. -/
def handling (lib : JsonLibrary) (handlerSet : Bool) (topic : Option String)
    (payload : Option (List Byte)) (s : Presenter) : Option MessageThread × Presenter :=
  match messageArrived lib handlerSet topic payload with
  | .threw => (some .callback, s)
  | .ignored => (none, s)
  | .launched msg =>
    match readAnnouncement lib msg with
    | none => (some .coroutine, s)
    | some a => (none, s.writeAll (fieldWrites a))

def CarriesAll (lib : JsonLibrary) (payload : Option (List Byte)) : Prop :=
  ∃ bytes msg, payload = some bytes ∧ lib.parse bytes = some msg ∧
    (msg "type").isSome ∧ (msg "address").isSome ∧ (msg "port").isSome

structure Harmless (lib : JsonLibrary) (handlerSet : Bool) (topic : Option String)
    (payload : Option (List Byte)) (s : Presenter) : Prop where
  contained : (handling lib handlerSet topic payload s).1 = none
  unchanged : ¬CarriesAll lib payload →
    ∀ f : Field, (handling lib handlerSet topic payload s).2.get f = s.get f

/-- The fields the coroutine reads are there and of a kind it can read. -/
structure Readable (lib : JsonLibrary) (msg : JsonObject) : Prop where
  type : (lib.getInt msg "type").isSome
  address : (msg "address").isSome
  port : (lib.getInt msg "port").isSome

theorem getString_isSome_iff (o : JsonObject) (name : String) :
    (getString o name).isSome ↔ (o name).isSome := by
  unfold getString
  split <;> simp [*]

theorem isSome_of_getInt {lib : JsonLibrary} {o : JsonObject} {name : String}
    (h : (lib.getInt o name).isSome) : (o name).isSome := by
  unfold JsonLibrary.getInt at h
  split at h
  · simp [*]
  · simp [*]
  · cases h

theorem readAnnouncement_isSome_iff (lib : JsonLibrary) (msg : JsonObject) :
    (readAnnouncement lib msg).isSome ↔ Readable lib msg := by
  have hstring := getString_isSome_iff msg "address"
  unfold readAnnouncement
  cases htype : lib.getInt msg "type" with
  | none =>
    refine iff_of_false (by simp) fun h => ?_
    have hsome := h.type
    simp [htype] at hsome
  | some type =>
    cases haddress : getString msg "address" with
    | none =>
      rw [haddress] at hstring
      refine iff_of_false (by simp) fun h => ?_
      have hsome := hstring.mpr h.address
      simp at hsome
    | some address =>
      rw [haddress] at hstring
      cases hport : lib.getInt msg "port" with
      | none =>
        refine iff_of_false (by simp) fun h => ?_
        have hsome := h.port
        simp [hport] at hsome
      | some port =>
        refine iff_of_true (by simp) ⟨by simp [htype], hstring.mp (by simp), by simp [hport]⟩

theorem messageArrived_launched {lib : JsonLibrary} {handlerSet : Bool} {topic : Option String}
    {payload : Option (List Byte)} {msg : JsonObject}
    (h : messageArrived lib handlerSet topic payload = .launched msg) :
    ∃ bytes, payload = some bytes ∧ lib.parse bytes = some msg := by
  unfold messageArrived at h
  split at h
  · cases h
  unfold handleArrivedMessage at h
  split at h
  · cases h
  · rename_i bytes
    split at h
    · split at h
      · cases h
      · rename_i hparse
        cases h
        exact ⟨bytes, rfl, hparse⟩
    · cases h

/-- Nothing is written for a message the coroutine cannot read to the end. -/
theorem handling_unchanged (lib : JsonLibrary) (handlerSet : Bool) (topic : Option String)
    (payload : Option (List Byte)) (s : Presenter) (h : ¬CarriesAll lib payload) :
    (handling lib handlerSet topic payload s).2 = s := by
  unfold handling
  split
  · rfl
  · rfl
  · rename_i msg hlaunched
    obtain ⟨bytes, hpayload, hparse⟩ := messageArrived_launched hlaunched
    split
    · rfl
    · rename_i a hread
      have hreadable := (readAnnouncement_isSome_iff lib msg).mp (by rw [hread]; rfl)
      exact absurd ⟨bytes, msg, hpayload, hparse, isSome_of_getInt hreadable.type,
        hreadable.address, isSome_of_getInt hreadable.port⟩ h

theorem message_harmless_iff (lib : JsonLibrary) (handlerSet : Bool) (topic : Option String)
    (payload : Option (List Byte)) (s : Presenter) :
    Harmless lib handlerSet topic payload s ↔
      topic.isSome ∧ ∃ bytes, payload = some bytes ∧
        (handlerSet = true → ∀ msg, lib.parse bytes = some msg → Readable lib msg) := by
  have hcontained : (handling lib handlerSet topic payload s).1 = none ↔
      topic.isSome ∧ ∃ bytes, payload = some bytes ∧
        (handlerSet = true → ∀ msg, lib.parse bytes = some msg → Readable lib msg) := by
    cases topic with
    | none => simp [handling, messageArrived]
    | some topic =>
      cases payload with
      | none => simp [handling, messageArrived, handleArrivedMessage]
      | some bytes =>
        cases handlerSet with
        | false => simp [handling, messageArrived, handleArrivedMessage]
        | true =>
          cases hparse : lib.parse bytes with
          | none => simp [handling, messageArrived, handleArrivedMessage, hparse]
          | some msg =>
            have hread := readAnnouncement_isSome_iff lib msg
            simp only [handling, messageArrived, handleArrivedMessage, hparse, if_true,
              Option.isSome_some, Option.some.injEq, exists_eq_left', true_and, forall_eq',
              forall_const]
            rw [← hread]
            cases readAnnouncement lib msg <;> simp
  constructor
  · intro h
    exact hcontained.mp h.contained
  · intro h
    refine ⟨hcontained.mpr h, fun hcarries f => ?_⟩
    rw [handling_unchanged lib handlerSet topic payload s hcarries]

/-- The library as far as the empty object goes. -/
def emptyObjectLibrary : JsonLibrary where
  parse bytes := if bytes = ascii "\x7b\x7d" then some fun _ => none else none
  coerce _ := none

/-- The last will of the client itself ends the process of whoever receives it. -/
theorem last_will_not_harmless :
    ¬∀ (lib : JsonLibrary) (handlerSet : Bool) (topic : String) (payload : List Byte)
      (s : Presenter), Harmless lib handlerSet (some topic) (some payload) s := by
  intro hall
  have hwill := (hall emptyObjectLibrary true "v1/1" (ascii "\x7b\x7d") Presenter.init).contained
  have hcoroutine : (handling emptyObjectLibrary true (some "v1/1") (some (ascii "\x7b\x7d"))
    Presenter.init).1 = some .coroutine := by decide
  rw [hcoroutine] at hwill
  cases hwill

/-! ## Coroutines that overtake each other -/

/-- The messages still to be delivered, what each launched coroutine has still to
write, in the order of delivery, and the fields. -/
structure Race where
  waiting : List Announcement
  coroutines : List (List FieldWrite)
  fields : Presenter

inductive RaceEvent where
  | deliver
  | advance (i : Nat)

def Race.step (s : Race) : RaceEvent → Race
  | .deliver =>
    match s.waiting with
    | [] => s
    | a :: rest => ⟨rest, s.coroutines ++ [fieldWrites a], s.fields.note a⟩
  | .advance i =>
    match s.coroutines[i]? with
    | some (w :: ws) => { s with coroutines := s.coroutines.set i ws, fields := s.fields.write w }
    | _ => s

def Race.start (as : List Announcement) (fields : Presenter) : Race := ⟨as, [], fields⟩

def Race.Finished (s : Race) : Prop := s.waiting = [] ∧ ∀ ws ∈ s.coroutines, ws = []

def race (as : List Announcement) (fields : Presenter) (events : List RaceEvent) : Race :=
  StepRuns.run Race.step (Race.start as fields) events

/-- Every field holds what the last announcement of its type has for it. -/
structure LastWins (as : List Announcement) (s : Presenter) : Prop where
  lan : ∀ a, lastOfType 1 as = some a → s.remoteLanAddr = some a.address
  relay : ∀ a, lastOfType 2 as = some a →
    (s.remoteRelayAddr, s.remoteRelayPort) = (some a.address, a.port)
  reflexive : ∀ a, lastOfType 3 as = some a →
    (s.remoteReflexiveAddr, s.remoteReflexivePort) = (some a.address, a.port)
  port : ∀ a, lastOfType 4 as = some a → s.remotePort = a.port

/-- Two announcements of one type never differ in a field of that type. -/
def Agreeing (as : List Announcement) : Prop :=
  ∀ (f : Field), ∀ a ∈ as, ∀ b ∈ as, a.type = f.type → b.type = f.type → f.valueOf a = f.valueOf b

theorem lastWins_iff (as : List Announcement) (s : Presenter) :
    LastWins as s ↔ ∀ (f : Field) (a : Announcement), lastOfType f.type as = some a →
      s.get f = f.valueOf a := by
  constructor
  · intro h f a ha
    cases f with
    | remoteLanAddr => exact congrArg FieldValue.addr (h.lan a ha)
    | remotePort => exact congrArg FieldValue.port (h.port a ha)
    | remoteRelayAddr => exact congrArg FieldValue.addr (Prod.mk.inj (h.relay a ha)).1
    | remoteRelayPort => exact congrArg FieldValue.port (Prod.mk.inj (h.relay a ha)).2
    | remoteReflexiveAddr => exact congrArg FieldValue.addr (Prod.mk.inj (h.reflexive a ha)).1
    | remoteReflexivePort => exact congrArg FieldValue.port (Prod.mk.inj (h.reflexive a ha)).2
  · intro h
    constructor
    · intro a ha
      exact FieldValue.addr.inj (h .remoteLanAddr a ha)
    · intro a ha
      exact Prod.ext (FieldValue.addr.inj (h .remoteRelayAddr a ha))
        (FieldValue.port.inj (h .remoteRelayPort a ha))
    · intro a ha
      exact Prod.ext (FieldValue.addr.inj (h .remoteReflexiveAddr a ha))
        (FieldValue.port.inj (h .remoteReflexivePort a ha))
    · intro a ha
      exact FieldValue.port.inj (h .remotePort a ha)

theorem lastOfType_mem {t : Int} {as : List Announcement} {a : Announcement}
    (h : lastOfType t as = some a) : a ∈ as ∧ a.type = t := by
  unfold lastOfType at h
  exact ⟨List.mem_reverse.mp (List.mem_of_find?_eq_some h), by simpa using List.find?_some h⟩

theorem lastOfType_isSome {t : Int} {as : List Announcement} {a : Announcement} (ha : a ∈ as)
    (htype : a.type = t) : ∃ b, lastOfType t as = some b := by
  unfold lastOfType
  apply Option.isSome_iff_exists.mp
  rw [List.find?_isSome]
  exact ⟨a, List.mem_reverse.mpr ha, by simpa using htype⟩

/-! ### Whatever is written comes from an announcement of the type -/

structure RaceTracks (as : List Announcement) (s : Race) : Prop where
  waiting : ∀ a ∈ s.waiting, a ∈ as
  writes : ∀ ws ∈ s.coroutines, ∀ w ∈ ws, w.2 ∈ as ∧ w.2.type = w.1.type
  fields : ∀ f : Field,
    (∃ a ∈ as, a.type = f.type ∧ s.fields.get f = f.valueOf a) ∨
    ∀ a ∈ as, a.type = f.type → a ∈ s.waiting ∨ ∃ ws ∈ s.coroutines, (f, a) ∈ ws

theorem raceTracks_start (as : List Announcement) (s₀ : Presenter) :
    RaceTracks as (Race.start as s₀) := by
  refine ⟨fun a ha => ha, ?_, fun f => Or.inr fun a ha _ => Or.inl ha⟩
  intro ws hws
  cases hws

theorem RaceTracks.deliver {as : List Announcement} {s : Race} (h : RaceTracks as s) :
    RaceTracks as (s.step .deliver) := by
  simp only [Race.step]
  cases hwait : s.waiting with
  | nil => exact h
  | cons a rest =>
    have hmem := h.waiting
    rw [hwait] at hmem
    refine ⟨fun b hb => hmem b (List.mem_cons_of_mem a hb), ?_, ?_⟩
    · intro ws hws w hw
      rcases List.mem_append.mp hws with hold | hnew
      · exact h.writes ws hold w hw
      · rw [List.mem_singleton.mp hnew] at hw
        obtain ⟨heq, htype⟩ := (mem_fieldWrites_iff w.1 a w.2).mp hw
        rw [heq]
        exact ⟨hmem a List.mem_cons_self, htype⟩
    · intro f
      simp only [Presenter.get_note]
      rcases h.fields f with hdone | hleft
      · exact Or.inl hdone
      · refine Or.inr fun b hb htype => ?_
        rcases hleft b hb htype with hb | ⟨ws, hws, hmemws⟩
        · rw [hwait] at hb
          rcases List.mem_cons.mp hb with rfl | hb
          · right
            exact ⟨fieldWrites b, List.mem_append_right _ (List.mem_singleton_self _),
              (mem_fieldWrites_iff f b b).mpr ⟨rfl, htype⟩⟩
          · exact Or.inl hb
        · exact Or.inr ⟨ws, List.mem_append_left _ hws, hmemws⟩

theorem RaceTracks.advance {as : List Announcement} {s : Race} (h : RaceTracks as s) (i : Nat) :
    RaceTracks as (s.step (.advance i)) := by
  simp only [Race.step]
  split
  · rename_i w ws hi
    have hmem : w :: ws ∈ s.coroutines := List.mem_of_getElem? hi
    obtain ⟨hw, htype⟩ := h.writes _ hmem w List.mem_cons_self
    refine ⟨h.waiting, ?_, ?_⟩
    · intro vs hvs v hv
      rcases List.mem_or_eq_of_mem_set hvs with hold | rfl
      · exact h.writes vs hold v hv
      · exact h.writes _ hmem v (List.mem_cons_of_mem w hv)
    · intro f
      by_cases hfield : w.1 = f
      · left
        refine ⟨w.2, hw, hfield ▸ htype, ?_⟩
        rw [Presenter.write, Presenter.get_put, if_pos hfield]
      · rcases h.fields f with ⟨a, ha, hatype, hget⟩ | hleft
        · left
          refine ⟨a, ha, hatype, ?_⟩
          rw [Presenter.write, Presenter.get_put, if_neg hfield]
          exact hget
        · refine Or.inr fun a ha hatype => ?_
          rcases hleft a ha hatype with hwait | ⟨vs, hvs, hmemvs⟩
          · exact Or.inl hwait
          · right
            obtain ⟨j, hj⟩ := List.mem_iff_getElem?.mp hvs
            by_cases hij : i = j
            · subst hij
              rw [hi] at hj
              cases hj
              have hlt : i < s.coroutines.length := (List.getElem?_eq_some_iff.mp hi).1
              refine ⟨ws, List.mem_iff_getElem?.mpr ⟨i, by simp [hlt]⟩, ?_⟩
              rcases List.mem_cons.mp hmemvs with hhead | htail
              · exact absurd (congrArg Prod.fst hhead).symm hfield
              · exact htail
            · exact ⟨vs, List.mem_iff_getElem?.mpr ⟨j, by simp [hij, hj]⟩, hmemvs⟩
  · exact h

theorem raceTracks_race (as : List Announcement) (s₀ : Presenter) (events : List RaceEvent) :
    RaceTracks as (race as s₀ events) := by
  refine StepRuns.run_inv ?_ events (raceTracks_start as s₀)
  intro s e h
  cases e with
  | deliver => exact h.deliver
  | advance i => exact h.advance i

theorem lastWins_of_agreeing {as : List Announcement} (hagree : Agreeing as) (s₀ : Presenter)
    (events : List RaceEvent) (hfin : (race as s₀ events).Finished) :
    LastWins as (race as s₀ events).fields := by
  rw [lastWins_iff]
  intro f a ha
  obtain ⟨hmem, htype⟩ := lastOfType_mem ha
  rcases (raceTracks_race as s₀ events).fields f with ⟨b, hb, hbtype, hget⟩ | hleft
  · rw [hget]
    exact hagree f b hb a hmem hbtype htype
  · exfalso
    rcases hleft a hmem htype with hwait | ⟨ws, hws, hmemws⟩
    · rw [hfin.1] at hwait
      cases hwait
    · rw [hfin.2 ws hws] at hmemws
      cases hmemws

/-! ### A coroutine that comes last -/

/-- Enough turns for any coroutine to finish. -/
def drain (i : Nat) : List RaceEvent := List.replicate 2 (.advance i)

theorem run_deliver (as rest : List Announcement) (coroutines : List (List FieldWrite))
    (fields : Presenter) :
    StepRuns.run Race.step ⟨as ++ rest, coroutines, fields⟩ (List.replicate as.length .deliver) =
      ⟨rest, coroutines ++ as.map fieldWrites, as.foldl Presenter.note fields⟩ := by
  induction as generalizing coroutines fields with
  | nil => simp
  | cons a as ih =>
    rw [List.length_cons, List.replicate_succ, StepRuns.run_cons, List.cons_append]
    simp only [Race.step]
    rw [ih, List.map_cons, List.append_assoc]
    rfl

theorem run_advance (n : Nat) {ws : List FieldWrite} (hn : ws.length ≤ n) {s : Race} {i : Nat}
    (hi : s.coroutines[i]? = some ws) :
    StepRuns.run Race.step s (List.replicate n (.advance i)) =
      { s with coroutines := s.coroutines.set i [], fields := s.fields.writeAll ws } := by
  induction n generalizing ws s with
  | zero =>
    obtain rfl : ws = [] := List.eq_nil_of_length_eq_zero (Nat.le_zero.mp hn)
    obtain ⟨hlt, hat⟩ := List.getElem?_eq_some_iff.mp hi
    have hset : s.coroutines.set i [] = s.coroutines := by
      rw [← hat]
      exact List.set_getElem_self hlt
    rw [hset]
    rfl
  | succ n ih =>
    rw [List.replicate_succ, StepRuns.run_cons]
    cases ws with
    | nil =>
      have hnil : ([] : List FieldWrite).length ≤ n := Nat.zero_le n
      simp only [Race.step, hi]
      exact ih hnil hi
    | cons w ws =>
      have hlt : i < s.coroutines.length := (List.getElem?_eq_some_iff.mp hi).1
      simp only [Race.step, hi]
      rw [ih (Nat.le_of_succ_le_succ hn) (by simp [hlt]), List.set_set]
      rfl

/-- Each coroutine runs to its end before the next message is delivered. -/
def serialFrom (n : Nat) : List Announcement → List RaceEvent
  | [] => []
  | _ :: as => .deliver :: (drain n ++ serialFrom (n + 1) as)

theorem fieldWrites_length (a : Announcement) : (fieldWrites a).length ≤ 2 := by
  unfold fieldWrites fieldsOf
  repeat' split
  all_goals simp

theorem run_serial (as : List Announcement) (coroutines : List (List FieldWrite))
    (fields : Presenter) :
    StepRuns.run Race.step ⟨as, coroutines, fields⟩ (serialFrom coroutines.length as) =
      ⟨[], coroutines ++ as.map (fun _ => []), as.foldl Presenter.handle fields⟩ := by
  induction as generalizing coroutines fields with
  | nil => simp [serialFrom]
  | cons a as ih =>
    let launched : Race := ⟨as, coroutines ++ [fieldWrites a], fields.note a⟩
    have hnew : launched.coroutines[coroutines.length]? = some (fieldWrites a) := by simp [launched]
    have hset : (coroutines ++ [fieldWrites a]).set coroutines.length [] = coroutines ++ [[]] := by
      simp
    have hlen : (coroutines ++ [([] : List FieldWrite)]).length = coroutines.length + 1 := by simp
    have hdrained := run_advance 2 (fieldWrites_length a) hnew
    rw [serialFrom, StepRuns.run_cons]
    simp only [Race.step]
    rw [StepRuns.run_append]
    show StepRuns.run Race.step (StepRuns.run Race.step launched _) _ = _
    rw [drain, hdrained]
    simp only [launched, hset, writeAll_fieldWrites]
    rw [← hlen, ih, List.append_assoc]
    rfl

/-- Without overtaking, the coroutines leave the fields as the atomic handler does. -/
theorem serial_race_eq_handle (as : List Announcement) (s₀ : Presenter) :
    (race as s₀ (serialFrom 0 as)).fields = as.foldl Presenter.handle s₀ := by
  have hserial := run_serial as [] s₀
  rw [List.length_nil] at hserial
  rw [race, Race.start, hserial]

/-- Draining some coroutines empties these and leaves the others as they are. -/
theorem run_drain (is : List Nat) {s : Race} (hshort : ∀ ws ∈ s.coroutines, ws.length ≤ 2) :
    let s' := StepRuns.run Race.step s (is.flatMap drain)
    s'.waiting = s.waiting ∧ ∀ j : Nat, s'.coroutines[j]? =
      if j ∈ is then s.coroutines[j]?.map (fun _ => []) else s.coroutines[j]? := by
  induction is generalizing s with
  | nil => simp
  | cons i is ih =>
    intro s'
    have hs' : s' =
        StepRuns.run Race.step (StepRuns.run Race.step s (drain i)) (is.flatMap drain) := by
      rw [← StepRuns.run_append]
      rfl
    cases hi : s.coroutines[i]? with
    | none =>
      have hskip : StepRuns.run Race.step s (drain i) = s := by
        simp only [drain, List.replicate, StepRuns.run_cons, Race.step, hi, StepRuns.run_nil]
      rw [hskip] at hs'
      obtain ⟨hwait, hget⟩ := ih hshort
      rw [hs']
      refine ⟨hwait, fun j => ?_⟩
      rw [hget j]
      by_cases hj : j = i
      · subst hj
        simp [hi]
      · simp [hj]
    | some ws =>
      have hlt : i < s.coroutines.length := (List.getElem?_eq_some_iff.mp hi).1
      rw [drain, run_advance 2 (hshort ws (List.mem_of_getElem? hi)) hi] at hs'
      have hshort' : ∀ vs ∈ s.coroutines.set i [], vs.length ≤ 2 := by
        intro vs hvs
        rcases List.mem_or_eq_of_mem_set hvs with hold | rfl
        · exact hshort vs hold
        · exact Nat.zero_le 2
      obtain ⟨hwait, hget⟩ := ih (s := { s with
        coroutines := s.coroutines.set i [], fields := s.fields.writeAll ws }) hshort'
      rw [hs']
      refine ⟨hwait, fun j => ?_⟩
      rw [hget j]
      simp only [List.getElem?_set]
      by_cases hj : i = j
      · subst hj
        simp [hlt]
      · have hji : j ≠ i := fun h => hj h.symm
        simp [hj, hji]

theorem get_writeAll_fieldWrites (s : Presenter) {f : Field} {a : Announcement}
    (htype : a.type = f.type) : (s.writeAll (fieldWrites a)).get f = f.valueOf a := by
  unfold fieldWrites
  rw [htype]
  cases f <;> rfl

/-- Every announcement can be the one whose coroutine runs last. -/
theorem exists_race_won_by (as : List Announcement) (s₀ : Presenter) {k : Announcement}
    (hk : k ∈ as) : ∃ events, (race as s₀ events).Finished ∧
      ∀ f : Field, k.type = f.type → (race as s₀ events).fields.get f = f.valueOf k := by
  obtain ⟨i, hi⟩ := List.mem_iff_getElem?.mp hk
  let others := (List.range as.length).filter (· ≠ i)
  let delivered : Race := ⟨[], as.map fieldWrites, as.foldl Presenter.note s₀⟩
  let before := StepRuns.run Race.step delivered (others.flatMap drain)
  have hshort : ∀ ws ∈ delivered.coroutines, ws.length ≤ 2 := by
    intro ws hws
    obtain ⟨a, _, rfl⟩ := List.mem_map.mp hws
    exact fieldWrites_length a
  obtain ⟨hwait, hget⟩ := run_drain others hshort
  have hlast : before.coroutines[i]? = some (fieldWrites k) := by
    rw [hget i, if_neg (by simp [others])]
    simp [delivered, hi]
  have hrun : race as s₀ (List.replicate as.length .deliver ++ (others.flatMap drain ++ drain i)) =
      { before with coroutines := before.coroutines.set i [],
                    fields := before.fields.writeAll (fieldWrites k) } := by
    have hdelivered := run_deliver as [] [] s₀
    rw [List.append_nil] at hdelivered
    rw [race, StepRuns.run_append, Race.start, hdelivered, StepRuns.run_append, drain,
      ← run_advance 2 (fieldWrites_length k) hlast]
    rfl
  refine ⟨List.replicate as.length .deliver ++ (others.flatMap drain ++ drain i), ?_, ?_⟩
  · rw [hrun]
    refine ⟨hwait, ?_⟩
    intro ws hws
    obtain ⟨j, hj⟩ := List.mem_iff_getElem?.mp hws
    simp only [List.getElem?_set] at hj
    split at hj
    · split at hj
      · exact (Option.some.inj hj).symm
      · cases hj
    · rename_i hij
      rw [hget j] at hj
      have hlt : j < as.length := by
        by_contra hge
        have hnone : delivered.coroutines[j]? = none :=
          List.getElem?_eq_none (by simpa [delivered] using hge)
        rw [hnone] at hj
        split at hj <;> cases hj
      have hmem : j ∈ others := by simpa [others, hlt] using fun h => hij h.symm
      rw [if_pos hmem] at hj
      obtain ⟨_, _, rfl⟩ := Option.map_eq_some_iff.mp hj
      rfl
  · intro f htype
    rw [hrun]
    exact get_writeAll_fieldWrites before.fields htype

theorem last_announcement_wins_iff (as : List Announcement) (s₀ : Presenter) :
    (∀ events, (race as s₀ events).Finished → LastWins as (race as s₀ events).fields) ↔
      Agreeing as := by
  constructor
  · intro hall f a ha b hb hatype hbtype
    obtain ⟨l, hl⟩ := lastOfType_isSome ha hatype
    have hlast : ∀ k ∈ as, k.type = f.type → f.valueOf k = f.valueOf l := by
      intro k hk hktype
      obtain ⟨events, hfin, hwon⟩ := exists_race_won_by as s₀ hk
      have hwins := (lastWins_iff as _).mp (hall events hfin) f l hl
      rw [← hwins, hwon f hktype]
    rw [hlast a ha hatype, hlast b hb hbtype]
  · intro hagree events hfin
    exact lastWins_of_agreeing hagree s₀ events hfin

/-- Two relay announcements close together: the coroutine of the first runs last. -/
theorem earlier_announcement_wins :
    ¬∀ (as : List Announcement) (s₀ : Presenter) (events : List RaceEvent),
      (race as s₀ events).Finished → LastWins as (race as s₀ events).fields := by
  intro hall
  have hrelay := (hall [⟨2, "203.0.113.9", 49152⟩, ⟨2, "198.51.100.7", 50000⟩] Presenter.init
    [.deliver, .deliver, .advance 1, .advance 1, .advance 0, .advance 0]
    ⟨rfl, by decide⟩).relay ⟨2, "198.51.100.7", 50000⟩ rfl
  have haddr := (Prod.mk.inj hrelay).1
  revert haddr
  decide

end TurnClient
