import Mathlib.Data.List.Chain

/-!
# Procedures driven by their environment

A procedure with retry loops is a control point and a state that take one turn
for each input of the environment: a turn either goes on from another control
point or stops with a result. A run is a list of inputs; a run that uses up its
inputs is waiting for the next one. Invariants are proved of one turn and hold
of every run.
-/

namespace Drive

set_option autoImplicit false

inductive Turn (β σ α : Type) where
  | again (b : β) (s : σ)
  | stop (a : α) (s : σ)

variable {ε β σ α : Type}

def Turn.state : Turn β σ α → σ
  | again _ s => s
  | stop _ s => s

def Turn.result? : Turn β σ α → Option α
  | again _ _ => none
  | stop a _ => some a

theorem Turn.eq_stop {t : Turn β σ α} {a : α} (h : t.result? = some a) : t = .stop a t.state := by
  cases t with
  | again b s => cases h
  | stop a' s =>
    cases h
    rfl

/-- The inputs one after the other, until the procedure stops or they are used up. -/
def run (step : ε → β → σ → Turn β σ α) : List ε → β → σ → Turn β σ α
  | [], b, s => .again b s
  | e :: es, b, s =>
    match step e b s with
    | .again b' s' => run step es b' s'
    | .stop a s' => .stop a s'

def trace (step : ε → β → σ → Turn β σ α) : List ε → β → σ → List σ
  | [], _, s => [s]
  | e :: es, b, s =>
    s :: match step e b s with
      | .again b' s' => trace step es b' s'
      | .stop _ s' => [s']

/-- Every turn of the run meets a condition on the input and on what it finds. -/
def Along (ok : ε → β → σ → Prop) (step : ε → β → σ → Turn β σ α) : List ε → β → σ → Prop
  | [], _, _ => True
  | e :: es, b, s =>
    ok e b s ∧ match step e b s with
      | .again b' s' => Along ok step es b' s'
      | .stop _ _ => True

instance Along.decidable {ok : ε → β → σ → Prop} [∀ e b s, Decidable (ok e b s)]
    (step : ε → β → σ → Turn β σ α) :
    (es : List ε) → (b : β) → (s : σ) → Decidable (Along ok step es b s)
  | [], _, _ => isTrue trivial
  | e :: es, b, s =>
    have : Decidable (match step e b s with
        | .again b' s' => Along ok step es b' s'
        | .stop _ _ => True) :=
      match step e b s with
      | .again b' s' => Along.decidable step es b' s'
      | .stop _ _ => isTrue trivial
    inferInstanceAs (Decidable (_ ∧ _))

theorem along_of_forall {ok : ε → β → σ → Prop} (step : ε → β → σ → Turn β σ α) {es : List ε}
    (h : ∀ e ∈ es, ∀ b s, ok e b s) {b : β} {s : σ} : Along ok step es b s := by
  induction es generalizing b s with
  | nil => trivial
  | cons e es ih =>
    refine ⟨h e List.mem_cons_self b s, ?_⟩
    cases step e b s with
    | again b' s' => exact ih fun e he => h e (List.mem_cons_of_mem _ he)
    | stop a s' => trivial

theorem Along.and {ok ok' : ε → β → σ → Prop} {step : ε → β → σ → Turn β σ α} {es : List ε} {b : β}
    {s : σ} (h : Along ok step es b s) (h' : Along ok' step es b s) :
    Along (fun e b s => ok e b s ∧ ok' e b s) step es b s := by
  induction es generalizing b s with
  | nil => trivial
  | cons e es ih =>
    obtain ⟨hturn, hrest⟩ := h
    obtain ⟨hturn', hrest'⟩ := h'
    refine ⟨⟨hturn, hturn'⟩, ?_⟩
    cases hs : step e b s with
    | again b' s' =>
      rw [hs] at hrest hrest'
      exact ih hrest hrest'
    | stop a s' => trivial

def Turn.Holds (I : β → σ → Prop) (J : α → σ → Prop) : Turn β σ α → Prop
  | again b s => I b s
  | stop a s => J a s

theorem run_holds {step : ε → β → σ → Turn β σ α} {I : β → σ → Prop} {J : α → σ → Prop}
    (hstep : ∀ e b s, I b s → (step e b s).Holds I J) (es : List ε) {b : β} {s : σ} (h : I b s) :
    (run step es b s).Holds I J := by
  induction es generalizing b s with
  | nil => exact h
  | cons e es ih =>
    have hturn := hstep e b s h
    rw [run]
    cases hs : step e b s with
    | again b' s' =>
      rw [hs] at hturn
      exact ih hturn
    | stop a s' =>
      rw [hs] at hturn
      exact hturn

theorem trace_head (step : ε → β → σ → Turn β σ α) (es : List ε) (b : β) (s : σ) :
    ∃ rest, trace step es b s = s :: rest := by
  cases es with
  | nil => exact ⟨[], rfl⟩
  | cons e es => exact ⟨_, rfl⟩

theorem head?_trace (step : ε → β → σ → Turn β σ α) (es : List ε) (b : β) (s : σ) :
    (trace step es b s).head? = some s := by
  obtain ⟨rest, h⟩ := trace_head step es b s
  rw [h]
  rfl

theorem trace_singleton (step : ε → β → σ → Turn β σ α) (e : ε) (b : β) (s : σ) :
    trace step [e] b s = [s, (step e b s).state] := by
  rw [trace]
  cases step e b s <;> rfl

theorem trace_last (step : ε → β → σ → Turn β σ α) (es : List ε) (b : β) (s : σ) :
    (trace step es b s).getLast? = some (run step es b s).state := by
  induction es generalizing b s with
  | nil => rfl
  | cons e es ih =>
    rw [trace, run]
    cases step e b s with
    | again b' s' =>
      obtain ⟨rest, hrest⟩ := trace_head step es b' s'
      simp only
      rw [hrest, List.getLast?_cons_cons, ← hrest]
      exact ih b' s'
    | stop a s' => rfl

theorem trace_last_of_stop {step : ε → β → σ → Turn β σ α} {es : List ε} {b : β} {s s' : σ} {a : α}
    (h : run step es b s = .stop a s') : (trace step es b s).getLast? = some s' := by
  rw [trace_last, h]
  rfl

/-- An invariant of the turns that meet the condition holds of every state of such a run. -/
theorem trace_holds {ok : ε → β → σ → Prop} {step : ε → β → σ → Turn β σ α} {I : β → σ → Prop}
    {K : σ → Prop} (hI : ∀ b s, I b s → K s)
    (hstep : ∀ e b s, ok e b s → I b s → (step e b s).Holds I fun _ s' => K s') (es : List ε)
    {b : β} {s : σ} (hs : I b s) (h : Along ok step es b s) : ∀ t ∈ trace step es b s, K t := by
  induction es generalizing b s with
  | nil =>
    intro t ht
    rw [List.mem_singleton.mp ht]
    exact hI b s hs
  | cons e es ih =>
    obtain ⟨hok, hrest⟩ := h
    have hturn := hstep e b s hok hs
    rw [trace]
    refine List.forall_mem_cons.mpr ⟨hI b s hs, ?_⟩
    cases hcase : step e b s with
    | again b' s' =>
      rw [hcase] at hturn hrest
      exact ih hturn hrest
    | stop a s' =>
      rw [hcase] at hturn
      exact List.forall_mem_singleton.mpr hturn

theorem trace_isChain {ok : ε → β → σ → Prop} {step : ε → β → σ → Turn β σ α} {R : σ → σ → Prop}
    (hstep : ∀ e b s, ok e b s → R s (step e b s).state) (es : List ε) {b : β} {s : σ}
    (h : Along ok step es b s) : (trace step es b s).IsChain R := by
  induction es generalizing b s with
  | nil => exact List.isChain_singleton s
  | cons e es ih =>
    obtain ⟨hok, hrest⟩ := h
    have hR := hstep e b s hok
    rw [trace]
    cases hs : step e b s with
    | again b' s' =>
      rw [hs] at hR hrest
      obtain ⟨rest, htrace⟩ := trace_head step es b' s'
      simp only
      rw [htrace, List.isChain_cons_cons, ← htrace]
      exact ⟨hR, ih hrest⟩
    | stop a s' =>
      rw [hs] at hR
      exact List.isChain_pair.mpr hR

/-- A relation that holds of every step from a state with `p` on, where `p` is
never lost: it holds between all states in a row after the first with `p`. -/
theorem isChain_dropWhile {p : σ → Bool} {R : σ → σ → Prop} {l : List σ}
    (h : l.IsChain fun s s' => p s → p s' ∧ R s s') :
    (l.dropWhile fun s => !p s).IsChain R := by
  induction l with
  | nil => exact List.isChain_nil
  | cons s l ih =>
    rw [List.dropWhile_cons]
    cases hp : p s with
    | false => exact ih h.tail
    | true =>
      simp only [Bool.not_true, Bool.false_eq_true, if_false]
      clear ih
      induction l generalizing s with
      | nil => exact List.isChain_singleton s
      | cons s' l ih =>
        obtain ⟨hss, hrest⟩ := List.isChain_cons_cons.mp h
        obtain ⟨hp', hR⟩ := hss hp
        exact List.isChain_cons_cons.mpr ⟨hR, ih s' hrest hp'⟩

/-! ## What the turns of a run give out -/

section Collect

variable {γ δ : Type}

def collect (out : ε → β → σ → List γ) (step : ε → β → σ → Turn β σ α) :
    List ε → β → σ → List γ
  | [], _, _ => []
  | e :: es, b, s =>
    out e b s ++ match step e b s with
      | .again b' s' => collect out step es b' s'
      | .stop _ _ => []

/-- A counter of what went wrong: a turn that meets the condition leaves it, one that does not raises
it, and a run that returns is right exactly when it counted nothing. The invariant and what is right
may depend on what has been given out, and the turns may be known to meet an assumption. -/
theorem right_iff_along_collect {asm ok : ε → β → σ → Prop} {out : ε → β → σ → List γ}
    {step : ε → β → σ → Turn β σ α} {I : Nat → List γ → β → σ → Prop} {returns : α → Prop}
    {right : List γ → α → σ → Prop}
    (hstep : ∀ n log e b s, asm e b s → I n log b s → (step e b s).Holds
      (fun b' s' => (ok e b s ∧ I n (log ++ out e b s) b' s') ∨
        (¬ ok e b s ∧ I (n + 1) (log ++ out e b s) b' s'))
      (fun a s' => returns a → (right (log ++ out e b s) a s' ↔ n = 0 ∧ ok e b s)))
    (es : List ε) {n : Nat} {log : List γ} {b : β} {s s' : σ} {a : α} (h : I n log b s)
    (hasm : Along asm step es b s) (hstop : run step es b s = .stop a s') (hret : returns a) :
    right (log ++ collect out step es b s) a s' ↔ n = 0 ∧ Along ok step es b s := by
  induction es generalizing n log b s with
  | nil => cases hstop
  | cons e es ih =>
    obtain ⟨hturnAsm, hasm⟩ := hasm
    have hturn := hstep n log e b s hturnAsm h
    rw [run] at hstop
    rw [Along, collect]
    cases hs : step e b s with
    | again b' s'' =>
      rw [hs] at hturn hstop hasm
      rw [← List.append_assoc]
      rcases hturn with ⟨hok, hI⟩ | ⟨hbad, hI⟩
      · rw [ih hI hasm hstop]
        simp [hok]
      · rw [ih hI hasm hstop]
        simp [hbad]
    | stop a' s'' =>
      rw [hs] at hturn hstop
      cases hstop
      rw [List.append_nil, hturn hret]
      simp

theorem right_iff_along {ok : ε → β → σ → Prop} {step : ε → β → σ → Turn β σ α}
    {I : Nat → β → σ → Prop} {returns : α → Prop} {right : α → σ → Prop}
    (hstep : ∀ n e b s, I n b s → (step e b s).Holds
      (fun b' s' => (ok e b s ∧ I n b' s') ∨ (¬ ok e b s ∧ I (n + 1) b' s'))
      (fun a s' => returns a → (right a s' ↔ n = 0 ∧ ok e b s)))
    (es : List ε) {n : Nat} {b : β} {s s' : σ} {a : α} (h : I n b s)
    (hstop : run step es b s = .stop a s') (hret : returns a) :
    right a s' ↔ n = 0 ∧ Along ok step es b s := by
  have hasm : Along (fun _ _ _ => True) step es b s := along_of_forall step fun _ _ _ _ => trivial
  exact @right_iff_along_collect ε β σ α Unit (fun _ _ _ => True) ok (fun _ _ _ => []) step
    (fun n _ => I n) returns (fun _ => right) (fun n _ e b s _ => hstep n e b s) es n [] b s s' a h
    hasm hstop hret

theorem collect_filter (out : ε → β → σ → List γ) (step : ε → β → σ → Turn β σ α) (p : γ → Bool)
    (es : List ε) (b : β) (s : σ) :
    (collect out step es b s).filter p = collect (fun e b s => (out e b s).filter p) step es b s := by
  induction es generalizing b s with
  | nil => rfl
  | cons e es ih =>
    rw [collect, collect, List.filter_append]
    cases step e b s with
    | again b' s' => rw [ih b' s']
    | stop a s' => rfl

theorem map_collect (f : γ → δ) (out : ε → β → σ → List γ) (step : ε → β → σ → Turn β σ α)
    (es : List ε) (b : β) (s : σ) :
    (collect out step es b s).map f = collect (fun e b s => (out e b s).map f) step es b s := by
  induction es generalizing b s with
  | nil => rfl
  | cons e es ih =>
    rw [collect, collect, List.map_append]
    cases step e b s with
    | again b' s' => rw [ih b' s']
    | stop a s' => rfl

/-- What a control point may still give out; nothing is owed behind the end. -/
def Turn.owed (credit : β → Nat) : Turn β σ α → Nat
  | again b _ => credit b
  | stop _ _ => 0

/-- A turn gives out at most what a second observer counts, and what it takes from the credit. -/
theorem collect_length_le {out : ε → β → σ → List γ} {out' : ε → β → σ → List δ}
    {step : ε → β → σ → Turn β σ α} (credit : β → Nat)
    (hstep : ∀ e b s, (out e b s).length + (step e b s).owed credit ≤
      (out' e b s).length + credit b) (es : List ε) (b : β) (s : σ) :
    (collect out step es b s).length ≤ (collect out' step es b s).length + credit b := by
  induction es generalizing b s with
  | nil => exact Nat.zero_le _
  | cons e es ih =>
    have hturn := hstep e b s
    rw [collect, collect, List.length_append, List.length_append]
    cases hs : step e b s with
    | again b' s' =>
      rw [hs] at hturn
      simp only [Turn.owed] at hturn
      have hrest := ih b' s'
      simp only
      omega
    | stop a s' =>
      rw [hs] at hturn
      simp only [Turn.owed] at hturn
      simp only [List.length_nil]
      omega

theorem collect_length_le_credit {out : ε → β → σ → List γ} {step : ε → β → σ → Turn β σ α}
    (credit : β → Nat) (hstep : ∀ e b s, (out e b s).length + (step e b s).owed credit ≤ credit b)
    (es : List ε) (b : β) (s : σ) : (collect out step es b s).length ≤ credit b := by
  have hnone : collect (fun _ _ _ => ([] : List Unit)) step es b s = [] := by
    induction es generalizing b s with
    | nil => rfl
    | cons e es ih =>
      rw [collect]
      cases step e b s with
      | again b' s' => exact ih b' s'
      | stop a s' => rfl
  have hle : (collect out step es b s).length ≤
      (collect (fun _ _ _ => ([] : List Unit)) step es b s).length + credit b := by
    apply collect_length_le
    intro e b s
    simpa using hstep e b s
  simpa [hnone] using hle

/-- A loop with one place where something is built: it is left with one thing built, and found
again once for each event that sends the loop back. -/
structure Restarts (start : β → Bool) (built : ε → β → σ → List γ) (back : ε → β → σ → List δ)
    (step : ε → β → σ → Turn β σ α) : Prop where
  building : ∀ e b s, start b = true → back e b s = [] ∧ (built e b s).length ≤ 1 ∧
    (step e b s).Holds (fun b' _ => start b' = false ∧ (built e b s).length = 1) fun _ _ => True
  waiting : ∀ e b s, start b = false → built e b s = [] ∧
    (step e b s).Holds (fun b' _ => (back e b s).length = if start b' then 1 else 0)
      fun _ _ => back e b s = []

theorem Restarts.turn {start : β → Bool} {built : ε → β → σ → List γ} {back : ε → β → σ → List δ}
    {step : ε → β → σ → Turn β σ α} (h : Restarts start built back step) (e : ε) (b : β) (s : σ) :
    (built e b s).length + (step e b s).owed (fun b => if start b then 1 else 0) ≤
        (back e b s).length + (if start b then 1 else 0) ∧
      (back e b s).length + (step e b s).owed (fun b => if start b then 0 else 1) ≤
        (built e b s).length + if start b then 0 else 1 := by
  cases hb : start b with
  | true =>
    obtain ⟨hback, hbuilt, hturn⟩ := h.building e b s hb
    rw [hback]
    cases hs : step e b s with
    | again b' s' =>
      rw [hs] at hturn
      obtain ⟨hb', hone⟩ := hturn
      simp [Turn.owed, hb', hone]
    | stop a s' => simpa [Turn.owed] using hbuilt
  | false =>
    obtain ⟨hbuilt, hturn⟩ := h.waiting e b s hb
    rw [hbuilt]
    cases hs : step e b s with
    | again b' s' =>
      rw [hs] at hturn
      have hback : (back e b s).length = if start b' then 1 else 0 := hturn
      cases hb' : start b' <;> simp [Turn.owed, hb', hback]
    | stop a s' =>
      rw [hs] at hturn
      have hback : back e b s = [] := hturn
      simp [Turn.owed, hback]

theorem Restarts.counts {start : β → Bool} {built : ε → β → σ → List γ} {back : ε → β → σ → List δ}
    {step : ε → β → σ → Turn β σ α} (h : Restarts start built back step) (es : List ε) {b : β}
    (hb : start b = true) (s : σ) :
    (collect built step es b s).length ≤ (collect back step es b s).length + 1 ∧
      (collect back step es b s).length ≤ (collect built step es b s).length := by
  have hle := collect_length_le _ (fun e b s => (h.turn e b s).1) es b s
  have hge := collect_length_le _ (fun e b s => (h.turn e b s).2) es b s
  rw [if_pos hb] at hle hge
  exact ⟨hle, hge⟩

/-- A log of the state holds nothing but what it held and what the turns gave out. -/
theorem log_mem_collect {out : ε → β → σ → List γ} {step : ε → β → σ → Turn β σ α}
    {log : σ → List γ}
    (hstep : ∀ e b s, ∀ x ∈ log (step e b s).state, x ∈ log s ∨ x ∈ out e b s) (es : List ε)
    (b : β) (s : σ) :
    ∀ x ∈ log (run step es b s).state, x ∈ log s ∨ x ∈ collect out step es b s := by
  induction es generalizing b s with
  | nil => exact fun x hx => Or.inl hx
  | cons e es ih =>
    intro x hx
    have hturn := hstep e b s x
    rw [run] at hx
    rw [collect, List.mem_append]
    cases hs : step e b s with
    | again b' s' =>
      rw [hs] at hx hturn
      rcases ih b' s' x hx with hlog | hcollect
      · rcases hturn hlog with hold | hnew
        · exact Or.inl hold
        · exact Or.inr (Or.inl hnew)
      · exact Or.inr (Or.inr hcollect)
    | stop a s' =>
      rw [hs] at hx hturn
      rcases hturn hx with hold | hnew
      · exact Or.inl hold
      · exact Or.inr (Or.inl hnew)

end Collect

end Drive
