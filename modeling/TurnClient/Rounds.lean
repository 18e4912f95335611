import TurnClient.Drive

/-!
# Asking until the key is current

A procedure that asks under the key it knows, against keys that change. In a
round it asks and is answered; when the key it knew is the one of the round the
answer ends the asking, else the answer tells it that key. So the asking goes on
exactly as long as no key is met twice in a row.
-/

namespace Drive

set_option autoImplicit false

variable {ε β σ α K : Type}

/-- What the rest of the inputs makes of a turn. -/
def Turn.goOn (step : ε → β → σ → Turn β σ α) (es : List ε) : Turn β σ α → Turn β σ α
  | again b s => run step es b s
  | stop a s => .stop a s

@[simp] theorem goOn_again (step : ε → β → σ → Turn β σ α) (es : List ε) (b : β) (s : σ) :
    (Turn.again b s).goOn step es = run step es b s := rfl

@[simp] theorem goOn_stop (step : ε → β → σ → Turn β σ α) (es : List ε) (a : α) (s : σ) :
    (Turn.stop a s).goOn step es = .stop a s := rfl

@[simp] theorem goOn_nil (step : ε → β → σ → Turn β σ α) (t : Turn β σ α) : t.goOn step [] = t := by
  cases t <;> rfl

theorem run_cons (step : ε → β → σ → Turn β σ α) (e : ε) (es : List ε) (b : β) (s : σ) :
    run step (e :: es) b s = (step e b s).goOn step es := by
  rw [run]
  cases step e b s <;> rfl

theorem run_append (step : ε → β → σ → Turn β σ α) (es es' : List ε) (b : β) (s : σ) :
    run step (es ++ es') b s = (run step es b s).goOn step es' := by
  induction es generalizing b s with
  | nil => rfl
  | cons e es ih =>
    rw [List.cons_append, run_cons, run_cons]
    cases step e b s with
    | again b' s' => exact ih b' s'
    | stop a s' => rfl

/-- The inputs of a row of rounds. -/
def flatRounds (rs : List (ε × ε)) : List ε := rs.flatMap fun r => [r.1, r.2]

@[simp] theorem flatRounds_nil : flatRounds ([] : List (ε × ε)) = [] := rfl

theorem flatRounds_append (rs rs' : List (ε × ε)) :
    flatRounds (rs ++ rs') = flatRounds rs ++ flatRounds rs' :=
  List.flatMap_append

theorem run_round (step : ε → β → σ → Turn β σ α) (r : ε × ε) (rs : List (ε × ε)) {b b' : β}
    {s s' : σ} (h : step r.1 b s = .again b' s') :
    run step (flatRounds (r :: rs)) b s = (step r.2 b' s').goOn step (flatRounds rs) := by
  rw [flatRounds, List.flatMap_cons, List.cons_append, run_cons, h, goOn_again,
    List.singleton_append, run_cons]
  rfl

/-- A procedure that stops at whatever comes behind `N` rounds. -/
theorem run_past {step : ε → β → σ → Turn β σ α} {N : Nat} {rs : List (ε × ε)} {b b' : β} {s s' : σ}
    {a : α} (hlen : N < rs.length) (hrun : run step (flatRounds (rs.take N)) b s = .again b' s')
    (hstop : ∀ e, step e b' s' = .stop a s') : run step (flatRounds rs) b s = .stop a s' := by
  have hrest : rs.drop N ≠ [] := by
    rw [ne_eq, List.drop_eq_nil_iff]
    omega
  obtain ⟨r, rest, hdrop⟩ := List.exists_cons_of_ne_nil hrest
  rw [← List.take_append_drop N rs, flatRounds_append, run_append, hrun, hdrop, goOn_again,
    flatRounds, List.flatMap_cons, List.cons_append, run_cons, hstop, goOn_stop]

/-- A procedure that asks under the key it knows, for up to `N` rounds, with inputs under which the
asking works. `I` holds where it asks, `J` of the turn with which the asking ends under a key. -/
structure AsksUntil (step : ε → β → σ → Turn β σ α) (ok : ε → Prop) (key : ε → K)
    (known : σ → Option K) (N : Nat) (I : Nat → β → σ → Prop) (J : K → Turn β σ α → Prop) :
    Prop where
  settled : ∀ {n b s e e'}, n < N → I n b s → ok e → known s = some (key e') →
    ∃ b' s', step e b s = .again b' s' ∧ J (key e') (step e' b' s')
  told : ∀ {n b s e e'}, n < N → I n b s → ok e → known s ≠ some (key e') →
    ∃ b' s', step e b s = .again b' s' ∧ ∃ b'' s'', step e' b' s' = .again b'' s'' ∧
      known s'' = some (key e') ∧ I (n + 1) b'' s''

/-- The keys a row of rounds meets, from what is known at its start. -/
def metKeys (key : ε → K) (k : Option K) (rs : List (ε × ε)) : List (Option K) :=
  k :: rs.map fun r => some (key r.2)

theorem metKeys_mono (key : ε → K) (k : Option K) {rs rs' : List (ε × ε)} (h : rs <+: rs') :
    metKeys key k rs <+: metKeys key k rs' :=
  (List.prefix_cons_inj _).mpr (h.map _)

section Rounds

variable {step : ε → β → σ → Turn β σ α} {ok : ε → Prop} {key : ε → K} {known : σ → Option K}
variable {N : Nat} {I : Nat → β → σ → Prop} {J : K → Turn β σ α → Prop}

/-- Rounds in which no key is met twice in a row only tell the next key. -/
theorem AsksUntil.going (h : AsksUntil step ok key known N I J) {rs : List (ε × ε)}
    (hok : ∀ r ∈ rs, ok r.1) {n : Nat} {b : β} {s : σ} (hn : n + rs.length ≤ N)
    (hI : I n b s) (hchain : List.IsChain (· ≠ ·) (metKeys key (known s) rs)) :
    ∃ b' s', run step (flatRounds rs) b s = .again b' s' ∧ I (n + rs.length) b' s' ∧
      known s' = (metKeys key (known s) rs).getLast (List.cons_ne_nil _ _) := by
  induction rs generalizing n b s with
  | nil => exact ⟨b, s, rfl, hI, rfl⟩
  | cons r rs ih =>
    rw [List.length_cons] at hn
    rw [metKeys, List.map_cons, List.isChain_cons_cons] at hchain
    obtain ⟨b', s', hask, b'', s'', htold, hknown, hI'⟩ :=
      h.told (by omega) hI (hok r List.mem_cons_self) hchain.1
    have hrest := hchain.2
    rw [← hknown] at hrest
    obtain ⟨b₁, s₁, hrun, hI₁, hlast⟩ :=
      ih (fun r hr => hok r (List.mem_cons_of_mem _ hr)) (by omega) hI' hrest
    refine ⟨b₁, s₁, ?_, ?_, ?_⟩
    · rw [run_round step r rs hask, htold]
      exact hrun
    · rw [List.length_cons, show n + (rs.length + 1) = n + 1 + rs.length by omega]
      exact hI₁
    · rw [hlast, hknown]
      rfl

/-- The asking ends in the first round whose key was known before it. -/
theorem AsksUntil.ends (h : AsksUntil step ok key known N I J) {pre : List (ε × ε)} {r : ε × ε}
    (hok : ∀ p ∈ pre ++ [r], ok p.1) {n : Nat} {b : β} {s : σ} (hn : n + pre.length < N)
    (hI : I n b s) (hchain : List.IsChain (· ≠ ·) (metKeys key (known s) pre))
    (hlast : (metKeys key (known s) pre).getLast (List.cons_ne_nil _ _) = some (key r.2)) :
    J (key r.2) (run step (flatRounds (pre ++ [r])) b s) := by
  obtain ⟨b', s', hrun, hI', hknown⟩ := h.going
    (fun p hp => hok p (List.mem_append_left _ hp)) (Nat.le_of_lt hn) hI hchain
  obtain ⟨b'', s'', hask, hJ⟩ := h.settled hn hI'
    (hok r (List.mem_append_right _ List.mem_cons_self)) (hknown.trans hlast)
  rw [flatRounds_append, run_append, hrun, goOn_again, run_round step r [] hask, flatRounds_nil,
    goOn_nil]
  exact hJ

end Rounds

/-- A row of keys in which one is met twice in a row has a first such place. -/
theorem exists_first_repeat {l : List K} {k : K} (h : ¬ List.IsChain (· ≠ ·) (k :: l)) :
    ∃ pre r post, l = pre ++ r :: post ∧ List.IsChain (· ≠ ·) (k :: pre) ∧
      (k :: pre).getLast (List.cons_ne_nil _ _) = r := by
  induction l generalizing k with
  | nil => exact absurd (List.isChain_singleton k) h
  | cons k' l ih =>
    by_cases hsame : k = k'
    · exact ⟨[], k', l, rfl, List.isChain_singleton k, hsame⟩
    · rw [List.isChain_cons_cons, not_and] at h
      obtain ⟨pre, r, post, rfl, hchain, hlast⟩ := ih (h hsame)
      exact ⟨k' :: pre, r, post, rfl, List.isChain_cons_cons.mpr ⟨hsame, hchain⟩, hlast⟩

/-- Some key is met twice in a row within `N` rounds: the asking ends there. -/
theorem AsksUntil.ends_within {step : ε → β → σ → Turn β σ α} {ok : ε → Prop} {key : ε → K}
    {known : σ → Option K} {N : Nat} {I : Nat → β → σ → Prop} {J : K → Turn β σ α → Prop}
    (h : AsksUntil step ok key known N I J) {rs : List (ε × ε)} (hok : ∀ r ∈ rs, ok r.1) {b : β}
    {s : σ} (hI : I 0 b s)
    (hmet : ¬ List.IsChain (· ≠ ·) (metKeys key (known s) (rs.take N))) :
    ∃ pre r post, rs = pre ++ r :: post ∧ J (key r.2) (run step (flatRounds (pre ++ [r])) b s) := by
  obtain ⟨keys, k, post, hsplit, hchain, hlast⟩ := exists_first_repeat hmet
  obtain ⟨pre, rest, htake, rfl, hrest⟩ := List.map_eq_append_iff.mp hsplit
  obtain ⟨r, post', rfl, rfl, rfl⟩ := List.map_eq_cons_iff.mp hrest
  have hlen : pre.length < N := by
    have hle := List.length_take_le N rs
    rw [htake, List.length_append, List.length_cons] at hle
    omega
  have hsplit : rs = pre ++ r :: (post' ++ rs.drop N) := by
    rw [← List.cons_append, ← List.append_assoc, ← htake, List.take_append_drop]
  refine ⟨pre, r, _, hsplit, h.ends ?_ (by omega) hI hchain hlast⟩
  intro p hp
  refine hok p ?_
  rw [hsplit, List.append_cons]
  exact List.mem_append_left _ hp

/-- No key is met twice in a row within `N` rounds: the asking goes on, up to the `N`-th. -/
theorem AsksUntil.asks_within {step : ε → β → σ → Turn β σ α} {ok : ε → Prop} {key : ε → K}
    {known : σ → Option K} {N : Nat} {I : Nat → β → σ → Prop} {J : K → Turn β σ α → Prop}
    (h : AsksUntil step ok key known N I J) {rs : List (ε × ε)} (hok : ∀ r ∈ rs, ok r.1) {b : β}
    {s : σ} (hI : I 0 b s) (hchain : List.IsChain (· ≠ ·) (metKeys key (known s) (rs.take N)))
    {pre : List (ε × ε)} (hpre : pre <+: rs) :
    ∃ b' s', run step (flatRounds (pre.take N)) b s = .again b' s' ∧
      I (min N pre.length) b' s' := by
  have hpart : pre.take N <+: rs.take N := by
    obtain ⟨post, rfl⟩ := hpre
    rw [List.take_append]
    exact List.prefix_append _ _
  have hlen : (pre.take N).length = min N pre.length := List.length_take
  have hstart := List.IsChain.prefix hchain (metKeys_mono key (known s) hpart)
  obtain ⟨b', s', hrun, hI', _⟩ := h.going
    (fun r hr => hok r (hpre.subset (List.mem_of_mem_take hr))) (by omega) hI hstart
  rw [Nat.zero_add, hlen] at hI'
  exact ⟨b', s', hrun, hI'⟩

end Drive
