/-!
# Runs of a step function

A run is a list of actions, each of which can be made in the state that those before it lead to. The history of a run
says for each action in which state it was made. What every step keeps, a run keeps.
-/

namespace Retrace.Steps

variable {σ α : Type} (step : σ → α → Option σ)

/-- The state after some actions, when each of them can be made. -/
def run (s : σ) : List α → Option σ
  | [] => some s
  | a :: acts => (step s a).bind fun s' => run s' acts

/-- The actions of a run, each with the state in which it is made. -/
def history (s : σ) : List α → List (σ × α)
  | [] => []
  | a :: acts => (s, a) :: (match step s a with
    | some s' => history s' acts
    | none => [])

variable {step}

theorem run_cons_eq_some {s t : σ} {a : α} {acts : List α} :
    run step s (a :: acts) = some t ↔ ∃ u, step s a = some u ∧ run step u acts = some t :=
  Option.bind_eq_some_iff

/-- What holds of a state and its past, and is carried over every step of some kind, holds of the state after a run of
such steps. -/
theorem run_induction_of {P : List (σ × α) → σ → Prop} {q : α → Prop}
    (next : ∀ {past s a t}, P past s → q a → step s a = some t → P (past ++ [(s, a)]) t) :
    ∀ {acts : List α} {past : List (σ × α)} {s t : σ}, P past s → (∀ a ∈ acts, q a) → run step s acts = some t →
      P (past ++ history step s acts) t
  | [], past, s, t, hs, _, h => by
    obtain rfl : s = t := Option.some.inj h
    simpa [history] using hs
  | a :: acts, past, s, t, hs, hok, h => by
    obtain ⟨u, hu, ht⟩ := run_cons_eq_some.mp h
    have := run_induction_of next (next hs (hok a (by simp)) hu) (fun b hb => hok b (by simp [hb])) ht
    simpa [history, hu] using this

theorem run_induction {P : List (σ × α) → σ → Prop}
    (next : ∀ {past s a t}, P past s → step s a = some t → P (past ++ [(s, a)]) t)
    {acts : List α} {past : List (σ × α)} {s t : σ} (hs : P past s) (h : run step s acts = some t) :
    P (past ++ history step s acts) t :=
  run_induction_of (q := fun _ => True) (fun hp _ => next hp) hs (fun _ _ => trivial) h

theorem history_map_snd {s t : σ} {acts : List α} (h : run step s acts = some t) :
    (history step s acts).map Prod.snd = acts := by
  induction acts generalizing s with
  | nil => rfl
  | cons a acts ih =>
    obtain ⟨u, hu, ht⟩ := run_cons_eq_some.mp h
    simp only [history, hu, List.map_cons, ih ht]

theorem run_append {s u : σ} {acts : List α} (h : run step s acts = some u) (more : List α) :
    run step s (acts ++ more) = run step u more := by
  induction acts generalizing s with
  | nil => rw [List.nil_append, Option.some.inj h]
  | cons a acts ih =>
    obtain ⟨t, ht, hu⟩ := run_cons_eq_some.mp h
    rw [List.cons_append, run, ht, Option.bind_some, ih hu]

theorem history_append {s u : σ} {acts : List α} (h : run step s acts = some u) (more : List α) :
    history step s (acts ++ more) = history step s acts ++ history step u more := by
  induction acts generalizing s with
  | nil => rw [List.nil_append, Option.some.inj h, history, List.nil_append]
  | cons a acts ih =>
    obtain ⟨t, ht, hu⟩ := run_cons_eq_some.mp h
    simp only [List.cons_append, history, ht, ih hu]

end Retrace.Steps
