/-!
# What is over before the next comes

Things that begin at their moments and take their time. Those that nothing disturbs are over before the next one begins
and, if there is a stop, before the stop.
-/

namespace Retrace.Live

/-- Those that are over before the next one begins, the last one before the stop. -/
def undisturbed (span : String → Nat) (stop : Option Nat) : List (Nat × String) → List (Nat × String)
  | [] => []
  | [e] => if stop.all (e.1 + span e.2 < ·) then [e] else []
  | e :: f :: rest =>
    if e.1 + span e.2 < f.1 then e :: undisturbed span stop (f :: rest) else undisturbed span stop (f :: rest)

variable {span : String → Nat} {stop : Option Nat}

/-- What begins next is a stop for all that was before. -/
theorem undisturbed_append (l : List (Nat × String)) (f : Nat × String) (rest : List (Nat × String)) :
    undisturbed span stop (l ++ f :: rest) = undisturbed span (some f.1) l ++ undisturbed span stop (f :: rest) := by
  induction l with
  | nil => rfl
  | cons e l ih =>
    cases l with
    | nil =>
      simp only [List.cons_append, List.nil_append, undisturbed, Option.all_some, decide_eq_true_eq]
      split <;> rfl
    | cons g l =>
      simp only [List.cons_append, undisturbed] at ih ⊢
      rw [ih]
      split <;> rfl

theorem undisturbed_concat (l : List (Nat × String)) (e : Nat × String) :
    undisturbed span stop (l ++ [e]) =
      undisturbed span (some e.1) l ++ if stop.all (e.1 + span e.2 < ·) then [e] else [] := by
  rw [undisturbed_append]
  rfl

/-- The stop matters for the last one only. -/
theorem undisturbed_congr {stop' : Option Nat} {l : List (Nat × String)}
    (h : ∀ e ∈ l.getLast?, stop.all (e.1 + span e.2 < ·) = stop'.all (e.1 + span e.2 < ·)) :
    undisturbed span stop l = undisturbed span stop' l := by
  rcases List.eq_nil_or_concat l with rfl | ⟨l, e, rfl⟩
  · rfl
  · rw [List.concat_eq_append, undisturbed_concat, undisturbed_concat, h e (by simp)]

theorem undisturbed_sublist (l : List (Nat × String)) : (undisturbed span stop l).Sublist l := by
  induction l with
  | nil => exact List.Sublist.refl _
  | cons e l ih =>
    cases l with
    | nil =>
      rw [undisturbed]
      split
      · exact List.Sublist.refl _
      · exact List.nil_sublist _
    | cons f l =>
      rw [undisturbed]
      split
      · exact ih.cons_cons e
      · exact ih.cons e

/-- What comes before a stop and stays undisturbed is over before it. -/
theorem over_lt_of_mem_undisturbed {l : List (Nat × String)} {e : Nat × String} {σ : Nat}
    (hl : l.Pairwise fun e f => e.1 ≤ f.1) (hσ : ∀ e ∈ l, e.1 ≤ σ) (h : e ∈ undisturbed span (some σ) l) :
    e.1 + span e.2 < σ := by
  induction l with
  | nil => cases h
  | cons f l ih =>
    obtain ⟨-, hl⟩ := List.pairwise_cons.mp hl
    have ih := ih hl fun e he => hσ e (List.mem_cons_of_mem f he)
    cases l with
    | nil =>
      rw [undisturbed] at h
      split at h
      · rename_i hf
        obtain rfl := List.mem_singleton.mp h
        simpa using hf
      · cases h
    | cons g l =>
      rw [undisturbed] at h
      split at h
      · rcases List.mem_cons.mp h with rfl | h
        · have := hσ g (by simp)
          omega
        · exact ih h
      · exact ih h

/-- The stop, or the moment after `now` when it comes first. -/
def cut (stop : Option Nat) (now : Nat) : Nat := stop.elim (now + 1) (min · (now + 1))

theorem cut_filter (stop : Option Nat) (now : Nat) : cut (stop.filter (· ≤ now)) now = cut stop now := by
  cases stop with
  | none => rfl
  | some σ =>
    by_cases h : σ ≤ now
    · simp [Option.filter, h]
    · simp [Option.filter, h, cut]
      omega

theorem lt_cut_iff {now n : Nat} : n < cut stop now ↔ stop.all (n < ·) = true ∧ n ≤ now := by
  cases stop with
  | none =>
    simp only [cut, Option.elim_none, Option.all_none, true_and]
    omega
  | some σ =>
    simp only [cut, Option.elim_some, Option.all_some, decide_eq_true_eq]
    omega

/-- Nothing that begins later is over. -/
theorem filter_undisturbed_of_later {e : Nat × String} {l : List (Nat × String)} {now : Nat}
    (hl : (e :: l).Pairwise fun e f => e.1 ≤ f.1) (h : ¬e.1 ≤ now) : (e :: l).filter (·.1 ≤ now) = [] ∧
      (undisturbed span stop (e :: l)).filter (fun e => e.1 + span e.2 ≤ now) = [] := by
  have hlater : ∀ f ∈ e :: l, now < f.1 := by
    intro f hf
    rcases List.mem_cons.mp hf with rfl | hf
    · omega
    · have := (List.pairwise_cons.mp hl).1 f hf
      omega
  constructor
  · exact List.filter_eq_nil_iff.mpr fun f hf => by simpa using hlater f hf
  · refine List.filter_eq_nil_iff.mpr fun f hf => ?_
    have := hlater f ((undisturbed_sublist (e :: l)).subset hf)
    simp only [decide_eq_true_eq]
    omega

/-- What has been over by some moment can be told from what has begun by then. -/
theorem filter_undisturbed {l : List (Nat × String)} (hl : l.Pairwise fun e f => e.1 ≤ f.1)
    (hstop : ∀ σ ∈ stop, ∀ e ∈ l, e.1 ≤ σ) (now : Nat) :
    (undisturbed span stop l).filter (fun e => e.1 + span e.2 ≤ now) =
      undisturbed span (some (cut stop now)) (l.filter (·.1 ≤ now)) := by
  induction l with
  | nil => rfl
  | cons e l ih =>
    by_cases hnow : e.1 ≤ now
    · replace hl := (List.pairwise_cons.mp hl).2
      rw [List.filter_cons_of_pos (by simpa using hnow)]
      cases l with
      | nil =>
        simp only [undisturbed, List.filter_nil, Option.all_some, decide_eq_true_eq, lt_cut_iff]
        by_cases hs : stop.all (e.1 + span e.2 < ·) = true
        · by_cases hn : e.1 + span e.2 ≤ now <;> simp [hs, hn]
        · simp [hs]
      | cons f l =>
        have ih := ih hl fun σ hσ g hg => hstop σ hσ g (List.mem_cons_of_mem e hg)
        by_cases hf : f.1 ≤ now
        · rw [List.filter_cons_of_pos (by simpa using hf)] at ih ⊢
          simp only [undisturbed]
          by_cases hlt : e.1 + span e.2 < f.1
          · rw [if_pos hlt, if_pos hlt, List.filter_cons_of_pos (by simp; omega), ih]
          · rw [if_neg hlt, if_neg hlt, ih]
        · -- the next one has not begun, nor has there been a stop
          obtain ⟨hbegun, hover⟩ := @filter_undisturbed_of_later span stop f l now hl hf
          have hstop : ∀ σ ∈ stop, now < σ := fun σ hσ => by
            have := hstop σ hσ f (by simp)
            omega
          rw [hbegun]
          simp only [undisturbed, Option.all_some, decide_eq_true_eq, lt_cut_iff]
          by_cases hn : e.1 + span e.2 ≤ now
          · have hs : stop.all (e.1 + span e.2 < ·) = true := by
              cases stop with
              | none => rfl
              | some σ =>
                have := hstop σ rfl
                simp only [Option.all_some, decide_eq_true_eq]
                omega
            have hlt : e.1 + span e.2 < f.1 := by omega
            rw [if_pos hlt, if_pos ⟨hs, hn⟩, List.filter_cons_of_pos (by simpa using hn), hover]
          · have hover' : ¬ (stop.all (e.1 + span e.2 < ·) = true ∧ e.1 + span e.2 ≤ now) := fun h => hn h.2
            rw [if_neg hover']
            split
            · rw [List.filter_cons_of_neg (by simpa using hn), hover]
            · exact hover
    · obtain ⟨hbegun, hover⟩ := @filter_undisturbed_of_later span stop e l now hl hnow
      rw [hbegun, hover, undisturbed]

end Retrace.Live
