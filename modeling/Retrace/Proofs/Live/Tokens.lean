import Retrace.Token

/-!
# Tokens and their registry

What counting, minting and cancelling do to the tokens that exist: only a cancellation changes an old token, and a new
one is active.
-/

namespace Retrace.Registry

@[simp] theorem cancelled_size_cancel (r : Registry) (t : Token) :
    (r.cancel t).cancelled.size = r.cancelled.size := by
  simp [cancel]

theorem isCancelled_cancel (r : Registry) (t u : Token) :
    (r.cancel t).isCancelled u = true ↔ r.isCancelled u = true ∨ (t.id = u.id ∧ u.id < r.cancelled.size) := by
  simp only [isCancelled, cancel, Array.getD_eq_getD_getElem?, Array.getElem?_setIfInBounds]
  by_cases h : t.id = u.id
  · by_cases hu : u.id < r.cancelled.size <;> simp [h, hu]
  · simp [h]

@[simp] theorem mint_id (r : Registry) (c : Clock) : (r.mint c).1.id = r.cancelled.size := rfl

@[simp] theorem mint_generation (r : Registry) (c : Clock) : (r.mint c).1.generation = r.count c + 1 := rfl

@[simp] theorem cancelled_mint (r : Registry) (c : Clock) : (r.mint c).2.cancelled = r.cancelled.push false := rfl

@[simp] theorem counts_mint (r : Registry) (c : Clock) :
    (r.mint c).2.counts = r.counts.setIfInBounds c.id (r.count c + 1) := rfl

theorem isCancelled_newToken (r : Registry) (g : Generation) (u : Token) :
    (r.newToken g).2.isCancelled u = r.isCancelled u := by
  simp only [isCancelled, newToken, Array.getD_eq_getD_getElem?, Array.getElem?_push]
  split
  · rename_i h; simp [h]
  · rfl

theorem isCancelled_mint (r : Registry) (c : Clock) (u : Token) : (r.mint c).2.isCancelled u = r.isCancelled u :=
  isCancelled_newToken (r.next c).2 _ u

theorem cancel_of_isCancelled {r : Registry} {t : Token} (h : r.isCancelled t = true) : r.cancel t = r := by
  have hflag : r.cancelled.setIfInBounds t.id true = r.cancelled := by
    rw [isCancelled, Array.getD_eq_getD_getElem?] at h
    apply Array.ext_getElem?
    intro i
    rw [Array.getElem?_setIfInBounds]
    by_cases hi : t.id = i
    · subst hi
      cases hc : r.cancelled[t.id]? with
      | none => simp [hc] at h
      | some b => simp_all [(Array.getElem?_eq_some_iff.mp hc).1]
    · rw [if_neg hi]
  rw [cancel, hflag]

theorem isCancelled_of_size_le (r : Registry) (u : Token) (h : r.cancelled.size ≤ u.id) : r.isCancelled u = false := by
  simp [isCancelled, Array.getElem?_eq_none h]

@[simp] theorem newClock_snd_counts (r : Registry) : r.newClock.2.counts = r.counts.push 0 := rfl

end Retrace.Registry
