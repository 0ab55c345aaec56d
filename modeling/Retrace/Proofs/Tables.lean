/-!
# Arrays, lists, tables and results

What an array holds after one of its places has changed, what is left of a list that has got one more element, what a
table of keys and values has under a key, and when a computation that may fail has a result.
-/

namespace Retrace

section
variable {α β : Type} {xs : Array α} {i j : Nat} {a b : α}

theorem getElem?_lt (h : xs[i]? = some a) : i < xs.size := (Array.getElem?_eq_some_iff.mp h).1

theorem getElem?_push_cases (h : (xs.push b)[i]? = some a) : xs[i]? = some a ∨ (i = xs.size ∧ a = b) := by
  rw [Array.getElem?_push] at h
  split at h
  · rename_i hi; exact Or.inr ⟨hi, (Option.some.inj h).symm⟩
  · exact Or.inl h

theorem getElem?_push_of_some (h : xs[i]? = some a) (b : α) : (xs.push b)[i]? = some a := by
  rw [Array.getElem?_push_lt (getElem?_lt h), ← h, Array.getElem?_eq_getElem (getElem?_lt h)]

theorem getElem?_setIfInBounds_cases (h : (xs.setIfInBounds i b)[j]? = some a) :
    (i = j ∧ a = b) ∨ (i ≠ j ∧ xs[j]? = some a) := by
  rw [Array.getElem?_setIfInBounds] at h
  split at h
  · rename_i hi
    split at h
    · exact Or.inl ⟨hi, (Option.some.inj h).symm⟩
    · cases h
  · rename_i hi; exact Or.inr ⟨hi, h⟩

theorem map_setIfInBounds_same (f : α → β) (ha : xs[i]? = some a) (hf : f b = f a) :
    (xs.setIfInBounds i b).map f = xs.map f := by
  apply Array.ext_getElem?
  intro j
  rw [Array.getElem?_map, Array.getElem?_map, Array.getElem?_setIfInBounds]
  by_cases hj : i = j
  · subst hj
    rw [if_pos rfl, if_pos (getElem?_lt ha), ha, Option.map_some, Option.map_some, hf]
  · rw [if_neg hj]

end

section
variable {α β : Type} {f : α → Option β} {x : α} {b : β}

theorem filterMap_concat_none (h : f x = none) (xs : List α) : (xs ++ [x]).filterMap f = xs.filterMap f := by
  simp [h]

theorem filterMap_concat_some (h : f x = some b) (xs : List α) : (xs ++ [x]).filterMap f = xs.filterMap f ++ [b] := by
  simp [h]

theorem getLast?_filterMap_concat (f : α → Option β) (xs : List α) (x : α) :
    ((xs ++ [x]).filterMap f).getLast? = (f x).or (xs.filterMap f).getLast? := by
  cases h : f x <;> simp [h]

end

section
variable {κ α : Type} [BEq κ] [LawfulBEq κ]

theorem lookup_filter_of_pos {l : List (κ × α)} {k : κ} {v : α} {p : κ × α → Bool} (h : l.lookup k = some v)
    (hp : p (k, v) = true) : (l.filter p).lookup k = some v := by
  induction l with
  | nil => cases h
  | cons e l ih =>
    obtain ⟨k', v'⟩ := e
    rw [List.lookup_cons] at h
    cases hk : k == k' with
    | true =>
      rw [hk] at h
      obtain rfl := Option.some.inj h
      obtain rfl := eq_of_beq hk
      rw [List.filter_cons_of_pos hp, List.lookup_cons, hk]
    | false =>
      rw [hk] at h
      by_cases hpe : p (k', v') = true
      · rw [List.filter_cons_of_pos hpe, List.lookup_cons, hk]
        exact ih h
      · rw [List.filter_cons_of_neg hpe]
        exact ih h

theorem mem_of_lookup {l : List (κ × α)} {k : κ} {v : α} (h : l.lookup k = some v) : (k, v) ∈ l := by
  obtain ⟨before, after, rfl, -⟩ := List.lookup_eq_some_iff.mp h
  exact List.mem_append_right _ (List.mem_cons_self ..)

theorem lookup_eq_none_of_forall {l : List (κ × α)} {k : κ} (h : ∀ v, (k, v) ∉ l) : l.lookup k = none := by
  cases hl : l.lookup k with
  | none => rfl
  | some v => exact absurd (mem_of_lookup hl) (h v)

variable [DecidableEq κ]

theorem lookup_cons_if (k : κ) (v : α) (l : List (κ × α)) (n : κ) :
    ((k, v) :: l).lookup n = if n = k then some v else l.lookup n := by
  by_cases h : n = k
  · simp [h]
  · rw [List.lookup_cons, beq_eq_false_iff_ne.mpr h, if_neg h]

theorem lookup_filter_key (k : κ) (l : List (κ × α)) (n : κ) :
    (l.filter (·.1 ≠ k)).lookup n = if n = k then none else l.lookup n := by
  induction l with
  | nil => simp
  | cons e l ih =>
    obtain ⟨k', v⟩ := e
    rw [lookup_cons_if]
    by_cases hk : k' = k
    · rw [List.filter_cons_of_neg (by simp [hk]), ih]
      subst hk
      split <;> rfl
    · rw [List.filter_cons_of_pos (by simp [hk]), lookup_cons_if, ih]
      by_cases h : n = k'
      · subst h
        rw [if_pos rfl, if_neg hk, if_pos rfl]
      · rw [if_neg h, if_neg h]

end

section
variable {ε ε' α β : Type}

theorem bind_eq_ok {x : Except ε α} {f : α → Except ε β} {b : β} :
    (x >>= f) = .ok b ↔ ∃ a, x = .ok a ∧ f a = .ok b := by
  cases x with
  | error e => exact ⟨nofun, fun ⟨_, h, _⟩ => nomatch h⟩
  | ok a => exact ⟨fun h => ⟨a, rfl, h⟩, fun ⟨_, rfl, h⟩ => h⟩

theorem map_eq_ok {x : Except ε α} {f : α → β} {b : β} : x.map f = .ok b ↔ ∃ a, x = .ok a ∧ f a = b := by
  cases x with
  | error e => exact ⟨nofun, fun ⟨_, h, _⟩ => nomatch h⟩
  | ok a => exact ⟨fun h => ⟨a, rfl, Except.ok.inj h⟩, fun ⟨_, rfl, h⟩ => congrArg Except.ok h⟩

theorem toOption_eq_some {x : Except ε α} {a : α} : x.toOption = some a ↔ x = .ok a := by
  cases x with
  | error e => exact ⟨nofun, nofun⟩
  | ok b => exact ⟨fun h => congrArg Except.ok (Option.some.inj h), fun h => congrArg some (Except.ok.inj h)⟩

theorem toOption_eq_none {x : Except ε α} : x.toOption = none ↔ ∃ e, x = .error e := by
  cases x with
  | error e => exact ⟨fun _ => ⟨e, rfl⟩, fun _ => rfl⟩
  | ok b => exact ⟨nofun, fun ⟨_, h⟩ => nomatch h⟩

theorem mapError_ok (f : ε → ε') (a : α) : (Except.ok a).mapError f = .ok a := rfl

theorem mapError_error (f : ε → ε') (e : ε) : (Except.error e : Except ε α).mapError f = .error (f e) := rfl

theorem mapError_eq_ok {x : Except ε α} {f : ε → ε'} {a : α} : x.mapError f = .ok a ↔ x = .ok a := by
  cases x with
  | error e => exact ⟨nofun, nofun⟩
  | ok b => exact ⟨fun h => congrArg Except.ok (Except.ok.inj h), fun h => congrArg Except.ok (Except.ok.inj h)⟩

end

end Retrace
