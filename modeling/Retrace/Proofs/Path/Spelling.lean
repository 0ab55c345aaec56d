import Mathlib.Logic.Relation
import Retrace.Proofs.Path.Split

/-!
# Spellings of a path

Repeated slashes, dots between slashes or at the end, and a slash that closes a path say nothing. Two paths are
spellings of each other exactly when they have the same components.
-/

namespace Retrace

namespace Bytes

theorem join_cons (sep : UInt8) (first : Bytes) (rest : List Bytes) :
    join sep (first :: rest) = first ++ rest.flatMap (sep :: ·) := by
  induction rest generalizing first with
  | nil => simp [join]
  | cons s rest ih =>
    rw [join, ih]
    · simp
    · exact List.cons_ne_nil _ _

end Bytes

namespace Path

/-- One step to a plainer spelling. -/
inductive Plainer : Path → Path → Prop where
  /-- A slash that repeats another is left out. -/
  | slash (a b : Bytes) : Plainer ⟨a ++ slash :: slash :: b⟩ ⟨a ++ slash :: b⟩
  /-- A dot between slashes is left out. -/
  | inner (a b : Bytes) : Plainer ⟨a ++ slash :: (dot ++ slash :: b)⟩ ⟨a ++ slash :: b⟩
  /-- A dot at the end is left out. -/
  | last (a : Bytes) : Plainer ⟨a ++ slash :: dot⟩ ⟨a ++ [slash]⟩
  /-- The slash at the end is left out, unless it is the root. -/
  | closing {a : Bytes} (ha : a ≠ []) : Plainer ⟨a ++ [slash]⟩ ⟨a⟩

/-- The paths differ only by slashes and dots that say nothing. -/
def Respelled : Path → Path → Prop := Relation.EqvGen Plainer

namespace Respelled

variable {p q r : Path}

theorem refl (p : Path) : p.Respelled p := Relation.EqvGen.refl p

theorem symm (h : p.Respelled q) : q.Respelled p := Relation.EqvGen.symm p q h

theorem trans (h : p.Respelled q) (h' : q.Respelled r) : p.Respelled r := Relation.EqvGen.trans p q r h h'

theorem of_plainer (h : Plainer p q) : p.Respelled q := Relation.EqvGen.rel p q h

end Respelled

/-! ## Components -/

variable {p q : Path}

theorem componentOf_ne_root (s : Bytes) : componentOf s ≠ .root := by
  unfold componentOf
  split
  · nofun
  · split <;> nofun

theorem componentOf_injective : Function.Injective componentOf := by
  intro s t h
  unfold componentOf at h
  split at h <;> split at h <;> (try split at h) <;> (try split at h) <;> simp_all

theorem segments_ne_nil (p : Path) : p.segments ≠ [] := by
  obtain ⟨first, rest, h⟩ := Bytes.split_eq_cons slash p.raw
  exact fun hnil => List.cons_ne_nil first rest (h.symm.trans hnil)

theorem components_cons (hp : p.raw ≠ []) {first : Bytes} {rest : List Bytes} (h : p.segments = first :: rest) :
    p.components = (if first = [] then .root else componentOf first) :: bodyComponents rest := by
  have hjoin : Bytes.join slash p.segments = p.raw := Bytes.join_split slash p.raw
  unfold components
  rw [h] at hjoin ⊢
  split
  · rename_i hnil
    cases hnil
  · rename_i hnil
    rw [hnil] at hjoin
    exact absurd hjoin.symm hp
  · rename_i hnil
    cases hnil
    rw [if_pos rfl]
  · rename_i hfirst heq
    cases heq
    rw [if_neg hfirst]

theorem components_nil (hp : p.raw = []) : p.components = [] := by
  obtain rfl : p = ⟨[]⟩ := congrArg Path.mk hp
  rfl

theorem bodyComponents_append (ss ts : List Bytes) :
    bodyComponents (ss ++ ts) = bodyComponents ss ++ bodyComponents ts := by
  simp [bodyComponents]

theorem components_slash {a : Bytes} {first : Bytes} {rest : List Bytes} (ha : Bytes.split slash a = first :: rest)
    (b : Bytes) : components ⟨a ++ slash :: b⟩ =
      (if first = [] then .root else componentOf first) :: bodyComponents (rest ++ Bytes.split slash b) := by
  refine components_cons (by simp) ?_
  rw [segments, Bytes.split_append_cons, ha, List.cons_append]

theorem components_of_plainer (h : Plainer p q) : p.components = q.components := by
  cases h with
  | slash a b =>
    obtain ⟨first, rest, ha⟩ := Bytes.split_eq_cons slash a
    rw [components_slash ha, components_slash ha, Bytes.split, if_pos rfl]
    simp [bodyComponents, isIdle]
  | inner a b =>
    obtain ⟨first, rest, ha⟩ := Bytes.split_eq_cons slash a
    rw [components_slash ha, components_slash ha, Bytes.split_append_cons]
    simp [bodyComponents, isIdle, show Bytes.split slash dot = [dot] from rfl]
  | last a =>
    obtain ⟨first, rest, ha⟩ := Bytes.split_eq_cons slash a
    rw [components_slash ha, components_slash ha]
    simp [bodyComponents, isIdle, show Bytes.split slash dot = [dot] from rfl,
      show Bytes.split slash [] = [[]] from rfl]
  | @closing a hne =>
    obtain ⟨first, rest, ha⟩ := Bytes.split_eq_cons slash a
    rw [components_slash ha, components_cons hne ha]
    simp [bodyComponents, isIdle, show Bytes.split slash [] = [[]] from rfl]

theorem components_of_respelled (h : p.Respelled q) : p.components = q.components := by
  induction h with
  | rel p q h => exact components_of_plainer h
  | refl p => rfl
  | symm p q _ ih => exact ih.symm
  | trans p q r _ _ ih ih' => exact ih.trans ih'

/-! ## The plainest spelling -/

/-- The segments that say something, each after a slash. -/
def tail (rest : List Bytes) : Bytes := (rest.filter (!isIdle ·)).flatMap (slash :: ·)

theorem respelled_tail {a : Bytes} {rest : List Bytes} (ha : a ≠ [] ∨ tail rest ≠ []) :
    Respelled ⟨a ++ rest.flatMap (slash :: ·)⟩ ⟨a ++ tail rest⟩ := by
  induction rest generalizing a with
  | nil => exact .refl _
  | cons s rest ih =>
    by_cases hs : isIdle s = true
    · have htail : tail (s :: rest) = tail rest := by simp [tail, hs]
      rw [htail] at ha ⊢
      refine Respelled.trans ?_ (ih ha)
      obtain rfl | rfl : s = [] ∨ s = dot := by simpa [isIdle] using hs
      · cases rest with
        | nil => exact .of_plainer (by simpa using Plainer.closing (ha.resolve_right (by simp [tail])))
        | cons t rest => exact .of_plainer (.slash a (t ++ rest.flatMap (slash :: ·)))
      · cases rest with
        | nil =>
          refine (Respelled.of_plainer (.last a)).trans (.of_plainer ?_)
          simpa using Plainer.closing (ha.resolve_right (by simp [tail]))
        | cons t rest => exact .of_plainer (by simpa using Plainer.inner a (t ++ rest.flatMap (slash :: ·)))
    · have htail : tail (s :: rest) = slash :: s ++ tail rest := by simp [tail, hs]
      have hmore := @ih (a ++ slash :: s) (Or.inl (by simp))
      rw [htail]
      simpa using hmore

theorem respelled_root {rest : List Bytes} (hrest : rest ≠ []) (hidle : tail rest = []) :
    Respelled ⟨rest.flatMap (slash :: ·)⟩ ⟨[slash]⟩ := by
  obtain ⟨s, rest, rfl⟩ := List.exists_cons_of_ne_nil hrest
  have hs : isIdle s = true := by
    by_contra hs
    simp [tail, hs] at hidle
  have hnone : tail rest = [] := by simpa [tail, hs] using hidle
  have hmore : Respelled ⟨slash :: s ++ rest.flatMap (slash :: ·)⟩ ⟨slash :: s⟩ := by
    simpa [hnone] using @respelled_tail (slash :: s) rest (Or.inl (by simp))
  refine Respelled.trans (by simpa using hmore) ?_
  obtain rfl | rfl : s = [] ∨ s = dot := by simpa [isIdle] using hs
  · exact .refl _
  · exact .of_plainer (.last [])

/-- The plainest spelling of the path with these segments. -/
def plainest (first : Bytes) (rest : List Bytes) : Path :=
  if first = [] ∧ tail rest = [] then ⟨[slash]⟩ else ⟨first ++ tail rest⟩

theorem respelled_plainest (hp : p.raw ≠ []) {first : Bytes} {rest : List Bytes} (h : p.segments = first :: rest) :
    p.Respelled (plainest first rest) := by
  have hraw : p = ⟨first ++ rest.flatMap (slash :: ·)⟩ := by
    have hjoin : Bytes.join slash p.segments = p.raw := Bytes.join_split slash p.raw
    rw [h, Bytes.join_cons] at hjoin
    exact congrArg Path.mk hjoin.symm
  unfold plainest
  split
  · rename_i hnone
    obtain ⟨rfl, htail⟩ := hnone
    rw [hraw, List.nil_append] at hp ⊢
    exact respelled_root (fun hnil => hp (by simp [hnil])) htail
  · rename_i hsome
    rw [hraw]
    exact respelled_tail (by by_cases hfirst : first = [] <;> simp_all)

/-- Two paths are spellings of each other exactly when they have the same components. -/
theorem respelled_iff : p.Respelled q ↔ p.components = q.components := by
  refine ⟨components_of_respelled, fun h => ?_⟩
  by_cases hp : p.raw = []
  · by_cases hq : q.raw = []
    · obtain rfl : p = q := congrArg Path.mk (hp.trans hq.symm)
      exact .refl p
    · obtain ⟨first, rest, hs⟩ := Bytes.split_eq_cons slash q.raw
      rw [components_nil hp, components_cons hq hs] at h
      cases h
  · obtain ⟨first, rest, hs⟩ := Bytes.split_eq_cons slash p.raw
    by_cases hq : q.raw = []
    · rw [components_nil hq, components_cons hp hs] at h
      cases h
    · obtain ⟨first', rest', hs'⟩ := Bytes.split_eq_cons slash q.raw
      rw [components_cons hp hs, components_cons hq hs'] at h
      obtain ⟨hfirst, hrest⟩ := List.cons.inj h
      have hsame : first = first' := by
        by_cases hnil : first = [] <;> by_cases hnil' : first' = [] <;>
          simp only [hnil, hnil', if_true, if_false] at hfirst
        · rw [hnil, hnil']
        · exact absurd hfirst.symm (componentOf_ne_root _)
        · exact absurd hfirst (componentOf_ne_root _)
        · exact componentOf_injective hfirst
      have hkept : tail rest = tail rest' := by
        rw [tail, tail, (List.map_inj_right fun _ _ h => componentOf_injective h).mp hrest]
      refine (respelled_plainest hp hs).trans (Respelled.symm ?_)
      rw [plainest, hsame, hkept]
      exact respelled_plainest hq hs'

end Path

end Retrace
