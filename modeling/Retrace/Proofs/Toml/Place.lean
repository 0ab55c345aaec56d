import Retrace.Toml.Document

/-!
# What the lines of a document speak of

Each line speaks of one place in the tree of a document, and leaves all others as they are. So a value is found under
a heading exactly when a line has put it there, wherever in the document the line stands.
-/

namespace Retrace.Toml

/-- What a line says about its place: a value, a table of its own, or one more table of a list. -/
inductive Saying where
  | value (v : Node)
  | table
  | next

namespace Line

/-- The place that a line speaks of, when assignments go to the table `current`. -/
def place (current : List String) : Line → List String
  | .assign path key _ => current ++ (path ++ [key])
  | .header path key => path ++ [key]
  | .arrayHeader path key => path ++ [key]

def saying : Line → Saying
  | .assign _ _ v => .value v
  | .header .. => .table
  | .arrayHeader .. => .next

/-- The table that assignments go to after the line. -/
def opens (current : List String) : Line → List String
  | .assign .. => current
  | .header path key => path ++ [key]
  | .arrayHeader path key => path ++ [key]

end Line

/-- All that lines say, each with its place. -/
def sayings : List String → List Line → List (List String × Saying)
  | _, [] => []
  | current, l :: ls => (l.place current, l.saying) :: sayings (l.opens current) ls

namespace Entries

variable {es es' : Entries} {k j : String} {v : Node}

theorem any_key : es.any (·.1 == k) = (es.get? k).isSome := by
  induction es with
  | nil => rfl
  | cons e es ih =>
    by_cases he : e.1 = k <;> simp_all [get?]

theorem get?_append (es : Entries) (k : String) (v : Node) (j : String) :
    get? (es ++ [(k, v)]) j = (es.get? j).or (if k = j then some v else none) := by
  rw [get?, get?, List.find?_append, Option.map_or]
  by_cases h : k = j <;> simp [h]

theorem get?_cons (e : String × Node) (es : Entries) (k : String) :
    get? (e :: es) k = if e.1 = k then some e.2 else es.get? k := by
  by_cases h : e.1 = k <;> simp [get?, h]

theorem get?_map_self (h : (es.get? k).isSome) :
    get? (es.map fun e => if e.1 == k then (k, v) else e) k = some v := by
  induction es with
  | nil => cases h
  | cons e es ih =>
    rw [get?_cons] at h
    by_cases he : e.1 = k
    · simp [get?_cons, he]
    · simpa [get?_cons, he] using ih (by simpa [he] using h)

theorem get?_map_of_ne (h : j ≠ k) :
    get? (es.map fun e => if e.1 == k then (k, v) else e) j = es.get? j := by
  induction es with
  | nil => rfl
  | cons e es ih =>
    by_cases he : e.1 = k
    · simpa [get?_cons, he, h.symm] using ih
    · simpa [get?_cons, he] using congrArg (if e.1 = j then some e.2 else ·) ih

@[simp] theorem get?_put_self (es : Entries) (k : String) (v : Node) : (es.put k v).get? k = some v := by
  rw [put, any_key]
  split
  · rename_i h
    exact get?_map_self h
  · rename_i h
    simp [get?_append, Option.not_isSome_iff_eq_none.mp h]

theorem get?_put_of_ne (es : Entries) (v : Node) (h : j ≠ k) : (es.put k v).get? j = es.get? j := by
  rw [put]
  split
  · exact get?_map_of_ne h
  · simp [get?_append, h.symm]

theorem add?_eq_some : es.add? k v = some es' ↔ es.get? k = none ∧ es' = es ++ [(k, v)] := by
  rw [add?, any_key]
  cases es.get? k <;> simp [eq_comm]

/-- The table at a key, empty when there is none. -/
def under (es : Entries) (k : String) : Entries :=
  match es.get? k with
  | some (.table _ sub) => sub
  | _ => []

/-- The key has a table, or nothing yet. -/
def Sectional (es : Entries) (k : String) : Prop := es.get? k = none ∨ ∃ kind sub, es.get? k = some (.table kind sub)

theorem under_of_none (h : es.get? k = none) : es.under k = [] := by
  rw [under, h]

theorem under_of_table {kind : TableKind} {sub : Entries} (h : es.get? k = some (.table kind sub)) :
    es.under k = sub := by
  rw [under, h]

theorem under_congr (h : es'.get? k = es.get? k) : es'.under k = es.under k := by
  rw [under, under, h]

theorem Sectional.congr (hes : es.Sectional k) (h : es'.get? k = es.get? k) : es'.Sectional k := by
  rwa [Sectional, h]

theorem sectional_put (es : Entries) (k : String) (kind : TableKind) (sub : Entries) :
    (es.put k (.table kind sub)).Sectional k :=
  Or.inr ⟨kind, sub, get?_put_self ..⟩

theorem under_put (es : Entries) (k : String) (kind : TableKind) (sub : Entries) :
    (es.put k (.table kind sub)).under k = sub :=
  under_of_table (get?_put_self ..)

end Entries

open Entries

/-- All that a line can do to the entries that its place is reached from. -/
inductive Reaches : List String → Saying → Entries → Entries → Prop where
  | value {k : String} {v : Node} {es : Entries} (hnew : es.get? k = none) : Reaches [k] (.value v) es (es ++ [(k, v)])
  | table {k : String} {es es' : Entries} (h : openTable? k es = some es') : Reaches [k] .table es es'
  | next {k : String} {es es' : Entries} (h : openNext? k es = some es') : Reaches [k] .next es es'
  | make {k : String} {kind : TableKind} {p : List String} {w : Saying} {es sub : Entries} (hnew : es.get? k = none)
      (h : Reaches p w [] sub) : Reaches (k :: p) w es (es.put k (.table kind sub))
  | enter {k : String} {kind : TableKind} {p : List String} {w : Saying} {es sub sub' : Entries}
      (hold : es.get? k = some (.table kind sub)) (h : Reaches p w sub sub') :
      Reaches (k :: p) w es (es.put k (.table kind sub'))
  | enterLast {k : String} {p : List String} {w : Saying} {es : Entries} {each : List Entries}
      (hold : es.get? k = some (.tables each)) (each' : List Entries) (hp : p ≠ []) :
      Reaches (k :: p) w es (es.put k (.tables each'))

section
variable {w : Saying} {es es' : Entries} {k : String} {p q : List String}

theorem reaches_alterAt {f : Entries → Option Entries} (hq : q ≠ [])
    (hf : ∀ {es es'}, f es = some es' → Reaches q w es es') (h : alterAt f p es = some es') :
    Reaches (p ++ q) w es es' := by
  induction p generalizing es es' with
  | nil => exact hf h
  | cons k p ih =>
    rw [alterAt] at h
    split at h
    · rename_i hnew
      obtain ⟨sub, hsub, rfl⟩ := Option.map_eq_some_iff.mp h
      exact .make hnew (ih hsub)
    · rename_i hold
      split at h
      · cases h
      · obtain ⟨sub', hsub, rfl⟩ := Option.map_eq_some_iff.mp h
        exact .enter hold (ih hsub)
    · rename_i hold
      obtain ⟨each', -, rfl⟩ := Option.map_eq_some_iff.mp h
      exact .enterLast hold each' fun hp => hq (List.append_eq_nil_iff.mp hp).2
    · cases h

theorem reaches_addDotted {v : Node} {atTop dotted : Bool} (h : addDotted? k v p atTop dotted es = some es') :
    Reaches (p ++ [k]) (.value v) es es' := by
  induction p generalizing atTop dotted es es' with
  | nil =>
    rw [addDotted?] at h
    split at h
    · cases h
    · obtain ⟨hnew, rfl⟩ := add?_eq_some.mp h
      exact .value hnew
  | cons j p ih =>
    rw [addDotted?] at h
    split at h
    · rename_i hnew
      obtain ⟨sub, hsub, rfl⟩ := Option.map_eq_some_iff.mp h
      exact .make hnew (ih hsub)
    · rename_i hold
      split at h
      · cases h
      · obtain ⟨sub', hsub, rfl⟩ := Option.map_eq_some_iff.mp h
        exact .enter hold (ih hsub)
    · rename_i hold
      obtain ⟨each', -, rfl⟩ := Option.map_eq_some_iff.mp h
      exact .enterLast hold each' (by simp)
    · cases h

theorem reaches_line {d d' : Draft} {l : Line} (h : d.line? l = some d') :
    Reaches (l.place d.current) l.saying d.root d'.root ∧ d'.current = l.opens d.current := by
  cases l with
  | assign path key v =>
    obtain ⟨root, hroot, rfl⟩ := Option.map_eq_some_iff.mp h
    exact ⟨reaches_alterAt (by simp) reaches_addDotted hroot, rfl⟩
  | header path key =>
    obtain ⟨root, hroot, rfl⟩ := Option.map_eq_some_iff.mp h
    exact ⟨reaches_alterAt (by simp) .table hroot, rfl⟩
  | arrayHeader path key =>
    obtain ⟨root, hroot, rfl⟩ := Option.map_eq_some_iff.mp h
    exact ⟨reaches_alterAt (by simp) .next hroot, rfl⟩

theorem Reaches.ne_nil (h : Reaches p w es es') : p ≠ [] := by
  cases h <;> exact nofun

theorem Reaches.get?_of_ne (h : Reaches (k :: p) w es es') {j : String} (hj : j ≠ k) : es'.get? j = es.get? j := by
  cases h with
  | value => simp [get?_append, hj.symm]
  | table h =>
    unfold openTable? at h
    split at h <;> cases h <;> exact get?_put_of_ne _ _ hj
  | next h =>
    unfold openNext? at h
    split at h <;> cases h <;> exact get?_put_of_ne _ _ hj
  | make | enter | enterLast => exact get?_put_of_ne _ _ hj

end

/-! ## One value -/

/-- The line says nothing about the field of the section: neither of the field or below it, nor that the section is
anything but a table with a header. -/
structure Aside (heading field : String) (p : List String) (w : Saying) : Prop where
  table : p = [heading] → w = .table
  beside : ¬[heading, field] <+: p

section
variable {w : Saying} {es es' : Entries} {heading field : String} {p : List String}

theorem Reaches.get?_under {sub sub' : Entries} (h : Reaches p w sub sub')
    (haside : Aside heading field (heading :: p) w) :
    sub'.get? field = sub.get? field := by
  cases p with
  | nil => exact absurd rfl h.ne_nil
  | cons j p =>
    refine h.get?_of_ne ?_
    rintro rfl
    exact haside.beside (by simp)

theorem Reaches.aside (h : Reaches p w es es') (haside : Aside heading field p w) (hes : es.Sectional heading) :
    es'.Sectional heading ∧ (es'.under heading).get? field = (es.under heading).get? field := by
  cases p with
  | nil => exact absurd rfl h.ne_nil
  | cons k p =>
    by_cases hk : heading = k
    · subst hk
      cases h with
      | value | next => cases haside.table rfl
      | table h =>
        unfold openTable? at h
        split at h
        · rename_i hnone
          cases h
          exact ⟨sectional_put .., by rw [under_put, under_of_none hnone]⟩
        · rename_i hold
          cases h
          exact ⟨sectional_put .., by rw [under_put, under_of_table hold]⟩
        · cases h
      | make hnew h => exact ⟨sectional_put .., by rw [under_put, under_of_none hnew, h.get?_under haside]⟩
      | enter hold h => exact ⟨sectional_put .., by rw [under_put, under_of_table hold, h.get?_under haside]⟩
      | enterLast hold =>
        obtain hnone | ⟨kind, sub, htable⟩ := hes
        · cases hold.symm.trans hnone
        · cases hold.symm.trans htable
    · have hsame := h.get?_of_ne hk
      exact ⟨hes.congr hsame, by rw [under_congr hsame]⟩

theorem Reaches.new {sub sub' : Entries} {v : Node} (h : Reaches [field] (.value v) sub sub') :
    sub.get? field = none ∧ sub'.get? field = some v := by
  cases h with
  | value hnew => exact ⟨hnew, by simp [get?_append, hnew]⟩
  | make _ h | enter _ h => exact absurd rfl h.ne_nil
  | enterLast _ _ hp => exact absurd rfl hp

theorem Reaches.given {v : Node} (h : Reaches [heading, field] (.value v) es es') (hes : es.Sectional heading) :
    es'.Sectional heading ∧ (es.under heading).get? field = none ∧ (es'.under heading).get? field = some v := by
  cases h with
  | make hnew h =>
    rw [under_put, under_of_none hnew]
    exact ⟨sectional_put .., h.new⟩
  | enter hold h =>
    rw [under_put, under_of_table hold]
    exact ⟨sectional_put .., h.new⟩
  | enterLast hold =>
    obtain hnone | ⟨kind, sub, htable⟩ := hes
    · cases hold.symm.trans hnone
    · cases hold.symm.trans htable

/-- A field of a section has the value that a line gives it there, or the one it had before. -/
theorem get?_under_foldlM {ls : List Line} {d d' : Draft} (h : ls.foldlM Draft.line? d = some d')
    (hall : ∀ s ∈ sayings d.current ls, (∃ v, s = ([heading, field], .value v)) ∨ Aside heading field s.1 s.2)
    (hd : d.root.Sectional heading) : d'.root.Sectional heading ∧ ∀ v,
      (d'.root.under heading).get? field = some v ↔
        (d.root.under heading).get? field = some v ∨ ([heading, field], .value v) ∈ sayings d.current ls := by
  induction ls generalizing d with
  | nil =>
    cases h
    exact ⟨hd, fun v => by simp [sayings]⟩
  | cons l ls ih =>
    rw [List.foldlM_cons] at h
    obtain ⟨d₁, hl, h⟩ := Option.bind_eq_some_iff.mp h
    obtain ⟨hreach, hcurrent⟩ := reaches_line hl
    rw [sayings, ← hcurrent] at hall ⊢
    have hrest := fun s hs => hall s (List.mem_cons_of_mem _ hs)
    rcases hall _ (List.mem_cons_self ..) with ⟨w, hw⟩ | haside
    · obtain ⟨hplace, hsaying⟩ := Prod.mk.inj hw
      rw [hplace, hsaying] at hreach
      obtain ⟨hsection, hnone, hsome⟩ := hreach.given hd
      obtain ⟨hsection', hvalue⟩ := ih h hrest hsection
      refine ⟨hsection', fun v => ?_⟩
      rw [hvalue v, hnone, hsome, hw, List.mem_cons]
      simp [eq_comm]
    · obtain ⟨hsection, hsame⟩ := hreach.aside haside hd
      obtain ⟨hsection', hvalue⟩ := ih h hrest hsection
      refine ⟨hsection', fun v => ?_⟩
      rw [hvalue v, hsame, List.mem_cons]
      refine or_congr_right ⟨Or.inr, fun hmem => hmem.resolve_left fun heq => ?_⟩
      obtain ⟨hplace, -⟩ := Prod.mk.inj heq
      exact haside.beside (by simp [← hplace])

/-- In a document that is well formed, a field of a section has the value that a line gives it. -/
theorem get?_under_ofLines? {ls : List Line} (h : ofLines? ls = some es)
    (hall : ∀ s ∈ sayings [] ls, (∃ v, s = ([heading, field], .value v)) ∨ Aside heading field s.1 s.2) :
    es.Sectional heading ∧
      ∀ v, (es.under heading).get? field = some v ↔ ([heading, field], .value v) ∈ sayings [] ls := by
  obtain ⟨d', hd', rfl⟩ := Option.map_eq_some_iff.mp h
  obtain ⟨hsection, hvalue⟩ := get?_under_foldlM hd' hall (Or.inl rfl)
  refine ⟨hsection, fun v => ?_⟩
  rw [hvalue v]
  simp [under, get?]

end

end Retrace.Toml
