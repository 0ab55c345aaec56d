import Retrace.Run.Process

/-!
# The outcome of a run

What is heard of the process and when the run is cancelled decide what the supervisor does and how the run ends,
whatever order the reports of one moment come in.
-/

namespace Retrace.Run

/-! ## What can happen -/

/-- What a report is about. -/
inductive Part where
  | input
  | output
  | errors
  | process

def Report.part : Report → Part
  | .fed _ => .input
  | .output _ => .output
  | .errors _ => .errors
  | .exited _ => .process

def Report.fault? : Report → Option RunFault
  | .fed (.error e) => some ⟨.input, e⟩
  | .output (.error e) => some ⟨.output, e⟩
  | .errors (.error e) => some ⟨.output, e⟩
  | .exited (.error e) => some ⟨.wait, e⟩
  | _ => none

/-- An event can come before another. At one moment a cancellation is noticed first. Each part reports once, except that
the process can be waited for again when that has failed. -/
structure Precedes (a b : TimedEvent) : Prop where
  le : a.1 ≤ b.1
  notice : a.1 = b.1 → b.2 = .cancelled → a.2 = .cancelled
  once : ∀ r r', a.2 = .heard r → b.2 = .heard r' → r.part = r'.part → ∃ e, r = .exited (.error e)

theorem precedes_of_lt {a b : TimedEvent} (hlt : a.1 < b.1)
    (hpart : ∀ r r', a.2 = .heard r → b.2 = .heard r' → r.part ≠ r'.part) : Precedes a b :=
  ⟨Nat.le_of_lt hlt, fun heq => absurd heq (Nat.ne_of_lt hlt),
    fun r r' hr hr' heq => absurd heq (hpart r r' hr hr')⟩

def Orderly (es : List TimedEvent) : Prop := es.Pairwise Precedes

/-! ## What is to come of it -/

section
variable (d : Delivery) (grace : Nat) (es : List TimedEvent)

/-- The report has come by that moment. -/
def Said (t : Nat) (r : Report) : Prop := ∃ s ≤ t, (s, .heard r) ∈ es

structure Succeeds (t : Nat) (out err : Bytes) (code : Option Int) : Prop where
  fed : Said es t (.fed (.ok ()))
  output : Said es t (.output (.ok out))
  errors : Said es t (.errors (.ok err))
  exit : Said es t (.exited (.ok code))

def Fails (t : Nat) (f : RunFault) : Prop := ∃ r, (t, .heard r) ∈ es ∧ r.fault? = some f

/-- All has succeeded by that moment, or something fails at it. -/
def Decided (t : Nat) : Prop := (∃ f, Fails es t f) ∨ ∃ out err code, Succeeds es t out err code

def Exits (t : Nat) : Prop := ∃ code, (t, .heard (.exited (.ok code))) ∈ es

def WaitFails (t : Nat) : Prop := ∃ e, (t, .heard (.exited (.error e))) ∈ es

/-- What is done about a cancellation, and what comes of it. -/
structure Stopped (t : Nat) (a : Account) : Prop where
  taken : a.taken = [.spawn, .askToStop] ∨ a.taken = [.spawn, .askToStop, .kill] ∨ a.taken = [.spawn, .kill]
  asked : .askToStop ∈ a.taken ↔ ∀ s < t, ¬Exits es s
  killed : .kill ∈ a.taken ↔ (∃ s < t, Exits es s) ∨ d.stop = false ∨ (∃ s ≤ t + grace, WaitFails es s) ∨
    ∀ s ≤ t + grace, ¬Exits es s
  outcome : ∀ s o, a.ending = some (s, o) → t ≤ s ∧ o = .cancelled
  ends : d.kill = false ∨ (∃ s, Exits es s) → ∃ s, a.ending = some (s, .cancelled)

/-- How a run settles. -/
inductive Settles : Account → Prop
  | completed {t out err code} :
    Succeeds es t out err code → (∀ s f, ¬Fails es s f) → (∀ s, Decided es s → t ≤ s) →
      (∀ s, (s, .cancelled) ∈ es → t < s) →
        Settles ⟨[.spawn], some (t, .completed (Utf8.lossy out) (Utf8.lossy err) code)⟩
  | failed {t f} :
    Fails es t f → (∀ s, Decided es s → t ≤ s) → (∀ s, (s, .cancelled) ∈ es → t < s) →
      Settles ⟨[.spawn, .kill], some (t, .failed f)⟩
  | cancelled {t a} :
    (t, .cancelled) ∈ es → (∀ s, (s, .cancelled) ∈ es → t ≤ s) → (∀ s, Decided es s → t ≤ s) →
      Stopped d grace es t a → Settles a
  | undecided : (∀ s, ¬Decided es s) → (∀ s, (s, .cancelled) ∉ es) → Settles ⟨[.spawn], none⟩

end

variable {d : Delivery} {grace t s : Nat} {es seen rest : List TimedEvent} {x y : TimedEvent} {g g' : Gathered}
  {r : Report} {f : RunFault} {o : RunOutcome} {a : Account}

@[simp] theorem Account.taken_after (m : Measure) : (a.after m).taken = m :: a.taken := rfl

@[simp] theorem Account.ending_after (m : Measure) : (a.after m).ending = a.ending := rfl

/-! ## Events around one of them -/

theorem Orderly.before (h : Orderly (seen ++ x :: rest)) (hy : y ∈ seen) : Precedes y x :=
  (List.pairwise_append.mp h).2.2 y hy x List.mem_cons_self

theorem Orderly.after (h : Orderly (seen ++ x :: rest)) (hy : y ∈ rest) : Precedes x y :=
  List.rel_of_pairwise_cons (List.pairwise_append.mp h).2.1 hy

theorem mem_around : y ∈ seen ++ x :: rest ↔ y ∈ seen ∨ y = x ∨ y ∈ rest := by
  simp

theorem Orderly.mem_seen (h : Orderly (seen ++ x :: rest)) (hy : y ∈ seen ++ x :: rest) (hlt : y.1 < x.1) :
    y ∈ seen := by
  rcases mem_around.mp hy with hy | rfl | hy
  · exact hy
  · exact absurd hlt (Nat.lt_irrefl _)
  · exact absurd hlt (Nat.not_lt.mpr (h.after hy).le)

/-- What is decided before an event is decided by those before it. -/
theorem Orderly.decided_seen (h : Orderly (seen ++ x :: rest)) (hs : Decided (seen ++ x :: rest) s) (hlt : s < x.1) :
    Decided seen s := by
  have hsaid : ∀ {r}, Said (seen ++ x :: rest) s r → Said seen s r := by
    intro r hr
    obtain ⟨u, hu, hr⟩ := hr
    exact ⟨u, hu, h.mem_seen hr (Nat.lt_of_le_of_lt hu hlt)⟩
  rcases hs with ⟨f, r, hr, hf⟩ | ⟨out, err, code, hs⟩
  · exact Or.inl ⟨f, r, h.mem_seen hr hlt, hf⟩
  · exact Or.inr ⟨out, err, code, hsaid hs.fed, hsaid hs.output, hsaid hs.errors, hsaid hs.exit⟩

theorem Orderly.said (h : Orderly (seen ++ x :: rest)) (hr : ∃ s, (s, .heard r) ∈ seen ++ [x]) :
    Said (seen ++ x :: rest) x.1 r := by
  obtain ⟨s, hr⟩ := hr
  rcases List.mem_append.mp hr with hr | hr
  · exact ⟨s, (h.before hr).le, List.mem_append_left _ hr⟩
  · rw [← List.mem_singleton.mp hr]
    exact ⟨s, Nat.le_refl s, by simp⟩

/-! ## What has been gathered -/

/-- The report has been taken in. -/
def Gathered.Has (g : Gathered) : Report → Prop
  | .fed (.ok ()) => g.fed = true
  | .output (.ok bs) => some bs = g.output
  | .errors (.ok bs) => some bs = g.errors
  | .exited (.ok code) => some code = g.exit
  | _ => False

theorem Gathered.Has.fault? (h : g.Has r) : r.fault? = none := by
  rcases r with (_ | _) | (_ | _) | (_ | _) | (_ | _) <;> simp_all [Gathered.Has, Report.fault?]

theorem add_eq_error : g.add r = .error f ↔ r.fault? = some f := by
  rcases r with (_ | _) | (_ | _) | (_ | _) | (_ | _) <;> simp [Gathered.add, Report.fault?]

/-- A report takes the place of others of its part. -/
theorem has_add {r' : Report} (h : g.add r = .ok g') : g'.Has r' ↔ r' = r ∨ r'.part ≠ r.part ∧ g.Has r' := by
  rcases r with (_ | _) | (_ | _) | (_ | _) | (_ | _) <;> cases h <;>
    rcases r' with (_ | _) | (_ | _) | (_ | _) | (_ | _) <;> simp [Gathered.Has, Report.part]

theorem outcome?_eq_some : g.outcome? = some o ↔ ∃ out err code, g.Has (.fed (.ok ())) ∧ g.Has (.output (.ok out)) ∧
    g.Has (.errors (.ok err)) ∧ g.Has (.exited (.ok code)) ∧
      o = .completed (Utf8.lossy out) (Utf8.lossy err) code := by
  obtain ⟨fed, output, errors, exit⟩ := g
  cases fed <;> cases output <;> cases errors <;> cases exit <;> simp [Gathered.outcome?, Gathered.Has, eq_comm]

theorem exists_has_of_outcome? (h : g.outcome? = some o) (p : Part) : ∃ r, g.Has r ∧ r.part = p := by
  obtain ⟨out, err, code, hfed, hout, herr, hexit, -⟩ := outcome?_eq_some.mp h
  cases p with
  | input => exact ⟨_, hfed, rfl⟩
  | output => exact ⟨_, hout, rfl⟩
  | errors => exact ⟨_, herr, rfl⟩
  | process => exact ⟨_, hexit, rfl⟩

/-- What has been gathered is what the events so far have said. -/
structure Holds (g : Gathered) (seen : List TimedEvent) : Prop where
  not_cancelled : ∀ s, (s, .cancelled) ∉ seen
  has : ∀ r, g.Has r ↔ ∃ t, (t, .heard r) ∈ seen

theorem holds_empty : Holds {} [] := by
  refine ⟨by simp, ?_⟩
  intro r
  rcases r with (_ | _) | (_ | _) | (_ | _) | (_ | _) <;> simp [Gathered.Has]

theorem Holds.not_fault (h : Holds g seen) (hr : (t, .heard r) ∈ seen) (hf : r.fault? = some f) : False := by
  rw [((h.has r).mpr ⟨t, hr⟩).fault?] at hf
  cases hf

theorem Holds.add (h : Holds g seen) (ho : Orderly (seen ++ [(t, .heard r)])) (hadd : g.add r = .ok g') :
    Holds g' (seen ++ [(t, .heard r)]) := by
  refine ⟨by simp [h.not_cancelled], ?_⟩
  intro r'
  -- The part that reports now has not reported before.
  have hnew : ∀ s, (s, Event.heard r') ∈ seen → r'.part ≠ r.part := by
    intro s hmem hpart
    obtain ⟨e, rfl⟩ := (ho.before hmem).once r' r rfl rfl hpart
    exact h.not_fault hmem rfl
  rw [has_add hadd, h.has]
  constructor
  · intro h
    rcases h with rfl | ⟨-, s, hs⟩
    · exact ⟨t, by simp⟩
    · exact ⟨s, by simp [hs]⟩
  · intro h
    obtain ⟨s, hs⟩ := h
    rcases List.mem_append.mp hs with hs | hs
    · exact Or.inr ⟨hnew s hs, s, hs⟩
    · cases List.mem_singleton.mp hs
      exact Or.inl rfl

theorem Holds.isSome_exit (h : Holds g seen) : g.exit.isSome = true ↔ ∃ s, Exits seen s := by
  simp only [Exits, Option.isSome_iff_exists, eq_comm (a := g.exit)]
  rw [exists_comm]
  exact exists_congr fun code => h.has (.exited (.ok code))

/-- Nothing is decided while something is still to be heard. -/
theorem Holds.not_decided (h : Holds g seen) (hg : g.outcome? = none) : ¬Decided seen s := by
  intro hs
  rcases hs with ⟨f, r, hr, hf⟩ | ⟨out, err, code, hs⟩
  · exact h.not_fault hr hf
  · have hhas : ∀ {r}, Said seen s r → g.Has r := by
      intro r hr
      obtain ⟨t, -, hr⟩ := hr
      exact (h.has r).mpr ⟨t, hr⟩
    have hsome := outcome?_eq_some.mpr ⟨out, err, code, hhas hs.fed, hhas hs.output, hhas hs.errors, hhas hs.exit, rfl⟩
    rw [hg] at hsome
    cases hsome

theorem Holds.le_of_decided (h : Holds g seen) (hg : g.outcome? = none) (ho : Orderly (seen ++ x :: rest))
    (hs : Decided (seen ++ x :: rest) s) : x.1 ≤ s := by
  apply Nat.le_of_not_lt
  intro hlt
  exact h.not_decided hg (ho.decided_seen hs hlt)

theorem Holds.le_of_cancelled (h : Holds g seen) (ho : Orderly (seen ++ x :: rest))
    (hs : (s, .cancelled) ∈ seen ++ x :: rest) : x.1 ≤ s ∧ (x.2 ≠ .cancelled → x.1 < s) := by
  rcases mem_around.mp hs with hs | rfl | hs
  · exact absurd hs (h.not_cancelled s)
  · exact ⟨Nat.le_refl s, fun hx => absurd rfl hx⟩
  · have hp := ho.after hs
    exact ⟨hp.le, fun hx => Nat.lt_of_le_of_ne hp.le fun heq => hx (hp.notice heq rfl)⟩

/-- Once everything is heard nothing fails any more. -/
theorem Holds.not_fails (h : Holds g seen) (hg : g.outcome? = some o) (ho : Orderly (seen ++ rest)) :
    ¬Fails (seen ++ rest) s f := by
  intro hs
  obtain ⟨r, hr, hf⟩ := hs
  obtain ⟨r', hhas, hpart⟩ := exists_has_of_outcome? hg r.part
  obtain ⟨t, hmem⟩ := (h.has r').mp hhas
  rcases List.mem_append.mp hr with hr | hr
  · exact h.not_fault hr hf
  · obtain ⟨e, rfl⟩ := ((List.pairwise_append.mp ho).2.2 _ hmem _ hr).once r' r rfl rfl hpart
    exact h.not_fault hmem rfl

/-! ## Waiting and killing -/

theorem wait_eq_some {r : Except IoError (Option Int)} {after : List TimedEvent} (h : wait es = some (t, r, after)) :
    ∃ before, es = before ++ (t, .heard (.exited r)) :: after ∧ ∀ s r', (s, .heard (.exited r')) ∉ before := by
  induction es using wait.induct with
  | case1 => cases h
  | case2 s r' rest =>
    cases h
    exact ⟨[], rfl, by simp⟩
  | case3 x rest hx ih =>
    rw [wait] at h
    · obtain ⟨before, rfl, hbefore⟩ := ih h
      refine ⟨x :: before, rfl, ?_⟩
      intro s r' hmem
      rcases List.mem_cons.mp hmem with rfl | hmem
      · exact hx s r' rfl
      · exact hbefore s r' hmem
    · exact hx

theorem wait_eq_none (h : wait es = none) (r : Except IoError (Option Int)) : (t, .heard (.exited r)) ∉ es := by
  induction es using wait.induct with
  | case1 => simp
  | case2 s r' rest => cases h
  | case3 x rest hx ih =>
    rw [wait] at h
    · intro hmem
      rcases List.mem_cons.mp hmem with rfl | hmem
      · exact hx t r rfl
      · exact ih h hmem
    · exact hx

/-- The first result of waiting comes no later than any other. -/
theorem wait_le {r : Except IoError (Option Int)} (ho : Orderly es) (h : (s, .heard (.exited r)) ∈ es) :
    ∃ w, wait es = some w ∧ w.1 ≤ s := by
  cases hw : wait es with
  | none => exact absurd h (wait_eq_none hw r)
  | some w =>
    obtain ⟨before, rfl, hbefore⟩ := wait_eq_some hw
    refine ⟨w, rfl, ?_⟩
    rcases mem_around.mp h with h | h | h
    · exact absurd h (hbefore s r)
    · exact Nat.le_of_eq (congrArg Prod.fst h).symm
    · exact (ho.after h).le

theorem wait_first {r : Except IoError (Option Int)} {after : List TimedEvent} (ho : Orderly es)
    (h : wait es = some (t, r, after)) :
    (t, .heard (.exited r)) ∈ es ∧ (∀ y ∈ after, y ∈ es ∧ Precedes (t, .heard (.exited r)) y) ∧
      ∀ u r', (u, .heard (.exited r')) ∈ es → r' = r ∨ (u, .heard (.exited r')) ∈ after := by
  obtain ⟨before, rfl, hbefore⟩ := wait_eq_some h
  refine ⟨by simp, fun y hy => ⟨by simp [hy], ho.after hy⟩, ?_⟩
  intro u r' hu
  rcases mem_around.mp hu with hu | hu | hu
  · exact absurd hu (hbefore u r')
  · cases hu
    exact Or.inl rfl
  · exact Or.inr hu

theorem kill_ending (h : (kill d t es).ending = some (s, o)) :
    (s = t ∨ ∃ r, (s, .heard (.exited r)) ∈ es) ∧ o = .cancelled := by
  cases hk : d.kill with
  | false =>
    simp [kill, hk] at h
    exact ⟨Or.inl h.1.symm, h.2.symm⟩
  | true =>
    simp only [kill, hk, if_true, Account.ending_after, Option.map_eq_some_iff] at h
    obtain ⟨⟨u, r, after⟩, hw, heq⟩ := h
    cases heq
    obtain ⟨before, rfl, -⟩ := wait_eq_some hw
    exact ⟨Or.inr ⟨r, by simp⟩, rfl⟩

theorem kill_ends (h : d.kill = false ∨ ∃ s r, (s, .heard (.exited r)) ∈ es) :
    ∃ s, (kill d t es).ending = some (s, .cancelled) := by
  cases hk : d.kill with
  | false => exact ⟨t, by simp [kill, hk]⟩
  | true =>
    rcases h with h | ⟨s, r, hr⟩
    · rw [hk] at h
      cases h
    · cases hw : wait es with
      | none => exact absurd hr (wait_eq_none hw r)
      | some w => exact ⟨w.1, by simp [kill, hk, hw]⟩

@[simp] theorem kill_taken : (kill d t es).taken = [.kill] := rfl

/-! ## Stopping -/

/-- A process that was asked to stop is killed for one of three reasons, and then its end is awaited. -/
theorem stopped_of_kill {after : List TimedEvent} (hno : ∀ u < t, ¬Exits es u) (hle : t ≤ s)
    (hafter : ∀ u r, (u, .heard (.exited r)) ∈ after → t ≤ u)
    (hwhy : d.stop = false ∨ (∃ u ≤ t + grace, WaitFails es u) ∨ ∀ u ≤ t + grace, ¬Exits es u)
    (hends : ∀ u, Exits es u → ∃ v r, (v, .heard (.exited r)) ∈ after) :
    Stopped d grace es t (.after .spawn (.after .askToStop (kill d s after))) := by
  constructor
  · simp
  · simpa using hno
  · simp [hwhy]
  · intro u o hu
    obtain ⟨hu, ho⟩ := kill_ending hu
    refine ⟨?_, ho⟩
    rcases hu with rfl | ⟨r, hr⟩
    · exact hle
    · exact hafter u r hr
  · intro h
    apply kill_ends
    rcases h with h | ⟨u, hu⟩
    · exact Or.inl h
    · exact Or.inr (hends u hu)

/-- A process that ends in time is not killed. -/
theorem stopped_of_exit (hno : ∀ u < t, ¬Exits es u) (hle : t ≤ s) (hs : s ≤ t + grace) (hstop : d.stop = true)
    (hexit : Exits es s) (hfine : ∀ u, ¬WaitFails es u) :
    Stopped d grace es t (.after .spawn (.after .askToStop { ending := some (s, .cancelled) })) := by
  constructor
  · simp
  · simpa using hno
  · constructor
    · simp
    · intro h
      rcases h with ⟨u, hu, h⟩ | h | ⟨u, -, h⟩ | h
      · exact absurd h (hno u hu)
      · rw [hstop] at h
        cases h
      · exact absurd h (hfine u)
      · exact absurd hexit (h s hs)
  · intro u o hu
    cases hu
    exact ⟨hle, rfl⟩
  · intro
    exact ⟨s, rfl⟩

/-- A process that has ended before cannot be asked to stop. -/
theorem stopped_of_ended (hexit : ∃ s < t, Exits es s) :
    Stopped d grace es t (.after .spawn (kill { d with kill := false } t rest)) := by
  constructor
  · simp
  · simpa using hexit
  · simp [hexit]
  · intro s o hs
    simp [kill] at hs
    exact ⟨Nat.le_of_eq hs.1, hs.2.symm⟩
  · intro
    exact ⟨t, rfl⟩

/-- A process that is not known to have ended is asked to stop. All that is heard of its end comes later. -/
theorem asked_stopped (ho : Orderly rest) (hle : ∀ s r, (s, .heard (.exited r)) ∈ rest → t ≤ s)
    (hmem : ∀ s r, (s, .heard (.exited r)) ∈ es ↔ (s, .heard (.exited r)) ∈ rest) :
    Stopped d grace es t (.after .spawn (terminate d grace t false rest)) := by
  have hawait : ∀ s, Exits es s → ∃ u r, (u, .heard (.exited r)) ∈ rest := by
    intro s hs
    obtain ⟨code, hs⟩ := hs
    exact ⟨s, _, (hmem s _).mp hs⟩
  have hno : ∀ s < t, ¬Exits es s := by
    intro s hlt hs
    obtain ⟨code, hs⟩ := hs
    exact absurd hlt (Nat.not_lt.mpr (hle s _ ((hmem s _).mp hs)))
  rw [terminate, if_neg Bool.false_ne_true]
  by_cases hstop : d.stop
  · rw [if_pos hstop]
    cases hw : (wait rest).filter (·.1 ≤ t + grace) with
    | none =>
      refine stopped_of_kill hno (Nat.le_add_right t grace) hle (Or.inr (Or.inr ?_)) hawait
      intro s hs hexit
      obtain ⟨code, hexit⟩ := hexit
      obtain ⟨w, hwait, hfirst⟩ := wait_le ho ((hmem s _).mp hexit)
      exact Option.filter_eq_none_iff.mp hw w hwait (decide_eq_true (Nat.le_trans hfirst hs))
    | some w =>
      obtain ⟨s, r, after⟩ := w
      obtain ⟨hw, hdecide⟩ := Option.filter_eq_some_iff.mp hw
      have hs : s ≤ t + grace := of_decide_eq_true hdecide
      obtain ⟨hhere, hafter, hothers⟩ := wait_first ho hw
      have hle' : t ≤ s := hle s r hhere
      cases r with
      | ok code =>
        refine stopped_of_exit hno hle' hs hstop ⟨code, (hmem s _).mpr hhere⟩ ?_
        -- The process does not end and fail to be waited for afterwards.
        intro u hu
        obtain ⟨e, hu⟩ := hu
        rcases hothers u _ ((hmem u _).mp hu) with heq | hu
        · cases heq
        · obtain ⟨e', he'⟩ := (hafter _ hu).2.once _ _ rfl rfl rfl
          cases he'
      | error e =>
        have hfails : ∃ u ≤ t + grace, WaitFails es u := ⟨s, hs, e, (hmem s _).mpr hhere⟩
        refine stopped_of_kill hno hle' (fun u r hu => hle u r (hafter _ hu).1) (Or.inr (Or.inl hfails)) ?_
        intro u hu
        obtain ⟨code, hu⟩ := hu
        rcases hothers u _ ((hmem u _).mp hu) with heq | hu
        · cases heq
        · exact ⟨u, _, hu⟩
  · rw [if_neg hstop]
    exact stopped_of_kill hno (Nat.le_refl t) hle (Or.inl (by simpa using hstop)) hawait

/-- What a supervisor does about a cancellation at `t` when `seen` came before it and nothing has failed. -/
theorem terminate_stopped (h : Holds g seen) (ho : Orderly (seen ++ (t, .cancelled) :: rest)) :
    Stopped d grace (seen ++ (t, .cancelled) :: rest) t (.after .spawn (terminate d grace t g.exit.isSome rest)) := by
  cases hended : g.exit.isSome with
  | true =>
    obtain ⟨s, code, hexit⟩ := h.isSome_exit.mp hended
    have hp := ho.before hexit
    have hlt : s < t := Nat.lt_of_le_of_ne hp.le fun heq => nomatch hp.notice heq rfl
    exact stopped_of_ended ⟨s, hlt, code, by simp [hexit]⟩
  | false =>
    refine asked_stopped (List.pairwise_append.mp ho).2.1.of_cons (fun s r hs => (ho.after hs).le) ?_
    intro s r
    have hseen : (s, .heard (.exited r)) ∉ seen := by
      intro hs
      cases r with
      | ok code =>
        have hsome := h.isSome_exit.mpr ⟨s, code, hs⟩
        rw [hended] at hsome
        cases hsome
      | error e => exact h.not_fault hs rfl
    simp [hseen]

/-! ## Whole runs -/

/-- A run settles from wherever driving has come to without a decision. -/
theorem drive_settles (h : Holds g seen) (hg : g.outcome? = none) (ho : Orderly (seen ++ rest)) :
    Settles d grace (seen ++ rest) (.after .spawn (drive d grace g rest)) := by
  induction rest generalizing g seen with
  | nil =>
    rw [List.append_nil]
    exact .undecided (fun s => h.not_decided hg) h.not_cancelled
  | cons x rest ih =>
    have hfirst : ∀ s, Decided (seen ++ x :: rest) s → x.1 ≤ s := fun s => h.le_of_decided hg ho
    obtain ⟨t, e⟩ := x
    cases e with
    | cancelled =>
      exact .cancelled (by simp) (fun s hs => (h.le_of_cancelled ho hs).1) hfirst (terminate_stopped h ho)
    | heard r =>
      have hcancel : ∀ s, (s, .cancelled) ∈ seen ++ (t, .heard r) :: rest → t < s :=
        fun s hs => (h.le_of_cancelled ho hs).2 nofun
      rw [drive]
      cases hadd : g.add r with
      | error f => exact .failed ⟨r, by simp, add_eq_error.mp hadd⟩ hfirst hcancel
      | ok g' =>
        have hsplit : seen ++ (t, .heard r) :: rest = (seen ++ [(t, .heard r)]) ++ rest := by simp
        have hnext : Orderly ((seen ++ [(t, .heard r)]) ++ rest) := by rwa [← hsplit]
        have h' : Holds g' (seen ++ [(t, .heard r)]) := h.add (List.pairwise_append.mp hnext).1 hadd
        cases hg' : g'.outcome? with
        | none =>
          simp only [hg']
          rw [hsplit]
          exact ih h' hg' hnext
        | some o =>
          obtain ⟨out, err, code, hfed, hout, herr, hexit, rfl⟩ := outcome?_eq_some.mp hg'
          simp only [hg']
          have hsaid : ∀ {r'}, g'.Has r' → Said (seen ++ (t, .heard r) :: rest) t r' :=
            fun hr => ho.said ((h'.has _).mp hr)
          refine .completed ⟨hsaid hfed, hsaid hout, hsaid herr, hsaid hexit⟩ ?_ hfirst hcancel
          intro s f
          rw [hsplit]
          exact h'.not_fails hg' hnext

/-- A run that is cancelled beforehand starts nothing, one whose process cannot be started has failed, and any other
settles by what is heard of its process and when it is cancelled. -/
theorem runs_settle (d : Delivery) (grace : Nat) :
    (∀ spawned, supervise d grace true spawned = ⟨[], some (0, .cancelled)⟩) ∧
    (∀ e, supervise d grace false (.error e) = ⟨[.spawn], some (0, .failed ⟨.spawn, e⟩)⟩) ∧
    ∀ es, Orderly es → Settles d grace es (supervise d grace false (.ok es)) := by
  refine ⟨fun spawned => rfl, fun e => rfl, ?_⟩
  intro es ho
  exact drive_settles holds_empty rfl ho

/-- A process takes its time to stop. -/
def dawdling : List TimedEvent :=
  [(1, .heard (.fed (.ok ()))), (2, .heard (.output (.ok (.ofString "x")))), (3, .cancelled),
    (9, .heard (.exited (.ok none)))]

theorem runs_settle_when_dawdling :
    Orderly dawdling ∧
    Settles {} 5 dawdling ⟨[.spawn, .askToStop, .kill], some (9, .cancelled)⟩ ∧
    Settles {} 6 dawdling ⟨[.spawn, .askToStop], some (9, .cancelled)⟩ := by
  have ho : Orderly dawdling := by
    simp only [Orderly, dawdling, List.pairwise_cons, List.mem_cons, List.not_mem_nil, or_false, forall_eq_or_imp,
      forall_eq]
    refine ⟨⟨?_, ?_, ?_⟩, ⟨?_, ?_⟩, ?_, nofun, .nil⟩
    all_goals
      apply precedes_of_lt (by decide)
      intro r r' hr hr'
      cases hr <;> cases hr' <;> nofun
  exact ⟨ho, (runs_settle {} 5).2.2 dawdling ho, (runs_settle {} 6).2.2 dawdling ho⟩

/-! ## Events in their order -/

theorem notAfter_trans (a b c : TimedEvent) (hab : notAfter a b = true) (hbc : notAfter b c = true) :
    notAfter a c = true := by
  simp [notAfter] at *
  omega

theorem notAfter_total (a b : TimedEvent) : (notAfter a b || notAfter b a) = true := by
  simp [notAfter]
  omega

theorem rank_eq_zero {e : Event} : e.rank = 0 ↔ e = .cancelled := by
  cases e with
  | cancelled => exact iff_of_true rfl rfl
  | heard r => cases r <;> exact iff_of_false nofun nofun

/-- Of events at one moment a cancellation comes first. -/
theorem cancelled_of_notAfter {a b : TimedEvent} (h : notAfter a b = true) (heq : a.1 = b.1) (hb : b.2 = .cancelled) :
    a.2 = .cancelled := by
  have hrank : a.2.rank ≤ b.2.rank := by simpa [notAfter, heq] using h
  rw [rank_eq_zero.mpr hb] at hrank
  exact rank_eq_zero.mp (Nat.le_zero.mp hrank)

/-- Cancellations and reports of different parts are orderly once they are in their order. -/
theorem orderly_inOrder
    (hpart : es.Pairwise fun a b => ∀ r r', a.2 = .heard r → b.2 = .heard r' → r.part ≠ r'.part) :
    Orderly (inOrder es) := by
  have hperm : (inOrder es).Perm es := List.mergeSort_perm es notAfter
  have hsorted : (inOrder es).Pairwise fun a b => notAfter a b = true :=
    List.pairwise_mergeSort notAfter_trans notAfter_total es
  have hpart' := hperm.symm.pairwise hpart (by
    intro a b h r r' hr hr' heq
    exact h r' r hr' hr heq.symm)
  refine (hsorted.and hpart').imp ?_
  intro a b h
  refine ⟨?_, cancelled_of_notAfter h.1, ?_⟩
  · have := h.1
    simp [notAfter] at this
    omega
  · intro r r' hr hr' heq
    exact absurd heq (h.2 r r' hr hr')

theorem reports_apart (c : Shell.Course) :
    (reports c).Pairwise fun a b => ∀ r r', a.2 = .heard r → b.2 = .heard r' → r.part ≠ r'.part := by
  obtain ⟨ending, input, outputEnds, errorsEnd, output, errors, changes⟩ := c
  cases ending <;> cases input <;> cases outputEnds <;> cases errorsEnd <;> simp [reports, Report.part]

/-- A run settles by what is heard of its program, whenever it is cancelled and however often. -/
theorem reports_settle (d : Delivery) (grace : Nat) (cancellations : List Nat) (c : Shell.Course) :
    Settles d grace (inOrder (cancellations.map (·, .cancelled) ++ reports c))
      (supervise d grace false (.ok (inOrder (cancellations.map (·, .cancelled) ++ reports c)))) := by
  refine drive_settles holds_empty rfl (orderly_inOrder ?_)
  refine List.pairwise_append.mpr ⟨?_, reports_apart c, ?_⟩
  · rw [List.pairwise_map]
    refine List.pairwise_of_forall ?_
    intro s t r r' hr
    cases hr
  · intro a ha b hb r r' hr
    obtain ⟨t, -, rfl⟩ := List.mem_map.mp ha
    cases hr

/-- A run that nobody cancels settles by what is heard of the program. -/
theorem alone_settles {r : Runner} {m : Machine} {text : String} {c : Shell.Course} (h : r.course m text none = .ok c) :
    ∃ a, Settles {} r.grace (inOrder (reports c)) a ∧ (r.alone m text).ending = a.ending := by
  have hsettles := reports_settle {} r.grace [] c
  rw [List.map_nil, List.nil_append] at hsettles
  refine ⟨_, hsettles, ?_⟩
  simp only [Runner.alone, h]
  split <;> rename_i he
  · exact he.symm
  · rfl

end Retrace.Run
