import Retrace.Proofs.Output.Sink

/-!
# Calls that go as far as the machine can

When no call writes less than it is given, a write is a run of the sink to its end, with the same results.
-/

namespace Retrace.Output

namespace Sink

variable {target : Path} {m m' : Machine} {w : Sink}

theorem numberedName_eq (n : Nat) : ∃ name, numberedName n = Bytes.ofString name := by
  unfold numberedName
  exact ⟨_, rfl⟩

theorem freshName_eq (taken : List Bytes) : ∃ name, freshName taken = Bytes.ofString name := by
  unfold freshName
  cases hf : ((List.range (taken.length + 1)).map numberedName).find? (· ∉ taken) with
  | none =>
    rw [Option.getD_none]
    exact numberedName_eq 0
  | some n =>
    obtain ⟨k, -, rfl⟩ := List.mem_map.mp (List.mem_of_find?_eq_some hf)
    rw [Option.getD_some]
    exact numberedName_eq k

/-- The name of the next new file is used nowhere on the way to the target. -/
def NextUnused (target : Path) (m : Machine) : Prop :=
  ∀ taken, m.names (m.cwd.path.join (directoryOf target)) = .ok taken → isUnused m.tree target (freshName taken) = true

theorem createTemp_fresh (hfree : NextUnused target m) {t : Path}
    (h : createTemp m (directoryOf target) freshName = .ok (t, m')) :
    ∃ name, isUnused m.tree target (Bytes.ofString name) = true ∧
      createTemp m (directoryOf target) (fun _ => Bytes.ofString name) = .ok (t, m') := by
  obtain ⟨st, hs, h⟩ := bind_eq_ok.mp h
  obtain ⟨here, hf, h⟩ := bind_eq_ok.mp h
  split at h
  · rename_i es hd
    obtain ⟨name, hname⟩ := freshName_eq (es.map (·.1))
    have hnames : m.names (m.cwd.path.join (directoryOf target)) = .ok (es.map (·.1)) := by
      unfold Machine.names
      rw [hf]
      simp only [bind, Except.bind, hd]
    refine ⟨name, hname ▸ hfree _ hnames, ?_⟩
    unfold createTemp
    rw [← hname]
    simp only [bind, Except.bind, hs, hf, hd]
    exact h
  · cases h

theorem exists_step {c : Call Path} (hc : w.point.call? = some c)
    (hfree : w.point = .create → NextUnused target w.machine) :
    ∃ a w', a.Within ∧ step target w a = some w' ∧ w'.machine = (c.perform target w.machine).2 ∧
      w'.point = w.point.next w.data (c.perform target w.machine).1 := by
  cases hp : w.point with
  | ended r =>
    rw [hp] at hc
    cases hc
  | create =>
    rw [hp] at hc
    cases hc
    cases ht : createTemp w.machine (directoryOf target) freshName with
    | ok tm =>
      obtain ⟨t, m⟩ := tm
      obtain ⟨name, hunused, hcreate⟩ := createTemp_fresh (hfree hp) ht
      refine ⟨.create name, { w.answer (.created t) m with file := w.machine.tree.nodes.size, synced := false },
        by rintro _ ⟨⟩, ?_, ?_, ?_⟩
      · simp only [step, hp, hunused, hcreate, if_true]
      · simp only [Call.perform, ht, answer]
      · simp only [Call.perform, ht, answer, hp]
    | error e =>
      refine ⟨.fail e, w.answer (.failed e) w.machine, by rintro _ ⟨⟩, ?_, ?_, ?_⟩
      · simp only [step, hp]
      · simp only [Call.perform, ht, answer]
      · simp only [Call.perform, ht, answer, hp]
  | write t rest =>
    rw [hp] at hc
    cases hc
    refine ⟨.write (rest.length + 1), { w.perform target (.write t rest) with synced := false },
      by rintro _ ⟨⟩, ?_, rfl, ?_⟩
    · simp only [step, hp, List.take_of_length_le (Nat.le_succ rest.length), if_neg (Nat.succ_ne_zero rest.length)]
    · exact answer_point hp _ (Call.perform target w.machine (.write t rest)).2
  | sync t =>
    rw [hp] at hc
    cases hc
    exact ⟨.sync, { w.perform target (.sync t) with synced := true }, by rintro _ ⟨⟩, by simp only [step, hp], rfl,
      answer_point hp _ w.machine⟩
  | rename t =>
    rw [hp] at hc
    cases hc
    exact ⟨.rename, w.perform target (.rename t), by rintro _ ⟨⟩, by simp only [step, hp], rfl, answer_point hp ..⟩
  | remove t e =>
    rw [hp] at hc
    cases hc
    exact ⟨.remove, { w.perform target (.remove t) with synced := true }, by rintro _ ⟨⟩, by simp only [step, hp], rfl,
      answer_point hp _ (Call.perform target w.machine (.remove t)).2⟩

/-- How many calls are left at most. -/
def callsLeft : Replace Path → Nat
  | .create => 5
  | .write .. => 4
  | .sync _ => 3
  | .rename _ => 2
  | .remove .. => 1
  | .ended _ => 0

theorem callsLeft_writing (t : Path) (rest : Bytes) : callsLeft (.writing t rest) < 5 := by
  unfold Replace.writing
  split <;> simp [callsLeft]

theorem callsLeft_le (p : Replace Path) : callsLeft p ≤ 5 := by
  cases p <;> simp [callsLeft]

theorem callsLeft_next {p : Replace Path} {c : Call Path} (hc : p.call? = some c) (target : Path) (data : Bytes)
    (m : Machine) :
    callsLeft (p.next data (c.perform target m).1) < callsLeft p := by
  cases p with
  | ended => cases hc
  | create =>
    cases hc
    simp only [Call.perform]
    split
    · exact callsLeft_writing ..
    · simp [Replace.next, callsLeft]
  | write t rest =>
    cases hc
    simp only [Call.perform]
    split
    · simp [Replace.next, Replace.writing, callsLeft]
    · simp [Replace.next, callsLeft]
  | rename t =>
    cases hc
    simp only [Call.perform]
    split <;> simp [Replace.next, callsLeft]
  | sync | remove =>
    cases hc
    simp [Call.perform, Replace.next, callsLeft]

theorem run_of_runCalls : ∀ {fuel : Nat} {w : Sink}, callsLeft w.point ≤ fuel →
    (w.point = .create → NextUnused target w.machine) →
    ∃ acts w' r, (∀ a ∈ acts, a.Within) ∧ Steps.run (step target) w acts = some w' ∧ w'.point = .ended r ∧
      runCalls target w.data fuel w.point w.machine = (.ended r, w'.machine) := by
  intro fuel
  induction fuel with
  | zero =>
    intro w hfuel _
    cases hp : w.point with
    | ended r => exact ⟨[], w, r, nofun, rfl, hp, rfl⟩
    | create | write | sync | rename | remove =>
      rw [hp] at hfuel
      simp [callsLeft] at hfuel
  | succ fuel ih =>
    intro w hfuel hfree
    cases hc : w.point.call? with
    | none =>
      cases hp : w.point with
      | ended r => exact ⟨[], w, r, nofun, rfl, hp, by simp [runCalls, Replace.call?]⟩
      | create | write | sync | rename | remove =>
        rw [hp] at hc
        cases hc
    | some c =>
      obtain ⟨a, v, ha, hstep, hmachine, hpoint⟩ := exists_step hc hfree
      have hless := callsLeft_next hc target w.data w.machine
      rw [← hpoint] at hless
      have hnot : v.point = .create → NextUnused target v.machine := by
        intro hv
        rw [hv] at hless
        exact absurd (callsLeft_le w.point) (Nat.not_le.mpr hless)
      obtain ⟨acts, w', r, hacts, hrun, hend, hcalls⟩ := ih (by omega) hnot
      refine ⟨a :: acts, w', r, ?_, Steps.run_cons_eq_some.mpr ⟨v, hstep, hrun⟩, hend, ?_⟩
      · rintro b hb
        rcases List.mem_cons.mp hb with rfl | hb
        · exact ha
        · exact hacts b hb
      · rw [runCalls, hc]
        dsimp only
        rw [← hmachine, ← hpoint, ← step_data ha hstep]
        exact hcalls

/-- A file is replaced by one with the contents, or there is an error and all is as it was. -/
theorem replace_as_a_whole (hm : m.Proper) (hr : m.Readable target) (hfree : NextUnused target m) {data : Bytes}
    {r : Except IoError Unit} (h : replace m target data = (r, m')) :
    match r with
    | .ok () => m'.read target = .ok data ∧ Spares target m m'
    | .error _ => m'.read target = m.read target ∧ Unchanged m m' := by
  have hfuel : callsLeft .create ≤ 8 := by decide
  obtain ⟨acts, w, r', hacts, hrun, hend, hcalls⟩ :=
    run_of_runCalls (w := { machine := m, point := .create, data }) hfuel fun _ => hfree
  obtain ⟨hstage, hdata⟩ := stage_of_run hm hr (.waiting rfl rfl rfl) hacts hrun
  obtain ⟨-, hl, hshown⟩ := hstage.ended hend
  have hcalls : runCalls target data 8 .create m = (.ended r', w.machine) := hcalls
  unfold replace at h
  rw [hcalls] at h
  cases h
  cases r with
  | error e => exact hshown
  | ok u => exact ⟨hshown.trans (congrArg Except.ok hdata), hl.spares⟩

end Sink

end Retrace.Output
