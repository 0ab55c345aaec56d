import Retrace.Proofs.Live.Calls

/-!
# The pipelines of a session

Pipelines are numbered as their schedulers are. At most one of them has not been stopped, and its scheduler is the
only one that may still start runs.
-/

namespace Retrace.Live

namespace Engine

/-- For each scheduler whether it has been shut down. -/
def doors (e : Engine) : Array Bool := e.schedulers.map (·.isShutDown)

theorem Calm.doors {e e' : Engine} (c : Calm e e') : e'.doors = e.doors := by
  have h := congrArg (Array.map fun f => f.2.2) c.schedulers
  rw [Array.map_map, Array.map_map] at h
  exact h

theorem doors_schedule {e e' : Engine} {i : Nat} {text : String} (h : e.schedule i text = some e') :
    e'.doors = e.doors := by
  obtain ⟨s, hs, -, rfl⟩ := schedule_some h
  exact map_setIfInBounds_same _ hs rfl

theorem doors_handed (e : Engine) (p : Nat) (text : Option String) : (e.handed p text).doors = e.doors := by
  rcases e.handed_cases p text with h | ⟨x, -, h⟩
  · rw [h]
  · exact doors_schedule h

@[simp] theorem doors_size (e : Engine) : e.doors.size = e.schedulers.size := by simp [doors]

@[simp] theorem doors_addScheduler (e : Engine) : e.addScheduler.2.doors = e.doors.push false := by
  simp [doors, addScheduler]

theorem doors_shutDown {e e' : Engine} {i : Nat} (h : e.shutDown i = some e') :
    e'.doors = e.doors.setIfInBounds i true := by
  obtain ⟨s, hs, ⟨hd, rfl⟩ | ⟨-, -, rfl⟩⟩ := shutDown_some h
  · rw [doors, ← map_setIfInBounds_same _ hs (b := s) rfl, Array.map_setIfInBounds, hd]
    simp
  · simp [doors, closed, Array.map_setIfInBounds]

theorem schedule_isSome_iff {e : Engine} {p : Nat} {text : String} :
    (e.schedule p text).isSome = true ↔ e.doors[p]? = some false := by
  cases hc : e.schedulers[p]? with
  | none => simp [schedule, doors, hc]
  | some c =>
    cases hd : c.isShutDown with
    | true => simp [schedule_of_shutDown hc hd, doors, hc, hd]
    | false => simp [schedule_of_open hc hd, doors, hc, hd]

theorem handed_of_door {e : Engine} {p : Nat} (hp : e.doors[p]? ≠ some false) (text : Option String) :
    e.handed p text = e := by
  cases text with
  | none => rfl
  | some x =>
    have : e.schedule p x = none := by
      cases h : e.schedule p x with
      | none => rfl
      | some e' => exact absurd (schedule_isSome_iff.mp (by rw [h]; rfl)) hp
    simp [handed, this]

end Engine

namespace Session

/-- The pipeline that has not been stopped: the one that the session has, or the one whose stop is under way. -/
def unstopped (s : Session) : Option Nat :=
  match s.change with
  | .none => s.active
  | .cancelling p _ => some p
  | .closing p _ => some p
  | .opening _ => none

/-- What a step does to the schedulers that may still start runs: nothing, unless it shuts down that of the pipeline
that has not been stopped, or makes a new pipeline when there is none. -/
theorem doors_cases {s s' : Session} {a : Action} (hi : s.change ≠ .none → s.active = none)
    (hs : s.step a = some s') : (s'.change ≠ .none → s'.active = none) ∧
      ((s'.engine.doors = s.engine.doors ∧ s'.pipelines.size = s.pipelines.size ∧ s'.unstopped = s.unstopped) ∨
        (∃ p, s.unstopped = some p ∧ s'.unstopped = none ∧
          s'.engine.doors = s.engine.doors.setIfInBounds p true ∧ s'.pipelines.size = s.pipelines.size) ∨
        s.unstopped = none ∧ s'.unstopped = some s.engine.schedulers.size ∧
          s'.engine.doors = s.engine.doors.push false ∧ s'.pipelines.size = s.pipelines.size + 1) := by
  cases a with
  | beginStart text =>
    obtain ⟨hc, ⟨p, ha, rfl⟩ | ⟨ha, rfl⟩⟩ := beginStart_some hs
    · exact ⟨fun _ => rfl, Or.inl ⟨rfl, rfl, by simp [unstopped, hc, ha]⟩⟩
    · exact ⟨fun _ => ha, Or.inl ⟨rfl, rfl, by simp [unstopped, hc, ha]⟩⟩
  | beginStop =>
    obtain ⟨hc, ⟨p, ha, rfl⟩ | ⟨ha, rfl⟩⟩ := beginStop_some hs
    · exact ⟨fun _ => rfl, Or.inl ⟨rfl, rfl, by simp [unstopped, hc, ha]⟩⟩
    · exact ⟨hi, Or.inl ⟨rfl, rfl, rfl⟩⟩
  | cancelCountdown =>
    obtain ⟨p, r, hc, rfl⟩ := cancelCountdown_some hs
    exact ⟨fun _ => hi (by simp [hc]), Or.inl ⟨rfl, by simp [modifyPipeline], by simp [unstopped, hc]⟩⟩
  | closeScheduler =>
    obtain ⟨p, r, e, hc, he, rfl⟩ := closeScheduler_some hs
    have hn : s.active = none := hi (by simp [hc])
    have hu : ({ s with engine := e, change := afterStop r } : Session).unstopped = none := by
      cases r <;> simp [unstopped, afterStop, hn]
    exact ⟨fun _ => hn, Or.inr (Or.inl ⟨p, by simp [unstopped, hc], hu, Engine.doors_shutDown he, rfl⟩)⟩
  | openPipeline =>
    obtain ⟨text, hc, rfl⟩ := openPipeline_some hs
    refine ⟨fun hn => absurd rfl hn, Or.inr (Or.inr ⟨by simp [unstopped, hc], rfl, ?_, by simp [opened]⟩)⟩
    rw [opened, Engine.doors_handed, Engine.doors_addScheduler]
  | edit now text =>
    obtain ⟨-, ⟨p, -, rfl⟩ | ⟨-, rfl⟩⟩ := edit_some hs
    · exact ⟨hi, Or.inl ⟨rfl, by simp [modifyPipeline], rfl⟩⟩
    · exact ⟨hi, Or.inl ⟨rfl, rfl, rfl⟩⟩
  | expire now p =>
    obtain rfl := expire_some hs
    exact ⟨hi, Or.inl ⟨rfl, by simp [modifyPipeline], rfl⟩⟩
  | takeText p number =>
    obtain ⟨l, -, -, rfl⟩ := takeText_some hs
    exact ⟨hi, Or.inl ⟨rfl, by simp, rfl⟩⟩
  | handOn p i =>
    obtain ⟨l, text, -, -, rfl⟩ := handOn_some hs
    exact ⟨hi, Or.inl ⟨Engine.doors_handed .., by simp, rfl⟩⟩
  | fire p =>
    obtain rfl : s.fire p = s' := Option.some.inj hs
    cases hl : s.pipelines[p]? with
    | none => rw [fire_of_none hl]; exact ⟨hi, Or.inl ⟨rfl, rfl, rfl⟩⟩
    | some l =>
      rw [fire_of_pipeline hl]
      exact ⟨hi, Or.inl ⟨Engine.doors_handed .., by simp, rfl⟩⟩
  | engine b =>
    obtain ⟨hb, e, he, rfl⟩ := engineStep_some hs
    exact ⟨hi, Or.inl ⟨(Engine.step_calm hb he).doors, rfl, rfl⟩⟩

/-- How the runs of a session have ended. -/
def Ended (past : List (Session × Action)) (w : Nat) (o : RunOutcome) : Prop :=
  Action.engine (.finish w o) ∈ past.map Prod.snd

theorem ended_append {past : List (Session × Action)} {s : Session} {a : Action} {w : Nat} {o : RunOutcome} :
    Ended (past ++ [(s, a)]) w o ↔ Ended past w o ∨ a = .engine (.finish w o) := by
  simp [Ended, eq_comm]

/-- What holds of a session after any steps. -/
structure Lifecycle (past : List (Session × Action)) (s : Session) : Prop where
  regular : Engine.Regular (Ended past) s.engine
  sized : s.pipelines.size = s.engine.schedulers.size
  inactive : s.change ≠ .none → s.active = none
  door : ∀ {i : Nat}, s.engine.doors[i]? = some false ↔ s.unstopped = some i

namespace Lifecycle

variable {past : List (Session × Action)} {s s' : Session}

theorem start (delay : Nat) : Lifecycle [] { delay } where
  regular := Engine.Regular.empty.congr fun w o => by simp [Ended]
  sized := rfl
  inactive h := absurd rfl h
  door := by simp [Engine.doors, unstopped]

theorem unstopped_of_active (h : Lifecycle past s) {p : Nat} (hp : s.active = some p) :
    s.change = .none ∧ s.unstopped = some p := by
  by_cases hc : s.change = .none
  · exact ⟨hc, by simp [unstopped, hc, hp]⟩
  · rw [h.inactive hc] at hp
    cases hp

theorem pipeline_of_active (h : Lifecycle past s) {p : Nat} (hp : s.active = some p) :
    ∃ l, s.pipelines[p]? = some l := by
  have hlt := getElem?_lt (h.door.mpr (h.unstopped_of_active hp).2)
  rw [Engine.doors_size, ← h.sized] at hlt
  exact ⟨_, Array.getElem?_eq_getElem hlt⟩

/-- The schedulers of the pipelines before the active one take no text. -/
theorem door_of_other (h : Lifecycle past s) {p q : Nat} (hp : s.active = some p) (hq : q ≠ p) :
    s.engine.doors[q]? ≠ some false := by
  intro hd
  have hu := h.door.mp hd
  rw [(h.unstopped_of_active hp).2] at hu
  exact hq (Option.some.inj hu).symm

theorem all_shutDown (h : Lifecycle past s) (hu : s.unstopped = none) {i : Nat} {c : Scheduler}
    (hc : s.engine.schedulers[i]? = some c) : c.isShutDown = true := by
  cases hd : c.isShutDown with
  | true => rfl
  | false =>
    have := h.door.mp (show s.engine.doors[i]? = some false by simp [Engine.doors, hc, hd])
    rw [hu] at this
    cases this

theorem regular_next (h : Lifecycle past s) {a : Action} (hs : s.step a = some s') :
    Engine.Regular (Ended (past ++ [(s, a)])) s'.engine := by
  rcases engine_cases hs with ⟨he, ha⟩ | ⟨b, he, hb⟩ | ⟨text, hc, rfl, he⟩
  · rw [he]
    exact h.regular.congr fun w o => by simp [ended_append, ha w o]
  · exact (h.regular.step he).congr fun w o => by rw [ended_append, hb]
  · have hu : s.unstopped = none := by simp [unstopped, hc]
    exact ((h.regular.addScheduler (h.all_shutDown hu)).step he).congr fun w o => by simp [ended_append]

theorem next {a : Action} (h : Lifecycle past s) (hs : s.step a = some s') : Lifecycle (past ++ [(s, a)]) s' := by
  have hreg := h.regular_next hs
  have hsize : ∀ e : Engine, e.schedulers.size = e.doors.size := fun e => (Engine.doors_size e).symm
  obtain ⟨hi, ⟨hd, hp, hu⟩ | ⟨p, hu, hu', hd, hp⟩ | ⟨hu, hu', hd, hp⟩⟩ := doors_cases h.inactive hs
  · refine ⟨hreg, ?_, hi, ?_⟩
    · rw [hp, hsize, hd, ← hsize]
      exact h.sized
    · rw [hd, hu]
      exact h.door
  · refine ⟨hreg, ?_, hi, ?_⟩
    · rw [hp, hsize, hd, Array.size_setIfInBounds, ← hsize]
      exact h.sized
    · intro i
      rw [hu', hd, Array.getElem?_setIfInBounds]
      by_cases hip : p = i
      · subst hip; simp
      · simp [hip, h.door, hu]
  · refine ⟨hreg, ?_, hi, ?_⟩
    · rw [hp, hsize, hd, Array.size_push, ← hsize, h.sized]
    · intro i
      rw [hd, hu', Array.getElem?_push, Engine.doors_size]
      by_cases hin : i = s.engine.schedulers.size
      · simp [hin]
      · simp [hin, h.door, hu, eq_comm]

theorem of_run {delay : Nat} {acts : List Action} (h : Steps.run step { delay } acts = some s) :
    Lifecycle (Steps.history step { delay } acts) s :=
  Steps.run_induction (P := Lifecycle) Lifecycle.next (start delay) h

end Lifecycle

end Session

end Retrace.Live
