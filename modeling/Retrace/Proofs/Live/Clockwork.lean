import Mathlib.Data.List.Nodup
import Retrace.Live.Timeline
import Retrace.Proofs.Live.Moves

/-!
# How a timeline goes on

Settling makes single steps until none is left, and time goes on from one moment at which something is due to the
next. Both are bounded by fuel; a measure that each step diminishes shows that there is enough of it.
-/

namespace Retrace.Live

/-! ## Results that find the display at rest -/

/-- Nothing waits for the display or is being shown, and the gate is free. -/
structure Display.AtRest (d : Display) : Prop where
  empty : d.queue = []
  idle : d.shower = .idle
  free : d.gateHeld = false

namespace Display.AtRest

variable {d : Display} (h : d.AtRest)
include h

theorem step_eq_none (r : Registry) : d.step r = none := by
  simp [Display.step, Display.put, Display.take, h.idle, h.empty]

theorem drain_eq (r : Registry) : d.drain r = d := by
  simp [Display.drain, drainWithin, h.step_eq_none]

theorem gateFree_eq : d.gateFree = true := by
  simp [Display.gateFree, h.idle, h.free]

/-- The display with a result shown, if it is still wanted. -/
theorem drain_send (r : Registry) (t : Token) (text : String) :
    (d.send (.publish t text)).2.drain r = if r.isCancelled t then d else { d with shown := (t, text) :: d.shown } := by
  obtain ⟨hq, hi, hf⟩ := h
  obtain ⟨queue, shower, gateHeld, shown, acknowledged⟩ := d
  obtain rfl : queue = [] := hq
  obtain rfl : shower = .idle := hi
  obtain rfl : gateHeld = false := hf
  cases hc : r.isCancelled t <;>
    simp [Display.send, closed, Display.drain, drainWithin, Display.step, Display.put, Display.take, hc]

end Display.AtRest

namespace Engine

theorem getElem?_setStage {e : Engine} {w : Nat} {k : Worker} (hk : e.workers[w]? = some k) (g : Stage) :
    (e.setStage w k g).workers[w]? = some { k with stage := g } :=
  Array.getElem?_setIfInBounds_self_of_lt (getElem?_lt hk)

@[simp] theorem setStage_setStage (e : Engine) (w : Nat) (k : Worker) (g g' : Stage) :
    (e.setStage w k g).setStage w { k with stage := g } g' = e.setStage w k g' := by
  simp [setStage]

/-- What the display has shown once the outcome of a run has been dealt with. -/
def shownAfter (e : Engine) (t : Token) : RunOutcome → List (Token × String)
  | .completed stdout _ _ => if e.registry.isCancelled t then e.display.shown else (t, stdout) :: e.display.shown
  | _ => e.display.shown

/-- The engine when a run has ended and its outcome has been dealt with. -/
def concluded (e : Engine) (w : Nat) (k : Worker) (s : Scheduler) (o : RunOutcome) : Engine :=
  { e.reported w k s with display := { e.display with shown := e.shownAfter k.token o } }

/-- The outcome of a run is looked at, queued if it is wanted, and its scheduler is told. -/
theorem conclude_eq {e : Engine} {w : Nat} {k : Worker} {s : Scheduler} (hk : e.workers[w]? = some k)
    (hr : k.stage = .running) (hs : e.schedulers[k.scheduler]? = some s) (o : RunOutcome) :
    e.conclude w o = { e.reported w k s with
      display := match Display.approve e.registry k.token o with
        | some text => (e.display.send (.publish k.token text)).2
        | none => e.display } := by
  have hfinish : e.finish w o = some (e.setStage w k (.finished o)) := by simp [finish, hk, hr]
  have hpublished := getElem?_setStage hk .published
  have hcheck := getElem?_setStage hk (.finished o)
  cases ha : Display.approve e.registry k.token o with
  | none =>
    have hc : (e.setStage w k (.finished o)).check w = some (e.setStage w k .published) := by
      simp only [check, hcheck]
      rw [show (e.setStage w k (.finished o)).registry = e.registry from rfl, ha]
      simp
    have hsend : (e.setStage w k .published).send w = none := by simp only [send, hpublished]
    have hclear : (e.setStage w k .published).clear w = some (e.reported w k s) := by
      simp only [clear, hpublished, if_true]
      rw [show (e.setStage w k .published).schedulers = e.schedulers from rfl, hs]
      simp [reported, Scheduler.cleared, setStage]
    simp only [conclude, hfinish, hc, hsend, hclear, Option.getD_some, Option.getD_none]
    rfl
  | some text =>
    have happroved := getElem?_setStage hk (.approved text)
    have hc : (e.setStage w k (.finished o)).check w = some (e.setStage w k (.approved text)) := by
      simp only [check, hcheck]
      rw [show (e.setStage w k (.finished o)).registry = e.registry from rfl, ha]
      simp
    have hsend : (e.setStage w k (.approved text)).send w = some
        { e.setStage w k .published with display := (e.display.send (.publish k.token text)).2 } := by
      simp only [send, happroved, setStage_setStage]
      rfl
    have hclear : ({ e.setStage w k .published with
        display := (e.display.send (.publish k.token text)).2 } : Engine).clear w =
        some { e.reported w k s with display := (e.display.send (.publish k.token text)).2 } := by
      simp only [clear, hpublished, if_true]
      rw [show (e.setStage w k .published).schedulers = e.schedulers from rfl, hs]
      simp [reported, Scheduler.cleared, setStage]
    simp only [conclude, hfinish, hc, hsend, hclear, Option.getD_some]

theorem drain_conclude {e : Engine} (h : e.display.AtRest) {w : Nat} {k : Worker} {s : Scheduler}
    (hk : e.workers[w]? = some k) (hr : k.stage = .running) (hs : e.schedulers[k.scheduler]? = some s)
    (o : RunOutcome) : (e.conclude w o).drain = e.concluded w k s o := by
  rw [conclude_eq hk hr hs, drain, concluded]
  congr 1
  show Display.drain _ e.registry = _
  cases o with
  | completed stdout stderr code =>
    cases hc : e.registry.isCancelled k.token with
    | true => simp [Display.approve, shownAfter, hc, h.drain_eq]
    | false => simp [Display.approve, shownAfter, hc, h.drain_send]
  | _ => simp [Display.approve, shownAfter, h.drain_eq]

end Engine

namespace Timeline

variable {World : Type}

theorem drain_of_rest {t : Timeline World} (h : t.session.engine.display.AtRest) : t.drain = t := by
  obtain ⟨runner, sink, session, world, now, ready, attempts, log⟩ := t
  have : session.engine.drain = session.engine := by simp only [Engine.drain]; rw [h.drain_eq]
  simp [drain, this]

/-- A run ends and its result is shown, if it is still wanted. -/
theorem finish_eq {t : Timeline World} (h : t.session.engine.display.AtRest) {a : Attempt World} {k : Worker}
    {s : Scheduler} (hk : t.session.engine.workers[a.worker]? = some k) (hr : k.stage = .running)
    (hs : t.session.engine.schedulers[k.scheduler]? = some s) (o : RunOutcome) :
    ∃ world, t.finish a o = { t with
      session := { t.session with engine := t.session.engine.concluded a.worker k s o }
      world
      attempts := t.attempts.filter (·.worker ≠ a.worker)
      log := .ended k.token.generation o.status :: t.log } := by
  simp only [finish, hk, drain, Engine.drain_conclude h hk hr hs]
  exact ⟨_, rfl⟩

/-! ## Attempts without effects -/

theorem setAttempt_of_mem {t : Timeline World} (hn : (t.attempts.map (·.worker)).Nodup) {a : Attempt World}
    (ha : a ∈ t.attempts) : t.setAttempt a = t := by
  have : t.attempts.map (fun b => if b.worker = a.worker then a else b) = t.attempts := by
    refine (List.map_congr_left fun b hb => ?_).trans (List.map_id _)
    split
    · rename_i hba
      exact (List.inj_on_of_nodup_map hn hb ha hba).symm
    · rfl
  simp [setAttempt, this]

theorem applyEffects_of_mem {t : Timeline World} (hn : (t.attempts.map (·.worker)).Nodup) {a : Attempt World}
    (ha : a ∈ t.attempts) (he : a.course.effects = []) : t.applyEffects a = t := by
  have haa : ({ a with course := { a.course with effects := [] } } : Attempt World) = a := by rw [← he]
  simp only [applyEffects, he, List.filter_nil, List.foldl_nil, haa]
  exact setAttempt_of_mem hn ha

theorem find?_attempt {t : Timeline World} (hn : (t.attempts.map (·.worker)).Nodup) {a : Attempt World}
    (ha : a ∈ t.attempts) : t.attempts.find? (·.worker == a.worker) = some a := by
  cases hf : t.attempts.find? (·.worker == a.worker) with
  | none => simpa using List.find?_eq_none.mp hf a ha
  | some b =>
    have hb := List.find?_some hf
    rw [List.inj_on_of_nodup_map hn (List.mem_of_find?_eq_some hf) ha (by simpa using hb)]

/-! ## Acting -/

/-- Workers that are cancelled by what is done to the session are woken, and new ones are ready. -/
theorem act_eq (t : Timeline World) (f : Session → Session) : ∃ (woken : List Nat) (mark : Attempt World → Attempt World),
    woken.length ≤ t.attempts.length ∧
    (∀ a, (mark a).worker = a.worker ∧ (mark a).plan = a.plan ∧ (mark a).course = a.course) ∧
    t.act f = { t with
      session := f t.session
      ready := t.ready ++ woken ++
        (List.range ((f t.session).engine.workers.size - t.session.engine.workers.size)).map
          (t.session.engine.workers.size + ·)
      attempts := t.attempts.map mark } := by
  refine ⟨_, _, ?_, ?_, rfl⟩
  · rw [List.length_map]
    exact List.length_filter_le _ _
  · intro a
    split <;> exact ⟨rfl, rfl, rfl⟩

/-! ## Settling -/

theorem stepNow_eq_none_iff {t : Timeline World} :
    t.stepNow = none ↔ t.ready = [] ∧ t.dueAttempts = [] ∧ t.duePipelines = [] := by
  unfold stepNow
  constructor
  · intro h
    split at h
    · cases h
    · rename_i hr
      split at h
      · dsimp only at h
        split at h <;> cases h
      · rename_i ha
        split at h
        · cases h
        · rename_i hp
          exact ⟨hr, ha, hp⟩
  · rintro ⟨hr, ha, hp⟩
    rw [hr, ha, hp]

/-- What is due at one of the moments can be done when the time has come. -/
theorem stepNow_of_moment {t : Timeline World} {m : Nat} (hm : m ∈ t.moments) (hn : m ≤ t.now) : t.stepNow ≠ none := by
  intro h
  obtain ⟨-, hda, hdp⟩ := stepNow_eq_none_iff.mp h
  rcases List.mem_append.mp hm with hm | hm
  · obtain ⟨a, ha, hm⟩ := List.mem_flatMap.mp hm
    have := List.filter_eq_nil_iff.mp hda a ha
    simp only [Bool.or_eq_true, not_or, List.any_eq_true, decide_eq_true_eq, not_exists, not_and] at this
    rcases List.mem_append.mp hm with hm | hm
    · obtain ⟨⟨x, o⟩, he, rfl⟩ := Option.map_eq_some_iff.mp (Option.mem_toList.mp hm)
      exact this.2 (by rw [he]; simpa using hn)
    · obtain ⟨e, he, rfl⟩ := List.mem_map.mp hm
      exact this.1 e he hn
  · obtain ⟨l, hl, hm⟩ := List.mem_filterMap.mp hm
    obtain ⟨c, hc, rfl⟩ := Option.map_eq_some_iff.mp hm
    obtain ⟨p, hp, hpl⟩ := List.mem_iff_getElem.mp hl
    have hp' : p < t.session.pipelines.size := by simpa using hp
    have := List.filter_eq_nil_iff.mp hdp p (List.mem_range.mpr hp')
    rw [Array.getElem?_eq_getElem hp', show t.session.pipelines[p] = l by simpa using hpl] at this
    simp only [Debounce.isDue, hc, decide_eq_true_eq] at this
    exact this hn

/-- Steps that keep a property and diminish a measure come to an end with the property. -/
theorem settleWithin_spec {P : Timeline World → Prop} {load : Timeline World → Nat}
    (hstep : ∀ {t t'}, P t → t.stepNow = some t' → P t' ∧ load t' < load t) :
    ∀ {n : Nat} {t : Timeline World}, P t → load t ≤ n → P (settleWithin n t) ∧ (settleWithin n t).stepNow = none
  | 0, t, h, hn => by
    refine ⟨h, ?_⟩
    cases hs : t.stepNow with
    | none => exact hs
    | some t' =>
      have := (hstep h hs).2
      omega
  | n + 1, t, h, hn => by
    rw [settleWithin]
    cases hs : t.stepNow with
    | none => exact ⟨h, hs⟩
    | some t' =>
      obtain ⟨h', hlt⟩ := hstep h hs
      exact settleWithin_spec hstep h' (by omega)

/-! ## Time that goes on -/

/-- What is to be known about a property so that it is kept while time goes on to `target`: a settled timeline has it
still, and so has one for which only time has passed. The measure `work` counts what is to come. -/
structure Enduring (P : Timeline World → Prop) (work : Timeline World → Nat) (target : Nat) : Prop where
  settle : ∀ {t}, P t → P t.settle ∧ t.settle.stepNow = none ∧ t.settle.now = t.now ∧ work t.settle ≤ work t
  busy : ∀ {t}, P t → t.ready = [] → t.stepNow ≠ none → work t.settle < work t
  wait : ∀ {t m}, P t → t.stepNow = none → t.now ≤ m → m < target → (∀ x ∈ t.moments, m ≤ x) →
    P { t with now := m } ∧ work { t with now := m } = work t

theorem Enduring.advanceWithin {P : Timeline World → Prop} {work : Timeline World → Nat} {target : Nat}
    (h : Enduring P work target) : ∀ {n : Nat} {t : Timeline World}, P t → t.now ≤ target → work t.settle < n →
      ∃ u, P u ∧ u.stepNow = none ∧ u.now ≤ target ∧ (∀ x ∈ u.moments, target ≤ x) ∧
        t.advanceWithin n target = { u with now := target }
  | 0, t, _, _, hw => absurd hw (Nat.not_lt_zero _)
  | n + 1, t, hP, ht, hw => by
    obtain ⟨hs, hnone, hnow, -⟩ := h.settle hP
    rw [Timeline.advanceWithin]
    cases hm : t.settle.nextMoment with
    | none =>
      have : t.settle.moments = [] := List.min?_eq_none_iff.mp hm
      exact ⟨_, hs, hnone, hnow ▸ ht, by simp [this], rfl⟩
    | some m =>
      obtain ⟨hmem, hmin⟩ := List.min?_eq_some_iff.mp hm
      by_cases hlt : m < target
      · have hle : t.settle.now < m := by
          refine Nat.lt_of_not_le fun hle => stepNow_of_moment hmem hle hnone
        obtain ⟨hw', hwork⟩ := h.wait hs hnone (Nat.le_of_lt hle) hlt hmin
        have hready : ({ t.settle with now := m } : Timeline World).ready = [] := (stepNow_eq_none_iff.mp hnone).1
        have hdue : ({ t.settle with now := m } : Timeline World).stepNow ≠ none :=
          stepNow_of_moment (m := m) hmem (Nat.le_refl m)
        have hbusy := h.busy hw' hready hdue
        obtain ⟨u, hu⟩ := Enduring.advanceWithin h (n := n) hw' (Nat.le_of_lt hlt) (by omega)
        refine ⟨u, ?_⟩
        simpa only [hlt, if_true, Nat.max_eq_left (Nat.le_of_lt hle)] using hu
      · refine ⟨_, hs, hnone, hnow ▸ ht, fun x hx => ?_, by simp only [if_neg hlt]⟩
        have := hmin x hx
        omega

end Timeline

end Retrace.Live
