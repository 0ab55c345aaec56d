import Mathlib.Data.List.Nodup
import Retrace.Proofs.Live.Outcomes

/-!
# The order of the display

One scheduler and one display. Whatever the order of the steps, what is written comes in the order in which the runs
were started, comes from completed runs, and is exactly what the display's worker found still wanted when it looked.
-/

namespace Retrace.Live.Engine

/-- An engine with one scheduler. -/
def single : Engine := ({} : Engine).addScheduler.2

/-- The result that a step queues. -/
def queuedBy : Engine × Action → Option (Token × String)
  | (e, .send w) => (e.workers[w]?).bind fun k => match k.stage with
    | .approved text => some (k.token, text)
    | _ => none
  | _ => none

/-- The result that the display's worker takes in a step, and whether its token is active when the worker looks. -/
def lookedAt : Engine × Action → Option ((Token × String) × Bool)
  | (e, .take) => match e.display.queue with
    | .publish t text :: _ => some ((t, text), e.registry.isActive t)
    | _ => none
  | _ => none

theorem over_step {e e' : Engine} {a : Action} (h : e.step a = some e') {w : Nat} {k : Worker}
    (hk : e.workers[w]? = some k) (hg : k.stage.isOver = true) :
    ∃ k', e'.workers[w]? = some k' ∧ k'.stage.isOver = true := by
  have hset : ∀ {v : Nat} {j : Worker} {g : Stage}, e.workers[v]? = some j →
      (j.stage.isOver = true → g.isOver = true) →
      ∃ k', (e.setStage v j g).workers[w]? = some k' ∧ k'.stage.isOver = true := by
    intro v j g hj hjg
    by_cases hv : v = w
    · subst hv
      obtain rfl : j = k := Option.some.inj (hj.symm.trans hk)
      exact ⟨_, Array.getElem?_setIfInBounds_self_of_lt (getElem?_lt hj), hjg hg⟩
    · exact ⟨k, by simpa [setStage, Array.getElem?_setIfInBounds, hv] using hk, hg⟩
  cases a with
  | schedule i text =>
    obtain ⟨s, -, -, rfl⟩ := schedule_some h
    exact ⟨k, getElem?_push_of_some hk _, hg⟩
  | shutDown i =>
    obtain ⟨s, -, ⟨-, rfl⟩ | ⟨-, -, rfl⟩⟩ := shutDown_some h
    · exact ⟨k, hk, hg⟩
    · exact ⟨k, hk, hg⟩
  | finish v o =>
    obtain ⟨j, hj, hr, rfl⟩ := finish_some h
    exact hset hj (by simp [hr, Stage.isOver])
  | check v =>
    obtain ⟨j, o, hj, hr, rfl⟩ := check_some h
    exact hset hj (by simp [hr, Stage.isOver])
  | send v =>
    obtain ⟨j, text, hj, -, rfl⟩ := send_some h
    exact hset hj fun _ => rfl
  | clear v =>
    obtain ⟨j, s, hj, -, -, rfl⟩ := clear_some h
    exact hset hj fun _ => rfl
  | take => obtain ⟨d, -, rfl⟩ := take_some h; exact ⟨k, hk, hg⟩
  | put => obtain ⟨d, -, rfl⟩ := put_some h; exact ⟨k, hk, hg⟩
  | flush c => obtain ⟨-, -, rfl⟩ := flush_some h; exact ⟨k, hk, hg⟩

/-- The display as the past of the engine accounts for it. -/
structure Logged (past : List (Engine × Action)) (e : Engine) : Prop where
  regular : Regular (fun w o => Action.finish w o ∈ past.map Prod.snd) e
  alone : e.schedulers.size = 1
  waiting : past.filterMap queuedBy = (past.filterMap lookedAt).map Prod.fst ++ e.display.waiting
  written : e.display.written = ((past.filterMap lookedAt).filter (·.2)).map Prod.fst
  settled : ∀ r ∈ past.filterMap queuedBy, ∃ k, e.workers[r.1.id]? = some k ∧ k.stage.isOver = true
  once : ((past.filterMap queuedBy).map (·.1.id)).Nodup

theorem Regular.next {past : List (Engine × Action)} {e e' : Engine} {a : Action}
    (h : Regular (fun w o => Action.finish w o ∈ past.map Prod.snd) e) (he : e.step a = some e') :
    Regular (fun w o => Action.finish w o ∈ (past ++ [(e, a)]).map Prod.snd) e' :=
  (h.step he).congr fun w o => by simp [eq_comm]

/-- A step that neither queues nor takes a result. -/
theorem Logged.idle {past : List (Engine × Action)} {e e' : Engine} {a : Action} (h : Logged past e)
    (he : e.step a = some e') (hq : queuedBy (e, a) = none) (hl : lookedAt (e, a) = none)
    (hsize : e'.schedulers.size = e.schedulers.size) (hwait : e'.display.waiting = e.display.waiting)
    (hwrit : e'.display.written = e.display.written) : Logged (past ++ [(e, a)]) e' where
  regular := h.regular.next he
  alone := hsize.trans h.alone
  waiting := by simpa [List.filterMap_append, hq, hl, hwait] using h.waiting
  written := by simpa [List.filterMap_append, hl, hwrit] using h.written
  settled := by
    intro r hr
    obtain ⟨k, hk, hg⟩ := h.settled r (by simpa [List.filterMap_append, hq] using hr)
    exact over_step he hk hg
  once := by simpa [List.filterMap_append, hq] using h.once

theorem Logged.send {past : List (Engine × Action)} {e e' : Engine} {w : Nat} (h : Logged past e)
    (he : e.step (.send w) = some e') : Logged (past ++ [(e, Action.send w)]) e' := by
  obtain ⟨k, text, hk, hg, rfl⟩ := send_some he
  have hid := h.regular.sound.id hk
  have hq : queuedBy (e, Action.send w) = some (k.token, text) := by simp [queuedBy, hk, hg]
  have hl : lookedAt (e, Action.send w) = none := rfl
  have hlast : ∃ k', (e.setStage w k .published).workers[k.token.id]? = some k' ∧ k'.stage.isOver = true := by
    rw [hid]
    exact ⟨_, Array.getElem?_setIfInBounds_self_of_lt (getElem?_lt hk), rfl⟩
  refine ⟨h.regular.next he, h.alone, ?_, ?_, ?_, ?_⟩
  · rw [h.regular.displaying.serving.send]
    simp [List.filterMap_append, hq, hl, Display.waiting, Command.result, h.waiting]
  · rw [h.regular.displaying.serving.send]
    show e.display.written = _
    simpa [List.filterMap_append, hl] using h.written
  · intro r hr
    simp only [List.filterMap_append, List.filterMap_cons, hq, List.filterMap_nil, List.mem_append,
      List.mem_singleton] at hr
    rcases hr with hr | rfl
    · obtain ⟨j, hj, hjg⟩ := h.settled r hr
      exact over_step he hj hjg
    · exact hlast
  · simp only [List.filterMap_append, List.filterMap_cons, hq, List.filterMap_nil, List.map_append, List.map_cons,
      List.map_nil, hid, List.nodup_append, List.mem_singleton]
    refine ⟨h.once, by simp, ?_⟩
    rintro v hv u rfl rfl
    obtain ⟨r, hr, rfl⟩ := List.mem_map.mp hv
    obtain ⟨j, hj, hjg⟩ := h.settled r hr
    obtain rfl : k = j := Option.some.inj (hk.symm.trans hj)
    simp [hg, Stage.isOver] at hjg

/-- The display's worker takes a command: it goes on to show a result if and only if it finds the token active. -/
theorem Logged.take {past : List (Engine × Action)} {e e' : Engine} (h : Logged past e)
    (he : e.step .take = some e') : Logged (past ++ [(e, Action.take)]) e' := by
  obtain ⟨d, hd, rfl⟩ := take_some he
  obtain ⟨hidle, ⟨t, text, rest, hq, hc⟩ | ⟨c, rest, hq, rfl⟩⟩ := h.regular.displaying.serving.take_some hd
  · have hl : lookedAt (e, Action.take) = some ((t, text), e.registry.isActive t) := by simp [lookedAt, hq]
    have hw : e.display.waiting = (t, text) :: rest.filterMap Command.result := by
      simp [Display.waiting, hq, Command.result]
    have hqueued : (past ++ [(e, Action.take)]).filterMap queuedBy = past.filterMap queuedBy := by
      simp [List.filterMap_append, queuedBy]
    have hlooked : (past ++ [(e, Action.take)]).filterMap lookedAt =
        past.filterMap lookedAt ++ [((t, text), e.registry.isActive t)] := by
      simp [List.filterMap_append, hl]
    refine ⟨h.regular.next he, h.alone, ?_, ?_, ?_, ?_⟩
    · rw [hqueued, hlooked, h.waiting, hw]
      rcases hc with ⟨-, rfl⟩ | ⟨-, rfl⟩ <;> simp [Display.waiting]
    · have hwrit := h.written
      rw [Display.written, Display.underway_of_idle hidle, List.append_nil] at hwrit
      rw [hlooked, List.filter_append, List.map_append, ← hwrit]
      rcases hc with ⟨hc, rfl⟩ | ⟨hc, rfl⟩ <;>
        simp [Display.written, Display.underway, hidle, Registry.isActive, hc]
    · rw [hqueued]
      intro r hr
      obtain ⟨k, hk, hg⟩ := h.settled r hr
      exact over_step he hk hg
    · rw [hqueued]
      exact h.once
  · have hw : e.display.waiting = rest.filterMap Command.result := by rw [Display.waiting, hq]; rfl
    exact h.idle he rfl (by simp [lookedAt, hq]) rfl hw.symm rfl

theorem Logged.next {past : List (Engine × Action)} {e e' : Engine} {a : Action} (h : Logged past e)
    (he : e.step a = some e') : Logged (past ++ [(e, a)]) e' := by
  have hserve := h.regular.displaying.serving
  cases a with
  | schedule i text =>
    obtain ⟨s, -, -, rfl⟩ := schedule_some he
    exact h.idle he rfl rfl (by simp [started]) rfl rfl
  | shutDown i =>
    obtain ⟨s, -, ⟨-, rfl⟩ | ⟨-, -, rfl⟩⟩ := shutDown_some he
    · exact h.idle he rfl rfl rfl rfl rfl
    · exact h.idle he rfl rfl (by simp [closed]) rfl rfl
  | finish w o => obtain ⟨k, -, -, rfl⟩ := finish_some he; exact h.idle he rfl rfl rfl rfl rfl
  | check w => obtain ⟨k, o, -, -, rfl⟩ := check_some he; exact h.idle he rfl rfl rfl rfl rfl
  | send w => exact h.send he
  | clear w =>
    obtain ⟨k, s, -, -, -, rfl⟩ := clear_some he
    exact h.idle he rfl rfl (by simp [reported]) rfl rfl
  | take => exact h.take he
  | put =>
    obtain ⟨d, hd, rfl⟩ := put_some he
    obtain ⟨t, text, hs, rfl⟩ := Display.put_some hd
    exact h.idle he rfl rfl rfl rfl (by simp [Display.written, Display.underway, hs])
  | flush c =>
    obtain ⟨-, -, rfl⟩ := flush_some he
    rw [hserve.send] at he ⊢
    exact h.idle (by simpa [Engine.step] using he) rfl rfl rfl
      (by simp [Display.waiting, List.filterMap_append, Command.result]) rfl

theorem Logged.start : Logged [] single where
  regular := (Regular.empty.addScheduler (by simp)).congr (by simp)
  alone := rfl
  waiting := rfl
  written := rfl
  settled := by simp
  once := by simp

namespace Logged

variable {past : List (Engine × Action)} {e : Engine} (h : Logged past e)
include h

theorem same_scheduler {v w : Nat} {j k : Worker} (hj : e.workers[v]? = some j) (hk : e.workers[w]? = some k) :
    j.scheduler = k.scheduler := by
  have := h.regular.sound.owned hj
  have := h.regular.sound.owned hk
  have := h.alone
  omega

theorem rising (hfew : e.workers.size < UInt64.size) :
    (e.display.written.map (·.1.generation)).Pairwise (· < ·) := by
  have hinc := h.regular.displaying.increasing
  rw [List.pairwise_map] at hinc ⊢
  refine hinc.imp_of_mem ?_
  intro r q hr hq hrq
  obtain ⟨j, hj, hjt⟩ := h.regular.worker_of_result (List.mem_append_left _ hr)
  obtain ⟨k, hk, hkt⟩ := h.regular.worker_of_result (List.mem_append_left _ hq)
  rw [← hjt, ← hkt]
  exact h.regular.counted.rising hj hk (h.same_scheduler hj hk) hrq (Nat.lt_of_le_of_lt (e.runs_le_size _) hfew)

/-- What was queued has been looked at or still waits, and no run has two results among these. -/
theorem distinct : (((past.filterMap lookedAt).map Prod.fst ++ e.display.waiting).map (·.1.id)).Nodup :=
  h.waiting ▸ h.once

theorem mem_written_iff {r : Token × String} {active : Bool} (hl : (r, active) ∈ past.filterMap lookedAt) :
    r ∈ e.display.written ↔ active = true := by
  have hd := h.distinct
  rw [List.map_append, List.nodup_append, List.map_map] at hd
  rw [h.written]
  constructor
  · intro hm
    obtain ⟨⟨q, b⟩, hq, rfl⟩ := List.mem_map.mp hm
    obtain ⟨hq, rfl⟩ : (q, b) ∈ past.filterMap lookedAt ∧ b = true := List.mem_filter.mp hq
    have := List.inj_on_of_nodup_map hd.1 hl hq rfl
    exact congrArg Prod.snd this
  · rintro rfl
    exact List.mem_map.mpr ⟨_, List.mem_filter.mpr ⟨hl, rfl⟩, rfl⟩

theorem not_mem_written_of_waiting {r : Token × String} (hw : r ∈ e.display.waiting) : r ∉ e.display.written := by
  intro hm
  rw [h.written] at hm
  obtain ⟨q, hq, rfl⟩ := List.mem_map.mp hm
  have hd := h.distinct
  rw [List.map_append, List.nodup_append] at hd
  exact hd.2.2 _ (List.mem_map_of_mem (List.mem_map_of_mem (List.mem_filter.mp hq).1)) _ (List.mem_map_of_mem hw) rfl

end Logged

/-- One scheduler and one display, after any steps. The texts written have rising generations and are the outputs of
completed runs. All that was queued is looked at in turn, and a result that was looked at is written if and only if
its token was active at that moment. -/
theorem display_follows_runs {acts : List Action} {e : Engine} (h : Steps.run step single acts = some e)
    (hfew : e.workers.size < UInt64.size) :
    (e.display.written.map (·.1.generation)).Pairwise (· < ·) ∧
    (∀ t text, (t, text) ∈ e.display.written → ∃ k stderr code, e.workers[t.id]? = some k ∧ k.token = t ∧
      Action.finish t.id (.completed text stderr code) ∈ acts) ∧
    (Steps.history step single acts).filterMap queuedBy =
      ((Steps.history step single acts).filterMap lookedAt).map Prod.fst ++ e.display.waiting ∧
    (∀ r active, (r, active) ∈ (Steps.history step single acts).filterMap lookedAt →
      (r ∈ e.display.written ↔ active = true)) ∧
    ∀ r ∈ e.display.waiting, r ∉ e.display.written := by
  have hl : Logged (Steps.history step single acts) e :=
    Steps.run_induction (P := Logged) Logged.next Logged.start h
  refine ⟨hl.rising hfew, ?_, hl.waiting, fun _ _ => hl.mem_written_iff, fun _ => hl.not_mem_written_of_waiting⟩
  intro t text hm
  obtain ⟨k, hk, ht⟩ := hl.regular.worker_of_result (List.mem_append_left _ hm)
  obtain ⟨stderr, code, hf⟩ := hl.regular.accounted.result (List.mem_append_left _ hm)
  exact ⟨k, stderr, code, hk, ht, Steps.history_map_snd h ▸ hf⟩

/-- Three runs: the first is being shown when the second is started, and the second is approved when the third is. -/
def overlapping : List Action :=
  [.schedule 0 "one", .finish 0 (.completed "1" "" none), .check 0, .send 0, .take, .schedule 0 "two", .put,
    .finish 1 (.completed "2" "" none), .check 1, .schedule 0 "three", .send 1,
    .finish 2 (.completed "3" "" none), .check 2, .send 2, .take, .take, .put]

/-- The first and the third run are shown, the second one is queued and then dropped. -/
theorem display_follows_overlapping_runs :
    ∃ e, Steps.run step single overlapping = some e ∧ e.workers.size < UInt64.size ∧
      e.display.written = [(⟨0, 1⟩, "1"), (⟨2, 3⟩, "3")] ∧
      (e.display.written.map (·.1.generation)).Pairwise (· < ·) ∧
      ((⟨1, 2⟩, "2"), false) ∈ (Steps.history step single overlapping).filterMap lookedAt ∧
      (((⟨1, 2⟩, "2") : Token × String) ∈ e.display.written ↔ false = true) := by
  have hrun : Steps.run step single overlapping = some ((Steps.run step single overlapping).get rfl) := rfl
  have hfew : ((Steps.run step single overlapping).get rfl).workers.size < UInt64.size := by decide
  have hlooked : ((⟨1, 2⟩, "2"), false) ∈ (Steps.history step single overlapping).filterMap lookedAt := by decide
  have hall := display_follows_runs hrun hfew
  exact ⟨_, hrun, hfew, by decide, hall.1, hlooked, hall.2.2.2.1 _ _ hlooked⟩

end Retrace.Live.Engine
