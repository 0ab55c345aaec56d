import Retrace.Proofs.Live.Moves
import Retrace.Proofs.Steps

/-!
# Only the newest run is wanted

Tokens are numbered as the workers are, and a scheduler that may still start runs is the last one. So at most one
token of an engine is active, that of the last worker, and the scheduler of that worker has it as its newest run.
-/

namespace Retrace.Live.Engine

/-- What holds of the tokens, workers and schedulers after any steps. -/
structure Sound (e : Engine) : Prop where
  tokens : e.registry.cancelled.size = e.workers.size
  id : ∀ {w : Nat} {k : Worker}, e.workers[w]? = some k → k.token.id = w
  owned : ∀ {w : Nat} {k : Worker}, e.workers[w]? = some k → k.scheduler < e.schedulers.size
  ordered : ∀ {v w : Nat} {j k : Worker}, e.workers[v]? = some j → e.workers[w]? = some k → v ≤ w →
    j.scheduler ≤ k.scheduler
  open_last : ∀ {i : Nat} {s : Scheduler}, e.schedulers[i]? = some s → s.isShutDown = false →
    i + 1 = e.schedulers.size
  newest : ∀ {i : Nat} {s : Scheduler} {t : Token}, e.schedulers[i]? = some s → s.current = some t →
    s.isShutDown = false ∧ t.id + 1 = e.workers.size ∧ e.registry.isCancelled t = false ∧
      ∃ k, e.workers[t.id]? = some k ∧ k.token = t ∧ k.scheduler = i
  active : ∀ {w : Nat} {k : Worker}, e.workers[w]? = some k → e.registry.isCancelled k.token = false →
    ∃ s, e.schedulers[k.scheduler]? = some s ∧ s.current = some k.token

namespace Sound

variable {e : Engine}

theorem empty : Sound {} where
  tokens := rfl
  id h := by simp at h
  owned h := by simp at h
  ordered h := by simp at h
  open_last h := by simp at h
  newest h := by simp at h
  active h := by simp at h

/-- The only token that may be active is that of the last worker. -/
theorem last_of_active (h : e.Sound) {w : Nat} {k : Worker} (hk : e.workers[w]? = some k)
    (ha : e.registry.isCancelled k.token = false) : w + 1 = e.workers.size := by
  obtain ⟨s, hs, hc⟩ := h.active hk ha
  have := (h.newest hs hc).2.1
  rwa [h.id hk] at this

theorem open_of_active (h : e.Sound) {w : Nat} {k : Worker} (hk : e.workers[w]? = some k)
    (ha : e.registry.isCancelled k.token = false) :
    ∃ s, e.schedulers[k.scheduler]? = some s ∧ s.isShutDown = false := by
  obtain ⟨s, hs, hc⟩ := h.active hk ha
  exact ⟨s, hs, (h.newest hs hc).1⟩

theorem open_unique (h : e.Sound) {i j : Nat} {s u : Scheduler} (hs : e.schedulers[i]? = some s)
    (hu : e.schedulers[j]? = some u) (hso : s.isShutDown = false) (huo : u.isShutDown = false) : i = j := by
  have := h.open_last hs hso
  have := h.open_last hu huo
  omega

theorem current_of_active (h : e.Sound) {i : Nat} {s : Scheduler} (hs : e.schedulers[i]? = some s)
    (ho : s.isShutDown = false) {w : Nat} {k : Worker} (hk : e.workers[w]? = some k)
    (ha : e.registry.isCancelled k.token = false) : s.current = some k.token := by
  obtain ⟨u, hu, hc⟩ := h.active hk ha
  have hi : k.scheduler = i := h.open_unique hu hs (h.newest hu hc).1 ho
  rw [hi, hs, Option.some.injEq] at hu
  rw [hu]
  exact hc

theorem newest_id_lt (h : e.Sound) {i : Nat} {s : Scheduler} {t : Token} (hs : e.schedulers[i]? = some s)
    (hc : s.current = some t) : t.id < e.registry.cancelled.size := by
  have := (h.newest hs hc).2.1
  have := h.tokens
  omega

theorem calm (h : e.Sound) {e' : Engine} (c : Calm e e') : e'.Sound where
  tokens := by rw [c.registry, c.workers_size]; exact h.tokens
  id hk' := by
    obtain ⟨k, hk, -, ht, -⟩ := c.worker hk'
    exact ht ▸ h.id hk
  owned hk' := by
    obtain ⟨k, hk, hs, -⟩ := c.worker hk'
    rw [c.schedulers_size]
    exact hs ▸ h.owned hk
  ordered hj' hk' hvw := by
    obtain ⟨j, hj, hjs, -⟩ := c.worker hj'
    obtain ⟨k, hk, hks, -⟩ := c.worker hk'
    rw [← hjs, ← hks]
    exact h.ordered hj hk hvw
  open_last hs' ho := by
    obtain ⟨s, hs, -, -, hd⟩ := c.scheduler hs'
    rw [c.schedulers_size]
    exact h.open_last hs (hd.trans ho)
  newest hs' hc := by
    obtain ⟨s, hs, -, hcur, hd⟩ := c.scheduler hs'
    obtain ⟨ho, hw, ha, k, hk, ht, hi⟩ := h.newest hs (hcur.trans hc)
    obtain ⟨k', hk', hks, hkt, -⟩ := c.symm.worker hk
    rw [c.workers_size, c.registry]
    exact ⟨hd ▸ ho, hw, ha, k', hk', hkt.trans ht, hks.trans hi⟩
  active hk' ha := by
    obtain ⟨k, hk, hks, hkt, -⟩ := c.worker hk'
    rw [c.registry, ← hkt] at ha
    obtain ⟨s, hs, hc⟩ := h.active hk ha
    obtain ⟨s', hs', -, hcur, -⟩ := c.symm.scheduler hs
    rw [← hks, ← hkt]
    exact ⟨s', hs', hcur.trans hc⟩

/-- A new run: the worker before it, if any, is cancelled, and the new one is active. -/
theorem started (h : e.Sound) {i : Nat} {s : Scheduler} (hs : e.schedulers[i]? = some s)
    (ho : s.isShutDown = false) (text : String) : (e.started i s text).Sound where
  tokens := by simp [Engine.started, h.tokens]
  id hk := by
    rcases getElem?_push_cases hk with hk | ⟨rfl, rfl⟩
    · exact h.id hk
    · simp [h.tokens]
  owned hk := by
    simp only [Engine.started, Array.size_setIfInBounds]
    rcases getElem?_push_cases hk with hk | ⟨-, rfl⟩
    · exact h.owned hk
    · exact getElem?_lt hs
  ordered hj hk hvw := by
    rcases getElem?_push_cases hj with hj | ⟨rfl, rfl⟩ <;> rcases getElem?_push_cases hk with hk | ⟨rfl, rfl⟩
    · exact h.ordered hj hk hvw
    · have := h.owned hj
      have := h.open_last hs ho
      show _ ≤ i
      omega
    · have := getElem?_lt hk
      omega
    · exact Nat.le_refl _
  open_last hu hd := by
    simp only [Engine.started, Array.size_setIfInBounds]
    rcases getElem?_setIfInBounds_cases hu with ⟨rfl, -⟩ | ⟨-, hu⟩
    · exact h.open_last hs ho
    · exact h.open_last hu hd
  newest := by
    intro j u t hu hc
    rcases getElem?_setIfInBounds_cases hu with ⟨rfl, rfl⟩ | ⟨hne, hu⟩
    · obtain rfl : e.nextToken s = t := Option.some.inj hc
      refine ⟨ho, by simp [Engine.started, h.tokens], ?_, ⟨i, e.nextToken s, text, .running⟩, ?_, rfl, rfl⟩
      · rw [Bool.eq_false_iff]
        intro hcan
        rcases (isCancelled_started e i s text _).mp hcan with hcan | ⟨t, ht, hid, hlt⟩
        · rw [Registry.isCancelled_of_size_le _ _ (by simp)] at hcan; cases hcan
        · simp at hlt
      · show (e.workers.push _)[(e.nextToken s).id]? = _
        rw [nextToken_id, h.tokens]
        exact Array.getElem?_push_size
    · -- another scheduler with a newest run would be open as well
      exact absurd (h.open_unique hs hu ho (h.newest hu hc).1) hne
  active := by
    intro w k hk ha
    rcases getElem?_push_cases hk with hk | ⟨rfl, rfl⟩
    · rw [Bool.eq_false_iff, ne_eq, isCancelled_started, not_or] at ha
      have hc := h.current_of_active hs ho hk (by simpa using ha.1)
      exact absurd ⟨k.token, hc, rfl, h.newest_id_lt hs hc⟩ ha.2
    · exact ⟨_, Array.getElem?_setIfInBounds_self_of_lt (getElem?_lt hs), rfl⟩

theorem closed (h : e.Sound) {i : Nat} {s : Scheduler} (hs : e.schedulers[i]? = some s)
    (ho : s.isShutDown = false) : (e.closed i s).Sound where
  tokens := by simp [Engine.closed, h.tokens]
  id hk := h.id hk
  owned hk := by simpa [Engine.closed] using h.owned hk
  ordered hj hk hvw := h.ordered hj hk hvw
  open_last hu hd := by
    simp only [Engine.closed, Array.size_setIfInBounds]
    rcases getElem?_setIfInBounds_cases hu with ⟨-, rfl⟩ | ⟨-, hu⟩
    · cases hd
    · exact h.open_last hu hd
  newest hu hc := by
    rcases getElem?_setIfInBounds_cases hu with ⟨-, rfl⟩ | ⟨hne, hu⟩
    · cases hc
    · exact absurd (h.open_unique hs hu ho (h.newest hu hc).1) hne
  active := by
    intro w k hk ha
    rw [Bool.eq_false_iff, ne_eq] at ha
    simp only [Engine.closed, isCancelled_cancelCurrent, not_or] at ha
    have hc := h.current_of_active hs ho hk (by simpa using ha.1)
    exact absurd ⟨k.token, hc, rfl, h.newest_id_lt hs hc⟩ ha.2

theorem schedule (h : e.Sound) {e' : Engine} {i : Nat} {text : String} (he : e.schedule i text = some e') :
    e'.Sound := by
  obtain ⟨s, hs, ho, rfl⟩ := schedule_some he
  exact h.started hs ho text

theorem shutDown (h : e.Sound) {e' : Engine} {i : Nat} (he : e.shutDown i = some e') : e'.Sound := by
  obtain ⟨s, hs, ⟨-, rfl⟩ | ⟨ho, -, rfl⟩⟩ := shutDown_some he
  · exact h
  · exact h.closed hs ho

theorem step (h : e.Sound) {a : Action} {e' : Engine} (he : e.step a = some e') : e'.Sound := by
  cases a with
  | schedule i text => exact h.schedule he
  | shutDown i => exact h.shutDown he
  | _ => exact h.calm (step_calm rfl he)

theorem addScheduler (h : e.Sound) (hd : ∀ {i : Nat} {s : Scheduler}, e.schedulers[i]? = some s → s.isShutDown = true) :
    e.addScheduler.2.Sound where
  tokens := h.tokens
  id hk := h.id hk
  owned hk := by
    have := h.owned hk
    simp only [Engine.addScheduler, Array.size_push]
    omega
  ordered hj hk hvw := h.ordered hj hk hvw
  open_last hu ho := by
    simp only [Engine.addScheduler, Array.size_push]
    rcases getElem?_push_cases hu with hu | ⟨rfl, -⟩
    · rw [hd hu] at ho; cases ho
    · rfl
  newest hu hc := by
    rcases getElem?_push_cases hu with hu | ⟨-, rfl⟩
    · have := (h.newest hu hc).1
      rw [hd hu] at this; cases this
    · cases hc
  active := by
    intro w k hk ha
    obtain ⟨s, hs, hso⟩ := h.open_of_active hk ha
    rw [hd hs] at hso; cases hso

end Sound

end Retrace.Live.Engine
