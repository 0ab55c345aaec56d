import Retrace.Proofs.Live.Counting
import Retrace.Proofs.Live.Results

/-!
# Outcomes and what becomes of them

Every run ends once. A text is only queued for a run that has ended completed with it, and the text of such a run is
not lost while its token is active.
-/

namespace Retrace.Live

/-- A stage is possible for a run that has ended with these outcomes. -/
def Stage.Fits (ended : RunOutcome → Prop) : Stage → Prop
  | .running => ∀ o, ¬ ended o
  | .finished o => ended o
  | .approved text => ∃ stderr code, ended (.completed text stderr code)
  | .published | .done => ∃ o, ended o

theorem Display.approve_eq_some {r : Registry} {t : Token} {o : RunOutcome} {text : String} :
    Display.approve r t o = some text ↔
      r.isCancelled t = false ∧ ∃ stderr code, o = .completed text stderr code := by
  cases o with
  | completed out err code => cases hc : r.isCancelled t <;> simp [approve, hc]
  | failed f => simp [approve]
  | cancelled => simp [approve]

theorem Display.Serving.mem_results_take {d d' : Display} (h : d.Serving) {r : Registry} (ht : d.take r = some d')
    {t : Token} {text : String} (hm : (t, text) ∈ d.results) (ha : r.isCancelled t = false) :
    (t, text) ∈ d'.results := by
  obtain ⟨hidle, ⟨u, x, rest, hq, ⟨hc, rfl⟩ | ⟨-, rfl⟩⟩ | ⟨c, rest, hq, rfl⟩⟩ := h.take_some ht <;>
    simp only [results, written, underway, waiting, hidle, hq, Command.result, List.filterMap_cons, List.mem_append,
      List.mem_cons, Prod.mk.injEq] at hm ⊢
  · rcases hm with hm | ⟨rfl, -⟩ | hm
    · exact Or.inl hm
    · rw [hc] at ha; cases ha
    · exact Or.inr hm
  · grind
  · exact hm

namespace Engine

/-- The runs have ended as `ended` says. -/
structure Accounted (ended : Nat → RunOutcome → Prop) (e : Engine) : Prop where
  known : ∀ {w : Nat} {o : RunOutcome}, ended w o → w < e.workers.size
  unique : ∀ {w : Nat} {o o' : RunOutcome}, ended w o → ended w o' → o = o'
  fits : ∀ {w : Nat} {k : Worker}, e.workers[w]? = some k → k.stage.Fits (ended w)
  result : ∀ {t : Token} {text : String}, (t, text) ∈ e.display.results →
    ∃ stderr code, ended t.id (.completed text stderr code)
  delivered : ∀ {w : Nat} {k : Worker} {text stderr : String} {code : Option Int}, e.workers[w]? = some k →
    k.stage.isOver = true → ended w (.completed text stderr code) → e.registry.isCancelled k.token = false →
    (k.token, text) ∈ e.display.results

namespace Accounted

variable {ended : Nat → RunOutcome → Prop} {e : Engine}

theorem empty : Accounted (fun _ _ => False) {} where
  known h := h.elim
  unique h := h.elim
  fits h := by simp at h
  result h := by simp [Display.results, Display.written, Display.underway, Display.waiting] at h
  delivered h := by simp at h

theorem congr (h : Accounted ended e) {ended' : Nat → RunOutcome → Prop} (hi : ∀ w o, ended w o ↔ ended' w o) :
    Accounted ended' e := by
  obtain rfl : ended = ended' := funext fun w => funext fun o => propext (hi w o)
  exact h

theorem setStage (h : Accounted ended e) {w : Nat} {k : Worker} {g : Stage} (hf : g.Fits (ended w))
    (hd : ∀ {text stderr : String} {code : Option Int}, g.isOver = true → ended w (.completed text stderr code) →
      e.registry.isCancelled k.token = false → (k.token, text) ∈ e.display.results) :
    Accounted ended (e.setStage w k g) where
  known ho := by simpa [Engine.setStage] using h.known ho
  unique := h.unique
  fits hj := by
    rcases getElem?_setIfInBounds_cases hj with ⟨rfl, rfl⟩ | ⟨-, hj⟩
    · exact hf
    · exact h.fits hj
  result := h.result
  delivered hj := by
    rcases getElem?_setIfInBounds_cases hj with ⟨rfl, rfl⟩ | ⟨-, hj⟩
    · exact hd
    · exact h.delivered hj

theorem finish (h : Accounted ended e) {w : Nat} {k : Worker} (hk : e.workers[w]? = some k)
    (hg : k.stage = .running) (o : RunOutcome) :
    Accounted (fun v p => ended v p ∨ (v = w ∧ p = o)) (e.setStage w k (.finished o)) := by
  have hnone : ∀ p, ¬ ended w p := by
    have := h.fits hk
    rwa [hg] at this
  have hsame : ∀ {v : Nat}, w ≠ v → ∀ p, (ended v p ∨ (v = w ∧ p = o)) ↔ ended v p := fun hv p =>
    ⟨fun hp => hp.resolve_right fun hp => hv hp.1.symm, Or.inl⟩
  refine ⟨?_, ?_, ?_, ?_, ?_⟩
  · rintro v p (hp | ⟨rfl, -⟩)
    · simpa [Engine.setStage] using h.known hp
    · simpa [Engine.setStage] using getElem?_lt hk
  · rintro v p p' (hp | ⟨rfl, rfl⟩) (hp' | ⟨hv, rfl⟩)
    · exact h.unique hp hp'
    · exact absurd (hv ▸ hp) (hnone p)
    · exact absurd hp' (hnone p')
    · rfl
  · intro v j hj
    rcases getElem?_setIfInBounds_cases hj with ⟨rfl, rfl⟩ | ⟨hv, hj⟩
    · exact Or.inr ⟨rfl, rfl⟩
    · rw [show (fun p => ended v p ∨ (v = w ∧ p = o)) = ended v from funext fun p => propext (hsame hv p)]
      exact h.fits hj
  · intro t x hr
    obtain ⟨err, code, he⟩ := h.result hr
    exact ⟨err, code, Or.inl he⟩
  · intro v j x err code hj hover he ha
    rcases getElem?_setIfInBounds_cases hj with ⟨rfl, rfl⟩ | ⟨hv, hj⟩
    · cases hover
    · exact h.delivered hj hover ((hsame hv _).mp he) ha

theorem check (h : Accounted ended e) {w : Nat} {k : Worker} {o : RunOutcome} (hk : e.workers[w]? = some k)
    (hg : k.stage = .finished o) : Accounted ended (e.setStage w k (verdict e.registry k.token o)) := by
  have ho : ended w o := by
    have := h.fits hk
    rwa [hg] at this
  unfold verdict
  split
  · rename_i text ha
    obtain ⟨-, err, code, rfl⟩ := Display.approve_eq_some.mp ha
    exact h.setStage ⟨err, code, ho⟩ nofun
  · rename_i hn
    refine h.setStage ⟨o, ho⟩ fun {text err code} _ he ha => ?_
    -- an active token's completed run would have been approved
    have := Display.approve_eq_some.mpr ⟨ha, err, code, h.unique ho he⟩
    rw [hn] at this
    cases this

theorem cancels (h : Accounted ended e) {r : Registry} {ss : Array Scheduler}
    (hr : ∀ t, e.registry.isCancelled t = true → r.isCancelled t = true) :
    Accounted ended { e with registry := r, schedulers := ss } where
  known := h.known
  unique := h.unique
  fits := h.fits
  result := h.result
  delivered hk hg he ha := by
    refine h.delivered hk hg he ?_
    rw [Bool.eq_false_iff] at ha ⊢
    exact fun hc => ha (hr _ hc)

theorem started (h : Accounted ended e) {i : Nat} {s : Scheduler} (text : String) :
    Accounted ended (e.started i s text) where
  known ho := by
    have := h.known ho
    simp only [Engine.started, Array.size_push]
    omega
  unique := h.unique
  fits hk := by
    rcases getElem?_push_cases hk with hk | ⟨rfl, rfl⟩
    · exact h.fits hk
    · intro o ho
      exact absurd (h.known ho) (Nat.lt_irrefl _)
  result := h.result
  delivered hk hg he ha := by
    rcases getElem?_push_cases hk with hk | ⟨-, rfl⟩
    · refine h.delivered hk hg he ?_
      rw [Bool.eq_false_iff] at ha ⊢
      exact fun hc => ha ((isCancelled_started ..).mpr (Or.inl hc))
    · cases hg

theorem closed (h : Accounted ended e) {i : Nat} {s : Scheduler} : Accounted ended (e.closed i s) :=
  h.cancels fun _ ht => (isCancelled_cancelCurrent ..).mpr (Or.inl ht)

theorem send (h : Accounted ended e) (hv : e.display.Serving) {w : Nat} {k : Worker} {text : String}
    (hk : e.workers[w]? = some k) (hid : k.token.id = w) (hg : k.stage = .approved text) :
    Accounted ended
      { e.setStage w k .published with display := (e.display.send (.publish k.token text)).2 } := by
  obtain ⟨err, code, he⟩ : ∃ err code, ended w (.completed text err code) := by
    have := h.fits hk
    rwa [hg] at this
  have hr : ∀ {t : Token} {x : String}, (t, x) ∈ (e.display.send (.publish k.token text)).2.results ↔
      (t, x) ∈ e.display.results ∨ (t = k.token ∧ x = text) := by
    intro t x
    rw [hv.results_send]
    simp [Command.result]
  refine ⟨fun ho => by simpa [Engine.setStage] using h.known ho, h.unique, ?_, ?_, ?_⟩
  · intro v j hj
    rcases getElem?_setIfInBounds_cases hj with ⟨rfl, rfl⟩ | ⟨-, hj⟩
    · exact ⟨_, he⟩
    · exact h.fits hj
  · intro t x hm
    rcases hr.mp hm with hm | ⟨rfl, rfl⟩
    · exact h.result hm
    · exact ⟨err, code, hid ▸ he⟩
  · intro v j x err' code' hj hover he' ha
    rcases getElem?_setIfInBounds_cases hj with ⟨rfl, rfl⟩ | ⟨-, hj⟩
    · obtain ⟨rfl, -, -⟩ : text = x ∧ err = err' ∧ code = code' := by
        simpa using h.unique he he'
      exact hr.mpr (Or.inr ⟨rfl, rfl⟩)
    · exact hr.mpr (Or.inl (h.delivered hj hover he' ha))

theorem handled (h : Accounted ended e) {d : Display} (hsub : ∀ r ∈ d.results, r ∈ e.display.results)
    (hkeep : ∀ {t : Token} {text : String}, (t, text) ∈ e.display.results → e.registry.isCancelled t = false →
      (t, text) ∈ d.results) : Accounted ended { e with display := d } where
  known := h.known
  unique := h.unique
  fits := h.fits
  result hm := h.result (hsub _ hm)
  delivered hk hg he ha := hkeep (h.delivered hk hg he ha) ha

theorem take (h : Accounted ended e) (hv : e.display.Serving) {d : Display}
    (ht : e.display.take e.registry = some d) : Accounted ended { e with display := d } := by
  refine h.handled ?_ (hv.mem_results_take ht)
  obtain ⟨hidle, ⟨u, x, rest, hq, ⟨-, rfl⟩ | ⟨-, rfl⟩⟩ | ⟨c, rest, hq, rfl⟩⟩ := hv.take_some ht <;> intro r hr <;>
    simp only [Display.results, Display.written, Display.underway, Display.waiting, hidle, hq, Command.result,
      List.filterMap_cons] at hr ⊢ <;>
    grind

theorem put (h : Accounted ended e) {d : Display} (hp : e.display.put = some d) :
    Accounted ended { e with display := d } := by
  have hr := Display.results_put hp
  exact h.handled (fun _ hm => hr ▸ hm) fun hm _ => hr ▸ hm

theorem flushed (h : Accounted ended e) (hv : e.display.Serving) (c : Nat) :
    Accounted ended { e with display := (e.display.send (.flush c)).2 } := by
  have hr : (e.display.send (.flush c)).2.results = e.display.results := by
    rw [hv.results_send]
    exact List.append_nil _
  refine h.handled ?_ ?_ <;> rw [hr]
  · exact fun _ hm => hm
  · exact fun hm _ => hm

theorem addScheduler (h : Accounted ended e) : Accounted ended e.addScheduler.2 :=
  h.cancels fun _ ht => ht

theorem step (h : Accounted ended e) (hs : e.Sound) (hv : e.display.Serving) {a : Action} {e' : Engine}
    (he : e.step a = some e') : Accounted (fun w o => ended w o ∨ a = .finish w o) e' := by
  cases a with
  | schedule i text =>
    obtain ⟨s, -, -, rfl⟩ := schedule_some he
    exact (h.started text).congr (by simp)
  | shutDown i =>
    obtain ⟨s, -, ⟨-, rfl⟩ | ⟨-, -, rfl⟩⟩ := shutDown_some he
    · exact h.congr (by simp)
    · exact h.closed.congr (by simp)
  | finish w o =>
    obtain ⟨k, hk, hg, rfl⟩ := finish_some he
    refine (h.finish hk hg o).congr fun v p => ?_
    rw [Action.finish.injEq, eq_comm (a := v), eq_comm (a := p)]
  | check w =>
    obtain ⟨k, o, hk, hg, rfl⟩ := check_some he
    exact (h.check hk hg).congr (by simp)
  | send w =>
    obtain ⟨k, text, hk, hg, rfl⟩ := send_some he
    exact (h.send hv hk (hs.id hk) hg).congr (by simp)
  | clear w =>
    obtain ⟨k, s, hk, hg, -, rfl⟩ := clear_some he
    have hover : k.stage.isOver = true := by simp [hg, Stage.isOver]
    have hdone : Accounted ended (e.setStage w k .done) := by
      refine h.setStage ?_ fun _ he ha => h.delivered hk hover he ha
      have := h.fits hk
      rwa [hg] at this
    exact (hdone.cancels fun _ ht => ht).congr (by simp)
  | take => obtain ⟨d, hd, rfl⟩ := take_some he; exact (h.take hv hd).congr (by simp)
  | put => obtain ⟨d, hd, rfl⟩ := put_some he; exact (h.put hd).congr (by simp)
  | flush c => obtain ⟨-, -, rfl⟩ := flush_some he; exact (h.flushed hv c).congr (by simp)

end Accounted

/-- All that holds of an engine after any steps. -/
structure Regular (ended : Nat → RunOutcome → Prop) (e : Engine) : Prop where
  sound : e.Sound
  displaying : e.Displaying
  counted : e.Counted
  flagged : e.Flagged
  accounted : Accounted ended e

namespace Regular

variable {ended : Nat → RunOutcome → Prop} {e : Engine}

theorem empty : Regular (fun _ _ => False) {} :=
  ⟨Sound.empty, Displaying.empty, Counted.empty, Flagged.empty, Accounted.empty⟩

theorem congr (h : Regular ended e) {ended' : Nat → RunOutcome → Prop} (hi : ∀ w o, ended w o ↔ ended' w o) :
    Regular ended' e :=
  ⟨h.sound, h.displaying, h.counted, h.flagged, h.accounted.congr hi⟩

theorem step (h : Regular ended e) {a : Action} {e' : Engine} (he : e.step a = some e') :
    Regular (fun w o => ended w o ∨ a = .finish w o) e' :=
  ⟨h.sound.step he, h.displaying.step h.sound he, h.counted.step he, h.flagged.step h.counted he,
    h.accounted.step h.sound h.displaying.serving he⟩

theorem addScheduler (h : Regular ended e)
    (hd : ∀ {i : Nat} {s : Scheduler}, e.schedulers[i]? = some s → s.isShutDown = true) :
    Regular ended e.addScheduler.2 :=
  ⟨h.sound.addScheduler hd, h.displaying.addScheduler, h.counted.addScheduler h.sound, h.flagged.addScheduler h.sound,
    h.accounted.addScheduler⟩

/-- A result on its way to the display is that of the worker whose token it has. -/
theorem worker_of_result (h : Regular ended e) {t : Token} {text : String} (hm : (t, text) ∈ e.display.results) :
    ∃ k, e.workers[t.id]? = some k ∧ k.token = t := by
  obtain ⟨k, hk, ht, -⟩ := h.displaying.known hm
  exact ⟨k, hk, ht⟩

end Regular

end Engine

end Retrace.Live
