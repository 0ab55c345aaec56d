import Retrace.Proofs.Live.Lifecycle

/-!
# What a stop guarantees

Once the stop of a pipeline has returned, none of its texts is being shown or will be shown, whatever its workers and
its countdowns were about, and its scheduler takes no text. So the texts of one pipeline are all shown before those of
the next.
-/

namespace Retrace.Live

namespace Engine

/-- The pipeline that a token belongs to. -/
def pipelineOf (e : Engine) (t : Token) : Option Nat := (e.workers[t.id]?).map (·.scheduler)

/-- What has been shown of the runs of a pipeline. -/
def shownOf (e : Engine) (p : Nat) : List (Token × String) :=
  e.display.shown.filter fun r => e.pipelineOf r.1 == some p

variable {e e' : Engine} {a : Action}

theorem pipelineOf_step (h : e.step a = some e') {t : Token} (ht : t.id < e.workers.size) :
    e'.pipelineOf t = e.pipelineOf t := by
  have hcalm : ∀ {e' : Engine}, e'.workers.map Worker.origin = e.workers.map Worker.origin →
      e'.pipelineOf t = e.pipelineOf t := by
    intro e' hw
    have := congrArg (fun ws => (ws[t.id]?).map Prod.fst) hw
    simpa [pipelineOf, Worker.origin, Function.comp_def] using this
  cases a with
  | schedule i text =>
    obtain ⟨s, -, -, rfl⟩ := schedule_some h
    simp [pipelineOf, started, Array.getElem?_push, Nat.ne_of_lt ht]
  | shutDown i =>
    obtain ⟨s, -, ⟨-, rfl⟩ | ⟨-, -, rfl⟩⟩ := shutDown_some h <;> rfl
  | _ => exact hcalm (step_calm rfl h).workers

/-- A step shows nothing, or it shows the text that was about to be shown. -/
theorem shown_step (hd : e.Displaying) (h : e.step a = some e') :
    e'.display.shown = e.display.shown ∨
      ∃ t text, e.display.shower = .showing t text ∧ e'.display.shown = (t, text) :: e.display.shown := by
  cases a with
  | schedule i text => obtain ⟨s, -, -, rfl⟩ := schedule_some h; exact Or.inl rfl
  | shutDown i => obtain ⟨s, -, ⟨-, rfl⟩ | ⟨-, -, rfl⟩⟩ := shutDown_some h <;> exact Or.inl rfl
  | finish w o => obtain ⟨k, -, -, rfl⟩ := finish_some h; exact Or.inl rfl
  | check w => obtain ⟨k, o, -, -, rfl⟩ := check_some h; exact Or.inl rfl
  | send w =>
    obtain ⟨k, text, -, -, rfl⟩ := send_some h
    rw [hd.serving.send]
    exact Or.inl rfl
  | clear w => obtain ⟨k, s, -, -, -, rfl⟩ := clear_some h; exact Or.inl rfl
  | take =>
    obtain ⟨d, ht, rfl⟩ := take_some h
    obtain ⟨-, ⟨t, text, rest, -, ⟨-, rfl⟩ | ⟨-, rfl⟩⟩ | ⟨c, rest, -, rfl⟩⟩ := hd.serving.take_some ht <;>
      exact Or.inl rfl
  | put =>
    obtain ⟨d, hp, rfl⟩ := put_some h
    obtain ⟨t, text, hs, rfl⟩ := Display.put_some hp
    exact Or.inr ⟨t, text, hs, rfl⟩
  | flush c =>
    obtain ⟨-, -, rfl⟩ := flush_some h
    rw [hd.serving.send]
    exact Or.inl rfl

theorem shownOf_step (hd : e.Displaying) (h : e.step a = some e') {p : Nat}
    (hn : ∀ t text, e.display.shower = .showing t text → e.pipelineOf t ≠ some p) : e'.shownOf p = e.shownOf p := by
  have hold : e.display.shown.filter (fun r => e'.pipelineOf r.1 == some p) = e.shownOf p :=
    List.filter_congr fun r hr => by rw [pipelineOf_step h (hd.id_lt_of_shown hr)]
  rcases shown_step hd h with hs | ⟨t, text, hsh, hs⟩
  · rw [shownOf, hs, hold]
  · have hp : e'.pipelineOf t ≠ some p := by
      rw [pipelineOf_step h (hd.id_lt_of_showing hsh)]
      exact hn t text hsh
    rw [shownOf, hs, List.filter_cons_of_neg (by simpa using hp), hold]

theorem doors_step (h : e.step a = some e') {p : Nat} (hp : e.doors[p]? = some true) :
    e'.doors[p]? = some true := by
  cases a with
  | schedule i text => rw [doors_schedule h]; exact hp
  | shutDown i =>
    rw [doors_shutDown h, Array.getElem?_setIfInBounds]
    have := getElem?_lt hp
    split
    · simp_all
    · exact hp
  | _ => rw [(step_calm rfl h).doors]; exact hp

/-- The display shows nothing of a scheduler that has been shut down. -/
theorem Regular.not_showing {ended : Nat → RunOutcome → Prop} (h : Regular ended e) {p : Nat}
    (hp : e.doors[p]? = some true) {t : Token} {text : String} (hs : e.display.shower = .showing t text) :
    e.pipelineOf t ≠ some p := by
  intro ht
  obtain ⟨k, hk, rfl⟩ := Option.map_eq_some_iff.mp ht
  obtain ⟨c, hc, hcur⟩ := h.displaying.guarded hs hk
  obtain ⟨u, hu⟩ := Option.isSome_iff_exists.mp hcur
  have ho := (h.sound.newest hc hu).1
  simp [doors, hc, ho] at hp

/-- What is written comes in the order of the pipelines. -/
theorem Regular.written_in_order {ended : Nat → RunOutcome → Prop} (h : Regular ended e) :
    e.display.written.Pairwise fun r q =>
      ∃ i j, e.pipelineOf r.1 = some i ∧ e.pipelineOf q.1 = some j ∧ i ≤ j := by
  have hinc := h.displaying.increasing
  rw [List.pairwise_map] at hinc
  refine hinc.imp_of_mem ?_
  intro r q hr hq hrq
  obtain ⟨j, hj, -⟩ := h.worker_of_result (List.mem_append_left _ hr)
  obtain ⟨k, hk, -⟩ := h.worker_of_result (List.mem_append_left _ hq)
  exact ⟨j.scheduler, k.scheduler, by simp [pipelineOf, hj], by simp [pipelineOf, hk],
    h.sound.ordered hj hk (Nat.le_of_lt hrq)⟩

end Engine

namespace Session

/-- The pipeline has been stopped when these texts of it had been shown. -/
structure StoppedWith (p : Nat) (shown : List (Token × String)) (s : Session) : Prop where
  door : s.engine.doors[p]? = some true
  shown : s.engine.shownOf p = shown

theorem StoppedWith.next {p : Nat} {shown : List (Token × String)} {past : List (Session × Action)} {s s' : Session}
    {a : Action} (h : StoppedWith p shown s) (hl : Lifecycle past s) (hs : s.step a = some s') :
    StoppedWith p shown s' := by
  have hn : ∀ t text, s.engine.display.shower = .showing t text → s.engine.pipelineOf t ≠ some p :=
    fun t text => hl.regular.not_showing h.door
  rcases engine_cases hs with ⟨he, -⟩ | ⟨b, he, -⟩ | ⟨text, hc, -, he⟩
  · exact ⟨by rw [he]; exact h.door, by rw [he]; exact h.shown⟩
  · exact ⟨Engine.doors_step he h.door, (Engine.shownOf_step hl.regular.displaying he hn).trans h.shown⟩
  · have hu : s.unstopped = none := by simp [unstopped, hc]
    have hdoor : s.engine.addScheduler.2.doors[p]? = some true := by
      rw [Engine.doors_addScheduler, Array.getElem?_push, if_neg (Nat.ne_of_lt (getElem?_lt h.door))]
      exact h.door
    exact ⟨Engine.doors_step he hdoor, (Engine.shownOf_step hl.regular.displaying.addScheduler he hn).trans h.shown⟩

/-- The scheduler of a pipeline has been shut down as the last step of its stop, which then returns. Whatever happens
afterwards, no text of the pipeline is being shown and none is shown any more, and it starts no run. Texts are shown
in the order of the pipelines. -/
theorem stop_is_final {delay p : Nat} {restart : Option String} {before after : List Action} {s₁ s₂ s₃ : Session}
    (h₁ : Steps.run step { delay } before = some s₁) (hp : s₁.change = .closing p restart)
    (h₂ : s₁.step .closeScheduler = some s₂) (h₃ : Steps.run step s₂ after = some s₃) :
    (∀ t text, s₃.engine.display.shower = .showing t text → s₃.engine.pipelineOf t ≠ some p) ∧
    (∀ text, s₃.engine.schedule p text = none) ∧
    s₃.engine.shownOf p = s₂.engine.shownOf p ∧
    s₃.engine.display.written.Pairwise fun r q =>
      ∃ i j, s₃.engine.pipelineOf r.1 = some i ∧ s₃.engine.pipelineOf q.1 = some j ∧ i ≤ j := by
  have hlife := (Lifecycle.of_run h₁).next h₂
  have hstopped : StoppedWith p (s₂.engine.shownOf p) s₂ := by
    obtain ⟨q, r, e, hc, he, rfl⟩ := closeScheduler_some h₂
    obtain ⟨rfl, -⟩ : q = p ∧ r = restart := by simpa using hc.symm.trans hp
    refine ⟨?_, rfl⟩
    obtain ⟨c, hi, -⟩ := Engine.shutDown_some he
    show e.doors[q]? = some true
    rw [Engine.doors_shutDown he]
    exact Array.getElem?_setIfInBounds_self_of_lt (by simpa using getElem?_lt hi)
  obtain ⟨hl, hs⟩ := Steps.run_induction (P := fun past s => Lifecycle past s ∧ StoppedWith p (s₂.engine.shownOf p) s)
    (fun h hs => ⟨h.1.next hs, h.2.next h.1 hs⟩) ⟨hlife, hstopped⟩ h₃
  have hrefused : ∀ text, s₃.engine.schedule p text = none := by
    intro text
    rw [← Option.not_isSome_iff_eq_none, Engine.schedule_isSome_iff, hs.door]
    simp
  exact ⟨fun t text => hl.regular.not_showing hs.door, hrefused, hs.shown, hl.regular.written_in_order⟩

/-- A text is being shown while three countdowns take their texts. Once the stop has cancelled the countdown, the
third text is handed on, which cancels the run that is being shown, and then the first. -/
def beforeStop : List Action :=
  [.beginStart "one", .openPipeline, .engine (.finish 0 (.completed "1" "" none)), .engine (.check 0),
    .engine (.send 0), .engine .take, .edit 0 "two", .expire 5 0, .takeText 0 1, .edit 6 "three", .expire 11 0,
    .takeText 0 2, .edit 12 "four", .expire 17 0, .takeText 0 3, .beginStop, .cancelCountdown, .handOn 0 2,
    .handOn 0 0, .engine .put]

/-- The second text comes too late, the late workers have nothing shown, and another pipeline goes on. -/
def afterwards : List Action :=
  [.handOn 0 0, .beginStart "five", .openPipeline, .engine (.finish 1 (.completed "4" "" none)), .engine (.check 1),
    .engine (.finish 2 (.completed "2" "" none)), .engine (.check 2), .engine (.finish 3 (.completed "5" "" none)),
    .engine (.check 3), .engine (.send 3), .engine .take, .engine .put]

/-- The stop waits for the text that is being shown, and nothing of its pipeline is shown afterwards. -/
theorem stop_is_final_while_showing :
    ∃ s₀ s₁ s₂ s₃, Steps.run step { delay := 5 } beforeStop.dropLast = some s₀ ∧ s₀.step .closeScheduler = none ∧
      Steps.run step { delay := 5 } beforeStop = some s₁ ∧ s₁.change = .closing 0 none ∧
      s₁.step .closeScheduler = some s₂ ∧ Steps.run step s₂ afterwards = some s₃ ∧
      s₃.engine.workers.toList.map (·.text) = ["one", "four", "two", "five"] ∧
      s₃.engine.display.written.map Prod.snd = ["1", "5"] ∧
      (∀ t text, s₃.engine.display.shower = .showing t text → s₃.engine.pipelineOf t ≠ some 0) ∧
      (∀ text, s₃.engine.schedule 0 text = none) ∧ s₃.engine.shownOf 0 = s₂.engine.shownOf 0 := by
  refine ⟨_, _, _, _, rfl, rfl, rfl, rfl, rfl, rfl, rfl, rfl, ?_⟩
  have hfinal := @stop_is_final 5 0 none beforeStop afterwards _ _ _ rfl rfl rfl rfl
  exact ⟨hfinal.1, hfinal.2.1, hfinal.2.2.1⟩

end Session

end Retrace.Live
