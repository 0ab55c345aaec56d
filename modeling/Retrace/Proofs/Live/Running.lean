import Retrace.Proofs.Live.Order

/-!
# The running flag

One scheduler, which anybody may ask to run a text or to shut down, while workers of old and new runs finish in any
order. The flag says whether the worker of the newest run is still at work, and it only goes down when the display
has been given all that this run will ever show.
-/

namespace Retrace.Live

/-- What has become of a run. -/
inductive Mark where
  | ended (o : RunOutcome)
  /-- The publisher has decided which text of the run is shown, if any. -/
  | decided (text : Option String)
  | queued (text : String)
  /-- The worker has told the scheduler that it is done. -/
  | reported
  deriving DecidableEq, Repr

/-- It is decided what is shown of a run, and the text has been queued if there is one. -/
inductive Mark.Dealt : List Mark → Prop where
  | dropped (o : RunOutcome) : Dealt [.ended o, .decided none]
  | queued (o : RunOutcome) (text : String) : Dealt [.ended o, .decided (some text), .queued text]

/-- What has become of a run whose worker is at some stage. -/
inductive Stage.Follows : Stage → List Mark → Prop where
  | running : Follows .running []
  | finished (o : RunOutcome) : Follows (.finished o) [.ended o]
  | approved (o : RunOutcome) (text : String) : Follows (.approved text) [.ended o, .decided (some text)]
  | published {ms : List Mark} (h : Mark.Dealt ms) : Follows .published ms
  | done {ms : List Mark} (h : Mark.Dealt ms) : Follows .done (ms ++ [.reported])

namespace Stage.Follows

variable {ms : List Mark} {o : RunOutcome} {text : String}

theorem finish (h : Stage.running.Follows ms) (o : RunOutcome) : (Stage.finished o).Follows (ms ++ [.ended o]) := by
  cases h
  exact .finished o

theorem check (h : (Stage.finished o).Follows ms) (r : Registry) (t : Token) :
    (Engine.verdict r t o).Follows (ms ++ [.decided (Display.approve r t o)]) := by
  cases h
  unfold Engine.verdict
  cases Display.approve r t o with
  | some text => exact .approved o text
  | none => exact .published (.dropped o)

theorem send (h : (Stage.approved text).Follows ms) : Stage.published.Follows (ms ++ [.queued text]) := by
  cases h with
  | approved o => exact .published (.queued o text)

theorem reported_mem_iff {g : Stage} (h : g.Follows ms) :
    .reported ∈ ms ↔ g = .done := by
  cases h with
  | running | finished | approved => simp
  | published h => cases h <;> simp
  | done h => simp

theorem dealt (h : Stage.published.Follows ms) : Mark.Dealt ms := by
  cases h
  assumption

end Stage.Follows

namespace Engine

/-- The engine after somebody has asked for a step. A scheduler may refuse a text, and then nothing changes. -/
def ask (e : Engine) : Action → Option Engine
  | .schedule i text => some ((e.schedule i text).getD e)
  | a => e.step a

/-- The text that a step starts a run for. -/
def startedBy : Engine × Action → Option String
  | (e, .schedule i text) => (e.schedule i text).map fun _ => text
  | _ => none

/-- What a step makes of the run of the worker `w`. -/
def markOf (w : Nat) : Engine × Action → Option Mark
  | (_, .finish v o) => if v = w then some (.ended o) else none
  | (e, .check v) =>
    if v = w then (e.workers[v]?).bind fun k => match k.stage with
      | .finished o => some (.decided (Display.approve e.registry k.token o))
      | _ => none
    else none
  | (e, .send v) =>
    if v = w then (e.workers[v]?).bind fun k => match k.stage with
      | .approved text => some (.queued text)
      | _ => none
    else none
  | (_, .clear v) => if v = w then some .reported else none
  | _ => none

/-- What has become of the run of the worker `w`, in order. -/
def marks (past : List (Engine × Action)) (w : Nat) : List Mark := past.filterMap (markOf w)

variable {past : List (Engine × Action)} {e e' : Engine} {a : Action}

theorem ask_some (h : e.ask a = some e') :
    e.step a = some e' ∨ ∃ i text, a = .schedule i text ∧ e.schedule i text = none ∧ e' = e := by
  cases a with
  | schedule i text =>
    obtain rfl : (e.schedule i text).getD e = e' := Option.some.inj h
    cases hs : e.schedule i text with
    | none => exact Or.inr ⟨i, text, rfl, hs, rfl⟩
    | some e' => exact Or.inl hs
  | _ => exact Or.inl h

theorem markOf_eq_reported {w : Nat} : markOf w (e, a) = some .reported ↔ a = .clear w := by
  constructor
  · intro hm
    cases a with
    | clear v =>
      obtain rfl : v = w := by simpa [markOf] using hm
      rfl
    | check v =>
      simp only [markOf] at hm
      split at hm
      · obtain ⟨k, -, hk⟩ := Option.bind_eq_some_iff.mp hm
        split at hk <;> cases hk
      · cases hm
    | send v =>
      simp only [markOf] at hm
      split at hm
      · obtain ⟨k, -, hk⟩ := Option.bind_eq_some_iff.mp hm
        split at hk <;> cases hk
      · cases hm
    | finish v o => simp [markOf] at hm
    | _ => cases hm
  · rintro rfl
    simp [markOf]

theorem reported_mem_marks {w : Nat} : .reported ∈ marks past w ↔ Action.clear w ∈ past.map Prod.snd := by
  simp [marks, List.mem_filterMap, markOf_eq_reported]

/-- One scheduler after any steps that were asked for, as the past accounts for its runs. -/
structure Traced (past : List (Engine × Action)) (e : Engine) : Prop where
  regular : Regular (fun w o => Action.finish w o ∈ past.map Prod.snd) e
  alone : e.schedulers.size = 1
  texts : e.workers.toList.map (·.text) = past.filterMap startedBy
  numbered : ∀ {w : Nat} {k : Worker}, e.workers[w]? = some k → k.token.generation = UInt64.ofNat (w + 1)
  fresh : e.workers.size = 0 → e.isRunning 0 = false
  follows : ∀ {w : Nat} {k : Worker}, e.workers[w]? = some k → k.stage.Follows (marks past w)
  unmarked : ∀ {w : Nat}, e.workers.size ≤ w → marks past w = []

theorem isRunning_eq {i : Nat} {s : Scheduler} (hs : e.schedulers[i]? = some s) : e.isRunning i = s.running.isSome := by
  simp [isRunning, hs]

theorem isRunning_closed {i : Nat} {s : Scheduler} (hs : e.schedulers[i]? = some s) (j : Nat) :
    (e.closed i s).isRunning j = e.isRunning j := by
  by_cases hij : i = j
  · subst hij
    rw [isRunning_eq hs, isRunning_eq (Array.getElem?_setIfInBounds_self_of_lt (getElem?_lt hs))]
  · simp [isRunning, closed, hij]

namespace Traced

theorem start : Traced [] single where
  regular := (Regular.empty.addScheduler (by simp)).congr (by simp)
  alone := rfl
  texts := rfl
  numbered hk := by simp [single, addScheduler] at hk
  fresh _ := rfl
  follows hk := by simp [single, addScheduler] at hk
  unmarked _ := rfl

theorem scheduler_eq (h : Traced past e) {w : Nat} {k : Worker} (hk : e.workers[w]? = some k) : k.scheduler = 0 := by
  have := h.regular.sound.owned hk
  have := h.alone
  omega

theorem index_eq (h : Traced past e) {i : Nat} {s : Scheduler} (hs : e.schedulers[i]? = some s) : i = 0 := by
  have := getElem?_lt hs
  have := h.alone
  omega

theorem runs_eq (h : Traced past e) : e.runs 0 = e.workers.size := by
  rw [runs, Array.countP_eq_size]
  intro k hk
  obtain ⟨w, hw, rfl⟩ := Array.mem_iff_getElem.mp hk
  exact beq_iff_eq.mpr (h.scheduler_eq (Array.getElem?_eq_getElem hw))

/-! ## What a step does to the account -/

theorem marks_concat {w : Nat} : marks (past ++ [(e, a)]) w = marks past w ++ (markOf w (e, a)).toList := by
  rw [marks, List.filterMap_append]
  cases h : markOf w (e, a) <;> simp [marks, h]

theorem marks_concat_none {w : Nat} (hm : markOf w (e, a) = none) : marks (past ++ [(e, a)]) w = marks past w := by
  simp [marks_concat, hm]

/-- A step that starts no run. -/
theorem kept (h : Traced past e) (hr : Regular (fun w o => Action.finish w o ∈ (past ++ [(e, a)]).map Prod.snd) e')
    (hs : e'.schedulers.size = e.schedulers.size) (ho : e'.workers.map Worker.origin = e.workers.map Worker.origin)
    (ht : startedBy (e, a) = none) (hz : e.workers.size = 0 → e'.isRunning 0 = false)
    (hf : ∀ {w : Nat} {k : Worker}, e'.workers[w]? = some k → k.stage.Follows (marks (past ++ [(e, a)]) w))
    (hu : ∀ {w : Nat}, e.workers.size ≤ w → markOf w (e, a) = none) : Traced (past ++ [(e, a)]) e' := by
  have hsize : e'.workers.size = e.workers.size := by simpa using congrArg Array.size ho
  refine ⟨hr, hs.trans h.alone, ?_, ?_, fun h0 => hz (hsize ▸ h0), hf, fun hw => ?_⟩
  · rw [filterMap_concat_none ht, ← h.texts]
    simpa [Worker.origin, Function.comp_def] using congrArg (fun os => os.toList.map (·.2.2)) ho
  · intro w k' hk'
    obtain ⟨k, hk, hko⟩ := worker_of_origin ho hk'
    have hg : k.token.generation = k'.token.generation := congrArg (·.2.1.generation) hko
    exact hg ▸ h.numbered hk
  · rw [marks_concat_none (hu (hsize ▸ hw))]
    exact h.unmarked (hsize ▸ hw)

/-- A step that no worker makes. -/
theorem idle (h : Traced past e) (hr : Regular (fun w o => Action.finish w o ∈ (past ++ [(e, a)]).map Prod.snd) e')
    (hs : e'.schedulers.size = e.schedulers.size) (hw : e'.workers = e.workers) (ht : startedBy (e, a) = none)
    (hz : e'.isRunning 0 = e.isRunning 0) (hm : ∀ w, markOf w (e, a) = none) : Traced (past ++ [(e, a)]) e' := by
  refine h.kept hr hs (by rw [hw]) ht (fun h0 => hz.trans (h.fresh h0)) (fun hk => ?_) fun _ => hm _
  rw [marks_concat_none (hm _)]
  exact h.follows (hw ▸ hk)

/-- A worker goes on to another stage, which leaves its mark. -/
theorem moved (h : Traced past e) (hr : Regular (fun w o => Action.finish w o ∈ (past ++ [(e, a)]).map Prod.snd) e')
    (hs : e'.schedulers.size = e.schedulers.size) {w : Nat} {k : Worker} {g : Stage} {m : Mark}
    (hk : e.workers[w]? = some k) (hw : e'.workers = (e.setStage w k g).workers) (ht : startedBy (e, a) = none)
    (hm : markOf w (e, a) = some m) (hm' : ∀ v, v ≠ w → markOf v (e, a) = none)
    (hg : g.Follows (marks past w ++ [m])) : Traced (past ++ [(e, a)]) e' := by
  have hlt := getElem?_lt hk
  refine h.kept hr hs (by rw [hw]; exact map_setIfInBounds_same _ hk rfl) ht (fun h0 => by omega) (fun hj => ?_) ?_
  · rw [hw] at hj
    rcases getElem?_setIfInBounds_cases hj with ⟨rfl, rfl⟩ | ⟨hne, hj⟩
    · rw [marks_concat, hm]
      exact hg
    · rw [marks_concat_none (hm' _ (Ne.symm hne))]
      exact h.follows hj
  · intro v hv
    exact hm' v (by omega)

/-- A run is started; the clock of the only scheduler has counted all runs before it. -/
theorem started (h : Traced past e) {i : Nat} {s : Scheduler} {text : String} (hs : e.schedulers[i]? = some s)
    (hd : s.isShutDown = false) : Traced (past ++ [(e, .schedule i text)]) (e.started i s text) := by
  have he := schedule_of_open hs hd text
  obtain rfl := h.index_eq hs
  have hm : ∀ w, markOf w (e, .schedule 0 text) = none := fun _ => rfl
  have ht : startedBy (e, .schedule 0 text) = some text := by simp [startedBy, he]
  refine ⟨h.regular.next he, by simpa [Engine.started] using h.alone, ?_, ?_, ?_, ?_, fun {w} hw => ?_⟩
  · rw [filterMap_concat_some ht, ← h.texts]
    simp [Engine.started]
  · intro w k hk
    rcases getElem?_push_cases hk with hk | ⟨rfl, rfl⟩
    · exact h.numbered hk
    · rw [nextToken_generation, h.regular.counted.count_clock hs, h.runs_eq, UInt64.ofNat_add]
      rfl
  · intro h0
    simp [Engine.started] at h0
  · intro w k hk
    rw [marks_concat_none (hm w)]
    rcases getElem?_push_cases hk with hk | ⟨rfl, rfl⟩
    · exact h.follows hk
    · rw [h.unmarked (Nat.le_refl _)]
      exact .running
  · rw [marks_concat_none (hm w)]
    exact h.unmarked (by simp [Engine.started] at hw; omega)

theorem next (h : Traced past e) (he : e.ask a = some e') : Traced (past ++ [(e, a)]) e' := by
  rcases ask_some he with hstep | ⟨i, text, rfl, hno, rfl⟩
  · have hr := h.regular.next hstep
    cases a with
    | schedule i text =>
      obtain ⟨s, hs, hd, rfl⟩ := schedule_some hstep
      exact h.started hs hd
    | shutDown i =>
      obtain ⟨s, hs, ⟨-, rfl⟩ | ⟨-, -, rfl⟩⟩ := shutDown_some hstep
      · exact h.idle hr rfl rfl rfl rfl fun _ => rfl
      · exact h.idle hr (by simp [closed]) rfl rfl (isRunning_closed hs 0) fun _ => rfl
    | finish w o =>
      obtain ⟨k, hk, hg, rfl⟩ := finish_some hstep
      have hf := h.follows hk
      rw [hg] at hf
      exact h.moved hr rfl hk rfl rfl (by simp [markOf]) (fun v hv => by simp [markOf, hv.symm]) (hf.finish o)
    | check w =>
      obtain ⟨k, o, hk, hg, rfl⟩ := check_some hstep
      have hf := h.follows hk
      rw [hg] at hf
      exact h.moved hr rfl hk rfl rfl (by simp [markOf, hk, hg]) (fun v hv => by simp [markOf, hv.symm])
        (hf.check e.registry k.token)
    | send w =>
      obtain ⟨k, text, hk, hg, rfl⟩ := send_some hstep
      have hf := h.follows hk
      rw [hg] at hf
      exact h.moved hr rfl hk rfl rfl (by simp [markOf, hk, hg]) (fun v hv => by simp [markOf, hv.symm]) hf.send
    | clear w =>
      obtain ⟨k, s, hk, hg, hs, rfl⟩ := clear_some hstep
      have hf := h.follows hk
      rw [hg] at hf
      exact h.moved hr (by simp [Engine.reported]) hk rfl rfl (by simp [markOf])
        (fun v hv => by simp [markOf, hv.symm]) (.done hf.dealt)
    | take => obtain ⟨d, -, rfl⟩ := take_some hstep; exact h.idle hr rfl rfl rfl rfl fun _ => rfl
    | put => obtain ⟨d, -, rfl⟩ := put_some hstep; exact h.idle hr rfl rfl rfl rfl fun _ => rfl
    | flush c => obtain ⟨-, -, rfl⟩ := flush_some hstep; exact h.idle hr rfl rfl rfl rfl fun _ => rfl
  · exact h.idle (h.regular.congr (by simp)) rfl rfl (by simp [startedBy, hno]) rfl fun _ => rfl

/-! ## The flag -/

theorem newest (h : Traced past e) (hpos : e.workers.size ≠ 0) :
    ∃ k s, e.IsNewest (e.workers.size - 1) k ∧ e.schedulers[0]? = some s := by
  have hw : e.workers.size - 1 < e.workers.size := by omega
  have hs : 0 < e.schedulers.size := by simp [h.alone]
  refine ⟨_, _, ⟨Array.getElem?_eq_getElem hw, fun hj _ => ?_⟩, Array.getElem?_eq_getElem hs⟩
  have := getElem?_lt hj
  omega

theorem running_eq (h : Traced past e) (hfew : e.workers.size < UInt64.size) {k : Worker} {s : Scheduler}
    (hn : e.IsNewest (e.workers.size - 1) k) (hs : e.schedulers[0]? = some s) :
    s.running = if k.stage = .done then none else some k.token.generation := by
  have h0 := h.scheduler_eq hn.1
  exact h.regular.flagged.running hn (h0 ▸ hs) (h0 ▸ h.runs_eq ▸ hfew)

theorem numbered_toNat (h : Traced past e) (hfew : e.workers.size < UInt64.size) {w : Nat} {k : Worker}
    (hk : e.workers[w]? = some k) : k.token.generation.toNat = w + 1 := by
  have := getElem?_lt hk
  rw [h.numbered hk]
  exact UInt64.toNat_ofNat_of_lt' (by omega)

theorem isRunning_eq_false_iff (h : Traced past e) (hfew : e.workers.size < UInt64.size) :
    e.isRunning 0 = false ↔ e.workers.size = 0 ∨ Action.clear (e.workers.size - 1) ∈ past.map Prod.snd := by
  by_cases hpos : e.workers.size = 0
  · simp [hpos, h.fresh hpos]
  · obtain ⟨k, s, hn, hs⟩ := h.newest hpos
    rw [isRunning_eq hs, h.running_eq hfew hn hs, ← reported_mem_marks, (h.follows hn.1).reported_mem_iff]
    by_cases hg : k.stage = .done <;> simp [hpos, hg]

/-- A worker other than that of the newest run reports that it is done. -/
theorem stale (h : Traced past e) (hfew : e.workers.size < UInt64.size) {w : Nat} (hc : e.step (.clear w) = some e')
    (hw : w + 1 < e.workers.size) : e'.schedulers = e.schedulers := by
  obtain ⟨k, s, hk, -, hs, rfl⟩ := clear_some hc
  obtain ⟨n, s', hn, hs'⟩ := h.newest (by omega)
  have h0 := h.scheduler_eq hk
  obtain rfl : s = s' := Option.some.inj ((h0 ▸ hs).symm.trans hs')
  have hne : s.running ≠ some k.token.generation := by
    rw [h.running_eq hfew hn hs']
    split
    · nofun
    · intro he
      have hgen := congrArg UInt64.toNat (Option.some.inj he)
      rw [h.numbered_toNat hfew hn.1, h.numbered_toNat hfew hk] at hgen
      omega
  rw [Engine.reported, Scheduler.cleared, if_neg hne]
  simpa using map_setIfInBounds_same id hs rfl

/-- Only a worker that reports takes the flag down. -/
theorem isRunning_ask (h : Traced past e) (ha : e.ask a = some e') (hup : e.isRunning 0 = true)
    (hne : ∀ w, a ≠ .clear w) : e'.isRunning 0 = true := by
  rcases ask_some ha with hstep | ⟨i, text, -, -, rfl⟩
  · cases a with
    | schedule i text =>
      obtain ⟨s, hs, -, rfl⟩ := schedule_some hstep
      obtain rfl := h.index_eq hs
      rw [isRunning_eq (Array.getElem?_setIfInBounds_self_of_lt (getElem?_lt hs))]
      rfl
    | shutDown i =>
      obtain ⟨s, hs, ⟨-, rfl⟩ | ⟨-, -, rfl⟩⟩ := shutDown_some hstep
      · exact hup
      · rwa [isRunning_closed hs]
    | finish w o => obtain ⟨k, -, -, rfl⟩ := finish_some hstep; exact hup
    | check w => obtain ⟨k, o, -, -, rfl⟩ := check_some hstep; exact hup
    | send w => obtain ⟨k, text, -, -, rfl⟩ := send_some hstep; exact hup
    | clear w => exact absurd rfl (hne w)
    | take => obtain ⟨d, -, rfl⟩ := take_some hstep; exact hup
    | put => obtain ⟨d, -, rfl⟩ := put_some hstep; exact hup
    | flush c => obtain ⟨-, -, rfl⟩ := flush_some hstep; exact hup
  · exact hup

/-- The flag goes down when the newest worker reports, and what is shown of its run has been dealt with by then. -/
theorem lowered (h : Traced past e) (hfew : e.workers.size < UInt64.size) (ha : e.ask a = some e')
    (hup : e.isRunning 0 = true) (hdown : e'.isRunning 0 = false) :
    ∃ w k, a = .clear w ∧ w + 1 = e.workers.size ∧ e.workers[w]? = some k ∧
      e.schedulers[0]?.bind (·.running) = some k.token.generation ∧ Mark.Dealt (marks past w) := by
  by_cases hc : ∃ w, a = .clear w
  · obtain ⟨w, rfl⟩ := hc
    obtain ⟨k, -, hk, hg, -, -⟩ := clear_some ha
    have hlt := getElem?_lt hk
    have hw : w + 1 = e.workers.size := by
      by_contra hne
      rw [isRunning, h.stale hfew ha (by omega), ← isRunning, hup] at hdown
      cases hdown
    obtain rfl : w = e.workers.size - 1 := by omega
    obtain ⟨n, s, hn, hs⟩ := h.newest (by omega)
    obtain rfl : k = n := Option.some.inj (hk.symm.trans hn.1)
    have hf := h.follows hk
    rw [hg] at hf
    refine ⟨_, k, rfl, hw, hk, ?_, hf.dealt⟩
    rw [hs, Option.bind_some, h.running_eq hfew hn hs, if_neg (by simp [hg])]
  · rw [h.isRunning_ask ha hup fun w hw => hc ⟨w, hw⟩] at hdown
    cases hdown

end Traced

/-- One scheduler, after any requests and any steps of the workers. Its runs are those of the texts it took, numbered
from one on. The flag is down exactly when no run was started or the worker of the newest one has reported. The report
of an older worker leaves the scheduler as it is; and when the flag goes down, it is the newest worker that reports, and
it has been decided and queued what is shown of its run. -/
theorem running_until_newest_reports {acts : List Action} {e : Engine} (h : Steps.run ask single acts = some e)
    (hfew : e.workers.size < UInt64.size) :
    (e.workers.toList.map (·.text) = (Steps.history ask single acts).filterMap startedBy ∧
      ∀ w k, e.workers[w]? = some k → k.token.generation.toNat = w + 1) ∧
    (e.isRunning 0 = false ↔ e.workers.size = 0 ∨ Action.clear (e.workers.size - 1) ∈ acts) ∧
    (∀ w e', e.step (.clear w) = some e' → w + 1 < e.workers.size → e'.schedulers = e.schedulers) ∧
    ∀ a e', e.ask a = some e' → e.isRunning 0 = true → e'.isRunning 0 = false →
      ∃ w k, a = .clear w ∧ w + 1 = e.workers.size ∧ e.workers[w]? = some k ∧
        e.schedulers[0]?.bind (·.running) = some k.token.generation ∧
        Mark.Dealt (marks (Steps.history ask single acts) w) := by
  have ht : Traced (Steps.history ask single acts) e := Steps.run_induction (P := Traced) Traced.next Traced.start h
  refine ⟨⟨ht.texts, fun _ _ => ht.numbered_toNat hfew⟩, ?_, fun _ _ => ht.stale hfew, fun _ _ => ht.lowered hfew⟩
  rw [ht.isRunning_eq_false_iff hfew, Steps.history_map_snd h]

/-- Three runs: the second one is over before the third is started, the first one after that. A fourth text is refused. -/
def crossed : List Action :=
  [.schedule 0 "one", .schedule 0 "two", .finish 1 (.completed "2" "" none), .check 1, .send 1, .clear 1,
    .schedule 0 "three", .finish 0 .cancelled, .check 0, .shutDown 0, .schedule 0 "four",
    .finish 2 (.completed "3" "" none), .check 2]

/-- The first worker's report would change nothing, the third one's takes the flag down. -/
theorem running_until_third_reports :
    ∃ e e₀ e₂, Steps.run ask single crossed = some e ∧ e.workers.size < UInt64.size ∧
      e.workers.toList.map (·.text) = ["one", "two", "three"] ∧
      (e.isRunning 0 = false ↔ e.workers.size = 0 ∨ Action.clear (e.workers.size - 1) ∈ crossed) ∧
      (e.step (.clear 0) = some e₀ ∧ e₀.schedulers = e.schedulers) ∧
      e.ask (.clear 2) = some e₂ ∧ e.isRunning 0 = true ∧ e₂.isRunning 0 = false ∧
      ∃ w k, Action.clear 2 = .clear w ∧ w + 1 = e.workers.size ∧ e.workers[w]? = some k ∧
        e.schedulers[0]?.bind (·.running) = some k.token.generation ∧
        Mark.Dealt (marks (Steps.history ask single crossed) w) := by
  have hrun : Steps.run ask single crossed = some ((Steps.run ask single crossed).get rfl) := rfl
  have hfew : ((Steps.run ask single crossed).get rfl).workers.size < UInt64.size := by decide
  have hall := running_until_newest_reports hrun hfew
  have h₀ : ((Steps.run ask single crossed).get rfl).step (.clear 0) =
      some ((((Steps.run ask single crossed).get rfl).step (.clear 0)).get rfl) := rfl
  have h₂ : ((Steps.run ask single crossed).get rfl).ask (.clear 2) =
      some ((((Steps.run ask single crossed).get rfl).ask (.clear 2)).get rfl) := rfl
  exact ⟨_, _, _, hrun, hfew, hall.1.1.trans (by decide), hall.2.1, ⟨h₀, hall.2.2.1 _ _ h₀ (by decide)⟩, h₂, by decide,
    by decide, hall.2.2.2 _ _ h₂ (by decide) (by decide)⟩

end Engine

end Retrace.Live
