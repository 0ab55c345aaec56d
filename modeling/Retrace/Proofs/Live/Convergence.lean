import Retrace.Proofs.Live.Content

/-!
# No update is lost

When a session has come to rest, its newest content has been run and the run has been dealt with. Once a flush has
been acknowledged, the last text shown is the output of that run, or the run has brought none.
-/

namespace Retrace.Live

/-- A result has been shown, or it will be before the flush of a client is acknowledged. -/
def Display.Ahead (r : Token × String) (client : Nat) (d : Display) : Prop :=
  r ∈ d.shown ∨ client ∉ d.acknowledged ∧
    (r ∈ d.underway ∨ ∃ before after, d.queue = before ++ .flush client :: after ∧
      .publish r.1 r.2 ∈ before ∧ .flush client ∉ before)

/-- The last text shown is the output of the newest run if it has completed; otherwise all that was written comes from
earlier runs. -/
def Display.Settled (d : Display) (newest : Token) : RunOutcome → Prop
  | .completed stdout _ _ => d.shown.head? = some (newest, stdout)
  | _ => ∀ r ∈ d.written, r.1.id < newest.id

namespace Display.Ahead

variable {r : Token × String} {client : Nat} {d d' : Display}

theorem start (hr : r ∈ d.results) (ha : client ∉ d.acknowledged) (hq : .flush client ∉ d.queue) :
    Ahead r client { d with queue := d.queue ++ [.flush client] } := by
  simp only [results, written, List.mem_append, List.mem_reverse] at hr
  rcases hr with (hr | hr) | hr
  · exact Or.inl hr
  · exact Or.inr ⟨ha, Or.inl hr⟩
  · obtain ⟨c, hc, hcr⟩ := List.mem_filterMap.mp hr
    cases c with
    | publish t text =>
      obtain rfl := Option.some.inj hcr
      exact Or.inr ⟨ha, Or.inr ⟨d.queue, [], rfl, hc, hq⟩⟩
    | flush | shutDown => cases hcr

theorem send (h : Ahead r client d) (c : Command) : Ahead r client { d with queue := d.queue ++ [c] } := by
  rcases h with h | ⟨ha, h | ⟨before, after, hq, hm, hn⟩⟩
  · exact Or.inl h
  · exact Or.inr ⟨ha, Or.inl h⟩
  · exact Or.inr ⟨ha, Or.inr ⟨before, after ++ [c], by simp [hq], hm, hn⟩⟩

theorem put (h : Ahead r client d) (hp : d.put = some d') : Ahead r client d' := by
  obtain ⟨t, text, hs, rfl⟩ := put_some hp
  rcases h with h | ⟨ha, h | h⟩
  · exact Or.inl (List.mem_cons_of_mem _ h)
  · rw [underway_of_showing hs, List.mem_singleton] at h
    exact Or.inl (h ▸ List.mem_cons_self ..)
  · exact Or.inr ⟨ha, Or.inr h⟩

/-- The display's worker takes a command: a result ahead of the flush stays ahead while its token is active. -/
theorem take (h : Ahead r client d) (hv : d.Serving) {g : Registry} (hg : g.isCancelled r.1 = false)
    (ht : d.take g = some d') : Ahead r client d' := by
  obtain ⟨hidle, hcase⟩ := hv.take_some ht
  rcases h with h | ⟨ha, h | ⟨before, after, hq, hm, hn⟩⟩
  · rcases hcase with ⟨t, text, rest, -, ⟨-, rfl⟩ | ⟨-, rfl⟩⟩ | ⟨c, rest, -, rfl⟩ <;> exact Or.inl h
  · rw [underway_of_idle hidle] at h
    cases h
  · cases before with
    | nil => cases hm
    | cons b before =>
      have hn' : .flush client ∉ before := fun hb => hn (List.mem_cons_of_mem _ hb)
      rcases hcase with ⟨t, text, rest, hqueue, hd⟩ | ⟨c, rest, hqueue, rfl⟩
      · obtain ⟨rfl, rfl⟩ : Command.publish t text = b ∧ rest = before ++ .flush client :: after := by
          simpa using hqueue.symm.trans hq
        rcases List.mem_cons.mp hm with hr | hm
        · obtain ⟨rfl, rfl⟩ : r.1 = t ∧ r.2 = text := by simpa using hr
          rcases hd with ⟨hc, -⟩ | ⟨-, rfl⟩
          · rw [hg] at hc
            cases hc
          · exact Or.inr ⟨ha, Or.inl (mem_underway.mpr rfl)⟩
        · rcases hd with ⟨-, rfl⟩ | ⟨-, rfl⟩ <;> exact Or.inr ⟨ha, Or.inr ⟨before, after, rfl, hm, hn'⟩⟩
      · obtain ⟨rfl, rfl⟩ : Command.flush c = b ∧ rest = before ++ .flush client :: after := by
          simpa using hqueue.symm.trans hq
        have hne : client ≠ c := fun hc => hn (hc ▸ List.mem_cons_self ..)
        refine Or.inr ⟨by simp [hne, ha], Or.inr ⟨before, after, rfl, ?_, hn'⟩⟩
        rcases List.mem_cons.mp hm with hr | hm
        · cases hr
        · exact hm

end Display.Ahead

namespace Engine

theorem Calm.refl (e : Engine) : Calm e e := ⟨rfl, rfl, rfl⟩

theorem Calm.trans {e e' e'' : Engine} (h : Calm e e') (h' : Calm e' e'') : Calm e e'' :=
  ⟨h'.registry.trans h.registry, h'.schedulers.trans h.schedulers, h'.workers.trans h.workers⟩

theorem ahead_step {e e' : Engine} {a : Action} (hd : e.Displaying) {r : Token × String} {client : Nat}
    (hg : e.registry.isCancelled r.1 = false) (h : e.step a = some e') (hr : e.display.Ahead r client) :
    e'.display.Ahead r client := by
  cases a with
  | schedule i text => obtain ⟨s, -, -, rfl⟩ := schedule_some h; exact hr
  | shutDown i => obtain ⟨s, -, ⟨-, rfl⟩ | ⟨-, -, rfl⟩⟩ := shutDown_some h <;> exact hr
  | finish w o => obtain ⟨k, -, -, rfl⟩ := finish_some h; exact hr
  | check w => obtain ⟨k, o, -, -, rfl⟩ := check_some h; exact hr
  | send w =>
    obtain ⟨k, text, -, -, rfl⟩ := send_some h
    rw [hd.serving.send]
    exact hr.send _
  | clear w => obtain ⟨k, s, -, -, -, rfl⟩ := clear_some h; exact hr
  | take => obtain ⟨d, ht, rfl⟩ := take_some h; exact hr.take hd.serving hg ht
  | put => obtain ⟨d, hp, rfl⟩ := put_some h; exact hr.put hp
  | flush c =>
    obtain ⟨-, -, rfl⟩ := flush_some h
    rw [hd.serving.send]
    exact hr.send _

theorem Displaying.head_shown {e : Engine} (h : e.Displaying) {r : Token × String} (hr : r ∈ e.display.shown)
    (hlast : r.1.id + 1 = e.workers.size) : e.display.shown.head? = some r := by
  have hinc := h.increasing
  have hknown := fun q (hq : q ∈ e.display.shown) => h.id_lt_of_shown hq
  rw [Display.written, List.map_append, List.pairwise_append, List.map_reverse, List.pairwise_reverse,
    List.pairwise_map] at hinc
  have hfalling := hinc.1
  cases hs : e.display.shown with
  | nil => simp [hs] at hr
  | cons q rest =>
    rw [hs] at hr hknown hfalling
    rcases List.mem_cons.mp hr with rfl | hr
    · rfl
    · have := (List.pairwise_cons.mp hfalling).1 r hr
      have := hknown q (List.mem_cons_self ..)
      omega

end Engine

namespace Session

/-- A call that changes what is to be shown. -/
def Action.isCall : Action → Bool
  | .beginStart _ | .beginStop | .edit .. => true
  | _ => false

/-- A session at rest: its pipeline waits for nothing, and its runs are those of an engine before. -/
structure Quiet (e : Engine) (p : Nat) (past : List (Session × Action)) (s : Session) : Prop where
  life : Lifecycle past s
  calm : e.Calm s.engine
  active : s.active = some p
  still : ∀ {l : Pipeline}, s.pipelines[p]? = some l → l.debounce.countdown = none

namespace Quiet

variable {e : Engine} {p : Nat} {past : List (Session × Action)} {s s' : Session}

/-- The end of a countdown changes nothing: the pipeline has none that is running, and those before are closed. -/
theorem fire (h : Quiet e p past s) (q : Nat) : (s.fire q).engine = s.engine ∧ (s.fire q).active = s.active ∧
    ∀ {l : Pipeline}, (s.fire q).pipelines[p]? = some l → l.debounce.countdown = none := by
  cases hq : s.pipelines[q]? with
  | none =>
    rw [fire_of_none hq]
    exact ⟨rfl, rfl, h.still⟩
  | some l =>
    rw [fire_of_pipeline hq]
    by_cases hqp : q = p
    · subst hqp
      have hf : l.debounce.fire = (none, l.debounce) := by simp [Debounce.fire, h.still hq]
      rw [hf]
      refine ⟨rfl, rfl, fun hm => ?_⟩
      rcases getElem?_setIfInBounds_cases hm with ⟨-, rfl⟩ | ⟨hne, -⟩
      · exact h.still hq
      · exact absurd rfl hne
    · rw [Engine.handed_of_door (h.life.door_of_other h.active hqp)]
      refine ⟨rfl, rfl, fun hm => ?_⟩
      rcases getElem?_setIfInBounds_cases hm with ⟨hqp', -⟩ | ⟨-, hm⟩
      · exact absurd hqp' hqp
      · exact h.still hm

theorem next {a : Action} (h : Quiet e p past s) (ha : a.isWhole = true ∧ a.isCall = false)
    (hs : s.step a = some s') : Quiet e p (past ++ [(s, a)]) s' := by
  obtain ⟨hc, hu⟩ := h.life.unstopped_of_active h.active
  cases a with
  | beginStart | beginStop | edit => cases ha.2
  | expire | takeText | handOn => cases ha.1
  | cancelCountdown =>
    obtain ⟨q, r, hq, -⟩ := cancelCountdown_some hs
    rw [hc] at hq
    cases hq
  | closeScheduler =>
    obtain ⟨q, r, e, hq, -⟩ := closeScheduler_some hs
    rw [hc] at hq
    cases hq
  | openPipeline =>
    obtain ⟨text, hq, -⟩ := openPipeline_some hs
    rw [hc] at hq
    cases hq
  | fire q =>
    obtain ⟨he, hp, hl⟩ := h.fire q
    obtain rfl : s.fire q = s' := Option.some.inj hs
    exact ⟨h.life.next hs, he ▸ h.calm, hp ▸ h.active, hl⟩
  | engine b =>
    obtain ⟨hb, e', he, rfl⟩ := engineStep_some hs
    exact ⟨h.life.next hs, h.calm.trans (Engine.step_calm hb he), h.active, h.still⟩

theorem ahead_next {a : Action} (h : Quiet e p past s) (hs : s.step a = some s') {r : Token × String}
    {client : Nat} (hg : e.registry.isCancelled r.1 = false) (hr : s.engine.display.Ahead r client) :
    s'.engine.display.Ahead r client := by
  rcases engine_cases hs with ⟨he, -⟩ | ⟨b, he, -⟩ | ⟨text, hc, -⟩
  · exact he ▸ hr
  · exact Engine.ahead_step h.life.regular.displaying (h.calm.registry ▸ hg) he hr
  · rw [(h.life.unstopped_of_active h.active).1] at hc
    cases hc

end Quiet

theorem activity_idle {s : Session} {p : Nat} {l : Pipeline} (hp : s.active = some p) (hl : s.pipelines[p]? = some l)
    (hi : s.activity = .idle) : l.debounce.pending = none ∧ s.engine.isRunning p = false := by
  unfold activity at hi
  rw [hp] at hi
  simp only [hl] at hi
  split at hi
  · cases hi
  · rename_i hpend
    split at hi
    · cases hi
    · rename_i hrun
      exact ⟨by simpa [Debounce.isPending] using hpend, by simpa using hrun⟩

/-- In a session that is idle the run of the newest content is the last one, and it has been dealt with. -/
theorem Contained.newest_run {past : List (Session × Action)} {s : Session} {p : Nat} (h : Contained past s)
    (hp : s.active = some p) (hi : s.activity = .idle) :
    (∀ {l : Pipeline}, s.pipelines[p]? = some l → l.debounce.countdown = none) ∧
    ∃ w k, s.engine.workers[w]? = some k ∧ w + 1 = s.engine.workers.size ∧ k.scheduler = p ∧
      s.engine.registry.isCancelled k.token = false ∧ newestContent (past.map Prod.snd) = some k.text ∧
      (k.stage = .done ∨ UInt64.size ≤ s.engine.runs p) := by
  obtain ⟨hc, hu⟩ := h.life.unstopped_of_active hp
  have hdoor := h.life.door.mpr hu
  obtain ⟨c, hsch, -⟩ : ∃ c, s.engine.schedulers[p]? = some c ∧ c.isShutDown = false := by
    simpa [Engine.doors] using hdoor
  obtain ⟨l, hl⟩ : ∃ l, s.pipelines[p]? = some l :=
    ⟨_, Array.getElem?_eq_getElem (by rw [h.life.sized]; exact getElem?_lt hsch)⟩
  obtain ⟨hpend, hrun⟩ := activity_idle hp hl hi
  obtain ⟨text, hheld, hnew⟩ := h.newest (by simp [engaged, hp])
  have htext : s.engine.newestText p = some text := by
    simpa [held, hc, Change.restart, hp, hl, hpend] using hheld
  obtain ⟨w, k, hk, hlast, rfl, rfl, hact⟩ := h.life.regular.sound.last_of_newestText htext
  refine ⟨fun hm => ?_, w, k, hk, hlast, rfl, hact, hnew, ?_⟩
  · obtain rfl := Option.some.inj (hl.symm.trans hm)
    have := (h.whole.debounce hl).pending
    rw [hpend] at this
    simpa using this.symm
  · rcases Nat.lt_or_ge (s.engine.runs k.scheduler) UInt64.size with hb | hb
    · left
      have hn : s.engine.IsNewest w k := ⟨hk, fun hj _ => by
        have := getElem?_lt hj
        omega⟩
      have hflag := h.life.regular.flagged.running hn hsch hb
      have hnone : c.running = none := by simpa [Engine.isRunning, hsch] using hrun
      rw [hnone] at hflag
      split at hflag
      · assumption
      · cases hflag
    · exact Or.inr hb

/-- What a session at rest shows when a flush has been acknowledged. -/
theorem Quiet.settled {e : Engine} {p client : Nat} {past : List (Session × Action)} {s : Session}
    (h : Quiet e p past s) {t : Token} (hlast : t.id + 1 = e.workers.size) {o : RunOutcome} (ho : Ended past t.id o)
    (ha : ∀ {text stderr : String} {code : Option Int}, o = .completed text stderr code →
      s.engine.display.Ahead (t, text) client) (hack : client ∈ s.engine.display.acknowledged) :
    s.engine.display.Settled t o := by
  have hsize := h.calm.workers_size
  -- a written result of the newest run would be that of a completed one
  have hother : (∀ text stderr code, o ≠ .completed text stderr code) →
      ∀ r ∈ s.engine.display.written, r.1.id < t.id := by
    intro hn r hr
    have hm : (r.1, r.2) ∈ s.engine.display.results := List.mem_append_left _ hr
    obtain ⟨j, hj, -⟩ := h.life.regular.worker_of_result hm
    obtain ⟨stderr, code, he⟩ := h.life.regular.accounted.result hm
    have hlt := getElem?_lt hj
    have hne : r.1.id ≠ t.id := by
      intro hid
      exact hn _ _ _ (h.life.regular.accounted.unique ho (hid ▸ he))
    omega
  cases o with
  | completed stdout stderr code =>
    rcases ha rfl with hs | ⟨hn, -⟩
    · exact h.life.regular.displaying.head_shown hs (hlast.trans hsize.symm)
    · exact absurd hack hn
  | failed f => exact hother nofun
  | cancelled => exact hother nofun

/-- A session is idle after steps in which no end of a countdown was interrupted, then a client asks for a flush, and
there is no start, stop or edit until the flush is acknowledged. Unless the pipeline has had 2^64 runs, that of the
newest content has ended. When it has completed, its output is the last text shown; otherwise all that was written
comes from earlier runs. -/
theorem newest_content_is_shown {delay p client : Nat} {acts rest : List Action} {s s' : Session}
    (h : Steps.run step { delay } acts = some s) (hw : ∀ a ∈ acts, a.isWhole = true)
    (hp : s.active = some p) (hi : s.activity = .idle)
    (h' : Steps.run step s (.engine (.flush client) :: rest) = some s')
    (hw' : ∀ a ∈ rest, a.isWhole = true ∧ a.isCall = false) (hc : client ∈ s'.engine.display.acknowledged) :
    ∃ w k, s.engine.workers[w]? = some k ∧ w + 1 = s.engine.workers.size ∧ k.scheduler = p ∧
      newestContent acts = some k.text ∧
      (UInt64.size ≤ s.engine.runs p ∨
        ∃ o, Action.engine (.finish w o) ∈ acts ∧ s'.engine.display.Settled k.token o) := by
  have hcont := Contained.of_run h hw
  have hacts := Steps.history_map_snd h
  obtain ⟨hstill, w, k, hk, hlast, hkp, hact, hnew, hdone⟩ := hcont.newest_run hp hi
  refine ⟨w, k, hk, hlast, hkp, hacts ▸ hnew, ?_⟩
  refine hdone.elim (fun hdone => Or.inr ?_) Or.inl
  have hreg := hcont.life.regular
  obtain ⟨o, ho⟩ : ∃ o, Ended (Steps.history step { delay } acts) w o := by
    have := hreg.accounted.fits hk
    rwa [hdone] at this
  refine ⟨o, hacts ▸ ho, ?_⟩
  obtain ⟨u, hu, hrest⟩ := Steps.run_cons_eq_some.mp h'
  -- the flush queues behind the result, if there is one
  have hquiet := Quiet.next ⟨hcont.life, Engine.Calm.refl _, hp, hstill⟩ ⟨rfl, rfl⟩ hu
  have hahead : ∀ {text stderr : String} {code : Option Int}, o = .completed text stderr code →
      u.engine.display.Ahead (k.token, text) client := by
    rintro text stderr code rfl
    have hres := hreg.accounted.delivered hk (by rw [hdone]; rfl) ho hact
    obtain ⟨-, e, he, rfl⟩ : _ ∧ ∃ e, s.engine.step (.flush client) = some e ∧ u = { s with engine := e } :=
      engineStep_some hu
    obtain ⟨hna, hnq, rfl⟩ := Engine.flush_some he
    rw [hreg.displaying.serving.send]
    exact Display.Ahead.start hres hna hnq
  obtain ⟨hend, hsub, hstays⟩ := Steps.run_induction_of
    (P := fun past t => Quiet s.engine p past t ∧ (∀ v q, Ended (Steps.history step { delay } acts) v q → Ended past v q) ∧
      ∀ {text stderr : String} {code : Option Int}, o = .completed text stderr code →
        t.engine.display.Ahead (k.token, text) client)
    (fun hq ha hs => ⟨hq.1.next ha hs, fun v q hv => ended_append.mpr (Or.inl (hq.2.1 v q hv)),
      fun ht => hq.1.ahead_next hs hact (hq.2.2 ht)⟩)
    ⟨hquiet, fun v q hv => ended_append.mpr (Or.inl hv), hahead⟩ hw' hrest
  obtain rfl := hreg.sound.id hk
  exact hend.settled hlast (hsub _ o ho) hstays hc

/-- An edit overtakes the first run, and the second one is dealt with. -/
def edited : List Action :=
  [.beginStart "one", .openPipeline, .edit 0 "two", .fire 0, .engine (.finish 1 (.completed "2" "" none)),
    .engine (.check 1), .engine (.send 1), .engine (.clear 1)]

/-- The first run ends late, before the flush is acknowledged. -/
def latecomer : List Action :=
  [.engine (.finish 0 (.completed "1" "" none)), .engine .take, .engine (.check 0), .engine (.clear 0), .engine .put,
    .engine .take]

theorem newest_content_is_shown_despite_latecomer :
    ∃ s s', Steps.run step { delay := 5 } edited = some s ∧ s.active = some 0 ∧ s.activity = .idle ∧
      Steps.run step s (.engine (.flush 7) :: latecomer) = some s' ∧ 7 ∈ s'.engine.display.acknowledged ∧
      s'.engine.display.shown.map Prod.snd = ["2"] ∧
      ∃ w k, s.engine.workers[w]? = some k ∧ w + 1 = s.engine.workers.size ∧ k.scheduler = 0 ∧
        newestContent edited = some k.text ∧
        (UInt64.size ≤ s.engine.runs 0 ∨
          ∃ o, Action.engine (.finish w o) ∈ edited ∧ s'.engine.display.Settled k.token o) := by
  refine ⟨_, _, rfl, rfl, rfl, rfl, by decide, rfl, ?_⟩
  exact @newest_content_is_shown 5 0 7 edited latecomer _ _ rfl (by decide) rfl rfl rfl (by decide) (by decide)

end Session

end Retrace.Live
