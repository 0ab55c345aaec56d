import Retrace.Proofs.Live.Lifecycle

/-!
# The newest content

While the countdowns of a session end in one step each, the newest text that the session was given is the one that
waits for the end of its quiet period, or else the text of the newest run of the session's pipeline.
-/

namespace Retrace.Live

namespace Debounce

variable {α : Type}

/-- No countdown has got away from the quiet period. -/
structure Whole (d : Debounce α) : Prop where
  expired : d.expired = []
  number : ∀ {c : Countdown}, d.countdown = some c → c.number = d.number
  pending : d.pending.isSome = d.countdown.isSome

theorem Whole.new (delay : Nat) : ({ delay } : Debounce α).Whole := ⟨rfl, nofun, rfl⟩

theorem Whole.notify {d : Debounce α} (h : d.Whole) (now : Nat) (value : α) : (d.notify now value).Whole := by
  refine ⟨h.expired, fun hc => ?_, rfl⟩
  obtain rfl := Option.some.inj hc
  rfl

theorem Whole.cancel {d : Debounce α} (h : d.Whole) : d.cancel.Whole := ⟨h.expired, nofun, rfl⟩

theorem Whole.fire_eq {d : Debounce α} (h : d.Whole) :
    d.fire = (d.pending, { d with pending := none, countdown := none }) := by
  have hp := h.pending
  obtain ⟨delay, number, pending, countdown, expired⟩ := d
  cases countdown with
  | none =>
    obtain rfl : pending = none := by simpa using hp
    rfl
  | some c =>
    obtain rfl : expired = [] := h.expired
    have hn : c.number = number := h.number rfl
    simp [fire, Debounce.expire, Debounce.take, hn]

theorem Whole.fire {d : Debounce α} (h : d.Whole) : d.fire.2.Whole := by
  rw [h.fire_eq]
  exact ⟨h.expired, nofun, rfl⟩

end Debounce

namespace Engine

/-- The text of the newest run of a scheduler. -/
def newestText (e : Engine) (p : Nat) : Option String :=
  (e.schedulers[p]?).bind fun c => c.current.bind fun t => (e.workers[t.id]?).map Worker.text

theorem newestText_calm {e e' : Engine} (c : Calm e e') (p : Nat) : e'.newestText p = e.newestText p := by
  have hcur : (e'.schedulers[p]?).bind (·.current) = (e.schedulers[p]?).bind (·.current) := by
    have := congrArg (fun fs => (fs[p]?).bind fun f => f.2.1) c.schedulers
    simpa [Scheduler.front, Option.bind_map, Function.comp_def] using this
  have htext : ∀ w : Nat, (e'.workers[w]?).map Worker.text = (e.workers[w]?).map Worker.text := by
    intro w
    have := congrArg (fun os => (os[w]?).map fun o => o.2.2) c.workers
    simpa [Worker.origin, Function.comp_def] using this
  simp only [newestText, htext, ← Option.bind_assoc, hcur]

theorem newestText_schedule {e e' : Engine} (hs : e.Sound) {p : Nat} {text : String}
    (h : e.step (.schedule p text) = some e') : e'.newestText p = some text := by
  obtain ⟨c, hc, -, rfl⟩ := schedule_some h
  have hp : (e.started p c text).schedulers[p]? = some _ :=
    Array.getElem?_setIfInBounds_self_of_lt (getElem?_lt hc)
  rw [newestText, hp]
  simp [started, hs.tokens]

theorem Sound.last_of_newestText {e : Engine} (h : e.Sound) {p : Nat} {text : String}
    (ht : e.newestText p = some text) : ∃ w k, e.workers[w]? = some k ∧ w + 1 = e.workers.size ∧ k.scheduler = p ∧
      k.text = text ∧ e.registry.isCancelled k.token = false := by
  obtain ⟨c, hc, ht⟩ := Option.bind_eq_some_iff.mp ht
  obtain ⟨t, hcur, ht⟩ := Option.bind_eq_some_iff.mp ht
  obtain ⟨-, hlast, hact, k, hk, hkt, hkp⟩ := h.newest hc hcur
  simp only [hk, Option.map_some, Option.some.injEq] at ht
  exact ⟨t.id, k, hk, hlast, hkp, ht, by rw [hkt]; exact hact⟩

end Engine

/-- The text that a call under way will start with. -/
def Change.restart : Change → Option String
  | .none => Option.none
  | .cancelling _ restart => restart
  | .closing _ restart => restart
  | .opening text => some text

namespace Session

/-- The end of a countdown is never interrupted. -/
def Action.isWhole : Action → Bool
  | .expire .. | .takeText .. | .handOn .. => false
  | _ => true

/-- The text that a call brings. -/
def Action.content : Action → Option String
  | .beginStart text => some text
  | .edit _ text => some text
  | _ => none

/-- The text that the last start or edit has brought. -/
def newestContent (acts : List Action) : Option String := (acts.filterMap Action.content).getLast?

theorem newestContent_append (acts : List Action) (a : Action) :
    newestContent (acts ++ [a]) = a.content.or (newestContent acts) :=
  getLast?_filterMap_concat Action.content acts a

/-- The session has a pipeline or is about to get one. -/
def engaged (s : Session) : Bool := s.active.isSome || s.change.restart.isSome

/-- The text that the session will show when nothing comes in between. -/
def held (s : Session) : Option String :=
  s.change.restart.or <| s.active.bind fun p => (s.pipelines[p]?).bind fun l =>
    l.debounce.pending.or (s.engine.newestText p)

/-- The quiet periods of all pipelines are whole. -/
structure Whole (s : Session) : Prop where
  debounce : ∀ {p : Nat} {l : Pipeline}, s.pipelines[p]? = some l → l.debounce.Whole

section
variable {past : List (Session × Action)} {s s' : Session}

theorem Whole.modify (h : s.Whole) (p : Nat) {f : Debounce String → Debounce String}
    (hf : ∀ {d : Debounce String}, d.Whole → (f d).Whole) :
    (s.modifyPipeline p fun l => { l with debounce := f l.debounce }).Whole := by
  constructor
  intro q l hl
  simp only [modifyPipeline, Array.getElem?_modify] at hl
  split at hl
  · obtain ⟨m, hm, rfl⟩ := Option.map_eq_some_iff.mp hl
    exact hf (h.debounce hm)
  · exact h.debounce hl

theorem Whole.step (h : s.Whole) {a : Action} (ha : a.isWhole = true) (hs : s.step a = some s') : s'.Whole := by
  cases a with
  | expire | takeText | handOn => cases ha
  | beginStart text => obtain ⟨-, ⟨p, -, rfl⟩ | ⟨-, rfl⟩⟩ := beginStart_some hs <;> exact ⟨h.debounce⟩
  | beginStop => obtain ⟨-, ⟨p, -, rfl⟩ | ⟨-, rfl⟩⟩ := beginStop_some hs <;> exact ⟨h.debounce⟩
  | cancelCountdown =>
    obtain ⟨p, r, -, rfl⟩ := cancelCountdown_some hs
    exact ⟨(h.modify p Debounce.Whole.cancel).debounce⟩
  | closeScheduler => obtain ⟨p, r, e, -, -, rfl⟩ := closeScheduler_some hs; exact ⟨h.debounce⟩
  | openPipeline =>
    obtain ⟨text, -, rfl⟩ := openPipeline_some hs
    constructor
    intro p l hl
    rcases getElem?_push_cases hl with hl | ⟨-, rfl⟩
    · exact h.debounce hl
    · exact Debounce.Whole.new s.delay
  | edit now text =>
    obtain ⟨-, ⟨p, -, rfl⟩ | ⟨-, rfl⟩⟩ := edit_some hs
    · exact h.modify p fun hd => hd.notify now text
    · exact h
  | fire p =>
    obtain rfl : s.fire p = s' := Option.some.inj hs
    cases hl : s.pipelines[p]? with
    | none => rw [fire_of_none hl]; exact h
    | some l =>
      rw [fire_of_pipeline hl]
      constructor
      intro q m hm
      rcases getElem?_setIfInBounds_cases hm with ⟨-, rfl⟩ | ⟨-, hm⟩
      · exact (h.debounce hl).fire
      · exact h.debounce hm
  | engine b => obtain ⟨-, e, -, rfl⟩ := engineStep_some hs; exact ⟨h.debounce⟩

/-- The end of a countdown hands on the newest content, or nothing, or comes too late. -/
theorem held_fire (hl : Lifecycle past s) (hw : s.Whole) (q : Nat) : (s.fire q).held = s.held := by
  cases hq : s.pipelines[q]? with
  | none => rw [fire_of_none hq]
  | some l =>
    rw [fire_of_pipeline hq, (hw.debounce hq).fire_eq]
    cases hp : s.active with
    | none => simp [held, hp]
    | some p =>
      obtain ⟨hc, hu⟩ := hl.unstopped_of_active hp
      by_cases hpq : p = q
      · subst hpq
        have hself := fun m : Pipeline => Array.getElem?_setIfInBounds_self_of_lt (a := m) (getElem?_lt hq)
        cases hx : l.debounce.pending with
        | none => simp [held, hp, hq, hself, hx, Engine.handed]
        | some x =>
          obtain ⟨e, he⟩ : ∃ e, s.engine.schedule p x = some e :=
            Option.isSome_iff_exists.mp (Engine.schedule_isSome_iff.mpr (hl.door.mpr hu))
          have hn := Engine.newestText_schedule hl.regular.sound he
          simp [held, hp, hq, hself, hx, Engine.handed, he, hn]
      · rw [Engine.handed_of_door (hl.door_of_other hp (Ne.symm hpq))]
        simp [held, hp, Array.getElem?_setIfInBounds, Ne.symm hpq]

/-- A text that a call brings takes the place of the one that the session holds. -/
theorem held_step {a : Action} (hl : Lifecycle past s) (hw : s.Whole) (ha : a.isWhole = true)
    (hs : s.step a = some s') (he : s'.engaged = true) :
    s'.held = a.content.or s.held ∧ (a.content.isSome = true ∨ s.engaged = true) := by
  cases a with
  | expire | takeText | handOn => cases ha
  | beginStart text =>
    obtain ⟨-, ⟨p, -, rfl⟩ | ⟨-, rfl⟩⟩ := beginStart_some hs <;> exact ⟨rfl, Or.inl rfl⟩
  | beginStop =>
    obtain ⟨-, ⟨p, -, rfl⟩ | ⟨-, rfl⟩⟩ := beginStop_some hs
    · cases he
    · exact ⟨rfl, Or.inr he⟩
  | cancelCountdown =>
    obtain ⟨p, r, hc, rfl⟩ := cancelCountdown_some hs
    have hn : s.active = none := hl.inactive (by simp [hc])
    refine ⟨?_, Or.inr ?_⟩
    · simp [held, modifyPipeline, Action.content, hn, hc, Change.restart]
    · simpa [engaged, modifyPipeline, hn, hc, Change.restart] using he
  | closeScheduler =>
    obtain ⟨p, r, e, hc, -, rfl⟩ := closeScheduler_some hs
    have hn : s.active = none := hl.inactive (by simp [hc])
    cases r with
    | none => simp [engaged, hn, afterStop, Change.restart] at he
    | some text => simp [held, engaged, Action.content, hn, hc, afterStop, Change.restart]
  | openPipeline =>
    obtain ⟨text, hc, rfl⟩ := openPipeline_some hs
    have hu : s.unstopped = none := by simp [unstopped, hc]
    have hnew := Engine.newestText_schedule (hl.regular.sound.addScheduler (hl.all_shutDown hu)) (s.opened_engine text)
    have hlast : (s.opened text).pipelines[s.engine.schedulers.size]? = some { debounce := { delay := s.delay } } := by
      rw [← hl.sized]
      exact Array.getElem?_push_size
    have hact : (s.opened text).active = some s.engine.schedulers.size := rfl
    have hnone : (s.opened text).change = .none := rfl
    exact ⟨by simp [held, hc, hlast, hact, hnone, hnew, Change.restart, Action.content],
      Or.inr (by simp [engaged, hc, Change.restart])⟩
  | edit now text =>
    obtain ⟨hc, ⟨p, hp, rfl⟩ | ⟨hp, rfl⟩⟩ := edit_some hs
    · obtain ⟨l, hl⟩ := hl.pipeline_of_active hp
      refine ⟨?_, Or.inl rfl⟩
      simp [held, modifyPipeline, hc, hp, Change.restart, Action.content, Array.getElem?_modify, hl, Debounce.notify]
    · simp [engaged, hc, hp, Change.restart] at he
  | fire q =>
    obtain rfl : s.fire q = s' := Option.some.inj hs
    refine ⟨by simpa [Action.content] using held_fire hl hw q, Or.inr ?_⟩
    cases hq : s.pipelines[q]? with
    | none => rwa [fire_of_none hq] at he
    | some l => rwa [fire_of_pipeline hq] at he
  | engine b =>
    obtain ⟨hb, e, hstep, rfl⟩ := engineStep_some hs
    refine ⟨?_, Or.inr he⟩
    simp [held, Action.content, Engine.newestText_calm (Engine.step_calm hb hstep)]

/-- A session that is engaged holds the newest content. -/
structure Contained (past : List (Session × Action)) (s : Session) : Prop where
  life : Lifecycle past s
  whole : s.Whole
  newest : s.engaged = true → ∃ text, s.held = some text ∧ newestContent (past.map Prod.snd) = some text

theorem Contained.next {a : Action} (h : Contained past s) (ha : a.isWhole = true) (hs : s.step a = some s') :
    Contained (past ++ [(s, a)]) s' where
  life := h.life.next hs
  whole := h.whole.step ha hs
  newest he := by
    obtain ⟨hh, hor⟩ := held_step h.life h.whole ha hs he
    rw [List.map_append, List.map_singleton, newestContent_append, hh]
    cases hc : a.content with
    | some text => exact ⟨text, rfl, rfl⟩
    | none =>
      obtain ⟨text, ht, hn⟩ := h.newest (by simpa [hc] using hor)
      exact ⟨text, by simpa using ht, by simpa using hn⟩

theorem Contained.of_run {delay : Nat} {acts : List Action} (h : Steps.run step { delay } acts = some s)
    (ha : ∀ a ∈ acts, a.isWhole = true) : Contained (Steps.history step { delay } acts) s :=
  Steps.run_induction_of (P := Contained) Contained.next
    ⟨Lifecycle.start delay, ⟨fun h => by simp at h⟩, fun h => by cases h⟩ ha h

end

end Session

end Retrace.Live
