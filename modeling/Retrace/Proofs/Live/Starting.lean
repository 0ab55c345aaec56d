import Retrace.Launch.Invocation
import Retrace.Proofs.Live.Barrier
import Retrace.Proofs.Live.Content

/-!
# When a session is active

A start may find no command line, and then it changes nothing. So a session is active when the last start that had
one came after the last stop; a start without one does not turn an active session off. A session that is not active
lets nothing happen until it is started.
-/

namespace Retrace.Live

namespace Debounce

variable {α : Type} {d : Debounce α}

/-- No edit waits and no countdown runs. -/
structure Hushed (d : Debounce α) : Prop where
  pending : d.pending = none
  countdown : d.countdown = none

theorem Hushed.cancel : d.cancel.Hushed := ⟨rfl, rfl⟩

theorem Hushed.expire (h : d.Hushed) : d.expire.Hushed := by
  simp only [Debounce.expire, h.countdown]
  exact h

theorem Hushed.take (h : d.Hushed) (number : UInt64) : (d.take number).2.Hushed := by
  unfold Debounce.take
  split
  · exact ⟨rfl, h.countdown⟩
  · exact ⟨h.pending, h.countdown⟩

theorem Hushed.fire (h : d.Hushed) : d.fire = (none, d) := by
  simp only [Debounce.fire, h.countdown]

theorem fire_notify (d : Debounce α) (now : Nat) (value : α) : (d.notify now value).fire.1 = some value := by
  simp [Debounce.fire, Debounce.notify, Debounce.expire, Debounce.take]

end Debounce

namespace Session

/-! ## Calls -/

/-- A start that first asks for a command line, or a step. -/
inductive Event (ε α : Type) where
  | start (launch : Except ε α) (text : String)
  | own (a : Action)

variable {ε α : Type}

/-- The session after an event. A start with a command line begins to start; one without changes nothing. -/
def happen (s : Session) : Event ε α → Option Session
  | .start (.ok _) text => s.beginStart text
  | .start (.error e) text => some (s.startWith (.error e : Except ε α) text).2
  | .own a => s.step a

/-- What a step turns the session to: on for a start, off for a stop. -/
def Action.effect : Action → Option Bool
  | .beginStart _ => some true
  | .beginStop => some false
  | _ => none

namespace Event

/-- The step that an event is. -/
def action? : Event ε α → Option Action
  | .start (.ok _) text => some (.beginStart text)
  | .start (.error _) _ => none
  | .own a => some a

/-- What an event turns the session to. -/
def effect (ev : Event ε α) : Option Bool := ev.action?.bind Action.effect

/-- A start that had no command line. -/
def isRefused : Event ε α → Bool
  | .start (.error _) _ => true
  | _ => false

/-- What a start returns, and false for a stop. -/
def answer (ev : Event ε α) : Option Bool := if ev.isRefused then some false else ev.effect

theorem effect_of_isRefused {ev : Event ε α} (h : ev.isRefused = true) : ev.effect = none := by
  cases ev with
  | start launch text => cases launch with
    | ok l => cases h
    | error e => rfl
  | own a => cases h

end Event

variable {past : List (Session × Action)} {s s' : Session}

theorem happen_cases {ev : Event ε α} (h : s.happen ev = some s') :
    (ev.action? = none ∧ s' = s) ∨ ∃ a, ev.action? = some a ∧ s.step a = some s' := by
  cases ev with
  | start launch text =>
    cases launch with
    | ok l => exact Or.inr ⟨_, rfl, h⟩
    | error e => exact Or.inl ⟨rfl, (Option.some.inj h).symm⟩
  | own a => exact Or.inr ⟨a, rfl, h⟩

/-- Starts without a command line apart, a run of events is a run of steps. -/
theorem run_happen : ∀ {events : List (Event ε α)} {s : Session}, Steps.run happen s events = some s' →
    Steps.run step s (events.filterMap Event.action?) = some s'
  | [], _, h => h
  | ev :: events, s, h => by
    obtain ⟨u, hu, hrest⟩ := Steps.run_cons_eq_some.mp h
    rcases happen_cases hu with ⟨ha, rfl⟩ | ⟨a, ha, hs⟩
    · rw [List.filterMap_cons_none ha]
      exact run_happen hrest
    · rw [List.filterMap_cons_some ha]
      exact Steps.run_cons_eq_some.mpr ⟨u, hs, run_happen hrest⟩

/-! ## On and off -/

/-- A start turns a session on and a stop turns it off; no other step does either. -/
theorem engaged_step {a : Action} (hs : s.step a = some s') :
    s'.engaged = a.effect.getD s.engaged := by
  cases a with
  | beginStart text =>
    obtain ⟨-, ⟨p, -, rfl⟩ | ⟨-, rfl⟩⟩ := beginStart_some hs <;> simp [engaged, Change.restart, Action.effect]
  | beginStop =>
    obtain ⟨hc, ⟨p, -, rfl⟩ | ⟨ha, rfl⟩⟩ := beginStop_some hs
    · rfl
    · simp [engaged, hc, ha, Change.restart, Action.effect]
  | cancelCountdown =>
    obtain ⟨p, r, hc, rfl⟩ := cancelCountdown_some hs
    simp [engaged, modifyPipeline, hc, Change.restart, Action.effect]
  | closeScheduler =>
    obtain ⟨p, r, e, hc, -, rfl⟩ := closeScheduler_some hs
    cases r <;> simp [engaged, hc, afterStop, Change.restart, Action.effect]
  | openPipeline =>
    obtain ⟨text, hc, rfl⟩ := openPipeline_some hs
    simp [engaged, opened, hc, Change.restart, Action.effect]
  | edit now text => obtain ⟨-, ⟨p, -, rfl⟩ | ⟨-, rfl⟩⟩ := edit_some hs <;> rfl
  | expire now p => obtain rfl := expire_some hs; rfl
  | takeText p number => obtain ⟨l, -, -, rfl⟩ := takeText_some hs; rfl
  | handOn p i => obtain ⟨l, text, -, -, rfl⟩ := handOn_some hs; rfl
  | fire p =>
    obtain rfl : s.fire p = s' := Option.some.inj hs
    cases hl : s.pipelines[p]? with
    | none => rw [fire_of_none hl]; rfl
    | some l => rw [fire_of_pipeline hl]; rfl
  | engine b => obtain ⟨-, e, -, rfl⟩ := engineStep_some hs; rfl

theorem engaged_happen {ev : Event ε α} (hs : s.happen ev = some s') : s'.engaged = ev.effect.getD s.engaged := by
  rcases happen_cases hs with ⟨ha, rfl⟩ | ⟨a, ha, hs⟩
  · rw [Event.effect, ha, Option.bind_none, Option.getD_none]
  · rw [Event.effect, ha, Option.bind_some, engaged_step hs]

/-- The last start or stop says whether a session is on. A start without a command line does not count; if such starts
are only made while the session is off, it does not matter whether they count. -/
structure Told (past : List (Session × Event ε α)) (s : Session) : Prop where
  effect : s.engaged = ((past.map Prod.snd).filterMap Event.effect).getLast?.getD false
  answer : (∀ r ∈ past, r.2.isRefused = true → r.1.engaged = false) →
    s.engaged = ((past.map Prod.snd).filterMap Event.answer).getLast?.getD false

theorem Told.start (delay : Nat) : Told ([] : List (Session × Event ε α)) { delay } := ⟨rfl, fun _ => rfl⟩

theorem Told.next {past : List (Session × Event ε α)} {ev : Event ε α} (h : Told past s) (hs : s.happen ev = some s') :
    Told (past ++ [(s, ev)]) s' where
  effect := by
    rw [engaged_happen hs, h.effect, List.map_append, List.map_singleton, getLast?_filterMap_concat, Option.getD_or]
  answer hoff := by
    have hlast := h.answer fun r hr => hoff r (List.mem_append_left _ hr)
    rw [engaged_happen hs, List.map_append, List.map_singleton, getLast?_filterMap_concat, Option.getD_or, ← hlast,
      Event.answer]
    split
    · rename_i hr
      rw [Event.effect_of_isRefused hr, Option.getD_none, Option.getD_some]
      exact hoff (s, ev) (by simp) hr
    · rfl

theorem Told.of_run {delay : Nat} {events : List (Event ε α)} (h : Steps.run happen { delay } events = some s) :
    Told (Steps.history happen { delay } events) s :=
  Steps.run_induction (P := Told) Told.next (Told.start delay) h

/-! ## Pipelines that nobody listens to -/

/-- The pipeline whose edits may still come to something. -/
def listening (s : Session) : Option Nat :=
  match s.change with
  | .none => s.active
  | .cancelling p _ => some p
  | _ => none

/-- No edit waits and no countdown runs in any other pipeline. -/
structure Hushed (s : Session) : Prop where
  debounce : ∀ {p : Nat} {l : Pipeline}, s.pipelines[p]? = some l → s.listening ≠ some p → l.debounce.Hushed

/-- The pipeline with the number `q` has changed, in a way that keeps it silent if it was. -/
theorem Hushed.set (h : s.Hushed) {q : Nat} {l m : Pipeline} (hq : s.pipelines[q]? = some l)
    (hp : s'.pipelines = s.pipelines.setIfInBounds q m) (hl : s'.listening = s.listening)
    (hm : l.debounce.Hushed → m.debounce.Hushed) : s'.Hushed := by
  constructor
  intro p l' hp' hn
  rw [hl] at hn
  rw [hp] at hp'
  rcases getElem?_setIfInBounds_cases hp' with ⟨rfl, rfl⟩ | ⟨-, hp'⟩
  · exact hm (h.debounce hq hn)
  · exact h.debounce hp' hn

theorem Hushed.step {a : Action} (h : s.Hushed) (hs : s.step a = some s') : s'.Hushed := by
  cases a with
  | beginStart text =>
    obtain ⟨hc, ⟨p, ha, rfl⟩ | ⟨ha, rfl⟩⟩ := beginStart_some hs
    · exact ⟨fun hp hn => h.debounce hp (by simpa [listening, hc, ha] using hn)⟩
    · exact ⟨fun hp _ => h.debounce hp (by simp [listening, hc, ha])⟩
  | beginStop =>
    obtain ⟨hc, ⟨p, ha, rfl⟩ | ⟨ha, rfl⟩⟩ := beginStop_some hs
    · exact ⟨fun hp hn => h.debounce hp (by simpa [listening, hc, ha] using hn)⟩
    · exact h
  | cancelCountdown =>
    obtain ⟨p, r, hc, rfl⟩ := cancelCountdown_some hs
    constructor
    intro q l hq _
    simp only [modifyPipeline, Array.getElem?_modify] at hq
    split at hq
    · obtain ⟨m, -, rfl⟩ := Option.map_eq_some_iff.mp hq
      exact .cancel
    · rename_i hne
      exact h.debounce hq (by simpa [listening, hc] using hne)
  | closeScheduler =>
    obtain ⟨p, r, e, hc, -, rfl⟩ := closeScheduler_some hs
    exact ⟨fun hq _ => h.debounce hq (by simp [listening, hc])⟩
  | openPipeline =>
    obtain ⟨text, hc, rfl⟩ := openPipeline_some hs
    constructor
    intro q l hq _
    rcases getElem?_push_cases hq with hq | ⟨-, rfl⟩
    · exact h.debounce hq (by simp [listening, hc])
    · exact ⟨rfl, rfl⟩
  | edit now text =>
    obtain ⟨hc, ⟨p, ha, rfl⟩ | ⟨-, rfl⟩⟩ := edit_some hs
    · constructor
      intro q l hq hn
      have hne : p ≠ q := by simpa [listening, modifyPipeline, hc, ha] using hn
      simp only [modifyPipeline, Array.getElem?_modify, if_neg hne] at hq
      exact h.debounce hq hn
    · exact h
  | expire now p =>
    obtain rfl := expire_some hs
    constructor
    intro q l hq hn
    simp only [modifyPipeline, Array.getElem?_modify] at hq
    split at hq
    · obtain ⟨m, hm, rfl⟩ := Option.map_eq_some_iff.mp hq
      exact (h.debounce hm hn).expire
    · exact h.debounce hq hn
  | takeText p number =>
    obtain ⟨l, hp, -, rfl⟩ := takeText_some hs
    exact h.set hp rfl rfl fun hh => hh.take number
  | handOn p i =>
    obtain ⟨l, text, hp, -, rfl⟩ := handOn_some hs
    exact h.set hp rfl rfl id
  | fire p =>
    obtain rfl : s.fire p = s' := Option.some.inj hs
    cases hp : s.pipelines[p]? with
    | none => rw [fire_of_none hp]; exact h
    | some l =>
      rw [fire_of_pipeline hp]
      refine h.set hp rfl rfl fun hh => ?_
      rw [hh.fire]
      exact hh
  | engine b => obtain ⟨-, e, -, rfl⟩ := engineStep_some hs; exact ⟨h.debounce⟩

theorem hushed_of_run {delay : Nat} {acts : List Action} (h : Steps.run step { delay } acts = some s) : s.Hushed :=
  @Steps.run_induction _ _ step (fun _ => Hushed) (fun hh hs => hh.step hs) acts [] _ _ ⟨fun hp => by simp at hp⟩ h

/-! ## Sessions that are off -/

theorem not_showing_of_stopped (hl : Lifecycle past s) (hu : s.unstopped = none) {t : Token} {text : String} :
    s.engine.display.shower ≠ .showing t text := by
  intro hs
  have hlt := hl.regular.displaying.id_lt_of_showing hs
  have hk := Array.getElem?_eq_getElem hlt
  have hi := hl.regular.sound.owned hk
  have hd : s.engine.doors[s.engine.workers[t.id].scheduler]? = some true := by
    simp [Engine.doors, hi, hl.all_shutDown hu (Array.getElem?_eq_getElem hi)]
  exact hl.regular.not_showing hd hs (by simp [Engine.pipelineOf, hk])

/-- A session that is off, with the runs that it has started and the texts that have been shown. -/
structure Off (runs : Array (Nat × Token × String)) (shown : List (Token × String)) (s : Session) : Prop where
  change : s.change = .none
  active : s.active = none
  hushed : s.Hushed
  runs : s.engine.workers.map Worker.origin = runs
  shown : s.engine.display.shown = shown

namespace Off

variable {runs : Array (Nat × Token × String)} {shown : List (Token × String)}

theorem unstopped (h : Off runs shown s) : s.unstopped = none := by
  simp [Session.unstopped, h.change, h.active]

/-- The schedulers of a session that is off take no texts. -/
theorem handed (h : Off runs shown s) (hl : Lifecycle past s) (p : Nat) (text : Option String) :
    s.engine.handed p text = s.engine := by
  refine Engine.handed_of_door (fun hd => ?_) text
  have := hl.door.mp hd
  rw [h.unstopped] at this
  cases this

theorem engine (h : Off runs shown s) (hl : Lifecycle past s) {b : Engine.Action} {e : Engine}
    (hb : b.isCalm = true) (he : s.engine.step b = some e) :
    e.workers.map Worker.origin = runs ∧ e.display.shown = shown := by
  refine ⟨(Engine.step_calm hb he).workers.trans h.runs, ?_⟩
  rcases Engine.shown_step hl.regular.displaying he with hs | ⟨t, text, hs, -⟩
  · exact hs.trans h.shown
  · exact absurd hs (not_showing_of_stopped hl h.unstopped)

theorem next {a : Action} (h : Off runs shown s) (hl : Lifecycle past s) (ha : a.effect ≠ some true)
    (hs : s.step a = some s') : Off runs shown s' := by
  have hhushed := h.hushed.step hs
  have hc := h.change
  cases a with
  | beginStart text => exact absurd rfl ha
  | beginStop =>
    obtain ⟨-, ⟨p, hp, -⟩ | ⟨-, rfl⟩⟩ := beginStop_some hs
    · cases h.active.symm.trans hp
    · exact h
  | cancelCountdown =>
    obtain ⟨p, r, hc', -⟩ := cancelCountdown_some hs
    cases hc.symm.trans hc'
  | closeScheduler =>
    obtain ⟨p, r, e, hc', -⟩ := closeScheduler_some hs
    cases hc.symm.trans hc'
  | openPipeline =>
    obtain ⟨text, hc', -⟩ := openPipeline_some hs
    cases hc.symm.trans hc'
  | edit now text =>
    obtain ⟨-, ⟨p, hp, -⟩ | ⟨-, rfl⟩⟩ := edit_some hs
    · cases h.active.symm.trans hp
    · exact h
  | expire now p => obtain rfl := expire_some hs; exact ⟨hc, h.active, hhushed, h.runs, h.shown⟩
  | takeText p number => obtain ⟨l, -, -, rfl⟩ := takeText_some hs; exact ⟨hc, h.active, hhushed, h.runs, h.shown⟩
  | handOn p i =>
    obtain ⟨l, text, -, -, rfl⟩ := handOn_some hs
    simp only [h.handed hl] at hhushed ⊢
    exact ⟨hc, h.active, hhushed, h.runs, h.shown⟩
  | fire p =>
    obtain rfl : s.fire p = s' := Option.some.inj hs
    cases hp : s.pipelines[p]? with
    | none => rw [fire_of_none hp]; exact h
    | some l =>
      rw [fire_of_pipeline hp, h.handed hl] at hhushed ⊢
      exact ⟨hc, h.active, hhushed, h.runs, h.shown⟩
  | engine b =>
    obtain ⟨hb, e, he, rfl⟩ := engineStep_some hs
    obtain ⟨hr, hsh⟩ := h.engine hl hb he
    exact ⟨hc, h.active, hhushed, hr, hsh⟩

theorem of_run {acts : List Action} (hl : Lifecycle past s) (h : Off runs shown s)
    (hacts : ∀ a ∈ acts, a.effect ≠ some true) (hs : Steps.run step s acts = some s') :
    Lifecycle (past ++ Steps.history step s acts) s' ∧ Off runs shown s' :=
  Steps.run_induction_of (P := fun past s => Lifecycle past s ∧ Off runs shown s)
    (fun h ha hs => ⟨h.1.next hs, h.2.next h.1 ha hs⟩) ⟨hl, h⟩ hacts hs

end Off

theorem activity_of_pending {p : Nat} {l : Pipeline} (hp : s.active = some p) (hl : s.pipelines[p]? = some l)
    (hd : l.debounce.isPending = true) : s.activity = .pending := by
  simp [activity, hp, hl, hd]

/-- An edit of a session that is on waits for the end of its quiet period, which starts a run of it. -/
theorem edit_accepted (hl : Lifecycle past s) {p : Nat} (hp : s.active = some p) (now : Nat) (text : String) :
    ∃ s₁ s₂, s.step (.edit now text) = some s₁ ∧ s₁.activity = .pending ∧ s₁.step (.fire p) = some s₂ ∧
      s₂.engine.workers.toList.map (·.text) = s.engine.workers.toList.map (·.text) ++ [text] := by
  obtain ⟨hc, hu⟩ := hl.unstopped_of_active hp
  obtain ⟨l, hpl⟩ := hl.pipeline_of_active hp
  obtain ⟨e, he⟩ : ∃ e, s.engine.schedule p text = some e :=
    Option.isSome_iff_exists.mp (Engine.schedule_isSome_iff.mpr (hl.door.mpr hu))
  have hedit : s.step (.edit now text) =
      some (s.modifyPipeline p fun l => { l with debounce := l.debounce.notify now text }) := by
    simp [step, edit, hc, hp]
  have hpl' : (s.modifyPipeline p fun l => { l with debounce := l.debounce.notify now text }).pipelines[p]? =
      some { l with debounce := l.debounce.notify now text } := by
    simp [modifyPipeline, Array.getElem?_modify, hpl]
  refine ⟨_, _, hedit, ?_, rfl, ?_⟩
  · exact activity_of_pending hp hpl' rfl
  · obtain ⟨c, -, -, rfl⟩ := Engine.schedule_some he
    rw [fire_of_pipeline hpl', Debounce.fire_notify]
    simp [Engine.handed, modifyPipeline, he, Engine.started]

/-- A session is on or off as the last start or stop says, where starts without a command line change nothing. So when
starts without one are only made while it is off, it is on if and only if the last call among starts and stops was a
start that returned true. A session that is on accepts edits; one that is off is idle, and whatever happens until the
next start, it has no countdown, starts no run and shows nothing. -/
theorem active_iff_last_start {delay : Nat} {events : List (Event ε α)} {s : Session}
    (h : Steps.run happen { delay } events = some s) (hc : s.change = .none) :
    (s.isActive = true ↔ (events.filterMap Event.effect).getLast? = some true) ∧
    ((∀ r ∈ Steps.history happen { delay } events, r.2.isRefused = true → r.1.engaged = false) →
      (s.isActive = true ↔ (events.filterMap Event.answer).getLast? = some true)) ∧
    (s.isActive = true → ∀ now text, ∃ p s₁ s₂, s.active = some p ∧ s.step (.edit now text) = some s₁ ∧
      s₁.activity = .pending ∧ s₁.step (.fire p) = some s₂ ∧
      s₂.engine.workers.toList.map (·.text) = s.engine.workers.toList.map (·.text) ++ [text]) ∧
    (s.isActive = false → ∀ (more : List (Event ε α)) (s' : Session), (∀ ev ∈ more, ev.effect ≠ some true) →
      Steps.run happen s more = some s' → s'.isActive = false ∧ s'.activity = .idle ∧
        (∀ (p : Nat) (l : Pipeline), s'.pipelines[p]? = some l → l.debounce.countdown = none) ∧
        s'.engine.workers.map Worker.origin = s.engine.workers.map Worker.origin ∧
        s'.engine.display.shown = s.engine.display.shown) := by
  have ht := Told.of_run h
  have hon : s.engaged = s.isActive := by simp [engaged, isActive, hc, Change.restart]
  have hlast : ∀ {o : Option Bool}, s.engaged = o.getD false → (s.isActive = true ↔ o = some true) := by
    intro o ho
    rw [← hon, ho]
    cases o <;> simp
  have hl := Lifecycle.of_run (run_happen h)
  refine ⟨?_, fun hoff => ?_, fun ha now text => ?_, fun ha more s' hmore hrun => ?_⟩
  · have := hlast ht.effect
    rwa [Steps.history_map_snd h] at this
  · have := hlast (ht.answer hoff)
    rwa [Steps.history_map_snd h] at this
  · obtain ⟨p, hp⟩ := Option.isSome_iff_exists.mp ha
    exact ⟨p, (edit_accepted hl hp now text).imp fun _ he => he.imp fun _ he => ⟨hp, he⟩⟩
  · have hactive : s.active = none := by simpa [isActive] using ha
    have hoff : Off (s.engine.workers.map Worker.origin) s.engine.display.shown s :=
      ⟨hc, hactive, hushed_of_run (run_happen h), rfl, rfl⟩
    have hacts : ∀ a ∈ more.filterMap Event.action?, a.effect ≠ some true := by
      intro a ha
      obtain ⟨ev, hev, he⟩ := List.mem_filterMap.mp ha
      have := hmore ev hev
      rwa [Event.effect, he] at this
    have ho := (Off.of_run hl hoff hacts (run_happen hrun)).2
    exact ⟨by simp [isActive, ho.active], by simp [activity, ho.active],
      fun p l hp => (ho.hushed.debounce hp (by simp [listening, ho.change, ho.active])).countdown, ho.runs, ho.shown⟩

/-- A start without a command line, one with, a run that is shown, an edit, and a start in its place. -/
def turnedOn : List (Event LaunchFault Invocation) :=
  [.start (.error (.interpreterNotFound "python3")) "a", .start (.ok { program := .ofString "python3" }) "b",
    .own .openPipeline, .own (.engine (.finish 0 (.completed "B" "" none))), .own (.engine (.check 0)),
    .own (.engine (.send 0)), .own (.engine .take), .own (.engine .put), .own (.edit 5 "c"), .own (.beginStart "d"),
    .own .cancelCountdown, .own .closeScheduler, .own .openPipeline]

/-- A countdown takes an edit, then comes a stop, and then a start without a command line. -/
def turnedOff : List (Event LaunchFault Invocation) :=
  turnedOn ++ [.own (.edit 7 "e"), .own (.expire 307 1), .own (.takeText 1 1), .own .beginStop, .own .cancelCountdown,
    .own .closeScheduler, .start (.error (.interpreterNotFound "python3")) "f"]

/-- The countdown hands on its text, the run that was stopped ends, and there are an edit and another stop. -/
def onwards : List (Event LaunchFault Invocation) :=
  [.own (.handOn 1 0), .own (.engine (.finish 1 (.completed "D" "" none))), .own (.engine (.check 1)),
    .own (.edit 400 "g"), .own .beginStop, .own (.fire 1), .start (.error (.interpreterNotFound "python3")) "h"]

/-- The first session takes an edit; in the second one nothing happens any more. -/
theorem active_iff_last_start_when_turned :
    (∃ s, Steps.run happen { delay := 300 } turnedOn = some s ∧ s.change = .none ∧ s.isActive = true ∧
      (s.isActive = true ↔ (turnedOn.filterMap Event.answer).getLast? = some true) ∧
      ∃ p s₁ s₂, s.active = some p ∧ s.step (.edit 7 "e") = some s₁ ∧ s₁.activity = .pending ∧
        s₁.step (.fire p) = some s₂ ∧
        s₂.engine.workers.toList.map (·.text) = s.engine.workers.toList.map (·.text) ++ ["e"]) ∧
    ∃ s s', Steps.run happen { delay := 300 } turnedOff = some s ∧ s.change = .none ∧ s.isActive = false ∧
      (s.isActive = true ↔ (turnedOff.filterMap Event.answer).getLast? = some true) ∧
      (∀ ev ∈ onwards, ev.effect ≠ some true) ∧ Steps.run happen s onwards = some s' ∧ s'.isActive = false ∧
      s'.activity = .idle ∧ s'.engine.workers.map Worker.origin = s.engine.workers.map Worker.origin ∧
      s'.engine.display.shown = s.engine.display.shown := by
  refine ⟨⟨(Steps.run happen { delay := 300 } turnedOn).get rfl, rfl, rfl, rfl, ?_, ?_⟩,
    (Steps.run happen { delay := 300 } turnedOff).get rfl, _, rfl, rfl, rfl, ?_, by decide, rfl, ?_⟩
  · exact (@active_iff_last_start _ _ 300 turnedOn _ rfl rfl).2.1 (by decide)
  · exact (@active_iff_last_start _ _ 300 turnedOn _ rfl rfl).2.2.1 rfl 7 "e"
  · exact (@active_iff_last_start _ _ 300 turnedOff _ rfl rfl).2.1 (by decide)
  · obtain ⟨ha, hi, -, hr, hs⟩ :=
      (@active_iff_last_start _ _ 300 turnedOff _ rfl rfl).2.2.2 rfl onwards _ (by decide) rfl
    exact ⟨ha, hi, hr, hs⟩

/-- A start that succeeded and one without a command line. -/
def refusedWhileOn : List (Event LaunchFault Invocation) :=
  [.start (.ok { program := .ofString "python3" }) "b", .own .openPipeline,
    .start (.error (.missingSource (.ofString "/m.py"))) "c"]

/-- The last start returned false and still the session is active and its run goes on; an edit leads to a countdown, a
run and a text on the display. -/
theorem active_after_refused_start :
    ∃ s s₁ s₂, Steps.run happen { delay := 300 } refusedWhileOn = some s ∧ s.change = .none ∧
      (refusedWhileOn.filterMap Event.answer).getLast? = some false ∧
      s.isActive = true ∧ s.activity = .running ∧ s.step (.edit 0 "d") = some s₁ ∧
      (s₁.pipelines.toList.map (·.debounce.countdown)) = [some ⟨1, 300⟩] ∧
      Steps.run step s₁ [.expire 300 0, .takeText 0 1, .handOn 0 0, .engine (.finish 1 (.completed "D" "" none)),
        .engine (.check 1), .engine (.send 1), .engine .take, .engine .put] = some s₂ ∧
      s₂.engine.workers.toList.map (·.text) = ["b", "d"] ∧ s₂.engine.display.shown.map Prod.snd = ["D"] :=
  ⟨_, _, _, rfl, rfl, rfl, rfl, rfl, rfl, rfl, rfl, rfl, rfl⟩

end Session

end Retrace.Live
