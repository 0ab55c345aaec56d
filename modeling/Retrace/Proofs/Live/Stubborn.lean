import Retrace.Proofs.Live.Clockwork
import Retrace.Proofs.Live.Newest
import Retrace.Proofs.Live.Lifecycle
import Retrace.Proofs.Live.Undisturbed

/-!
# Runs that do not heed a cancellation

One scheduler starts the runs, each of which takes its time whatever happens. What has been shown is the output of the
runs that were over before the next one began and before the scheduler was shut down.
-/

namespace Retrace.Live

/-- Runs that complete for each text after some time, cancelled or not. -/
structure Stubborn where
  span : String → Nat
  stdout : String → String
  stderr : String → String := fun _ => ""
  exitCode : String → Option Int := fun _ => some 0

namespace Stubborn

def outcome (b : Stubborn) (text : String) : RunOutcome :=
  .completed (b.stdout text) (b.stderr text) (b.exitCode text)

def plan {World : Type} (b : Stubborn) (text : String) : Plan World where
  alone := { ending := some (b.span text, b.outcome text) }
  cancelled _ := none

/-- When a run is over. -/
def overAt (b : Stubborn) (r : Nat × String) : Nat := r.1 + b.span r.2

end Stubborn

/-- The text that a run was started with. -/
def Entry.startedText : Entry → Option String
  | .started _ text _ => some text
  | .ended .. => none

namespace Timeline

variable {World : Type}

/-- The texts that runs were started with, in order. -/
def started (t : Timeline World) : List String := t.log.reverse.filterMap Entry.startedText

/-- The texts that have been shown, in order. -/
def shown (t : Timeline World) : List String := t.session.engine.display.shown.reverse.map (·.2)

end Timeline

/-- The worker of the newest run is at work. -/
def Engine.busy (e : Engine) : Bool := e.workers.back?.any (·.stage == .running)

/-- What shows the output of the newest run from counting: a stop, or that it is not over. -/
def Engine.deadline (e : Engine) (stop : Option Nat) : Option Nat := if stop.isNone && e.busy then some 0 else stop

theorem Engine.busy_eq {e : Engine} {w : Nat} {k : Worker} (hw : w + 1 = e.workers.size)
    (hk : e.workers[w]? = some k) : e.busy = (k.stage == .running) := by
  rw [busy, Array.back?_eq_getElem?, ← hw, Nat.add_sub_cancel, hk, Option.any_some]

@[simp] theorem Engine.deadline_some (e : Engine) (σ : Nat) : e.deadline (some σ) = some σ := by
  simp [deadline]

variable {World : Type}

/-- A timeline in which `runs` have been begun, at their moments, by one scheduler, which was shut down at the moment
`stop` if at all. The workers of the first `polled` runs have started them. -/
structure Flowing (b : Stubborn) (stop : Option Nat) (runs : List (Nat × String)) (polled : Nat) (t : Timeline World) :
    Prop where
  runner : t.runner = fun _ _ => b.plan
  sound : t.session.engine.Sound
  rest : t.session.engine.display.AtRest
  door : t.session.engine.doors = #[stop.isSome]
  wanted : ∀ {w k}, t.session.engine.workers[w]? = some k →
    (t.session.engine.registry.isCancelled k.token = false ↔ w + 1 = t.session.engine.workers.size ∧ stop = none)
  texts : (t.session.engine.workers.map (·.text)).toList = runs.map (·.2)
  working : ∀ {w k}, t.session.engine.workers[w]? = some k →
    (k.stage = .running ↔ polled ≤ w ∨ w ∈ t.attempts.map (·.worker))
  once : (t.attempts.map (·.worker)).Nodup
  started : t.started = (runs.take polled).map (·.2)
  polled_le : polled ≤ runs.length
  /-- At most the newest run has not been started; its worker is ready to do so at once. -/
  fresh : ∀ {w r}, runs[w]? = some r → polled ≤ w → w = polled ∧ w ∈ t.ready ∧ r.1 = t.now
  flying : ∀ {a}, a ∈ t.attempts → a.worker < polled ∧ (∀ n, a.plan.cancelled n = none) ∧
    ∃ r, runs[a.worker]? = some r ∧ a.course = { ending := some (b.overAt r, b.outcome r.2) } ∧ t.now ≤ b.overAt r
  landed : ∀ {w r}, runs[w]? = some r → w < polled → w ∉ t.attempts.map (·.worker) → b.overAt r ≤ t.now
  shown : t.shown = (undisturbed b.span (t.session.engine.deadline stop) runs).map fun r => b.stdout r.2

namespace Flowing

variable {b : Stubborn} {stop : Option Nat} {runs : List (Nat × String)} {polled : Nat} {t : Timeline World}

theorem workers_size (h : Flowing b stop runs polled t) : t.session.engine.workers.size = runs.length := by
  simpa using congrArg List.length h.texts

theorem worker (h : Flowing b stop runs polled t) {w : Nat} {r : Nat × String} (hr : runs[w]? = some r) :
    ∃ k s, t.session.engine.workers[w]? = some k ∧ k.text = r.2 ∧ t.session.engine.schedulers[k.scheduler]? = some s := by
  have hw : w < t.session.engine.workers.size := h.workers_size ▸ (List.getElem?_eq_some_iff.mp hr).1
  have hk := Array.getElem?_eq_getElem hw
  have htext : (t.session.engine.workers.map (·.text)).toList[w]? = some r.2 := by rw [h.texts, List.getElem?_map, hr]; rfl
  rw [Array.getElem?_toList, Array.getElem?_map, hk] at htext
  exact ⟨_, _, hk, Option.some.inj htext, Array.getElem?_eq_getElem (h.sound.owned hk)⟩

theorem polled_of_ready (h : Flowing b stop runs polled t) (hr : t.ready = []) : polled = runs.length := by
  refine Nat.le_antisymm h.polled_le (Nat.le_of_not_lt fun hlt => ?_)
  have := (h.fresh (List.getElem?_eq_getElem hlt) (Nat.le_refl _)).2.1
  rw [hr] at this
  cases this

theorem length_le (h : Flowing b stop runs polled t) : runs.length ≤ polled + 1 := by
  refine Nat.le_of_not_lt fun hlt => ?_
  have := (h.fresh (List.getElem?_eq_getElem hlt) (by omega)).1
  omega

/-! ## Waking and waiting -/

/-- More workers may be ready, and attempts may know that they are cancelled. -/
theorem mark (h : Flowing b stop runs polled t) {ready : List Nat} (hr : ∀ w ∈ t.ready, w ∈ ready)
    {f : Attempt World → Attempt World}
    (hf : ∀ a, (f a).worker = a.worker ∧ (f a).plan = a.plan ∧ (f a).course = a.course) :
    Flowing b stop runs polled { t with ready, attempts := t.attempts.map f } := by
  have hmap : (t.attempts.map f).map (·.worker) = t.attempts.map (·.worker) := by
    rw [List.map_map]
    exact List.map_congr_left fun a _ => (hf a).1
  refine { h with working := ?_, once := ?_, fresh := ?_, flying := ?_, landed := ?_ }
  · intro w k hk
    dsimp only
    rw [hmap]
    exact h.working hk
  · dsimp only
    rw [hmap]
    exact h.once
  · intro w r hw hp
    obtain ⟨he, hm, hn⟩ := h.fresh hw hp
    exact ⟨he, hr w hm, hn⟩
  · intro a ha
    obtain ⟨c, hc, rfl⟩ := List.mem_map.mp ha
    rw [(hf c).1, (hf c).2.1, (hf c).2.2]
    exact h.flying hc
  · intro w r hw hp hm
    dsimp only at hm
    rw [hmap] at hm
    exact h.landed hw hp hm

/-- A worker that has nothing to start need not be ready. -/
theorem ready_of (h : Flowing b stop runs polled t) {ready : List Nat}
    (hr : polled < runs.length → polled ∈ ready) : Flowing b stop runs polled { t with ready } := by
  refine { h with fresh := ?_ }
  intro w r hw hp
  obtain ⟨rfl, -, hn⟩ := h.fresh hw hp
  exact ⟨rfl, hr (List.getElem?_eq_some_iff.mp hw).1, hn⟩

/-- The engine goes on as before when the rest of the session changes. -/
theorem session_of (h : Flowing b stop runs polled t) {s : Session} (hs : s.engine = t.session.engine) :
    Flowing b stop runs polled { t with session := s } := by
  obtain ⟨runner, sink, session, world, now, ready, attempts, log⟩ := t
  obtain ⟨delay, engine, pipelines, active, change⟩ := s
  obtain rfl : engine = session.engine := hs
  exact { h with }

/-- Time goes on to the next moment at which something is due. -/
theorem wait (h : Flowing b stop runs polled t) (hr : t.ready = []) {m : Nat} (hm : t.now ≤ m)
    (hnext : ∀ x ∈ t.moments, m ≤ x) : Flowing b stop runs polled { t with now := m } := by
  refine { h with fresh := ?_, flying := ?_, landed := ?_ }
  · intro w r hw hp
    have := h.polled_of_ready hr
    have := (List.getElem?_eq_some_iff.mp hw).1
    omega
  · intro a ha
    obtain ⟨hlt, hc, r, hw, hcourse, -⟩ := h.flying ha
    refine ⟨hlt, hc, r, hw, hcourse, hnext _ ?_⟩
    exact List.mem_append_left _ (List.mem_flatMap.mpr ⟨a, ha, by simp [hcourse]⟩)
  · intro w r hw hp hn
    exact Nat.le_trans (h.landed hw hp hn) hm

/-! ## Workers that start and finish -/

/-- A worker whose run has been started does not react to anything. -/
theorem poll_idle (h : Flowing b stop runs polled t) {w : Nat} (hw : w ≠ polled ∨ polled = runs.length) :
    t.poll w = t := by
  unfold Timeline.poll
  split
  · rfl
  · rename_i k hk
    split
    · rename_i a ha
      simp only [(h.flying (List.mem_of_find?_eq_some ha)).2.1]
    · rename_i hnone
      have hm : w ∉ t.attempts.map (·.worker) := fun hm => by
        obtain ⟨a, ha, hw⟩ := List.mem_map.mp hm
        exact List.find?_eq_none.mp hnone a ha (by simpa using hw)
      have hlt : w < runs.length := h.workers_size ▸ getElem?_lt hk
      have hp : ¬ polled ≤ w := fun hp => by
        have := (h.fresh (List.getElem?_eq_getElem hlt) hp).1
        omega
      have hdone : k.stage ≠ .running := fun hr => not_or.mpr ⟨hp, hm⟩ ((h.working hk).mp hr)
      rw [if_pos hdone]

/-- The attempt at a run that has been begun at its moment. -/
def attemptOf (b : Stubborn) (w : Nat) (r : Nat × String) (told : Bool) : Attempt World :=
  ⟨w, r.1, b.plan r.2, { ending := some (b.overAt r, b.outcome r.2) }, told⟩

/-- The newest run is started, which its worker is told about as `told` says. -/
theorem attempted (h : Flowing b stop runs polled t) {r : Nat × String} (hr : runs[polled]? = some r) {k : Worker}
    (htext : k.text = r.2) (ready : List Nat) (told : Bool) : Flowing b stop runs (polled + 1) { t with
      ready, attempts := t.attempts ++ [attemptOf b polled r told]
      log := .started k.token.generation k.text told :: t.log } := by
  obtain ⟨-, -, hnow⟩ := h.fresh hr (Nat.le_refl _)
  refine { h with working := ?_, once := ?_, started := ?_, polled_le := ?_, fresh := ?_, flying := ?_, landed := ?_ }
  · intro w j hj
    rw [h.working hj]
    simp only [List.map_append, List.mem_append, List.map_cons, List.map_nil, List.mem_singleton, attemptOf]
    by_cases hw : w ∈ t.attempts.map (·.worker)
    · simp [hw]
    · simp only [hw, or_false, false_or]
      omega
  · simp only [List.map_append, List.map_cons, List.map_nil, attemptOf]
    refine List.nodup_append.mpr ⟨h.once, by simp, fun w hw v hv => ?_⟩
    obtain ⟨a, ha, rfl⟩ := List.mem_map.mp hw
    have := (h.flying ha).1
    rw [List.mem_singleton] at hv
    omega
  · rw [List.take_add_one, hr]
    simp only [Timeline.started, List.reverse_cons, List.filterMap_append]
    have := h.started
    simp only [Timeline.started] at this
    rw [this]
    simp [Entry.startedText, htext]
  · exact (List.getElem?_eq_some_iff.mp hr).1
  · intro w q hq hp
    have := (h.fresh hq (by omega)).1
    omega
  · intro a ha
    rcases List.mem_append.mp ha with ha | ha
    · obtain ⟨hlt, rest⟩ := h.flying ha
      exact ⟨by omega, rest⟩
    · obtain rfl := List.mem_singleton.mp ha
      exact ⟨Nat.lt_succ_self _, fun _ => rfl, r, hr, rfl, by simp [Stubborn.overAt, ← hnow]⟩
  · intro w q hq hp hm
    simp only [List.map_append, List.mem_append, not_or, List.map_cons, List.map_nil, List.mem_singleton,
      attemptOf] at hm
    exact h.landed hq (by omega) hm.1

/-- The worker of the newest run starts it. It may end at once. -/
theorem poll_fresh (h : Flowing b stop runs polled t) {r : Nat × String} (hr : runs[polled]? = some r)
    (ready : List Nat) : ∃ (k : Worker) (told : Bool),
      let u : Timeline World := { t with
        ready, attempts := t.attempts ++ [attemptOf b polled r told]
        log := .started k.token.generation k.text told :: t.log }
      ({ t with ready } : Timeline World).poll polled = u.endDue (attemptOf b polled r told) ∧
        Flowing b stop runs (polled + 1) u := by
  obtain ⟨k, s, hk, htext, -⟩ := h.worker hr
  obtain ⟨-, -, hnow⟩ := h.fresh hr (Nat.le_refl _)
  have hnone : t.attempts.find? (·.worker == polled) = none := by
    refine List.find?_eq_none.mpr fun a ha => ?_
    have := (h.flying ha).1
    simp only [beq_iff_eq]
    omega
  refine ⟨k, t.session.engine.registry.isCancelled k.token, ?_⟩
  intro u
  have hu : Flowing b stop runs (polled + 1) u := h.attempted hr htext ready _
  refine ⟨?_, hu⟩
  have hmem : attemptOf b polled r (t.session.engine.registry.isCancelled k.token) ∈ u.attempts := by simp [u]
  have happly := Timeline.applyEffects_of_mem hu.once hmem rfl
  have hfind : u.attempts.find? (·.worker == polled) =
      some (attemptOf b polled r (t.session.engine.registry.isCancelled k.token)) :=
    Timeline.find?_attempt hu.once hmem
  have hstage : k.stage = .running := (h.working hk).mpr (Or.inl (Nat.le_refl _))
  have hattempt : (⟨polled, t.now, t.runner k.scheduler t.world k.text,
      Timeline.Course.from (if t.session.engine.registry.isCancelled k.token = true then
        ((t.runner k.scheduler t.world k.text).cancelled 0).getD (t.runner k.scheduler t.world k.text).alone
        else (t.runner k.scheduler t.world k.text).alone) t.now,
      t.session.engine.registry.isCancelled k.token⟩ : Attempt World) =
      attemptOf b polled r (t.session.engine.registry.isCancelled k.token) := by
    simp [h.runner, Stubborn.plan, attemptOf, Timeline.Course.from, htext, hnow, Stubborn.overAt]
  unfold Timeline.poll
  dsimp only [u] at happly hfind
  simp only [hk, hnone, hstage, hattempt, ne_eq, not_true_eq_false, if_false, happly, hfind]
  rfl

/-! ## The output of the newest run -/

/-- The newest run is at work until it is over. -/
theorem busy_iff (h : Flowing b stop runs polled t) (hp : polled = runs.length) {l : List (Nat × String)}
    {r : Nat × String} (hr : runs = l ++ [r]) :
    (t.session.engine.busy = true → t.now ≤ b.overAt r) ∧ (t.session.engine.busy = false → b.overAt r ≤ t.now) := by
  have hget : runs[l.length]? = some r := by simp [hr]
  have hlen : runs.length = l.length + 1 := by simp [hr]
  obtain ⟨k, s, hk, -, -⟩ := h.worker hget
  have hbusy : t.session.engine.busy = (k.stage == .running) :=
    Engine.busy_eq (by rw [h.workers_size, hlen]) hk
  have hmem : l.length ∈ t.attempts.map (·.worker) ↔ t.session.engine.busy = true := by
    have : ¬ polled ≤ l.length := by omega
    simp only [hbusy, beq_iff_eq, h.working hk, this, false_or]
  constructor
  · intro hb
    obtain ⟨a, ha, hw⟩ := List.mem_map.mp (hmem.mpr hb)
    obtain ⟨-, -, q, hq, -, hnow⟩ := h.flying ha
    rw [hw, hget] at hq
    obtain rfl := Option.some.inj hq
    exact hnow
  · intro hb
    exact h.landed hget (by omega) fun hm => by rw [hmem.mp hm] at hb; cases hb

/-- Whatever comes at the moment `n` finds the newest run over if that was so at the moment `m` before. -/
theorem undisturbed_eq {m n : Nat} (hm : Flowing b none runs polled { t with now := m })
    (hn : Flowing b none runs polled { t with now := n }) (hp : polled = runs.length)
    (hlt : ∀ r ∈ runs.getLast?, b.overAt r ≤ m → b.overAt r < n) :
    undisturbed b.span (t.session.engine.deadline none) runs = undisturbed b.span (some n) runs := by
  refine undisturbed_congr fun r hr => ?_
  obtain ⟨l, hl⟩ := List.getLast?_eq_some_iff.mp hr
  have hlt := hlt r hr
  cases hb : t.session.engine.busy with
  | true =>
    have : n ≤ b.overAt r := (hn.busy_iff hp hl).1 hb
    simp only [Stubborn.overAt] at this
    simp [Engine.deadline, hb, this]
  | false =>
    have := hlt ((hm.busy_iff hp hl).2 hb)
    simp only [Stubborn.overAt] at this
    simp [Engine.deadline, hb, this]

/-! ## Runs that end -/

/-- The output of a run is shown if no run has been begun since and there has been no stop. -/
theorem shown_concluded (h : Flowing b stop runs polled t) {w : Nat} {r : Nat × String} {k : Worker} {s : Scheduler}
    {e : Engine} (hr : runs[w]? = some r) (hk : t.session.engine.workers[w]? = some k) (hstage : k.stage = .running)
    (he : e = t.session.engine.concluded w k s (b.outcome r.2)) :
    e.display.shown.reverse.map (·.2) = (undisturbed b.span (e.deadline stop) runs).map fun r => b.stdout r.2 := by
  have hold : t.session.engine.display.shown.reverse.map (·.2) = _ := h.shown
  have hnew : e.display.shown = if t.session.engine.registry.isCancelled k.token then t.session.engine.display.shown
      else (k.token, b.stdout r.2) :: t.session.engine.display.shown := by
    rw [he]
    rfl
  have hset : e.workers = t.session.engine.workers.setIfInBounds w { k with stage := .done } := by
    rw [he]
    rfl
  have hsize : e.workers.size = t.session.engine.workers.size := by rw [hset, Array.size_setIfInBounds]
  by_cases hlast : w + 1 = t.session.engine.workers.size ∧ stop = none
  · -- the newest run, and it is still wanted
    rw [hnew, (h.wanted hk).mpr hlast]
    obtain ⟨hlast, rfl⟩ := hlast
    have hbusy : t.session.engine.busy = true := by simp [Engine.busy_eq hlast hk, hstage]
    have hidle : e.busy = false := by
      have hdone : e.workers[w]? = some { k with stage := .done } := by
        rw [hset]
        exact Array.getElem?_setIfInBounds_self_of_lt (getElem?_lt hk)
      rw [Engine.busy_eq (hlast.trans hsize.symm) hdone]
      rfl
    obtain ⟨l, hl⟩ : ∃ l, runs = l ++ [r] := by
      rw [h.workers_size] at hlast
      refine List.getLast?_eq_some_iff.mp ?_
      rw [List.getLast?_eq_getElem?, ← hlast, Nat.add_sub_cancel, hr]
    simp only [Engine.deadline, hbusy, hl, undisturbed_concat] at hold
    simp [Engine.deadline, hidle, hl, undisturbed_concat, hold]
  · -- nothing is shown of a run that another one or the stop has made obsolete
    have hcan : t.session.engine.registry.isCancelled k.token = true := by
      rw [← Bool.not_eq_false]
      exact fun hc => hlast ((h.wanted hk).mp hc)
    have hdeadline : e.deadline stop = t.session.engine.deadline stop := by
      cases stop with
      | some σ => simp
      | none =>
        have hne : w ≠ t.session.engine.workers.size - 1 := by
          have := getElem?_lt hk
          simp only [and_true] at hlast
          omega
        have hbusy : e.busy = t.session.engine.busy := by
          rw [Engine.busy, Engine.busy, Array.back?_eq_getElem?, Array.back?_eq_getElem?, hsize, hset,
            Array.getElem?_setIfInBounds_ne hne]
        rw [Engine.deadline, Engine.deadline, hbusy]
    rw [hnew, hcan, if_pos rfl, hold, hdeadline]

/-- A run ends at its moment. Its output is shown if no run has been begun since. -/
theorem finish (h : Flowing b stop runs polled t) {a : Attempt World} (ha : a ∈ t.attempts) {r : Nat × String}
    (hr : runs[a.worker]? = some r) (hover : b.overAt r ≤ t.now) :
    Flowing b stop runs polled (t.finish a (b.outcome r.2)) := by
  obtain ⟨k, s, hk, htext, hs⟩ := h.worker hr
  have hmem : a.worker ∈ t.attempts.map (·.worker) := List.mem_map.mpr ⟨a, ha, rfl⟩
  have hstage : k.stage = .running := (h.working hk).mpr (Or.inr hmem)
  obtain ⟨world, hf⟩ := Timeline.finish_eq h.rest hk hstage hs (b.outcome r.2)
  rw [hf]
  have hcalm : Engine.Calm t.session.engine (t.session.engine.concluded a.worker k s (b.outcome r.2)) := by
    obtain ⟨hreg, hsch, hwork⟩ := Engine.Calm.reported hk hs
    exact ⟨hreg, hsch, hwork⟩
  have hother : ∀ w, w ∈ (t.attempts.filter (·.worker ≠ a.worker)).map (·.worker) ↔
      w ≠ a.worker ∧ w ∈ t.attempts.map (·.worker) := by
    intro w
    simp only [List.mem_map, List.mem_filter, decide_eq_true_eq]
    constructor
    · rintro ⟨c, ⟨hc, hne⟩, rfl⟩
      exact ⟨hne, c, hc, rfl⟩
    · rintro ⟨hne, c, hc, rfl⟩
      exact ⟨c, ⟨hc, hne⟩, rfl⟩
  refine { h with
    sound := h.sound.calm hcalm
    rest := ⟨h.rest.empty, h.rest.idle, h.rest.free⟩
    door := hcalm.doors.trans h.door
    wanted := ?_, texts := ?_, working := ?_, once := ?_, started := ?_, flying := ?_, landed := ?_, shown := ?_ }
  · intro w k' hk'
    obtain ⟨j, hj, -, ht, -⟩ := hcalm.worker hk'
    rw [hcalm.registry, hcalm.workers_size, ← ht]
    exact h.wanted hj
  · rw [← h.texts]
    exact congrArg Array.toList (map_setIfInBounds_same _ hk rfl)
  · intro w k' hk'
    dsimp only
    rw [hother]
    rcases getElem?_setIfInBounds_cases hk' with ⟨rfl, rfl⟩ | ⟨hne, hk'⟩
    · have := (h.flying ha).1
      simp only [reduceCtorEq, ne_eq, not_true_eq_false, false_and, or_false, false_iff]
      omega
    · simp only [h.working hk', ne_eq, Ne.symm hne, not_false_eq_true, true_and]
  · exact h.once.sublist (List.filter_sublist.map _)
  · rw [← h.started]
    simp [Timeline.started, Entry.startedText]
  · intro c hc
    exact h.flying (List.mem_filter.mp hc).1
  · intro w q hq hp hm
    dsimp only at hm
    rw [hother] at hm
    by_cases hw : w = a.worker
    · subst hw
      rw [hr] at hq
      obtain rfl := Option.some.inj hq
      exact hover
    · exact h.landed hq hp fun hmw => hm ⟨hw, hmw⟩
  · exact h.shown_concluded hr hk hstage rfl

/-- An attempt ends when its moment has come; otherwise nothing happens. -/
theorem endDue (h : Flowing b stop runs polled t) {a : Attempt World} (ha : a ∈ t.attempts) :
    ∃ e world attempts log,
      t.endDue a = { t with session := { t.session with engine := e }, world, attempts, log } ∧
      Flowing b stop runs polled (t.endDue a) ∧ attempts.length ≤ t.attempts.length ∧
      ((∃ x ∈ a.course.ending, x.1 ≤ t.now) → attempts.length < t.attempts.length) := by
  obtain ⟨-, -, r, hr, hcourse, -⟩ := h.flying ha
  by_cases hover : b.overAt r ≤ t.now
  · have hend : t.endDue a = t.finish a (b.outcome r.2) := by simp [Timeline.endDue, hcourse, hover]
    obtain ⟨k, s, hk, -, hs⟩ := h.worker hr
    have hstage : k.stage = .running := (h.working hk).mpr (Or.inr (List.mem_map.mpr ⟨a, ha, rfl⟩))
    obtain ⟨world, hf⟩ := Timeline.finish_eq h.rest hk hstage hs (b.outcome r.2)
    have hlt : (t.attempts.filter (·.worker ≠ a.worker)).length < t.attempts.length :=
      List.length_filter_lt_length_iff_exists.mpr ⟨a, ha, by simp⟩
    rw [hend]
    exact ⟨_, world, _, _, hf, h.finish ha hr hover, Nat.le_of_lt hlt, fun _ => hlt⟩
  · have hend : t.endDue a = t := by simp [Timeline.endDue, hcourse, hover]
    rw [hend]
    refine ⟨t.session.engine, t.world, t.attempts, t.log, rfl, h, Nat.le_refl _, ?_⟩
    rintro ⟨x, hx, hle⟩
    rw [hcourse] at hx
    obtain rfl := Option.some.inj hx
    exact absurd hle hover

/-! ## Runs that begin -/

/-- A session that has a scheduler and has begun no run. -/
theorem empty {t : Timeline World} (hrunner : t.runner = fun _ _ => b.plan)
    (hengine : t.session.engine = (({} : Engine).addScheduler).2) (hattempts : t.attempts = []) (hlog : t.log = []) :
    Flowing b none [] 0 t := by
  have hsound : t.session.engine.Sound := by
    rw [hengine]
    exact Engine.Sound.addScheduler .empty (by simp)
  refine {
    runner := hrunner, sound := hsound, once := by simp [hattempts], started := by simp [Timeline.started, hlog]
    polled_le := Nat.le_refl _
    rest := ?_, door := ?_, wanted := ?_, texts := ?_, working := ?_, fresh := ?_, flying := ?_, landed := ?_, shown := ?_ }
  · rw [hengine]
    exact ⟨rfl, rfl, rfl⟩
  · rw [hengine, Engine.doors_addScheduler]
    simp [Engine.doors]
  · intro w k hk
    rw [hengine] at hk
    simp [Engine.addScheduler] at hk
  · simp [hengine, Engine.addScheduler]
  · intro w k hk
    rw [hengine] at hk
    simp [Engine.addScheduler] at hk
  · intro w r hr
    simp at hr
  · intro a ha
    rw [hattempts] at ha
    cases ha
  · intro w r hr
    simp at hr
  · simp only [Timeline.shown, hengine]
    rfl

/-- A run is begun for a text. The run before counts if it is over. -/
theorem schedule (h : Flowing b none runs polled t) (hp : polled = runs.length)
    (hne : ∀ r ∈ runs.getLast?, b.overAt r ≠ t.now) (text : String) : ∃ e,
      t.session.engine.schedule 0 text = some e ∧
      Flowing b none (runs ++ [(t.now, text)]) polled
        { t with session := { t.session with engine := e }, ready := t.ready ++ [runs.length] } := by
  obtain ⟨e, he⟩ : ∃ e, t.session.engine.schedule 0 text = some e := by
    rw [← Option.isSome_iff_exists, Engine.schedule_isSome_iff, h.door]
    rfl
  refine ⟨e, he, ?_⟩
  have hsound := h.sound.schedule he
  have hdoor := (Engine.doors_schedule he).trans h.door
  obtain ⟨s, hs, -, rfl⟩ := Engine.schedule_some he
  have hsize := h.workers_size
  have hsize' : (t.session.engine.started 0 s text).workers.size = runs.length + 1 := by
    simp [Engine.started, hsize]
  have hnew : (t.session.engine.started 0 s text).workers[runs.length]? =
      some ⟨0, t.session.engine.nextToken s, text, .running⟩ := by
    rw [← hsize]
    exact Array.getElem?_push_size
  refine { h with
    sound := hsound, door := hdoor
    wanted := ?_, texts := ?_, working := ?_, started := ?_, polled_le := ?_, fresh := ?_, flying := ?_
    landed := ?_, shown := ?_ }
  · intro w k hk
    constructor
    · exact fun ha => ⟨hsound.last_of_active hk ha, rfl⟩
    · rintro ⟨hw, -⟩
      -- the newest run of the scheduler is this one
      have hw' : w = runs.length := by
        dsimp only at hw
        omega
      subst hw'
      dsimp only at hk
      rw [hnew] at hk
      obtain rfl := Option.some.inj hk
      exact (hsound.newest (Array.getElem?_setIfInBounds_self_of_lt (getElem?_lt hs)) rfl).2.2.1
  · simp [Engine.started, ← h.texts]
  · intro w k hk
    rcases getElem?_push_cases hk with hk | ⟨rfl, rfl⟩
    · exact h.working hk
    · simp only [true_iff]
      exact Or.inl (by omega)
  · rw [List.take_append_of_le_length h.polled_le]
    exact h.started
  · simp only [List.length_append]
    omega
  · intro w r hr hw
    have hlt := (List.getElem?_eq_some_iff.mp hr).1
    simp only [List.length_append, List.length_cons, List.length_nil] at hlt
    obtain rfl : w = runs.length := by omega
    rw [List.getElem?_append_right (Nat.le_refl _), Nat.sub_self] at hr
    obtain rfl := Option.some.inj hr
    exact ⟨hp.symm, by simp, rfl⟩
  · intro a ha
    obtain ⟨hlt, hc, r, hr, hcourse⟩ := h.flying ha
    exact ⟨hlt, hc, r, by rw [List.getElem?_append_left (by omega), hr], hcourse⟩
  · intro w r hr hw
    rw [List.getElem?_append_left (by omega)] at hr
    exact h.landed hr hw
  · have hbusy : (t.session.engine.started 0 s text).busy = true := by
      rw [Engine.busy_eq hsize'.symm hnew]
      rfl
    have hshown := h.shown
    rw [undisturbed_eq h h hp fun r hr hle => Nat.lt_of_le_of_ne hle (hne r hr)] at hshown
    refine Eq.trans hshown ?_
    simp [Engine.deadline, hbusy, undisturbed_concat]

/-- The scheduler is shut down. The newest run counts if it is over. -/
theorem close (h : Flowing b none runs polled t) (hp : polled = runs.length)
    (hne : ∀ r ∈ runs.getLast?, b.overAt r ≠ t.now) : ∃ e, t.session.engine.shutDown 0 = some e ∧
      Flowing b (some t.now) runs polled { t with session := { t.session with engine := e } } := by
  have hdoor := h.door
  obtain ⟨s, hs, ho⟩ : ∃ s, t.session.engine.schedulers[0]? = some s ∧ s.isShutDown = false := by
    have : t.session.engine.doors[0]? = some false := by rw [hdoor]; rfl
    simpa [Engine.doors] using this
  have he : t.session.engine.shutDown 0 = some (t.session.engine.closed 0 s) := by
    simp [Engine.shutDown, hs, ho, h.rest.gateFree_eq, Engine.closed]
  have hdoor' : (t.session.engine.closed 0 s).doors = #[true] := by
    rw [Engine.doors_shutDown he, hdoor]
    rfl
  have hsound := h.sound.shutDown he
  refine ⟨_, he, { h with sound := hsound, door := hdoor', wanted := ?_, shown := ?_ }⟩
  · intro w k hk
    simp only [reduceCtorEq, and_false, iff_false]
    intro ha
    obtain ⟨u, hu, hopen⟩ := hsound.open_of_active hk ha
    have hlast := hsound.open_last hu hopen
    rw [← Engine.doors_size, hdoor'] at hlast
    have : (t.session.engine.closed 0 s).doors[k.scheduler]? = some false := by simp [Engine.doors, hu, hopen]
    rw [hdoor', show k.scheduler = 0 from Nat.succ.inj hlast] at this
    cases this
  · have hshown := h.shown
    rw [undisturbed_eq h h hp fun r hr hle => Nat.lt_of_le_of_ne hle (hne r hr)] at hshown
    rw [Engine.deadline_some]
    exact hshown

end Flowing

end Retrace.Live
