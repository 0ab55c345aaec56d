import Retrace.Proofs.Live.Stubborn

/-!
# Sessions whose runs do not heed a cancellation

A session with its edits so far, and the stop if there has been one. What is done at once keeps to the runs that the
edits call for, and so do an edit, the stop and time that goes on to the next of them.
-/

namespace Retrace.Live

/-- The runs of a session with their moments: the first text at once, then the edits that stay undisturbed. -/
def runsOf (delay : Nat) (first : String) (stop : Option Nat) (edits : List (Nat × String)) : List (Nat × String) :=
  (0, first) :: (undisturbed (fun _ => delay) stop edits).map fun e => (e.1 + delay, e.2)

/-- No run is over just when a later one begins. -/
def Stubborn.Apart (b : Stubborn) (runs : List (Nat × String)) : Prop := runs.Pairwise fun r q => b.overAt r ≠ q.1

/-- The last edit waits for its deadline, unless that has come or there has been a stop. -/
structure Debounce.Awaits (delay : Nat) (last : Option (Nat × String)) (stop : Option Nat) (now : Nat)
    (d : Debounce String) : Prop where
  delay_eq : d.delay = delay
  expired_eq : d.expired = []
  countdown_eq : d.pending = none ∧ d.countdown = none ∧ (stop = none → ∀ e ∈ last, e.1 + delay ≤ now) ∨
    stop = none ∧ ∃ e, last = some e ∧ d.pending = some e.2 ∧ d.countdown = some ⟨d.number, e.1 + delay⟩ ∧
      now ≤ e.1 + delay

namespace Timeline

variable {World : Type}

/-- The countdowns that are running. -/
def countdowns (t : Timeline World) : List Countdown := t.session.pipelines.toList.filterMap (·.debounce.countdown)

/-- How much the workers can do at once at most. -/
def pressing (t : Timeline World) : Nat := 2 * t.ready.length + t.attempts.length

/-- How much can be done at once at most, counting that the end of a countdown wakes workers. -/
def load (t : Timeline World) : Nat := t.pressing + t.duePipelines.length * (2 * t.pressing + 3)

theorem load_le {t u : Timeline World} (hd : u.duePipelines = t.duePipelines) (h : u.pressing ≤ t.pressing) :
    u.load ≤ t.load := by
  rw [load, load, hd]
  exact Nat.add_le_add h (Nat.mul_le_mul_left _ (by omega))

theorem load_lt {t u : Timeline World} (hd : u.duePipelines = t.duePipelines) (h : u.pressing < t.pressing) :
    u.load < t.load := by
  rw [load, load, hd]
  exact Nat.add_lt_add_of_lt_of_le h (Nat.mul_le_mul_left _ (by omega))

/-- How many runs have yet to end, and to be started and to end. -/
def work (t : Timeline World) : Nat :=
  t.attempts.length + (t.session.engine.workers.size - t.started.length) + 2 * t.countdowns.length

end Timeline

variable {World : Type}

/-- A session with the edits so far, and the stop if there has been one. -/
structure Playing (b : Stubborn) (delay : Nat) (first : String) (edits : List (Nat × String)) (stop : Option Nat)
    (runs : List (Nat × String)) (polled : Nat) (t : Timeline World) : Prop where
  flowing : Flowing b stop runs polled t
  change : t.session.change = .none
  active : t.session.active = if stop.isNone then some 0 else none
  debounce : ∃ d, t.session.pipelines = #[⟨d, []⟩] ∧ d.Awaits delay edits.getLast? stop t.now ∧
    runs = runsOf delay first (if d.isPending then some 0 else stop) edits

namespace Playing

variable {b : Stubborn} {delay : Nat} {first : String} {edits : List (Nat × String)} {stop : Option Nat}
  {runs : List (Nat × String)} {polled : Nat} {t t' : Timeline World}

theorem work_eq (h : Playing b delay first edits stop runs polled t) :
    t.work = t.attempts.length + (runs.length - polled) + 2 * t.countdowns.length := by
  have hs : t.started.length = polled := by
    rw [h.flowing.started, List.length_map, List.length_take, Nat.min_eq_left h.flowing.polled_le]
  rw [Timeline.work, hs, h.flowing.workers_size]

theorem length_countdowns_le (h : Playing b delay first edits stop runs polled t) : t.countdowns.length ≤ 1 := by
  obtain ⟨d, hd, -⟩ := h.debounce
  rw [Timeline.countdowns, hd]
  exact List.length_filterMap_le _ _

theorem duePipelines_eq {d : Debounce String} (hd : t.session.pipelines = #[⟨d, []⟩]) :
    t.duePipelines = if d.isDue t.now then [0] else [] := by
  simp only [Timeline.duePipelines, hd]
  cases hdue : d.isDue t.now <;> simp [List.filter, List.range, List.range.loop, hdue]

/-- The fuel for settling is enough. -/
theorem load_le_bound (h : Playing b delay first edits stop runs polled t) : t.load ≤ t.bound := by
  obtain ⟨d, hd, -⟩ := h.debounce
  have hsize : t.session.pipelines.size = 1 := by rw [hd]; rfl
  have hdue : t.duePipelines.length = 0 ∨ t.duePipelines.length = 1 := by
    rw [duePipelines_eq hd]
    split <;> simp
  rw [Timeline.load, Timeline.bound, Timeline.pressing, hsize]
  rcases hdue with hdue | hdue <;> rw [hdue] <;> omega

/-- Nothing but the runs changes. -/
theorem of_flowing (h : Playing b delay first edits stop runs polled t) {polled' : Nat}
    (hf : Flowing b stop runs polled' t') (hp : t'.session.pipelines = t.session.pipelines)
    (ha : t'.session.active = t.session.active) (hc : t'.session.change = t.session.change) (hn : t'.now = t.now) :
    Playing b delay first edits stop runs polled' t' := by
  refine ⟨hf, hc.trans h.change, ha.trans h.active, ?_⟩
  rw [hp, hn]
  exact h.debounce

/-- A countdown has run out exactly at its deadline, and it is that of the last edit. -/
theorem of_due (h : Playing b delay first edits stop runs polled t) {p : Nat} {ps : List Nat}
    (hdue : t.duePipelines = p :: ps) : p = 0 ∧ ps = [] ∧ stop = none ∧ ∃ d l e c, edits = l ++ [e] ∧
      e.1 + delay = t.now ∧ t.session.pipelines = #[⟨d, []⟩] ∧ d.delay = delay ∧ d.expired = [] ∧
      d.countdown = some c ∧ d.fire = (some e.2, { d with pending := none, countdown := none }) ∧
      runs = runsOf delay first (some 0) (l ++ [e]) := by
  obtain ⟨d, hd, ⟨hdelay, hexpired, hcount⟩, hruns⟩ := h.debounce
  have hisDue : d.isDue t.now = true := by
    rw [duePipelines_eq hd] at hdue
    by_contra hn
    simp [hn] at hdue
  rw [duePipelines_eq hd, if_pos hisDue] at hdue
  obtain ⟨hp, hps⟩ := List.cons.inj hdue
  rcases hcount with ⟨-, hnone, -⟩ | ⟨hstop, e, hlast, hpending, hcd, hle⟩
  · simp [Debounce.isDue, hnone] at hisDue
  obtain ⟨l, rfl⟩ := List.getLast?_eq_some_iff.mp hlast
  have hnow : e.1 + delay = t.now := by
    simp only [Debounce.isDue, hcd, decide_eq_true_eq] at hisDue
    omega
  have hfire : d.fire = (some e.2, { d with pending := none, countdown := none }) := by
    simp [Debounce.fire, hcd, Debounce.expire, Debounce.take, hexpired, hpending]
  refine ⟨hp.symm, hps.symm, hstop, d, l, e, _, rfl, hnow, hd, hdelay, hexpired, hcd, hfire, ?_⟩
  rw [hruns, if_pos (by simp [Debounce.isPending, hpending])]

/-- The countdown ends and a run is begun for its text. -/
theorem fire (h : Playing b delay first edits stop runs polled t) (hready : t.ready = []) {p : Nat} {ps : List Nat}
    (hdue : t.duePipelines = p :: ps) {horizon : Option Nat} (hfar : edits ≠ [] → horizon.all (t.now < ·) = true)
    (hapart : stop = none → b.Apart (runsOf delay first horizon edits)) :
    Playing b delay first edits stop (runsOf delay first horizon edits) polled (t.act (·.fire p)) ∧
      (t.act (·.fire p)).load < t.load ∧ (t.act (·.fire p)).work < t.work := by
  obtain ⟨rfl, rfl, rfl, d, l, e, c, rfl, hnow, hd, hdelay, hexpired, hcd, hfire, hruns⟩ := h.of_due hdue
  have hruns' : ∀ {horizon : Option Nat}, horizon.all (t.now < ·) = true →
      runsOf delay first horizon (l ++ [e]) = runs ++ [(t.now, e.2)] := by
    intro horizon hfar
    rw [hruns]
    simp [runsOf, undisturbed_concat, hnow, hfar]
  have hpolled := h.flowing.polled_of_ready hready
  have hne : ∀ r ∈ runs.getLast?, b.overAt r ≠ t.now := fun r hr => by
    have hapart := hapart rfl
    rw [hruns' (hfar (by simp))] at hapart
    exact (List.pairwise_append.mp hapart).2.2 r (List.mem_of_getLast? hr) (t.now, e.2) (by simp)
  obtain ⟨engine, hengine, hflow⟩ := h.flowing.schedule hpolled hne e.2
  have hsession : t.session.fire 0 = { t.session with
      engine, pipelines := #[⟨{ d with pending := none, countdown := none }, []⟩] } := by
    rw [Session.fire_of_pipeline (l := ⟨d, []⟩) (by rw [hd]; rfl), hfire, hd]
    simp [Engine.handed, hengine]
  obtain ⟨woken, mark, hwoken, hmark, hact⟩ := t.act_eq (·.fire 0)
  have hnew : engine.workers.size - t.session.engine.workers.size = 1 := by
    have : engine.workers.size = _ := hflow.workers_size
    rw [this, h.flowing.workers_size]
    simp
  rw [hsession, hready, hnew] at hact
  have hplay : Playing b delay first (l ++ [e]) none (runsOf delay first horizon (l ++ [e])) polled (t.act (·.fire 0)) := by
    rw [hact, hruns' (hfar (by simp))]
    refine ⟨(hflow.session_of (s := { t.session with
      engine, pipelines := #[⟨{ d with pending := none, countdown := none }, []⟩] }) rfl).mark ?_ hmark, h.change, h.active,
      _, rfl, ⟨hdelay, hexpired, Or.inl ⟨rfl, rfl, ?_⟩⟩, ?_⟩
    · intro w hw
      rw [hready] at hw
      simp only [List.nil_append, List.mem_singleton] at hw
      simp [hw, h.flowing.workers_size]
    · rintro - e' he'
      rw [List.getLast?_concat] at he'
      obtain rfl := Option.some.inj he'
      exact Nat.le_of_eq hnow
    · exact (hruns' rfl).symm
  refine ⟨hplay, ?_, ?_⟩
  · have hquiet : (t.act (·.fire 0)).duePipelines = [] := by
      rw [hact, duePipelines_eq (d := { d with pending := none, countdown := none }) rfl]
      simp [Debounce.isDue]
    rw [Timeline.load, Timeline.load, hquiet, hdue, Timeline.pressing, Timeline.pressing, hready, hact]
    simp only [List.length_append, List.length_map, List.length_range, List.length_nil, List.length_cons, Nat.zero_add,
      Nat.zero_mul, Nat.one_mul]
    omega
  · have hcounting : t.countdowns.length = 1 := by simp [Timeline.countdowns, hd, hcd]
    have hquiet : (t.act (·.fire 0)).countdowns.length = 0 := by
      rw [hact]
      simp [Timeline.countdowns]
    have hattempts : (t.act (·.fire 0)).attempts.length = t.attempts.length := by
      rw [hact, List.length_map]
    rw [hplay.work_eq, h.work_eq, hcounting, hquiet, hattempts, hruns' (hfar (by simp)), List.length_append,
      hpolled]
    simp only [List.length_cons, List.length_nil]
    omega

/-- A run that has come to its end. -/
theorem endDue (h : Playing b delay first edits stop runs polled t) {a : Attempt World} (ha : a ∈ t.attempts) :
    Playing b delay first edits stop runs polled (t.endDue a) ∧ (t.endDue a).now = t.now ∧
      (t.endDue a).load ≤ t.load ∧ (t.endDue a).work ≤ t.work ∧
      ((∃ x ∈ a.course.ending, x.1 ≤ t.now) → (t.endDue a).load < t.load ∧ (t.endDue a).work < t.work) := by
  obtain ⟨e, world, attempts, log, heq, hf, hle, hlt⟩ := h.flowing.endDue ha
  have hplay : Playing b delay first edits stop runs polled (t.endDue a) := by
    refine h.of_flowing hf ?_ ?_ ?_ ?_ <;> rw [heq]
  have hready : (t.endDue a).ready = t.ready := by rw [heq]
  have hattempts : (t.endDue a).attempts = attempts := by rw [heq]
  have hdue : (t.endDue a).duePipelines = t.duePipelines := by rw [heq]; rfl
  have hcountdowns : (t.endDue a).countdowns = t.countdowns := by rw [heq]; rfl
  have hpressing : (t.endDue a).pressing = 2 * t.ready.length + attempts.length := by
    rw [Timeline.pressing, hready, hattempts]
  rw [hplay.work_eq, h.work_eq, hattempts, hcountdowns]
  refine ⟨hplay, by rw [heq], Timeline.load_le hdue ?_, by omega, fun hx => ⟨Timeline.load_lt hdue ?_, ?_⟩⟩
  · rw [hpressing, Timeline.pressing]
    omega
  · rw [hpressing, Timeline.pressing]
    exact Nat.add_lt_add_left (hlt hx) _
  · have := hlt hx
    omega

/-- A worker that is ready starts its run, or has nothing to do. -/
theorem poll (h : Playing b delay first edits stop runs polled t) {w : Nat} {ready : List Nat}
    (hready : t.ready = w :: ready) : ∃ polled', let u := ({ t with ready } : Timeline World).poll w
      Playing b delay first edits stop runs polled' u ∧ u.now = t.now ∧ u.load < t.load ∧ u.work ≤ t.work := by
  by_cases hw : w = polled ∧ polled < runs.length
  · obtain ⟨rfl, hlt⟩ := hw
    obtain ⟨k, told, hpoll, hf⟩ := h.flowing.poll_fresh (List.getElem?_eq_getElem hlt) ready
    have hplay := h.of_flowing hf rfl rfl rfl rfl
    obtain ⟨hend, hnow, hload, hwork, -⟩ := hplay.endDue (a := Flowing.attemptOf b w runs[w] told) (by simp)
    refine ⟨w + 1, ?_⟩
    intro u
    rw [show u = _ from hpoll]
    refine ⟨hend, hnow, Nat.lt_of_le_of_lt hload (Timeline.load_lt rfl ?_), Nat.le_trans hwork ?_⟩
    · simp only [Timeline.pressing, hready, List.length_append, List.length_cons, List.length_nil]
      omega
    · rw [hplay.work_eq, h.work_eq, List.length_append, List.length_singleton]
      show _ + 2 * t.countdowns.length ≤ _
      omega
  · have hmem : polled < runs.length → polled ∈ ready := fun hlt => by
      have := (h.flowing.fresh (List.getElem?_eq_getElem hlt) (Nat.le_refl _)).2.1
      rw [hready] at this
      exact (List.mem_cons.mp this).resolve_left fun hp => hw ⟨hp.symm, hlt⟩
    have hf := h.flowing.ready_of hmem
    have hpoll := hf.poll_idle (w := w) (by have := h.flowing.polled_le; omega)
    have hplay := h.of_flowing hf rfl rfl rfl rfl
    refine ⟨polled, ?_⟩
    intro u
    rw [show u = _ from hpoll]
    refine ⟨hplay, rfl, Timeline.load_lt rfl ?_, Nat.le_refl _⟩
    simp only [Timeline.pressing, hready, List.length_cons]
    omega

/-- Whatever is done at once is accounted for: time stands still, and there is less to do. -/
theorem step (h : Playing b delay first edits stop runs polled t) {horizon : Option Nat}
    (hfar : edits ≠ [] → horizon.all (t.now < ·) = true) (hapart : stop = none → b.Apart (runsOf delay first horizon edits))
    (hs : t.stepNow = some t') : ∃ runs' polled', Playing b delay first edits stop runs' polled' t' ∧
      t'.now = t.now ∧ t'.load < t.load ∧ t'.work ≤ t.work ∧ (t.ready = [] → t'.work < t.work) := by
  unfold Timeline.stepNow at hs
  split at hs
  · rename_i w ready hready
    obtain rfl := Option.some.inj hs
    obtain ⟨polled', hplay, hnow, hload, hwork⟩ := h.poll hready
    exact ⟨runs, polled', hplay, hnow, hload, hwork, by simp [hready]⟩
  · rename_i hready
    split at hs
    · rename_i a rest hdue
      have hmem : a ∈ t.dueAttempts := by rw [hdue]; exact List.mem_cons_self ..
      obtain ⟨ha, hover⟩ := List.mem_filter.mp hmem
      obtain ⟨-, -, r, -, hcourse, -⟩ := h.flowing.flying ha
      have hover : ∃ x ∈ a.course.ending, x.1 ≤ t.now := by
        rw [hcourse] at hover ⊢
        exact ⟨_, rfl, by simpa using hover⟩
      have happly := Timeline.applyEffects_of_mem h.flowing.once ha (by rw [hcourse])
      simp only [happly, Timeline.find?_attempt h.flowing.once ha] at hs
      obtain rfl := Option.some.inj hs
      obtain ⟨hplay, hnow, -, hwork, hlt⟩ := h.endDue ha
      exact ⟨runs, polled, hplay, hnow, (hlt hover).1, hwork, fun _ => (hlt hover).2⟩
    · split at hs
      · rename_i p ps hdue
        obtain rfl := Option.some.inj hs
        obtain ⟨hplay, hload, hwork⟩ := h.fire hready hdue hfar hapart
        exact ⟨_, polled, hplay, rfl, hload, Nat.le_of_lt hwork, fun _ => hwork⟩
      · cases hs

/-- Time goes on to the next moment at which something is due. -/
theorem wait (h : Playing b delay first edits stop runs polled t) (hs : t.stepNow = none) {m : Nat} (hm : t.now ≤ m)
    (hnext : ∀ x ∈ t.moments, m ≤ x) : Playing b delay first edits stop runs polled { t with now := m } := by
  obtain ⟨d, hd, ⟨hdelay, hexpired, hcount⟩, hruns⟩ := h.debounce
  refine ⟨h.flowing.wait (Timeline.stepNow_eq_none_iff.mp hs).1 hm hnext, h.change, h.active, d, hd,
    ⟨hdelay, hexpired, ?_⟩, hruns⟩
  rcases hcount with ⟨hp, hc, hle⟩ | ⟨hstop, e, he, hp, hc, -⟩
  · exact Or.inl ⟨hp, hc, fun hn e he => Nat.le_trans (hle hn e he) hm⟩
  · refine Or.inr ⟨hstop, e, he, hp, hc, hnext _ (List.mem_append_right _ ?_)⟩
    simp [hd, hc]

/-! ## Stretches of time -/

/-- A session at a moment before the next event, which comes at `horizon` if there is one. -/
def Before (b : Stubborn) (delay : Nat) (first : String) (edits : List (Nat × String)) (stop horizon : Option Nat)
    (t : Timeline World) : Prop :=
  (edits ≠ [] → horizon.all (t.now < ·) = true) ∧ ∃ runs polled, Playing b delay first edits stop runs polled t

variable {horizon : Option Nat}

theorem settle (hapart : stop = none → b.Apart (runsOf delay first horizon edits))
    (h : Before b delay first edits stop horizon t) :
    Before b delay first edits stop horizon t.settle ∧ t.settle.stepNow = none ∧ t.settle.now = t.now ∧
      t.settle.work ≤ t.work ∧ (t.ready = [] → t.stepNow ≠ none → t.settle.work < t.work) := by
  have hstep : ∀ {c : Nat} {u u' : Timeline World},
      (Before b delay first edits stop horizon u ∧ u.now = t.now ∧ u.work ≤ c) → u.stepNow = some u' →
      (Before b delay first edits stop horizon u' ∧ u'.now = t.now ∧ u'.work ≤ c) ∧ u'.load < u.load := by
    rintro c u u' ⟨⟨hfar, runs, polled, hu⟩, hnow, hwork⟩ hs
    obtain ⟨runs', polled', hu', hnow', hload, hwork', -⟩ := hu.step hfar hapart hs
    exact ⟨⟨⟨hnow' ▸ hfar, runs', polled', hu'⟩, hnow'.trans hnow, Nat.le_trans hwork' hwork⟩, hload⟩
  obtain ⟨hfar, runs, polled, ht⟩ := id h
  have hbound := ht.load_le_bound
  have hsettle : t.settle = t.settleWithin t.bound := by
    rw [Timeline.settle, Timeline.drain_of_rest ht.flowing.rest]
  rw [hsettle]
  obtain ⟨⟨hB, hnow, hwork⟩, hnone⟩ := Timeline.settleWithin_spec hstep ⟨h, rfl, Nat.le_refl t.work⟩ hbound
  refine ⟨hB, hnone, hnow, hwork, fun hready hsome => ?_⟩
  obtain ⟨t', hs⟩ := Option.ne_none_iff_exists'.mp hsome
  obtain ⟨runs', polled', ht', hnow', hload, -, hlt⟩ := ht.step hfar hapart hs
  obtain ⟨n, hn⟩ : ∃ n, t.bound = n + 1 := ⟨t.bound - 1, by omega⟩
  have hrest := Timeline.settleWithin_spec (n := n) hstep
    ⟨⟨hnow' ▸ hfar, runs', polled', ht'⟩, hnow', Nat.le_refl t'.work⟩ (by omega)
  rw [hn, Timeline.settleWithin, hs]
  exact Nat.lt_of_le_of_lt hrest.1.2.2 (hlt hready)

/-- The session at the moment of the next event, or at any moment before it, with all done that was due earlier. -/
theorem advance (hapart : stop = none → b.Apart (runsOf delay first horizon edits))
    (h : Before b delay first edits stop horizon t) {target : Nat} (htarget : horizon.all (target ≤ ·) = true) (hle : t.now ≤ target) :
    ∃ runs u, (∃ polled, Playing b delay first edits stop runs polled u) ∧ u.stepNow = none ∧ u.now ≤ target ∧
      (edits ≠ [] → horizon.all (u.now < ·) = true) ∧ (∀ x ∈ u.moments, target ≤ x) ∧
      t.advance (target - t.now) = { u with now := target } := by
  have henduring : Timeline.Enduring (@Before World b delay first edits stop horizon) Timeline.work target := by
    refine ⟨fun hu => ?_, fun hu => ?_, fun hu hs hm hlt hnext => ?_⟩
    · obtain ⟨h1, h2, h3, h4, -⟩ := settle hapart hu
      exact ⟨h1, h2, h3, h4⟩
    · exact (settle hapart hu).2.2.2.2
    · obtain ⟨-, runs, polled, hplay⟩ := hu
      refine ⟨⟨fun _ => ?_, runs, polled, hplay.wait hs hm hnext⟩, rfl⟩
      cases horizon with
      | none => rfl
      | some T =>
        simp only [Option.all_some, decide_eq_true_eq] at htarget ⊢
        exact Nat.lt_of_lt_of_le hlt htarget
  have hfuel : t.settle.work < 4 * (t.ready.length + t.attempts.length + t.session.pipelines.size + 2) +
      (t.attempts.flatMap fun a => a.course.effects).length := by
    have hwork := (settle hapart h).2.2.2.1
    obtain ⟨-, runs, polled, ht⟩ := h
    have := ht.length_countdowns_le
    have := ht.flowing.length_le
    rw [ht.work_eq] at hwork
    omega
  obtain ⟨u, ⟨hfar, runs, polled, hu⟩, hs, hnow, hnext, heq⟩ := henduring.advanceWithin h hle hfuel
  refine ⟨runs, u, ⟨polled, hu⟩, hs, hnow, hfar, hnext, ?_⟩
  rw [Timeline.advance, Nat.add_sub_cancel' hle]
  exact heq

/-! ## Edits and the stop -/

/-- When time goes on to `target` the last edit stays undisturbed if it has left its quiet period. -/
theorem runs_eq (h : Playing b delay first edits none runs polled t) {target : Nat}
    (hlt : edits ≠ [] → t.now < target) (hnext : ∀ x ∈ t.moments, target ≤ x) :
    runs = runsOf delay first (some target) edits := by
  obtain ⟨d, hd, ⟨hdelay, hexpired, hcount⟩, hruns⟩ := h.debounce
  rw [hruns, runsOf, runsOf]
  refine congrArg _ (congrArg _ (undisturbed_congr fun e he => ?_))
  rcases hcount with ⟨hp, -, hover⟩ | ⟨-, e', he', hp, hc, -⟩
  · have := hover rfl e he
    have := hlt (by rintro rfl; cases he)
    simp only [Debounce.isPending, hp, Option.isSome_none, Bool.false_eq_true, if_false, Option.all_none, Option.all_some,
      Bool.true_eq, decide_eq_true_eq]
    omega
  · rw [he'] at he
    obtain rfl := Option.some.inj he
    have : target ≤ e'.1 + delay := hnext _ (List.mem_append_right _ (by simp [hd, hc]))
    simp only [Debounce.isPending, hp, Option.isSome_some, if_true, Option.all_some, Nat.not_lt_zero, decide_false,
      Bool.false_eq, decide_eq_false_iff_not]
    omega

/-- An edit begins a countdown. -/
theorem editing (h : Playing b delay first edits none runs polled t) {target : Nat} (hs : t.stepNow = none)
    (hle : t.now ≤ target) (hlt : edits ≠ [] → t.now < target) (hnext : ∀ x ∈ t.moments, target ≤ x) (text : String) :
    Playing b delay first (edits ++ [(target, text)]) none runs polled
      (({ t with now := target } : Timeline World).act fun s => (s.edit target text).getD s) := by
  have hw := h.wait hs hle hnext
  obtain ⟨d, hd, ⟨hdelay, hexpired, -⟩, -⟩ := h.debounce
  have hedit : (t.session.edit target text).getD t.session =
      { t.session with pipelines := #[⟨d.notify target text, []⟩] } := by
    simp [Session.edit, h.change, h.active, Session.modifyPipeline, hd, Array.modify, Array.modifyM]
  obtain ⟨woken, mark, -, hmark, hact⟩ :=
    ({ t with now := target } : Timeline World).act_eq fun s => (s.edit target text).getD s
  simp only [hedit, Nat.sub_self, List.range_zero, List.map_nil, List.append_nil] at hact
  rw [hact]
  refine ⟨(hw.flowing.session_of (s := { t.session with pipelines := #[⟨d.notify target text, []⟩] }) rfl).mark
    (fun w hw => List.mem_append_left _ hw) hmark, h.change, h.active, _, rfl, ⟨hdelay, hexpired, Or.inr
    ⟨rfl, (target, text), List.getLast?_concat, rfl, by simp [Debounce.notify, hdelay], Nat.le_add_right ..⟩⟩, ?_⟩
  rw [h.runs_eq hlt hnext]
  simp [runsOf, undisturbed_concat, Debounce.isPending, Debounce.notify]

/-- The stop forgets the edit that waits and shuts down the scheduler. -/
theorem closing (h : Playing b delay first edits none runs polled t) {target : Nat} (hs : t.stepNow = none)
    (hle : t.now ≤ target) (hlt : edits ≠ [] → t.now < target) (hnext : ∀ x ∈ t.moments, target ≤ x)
    (hne : ∀ r ∈ runs.getLast?, b.overAt r ≠ target) :
    Playing b delay first edits (some target) runs polled
      (({ t with now := target } : Timeline World).act Session.stop) := by
  have hw := h.wait hs hle hnext
  obtain ⟨d, hd, ⟨hdelay, hexpired, -⟩, -⟩ := h.debounce
  have hpolled := h.flowing.polled_of_ready (Timeline.stepNow_eq_none_iff.mp hs).1
  obtain ⟨e, he, hflow⟩ := hw.flowing.close hpolled hne
  have hstop : t.session.stop = { t.session with
      engine := e, pipelines := #[⟨d.cancel, []⟩], active := none, change := .none } := by
    simp [Session.stop, Session.beginStop, h.change, h.active, Session.proceed, Session.cancelCountdown,
      Session.closeScheduler, Session.openPipeline, Session.modifyPipeline, hd, Array.modify, Array.modifyM,
      show t.session.engine.shutDown 0 = some e from he]
  obtain ⟨woken, mark, -, hmark, hact⟩ := ({ t with now := target } : Timeline World).act_eq Session.stop
  have hsize : e.workers.size - t.session.engine.workers.size = 0 := by
    have : e.workers.size = _ := hflow.workers_size
    rw [this, h.flowing.workers_size, Nat.sub_self]
  simp only [hstop, hsize, List.range_zero, List.map_nil, List.append_nil] at hact
  rw [hact]
  refine ⟨(hflow.session_of (s := { t.session with
    engine := e, pipelines := #[⟨d.cancel, []⟩], active := none, change := .none }) rfl).mark
    (fun w hw => List.mem_append_left _ hw) hmark, rfl, rfl, _, rfl,
    ⟨hdelay, hexpired, Or.inl ⟨rfl, rfl, fun hstop => by cases hstop⟩⟩, ?_⟩
  rw [h.runs_eq hlt hnext]
  rfl

end Playing

end Retrace.Live
