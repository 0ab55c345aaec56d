import Retrace.Proofs.Live.Newest

/-!
# Generations and the running flag

A clock counts the runs of its scheduler, so that while there are fewer than 2^64 of them their generations rise. That
is why a worker that reports late is never taken for the newest one: the flag of a scheduler says exactly whether the
worker of its newest run is at work.
-/

namespace Retrace.Live.Engine

/-- How many runs a scheduler has started. -/
def runs (e : Engine) (i : Nat) : Nat := e.workers.countP (·.scheduler == i)

/-- A worker has the newest run of its scheduler. -/
def IsNewest (e : Engine) (w : Nat) (k : Worker) : Prop :=
  e.workers[w]? = some k ∧ ∀ {v : Nat} {j : Worker}, e.workers[v]? = some j → j.scheduler = k.scheduler → v ≤ w

/-- What holds of clocks and generations after any steps. -/
structure Counted (e : Engine) : Prop where
  clocks : e.registry.counts.size = e.schedulers.size
  clock : ∀ {i : Nat} {s : Scheduler}, e.schedulers[i]? = some s → s.clock.id = i
  count : ∀ {i : Nat}, i < e.schedulers.size → e.registry.counts[i]? = some (UInt64.ofNat (e.runs i))
  bounded : ∀ {w : Nat} {k : Worker}, e.workers[w]? = some k → e.runs k.scheduler < UInt64.size →
    k.token.generation.toNat ≤ e.runs k.scheduler
  rising : ∀ {v w : Nat} {j k : Worker}, e.workers[v]? = some j → e.workers[w]? = some k →
    j.scheduler = k.scheduler → v < w → e.runs k.scheduler < UInt64.size →
    j.token.generation < k.token.generation

/-- The flag of a scheduler is up exactly while the worker of its newest run is at work. -/
structure Flagged (e : Engine) : Prop where
  running : ∀ {w : Nat} {k : Worker} {s : Scheduler}, e.IsNewest w k → e.schedulers[k.scheduler]? = some s →
    e.runs k.scheduler < UInt64.size → s.running = if k.stage = .done then none else some k.token.generation

theorem runs_eq_of_origin {e e' : Engine} (h : e'.workers.map Worker.origin = e.workers.map Worker.origin) (i : Nat) :
    e'.runs i = e.runs i := by
  have hc := congrArg (Array.countP fun o => o.1 == i) h
  rw [Array.countP_map, Array.countP_map] at hc
  exact hc

theorem runs_started (e : Engine) (i j : Nat) (s : Scheduler) (text : String) :
    (e.started i s text).runs j = e.runs j + if i = j then 1 else 0 := by
  simp only [runs, started, Array.countP_push, beq_iff_eq]

theorem runs_le_started (e : Engine) (i j : Nat) (s : Scheduler) (text : String) :
    e.runs j ≤ (e.started i s text).runs j := by
  rw [runs_started]; omega

theorem runs_le_size (e : Engine) (i : Nat) : e.runs i ≤ e.workers.size := Array.countP_le_size

theorem runs_eq_zero {e : Engine} {i : Nat} (h : ∀ {w : Nat} {k : Worker}, e.workers[w]? = some k → k.scheduler ≠ i) :
    e.runs i = 0 := by
  simp only [runs, Array.countP_eq_zero, beq_iff_eq]
  intro k hk
  obtain ⟨w, hw, rfl⟩ := Array.mem_iff_getElem.mp hk
  exact h (Array.getElem?_eq_getElem hw)

theorem Counted.count_clock {e : Engine} (h : e.Counted) {i : Nat} {s : Scheduler} (hs : e.schedulers[i]? = some s) :
    e.registry.count s.clock = UInt64.ofNat (e.runs i) := by
  simp [Registry.count, h.clock hs, h.count (getElem?_lt hs)]

theorem nextToken_toNat {e : Engine} (h : e.Counted) {i : Nat} {s : Scheduler} (hs : e.schedulers[i]? = some s)
    (hb : e.runs i + 1 < UInt64.size) : (e.nextToken s).generation.toNat = e.runs i + 1 := by
  have hsize : UInt64.size = 2 ^ 64 := rfl
  rw [nextToken_generation, h.count_clock hs, UInt64.toNat_add, UInt64.toNat_ofNat', UInt64.toNat_one]
  omega

namespace Counted

variable {e : Engine}

theorem empty : Counted {} where
  clocks := rfl
  clock h := by simp at h
  count h := by simp at h
  bounded h := by simp at h
  rising h := by simp at h

theorem calm (h : e.Counted) {e' : Engine} (c : Calm e e') : e'.Counted where
  clocks := by rw [c.registry, c.schedulers_size]; exact h.clocks
  clock hs' := by
    obtain ⟨s, hs, hc, -⟩ := c.scheduler hs'
    exact hc ▸ h.clock hs
  count hi := by
    rw [c.registry, runs_eq_of_origin c.workers]
    exact h.count (c.schedulers_size ▸ hi)
  bounded hk' hb := by
    obtain ⟨k, hk, hs, ht, -⟩ := c.worker hk'
    rw [runs_eq_of_origin c.workers, ← hs] at hb ⊢
    exact ht ▸ h.bounded hk hb
  rising hj' hk' hjk hvw hb := by
    obtain ⟨j, hj, hjs, hjt, -⟩ := c.worker hj'
    obtain ⟨k, hk, hks, hkt, -⟩ := c.worker hk'
    rw [runs_eq_of_origin c.workers, ← hks] at hb
    rw [← hjt, ← hkt]
    exact h.rising hj hk (by rw [hjs, hks, hjk]) hvw hb

theorem started (h : e.Counted) {i : Nat} {s : Scheduler} (hs : e.schedulers[i]? = some s) (text : String) :
    (e.started i s text).Counted where
  clocks := by simp [Engine.started, h.clocks]
  clock hu := by
    rcases getElem?_setIfInBounds_cases hu with ⟨rfl, rfl⟩ | ⟨-, hu⟩
    · have := h.clock hs
      exact this
    · exact h.clock hu
  count := by
    intro j hj
    have hj : j < e.schedulers.size := by simpa [Engine.started] using hj
    have hc := h.count_clock hs
    rw [runs_started]
    simp only [Engine.started, Registry.counts_mint, counts_cancelCurrent, count_cancelCurrent, h.clock hs, hc]
    by_cases hij : i = j
    · subst hij
      rw [Array.getElem?_setIfInBounds_self_of_lt (h.clocks ▸ hj), if_pos rfl, UInt64.ofNat_add]
      rfl
    · rw [Array.getElem?_setIfInBounds_ne hij, if_neg hij]
      exact h.count hj
  bounded := by
    intro w k hk hb
    rcases getElem?_push_cases hk with hk | ⟨-, rfl⟩
    · have hle := e.runs_le_started i k.scheduler s text
      exact Nat.le_trans (h.bounded hk (by omega)) hle
    · simp only [runs_started, if_true] at hb ⊢
      exact Nat.le_of_eq (nextToken_toNat h hs hb)
  rising := by
    intro v w j k hj hk hjk hvw hb
    rcases getElem?_push_cases hk with hk | ⟨rfl, rfl⟩
    · rcases getElem?_push_cases hj with hj | ⟨rfl, -⟩
      · have hle := e.runs_le_started i k.scheduler s text
        exact h.rising hj hk hjk hvw (by omega)
      · have := getElem?_lt hk
        omega
    · rcases getElem?_push_cases hj with hj | ⟨rfl, -⟩
      · simp only [runs_started, if_true] at hb hjk
        have hle := h.bounded hj (by rw [hjk]; omega)
        rw [UInt64.lt_iff_toNat_lt, nextToken_toNat h hs hb]
        rw [hjk] at hle
        omega
      · omega

theorem closed (h : e.Counted) {i : Nat} {s : Scheduler} (hs : e.schedulers[i]? = some s) :
    (e.closed i s).Counted where
  clocks := by simp [Engine.closed, h.clocks]
  clock hu := by
    rcases getElem?_setIfInBounds_cases hu with ⟨rfl, rfl⟩ | ⟨-, hu⟩
    · have := h.clock hs
      exact this
    · exact h.clock hu
  count hj := by
    rw [show (e.closed i s).runs _ = e.runs _ from rfl]
    simpa [Engine.closed] using h.count (by simpa [Engine.closed] using hj)
  bounded hk hb := h.bounded hk hb
  rising hj hk hjk hvw hb := h.rising hj hk hjk hvw hb

theorem schedule (h : e.Counted) {e' : Engine} {i : Nat} {text : String} (he : e.schedule i text = some e') :
    e'.Counted := by
  obtain ⟨s, hs, -, rfl⟩ := schedule_some he
  exact h.started hs text

theorem shutDown (h : e.Counted) {e' : Engine} {i : Nat} (he : e.shutDown i = some e') : e'.Counted := by
  obtain ⟨s, hs, ⟨-, rfl⟩ | ⟨-, -, rfl⟩⟩ := shutDown_some he
  · exact h
  · exact h.closed hs

theorem step (h : e.Counted) {a : Action} {e' : Engine} (he : e.step a = some e') : e'.Counted := by
  cases a with
  | schedule i text => exact h.schedule he
  | shutDown i => exact h.shutDown he
  | _ => exact h.calm (step_calm rfl he)

theorem addScheduler (h : e.Counted) (hs : e.Sound) : e.addScheduler.2.Counted where
  clocks := by simp [Engine.addScheduler, h.clocks]
  clock hu := by
    rcases getElem?_push_cases hu with hu | ⟨rfl, rfl⟩
    · exact h.clock hu
    · simp [h.clocks]
  count := by
    intro i hi
    simp only [Engine.addScheduler, Array.size_push] at hi
    simp only [Engine.addScheduler, Registry.newClock_snd_counts, Array.getElem?_push, h.clocks]
    split
    · rename_i hi
      subst hi
      have h0 : e.runs e.schedulers.size = 0 := runs_eq_zero fun hk => Nat.ne_of_lt (hs.owned hk)
      show some 0 = some (UInt64.ofNat (e.runs e.schedulers.size))
      rw [h0]
      rfl
    · exact h.count (by omega)
  bounded hk hb := h.bounded hk hb
  rising hj hk hjk hvw hb := h.rising hj hk hjk hvw hb

end Counted

theorem IsNewest.calm {e e' : Engine} {w : Nat} {k' : Worker} (h : e'.IsNewest w k') (c : Calm e e') :
    ∃ k, e.IsNewest w k ∧ k.scheduler = k'.scheduler ∧ k.token = k'.token := by
  obtain ⟨k, hk, hs, ht, -⟩ := c.worker h.1
  refine ⟨k, ⟨hk, fun hj hjs => ?_⟩, hs, ht⟩
  obtain ⟨j', hj', hs', -⟩ := c.symm.worker hj
  exact h.2 hj' (by rw [hs', hjs, hs])

namespace Flagged

variable {e : Engine}

theorem empty : Flagged {} := ⟨fun hn => by simp [IsNewest] at hn⟩

theorem calm (h : e.Flagged) {e' : Engine} (c : Calm e e')
    (hr : ∀ {i : Nat} {s' : Scheduler}, e'.schedulers[i]? = some s' →
      ∃ s, e.schedulers[i]? = some s ∧ s'.running = s.running)
    (hd : ∀ {w : Nat} {k k' : Worker}, e.workers[w]? = some k → e'.workers[w]? = some k' →
      (k'.stage = .done ↔ k.stage = .done)) : e'.Flagged := by
  constructor
  intro w k' s' hn hs' hb
  obtain ⟨k, hnew, hks, hkt⟩ := hn.calm c
  obtain ⟨s, hs, hrun⟩ := hr hs'
  rw [runs_eq_of_origin c.workers, ← hks] at hb
  rw [← hks] at hs
  simp only [hrun, h.running hnew hs hb, hkt, hd hnew.1 hn.1]

theorem setStage (h : e.Flagged) {w : Nat} {k : Worker} (hk : e.workers[w]? = some k) {g : Stage}
    (hg : k.stage ≠ .done) (hg' : g ≠ .done) : (e.setStage w k g).Flagged := by
  refine h.calm (.setStage hk g) (fun hs => ⟨_, hs, rfl⟩) ?_
  intro v j j' hj hj'
  rcases getElem?_setIfInBounds_cases hj' with ⟨rfl, rfl⟩ | ⟨-, hj'⟩
  · rw [hk, Option.some.injEq] at hj
    subst hj
    exact ⟨fun h => absurd h hg', fun h => absurd h hg⟩
  · rw [hj, Option.some.injEq] at hj'
    rw [hj']

theorem started (h : e.Flagged) {i : Nat} {s : Scheduler} (text : String) : (e.started i s text).Flagged := by
  constructor
  intro w k u hn hu hb
  rcases getElem?_push_cases hn.1 with hk | ⟨rfl, rfl⟩
  · have hlast : (e.started i s text).workers[e.workers.size]? = some ⟨i, e.nextToken s, text, .running⟩ :=
      Array.getElem?_push_size
    have hne : i ≠ k.scheduler := by
      intro hi
      have := hn.2 hlast hi
      have := getElem?_lt hk
      omega
    have hle := e.runs_le_started i k.scheduler s text
    refine h.running ⟨hk, fun hj hjs => hn.2 (getElem?_push_of_some hj _) hjs⟩ ?_ (by omega)
    simpa [Engine.started, Array.getElem?_setIfInBounds, hne] using hu
  · rcases getElem?_setIfInBounds_cases hu with ⟨-, rfl⟩ | ⟨hne, -⟩
    · rfl
    · exact absurd rfl hne

theorem closed (h : e.Flagged) {i : Nat} {s : Scheduler} (hs : e.schedulers[i]? = some s) :
    (e.closed i s).Flagged := by
  constructor
  intro w k u hn hu hb
  rcases getElem?_setIfInBounds_cases hu with ⟨rfl, rfl⟩ | ⟨-, hu⟩
  · have := h.running hn hs hb
    exact this
  · exact h.running hn hu hb

/-- A worker reports that it is done. Only the newest one of its scheduler has the generation of the flag. -/
theorem reported (h : e.Flagged) (hc : e.Counted) {w : Nat} {k : Worker} {s : Scheduler}
    (hk : e.workers[w]? = some k) (hg : k.stage ≠ .done) (hs : e.schedulers[k.scheduler]? = some s) :
    (e.reported w k s).Flagged := by
  constructor
  intro v j u hn hu hb
  obtain ⟨j₀, hnew, hjs, hjt⟩ := hn.calm (.reported hk hs)
  rw [runs_eq_of_origin (Calm.reported hk hs).workers, ← hjs] at hb
  rcases getElem?_setIfInBounds_cases hn.1 with ⟨rfl, rfl⟩ | ⟨hwv, hj⟩
  · -- the newest worker itself
    obtain rfl : k = j₀ := Option.some.inj (hk.symm.trans hnew.1)
    have hflag := h.running hnew hs hb
    rw [if_neg hg] at hflag
    rcases getElem?_setIfInBounds_cases hu with ⟨-, rfl⟩ | ⟨hne, -⟩
    · simp [Scheduler.cleared, hflag]
    · exact absurd rfl hne
  · obtain rfl : j = j₀ := Option.some.inj (hj.symm.trans hnew.1)
    rcases getElem?_setIfInBounds_cases hu with ⟨hsame, rfl⟩ | ⟨-, hu⟩
    · -- an older worker of the same scheduler, whose generation is another one
      have hflag := h.running hnew (hsame ▸ hs) hb
      have hlt : w < v := Nat.lt_of_le_of_ne (hnew.2 hk hsame) hwv
      have hgen := hc.rising hk hj hsame hlt hb
      have hne : s.running ≠ some k.token.generation := by
        rw [hflag]
        split
        · nofun
        · intro he
          rw [Option.some.inj he] at hgen
          exact absurd hgen (UInt64.lt_irrefl _)
      rw [Scheduler.cleared, if_neg hne, hflag]
    · exact h.running hnew hu hb

theorem schedule (h : e.Flagged) {e' : Engine} {i : Nat} {text : String} (he : e.schedule i text = some e') :
    e'.Flagged := by
  obtain ⟨s, -, -, rfl⟩ := schedule_some he
  exact h.started text

theorem shutDown (h : e.Flagged) {e' : Engine} {i : Nat} (he : e.shutDown i = some e') : e'.Flagged := by
  obtain ⟨s, hs, ⟨-, rfl⟩ | ⟨-, -, rfl⟩⟩ := shutDown_some he
  · exact h
  · exact h.closed hs

theorem step (h : e.Flagged) (hc : e.Counted) {a : Action} {e' : Engine} (he : e.step a = some e') :
    e'.Flagged := by
  cases a with
  | schedule i text => exact h.schedule he
  | shutDown i => exact h.shutDown he
  | finish w o =>
    obtain ⟨k, hk, hg, rfl⟩ := finish_some he
    exact h.setStage hk (by simp [hg]) nofun
  | check w =>
    obtain ⟨k, o, hk, hg, rfl⟩ := check_some he
    exact h.setStage hk (by simp [hg]) (by unfold verdict; split <;> nofun)
  | send w =>
    obtain ⟨k, text, hk, hg, rfl⟩ := send_some he
    exact ⟨(h.setStage hk (by simp [hg]) (g := .published) nofun).running⟩
  | clear w =>
    obtain ⟨k, s, hk, hg, hs, rfl⟩ := clear_some he
    exact h.reported hc hk (by simp [hg]) hs
  | take => obtain ⟨d, -, rfl⟩ := take_some he; exact ⟨h.running⟩
  | put => obtain ⟨d, -, rfl⟩ := put_some he; exact ⟨h.running⟩
  | flush c => obtain ⟨-, -, rfl⟩ := flush_some he; exact ⟨h.running⟩

theorem addScheduler (h : e.Flagged) (hs : e.Sound) : e.addScheduler.2.Flagged := by
  constructor
  intro w k u hn hu hb
  rcases getElem?_push_cases hu with hu | ⟨hi, -⟩
  · exact h.running hn hu hb
  · have := hs.owned hn.1
    omega

end Flagged

end Retrace.Live.Engine
