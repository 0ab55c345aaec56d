import Retrace.Live.Engine
import Retrace.Proofs.Live.Tokens
import Retrace.Proofs.Tables

/-!
# What the steps of an engine do

Starting a run and shutting a scheduler down are the only steps that mint or cancel tokens. Every other step is calm:
it leaves the tokens, the newest runs and all that a worker was started with as they are.
-/

namespace Retrace.Live

/-- What a worker was started with. -/
def Worker.origin (k : Worker) : Nat × Token × String := (k.scheduler, k.token, k.text)

/-- What only a new run or a shutdown changes about a scheduler. -/
def Scheduler.front (s : Scheduler) : Clock × Option Token × Bool := (s.clock, s.current, s.isShutDown)

/-- The scheduler once the worker of a run has told it that it is done. -/
def Scheduler.cleared (s : Scheduler) (g : Generation) : Scheduler :=
  if s.running = some g then { s with running := none } else s

@[simp] theorem Scheduler.front_cleared (s : Scheduler) (g : Generation) : (s.cleared g).front = s.front := by
  unfold cleared; split <;> rfl

namespace Engine

@[simp] theorem cancelled_size_cancelCurrent (r : Registry) (s : Scheduler) :
    (cancelCurrent r s).cancelled.size = r.cancelled.size := by
  unfold cancelCurrent; split <;> simp

@[simp] theorem counts_cancelCurrent (r : Registry) (s : Scheduler) : (cancelCurrent r s).counts = r.counts := by
  unfold cancelCurrent; split <;> rfl

@[simp] theorem count_cancelCurrent (r : Registry) (s : Scheduler) (c : Clock) :
    (cancelCurrent r s).count c = r.count c := by
  simp [Registry.count]

theorem isCancelled_cancelCurrent (r : Registry) (s : Scheduler) (u : Token) :
    (cancelCurrent r s).isCancelled u = true ↔
      r.isCancelled u = true ∨ ∃ t, s.current = some t ∧ t.id = u.id ∧ u.id < r.cancelled.size := by
  unfold cancelCurrent
  cases s.current with
  | none => simp
  | some t => simp [Registry.isCancelled_cancel]

/-! ## New runs and shutdowns -/

/-- The token of the run that a scheduler would start now. -/
def nextToken (e : Engine) (s : Scheduler) : Token := ((cancelCurrent e.registry s).mint s.clock).1

@[simp] theorem nextToken_id (e : Engine) (s : Scheduler) : (e.nextToken s).id = e.registry.cancelled.size := by
  simp [nextToken]

@[simp] theorem nextToken_generation (e : Engine) (s : Scheduler) :
    (e.nextToken s).generation = e.registry.count s.clock + 1 := by
  simp [nextToken]

/-- The engine after a scheduler has started a run. -/
def started (e : Engine) (i : Nat) (s : Scheduler) (text : String) : Engine :=
  { e with
    registry := ((cancelCurrent e.registry s).mint s.clock).2
    schedulers := e.schedulers.setIfInBounds i
      { s with current := some (e.nextToken s), running := some (e.nextToken s).generation }
    workers := e.workers.push ⟨i, e.nextToken s, text, .running⟩ }

theorem schedule_of_open {e : Engine} {i : Nat} {s : Scheduler} (hs : e.schedulers[i]? = some s)
    (ho : s.isShutDown = false) (text : String) : e.schedule i text = some (e.started i s text) := by
  simp [schedule, hs, ho, started, nextToken]

theorem schedule_of_shutDown {e : Engine} {i : Nat} {s : Scheduler} (hs : e.schedulers[i]? = some s)
    (hd : s.isShutDown = true) (text : String) : e.schedule i text = none := by
  simp [schedule, hs, hd]

theorem schedule_some {e e' : Engine} {i : Nat} {text : String} (h : e.schedule i text = some e') :
    ∃ s, e.schedulers[i]? = some s ∧ s.isShutDown = false ∧ e' = e.started i s text := by
  cases hs : e.schedulers[i]? with
  | none => simp [schedule, hs] at h
  | some s =>
    cases hd : s.isShutDown with
    | true => rw [schedule_of_shutDown hs hd] at h; cases h
    | false => rw [schedule_of_open hs hd] at h; exact ⟨s, rfl, hd, (Option.some.inj h).symm⟩

theorem isCancelled_started (e : Engine) (i : Nat) (s : Scheduler) (text : String) (u : Token) :
    (e.started i s text).registry.isCancelled u = true ↔
      e.registry.isCancelled u = true ∨
        ∃ t, s.current = some t ∧ t.id = u.id ∧ u.id < e.registry.cancelled.size := by
  simp [started, Registry.isCancelled_mint, isCancelled_cancelCurrent]

/-- The engine after a scheduler has been shut down. -/
def closed (e : Engine) (i : Nat) (s : Scheduler) : Engine :=
  { e with
    registry := cancelCurrent e.registry s
    schedulers := e.schedulers.setIfInBounds i { s with current := none, isShutDown := true } }

/-- A shutdown that has something to cancel waits for the gate; a second one does nothing. -/
theorem shutDown_some {e e' : Engine} {i : Nat} (h : e.shutDown i = some e') :
    ∃ s, e.schedulers[i]? = some s ∧ (s.isShutDown = true ∧ e' = e ∨
      s.isShutDown = false ∧ (s.current.isSome = true → e.display.gateFree = true) ∧ e' = e.closed i s) := by
  unfold shutDown at h
  split at h
  · cases h
  · rename_i s hs
    refine ⟨s, hs, ?_⟩
    split at h
    · rename_i hd; exact Or.inl ⟨hd, (Option.some.inj h).symm⟩
    · rename_i hd
      split at h
      · cases h
      · rename_i hg
        refine Or.inr ⟨by simpa using hd, fun hc => ?_, (Option.some.inj h).symm⟩
        simpa [hc] using hg

/-! ## Calm steps -/

theorem worker_of_origin {e e' : Engine} (h : e'.workers.map Worker.origin = e.workers.map Worker.origin) {w : Nat}
    {k' : Worker} (hk : e'.workers[w]? = some k') : ∃ k, e.workers[w]? = some k ∧ k.origin = k'.origin := by
  have hm : (e.workers.map Worker.origin)[w]? = some k'.origin := by
    rw [← h, Array.getElem?_map, hk, Option.map_some]
  rw [Array.getElem?_map] at hm
  exact Option.map_eq_some_iff.mp hm

/-- A step that neither mints nor cancels a token. -/
structure Calm (e e' : Engine) : Prop where
  registry : e'.registry = e.registry
  schedulers : e'.schedulers.map Scheduler.front = e.schedulers.map Scheduler.front
  workers : e'.workers.map Worker.origin = e.workers.map Worker.origin

theorem Calm.setStage {e : Engine} {w : Nat} {k : Worker} (hk : e.workers[w]? = some k) (g : Stage) :
    Calm e (e.setStage w k g) :=
  ⟨rfl, rfl, map_setIfInBounds_same _ hk rfl⟩

/-- What the publisher makes of the outcome of a run. -/
def verdict (r : Registry) (t : Token) (o : RunOutcome) : Stage :=
  match Display.approve r t o with
  | some text => .approved text
  | none => .published

theorem finish_some {e e' : Engine} {w : Nat} {o : RunOutcome} (h : e.finish w o = some e') :
    ∃ k, e.workers[w]? = some k ∧ k.stage = .running ∧ e' = e.setStage w k (.finished o) := by
  unfold finish at h
  split at h
  · rename_i k hk
    split at h
    · rename_i hg; exact ⟨k, hk, hg, (Option.some.inj h).symm⟩
    · cases h
  · cases h

theorem check_some {e e' : Engine} {w : Nat} (h : e.check w = some e') :
    ∃ k o, e.workers[w]? = some k ∧ k.stage = .finished o ∧
      e' = e.setStage w k (verdict e.registry k.token o) := by
  unfold check at h
  split at h
  · rename_i k hk
    split at h
    · rename_i o hg
      refine ⟨k, o, hk, hg, ?_⟩
      unfold verdict
      cases ha : Display.approve e.registry k.token o with
      | some text =>
        rw [ha] at h
        exact (Option.some.inj h).symm
      | none =>
        rw [ha] at h
        exact (Option.some.inj h).symm
    · cases h
  · cases h

theorem send_some {e e' : Engine} {w : Nat} (h : e.send w = some e') :
    ∃ k text, e.workers[w]? = some k ∧ k.stage = .approved text ∧
      e' = { e.setStage w k .published with display := (e.display.send (.publish k.token text)).2 } := by
  unfold send at h
  split at h
  · rename_i k hk
    split at h
    · rename_i text hg; exact ⟨k, text, hk, hg, (Option.some.inj h).symm⟩
    · cases h
  · cases h

/-- The engine after a worker has told its scheduler that it is done. -/
def reported (e : Engine) (w : Nat) (k : Worker) (s : Scheduler) : Engine :=
  { e.setStage w k .done with
    schedulers := e.schedulers.setIfInBounds k.scheduler (s.cleared k.token.generation) }

theorem Calm.reported {e : Engine} {w : Nat} {k : Worker} {s : Scheduler} (hk : e.workers[w]? = some k)
    (hs : e.schedulers[k.scheduler]? = some s) : Calm e (e.reported w k s) :=
  ⟨rfl, map_setIfInBounds_same _ hs (s.front_cleared _), map_setIfInBounds_same _ hk rfl⟩

theorem clear_some {e e' : Engine} {w : Nat} (h : e.clear w = some e') :
    ∃ k s, e.workers[w]? = some k ∧ k.stage = .published ∧ e.schedulers[k.scheduler]? = some s ∧
      e' = e.reported w k s := by
  unfold clear at h
  split at h
  · rename_i k hk
    split at h
    · rename_i hg
      split at h
      · rename_i s hs; exact ⟨k, s, hk, hg, hs, (Option.some.inj h).symm⟩
      · cases h
    · cases h
  · cases h

theorem take_some {e e' : Engine} (h : e.take = some e') :
    ∃ d, e.display.take e.registry = some d ∧ e' = { e with display := d } := by
  obtain ⟨d, hd, he⟩ := Option.map_eq_some_iff.mp h
  exact ⟨d, hd, he.symm⟩

theorem put_some {e e' : Engine} (h : e.put = some e') :
    ∃ d, e.display.put = some d ∧ e' = { e with display := d } := by
  obtain ⟨d, hd, he⟩ := Option.map_eq_some_iff.mp h
  exact ⟨d, hd, he.symm⟩

theorem flush_some {e e' : Engine} {c : Nat} (h : e.flush c = some e') :
    c ∉ e.display.acknowledged ∧ .flush c ∉ e.display.queue ∧
      e' = { e with display := (e.display.send (.flush c)).2 } := by
  unfold flush at h
  split at h
  · cases h
  · rename_i hc
    simp only [not_or] at hc
    exact ⟨hc.1, hc.2, (Option.some.inj h).symm⟩

/-- Steps that a worker or the display makes, and the question of a client. -/
def Action.isCalm : Action → Bool
  | .schedule .. | .shutDown _ => false
  | _ => true

theorem step_calm {e e' : Engine} {a : Action} (ha : a.isCalm = true) (h : e.step a = some e') : Calm e e' := by
  cases a with
  | schedule | shutDown => cases ha
  | finish w o => obtain ⟨k, hk, -, rfl⟩ := finish_some h; exact .setStage hk _
  | check w => obtain ⟨k, o, hk, -, rfl⟩ := check_some h; exact .setStage hk _
  | send w =>
    obtain ⟨k, text, hk, -, rfl⟩ := send_some h
    exact ⟨rfl, rfl, map_setIfInBounds_same _ hk rfl⟩
  | clear w =>
    obtain ⟨k, s, hk, -, hs, rfl⟩ := clear_some h
    exact .reported hk hs
  | take => obtain ⟨d, -, rfl⟩ := take_some h; exact ⟨rfl, rfl, rfl⟩
  | put => obtain ⟨d, -, rfl⟩ := put_some h; exact ⟨rfl, rfl, rfl⟩
  | flush c => obtain ⟨-, -, rfl⟩ := flush_some h; exact ⟨rfl, rfl, rfl⟩

namespace Calm

variable {e e' : Engine} (h : Calm e e')
include h

theorem workers_size : e'.workers.size = e.workers.size := by
  simpa using congrArg Array.size h.workers

theorem schedulers_size : e'.schedulers.size = e.schedulers.size := by
  simpa using congrArg Array.size h.schedulers

theorem symm : Calm e' e := ⟨h.registry.symm, h.schedulers.symm, h.workers.symm⟩

theorem worker {w : Nat} {k' : Worker} (hk : e'.workers[w]? = some k') :
    ∃ k, e.workers[w]? = some k ∧ k.scheduler = k'.scheduler ∧ k.token = k'.token ∧ k.text = k'.text := by
  obtain ⟨k, hk, ho⟩ := worker_of_origin h.workers hk
  simp only [Worker.origin, Prod.mk.injEq] at ho
  exact ⟨k, hk, ho⟩

theorem scheduler {i : Nat} {s' : Scheduler} (hs : e'.schedulers[i]? = some s') :
    ∃ s, e.schedulers[i]? = some s ∧ s.clock = s'.clock ∧ s.current = s'.current ∧ s.isShutDown = s'.isShutDown := by
  have hm : (e.schedulers.map Scheduler.front)[i]? = some s'.front := by
    rw [← h.schedulers, Array.getElem?_map, hs, Option.map_some]
  rw [Array.getElem?_map] at hm
  obtain ⟨s, hs, hf⟩ := Option.map_eq_some_iff.mp hm
  simp only [Scheduler.front, Prod.mk.injEq] at hf
  exact ⟨s, hs, hf⟩

end Calm

end Engine

end Retrace.Live
