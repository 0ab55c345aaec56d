import Retrace.Live.Session
import Retrace.Proofs.Live.Outcomes

/-!
# The steps of a session

What each step of a session can do. Seen from the engine a step of a session is a step of its own, or none, or the
first step of a new scheduler.
-/

namespace Retrace.Live

/-- The engine once a text, if there is one, has been handed to a scheduler, which may refuse it. -/
def Engine.handed (e : Engine) (p : Nat) : Option String → Engine
  | some text => (e.schedule p text).getD e
  | none => e

theorem Engine.handed_cases (e : Engine) (p : Nat) (text : Option String) :
    e.handed p text = e ∨ ∃ x, text = some x ∧ e.step (.schedule p x) = some (e.handed p text) := by
  cases text with
  | none => exact Or.inl rfl
  | some x =>
    cases h : e.schedule p x with
    | none => exact Or.inl (by simp [handed, h])
    | some e' => exact Or.inr ⟨x, rfl, by simp [handed, step, h]⟩

namespace Session

variable {s s' : Session}

/-- What a call goes on to do once the pipeline before is stopped. -/
def afterStop : Option String → Change
  | some text => .opening text
  | none => .none

/-- The session after it has got a new pipeline. -/
def opened (s : Session) (text : String) : Session :=
  { s with
    engine := s.engine.addScheduler.2.handed s.engine.schedulers.size (some text)
    pipelines := s.pipelines.push { debounce := { delay := s.delay } }
    active := some s.engine.schedulers.size
    change := .none }

theorem beginStop_some (h : s.beginStop = some s') : s.change = .none ∧
    ((∃ p, s.active = some p ∧ s' = { s with active := none, change := .cancelling p none }) ∨
      s.active = none ∧ s' = s) := by
  unfold beginStop at h
  split at h
  · rename_i p hc ha; exact ⟨hc, Or.inl ⟨p, ha, (Option.some.inj h).symm⟩⟩
  · rename_i hc ha; exact ⟨hc, Or.inr ⟨ha, (Option.some.inj h).symm⟩⟩
  · cases h

theorem beginStart_some {text : String} (h : s.beginStart text = some s') : s.change = .none ∧
    ((∃ p, s.active = some p ∧ s' = { s with active := none, change := .cancelling p (some text) }) ∨
      s.active = none ∧ s' = { s with change := .opening text }) := by
  unfold beginStart at h
  split at h
  · rename_i p hc ha; exact ⟨hc, Or.inl ⟨p, ha, (Option.some.inj h).symm⟩⟩
  · rename_i hc ha; exact ⟨hc, Or.inr ⟨ha, (Option.some.inj h).symm⟩⟩
  · cases h

theorem cancelCountdown_some (h : s.cancelCountdown = some s') : ∃ p restart, s.change = .cancelling p restart ∧
    s' = { s.modifyPipeline p (fun l => { l with debounce := l.debounce.cancel }) with change := .closing p restart } := by
  unfold cancelCountdown at h
  split at h
  · rename_i p restart hc; exact ⟨p, restart, hc, (Option.some.inj h).symm⟩
  · cases h

theorem closeScheduler_some (h : s.closeScheduler = some s') : ∃ p restart e, s.change = .closing p restart ∧
    s.engine.shutDown p = some e ∧ s' = { s with engine := e, change := afterStop restart } := by
  unfold closeScheduler at h
  split at h
  · rename_i p restart hc
    obtain ⟨e, he, rfl⟩ := Option.map_eq_some_iff.mp h
    cases restart <;> exact ⟨p, _, e, hc, he, rfl⟩
  · cases h

theorem openPipeline_some (h : s.openPipeline = some s') : ∃ text, s.change = .opening text ∧ s' = s.opened text := by
  unfold openPipeline at h
  split at h
  · rename_i text hc; exact ⟨text, hc, (Option.some.inj h).symm⟩
  · cases h

theorem edit_some {now : Nat} {text : String} (h : s.edit now text = some s') : s.change = .none ∧
    ((∃ p, s.active = some p ∧
        s' = s.modifyPipeline p fun l => { l with debounce := l.debounce.notify now text }) ∨
      s.active = none ∧ s' = s) := by
  unfold edit at h
  split at h
  · rename_i p hc ha; exact ⟨hc, Or.inl ⟨p, ha, (Option.some.inj h).symm⟩⟩
  · rename_i hc ha; exact ⟨hc, Or.inr ⟨ha, (Option.some.inj h).symm⟩⟩
  · cases h

theorem expire_some {now p : Nat} (h : s.expire now p = some s') :
    s' = s.modifyPipeline p fun l => { l with debounce := l.debounce.expire } := by
  unfold expire at h
  split at h
  · split at h
    · exact (Option.some.inj h).symm
    · cases h
  · cases h

theorem takeText_some {p : Nat} {number : UInt64} (h : s.takeText p number = some s') :
    ∃ l, s.pipelines[p]? = some l ∧ number ∈ l.debounce.expired ∧
      s' = { s with
        pipelines := s.pipelines.setIfInBounds p
          ⟨(l.debounce.take number).2, l.carried ++ (l.debounce.take number).1.toList⟩ } := by
  unfold takeText at h
  split at h
  · rename_i l hl
    split at h
    · rename_i hn; exact ⟨l, hl, hn, (Option.some.inj h).symm⟩
    · cases h
  · cases h

theorem handOn_some {p i : Nat} (h : s.handOn p i = some s') :
    ∃ l text, s.pipelines[p]? = some l ∧ l.carried[i]? = some text ∧
      s' = { s with
        engine := s.engine.handed p (some text)
        pipelines := s.pipelines.setIfInBounds p { l with carried := l.carried.eraseIdx i } } := by
  unfold handOn at h
  split at h
  · rename_i l hl
    split at h
    · rename_i text hc; exact ⟨l, text, hl, hc, (Option.some.inj h).symm⟩
    · cases h
  · cases h

theorem fire_of_pipeline {p : Nat} {l : Pipeline} (hl : s.pipelines[p]? = some l) :
    s.fire p = { s with
      engine := s.engine.handed p l.debounce.fire.1
      pipelines := s.pipelines.setIfInBounds p { l with debounce := l.debounce.fire.2 } } := by
  unfold fire
  rw [hl]
  cases h : l.debounce.fire.1 <;> simp [h, Engine.handed]

theorem fire_of_none {p : Nat} (hl : s.pipelines[p]? = none) : s.fire p = s := by
  simp [fire, hl]

theorem engineStep_some {b : Engine.Action} (h : s.engineStep b = some s') :
    b.isCalm = true ∧ ∃ e, s.engine.step b = some e ∧ s' = { s with engine := e } := by
  unfold engineStep at h
  split at h
  · cases h
  · cases h
  · rename_i hs hd
    obtain ⟨e, he, rfl⟩ := Option.map_eq_some_iff.mp h
    refine ⟨?_, e, he, rfl⟩
    cases b with
    | schedule i text => exact absurd rfl (hs i text)
    | shutDown i => exact absurd rfl (hd i)
    | _ => rfl

theorem opened_engine (s : Session) (text : String) :
    s.engine.addScheduler.2.step (.schedule s.engine.schedulers.size text) = some (s.opened text).engine := by
  have hn : s.engine.addScheduler.2.schedulers[s.engine.schedulers.size]? = some { clock := s.engine.registry.newClock.1 } :=
    Array.getElem?_push_size
  simp [opened, Engine.handed, Engine.step, Engine.schedule_of_open hn rfl]

/-- What a step of a session is for the engine. -/
theorem engine_cases {a : Action} (h : s.step a = some s') :
    (s'.engine = s.engine ∧ ∀ w o, a ≠ .engine (.finish w o)) ∨
    (∃ b, s.engine.step b = some s'.engine ∧ ∀ w o, b = .finish w o ↔ a = .engine (.finish w o)) ∨
    ∃ text, s.change = .opening text ∧ a = .openPipeline ∧
      s.engine.addScheduler.2.step (.schedule s.engine.schedulers.size text) = some s'.engine := by
  have hhanded : ∀ {p : Nat} {text : Option String}, s'.engine = s.engine.handed p text →
      (s'.engine = s.engine ∨ ∃ x, s.engine.step (.schedule p x) = some s'.engine) := by
    intro p text he
    rw [he]
    rcases s.engine.handed_cases p text with h | ⟨x, -, h⟩
    · exact Or.inl h
    · exact Or.inr ⟨x, h⟩
  cases a with
  | beginStart text =>
    obtain ⟨-, ⟨p, -, rfl⟩ | ⟨-, rfl⟩⟩ := beginStart_some h <;> exact Or.inl ⟨rfl, nofun⟩
  | beginStop =>
    obtain ⟨-, ⟨p, -, rfl⟩ | ⟨-, rfl⟩⟩ := beginStop_some h <;> exact Or.inl ⟨rfl, nofun⟩
  | cancelCountdown => obtain ⟨p, r, -, rfl⟩ := cancelCountdown_some h; exact Or.inl ⟨rfl, nofun⟩
  | closeScheduler =>
    obtain ⟨p, r, e, -, he, rfl⟩ := closeScheduler_some h
    exact Or.inr (Or.inl ⟨.shutDown p, he, by simp⟩)
  | openPipeline =>
    obtain ⟨text, hc, rfl⟩ := openPipeline_some h
    exact Or.inr (Or.inr ⟨text, hc, rfl, s.opened_engine text⟩)
  | edit now text => obtain ⟨-, ⟨p, -, rfl⟩ | ⟨-, rfl⟩⟩ := edit_some h <;> exact Or.inl ⟨rfl, nofun⟩
  | expire now p => obtain rfl := expire_some h; exact Or.inl ⟨rfl, nofun⟩
  | takeText p number => obtain ⟨l, -, -, rfl⟩ := takeText_some h; exact Or.inl ⟨rfl, nofun⟩
  | handOn p i =>
    obtain ⟨l, text, -, -, rfl⟩ := handOn_some h
    rcases @hhanded p (some text) rfl with he | ⟨x, he⟩
    · exact Or.inl ⟨he, nofun⟩
    · exact Or.inr (Or.inl ⟨_, he, by simp⟩)
  | fire p =>
    obtain rfl : s.fire p = s' := Option.some.inj h
    cases hl : s.pipelines[p]? with
    | none => exact Or.inl ⟨by rw [fire_of_none hl], nofun⟩
    | some l =>
      rcases hhanded (by rw [fire_of_pipeline hl]) with he | ⟨x, he⟩
      · exact Or.inl ⟨he, nofun⟩
      · exact Or.inr (Or.inl ⟨_, he, by simp⟩)
  | engine b =>
    obtain ⟨-, e, he, rfl⟩ := engineStep_some h
    exact Or.inr (Or.inl ⟨b, he, by simp⟩)

end Session

end Retrace.Live
