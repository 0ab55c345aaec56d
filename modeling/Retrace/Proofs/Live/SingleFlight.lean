import Retrace.Proofs.Live.Lifecycle

/-!
# One run at a time

Texts may reach the scheduler of any pipeline at any time, from a countdown that comes too late or from somebody who
kept the scheduler, and anybody may shut one down. Still no two tokens are active at once, and the one that is belongs
to the pipeline that has not been stopped.
-/

namespace Retrace.Live

namespace Engine

theorem Sound.activeToken_eq_some {e : Engine} (h : e.Sound) {p : Nat} {t : Token} : e.activeToken p = some t ↔
    ∃ (w : Nat) (k : Worker), e.workers[w]? = some k ∧ k.token = t ∧ k.scheduler = p ∧ e.registry.isActive t = true := by
  have hactive : e.activeToken p = some t ↔
      ∃ c, e.schedulers[p]? = some c ∧ c.current = some t ∧ e.registry.isActive t = true := by
    cases hc : e.schedulers[p]? with
    | none => simp [activeToken, hc]
    | some c => simp [activeToken, hc, Option.filter_eq_some_iff]
  rw [hactive]
  constructor
  · rintro ⟨c, hc, hcur, ha⟩
    obtain ⟨-, -, -, k, hk, ht, hs⟩ := h.newest hc hcur
    exact ⟨t.id, k, hk, ht, hs, ha⟩
  · rintro ⟨w, k, hk, rfl, rfl, ha⟩
    obtain ⟨c, hc, hcur⟩ := h.active hk (by simpa [Registry.isActive] using ha)
    exact ⟨c, hc, hcur, ha⟩

/-- The tokens of the runs are all tokens that were ever minted, in order. -/
theorem Sound.tokens_eq_range {e : Engine} (h : e.Sound) :
    e.workers.toList.map (·.token.id) = List.range e.registry.cancelled.size := by
  rw [h.tokens]
  apply List.ext_getElem?
  intro w
  rw [List.getElem?_map, Array.getElem?_toList]
  by_cases hw : w < e.workers.size
  · rw [Array.getElem?_eq_getElem hw, List.getElem?_range hw, Option.map_some,
      h.id (Array.getElem?_eq_getElem hw)]
  · rw [Array.getElem?_eq_none (Nat.le_of_not_lt hw), List.getElem?_eq_none (by simpa using hw), Option.map_none]

end Engine

namespace Session

/-- A step of a session, or a text for one of its schedulers or the shutdown of one, whoever asks for it. -/
inductive Move where
  | own (a : Action)
  | schedule (p : Nat) (text : String)
  | shutDown (p : Nat)
  deriving Repr

/-- The session after a move, when the move can be made. A scheduler may refuse a text. -/
def move (s : Session) : Move → Option Session
  | .own a => s.step a
  | .schedule p text => some { s with engine := (s.engine.schedule p text).getD s.engine }
  | .shutDown p => (s.engine.shutDown p).map fun engine => { s with engine }

/-- What holds of a session after any moves. -/
structure Manned (s : Session) : Prop where
  sound : s.engine.Sound
  counted : s.engine.Counted
  inactive : s.change ≠ .none → s.active = none
  door : ∀ {p : Nat}, s.engine.doors[p]? = some false → s.unstopped = some p

namespace Manned

variable {s s' : Session}

theorem start (delay : Nat) : Manned { delay } where
  sound := .empty
  counted := .empty
  inactive h := absurd rfl h
  door h := by simp [Engine.doors] at h

theorem all_shutDown (h : s.Manned) (hu : s.unstopped = none) {p : Nat} {c : Scheduler}
    (hc : s.engine.schedulers[p]? = some c) : c.isShutDown = true := by
  cases hd : c.isShutDown with
  | true => rfl
  | false =>
    have := h.door (show s.engine.doors[p]? = some false by simp [Engine.doors, hc, hd])
    rw [hu] at this
    cases this

theorem own (h : s.Manned) {a : Action} (hs : s.step a = some s') : s'.Manned := by
  obtain ⟨hi, hdoors⟩ := doors_cases h.inactive hs
  have hengine : s'.engine.Sound ∧ s'.engine.Counted := by
    rcases engine_cases hs with ⟨he, -⟩ | ⟨b, he, -⟩ | ⟨text, hc, -, he⟩
    · rw [he]
      exact ⟨h.sound, h.counted⟩
    · exact ⟨h.sound.step he, h.counted.step he⟩
    · have hu : s.unstopped = none := by simp [unstopped, hc]
      exact ⟨(h.sound.addScheduler (h.all_shutDown hu)).step he, (h.counted.addScheduler h.sound).step he⟩
  refine ⟨hengine.1, hengine.2, hi, fun {p} hp => ?_⟩
  rcases hdoors with ⟨hd, -, hu⟩ | ⟨q, hu, -, hd, -⟩ | ⟨hu, hu', hd, -⟩
  · rw [hu]
    exact h.door (hd ▸ hp)
  · -- the scheduler that was open is the one that has been shut down
    rw [hd, Array.getElem?_setIfInBounds] at hp
    split at hp
    · split at hp <;> cases hp
    · rename_i hq
      have := h.door hp
      rw [hu] at this
      exact absurd (Option.some.inj this) hq
  · rw [hd, Array.getElem?_push] at hp
    split at hp
    · rename_i hlast
      rw [hu', hlast, Engine.doors_size]
    · have := h.door hp
      rw [hu] at this
      cases this

theorem schedule (h : s.Manned) (p : Nat) (text : String) :
    Manned { s with engine := (s.engine.schedule p text).getD s.engine } := by
  cases he : s.engine.schedule p text with
  | none => exact h
  | some e =>
    refine ⟨h.sound.schedule he, h.counted.schedule he, h.inactive, fun hp => h.door ?_⟩
    rwa [← Engine.doors_schedule he]

theorem shutDown (h : s.Manned) {p : Nat} {e : Engine} (he : s.engine.shutDown p = some e) :
    Manned { s with engine := e } := by
  refine ⟨h.sound.shutDown he, h.counted.shutDown he, h.inactive, fun {q} hq => h.door ?_⟩
  have hd : e.doors[q]? = some false := hq
  rw [Engine.doors_shutDown he, Array.getElem?_setIfInBounds] at hd
  split at hd
  · split at hd <;> cases hd
  · exact hd

theorem next (h : s.Manned) {m : Move} (hs : s.move m = some s') : s'.Manned := by
  cases m with
  | own a => exact h.own hs
  | schedule p text => obtain rfl := Option.some.inj hs; exact h.schedule p text
  | shutDown p =>
    obtain ⟨e, he, rfl⟩ := Option.map_eq_some_iff.mp hs
    exact h.shutDown he

theorem of_run {delay : Nat} {moves : List Move} (h : Steps.run move { delay } moves = some s) : s.Manned :=
  @Steps.run_induction _ _ move (fun _ => Manned) (fun hs => hs.next) moves [] _ _ (start delay) h

theorem scheduler_eq_unstopped (h : s.Manned) {w : Nat} {k : Worker} (hk : s.engine.workers[w]? = some k)
    (ha : s.engine.registry.isActive k.token = true) : s.unstopped = some k.scheduler := by
  obtain ⟨c, hc, ho⟩ := h.sound.open_of_active hk (by simpa [Registry.isActive] using ha)
  exact h.door (by simp [Engine.doors, hc, ho])

/-- A pipeline that has been stopped takes no more texts, and nothing comes of one that is refused. -/
theorem refused (h : s.Manned) {p : Nat} (hp : s.unstopped ≠ some p) (text : String) :
    s.engine.schedule p text = none ∧ s.move (.schedule p text) = some s := by
  have hn : s.engine.schedule p text = none := by
    rw [← Option.not_isSome_iff_eq_none, Engine.schedule_isSome_iff]
    exact fun hd => hp (h.door hd)
  exact ⟨hn, by simp [move, hn]⟩

end Manned

/-- A countdown whose text is refused leaves all schedulers, tokens and runs as they are. -/
theorem engine_handOn_of_refused {s s' : Session} {p i : Nat} (hr : ∀ text, s.engine.schedule p text = none)
    (hs : s.step (.handOn p i) = some s') : s'.engine = s.engine := by
  obtain ⟨l, text, -, -, rfl⟩ := handOn_some hs
  simp [Engine.handed, hr text]

/-- After any moves at most one of all tokens ever minted is active. It belongs to the pipeline that has not been
stopped, all other runs of that pipeline were started before it, with smaller generations as long as there have been
fewer than 2^64, and it is the active token of the pipeline's scheduler. When a stop, or the stop that begins a start,
has shut down its scheduler, no token is active, and so it is as long as the session is idle. A scheduler refuses a
text if and only if it is not there or has been shut down, as that of a stopped pipeline has been; a text that is
refused changes nothing, whether it comes directly or from a countdown. -/
theorem at_most_one_active {delay : Nat} {moves : List Move} {s : Session}
    (h : Steps.run move { delay } moves = some s) :
    s.engine.workers.toList.map (·.token.id) = List.range s.engine.registry.cancelled.size ∧
    (∀ (v w : Nat) (j k : Worker), s.engine.workers[v]? = some j → s.engine.workers[w]? = some k →
      s.engine.registry.isActive j.token = true → s.engine.registry.isActive k.token = true → v = w) ∧
    (∀ (w : Nat) (k : Worker), s.engine.workers[w]? = some k → s.engine.registry.isActive k.token = true →
      s.unstopped = some k.scheduler ∧ s.engine.activeToken k.scheduler = some k.token ∧
      ∀ (v : Nat) (j : Worker), s.engine.workers[v]? = some j → j.scheduler = k.scheduler → v ≠ w →
        v < w ∧ (s.engine.runs k.scheduler < UInt64.size → j.token.generation < k.token.generation)) ∧
    (s.unstopped = none → ∀ (w : Nat) (k : Worker), s.engine.workers[w]? = some k →
      s.engine.registry.isActive k.token = false) ∧
    (∀ s', s.move (.own .closeScheduler) = some s' → ∀ (w : Nat) (k : Worker), s'.engine.workers[w]? = some k →
      s'.engine.registry.isActive k.token = false) ∧
    (∀ p text, s.engine.schedule p text = none ↔ s.engine.doors[p]? ≠ some false) ∧
    (∀ p, s.unstopped ≠ some p → ∀ text, s.engine.schedule p text = none) ∧
    (∀ p, s.engine.doors[p]? ≠ some false → (∀ text, s.move (.schedule p text) = some s) ∧
      (∀ i s', s.move (.own (.handOn p i)) = some s' → s'.engine = s.engine) ∧ (s.fire p).engine = s.engine) := by
  have hm := Manned.of_run h
  have hquiet : ∀ {u : Session}, u.Manned → u.unstopped = none → ∀ (w : Nat) (k : Worker),
      u.engine.workers[w]? = some k → u.engine.registry.isActive k.token = false := by
    intro u hu hn w k hk
    rw [Bool.eq_false_iff]
    intro ha
    have := hu.scheduler_eq_unstopped hk ha
    rw [hn] at this
    cases this
  have hrefuse : ∀ p text, s.engine.schedule p text = none ↔ s.engine.doors[p]? ≠ some false := by
    intro p text
    rw [← Option.not_isSome_iff_eq_none, Engine.schedule_isSome_iff]
  refine ⟨hm.sound.tokens_eq_range, ?_, ?_, hquiet hm, ?_, hrefuse, fun p hp text => (hm.refused hp text).1, ?_⟩
  · intro v w j k hj hk haj hak
    have hv := hm.sound.last_of_active hj (by simpa [Registry.isActive] using haj)
    have hw := hm.sound.last_of_active hk (by simpa [Registry.isActive] using hak)
    omega
  · intro w k hk ha
    refine ⟨hm.scheduler_eq_unstopped hk ha, hm.sound.activeToken_eq_some.mpr ⟨w, k, hk, rfl, rfl, ha⟩, ?_⟩
    intro v j hj hjk hne
    have hw := hm.sound.last_of_active hk (by simpa [Registry.isActive] using ha)
    have hlt : v < w := by
      have := getElem?_lt hj
      omega
    exact ⟨hlt, hm.counted.rising hj hk hjk hlt⟩
  · intro s' hs'
    obtain ⟨p, r, e, hc, he, rfl⟩ := closeScheduler_some hs'
    have hn : s.active = none := hm.inactive (by simp [hc])
    have hu : ({ s with engine := e, change := afterStop r } : Session).unstopped = none := by
      cases r <;> simp [unstopped, afterStop, hn]
    exact hquiet (hm.next hs') hu
  · intro p hp
    have hr := fun text => (hrefuse p text).mpr hp
    refine ⟨fun text => by simp [move, hr text], fun i s' hs' => engine_handOn_of_refused hr hs', ?_⟩
    cases hl : s.pipelines[p]? with
    | none => rw [fire_of_none hl]
    | some l => rw [fire_of_pipeline hl, Engine.handed_of_door hp]

/-- A countdown has taken an edit when a restart begins; its text and another one reach the stopped pipeline. -/
def lateTexts : List Move :=
  [.own (.beginStart "one"), .own .openPipeline, .schedule 0 "two", .own (.edit 0 "three"), .own (.expire 5 0),
    .own (.takeText 0 1), .own (.beginStart "four"), .own .cancelCountdown, .own .closeScheduler, .own .openPipeline,
    .own (.handOn 0 0), .schedule 0 "five", .schedule 1 "six"]

/-- Both late texts are refused, and of the four runs the last one is active. -/
theorem at_most_one_active_despite_late_texts :
    ∃ s, Steps.run move { delay := 5 } lateTexts = some s ∧
      s.engine.workers.toList.map (fun k => (k.text, k.scheduler, k.token.generation)) =
        [("one", 0, 1), ("two", 0, 2), ("four", 1, 1), ("six", 1, 2)] ∧
      s.engine.activeToken 1 = some ⟨3, 2⟩ ∧ s.unstopped = some 1 ∧
      (∀ w k, s.engine.workers[w]? = some k → s.engine.registry.isActive k.token = true → w = 3) ∧
      ∀ text, s.engine.schedule 0 text = none := by
  have hrun : Steps.run move { delay := 5 } lateTexts =
      some ((Steps.run move { delay := 5 } lateTexts).get rfl) := rfl
  obtain ⟨k, hk, ha⟩ : ∃ k, ((Steps.run move { delay := 5 } lateTexts).get rfl).engine.workers[3]? = some k ∧
      ((Steps.run move { delay := 5 } lateTexts).get rfl).engine.registry.isActive k.token = true := ⟨_, rfl, rfl⟩
  have hopen : ((Steps.run move { delay := 5 } lateTexts).get rfl).unstopped = some 1 := rfl
  obtain ⟨-, hone, -, -, -, -, hrefused, -⟩ := at_most_one_active hrun
  exact ⟨_, hrun, rfl, rfl, hopen, fun w j hj haj => hone w 3 j k hj hk haj ha,
    hrefused 0 (by rw [hopen]; decide)⟩

end Session

end Retrace.Live
