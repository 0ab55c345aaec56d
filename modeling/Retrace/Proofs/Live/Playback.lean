import Mathlib.Data.List.Induction
import Retrace.Proofs.Live.Playing

/-!
# What a session runs and shows

A session starts with a text, edits come, and perhaps a stop. Which runs there will be and which output will be shown
can be told from the moments alone: of the edits those that stay undisturbed for the delay start runs, and of the runs
those that stay undisturbed as long as they take have their output shown.
-/

namespace Retrace.Live

variable {World : Type}

namespace Timeline

/-- An edit at its moment. -/
def editAt (t : Timeline World) (e : Nat × String) : Timeline World :=
  let t := t.advance (e.1 - t.now)
  t.act fun s => (s.edit t.now e.2).getD s

/-- The stop at its moment. -/
def stopAt (t : Timeline World) (σ : Nat) : Timeline World := (t.advance (σ - t.now)).act Session.stop

end Timeline

namespace Stubborn

variable (b : Stubborn) (sink : String → World → World) (world : World) (delay : Nat) (first : String)

/-- A session that has started with a text. -/
def opening : Timeline World :=
  ({ runner := fun _ _ => b.plan, sink, session := { delay }, world } : Timeline World).act (·.start first)

/-- The session at a moment, with the edits and the stop that have come until then, when all is done that is due. -/
def session (edits : List (Nat × String)) (stop : Option Nat) (moment : Nat) : Timeline World :=
  let t := (edits.filter (·.1 ≤ moment)).foldl Timeline.editAt (b.opening sink world delay first)
  let t := (stop.filter (· ≤ moment)).elim t t.stopAt
  (t.advance (moment - t.now)).settle

theorem playing_opening : Playing b delay first [] none [(0, first)] 0 (b.opening sink world delay first) ∧
    (b.opening sink world delay first).now = 0 := by
  let t : Timeline World := {
    runner := fun _ _ => b.plan, sink, world
    session := { delay, engine := (({} : Engine).addScheduler).2 } }
  have hempty : Flowing b none [] 0 t := Flowing.empty rfl rfl rfl rfl
  obtain ⟨e, he, hflow⟩ := hempty.schedule rfl (by simp) first
  have hstart : ({ delay } : Session).start first =
      { delay, engine := e, pipelines := #[⟨{ delay }, []⟩], active := some 0, change := .none } := by
    have he : (({} : Engine).addScheduler).2.schedule 0 first = some e := he
    simp [Session.start, Session.beginStart, Session.proceed, Session.cancelCountdown, Session.closeScheduler,
      Session.openPipeline, he, show (({} : Engine).addScheduler).1 = 0 from rfl]
  have hsize : e.workers.size = 1 := hflow.workers_size
  have hact : b.opening sink world delay first = { t with
      session := ({ delay } : Session).start first, ready := [0], attempts := [] } := by
    simp [opening, Timeline.act, Timeline.wake, hstart, hsize, t, List.range, List.range.loop]
  rw [hact, hstart]
  refine ⟨⟨hflow.session_of (s := { delay, engine := e, pipelines := #[⟨{ delay }, []⟩], active := some 0 }) rfl, rfl, rfl,
    _, rfl, ⟨rfl, rfl, Or.inl ⟨rfl, rfl, by simp⟩⟩, rfl⟩, rfl⟩

end Stubborn

theorem runsOf_append (delay : Nat) (first : String) (stop : Option Nat) (l : List (Nat × String)) (e : Nat × String)
    (rest : List (Nat × String)) : ∃ later,
      runsOf delay first stop (l ++ e :: rest) = runsOf delay first (some e.1) l ++ later :=
  ⟨(undisturbed (fun _ => delay) stop (e :: rest)).map fun e => (e.1 + delay, e.2), by
    simp [runsOf, undisturbed_append]⟩

/-- A session after some edits, at the moment of the last one. -/
structure Edited (b : Stubborn) (delay : Nat) (first : String) (edits : List (Nat × String)) (t : Timeline World) :
    Prop where
  playing : ∃ runs polled, Playing b delay first edits none runs polled t
  now : edits = [] ∧ t.now = 0 ∨ ∃ e ∈ edits, t.now = e.1

namespace Edited

variable {b : Stubborn} {delay : Nat} {first : String} {edits : List (Nat × String)} {t : Timeline World}

theorem now_le (h : Edited b delay first edits t) {target : Nat} (hlt : ∀ e ∈ edits, e.1 ≤ target) : t.now ≤ target := by
  rcases h.now with ⟨-, hn⟩ | ⟨e, he, hn⟩
  · omega
  · exact hn ▸ hlt e he

theorem before (h : Edited b delay first edits t) {horizon : Option Nat} (hlt : ∀ T ∈ horizon, ∀ e ∈ edits, e.1 < T) :
    Playing.Before b delay first edits none horizon t := by
  refine ⟨fun hne => ?_, h.playing⟩
  rcases h.now with ⟨hnil, -⟩ | ⟨e, he, hn⟩
  · exact absurd hnil hne
  · cases horizon with
    | none => rfl
    | some T => simpa [hn] using hlt T rfl e he

/-- The session at the moment of the next event. -/
theorem advance (h : Edited b delay first edits t) {T : Nat} (hlt : ∀ e ∈ edits, e.1 < T)
    (hapart : b.Apart (runsOf delay first (some T) edits)) :
    ∃ runs polled u, Playing b delay first edits none runs polled u ∧ u.stepNow = none ∧ u.now ≤ T ∧
      (edits ≠ [] → u.now < T) ∧ (∀ x ∈ u.moments, T ≤ x) ∧ t.advance (T - t.now) = { u with now := T } := by
  have hbefore : Playing.Before b delay first edits none (some T) t := h.before (by simpa using hlt)
  have htarget : (some T).all (T ≤ ·) = true := by simp
  obtain ⟨runs, u, ⟨polled, hu⟩, hs, hle, hfar, hnext, heq⟩ := Playing.advance (fun _ => hapart) hbefore htarget
    (h.now_le fun e he => Nat.le_of_lt (hlt e he))
  exact ⟨runs, polled, u, hu, hs, hle, by simpa using hfar, hnext, heq⟩

theorem editAt (h : Edited b delay first edits t) {e : Nat × String} (hlt : ∀ f ∈ edits, f.1 < e.1)
    (hapart : b.Apart (runsOf delay first (some e.1) edits)) : Edited b delay first (edits ++ [e]) (t.editAt e) := by
  obtain ⟨runs, polled, u, hu, hs, hle, hfar, hnext, heq⟩ := h.advance hlt hapart
  have hplay := hu.editing hs hle hfar hnext e.2
  simp only [Timeline.editAt, heq]
  exact ⟨⟨runs, polled, hplay⟩, Or.inr ⟨e, by simp, rfl⟩⟩

theorem foldl (h : Edited b delay first [] t) {stop : Option Nat} : ∀ {before after : List (Nat × String)},
    (before ++ after).Pairwise (·.1 < ·.1) → b.Apart (runsOf delay first stop (before ++ after)) →
    Edited b delay first before (before.foldl Timeline.editAt t) := by
  intro before
  induction before using List.reverseRecOn with
  | nil => exact fun _ _ => h
  | append_singleton l e ih =>
    intro after hsorted hapart
    rw [List.append_assoc] at hsorted hapart
    have hlt : ∀ f ∈ l, f.1 < e.1 := fun f hf => (List.pairwise_append.mp hsorted).2.2 f hf e (by simp)
    obtain ⟨later, hl⟩ := runsOf_append delay first stop l e after
    rw [List.foldl_append]
    refine (ih hsorted hapart).editAt hlt ?_
    rw [List.singleton_append, hl] at hapart
    exact (List.pairwise_append.mp hapart).1

theorem stopAt (h : Edited b delay first edits t) {σ : Nat} (hlt : ∀ e ∈ edits, e.1 < σ)
    (hapart : b.Apart (runsOf delay first (some σ) edits))
    (hclear : ∀ r ∈ runsOf delay first (some σ) edits, b.overAt r ≠ σ) :
    ∃ runs polled, Playing b delay first edits (some σ) runs polled (t.stopAt σ) ∧ (t.stopAt σ).now = σ := by
  obtain ⟨runs, polled, u, hu, hs, hle, hfar, hnext, heq⟩ := h.advance hlt hapart
  have hplay := hu.closing hs hle hfar hnext fun r hr => hclear r (hu.runs_eq hfar hnext ▸ List.mem_of_getLast? hr)
  simp only [Timeline.stopAt, heq]
  exact ⟨runs, polled, hplay, rfl⟩

end Edited

/-! ## What is there at a moment -/

namespace Playing

variable {b : Stubborn} {delay : Nat} {first : String} {edits : List (Nat × String)} {stop : Option Nat}
  {runs : List (Nat × String)} {polled : Nat} {t : Timeline World}

/-- When all is done that is due, what has begun and what has been shown can be told from the edits and the stop that
have come. -/
theorem at_rest (h : Playing b delay first edits stop runs polled t) (hs : t.stepNow = none) (hstop : ∀ σ ∈ stop, σ ≤ t.now) :
    runs = runsOf delay first (some (cut stop t.now)) edits ∧ t.started = runs.map (·.2) ∧
      t.shown = (undisturbed b.span (some (cut stop t.now)) runs).map fun r => b.stdout r.2 := by
  have hpolled := h.flowing.polled_of_ready (Timeline.stepNow_eq_none_iff.mp hs).1
  have hnext : ∀ x ∈ t.moments, t.now + 1 ≤ x := fun x hx => Nat.lt_of_not_le fun hle =>
    Timeline.stepNow_of_moment hx hle hs
  have hstarted : t.started = runs.map (·.2) := by
    rw [h.flowing.started, hpolled, List.take_length]
  have hshown := h.flowing.shown
  cases stop with
  | none =>
    have hw := (h.wait hs (Nat.le_succ _) hnext).flowing
    rw [Flowing.undisturbed_eq h.flowing hw hpolled fun r _ hle => Nat.lt_succ_of_le hle] at hshown
    exact ⟨h.runs_eq (fun _ => Nat.lt_succ_self _) hnext, hstarted, hshown⟩
  | some σ =>
    have hσ : cut (some σ) t.now = σ := Nat.min_eq_left (Nat.le_succ_of_le (hstop σ rfl))
    rw [Engine.deadline_some] at hshown
    obtain ⟨d, -, ⟨-, -, hcount⟩, hruns⟩ := h.debounce
    rcases hcount with ⟨hp, -⟩ | ⟨hn, -⟩
    · rw [hσ]
      refine ⟨?_, hstarted, hshown⟩
      simpa [Debounce.isPending, hp] using hruns
    · cases hn

/-- Time goes on to a moment before the next event, and all is done that is due then. -/
theorem settle_at {horizon : Option Nat} (h : Before b delay first edits stop horizon t)
    (hapart : stop = none → b.Apart (runsOf delay first horizon edits)) {moment : Nat}
    (hfar : horizon.all (moment < ·) = true) (hle : t.now ≤ moment) : ∃ runs polled,
      Playing b delay first edits stop runs polled (t.advance (moment - t.now)).settle ∧
      (t.advance (moment - t.now)).settle.stepNow = none ∧ (t.advance (moment - t.now)).settle.now = moment := by
  have htarget : horizon.all (moment ≤ ·) = true := by
    cases horizon with
    | none => rfl
    | some T => simpa using Nat.le_of_lt (by simpa using hfar)
  obtain ⟨runs, u, ⟨polled, hu⟩, hs, hnow, -, hnext, heq⟩ := advance hapart h htarget hle
  have hbefore : Before b delay first edits stop horizon { u with now := moment } :=
    ⟨fun _ => hfar, runs, polled, hu.wait hs hnow hnext⟩
  obtain ⟨⟨-, runs', polled', hplay⟩, hnone, hmoment, -⟩ := settle hapart hbefore
  rw [heq]
  exact ⟨runs', polled', hplay, hnone, hmoment⟩

end Playing

theorem sorted_filter {edits : List (Nat × String)} (h : edits.Pairwise (·.1 < ·.1)) (moment : Nat) :
    ∃ later, edits = edits.filter (·.1 ≤ moment) ++ later ∧ ∀ e ∈ later, moment < e.1 := by
  induction edits with
  | nil => exact ⟨[], rfl, by simp⟩
  | cons e edits ih =>
    obtain ⟨he, h⟩ := List.pairwise_cons.mp h
    by_cases hm : e.1 ≤ moment
    · obtain ⟨later, heq, hlater⟩ := ih h
      exact ⟨later, by rw [List.filter_cons_of_pos (by simpa using hm), List.cons_append, ← heq], hlater⟩
    · have hall : ∀ f ∈ e :: edits, moment < f.1 := by
        intro f hf
        rcases List.mem_cons.mp hf with rfl | hf
        · exact Nat.lt_of_not_le hm
        · have := he f hf
          omega
      refine ⟨e :: edits, ?_, hall⟩
      rw [List.filter_eq_nil_iff.mpr fun f hf => by simpa using hall f hf, List.nil_append]

theorem runsOf_sorted {delay : Nat} {first : String} {stop : Option Nat} {edits : List (Nat × String)}
    (h : edits.Pairwise (·.1 < ·.1)) : (runsOf delay first stop edits).Pairwise fun r q => r.1 ≤ q.1 := by
  refine List.pairwise_cons.mpr ⟨fun _ _ => Nat.zero_le _, List.pairwise_map.mpr ?_⟩
  exact (h.sublist (undisturbed_sublist edits)).imp fun h => by omega

/-- The runs that have begun by a moment. -/
theorem filter_runsOf {delay : Nat} {first : String} {stop : Option Nat} {edits : List (Nat × String)}
    (h : edits.Pairwise (·.1 < ·.1)) (hstop : ∀ σ ∈ stop, ∀ e ∈ edits, e.1 < σ) (moment : Nat) :
    (runsOf delay first stop edits).filter (·.1 ≤ moment) =
      runsOf delay first (some (cut stop moment)) (edits.filter (·.1 ≤ moment)) := by
  have hf := @filter_undisturbed (fun _ => delay) stop edits (h.imp Nat.le_of_lt)
    (fun σ hσ e he => Nat.le_of_lt (hstop σ hσ e he)) moment
  rw [runsOf, List.filter_cons_of_pos (by simp), List.filter_map, runsOf]
  exact congrArg _ (congrArg _ hf)

theorem runsOf_le {delay : Nat} {first : String} {stop : Option Nat} {edits : List (Nat × String)}
    (h : edits.Pairwise (·.1 < ·.1)) (hstop : ∀ σ ∈ stop, ∀ e ∈ edits, e.1 < σ) :
    ∀ σ ∈ stop, ∀ r ∈ runsOf delay first stop edits, r.1 ≤ σ := by
  rintro σ rfl r hr
  rcases List.mem_cons.mp hr with rfl | hr
  · exact Nat.zero_le _
  · obtain ⟨e, he, rfl⟩ := List.mem_map.mp hr
    exact Nat.le_of_lt (over_lt_of_mem_undisturbed (h.imp Nat.le_of_lt) (fun e he => Nat.le_of_lt (hstop σ rfl e he)) he)

namespace Stubborn

variable (b : Stubborn) (sink : String → World → World) (world : World) (delay : Nat) (first : String)
  (edits : List (Nat × String)) (stop : Option Nat)

variable {delay edits stop} in
/-- The session at a moment, seen as the edits and the stop that have come until then. -/
theorem session_playing (hedits : edits.Pairwise (·.1 < ·.1)) (hstop : ∀ σ ∈ stop, ∀ e ∈ edits, e.1 < σ)
    (hapart : b.Apart (runsOf delay first stop edits))
    (hclear : ∀ σ ∈ stop, ∀ r ∈ runsOf delay first stop edits, b.overAt r ≠ σ) (moment : Nat) : ∃ runs polled,
      Playing b delay first (edits.filter (·.1 ≤ moment)) (stop.filter (· ≤ moment)) runs polled
        (b.session sink world delay first edits stop moment) ∧
      (b.session sink world delay first edits stop moment).stepNow = none ∧
      (b.session sink world delay first edits stop moment).now = moment := by
  obtain ⟨later, hsplit, hlater⟩ := sorted_filter hedits moment
  obtain ⟨hopening, hzero⟩ := b.playing_opening sink world delay first
  have hstart : Edited b delay first [] (b.opening sink world delay first) := ⟨⟨_, _, hopening⟩, Or.inl ⟨rfl, hzero⟩⟩
  have hapart' : b.Apart (runsOf delay first stop (edits.filter (·.1 ≤ moment) ++ later)) := hsplit ▸ hapart
  have hedited := hstart.foldl (hsplit ▸ hedits) hapart'
  have hpast : ∀ e ∈ edits.filter (·.1 ≤ moment), e.1 ≤ moment := fun e he => by simpa using (List.mem_filter.mp he).2
  cases hf : stop.filter (· ≤ moment) with
  | some σ =>
    -- all edits have come before the stop
    obtain ⟨hσ, hle⟩ := Option.filter_eq_some_iff.mp hf
    have hle : σ ≤ moment := by simpa using hle
    have hlast : edits.filter (·.1 ≤ moment) = edits :=
      List.filter_eq_self.mpr fun e he => by
        have := hstop σ hσ e he
        simp only [decide_eq_true_eq]
        omega
    rw [hlast] at hedited ⊢
    obtain rfl : stop = some σ := hσ
    obtain ⟨runs, polled, hplay, hnow⟩ := hedited.stopAt (hstop σ rfl) hapart (hclear σ rfl)
    simp only [session, hlast, hf, Option.elim_some]
    have hbefore : Playing.Before b delay first edits (some σ) none _ := ⟨fun _ => rfl, runs, polled, hplay⟩
    exact Playing.settle_at hbefore nofun rfl (Nat.le_trans (Nat.le_of_eq hnow) hle)
  | none =>
    simp only [session, hf, Option.elim_none]
    cases later with
    | nil =>
      -- the next event is the stop, if there is one
      rw [List.append_nil] at hsplit
      have hfar : ∀ σ ∈ stop, moment < σ := fun σ hσ => by
        simpa using Option.filter_eq_none_iff.mp hf σ hσ
      have hbefore : Playing.Before b delay first (edits.filter (·.1 ≤ moment)) none stop _ :=
        hedited.before fun σ hσ e he => Nat.lt_of_le_of_lt (hpast e he) (hfar σ hσ)
      refine Playing.settle_at hbefore (fun _ => hsplit ▸ hapart) ?_ (hedited.now_le hpast)
      cases stop with
      | none => rfl
      | some σ => simpa using hfar σ rfl
    | cons e later =>
      have hfar := hlater e (by simp)
      obtain ⟨after, hl⟩ := runsOf_append delay first stop (edits.filter (·.1 ≤ moment)) e later
      have hlt : ∀ T ∈ some e.1, ∀ f ∈ edits.filter (·.1 ≤ moment), f.1 < T := by
        rintro T ⟨⟩ f hf'
        exact Nat.lt_of_le_of_lt (hpast f hf') hfar
      refine Playing.settle_at (hedited.before hlt) (fun _ => ?_) (by simpa using hfar) (hedited.now_le hpast)
      rw [hsplit, hl] at hapart
      exact (List.pairwise_append.mp hapart).1

/-- At every moment the runs that have been started are the first one and those of the edits that no other edit and no
stop has followed within the delay, each begun when its delay was over. What has been shown is the output of those runs
that were over before the next one began and before the stop, in order. No run may be over just when another one begins
or when the stop comes. -/
theorem undisturbed_edits_run_and_undisturbed_runs_show (hedits : edits.Pairwise (·.1 < ·.1))
    (hstop : ∀ σ ∈ stop, ∀ e ∈ edits, e.1 < σ) (hapart : b.Apart (runsOf delay first stop edits))
    (hclear : ∀ σ ∈ stop, ∀ r ∈ runsOf delay first stop edits, b.overAt r ≠ σ) (moment : Nat) :
    let t := b.session sink world delay first edits stop moment
    let runs := runsOf delay first stop edits
    t.now = moment ∧ t.started = (runs.filter (·.1 ≤ moment)).map (·.2) ∧
      t.shown = ((undisturbed b.span stop runs).filter (b.overAt · ≤ moment)).map fun r => b.stdout r.2 := by
  intro t runs
  obtain ⟨runs', polled, hplay, hnone, hnow⟩ := b.session_playing sink world first hedits hstop hapart hclear moment
  have hpast : ∀ σ ∈ stop.filter (· ≤ moment), σ ≤ t.now := by
    intro σ hσ
    rw [hnow]
    simpa using (Option.mem_filter_iff.mp hσ).2
  obtain ⟨hruns, hstarted, hshown⟩ := hplay.at_rest hnone hpast
  rw [hnow, cut_filter] at hruns hshown
  have hbegun : runs.filter (·.1 ≤ moment) = runs' := (filter_runsOf hedits hstop moment).trans hruns.symm
  have hover : (undisturbed b.span stop runs).filter (b.overAt · ≤ moment) = _ :=
    filter_undisturbed (runsOf_sorted hedits) (runsOf_le hedits hstop) moment
  rw [hbegun, hover, hbegun]
  exact ⟨hnow, hstarted, hshown⟩

/-- Runs that take ten times as long as their texts are. -/
def slow : Stubborn where
  span text := 10 * text.length
  stdout text := text ++ "!"

/-- The first edit comes too early for the second and the last one too late for the stop. -/
def typing : List (Nat × String) := [(2, "x"), (4, "b"), (30, "long"), (50, "c"), (95, "d")]

/-- The first run and the long one are replaced while they are at work. -/
theorem undisturbed_runs_show_when_typing :
    let t := slow.session (fun _ (n : Nat) => n + 1) 0 3 "one" typing (some 97) 100
    t.now = 100 ∧ t.started = ["one", "b", "long", "c"] ∧ t.shown = ["b!", "c!"] := by
  have hruns : runsOf 3 "one" (some 97) typing = [(0, "one"), (7, "b"), (33, "long"), (53, "c")] := by decide
  have hshown : undisturbed slow.span (some 97) [(0, "one"), (7, "b"), (33, "long"), (53, "c")] =
      [(7, "b"), (53, "c")] := by decide
  obtain ⟨hnow, hstarted, hout⟩ := slow.undisturbed_edits_run_and_undisturbed_runs_show (fun _ (n : Nat) => n + 1) 0 3
    "one" typing (some 97) (by decide) (by decide) (by rw [hruns]; unfold Apart; decide) (by rw [hruns]; decide) 100
  refine ⟨hnow, hstarted.trans ?_, hout.trans ?_⟩
  · rw [hruns]
    decide
  · rw [hruns, hshown]
    decide

end Stubborn

end Retrace.Live
