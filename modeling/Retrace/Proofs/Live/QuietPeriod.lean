import Retrace.Proofs.Live.Fate
import Retrace.Proofs.Steps

/-!
# What a quiet period hands on

Edits, cancellations and ends of countdowns in any order, perhaps until nobody listens any more. What is handed on are
the edits whose countdowns ended before anything else happened, some of them late.
-/

namespace Retrace.Live.Debounce

variable {α : Type}

/-- A quiet period, and what it has handed on and when. -/
structure Attended (α : Type) where
  debounce : Debounce α
  time : Nat := 0
  dropped : Bool := false
  heard : List (Nat × α) := []
  deriving Repr

/-- Nothing is asked of a quiet period after it was dropped. A drop stops a countdown that is running; one that has
run out still looks for its value. -/
def Attended.happen (w : Attended α) (now : Nat) : Event α → Option (Attended α)
  | .notify v => if w.dropped then none else some { w with debounce := w.debounce.notify now v }
  | .cancel => if w.dropped then none else some { w with debounce := w.debounce.cancel }
  | .drop => if w.dropped then none else some { w with debounce := w.debounce.drop, dropped := true }
  | .expire =>
    if w.debounce.isDue now then
      let (v, debounce) := w.debounce.fire
      some { w with debounce, heard := w.heard ++ v.toList.map (now, ·) }
    else none
  | .runOut n =>
    if w.debounce.isDue now ∧ w.debounce.countdown.map (·.number) = some n then
      some { w with debounce := w.debounce.expire }
    else none
  | .look n =>
    if n ∈ w.debounce.expired then
      let (v, debounce) := w.debounce.take n
      some { w with debounce, heard := w.heard ++ v.toList.map (now, ·) }
    else none

/-- An event happens at a time that is not before those of the events before it. -/
def Attended.step (w : Attended α) (e : Nat × Event α) : Option (Attended α) :=
  if w.time ≤ e.1 then { w with time := e.1 }.happen e.1 e.2 else none

/-! ## The quiet period -/

/-- What is left of the last edit. It is pending until it is handed on, whether its countdown is running, has run out
or was stopped by a drop, and it has a number that no other countdown looks for its value under. -/
def Stands (delay : Nat) (d : Debounce α) : Option (Nat × α × Fate) → Prop
  | none => d.pending = none ∧ d.countdown = none ∧ d.number ∉ d.expired
  | some (t, v, .running) => d.pending = some v ∧ d.countdown = some ⟨d.number, t + delay⟩ ∧ d.number ∉ d.expired
  | some (_, v, .out n) => d.pending = some v ∧ d.countdown = none ∧ n = d.number ∧ d.number ∈ d.expired
  | some (_, _, .handed _) => d.pending = none ∧ d.countdown = none ∧ d.number ∉ d.expired
  | some (_, v, .lost) => d.pending = some v ∧ d.countdown = none ∧ d.number ∉ d.expired

namespace Stands

variable {delay now : Nat} {d : Debounce α} {l : Option (Nat × α × Fate)}

/-- A countdown that runs is that of the last edit. -/
theorem running_of_countdown (h : Stands delay d l) {c : Countdown} (hc : d.countdown = some c) :
    ∃ t v, l = some (t, v, .running) ∧ c = ⟨d.number, t + delay⟩ := by
  rcases l with _ | ⟨t, v, s⟩
  · cases h.2.1.symm.trans hc
  · cases s with
    | running => exact ⟨t, v, rfl, Option.some.inj (hc.symm.trans h.2.1)⟩
    | out | handed | lost => cases h.2.1.symm.trans hc

theorem out_of_mem (h : Stands delay d l) (hn : d.number ∈ d.expired) : ∃ t v, l = some (t, v, .out d.number) := by
  rcases l with _ | ⟨t, v, s⟩
  · exact absurd hn h.2.2
  · cases s with
    | out n => exact ⟨t, v, by rw [h.2.2.1]⟩
    | running | handed | lost => exact absurd hn h.2.2

theorem drop (h : Stands delay d l) : Stands delay d.drop (following l (now, .drop)) := by
  rcases l with _ | ⟨t, v, s⟩
  · exact ⟨h.1, rfl, h.2.2⟩
  · cases s with
    | running | out | handed | lost => exact ⟨h.1, rfl, h.2.2⟩

/-- A countdown of another number looks. -/
theorem look {n : UInt64} (h : Stands delay d l) (hne : n ≠ d.number) :
    Stands delay { d with expired := d.expired.erase n } (following l (now, .look n)) ∧
      delivered l (now, .look n) = [] := by
  have hnot : d.number ∉ d.expired → d.number ∉ d.expired.erase n := mt List.mem_of_mem_erase
  rcases l with _ | ⟨t, v, s⟩
  · exact ⟨⟨h.1, h.2.1, hnot h.2.2⟩, rfl⟩
  · cases s with
    | out m =>
      obtain ⟨hp, hc, rfl, hm⟩ := h
      have hnext : (Fate.out d.number).next (now, (.look n : Event α)) = .out d.number := if_neg hne
      rw [following_of_not_call rfl, Option.map_some, delivered, hnext]
      exact ⟨⟨hp, hc, rfl, (List.mem_erase_of_ne (Ne.symm hne)).mpr hm⟩, rfl⟩
    | running | handed | lost => exact ⟨⟨h.1, h.2.1, hnot h.2.2⟩, rfl⟩

end Stands

/-- A quiet period as its past accounts for it. -/
structure Kept (delay : Nat) (past : List (Nat × Event α)) (d : Debounce α) : Prop where
  same_delay : d.delay = delay
  number : d.number = UInt64.ofNat (calls past)
  /-- Every countdown that has run out looks once. -/
  count : ∀ n, d.expired.count n + looked n past = ranOut n past
  numbered : ∀ n ∈ d.expired, ∃ i, i ≤ calls past ∧ n = UInt64.ofNat i
  nodup : d.expired.Nodup
  stands : Stands delay d (latest past)

namespace Kept

variable {delay now : Nat} {past : List (Nat × Event α)} {d d' : Debounce α} {t : Nat} {v : α}

theorem start (delay : Nat) : Kept delay ([] : List (Nat × Event α)) { delay } where
  same_delay := rfl
  number := rfl
  count _ := rfl
  numbered := nofun
  nodup := List.nodup_nil
  stands := ⟨rfl, rfl, nofun⟩

/-- What has to be shown of an event. -/
theorem next {e : Nat × Event α} (h : Kept delay past d) (hdelay : d'.delay = d.delay)
    (hnumber : d'.number = d.number + if e.2.isCall then 1 else 0)
    (hcount : ∀ n, d'.expired.count n + (if e.2.looks n then 1 else 0) =
      d.expired.count n + if e.2.runsOut n then 1 else 0)
    (hmem : ∀ n ∈ d'.expired, n ∈ d.expired ∨ n = d.number) (hnodup : d'.expired.Nodup)
    (hstands : Stands delay d' (following (latest past) e)) : Kept delay (past ++ [e]) d' where
  same_delay := hdelay.trans h.same_delay
  number := by
    rw [hnumber, h.number, calls_append, calls_cons]
    split <;> simp [UInt64.ofNat_add]
  count n := by
    have := h.count n
    have := hcount n
    rw [looked_concat, ranOut_concat]
    omega
  numbered n hn := by
    rw [calls_append]
    rcases hmem n hn with hn | rfl
    · obtain ⟨i, hi, rfl⟩ := h.numbered n hn
      exact ⟨i, Nat.le_add_right_of_le hi, rfl⟩
    · exact ⟨calls past, Nat.le_add_right _ _, h.number⟩
  nodup := hnodup
  stands := by rwa [latest_concat]

theorem running (h : Kept delay past d) (hl : latest past = some (t, v, .running)) :
    d.pending = some v ∧ d.countdown = some ⟨d.number, t + delay⟩ ∧ d.number ∉ d.expired := by
  have := h.stands
  rwa [hl] at this

theorem isDue_iff (h : Kept delay past d) : d.isDue now = true ↔ Due delay past now := by
  rw [due_iff]
  constructor
  · intro hd
    obtain ⟨c, hc⟩ : ∃ c, d.countdown = some c := by
      cases hc : d.countdown with
      | none => simp [isDue, hc] at hd
      | some c => exact ⟨c, rfl⟩
    obtain ⟨t, v, hl, rfl⟩ := h.stands.running_of_countdown hc
    exact ⟨t, v, hl, by simpa [isDue, hc] using hd⟩
  · rintro ⟨t, v, hl, hle⟩
    simpa [isDue, (h.running hl).2.1] using hle

theorem due_and_number_iff (h : Kept delay past d) {n : UInt64} :
    d.isDue now = true ∧ d.countdown.map (·.number) = some n ↔ Due delay past now ∧ n = UInt64.ofNat (calls past) := by
  rw [h.isDue_iff]
  refine and_congr_right fun hd => ?_
  obtain ⟨t, v, hl, -⟩ := due_iff.mp hd
  rw [(h.running hl).2.1, Option.map_some, h.number, Option.some.injEq, eq_comm]

theorem mem_expired_iff (h : Kept delay past d) {n : UInt64} :
    n ∈ d.expired ↔ looked n past < ranOut n past := by
  have := h.count n
  rw [← List.count_pos_iff]
  omega

/-- A call never gets the number of a countdown that has yet to look for its value. -/
theorem fresh (h : Kept delay past d) {c : Nat × Event α} (hc : c.2.isCall = true) (hfew : Few (past ++ [c])) :
    d.number + 1 ∉ d.expired := by
  intro hmem
  rcases hfew with hwhole | hfew
  · -- no countdown has run out without looking at once
    have hnone : ranOut (d.number + 1) past = 0 := by
      rw [ranOut, List.countP_eq_zero]
      intro e he hr
      have := hwhole e (List.mem_append_left _ he)
      obtain ⟨t, e⟩ := e
      cases e with
      | runOut => cases this
      | notify | cancel | drop | expire | look => cases hr
    have := h.mem_expired_iff.mp hmem
    omega
  · obtain ⟨i, hi, hn⟩ := h.numbered _ hmem
    rw [calls_append, calls_cons, if_pos hc, calls_nil] at hfew
    have hsize : UInt64.size = 2 ^ 64 := rfl
    have := congrArg UInt64.toNat hn
    rw [h.number, ← UInt64.ofNat_one, ← UInt64.ofNat_add] at this
    simp only [UInt64.toNat_ofNat'] at this
    omega

theorem notify (h : Kept delay past d) (hfew : Few (past ++ [(now, .notify v)])) :
    Kept delay (past ++ [(now, .notify v)]) (d.notify now v) := by
  refine h.next rfl rfl (fun _ => rfl) (fun _ => Or.inl) h.nodup ⟨rfl, ?_, h.fresh rfl hfew⟩
  rw [Debounce.notify, h.same_delay]

theorem cancel (h : Kept delay past d) (hfew : Few (past ++ [(now, .cancel)])) :
    Kept delay (past ++ [(now, .cancel)]) d.cancel :=
  h.next rfl rfl (fun _ => rfl) (fun _ => Or.inl) h.nodup ⟨rfl, rfl, h.fresh rfl hfew⟩

theorem drop (h : Kept delay past d) : Kept delay (past ++ [(now, .drop)]) d.drop :=
  h.next rfl (UInt64.add_zero _).symm (fun _ => rfl) (fun _ => Or.inl) h.nodup h.stands.drop

theorem fire_eq (h : Kept delay past d) (hl : latest past = some (t, v, .running)) :
    d.fire = (some v, { d with pending := none, countdown := none }) := by
  obtain ⟨hp, hc, hn⟩ := h.running hl
  simp [Debounce.fire, hc, Debounce.expire, Debounce.take, List.erase_append_right _ hn, hp]

theorem fire (h : Kept delay past d) (hl : latest past = some (t, v, .running)) :
    Kept delay (past ++ [(now, .expire)]) d.fire.2 := by
  rw [h.fire_eq hl]
  refine h.next rfl (UInt64.add_zero _).symm (fun _ => rfl) (fun _ => Or.inl) h.nodup ?_
  rw [hl]
  exact ⟨rfl, rfl, (h.running hl).2.2⟩

theorem expire (h : Kept delay past d) (hl : latest past = some (t, v, .running)) :
    Kept delay (past ++ [(now, .runOut d.number)]) d.expire := by
  obtain ⟨hp, hc, hn⟩ := h.running hl
  have hexpire : d.expire = { d with countdown := none, expired := d.expired ++ [d.number] } := by
    rw [Debounce.expire, hc]
  rw [hexpire]
  refine h.next rfl (UInt64.add_zero _).symm (fun n => ?_) (fun n hm => by simpa using hm) ?_ ?_
  · simp [Event.looks, Event.runsOut, List.count_cons]
  · refine List.nodup_append.mpr ⟨h.nodup, by simp, ?_⟩
    rintro a ha b hb rfl
    rw [List.mem_singleton.mp hb] at ha
    exact hn ha
  · rw [hl]
    exact ⟨hp, rfl, rfl, by simp⟩

theorem count_erase {n : UInt64} (hn : n ∈ d.expired) (m : UInt64) :
    (d.expired.erase n).count m + (if (Event.look n : Event α).looks m then 1 else 0) = d.expired.count m := by
  have hpos := List.count_pos_iff.mpr hn
  rw [List.count_erase]
  by_cases he : n = m
  · subst he
    simp [Event.looks]
    omega
  · simp [Event.looks, he]

/-- The countdown of the last edit takes it when it has run out and looks. -/
theorem take_own (h : Kept delay past d) (hn : d.number ∈ d.expired) :
    Kept delay (past ++ [(now, .look d.number)]) (d.take d.number).2 ∧
      (d.take d.number).1.toList.map (now, ·) = delivered (latest past) (now, .look d.number) := by
  have hstands := h.stands
  obtain ⟨t, v, hl⟩ := hstands.out_of_mem hn
  rw [hl] at hstands
  have hnext : (Fate.out d.number).next (now, (.look d.number : Event α)) = .handed now := if_pos rfl
  rw [Debounce.take, if_pos rfl]
  refine ⟨h.next rfl (UInt64.add_zero _).symm (count_erase hn) (fun _ hm => Or.inl (List.mem_of_mem_erase hm))
    (h.nodup.erase _) ?_, ?_⟩
  · rw [hl, following_of_not_call rfl, Option.map_some, hnext]
    exact ⟨rfl, hstands.2.1, h.nodup.not_mem_erase⟩
  · rw [hl, delivered, hnext, hstands.1]
    rfl

/-- A countdown that was overtaken finds nothing. -/
theorem take_other (h : Kept delay past d) {n : UInt64} (hn : n ∈ d.expired) (hne : n ≠ d.number) :
    Kept delay (past ++ [(now, .look n)]) (d.take n).2 ∧
      (d.take n).1.toList.map (now, ·) = delivered (latest past) (now, .look n) := by
  rw [Debounce.take, if_neg (Ne.symm hne)]
  obtain ⟨hstands, hnone⟩ := @Stands.look _ _ now _ _ _ h.stands hne
  exact ⟨h.next rfl (UInt64.add_zero _).symm (count_erase hn) (fun _ hm => Or.inl (List.mem_of_mem_erase hm))
    (h.nodup.erase _) hstands, hnone.symm⟩

theorem take (h : Kept delay past d) {n : UInt64} (hn : n ∈ d.expired) :
    Kept delay (past ++ [(now, .look n)]) (d.take n).2 ∧
      (d.take n).1.toList.map (now, ·) = delivered (latest past) (now, .look n) := by
  by_cases hne : n = d.number
  · subst hne
    exact h.take_own hn
  · exact h.take_other hn hne

end Kept

/-- A quiet period and all that has been heard of it, as its past accounts for them. -/
structure Follows (delay : Nat) (past : List (Nat × Event α)) (w : Attended α) : Prop where
  kept : Kept delay past w.debounce
  time : ∀ {now : Nat}, w.time ≤ now ↔ ∀ e ∈ past, e.1 ≤ now
  dropped : w.dropped = true ↔ ∃ e ∈ past, e.2 = .drop
  heard : w.heard = quiet past

namespace Follows

variable {delay : Nat} {past : List (Nat × Event α)} {w w' : Attended α}

theorem start (delay : Nat) : Follows delay ([] : List (Nat × Event α)) { debounce := { delay } } where
  kept := Kept.start delay
  time := by simp
  dropped := by simp
  heard := rfl

theorem dropped_eq_false_iff (h : Follows delay past w) : w.dropped = false ↔ ∀ e ∈ past, e.2 ≠ .drop := by
  rw [← Bool.not_eq_true, h.dropped]
  simp only [not_exists, not_and]

/-- Exactly what is possible can happen. -/
theorem step_isSome_iff (h : Follows delay past w) (e : Nat × Event α) :
    (w.step e).isSome = true ↔ Possible delay past e := by
  obtain ⟨now, e⟩ := e
  rw [Attended.step, Possible, ← h.time]
  by_cases htime : w.time ≤ now
  · rw [if_pos htime]
    simp only [htime, true_and]
    cases e with
    | expire =>
      simp only [Attended.happen, ← h.kept.isDue_iff]
      split <;> simp_all
    | runOut n =>
      simp only [Attended.happen, ← h.kept.due_and_number_iff]
      split <;> simp_all
    | look n =>
      simp only [Attended.happen, ← h.kept.mem_expired_iff]
      split <;> simp_all
    | notify | cancel | drop =>
      simp only [Attended.happen, ← h.dropped_eq_false_iff]
      split <;> simp_all
  · simp [htime]

theorem next {e : Nat × Event α} (h : Follows delay past w) (hfew : Few (past ++ [e])) (hs : w.step e = some w') :
    Follows delay (past ++ [e]) w' := by
  obtain ⟨hpast, hposs⟩ := (h.step_isSome_iff e).mp (by rw [hs]; rfl)
  obtain ⟨now, e⟩ := e
  have htime : ∀ {m : Nat}, now ≤ m ↔ ∀ b ∈ past ++ [(now, e)], b.1 ≤ m := by
    intro m
    constructor
    · intro hle b hb
      rcases List.mem_append.mp hb with hb | hb
      · exact Nat.le_trans (hpast b hb) hle
      · rwa [List.mem_singleton.mp hb]
    · exact fun hall => hall (now, e) (by simp)
  rw [Attended.step, if_pos (h.time.mpr hpast)] at hs
  have hsilent : (now, e).2.isEnd = false → w.heard = quiet (past ++ [(now, e)]) := by
    intro he
    rw [quiet_concat, delivered_eq_nil fun _ => handedAt_next he, List.append_nil, h.heard]
  cases e with
  | notify v =>
    obtain ⟨hd, rfl⟩ : w.dropped = false ∧ _ = w' := by simpa [Attended.happen] using hs
    exact ⟨h.kept.notify hfew, htime, by simp [h.dropped], hsilent rfl⟩
  | cancel =>
    obtain ⟨hd, rfl⟩ : w.dropped = false ∧ _ = w' := by simpa [Attended.happen] using hs
    exact ⟨h.kept.cancel hfew, htime, by simp [h.dropped], hsilent rfl⟩
  | drop =>
    obtain ⟨hd, rfl⟩ : w.dropped = false ∧ _ = w' := by simpa [Attended.happen] using hs
    exact ⟨h.kept.drop, htime, by simp, hsilent rfl⟩
  | expire =>
    obtain ⟨t, v, hl, -⟩ := due_iff.mp hposs
    obtain ⟨hd, rfl⟩ : w.debounce.isDue now = true ∧ _ = w' := by simpa [Attended.happen] using hs
    refine ⟨h.kept.fire hl, htime, by simp [h.dropped], ?_⟩
    rw [quiet_concat, hl, h.kept.fire_eq hl, h.heard]
    rfl
  | runOut n =>
    obtain ⟨t, v, hl, -⟩ := due_iff.mp hposs.1
    obtain ⟨hd, rfl⟩ : (w.debounce.isDue now = true ∧ _) ∧ _ = w' := by simpa [Attended.happen] using hs
    obtain rfl : n = w.debounce.number := hposs.2.trans h.kept.number.symm
    exact ⟨h.kept.expire hl, htime, by simp [h.dropped], hsilent rfl⟩
  | look n =>
    obtain ⟨hn, rfl⟩ : n ∈ w.debounce.expired ∧ _ = w' := by simpa [Attended.happen] using hs
    obtain ⟨hkept, hheard⟩ := @Kept.take _ _ now _ _ h.kept _ hn
    exact ⟨hkept, htime, by simp [h.dropped], by rw [quiet_concat, hheard, h.heard]⟩

theorem of_run {events : List (Nat × Event α)} (hfew : Few events)
    (h : Steps.run Attended.step { debounce := { delay } } events = some w) : Follows delay events w := by
  have := @Steps.run_induction _ _ Attended.step
    (fun past w => Few (past.map Prod.snd) → Follows delay (past.map Prod.snd) w)
    (fun hp hs hfew => by
      rw [List.map_append] at hfew ⊢
      exact (hp hfew.of_append).next hfew hs)
    events [] _ _ (fun _ => start delay) h
  rw [List.nil_append, Steps.history_map_snd h] at this
  exact this hfew

end Follows

end Retrace.Live.Debounce
