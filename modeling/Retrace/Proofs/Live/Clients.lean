import Retrace.Proofs.Live.Queue

/-!
# Flushes and shutdowns of the display

A flush that is acknowledged and a shutdown that returns have waited for all that was queued before them. No flush
waits for ever, and nothing is shown after a shutdown has returned.
-/

namespace Retrace.Live.Clients

/-- The text of a call has been shown in its turn, or the worker took it and found its token cancelled. -/
def Handled (past : List (Clients × Action)) (w : Clients) (p : Nat) : Prop :=
  ∃ n t text, (past.filterMap sentBy)[n]? = some (p, .publish t text) ∧
    ((past.filterMap takenBy)[n]? = some (.publish t text, false) ∨
      (past.filterMap takenBy)[n]? = some (.publish t text, true) ∧
        w.display.shown.reverse[(((past.filterMap takenBy).take n).filterMap shows).length]? = some (t, text))

/-- The command of a call was queued behind a shutdown. -/
def Behind (past : List (Clients × Action)) (p : Nat) : Prop :=
  ∃ front c back, past.filterMap sentBy = front ++ (p, c) :: back ∧ .shutDown ∈ front.map Prod.snd

variable {w w' : Clients} {a : Action} {past : List (Clients × Action)}

theorem getElem?_filterMap_of_some {α β : Type} {f : α → Option β} {xs : List α} {n : Nat} {x : α} {y : β}
    (h : xs[n]? = some x) (hf : f x = some y) : (xs.filterMap f)[((xs.take n).filterMap f).length]? = some y := by
  obtain ⟨hn, rfl⟩ := List.getElem?_eq_some_iff.mp h
  have hsplit : xs.filterMap f = (xs.take n).filterMap f ++ y :: (xs.drop (n + 1)).filterMap f := by
    rw [← List.filterMap_cons_some hf, List.getElem_cons_drop, ← List.filterMap_append, List.take_append_drop]
  rw [hsplit, List.getElem?_append_right (Nat.le_refl _), Nat.sub_self, List.getElem?_cons_zero]

namespace Ledger

/-- Of the texts that were taken all are shown, but for one that is under way. -/
theorem shown (h : Ledger past w) : ∃ seen rest, past.filterMap takenBy = seen ++ rest ∧ rest.length ≤ 1 ∧
    w.display.shown.reverse = seen.filterMap shows ∧ (w.display.closed = true → rest = []) := by
  cases hs : w.display.shower with
  | showing t text =>
    obtain ⟨front, hfront⟩ := h.showing t text hs
    refine ⟨front, _, hfront, Nat.le_refl 1, ?_, by simp [Display.closed, hs]⟩
    have hwritten := h.written
    rw [hfront, Display.written, Display.underway_of_showing hs, List.filterMap_append] at hwritten
    exact List.append_inj_left' hwritten rfl
  | idle | ended =>
    refine ⟨_, [], (List.append_nil _).symm, Nat.zero_le 1, ?_, fun _ => rfl⟩
    rw [← h.written, Display.written, Display.underway, hs, List.append_nil]

/-- A text that was queued before a command that has been taken since, or before the end, has been handled. -/
theorem handled_of_lt (h : Ledger past w) {n p : Nat} {t : Token} {text : String}
    (hp : (past.filterMap sentBy)[n]? = some (p, .publish t text)) (hn : n < (past.filterMap takenBy).length)
    (hlast : n + 1 < (past.filterMap takenBy).length ∨ w.display.closed = true) : Handled past w p := by
  obtain ⟨lost, horder, -⟩ := h.order
  obtain ⟨active, hactive⟩ : ∃ active, (past.filterMap takenBy)[n]? = some (.publish t text, active) := by
    have hsame : ((past.filterMap takenBy).map Prod.fst)[n]? = some (.publish t text) := by
      have := congrArg (·[n]?) horder
      rw [List.getElem?_map, hp, List.append_assoc, List.getElem?_append_left (by simpa using hn)] at this
      exact this.symm
    rw [List.getElem?_map, Option.map_eq_some_iff] at hsame
    obtain ⟨⟨c, active⟩, hc, rfl⟩ := hsame
    exact ⟨active, hc⟩
  refine ⟨n, t, text, hp, ?_⟩
  cases active with
  | false => exact Or.inl hactive
  | true =>
    refine Or.inr ⟨hactive, ?_⟩
    obtain ⟨seen, rest, htaken, hrest, hshown, hclosed⟩ := h.shown
    have hseen : n < seen.length := by
      rcases hlast with hlast | hc
      · rw [htaken, List.length_append] at hlast
        omega
      · rw [htaken, hclosed hc, List.append_nil] at hn
        exact hn
    rw [htaken, List.getElem?_append_left hseen] at hactive
    rw [hshown, htaken, List.take_append_of_le_length (Nat.le_of_lt hseen)]
    exact getElem?_filterMap_of_some hactive rfl

end Ledger

/-- What the past of the calls and the queue accounts for. -/
structure Kept (past : List (Clients × Action)) (w : Clients) : Prop where
  ledger : Ledger past w
  calls : Calls past w

theorem Kept.next (h : Kept past w) (hstep : w.step a = some w') : Kept (past ++ [(w, a)]) w' :=
  ⟨h.ledger.next hstep, h.calls.next hstep⟩

theorem Kept.of_run {acts : List Action} (h : Steps.run step {} acts = some w) :
    Kept (Steps.history step {} acts) w :=
  Steps.run_induction (P := Kept) Kept.next ⟨Ledger.start, Calls.start⟩ h

section
variable {u : Clients} {before after : List (Clients × Action)}

theorem sent_append {n : Nat} {x : Nat × Command} (h : (before.filterMap sentBy)[n]? = some x) :
    ((before ++ after).filterMap sentBy)[n]? = some x := by
  rw [List.filterMap_append, List.getElem?_append_left (List.getElem?_eq_some_iff.mp h).1, h]

variable (hu : Kept before u) (hw : Kept (before ++ after) w)
include hu hw

/-- A flush that began later and was acknowledged has waited for the text. -/
theorem handled_of_flushed (hi : w.calls[u.calls.size]? = some (.flushed true)) {p : Nat}
    (hp : u.calls[p]? = some (.published true)) : Handled (before ++ after) w p := by
  obtain ⟨t, text, hmem⟩ := hu.calls.sound hp rfl
  obtain ⟨n, hn⟩ := List.mem_iff_getElem?.mp hmem
  have hlt := (List.getElem?_eq_some_iff.mp hn).1
  have htaken : .flush u.calls.size ∈ ((before ++ after).filterMap takenBy).map Prod.fst :=
    (hw.ledger.acknowledged _).mp (hw.calls.sound hi rfl)
  obtain ⟨k, hk⟩ := List.mem_iff_getElem?.mp htaken
  have hktaken := (List.getElem?_eq_some_iff.mp hk).1
  obtain ⟨lost, horder, -⟩ := hw.ledger.order
  have hsent : (((before ++ after).filterMap sentBy).map Prod.snd)[k]? = some (.flush u.calls.size) := by
    rw [horder, List.append_assoc, List.getElem?_append_left hktaken, hk]
  -- the request is not among those sent before the flush began
  have hlater : (before.filterMap sentBy).length ≤ k := by
    refine Nat.le_of_not_lt fun hlt => ?_
    rw [List.filterMap_append, List.map_append, List.getElem?_append_left (by simpa using hlt),
      List.getElem?_map, Option.map_eq_some_iff] at hsent
    obtain ⟨⟨j, c⟩, hj, rfl⟩ := hsent
    obtain ⟨hlt, hown⟩ := hu.calls.own (List.mem_of_getElem? hj)
    exact Nat.lt_irrefl _ (hown _ rfl ▸ hlt)
  rw [List.length_map] at hktaken
  exact hw.ledger.handled_of_lt (sent_append hn) (by omega) (Or.inl (by omega))

/-- A shutdown that has returned has waited for the text, unless that was queued behind a shutdown. -/
theorem handled_of_closed {i : Nat} (hi : w.calls[i]? = some .closed) {p : Nat}
    (hp : u.calls[p]? = some (.published true)) (hbehind : ¬Behind before p) : Handled (before ++ after) w p := by
  have hclosed : w.display.closed = true := hw.calls.sound hi
  obtain ⟨t, text, hmem⟩ := hu.calls.sound hp rfl
  obtain ⟨n, hn⟩ := List.mem_iff_getElem?.mp hmem
  obtain ⟨hlt, hget⟩ := List.getElem?_eq_some_iff.mp hn
  obtain ⟨lost, horder, -⟩ := hw.ledger.order
  obtain ⟨-, front, htaken, -⟩ := hw.ledger.ended hclosed
  have htime : n < ((before ++ after).filterMap takenBy).length := by
    refine Nat.lt_of_not_le fun hle => hbehind ?_
    have hfront : front.length < n := by
      rw [htaken, List.length_append, List.length_singleton] at hle
      omega
    have hsplit : before.filterMap sentBy = (before.filterMap sentBy).take n ++
        (p, .publish t text) :: (before.filterMap sentBy).drop (n + 1) := by
      rw [← hget, List.getElem_cons_drop, List.take_append_drop]
    refine ⟨_, _, _, hsplit, ?_⟩
    have hshut : (((before ++ after).filterMap sentBy).map Prod.snd)[front.length]? = some .shutDown := by
      rw [horder, htaken]
      simp
    rw [List.filterMap_append, List.map_append, List.getElem?_append_left (by rw [List.length_map]; omega)] at hshut
    rw [List.map_take]
    exact List.mem_of_getElem? ((List.getElem?_take_of_lt hfront).trans hshut)
  exact hw.ledger.handled_of_lt (sent_append hn) htime (Or.inr hclosed)

end

/-! ## Flushes return -/

/-- The worker makes a step. -/
def byWorker : Action → Bool
  | .take | .put => true
  | _ => false

/-- After fewer than `n` steps of the worker the flush need not wait. -/
def Due (i n : Nat) (d : Display) : Prop :=
  d.closed = true ∨ i ∈ d.acknowledged ∨
    ∃ front back, d.queue = front ++ .flush i :: back ∧ 2 * front.length + d.underway.length < n

theorem Due.mono {i n : Nat} {d d' : Display} (h : Due i n d) (hclosed : d.closed = true → d'.closed = true)
    (hack : ∀ j ∈ d.acknowledged, j ∈ d'.acknowledged) (hq : ∃ back, d'.queue = d.queue ++ back)
    (hunder : d'.underway = d.underway) : Due i n d' := by
  obtain ⟨more, hmore⟩ := hq
  rcases h with h | h | ⟨front, back, hfront, hlt⟩
  · exact Or.inl (hclosed h)
  · exact Or.inr (Or.inl (hack _ h))
  · exact Or.inr (Or.inr ⟨front, back ++ more, by rw [hmore, hfront]; simp, by rwa [hunder]⟩)

theorem Due.take {i n : Nat} {d d' : Display} {r : Registry} (h : Due i n d) (hd : d.take r = some d') :
    Due i (n - 1) d' := by
  obtain ⟨hidle, c, rest, hq, hcases⟩ := Display.take_some hd
  rcases h with h | h | ⟨front, back, hfront, hlt⟩
  · simp [Display.closed, hidle] at h
  · rcases hcases with ⟨t, text, -, -, rfl⟩ | ⟨t, text, -, -, rfl⟩ | ⟨j, -, rfl⟩ | ⟨-, rfl⟩
    · exact Or.inr (Or.inl h)
    · exact Or.inr (Or.inl h)
    · exact Or.inr (Or.inl (List.mem_cons_of_mem _ h))
    · exact Or.inl rfl
  · rw [hfront] at hq
    cases front with
    | nil =>
      obtain ⟨rfl, rfl⟩ := List.cons.inj hq
      rcases hcases with ⟨t, text, hc, -⟩ | ⟨t, text, hc, -⟩ | ⟨j, hc, rfl⟩ | ⟨hc, -⟩ <;> cases hc
      exact Or.inr (Or.inl (List.mem_cons_self ..))
    | cons x front =>
      obtain ⟨rfl, rfl⟩ := List.cons.inj hq
      have hunder : d.underway = [] := Display.underway_of_idle hidle
      simp only [hunder, List.length_cons, List.length_nil] at hlt
      rcases hcases with ⟨t, text, -, -, rfl⟩ | ⟨t, text, -, -, rfl⟩ | ⟨j, -, rfl⟩ | ⟨-, rfl⟩
      · exact Or.inr (Or.inr ⟨front, back, rfl, by simp [Display.underway, hidle]; omega⟩)
      · exact Or.inr (Or.inr ⟨front, back, rfl, by simp [Display.underway]; omega⟩)
      · exact Or.inr (Or.inr ⟨front, back, rfl, by simp [Display.underway, hidle]; omega⟩)
      · exact Or.inl rfl

theorem Due.put {i n : Nat} {d d' : Display} (h : Due i n d) (hd : d.put = some d') : Due i (n - 1) d' := by
  obtain ⟨t, text, hs, rfl⟩ := Display.put_some hd
  rcases h with h | h | ⟨front, back, hfront, hlt⟩
  · simp [Display.closed, hs] at h
  · exact Or.inr (Or.inl h)
  · rw [Display.underway_of_showing hs, List.length_singleton] at hlt
    exact Or.inr (Or.inr ⟨front, back, hfront, by simp [Display.underway]; omega⟩)

theorem Due.calm {i n : Nat} (h : Due i n w.display) (ha : byWorker a = false) (hstep : w.step a = some w') :
    Due i n w'.display := by
  have hsame {d : Display} (hq : d.queue = w.display.queue) (hs : d.shower = w.display.shower)
      (hack : d.acknowledged = w.display.acknowledged) : Due i n d :=
    h.mono (by simp [Display.closed, hs]) (fun j hj => hack ▸ hj) ⟨[], by rw [hq, List.append_nil]⟩
      (by simp [Display.underway, hs])
  rcases step_cases hstep with ⟨c, -, rfl, -⟩ | ⟨j, rfl, hp⟩ | ⟨rfl, -⟩ | ⟨rfl, -⟩ | ⟨r, g, rfl, -⟩
  · exact hsame rfl rfl rfl
  · obtain ⟨c, -, ⟨command, -, rfl⟩ | ⟨-, c', -, rfl⟩⟩ := proceed_some hp
    · cases ho : w.display.closed with
      | true => exact hsame (by simp [Display.send, ho]) (by simp [Display.send, ho]) (by simp [Display.send, ho])
      | false =>
        rw [Display.send_of_open ho]
        exact h.mono (fun hc => hc) (fun _ hj => hj) ⟨[command], rfl⟩ rfl
    · exact hsame rfl rfl rfl
  · cases ha
  · cases ha
  · exact hsame rfl rfl rfl

theorem Due.next {i n : Nat} (h : Due i n w.display) (hstep : w.step a = some w') :
    Due i (n - if byWorker a then 1 else 0) w'.display := by
  cases ha : byWorker a with
  | false => exact h.calm ha hstep
  | true =>
    cases a with
    | take =>
      obtain ⟨d, hd, rfl⟩ := Option.map_eq_some_iff.mp hstep
      exact h.take hd
    | put =>
      obtain ⟨d, hd, rfl⟩ := Option.map_eq_some_iff.mp hstep
      exact h.put hd
    | _ => cases ha

theorem Due.run {i n : Nat} {acts : List Action} (h : Due i n w.display) (hrun : Steps.run step w acts = some w') :
    Due i (n - acts.countP byWorker) w'.display := by
  induction acts generalizing w n with
  | nil =>
    cases hrun
    exact h
  | cons a acts ih =>
    obtain ⟨u, hu, hrun⟩ := Steps.run_cons_eq_some.mp hrun
    have hmore := ih (h.next hu) hrun
    rwa [Nat.sub_sub, Nat.add_comm, ← List.countP_cons] at hmore

theorem turn_awaiting {i : Nat} {c : Client} (h : w.turn i .awaiting = some c) : ∃ b, c = .flushed b := by
  simp only [turn] at h
  split at h
  · exact ⟨true, (Option.some.inj h).symm⟩
  · split at h
    · exact ⟨false, (Option.some.inj h).symm⟩
    · cases h

theorem turn_awaiting_isSome {i : Nat} : (w.turn i .awaiting).isSome = true ↔
    i ∈ w.display.acknowledged ∨ w.display.closed = true := by
  simp only [turn]
  split
  · simp_all
  · split <;> simp_all

theorem proceed_isSome {i : Nat} {c : Client} (hc : w.calls[i]? = some c) (hcommand : c.command i = none) :
    (w.proceed i).isSome = (w.turn i c).isSome := by
  simp [proceed, hc, hcommand]

/-- A flush waits or has returned. -/
def Flushing (c : Client) : Prop := c = .awaiting ∨ ∃ b, c = .flushed b

theorem flushing_next {i : Nat} {c : Client} (hc : w.calls[i]? = some c) (hf : Flushing c)
    (hstep : w.step a = some w') : ∃ c', w'.calls[i]? = some c' ∧ Flushing c' := by
  have hset {j : Nat} {c₁ c₂ : Client} (hj : w.calls[j]? = some c₁) (h₁ : Flushing c₁ → Flushing c₂) :
      ∃ c', (w.calls.setIfInBounds j c₂)[i]? = some c' ∧ Flushing c' := by
    by_cases hij : j = i
    · subst hij
      obtain rfl := Option.some.inj (hc.symm.trans hj)
      exact ⟨c₂, Array.getElem?_setIfInBounds_self_of_lt (getElem?_lt hc), h₁ hf⟩
    · exact ⟨c, by rw [Array.getElem?_setIfInBounds_ne hij]; exact hc, hf⟩
  rcases step_cases hstep with ⟨c', -, rfl, -⟩ | ⟨j, rfl, hp⟩ | ⟨rfl, d, -, rfl⟩ | ⟨rfl, d, -, rfl⟩ | ⟨r, g, rfl, -⟩
  · exact ⟨c, getElem?_push_of_some hc _, hf⟩
  · obtain ⟨c₁, hj, ⟨command, hcommand, rfl⟩ | ⟨-, c₂, hturn, rfl⟩⟩ := proceed_some hp
    · refine hset hj fun h₁ => ?_
      rcases h₁ with rfl | ⟨b, rfl⟩ <;> cases hcommand
    · refine hset hj fun h₁ => ?_
      rcases h₁ with rfl | ⟨b, rfl⟩
      · obtain ⟨b, rfl⟩ := turn_awaiting hturn
        exact Or.inr ⟨b, rfl⟩
      · cases hturn
  · exact ⟨c, hc, hf⟩
  · exact ⟨c, hc, hf⟩
  · exact ⟨c, hc, hf⟩

theorem flushing_run {i : Nat} {acts : List Action} {c : Client} (hc : w.calls[i]? = some c) (hf : Flushing c)
    (hrun : Steps.run step w acts = some w') : ∃ c', w'.calls[i]? = some c' ∧ Flushing c' := by
  induction acts generalizing w c with
  | nil =>
    cases hrun
    exact ⟨c, hc, hf⟩
  | cons a acts ih =>
    obtain ⟨u, hu, hrun⟩ := Steps.run_cons_eq_some.mp hrun
    obtain ⟨c', hc', hf'⟩ := flushing_next hc hf hu
    exact ih hc' hf' hrun

/-- The request of a flush that waits has been acknowledged or dropped, or it is in the queue. -/
theorem Kept.awaiting (h : Kept past w) {i : Nat} (hi : w.calls[i]? = some .awaiting) :
    w.display.closed = true ∨ i ∈ w.display.acknowledged ∨ .flush i ∈ w.display.queue := by
  have hsent : .flush i ∈ (past.filterMap sentBy).map Prod.snd := List.mem_map_of_mem (h.calls.sound hi)
  obtain ⟨lost, horder, hlost⟩ := h.ledger.order
  rw [horder, List.mem_append, List.mem_append] at hsent
  rcases hsent with (htaken | hqueue) | hmem
  · exact Or.inr (Or.inl ((h.ledger.acknowledged i).mpr htaken))
  · exact Or.inr (Or.inr hqueue)
  · cases ho : w.display.closed with
    | true => exact Or.inl rfl
    | false =>
      rw [hlost ho] at hmem
      cases hmem

/-- A flush returns once the worker has made as many steps as there were commands in the queue, twice over, or has
ended. -/
theorem Kept.flush_returns (h : Kept past w) {i : Nat} (hi : w.calls[i]? = some .awaiting) {acts : List Action}
    (hrun : Steps.run step w acts = some w')
    (hworked : 2 * w.display.queue.length ≤ acts.countP byWorker ∨ w'.display.closed = true) :
    (∃ b, w'.calls[i]? = some (.flushed b)) ∨ (w'.step (.proceed i)).isSome := by
  obtain ⟨c, hc, rfl | ⟨b, rfl⟩⟩ := flushing_run hi (Or.inl rfl) hrun
  · refine Or.inr ?_
    show (w'.proceed i).isSome = true
    rw [proceed_isSome hc rfl, turn_awaiting_isSome]
    rcases hworked with hworked | hclosed
    · have hdue : Due i (2 * w.display.queue.length) w.display := by
        refine (h.awaiting hi).imp_right fun hrest => hrest.imp_right fun hmem => ?_
        obtain ⟨front, back, hq⟩ := List.append_of_mem hmem
        refine ⟨front, back, hq, ?_⟩
        have hunder : w.display.underway.length ≤ 1 := by
          unfold Display.underway
          split <;> simp
        rw [hq, List.length_append, List.length_cons]
        omega
      rcases hdue.run hrun with hclosed | hack | ⟨front, back, -, hlt⟩
      · exact Or.inr hclosed
      · exact Or.inl hack
      · omega
    · exact Or.inr hclosed
  · exact Or.inl ⟨b, hc⟩

/-- While a flush waits the worker can make a step, unless somebody else holds the gate. -/
theorem Kept.worker_goes_on (h : Kept past w) {i : Nat} (hi : w.calls[i]? = some .awaiting)
    (hwait : w.step (.proceed i) = none) (hgate : w.display.gateHeld = false) :
    (w.step .take).isSome ∨ (w.step .put).isSome := by
  have hturn : (w.turn i .awaiting).isSome = false := by
    rw [← proceed_isSome hi rfl]
    exact Option.isSome_eq_false_iff.mpr (Option.isNone_iff_eq_none.mpr hwait)
  have hnot : ¬(i ∈ w.display.acknowledged ∨ w.display.closed = true) := by
    rw [← turn_awaiting_isSome, hturn]
    exact Bool.false_ne_true
  rcases h.awaiting hi with hclosed | hack | hmem
  · exact absurd (Or.inr hclosed) hnot
  · exact absurd (Or.inl hack) hnot
  cases hs : w.display.shower with
  | showing t text => exact Or.inr (by simp [step, Display.put, hs])
  | ended => exact absurd (Or.inr (Display.closed_iff.mpr hs)) hnot
  | idle =>
    refine Or.inl ?_
    cases hq : w.display.queue with
    | nil => simp [hq] at hmem
    | cons c rest =>
      cases c with
      | publish t text =>
        cases hc : w.registry.isCancelled t <;> simp [step, Display.take, hs, hq, hgate, hc]
      | flush j => simp [step, Display.take, hs, hq]
      | shutDown => simp [step, Display.take, hs, hq]

/-! ## After the end -/

/-- Nothing has been shown and no text has been queued since. -/
structure Silent (u w : Clients) : Prop where
  closed : w.display.closed = true
  shown : w.display.shown = u.display.shown
  refused : ∀ p : Nat, w.calls[p]? = some (.published true) → u.calls[p]? = some (.published true)

theorem Silent.next {u : Clients} (h : Silent u w) (hstep : w.step a = some w') : Silent u w' := by
  have hset {i : Nat} {c : Client} (hc : c ≠ .published true) : ∀ p : Nat,
      (w.calls.setIfInBounds i c)[p]? = some (.published true) → u.calls[p]? = some (.published true) := by
    intro p hp
    rcases getElem?_setIfInBounds_cases hp with ⟨rfl, rfl⟩ | ⟨-, hp⟩
    · exact absurd rfl hc
    · exact h.refused p hp
  rcases step_cases hstep with ⟨c, hc, rfl, -⟩ | ⟨i, rfl, hp⟩ | ⟨rfl, d, hd, rfl⟩ | ⟨rfl, d, hd, rfl⟩ | ⟨r, g, rfl, -⟩
  · refine ⟨h.closed, h.shown, fun p hp => ?_⟩
    rcases getElem?_push_cases hp with hp | ⟨-, rfl⟩
    · exact h.refused p hp
    · rcases hc with ⟨t, o, hc⟩ | hc | ⟨hc, -⟩ <;> cases hc
  · obtain ⟨c, -, ⟨command, hcommand, rfl⟩ | ⟨-, c', hturn, rfl⟩⟩ := proceed_some hp
    · rw [Display.send_of_closed h.closed]
      refine ⟨h.closed, h.shown, hset ?_⟩
      unfold Client.sent
      split <;> (try split) <;> simp_all
      rintro rfl
      cases hcommand
    · refine ⟨h.closed, h.shown, hset ?_⟩
      rintro rfl
      unfold turn at hturn
      split at hturn
      · split at hturn <;> cases hturn
      · split at hturn
        · cases hturn
        · split at hturn <;> cases hturn
      · split at hturn <;> cases hturn
      · cases hturn
  · obtain ⟨hidle, -⟩ := Display.take_some hd
    cases hidle.symm.trans (Display.closed_iff.mp h.closed)
  · obtain ⟨t, text, hs, -⟩ := Display.put_some hd
    cases hs.symm.trans (Display.closed_iff.mp h.closed)
  · exact ⟨h.closed, h.shown, h.refused⟩

theorem Silent.run {u : Clients} {acts : List Action} (h : Silent u w) (hrun : Steps.run step w acts = some w') :
    Silent u w' := by
  induction acts generalizing w with
  | nil =>
    cases hrun
    exact h
  | cons a acts ih =>
    obtain ⟨v, hv, hrun⟩ := Steps.run_cons_eq_some.mp hrun
    exact ih (h.next hv) hrun

/-- A display and its clients, after any steps. What the worker has taken is the front of what was queued, in order;
the rest waits, or was dropped when the worker ended. The texts found wanted are shown in that order. -/
theorem commands_in_order_and_barriers_hold {acts : List Action} (h : Steps.run step {} acts = some w) :
    (∃ dropped, ((Steps.history step {} acts).filterMap sentBy).map Prod.snd =
        ((Steps.history step {} acts).filterMap takenBy).map Prod.fst ++ w.display.queue ++ dropped ∧
      (w.display.closed = false → dropped = [])) ∧
    w.display.written = ((Steps.history step {} acts).filterMap takenBy).filterMap shows ∧
    -- an acknowledged flush
    (∀ before after u, acts = before ++ .flush :: after → Steps.run step {} before = some u →
      w.calls[u.calls.size]? = some (.flushed true) →
        ∀ p : Nat, u.calls[p]? = some (.published true) → Handled (Steps.history step {} acts) w p) ∧
    -- a shutdown that has returned
    (∀ before after u, acts = before ++ .shutDown :: after → Steps.run step {} before = some u →
      w.calls[u.calls.size]? = some .closed → ∀ p : Nat, u.calls[p]? = some (.published true) →
        ¬Behind (Steps.history step {} before) p → Handled (Steps.history step {} acts) w p) ∧
    -- a flush that has not returned
    (∀ i : Nat, w.calls[i]? = some .flushing → (w.step (.proceed i)).isSome) ∧
    (∀ i : Nat, w.calls[i]? = some .awaiting →
      (w.step (.proceed i) = none → w.display.gateHeld = false → (w.step .take).isSome ∨ (w.step .put).isSome) ∧
      ∀ more v, Steps.run step w more = some v →
        2 * w.display.queue.length ≤ more.countP byWorker ∨ v.display.closed = true →
          (∃ b, v.calls[i]? = some (.flushed b)) ∨ (v.step (.proceed i)).isSome) ∧
    -- whatever comes after a shutdown
    ∀ i : Nat, w.calls[i]? = some .closed → ∀ more v, Steps.run step w more = some v →
      v.display.shower = .ended ∧ v.display.shown = w.display.shown ∧
        ∀ p : Nat, v.calls[p]? = some (.published true) → w.calls[p]? = some (.published true) := by
  have hw := Kept.of_run h
  refine ⟨hw.ledger.order, hw.ledger.written, ?_, ?_, fun i hi => by simp [step, proceed, hi, Client.command], ?_, ?_⟩
  · rintro before after u rfl hu hi p hp
    rw [Steps.history_append hu] at hw ⊢
    exact handled_of_flushed (Kept.of_run hu) hw hi hp
  · rintro before after u rfl hu hi p hp hbehind
    rw [Steps.history_append hu] at hw ⊢
    exact handled_of_closed (Kept.of_run hu) hw hi hp hbehind
  · intro i hi
    exact ⟨hw.worker_goes_on hi, fun more v hmore hworked => hw.flush_returns hi hmore hworked⟩
  · intro i hi more v hmore
    have hclosed : w.display.closed = true := hw.calls.sound hi
    have hsilent := Silent.run ⟨hclosed, rfl, fun p hp => hp⟩ hmore
    exact ⟨Display.closed_iff.mp hsilent.closed, hsilent.shown, hsilent.refused⟩

/-- Two texts are queued before a flush, and the run of the second one is cancelled. -/
def beforeFlush : List Action :=
  [.newToken 1, .newToken 2, .publish ⟨0, 1⟩ (.completed "one" "" none), .proceed 0, .proceed 0,
    .publish ⟨1, 2⟩ (.completed "two" "" none), .proceed 1, .proceed 1]

/-- A text and another flush come behind a shutdown, and one more text comes after it. -/
def throughShutdown : List Action :=
  [.proceed 2, .cancel ⟨1, 2⟩, .shutDown, .proceed 3, .publish ⟨0, 1⟩ (.completed "three" "" none), .proceed 4,
    .proceed 4, .flush, .proceed 5, .take, .put, .take, .take, .proceed 2, .take, .proceed 5, .proceed 3,
    .publish ⟨0, 1⟩ (.completed "four" "" none), .proceed 6, .proceed 6]

theorem commands_in_order_when_shut_down : ∃ w,
    Steps.run step {} (beforeFlush ++ .flush :: throughShutdown) = some w ∧
    w.display.written = [(⟨0, 1⟩, "one")] ∧
    w.calls.toList = [.published true, .published true, .flushed true, .closed, .published true, .flushed false,
      .published false] ∧
    (∀ p : Nat, p < 2 → Handled (Steps.history step {} (beforeFlush ++ .flush :: throughShutdown)) w p) ∧
    ∀ more v, Steps.run step w more = some v → v.display.shown = w.display.shown := by
  have hrun : Steps.run step {} (beforeFlush ++ .flush :: throughShutdown) =
      some ((Steps.run step {} (beforeFlush ++ .flush :: throughShutdown)).get rfl) := rfl
  obtain ⟨-, -, hflush, -, -, -, hafter⟩ := commands_in_order_and_barriers_hold hrun
  refine ⟨_, hrun, by decide, by decide, fun p hp => ?_, fun more v hmore => (hafter 3 (by decide) more v hmore).2.1⟩
  refine hflush beforeFlush throughShutdown _ rfl rfl (by decide) p ?_
  obtain rfl | rfl : p = 0 ∨ p = 1 := by omega
  · decide
  · decide

end Retrace.Live.Clients
