import Retrace.Proofs.Live.Newest

/-!
# Results on their way to the display

A result waits in the queue, is under way while the display's worker holds the gate, and then has been shown. No run
has more than one result among these, and those that are shown or under way come in the order in which their runs
were started.
-/

namespace Retrace.Live

/-- The result that a command brings. -/
def Command.result : Command → Option (Token × String)
  | .publish t text => some (t, text)
  | _ => none

/-- The publisher is through with the outcome. -/
def Stage.isOver : Stage → Bool
  | .published | .done => true
  | _ => false

namespace Display

/-- The results that wait in the queue. -/
def waiting (d : Display) : List (Token × String) := d.queue.filterMap Command.result

/-- The result that is being shown. -/
def underway (d : Display) : List (Token × String) :=
  match d.shower with
  | .showing t text => [(t, text)]
  | _ => []

/-- The results that have been shown or are being shown, in order. -/
def written (d : Display) : List (Token × String) := d.shown.reverse ++ d.underway

/-- All results that were queued and have not been dropped, in order. -/
def results (d : Display) : List (Token × String) := d.written ++ d.waiting

/-- The display has not been told to end, and nobody keeps the gate. -/
structure Serving (d : Display) : Prop where
  running : d.shower ≠ .ended
  kept : .shutDown ∉ d.queue
  gate : d.gateHeld = false

theorem underway_of_showing {d : Display} {t : Token} {text : String} (h : d.shower = .showing t text) :
    d.underway = [(t, text)] := by
  simp [underway, h]

theorem underway_of_idle {d : Display} (h : d.shower = .idle) : d.underway = [] := by
  simp [underway, h]

theorem mem_underway {d : Display} {t : Token} {text : String} :
    (t, text) ∈ d.underway ↔ d.shower = .showing t text := by
  unfold underway
  split
  · rename_i u x hs; simp [hs, eq_comm]
  · rename_i hn; simpa using fun h => hn t text h

theorem put_some {d d' : Display} (h : d.put = some d') :
    ∃ t text, d.shower = .showing t text ∧ d' = { d with shower := .idle, shown := (t, text) :: d.shown } := by
  unfold put at h
  split at h
  · rename_i t text hs; exact ⟨t, text, hs, (Option.some.inj h).symm⟩
  · cases h

theorem written_put {d d' : Display} (h : d.put = some d') : d'.written = d.written := by
  obtain ⟨t, text, hs, rfl⟩ := put_some h
  simp [written, underway, hs]

theorem results_put {d d' : Display} (h : d.put = some d') : d'.results = d.results := by
  obtain ⟨t, text, hs, rfl⟩ := put_some h
  rw [results, written_put h]
  rfl

namespace Serving

variable {d d' : Display} (h : d.Serving)
include h

theorem send (c : Command) : d.send c = (true, { d with queue := d.queue ++ [c] }) := by
  have : d.closed = false := by simpa [closed] using h.running
  simp [Display.send, this]

theorem results_send (c : Command) : (d.send c).2.results = d.results ++ c.result.toList := by
  rw [h.send]
  simp only [results, written, underway, waiting, List.filterMap_append, List.append_assoc]
  cases hc : c.result <;> simp [hc]

/-- The display's worker takes a result, whose token decides on it, or acknowledges a flush. -/
theorem take_some {r : Registry} (ht : d.take r = some d') : d.shower = .idle ∧
    ((∃ t text rest, d.queue = .publish t text :: rest ∧
        (r.isCancelled t = true ∧ d' = { d with queue := rest } ∨
          r.isCancelled t = false ∧ d' = { d with queue := rest, shower := .showing t text })) ∨
      ∃ c rest, d.queue = .flush c :: rest ∧
        d' = { d with queue := rest, acknowledged := c :: d.acknowledged }) := by
  unfold take at ht
  split at ht
  · rename_i t text rest hi hq
    refine ⟨hi, Or.inl ⟨t, text, rest, hq, ?_⟩⟩
    rw [if_neg (by simp [h.gate])] at ht
    split at ht <;> rename_i hc
    · exact Or.inl ⟨hc, (Option.some.inj ht).symm⟩
    · exact Or.inr ⟨by simpa using hc, (Option.some.inj ht).symm⟩
  · rename_i c rest hi hq
    exact ⟨hi, Or.inr ⟨c, rest, hq, (Option.some.inj ht).symm⟩⟩
  · rename_i rest hi hq
    exact absurd (by rw [hq]; exact List.mem_cons_self ..) h.kept
  · cases ht

end Serving

end Display

namespace Engine

/-- What holds of the display and its results after any steps. -/
structure Displaying (e : Engine) : Prop where
  serving : e.display.Serving
  known : ∀ {t : Token} {text : String}, (t, text) ∈ e.display.results →
    ∃ k, e.workers[t.id]? = some k ∧ k.token = t ∧ k.stage.isOver = true
  once : (e.display.results.map (·.1.id)).Nodup
  increasing : (e.display.written.map (·.1.id)).Pairwise (· < ·)
  /-- While a result is being shown its scheduler has a newest run, so that a shutdown waits for the gate. -/
  guarded : ∀ {t : Token} {text : String} {k : Worker}, e.display.shower = .showing t text →
    e.workers[t.id]? = some k → ∃ s, e.schedulers[k.scheduler]? = some s ∧ s.current.isSome = true

namespace Displaying

variable {e : Engine}

theorem empty : Displaying {} where
  serving := ⟨by simp, by simp, rfl⟩
  known h := by simp [Display.results, Display.written, Display.underway, Display.waiting] at h
  once := by simp [Display.results, Display.written, Display.underway, Display.waiting]
  increasing := by simp [Display.written, Display.underway]
  guarded h := by cases h

theorem id_lt_of_result (h : e.Displaying) {r : Token × String} (hr : r ∈ e.display.results) :
    r.1.id < e.workers.size := by
  obtain ⟨k, hk, -⟩ := h.known (show (r.1, r.2) ∈ e.display.results from hr)
  exact getElem?_lt hk

theorem id_lt_of_shown (h : e.Displaying) {r : Token × String} (hr : r ∈ e.display.shown) :
    r.1.id < e.workers.size :=
  h.id_lt_of_result (List.mem_append_left _ (List.mem_append_left _ (List.mem_reverse.mpr hr)))

theorem id_lt_of_showing (h : e.Displaying) {t : Token} {text : String} (hs : e.display.shower = .showing t text) :
    t.id < e.workers.size :=
  h.id_lt_of_result (r := (t, text)) (List.mem_append_left _ (List.mem_append_right _ (Display.mem_underway.mpr hs)))

theorem setStage (h : e.Displaying) {w : Nat} {k : Worker} (hk : e.workers[w]? = some k) {g : Stage}
    (hg : k.stage.isOver = true → g.isOver = true) : (e.setStage w k g).Displaying where
  serving := h.serving
  known := by
    intro t x hr
    obtain ⟨j, hj, ht, hs⟩ := h.known hr
    by_cases hw : w = t.id
    · subst hw
      rw [hk, Option.some.injEq] at hj
      subst hj
      exact ⟨_, Array.getElem?_setIfInBounds_self_of_lt (getElem?_lt hk), ht, hg hs⟩
    · exact ⟨j, by simpa [Engine.setStage, Array.getElem?_setIfInBounds, hw] using hj, ht, hs⟩
  once := h.once
  increasing := h.increasing
  guarded hs hj := by
    rcases getElem?_setIfInBounds_cases hj with ⟨rfl, rfl⟩ | ⟨-, hj⟩
    · have := h.guarded hs hk
      exact this
    · exact h.guarded hs hj

theorem started (h : e.Displaying) {i : Nat} {s : Scheduler} (text : String) :
    (e.started i s text).Displaying where
  serving := h.serving
  known hr := by
    obtain ⟨k, hk, ht, hg⟩ := h.known hr
    exact ⟨k, getElem?_push_of_some hk _, ht, hg⟩
  once := h.once
  increasing := h.increasing
  guarded := by
    intro t x k hs hk
    rcases getElem?_push_cases hk with hk | ⟨hid, -⟩
    · obtain ⟨u, hu, hc⟩ := h.guarded hs hk
      by_cases hi : i = k.scheduler
      · subst hi
        exact ⟨_, Array.getElem?_setIfInBounds_self_of_lt (getElem?_lt hu), rfl⟩
      · exact ⟨u, by simpa [Engine.started, Array.getElem?_setIfInBounds, hi] using hu, hc⟩
    · have := h.id_lt_of_showing hs
      omega

theorem closed (h : e.Displaying) {i : Nat} {s : Scheduler} (hs : e.schedulers[i]? = some s)
    (hg : s.current.isSome = true → e.display.gateFree = true) : (e.closed i s).Displaying where
  serving := h.serving
  known hr := h.known hr
  once := h.once
  increasing := h.increasing
  guarded := by
    intro t x k hsh hk
    obtain ⟨u, hu, hc⟩ := h.guarded hsh hk
    have hi : i ≠ k.scheduler := by
      rintro rfl
      rw [hs, Option.some.injEq] at hu
      have hfree := hg (hu ▸ hc)
      have hsh : e.display.shower = .showing t x := hsh
      simp [Display.gateFree, hsh] at hfree
    exact ⟨u, by simpa [Engine.closed, Array.getElem?_setIfInBounds, hi] using hu, hc⟩

theorem cleared (h : e.Displaying) {i : Nat} {s : Scheduler} (hs : e.schedulers[i]? = some s) (g : Generation) :
    ({ e with schedulers := e.schedulers.setIfInBounds i (s.cleared g) } : Engine).Displaying where
  serving := h.serving
  known hr := h.known hr
  once := h.once
  increasing := h.increasing
  guarded := by
    intro t x k hsh hk
    obtain ⟨u, hu, hc⟩ := h.guarded hsh hk
    by_cases hi : i = k.scheduler
    · subst hi
      rw [hs, Option.some.injEq] at hu
      refine ⟨s.cleared g, Array.getElem?_setIfInBounds_self_of_lt (getElem?_lt hs), ?_⟩
      have hf := congrArg (fun f => f.2.1) (s.front_cleared g)
      rw [show (s.cleared g).current = s.current from hf, hu]
      exact hc
    · exact ⟨u, by simpa [Array.getElem?_setIfInBounds, hi] using hu, hc⟩

theorem queued (h : e.Displaying) {t : Token} {text : String}
    (hk : ∃ k, e.workers[t.id]? = some k ∧ k.token = t ∧ k.stage.isOver = true)
    (hn : t.id ∉ e.display.results.map (·.1.id)) :
    ({ e with display := (e.display.send (.publish t text)).2 } : Engine).Displaying := by
  have hr := h.serving.results_send (.publish t text)
  rw [h.serving.send] at hr ⊢
  simp only [Command.result, Option.toList_some] at hr
  refine ⟨⟨h.serving.running, ?_, h.serving.gate⟩, ?_, ?_, h.increasing, h.guarded⟩
  · simpa using h.serving.kept
  · intro u x hu
    rw [hr, List.mem_append, List.mem_singleton, Prod.mk.injEq] at hu
    rcases hu with hu | ⟨rfl, -⟩
    · exact h.known hu
    · exact hk
  · rw [hr, List.map_append, List.nodup_append]
    refine ⟨h.once, by simp, ?_⟩
    rintro a ha b hb rfl
    simp only [List.map_cons, List.map_nil, List.mem_singleton] at hb
    exact hn (hb ▸ ha)

theorem handled (h : e.Displaying) {d : Display} (hs : d.Serving) (hr : d.results.Sublist e.display.results)
    (hi : (d.written.map (·.1.id)).Pairwise (· < ·))
    (hg : ∀ {t : Token} {text : String} {k : Worker}, d.shower = .showing t text →
      e.workers[t.id]? = some k → ∃ s, e.schedulers[k.scheduler]? = some s ∧ s.current.isSome = true) :
    ({ e with display := d } : Engine).Displaying where
  serving := hs
  known hm := h.known (hr.subset hm)
  once := h.once.sublist (hr.map _)
  increasing := hi
  guarded := hg

theorem put (h : e.Displaying) {d : Display} (hp : e.display.put = some d) :
    ({ e with display := d } : Engine).Displaying := by
  have hw := Display.written_put hp
  have hr := Display.results_put hp
  obtain ⟨t, text, hs, rfl⟩ := Display.put_some hp
  exact h.handled ⟨nofun, h.serving.kept, h.serving.gate⟩ (hr ▸ List.Sublist.refl _) (hw ▸ h.increasing) nofun

theorem flushed (h : e.Displaying) (c : Nat) :
    ({ e with display := (e.display.send (.flush c)).2 } : Engine).Displaying := by
  have hr := h.serving.results_send (.flush c)
  rw [h.serving.send] at hr ⊢
  refine h.handled ⟨h.serving.running, by simpa using h.serving.kept, h.serving.gate⟩ ?_ h.increasing h.guarded
  rw [hr]
  simp [Command.result]

/-- The display's worker takes a command. A result it goes on to show is that of the newest run, so that all shown
before belong to older ones. -/
theorem take (h : e.Displaying) (hs : e.Sound) {d : Display} (ht : e.display.take e.registry = some d) :
    ({ e with display := d } : Engine).Displaying := by
  obtain ⟨hidle, ⟨t, text, rest, hq, hd⟩ | ⟨c, rest, hq, rfl⟩⟩ := h.serving.take_some ht
  · have hkept : .shutDown ∉ rest := fun hm => h.serving.kept (hq ▸ List.mem_cons_of_mem _ hm)
    have hres : e.display.results = e.display.shown.reverse ++ (t, text) :: rest.filterMap Command.result := by
      simp [Display.results, Display.written, Display.underway_of_idle hidle, Display.waiting, hq, Command.result]
    have hinc := h.increasing
    rw [Display.written, Display.underway_of_idle hidle, List.append_nil] at hinc
    rcases hd with ⟨-, rfl⟩ | ⟨ha, rfl⟩
    · refine h.handled ⟨h.serving.running, hkept, h.serving.gate⟩ ?_ h.increasing h.guarded
      rw [hres]
      simp only [Display.results, Display.written, Display.underway, hidle, Display.waiting, List.append_nil]
      exact (List.sublist_cons_self ..).append_left _
    · obtain ⟨k, hk, rfl, -⟩ := h.known (hres ▸ List.mem_append_right _ (List.mem_cons_self ..))
      refine h.handled ⟨nofun, hkept, h.serving.gate⟩ ?_ ?_ ?_
      · rw [hres]
        simp [Display.results, Display.written, Display.underway, Display.waiting]
      · simp only [Display.written, Display.underway, List.map_append, List.map_cons, List.map_nil]
        refine List.pairwise_append.mpr ⟨hinc, by simp, ?_⟩
        intro v hv w hw
        rw [List.mem_singleton] at hw
        subst hw
        -- the shown result is of another run, and no run is newer than the active one
        have hlast := hs.last_of_active hk ha
        have hne : v ≠ k.token.id := by
          have := h.once
          rw [hres, List.map_append, List.nodup_append] at this
          exact this.2.2 v hv _ (by simp)
        obtain ⟨r, hr, rfl⟩ := List.mem_map.mp hv
        have := h.id_lt_of_result (hres ▸ List.mem_append_left _ hr)
        omega
      · intro u x j hsh hj
        cases hsh
        rw [hk, Option.some.injEq] at hj
        subst hj
        obtain ⟨s, hs', hc⟩ := hs.active hk ha
        exact ⟨s, hs', by rw [hc]; rfl⟩
  · refine h.handled ⟨h.serving.running, ?_, h.serving.gate⟩ ?_ h.increasing h.guarded
    · exact fun hm => h.serving.kept (hq ▸ List.mem_cons_of_mem _ hm)
    · simp only [Display.results, Display.written, Display.underway, Display.waiting, hq]
      exact List.Sublist.refl _

/-- A run whose outcome has not been dealt with has no result yet. -/
theorem not_mem_of_not_over (h : e.Displaying) {w : Nat} {k : Worker} (hk : e.workers[w]? = some k)
    (hg : k.stage.isOver = false) : w ∉ e.display.results.map (·.1.id) := by
  intro hm
  obtain ⟨r, hr, rfl⟩ := List.mem_map.mp hm
  obtain ⟨j, hj, -, hs⟩ := h.known (show (r.1, r.2) ∈ e.display.results from hr)
  rw [hk, Option.some.injEq] at hj
  rw [hj, hs] at hg
  cases hg

theorem step (h : e.Displaying) (hs : e.Sound) {a : Action} {e' : Engine} (he : e.step a = some e') :
    e'.Displaying := by
  cases a with
  | schedule i text =>
    obtain ⟨s, -, -, rfl⟩ := schedule_some he
    exact h.started text
  | shutDown i =>
    obtain ⟨s, hi, ⟨-, rfl⟩ | ⟨-, hg, rfl⟩⟩ := shutDown_some he
    · exact h
    · exact h.closed hi hg
  | finish w o =>
    obtain ⟨k, hk, hg, rfl⟩ := finish_some he
    exact h.setStage hk (by simp [hg, Stage.isOver])
  | check w =>
    obtain ⟨k, o, hk, hg, rfl⟩ := check_some he
    exact h.setStage hk (by simp [hg, Stage.isOver])
  | send w =>
    obtain ⟨k, text, hk, hg, rfl⟩ := send_some he
    have hid := hs.id hk
    refine (h.setStage hk (g := .published) fun _ => rfl).queued
      ⟨{ k with stage := .published }, ?_, rfl, rfl⟩ ?_
    · rw [hid]
      exact Array.getElem?_setIfInBounds_self_of_lt (getElem?_lt hk)
    · rw [hid]
      exact h.not_mem_of_not_over hk (by simp [hg, Stage.isOver])
  | clear w =>
    obtain ⟨k, s, hk, hg, hi, rfl⟩ := clear_some he
    exact (h.setStage hk (g := .done) fun _ => rfl).cleared hi _
  | take => obtain ⟨d, hd, rfl⟩ := take_some he; exact h.take hs hd
  | put => obtain ⟨d, hd, rfl⟩ := put_some he; exact h.put hd
  | flush c => obtain ⟨-, -, rfl⟩ := flush_some he; exact h.flushed c

theorem addScheduler (h : e.Displaying) : e.addScheduler.2.Displaying where
  serving := h.serving
  known hr := h.known hr
  once := h.once
  increasing := h.increasing
  guarded := by
    intro t x k hs hk
    obtain ⟨s, hi, hc⟩ := h.guarded hs hk
    exact ⟨s, getElem?_push_of_some hi _, hc⟩

end Displaying

end Engine

end Retrace.Live
