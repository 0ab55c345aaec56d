import Retrace.Live.Clients
import Retrace.Proofs.Live.Results
import Retrace.Proofs.Steps

/-!
# The queue of the display

Whatever the order of the calls and of the worker's steps, commands are handled in the order in which they were
queued, and what has come of each call is in the past of the queue.
-/

namespace Retrace.Live

namespace Display

variable {d d' : Display} {r : Registry}

theorem closed_iff : d.closed = true ↔ d.shower = .ended := by
  simp [closed]

theorem send_of_open (h : d.closed = false) (c : Command) : d.send c = (true, { d with queue := d.queue ++ [c] }) := by
  simp [send, h]

theorem send_of_closed (h : d.closed = true) (c : Command) : d.send c = (false, d) := by
  simp [send, h]

theorem take_some (h : d.take r = some d') : d.shower = .idle ∧ ∃ c rest, d.queue = c :: rest ∧
    ((∃ t text, c = .publish t text ∧ r.isCancelled t = true ∧ d' = { d with queue := rest }) ∨
      (∃ t text, c = .publish t text ∧ r.isCancelled t = false ∧
        d' = { d with queue := rest, shower := .showing t text }) ∨
      (∃ i, c = .flush i ∧ d' = { d with queue := rest, acknowledged := i :: d.acknowledged }) ∨
      c = .shutDown ∧ d' = { d with queue := [], shower := .ended }) := by
  unfold take at h
  split at h
  · rename_i t text rest hi hq
    refine ⟨hi, _, rest, hq, ?_⟩
    split at h
    · cases h
    split at h <;> rename_i hc <;> cases h
    · exact Or.inl ⟨t, text, rfl, hc, rfl⟩
    · exact Or.inr (Or.inl ⟨t, text, rfl, by simpa using hc, rfl⟩)
  · rename_i i rest hi hq
    cases h
    exact ⟨hi, _, rest, hq, Or.inr (Or.inr (Or.inl ⟨i, rfl, rfl⟩))⟩
  · rename_i rest hi hq
    cases h
    exact ⟨hi, _, rest, hq, Or.inr (Or.inr (Or.inr ⟨rfl, rfl⟩))⟩
  · cases h

end Display

namespace Clients

/-! ## Histories -/

/-- The command that a step queues, with the call that it belongs to. -/
def sentBy : Clients × Action → Option (Nat × Command)
  | (w, .proceed i) =>
    if w.display.closed then none else (w.calls[i]?).bind fun c => (c.command i).map (i, ·)
  | _ => none

/-- The command that the worker takes in a step; for a text, whether its token is active when the worker looks. -/
def takenBy : Clients × Action → Option (Command × Bool)
  | (w, .take) => match w.display.queue with
    | .publish t text :: _ => some (.publish t text, w.registry.isActive t)
    | c :: _ => some (c, true)
    | [] => none
  | _ => none

/-- The text that the worker shows for a command that it has taken. -/
def shows : Command × Bool → Option (Token × String)
  | (c, active) => if active then c.result else none

variable {w w' : Clients} {a : Action} {past : List (Clients × Action)}

/-! ## Steps -/

theorem proceed_some {i : Nat} (h : w.proceed i = some w') : ∃ c, w.calls[i]? = some c ∧
    ((∃ command, c.command i = some command ∧ w' = { w with
        display := (w.display.send command).2
        handle := w.handle && c != .closing
        calls := w.calls.setIfInBounds i (c.sent (w.display.send command).1 w.handle) }) ∨
      c.command i = none ∧ ∃ c', w.turn i c = some c' ∧ w' = { w with calls := w.calls.setIfInBounds i c' }) := by
  unfold proceed at h
  split at h
  · cases h
  · rename_i c hc
    split at h
    · rename_i command hcommand
      exact ⟨c, hc, Or.inl ⟨command, hcommand, (Option.some.inj h).symm⟩⟩
    · rename_i hcommand
      obtain ⟨c', hc', rfl⟩ := Option.map_eq_some_iff.mp h
      exact ⟨c, hc, Or.inr ⟨hcommand, c', hc', rfl⟩⟩

/-- A call as it begins; a shutdown begins when no other is going on. -/
def Fresh (w : Clients) (c : Client) : Prop :=
  (∃ t o, c = .publishing t o) ∨ c = .flushing ∨ c = .closing ∧ w.busy = false

/-- A call begins or goes on, the worker makes a step, or neither the calls nor the queue and the worker change. -/
theorem step_cases (h : w.step a = some w') :
    (∃ c, w.Fresh c ∧ w' = w.begin c ∧ sentBy (w, a) = none ∧ takenBy (w, a) = none) ∨
    (∃ i, a = .proceed i ∧ w.proceed i = some w') ∨
    (a = .take ∧ ∃ d, w.display.take w.registry = some d ∧ w' = { w with display := d }) ∨
    (a = .put ∧ ∃ d, w.display.put = some d ∧ w' = { w with display := d }) ∨
    ∃ r g, w' = { w with registry := r, display.gateHeld := g } ∧ sentBy (w, a) = none ∧ takenBy (w, a) = none := by
  cases a with
  | publish t o => cases h; exact Or.inl ⟨_, Or.inl ⟨t, o, rfl⟩, rfl, rfl, rfl⟩
  | flush => cases h; exact Or.inl ⟨_, Or.inr (Or.inl rfl), rfl, rfl, rfl⟩
  | shutDown =>
    simp only [step] at h
    split at h
    · cases h
    · rename_i hbusy
      cases h
      exact Or.inl ⟨_, Or.inr (Or.inr ⟨rfl, by simpa using hbusy⟩), rfl, rfl, rfl⟩
  | proceed i => exact Or.inr (Or.inl ⟨i, rfl, h⟩)
  | take =>
    obtain ⟨d, hd, rfl⟩ := Option.map_eq_some_iff.mp h
    exact Or.inr (Or.inr (Or.inl ⟨rfl, d, hd, rfl⟩))
  | put =>
    obtain ⟨d, hd, rfl⟩ := Option.map_eq_some_iff.mp h
    exact Or.inr (Or.inr (Or.inr (Or.inl ⟨rfl, d, hd, rfl⟩)))
  | hold | release =>
    simp only [step] at h
    split at h
    · cases h
      exact Or.inr (Or.inr (Or.inr (Or.inr ⟨_, _, rfl, rfl, rfl⟩)))
    · cases h
  | newToken | cancel =>
    cases h
    exact Or.inr (Or.inr (Or.inr (Or.inr ⟨_, _, rfl, rfl, rfl⟩)))

/-! ## The order of commands -/

/-- The queue and the worker as the past accounts for them. -/
structure Ledger (past : List (Clients × Action)) (w : Clients) : Prop where
  order : ∃ lost, (past.filterMap sentBy).map Prod.snd =
    (past.filterMap takenBy).map Prod.fst ++ w.display.queue ++ lost ∧ (w.display.closed = false → lost = [])
  written : w.display.written = (past.filterMap takenBy).filterMap shows
  showing : ∀ t text, w.display.shower = .showing t text →
    ∃ front, past.filterMap takenBy = front ++ [(.publish t text, true)]
  ended : w.display.closed = true → w.display.queue = [] ∧
    ∃ front, past.filterMap takenBy = front ++ [(.shutDown, true)] ∧ .shutDown ∉ front.map Prod.fst
  running : w.display.closed = false → .shutDown ∉ (past.filterMap takenBy).map Prod.fst
  acknowledged : ∀ i, i ∈ w.display.acknowledged ↔ .flush i ∈ (past.filterMap takenBy).map Prod.fst

namespace Ledger

theorem start : Ledger [] {} where
  order := ⟨[], rfl, fun _ => rfl⟩
  written := rfl
  showing _ _ h := by cases h
  ended h := by cases h
  running _ := by simp
  acknowledged _ := by simp

theorem idle (h : Ledger past w) (hs : sentBy (w, a) = none) (ht : takenBy (w, a) = none)
    (hq : w'.display.queue = w.display.queue) (hw : w'.display.shower = w.display.shower)
    (hshown : w'.display.shown = w.display.shown) (hack : w'.display.acknowledged = w.display.acknowledged) :
    Ledger (past ++ [(w, a)]) w' := by
  have hsent : (past ++ [(w, a)]).filterMap sentBy = past.filterMap sentBy := by simp [hs]
  have htaken : (past ++ [(w, a)]).filterMap takenBy = past.filterMap takenBy := by simp [ht]
  have hclosed : w'.display.closed = w.display.closed := by rw [Display.closed, hw, Display.closed]
  constructor
  · rw [hsent, htaken, hq, hclosed]
    exact h.order
  · rw [htaken, ← h.written, Display.written, Display.written, Display.underway, Display.underway, hw, hshown]
  · rw [htaken, hw]
    exact h.showing
  · rw [htaken, hclosed, hq]
    exact h.ended
  · rw [htaken, hclosed]
    exact h.running
  · rw [htaken, hack]
    exact h.acknowledged

theorem send (h : Ledger past w) (ho : w.display.closed = false) {i : Nat} {c : Command}
    (hs : sentBy (w, a) = some (i, c)) (ht : takenBy (w, a) = none)
    (hd : w'.display = { w.display with queue := w.display.queue ++ [c] }) : Ledger (past ++ [(w, a)]) w' := by
  have hsent : (past ++ [(w, a)]).filterMap sentBy = past.filterMap sentBy ++ [(i, c)] := by simp [hs]
  have htaken : (past ++ [(w, a)]).filterMap takenBy = past.filterMap takenBy := by simp [ht]
  have hclosed : w'.display.closed = w.display.closed := by rw [hd]; rfl
  constructor
  · obtain ⟨lost, hlost, hnone⟩ := h.order
    obtain rfl := hnone ho
    refine ⟨[], ?_, fun _ => rfl⟩
    rw [hsent, htaken, hd, List.map_append, hlost]
    simp
  · rw [htaken, ← h.written, hd]
    rfl
  · rw [htaken, hd]
    exact h.showing
  · rw [hclosed, ho]
    nofun
  · rw [htaken, hclosed]
    exact h.running
  · rw [htaken, hd]
    exact h.acknowledged

theorem put (h : Ledger past w) {d : Display} (hd : w.display.put = some d) :
    Ledger (past ++ [(w, Action.put)]) { w with display := d } := by
  have hsent : (past ++ [(w, Action.put)]).filterMap sentBy = past.filterMap sentBy := by simp [sentBy]
  have htaken : (past ++ [(w, Action.put)]).filterMap takenBy = past.filterMap takenBy := by simp [takenBy]
  have hwritten := Display.written_put hd
  obtain ⟨t, text, hs, rfl⟩ := Display.put_some hd
  have ho : w.display.closed = false := by simp [Display.closed, hs]
  constructor
  · rw [hsent, htaken]
    obtain ⟨lost, hlost, hnone⟩ := h.order
    exact ⟨lost, hlost, fun _ => hnone ho⟩
  · rw [htaken, ← h.written]
    exact hwritten
  · rintro _ _ ⟨⟩
  · rintro ⟨⟩
  · rw [htaken]
    exact fun _ => h.running ho
  · rw [htaken]
    exact h.acknowledged

theorem handled (h : Ledger past w) (ho : w.display.closed = false) {c : Command} {rest : List Command} {active : Bool}
    (hq : w.display.queue = c :: rest) (hs : sentBy (w, a) = none) (ht : takenBy (w, a) = some (c, active))
    (hne : c ≠ .shutDown) (ho' : w'.display.closed = false) (hq' : w'.display.queue = rest)
    (hwritten : w'.display.written = w.display.written ++ (shows (c, active)).toList)
    (hshowing : ∀ t text, w'.display.shower = .showing t text → c = .publish t text ∧ active = true)
    (hack : ∀ i, i ∈ w'.display.acknowledged ↔ i ∈ w.display.acknowledged ∨ c = .flush i) :
    Ledger (past ++ [(w, a)]) w' := by
  have hsent : (past ++ [(w, a)]).filterMap sentBy = past.filterMap sentBy := by simp [hs]
  have htaken : (past ++ [(w, a)]).filterMap takenBy = past.filterMap takenBy ++ [(c, active)] := by simp [ht]
  constructor
  · obtain ⟨lost, hlost, hnone⟩ := h.order
    refine ⟨lost, ?_, fun _ => hnone ho⟩
    rw [hsent, htaken, hlost, hq, hq']
    simp
  · rw [htaken, hwritten, h.written, List.filterMap_append]
    cases hshow : shows (c, active) <;> simp [hshow]
  · intro t text hsh
    obtain ⟨rfl, rfl⟩ := hshowing t text hsh
    exact ⟨_, htaken⟩
  · rw [ho']
    nofun
  · intro _
    rw [htaken, List.map_append, List.mem_append]
    rintro (hmem | hmem)
    · exact h.running ho hmem
    · exact hne (List.mem_singleton.mp hmem).symm
  · intro i
    rw [htaken, hack, List.map_append, List.mem_append, h.acknowledged]
    simp [eq_comm]

theorem ending (h : Ledger past w) (ho : w.display.closed = false) {rest : List Command}
    (hq : w.display.queue = .shutDown :: rest) (hs : sentBy (w, a) = none)
    (ht : takenBy (w, a) = some (.shutDown, true)) (hidle : w.display.shower = .idle)
    (hd : w'.display = { w.display with queue := [], shower := .ended }) :
    Ledger (past ++ [(w, a)]) w' := by
  have hsent : (past ++ [(w, a)]).filterMap sentBy = past.filterMap sentBy := by simp [hs]
  have htaken : (past ++ [(w, a)]).filterMap takenBy = past.filterMap takenBy ++ [(.shutDown, true)] := by simp [ht]
  have hclosed : w'.display.closed = true := by rw [hd]; rfl
  constructor
  · obtain ⟨lost, hlost, hnone⟩ := h.order
    obtain rfl := hnone ho
    refine ⟨rest, ?_, by rw [hclosed]; rintro ⟨⟩⟩
    rw [hsent, htaken, hlost, hq, hd]
    simp
  · rw [htaken, List.filterMap_append, ← h.written, hd]
    simp [Display.written, Display.underway, hidle, shows, Command.result]
  · rw [hd]
    rintro _ _ ⟨⟩
  · rw [htaken, hd]
    exact fun _ => ⟨rfl, _, rfl, h.running ho⟩
  · rw [hclosed]
    rintro ⟨⟩
  · intro i
    rw [htaken, hd, List.map_append, List.mem_append, h.acknowledged]
    simp

theorem take (h : Ledger past w) {d : Display} (hd : w.display.take w.registry = some d) :
    Ledger (past ++ [(w, Action.take)]) { w with display := d } := by
  obtain ⟨hidle, c, rest, hq, hcases⟩ := Display.take_some hd
  have ho : w.display.closed = false := by simp [Display.closed, hidle]
  rcases hcases with ⟨t, text, rfl, hc, rfl⟩ | ⟨t, text, rfl, hc, rfl⟩ | ⟨i, rfl, rfl⟩ | ⟨rfl, rfl⟩
  · have ht : takenBy (w, Action.take) = some (.publish t text, false) := by
      simp [takenBy, hq, Registry.isActive, hc]
    exact h.handled ho hq rfl ht (by simp) ho rfl (by simp [Display.written, Display.underway, shows])
      (by simp [hidle]) (by simp)
  · have ht : takenBy (w, Action.take) = some (.publish t text, true) := by
      simp [takenBy, hq, Registry.isActive, hc]
    refine h.handled ho hq rfl ht (by simp) rfl rfl ?_ ?_ (by simp)
    · simp [Display.written, Display.underway, hidle, shows, Command.result]
    · rintro u x hux
      cases hux
      exact ⟨rfl, rfl⟩
  · have ht : takenBy (w, Action.take) = some (.flush i, true) := by simp [takenBy, hq]
    exact h.handled ho hq rfl ht (by simp) ho rfl
      (by simp [Display.written, Display.underway, shows, Command.result]) (by simp [hidle])
      (by simp [or_comm, eq_comm])
  · have ht : takenBy (w, Action.take) = some (.shutDown, true) := by simp [takenBy, hq]
    exact h.ending ho hq rfl ht hidle rfl

theorem next (h : Ledger past w) (hstep : w.step a = some w') : Ledger (past ++ [(w, a)]) w' := by
  rcases step_cases hstep with ⟨c, -, rfl, hs, ht⟩ | ⟨i, rfl, hp⟩ | ⟨rfl, d, hd, rfl⟩ | ⟨rfl, d, hd, rfl⟩ |
    ⟨r, g, rfl, hs, ht⟩
  · exact h.idle hs ht rfl rfl rfl rfl
  · obtain ⟨c, hc, ⟨command, hcommand, rfl⟩ | ⟨hcommand, c', -, rfl⟩⟩ := proceed_some hp
    · cases ho : w.display.closed with
      | true =>
        rw [Display.send_of_closed ho]
        exact h.idle (by simp [sentBy, ho]) rfl rfl rfl rfl rfl
      | false =>
        have hs : sentBy (w, Action.proceed i) = some (i, command) := by simp [sentBy, ho, hc, hcommand]
        rw [Display.send_of_open ho]
        exact h.send ho hs rfl rfl
    · exact h.idle (by simp [sentBy, hc, hcommand]) rfl rfl rfl rfl rfl
  · exact h.take hd
  · exact h.put hd
  · exact h.idle hs ht rfl rfl rfl rfl

end Ledger

/-! ## The calls -/

/-- What has come of the call with a number. -/
def SoundCall (past : List (Clients × Action)) (w : Clients) (i : Nat) : Client → Prop
  | .published queued => queued = true → ∃ t text, (i, .publish t text) ∈ past.filterMap sentBy
  | .awaiting => (i, .flush i) ∈ past.filterMap sentBy
  | .flushed acknowledged => acknowledged = true → i ∈ w.display.acknowledged
  | .closed => w.display.closed = true
  | _ => True

/-- A shutdown that has not returned. -/
def IsClosing (c : Client) : Prop := c = .closing ∨ c = .joining

/-- The calls as the past accounts for them. -/
structure Calls (past : List (Clients × Action)) (w : Clients) : Prop where
  sound : ∀ {i : Nat} {c : Client}, w.calls[i]? = some c → SoundCall past w i c
  own : ∀ {i : Nat} {c : Command}, (i, c) ∈ past.filterMap sentBy → i < w.calls.size ∧ ∀ j, c = .flush j → i = j
  alone : ∀ {i j : Nat} {c c' : Client}, w.calls[i]? = some c → w.calls[j]? = some c' → IsClosing c → IsClosing c' →
    i = j
  joined : w.handle = false → w.display.closed = true ∨ ∃ i : Nat, w.calls[i]? = some .joining

theorem mem_sent {x : Clients × Action} {y : Nat × Command} (h : y ∈ past.filterMap sentBy) :
    y ∈ (past ++ [x]).filterMap sentBy := by
  rw [List.filterMap_append]
  exact List.mem_append_left _ h

theorem SoundCall.mono {i : Nat} {c : Client} (h : SoundCall past w i c)
    (hack : ∀ j ∈ w.display.acknowledged, j ∈ w'.display.acknowledged)
    (hclosed : w.display.closed = true → w'.display.closed = true) : SoundCall (past ++ [(w, a)]) w' i c := by
  cases c with
  | published queued =>
    intro hq
    obtain ⟨t, text, hmem⟩ := h hq
    exact ⟨t, text, mem_sent hmem⟩
  | awaiting => exact mem_sent h
  | flushed acknowledged => exact fun ha => hack _ (h ha)
  | closed => exact hclosed h
  | _ => trivial

namespace Calls

theorem start : Calls [] {} where
  sound h := by simp at h
  own h := by simp at h
  alone h := by simp at h
  joined h := by cases h

theorem begin (h : Calls past w) {c : Client} (hc : w.Fresh c) (hs : sentBy (w, a) = none) :
    Calls (past ++ [(w, a)]) (w.begin c) where
  sound := by
    intro i c' hi
    rcases getElem?_push_cases hi with hi | ⟨-, rfl⟩
    · exact (h.sound hi).mono (fun _ hj => hj) (fun hc => hc)
    · rcases hc with ⟨t, o, rfl⟩ | rfl | ⟨rfl, -⟩ <;> trivial
  own := by
    intro i c' hmem
    rw [filterMap_concat_none hs] at hmem
    refine ⟨?_, (h.own hmem).2⟩
    simpa [Clients.begin] using Nat.lt_succ_of_lt (h.own hmem).1
  alone := by
    have hbusy {j : Nat} {d : Client} (hj : w.calls[j]? = some d) (hd : IsClosing d) (hnew : IsClosing c) : False := by
      have hfree : w.busy = false := by
        rcases hc with ⟨t, o, rfl⟩ | rfl | ⟨rfl, hfree⟩
        · rcases hnew with hnew | hnew <;> cases hnew
        · rcases hnew with hnew | hnew <;> cases hnew
        · exact hfree
      have hmem : d ∈ w.calls.toList := (Array.mem_of_getElem? hj).val
      have := (List.any_eq_false.mp hfree) d hmem
      rcases hd with rfl | rfl <;> simp at this
    intro i j c₁ c₂ hi hj h₁ h₂
    rcases getElem?_push_cases hi with hi' | ⟨rfl, rfl⟩ <;> rcases getElem?_push_cases hj with hj' | ⟨rfl, rfl⟩
    · exact h.alone hi' hj' h₁ h₂
    · exact (hbusy hi' h₁ h₂).elim
    · exact (hbusy hj' h₂ h₁).elim
    · rfl
  joined := by
    intro hh
    exact (h.joined hh).imp_right fun ⟨i, hi⟩ => ⟨i, getElem?_push_of_some hi _⟩

theorem idle (h : Calls past w) (hcalls : w'.calls = w.calls) (hhandle : w'.handle = w.handle)
    (hs : sentBy (w, a) = none) (hack : ∀ j ∈ w.display.acknowledged, j ∈ w'.display.acknowledged)
    (hclosed : w.display.closed = true → w'.display.closed = true) : Calls (past ++ [(w, a)]) w' where
  sound := by
    intro i c hi
    rw [hcalls] at hi
    exact (h.sound hi).mono hack hclosed
  own := by
    intro i c hmem
    rw [filterMap_concat_none hs] at hmem
    rw [hcalls]
    exact h.own hmem
  alone := by
    rw [hcalls]
    exact h.alone
  joined := by
    rw [hcalls, hhandle]
    exact fun hh => (h.joined hh).imp_left hclosed

theorem turn (h : Calls past w) {i : Nat} {c c' : Client} (hc : w.calls[i]? = some c) (hcommand : c.command i = none)
    (hturn : w.turn i c = some c') :
    Calls (past ++ [(w, .proceed i)]) { w with calls := w.calls.setIfInBounds i c' } := by
  have hs : sentBy (w, .proceed i) = none := by simp [sentBy, hc, hcommand]
  have hnew : SoundCall (past ++ [(w, .proceed i)]) { w with calls := w.calls.setIfInBounds i c' } i c' ∧
      ¬IsClosing c' ∧ (c = .joining → w.display.closed = true) := by
    unfold Clients.turn at hturn
    split at hturn
    · split at hturn <;> cases hturn <;> simp [SoundCall, IsClosing]
    · split at hturn
      · cases hturn
        simp_all [SoundCall, IsClosing]
      · split at hturn <;> cases hturn
        simp [SoundCall, IsClosing]
    · split at hturn <;> cases hturn
      simp_all [SoundCall, IsClosing]
    · cases hturn
  obtain ⟨hsound, hnot, hjoin⟩ := hnew
  constructor
  · intro j d hj
    rcases getElem?_setIfInBounds_cases hj with ⟨rfl, rfl⟩ | ⟨-, hj⟩
    · exact hsound
    · exact (h.sound hj).mono (fun _ hk => hk) (fun hd => hd)
  · intro j d hmem
    rw [filterMap_concat_none hs] at hmem
    simpa using h.own hmem
  · intro j k d d' hj hk hd hd'
    rcases getElem?_setIfInBounds_cases hj with ⟨rfl, rfl⟩ | ⟨-, hj⟩
    · exact absurd hd hnot
    rcases getElem?_setIfInBounds_cases hk with ⟨rfl, rfl⟩ | ⟨-, hk⟩
    · exact absurd hd' hnot
    exact h.alone hj hk hd hd'
  · intro hh
    rcases h.joined hh with hclosed | ⟨j, hj⟩
    · exact Or.inl hclosed
    by_cases hij : i = j
    · subst hij
      exact Or.inl (hjoin (Option.some.inj (hc.symm.trans hj)))
    · exact Or.inr ⟨j, by simpa [Array.getElem?_setIfInBounds, hij] using hj⟩

theorem send (h : Calls past w) {i : Nat} {c : Client} {command : Command} (hc : w.calls[i]? = some c)
    (hcommand : c.command i = some command) :
    Calls (past ++ [(w, .proceed i)]) { w with
        display := (w.display.send command).2
        handle := w.handle && c != .closing
        calls := w.calls.setIfInBounds i (c.sent (w.display.send command).1 w.handle) } := by
  have hack : ∀ j ∈ w.display.acknowledged, j ∈ (w.display.send command).2.acknowledged := by
    unfold Display.send
    split <;> exact fun _ hj => hj
  have hclosed : w.display.closed = true → (w.display.send command).2.closed = true := fun ho => by
    rwa [Display.send_of_closed ho]
  have hsent : (w.display.send command).1 = true →
      (i, command) ∈ (past ++ [(w, Action.proceed i)]).filterMap sentBy := by
    cases ho : w.display.closed with
    | true => simp [Display.send_of_closed ho]
    | false => simp [sentBy, ho, hc, hcommand]
  have hnew : SoundCall (past ++ [(w, .proceed i)]) { w with
        display := (w.display.send command).2
        handle := w.handle && c != .closing
        calls := w.calls.setIfInBounds i (c.sent (w.display.send command).1 w.handle) } i
          (c.sent (w.display.send command).1 w.handle) := by
    cases c with
    | approved t text =>
      cases hcommand
      exact fun hq => ⟨t, text, hsent hq⟩
    | flushing =>
      cases hcommand
      cases hq : (w.display.send (.flush i)).1 with
      | true => exact hsent hq
      | false => simp [Client.sent, SoundCall]
    | closing =>
      cases hh : w.handle with
      | true => trivial
      | false =>
        refine hclosed ((h.joined hh).resolve_right ?_)
        rintro ⟨j, hj⟩
        obtain rfl := h.alone hc hj (Or.inl rfl) (Or.inr rfl)
        cases hc.symm.trans hj
    | _ => cases hcommand
  constructor
  · intro j d hj
    rcases getElem?_setIfInBounds_cases hj with ⟨rfl, rfl⟩ | ⟨-, hj⟩
    · exact hnew
    · exact (h.sound hj).mono hack hclosed
  · intro j d hmem
    rw [Array.size_setIfInBounds]
    rw [List.filterMap_append, List.mem_append] at hmem
    rcases hmem with hmem | hmem
    · exact h.own hmem
    · obtain ⟨rfl, rfl⟩ : j = i ∧ d = command := by
        cases ho : w.display.closed <;> simp_all [sentBy]
      refine ⟨getElem?_lt hc, fun k hk => ?_⟩
      cases c <;> cases hcommand <;> cases hk
      rfl
  · have hclosing : IsClosing (c.sent (w.display.send command).1 w.handle) → IsClosing c := by
      unfold Client.sent IsClosing
      split <;> (try split) <;> simp_all
    intro j k d d' hj hk hd hd'
    rcases getElem?_setIfInBounds_cases hj with ⟨rfl, rfl⟩ | ⟨-, hj⟩ <;>
      rcases getElem?_setIfInBounds_cases hk with ⟨rfl, rfl⟩ | ⟨-, hk⟩
    · rfl
    · exact h.alone hc hk (hclosing hd) hd'
    · exact h.alone hj hc hd (hclosing hd')
    · exact h.alone hj hk hd hd'
  · intro hh
    cases hold : w.handle with
    | true =>
      obtain rfl : c = .closing := by simpa [hold] using hh
      exact Or.inr ⟨i, by simp [Client.sent, getElem?_lt hc]⟩
    | false =>
      refine (h.joined hold).imp hclosed fun ⟨j, hj⟩ => ⟨j, ?_⟩
      have hij : i ≠ j := by
        rintro rfl
        obtain rfl := Option.some.inj (hc.symm.trans hj)
        cases hcommand
      rw [Array.getElem?_setIfInBounds_ne hij]
      exact hj

theorem next (h : Calls past w) (hstep : w.step a = some w') : Calls (past ++ [(w, a)]) w' := by
  rcases step_cases hstep with ⟨c, hc, rfl, hs, -⟩ | ⟨i, rfl, hp⟩ | ⟨rfl, d, hd, rfl⟩ | ⟨rfl, d, hd, rfl⟩ |
    ⟨r, g, rfl, hs, -⟩
  · exact h.begin hc hs
  · obtain ⟨c, hc, ⟨command, hcommand, rfl⟩ | ⟨hcommand, c', hturn, rfl⟩⟩ := proceed_some hp
    · exact h.send hc hcommand
    · exact h.turn hc hcommand hturn
  · obtain ⟨hidle, c, rest, -, hcases⟩ := Display.take_some hd
    refine h.idle rfl rfl rfl (fun j hj => ?_) (by simp [Display.closed, hidle])
    rcases hcases with ⟨t, text, -, -, rfl⟩ | ⟨t, text, -, -, rfl⟩ | ⟨i, -, rfl⟩ | ⟨-, rfl⟩
    · exact hj
    · exact hj
    · exact List.mem_cons_of_mem _ hj
    · exact hj
  · obtain ⟨t, text, hs, rfl⟩ := Display.put_some hd
    exact h.idle rfl rfl rfl (fun _ hj => hj) (by simp [Display.closed, hs])
  · exact h.idle rfl rfl hs (fun _ hj => hj) (fun ho => ho)

end Calls

end Clients

end Retrace.Live
