import Mathlib.Data.List.Induction
import Retrace.Live.Debounce

/-!
# What becomes of an edit

What can happen to a quiet period, and what then becomes of each edit. Its countdown runs until it ends or something
else happens. A countdown that has run out may be late to look for its value; nothing stops it then, not even a drop,
but it finds nothing after another edit or a cancellation.
-/

namespace Retrace.Live.Debounce

variable {α : Type}

/-! ## Events -/

/-- What happens to a quiet period. -/
inductive Event (α : Type) where
  | notify (value : α)
  | cancel
  | drop
  /-- The countdown ends in one step: it runs out, looks for its value and hands it on. -/
  | expire
  /-- The countdown with a number runs out and can no longer be stopped. -/
  | runOut (number : UInt64)
  /-- A countdown that has run out looks for its value and hands it on. -/
  | look (number : UInt64)
  deriving DecidableEq, Repr

namespace Event

def isCall : Event α → Bool
  | .notify _ | .cancel => true
  | _ => false

/-- A countdown looks for its value. -/
def isEnd : Event α → Bool
  | .expire | .look _ => true
  | _ => false

/-- The end of a countdown is not interrupted. -/
def isWhole : Event α → Bool
  | .runOut _ | .look _ => false
  | _ => true

def runsOut (n : UInt64) : Event α → Bool
  | .runOut m => m == n
  | _ => false

def looks (n : UInt64) : Event α → Bool
  | .look m => m == n
  | _ => false

end Event

/-- How many edits and cancellations there are. -/
def calls (events : List (Nat × Event α)) : Nat := events.countP (·.2.isCall)

/-- How often countdowns with a number have run out without looking at once. -/
def ranOut (n : UInt64) (events : List (Nat × Event α)) : Nat := events.countP (·.2.runsOut n)

/-- How often they have looked for their values afterwards. -/
def looked (n : UInt64) (events : List (Nat × Event α)) : Nat := events.countP (·.2.looks n)

/-- No number comes round again while a countdown may look for its value under it: all ends of countdowns are whole,
or there are fewer than 2^64 edits and cancellations. -/
def Few (events : List (Nat × Event α)) : Prop :=
  (∀ e ∈ events, e.2.isWhole = true) ∨ calls events < UInt64.size

/-! ## What becomes of an edit -/

/-- What has become of the countdown of an edit. -/
inductive Fate where
  | running
  /-- It has run out and has yet to look for its value under its number. -/
  | out (number : UInt64)
  /-- It has handed its value on. -/
  | handed (now : Nat)
  | lost
  deriving DecidableEq, Repr

/-- Another call comes before a countdown that has yet to look for its value, and the edit is lost. A drop stops the
countdown only while it is running. -/
def Fate.next : Fate → Nat × Event α → Fate
  | .running, (now, .expire) => .handed now
  | .running, (_, .runOut n) => .out n
  | .running, (_, .look _) => .running
  | .running, _ => .lost
  | .out n, (now, .look m) => if m = n then .handed now else .out n
  | .out _, (_, .notify _) => .lost
  | .out _, (_, .cancel) => .lost
  | .out n, _ => .out n
  | .handed now, _ => .handed now
  | .lost, _ => .lost

def Fate.handedAt : Fate → Option Nat
  | .handed now => some now
  | _ => none

/-- What has become of the countdown of an edit after the events since. -/
def fate (since : List (Nat × Event α)) : Fate := since.foldl Fate.next .running

/-- The edits that are handed on, with the moments. -/
def quiet : List (Nat × Event α) → List (Nat × α)
  | [] => []
  | (_, .notify v) :: since => (fate since).handedAt.toList.map (·, v) ++ quiet since
  | _ :: since => quiet since

/-- The countdown of the last edit is running and its delay is over. -/
def Due (delay : Nat) (past : List (Nat × Event α)) (now : Nat) : Prop :=
  ∃ before t v since, past = before ++ (t, .notify v) :: since ∧ fate since = .running ∧ t + delay ≤ now

/-- What can happen after some events, at no earlier time: a countdown ends when it is due, it looks for its value
once, and there are no edits and cancellations after a drop. -/
def Possible (delay : Nat) (past : List (Nat × Event α)) (e : Nat × Event α) : Prop :=
  (∀ p ∈ past, p.1 ≤ e.1) ∧
    match e.2 with
    | .expire => Due delay past e.1
    | .runOut n => Due delay past e.1 ∧ n = UInt64.ofNat (calls past)
    | .look n => looked n past < ranOut n past
    | _ => ∀ p ∈ past, p.2 ≠ .drop

section
variable {past since : List (Nat × Event α)} {s : Fate} {c e : Nat × Event α}

@[simp] theorem calls_nil : calls ([] : List (Nat × Event α)) = 0 := rfl

@[simp] theorem calls_append (l m : List (Nat × Event α)) : calls (l ++ m) = calls l + calls m :=
  List.countP_append

@[simp] theorem calls_cons (e : Nat × Event α) (l : List (Nat × Event α)) :
    calls (e :: l) = calls l + if e.2.isCall then 1 else 0 :=
  List.countP_cons

@[simp] theorem ranOut_concat (n : UInt64) (l : List (Nat × Event α)) (e : Nat × Event α) :
    ranOut n (l ++ [e]) = ranOut n l + if e.2.runsOut n then 1 else 0 := by
  simp [ranOut]

@[simp] theorem looked_concat (n : UInt64) (l : List (Nat × Event α)) (e : Nat × Event α) :
    looked n (l ++ [e]) = looked n l + if e.2.looks n then 1 else 0 := by
  simp [looked]

theorem Few.of_append {m : List (Nat × Event α)} (h : Few (past ++ m)) : Few past := by
  rcases h with h | h
  · exact Or.inl fun e he => h e (List.mem_append_left _ he)
  · rw [calls_append] at h
    exact Or.inr (by omega)

@[simp] theorem fate_concat (since : List (Nat × Event α)) (e : Nat × Event α) :
    fate (since ++ [e]) = (fate since).next e := by
  simp [fate]

theorem handedAt_next (h : e.2.isEnd = false) : (s.next e).handedAt = s.handedAt := by
  obtain ⟨t, e⟩ := e
  cases e with
  | notify | cancel | drop | runOut => cases s <;> rfl
  | expire | look => cases h

theorem isEnd_of_call (h : c.2.isCall = true) : c.2.isEnd = false := by
  obtain ⟨t, c⟩ := c
  cases c with
  | notify | cancel => rfl
  | drop | expire | runOut | look => cases h

theorem foldl_next (h : ∀ e : Nat × Event α, s.next e = s) (since : List (Nat × Event α)) :
    since.foldl Fate.next s = s := by
  induction since with
  | nil => rfl
  | cons e since ih => rw [List.foldl_cons, h e, ih]

/-- Nothing more becomes of an edit after another call. -/
theorem foldl_next_of_call (h : c.2.isCall = true) (since : List (Nat × Event α)) :
    since.foldl Fate.next (s.next c) = s.next c := by
  refine foldl_next (fun e => ?_) since
  obtain ⟨t, c⟩ := c
  cases c with
  | notify | cancel => cases s <;> rfl
  | drop | expire | runOut | look => cases h

/-- A countdown keeps running only while others look. -/
theorem next_eq_running (h : s.next e = .running) : s = .running ∧ ∃ n, e.2 = .look n := by
  obtain ⟨t, e⟩ := e
  cases s with
  | running =>
    cases e with
    | look n => exact ⟨rfl, n, rfl⟩
    | notify | cancel | drop | expire | runOut => cases h
  | out n =>
    cases e with
    | look m => simp only [Fate.next] at h; split at h <;> cases h
    | notify | cancel | drop | expire | runOut => cases h
  | handed | lost => cases h

theorem looks_of_running (h : fate since = .running) : ∀ e ∈ since, ∃ n, e.2 = .look n := by
  induction since using List.reverseRecOn with
  | nil => nofun
  | append_singleton since e ih =>
    rw [fate_concat] at h
    obtain ⟨hs, hlook⟩ := next_eq_running h
    intro b hb
    rcases List.mem_append.mp hb with hb | hb
    · exact ih hs b hb
    · rwa [List.mem_singleton.mp hb]

theorem calls_eq_zero_of_running (h : fate since = .running) : calls since = 0 := by
  rw [calls, List.countP_eq_zero]
  intro e he
  obtain ⟨n, hn⟩ := looks_of_running h e he
  rw [hn]
  nofun

/-! ### The last edit -/

/-- The last call, if it is an edit: its time, its value, and what has become of its countdown. -/
def following (l : Option (Nat × α × Fate)) (e : Nat × Event α) : Option (Nat × α × Fate) :=
  match e.2 with
  | .notify v => some (e.1, v, .running)
  | .cancel => none
  | _ => l.map fun r => (r.1, r.2.1, r.2.2.next e)

def latest (past : List (Nat × Event α)) : Option (Nat × α × Fate) := past.foldl following none

@[simp] theorem latest_concat (past : List (Nat × Event α)) (e : Nat × Event α) :
    latest (past ++ [e]) = following (latest past) e := by
  simp [latest]

theorem following_of_not_call (h : e.2.isCall = false) (l : Option (Nat × α × Fate)) :
    following l e = l.map fun r => (r.1, r.2.1, r.2.2.next e) := by
  obtain ⟨t, e⟩ := e
  cases e with
  | notify | cancel => cases h
  | drop | expire | runOut | look => rfl

theorem latest_concat_eq_some (h : e.2.isCall = false) {t : Nat} {v : α} (hl : latest (past ++ [e]) = some (t, v, s)) :
    ∃ r, latest past = some (t, v, r) ∧ r.next e = s := by
  rw [latest_concat, following_of_not_call h] at hl
  obtain ⟨⟨u, x, r⟩, hp, hr⟩ := Option.map_eq_some_iff.mp hl
  obtain ⟨rfl, rfl, rfl⟩ : u = t ∧ x = v ∧ r.next e = s := by simpa using hr
  exact ⟨r, hp, rfl⟩

theorem latest_concat_of_some (h : e.2.isCall = false) {t : Nat} {v : α} (hl : latest past = some (t, v, s)) :
    latest (past ++ [e]) = some (t, v, s.next e) := by
  rw [latest_concat, following_of_not_call h, hl, Option.map_some]

theorem latest_concat_eq_none (h : e.2.isCall = false) : latest (past ++ [e]) = none ↔ latest past = none := by
  rw [latest_concat, following_of_not_call h, Option.map_eq_none_iff]

theorem foldl_following (h : calls since = 0) (t : Nat) (v : α) (s : Fate) :
    since.foldl following (some (t, v, s)) = some (t, v, since.foldl Fate.next s) := by
  induction since generalizing s with
  | nil => rfl
  | cons e since ih =>
    obtain ⟨he, hs⟩ : e.2.isCall = false ∧ calls since = 0 := by simpa using And.symm (by simpa using h)
    rw [List.foldl_cons, following_of_not_call he, Option.map_some, ih hs, List.foldl_cons]

theorem latest_eq_some_iff {t : Nat} {v : α} :
    latest past = some (t, v, s) ↔
      ∃ before since, past = before ++ (t, .notify v) :: since ∧ calls since = 0 ∧ fate since = s := by
  constructor
  · intro h
    induction past using List.reverseRecOn generalizing s with
    | nil => cases h
    | append_singleton past e ih =>
      by_cases he : e.2.isCall = true
      · rw [latest_concat] at h
        obtain ⟨u, e⟩ := e
        cases e with
        | notify x =>
          obtain ⟨rfl, rfl, rfl⟩ : u = t ∧ x = v ∧ Fate.running = s := by simpa [following] using h
          exact ⟨past, [], rfl, rfl, rfl⟩
        | cancel => cases h
        | drop | expire | runOut | look => cases he
      · rw [Bool.not_eq_true] at he
        obtain ⟨r, hl, rfl⟩ := latest_concat_eq_some he h
        obtain ⟨before, since, rfl, hc, rfl⟩ := ih hl
        exact ⟨before, since ++ [e], by simp, by simp [hc, he], by simp⟩
  · rintro ⟨before, since, rfl, hc, rfl⟩
    rw [latest, List.foldl_append, List.foldl_cons]
    exact foldl_following hc t v .running

theorem due_iff {delay now : Nat} :
    Due delay past now ↔ ∃ t v, latest past = some (t, v, .running) ∧ t + delay ≤ now := by
  constructor
  · rintro ⟨before, t, v, since, hp, hs, hle⟩
    exact ⟨t, v, latest_eq_some_iff.mpr ⟨before, since, hp, calls_eq_zero_of_running hs, hs⟩, hle⟩
  · rintro ⟨t, v, hl, hle⟩
    obtain ⟨before, since, hp, -, hs⟩ := latest_eq_some_iff.mp hl
    exact ⟨before, t, v, since, hp, hs, hle⟩

/-! ### What is handed on -/

theorem quiet_of_no_calls (h : calls past = 0) : quiet past = [] := by
  induction past with
  | nil => rfl
  | cons e past ih =>
    obtain ⟨t, e⟩ := e
    cases e with
    | notify | cancel => simp [Event.isCall] at h
    | drop | expire | runOut | look => exact ih (by simpa [Event.isCall] using h)

/-- What is handed on before a call has been handed on whatever comes then. -/
theorem quiet_append_of_call (h : c.2.isCall = true) (before since : List (Nat × Event α)) :
    quiet (before ++ c :: since) = quiet before ++ quiet (c :: since) := by
  induction before with
  | nil => rfl
  | cons e before ih =>
    obtain ⟨t, e⟩ := e
    cases e with
    | notify v =>
      have hfate : (fate (before ++ c :: since)).handedAt = (fate before).handedAt := by
        rw [fate, List.foldl_append, List.foldl_cons, foldl_next_of_call h, handedAt_next (isEnd_of_call h), fate]
      rw [List.cons_append, quiet, quiet, ih, hfate, List.append_assoc]
    | cancel | drop | expire | runOut | look => exact ih

theorem quiet_of_last_edit {t : Nat} {v : α} {before : List (Nat × Event α)} (h : calls since = 0) :
    quiet (before ++ (t, .notify v) :: since) = quiet before ++ (fate since).handedAt.toList.map (·, v) := by
  rw [quiet_append_of_call rfl, quiet, quiet_of_no_calls h, List.append_nil]

/-- Without an edit that was the last call nothing is handed on until there is another one. -/
theorem quiet_of_no_edit (h : latest past = none) (hs : calls since = 0) : quiet (past ++ since) = quiet past := by
  induction past using List.reverseRecOn generalizing since with
  | nil => exact quiet_of_no_calls hs
  | append_singleton past b ih =>
    by_cases hb : b.2.isCall = true
    · rw [latest_concat] at h
      obtain ⟨t, b⟩ := b
      cases b with
      | notify => cases h
      | cancel =>
        have hrest : ∀ {m : List (Nat × Event α)}, calls m = 0 → quiet (past ++ (t, .cancel) :: m) = quiet past := by
          intro m hm
          rw [quiet_append_of_call rfl]
          exact (congrArg _ (quiet_of_no_calls hm)).trans (List.append_nil _)
        rw [List.append_assoc, List.singleton_append, hrest hs, hrest rfl]
      | drop | expire | runOut | look => cases hb
    · rw [Bool.not_eq_true] at hb
      rw [latest_concat_eq_none hb] at h
      rw [List.append_assoc, List.singleton_append, ih h (by simp [hb, hs]), ih h (by simp [hb])]

/-- What an event hands on of the last edit. -/
def delivered (l : Option (Nat × α × Fate)) (e : Nat × Event α) : List (Nat × α) :=
  match l with
  | some (_, v, s) => if s.handedAt = none then (s.next e).handedAt.toList.map (·, v) else []
  | none => []

theorem delivered_eq_nil {l : Option (Nat × α × Fate)}
    (h : ∀ {t v s}, l = some (t, v, s) → (s.next e).handedAt = s.handedAt) : delivered l e = [] := by
  cases l with
  | none => rfl
  | some r =>
    obtain ⟨t, v, s⟩ := r
    rw [delivered, h rfl]
    split
    · rename_i hs; rw [hs]; rfl
    · rfl

theorem quiet_concat (past : List (Nat × Event α)) (e : Nat × Event α) :
    quiet (past ++ [e]) = quiet past ++ delivered (latest past) e := by
  by_cases he : e.2.isCall = true
  · rw [delivered_eq_nil fun _ => handedAt_next (isEnd_of_call he), quiet_append_of_call he]
    obtain ⟨t, e⟩ := e
    cases e with
    | notify | cancel => rfl
    | drop | expire | runOut | look => cases he
  · rw [Bool.not_eq_true] at he
    cases hl : latest past with
    | none => rw [quiet_of_no_edit hl (by simp [he]), delivered, List.append_nil]
    | some r =>
      obtain ⟨t, v, s⟩ := r
      obtain ⟨before, since, rfl, hc, rfl⟩ := latest_eq_some_iff.mp hl
      have hc' : calls (since ++ [e]) = 0 := by simp [hc, he]
      rw [List.append_assoc, List.cons_append, quiet_of_last_edit hc', quiet_of_last_edit hc, fate_concat, delivered]
      cases hs : fate since with
      | handed | running | out | lost => simp [Fate.handedAt, Fate.next]

end

/-! ## What can happen -/

section
variable {delay : Nat} {past since before after : List (Nat × Event α)} {t : Nat} {v : α}

/-- Each event is possible after those before it. -/
def Consistent (delay : Nat) (events : List (Nat × Event α)) : Prop :=
  ∀ before e after, events = before ++ e :: after → Possible delay before e

theorem Consistent.of_append (h : Consistent delay (past ++ after)) : Consistent delay past := by
  intro b e a hp
  exact h b e (a ++ after) (by rw [hp, List.append_assoc, List.cons_append])

end

end Retrace.Live.Debounce
