import Retrace.Proofs.Lock.Exclusion

/-!
# Who stands in the way

A process is told that the lock is taken when another open file has the exclusive lock of the lock file. That may be
the file of a process that holds the lock or is taking it, but as well that of a process that is giving the lock up, or
that only inspects it and has the lock file locked for a moment.
-/

namespace Retrace.Lock

/-! ## Refused points -/

namespace Acquire

/-- The taking of a lock that has been told that the lock is taken. -/
def IsRefusal (c : Claim) : Acquire → Prop
  | .readHolder _ => True
  | .giveUp _ f | .refused f => ∃ holder, f = alreadyRunning c holder
  | _ => False

variable {c : Claim} {path : Path} {p : Acquire} {r : Reply}

theorem could_not_lock_ne (c : Claim) (holder : Option Content) :
    Failure.rule ("Could not lock " ++ c.source.display) ≠ alreadyRunning c holder := by
  intro h
  have htext : "Could not lock " ++ c.source.display = _ := Cause.rule.inj (congrArg Failure.cause h)
  have hchars := congrArg String.toList htext
  simp only [String.toList_append] at hchars
  exact absurd (List.cons.inj hchars).1 (by decide)

theorem not_isRefusal_attempt (left : Nat) : ¬ (attempt c left).IsRefusal c := by
  cases left with
  | zero =>
    rintro ⟨holder, h⟩
    exact could_not_lock_ne c holder h
  | succ left => exact id

/-- Only a refused call for the lock lets the taking of a lock fail in this way. -/
theorem isRefusal_of_next (hp : (p.call? c).isSome = true) (h : (p.next c path r).IsRefusal c) :
    p.IsRefusal c ∨ ∃ left g, p = .tryLock left g ∧ r = .no := by
  cases p with
  | makeDir =>
    cases r with
    | done => exact (not_isRefusal_attempt attempts h).elim
    | failed e =>
      obtain ⟨holder, h⟩ := h
      cases h
    | _ => exact h.elim
  | openFile left =>
    cases r with
    | failed e =>
      obtain ⟨holder, h⟩ := h
      cases h
    | _ => exact h.elim
  | tryLock left g =>
    cases r with
    | no => exact Or.inr ⟨left, g, rfl, rfl⟩
    | failed e =>
      obtain ⟨holder, h⟩ := h
      cases h
    | _ => exact h.elim
  | check left g =>
    cases r with
    | yes =>
      simp only [next] at h
      split at h
      · exact h.elim
      · obtain ⟨holder, h⟩ := h
        cases h
    | failed e =>
      obtain ⟨holder, h⟩ := h
      cases h
    | _ => exact h.elim
  | write g =>
    cases r with
    | failed e =>
      obtain ⟨holder, h⟩ := h
      cases h
    | _ => exact h.elim
  | readHolder g => exact Or.inl trivial
  | retry left g => exact (not_isRefusal_attempt left h).elim
  | giveUp g f => exact Or.inl h
  | acquired | refused => cases hp

end Acquire

/-! ## Locked files -/

namespace Process

/-- The lock file that a process may have locked, for whatever reason. -/
def latched? : Process → Option Handle
  | .acquiring _ (.check _ h) | .acquiring _ (.write h) | .acquiring _ (.retry _ h) | .acquiring _ (.giveUp h _)
  | .acquiring _ (.acquired h) => some h
  | .releasing p => p.handle?
  | .inspecting (.finish h _) => some h
  | _ => none

/-- The process is in the middle of taking the lock. -/
def isTaking : Process → Bool
  | .acquiring _ (.acquired _) | .acquiring _ (.refused _) => false
  | .acquiring _ _ => true
  | _ => false

/-- The process is in the middle of giving the lock up. -/
def isLeaving : Process → Bool
  | .releasing (.ended _) => false
  | .releasing _ => true
  | _ => false

/-- The process is in the middle of inspecting the lock. -/
def isLooking : Process → Bool
  | .inspecting (.ended _) => false
  | .inspecting _ => true
  | _ => false

section
variable {p : Process} {h : Handle} {c : Call} {r : Reply} {t : Target} {isLive : Nat → Bool}

theorem handle_of_latched (hl : p.latched? = some h) : p.handle? = some h := by
  unfold latched? at hl
  split at hl <;> first | exact hl | cases hl

theorem latched_of_isIdle (hp : p.isIdle = true) : p.latched? = none := by
  unfold isIdle at hp
  split at hp <;> first | rfl | cases hp

theorem latched_of_held (hh : p.held? = some h) : p.latched? = some h := by
  unfold held? at hh
  split at hh
  · exact hh
  · cases hh

/-- What a process with a locked file is doing. -/
theorem doing_of_latched (hl : p.latched? = some h) :
    p.held?.isSome = true ∨ p.isTaking = true ∨ p.isLeaving = true ∨ p.isLooking = true := by
  unfold latched? at hl
  split at hl
  · simp [isTaking]
  · simp [isTaking]
  · simp [isTaking]
  · simp [isTaking]
  · simp [held?]
  · rename_i p
    cases p <;> simp_all [isLeaving, Release.handle?]
  · simp [isLooking]
  · cases hl

/-- A locked file stays with its process until it is closed. -/
theorem next_latched (hl : p.latched? = some h) (hc : p.call? = some c) (hne : c ≠ .close h) :
    (p.next t isLive r).latched? = some h := by
  cases p with
  | resting => cases hc
  | acquiring cl p =>
    cases p with
    | makeDir | openFile | tryLock | readHolder | refused => cases hl
    | check left g =>
      cases r with
      | yes =>
        simp only [next, Acquire.next]
        split <;> exact hl
      | _ => exact hl
    | write g => cases r <;> exact hl
    | retry | giveUp =>
      obtain rfl := Option.some.inj hl
      exact absurd (Option.some.inj hc).symm hne
    | acquired g => cases hc
  | releasing p =>
    cases p with
    | unlink g => cases r <;> exact hl
    | unlinkAgain | drop => exact hl
    | close g r' =>
      obtain rfl := Option.some.inj hl
      exact absurd (Option.some.inj hc).symm hne
    | ended r' => cases hl
  | inspecting p =>
    cases p with
    | finish g r' =>
      obtain rfl := Option.some.inj hl
      exact absurd (Option.some.inj hc).symm hne
    | isThere | openFile | tryLock | readHolder | ended => cases hl

theorem next_latched_of_tryLock (hc : p.call? = some (.tryLock h)) :
    (p.next t isLive .yes).latched? = some h := by
  cases p with
  | resting => cases hc
  | acquiring cl p => cases p <;> simp_all [call?, Acquire.call?, next, Acquire.next, latched?]
  | releasing p => cases p <;> simp_all [call?, Release.call?]
  | inspecting p => cases p <;> simp_all [call?, Inspect.call?, next, Inspect.next, latched?]

end

end Process

/-! ## Each lock has a process -/

section
variable {m : Machine} {c : Call} {dir path : Path}

/-- A lock in the table was there before the call and is not that of a file closed by it, or has just been taken. -/
theorem Call.perform_locks (hm : m.Sane) (dir path : Path) (c : Call) {n id : Nat}
    (h : (n, id) ∈ (c.perform dir path m).2.locks) :
    (n, id) ∈ m.locks ∧ c ≠ .close ⟨id⟩ ∨ c = .tryLock ⟨id⟩ ∧ (c.perform dir path m).1 = .yes ∧ m.nodeOf ⟨id⟩ = n := by
  rcases c.perform_cases hm dir path with
    hk | ⟨i, m₁, hk, he⟩ | ⟨g, rfl, hl, he⟩ | ⟨rfl, m', -, -, hl, -, -, he⟩ | ⟨g, rfl, he⟩
  · by_cases hc : c = .close ⟨id⟩
    · subst hc
      simp [perform, Machine.close] at h
    · rw [hk.locks] at h
      exact Or.inl ⟨h, hc⟩
  · left
    rw [he] at h
    refine ⟨by rw [← hk.locks]; exact h, ?_⟩
    rintro rfl
    cases he
  · rw [he] at h
    rcases List.mem_cons.mp h with h | h
    · cases h
      refine Or.inr ⟨rfl, ?_, rfl⟩
      simp [perform, Machine.tryLock, hl]
    · exact Or.inl ⟨h, by simp⟩
  · rw [he, hl] at h
    exact Or.inl ⟨h, by simp⟩
  · rw [he] at h
    simp only [Machine.close, List.mem_filter, decide_eq_true_eq] at h
    refine Or.inl ⟨h.1, fun hc => h.2 ?_⟩
    rw [Call.close.inj hc]

theorem Call.perform_tryLock_no {h : Handle} :
    ((Call.tryLock h).perform dir path m).1 = .no ↔ (m.tryLock h).1 = false := by
  simp only [perform]
  split <;> simp_all

end

/-- A call for a lock is refused when another open file of the node has it. -/
theorem mem_locks_of_refused {m : Machine} {h : Handle} (hr : (m.tryLock h).1 = false) :
    ∃ id, (m.nodeOf h, id) ∈ m.locks := by
  unfold Machine.tryLock at hr
  split at hr
  · rename_i id hl
    exact ⟨id, mem_of_lookup hl⟩
  · cases hr

namespace World

/-- Every lock in the table is that of a process that may have locked a file. -/
structure Attended (w : World) : Prop where
  process : ∀ {n id : Nat}, (n, id) ∈ w.machine.locks → ∃ (j : Nat) (q : Process), w.processes[j]? = some q ∧
    q.latched? = some ⟨id⟩ ∧ w.machine.nodeOf ⟨id⟩ = n

/-- A process stands in the way of another one that has a file open: it has locked the file. -/
def Bars (w : World) (j : Nat) (h : Handle) : Prop :=
  ∃ q g, w.processes[j]? = some q ∧ q.latched? = some g ∧ w.machine.nodeOf g = w.machine.nodeOf h ∧
    (w.machine.nodeOf h, g.id) ∈ w.machine.locks

section
variable {t : Target} {isLive : Nat → Bool} {w w' : World} {a : Action}

/-- The process that an action lets begin something. -/
def Action.beginner? : Action → Option Nat
  | .acquire i _ _ | .inspect i | .release i | .drop i => some i
  | .call _ => none

/-- A process that begins something keeps the file that it may have locked, and has not been refused. -/
theorem step_begin (h : step t isLive w a = some w') (ha : ∀ i, a ≠ .call i) : ∃ i p p', a.beginner? = some i ∧
    w.processes[i]? = some p ∧ w' = ⟨w.machine, w.processes.setIfInBounds i p'⟩ ∧
    (∀ {g : Handle}, p.latched? = some g → p'.latched? = some g) ∧ ∀ c q, p' = .acquiring c q → ¬ q.IsRefusal c := by
  have hidle : ∀ {p : Process}, p.isIdle = true → ∀ {p' : Process} {g : Handle}, p.latched? = some g →
      p'.latched? = some g := fun hp _ _ hl => by
    rw [Process.latched_of_isIdle hp] at hl
    cases hl
  have hheld : ∀ {p : Process} {k : Handle}, p.held? = some k → ∀ {p' : Process}, p'.latched? = some k →
      ∀ {g : Handle}, p.latched? = some g → p'.latched? = some g := fun hh _ hk _ hl =>
    hk.trans ((Process.latched_of_held hh).symm.trans hl)
  cases a with
  | acquire i pid now =>
    obtain ⟨p, hp, hrest, rfl⟩ := begin_eq_some h
    refine ⟨i, p, _, rfl, hp, rfl, hidle hrest, ?_⟩
    rintro _ _ ⟨⟩
    exact id
  | inspect i =>
    obtain ⟨p, hp, hrest, rfl⟩ := begin_eq_some h
    exact ⟨i, p, _, rfl, hp, rfl, hidle hrest, nofun⟩
  | release i =>
    obtain ⟨p, g, hp, hh, rfl⟩ := giveUp_eq_some h
    exact ⟨i, p, _, rfl, hp, rfl, hheld hh rfl, nofun⟩
  | drop i =>
    obtain ⟨p, g, hp, hh, rfl⟩ := giveUp_eq_some h
    exact ⟨i, p, _, rfl, hp, rfl, hheld hh rfl, nofun⟩
  | call i => exact absurd rfl (ha i)

end

namespace Attended

variable {t : Target} {isLive : Nat → Bool} {w w' : World} {a : Action}

theorem start {m : Machine} (hm : m.locks = []) (count : Nat) : Attended (start m count) := by
  constructor
  intro n id h
  rw [World.start, hm] at h
  cases h

theorem step (h : w.Attended) (hw : w.Sound) (hs : World.step t isLive w a = some w') : w'.Attended := by
  rcases step_cases hs with ⟨i, p, c, -, hp, hc, rfl⟩ | ⟨ha, -⟩
  · constructor
    intro n id hlock
    have hi : ∀ p', (w.processes.setIfInBounds i p')[i]? = some p' := fun p' => by
      simp [getElem?_lt hp]
    rcases Call.perform_locks hw.sane t.dir t.path c hlock with ⟨hlock, hne⟩ | ⟨rfl, hr, hn⟩
    · obtain ⟨j, q, hq, hlq, hnode⟩ := h.process hlock
      have hnode' := (Call.perform_other hw.sane t.dir t.path ((hw.relies hq).known (Process.handle_of_latched hlq))
        hne).1
      by_cases hij : i = j
      · subst hij
        obtain rfl : p = q := Option.some.inj (hp.symm.trans hq)
        exact ⟨i, _, hi _, Process.next_latched hlq hc hne, hnode'.trans hnode⟩
      · exact ⟨j, q, by rw [Array.getElem?_setIfInBounds_ne hij]; exact hq, hlq, hnode'.trans hnode⟩
    · refine ⟨i, _, hi _, ?_, (Call.perform_locked hr).1.trans hn⟩
      rw [hr]
      exact Process.next_latched_of_tryLock hc
  · obtain ⟨i, p, p', -, hp, rfl, hkeep, -⟩ := step_begin hs ha
    constructor
    intro n id hlock
    obtain ⟨j, q, hq, hlq, hnode⟩ := h.process hlock
    by_cases hij : i = j
    · subst hij
      obtain rfl : p = q := Option.some.inj (hp.symm.trans hq)
      exact ⟨i, p', by simp [getElem?_lt hp], hkeep hlq, hnode⟩
    · exact ⟨j, q, by rw [Array.getElem?_setIfInBounds_ne hij]; exact hq, hlq, hnode⟩

end Attended

/-! ## Refusals -/

section
variable {t : Target} {isLive : Nat → Bool} {w w' : World} {a : Action}

/-- The call that a process makes next while it takes the lock of a claim is one for the exclusive lock of its open
file, and is refused. -/
def Refuses (w : World) (i : Nat) (c : Claim) (h : Handle) : Prop :=
  (∃ left, w.processes[i]? = some (.acquiring c (.tryLock left h))) ∧ (w.machine.tryLock h).1 = false

/-- One of the other processes has locked the file of a process that is refused. -/
theorem Attended.bars (h : w.Attended) {i : Nat} {c : Claim} {g : Handle} (hr : w.Refuses i c g) :
    ∃ j, j ≠ i ∧ w.Bars j g := by
  obtain ⟨⟨left, hp⟩, hno⟩ := hr
  obtain ⟨id, hlock⟩ := mem_locks_of_refused hno
  obtain ⟨j, q, hq, hlq, hn⟩ := h.process hlock
  refine ⟨j, ?_, q, ⟨id⟩, hq, hlq, hn, hlock⟩
  rintro rfl
  rw [hp] at hq
  cases hq
  cases hlq

/-- In the past, the process was refused while it took the lock of the claim, because of another one, and it has
begun nothing else since. -/
def RefusedIn (past : List (World × Action)) (i : Nat) (c : Claim) : Prop :=
  ∃ before w₀ after g, past = before ++ (w₀, .call i) :: after ∧ w₀.Refuses i c g ∧
    (∀ x ∈ after, x.2.beginner? ≠ some i) ∧ ∃ j, j ≠ i ∧ w₀.Bars j g

theorem RefusedIn.concat {past : List (World × Action)} {i : Nat} {c : Claim} (h : RefusedIn past i c)
    (ha : a.beginner? ≠ some i) : RefusedIn (past ++ [(w, a)]) i c := by
  obtain ⟨before, w₀, after, g, rfl, hr, hafter, hj⟩ := h
  refine ⟨before, w₀, after ++ [(w, a)], g, by simp, hr, ?_, hj⟩
  intro x hx
  rcases List.mem_append.mp hx with hx | hx
  · exact hafter x hx
  · rw [List.mem_singleton.mp hx]
    exact ha

/-- What holds of a run: whoever stands at a refused point was refused. -/
structure Accounted (past : List (World × Action)) (w : World) : Prop where
  sound : w.Sound
  attended : w.Attended
  refusals : ∀ {i : Nat} {c : Claim} {p : Acquire}, w.processes[i]? = some (.acquiring c p) → p.IsRefusal c →
    RefusedIn past i c

namespace Accounted

variable {past : List (World × Action)}

theorem start {m : Machine} (hm : m.Sane) (hfree : m.locks = []) (count : Nat) : Accounted [] (start m count) :=
  ⟨.start hm count, .start hfree count, fun hp => nomatch resting_of_start hp⟩

theorem next (h : Accounted past w) (hs : step t isLive w a = some w') : Accounted (past ++ [(w, a)]) w' := by
  refine ⟨h.sound.step hs, h.attended.step h.sound hs, fun {k c q} hk hq => ?_⟩
  rcases step_cases hs with ⟨i, p, call, rfl, hp, hc, rfl⟩ | ⟨ha, -⟩
  · rcases getElem?_setIfInBounds_cases hk with ⟨rfl, hnext⟩ | ⟨-, hk⟩
    · cases p with
      | resting => cases hc
      | releasing p => cases hnext
      | inspecting p => cases hnext
      | acquiring c' p =>
        cases hnext
        rcases Acquire.isRefusal_of_next (by rw [show p.call? c = some call from hc]; rfl) hq with
          hrefused | ⟨left, g, rfl, hno⟩
        · exact (h.refusals hp hrefused).concat nofun
        · obtain rfl : Call.tryLock g = call := Option.some.inj hc
          have hr : w.Refuses i c g := ⟨⟨left, hp⟩, Call.perform_tryLock_no.mp hno⟩
          exact ⟨past, w, [], g, rfl, hr, nofun, h.attended.bars hr⟩
    · exact (h.refusals hk hq).concat nofun
  · obtain ⟨i, p, p', hb, hp, rfl, -, hfresh⟩ := step_begin hs ha
    rcases getElem?_setIfInBounds_cases hk with ⟨rfl, rfl⟩ | ⟨hne, hk⟩
    · exact absurd hq (hfresh c q rfl)
    · refine (h.refusals hk hq).concat ?_
      rw [hb]
      exact fun heq => hne (Option.some.inj heq)

end Accounted

/-- A process that fails because the lock is taken was refused while another one had locked the lock file: one that
held the lock or was taking it, or else one that was giving it up or inspecting it. -/
theorem refused_only_while_locked {m : Machine} {count : Nat} {acts : List Action} (hm : m.Sane)
    (hfree : m.locks = []) (h : Steps.run (step t isLive) (World.start m count) acts = some w) {i : Nat} {c : Claim}
    {holder : Option Content}
    (hi : w.processes[i]? = some (.acquiring c (.refused (Acquire.alreadyRunning c holder)))) :
    ∃ before w₀ after g,
      Steps.history (step t isLive) (World.start m count) acts = before ++ (w₀, .call i) :: after ∧
      w₀.Refuses i c g ∧ (∀ x ∈ after, x.2.beginner? ≠ some i) ∧
      ∃ j q, j ≠ i ∧ w₀.processes[j]? = some q ∧ w₀.Bars j g ∧
        (w₀.holds j = true ∨ q.isTaking = true ∨ q.isLeaving = true ∨ q.isLooking = true) := by
  have hacc : Accounted (Steps.history (step t isLive) (World.start m count) acts) w :=
    Steps.run_induction (P := Accounted) (fun hk hs => hk.next hs) (.start hm hfree count) h
  obtain ⟨before, w₀, after, g, hpast, hr, hafter, j, hne, hbars⟩ := hacc.refusals hi ⟨holder, rfl⟩
  obtain ⟨q, k, hq, hl, -⟩ := id hbars
  refine ⟨before, w₀, after, g, hpast, hr, hafter, j, q, hne, hq, hbars, ?_⟩
  rw [holds, hq]
  exact Process.doing_of_latched hl

end

/-! ## Two processes -/

/-- The calls that end in a refusal. -/
def refused (i pid : Nat) : List Action := .acquire i pid 0 :: List.replicate 5 (.call i)

/-- A process takes the lock while another one holds it. -/
def contended : List Action := taking 0 1 ++ refused 1 2

/-- A process takes the lock of a lock file left behind, while another one only inspects it. -/
def inspected : List Action := .inspect 0 :: List.replicate 3 (.call 0) ++ refused 1 2

/-- A machine on which a lock file has been left behind. -/
def leftover : Machine := (({} : Machine).write rootLock.path []).toOption.getD {}

/-- The claim of a process on that lock. -/
def rootClaim (pid : Nat) : Claim := ⟨rootLock.dir, rootLock.source, pid, 0⟩

/-- Why the process could not take the lock. -/
def refusalOf (w : World) (i : Nat) : Option (Claim × Failure) :=
  match w.processes[i]? with
  | some (.acquiring c (.refused f)) => some (c, f)
  | _ => none

theorem refusalOf_eq_some {w : World} {i : Nat} {c : Claim} {f : Failure} :
    w.refusalOf i = some (c, f) ↔ w.processes[i]? = some (.acquiring c (.refused f)) := by
  unfold refusalOf
  split
  · simp_all
  · simp_all

theorem refused_only_while_locked_when_held : ∃ w,
    Steps.run (step rootLock fun _ => true) (start {} 2) contended = some w ∧
      w.processes[1]? = some (.acquiring (rootClaim 2)
        (.refused (Acquire.alreadyRunning (rootClaim 2) (some (rootClaim 1).content)))) ∧
      ∃ before w₀ after g, Steps.history (step rootLock fun _ => true) (start {} 2) contended =
        before ++ (w₀, .call 1) :: after ∧ w₀.Refuses 1 (rootClaim 2) g ∧ ∃ j, j ≠ 1 ∧ w₀.Bars j g := by
  have hrun : (Steps.run (step rootLock fun _ => true) (start {} 2) contended).bind (·.refusalOf 1) =
      some (rootClaim 2, Acquire.alreadyRunning (rootClaim 2) (some (rootClaim 1).content)) := by
    decide +kernel
  obtain ⟨w, hw, hrefused⟩ := Option.bind_eq_some_iff.mp hrun
  have hp := refusalOf_eq_some.mp hrefused
  obtain ⟨before, w₀, after, g, hpast, hr, -, j, -, hne, -, hbars, -⟩ :=
    refused_only_while_locked Machine.sane_empty rfl hw hp
  exact ⟨w, hw, hp, before, w₀, after, g, hpast, hr, j, hne, hbars⟩

/-- Taking a lock that nobody else has ever wanted is refused because of an inspection. -/
theorem refused_by_inspection : ∃ w,
    Steps.run (step rootLock fun _ => true) (start leftover 2) inspected = some w ∧
      w.processes[1]? = some (.acquiring (rootClaim 2) (.refused (Acquire.alreadyRunning (rootClaim 2) none))) ∧
      ∀ x ∈ Steps.history (step rootLock fun _ => true) (start leftover 2) inspected,
        ∀ j q, j ≠ 1 → x.1.processes[j]? = some q → q.held? = none ∧ q.isTaking = false := by
  have hrun : (Steps.run (step rootLock fun _ => true) (start leftover 2) inspected).bind (·.refusalOf 1) =
      some (rootClaim 2, Acquire.alreadyRunning (rootClaim 2) none) := by
    decide +kernel
  have hall : (Steps.history (step rootLock fun _ => true) (start leftover 2) inspected).all (fun x =>
      x.1.processes.size == 2 && (x.1.processes[0]?).all fun q => q.held?.isNone && !q.isTaking) = true := by
    decide +kernel
  obtain ⟨w, hw, hrefused⟩ := Option.bind_eq_some_iff.mp hrun
  refine ⟨w, hw, refusalOf_eq_some.mp hrefused, fun x hx j q hj hq => ?_⟩
  obtain ⟨hsize, hfirst⟩ := Bool.and_eq_true_iff.mp (List.all_eq_true.mp hall x hx)
  have hlt : j < 2 := by
    rw [← beq_iff_eq.mp hsize]
    exact getElem?_lt hq
  obtain rfl : j = 0 := by omega
  simpa [hq] using hfirst

end World

end Retrace.Lock
