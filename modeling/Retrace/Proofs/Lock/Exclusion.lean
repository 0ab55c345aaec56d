import Retrace.Proofs.Lock.Calls
import Retrace.Proofs.Steps

/-!
# Who has the lock

The lock is intact while the path leads to the file of every process that has it; then at most one has it. A release
removes what stands at the path twice, and only the first file is sure to be its own: a second removal strays when
another process has the lock, and nothing else ever takes the lock file of a process away.
-/

namespace Retrace.Lock

/-- What a process relies on: its open file has a handle that was given out, and the lock that it has taken on the
file is its own. -/
structure Process.Relies (m : Machine) (p : Process) : Prop where
  known : ∀ {h : Handle}, p.handle? = some h → h.id < m.nextHandle
  locked : ∀ {h : Handle}, p.locked? = some h → m.locks.lookup (m.nodeOf h) = some h.id

/-- When the process has the lock, the path leads to its file. -/
structure Process.Linked (path : Path) (m : Machine) (p : Process) : Prop where
  leads : ∀ {h : Handle}, p.owned? = some h → ∃ place, m.find path = .ok place ∧ place.ino = m.nodeOf h

/-- A process has no file and no lock but those of another point. -/
structure Process.Within (p q : Process) : Prop where
  handle : ∀ {h : Handle}, p.handle? = some h → q.handle? = some h
  locked : ∀ {h : Handle}, p.locked? = some h → q.locked? = some h
  owned : ∀ {h : Handle}, p.owned? = some h → q.owned? = some h

section
variable {t : Target} {isLive : Nat → Bool} {dir path : Path} {m : Machine} {p q : Process} {c : Call}

theorem Process.Within.of_no_handle (h : p.handle? = none) : p.Within q := by
  have hnone : ∀ {g : Handle}, p.handle? ≠ some g := fun hg => by rw [h] at hg; cases hg
  exact ⟨fun hh => absurd hh hnone, fun hl => absurd (handle_of_locked hl) hnone,
    fun ho => absurd (handle_of_locked (locked_of_owned ho)) hnone⟩

theorem Process.Within.of_owned {g : Handle} (hq : q.owned? = some g) (hp : p.handle? = some g) : p.Within q := by
  have hsame : ∀ {k : Handle}, p.handle? = some k → g = k := fun hk => Option.some.inj (hp.symm.trans hk)
  constructor
  · intro k hk
    obtain rfl := hsame hk
    exact handle_of_locked (locked_of_owned hq)
  · intro k hk
    obtain rfl := hsame (handle_of_locked hk)
    exact locked_of_owned hq
  · intro k hk
    obtain rfl := hsame (handle_of_locked (locked_of_owned hk))
    exact hq

theorem Process.Within.relies (h : p.Within q) (hq : q.Relies m) : p.Relies m :=
  ⟨fun hh => hq.known (h.handle hh), fun hl => hq.locked (h.locked hl)⟩

theorem Process.Within.linked (h : p.Within q) (hq : q.Linked path m) : p.Linked path m :=
  ⟨fun ho => hq.leads (h.owned ho)⟩

theorem Process.Relies.next (hp : p.Relies m) (hm : m.Sane) (hc : p.call? = some c) :
    (p.next t isLive (c.perform t.dir t.path m).1).Relies (c.perform t.dir t.path m).2 := by
  have hsane := c.perform_sane hm t.dir t.path
  constructor
  · intro h hh
    rcases next_handle hc hh with hh | ⟨rfl, hr⟩
    · exact Nat.lt_of_lt_of_le (hp.known hh) hsane.2
    · obtain ⟨rfl, hn⟩ := Call.perform_opened hm hr
      rw [hn]
      exact Nat.lt_succ_self _
  · intro h hl
    rcases next_locked hc hl with ⟨hl, hne⟩ | ⟨rfl, hr⟩
    · obtain ⟨hnode, hlk⟩ := Call.perform_other hm t.dir t.path (hp.known (handle_of_locked hl)) hne
      rw [hnode]
      exact hlk (hp.locked hl)
    · obtain ⟨hnode, hlk⟩ := Call.perform_locked hr
      rw [hnode]
      exact hlk

theorem Process.Relies.other (hq : q.Relies m) (hm : m.Sane)
    (hc : ∀ {h : Handle}, q.handle? = some h → c ≠ .close h) : q.Relies (c.perform dir path m).2 := by
  constructor
  · intro h hh
    exact Nat.lt_of_lt_of_le (hq.known hh) (c.perform_sane hm dir path).2
  · intro h hl
    have hh := handle_of_locked hl
    obtain ⟨hnode, hlk⟩ := Call.perform_other hm dir path (hq.known hh) (hc hh)
    rw [hnode]
    exact hlk (hq.locked hl)

theorem Process.Linked.next (hl : p.Linked t.path m) (hp : p.Relies m) (hm : m.Sane) (hc : p.call? = some c) :
    (p.next t isLive (c.perform t.dir t.path m).1).Linked t.path (c.perform t.dir t.path m).2 := by
  constructor
  intro h ho
  rcases next_owned hc ho with ⟨ho, hne, hne'⟩ | ⟨-, rfl, hr⟩
  · obtain ⟨place, hf, hi⟩ := hl.leads ho
    obtain ⟨hnode, -⟩ := Call.perform_other hm t.dir t.path (hp.known (handle_of_locked (locked_of_owned ho))) hne'
    exact ⟨place, Call.perform_find hm (fun hu => absurd hu hne) hf, hi.trans hnode.symm⟩
  · obtain ⟨hsame, place, hf, hi⟩ := Call.perform_leadsTo hr
    rw [hsame]
    exact ⟨place, hf, hi⟩

theorem Process.Linked.other (hl : q.Linked path m) (hq : q.Relies m) (hm : m.Sane)
    (hc : ∀ {h : Handle}, q.handle? = some h → c ≠ .close h)
    (hu : c = .unlink → (m.removeFile path).isOk = false ∨ q.owned? = none) :
    q.Linked path (c.perform dir path m).2 := by
  constructor
  intro h ho
  obtain ⟨place, hf, hi⟩ := hl.leads ho
  have hh := handle_of_locked (locked_of_owned ho)
  obtain ⟨hnode, -⟩ := Call.perform_other hm dir path (hq.known hh) (hc hh)
  refine ⟨place, Call.perform_find hm (fun hcu => ?_) hf, hi.trans hnode.symm⟩
  rcases hu hcu with hr | hn
  · exact hr
  · rw [hn] at ho
    cases ho

end

/-! ## The processes together -/

namespace World

/-- A process has the lock. -/
def owns (w : World) (i : Nat) : Bool := ((w.processes[i]?).bind Process.owned?).isSome

/-- A step removes a file at the path for a process that has released the lock already, while some process has the
lock. -/
def strays (t : Target) (w : World) : Action → Bool
  | .call i =>
    (w.processes[i]?).any Process.isUnlinkingAgain && (w.machine.removeFile t.path).isOk &&
      w.processes.any (Process.owned? · |>.isSome)
  | _ => false

/-- The path leads to the file of every process that has the lock. -/
def Intact (t : Target) (w : World) : Prop :=
  ∀ (i : Nat) (p : Process), w.processes[i]? = some p → p.Linked t.path w.machine

/-- What holds of the processes and the machine after any steps. -/
structure Sound (w : World) : Prop where
  sane : w.machine.Sane
  relies : ∀ {i : Nat} {p : Process}, w.processes[i]? = some p → p.Relies w.machine
  apart : ∀ {i j : Nat} {p q : Process} {h : Handle}, w.processes[i]? = some p → w.processes[j]? = some q →
    p.handle? = some h → q.handle? = some h → i = j

section
variable {t : Target} {isLive : Nat → Bool} {w w' : World} {a : Action}

theorem owns_iff {i : Nat} : w.owns i = true ↔ ∃ p h, w.processes[i]? = some p ∧ p.owned? = some h := by
  simp only [owns, Option.isSome_iff_exists, Option.bind_eq_some_iff]
  exact ⟨fun ⟨h, p, hp, ho⟩ => ⟨p, h, hp, ho⟩, fun ⟨p, h, hp, ho⟩ => ⟨h, p, hp, ho⟩⟩

theorem owns_of_holds {i : Nat} (h : w.holds i = true) : w.owns i = true := by
  simp only [holds, Option.isSome_iff_exists, Option.bind_eq_some_iff] at h
  obtain ⟨g, p, hp, hh⟩ := h
  exact owns_iff.mpr ⟨p, g, hp, Process.owned_of_held hh⟩

theorem strays_iff : w.strays t a = true ↔ ∃ i j p, a = .call i ∧ w.processes[i]? = some p ∧
    p.isUnlinkingAgain = true ∧ (w.machine.removeFile t.path).isOk = true ∧ w.owns j = true := by
  have hany : w.processes.any (Process.owned? · |>.isSome) = true ↔ ∃ j, w.owns j = true := by
    rw [Array.any_eq_true]
    constructor
    · rintro ⟨j, hj, ho⟩
      exact ⟨j, by rw [owns, Array.getElem?_eq_getElem hj]; exact ho⟩
    · rintro ⟨j, ho⟩
      obtain ⟨p, h, hp, hh⟩ := owns_iff.mp ho
      obtain ⟨hj, rfl⟩ := Array.getElem?_eq_some_iff.mp hp
      exact ⟨j, hj, Option.isSome_iff_exists.mpr ⟨h, hh⟩⟩
  cases a with
  | call i =>
    simp only [strays, Bool.and_eq_true, hany, Option.any_eq_true]
    constructor
    · rintro ⟨⟨⟨p, hp, hu⟩, hr⟩, j, ho⟩
      exact ⟨i, j, p, rfl, hp, hu, hr, ho⟩
    · rintro ⟨i', j, p, hi, hp, hu, hr, ho⟩
      cases hi
      exact ⟨⟨⟨p, hp, hu⟩, hr⟩, j, ho⟩
  | _ => exact ⟨nofun, fun ⟨_, _, _, h, _⟩ => nomatch h⟩

theorem resting_of_start {m : Machine} {count i : Nat} {p : Process} (hp : (start m count).processes[i]? = some p) :
    p = .resting := by
  simp only [start, Array.getElem?_replicate] at hp
  split at hp
  · exact (Option.some.inj hp).symm
  · cases hp

theorem begin_eq_some {i : Nat} {p' : Process} (h : w.begin i p' = some w') :
    ∃ p, w.processes[i]? = some p ∧ p.isIdle = true ∧
      w' = { w with processes := w.processes.setIfInBounds i p' } := by
  unfold begin at h
  split at h
  · rename_i p hp
    split at h
    · rename_i hidle
      exact ⟨p, hp, hidle, (Option.some.inj h).symm⟩
    · cases h
  · cases h

theorem giveUp_eq_some {i : Nat} {f : Handle → Release} (h : w.giveUp i f = some w') :
    ∃ p g, w.processes[i]? = some p ∧ p.held? = some g ∧
      w' = { w with processes := w.processes.setIfInBounds i (.releasing (f g)) } := by
  unfold giveUp at h
  split at h
  · rename_i g hb
    obtain ⟨p, hp, hh⟩ := Option.bind_eq_some_iff.mp hb
    exact ⟨p, g, hp, hh, (Option.some.inj h).symm⟩
  · cases h

/-- A step makes a call of a process, or lets it begin something with no more than what it has. -/
theorem step_cases (h : step t isLive w a = some w') :
    (∃ i p c, a = .call i ∧ w.processes[i]? = some p ∧ p.call? = some c ∧
      w' = ⟨(c.perform t.dir t.path w.machine).2,
        w.processes.setIfInBounds i (p.next t isLive (c.perform t.dir t.path w.machine).1)⟩) ∨
    ((∀ i, a ≠ .call i) ∧ ∃ i p p', w.processes[i]? = some p ∧ p'.Within p ∧
      w' = ⟨w.machine, w.processes.setIfInBounds i p'⟩) := by
  cases a with
  | acquire i pid now =>
    obtain ⟨p, hp, -, rfl⟩ := begin_eq_some h
    exact Or.inr ⟨nofun, i, p, _, hp, .of_no_handle rfl, rfl⟩
  | inspect i =>
    obtain ⟨p, hp, -, rfl⟩ := begin_eq_some h
    exact Or.inr ⟨nofun, i, p, _, hp, .of_no_handle rfl, rfl⟩
  | release i =>
    obtain ⟨p, g, hp, hh, rfl⟩ := giveUp_eq_some h
    exact Or.inr ⟨nofun, i, p, _, hp, .of_owned (Process.owned_of_held hh) rfl, rfl⟩
  | drop i =>
    obtain ⟨p, g, hp, hh, rfl⟩ := giveUp_eq_some h
    exact Or.inr ⟨nofun, i, p, _, hp, .of_owned (Process.owned_of_held hh) rfl, rfl⟩
  | call i =>
    simp only [step, nextCall, Option.bind_eq_some_iff, Option.map_eq_some_iff] at h
    obtain ⟨p, hp, _, ⟨c, hc, rfl⟩, rfl⟩ := h
    exact Or.inl ⟨i, p, c, rfl, hp, hc, rfl⟩

end

namespace Sound

variable {t : Target} {isLive : Nat → Bool} {w w' : World} {a : Action}

theorem start {m : Machine} (hm : m.Sane) (count : Nat) : Sound (start m count) := by
  refine ⟨hm, fun hp => ?_, fun hp _ hh _ => ?_⟩
  · obtain rfl := resting_of_start hp
    exact ⟨nofun, nofun⟩
  · obtain rfl := resting_of_start hp
    cases hh

/-- A process goes on to another point, on a machine where the others have what they rely on. -/
theorem put (h : Sound w) {m : Machine} (hm : m.Sane) {i : Nat} {p : Process} (hp : p.Relies m)
    (hothers : ∀ {j : Nat} {q : Process}, i ≠ j → w.processes[j]? = some q →
      q.Relies m ∧ ∀ {g : Handle}, p.handle? = some g → q.handle? ≠ some g) :
    Sound ⟨m, w.processes.setIfInBounds i p⟩ := by
  refine ⟨hm, fun hs => ?_, fun hs hs' hg hg' => ?_⟩
  · rcases getElem?_setIfInBounds_cases hs with ⟨-, rfl⟩ | ⟨hne, hq⟩
    · exact hp
    · exact (hothers hne hq).1
  · rcases getElem?_setIfInBounds_cases hs with ⟨rfl, rfl⟩ | ⟨hne, hq⟩ <;>
      rcases getElem?_setIfInBounds_cases hs' with ⟨rfl, rfl⟩ | ⟨hne', hq'⟩
    · rfl
    · exact absurd hg' ((hothers hne' hq').2 hg)
    · exact absurd hg ((hothers hne hq).2 hg')
    · exact h.apart hq hq' hg hg'

theorem close_apart (h : Sound w) {i j : Nat} {p q : Process} {c : Call} (hp : w.processes[i]? = some p)
    (hc : p.call? = some c) (hij : i ≠ j) (hq : w.processes[j]? = some q) {g : Handle} (hg : q.handle? = some g) :
    c ≠ .close g := by
  rintro rfl
  exact hij (h.apart hp hq (Process.handle_of_close hc) hg)

theorem step (h : Sound w) (hs : World.step t isLive w a = some w') : Sound w' := by
  rcases step_cases hs with ⟨i, p, c, -, hp, hc, rfl⟩ | ⟨-, i, p, p', hp, hin, rfl⟩
  · refine h.put (c.perform_sane h.sane t.dir t.path).1 ((h.relies hp).next h.sane hc) fun hij hq => ?_
    refine ⟨(h.relies hq).other h.sane (h.close_apart hp hc hij hq), fun hg hg' => ?_⟩
    rcases Process.next_handle hc hg with hg | ⟨rfl, hr⟩
    · exact hij (h.apart hp hq hg hg')
    · -- the handle of a file just opened is not known to anybody yet
      obtain ⟨rfl, -⟩ := Call.perform_opened h.sane hr
      exact Nat.lt_irrefl _ ((h.relies hq).known hg')
  · exact h.put h.sane (hin.relies (h.relies hp)) fun hij hq =>
      ⟨h.relies hq, fun hg hg' => hij (h.apart hp hq (hin.handle hg) hg')⟩

/-- When the lock is intact, at most one process has it. -/
theorem owner_unique (h : Sound w) (hint : Intact t w) {i j : Nat} (hi : w.owns i = true) (hj : w.owns j = true) :
    i = j := by
  obtain ⟨p, g, hp, hg⟩ := owns_iff.mp hi
  obtain ⟨q, k, hq, hk⟩ := owns_iff.mp hj
  obtain ⟨place, hf, hn⟩ := (hint i p hp).leads hg
  obtain ⟨place', hf', hn'⟩ := (hint j q hq).leads hk
  obtain rfl : place = place' := Except.ok.inj (hf.symm.trans hf')
  -- both files are the one that the path leads to, and its lock is that of one open file
  have hlg := (h.relies hp).locked (Process.locked_of_owned hg)
  have hlk := (h.relies hq).locked (Process.locked_of_owned hk)
  rw [← hn, hn'] at hlg
  have hid : g.id = k.id := Option.some.inj (hlg.symm.trans hlk)
  obtain rfl : g = k := by cases g; cases k; simp_all
  exact h.apart hp hq (Process.handle_of_locked (Process.locked_of_owned hg))
    (Process.handle_of_locked (Process.locked_of_owned hk))

end Sound

/-! ## An intact lock -/

namespace Intact

variable {t : Target} {isLive : Nat → Bool} {w w' : World} {a : Action}

theorem start (m : Machine) (count : Nat) : Intact t (start m count) := by
  intro i p hp
  obtain rfl := resting_of_start hp
  exact ⟨nofun⟩

theorem put {m : Machine} {i : Nat} {p : Process} (hp : p.Linked t.path m)
    (hothers : ∀ {j : Nat} {q : Process}, i ≠ j → w.processes[j]? = some q → q.Linked t.path m) :
    Intact t ⟨m, w.processes.setIfInBounds i p⟩ := by
  intro j q hq
  rcases getElem?_setIfInBounds_cases hq with ⟨-, rfl⟩ | ⟨hne, hq⟩
  · exact hp
  · exact hothers hne hq

/-- A step that does not stray leaves the lock intact. -/
theorem step (h : Intact t w) (hw : Sound w) (hs : World.step t isLive w a = some w')
    (ha : w.strays t a = false) : Intact t w' := by
  rcases step_cases hs with ⟨i, p, c, rfl, hp, hc, rfl⟩ | ⟨-, i, p, p', hp, hin, rfl⟩
  · refine put ((h i p hp).next (hw.relies hp) hw.sane hc) fun {j q} hij hq => ?_
    refine (h j q hq).other (hw.relies hq) hw.sane (hw.close_apart hp hc hij hq) ?_
    rintro rfl
    cases hr : (w.machine.removeFile t.path).isOk with
    | false => exact Or.inl rfl
    | true =>
      cases hg : q.owned? with
      | none => exact Or.inr rfl
      | some g =>
        have hj : w.owns j = true := owns_iff.mpr ⟨q, g, hq, hg⟩
        -- who removes the file has the lock too, or strays
        rcases Process.owned_of_unlink hc with ho | hagain
        · obtain ⟨k, hk⟩ := Option.isSome_iff_exists.mp ho
          exact absurd (hw.owner_unique h (owns_iff.mpr ⟨p, k, hp, hk⟩) hj) hij
        · rw [strays_iff.mpr ⟨i, j, p, rfl, hp, hagain, hr, hj⟩] at ha
          cases ha
  · exact put (hin.linked (h i p hp)) fun _ hq => h _ _ hq

/-- A step that strays takes away the file of the process that has the lock. -/
theorem not_of_strays (hw : Sound w) (hs : World.step t isLive w a = some w') (ha : w.strays t a = true) :
    ¬ Intact t w' := by
  obtain ⟨i, j, p, rfl, hp, hagain, hr, hj⟩ := strays_iff.mp ha
  obtain ⟨q, g, hq, hg⟩ := owns_iff.mp hj
  rcases step_cases hs with ⟨i', p', c, hi', hp', hc, rfl⟩ | ⟨hno, -⟩
  · cases hi'
    obtain rfl : p = p' := Option.some.inj (hp.symm.trans hp')
    obtain ⟨hnone, hcall⟩ := Process.of_unlinking_again hagain
    obtain rfl : Call.unlink = c := Option.some.inj (hcall.symm.trans hc)
    have hij : i ≠ j := by
      rintro rfl
      obtain rfl : p = q := Option.some.inj (hp.symm.trans hq)
      rw [hnone] at hg
      cases hg
    intro hint
    obtain ⟨place, hf, -⟩ := (hint j q (by rw [Array.getElem?_setIfInBounds_ne hij]; exact hq)).leads hg
    exact Machine.find_removed hw.sane (Call.perform_unlink hr) place hf
  · exact absurd rfl (hno i)

end Intact

/-! ## Runs -/

section
variable {t : Target} {isLive : Nat → Bool} {m : Machine} {count : Nat} {acts : List Action} {w : World}

/-- What holds of a run: the lock has been intact all the time exactly when no step has strayed. -/
structure Watched (t : Target) (past : List (World × Action)) (w : World) : Prop where
  sound : w.Sound
  intact : (∀ x ∈ past, x.1.strays t x.2 = false) ↔ (∀ x ∈ past, x.1.Intact t) ∧ w.Intact t

theorem Watched.start (hm : m.Sane) (count : Nat) : Watched t [] (start m count) :=
  ⟨.start hm count, by simp [Intact.start]⟩

theorem Watched.next {past : List (World × Action)} {a : Action} {w' : World} (h : Watched t past w)
    (hs : step t isLive w a = some w') : Watched t (past ++ [(w, a)]) w' := by
  refine ⟨h.sound.step hs, ?_⟩
  simp only [List.mem_append, List.mem_singleton, or_imp, forall_and, forall_eq]
  rw [h.intact]
  constructor
  · rintro ⟨hint, ha⟩
    exact ⟨hint, hint.2.step h.sound hs ha⟩
  · rintro ⟨hint, hint'⟩
    refine ⟨hint, ?_⟩
    cases ha : w.strays t a with
    | false => rfl
    | true => exact absurd hint' (Intact.not_of_strays h.sound hs ha)

theorem Watched.of_run (hm : m.Sane) (h : Steps.run (step t isLive) (World.start m count) acts = some w) :
    Watched t (Steps.history (step t isLive) (World.start m count) acts) w :=
  Steps.run_induction (P := Watched t) Watched.next (Watched.start hm count) h

/-- Whatever the processes do, at most one of them holds the lock as long as no step has strayed, which is exactly as
long as the path has led to the file of every process that has the lock. -/
theorem exclusive_unless_strayed (hm : m.Sane) (h : Steps.run (step t isLive) (start m count) acts = some w) :
    ((∀ x ∈ Steps.history (step t isLive) (start m count) acts, x.1.strays t x.2 = false) →
      ∀ i j, w.holds i = true → w.holds j = true → i = j) ∧
    ((∀ x ∈ Steps.history (step t isLive) (start m count) acts, x.1.strays t x.2 = false) ↔
      (∀ x ∈ Steps.history (step t isLive) (start m count) acts, x.1.Intact t) ∧ w.Intact t) := by
  have hw := Watched.of_run hm h
  exact ⟨fun hs i j hi hj =>
    hw.sound.owner_unique (hw.intact.mp hs).2 (owns_of_holds hi) (owns_of_holds hj), hw.intact⟩

/-- The lock of a file of the root directory. -/
def rootLock : Target := ⟨⟨[Path.slash]⟩, ⟨[Path.slash, 0x73]⟩⟩

/-- A process takes a lock that nobody has. -/
def taking (i pid : Nat) : List Action := .acquire i pid 0 :: List.replicate 5 (.call i)

/-- A process takes the lock and releases it, then another one takes it. -/
def handover : List Action := taking 0 1 ++ .release 0 :: List.replicate 3 (.call 0) ++ taking 1 2

/-- Another process takes the lock between the two removals of a release, and a third one after them. -/
def overtaken : List Action := taking 0 1 ++ [.release 0, .call 0] ++ taking 1 2 ++ [.call 0] ++ taking 2 3

theorem exclusive_across_handover : ∃ w, Steps.run (step rootLock fun _ => true) (start {} 2) handover = some w ∧
    w.holds 1 = true ∧ (∀ i, w.holds i = true → i = 1) ∧ w.Intact rootLock := by
  have hany : (Steps.run (step rootLock fun _ => true) (start {} 2) handover).any (·.holds 1) = true := by
    decide +kernel
  have hall : (Steps.history (step rootLock fun _ => true) (start {} 2) handover).all
      (fun x => !x.1.strays rootLock x.2) = true := by
    decide +kernel
  obtain ⟨w, hw, hone⟩ := (Option.any_eq_true ..).mp hany
  have hs := fun x hx => (Bool.not_eq_true' _).mp (List.all_eq_true.mp hall x hx)
  obtain ⟨honly, hiff⟩ := exclusive_unless_strayed Machine.sane_empty hw
  exact ⟨w, hw, hone, fun i hi => honly hs i 1 hi hone, (hiff.mp hs).2⟩

theorem two_hold_once_overtaken : ∃ w, Steps.run (step rootLock fun _ => true) (start {} 3) overtaken = some w ∧
    w.holds 1 = true ∧ w.holds 2 = true := by
  have hany : (Steps.run (step rootLock fun _ => true) (start {} 3) overtaken).any
      (fun w => w.holds 1 && w.holds 2) = true := by
    decide +kernel
  obtain ⟨w, hw, hboth⟩ := (Option.any_eq_true ..).mp hany
  exact ⟨w, hw, Bool.and_eq_true_iff.mp hboth⟩

end

end World

end Retrace.Lock
