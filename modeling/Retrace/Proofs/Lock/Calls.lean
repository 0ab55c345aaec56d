import Retrace.Lock.World
import Retrace.Proofs.Machine.Growth

/-!
# Points and calls of a process

A process has a lock file open at some of its points, has locked it at some of these, and has the lock at some of
these again: from finding that the path still leads to the file until removing it. Its next call says which file it
has at its next point, and what a call does to the machine leaves the files of others alone.
-/

namespace Retrace.Lock

/-- The open file at a point of the taking of a lock. -/
def Acquire.handle? : Acquire → Option Handle
  | .makeDir | .openFile _ | .refused _ => none
  | .tryLock _ h | .check _ h | .write h | .readHolder h | .retry _ h | .giveUp h _ | .acquired h => some h

def Release.handle? : Release → Option Handle
  | .unlink h | .unlinkAgain h _ | .drop h | .close h _ => some h
  | .ended _ => none

def Inspect.handle? : Inspect → Option Handle
  | .isThere | .openFile | .ended _ => none
  | .tryLock h | .readHolder h | .finish h _ => some h

namespace Process

/-- The lock file that a process has open. -/
def handle? : Process → Option Handle
  | .resting => none
  | .acquiring _ p => p.handle?
  | .releasing p => p.handle?
  | .inspecting p => p.handle?

/-- The lock file of a process that has the lock: it has found that the path leads to the file, and has not begun to
remove it. -/
def owned? : Process → Option Handle
  | .acquiring _ (.write h) => some h
  | .acquiring _ (.acquired h) => some h
  | .releasing (.unlink h) => some h
  | .releasing (.drop h) => some h
  | _ => none

/-- The lock file of a process that has locked it and wants to have the lock, or has it. -/
def locked? : Process → Option Handle
  | .acquiring _ (.check _ h) => some h
  | p => p.owned?

/-- The process has given up the lock and is about to remove the file at the path once more. -/
def isUnlinkingAgain : Process → Bool
  | .releasing (.unlinkAgain ..) => true
  | _ => false

section
variable {p : Process} {h : Handle} {c : Call} {r : Reply} {t : Target} {isLive : Nat → Bool}

theorem locked_of_owned (ho : p.owned? = some h) : p.locked? = some h := by
  unfold locked?
  split
  · cases ho
  · exact ho

theorem handle_of_locked (hl : p.locked? = some h) : p.handle? = some h := by
  unfold locked? at hl
  split at hl
  · exact hl
  · unfold owned? at hl
    split at hl <;> first | exact hl | cases hl

theorem owned_of_held (hh : p.held? = some h) : p.owned? = some h := by
  unfold held? at hh
  split at hh
  · exact hh
  · cases hh

theorem handle_of_close (hc : p.call? = some (.close h)) : p.handle? = some h := by
  cases p with
  | resting => cases hc
  | acquiring c p => cases p <;> simp_all [call?, Acquire.call?, handle?, Acquire.handle?]
  | releasing p => cases p <;> simp_all [call?, Release.call?, handle?, Release.handle?]
  | inspecting p => cases p <;> simp_all [call?, Inspect.call?, handle?, Inspect.handle?]

/-- Who removes the lock file has the lock, or is about to remove the file once more. -/
theorem owned_of_unlink (hc : p.call? = some .unlink) : p.owned?.isSome = true ∨ p.isUnlinkingAgain = true := by
  cases p with
  | resting => cases hc
  | acquiring c p => cases p <;> simp_all [call?, Acquire.call?]
  | releasing p => cases p <;> simp_all [call?, Release.call?, owned?, isUnlinkingAgain]
  | inspecting p => cases p <;> simp_all [call?, Inspect.call?]

theorem of_unlinking_again (h : p.isUnlinkingAgain = true) : p.owned? = none ∧ p.call? = some .unlink := by
  unfold isUnlinkingAgain at h
  split at h
  · exact ⟨rfl, rfl⟩
  · cases h

theorem next_handle (hc : p.call? = some c) (hn : (p.next t isLive r).handle? = some h) :
    p.handle? = some h ∨ c = .openFile ∧ r = .opened h := by
  cases p with
  | resting => cases hc
  | acquiring cl p =>
    cases p with
    | makeDir => cases r <;> cases hn
    | openFile left =>
      cases r with
      | opened g => exact Or.inr ⟨(Option.some.inj hc).symm, congrArg Reply.opened (Option.some.inj hn)⟩
      | _ => cases hn
    | check left g =>
      cases r with
      | yes =>
        simp only [next, Acquire.next] at hn
        split at hn <;> exact Or.inl hn
      | _ => exact Or.inl hn
    | retry left g => cases left <;> cases hn
    | refused | acquired => cases hc
    | tryLock | write | readHolder | giveUp => cases r <;> first | exact Or.inl hn | cases hn
  | releasing p => cases p <;> cases r <;> first | exact Or.inl hn | cases hn
  | inspecting p =>
    cases p with
    | openFile =>
      cases r with
      | opened g => exact Or.inr ⟨(Option.some.inj hc).symm, congrArg Reply.opened (Option.some.inj hn)⟩
      | _ => cases hn
    | _ => cases r <;> first | exact Or.inl hn | cases hn

theorem next_locked (hc : p.call? = some c) (hn : (p.next t isLive r).locked? = some h) :
    (p.locked? = some h ∧ c ≠ .close h) ∨ c = .tryLock h ∧ r = .yes := by
  cases p with
  | resting => cases hc
  | acquiring cl p =>
    cases p with
    | makeDir => cases r <;> cases hn
    | openFile left => cases r <;> cases hn
    | tryLock left g =>
      cases r with
      | yes =>
        obtain rfl := Option.some.inj hn
        exact Or.inr ⟨(Option.some.inj hc).symm, rfl⟩
      | _ => cases hn
    | check left g =>
      obtain rfl : Call.leadsTo g = c := Option.some.inj hc
      cases r with
      | yes =>
        simp only [next, Acquire.next] at hn
        split at hn
        · exact Or.inl ⟨hn, nofun⟩
        · cases hn
      | _ => first | exact Or.inl ⟨hn, nofun⟩ | cases hn
    | write g =>
      obtain rfl : Call.write g _ = c := Option.some.inj hc
      cases r <;> first | exact Or.inl ⟨hn, nofun⟩ | cases hn
    | retry left g => cases left <;> cases hn
    | refused | acquired => cases hc
    | readHolder | giveUp => cases r <;> cases hn
  | releasing p => cases p <;> cases r <;> cases hn
  | inspecting p => cases p <;> cases r <;> cases hn

theorem next_owned (hc : p.call? = some c) (hn : (p.next t isLive r).owned? = some h) :
    (p.owned? = some h ∧ c ≠ .unlink ∧ c ≠ .close h) ∨ p.locked? = some h ∧ c = .leadsTo h ∧ r = .yes := by
  cases p with
  | resting => cases hc
  | acquiring cl p =>
    cases p with
    | check left g =>
      cases r with
      | yes =>
        simp only [next, Acquire.next] at hn
        split at hn
        · exact Or.inr ⟨hn, by rw [← Option.some.inj hc, Option.some.inj hn], rfl⟩
        · cases hn
      | _ => cases hn
    | write g =>
      obtain rfl : Call.write g _ = c := Option.some.inj hc
      cases r <;> first | exact Or.inl ⟨hn, nofun, nofun⟩ | cases hn
    | retry left g => cases left <;> cases hn
    | refused | acquired => cases hc
    | makeDir | openFile | tryLock | readHolder | giveUp => cases r <;> cases hn
  | releasing p => cases p <;> cases r <;> cases hn
  | inspecting p => cases p <;> cases r <;> cases hn

end

end Process

/-! ## What a call does to the machine -/

section
variable {dir path : Path} {m : Machine} {c : Call}

/-- What a call does to the files, the open files and the locks. -/
theorem Call.perform_cases (hm : m.Sane) (dir path : Path) (c : Call) :
    m.Keeps (c.perform dir path m).2 ∨
    (∃ i m₁, m.Keeps m₁ ∧ c.perform dir path m = (.opened ⟨m.nextHandle⟩,
      { m₁ with handles := (m.nextHandle, i) :: m₁.handles, nextHandle := m.nextHandle + 1 })) ∨
    (∃ h, c = .tryLock h ∧ m.locks.lookup (m.nodeOf h) = none ∧
      (c.perform dir path m).2 = { m with locks := (m.nodeOf h, h.id) :: m.locks }) ∨
    (c = .unlink ∧ ∃ m', m.removeFile path = .ok m' ∧ m'.Sane ∧ m'.locks = m.locks ∧ m'.handles = m.handles ∧
      m'.nextHandle = m.nextHandle ∧ (c.perform dir path m).2 = m') ∨
    ∃ h, c = .close h ∧ (c.perform dir path m).2 = m.close h := by
  cases c with
  | makeDir =>
    have hk := m.keeps_makeAllDirs hm dir
    left
    simp only [perform]
    split <;> rename_i hr <;> rw [hr] at hk <;> exact hk
  | isThere => exact Or.inl (.refl hm)
  | openFile =>
    simp only [perform]
    split
    · rename_i h m' ho
      obtain ⟨rfl, i, m₁, hk, rfl⟩ := Machine.openFile_eq_ok hm ho
      exact Or.inr (Or.inl ⟨i, m₁, hk, rfl⟩)
    · exact Or.inl (.refl hm)
  | tryLock h =>
    cases hl : m.locks.lookup (m.nodeOf h) with
    | some owner =>
      left
      simp only [perform, Machine.tryLock, hl]
      exact .refl hm
    | none =>
      refine Or.inr (Or.inr (Or.inl ⟨h, rfl, hl, ?_⟩))
      simp only [perform, Machine.tryLock, hl]
  | leadsTo h =>
    left
    simp only [perform]
    split <;> exact .refl hm
  | read h => exact Or.inl (.refl hm)
  | write h text =>
    left
    simp only [perform]
    split
    · rename_i hw
      exact Machine.keeps_writeHandle hm hw
    · exact .refl hm
  | unlink =>
    simp only [perform]
    split
    · rename_i m' hr
      obtain ⟨place, name, i, -, rfl⟩ := Machine.removeFile_eq_ok hr
      exact Or.inr (Or.inr (Or.inr (Or.inl
        ⟨trivial, _, hr, Machine.sane_removeEntry hm place name, rfl, rfl, rfl, rfl⟩)))
    · exact Or.inl (.refl hm)
  | close h => exact Or.inr (Or.inr (Or.inr (Or.inr ⟨h, rfl, rfl⟩)))

theorem Call.perform_sane (hm : m.Sane) (dir path : Path) (c : Call) :
    (c.perform dir path m).2.Sane ∧ m.nextHandle ≤ (c.perform dir path m).2.nextHandle := by
  rcases c.perform_cases hm dir path with hk | ⟨i, m₁, hk, he⟩ | ⟨h, -, -, he⟩ | ⟨-, m', -, hs, -, -, hn, he⟩ | ⟨h, -, he⟩
  · exact ⟨hk.sane hm, Nat.le_of_eq hk.nextHandle.symm⟩
  · rw [he]
    have := hk.sane hm
    exact ⟨⟨this.tree, this.cwd⟩, Nat.le_succ _⟩
  · rw [he]
    exact ⟨⟨hm.tree, hm.cwd⟩, Nat.le_refl _⟩
  · rw [he]
    exact ⟨hs, Nat.le_of_eq hn.symm⟩
  · rw [he]
    exact ⟨⟨hm.tree, hm.cwd⟩, Nat.le_refl _⟩

/-- Another open file stays the same node and keeps its lock. -/
theorem Call.perform_other (hm : m.Sane) (dir path : Path) {g : Handle} (hg : g.id < m.nextHandle) (hc : c ≠ .close g) :
    (c.perform dir path m).2.nodeOf g = m.nodeOf g ∧
      (m.locks.lookup (m.nodeOf g) = some g.id → (c.perform dir path m).2.locks.lookup (m.nodeOf g) = some g.id) := by
  rcases c.perform_cases hm dir path with hk | ⟨i, m₁, hk, he⟩ | ⟨h, -, hl, he⟩ | ⟨-, m', -, -, hl, hh, -, he⟩ | ⟨h, rfl, he⟩
  · exact ⟨hk.nodeOf g, fun hlk => by rw [hk.locks]; exact hlk⟩
  · rw [he]
    refine ⟨?_, fun hlk => by rw [← hlk, ← hk.locks]⟩
    rw [← hk.nodeOf g, Machine.nodeOf, Machine.nodeOf, List.lookup_cons,
      beq_eq_false_iff_ne.mpr (Nat.ne_of_lt hg)]
  · rw [he]
    refine ⟨rfl, fun hlk => ?_⟩
    by_cases hn : m.nodeOf g = m.nodeOf h
    · rw [hn, hl] at hlk
      cases hlk
    · rw [List.lookup_cons, beq_eq_false_iff_ne.mpr hn]
      exact hlk
  · rw [he]
    exact ⟨by rw [Machine.nodeOf, Machine.nodeOf, hh], fun hlk => by rw [hl]; exact hlk⟩
  · have hne : g.id ≠ h.id := by
      intro hid
      obtain rfl : h = g := by cases h; cases g; simp_all
      exact hc rfl
    rw [he]
    refine ⟨?_, fun hlk => lookup_filter_of_pos hlk (by simpa using hne)⟩
    rw [Machine.nodeOf, Machine.nodeOf, Machine.close, lookup_filter_key, if_neg hne]

/-- As long as nothing is removed, a path leads where it led. -/
theorem Call.perform_find (hm : m.Sane) (hc : c = .unlink → (m.removeFile path).isOk = false) {place : Place} {p : Path}
    (hf : m.find p = .ok place) : (c.perform dir path m).2.find p = .ok place := by
  rcases c.perform_cases hm dir path with hk | ⟨i, m₁, hk, he⟩ | ⟨h, -, -, he⟩ | ⟨hu, m', hr, -⟩ | ⟨h, -, he⟩
  · exact hk.find hm hf
  · rw [he]
    have := hk.find hm hf
    exact this
  · rw [he]
    exact hf
  · have := hc hu
    rw [hr] at this
    cases this
  · rw [he]
    exact hf

theorem Call.perform_unlink (hr : (m.removeFile path).isOk = true) :
    m.removeFile path = .ok (Call.unlink.perform dir path m).2 := by
  cases h : m.removeFile path with
  | ok m' => simp [perform, h]
  | error e =>
    rw [h] at hr
    cases hr

theorem Call.perform_opened (hm : m.Sane) {h : Handle} (hr : (Call.openFile.perform dir path m).1 = .opened h) :
    h = ⟨m.nextHandle⟩ ∧ (Call.openFile.perform dir path m).2.nextHandle = m.nextHandle + 1 := by
  cases ho : m.openFile path with
  | error e => simp [perform, ho] at hr
  | ok r =>
    obtain ⟨g, m'⟩ := r
    obtain ⟨rfl, i, m₁, hk, rfl⟩ := Machine.openFile_eq_ok hm ho
    simp only [perform, ho, Reply.opened.injEq] at hr ⊢
    exact ⟨hr.symm, trivial⟩

theorem Call.perform_locked {h : Handle} (hr : ((Call.tryLock h).perform dir path m).1 = .yes) :
    ((Call.tryLock h).perform dir path m).2.nodeOf h = m.nodeOf h ∧
      ((Call.tryLock h).perform dir path m).2.locks.lookup (m.nodeOf h) = some h.id := by
  cases hl : m.locks.lookup (m.nodeOf h) with
  | some owner =>
    simp only [perform, Machine.tryLock, hl] at hr ⊢
    split at hr
    · rename_i ho
      exact ⟨trivial, congrArg some (eq_of_beq ho)⟩
    · cases hr
  | none =>
    simp only [perform, Machine.tryLock, hl]
    exact ⟨rfl, List.lookup_cons_self⟩

theorem Call.perform_leadsTo {h : Handle} (hr : ((Call.leadsTo h).perform dir path m).1 = .yes) :
    ((Call.leadsTo h).perform dir path m).2 = m ∧ ∃ place, m.find path = .ok place ∧ place.ino = m.nodeOf h := by
  cases hl : m.leadsTo path h with
  | error e => simp [perform, hl] at hr
  | ok b =>
    simp only [perform, hl] at hr ⊢
    refine ⟨trivial, ?_⟩
    unfold Machine.leadsTo at hl
    split at hl
    · rename_i place hf
      cases hl
      split at hr
      · rename_i hb
        exact ⟨place, hf, eq_of_beq hb⟩
      · cases hr
    · split at hl <;> cases hl
      cases hr
    · cases hl

end

end Retrace.Lock
