import Retrace.Lock.Session
import Retrace.Proofs.Machine.Job

/-!
# Operations as sequences of calls

What a whole lock operation comes to when its calls are answered in one of the usual ways.
-/

namespace Retrace.Lock

/-- Some calls lead from one point to another, and change the machine on the way. -/
inductive Makes {σ : Type} (call? : σ → Option Call) (next : σ → Reply → σ) (dir path : Path) :
    Nat → σ → Machine → σ → Machine → Prop where
  | none {s : σ} {m : Machine} : Makes call? next dir path 0 s m s m
  | call {n : Nat} {s s' : σ} {m m₁ m' : Machine} {c : Call} {r : Reply} (hc : call? s = some c)
    (hp : c.perform dir path m = (r, m₁)) (h : Makes call? next dir path n (next s r) m₁ s' m') :
    Makes call? next dir path (n + 1) s m s' m'

theorem runCalls_of_makes {σ : Type} {call? : σ → Option Call} {next : σ → Reply → σ} {dir path : Path} {n : Nat}
    {s s' : σ} {m m' : Machine} (h : Makes call? next dir path n s m s' m') (hend : call? s' = none) :
    ∀ {fuel : Nat}, n ≤ fuel → runCalls call? next dir path fuel s m = (s', m') := by
  induction h with
  | none =>
    intro fuel _
    cases fuel with
    | zero => rfl
    | succ fuel => simp [runCalls, nextCall, hend]
  | call hc hp _ ih =>
    intro fuel hfuel
    obtain ⟨fuel, rfl⟩ := Nat.exists_eq_succ_of_ne_zero (Nat.ne_of_gt (Nat.zero_lt_of_lt hfuel))
    rw [runCalls]
    simp only [nextCall, hc, hp, Option.map_some]
    exact ih hend (Nat.le_of_succ_le_succ hfuel)

variable {dir source path : Path} {isLive : Nat → Bool} {m m' m₁ m₂ m₃ : Machine} {c : Claim} {h : Handle} {l : Held}

/-! ## Calls -/

namespace Call

theorem perform_makeDir_ok (hm : m.makeAllDirs dir = (m', .ok ())) : makeDir.perform dir path m = (.done, m') := by
  unfold perform
  dsimp only
  rw [hm]

theorem perform_isThere {b : Bool} (ht : m.isThere path = b) :
    isThere.perform dir path m = (if b then .yes else .no, m) := by
  unfold perform
  dsimp only
  rw [ht]

theorem perform_openFile_ok (ho : m.openFile path = .ok (h, m')) : openFile.perform dir path m = (.opened h, m') := by
  unfold perform
  dsimp only
  rw [ho]

theorem perform_tryLock {b : Bool} (ht : m.tryLock h = (b, m')) :
    (tryLock h).perform dir path m = (if b then .yes else .no, m') := by
  unfold perform
  dsimp only
  rw [ht]

theorem perform_leadsTo_yes (hl : m.leadsTo path h = .ok true) : (leadsTo h).perform dir path m = (.yes, m) := by
  unfold perform
  dsimp only
  rw [hl]
  rfl

theorem perform_write_ok {text : String} (hw : m.writeHandle h (Bytes.ofString text) = .ok m') :
    (write h text).perform dir path m = (.done, m') := by
  unfold perform
  dsimp only
  rw [hw]

theorem perform_unlink_ok (hr : m.removeFile path = .ok m') : unlink.perform dir path m = (.done, m') := by
  unfold perform
  dsimp only
  rw [hr]

theorem perform_unlink_error {e : IoError} (hr : m.removeFile path = .error e) :
    unlink.perform dir path m = (.failed e, m) := by
  unfold perform
  dsimp only
  rw [hr]

end Call

/-! ## Taking a lock -/

section
variable {n : Nat} (hn : n ≤ callBound)
include hn

theorem perform_acquire_of_acquired (hrun : Makes (Acquire.call? c) (Acquire.next c (pathFor c.dir c.source)) c.dir
    (pathFor c.dir c.source) n .makeDir m (.acquired h) m') :
    (acquire c).perform m = (.ok ⟨pathFor c.dir c.source, h⟩, m') := by
  unfold acquire
  rw [Job.perform_bind, Job.perform_get]
  dsimp only
  rw [runCalls_of_makes hrun rfl hn]
  rfl

theorem perform_acquire_of_refused {f : Failure} (hrun : Makes (Acquire.call? c)
    (Acquire.next c (pathFor c.dir c.source)) c.dir (pathFor c.dir c.source) n .makeDir m (.refused f) m') :
    (acquire c).perform m = (.error f, m') := by
  unfold acquire
  rw [Job.perform_bind, Job.perform_get]
  dsimp only
  rw [runCalls_of_makes hrun rfl hn]
  rfl

theorem perform_inspect_of_ended {r : Option Content} (hrun : Makes Inspect.call?
    (Inspect.next (pathFor dir source) isLive) dir (pathFor dir source) n .isThere m (.ended (.ok r)) m') :
    (inspect isLive dir source).perform m = (.ok r, m') := by
  unfold inspect
  rw [Job.perform_bind, Job.perform_get]
  dsimp only
  rw [runCalls_of_makes hrun rfl hn]
  rfl

theorem perform_finish_of_ended {p : Release} (hrun : Makes Release.call? (Release.next l.path) l.path l.path n p m
    (.ended (.ok ())) m') : (finish l p).perform m = (.ok (), m') := by
  unfold finish
  rw [Job.perform_bind, Job.perform_get]
  dsimp only
  rw [runCalls_of_makes hrun rfl hn]
  rfl

end

/-- A lock whose file can be locked is taken, and the file says by whom. -/
theorem perform_acquire_free (hmake : m.makeAllDirs c.dir = (m₁, .ok ()))
    (hopen : m₁.openFile (pathFor c.dir c.source) = .ok (h, m₂)) (hlock : m₂.tryLock h = (true, m₃))
    (hleads : m₃.leadsTo (pathFor c.dir c.source) h = .ok true) {text : String} (htext : c.content.toText? = some text)
    (hwrite : m₃.writeHandle h (Bytes.ofString text) = .ok m') :
    (acquire c).perform m = (.ok ⟨pathFor c.dir c.source, h⟩, m') := by
  have hcheck : Acquire.next c (pathFor c.dir c.source) (.check 2 h) .yes = .write h := by
    simp [Acquire.next, htext]
  have hlast : Makes (Acquire.call? c) (Acquire.next c (pathFor c.dir c.source)) c.dir (pathFor c.dir c.source) 1
      (.write h) m₃ (.acquired h) m' := by
    refine .call rfl (Call.perform_write_ok ?_) .none
    rw [htext]
    exact hwrite
  rw [← hcheck] at hlast
  refine perform_acquire_of_acquired (by decide : 5 ≤ callBound) ?_
  refine .call rfl (Call.perform_makeDir_ok hmake) (.call rfl (Call.perform_openFile_ok hopen) ?_)
  exact .call rfl (Call.perform_tryLock hlock) (.call rfl (Call.perform_leadsTo_yes hleads) hlast)

/-- A lock whose file is locked is not taken. -/
theorem perform_acquire_locked (hmake : m.makeAllDirs c.dir = (m₁, .ok ()))
    (hopen : m₁.openFile (pathFor c.dir c.source) = .ok (h, m₂)) (hlock : m₂.tryLock h = (false, m₃)) :
    (acquire c).perform m = (.error (Acquire.alreadyRunning c (Content.ofBytes? (m₃.readHandle h))), m₃.close h) := by
  refine perform_acquire_of_refused (by decide : 5 ≤ callBound) ?_
  refine .call rfl (Call.perform_makeDir_ok hmake) (.call rfl (Call.perform_openFile_ok hopen) ?_)
  refine .call rfl (Call.perform_tryLock hlock) (.call rfl rfl (.call rfl rfl .none))

/-! ## Inspecting a lock -/

theorem perform_inspect_missing (hthere : m.isThere (pathFor dir source) = false) :
    (inspect isLive dir source).perform m = (.ok none, m) :=
  perform_inspect_of_ended (by decide : 1 ≤ callBound) (.call rfl (Call.perform_isThere hthere) .none)

theorem perform_inspect_free (hthere : m.isThere (pathFor dir source) = true)
    (hopen : m.openFile (pathFor dir source) = .ok (h, m₁)) (hlock : m₁.tryLock h = (true, m₂)) :
    (inspect isLive dir source).perform m = (.ok none, m₂.close h) := by
  refine perform_inspect_of_ended (by decide : 4 ≤ callBound) ?_
  refine .call rfl (Call.perform_isThere hthere) (.call rfl (Call.perform_openFile_ok hopen) ?_)
  exact .call rfl (Call.perform_tryLock hlock) (.call rfl rfl .none)

theorem perform_inspect_locked (hthere : m.isThere (pathFor dir source) = true)
    (hopen : m.openFile (pathFor dir source) = .ok (h, m₁)) (hlock : m₁.tryLock h = (false, m₂)) :
    (inspect isLive dir source).perform m =
      (.ok ((Content.ofBytes? (m₂.readHandle h)).filter (isLive ·.pid)), m₂.close h) := by
  refine perform_inspect_of_ended (by decide : 5 ≤ callBound) ?_
  refine .call rfl (Call.perform_isThere hthere) (.call rfl (Call.perform_openFile_ok hopen) ?_)
  exact .call rfl (Call.perform_tryLock hlock) (.call rfl rfl (.call rfl rfl .none))

/-! ## Giving up a lock -/

theorem perform_release {e : IoError} (hremove : m.removeFile l.path = .ok m₁) (hgone : m₁.removeFile l.path = .error e) :
    (release l).perform m = (.ok (), m₁.close l.handle) := by
  refine perform_finish_of_ended (by decide : 3 ≤ callBound) ?_
  refine .call rfl (Call.perform_unlink_ok hremove) (.call rfl (Call.perform_unlink_error hgone) ?_)
  exact .call rfl rfl .none

theorem perform_drop (hremove : m.removeFile l.path = .ok m₁) : (drop l).perform m = (.ok (), m₁.close l.handle) :=
  perform_finish_of_ended (by decide : 2 ≤ callBound)
    (.call rfl (Call.perform_unlink_ok hremove) (.call rfl rfl .none))

end Retrace.Lock
