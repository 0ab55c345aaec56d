import Retrace.Proofs.Lock.Content
import Retrace.Proofs.Lock.Keeping
import Retrace.Proofs.Lock.Operation

/-!
# Lock operations are exact

Whatever operations came before, a lock is taken just when no lock at its path is held, and an inspection finds just the
holder. Neither an inspection nor a refusal changes a lock or a file. A lock that was given up has left no file and can
be taken again.
-/

namespace Retrace.Lock

/-- A live process asks for the lock of a source file that has a text for a name. -/
structure Claim.Proper (isLive : Nat → Bool) (c : Claim) : Prop where
  source : c.source.IsText
  pid : c.pid < Content.pidBound
  now : c.now < Content.timeBound
  live : isLive c.pid = true

/-- A directory for locks, which is there or can be made, has unlocked files left over in it, each a file of its own. -/
structure Leftovers (dir : Path) (m : Machine) : Prop where
  sane : m.Sane
  made : (m.makeAllDirs dir).1.isDir dir = true
  room : ∀ source, (pathFor dir source).raw.length ≤ Machine.longestPath
  opened : ∀ {i id}, (i, id) ∈ m.locks → i < m.tree.nodes.size ∧ id < m.nextHandle
  file : ∀ {source place}, (m.makeAllDirs dir).1.findHere (pathFor dir source) = .ok place →
    ∃ content mode, (m.makeAllDirs dir).1.tree.node place.ino = .file content mode
  own : ∀ {source source' place place'}, (m.makeAllDirs dir).1.findHere (pathFor dir source) = .ok place →
    (m.makeAllDirs dir).1.findHere (pathFor dir source') = .ok place' → place.ino = place'.ino →
      pathFor dir source = pathFor dir source'
  unlocked : ∀ {source place}, (m.makeAllDirs dir).1.findHere (pathFor dir source) = .ok place →
    ∀ id, (place.ino, id) ∉ m.locks

namespace Ledger

/-- A lock is asked for by live processes only. -/
def Operation.Proper (dir : Path) (isLive : Nat → Bool) : Operation → Prop
  | .acquire source pid now => Claim.Proper isLive ⟨dir, source, pid, now⟩
  | .inspect _ | .release _ | .drop _ => True

/-- What the locks are and what becomes of the next operation. -/
structure Exact (dir : Path) (isLive : Nat → Bool) (w : Ledger) : Prop where
  recorded : ∀ x ∈ w.holdings, x.held.path = pathFor dir x.claim.source ∧
    ∃ bytes, w.machine.contents? x.held.path = some bytes ∧ Content.ofBytes? bytes = some x.claim.content
  taken : ∀ {c : Claim}, c.dir = dir → c.Proper isLive →
    (((acquire c).perform w.machine).1.isOk = true ↔ ¬w.Holds (pathFor dir c.source))
  refused : ∀ {c : Claim} {f m'}, c.dir = dir → c.Proper isLive → (acquire c).perform w.machine = (.error f, m') →
    m'.locks = w.machine.locks ∧ m'.tree = w.machine.tree
  inspected : ∀ source, ∃ found m', (inspect isLive dir source).perform w.machine = (.ok found, m') ∧
    (∀ content, found = some content ↔
      ∃ x ∈ w.holdings, x.held.path = pathFor dir source ∧ x.claim.content = content) ∧
    m'.locks = w.machine.locks ∧ m'.tree = w.machine.tree
  givenUp : ∀ x ∈ w.holdings, ∃ m', (release x.held).perform w.machine = (.ok (), m') ∧
    (drop x.held).perform w.machine = (.ok (), m') ∧ m'.isThere x.held.path = false ∧
    ∀ {c : Claim}, c.dir = dir → c.Proper isLive → pathFor dir c.source = x.held.path →
      ((acquire c).perform m').1.isOk = true

variable {dir source : Path} {isLive : Nat → Bool} {here : Place} {es : List (Bytes × Ino)} {w : Ledger}
  {m : Machine} {x : Holding} {c : Claim}

/-! ## The operations -/

namespace Kept

theorem filter_locks (hw : w.Kept dir isLive here es) :
    w.machine.locks.filter (·.2 ≠ w.machine.nextHandle) = w.machine.locks := by
  rw [List.filter_eq_self]
  rintro ⟨i, id⟩ hid
  exact decide_eq_true (Nat.ne_of_lt (hw.opened hid).2)

theorem quiet_reopened (hw : w.Kept dir isLive here es) (i : Ino) :
    Quiet w.machine ((w.machine.opened i).close ⟨w.machine.nextHandle⟩) :=
  quiet_closed (quiet_opened w.machine i) rfl hw.filter_locks

theorem quiet_unlocked (hw : w.Kept dir isLive here es) (i j : Ino) : Quiet w.machine
    (({ w.machine.opened i with locks := (j, w.machine.nextHandle) :: w.machine.locks } : Machine).close
      ⟨w.machine.nextHandle⟩) := by
  refine quiet_closed (quiet_opened w.machine i) rfl ?_
  rw [List.filter_cons_of_neg (by simp)]
  exact hw.filter_locks

theorem acquire_free (hw : w.Kept dir isLive here es) (hmake : m.makeAllDirs dir = (w.machine, .ok ()))
    (hdir : c.dir = dir) (hc : c.Proper isLive) (hfree : ¬w.Holds (pathFor dir c.source)) : ∃ h m' es',
      (acquire c).perform m = (.ok ⟨pathFor dir c.source, h⟩, m') ∧
        Kept dir isLive here es' ⟨m', ⟨c, ⟨pathFor dir c.source, h⟩⟩ :: w.holdings⟩ := by
  subst hdir
  have hcontent : ∃ text, c.content.toText? = some text ∧ Content.ofBytes? (.ofString text) = some c.content :=
    Content.ofBytes?_toText? hc.source hc.pid hc.now
  obtain ⟨text, htext, hread⟩ := hcontent
  obtain ⟨es', m₁, hw₁, hopen, ho⟩ := hw.openFile c.source
  obtain ⟨m₂, m₃, hlock, hleads, hwrite, hw₃⟩ := hw₁.take ho hfree hread hc.live
  exact ⟨_, m₃, es', perform_acquire_free hmake hopen hlock hleads htext hwrite, hw₃⟩

/-- The lock file of a lock that is held can be opened again, and then is not locked but says who holds the lock. -/
theorem reopen_held (hw : w.Kept dir isLive here es) (hx : x ∈ w.holdings) (hpath : x.held.path = pathFor dir source) :
    ∃ i, es.lookup (key source) = some i ∧
      w.machine.openFile (pathFor dir source) = .ok (⟨w.machine.nextHandle⟩, w.machine.opened i) ∧
      (w.machine.opened i).tryLock ⟨w.machine.nextHandle⟩ = (false, w.machine.opened i) ∧
      Content.ofBytes? ((w.machine.opened i).readHandle ⟨w.machine.nextHandle⟩) = some x.claim.content := by
  have hentry := (hw.stands x hx).entry
  rw [hw.key_of_path ((hw.stands x hx).path.symm.trans hpath)] at hentry
  obtain ⟨hopen, ho⟩ := hw.openFile_entry hentry
  exact ⟨_, hentry, hopen, (hw.quiet (quiet_opened _ _)).tryLock_held ho hx hpath⟩

theorem acquire_held (hw : w.Kept dir isLive here es) (hmake : m.makeAllDirs dir = (w.machine, .ok ()))
    (hdir : c.dir = dir) (hx : x ∈ w.holdings) (hpath : x.held.path = pathFor dir c.source) : ∃ m',
      (acquire c).perform m = (.error (Acquire.alreadyRunning c (some x.claim.content)), m') ∧ Quiet w.machine m' := by
  subst hdir
  obtain ⟨i, -, hopen, hlock, hread⟩ := hw.reopen_held hx hpath
  have hr := perform_acquire_locked hmake hopen hlock
  rw [hread] at hr
  exact ⟨_, hr, hw.quiet_reopened i⟩

theorem isThere_entry (hw : w.Kept dir isLive here es) {i : Ino} (hl : es.lookup (key source) = some i) :
    w.machine.isThere (pathFor dir source) = true := by
  rw [Machine.isThere, hw.find_entry hl]
  rfl

theorem recorded (hw : w.Kept dir isLive here es) (hx : x ∈ w.holdings) :
    x.held.path = pathFor dir x.claim.source ∧
      ∃ bytes, w.machine.contents? x.held.path = some bytes ∧ Content.ofBytes? bytes = some x.claim.content := by
  have hs := hw.stands x hx
  obtain ⟨text, mode, hfile, hread⟩ := hs.names
  have hfind := hw.find_entry hs.entry
  rw [← hs.path] at hfind
  exact ⟨hs.path, _, Machine.contents?_eq_some.mpr ⟨_, mode, hfind, hfile⟩, hread⟩

theorem inspect_held (hw : w.Kept dir isLive here es) (hx : x ∈ w.holdings)
    (hpath : x.held.path = pathFor dir source) : ∃ m',
      (inspect isLive dir source).perform w.machine = (.ok (some x.claim.content), m') ∧ Quiet w.machine m' := by
  obtain ⟨i, hentry, hopen, hlock, hread⟩ := hw.reopen_held hx hpath
  have hr : (inspect isLive dir source).perform w.machine = _ :=
    perform_inspect_locked (hw.isThere_entry hentry) hopen hlock
  have hlive : isLive x.claim.content.pid = true := (hw.stands x hx).live
  rw [hread, Option.filter_some, if_pos hlive] at hr
  exact ⟨_, hr, hw.quiet_reopened i⟩

theorem inspect_free (hw : w.Kept dir isLive here es) (hfree : ¬w.Holds (pathFor dir source)) : ∃ m',
    (inspect isLive dir source).perform w.machine = (.ok none, m') ∧ Quiet w.machine m' := by
  cases hl : es.lookup (key source) with
  | none =>
    have hthere := hw.lists.isThere_vacant (fits_fileName (hw.room source)) hl
    exact ⟨_, perform_inspect_missing hthere, Quiet.refl _⟩
  | some i =>
    obtain ⟨hopen, ho⟩ := hw.openFile_entry hl
    have hlock := (hw.quiet (quiet_opened _ i)).tryLock_free ho hfree
    exact ⟨_, perform_inspect_free (hw.isThere_entry hl) hopen hlock, hw.quiet_unlocked _ _⟩

theorem give_up (hw : w.Kept dir isLive here es) (hx : x ∈ w.holdings) : ∃ m' es',
    ((release x.held).perform w.machine = (.ok (), m') ∧ (drop x.held).perform w.machine = (.ok (), m')) ∧
      m'.isThere x.held.path = false ∧
      Kept dir isLive here es' ⟨m', w.holdings.filter (·.held.path ≠ x.held.path)⟩ := by
  obtain ⟨m₁, es', hremove, hgone, hthere, hw'⟩ := hw.giveUp hx
  exact ⟨_, es', ⟨perform_release hremove hgone, perform_drop hremove⟩, hthere, hw'⟩

end Kept

/-! ## Any number of operations -/

/-- The lock files are in order, as soon as there is a directory for them; no lock is held before. -/
def Ready (dir : Path) (isLive : Nat → Bool) (w : Ledger) : Prop :=
  ∃ made here es, w.machine.makeAllDirs dir = (made, .ok ()) ∧ Kept dir isLive here es ⟨made, w.holdings⟩ ∧
    (made = w.machine ∨ w.machine.isDir dir = false ∧ w.holdings = [])

theorem Kept.ready (hw : w.Kept dir isLive here es) : w.Ready dir isLive :=
  ⟨w.machine, here, es, Machine.makeAllDirs_of_isDir hw.lists.isDir, hw, Or.inl rfl⟩

theorem ready_of_leftovers (hm : Leftovers dir m) : (⟨m, []⟩ : Ledger).Ready dir isLive := by
  have hok : (m.makeAllDirs dir).2 = .ok () := by
    rcases hmade : m.makeAllDirs dir with ⟨made, e | u⟩
    · have hno := Machine.not_isDir_of_makeDirs (Nat.lt_succ_self _) hmade
      have hdir := hm.made
      rw [hmade, hno] at hdir
      cases hdir
    · rfl
  have hkeeps := Machine.keeps_makeAllDirs hm.sane dir
  obtain ⟨here, es, hlists⟩ := Machine.lists_of_isDir hm.made
  have hentry : ∀ {source i}, es.lookup (key source) = some i →
      (m.makeAllDirs dir).1.findHere (pathFor dir source) = .ok ((key source, i) :: here) :=
    fun hl => hlists.findHere_child (fits_fileName (hm.room _)) hl
  have hino : ∀ n i, Place.ino ((n, i) :: here) = i := fun _ _ => rfl
  refine ⟨_, here, es, Prod.ext rfl hok, ⟨hm.room, hkeeps.sane hm.sane, hlists, fun hid => ?_,
    fun hl => hm.file (hentry hl), fun h₁ h₂ => hm.own (hentry h₁) (hentry h₂) ((hino _ _).trans (hino _ _).symm),
    fun hl hid => ?_, nofun, nofun⟩, ?_⟩
  · rw [hkeeps.locks] at hid
    dsimp only
    rw [hkeeps.nextHandle]
    exact ⟨Nat.lt_of_lt_of_le (hm.opened hid).1 hkeeps.grows.size, (hm.opened hid).2⟩
  · rw [hkeeps.locks] at hid
    exact absurd hid (hm.unlocked (hentry hl) _)
  · by_cases hdir : m.isDir dir = true
    · rw [Machine.makeAllDirs_of_isDir hdir]
      exact Or.inl rfl
    · exact Or.inr ⟨Bool.eq_false_iff.mpr hdir, rfl⟩

namespace Ready

variable (hw : w.Ready dir isLive)
include hw

theorem acquire_free (hdir : c.dir = dir) (hc : c.Proper isLive) (hfree : ¬w.Holds (pathFor dir c.source)) : ∃ h m',
    (acquire c).perform w.machine = (.ok ⟨pathFor dir c.source, h⟩, m') ∧
      Ready dir isLive ⟨m', ⟨c, ⟨pathFor dir c.source, h⟩⟩ :: w.holdings⟩ := by
  obtain ⟨made, here, es, hmake, hkept, -⟩ := hw
  obtain ⟨h, m', es', hr, hkept'⟩ := hkept.acquire_free hmake hdir hc hfree
  exact ⟨h, m', hr, hkept'.ready⟩

/-- Once a lock is held, the directory is there. -/
theorem kept (hx : x ∈ w.holdings) : ∃ here es, w.Kept dir isLive here es := by
  obtain ⟨made, here, es, -, hkept, rfl | ⟨-, hnone⟩⟩ := hw
  · exact ⟨here, es, hkept⟩
  · rw [hnone] at hx
    cases hx

theorem acquire_held (hdir : c.dir = dir) (hx : x ∈ w.holdings) (hpath : x.held.path = pathFor dir c.source) :
    ∃ m', (acquire c).perform w.machine = (.error (Acquire.alreadyRunning c (some x.claim.content)), m') ∧
      Quiet w.machine m' ∧ Ready dir isLive { w with machine := m' } := by
  obtain ⟨here, es, hkept⟩ := hw.kept hx
  have hmake := Machine.makeAllDirs_of_isDir hkept.lists.isDir
  obtain ⟨m', hr, hq⟩ := hkept.acquire_held hmake hdir hx hpath
  exact ⟨m', hr, hq, (hkept.quiet hq).ready⟩

theorem inspect_free (hfree : ¬w.Holds (pathFor dir source)) : ∃ m',
    (inspect isLive dir source).perform w.machine = (.ok none, m') ∧ Quiet w.machine m' ∧
      Ready dir isLive { w with machine := m' } := by
  have hw' := hw
  obtain ⟨made, here, es, -, hkept, rfl | ⟨hno, -⟩⟩ := hw
  · obtain ⟨m', hr, hq⟩ := hkept.inspect_free hfree
    exact ⟨m', hr, hq, (hkept.quiet hq).ready⟩
  · have hdir : dir.raw ≠ [] := List.length_pos_iff.mp (Machine.length_pos_of_find hkept.lists.find)
    have hthere : w.machine.isThere (pathFor dir source) = false := by
      rw [Machine.isThere]
      cases hf : w.machine.find (pathFor dir source) with
      | error => rfl
      | ok place =>
        rw [Machine.isDir_of_child hdir (fits_fileName (hkept.room source)) hf] at hno
        cases hno
    exact ⟨_, perform_inspect_missing hthere, Quiet.refl _, hw'⟩

theorem inspect_held (hx : x ∈ w.holdings) (hpath : x.held.path = pathFor dir source) : ∃ m',
    (inspect isLive dir source).perform w.machine = (.ok (some x.claim.content), m') ∧ Quiet w.machine m' ∧
      Ready dir isLive { w with machine := m' } := by
  obtain ⟨here, es, hkept⟩ := hw.kept hx
  obtain ⟨m', hr, hq⟩ := hkept.inspect_held hx hpath
  exact ⟨m', hr, hq, (hkept.quiet hq).ready⟩

theorem give_up (hx : x ∈ w.holdings) : ∃ m',
    ((release x.held).perform w.machine = (.ok (), m') ∧ (drop x.held).perform w.machine = (.ok (), m')) ∧
      m'.isThere x.held.path = false ∧
      Ready dir isLive ⟨m', w.holdings.filter (·.held.path ≠ x.held.path)⟩ := by
  obtain ⟨here, es, hkept⟩ := hw.kept hx
  obtain ⟨m', es', hr, hthere, hkept'⟩ := hkept.give_up hx
  exact ⟨m', hr, hthere, hkept'.ready⟩

theorem giveUp {path : Path} {j : Held → Job Unit} (hj : j = release ∨ j = drop) : (w.giveUp path j).Ready dir isLive := by
  unfold Ledger.giveUp
  cases hf : w.holdings.find? (·.held.path == path) with
  | none => exact hw
  | some x =>
    have hpath : x.held.path = path := by simpa using List.find?_some hf
    obtain ⟨m', hr, -, hw'⟩ := hw.give_up (List.mem_of_find?_eq_some hf)
    subst hpath
    dsimp only
    rcases hj with rfl | rfl
    · rw [hr.1]
      exact hw'
    · rw [hr.2]
      exact hw'

theorem step {op : Operation} (hop : op.Proper dir isLive) : (w.step dir isLive op).Ready dir isLive := by
  cases op with
  | acquire source pid now =>
    unfold Ledger.step
    dsimp only
    by_cases hheld : w.Holds (pathFor dir source)
    · obtain ⟨x, hx, hpath⟩ := hheld
      obtain ⟨m', hr, -, hw'⟩ := hw.acquire_held (show Claim.dir ⟨dir, source, pid, now⟩ = dir from rfl) hx hpath
      rw [hr]
      exact hw'
    · obtain ⟨h, m', hr, hw'⟩ := hw.acquire_free rfl hop hheld
      rw [hr]
      exact hw'
  | inspect source =>
    unfold Ledger.step
    dsimp only
    by_cases hheld : w.Holds (pathFor dir source)
    · obtain ⟨x, hx, hpath⟩ := hheld
      obtain ⟨m', hr, -, hw'⟩ := hw.inspect_held hx hpath
      rw [hr]
      exact hw'
    · obtain ⟨m', hr, -, hw'⟩ := hw.inspect_free hheld
      rw [hr]
      exact hw'
  | release source => exact hw.giveUp (Or.inl rfl)
  | drop source => exact hw.giveUp (Or.inr rfl)

theorem foldl {ops : List Operation} (hops : ∀ op ∈ ops, op.Proper dir isLive) :
    (ops.foldl (Ledger.step dir isLive) w).Ready dir isLive := by
  induction ops generalizing w with
  | nil => exact hw
  | cons op ops ih =>
    exact ih (hw.step (hops op (List.mem_cons_self ..))) fun op hop => hops op (List.mem_cons_of_mem _ hop)

theorem once {x y : Holding} (hx : x ∈ w.holdings) (hy : y ∈ w.holdings) (hpath : x.held.path = y.held.path) :
    x = y := by
  obtain ⟨here, es, hkept⟩ := hw.kept hx
  exact hkept.once x hx y hy hpath

theorem exact : w.Exact dir isLive := by
  refine ⟨fun x hx => ?_, fun hdir hc => ⟨fun hok ⟨x, hx, hpath⟩ => ?_, fun hfree => ?_⟩, fun hdir hc hr => ?_,
    fun source => ?_, fun x hx => ?_⟩
  · obtain ⟨here, es, hkept⟩ := hw.kept hx
    exact hkept.recorded hx
  · obtain ⟨m', hr, -⟩ := hw.acquire_held hdir hx hpath
    rw [hr] at hok
    cases hok
  · obtain ⟨h, m', hr, -⟩ := hw.acquire_free hdir hc hfree
    rw [hr]
    rfl
  · rename_i c f m'
    by_cases hheld : w.Holds (pathFor dir c.source)
    · obtain ⟨x, hx, hpath⟩ := hheld
      obtain ⟨m'', hr', hq, -⟩ := hw.acquire_held hdir hx hpath
      obtain ⟨-, rfl⟩ := Prod.mk.inj (hr.symm.trans hr')
      exact ⟨hq.locks, hq.tree⟩
    · obtain ⟨h, m'', hr', -⟩ := hw.acquire_free hdir hc hheld
      cases hr.symm.trans hr'
  · by_cases hheld : w.Holds (pathFor dir source)
    · obtain ⟨x, hx, hpath⟩ := hheld
      obtain ⟨m', hr, hq, -⟩ := hw.inspect_held hx hpath
      refine ⟨_, m', hr, fun content => ⟨fun h => ⟨x, hx, hpath, Option.some.inj h⟩, ?_⟩, hq.locks, hq.tree⟩
      rintro ⟨y, hy, hpath', rfl⟩
      rw [hw.once hx hy (hpath.trans hpath'.symm)]
    · obtain ⟨m', hr, hq, -⟩ := hw.inspect_free hheld
      refine ⟨_, m', hr, fun content => ⟨nofun, ?_⟩, hq.locks, hq.tree⟩
      rintro ⟨y, hy, hpath, -⟩
      exact absurd ⟨y, hy, hpath⟩ hheld
  · obtain ⟨m', hr, hthere, hw'⟩ := hw.give_up hx
    refine ⟨m', hr.1, hr.2, hthere, fun hdir hc hpath => ?_⟩
    rename_i c
    have hfree : ¬Holds ⟨m', w.holdings.filter (·.held.path ≠ x.held.path)⟩ (pathFor dir c.source) := by
      rintro ⟨y, hy, hpath'⟩
      rw [hpath] at hpath'
      simp [hpath'] at hy
    obtain ⟨h, m'', hr', -⟩ := hw'.acquire_free hdir hc hfree
    rw [hr']
    rfl

end Ready

/-- After any operations, the next one is exact. -/
theorem operations_are_exact {ops : List Operation} (hm : Leftovers dir m)
    (hops : ∀ op ∈ ops, op.Proper dir isLive) : (ops.foldl (step dir isLive) ⟨m, []⟩).Exact dir isLive :=
  ((ready_of_leftovers hm).foldl hops).exact

/-! ## A leftover lock file -/

theorem Kept.leftovers (hw : Kept dir isLive here es ⟨m, []⟩) : Leftovers dir m := by
  have hmake : m.makeAllDirs dir = (m, .ok ()) := Machine.makeAllDirs_of_isDir hw.lists.isDir
  have hentry : ∀ {source place}, m.findHere (pathFor dir source) = .ok place →
      ∃ i, es.lookup (key source) = some i ∧ place = (key source, i) :: here :=
    fun hf => hw.lists.lookup_of_findHere (fits_fileName (hw.room _)) hf
  refine ⟨hw.sane, ?_, hw.room, hw.opened, ?_, ?_, ?_⟩ <;> rw [hmake]
  · exact hw.lists.isDir
  · intro source place hf
    obtain ⟨i, hl, rfl⟩ := hentry hf
    exact hw.file hl
  · intro source source' place place' hf hf' hsame
    obtain ⟨i, hl, rfl⟩ := hentry hf
    obtain ⟨i', hl', rfl⟩ := hentry hf'
    obtain rfl : i = i' := hsame
    exact hw.own hl hl'
  · intro source place hf id hid
    obtain ⟨i, hl, rfl⟩ := hentry hf
    obtain ⟨x, hx, -⟩ := hw.locked hl hid
    cases hx

def root : Path := ⟨[Path.slash]⟩
def first : Path := ⟨[Path.slash, 0x73]⟩
def second : Path := ⟨[Path.slash, 0x74]⟩

/-- A machine on which a lock file has been left behind, which is longer than any record and is none. -/
def stale : Machine :=
  let m := (({} : Machine).createFile [] (key first) [] 0o644).2
  { m with tree := m.tree.setNode 1 (.file (List.replicate 200 0x7b) 0o644) }

/-- Locks come and go; a second process wants the first one while it is held. -/
def busy : List Operation :=
  [.inspect first, .acquire first 1 0, .acquire first 2 0, .acquire second 3 0, .inspect second, .release first,
    .acquire first 4 0]

theorem stale_leftovers : Leftovers root stale := by
  have hroom : ∀ source, (pathFor root source).raw.length ≤ Machine.longestPath :=
    fun source => Nat.le_trans (length_pathFor (by decide) source) (by decide)
  have hempty : Kept root (fun _ => true) [] [] ⟨{}, []⟩ :=
    ⟨hroom, Machine.sane_empty, ⟨rfl, rfl⟩, nofun, nofun, nofun, nofun, nofun, nofun⟩
  have hnone : ([] : List (Bytes × Ino)).lookup (key first) = none := rfl
  have hmade := hempty.create hnone 0o644
  have hfree : ¬Holds { holdings := [], machine := (({} : Machine).createFile [] (key first) [] 0o644).2 }
      (pathFor root first) := by
    rintro ⟨x, hx, -⟩
    cases hx
  have hentry : (Tree.putEntry (key first) ({} : Machine).tree.nodes.size []).lookup (key first) = some 1 := by
    rw [Tree.lookup_putEntry, if_pos rfl]
    rfl
  have hfile : (({} : Machine).createFile [] (key first) [] 0o644).2.tree.node 1 = .file [] 0o644 := rfl
  exact (hmade.write hentry hfree hfile _).leftovers

theorem proper_busy : ∀ op ∈ busy, op.Proper root fun _ => true := by
  have hfirst : first.IsText := ⟨"/s", by decide⟩
  have hsecond : second.IsText := ⟨"/t", by decide⟩
  simp only [busy, List.forall_mem_cons]
  refine ⟨trivial, ⟨hfirst, by decide, by decide, rfl⟩, ⟨hfirst, by decide, by decide, rfl⟩,
    ⟨hsecond, by decide, by decide, rfl⟩, trivial, trivial, ⟨hfirst, by decide, by decide, rfl⟩, nofun⟩

theorem operations_are_exact_over_leftover : Leftovers root stale ∧
    (∀ op ∈ busy, op.Proper root fun _ => true) ∧
    (busy.foldl (step root fun _ => true) ⟨stale, []⟩).holdings.map (·.claim.pid) = [4, 3] ∧
    (busy.foldl (step root fun _ => true) ⟨stale, []⟩).Exact root fun _ => true :=
  ⟨stale_leftovers, proper_busy, by decide +kernel, operations_are_exact stale_leftovers proper_busy⟩

end Ledger

end Retrace.Lock
