import Retrace.Lock.Ledger
import Retrace.Proofs.Lock.Naming

/-!
# Lock files of a directory

While locks come and go, each lock file is a file of its own, and it is locked exactly while its lock is held. Opening
a lock file and closing it again is not noticed by anybody.
-/

namespace Retrace.Lock

open Machine (Lists)

/-- The bytes of the name of a lock file. -/
def key (source : Path) : Bytes := Bytes.ofString (fileName source)

theorem pathFor_of_key {dir source source' : Path} (h : key source = key source') :
    pathFor dir source = pathFor dir source' := by
  have hdecoded := congrArg Utf8.decode? h
  rw [key, key, Utf8.decode?_encode, Utf8.decode?_encode] at hdecoded
  rw [pathFor_eq, pathFor_eq, Option.some.inj hdecoded]

/-! ## Machines that differ in closed files only -/

/-- Files were opened and closed again, and nothing else has happened. -/
structure Quiet (m m' : Machine) : Prop where
  tree : m'.tree = m.tree
  cwd : m'.cwd = m.cwd
  locks : m'.locks = m.locks
  nodeOf : ∀ {h : Handle}, h.id < m.nextHandle → m'.nodeOf h = m.nodeOf h
  nextHandle : m.nextHandle ≤ m'.nextHandle

theorem Quiet.refl (m : Machine) : Quiet m m := ⟨rfl, rfl, rfl, fun _ => rfl, Nat.le_refl _⟩

theorem Quiet.find {m m' : Machine} (h : Quiet m m') (p : Path) : m'.find p = m.find p := by
  unfold Machine.find Machine.spot Machine.shortStart Machine.start
  rw [h.tree, h.cwd]

theorem Quiet.lists {m m' : Machine} {dir : Path} {here : Place} {es : List (Bytes × Ino)} (h : Quiet m m')
    (hl : m.Lists dir here es) : m'.Lists dir here es :=
  ⟨(h.find dir).trans hl.find, by rw [h.tree]; exact hl.node⟩

theorem quiet_opened (m : Machine) (i : Ino) : Quiet m (m.opened i) :=
  ⟨rfl, rfl, rfl, fun hh => Machine.nodeOf_opened_of_lt i hh, Nat.le_succ _⟩

/-- A file that was opened and perhaps locked is closed. -/
theorem quiet_closed {m m' : Machine} {h : Handle} (hm : Quiet m { m' with locks := m.locks })
    (hnew : h.id = m.nextHandle) (hlocks : m'.locks.filter (·.2 ≠ h.id) = m.locks) : Quiet m (m'.close h) := by
  refine ⟨hm.tree, hm.cwd, hlocks, fun {g} hg => ?_, hm.nextHandle⟩
  rw [Machine.nodeOf_close (hnew ▸ Nat.ne_of_lt hg)]
  exact hm.nodeOf hg

/-! ## Locks that are held -/

/-- A lock is held: its file stands in the directory, is locked and says who holds the lock. -/
structure Holding.Stands (dir : Path) (isLive : Nat → Bool) (es : List (Bytes × Ino)) (m : Machine) (x : Holding) :
    Prop where
  path : x.held.path = pathFor dir x.claim.source
  entry : es.lookup (key x.claim.source) = some (m.nodeOf x.held.handle)
  locked : m.locks.lookup (m.nodeOf x.held.handle) = some x.held.handle.id
  names : ∃ text mode, m.tree.node (m.nodeOf x.held.handle) = .file (.ofString text) mode ∧
    Content.ofBytes? (.ofString text) = some x.claim.content
  live : isLive x.claim.pid = true

theorem Holding.Stands.transfer {dir : Path} {isLive : Nat → Bool} {es es' : List (Bytes × Ino)} {m m' : Machine}
    {x : Holding} (h : x.Stands dir isLive es m) (hnode : m'.nodeOf x.held.handle = m.nodeOf x.held.handle)
    (hentry : es'.lookup (key x.claim.source) = es.lookup (key x.claim.source))
    (hlocks : m'.locks.lookup (m.nodeOf x.held.handle) = m.locks.lookup (m.nodeOf x.held.handle))
    (htree : m'.tree.node (m.nodeOf x.held.handle) = m.tree.node (m.nodeOf x.held.handle)) :
    x.Stands dir isLive es' m' :=
  ⟨h.path, by rw [hentry, hnode, h.entry], by rw [hnode, hlocks, h.locked], by rw [hnode, htree]; exact h.names, h.live⟩

/-- The lock files of a directory with these entries, and the locks that are held. -/
structure Ledger.Kept (dir : Path) (isLive : Nat → Bool) (here : Place) (es : List (Bytes × Ino)) (w : Ledger) :
    Prop where
  room : ∀ source, (pathFor dir source).raw.length ≤ Machine.longestPath
  sane : w.machine.Sane
  lists : w.machine.Lists dir here es
  /-- Locks are those of open files. -/
  opened : ∀ {i id}, (i, id) ∈ w.machine.locks → i < w.machine.tree.nodes.size ∧ id < w.machine.nextHandle
  /-- A lock file is a file. -/
  file : ∀ {source i}, es.lookup (key source) = some i → ∃ content mode, w.machine.tree.node i = .file content mode
  /-- No two lock files are the same file. -/
  own : ∀ {source source' i}, es.lookup (key source) = some i → es.lookup (key source') = some i →
    pathFor dir source = pathFor dir source'
  /-- A lock file that is locked is that of a lock that is held. -/
  locked : ∀ {source i id}, es.lookup (key source) = some i → (i, id) ∈ w.machine.locks →
    ∃ x ∈ w.holdings, w.machine.nodeOf x.held.handle = i ∧ x.held.handle.id = id
  stands : ∀ x ∈ w.holdings, x.Stands dir isLive es w.machine
  once : ∀ x ∈ w.holdings, ∀ y ∈ w.holdings, x.held.path = y.held.path → x = y

/-- The lock at a path is held. -/
def Ledger.Holds (w : Ledger) (path : Path) : Prop := ∃ x ∈ w.holdings, x.held.path = path

namespace Ledger.Kept

variable {dir source : Path} {isLive : Nat → Bool} {here : Place} {es : List (Bytes × Ino)} {w : Ledger}
  (hw : w.Kept dir isLive here es)
include hw

theorem id_lt {x : Holding} (hx : x ∈ w.holdings) : x.held.handle.id < w.machine.nextHandle :=
  (hw.opened (mem_of_lookup (hw.stands x hx).locked)).2

theorem here_ne {i : Ino} {content : Bytes} {mode : Nat} (hi : w.machine.tree.node i = .file content mode) :
    here.ino ≠ i := by
  rintro rfl
  exact nomatch hw.lists.node.symm.trans hi

theorem same_of_node {x y : Holding} (hx : x ∈ w.holdings) (hy : y ∈ w.holdings)
    (h : w.machine.nodeOf x.held.handle = w.machine.nodeOf y.held.handle) : x = y := by
  refine hw.once x hx y hy ?_
  rw [(hw.stands x hx).path, (hw.stands y hy).path]
  exact hw.own (hw.stands x hx).entry (h ▸ (hw.stands y hy).entry)

theorem same_of_id {x y : Holding} (hx : x ∈ w.holdings) (hy : y ∈ w.holdings)
    (h : x.held.handle.id = y.held.handle.id) : x = y :=
  hw.same_of_node hx hy (by rw [Machine.nodeOf, Machine.nodeOf, h])

/-- A lock file is not locked while its lock is not held. -/
theorem lookup_free (hfree : ¬w.Holds (pathFor dir source)) {i : Ino} (hl : es.lookup (key source) = some i) :
    w.machine.locks.lookup i = none := by
  refine lookup_eq_none_of_forall fun id hid => hfree ?_
  obtain ⟨x, hx, hnode, -⟩ := hw.locked hl hid
  refine ⟨x, hx, (hw.stands x hx).path.trans ?_⟩
  exact hw.own (hw.stands x hx).entry (hnode ▸ hl)

theorem quiet {m' : Machine} (h : Quiet w.machine m') : Kept dir isLive here es { w with machine := m' } := by
  refine ⟨hw.room, ⟨?_, ?_⟩, h.lists hw.lists, ?_, ?_, hw.own, ?_, fun x hx => ?_, hw.once⟩
  · show m'.tree.Closed
    rw [h.tree]
    exact hw.sane.tree
  · show m'.cwd.Within m'.tree.nodes.size
    rw [h.tree, h.cwd]
    exact hw.sane.cwd
  · intro i id hid
    show i < m'.tree.nodes.size ∧ id < m'.nextHandle
    have hid : (i, id) ∈ m'.locks := hid
    rw [h.locks] at hid
    rw [h.tree]
    exact ⟨(hw.opened hid).1, Nat.lt_of_lt_of_le (hw.opened hid).2 h.nextHandle⟩
  · intro source i hl
    show ∃ content mode, m'.tree.node i = .file content mode
    rw [h.tree]
    exact hw.file hl
  · intro source i id hl hid
    have hid : (i, id) ∈ m'.locks := hid
    rw [h.locks] at hid
    obtain ⟨x, hx, hnode, heq⟩ := hw.locked hl hid
    exact ⟨x, hx, (h.nodeOf (hw.id_lt hx)).trans hnode, heq⟩
  · exact (hw.stands x hx).transfer (h.nodeOf (hw.id_lt hx)) rfl (by rw [h.locks]) (by rw [h.tree])

theorem ends_vacant (hl : es.lookup (key source) = none) : w.machine.tree.Ends (.vacant here (key source) false) :=
  ⟨Machine.spot_ends hw.sane (Machine.find_eq_ok.mp hw.lists.find), es, hw.lists.node, hl⟩

/-- A lock file is made. -/
theorem create (hl : es.lookup (key source) = none) (mode : Nat) :
    Kept dir isLive here (Tree.putEntry (key source) w.machine.tree.nodes.size es)
      { w with machine := (w.machine.createFile here (key source) [] mode).2 } := by
  have hkeeps := Machine.keeps_createFile hw.sane (hw.ends_vacant hl) [] mode
  have hnode : ∀ j, (w.machine.createFile here (key source) [] mode).2.tree.node j =
      if here.ino = j then .dir (Tree.putEntry (key source) w.machine.tree.nodes.size es)
      else if j = w.machine.tree.nodes.size then .file [] mode else w.machine.tree.node j := by
    intro j
    rw [Machine.createFile_tree]
    exact Tree.node_link (hw.lists.ino_lt hw.sane) hw.lists.node _ _ j
  have hold : ∀ {source' i}, es.lookup (key source') = some i →
      (w.machine.createFile here (key source) [] mode).2.tree.node i = w.machine.tree.node i := by
    intro source' i hi
    obtain ⟨content, mode', hfile⟩ := hw.file hi
    rw [hnode, if_neg (hw.here_ne hfile), if_neg (Nat.ne_of_lt (hw.lists.lookup_lt hw.sane hi))]
  -- an entry is the new one or an old one
  have hcases : ∀ {source' i}, (Tree.putEntry (key source) w.machine.tree.nodes.size es).lookup (key source') = some i →
      key source' = key source ∧ i = w.machine.tree.nodes.size ∨
        key source' ≠ key source ∧ es.lookup (key source') = some i ∧ i < w.machine.tree.nodes.size := by
    intro source' i hi
    rw [Tree.lookup_putEntry] at hi
    split at hi
    · rename_i hkey
      exact Or.inl ⟨hkey, (Option.some.inj hi).symm⟩
    · rename_i hkey
      exact Or.inr ⟨hkey, hi, hw.lists.lookup_lt hw.sane hi⟩
  refine ⟨hw.room, hkeeps.sane hw.sane, hw.lists.createFile hw.sane hl [] mode, ?_, ?_, ?_, ?_, fun x hx => ?_, hw.once⟩
  · intro i id hid
    have hid : (i, id) ∈ (w.machine.createFile here (key source) [] mode).2.locks := hid
    rw [hkeeps.locks] at hid
    refine ⟨Nat.lt_of_lt_of_le (hw.opened hid).1 hkeeps.grows.size, ?_⟩
    show id < (w.machine.createFile here (key source) [] mode).2.nextHandle
    rw [hkeeps.nextHandle]
    exact (hw.opened hid).2
  · intro source' i hi
    show ∃ content mode', (w.machine.createFile here (key source) [] mode).2.tree.node i = .file content mode'
    rcases hcases hi with ⟨-, rfl⟩ | ⟨-, hi, -⟩
    · refine ⟨[], mode, ?_⟩
      rw [hnode, if_neg (Nat.ne_of_lt (hw.lists.ino_lt hw.sane)), if_pos rfl]
    · rw [hold hi]
      exact hw.file hi
  · intro source₁ source₂ i h₁ h₂
    rcases hcases h₁ with ⟨hkey₁, rfl⟩ | ⟨-, h₁, hlt⟩ <;> rcases hcases h₂ with ⟨hkey₂, heq⟩ | ⟨-, h₂, hlt'⟩
    · exact pathFor_of_key (hkey₁.trans hkey₂.symm)
    · exact absurd hlt' (Nat.lt_irrefl _)
    · exact absurd (heq ▸ hlt) (Nat.lt_irrefl _)
    · exact hw.own h₁ h₂
  · intro source' i id hi hid
    have hid : (i, id) ∈ (w.machine.createFile here (key source) [] mode).2.locks := hid
    rw [hkeeps.locks] at hid
    rcases hcases hi with ⟨-, rfl⟩ | ⟨-, hi, -⟩
    · exact absurd (hw.opened hid).1 (Nat.lt_irrefl _)
    · obtain ⟨x, hx, hnode, heq⟩ := hw.locked hi hid
      exact ⟨x, hx, (hkeeps.nodeOf _).trans hnode, heq⟩
  · have hentry := (hw.stands x hx).entry
    refine (hw.stands x hx).transfer (hkeeps.nodeOf _) ?_ (by rw [hkeeps.locks]) (hold hentry)
    rw [Tree.lookup_putEntry, if_neg]
    intro hkey
    rw [hkey, hl] at hentry
    cases hentry

end Ledger.Kept

/-! ## Lock files are opened -/

/-- A lock file is open, and its new handle has no lock. -/
structure Opened (es : List (Bytes × Ino)) (m : Machine) (source : Path) (h : Handle) : Prop where
  entry : es.lookup (key source) = some (m.nodeOf h)
  new : h.id < m.nextHandle
  unlocked : ∀ {i}, (i, h.id) ∉ m.locks

namespace Ledger.Kept

variable {dir source : Path} {isLive : Nat → Bool} {here : Place} {es : List (Bytes × Ino)} {w : Ledger} {x : Holding}
  {h : Handle} (hw : w.Kept dir isLive here es)
include hw

theorem key_of_path {source' : Path} (hpath : pathFor dir source = pathFor dir source') : key source = key source' := by
  have hdir : dir.raw ≠ [] := List.length_pos_iff.mp (Machine.length_pos_of_find hw.lists.find)
  rw [key, key, fileName_of_pathFor hdir (hw.room source) hpath]

theorem find_entry {i : Ino} (hl : es.lookup (key source) = some i) :
    w.machine.find (pathFor dir source) = .ok ((key source, i) :: here) := by
  obtain ⟨content, mode, hfile⟩ := hw.file hl
  exact hw.lists.find_child (fits_fileName (hw.room source)) hl hfile

theorem openFile_entry {i : Ino} (hl : es.lookup (key source) = some i) :
    w.machine.openFile (pathFor dir source) = .ok (⟨w.machine.nextHandle⟩, w.machine.opened i) ∧
      Opened es (w.machine.opened i) source ⟨w.machine.nextHandle⟩ := by
  obtain ⟨content, mode, hfile⟩ := hw.file hl
  refine ⟨hw.lists.openFile_child (fits_fileName (hw.room source)) hl hfile, ?_, Nat.lt_succ_self _, fun hid => ?_⟩
  · rw [Machine.nodeOf_opened]
    exact hl
  · exact absurd (hw.opened hid).2 (Nat.lt_irrefl _)

/-- A lock file is opened, and made if it is missing. -/
theorem openFile (source : Path) : ∃ es' m', Kept dir isLive here es' { w with machine := m' } ∧
    w.machine.openFile (pathFor dir source) = .ok (⟨w.machine.nextHandle⟩, m') ∧
      Opened es' m' source ⟨w.machine.nextHandle⟩ := by
  cases hl : es.lookup (key source) with
  | some i => exact ⟨es, _, hw.quiet (quiet_opened _ i), hw.openFile_entry hl⟩
  | none =>
    have hmade := hw.create hl 0o644
    have hkeeps : w.machine.Keeps (w.machine.createFile here (key source) [] 0o644).2 :=
      Machine.keeps_createFile hw.sane (hw.ends_vacant hl) [] 0o644
    have hentry : (Tree.putEntry (key source) w.machine.tree.nodes.size es).lookup (key source) =
        some w.machine.tree.nodes.size := by rw [Tree.lookup_putEntry, if_pos rfl]
    have ho := (hmade.openFile_entry hentry).2
    dsimp only at ho
    rw [hkeeps.nextHandle] at ho
    exact ⟨_, _, hmade.quiet (quiet_opened _ _), hw.lists.openFile_vacant (fits_fileName (hw.room source)) hl, ho⟩

/-! ## Lock files are locked -/

theorem tryLock_free (ho : Opened es w.machine source h) (hfree : ¬w.Holds (pathFor dir source)) :
    w.machine.tryLock h =
      (true, { w.machine with locks := (w.machine.nodeOf h, h.id) :: w.machine.locks }) := by
  rw [Machine.tryLock, hw.lookup_free hfree ho.entry]

theorem tryLock_held (ho : Opened es w.machine source h) (hx : x ∈ w.holdings)
    (hpath : x.held.path = pathFor dir source) : w.machine.tryLock h = (false, w.machine) ∧
      Content.ofBytes? (w.machine.readHandle h) = some x.claim.content := by
  have hs := hw.stands x hx
  have hnode : w.machine.nodeOf x.held.handle = w.machine.nodeOf h := by
    have hentry := hs.entry
    rw [hw.key_of_path (hs.path.symm.trans hpath), ho.entry] at hentry
    exact (Option.some.inj hentry).symm
  have hlocked := hs.locked
  rw [hnode] at hlocked
  have hother : (x.held.handle.id == h.id) = false := by
    rw [beq_eq_false_iff_ne]
    intro hid
    rw [hid] at hlocked
    exact ho.unlocked (mem_of_lookup hlocked)
  obtain ⟨text, mode, hfile, hread⟩ := hs.names
  refine ⟨by simp [Machine.tryLock, hlocked, hother], ?_⟩
  rw [hnode] at hfile
  rw [Machine.readHandle_of_file hfile]
  exact hread

/-- A lock file that is not locked is written. -/
theorem write {i : Ino} {old : Bytes} {mode : Nat} (hl : es.lookup (key source) = some i)
    (hfree : ¬w.Holds (pathFor dir source)) (hi : w.machine.tree.node i = .file old mode) (content : Bytes) :
    Kept dir isLive here es
      { w with machine := { w.machine with tree := w.machine.tree.setNode i (.file content mode) } } := by
  have hlt := hw.lists.lookup_lt hw.sane hl
  have hnode := Tree.node_setNode hlt (.file content mode)
  have hsize : (w.machine.tree.setNode i (.file content mode)).nodes.size = w.machine.tree.nodes.size := by
    simp [Tree.setNode]
  have hkeeps : w.machine.Keeps { w.machine with tree := w.machine.tree.setNode i (.file content mode) } :=
    ⟨Tree.grows_setFile hi content, hw.sane.tree.setFile i content mode, rfl, rfl, rfl, rfl⟩
  refine ⟨hw.room, hkeeps.sane hw.sane, ⟨hkeeps.find hw.sane hw.lists.find, ?_⟩, fun hid => ?_, fun {source' j} hj => ?_,
    hw.own, hw.locked, fun x hx => ?_, hw.once⟩
  · exact (hnode here.ino).trans ((if_neg (Ne.symm (hw.here_ne hi))).trans hw.lists.node)
  · dsimp only
    rw [hsize]
    exact hw.opened hid
  · dsimp only
    rw [hnode]
    split
    · exact ⟨_, _, rfl⟩
    · exact hw.file hj
  · refine (hw.stands x hx).transfer rfl rfl rfl ((hnode _).trans (if_neg ?_))
    rintro rfl
    have hlocked := (hw.stands x hx).locked
    rw [hw.lookup_free hfree hl] at hlocked
    cases hlocked

/-- A lock file that names the holder is locked. -/
theorem hold {c : Claim} (ho : Opened es w.machine c.source h) (hfree : ¬w.Holds (pathFor dir c.source))
    (hnames : ∃ text mode, w.machine.tree.node (w.machine.nodeOf h) = .file (.ofString text) mode ∧
      Content.ofBytes? (.ofString text) = some c.content) (hlive : isLive c.pid = true) :
    Kept dir isLive here es ⟨{ w.machine with locks := (w.machine.nodeOf h, h.id) :: w.machine.locks },
      ⟨c, ⟨pathFor dir c.source, h⟩⟩ :: w.holdings⟩ := by
  have hlt := hw.lists.lookup_lt hw.sane ho.entry
  refine ⟨hw.room, ⟨hw.sane.tree, hw.sane.cwd⟩, ⟨hw.lists.find, hw.lists.node⟩, fun hid => ?_, hw.file, hw.own,
    fun hl hid => ?_, fun y hy => ?_, fun y hy z hz hpath => ?_⟩
  · rcases List.mem_cons.mp hid with hid | hid
    · cases hid
      exact ⟨hlt, ho.new⟩
    · exact hw.opened hid
  · rcases List.mem_cons.mp hid with hid | hid
    · cases hid
      exact ⟨_, List.mem_cons_self .., rfl, rfl⟩
    · obtain ⟨y, hy, hnode⟩ := hw.locked hl hid
      exact ⟨y, List.mem_cons_of_mem _ hy, hnode⟩
  · rcases List.mem_cons.mp hy with rfl | hy
    · exact ⟨rfl, ho.entry, (lookup_cons_if _ _ _ _).trans (if_pos rfl), hnames, hlive⟩
    · refine (hw.stands y hy).transfer rfl rfl ((lookup_cons_if _ _ _ _).trans (if_neg fun heq => ?_)) rfl
      have hlocked := (hw.stands y hy).locked
      rw [heq, hw.lookup_free hfree ho.entry] at hlocked
      cases hlocked
  · rcases List.mem_cons.mp hy with rfl | hy <;> rcases List.mem_cons.mp hz with rfl | hz
    · rfl
    · exact absurd ⟨z, hz, hpath.symm⟩ hfree
    · exact absurd ⟨y, hy, hpath⟩ hfree
    · exact hw.once y hy z hz hpath

/-- A lock file that is not locked is locked, and the holder is written into it. -/
theorem take {c : Claim} {text : String} (ho : Opened es w.machine c.source h)
    (hfree : ¬w.Holds (pathFor dir c.source)) (hread : Content.ofBytes? (.ofString text) = some c.content)
    (hlive : isLive c.pid = true) : ∃ m₁ m₂, w.machine.tryLock h = (true, m₁) ∧
      m₁.leadsTo (pathFor dir c.source) h = .ok true ∧ m₁.writeHandle h (Bytes.ofString text) = .ok m₂ ∧
        Kept dir isLive here es ⟨m₂, ⟨c, ⟨pathFor dir c.source, h⟩⟩ :: w.holdings⟩ := by
  obtain ⟨old, mode, hfile⟩ := hw.file ho.entry
  -- the file is locked first and written then, which comes to the same as the other way round
  have hwritten := hw.write ho.entry hfree hfile (.ofString text)
  have hnames := (Tree.node_setNode (hw.lists.lookup_lt hw.sane ho.entry) (.file (.ofString text) mode) _).trans
    (if_pos rfl)
  refine ⟨_, _, hw.tryLock_free ho hfree, ?_, ?_,
    hwritten.hold ⟨ho.entry, ho.new, ho.unlocked⟩ hfree ⟨text, mode, hnames, hread⟩ hlive⟩
  · exact Machine.leadsTo_of_find (hw.find_entry ho.entry) rfl
  · refine Machine.writeHandle_of_file (?_ : _ = Node.file old mode) _ 0
    exact hfile

/-! ## Locks are given up -/

/-- The file of a lock is removed and closed. -/
theorem giveUp (hx : x ∈ w.holdings) : ∃ m₁ es', w.machine.removeFile x.held.path = .ok m₁ ∧
    m₁.removeFile x.held.path = .error (.os .ENOENT) ∧ (m₁.close x.held.handle).isThere x.held.path = false ∧
      Kept dir isLive here es' ⟨m₁.close x.held.handle, w.holdings.filter (·.held.path ≠ x.held.path)⟩ := by
  have hs := hw.stands x hx
  obtain ⟨text, mode, hfile, -⟩ := hs.names
  have hfits := fits_fileName (hw.room x.claim.source)
  have hlists : (w.machine.removeEntry here (key x.claim.source)).Lists dir here
      (es.filter (·.1 ≠ key x.claim.source)) := hw.lists.removeEntry hw.sane hs.entry hfile
  have hgone : (es.filter (·.1 ≠ key x.claim.source)).lookup (key x.claim.source) = none := by
    rw [lookup_filter_key, if_pos rfl]
  have hsane := Machine.sane_removeEntry hw.sane here (key x.claim.source)
  have hremove : w.machine.removeFile x.held.path = .ok (w.machine.removeEntry here (key x.claim.source)) := by
    rw [hs.path]
    exact hw.lists.removeFile_child hfits hs.entry hfile
  have hnode : ∀ j, (w.machine.removeEntry here (key x.claim.source)).tree.node j =
      if here.ino = j then .dir (es.filter (·.1 ≠ key x.claim.source)) else w.machine.tree.node j :=
    Tree.node_unlink hw.lists.node (hw.lists.ino_lt hw.sane) _
  have hsize : (w.machine.removeEntry here (key x.claim.source)).tree.nodes.size = w.machine.tree.nodes.size := by
    show (w.machine.tree.unlink here.ino (key x.claim.source)).nodes.size = _
    simp [Tree.unlink, Tree.setNode]
  generalize hm₁ : w.machine.removeEntry here (key x.claim.source) = m₁ at *
  have hlocks : (m₁.close x.held.handle).locks = w.machine.locks.filter (·.2 ≠ x.held.handle.id) := by
    subst hm₁
    rfl
  have hnext : m₁.nextHandle = w.machine.nextHandle := by
    subst hm₁
    rfl
  -- other locks have other handles, since a handle is that of one file and no two lock files are the same
  have hnodeOf : ∀ y ∈ w.holdings, y ≠ x →
      (m₁.close x.held.handle).nodeOf y.held.handle = w.machine.nodeOf y.held.handle := by
    intro y hy hne
    rw [Machine.nodeOf_close fun hid => hne (hw.same_of_id hy hx hid)]
    subst hm₁
    rfl
  have hstays : ∀ {source i}, (es.filter (·.1 ≠ key x.claim.source)).lookup (key source) = some i →
      es.lookup (key source) = some i := by
    intro source i hl
    rw [lookup_filter_key] at hl
    split at hl
    · cases hl
    · exact hl
  refine ⟨m₁, _, hremove, ?_, ?_, hw.room, ⟨hsane.tree, hsane.cwd⟩, ⟨hlists.find, hlists.node⟩, ?_, ?_, ?_, ?_, ?_, ?_⟩
  · rw [hs.path]
    exact hlists.removeFile_vacant hfits hgone
  · rw [hs.path]
    exact hlists.isThere_vacant hfits hgone
  · intro i id hid
    show i < m₁.tree.nodes.size ∧ id < m₁.nextHandle
    have hid : (i, id) ∈ (m₁.close x.held.handle).locks := hid
    rw [hlocks] at hid
    rw [hsize, hnext]
    exact hw.opened (List.mem_filter.mp hid).1
  · intro source i hl
    show ∃ content mode, m₁.tree.node i = .file content mode
    obtain ⟨content, mode, hfile⟩ := hw.file (hstays hl)
    rw [hnode, if_neg (hw.here_ne hfile)]
    exact ⟨content, mode, hfile⟩
  · exact fun h₁ h₂ => hw.own (hstays h₁) (hstays h₂)
  · intro source i id hl hid
    have hid : (i, id) ∈ (m₁.close x.held.handle).locks := hid
    rw [hlocks, List.mem_filter] at hid
    obtain ⟨y, hy, hyi, hyid⟩ := hw.locked (hstays hl) hid.1
    have hne : y ≠ x := by
      rintro rfl
      simp [hyid] at hid
    refine ⟨y, List.mem_filter.mpr ⟨hy, ?_⟩, (hnodeOf y hy hne).trans hyi, hyid⟩
    exact decide_eq_true fun hpath => hne (hw.once y hy x hx hpath)
  · intro y hy
    obtain ⟨hy, hpath⟩ := List.mem_filter.mp hy
    have hne : y ≠ x := by
      rintro rfl
      simp at hpath
    have hs' := hw.stands y hy
    refine hs'.transfer (hnodeOf y hy hne) ?_ ?_ ?_
    · rw [lookup_filter_key, if_neg]
      intro hkey
      exact hne (hw.once y hy x hx (by rw [hs'.path, hs.path, pathFor_of_key hkey]))
    · show (m₁.close x.held.handle).locks.lookup _ = _
      rw [hlocks, hs'.locked]
      exact lookup_filter_of_pos hs'.locked (decide_eq_true fun hid => hne (hw.same_of_id hy hx hid))
    · obtain ⟨text, mode, hfile, -⟩ := hs'.names
      exact (hnode _).trans (if_neg (hw.here_ne hfile))
  · intro y hy z hz
    exact hw.once y (List.mem_filter.mp hy).1 z (List.mem_filter.mp hz).1

end Ledger.Kept

end Retrace.Lock
