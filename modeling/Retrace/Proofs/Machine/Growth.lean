import Retrace.Machine.Handles
import Retrace.Proofs.Machine.Walk
import Retrace.Proofs.Tables

/-!
# Changes to the files of a machine

Making directories, creating a file and writing one let the tree grow, so that a path still leads where it led.
Taking a name away leaves a tree whose entries are all there.
-/

namespace Retrace

namespace Tree

theorem lookup_putEntry (name : Bytes) (i : Ino) (es : List (Bytes × Ino)) (n : Bytes) :
    (putEntry name i es).lookup n = if n = name then some i else es.lookup n := by
  induction es with
  | nil => exact lookup_cons_if name i [] n
  | cons e es ih =>
    obtain ⟨k, j⟩ := e
    rw [putEntry, lookup_cons_if]
    by_cases hk : k = name
    · subst hk
      rw [if_pos rfl, lookup_cons_if]
      split <;> rfl
    · rw [if_neg hk, lookup_cons_if, ih]
      by_cases h : n = k
      · subst h
        rw [if_pos rfl, if_neg hk, if_pos rfl]
      · rw [if_neg h, if_neg h]

theorem node_setNode {t : Tree} {i : Ino} (hi : i < t.nodes.size) (n : Node) (j : Ino) :
    (t.setNode i n).node j = if i = j then n else t.node j := by
  simp only [node, setNode, Array.getD_eq_getD_getElem?, Array.getElem?_setIfInBounds]
  split <;> simp_all

theorem lt_size_of_file {t : Tree} {i : Ino} {content : Bytes} {mode : Nat} (h : t.node i = .file content mode) :
    i < t.nodes.size := by
  by_cases hi : i < t.nodes.size
  · exact hi
  · simp [node, Array.getD_eq_getD_getElem?, Array.getElem?_eq_none (Nat.le_of_not_lt hi)] at h

theorem node_push (t : Tree) (n : Node) (j : Ino) :
    (Tree.mk (t.nodes.push n)).node j = if j = t.nodes.size then n else t.node j := by
  simp only [node, Array.getD_eq_getD_getElem?, Array.getElem?_push]
  split <;> simp_all

theorem entries_of_dir {t : Tree} {i : Ino} {es : List (Bytes × Ino)} (h : t.node i = .dir es) : t.entries i = es := by
  simp [entries, h]

theorem grows_setFile {t : Tree} {i : Ino} {old : Bytes} {mode : Nat} (h : t.node i = .file old mode)
    (content : Bytes) : t.Grows (t.setNode i (.file content mode)) := by
  refine ⟨by simp [setNode], fun {j} hj => ?_⟩
  by_cases hi : i < t.nodes.size
  · rw [node_setNode hi]
    split
    · rename_i hij
      subst hij
      rw [h]
      trivial
    · exact Node.Grows.refl _
  · rw [setNode, Array.setIfInBounds, dif_neg hi]
    exact Node.Grows.refl _

/-- The nodes after a new one was put under a name of a directory. -/
theorem node_link {t : Tree} {dir : Ino} {es : List (Bytes × Ino)} (hdir : dir < t.nodes.size) (hd : t.node dir = .dir es)
    (name : Bytes) (n : Node) (j : Ino) : (((t.addNode n).2).link dir name (t.addNode n).1).node j =
      if dir = j then .dir (putEntry name t.nodes.size es) else if j = t.nodes.size then n else t.node j := by
  have hpush : ((t.addNode n).2).node dir = .dir es := by
    rw [addNode, node_push, if_neg (Nat.ne_of_lt hdir), hd]
  have hlt : dir < (t.addNode n).2.nodes.size := by
    rw [addNode, Array.size_push]
    exact Nat.lt_succ_of_lt hdir
  rw [link, node_setNode hlt, entries_of_dir hpush, addNode, node_push]

theorem grows_link {t : Tree} {dir : Ino} {es : List (Bytes × Ino)} {name : Bytes} (hdir : dir < t.nodes.size)
    (hd : t.node dir = .dir es) (hn : es.lookup name = none) (n : Node) :
    t.Grows (((t.addNode n).2).link dir name (t.addNode n).1) := by
  refine ⟨by simp [link, setNode, addNode], fun {j} hj => ?_⟩
  rw [node_link hdir hd, if_neg (Nat.ne_of_lt hj)]
  split
  · rename_i hij
    subst hij
    rw [hd]
    intro k i hk
    rw [lookup_putEntry, if_neg ?_]
    · exact hk
    · rintro rfl
      rw [hn] at hk
      cases hk
  · exact Node.Grows.refl _

theorem node_unlink {t : Tree} {dir : Ino} {es : List (Bytes × Ino)} (hd : t.node dir = .dir es)
    (hdir : dir < t.nodes.size) (name : Bytes) (j : Ino) :
    (t.unlink dir name).node j = if dir = j then .dir (es.filter (·.1 ≠ name)) else t.node j := by
  rw [unlink, entries_of_dir hd, node_setNode hdir]

/-- Without a name, the tree is one that grows into what it was. -/
theorem unlink_grows {t : Tree} {dir : Ino} {es : List (Bytes × Ino)} (hd : t.node dir = .dir es)
    (hdir : dir < t.nodes.size) (name : Bytes) : (t.unlink dir name).Grows t := by
  refine ⟨by simp [unlink, setNode], fun {j} _ => ?_⟩
  rw [node_unlink hd hdir]
  split
  · rename_i hij
    subst hij
    rw [hd]
    intro k i hk
    rw [lookup_filter_key] at hk
    split at hk
    · cases hk
    · exact hk
  · exact Node.Grows.refl _

/-- The walk to the directory of the entry that a path names. -/
theorem entry_named {t : Tree} {links : Nat} {here dir : Place} {segments : List Bytes} {name : Bytes} {closed : Bool}
    {i : Option Ino} (he : t.entry links here segments = .ok (.named dir name closed i)) :
    ∃ before es, t.walk .follow links here before = .ok (.found dir) ∧ t.node dir.ino = .dir es ∧
      es.lookup name = i ∧ (name ≠ [] ∧ name ≠ Path.dot ∧ name ≠ Path.dotdot) ∧
      (closed = false → segments = before ++ [name]) := by
  unfold entry at he
  split at he
  · cases he
  · rename_i last before hlast
    obtain ⟨spot, hw, he⟩ := bind_eq_ok.mp he
    cases spot with
    | vacant => cases he
    | found place =>
      dsimp only at he
      split at he
      · rename_i es hd
        split at he
        · cases he
        rename_i hdots
        split at he
        · cases he
        · cases he
          refine ⟨before.reverse, es, hw, hd, rfl, ⟨?_, fun h => hdots (.inl h), fun h => hdots (.inr h)⟩,
            fun hclosed => ?_⟩
          · have := List.head?_dropWhile_not (· == []) segments.reverse
            rw [hlast] at this
            simpa using this
          · have hcut := List.takeWhile_append_dropWhile (p := (· == [])) (l := segments.reverse)
            rw [hlast] at hcut
            rw [Bool.not_eq_false', List.isEmpty_iff] at hclosed
            rw [hclosed, List.nil_append] at hcut
            simpa using congrArg List.reverse hcut.symm
      · cases he

namespace Closed

variable {t : Tree} (h : t.Closed)
include h

theorem setFile (i : Ino) (content : Bytes) (mode : Nat) : (t.setNode i (.file content mode)).Closed := by
  by_cases hi : i < t.nodes.size
  · refine ⟨by simpa [setNode] using h.root, fun hd hl => ?_⟩
    rw [node_setNode hi] at hd
    split at hd
    · cases hd
    · simpa [setNode] using h.entry hd hl
  · rw [setNode, Array.setIfInBounds, dif_neg hi]
    exact h

theorem link {dir : Ino} {es : List (Bytes × Ino)} (hdir : dir < t.nodes.size) (hd : t.node dir = .dir es)
    (name : Bytes) {n : Node} (hn : ∀ {es k i}, n = .dir es → List.lookup k es = some i → i < t.nodes.size) :
    (((t.addNode n).2).link dir name (t.addNode n).1).Closed := by
  have hsize : (((t.addNode n).2).link dir name (t.addNode n).1).nodes.size = t.nodes.size + 1 := by
    simp [Tree.link, setNode, addNode]
  refine ⟨by rw [hsize]; exact Nat.succ_pos _, fun {d es' k i} hd' hl => ?_⟩
  rw [hsize]
  rw [node_link hdir hd] at hd'
  split at hd'
  · cases hd'
    rw [lookup_putEntry] at hl
    split at hl
    · cases hl
      exact Nat.lt_succ_self _
    · exact Nat.lt_succ_of_lt (h.entry hd hl)
  split at hd'
  · exact Nat.lt_succ_of_lt (hn hd' hl)
  · exact Nat.lt_succ_of_lt (h.entry hd' hl)

theorem unlink (dir : Ino) (name : Bytes) : (t.unlink dir name).Closed := by
  by_cases hdir : dir < t.nodes.size
  · refine ⟨by simpa [Tree.unlink, setNode] using h.root, fun {d es k i} hd hl => ?_⟩
    have hsize : (t.unlink dir name).nodes.size = t.nodes.size := by simp [Tree.unlink, setNode]
    rw [hsize]
    rw [Tree.unlink, node_setNode hdir] at hd
    split at hd
    · rename_i hdd
      subst hdd
      cases hd
      rw [lookup_filter_key] at hl
      split at hl
      · cases hl
      · cases hnode : t.node dir with
        | dir es => exact h.entry hnode (by rwa [entries_of_dir hnode] at hl)
        | file | link | device => simp [entries, hnode] at hl
    · exact h.entry hd hl
  · rw [Tree.unlink, setNode, Array.setIfInBounds, dif_neg hdir]
    exact h

theorem of_entry {links : Nat} {here : Place} {segments : List Bytes} {dir : Place} {name : Bytes} {closed : Bool}
    {i : Option Ino} (hh : here.Within t.nodes.size)
    (he : t.entry links here segments = .ok (.named dir name closed i)) :
    dir.Within t.nodes.size ∧ ∃ es, t.node dir.ino = .dir es ∧ es.lookup name = i := by
  obtain ⟨before, es, hw, hd, hl, -⟩ := entry_named he
  exact ⟨walk_ends h hh hw, es, hd, hl⟩

end Closed

end Tree

namespace Machine

/-- The tree is closed and the working directory is in it. -/
structure Sane (m : Machine) : Prop where
  tree : m.tree.Closed
  cwd : m.cwd.Within m.tree.nodes.size

theorem sane_empty : ({} : Machine).Sane := by
  have hroot : ∀ d, ({} : Tree).node d = .dir [] := by
    intro d
    cases d <;> rfl
  refine ⟨⟨by decide, fun {d es name i} hd hl => ?_⟩, nofun⟩
  have := (hroot d).symm.trans hd
  cases this
  cases hl

/-- The tree has grown; the open files and their locks are as they were. -/
structure Keeps (m m' : Machine) : Prop where
  grows : m.tree.Grows m'.tree
  closed : m'.tree.Closed
  cwd : m'.cwd = m.cwd
  locks : m'.locks = m.locks
  handles : m'.handles = m.handles
  nextHandle : m'.nextHandle = m.nextHandle

variable {m m' m'' : Machine} {p : Path}

theorem Keeps.refl (h : m.Sane) : m.Keeps m := ⟨.refl _, h.tree, rfl, rfl, rfl, rfl⟩

theorem Keeps.trans (h : m.Keeps m') (h' : m'.Keeps m'') : m.Keeps m'' :=
  ⟨h.grows.trans h'.grows, h'.closed, h'.cwd.trans h.cwd, h'.locks.trans h.locks, h'.handles.trans h.handles,
    h'.nextHandle.trans h.nextHandle⟩

theorem Keeps.sane (h : m.Keeps m') (hm : m.Sane) : m'.Sane :=
  ⟨h.closed, by rw [h.cwd]; exact hm.cwd.mono h.grows.size⟩

theorem Keeps.nodeOf (h : m.Keeps m') (g : Handle) : m'.nodeOf g = m.nodeOf g := by
  rw [Machine.nodeOf, Machine.nodeOf, h.handles]

/-! ## Paths -/

theorem shortStart_within (hm : m.Sane) {here : Place} {segments : List Bytes}
    (h : m.shortStart p = .ok (here, segments)) : here.Within m.tree.nodes.size := by
  unfold shortStart start at h
  split at h
  · cases h
  split at h
  · cases h
  split at h
  · cases h
  · cases h
    split
    · exact fun e he => nomatch he
    · exact hm.cwd

theorem spot_eq_ok {arrival : Arrival} {spot : Spot} : m.spot arrival p = .ok spot ↔
    ∃ here segments, m.shortStart p = .ok (here, segments) ∧
      m.tree.walk arrival Tree.mostLinks here segments = .ok spot := by
  unfold Machine.spot
  rw [bind_eq_ok]
  constructor
  · rintro ⟨⟨here, segments⟩, hs, hw⟩
    exact ⟨here, segments, hs, mapError_eq_ok.mp hw⟩
  · rintro ⟨here, segments, hs, hw⟩
    exact ⟨(here, segments), hs, mapError_eq_ok.mpr hw⟩

theorem spot_ends (hm : m.Sane) {arrival : Arrival} {spot : Spot} (h : m.spot arrival p = .ok spot) :
    m.tree.Ends spot := by
  obtain ⟨here, segments, hs, hw⟩ := spot_eq_ok.mp h
  exact Tree.walk_ends hm.tree (shortStart_within hm hs) hw

theorem find_eq_ok {place : Place} : m.find p = .ok place ↔ m.spot .follow p = .ok (.found place) := by
  unfold Machine.find
  rw [bind_eq_ok]
  constructor
  · rintro ⟨spot, hs, ha⟩
    cases spot with
    | found =>
      cases ha
      exact hs
    | vacant => cases ha
  · exact fun hs => ⟨_, hs, rfl⟩

theorem Keeps.find (h : m.Keeps m') (hm : m.Sane) {place : Place} (hf : m.find p = .ok place) :
    m'.find p = .ok place := by
  obtain ⟨here, segments, hs, hw⟩ := spot_eq_ok.mp (find_eq_ok.mp hf)
  have hs' : m'.shortStart p = .ok (here, segments) := by rwa [shortStart, start, h.cwd]
  exact find_eq_ok.mpr (spot_eq_ok.mpr
    ⟨here, segments, hs', Tree.walk_grows hm.tree h.grows (shortStart_within hm hs) hw⟩)

theorem entry_eq_ok {e : Tree.Entry} (h : m.entry p = .ok e) :
    ∃ here segments, m.shortStart p = .ok (here, segments) ∧
      m.tree.entry Tree.mostLinks here segments = .ok e := by
  obtain ⟨⟨here, segments⟩, hs, he⟩ := bind_eq_ok.mp h
  exact ⟨here, segments, hs, mapError_eq_ok.mp he⟩

theorem entry_within (hm : m.Sane) {dir : Place} {name : Bytes} {closed : Bool} {i : Option Ino}
    (h : m.entry p = .ok (.named dir name closed i)) :
    dir.Within m.tree.nodes.size ∧ ∃ es, m.tree.node dir.ino = .dir es ∧ es.lookup name = i := by
  obtain ⟨here, segments, hs, he⟩ := entry_eq_ok h
  exact hm.tree.of_entry (shortStart_within hm hs) he

/-! ## Directories and files -/

theorem keeps_link (hm : m.Sane) {dir : Place} {name : Bytes} {es : List (Bytes × Ino)}
    (hdir : dir.Within m.tree.nodes.size) (hd : m.tree.node dir.ino = .dir es) (hn : es.lookup name = none) {n : Node}
    (hc : ∀ {es k i}, n = .dir es → List.lookup k es = some i → i < m.tree.nodes.size)
    (ht : m'.tree = ((m.tree.addNode n).2).link dir.ino name (m.tree.addNode n).1) (hcwd : m'.cwd = m.cwd)
    (hl : m'.locks = m.locks) (hh : m'.handles = m.handles) (hx : m'.nextHandle = m.nextHandle) : m.Keeps m' := by
  have hlt := hdir.ino_lt hm.tree.root
  refine ⟨?_, ?_, hcwd, hl, hh, hx⟩ <;> rw [ht]
  · exact Tree.grows_link hlt hd hn n
  · exact hm.tree.link hlt hd name hc

theorem keeps_createFile (hm : m.Sane) {dir : Place} {name : Bytes} {closed : Bool}
    (hv : m.tree.Ends (.vacant dir name closed)) (content : Bytes) (mode : Nat) :
    m.Keeps (m.createFile dir name content mode).2 := by
  obtain ⟨hdir, es, hd, hn⟩ := hv
  unfold createFile
  dsimp only
  split <;> exact keeps_link hm hdir hd hn (fun h => by cases h) rfl rfl rfl rfl rfl

theorem keeps_makeDir (hm : m.Sane) (h : m.makeDir p = .ok m') : m.Keeps m' := by
  obtain ⟨e, he, h⟩ := bind_eq_ok.mp h
  split at h
  · cases h
    obtain ⟨hdir, es, hd, hn⟩ := entry_within hm he
    exact keeps_link hm hdir hd hn (fun h hl => by cases h; cases hl) rfl rfl rfl rfl rfl
  · cases h

section
variable {P : Machine → Prop} (next : ∀ {m m' : Machine} {p : Path}, P m → m.makeDir p = .ok m' → P m')
include next

theorem ensureDir_induction (hm : P m) (p : Path) : P (m.ensureDir p).1 := by
  unfold ensureDir
  split
  · rename_i h
    exact next hm h
  · exact hm

theorem makeDirs_induction (fuel : Nat) : ∀ {m : Machine} (_ : P m) (p : Path), P (makeDirs fuel m p).1 := by
  induction fuel with
  | zero => exact fun hm _ => hm
  | succ fuel ih =>
    intro m hm p
    unfold makeDirs
    split
    · exact hm
    split
    · rename_i h
      exact next hm h
    split
    · split
      · exact hm
      · rename_i above _
        have hk := ih hm above
        split
        · rename_i hr
          rw [hr] at hk
          exact ensureDir_induction next hk p
        · rename_i hr
          rw [hr] at hk
          exact hk
    · exact hm

/-- What holds of a machine and is kept whenever a directory is made holds after all directories are made. -/
theorem makeAllDirs_induction (hm : P m) (p : Path) : P (m.makeAllDirs p).1 := makeDirs_induction next _ hm p

end

theorem keeps_makeAllDirs (hm : m.Sane) (p : Path) : m.Keeps (m.makeAllDirs p).1 :=
  makeAllDirs_induction (fun hk h => hk.trans (keeps_makeDir (hk.sane hm) h)) (.refl hm) p

theorem spot_of_openSpot {spot : Spot} (h : m.openSpot p = .ok spot) : m.spot .make p = .ok spot := by
  obtain ⟨spot', hw, hs⟩ := bind_eq_ok.mp h
  split at hs
  · split at hs
    · cases hs
    · cases hs
    · exact Except.ok.inj hs ▸ hw
  · exact Except.ok.inj hs ▸ hw

theorem openSpot_ends (hm : m.Sane) {spot : Spot} (h : m.openSpot p = .ok spot) : m.tree.Ends spot :=
  spot_ends hm (spot_of_openSpot h)

theorem openFile_eq_ok (hm : m.Sane) {h : Handle} (ho : m.openFile p = .ok (h, m')) :
    h = ⟨m.nextHandle⟩ ∧ ∃ i m₁, m.Keeps m₁ ∧
      m' = { m₁ with handles := (m.nextHandle, i) :: m₁.handles, nextHandle := m.nextHandle + 1 } := by
  obtain ⟨spot, hs, ho⟩ := bind_eq_ok.mp ho
  cases spot with
  | found place =>
    cases ho
    exact ⟨rfl, place.ino, m, .refl hm, rfl⟩
  | vacant dir name closed =>
    have hk := keeps_createFile hm (openSpot_ends hm hs) [] 0o644
    generalize hc : m.createFile dir name [] 0o644 = created at hk
    obtain ⟨i, m₁⟩ := created
    simp only [hc, pure, Except.pure] at ho
    cases ho
    rw [← hk.nextHandle]
    exact ⟨rfl, i, m₁, hk, rfl⟩

theorem keeps_writeHandle (hm : m.Sane) {h : Handle} {content : Bytes} (hw : m.writeHandle h content = .ok m') :
    m.Keeps m' := by
  unfold writeHandle at hw
  split at hw
  · rename_i old mode hf
    cases hw
    exact ⟨Tree.grows_setFile hf _, hm.tree.setFile _ _ mode, rfl, rfl, rfl, rfl⟩
  · cases hw

theorem removeFile_eq_ok (hr : m.removeFile p = .ok m') :
    ∃ dir name i, m.entry p = .ok (.named dir name false (some i)) ∧ m' = m.removeEntry dir name := by
  obtain ⟨e, he, hr⟩ := bind_eq_ok.mp hr
  split at hr
  · cases hr
  · cases hr
  · rename_i dir name closed i
    split at hr
    · cases hr
    split at hr
    · cases hr
    · rename_i hclosed
      cases hr
      rw [Bool.not_eq_true] at hclosed
      subst hclosed
      exact ⟨dir, name, i, he, rfl⟩

theorem sane_removeEntry (hm : m.Sane) (dir : Place) (name : Bytes) : (m.removeEntry dir name).Sane := by
  refine ⟨hm.tree.unlink dir.ino name, ?_⟩
  have hsize : (m.tree.unlink dir.ino name).nodes.size = m.tree.nodes.size := by
    simp [Tree.unlink, Tree.setNode]
  show m.cwd.Within (m.tree.unlink dir.ino name).nodes.size
  rw [hsize]
  exact hm.cwd

/-- The path of a file that was removed leads nowhere. -/
theorem find_removed (hm : m.Sane) (hr : m.removeFile p = .ok m') (place : Place) : m'.find p ≠ .ok place := by
  intro hf
  obtain ⟨dir, name, i, he, rfl⟩ := removeFile_eq_ok hr
  obtain ⟨here, segments, hs, he⟩ := entry_eq_ok he
  obtain ⟨here', segments', hs', hw'⟩ := spot_eq_ok.mp (find_eq_ok.mp hf)
  obtain ⟨rfl, rfl⟩ : here = here' ∧ segments = segments' := by
    have : m.shortStart p = .ok (here', segments') := hs'
    rw [hs] at this
    cases this
    exact ⟨rfl, rfl⟩
  obtain ⟨before, es, hw, hd, -, hname, hseg⟩ := Tree.entry_named he
  have hh := shortStart_within hm hs
  have hdir := (Tree.walk_ends hm.tree hh hw).ino_lt hm.tree.root
  have hclosed := (sane_removeEntry hm dir name).tree
  have hgrows := Tree.unlink_grows hd hdir name
  have hh' : here.Within (m.removeEntry dir name).tree.nodes.size := by
    show here.Within (m.tree.unlink dir.ino name).nodes.size
    simpa [Tree.unlink, Tree.setNode] using hh
  -- the directory that the walk goes by is the one that the name was taken out of
  rw [hseg rfl] at hw'
  obtain ⟨dir', es', j, hb, hd', hl⟩ := Tree.walk_last hname hw'
  have hback := Tree.walk_grows hclosed hgrows hh' hb
  obtain rfl : dir = dir' := by
    rw [hw] at hback
    cases hback
    rfl
  have hgone : (m.removeEntry dir name).tree.node dir.ino = .dir (es.filter (·.1 ≠ name)) :=
    (Tree.node_unlink hd hdir name dir.ino).trans (if_pos rfl)
  rw [hgone] at hd'
  cases hd'
  rw [lookup_filter_key, if_pos rfl] at hl
  cases hl

end Machine

end Retrace
