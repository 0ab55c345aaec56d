import Retrace.Machine.Handles
import Retrace.Proofs.Machine.Descent

/-!
# Names in a directory

What the calls on the path of a name in a directory find is what the directory has under the name. Files come and go in
the directory without any effect on the directory itself.
-/

namespace Retrace

namespace Tree

variable {t : Tree} {d : Ino} {name : Bytes} {es : List (Bytes × Ino)} {i : Ino} {content : Bytes} {mode : Nat}

theorem walkVia_unlink (hd : t.node d = .dir es) (hdlt : d < t.nodes.size) (hl : es.lookup name = some i)
    (hi : t.node i = .file content mode) {follow follow' : Follow} {place : Place}
    (hp : ∃ ds, t.node place.ino = .dir ds)
    (hf : ∀ f, follow = some f → ∃ f', follow' = some f' ∧ ∀ {here segments},
      f here segments = .ok (.found place) → f' here segments = .ok (.found place)) :
    ∀ {segments : List Bytes} {here : Place}, t.walkVia .follow follow here segments = .ok (.found place) →
      (t.unlink d name).walkVia .follow follow' here segments = .ok (.found place) := by
  -- the only node that is not as it was is the directory
  have hnode : ∀ j, (∀ ds, t.node j ≠ .dir ds) → (t.unlink d name).node j = t.node j := by
    intro j hj
    rw [node_unlink hd hdlt, if_neg]
    rintro rfl
    exact hj es hd
  intro segments
  induction segments with
  | nil => exact id
  | cons s rest ih =>
    intro here h
    obtain ⟨ds, hds, hleg⟩ := walkVia_cons.mp h
    -- what is looked up in the directory is the removed name only if the walk ends there
    have hkept : ∀ {j}, ds.lookup s = some j → (∀ c m, t.node j ≠ .file c m) → ∃ ds',
        (t.unlink d name).node here.ino = .dir ds' ∧ ds'.lookup s = some j := by
      intro j hj hnofile
      rw [node_unlink hd hdlt]
      split
      · rename_i hhere
        rw [← hhere, hd] at hds
        cases hds
        refine ⟨_, rfl, ?_⟩
        rw [lookup_filter_key, if_neg]
        · exact hj
        · rintro rfl
          rw [hl] at hj
          cases hj
          exact hnofile _ _ hi
      · exact ⟨ds, hds, hj⟩
    have hdir : ∃ ds', (t.unlink d name).node here.ino = .dir ds' := by
      rw [node_unlink hd hdlt]
      split
      · exact ⟨_, rfl⟩
      · exact ⟨ds, hds⟩
    cases hleg with
    | idle hs h =>
      obtain ⟨ds', hds'⟩ := hdir
      exact walkVia_cons.mpr ⟨ds', hds', .idle hs (ih h)⟩
    | up hs h =>
      obtain ⟨ds', hds'⟩ := hdir
      exact walkVia_cons.mpr ⟨ds', hds', .up hs (ih h)⟩
    | vacant _ _ _ h => cases h
    | kept _ _ _ hk _ => cases hk.2
    | link hs hj hlink hk hfollow ht h =>
      obtain ⟨f', hfollow', hff'⟩ := hf _ hfollow
      obtain ⟨ds', hds', hj'⟩ := hkept hj (by simp [hlink])
      refine walkVia_cons.mpr ⟨ds', hds', .link hs hj' ?_ hk hfollow' ht (hff' h)⟩
      rw [hnode _ (by simp [hlink])]
      exact hlink
    | @into j hs hj hnolink h =>
      have hnofile : ∀ c m, t.node j ≠ .file c m := by
        intro c m hfile
        have hdir : ∃ ds, t.node j = .dir ds := by
          cases rest with
          | nil =>
            cases h
            exact hp
          | cons s rest =>
            obtain ⟨ds, hds, -⟩ := walkVia_cons.mp h
            exact ⟨ds, hds⟩
        obtain ⟨ds, hds⟩ := hdir
        rw [hfile] at hds
        cases hds
      obtain ⟨ds', hds', hj'⟩ := hkept hj hnofile
      refine walkVia_cons.mpr ⟨ds', hds', .into hs hj' (fun target => ?_) (ih h)⟩
      rw [node_unlink hd hdlt]
      split
      · exact nofun
      · exact hnolink target

/-- A directory is found where it was after a file has been taken out of a directory. -/
theorem walk_unlink (hd : t.node d = .dir es) (hdlt : d < t.nodes.size) (hl : es.lookup name = some i)
    (hi : t.node i = .file content mode) {place : Place} (hp : ∃ ds, t.node place.ino = .dir ds) :
    ∀ {links : Nat} {here : Place} {segments : List Bytes}, t.walk .follow links here segments = .ok (.found place) →
      (t.unlink d name).walk .follow links here segments = .ok (.found place) := by
  intro links
  induction links with
  | zero =>
    refine walkVia_unlink hd hdlt hl hi hp ?_
    rintro f ⟨⟩
  | succ links ih =>
    refine walkVia_unlink hd hdlt hl hi hp ?_
    rintro f ⟨rfl⟩
    exact ⟨_, rfl, ih⟩

/-- A path with a name at its end is about the name in the directory that the segments before it lead to. -/
theorem entry_of_walk (hname : name ≠ [] ∧ name ≠ Path.dot ∧ name ≠ Path.dotdot) (hshort : name.length ≤ longestName)
    {links : Nat} {here dir : Place} {before : List Bytes} (hw : t.walk .follow links here before = .ok (.found dir))
    (hd : t.node dir.ino = .dir es) :
    t.entry links here (before ++ [name]) = .ok (.named dir name false (es.lookup name)) := by
  have hdots : ¬(name = Path.dot ∨ name = Path.dotdot) := by simp [hname]
  have hsome : (name == []) = false := by simpa using hname.1
  simp only [entry, List.reverse_append, List.reverse_singleton, List.singleton_append, List.dropWhile_cons,
    List.takeWhile_cons, hsome, Bool.false_eq_true, if_false, List.reverse_reverse, hw, bind, Except.bind, hd,
    if_neg hdots, if_neg (Nat.not_lt.mpr hshort)]
  rfl

end Tree

namespace Machine

variable {m m' : Machine} {dir : Path} {here : Place} {es : List (Bytes × Ino)} {name : String} {i : Ino}

/-- A path leads to a directory with these entries. -/
structure Lists (m : Machine) (dir : Path) (here : Place) (es : List (Bytes × Ino)) : Prop where
  find : m.find dir = .ok here
  node : m.tree.node here.ino = .dir es

/-- A name that can stand in a directory, at a path that is not too long. -/
structure Fits (dir : Path) (name : String) : Prop where
  slash : Path.slash ∉ Bytes.ofString name
  nul : 0 ∉ Bytes.ofString name
  named : Bytes.ofString name ≠ [] ∧ Bytes.ofString name ≠ Path.dot ∧ Bytes.ofString name ≠ Path.dotdot
  short : (Bytes.ofString name).length ≤ Tree.longestName
  path : (dir.child name).raw.length ≤ longestPath

theorem lists_of_isDir (h : m.isDir dir = true) : ∃ here es, m.Lists dir here es := by
  obtain ⟨here, es, hf, hd⟩ := find_of_isDir h
  exact ⟨here, es, hf, hd⟩

theorem Fits.lookedUp (hn : Fits dir name) (arrival : Arrival) : Tree.LookedUp arrival (Bytes.ofString name) [] :=
  Tree.lookedUp_last hn.named hn.short arrival

theorem shortStart_child (hz : 0 ∉ dir.raw) (hdir : dir.raw ≠ []) (hn : Fits dir name) :
    m.shortStart (dir.child name) = .ok (if dir.isAbsolute then [] else m.cwd, (dir.child name).segments) := by
  obtain ⟨front, hraw, hfront⟩ := Path.raw_child hdir hn.slash
  have hfacts : 0 ∉ (dir.child name).raw ∧ (dir.child name).isAbsolute = dir.isAbsolute := by
    have hnul := hn.nul
    rcases hfront with hfront | hfront
    · rw [hfront] at hz hdir
      obtain ⟨b, bs, rfl⟩ := List.exists_cons_of_ne_nil hdir
      refine ⟨?_, by simp [Path.isAbsolute, hraw, hfront]⟩
      simp_all [Path.slash]
    · rw [hfront] at hz hdir
      refine ⟨?_, ?_⟩
      · simp_all [Path.slash]
      · cases front <;> simp [Path.isAbsolute, hraw, hfront]
  obtain ⟨hnul, habs⟩ := hfacts
  exact shortStart_eq_ok.mpr ⟨⟨hnul, by simp [hraw], hn.path⟩, by rw [habs], rfl⟩

namespace Lists

variable (h : m.Lists dir here es)
include h

/-- The path of a name in a directory is walked along to the directory. -/
theorem start (hn : Fits dir name) : ∃ start before,
    m.shortStart (dir.child name) = .ok (start, before ++ [Bytes.ofString name]) ∧
      m.tree.walk .follow Tree.mostLinks start before = .ok (.found here) := by
  obtain ⟨start, segments, hs, hw⟩ := spot_eq_ok.mp (find_eq_ok.mp h.find)
  obtain ⟨⟨hz, hne, -⟩, rfl, rfl⟩ := shortStart_eq_ok.mp hs
  obtain ⟨before, hseg, hdir⟩ := Path.segments_child hne hn.slash
  have hstart := (shortStart_child hz hne hn : m.shortStart (dir.child name) = _)
  rw [hseg] at hstart
  refine ⟨_, before, hstart, ?_⟩
  rcases hdir with hdir | hdir
  · rwa [hdir] at hw
  · rw [hdir] at hw
    obtain ⟨mid, links, hmid, hr⟩ := Tree.walk_split hw
    obtain rfl := Tree.walk_of_idle (by simp) hr
    exact hmid

/-- A path ends at what a directory has under its last name. -/
theorem spot_child (hn : Fits dir name) (hl : es.lookup (Bytes.ofString name) = some i)
    (hi : ∀ target, m.tree.node i ≠ .link target) (arrival : Arrival) :
    m.spot arrival (dir.child name) = .ok (.found ((Bytes.ofString name, i) :: here)) := by
  obtain ⟨start, before, hs, hw⟩ := h.start hn
  refine spot_eq_ok.mpr ⟨start, _, hs, Tree.walk_append (List.cons_ne_nil _ _) (fun _ => ?_) (fun follow => ?_) hw⟩
  · exact ⟨_, List.mem_cons_self .., hn.named.1⟩
  · exact Tree.walkVia_cons.mpr ⟨es, h.node, .into (hn.lookedUp arrival) hl hi rfl⟩

theorem spot_vacant (hn : Fits dir name) (hl : es.lookup (Bytes.ofString name) = none) (arrival : Arrival) :
    m.spot arrival (dir.child name) = .ok (.vacant here (Bytes.ofString name) false) := by
  obtain ⟨start, before, hs, hw⟩ := h.start hn
  refine spot_eq_ok.mpr ⟨start, _, hs, Tree.walk_append (List.cons_ne_nil _ _) (fun _ => ?_) (fun follow => ?_) hw⟩
  · exact ⟨_, List.mem_cons_self .., hn.named.1⟩
  · exact Tree.walkVia_cons.mpr ⟨es, h.node, .vacant (hn.lookedUp arrival) hl rfl rfl⟩

theorem findHere_child (hn : Fits dir name) (hl : es.lookup (Bytes.ofString name) = some i) :
    m.findHere (dir.child name) = .ok ((Bytes.ofString name, i) :: here) := by
  have hspot : m.spot .keep (dir.child name) = .ok (.found ((Bytes.ofString name, i) :: here)) := by
    cases hi : m.tree.node i with
    | link target =>
      obtain ⟨start, before, hs, hw⟩ := h.start hn
      refine spot_eq_ok.mpr ⟨start, _, hs, Tree.walk_append (List.cons_ne_nil _ _)
        (fun hmake : Arrival.keep = .make => nomatch hmake) (fun follow => ?_) hw⟩
      exact Tree.walkVia_cons.mpr ⟨es, h.node, .kept (hn.lookedUp _) hl hi ⟨rfl, rfl⟩ rfl⟩
    | file | dir | device => exact h.spot_child hn hl (by simp [hi]) .keep
  rw [findHere, hspot]
  rfl

theorem lookup_of_findHere (hn : Fits dir name) {place : Place} (hf : m.findHere (dir.child name) = .ok place) :
    ∃ i, es.lookup (Bytes.ofString name) = some i ∧ place = (Bytes.ofString name, i) :: here := by
  cases hl : es.lookup (Bytes.ofString name) with
  | none =>
    rw [findHere, h.spot_vacant hn hl .keep] at hf
    cases hf
  | some i =>
    rw [h.findHere_child hn hl] at hf
    exact ⟨i, rfl, (Except.ok.inj hf).symm⟩

theorem entry_child (hn : Fits dir name) :
    m.entry (dir.child name) = .ok (.named here (Bytes.ofString name) false (es.lookup (Bytes.ofString name))) := by
  obtain ⟨start, before, hs, hw⟩ := h.start hn
  have hentry := Tree.entry_of_walk hn.named hn.short hw h.node
  unfold Machine.entry
  rw [hs]
  simp only [bind, Except.bind, hentry, mapError_ok]

end Lists

theorem Lists.isDir (h : m.Lists dir here es) : m.isDir dir = true := by
  rw [Machine.isDir, node?, h.find]
  simp [Except.toOption, h.node]

/-- What is found under a name in a directory is found by way of the directory. -/
theorem isDir_of_child {place : Place} (hdir : dir.raw ≠ []) (hn : Fits dir name)
    (hf : m.find (dir.child name) = .ok place) : m.isDir dir = true := by
  obtain ⟨start, segments, hs, hw⟩ := spot_eq_ok.mp (find_eq_ok.mp hf)
  obtain ⟨⟨hz, -, -⟩, rfl, rfl⟩ := shortStart_eq_ok.mp hs
  obtain ⟨front, hraw, hfront⟩ := Path.raw_child hdir hn.slash
  obtain ⟨before, hseg, hbefore⟩ := Path.segments_child hdir hn.slash
  have hnul : 0 ∉ dir.raw := by
    rw [hraw] at hz
    rcases hfront with hfront | hfront <;> rw [hfront] <;> simp_all [Path.slash]
  have hstart := (shortStart_child hnul hdir hn : m.shortStart (dir.child name) = _)
  rw [hs] at hstart
  obtain ⟨hsame, -⟩ := Prod.mk.inj (Except.ok.inj hstart)
  rw [hseg, hsame] at hw
  obtain ⟨mid, links, hmid, hr⟩ := Tree.walk_split hw
  obtain ⟨-, es, hd, -⟩ := Tree.walk_dir hr
  have hwalk : m.tree.walk .follow Tree.mostLinks (if dir.isAbsolute then [] else m.cwd) dir.segments =
      .ok (.found mid) := by
    rcases hbefore with hbefore | hbefore
    · rwa [hbefore]
    · rw [hbefore]
      refine Tree.walk_append (List.cons_ne_nil _ _) (fun hmake : Arrival.follow = .make => nomatch hmake)
        (fun follow => ?_) hmid
      exact Tree.walkVia_cons.mpr ⟨es, hd, .idle (Or.inl rfl) rfl⟩
  have hshort : dir.raw.length ≤ longestPath := by
    have hpath := hn.path
    rw [hraw, List.length_append, List.length_cons] at hpath
    rcases hfront with hfront | hfront <;> rw [hfront]
    · omega
    · rw [List.length_append, List.length_singleton]
      omega
  have hfind : m.find dir = .ok mid := find_eq_ok.mpr (spot_eq_ok.mpr
    ⟨_, _, shortStart_eq_ok.mpr ⟨⟨hnul, hdir, hshort⟩, rfl, rfl⟩, hwalk⟩)
  exact Lists.isDir ⟨hfind, hd⟩

/-! ## Files come and go -/

namespace Lists

variable (hm : m.Sane) (h : m.Lists dir here es)
include hm h

theorem ino_lt : here.ino < m.tree.nodes.size := (spot_ends hm (find_eq_ok.mp h.find)).ino_lt hm.tree.root

theorem lookup_lt {n : Bytes} (hl : es.lookup n = some i) : i < m.tree.nodes.size := hm.tree.entry h.node hl

theorem createFile {n : Bytes} (hl : es.lookup n = none) (content : Bytes) (mode : Nat) :
    (m.createFile here n content mode).2.Lists dir here (Tree.putEntry n m.tree.nodes.size es) := by
  have hends : m.tree.Ends (.vacant here n false) := ⟨spot_ends hm (find_eq_ok.mp h.find), es, h.node, hl⟩
  refine ⟨(keeps_createFile hm hends content mode).find hm h.find, ?_⟩
  rw [createFile_tree]
  exact (Tree.node_link (h.ino_lt hm) h.node n (.file content mode) here.ino).trans (if_pos rfl)

theorem removeEntry {n : Bytes} {content : Bytes} {mode : Nat} (hl : es.lookup n = some i)
    (hi : m.tree.node i = .file content mode) :
    (m.removeEntry here n).Lists dir here (es.filter (·.1 ≠ n)) := by
  obtain ⟨start, segments, hs, hw⟩ := spot_eq_ok.mp (find_eq_ok.mp h.find)
  refine ⟨find_eq_ok.mpr (spot_eq_ok.mpr ⟨start, segments, hs, ?_⟩), ?_⟩
  · exact Tree.walk_unlink h.node (h.ino_lt hm) hl hi ⟨es, h.node⟩ hw
  · exact (Tree.node_unlink h.node (h.ino_lt hm) n here.ino).trans (if_pos rfl)

end Lists

/-- The machine with a new handle for a node. -/
def opened (m : Machine) (i : Ino) : Machine :=
  { m with handles := (m.nextHandle, i) :: m.handles, nextHandle := m.nextHandle + 1 }

theorem nodeOf_opened (m : Machine) (i : Ino) : (m.opened i).nodeOf ⟨m.nextHandle⟩ = i := by
  simp [nodeOf, opened]

theorem nodeOf_opened_of_lt (i : Ino) {h : Handle} (hh : h.id < m.nextHandle) : (m.opened i).nodeOf h = m.nodeOf h := by
  rw [nodeOf, nodeOf, opened, lookup_cons_if, if_neg (Nat.ne_of_lt hh)]

theorem nodeOf_close {g h : Handle} (hne : g.id ≠ h.id) : (m.close h).nodeOf g = m.nodeOf g := by
  rw [nodeOf, nodeOf, close, lookup_filter_key, if_neg hne]

theorem leadsTo_of_find {p : Path} {place : Place} {h : Handle} (hf : m.find p = .ok place)
    (hp : place.ino = m.nodeOf h) : m.leadsTo p h = .ok true := by
  simp [leadsTo, hf, hp]

theorem readHandle_of_file {h : Handle} {content : Bytes} {mode : Nat}
    (hf : m.tree.node (m.nodeOf h) = .file content mode) (position : Nat) : m.readHandle h position = content := by
  simp [readHandle, hf]

theorem writeHandle_of_file {h : Handle} {old : Bytes} {mode : Nat} (hf : m.tree.node (m.nodeOf h) = .file old mode)
    (content : Bytes) (position : Nat) : m.writeHandle h content position =
      .ok { m with tree := m.tree.setNode (m.nodeOf h) (.file content mode) } := by
  simp [writeHandle, hf]

/-- What is written into an open file is all that is read from it. -/
theorem readHandle_of_writeHandle {h : Handle} {old : Bytes} {mode : Nat} (hf : m.tree.node (m.nodeOf h) = .file old mode)
    (content : Bytes) (position : Nat) : ∃ m', m.writeHandle h content position = .ok m' ∧
      ∀ g, m'.nodeOf g = m.nodeOf h → ∀ position', m'.readHandle g position' = content := by
  refine ⟨_, writeHandle_of_file hf content position, ?_⟩
  intro g hg position'
  apply readHandle_of_file
  rw [hg, Tree.node_setNode (Tree.lt_size_of_file hf), if_pos rfl]

namespace Lists

variable (h : m.Lists dir here es) (hn : Fits dir name)
include h hn

section
variable (hl : es.lookup (Bytes.ofString name) = some i) {content : Bytes} {mode : Nat}
  (hi : m.tree.node i = .file content mode)
include hl hi

theorem find_child : m.find (dir.child name) = .ok ((Bytes.ofString name, i) :: here) :=
  find_eq_ok.mpr (h.spot_child hn hl (by simp [hi]) .follow)

theorem openFile_child : m.openFile (dir.child name) = .ok (⟨m.nextHandle⟩, m.opened i) := by
  have hspot : m.openSpot (dir.child name) = .ok (.found ((Bytes.ofString name, i) :: here)) := by
    unfold openSpot
    simp only [h.spot_child hn hl (by simp [hi]) .make, bind, Except.bind]
    rw [show Place.ino ((Bytes.ofString name, i) :: here) = i from rfl, hi]
  unfold openFile
  simp only [hspot, bind, Except.bind, pure, Except.pure]
  rfl

theorem removeFile_child : m.removeFile (dir.child name) = .ok (m.removeEntry here (Bytes.ofString name)) := by
  unfold removeFile
  simp [h.entry_child hn, hl, bind, Except.bind, hi, Node.isDir]

end

section
variable (hl : es.lookup (Bytes.ofString name) = none)
include hl

theorem isThere_vacant : m.isThere (dir.child name) = false := by
  unfold isThere Machine.find
  rw [h.spot_vacant hn hl .follow]
  rfl

theorem openFile_vacant : m.openFile (dir.child name) = .ok (⟨m.nextHandle⟩,
    ((m.createFile here (Bytes.ofString name) [] 0o644).2).opened m.tree.nodes.size) := by
  have hspot : m.openSpot (dir.child name) = .ok (.vacant here (Bytes.ofString name) false) := by
    unfold openSpot
    simp only [h.spot_vacant hn hl .make, bind, Except.bind]
  unfold openFile
  simp only [hspot, bind, Except.bind, pure, Except.pure]
  rfl

theorem removeFile_vacant : m.removeFile (dir.child name) = .error (.os .ENOENT) := by
  unfold removeFile
  simp [h.entry_child hn, hl, bind, Except.bind]

end

end Lists

end Machine

end Retrace
