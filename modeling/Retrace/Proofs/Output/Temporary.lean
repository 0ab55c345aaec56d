import Retrace.Output.Sink
import Retrace.Proofs.Machine.Links
import Retrace.Proofs.Machine.NewEntry

/-!
# The new file beside the target

The new file stands under a name that nothing uses. It is written there, and then removed or renamed over the target.
Nobody who looks at the target sees it before.
-/

namespace Retrace.Output

variable {B m m' m'' : Machine} {target dir : Path} {here : Place} {es : List (Bytes × Ino)} {name : String}
  {bytes : Bytes}

/-- A name that is free in a directory and that nothing on the way to the target uses. -/
structure Slot (B : Machine) (target dir : Path) (here : Place) (es : List (Bytes × Ino)) (name : String) : Prop where
  lists : B.Lists dir here es
  fits : Machine.Fits dir name
  free : es.lookup (Bytes.ofString name) = none
  unlinked : B.tree.Unlinked (Bytes.ofString name)
  away : Bytes.ofString name ∉ target.segments

/-- The new file has these bytes and stands under the name; the machine is as it was otherwise. -/
structure Holds (B : Machine) (here : Place) (name : Bytes) (bytes : Bytes) (m : Machine) : Prop where
  tree : m.tree = B.tree.place here.ino name (.file bytes 0o600)
  cwd : m.cwd = B.cwd

/-- The new file stands under no name any more. -/
structure Dropped (B : Machine) (bytes : Bytes) (m : Machine) : Prop where
  tree : m.tree = (B.tree.addNode (.file bytes 0o600)).2
  cwd : m.cwd = B.cwd

theorem unlinked_of_isUnlinked {t : Tree} {n : Bytes} (h : isUnlinked t n = true) : t.Unlinked n := by
  intro i text hi hmem
  have hlt : i < t.nodes.size := by
    apply Nat.lt_of_not_le
    intro hle
    simp [Tree.node, Array.getD_eq_getD_getElem?, Array.getElem?_eq_none hle] at hi
  have hin : Node.link text ∈ t.nodes.toList := by
    rw [← hi, Tree.node, Array.getD_eq_getD_getElem?, Array.getElem?_eq_getElem hlt]
    exact Array.getElem_mem_toList hlt
  have hno := List.all_eq_true.mp h _ hin
  simp [hmem] at hno

theorem length_numberedName_zero : (numberedName 0).length = 10 := by decide

theorem length_join (dir : Path) {n n' : Bytes} (hn : Path.slash ∉ n) (hn' : Path.slash ∉ n')
    (hl : n.length = n'.length) : (dir.join ⟨n⟩).raw.length = (dir.join ⟨n'⟩).raw.length := by
  have hrel : ∀ {k : Bytes}, Path.slash ∉ k → (Path.mk k).isAbsolute = false := by
    intro k hk
    cases k with
    | nil => rfl
    | cons b bs =>
      have hb : b ≠ Path.slash := fun hb => hk (hb ▸ List.mem_cons_self ..)
      simpa [Path.isAbsolute] using hb
  unfold Path.join
  rw [hrel hn, hrel hn']
  simp only [Bool.false_eq_true, if_false]
  split <;> simp [hl]

namespace Slot

variable (hs : Slot B target dir here es name) (hm : B.Proper)
include hs hm

theorem ino_lt : here.ino < B.tree.nodes.size := hs.lists.ino_lt hm.toSane

omit hm in
theorem spares {i : Ino} {ds : List (Bytes × Ino)} (hl : es.lookup (Bytes.ofString name) = some i) :
    B.tree.node i ≠ .dir ds := by
  rw [hs.free] at hl
  cases hl

theorem gains (h : Holds B here (Bytes.ofString name) bytes m) :
    B.tree.Gains m.tree here.ino (Bytes.ofString name) := by
  rw [h.tree]
  exact Tree.gains_place (hs.ino_lt hm) hs.lists.node hs.spares ..

omit hm in
theorem gains_dropped (h : Dropped B bytes m) : B.tree.Gains m.tree here.ino (Bytes.ofString name) := by
  rw [h.tree]
  exact Tree.gains_addNode hs.lists.node hs.spares ..

/-- The directory of the new file has the name and is found where it was. -/
theorem lists_of_holds (h : Holds B here (Bytes.ofString name) bytes m) :
    m.Lists dir here (Tree.putEntry (Bytes.ofString name) B.tree.nodes.size es) := by
  obtain ⟨hf, hn⟩ := hs.lists.createFile hm.toSane hs.free bytes 0o600
  rw [Machine.createFile_tree] at hn
  refine ⟨?_, by rw [h.tree]; exact hn⟩
  rw [← hf]
  refine Machine.find_congr ?_ ?_
  · rw [h.tree, Machine.createFile_tree]
    rfl
  · rw [h.cwd]
    unfold Machine.createFile
    dsimp only
    split <;> rfl

theorem node_new (h : Holds B here (Bytes.ofString name) bytes m) :
    m.tree.node B.tree.nodes.size = .file bytes 0o600 := by
  rw [h.tree, Tree.node_place (hs.ino_lt hm) hs.lists.node, if_neg (Nat.ne_of_lt (hs.ino_lt hm)), if_pos rfl]

theorem setNode (h : Holds B here (Bytes.ofString name) bytes m) (bytes' : Bytes) :
    m.tree.setNode B.tree.nodes.size (.file bytes' 0o600) =
      B.tree.place here.ino (Bytes.ofString name) (.file bytes' 0o600) := by
  rw [h.tree, Tree.setNode_place (hs.ino_lt hm) hs.lists.node]

theorem append (h : Holds B here (Bytes.ofString name) bytes m) (chunk : Bytes) :
    ∃ m', m.append false (dir.child name) chunk = .ok m' ∧ Holds B here (Bytes.ofString name) (bytes ++ chunk) m' := by
  have hlists := hs.lists_of_holds hm h
  have hnew := hs.node_new hm h
  have hspot : m.openSpot (dir.child name) = .ok (.found ((Bytes.ofString name, B.tree.nodes.size) :: here)) := by
    unfold Machine.openSpot
    rw [hlists.spot_child hs.fits (Tree.lookup_putEntry_self ..) (by simp [hnew])]
    simp only [bind, Except.bind, Place.ino, hnew]
  unfold Machine.append
  rw [hspot]
  simp only [bind, Except.bind]
  by_cases hc : chunk = []
  · exact ⟨m, if_pos hc, by simpa [hc] using h⟩
  · rw [if_neg hc, Machine.setContent, Place.ino, hnew]
    refine ⟨_, rfl, ?_, h.cwd⟩
    exact hs.setNode hm h _

theorem removeFile (h : Holds B here (Bytes.ofString name) bytes m) :
    ∃ m', m.removeFile (dir.child name) = .ok m' ∧ Dropped B bytes m' := by
  have hlists := hs.lists_of_holds hm h
  refine ⟨_, hlists.removeFile_child hs.fits (Tree.lookup_putEntry_self ..) (hs.node_new hm h), ?_, h.cwd⟩
  show m.tree.unlink here.ino (Bytes.ofString name) = _
  rw [h.tree, Tree.unlink_place (hs.ino_lt hm) hs.lists.node hs.free]

/-- As long as the file stands under the name, the target is what it was. -/
theorem read (h : Holds B here (Bytes.ofString name) bytes m) : m.read target = B.read target :=
  Machine.read_unused (hs.gains hm h) h.cwd hm.toSane hs.unlinked hs.away

end Slot

theorem moveEntry_tree (m : Machine) (dir : Place) (n : Bytes) (i : Ino) (dest : Place) (newName : Bytes) :
    (m.moveEntry dir n i dest newName).tree = (m.tree.unlink dir.ino n).link dest.ino newName i := by
  unfold Machine.moveEntry Machine.noteSelf
  dsimp only
  split <;> rfl

theorem moveEntry_cwd (m : Machine) (dir : Place) (n : Bytes) (i : Ino) (dest : Place) (newName : Bytes) :
    (m.moveEntry dir n i dest newName).cwd = m.cwd := by
  unfold Machine.moveEntry Machine.noteSelf
  dsimp only
  split <;> rfl

/-- A rename that succeeds puts the file under the name of the target. -/
theorem Slot.rename (hs : Slot B target dir here es name) (hm : B.Proper)
    (h : Holds B here (Bytes.ofString name) bytes m) (hr : m.rename (dir.child name) target = .ok m') :
    ∃ dest newName k, B.entry target = .ok (.named dest newName false k) ∧ Holds B dest newName bytes m' := by
  have hlists := hs.lists_of_holds hm h
  have hnew := hs.node_new hm h
  have hentry : m.entry target = B.entry target :=
    Machine.entry_unused (hs.gains hm h) h.cwd hm.toSane hs.unlinked hs.away
  have hmoved : ∀ dest newName, Holds B dest newName bytes
      (m.moveEntry here (Bytes.ofString name) B.tree.nodes.size dest newName) := by
    intro dest newName
    refine ⟨?_, by rw [moveEntry_cwd, h.cwd]⟩
    rw [moveEntry_tree, h.tree, Tree.unlink_place (hs.ino_lt hm) hs.lists.node hs.free]
    rfl
  unfold Machine.rename at hr
  rw [hlists.entry_child hs.fits, Tree.lookup_putEntry_self, hentry] at hr
  cases he : B.entry target with
  | error e =>
    rw [he] at hr
    cases hr
  | ok e =>
    rw [he] at hr
    cases e with
    | nameless last => cases hr
    | named dest newName closed k =>
      have hlt : ∀ j, k = some j → j < B.tree.nodes.size := by
        rintro j rfl
        obtain ⟨-, ds, hd, hl⟩ := Machine.entry_within hm.toSane he
        exact hm.tree.entry hd hl
      simp only [bind, Except.bind, hnew, Node.isDir, Bool.false_eq_true, false_or] at hr
      split at hr
      · cases hr
      rename_i hclosed
      obtain rfl : closed = false := by simpa using hclosed
      refine ⟨dest, newName, k, rfl, ?_⟩
      split at hr
      · cases hr
      cases k with
      | none =>
        cases hr
        exact hmoved dest newName
      | some j =>
        dsimp only at hr
        split at hr
        · cases hr
        split at hr
        · rename_i hj
          subst hj
          exact absurd (hlt _ rfl) (Nat.lt_irrefl _)
        split at hr
        · contradiction
        · contradiction
        · cases hr
        · cases hr
          exact hmoved dest newName

/-- Whoever reads the target after the rename reads the file. -/
theorem Holds.replaced {dest : Place} {newName : Bytes} {k : Option Ino} (h : Holds B dest newName bytes m)
    (hm : B.Proper) (hr : B.Readable target) (he : B.entry target = .ok (.named dest newName false k)) :
    B.tree.Gains m.tree dest.ino newName ∧ m.read target = .ok bytes ∧
      m.entry target = .ok (.named dest newName false (some B.tree.nodes.size)) := by
  obtain ⟨start, segments, hstart, hentry⟩ := Machine.entry_eq_ok he
  obtain ⟨before, es, hw, hd, -, hname, hsegments⟩ := Tree.entry_named hentry
  obtain rfl := hsegments rfl
  have hshort := Tree.entry_short hentry
  have hlooked := Tree.lookedUp_last hname hshort
  have hstands := Machine.shortStart_stands hm hstart
  have hdest := Tree.walk_stands hstands hw
  have hlt := (hdest.within hm.tree).ino_lt hm.tree.root
  -- a directory under the name would be what the target leads to
  have hspares : ∀ {i ds}, es.lookup newName = some i → B.tree.node i ≠ .dir ds := by
    intro i ds hl hi
    have hfound : B.tree.walk .follow 0 dest [newName] = .ok (.found ((newName, i) :: dest)) :=
      Tree.walkVia_cons.mpr ⟨es, hd, .into (hlooked _) hl (by simp [hi]) rfl⟩
    exact hr.not_dir hstart hw hfound hi
  have hgains : B.tree.Gains m.tree dest.ino newName := by
    rw [h.tree]
    exact Tree.gains_place hlt hd hspares ..
  have hstart' : m.shortStart target = .ok (start, before ++ [newName]) := by
    rwa [Machine.shortStart, Machine.start, h.cwd]
  have hw' : m.tree.walk .follow Tree.mostLinks start before = .ok (.found dest) :=
    hgains.walk_dir hm.tree hm.upright hdest rfl (fun hl => hr.not_dir hstart hw hl) hd hstands hw
  have hd' : m.tree.node dest.ino = .dir (Tree.putEntry newName B.tree.nodes.size es) := by
    rw [h.tree, Tree.node_place hlt hd, if_pos rfl]
  have hfile : m.tree.node B.tree.nodes.size = .file bytes 0o600 := by
    rw [h.tree, Tree.node_place hlt hd, if_neg (Nat.ne_of_lt hlt), if_pos rfl]
  have hlook : (Tree.putEntry newName B.tree.nodes.size es).lookup newName = some B.tree.nodes.size :=
    Tree.lookup_putEntry_self ..
  refine ⟨hgains, ?_, ?_⟩
  · have hfound : m.tree.walk .follow Tree.mostLinks start (before ++ [newName]) =
        .ok (.found ((newName, B.tree.nodes.size) :: dest)) := by
      refine Tree.walk_append (List.cons_ne_nil _ _) (by rintro ⟨⟩) (fun follow => ?_) hw'
      exact Tree.walkVia_cons.mpr ⟨_, hd', .into (hlooked _) hlook (by simp [hfile]) rfl⟩
    have hfind : m.find target = .ok ((newName, B.tree.nodes.size) :: dest) :=
      Machine.find_eq_ok.mpr (Machine.spot_eq_ok.mpr ⟨start, _, hstart', hfound⟩)
    exact Machine.read_of_find hfind hfile
  · unfold Machine.entry
    rw [hstart']
    simp only [bind, Except.bind, Tree.entry_of_walk hname hshort hw' hd', mapError_ok, hlook]

/-! ## What a write leaves -/

/-- All that was there is there unchanged. -/
def Unchanged (m m' : Machine) : Prop := ∀ i < m.tree.nodes.size, m'.tree.node i = m.tree.node i

/-- All that was there is there unchanged but the entry that a path is about. -/
def Spares (target : Path) (m m' : Machine) : Prop :=
  ∀ i < m.tree.nodes.size, m'.tree.node i = m.tree.node i ∨ ∃ dir name es j, m.slot? target = some (dir, name) ∧
    i = dir.ino ∧ m.tree.node i = .dir es ∧ m'.tree.node i = .dir (Tree.putEntry name j es)

/-- What a write leaves for the next one. -/
structure Follows (target : Path) (m m' : Machine) : Prop where
  proper : m'.Proper
  slot : m'.slot? target = m.slot? target
  size : m.tree.nodes.size ≤ m'.tree.nodes.size
  spares : Spares target m m'

theorem Unchanged.refl (m : Machine) : Unchanged m m := fun _ _ => rfl

theorem Unchanged.spares (h : Unchanged m m') : Spares target m m' := fun i hi => Or.inl (h i hi)

theorem Follows.refl (hm : m.Proper) : Follows target m m := ⟨hm, rfl, Nat.le_refl _, (Unchanged.refl m).spares⟩

theorem Follows.trans (h : Follows target m m') (h' : Follows target m' m'') : Follows target m m'' := by
  refine ⟨h'.proper, h'.slot.trans h.slot, Nat.le_trans h.size h'.size, fun i hi => ?_⟩
  rcases h'.spares i (Nat.lt_of_lt_of_le hi h.size) with hsame | ⟨dir, name, es, j, hslot, rfl, hd, hput⟩
  · rw [hsame]
    exact h.spares i hi
  right
  rw [h.slot] at hslot
  rcases h.spares dir.ino hi with hsame | ⟨dir', name', es', j', hslot', -, hd', hput'⟩
  · exact ⟨dir, name, es, j, hslot, rfl, hsame.symm.trans hd, hput⟩
  · -- the name has been given anew before
    obtain ⟨rfl, rfl⟩ := Prod.mk.inj (Option.some.inj (hslot.symm.trans hslot'))
    obtain rfl := Node.dir.inj (hd.symm.trans hput')
    exact ⟨dir, name, es', j, hslot, rfl, hd', by rw [hput, Tree.putEntry_putEntry]⟩

theorem slot?_eq_some {dir : Place} {name : Bytes} {closed : Bool} {k : Option Ino}
    (h : m.entry target = .ok (.named dir name closed k)) : m.slot? target = some (dir, name) := by
  rw [Machine.slot?, h]

theorem Dropped.leaves (hB : B.Proper) (h : Dropped B bytes m) (hs : Slot B target dir here es name) :
    Follows target B m ∧ Unchanged B m ∧ m.read target = B.read target := by
  have hgains := hs.gains_dropped h
  have hsame : Unchanged B m := by
    intro i hi
    rw [h.tree, Tree.node_addNode, if_neg (Nat.ne_of_lt hi)]
  refine ⟨⟨hB.gains hgains h.cwd, ?_, ?_, hsame.spares⟩, hsame, ?_⟩
  · unfold Machine.slot?
    rw [Machine.entry_unused hgains h.cwd hB.toSane hs.unlinked hs.away]
  · rw [hgains.size]
    exact Nat.le_succ _
  · exact Machine.read_unused hgains h.cwd hB.toSane hs.unlinked hs.away

theorem Holds.follows (hB : B.Proper) {dest : Place} {newName : Bytes} {k : Option Ino}
    (h : Holds B dest newName bytes m) (hr : B.Readable target)
    (he : B.entry target = .ok (.named dest newName false k)) :
    Follows target B m ∧ m.read target = .ok bytes := by
  obtain ⟨hgains, hread, hentry⟩ := h.replaced hB hr he
  refine ⟨⟨hB.gains hgains h.cwd, ?_, ?_, fun i hi => ?_⟩, hread⟩
  · rw [slot?_eq_some hentry, slot?_eq_some he]
  · rw [hgains.size]
    exact Nat.le_succ _
  · rcases hgains.old i hi with hsame | ⟨rfl, ds, hd, hput⟩
    · exact Or.inl hsame
    · exact Or.inr ⟨dest, newName, ds, _, slot?_eq_some he, rfl, hd, hput⟩

/-! ## The calls of a write -/

/-- A path leads to the new file, which has these bytes; the machine is as it was otherwise. -/
def NewFile (target : Path) (B : Machine) (t : Path) (bytes : Bytes) (m : Machine) : Prop :=
  ∃ dir here es name, Slot B target dir here es name ∧ t = dir.child name ∧ Holds B here (Bytes.ofString name) bytes m

theorem createTemp_eq_ok {t : Path} (hu : isUnused B.tree target (Bytes.ofString name) = true)
    (h : createTemp B dir (fun _ => Bytes.ofString name) = .ok (t, m)) :
    NewFile target B t [] m := by
  obtain ⟨st, hs, h⟩ := bind_eq_ok.mp h
  obtain ⟨here, hf, h⟩ := bind_eq_ok.mp h
  split at h
  · rename_i es hd
    dsimp only at h
    split at h
    · cases h
    · rename_i hfree
      cases h
      simp only [isUnused, isTempName, Bool.and_eq_true, beq_iff_eq, Bool.not_eq_true', length_numberedName_zero] at hu
      obtain ⟨⟨⟨⟨hlength, hslash⟩, hnul⟩, haway⟩, hlinks⟩ := hu
      have hslash : Path.slash ∉ Bytes.ofString name := by simpa using hslash
      obtain ⟨⟨-, -, hpath⟩, -⟩ := Machine.shortStart_eq_ok.mp hs
      rw [length_join _ (by decide) hslash (hlength.symm ▸ length_numberedName_zero)] at hpath
      have hnamed : ∀ k : Bytes, k.length ≠ 10 → Bytes.ofString name ≠ k := by
        rintro k hk rfl
        exact hk hlength
      refine ⟨_, here, es, name, ⟨⟨hf, hd⟩, ⟨hslash, by simpa using hnul, ?_, ?_, hpath⟩, hfree,
        unlinked_of_isUnlinked hlinks, by simpa using haway⟩, rfl, ⟨Machine.createFile_tree .., rfl⟩⟩
      · exact ⟨hnamed _ (by decide), hnamed _ (by decide), hnamed _ (by decide)⟩
      · rw [hlength]
        decide
  · cases h

namespace NewFile

variable {t : Path} (hB : B.Proper) (h : NewFile target B t bytes m)
include hB h

theorem write (chunk : Bytes) : ∃ m', (Call.write t chunk).perform target m = (.wrote chunk.length, m') ∧
    NewFile target B t (bytes ++ chunk) m' := by
  obtain ⟨dir, here, es, name, hs, rfl, hh⟩ := h
  obtain ⟨m', happend, hh'⟩ := hs.append hB hh chunk
  refine ⟨m', ?_, dir, here, es, name, hs, rfl, hh'⟩
  simp only [Call.perform, happend]

theorem rename (hr : B.Readable target) :
    (∃ m', (Call.rename t).perform target m = (.done, m') ∧ Follows target B m' ∧ m'.read target = .ok bytes) ∨
      ∃ e, (Call.rename t).perform target m = (.failed e, m) := by
  obtain ⟨dir, here, es, name, hs, rfl, hh⟩ := h
  cases hren : m.rename (dir.child name) target with
  | ok m' =>
    obtain ⟨dest, newName, k, he, hh'⟩ := hs.rename hB hh hren
    refine Or.inl ⟨m', ?_, hh'.follows hB hr he⟩
    simp only [Call.perform, hren]
  | error e =>
    refine Or.inr ⟨e, ?_⟩
    simp only [Call.perform, hren]

theorem remove : ∃ m', (Call.remove t).perform target m = (.done, m') ∧ Follows target B m' ∧ Unchanged B m' ∧
    m'.read target = B.read target := by
  obtain ⟨dir, here, es, name, hs, rfl, hh⟩ := h
  obtain ⟨m', hremove, hgone⟩ := hs.removeFile hB hh
  refine ⟨m', ?_, hgone.leaves hB hs⟩
  simp only [Call.perform, hremove]

theorem read : m.read target = B.read target := by
  obtain ⟨dir, here, es, name, hs, rfl, hh⟩ := h
  exact hs.read hB hh

theorem setNode (bytes' : Bytes) : NewFile target B t bytes'
    { m with tree := m.tree.setNode B.tree.nodes.size (.file bytes' 0o600) } := by
  obtain ⟨dir, here, es, name, hs, rfl, hh⟩ := h
  exact ⟨dir, here, es, name, hs, rfl, hs.setNode hB hh bytes', hh.cwd⟩

end NewFile

end Retrace.Output
