import Retrace.Proofs.Machine.Growth
import Retrace.Proofs.Text.Utf8

/-!
# Written files are read back

Where a file stands or can be made, what is written is read again. Making directories leaves every file as it is.
-/

namespace Retrace.Machine

variable {m m' : Machine} {p : Path}

/-- The machine with the directories above a path made, as far as they are missing. -/
def prepare (m : Machine) (p : Path) : Machine × Except IoError Unit :=
  match p.parent? with
  | some dir => m.makeAllDirs dir
  | none => (m, .ok ())

/-- A file that may be written stands at a path, or a file can be made there. Devices keep nothing and are no files. -/
def Takes (m : Machine) (p : Path) : Prop :=
  match m.openSpot p with
  | .ok (.found place) => ∃ content mode, m.tree.node place.ino = .file content mode
  | .ok (.vacant ..) => True
  | .error _ => False

/-- A file can be written at a path, once the directories above it are made. -/
structure Writable (m : Machine) (p : Path) : Prop where
  prepared : (m.prepare p).2 = .ok ()
  takes : (m.prepare p).1.Takes p

theorem keeps_prepare (hm : m.Sane) (p : Path) : m.Keeps (m.prepare p).1 := by
  unfold prepare
  split
  · exact keeps_makeAllDirs hm _
  · exact .refl hm

/-! ## The written file -/

/-- The path that a file is opened at leads to the file from then on. -/
theorem Keeps.find_opened (h : m.Keeps m') (hm : m.Sane) {spot : Spot} {place : Place} (ho : m.openSpot p = .ok spot)
    (hto : m'.tree.Leads .make spot place) : m'.find p = .ok place := by
  obtain ⟨here, segments, hstart, hwalk⟩ := spot_eq_ok.mp (spot_of_openSpot ho)
  have hstart' : m'.shortStart p = .ok (here, segments) := by rwa [shortStart, start, h.cwd]
  have hfollow : m'.tree.walk .follow Tree.mostLinks here segments = .ok (.found place) :=
    Tree.walk_leads hm.tree h.grows (fun _ => rfl) (by simp) (shortStart_within hm hstart) hwalk hto
  exact find_eq_ok.mpr (spot_eq_ok.mpr ⟨here, segments, hstart', hfollow⟩)

theorem read_of_find {place : Place} {content : Bytes} {mode : Nat} (hf : m.find p = .ok place)
    (hn : m.tree.node place.ino = .file content mode) : m.read p = .ok content := by
  unfold read
  rw [hf]
  simp [hn, bind, Except.bind]

theorem isThere_of_read {content : Bytes} (h : m.read p = .ok content) : m.isThere p = true := by
  obtain ⟨place, hf, -⟩ := bind_eq_ok.mp h
  rw [isThere, hf]
  rfl

theorem readText_of_read {s : String} (h : m.read p = .ok (.ofString s)) : m.readText p = .ok s := by
  unfold readText
  rw [h]
  simp [bind, Except.bind]

@[simp] theorem noteAt_tree (m : Machine) (place : Place) (kind : ChangeKind) : (m.noteAt place kind).tree = m.tree := by
  cases place <;> rfl

theorem createFile_tree (m : Machine) (dir : Place) (name content : Bytes) (mode : Nat) :
    (m.createFile dir name content mode).2.tree =
      ((m.tree.addNode (.file content mode)).2).link dir.ino name m.tree.nodes.size := by
  unfold createFile
  dsimp only
  split <;> rfl

theorem createFile_leads (hm : m.Sane) {dir : Place} {name : Bytes} {closed : Bool}
    (hv : m.tree.Ends (.vacant dir name closed)) (content : Bytes) (mode : Nat) : ∃ place,
      (m.createFile dir name content mode).2.tree.Leads .make (.vacant dir name closed) place ∧
        (m.createFile dir name content mode).2.tree.node place.ino = .file content mode := by
  obtain ⟨hdir, es, hd, hn⟩ := hv
  have hlt := hdir.ino_lt hm.tree.root
  have hnode : ∀ j, (m.createFile dir name content mode).2.tree.node j =
      if dir.ino = j then .dir (Tree.putEntry name m.tree.nodes.size es)
      else if j = m.tree.nodes.size then .file content mode else m.tree.node j := by
    intro j
    rw [createFile_tree]
    exact Tree.node_link hlt hd name (.file content mode) j
  have hdir' := (hnode dir.ino).trans (if_pos rfl)
  have hfile : (m.createFile dir name content mode).2.tree.node m.tree.nodes.size = .file content mode := by
    rw [hnode, if_neg (Nat.ne_of_lt hlt), if_pos rfl]
  refine ⟨(name, m.tree.nodes.size) :: dir, ⟨rfl, _, _, hdir', ?_, ?_, rfl⟩, hfile⟩
  · rw [Tree.lookup_putEntry, if_pos rfl]
  · intro target ht
    rw [hfile] at ht
    cases ht

theorem setContent_file (hm : m.Sane) {place : Place} (hp : place.Within m.tree.nodes.size) {old : Bytes} {mode : Nat}
    (hf : m.tree.node place.ino = .file old mode) (change : Bytes → Bytes) : ∃ m', m.setContent place change = .ok m' ∧
      m.Keeps m' ∧ m'.tree.node place.ino = .file (change old) mode := by
  have hset : m.setContent place change =
      .ok (({ m with tree := m.tree.setNode place.ino (.file (change old) mode) }).noteAt place .modify) := by
    rw [setContent, hf]
  refine ⟨_, hset, ⟨?_, ?_, ?_, ?_, ?_, ?_⟩, ?_⟩
  · rw [noteAt_tree]
    exact Tree.grows_setFile hf _
  · rw [noteAt_tree]
    exact hm.tree.setFile _ _ _
  · cases place <;> rfl
  · cases place <;> rfl
  · cases place <;> rfl
  · cases place <;> rfl
  · rw [noteAt_tree, Tree.node_setNode (hp.ino_lt hm.tree.root), if_pos rfl]

/-- What is written to a file is read again. -/
theorem write_read (hm : m.Sane) (h : m.Takes p) (content : Bytes) (mode : Nat) :
    ∃ m', m.write p content mode = .ok m' ∧ m'.read p = .ok content := by
  unfold Takes at h
  cases ho : m.openSpot p with
  | error e => simp [ho] at h
  | ok spot =>
    rw [ho] at h
    have hends := openSpot_ends hm ho
    cases spot with
    | found place =>
      obtain ⟨old, oldMode, hf⟩ := h
      obtain ⟨m', hset, hk, hf'⟩ := setContent_file hm hends hf fun _ => content
      refine ⟨m', ?_, read_of_find (hk.find_opened hm ho rfl) hf'⟩
      simp only [write, ho, bind, Except.bind, hset]
    | vacant dir name closed =>
      obtain ⟨place, hto, hf⟩ := createFile_leads hm hends content mode
      refine ⟨_, ?_, read_of_find ((keeps_createFile hm hends content mode).find_opened hm ho hto) hf⟩
      simp only [write, ho, bind, Except.bind]

/-! ## The other files -/

/-- The files of two machines are the same: none has changed, come or gone. -/
def SameFiles (m m' : Machine) : Prop :=
  ∀ i content mode, m.tree.node i = .file content mode ↔ m'.tree.node i = .file content mode

theorem SameFiles.refl (m : Machine) : m.SameFiles m := fun _ _ _ => Iff.rfl

theorem SameFiles.trans {m'' : Machine} (h : m.SameFiles m') (h' : m'.SameFiles m'') : m.SameFiles m'' :=
  fun i content mode => (h i content mode).trans (h' i content mode)

theorem sameFiles_makeDir (hm : m.Sane) (h : m.makeDir p = .ok m') : m.SameFiles m' := by
  obtain ⟨e, he, h⟩ := bind_eq_ok.mp h
  split at h
  · rename_i dir name closed
    cases h
    obtain ⟨hdir, es, hd, -⟩ := entry_within hm he
    intro i content mode
    have hnode : (m.addEntry dir name (.dir [])).tree.node i =
        if dir.ino = i then .dir (Tree.putEntry name m.tree.nodes.size es)
        else if i = m.tree.nodes.size then .dir [] else m.tree.node i :=
      Tree.node_link (hdir.ino_lt hm.tree.root) hd name (.dir []) i
    rw [hnode]
    split
    · rename_i hi
      subst hi
      simp [hd]
    split
    · rename_i hi
      subst hi
      simp [Tree.node]
    · exact Iff.rfl
  · cases h

/-- Making the directories above a path leaves every file as it is. -/
theorem sameFiles_prepare (hm : m.Sane) (p : Path) : m.SameFiles (m.prepare p).1 := by
  unfold prepare
  split
  · rename_i dir _
    have hboth : m.Keeps (m.makeAllDirs dir).1 ∧ m.SameFiles (m.makeAllDirs dir).1 :=
      makeAllDirs_induction (P := fun m' => m.Keeps m' ∧ m.SameFiles m')
        (fun ⟨hk, hf⟩ h => ⟨hk.trans (keeps_makeDir (hk.sane hm) h), hf.trans (sameFiles_makeDir (hk.sane hm) h)⟩)
        ⟨.refl hm, .refl m⟩ dir
    exact hboth.2
  · exact .refl m

end Retrace.Machine
