import Retrace.Proofs.Machine.Descent

/-!
# A file under a name

A new file is put under a name of a directory, in place of anything but a directory. Walks that do not go by the name
end where they ended, and so do those that lead to a directory.
-/

namespace Retrace

namespace Tree

variable {t t' : Tree} {d : Ino} {name : Bytes}

/-- A new file has come, under a name of a directory or under none. -/
structure Gains (t t' : Tree) (d : Ino) (name : Bytes) : Prop where
  size : t'.nodes.size = t.nodes.size + 1
  new : ∃ content mode, t'.node t.nodes.size = .file content mode
  old : ∀ i < t.nodes.size, t'.node i = t.node i ∨
    i = d ∧ ∃ es, t.node d = .dir es ∧ t'.node d = .dir (putEntry name t.nodes.size es)
  spares : ∀ {es i ds}, t.node d = .dir es → es.lookup name = some i → t.node i ≠ .dir ds

namespace Gains

variable (h : Gains t t' d name)
include h

theorem of_not_dir {i : Ino} (hi : i < t.nodes.size) (hn : ∀ es, t.node i ≠ .dir es) : t'.node i = t.node i := by
  rcases h.old i hi with hsame | ⟨rfl, es, hd, -⟩
  · exact hsame
  · exact absurd hd (hn es)

theorem of_dir {i : Ino} (hi : i < t.nodes.size) {es : List (Bytes × Ino)} (hd : t.node i = .dir es) :
    ∃ es', t'.node i = .dir es' ∧ ∀ s, ¬(i = d ∧ s = name) → es'.lookup s = es.lookup s := by
  rcases h.old i hi with hsame | ⟨rfl, es₀, hd₀, hd'⟩
  · exact ⟨es, hsame.trans hd, fun _ _ => rfl⟩
  · obtain rfl := Node.dir.inj (hd.symm.trans hd₀)
    refine ⟨_, hd', fun s hs => ?_⟩
    rw [lookup_putEntry, if_neg fun hname => hs ⟨rfl, hname⟩]

theorem dir_of_dir {i : Ino} (hi : i < t.nodes.size) {es' : List (Bytes × Ino)} (hd' : t'.node i = .dir es') :
    ∃ es, t.node i = .dir es ∧ (es' = es ∨ i = d ∧ es' = putEntry name t.nodes.size es) := by
  rcases h.old i hi with hsame | ⟨rfl, es, hd, hput⟩
  · exact ⟨es', hsame.symm.trans hd', Or.inl rfl⟩
  · exact ⟨es, hd, Or.inr ⟨rfl, Node.dir.inj (hd'.symm.trans hput)⟩⟩

theorem not_dir_new (es : List (Bytes × Ino)) : t'.node t.nodes.size ≠ .dir es := by
  obtain ⟨content, mode, hfile⟩ := h.new
  rw [hfile]
  exact nofun

theorem closed (hc : t.Closed) : t'.Closed := by
  refine ⟨by rw [h.size]; exact Nat.succ_pos _, fun {j es' s i} hd' hl => ?_⟩
  rw [h.size]
  by_cases hj : j < t.nodes.size
  · obtain ⟨es, hd, rfl | ⟨rfl, rfl⟩⟩ := h.dir_of_dir hj hd'
    · exact Nat.lt_succ_of_lt (hc.entry hd hl)
    · rw [lookup_putEntry] at hl
      split at hl
      · cases hl
        exact Nat.lt_succ_self _
      · exact Nat.lt_succ_of_lt (hc.entry hd hl)
  · -- what is not there counts as an empty directory
    by_cases hnew : j = t.nodes.size
    · subst hnew
      exact absurd hd' (h.not_dir_new es')
    · have hbeyond : t'.nodes.size ≤ j := by
        rw [h.size]
        exact Nat.lt_of_le_of_ne (Nat.le_of_not_lt hj) (Ne.symm hnew)
      have hout : t'.node j = .dir [] := by
        rw [node, Array.getD_eq_getD_getElem?, Array.getElem?_eq_none hbeyond]
        rfl
      rw [hout] at hd'
      cases hd'
      cases hl

end Gains

/-! ## A new node -/

theorem ext_node (hsize : t.nodes.size = t'.nodes.size) (h : ∀ i, t.node i = t'.node i) : t = t' := by
  have hnodes : t.nodes = t'.nodes := by
    apply Array.ext hsize
    intro i hi hi'
    have hnode := h i
    rwa [node, node, Array.getD_eq_getD_getElem?, Array.getD_eq_getD_getElem?, Array.getElem?_eq_getElem hi,
      Array.getElem?_eq_getElem hi'] at hnode
  cases t
  cases t'
  exact congrArg Tree.mk hnodes

theorem filter_putEntry {es : List (Bytes × Ino)} (hn : es.lookup name = none) (i : Ino) :
    (putEntry name i es).filter (·.1 ≠ name) = es := by
  induction es with
  | nil => simp [putEntry]
  | cons e es ih =>
    obtain ⟨k, j⟩ := e
    rw [lookup_cons_if] at hn
    split at hn
    · cases hn
    · rename_i hk
      rw [putEntry, if_neg (Ne.symm hk), List.filter_cons_of_pos (by simpa using Ne.symm hk), ih hn]

theorem lookup_putEntry_self (i : Ino) (es : List (Bytes × Ino)) : (putEntry name i es).lookup name = some i := by
  rw [lookup_putEntry, if_pos rfl]

theorem putEntry_putEntry (i j : Ino) (es : List (Bytes × Ino)) :
    putEntry name j (putEntry name i es) = putEntry name j es := by
  induction es with
  | nil => simp [putEntry]
  | cons e es ih =>
    obtain ⟨k, l⟩ := e
    by_cases hk : k = name
    · simp [putEntry, hk]
    · simp [putEntry, hk, ih]

/-- A new node under a name of a directory. -/
def place (t : Tree) (d : Ino) (name : Bytes) (n : Node) : Tree := ((t.addNode n).2).link d name t.nodes.size

section
variable {es : List (Bytes × Ino)} (hlt : d < t.nodes.size) (hd : t.node d = .dir es)

@[simp] theorem size_place (d : Ino) (name : Bytes) (n : Node) : (t.place d name n).nodes.size = t.nodes.size + 1 := by
  simp [place, link, setNode, addNode]

@[simp] theorem size_addNode (n : Node) : (t.addNode n).2.nodes.size = t.nodes.size + 1 := by
  simp [addNode]

theorem node_addNode (n : Node) (i : Ino) : (t.addNode n).2.node i = if i = t.nodes.size then n else t.node i :=
  node_push t n i

include hlt hd

theorem node_place (name : Bytes) (n : Node) (i : Ino) : (t.place d name n).node i =
    if d = i then .dir (putEntry name t.nodes.size es) else if i = t.nodes.size then n else t.node i :=
  node_link hlt hd name n i

theorem setNode_place (name : Bytes) (n n' : Node) :
    (t.place d name n).setNode t.nodes.size n' = t.place d name n' := by
  apply ext_node
  · simp [setNode]
  intro i
  rw [node_setNode (by simp), node_place hlt hd, node_place hlt hd]
  by_cases hi : i = t.nodes.size
  · subst hi
    simp [Nat.ne_of_lt hlt]
  · simp [hi, Ne.symm hi]

theorem unlink_place (hn : es.lookup name = none) (n : Node) : (t.place d name n).unlink d name = (t.addNode n).2 := by
  apply ext_node
  · simp [unlink, setNode]
  intro i
  have hhere : (t.place d name n).node d = .dir (putEntry name t.nodes.size es) := by
    rw [node_place hlt hd, if_pos rfl]
  rw [node_unlink hhere (by rw [size_place]; exact Nat.lt_succ_of_lt hlt), node_addNode, node_place hlt hd]
  by_cases hi : d = i
  · subst hi
    rw [if_pos rfl, if_neg (Nat.ne_of_lt hlt), filter_putEntry hn, hd]
  · rw [if_neg hi, if_neg hi]

variable (hs : ∀ {i ds}, es.lookup name = some i → t.node i ≠ .dir ds)
include hs

theorem gains_place (content : Bytes) (mode : Nat) : Gains t (t.place d name (.file content mode)) d name := by
  refine ⟨size_place .., ⟨content, mode, ?_⟩, fun i hi => ?_, fun {es' i ds} hd' => ?_⟩
  · rw [node_place hlt hd, if_neg (Nat.ne_of_lt hlt), if_pos rfl]
  · rw [node_place hlt hd, node_place hlt hd]
    by_cases hdi : d = i
    · exact Or.inr ⟨hdi.symm, es, hd, if_pos rfl⟩
    · rw [if_neg hdi, if_neg (Nat.ne_of_lt hi)]
      exact Or.inl rfl
  · rw [hd] at hd'
    cases hd'
    exact hs

omit hlt in
theorem gains_addNode (content : Bytes) (mode : Nat) : Gains t (t.addNode (.file content mode)).2 d name := by
  refine ⟨size_addNode .., ⟨content, mode, ?_⟩, fun i hi => Or.inl ?_, fun {es' i ds} hd' => ?_⟩
  · rw [node_addNode, if_pos rfl]
  · rw [node_addNode, if_neg (Nat.ne_of_lt hi)]
  · rw [hd] at hd'
    cases hd'
    exact hs

end

/-! ## Places that stand -/

/-- The names of a place lead from the root to it. -/
def Stands (t : Tree) : Place → Prop
  | [] => True
  | (s, i) :: p => t.Stands p ∧ ∃ es, t.node (Place.ino p) = .dir es ∧ es.lookup s = some i

/-- Every directory stands at one place. -/
def Upright (t : Tree) : Prop :=
  ∀ {p q : Place} {es : List (Bytes × Ino)}, t.Stands p → t.Stands q → t.node p.ino = .dir es → p.ino = q.ino → p = q

theorem Stands.up {p : Place} (h : t.Stands p) : t.Stands p.up := by
  cases p with
  | nil => exact trivial
  | cons e p => exact h.1

theorem Stands.start {p : Place} (h : t.Stands p) (target : Bytes) :
    t.Stands (if target.head? = some Path.slash then [] else p) := by
  split
  · trivial
  · exact h

theorem Stands.within (hc : t.Closed) {p : Place} (h : t.Stands p) : p.Within t.nodes.size := by
  induction p with
  | nil => exact nofun
  | cons e p ih =>
    obtain ⟨hp, es, hd, hl⟩ := h
    exact hc.within_cons (ih hp) hd hl

theorem walkVia_stands {arrival : Arrival} {follow : Follow}
    (hf : ∀ f, follow = some f → ∀ {here segments place}, t.Stands here → f here segments = .ok (.found place) →
      t.Stands place) :
    ∀ {segments : List Bytes} {here place : Place}, t.Stands here →
      t.walkVia arrival follow here segments = .ok (.found place) → t.Stands place := by
  intro segments
  induction segments with
  | nil =>
    intro here place hs h
    cases h
    exact hs
  | cons s rest ih =>
    intro here place hs h
    obtain ⟨es, hd, hleg⟩ := walkVia_cons.mp h
    cases hleg with
    | idle _ h => exact ih hs h
    | up _ h => exact ih hs.up h
    | vacant _ _ _ h => cases h
    | kept _ hl _ _ h =>
      cases h
      exact ⟨hs, es, hd, hl⟩
    | link _ _ _ _ hfollow _ h => exact hf _ hfollow (hs.start _) h
    | @into i _ hl _ h =>
      have hinto : t.Stands ((s, i) :: here) := ⟨hs, es, hd, hl⟩
      exact ih hinto h

theorem walk_stands {arrival : Arrival} : ∀ {links : Nat} {here place : Place} {segments : List Bytes},
    t.Stands here → t.walk arrival links here segments = .ok (.found place) → t.Stands place := by
  intro links
  induction links with
  | zero =>
    refine walkVia_stands ?_
    rintro f ⟨⟩
  | succ links ih =>
    refine walkVia_stands ?_
    rintro f ⟨rfl⟩
    exact ih

namespace Gains

variable (h : Gains t t' d name) (hc : t.Closed)
include h hc

theorem stood {p : Place} (hp : t'.Stands p) {es' : List (Bytes × Ino)} (hd' : t'.node p.ino = .dir es') :
    t.Stands p := by
  induction p generalizing es' with
  | nil => trivial
  | cons e p ih =>
    obtain ⟨s, i⟩ := e
    obtain ⟨hp, es'', hd'', hl⟩ := hp
    have hstood := ih hp hd''
    obtain ⟨es, hd, rfl | ⟨hdir, rfl⟩⟩ := h.dir_of_dir ((hstood.within hc).ino_lt hc.root) hd''
    · exact ⟨hstood, _, hd, hl⟩
    · rw [lookup_putEntry] at hl
      split at hl
      · cases hl
        exact absurd hd' (h.not_dir_new es')
      · exact ⟨hstood, es, hd, hl⟩

theorem stands {p : Place} (hp : t.Stands p) {es : List (Bytes × Ino)} (hd : t.node p.ino = .dir es) :
    t'.Stands p := by
  induction p generalizing es with
  | nil => trivial
  | cons e p ih =>
    obtain ⟨s, i⟩ := e
    obtain ⟨hp, es₁, hd₁, hl⟩ := hp
    obtain ⟨es₁', hd₁', hes⟩ := h.of_dir ((hp.within hc).ino_lt hc.root) hd₁
    refine ⟨ih hp hd₁, es₁', hd₁', ?_⟩
    rw [hes s ?_, hl]
    rintro ⟨hdir, rfl⟩
    rw [hdir] at hd₁
    exact h.spares hd₁ hl hd

theorem upright (hu : t.Upright) : t'.Upright := by
  intro p q es hp hq hd hpq
  have hstood := h.stood hc hp hd
  obtain ⟨es₀, hd₀, -⟩ := h.dir_of_dir ((hstood.within hc).ino_lt hc.root) hd
  rw [hpq] at hd
  exact hu hstood (h.stood hc hq hd) hd₀ hpq

end Gains

/-! ## A name that no walk goes by -/

/-- No link leads by way of a name. -/
def Unlinked (t : Tree) (name : Bytes) : Prop :=
  ∀ {i : Ino} {text : Bytes}, t.node i = .link text → name ∉ Bytes.split Path.slash text

section
variable (h : Gains t t' d name) (hc : t.Closed) (hname : t.Unlinked name)
include h hc hname

theorem Gains.walkVia_unused {arrival : Arrival} {follow follow' : Follow}
    (hf : (follow = none ∧ follow' = none) ∨ ∃ f f', follow = some f ∧ follow' = some f' ∧
      ∀ {here segments}, Place.Within here t.nodes.size → name ∉ segments → f' here segments = f here segments) :
    ∀ {segments : List Bytes} {here : Place}, here.Within t.nodes.size → name ∉ segments →
      t'.walkVia arrival follow' here segments = t.walkVia arrival follow here segments := by
  intro segments
  induction segments with
  | nil => exact fun _ _ => rfl
  | cons s rest ih =>
    intro here hh hno
    obtain ⟨hs, hrest⟩ := not_or.mp (List.mem_cons.not.mp hno)
    have hlt := hh.ino_lt hc.root
    cases hd : t.node here.ino with
    | file | link | device =>
      have hsame := h.of_not_dir hlt (by simp [hd])
      simp only [walkVia, hsame, hd]
    | dir es =>
      obtain ⟨es', hd', hes⟩ := h.of_dir hlt hd
      have hlook : es'.lookup s = es.lookup s := hes s fun hboth => hs hboth.2.symm
      simp only [walkVia, hd, hd', hlook, ih hh hrest, ih hh.up hrest]
      cases hl : es.lookup s with
      | none => rfl
      | some i =>
        have hi := hc.entry hd hl
        have hinto := ih (hc.within_cons hh hd hl) hrest
        cases hn : t.node i with
        | dir ds =>
          obtain ⟨ds', hn', -⟩ := h.of_dir hi hn
          simp only [hn', hn, hinto]
        | file | device =>
          have hsame := h.of_not_dir hi (by simp [hn])
          simp only [hsame, hn, hinto]
        | link text =>
          have hsame := h.of_not_dir hi (by simp [hn])
          simp only [hsame, hn]
          rcases hf with ⟨rfl, rfl⟩ | ⟨f, f', rfl, rfl, hff'⟩
          · rfl
          · have hgo : name ∉ Bytes.split Path.slash text ++ rest := by simp [hname hn, hrest]
            simp only [hff' (hh.start text) hgo]

/-- A walk that does not go by the name ends as it did. -/
theorem Gains.walk_unused {arrival : Arrival} : ∀ {links : Nat} {here : Place} {segments : List Bytes},
    here.Within t.nodes.size → name ∉ segments →
      t'.walk arrival links here segments = t.walk arrival links here segments := by
  intro links
  induction links with
  | zero => exact h.walkVia_unused hc hname (Or.inl ⟨rfl, rfl⟩)
  | succ links ih => exact h.walkVia_unused hc hname (Or.inr ⟨_, _, rfl, rfl, ih⟩)

end

/-! ## A name that leads to no directory -/

section
variable (h : Gains t t' d name) (hc : t.Closed) (hu : t.Upright) {dir : Place} (hdir : t.Stands dir)
  (hd : dir.ino = d) (hno : ∀ {links : Nat} {place : Place} {es : List (Bytes × Ino)},
    t.walk .follow links dir [name] = .ok (.found place) → t.node place.ino ≠ .dir es)
include h hc hu hdir hd hno

theorem Gains.walkVia_dir {links : Nat} {follow follow' : Follow}
    (hlinks : t.walk .follow links = t.walkVia .follow follow) {place : Place} {ps : List (Bytes × Ino)}
    (hp : t.node place.ino = .dir ps)
    (hf : ∀ f, follow = some f → ∃ f', follow' = some f' ∧ ∀ {here segments}, t.Stands here →
      f here segments = .ok (.found place) → f' here segments = .ok (.found place)) :
    ∀ {segments : List Bytes} {here : Place}, t.Stands here →
      t.walkVia .follow follow here segments = .ok (.found place) →
      t'.walkVia .follow follow' here segments = .ok (.found place) := by
  intro segments
  induction segments with
  | nil => exact fun _ h => h
  | cons s rest ih =>
    intro here hs hw
    have hwalk : t.walk .follow links here ([s] ++ rest) = .ok (.found place) := by rwa [hlinks]
    obtain ⟨es, hes, hleg⟩ := walkVia_cons.mp hw
    have hlt := (hs.within hc).ino_lt hc.root
    obtain ⟨es', hes', hlook⟩ := h.of_dir hlt hes
    -- the walk ends at a directory, and the name leads to none
    have hother : ¬(here.ino = d ∧ s = name) := by
      rintro ⟨hhere, rfl⟩
      obtain rfl := hu hs hdir hes (hhere.trans hd.symm)
      obtain ⟨mid, links', hmid, hr⟩ := walk_split hwalk
      cases rest with
      | nil =>
        rw [List.append_nil] at hwalk
        exact hno hwalk hp
      | cons s rest =>
        obtain ⟨-, ms, hms, -⟩ := walk_dir hr
        exact hno hmid hms
    refine walkVia_cons.mpr ⟨es', hes', ?_⟩
    cases hleg with
    | idle hs' hw => exact .idle hs' (ih hs hw)
    | up hs' hw => exact .up hs' (ih hs.up hw)
    | vacant _ _ _ hw => cases hw
    | kept _ _ _ hk _ => cases hk.2
    | link hu' hl hi hk hfollow ht hw =>
      obtain ⟨f', hfollow', hff'⟩ := hf _ hfollow
      have hi' := (h.of_not_dir (hc.entry hes hl) (by simp [hi])).trans hi
      exact .link hu' ((hlook s hother).trans hl) hi' hk hfollow' ht (hff' (hs.start _) hw)
    | @into i hu' hl hi hw =>
      refine .into hu' ((hlook s hother).trans hl) (fun text ht => ?_) (ih ⟨hs, es, hes, hl⟩ hw)
      rcases h.old i (hc.entry hes hl) with hsame | ⟨rfl, _, _, hput⟩
      · exact hi text (hsame.symm.trans ht)
      · exact nomatch hput.symm.trans ht

/-- A walk that leads to a directory leads to it still. -/
theorem Gains.walk_dir {place : Place} {ps : List (Bytes × Ino)} (hp : t.node place.ino = .dir ps) :
    ∀ {links : Nat} {here : Place} {segments : List Bytes}, t.Stands here →
      t.walk .follow links here segments = .ok (.found place) →
      t'.walk .follow links here segments = .ok (.found place) := by
  intro links
  induction links with
  | zero => exact h.walkVia_dir hc hu hdir hd hno (show t.walk .follow 0 = _ from rfl) hp nofun
  | succ links ih =>
    refine h.walkVia_dir hc hu hdir hd hno (show t.walk .follow (links + 1) = _ from rfl) hp ?_
    rintro f ⟨rfl⟩
    exact ⟨_, rfl, ih⟩

end

/-! ## The entry that a path is about -/

theorem entry_short {links : Nat} {here dir : Place} {segments : List Bytes} {closed : Bool} {i : Option Ino}
    (he : t.entry links here segments = .ok (.named dir name closed i)) : name.length ≤ longestName := by
  unfold entry at he
  split at he
  · cases he
  · obtain ⟨spot, -, he⟩ := bind_eq_ok.mp he
    cases spot with
    | vacant => cases he
    | found place =>
      dsimp only at he
      split at he
      · split at he
        · cases he
        split at he
        · cases he
        · rename_i hshort
          cases he
          exact Nat.le_of_not_lt hshort
      · cases he

theorem Gains.entry_unused (h : Gains t t' d name) (hc : t.Closed) (hname : t.Unlinked name) {links : Nat}
    {here : Place} {segments : List Bytes} (hh : here.Within t.nodes.size) (hno : name ∉ segments) :
    t'.entry links here segments = t.entry links here segments := by
  unfold entry
  cases hlast : segments.reverse.dropWhile (· == []) with
  | nil => rfl
  | cons last before =>
    have hpart : ∀ s ∈ last :: before, s ∈ segments := by
      intro s hs
      rw [← hlast] at hs
      exact List.mem_reverse.mp ((List.dropWhile_sublist _).mem hs)
    have hbefore : name ∉ before.reverse := fun hs => hno (hpart _ (by simp_all))
    simp only [h.walk_unused hc hname hh hbefore]
    cases hw : t.walk .follow links here before.reverse with
    | error e => rfl
    | ok spot =>
      cases spot with
      | vacant => rfl
      | found dir =>
        have hdir := (walk_ends hc hh hw).ino_lt hc.root
        simp only [bind, Except.bind]
        cases hd : t.node dir.ino with
        | file | link | device => rw [h.of_not_dir hdir (by simp [hd]), hd]
        | dir es =>
          obtain ⟨es', hd', hes⟩ := h.of_dir hdir hd
          rw [hd']
          simp only [hes last fun hboth => hno (hboth.2 ▸ hpart last (List.mem_cons_self ..))]

end Tree

namespace Machine

variable {m m' : Machine} {p : Path}

/-- The tree is closed, each of its directories stands at one place, and the working directory stands at its own. -/
structure Proper (m : Machine) : Prop extends m.Sane where
  upright : m.tree.Upright
  stands : m.tree.Stands m.cwd
  isDir : ∃ es, m.tree.node m.cwd.ino = .dir es

/-- The directory and the name that a path is about. -/
def slot? (m : Machine) (p : Path) : Option (Place × Bytes) :=
  match m.entry p with
  | .ok (.named dir name _ _) => some (dir, name)
  | _ => none

section
variable (ht : m'.tree = m.tree) (hcwd : m'.cwd = m.cwd)
include ht hcwd

theorem find_congr : m'.find p = m.find p := by
  simp only [find, spot, shortStart, start, ht, hcwd]

end

theorem shortStart_stands (hm : m.Proper) {here : Place} {segments : List Bytes}
    (h : m.shortStart p = .ok (here, segments)) : m.tree.Stands here := by
  obtain ⟨-, rfl, -⟩ := shortStart_eq_ok.mp h
  split
  · trivial
  · exact hm.stands

section
variable {d : Ino} {name : Bytes} (h : m.tree.Gains m'.tree d name) (hcwd : m'.cwd = m.cwd)
include h hcwd

theorem Proper.gains (hm : m.Proper) : m'.Proper := by
  obtain ⟨es, hd⟩ := hm.isDir
  have hlt := hm.cwd.ino_lt hm.tree.root
  refine ⟨⟨h.closed hm.tree, ?_⟩, h.upright hm.tree hm.upright, ?_, ?_⟩
  · rw [hcwd, h.size]
    exact hm.cwd.mono (Nat.le_succ _)
  · rw [hcwd]
    exact h.stands hm.tree hm.stands hd
  · obtain ⟨es', hd', -⟩ := h.of_dir hlt hd
    exact ⟨es', by rw [hcwd, hd']⟩

variable (hm : m.Sane) (hname : m.tree.Unlinked name) (hp : name ∉ p.segments)
include hm hname hp

theorem spot_unused (arrival : Arrival) : m'.spot arrival p = m.spot arrival p := by
  unfold spot
  rw [show m'.shortStart p = m.shortStart p by simp only [shortStart, start, hcwd]]
  cases hs : m.shortStart p with
  | error e => simp only [bind, Except.bind]
  | ok st =>
    obtain ⟨here, segments⟩ := st
    obtain ⟨-, -, rfl⟩ := shortStart_eq_ok.mp hs
    simp only [bind, Except.bind, h.walk_unused hm.tree hname (shortStart_within hm hs) hp]

theorem find_unused : m'.find p = m.find p := by
  unfold find
  rw [spot_unused h hcwd hm hname hp]

theorem read_unused : m'.read p = m.read p := by
  unfold read
  rw [find_unused h hcwd hm hname hp]
  cases hf : m.find p with
  | error e => rfl
  | ok place =>
    have hlt := (spot_ends hm (find_eq_ok.mp hf)).ino_lt hm.tree.root
    simp only [bind, Except.bind]
    cases hn : m.tree.node place.ino with
    | file | link | device => rw [h.of_not_dir hlt (by simp [hn]), hn]
    | dir es =>
      obtain ⟨es', hn', -⟩ := h.of_dir hlt hn
      rw [hn']

theorem entry_unused : m'.entry p = m.entry p := by
  unfold entry
  rw [show m'.shortStart p = m.shortStart p by simp only [shortStart, start, hcwd]]
  cases hs : m.shortStart p with
  | error e => simp only [bind, Except.bind]
  | ok st =>
    obtain ⟨here, segments⟩ := st
    obtain ⟨-, -, rfl⟩ := shortStart_eq_ok.mp hs
    simp only [bind, Except.bind, h.entry_unused hm.tree hname (shortStart_within hm hs) hp]

end

end Machine

end Retrace
