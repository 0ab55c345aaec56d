import Retrace.Machine.Files

/-!
# Walks in a tree that grows

Names are added to directories and files are written, but no name is taken away and nothing becomes something else.
Then a walk that has found something finds it again.
-/

namespace Retrace

/-- A node has become this one, and every entry is still there. -/
def Node.Grows : Node → Node → Prop
  | .dir es, .dir es' => ∀ name i, es.lookup name = some i → es'.lookup name = some i
  | .file .., .file .. => True
  | .link target, .link target' => target = target'
  | .device d, .device d' => d = d'
  | _, _ => False

theorem Node.Grows.refl (n : Node) : n.Grows n := by
  cases n <;> simp [Grows]

theorem Node.Grows.trans {n n' n'' : Node} (h : n.Grows n') (h' : n'.Grows n'') : n.Grows n'' := by
  cases n <;> cases n' <;> cases n'' <;> simp_all [Grows]

theorem Node.Grows.of_dir {n n' : Node} (h : n.Grows n') {es : List (Bytes × Ino)} (hn : n = .dir es) :
    ∃ es', n' = .dir es' ∧ ∀ name i, es.lookup name = some i → es'.lookup name = some i := by
  subst hn
  cases n' with
  | dir es' => exact ⟨es', rfl, h⟩
  | file | link | device => cases h

theorem Node.Grows.of_link {n n' : Node} (h : n.Grows n') {target : Bytes} (hn : n = .link target) :
    n' = .link target := by
  subst hn
  cases n' with
  | link target' => rw [show target = target' from h]
  | file | dir | device => cases h

theorem Node.Grows.not_link {n n' : Node} (h : n.Grows n') (hn : ∀ target, n ≠ .link target) (target : Bytes) :
    n' ≠ .link target := by
  rintro rfl
  cases n with
  | link target' => exact hn target' rfl
  | file | dir | device => cases h

/-- The nodes of a place are there. -/
def Place.Within (p : Place) (size : Nat) : Prop := ∀ e ∈ p, e.2 < size

theorem Place.Within.ino_lt {p : Place} {size : Nat} (h : p.Within size) (hs : 0 < size) : p.ino < size := by
  cases p with
  | nil => exact hs
  | cons e p => exact h e (List.mem_cons_self ..)

theorem Place.Within.up {p : Place} {size : Nat} (h : p.Within size) : p.up.Within size :=
  fun e he => h e (List.mem_of_mem_tail he)

/-- The place that the target of a link is walked along from is there, too. -/
theorem Place.Within.start {p : Place} {size : Nat} (h : p.Within size) (target : Bytes) :
    Place.Within (if target.head? = some Path.slash then [] else p) size := by
  split
  · exact fun e he => nomatch he
  · exact h

theorem Place.Within.mono {p : Place} {size size' : Nat} (h : p.Within size) (hs : size ≤ size') : p.Within size' :=
  fun e he => Nat.lt_of_lt_of_le (h e he) hs

namespace Tree

/-- The root is there, and so is every node that an entry leads to. -/
structure Closed (t : Tree) : Prop where
  root : 0 < t.nodes.size
  entry : ∀ {d : Ino} {es : List (Bytes × Ino)} {name : Bytes} {i : Ino}, t.node d = .dir es →
    es.lookup name = some i → i < t.nodes.size

/-- A tree has become this one without losing anything but the contents of files. -/
structure Grows (t t' : Tree) : Prop where
  size : t.nodes.size ≤ t'.nodes.size
  node : ∀ {i : Ino}, i < t.nodes.size → (t.node i).Grows (t'.node i)

theorem Grows.refl (t : Tree) : t.Grows t := ⟨Nat.le_refl _, fun _ => Node.Grows.refl _⟩

theorem Grows.trans {t t' t'' : Tree} (h : t.Grows t') (h' : t'.Grows t'') : t.Grows t'' :=
  ⟨Nat.le_trans h.size h'.size, fun hi => (h.node hi).trans (h'.node (Nat.lt_of_lt_of_le hi h.size))⟩

/-- A walk has ended in this tree: at something that is there, or at a name that a directory does not have. -/
def Ends (t : Tree) : Spot → Prop
  | .found place => place.Within t.nodes.size
  | .vacant dir name _ => dir.Within t.nodes.size ∧ ∃ es, t.node dir.ino = .dir es ∧ es.lookup name = none

/-- Where a walk has ended, something stands in this tree: what it has found, or what has been put under the name that
a walk to make a file found free. -/
def Leads (t : Tree) (arrival : Arrival) : Spot → Place → Prop
  | .found place, place' => place = place'
  | .vacant dir name _, place => arrival = .make ∧ ∃ es i, t.node dir.ino = .dir es ∧ es.lookup name = some i ∧
      (∀ target, t.node i ≠ .link target) ∧ place = (name, i) :: dir

/-! ## One segment -/

/-- How the rest of a walk goes when a link may be followed. -/
abbrev Follow := Option (Place → List Bytes → Except Errno Spot)

/-- A segment that is looked up in its directory. -/
structure LookedUp (arrival : Arrival) (s : Bytes) (rest : List Bytes) : Prop where
  idle : ¬(s = [] ∨ s = Path.dot)
  up : s ≠ Path.dotdot
  isOpen : ¬(arrival = .make ∧ !rest.isEmpty ∧ rest.all (· == []))
  short : ¬longestName < s.length

theorem LookedUp.ite_eq {arrival : Arrival} {s : Bytes} {rest : List Bytes} (h : LookedUp arrival s rest) {α : Type}
    (idle up isOpen long looked : α) :
    (if s = [] ∨ s = Path.dot then idle
      else if s = Path.dotdot then up
      else if arrival = .make ∧ !rest.isEmpty ∧ rest.all (· == []) then isOpen
      else if longestName < s.length then long
      else looked) = looked := by
  rw [if_neg h.idle, if_neg h.up, if_neg h.isOpen, if_neg h.short]

/-- A link may be followed whatever comes after the name. -/
theorem LookedUp.before {s : Bytes} {rest : List Bytes} (h : LookedUp .follow s rest) (rest' : List Bytes) :
    LookedUp .follow s rest' :=
  ⟨h.idle, h.up, by simp, h.short⟩

theorem lookedUp_last {s : Bytes} (hs : s ≠ [] ∧ s ≠ Path.dot ∧ s ≠ Path.dotdot) (hshort : s.length ≤ longestName)
    (arrival : Arrival) : LookedUp arrival s [] :=
  ⟨by simp [hs], hs.2.2, by simp, Nat.not_lt.mpr hshort⟩

section
variable {t : Tree} {arrival : Arrival} {follow : Follow} {here : Place} {s : Bytes} {rest : List Bytes}
  {es : List (Bytes × Ino)} (hd : t.node here.ino = .dir es)
include hd

theorem walkVia_idle (hs : s = [] ∨ s = Path.dot) :
    t.walkVia arrival follow here (s :: rest) = t.walkVia arrival follow here rest := by
  rw [walkVia, hd]
  dsimp only
  rw [if_pos hs]

theorem walkVia_up (hs : s = Path.dotdot) :
    t.walkVia arrival follow here (s :: rest) = t.walkVia arrival follow here.up rest := by
  rw [walkVia, hd]
  dsimp only
  rw [if_neg (by rw [hs]; decide), if_pos hs]

variable (hs : LookedUp arrival s rest) {i : Ino} (hl : es.lookup s = some i)
include hs hl

theorem walkVia_link {target : Bytes} (hi : t.node i = .link target) (hk : ¬(rest = [] ∧ arrival = .keep))
    {f : Place → List Bytes → Except Errno Spot} (hf : follow = some f) (ht : target ≠ []) :
    t.walkVia arrival follow here (s :: rest) =
      f (if target.head? = some Path.slash then [] else here) (Bytes.split Path.slash target ++ rest) := by
  rw [walkVia, hd]
  dsimp only
  rw [hs.ite_eq, hl]
  dsimp only
  rw [hi]
  dsimp only
  rw [if_neg hk, hf]
  dsimp only
  rw [if_neg ht]

theorem walkVia_into (hi : ∀ target, t.node i ≠ .link target) :
    t.walkVia arrival follow here (s :: rest) = t.walkVia arrival follow ((s, i) :: here) rest := by
  rw [walkVia, hd]
  dsimp only
  rw [hs.ite_eq, hl]
  dsimp only
  split
  · rename_i target ht
    exact absurd ht (hi target)
  · rfl

end

/-- What a walk that ends well does at a segment in a directory. -/
inductive Leg (t : Tree) (arrival : Arrival) (follow : Follow) (here : Place) (es : List (Bytes × Ino)) (s : Bytes)
    (rest : List Bytes) (spot : Spot) : Prop where
  | idle (hs : s = [] ∨ s = Path.dot) (h : t.walkVia arrival follow here rest = .ok spot)
  | up (hs : s = Path.dotdot) (h : t.walkVia arrival follow here.up rest = .ok spot)
  | vacant (hs : LookedUp arrival s rest) (hl : es.lookup s = none) (hrest : rest.all (· == []))
      (h : spot = .vacant here s (!rest.isEmpty))
  | kept {i : Ino} {target : Bytes} (hs : LookedUp arrival s rest) (hl : es.lookup s = some i)
      (hi : t.node i = .link target) (hk : rest = [] ∧ arrival = .keep) (h : spot = .found ((s, i) :: here))
  | link {i : Ino} {target : Bytes} {f : Place → List Bytes → Except Errno Spot} (hs : LookedUp arrival s rest)
      (hl : es.lookup s = some i) (hi : t.node i = .link target) (hk : ¬(rest = [] ∧ arrival = .keep))
      (hf : follow = some f) (ht : target ≠ [])
      (h : f (if target.head? = some Path.slash then [] else here) (Bytes.split Path.slash target ++ rest) = .ok spot)
  | into {i : Ino} (hs : LookedUp arrival s rest) (hl : es.lookup s = some i) (hi : ∀ target, t.node i ≠ .link target)
      (h : t.walkVia arrival follow ((s, i) :: here) rest = .ok spot)

theorem walkVia_cons {t : Tree} {arrival : Arrival} {follow : Follow} {here : Place} {s : Bytes} {rest : List Bytes}
    {spot : Spot} : t.walkVia arrival follow here (s :: rest) = .ok spot ↔
      ∃ es, t.node here.ino = .dir es ∧ t.Leg arrival follow here es s rest spot := by
  constructor
  · intro h
    unfold walkVia at h
    split at h
    · rename_i es hd
      refine ⟨es, hd, ?_⟩
      split at h
      · rename_i hs
        exact .idle hs h
      rename_i hidle
      split at h
      · rename_i hs
        exact .up hs h
      rename_i hup
      split at h
      · cases h
      rename_i hopen
      split at h
      · cases h
      rename_i hshort
      have hs : LookedUp arrival s rest := ⟨hidle, hup, hopen, hshort⟩
      split at h
      · rename_i hl
        split at h
        · rename_i hrest
          exact .vacant hs hl hrest (Except.ok.inj h).symm
        · cases h
      rename_i i hl
      split at h
      · rename_i target hi
        split at h
        · rename_i hk
          exact .kept hs hl hi hk (Except.ok.inj h).symm
        rename_i hk
        split at h
        · cases h
        rename_i f
        split at h
        · cases h
        · rename_i ht
          exact .link hs hl hi hk rfl ht h
      · rename_i hi
        exact .into hs hl (fun target => hi target) h
    · cases h
  · rintro ⟨es, hd, hleg⟩
    cases hleg with
    | idle hs h => rw [walkVia_idle hd hs, h]
    | up hs h => rw [walkVia_up hd hs, h]
    | vacant hs hl hrest h =>
      rw [walkVia, hd]
      dsimp only
      rw [hs.ite_eq, hl]
      dsimp only
      rw [if_pos hrest, h]
    | kept hs hl hi hk h =>
      rw [walkVia, hd]
      dsimp only
      rw [hs.ite_eq, hl]
      dsimp only
      rw [hi]
      dsimp only
      rw [if_pos hk, h]
    | link hs hl hi hk hf ht h => rw [walkVia_link hd hs hl hi hk hf ht, h]
    | into hs hl hi h => rw [walkVia_into hd hs hl hi, h]

/-! ## By way of a place -/

section
variable {t : Tree}

/-- Something is found at the end of segments by way of what the first of them lead to. -/
theorem walkVia_split {follow : Follow} {links : Nat} (hlinks : t.walk .follow links = t.walkVia .follow follow)
    (hf : ∀ f, follow = some f → ∀ {here before rest place}, f here (before ++ rest) = .ok (.found place) →
      ∃ mid links, f here before = .ok (.found mid) ∧ t.walk .follow links mid rest = .ok (.found place))
    {rest : List Bytes} {place : Place} : ∀ {before : List Bytes} {here : Place},
      t.walkVia .follow follow here (before ++ rest) = .ok (.found place) →
      ∃ mid links, t.walkVia .follow follow here before = .ok (.found mid) ∧
        t.walk .follow links mid rest = .ok (.found place) := by
  intro before
  induction before with
  | nil =>
    intro here h
    exact ⟨here, links, rfl, by rwa [hlinks]⟩
  | cons s before ih =>
    intro here h
    rw [List.cons_append] at h
    obtain ⟨es, hd, hleg⟩ := walkVia_cons.mp h
    cases hleg with
    | idle hs h =>
      obtain ⟨mid, links, hw, hr⟩ := ih h
      exact ⟨mid, links, walkVia_cons.mpr ⟨es, hd, .idle hs hw⟩, hr⟩
    | up hs h =>
      obtain ⟨mid, links, hw, hr⟩ := ih h
      exact ⟨mid, links, walkVia_cons.mpr ⟨es, hd, .up hs hw⟩, hr⟩
    | vacant _ _ _ h => cases h
    | kept _ _ _ hk _ => cases hk.2
    | link hs hl hi hk hfollow ht h =>
      rw [← List.append_assoc] at h
      obtain ⟨mid, links, hw, hr⟩ := hf _ hfollow h
      exact ⟨mid, links, walkVia_cons.mpr ⟨es, hd, .link (hs.before _) hl hi (by simp) hfollow ht hw⟩, hr⟩
    | into hs hl hi h =>
      obtain ⟨mid, links, hw, hr⟩ := ih h
      exact ⟨mid, links, walkVia_cons.mpr ⟨es, hd, .into (hs.before _) hl hi hw⟩, hr⟩

theorem walk_split : ∀ {links : Nat} {here place : Place} {before rest : List Bytes},
    t.walk .follow links here (before ++ rest) = .ok (.found place) →
      ∃ mid links', t.walk .follow links here before = .ok (.found mid) ∧
        t.walk .follow links' mid rest = .ok (.found place) := by
  intro links
  induction links with
  | zero =>
    intro here place before rest
    exact walkVia_split (show t.walk .follow 0 = _ from rfl) nofun
  | succ links ih =>
    intro here place before rest
    refine walkVia_split (show t.walk .follow (links + 1) = _ from rfl) ?_
    rintro f ⟨rfl⟩
    exact ih

theorem walkVia_append {arrival : Arrival} {follow follow' : Follow} {mid : Place} {rest : List Bytes} {spot : Spot}
    (hne : rest ≠ []) (hname : arrival = .make → ∃ s ∈ rest, s ≠ [])
    (hr : t.walkVia arrival follow' mid rest = .ok spot)
    (hf : ∀ f, follow = some f → ∃ f', follow' = some f' ∧ ∀ {here before},
      f here before = .ok (.found mid) → f' here (before ++ rest) = .ok spot) :
    ∀ {before : List Bytes} {here : Place}, t.walkVia .follow follow here before = .ok (.found mid) →
      t.walkVia arrival follow' here (before ++ rest) = .ok spot := by
  intro before
  induction before with
  | nil =>
    intro here h
    cases h
    exact hr
  | cons s before ih =>
    intro here h
    obtain ⟨es, hd, hleg⟩ := walkVia_cons.mp h
    rw [List.cons_append]
    refine walkVia_cons.mpr ⟨es, hd, ?_⟩
    have hmore : before ++ rest ≠ [] := by simp [hne]
    have hlonger : LookedUp .follow s before → LookedUp arrival s (before ++ rest) := by
      refine fun hs => ⟨hs.idle, hs.up, fun ⟨hmake, _, hslashes⟩ => ?_, hs.short⟩
      obtain ⟨n, hn, hsome⟩ := hname hmake
      have hempty := List.all_eq_true.mp hslashes n (List.mem_append_right _ hn)
      exact hsome (eq_of_beq hempty)
    cases hleg with
    | idle hs h => exact .idle hs (ih h)
    | up hs h => exact .up hs (ih h)
    | vacant _ _ _ h => cases h
    | kept _ _ _ hk _ => cases hk.2
    | link hs hl hi hk hfollow ht h =>
      obtain ⟨f', hfollow', hff'⟩ := hf _ hfollow
      refine .link (hlonger hs) hl hi (fun hk => hmore hk.1) hfollow' ht ?_
      rw [← List.append_assoc]
      exact hff' h
    | into hs hl hi h => exact .into (hlonger hs) hl hi (ih h)

/-- A walk goes on from what its first segments lead to. What comes after them leads there without links. -/
theorem walk_append {arrival : Arrival} {mid : Place} {rest : List Bytes} {spot : Spot} (hne : rest ≠ [])
    (hname : arrival = .make → ∃ s ∈ rest, s ≠ []) (hr : ∀ follow, t.walkVia arrival follow mid rest = .ok spot) :
    ∀ {links : Nat} {here : Place} {before : List Bytes}, t.walk .follow links here before = .ok (.found mid) →
      t.walk arrival links here (before ++ rest) = .ok spot := by
  intro links
  induction links with
  | zero =>
    refine walkVia_append hne hname (hr none) ?_
    rintro f ⟨⟩
  | succ links ih =>
    refine walkVia_append hne hname (hr _) ?_
    rintro f ⟨rfl⟩
    exact ⟨_, rfl, ih⟩

/-- A walk that goes on from a place finds a directory there. -/
theorem walk_dir {arrival : Arrival} {links : Nat} {here : Place} {s : Bytes} {rest : List Bytes} {spot : Spot}
    (h : t.walk arrival links here (s :: rest) = .ok spot) :
    ∃ follow es, t.node here.ino = .dir es ∧ t.Leg arrival follow here es s rest spot := by
  cases links with
  | zero => exact ⟨_, walkVia_cons.mp h⟩
  | succ links => exact ⟨_, walkVia_cons.mp h⟩

/-- A walk that goes on to a name and finds something has found the name in a directory. -/
theorem walk_name {s : Bytes} (hs : s ≠ [] ∧ s ≠ Path.dot ∧ s ≠ Path.dotdot) {links : Nat} {here place : Place}
    {rest : List Bytes} (h : t.walk .follow links here (s :: rest) = .ok (.found place)) :
    ∃ es i, t.node here.ino = .dir es ∧ LookedUp .follow s rest ∧ es.lookup s = some i := by
  obtain ⟨follow, es, hd, hleg⟩ := walk_dir h
  cases hleg with
  | idle hidle _ => exact absurd hidle (by simp [hs])
  | up hup _ => exact absurd hup hs.2.2
  | vacant _ _ _ h => cases h
  | kept hu hl _ _ _ => exact ⟨es, _, hd, hu, hl⟩
  | link hu hl _ _ _ _ _ => exact ⟨es, _, hd, hu, hl⟩
  | into hu hl _ _ => exact ⟨es, _, hd, hu, hl⟩

/-- A path is walked along by way of the directory that its last name is in. -/
theorem walk_last {s : Bytes} (hs : s ≠ [] ∧ s ≠ Path.dot ∧ s ≠ Path.dotdot) {links : Nat} {here place : Place}
    {before : List Bytes} (h : t.walk .follow links here (before ++ [s]) = .ok (.found place)) :
    ∃ dir es i, t.walk .follow links here before = .ok (.found dir) ∧ t.node dir.ino = .dir es ∧
      es.lookup s = some i := by
  obtain ⟨dir, links', hw, hr⟩ := walk_split h
  obtain ⟨es, i, hd, -, hl⟩ := walk_name hs hr
  exact ⟨dir, es, i, hw, hd, hl⟩

end

/-! ## In the same tree and in a larger one -/

section
variable {t : Tree} (hc : t.Closed)
include hc

/-- An entry leads to a node of the tree, so the place that it names is there. -/
theorem Closed.within_cons {here : Place} (hh : here.Within t.nodes.size) {d : Ino} {es : List (Bytes × Ino)} {s : Bytes}
    {i : Ino} (hd : t.node d = .dir es) (hl : es.lookup s = some i) : Place.Within ((s, i) :: here) t.nodes.size := by
  intro e he
  rcases List.mem_cons.mp he with rfl | he
  · exact hc.entry hd hl
  · exact hh e he

theorem walkVia_ends {arrival : Arrival} {follow : Follow}
    (hf : ∀ f, follow = some f → ∀ {here segments spot}, Place.Within here t.nodes.size →
      f here segments = .ok spot → t.Ends spot) :
    ∀ {segments : List Bytes} {here : Place} {spot : Spot}, here.Within t.nodes.size →
      t.walkVia arrival follow here segments = .ok spot → t.Ends spot := by
  intro segments
  induction segments with
  | nil =>
    intro here spot hh h
    cases h
    exact hh
  | cons s rest ih =>
    intro here spot hh h
    obtain ⟨es, hd, hleg⟩ := walkVia_cons.mp h
    cases hleg with
    | idle _ h => exact ih hh h
    | up _ h => exact ih hh.up h
    | vacant _ hl _ h =>
      subst h
      exact ⟨hh, es, hd, hl⟩
    | kept _ hl _ _ h =>
      subst h
      exact hc.within_cons hh hd hl
    | link _ _ _ _ hfollow _ h => exact hf _ hfollow (hh.start _) h
    | into _ hl _ h => exact ih (hc.within_cons hh hd hl) h

theorem walk_ends {arrival : Arrival} : ∀ {links : Nat} {here : Place} {segments : List Bytes} {spot : Spot},
    here.Within t.nodes.size → t.walk arrival links here segments = .ok spot → t.Ends spot := by
  intro links
  induction links with
  | zero => exact walkVia_ends hc (by simp)
  | succ links ih =>
    intro here segments spot
    refine walkVia_ends hc ?_
    rintro f ⟨rfl⟩
    exact fun hh => ih hh

variable {t' : Tree} (hg : t.Grows t') {arrival arrival' : Arrival} (hmake : arrival' = .make → arrival = .make)
  (hkeep : arrival' = .keep ↔ arrival = .keep)
include hg hmake hkeep

theorem walkVia_leads {follow follow' : Follow}
    (hf : ∀ f, follow = some f → ∃ f', follow' = some f' ∧ ∀ {here segments spot place}, Place.Within here t.nodes.size →
      f here segments = .ok spot → t'.Leads arrival spot place → f' here segments = .ok (.found place)) :
    ∀ {segments : List Bytes} {here place : Place} {spot : Spot}, here.Within t.nodes.size →
      t.walkVia arrival follow here segments = .ok spot → t'.Leads arrival spot place →
      t'.walkVia arrival' follow' here segments = .ok (.found place) := by
  intro segments
  induction segments with
  | nil =>
    rintro here place spot - ⟨⟩ ⟨⟩
    rfl
  | cons s rest ih =>
    intro here place spot hh h hto
    obtain ⟨es, hd, hleg⟩ := walkVia_cons.mp h
    obtain ⟨es', hd', hes⟩ := (hg.node (hh.ino_lt hc.root)).of_dir hd
    have hlook : LookedUp arrival s rest → LookedUp arrival' s rest :=
      fun hs => ⟨hs.idle, hs.up, fun ho => hs.isOpen ⟨hmake ho.1, ho.2⟩, hs.short⟩
    refine walkVia_cons.mpr ⟨es', hd', ?_⟩
    cases hleg with
    | idle hs h => exact .idle hs (ih hh h hto)
    | up hs h => exact .up hs (ih hh.up h hto)
    | vacant hs hl hrest h =>
      -- the name has been added since, and nothing comes after it
      subst h
      obtain ⟨hm, es'', i, hd'', hl', hnl, rfl⟩ := hto
      obtain rfl := Node.dir.inj (hd'.symm.trans hd'')
      obtain rfl : rest = [] := by
        cases rest with
        | nil => rfl
        | cons s rest => exact absurd ⟨hm, rfl, hrest⟩ hs.isOpen
      exact .into (hlook hs) hl' hnl rfl
    | kept hs hl hi hk h =>
      subst h
      obtain rfl := hto
      exact .kept (hlook hs) (hes s _ hl) ((hg.node (hc.entry hd hl)).of_link hi) ⟨hk.1, hkeep.mpr hk.2⟩ rfl
    | link hs hl hi hk hfollow ht h =>
      obtain ⟨f', hfollow', hff'⟩ := hf _ hfollow
      exact .link (hlook hs) (hes s _ hl) ((hg.node (hc.entry hd hl)).of_link hi) (fun hk' => hk ⟨hk'.1, hkeep.mp hk'.2⟩)
        hfollow' ht (hff' (hh.start _) h hto)
    | into hs hl hi h =>
      exact .into (hlook hs) (hes s _ hl) ((hg.node (hc.entry hd hl)).not_link hi) (ih (hc.within_cons hh hd hl) h hto)

/-- A walk leads to what it found, and to what has been made under the name that it found free. It may have been one
to make a file; that one is walked along in any case. -/
theorem walk_leads : ∀ {links : Nat} {here place : Place} {segments : List Bytes} {spot : Spot},
    here.Within t.nodes.size → t.walk arrival links here segments = .ok spot → t'.Leads arrival spot place →
      t'.walk arrival' links here segments = .ok (.found place) := by
  intro links
  induction links with
  | zero => exact walkVia_leads hc hg hmake hkeep (by simp)
  | succ links ih =>
    intro here place segments spot
    refine walkVia_leads hc hg hmake hkeep ?_
    rintro f ⟨rfl⟩
    exact ⟨_, rfl, fun hh => ih hh⟩

omit hmake hkeep in
theorem walk_grows {links : Nat} {here place : Place} {segments : List Bytes} (hh : here.Within t.nodes.size)
    (h : t.walk arrival links here segments = .ok (.found place)) :
    t'.walk arrival links here segments = .ok (.found place) :=
  walk_leads hc hg id Iff.rfl hh h rfl

end

end Tree

end Retrace
