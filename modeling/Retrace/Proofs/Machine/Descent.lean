import Retrace.Proofs.Machine.Writing
import Retrace.Proofs.Path.Split

/-!
# Ways through directories

A walk goes by what the segments before its end lead to. So what stands at a path stands in a directory, which is
found at the path above, and a directory that is there is not made again.
-/

namespace Retrace

namespace Tree

variable {t : Tree}

theorem walk_idle {here : Place} {es : List (Bytes × Ino)} (hd : t.node here.ino = .dir es) {s : Bytes}
    (hs : s = [] ∨ s = Path.dot) (arrival : Arrival) (links : Nat) (rest : List Bytes) :
    t.walk arrival links here (s :: rest) = t.walk arrival links here rest := by
  cases links <;> exact walkVia_idle hd hs

/-- Slashes and dots at the end lead nowhere else. -/
theorem walkVia_of_idle {arrival : Arrival} {follow : Follow} {here place : Place} {rest : List Bytes}
    (hrest : ∀ s ∈ rest, s = [] ∨ s = Path.dot) (h : t.walkVia arrival follow here rest = .ok (.found place)) :
    here = place := by
  induction rest with
  | nil =>
    cases h
    rfl
  | cons s rest ih =>
    have hs := hrest s (List.mem_cons_self ..)
    obtain ⟨es, -, hleg⟩ := walkVia_cons.mp h
    cases hleg with
    | idle _ h => exact ih (fun s hs => hrest s (List.mem_cons_of_mem _ hs)) h
    | up hup _ => exact absurd (hup ▸ hs) (by decide)
    | vacant hu _ _ _ => exact absurd hs hu.idle
    | kept hu _ _ _ _ => exact absurd hs hu.idle
    | link hu _ _ _ _ _ _ => exact absurd hs hu.idle
    | into hu _ _ _ => exact absurd hs hu.idle

theorem walk_of_idle {arrival : Arrival} {links : Nat} {here place : Place} {rest : List Bytes}
    (hrest : ∀ s ∈ rest, s = [] ∨ s = Path.dot) (h : t.walk arrival links here rest = .ok (.found place)) :
    here = place := by
  cases links with
  | zero => exact walkVia_of_idle hrest h
  | succ links => exact walkVia_of_idle hrest h

/-- What is found with a slash after it is a directory. -/
theorem dir_of_slashed {links : Nat} {here place : Place} {before rest : List Bytes} (hne : rest ≠ [])
    (hrest : ∀ s ∈ rest, s = []) (h : t.walk .follow links here (before ++ rest) = .ok (.found place)) :
    ∃ es, t.node place.ino = .dir es := by
  obtain ⟨mid, links', -, hr⟩ := walk_split h
  obtain rfl := walk_of_idle (fun s hs => Or.inl (hrest s hs)) hr
  obtain ⟨s, rest, rfl⟩ := List.exists_cons_of_ne_nil hne
  obtain ⟨-, es, hd, -⟩ := walk_dir hr
  exact ⟨es, hd⟩

/-! ## Files -/

theorem walkVia_make {follow follow' : Follow} {links : Nat} (hlinks : t.walk .follow links = t.walkVia .follow follow)
    {place : Place} (hp : ∀ es, t.node place.ino ≠ .dir es)
    (hf : ∀ f, follow = some f → ∃ f', follow' = some f' ∧ ∀ {here segments},
      f here segments = .ok (.found place) → f' here segments = .ok (.found place)) :
    ∀ {segments : List Bytes} {here : Place}, t.walkVia .follow follow here segments = .ok (.found place) →
      t.walkVia .make follow' here segments = .ok (.found place) := by
  intro segments
  induction segments with
  | nil => exact fun h => h
  | cons s rest ih =>
    intro here h
    have hwalk : t.walk .follow links here ([s] ++ rest) = .ok (.found place) := by rwa [hlinks]
    obtain ⟨es, hd, hleg⟩ := walkVia_cons.mp h
    refine walkVia_cons.mpr ⟨es, hd, ?_⟩
    -- a slash after a name is followed only into a directory, and the place is none
    have hlook : LookedUp .follow s rest → LookedUp .make s rest := by
      refine fun hs => ⟨hs.idle, hs.up, fun ⟨_, hne, hslashes⟩ => ?_, hs.short⟩
      have hne : rest ≠ [] := by
        rintro rfl
        cases hne
      obtain ⟨es, hes⟩ := dir_of_slashed hne (by simpa using hslashes) hwalk
      exact hp es hes
    cases hleg with
    | idle hs h => exact .idle hs (ih h)
    | up hs h => exact .up hs (ih h)
    | vacant _ _ _ h => cases h
    | kept _ _ _ hk _ => cases hk.2
    | link hs hl hi hk hfollow ht h =>
      obtain ⟨f', hfollow', hff'⟩ := hf _ hfollow
      exact .link (hlook hs) hl hi (by simp) hfollow' ht (hff' h)
    | into hs hl hi h => exact .into (hlook hs) hl hi (ih h)

/-- What is found and is no directory is found in the same way when a file is opened that may be made. -/
theorem walk_make {place : Place} (hp : ∀ es, t.node place.ino ≠ .dir es) : ∀ {links : Nat} {here : Place}
    {segments : List Bytes}, t.walk .follow links here segments = .ok (.found place) →
      t.walk .make links here segments = .ok (.found place) := by
  intro links
  induction links with
  | zero => exact walkVia_make (show t.walk .follow 0 = _ from rfl) hp nofun
  | succ links ih =>
    refine walkVia_make (show t.walk .follow (links + 1) = _ from rfl) hp ?_
    rintro f ⟨rfl⟩
    exact ⟨_, rfl, ih⟩

end Tree

namespace Machine

variable {m m' : Machine} {p q : Path}

theorem shortStart_eq_ok {here : Place} {segments : List Bytes} : m.shortStart p = .ok (here, segments) ↔
    (0 ∉ p.raw ∧ p.raw ≠ [] ∧ p.raw.length ≤ longestPath) ∧ (if p.isAbsolute then [] else m.cwd) = here ∧
      p.segments = segments := by
  unfold shortStart start
  by_cases hz : (0 : UInt8) ∈ p.raw
  · simp [hz]
  by_cases hn : p.raw = []
  · simp [hn]
  by_cases hl : longestPath < p.raw.length
  · have hle : ¬p.raw.length ≤ longestPath := Nat.not_le.mpr hl
    simp [hz, hl, hle]
  · have hle : p.raw.length ≤ longestPath := Nat.not_lt.mp hl
    simp [hz, hn, hl, hle]

theorem length_pos_of_find {place : Place} (hf : m.find p = .ok place) : 0 < p.raw.length := by
  obtain ⟨here, segments, hs, -⟩ := spot_eq_ok.mp (find_eq_ok.mp hf)
  exact List.length_pos_iff.mpr (shortStart_eq_ok.mp hs).1.2.1

/-- What a path leads to is in a directory that the path above leads to. -/
theorem isDir_parent {place : Place} (hq : p.parent? = some q) (hne : q.raw ≠ []) (hf : m.find p = .ok place) :
    m.isDir q = true := by
  obtain ⟨here, segments, hs, hw⟩ := spot_eq_ok.mp (find_eq_ok.mp hf)
  obtain ⟨⟨hz, hn, hl⟩, rfl, rfl⟩ := shortStart_eq_ok.mp hs
  obtain ⟨more, hraw, -⟩ := Path.raw_of_parent? hq hne
  have habs : q.isAbsolute = p.isAbsolute := by
    obtain ⟨b, bs, hb⟩ := List.exists_cons_of_ne_nil hne
    simp [Path.isAbsolute, hraw, hb]
  have hstart : m.shortStart q = .ok (if p.isAbsolute then [] else m.cwd, q.segments) := by
    refine shortStart_eq_ok.mpr ⟨⟨fun h => hz ?_, hne, ?_⟩, by rw [habs], rfl⟩
    · rw [hraw]
      exact List.mem_append_left _ h
    · rw [hraw, List.length_append] at hl
      omega
  have hdir : ∃ mid es, m.tree.walk .follow Tree.mostLinks (if p.isAbsolute then [] else m.cwd) q.segments =
      .ok (.found mid) ∧ m.tree.node mid.ino = .dir es := by
    rcases Path.parent?_cases hq with hempty | ⟨hroot, s, rest, hseg⟩ | ⟨-, rest, hrest, hseg⟩
    · exact absurd hempty hne
    · obtain rfl : q = ⟨[Path.slash]⟩ := congrArg Path.mk hroot
      have hp : p.isAbsolute = true := habs.symm
      rw [hp, if_pos rfl, hseg] at hw
      obtain ⟨-, es, hd, -⟩ := Tree.walk_dir hw
      refine ⟨[], es, ?_, hd⟩
      rw [hp, if_pos rfl, show Path.segments ⟨[Path.slash]⟩ = [[], []] from rfl, Tree.walk_idle hd (Or.inl rfl),
        Tree.walk_idle hd (Or.inl rfl)]
      rfl
    · rw [hseg] at hw
      obtain ⟨mid, links, hmid, hr⟩ := Tree.walk_split hw
      obtain ⟨s, rest, rfl⟩ := List.exists_cons_of_ne_nil hrest
      obtain ⟨-, es, hd, -⟩ := Tree.walk_dir hr
      exact ⟨mid, es, hmid, hd⟩
  obtain ⟨mid, es, hmid, hd⟩ := hdir
  have hfind : m.find q = .ok mid := find_eq_ok.mpr (spot_eq_ok.mpr ⟨_, _, hstart, hmid⟩)
  rw [isDir, node?, hfind]
  simp [Except.toOption, hd]

/-- What is there is not made again. -/
theorem makeDir_of_find {place : Place} (hf : m.find p = .ok place) : m.makeDir p = .error (.os .EEXIST) := by
  obtain ⟨here, segments, hs, hw⟩ := spot_eq_ok.mp (find_eq_ok.mp hf)
  have hentry : ∃ e, m.tree.entry Tree.mostLinks here segments = .ok e ∧
      ∀ dir name closed, e ≠ .named dir name closed none := by
    unfold Tree.entry
    dsimp only
    split
    · exact ⟨_, rfl, nofun⟩
    rename_i last before hlast
    have hcut : segments = before.reverse ++ (last :: (segments.reverse.takeWhile (· == [])).reverse) := by
      have hparts := List.takeWhile_append_dropWhile (p := (· == [])) (l := segments.reverse)
      rw [hlast] at hparts
      simpa using (congrArg List.reverse hparts).symm
    rw [hcut] at hw
    obtain ⟨mid, links, hmid, hr⟩ := Tree.walk_split hw
    obtain ⟨-, es, hd, -⟩ := Tree.walk_dir hr
    rw [hmid]
    simp only [bind, Except.bind, hd]
    split
    · exact ⟨_, rfl, nofun⟩
    rename_i hdots
    rw [not_or] at hdots
    have hlast' : last ≠ [] := by
      have := List.head?_dropWhile_not (· == []) segments.reverse
      rw [hlast] at this
      simpa using this
    obtain ⟨es', i, hd', hu, hl⟩ := Tree.walk_name ⟨hlast', hdots⟩ hr
    obtain rfl := Node.dir.inj (hd.symm.trans hd')
    rw [if_neg hu.short, hl]
    exact ⟨_, rfl, fun _ _ _ he => nomatch (Tree.Entry.named.inj he).2.2.2⟩
  obtain ⟨e, he, hno⟩ := hentry
  unfold makeDir entry
  rw [hs]
  simp only [bind, Except.bind, he, mapError_ok]

theorem find_of_isFile (h : m.isFile p = true) :
    ∃ place content mode, m.find p = .ok place ∧ m.tree.node place.ino = .file content mode := by
  unfold isFile node? at h
  cases hf : m.find p with
  | error e => simp [hf, Except.toOption] at h
  | ok place =>
    cases hn : m.tree.node place.ino with
    | file content mode => exact ⟨place, content, mode, rfl, hn⟩
    | dir | link | device => simp [hf, hn, Except.toOption] at h

theorem find_of_isDir (h : m.isDir p = true) : ∃ place es, m.find p = .ok place ∧ m.tree.node place.ino = .dir es := by
  unfold isDir node? at h
  cases hf : m.find p with
  | error e => simp [hf, Except.toOption] at h
  | ok place =>
    rw [hf] at h
    cases hd : m.tree.node place.ino with
    | dir es => exact ⟨place, es, rfl, hd⟩
    | file | link | device => simp [Except.toOption, hd] at h

/-- A file stands in a directory. -/
theorem exists_parent_of_isFile (h : m.isFile p = true) : ∃ q, p.parent? = some q := by
  obtain ⟨place, content, mode, hf, hn⟩ := find_of_isFile h
  obtain ⟨here, segments, hs, hw⟩ := spot_eq_ok.mp (find_eq_ok.mp hf)
  obtain ⟨⟨-, hraw, -⟩, -, rfl⟩ := shortStart_eq_ok.mp hs
  cases hq : p.parent? with
  | some q => exact ⟨q, rfl⟩
  | none =>
    have hidle := (Path.idle_of_parent?_none hq).resolve_left hraw
    obtain ⟨first, rest, hseg⟩ := Bytes.split_eq_cons Path.slash p.raw
    obtain rfl := Tree.walk_of_idle hidle hw
    rw [Path.segments, hseg] at hw
    obtain ⟨-, es, hd, -⟩ := Tree.walk_dir hw
    rw [hd] at hn
    cases hn

/-- A directory that is there is not made. -/
theorem makeAllDirs_of_isDir (h : m.isDir p = true) : m.makeAllDirs p = (m, .ok ()) := by
  obtain ⟨place, es, hf, -⟩ := find_of_isDir h
  unfold makeAllDirs makeDirs
  rw [makeDir_of_find hf, h]
  split <;> rfl

/-- Nothing has to be made for the empty path. -/
theorem makeDirs_of_empty (h : p.raw = []) {fuel : Nat} (hfuel : 0 < fuel) : makeDirs fuel m p = (m, .ok ()) := by
  obtain ⟨fuel, rfl⟩ := Nat.exists_eq_succ_of_ne_zero (Nat.ne_of_gt hfuel)
  obtain rfl : p = ⟨[]⟩ := congrArg Path.mk h
  rfl

theorem ensureDir_eq_error {e : IoError} (h : m.ensureDir p = (m', .error e)) : m = m' ∧ m.isDir p = false := by
  unfold ensureDir at h
  split at h
  · cases h
  · obtain ⟨rfl, h⟩ := Prod.mk.inj h
    refine ⟨rfl, ?_⟩
    rw [← Bool.not_eq_true]
    intro hdir
    rw [if_pos hdir] at h
    cases h

/-- When the directories down to a path cannot be made, the path leads to none. -/
theorem not_isDir_of_makeDirs {fuel : Nat} {e : IoError} (hfuel : p.raw.length < fuel)
    (h : makeDirs fuel m p = (m', .error e)) : m'.isDir p = false := by
  rw [← Bool.not_eq_true]
  intro hdir
  obtain ⟨place, es, hf, -⟩ := find_of_isDir hdir
  induction fuel generalizing p m e place with
  | zero => exact absurd hfuel (Nat.not_lt_zero _)
  | succ fuel ih =>
    unfold makeDirs at h
    split at h
    · cases h
    split at h
    · cases h
    rename_i hmake
    split at h
    · rename_i hmissing
      split at h
      · cases h
        rw [makeDir_of_find hf] at hmake
        cases hmake
        cases hmissing
      rename_i above habove
      -- either the directory above could not be made, or this one in it
      rcases hmade : makeDirs fuel m above with ⟨m₁, e₁ | u⟩
      · rw [hmade] at h
        cases h
        by_cases hempty : above.raw = []
        · have hsome := length_pos_of_find hf
          rw [makeDirs_of_empty hempty (by omega)] at hmade
          cases hmade
        · obtain ⟨more, hraw, hmore⟩ := Path.raw_of_parent? habove hempty
          have hlonger : 0 < more.length := List.length_pos_iff.mpr hmore
          rw [hraw, List.length_append] at hfuel
          have habove := isDir_parent habove hempty hf
          obtain ⟨place, es, hf, -⟩ := find_of_isDir habove
          exact ih (by omega) hmade habove place hf
      · rw [hmade] at h
        obtain ⟨rfl, hno⟩ := ensureDir_eq_error h
        rw [hdir] at hno
        cases hno
    · obtain ⟨rfl, h⟩ := Prod.mk.inj h
      rw [if_pos hdir] at h
      cases h

/-- The bytes of the file that a path leads to. -/
def contents? (m : Machine) (p : Path) : Option Bytes :=
  match m.node? p with
  | some (.file content _) => some content
  | _ => none

theorem contents?_eq_some {content : Bytes} : m.contents? p = some content ↔
    ∃ place mode, m.find p = .ok place ∧ m.tree.node place.ino = .file content mode := by
  unfold contents? node?
  cases hf : m.find p with
  | error e => simp [Except.toOption]
  | ok place => cases hn : m.tree.node place.ino <;> simp [Except.toOption, hn]

theorem read_of_contents? {content : Bytes} (h : m.contents? p = some content) : m.read p = .ok content := by
  obtain ⟨place, mode, hf, hn⟩ := contents?_eq_some.mp h
  exact read_of_find hf hn

theorem SameFiles.contents? (h : m.SameFiles m') (hk : m.Keeps m') (hm : m.Sane) {content : Bytes}
    (hc : m.contents? p = some content) : m'.contents? p = some content := by
  obtain ⟨place, mode, hf, hn⟩ := contents?_eq_some.mp hc
  exact contents?_eq_some.mpr ⟨place, mode, hk.find hm hf, (h _ _ _).mp hn⟩

/-- Where a file is, it can be written. -/
theorem takes_of_contents? {content : Bytes} (h : m.contents? p = some content) : m.Takes p := by
  obtain ⟨place, mode, hf, hn⟩ := contents?_eq_some.mp h
  obtain ⟨here, segments, hs, hw⟩ := spot_eq_ok.mp (find_eq_ok.mp hf)
  have hnodir : ∀ es, m.tree.node place.ino ≠ .dir es := fun es hd => nomatch hn.symm.trans hd
  have hmake : m.spot .make p = .ok (.found place) := spot_eq_ok.mpr ⟨here, segments, hs, Tree.walk_make hnodir hw⟩
  have hopen : m.openSpot p = .ok (.found place) := by
    unfold openSpot
    simp only [hmake, bind, Except.bind, hn]
  rw [Takes, hopen]
  exact ⟨content, mode, hn⟩

/-- Where something was written there is a file, unless a device stands there. -/
theorem takes_of_write (hm : m.Sane) (hplain : m.isThere p = true → m.isFile p = true ∨ m.isDir p = true)
    {content : Bytes} {mode : Nat} (h : m.write p content mode = .ok m') : m.Takes p := by
  obtain ⟨spot, ho, -⟩ := bind_eq_ok.mp h
  rw [Takes, ho]
  cases spot with
  | vacant => trivial
  | found place =>
    have hf : m.find p = .ok place := (Keeps.refl hm).find_opened hm ho rfl
    have hthere : m.isThere p = true := by
      rw [isThere, hf]
      rfl
    rcases hplain hthere with hfile | hdir
    · obtain ⟨place', content, mode, hf', hn⟩ := find_of_isFile hfile
      rw [hf] at hf'
      cases hf'
      exact ⟨content, mode, hn⟩
    · obtain ⟨place', es, hf', hd⟩ := find_of_isDir hdir
      rw [hf] at hf'
      cases hf'
      obtain ⟨spot, hs, ho⟩ := bind_eq_ok.mp ho
      cases spot with
      | vacant => cases ho
      | found place =>
        dsimp only at ho
        split at ho
        · cases ho
        · cases ho
        · rename_i hno _
          cases ho
          exact absurd hd (hno es)

/-- Where a file is, the directories above it are. -/
theorem prepare_of_contents? {content : Bytes} (h : (m.prepare p).1.contents? p = some content) :
    (m.prepare p).2 = .ok () := by
  obtain ⟨place, -, hf, -⟩ := contents?_eq_some.mp h
  unfold prepare at hf ⊢
  cases hp : p.parent? with
  | none => rfl
  | some above =>
    rw [hp] at hf
    dsimp only at hf ⊢
    rcases hmade : m.makeAllDirs above with ⟨m', e | u⟩
    · rw [hmade] at hf
      have hno := not_isDir_of_makeDirs (Nat.lt_succ_self _) hmade
      by_cases hempty : above.raw = []
      · rw [makeAllDirs, makeDirs_of_empty hempty (Nat.succ_pos _)] at hmade
        cases hmade
      · rw [isDir_parent hp hempty hf] at hno
        cases hno
    · rfl

theorem writable_of_contents? (hm : m.Sane) {content : Bytes} (h : m.contents? p = some content) : m.Writable p := by
  have hprepared := (sameFiles_prepare hm p).contents? (keeps_prepare hm p) hm h
  exact ⟨prepare_of_contents? hprepared, takes_of_contents? hprepared⟩

end Machine

end Retrace
