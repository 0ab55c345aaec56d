import Retrace.Proofs.Machine.Directory

/-!
# Walks with more links to follow

A walk that has not run out of links ends in the same way when it may follow more of them. So a path that leads to no
directory has a last name that leads to none.
-/

namespace Retrace

namespace Tree

variable {t : Tree}

theorem walkVia_more {arrival : Arrival} {follow follow' : Follow}
    (hf : ∀ f, follow = some f → ∃ f', follow' = some f' ∧ ∀ {here segments},
      f here segments ≠ .error .ELOOP → f' here segments = f here segments) :
    ∀ {segments : List Bytes} {here : Place}, t.walkVia arrival follow here segments ≠ .error .ELOOP →
      t.walkVia arrival follow' here segments = t.walkVia arrival follow here segments := by
  intro segments
  induction segments with
  | nil => exact fun _ => rfl
  | cons s rest ih =>
    intro here
    unfold walkVia
    split
    · rename_i es hd
      split
      · exact ih
      split
      · exact ih
      split
      · exact fun _ => rfl
      split
      · exact fun _ => rfl
      split
      · exact fun _ => rfl
      split
      · split
        · exact fun _ => rfl
        cases follow with
        | none => exact fun hne => absurd rfl hne
        | some f =>
          obtain ⟨f', rfl, hff'⟩ := hf f rfl
          dsimp only
          split
          · exact fun _ => rfl
          · exact hff'
      · exact ih
    · exact fun _ => rfl

/-- Only a walk that has run out of links ends otherwise when it may follow more. -/
theorem walk_succ {arrival : Arrival} : ∀ {links : Nat} {here : Place} {segments : List Bytes},
    t.walk arrival links here segments ≠ .error .ELOOP →
      t.walk arrival (links + 1) here segments = t.walk arrival links here segments := by
  intro links
  induction links with
  | zero =>
    refine walkVia_more ?_
    rintro f ⟨⟩
  | succ links ih =>
    refine walkVia_more ?_
    rintro f ⟨rfl⟩
    exact ⟨_, rfl, ih⟩

theorem walk_le {arrival : Arrival} {links links' : Nat} (hle : links ≤ links') {here : Place} {segments : List Bytes}
    (hne : t.walk arrival links here segments ≠ .error .ELOOP) :
    t.walk arrival links' here segments = t.walk arrival links here segments := by
  induction links', hle using Nat.le_induction with
  | base => rfl
  | succ links' _ ih => rw [walk_succ (by rwa [ih]), ih]

theorem walkVia_rest {follow : Follow} {links : Nat} (hlinks : t.walk .follow links = t.walkVia .follow follow)
    {rest : List Bytes}
    (hf : ∀ f, follow = some f → ∀ {here before mid}, f here before = .ok (.found mid) →
      ∃ links, f here (before ++ rest) = t.walk .follow links mid rest) :
    ∀ {before : List Bytes} {here mid : Place}, t.walkVia .follow follow here before = .ok (.found mid) →
      ∃ links, t.walkVia .follow follow here (before ++ rest) = t.walk .follow links mid rest := by
  intro before
  induction before with
  | nil =>
    intro here mid h
    cases h
    exact ⟨links, by rw [hlinks]; rfl⟩
  | cons s before ih =>
    intro here mid h
    obtain ⟨es, hd, hleg⟩ := walkVia_cons.mp h
    rw [List.cons_append]
    cases hleg with
    | idle hs h =>
      rw [walkVia_idle hd hs]
      exact ih h
    | up hs h =>
      rw [walkVia_up hd hs]
      exact ih h
    | vacant _ _ _ h => cases h
    | kept _ _ _ hk _ => cases hk.2
    | link hs hl hi hk hfollow ht h =>
      rw [walkVia_link hd (hs.before _) hl hi (by simp) hfollow ht, ← List.append_assoc]
      exact hf _ hfollow h
    | into hs hl hi h =>
      rw [walkVia_into hd (hs.before _) hl hi]
      exact ih h

/-- A walk goes on from what its first segments lead to as one from there does, with the links that are left. -/
theorem walk_rest (rest : List Bytes) : ∀ {links : Nat} {here mid : Place} {before : List Bytes},
    t.walk .follow links here before = .ok (.found mid) →
      ∃ links', t.walk .follow links here (before ++ rest) = t.walk .follow links' mid rest := by
  intro links
  induction links with
  | zero =>
    intro here mid before
    exact walkVia_rest (show t.walk .follow 0 = _ from rfl) nofun
  | succ links ih =>
    intro here mid before
    refine walkVia_rest (show t.walk .follow (links + 1) = _ from rfl) ?_
    rintro f ⟨rfl⟩
    exact ih

end Tree

namespace Machine

variable {m : Machine} {p : Path}

/-- A path leads to something that has bytes, or to nothing: not to a directory, and not on and on along links. -/
structure Readable (m : Machine) (p : Path) : Prop where
  noDir : m.read p ≠ .error (.os .EISDIR)
  noLoop : m.read p ≠ .error (.os .ELOOP)

theorem readable_of_read {content : Bytes} (h : m.read p = .ok content) : m.Readable p := by
  constructor <;> simp [h]

theorem Readable.congr {m' : Machine} (hr : m.Readable p) (h : m'.read p = m.read p) : m'.Readable p :=
  ⟨by rw [h]; exact hr.noDir, by rw [h]; exact hr.noLoop⟩

theorem Readable.walk (hr : m.Readable p) {here : Place} {segments : List Bytes}
    (hs : m.shortStart p = .ok (here, segments)) :
    m.tree.walk .follow Tree.mostLinks here segments ≠ .error .ELOOP ∧ ∀ {place es},
      m.tree.walk .follow Tree.mostLinks here segments = .ok (.found place) → m.tree.node place.ino ≠ .dir es := by
  have hfind : m.find p = (m.tree.walk .follow Tree.mostLinks here segments).mapError .os >>= arrived := by
    unfold find spot
    rw [hs]
    rfl
  refine ⟨fun hloop => hr.noLoop ?_, fun {place es} hw hd => hr.noDir ?_⟩
  · unfold read
    rw [hfind, hloop]
    rfl
  · unfold read
    rw [hfind, hw]
    simp only [mapError_ok, bind, Except.bind, arrived, hd]

/-- The name at the end of the path leads to no directory, however many links may be followed. -/
theorem Readable.not_dir (hr : m.Readable p) {here dir : Place} {before : List Bytes} {name : Bytes}
    (hs : m.shortStart p = .ok (here, before ++ [name]))
    (hw : m.tree.walk .follow Tree.mostLinks here before = .ok (.found dir)) {links : Nat} {place : Place}
    {es : List (Bytes × Ino)} (hl : m.tree.walk .follow links dir [name] = .ok (.found place)) :
    m.tree.node place.ino ≠ .dir es := by
  obtain ⟨hne, hno⟩ := hr.walk hs
  obtain ⟨links', hrest⟩ := Tree.walk_rest [name] hw
  rw [hrest] at hne hno
  apply hno
  have hmost := Tree.walk_le (Nat.le_max_left links links') (by rw [hl]; exact nofun)
  rw [← Tree.walk_le (Nat.le_max_right links links') hne, hmost, hl]

end Machine

end Retrace
