import Mathlib.Data.List.TakeWhile
import Retrace.Path.Basic
import Retrace.Proofs.Text.Utf8

/-!
# Bytes in parts

Bytes are split at a separator and joined again. A text that is split at an ASCII character falls into texts, and the
path of a name in a directory has the segments of the directory and the name.
-/

namespace Retrace

/-- The path is spelled by a text. -/
def Path.IsText (p : Path) : Prop := ∃ s, p = .ofString s

namespace Bytes

variable {sep : UInt8} {as bs part : Bytes}

theorem split_eq_cons (sep : UInt8) (bs : Bytes) : ∃ part parts, split sep bs = part :: parts := by
  cases bs with
  | nil => exact ⟨_, _, rfl⟩
  | cons b bs =>
    rw [split]
    split
    · exact ⟨_, _, rfl⟩
    · split <;> exact ⟨_, _, rfl⟩

theorem split_cons_of_ne {b : UInt8} (hb : b ≠ sep) {parts : List Bytes} (h : split sep bs = part :: parts) :
    split sep (b :: bs) = (b :: part) :: parts := by
  rw [split, if_neg hb, h]

theorem split_append (has : sep ∉ as) {parts : List Bytes} (h : split sep bs = part :: parts) :
    split sep (as ++ bs) = (as ++ part) :: parts := by
  induction as with
  | nil => exact h
  | cons a as ih =>
    have hne : a ≠ sep := fun heq => has (heq ▸ List.mem_cons_self ..)
    exact split_cons_of_ne hne (ih fun hm => has (List.mem_cons_of_mem _ hm))

theorem split_of_not_mem (h : sep ∉ bs) : split sep bs = [bs] := by
  have hone : split sep (bs ++ []) = [bs ++ []] := split_append h rfl
  simpa using hone

theorem split_append_cons (as bs : Bytes) : split sep (as ++ sep :: bs) = split sep as ++ split sep bs := by
  induction as with
  | nil => simp [split]
  | cons a as ih =>
    by_cases ha : a = sep
    · simp [split, ha, ih]
    · obtain ⟨part, parts, h⟩ := split_eq_cons sep as
      rw [split_cons_of_ne ha h]
      rw [h] at ih
      exact split_cons_of_ne ha ih

theorem not_mem_of_mem_split (h : part ∈ split sep bs) : sep ∉ part := by
  induction bs generalizing part with
  | nil =>
    rw [List.mem_singleton.mp h]
    exact List.not_mem_nil
  | cons b bs ih =>
    by_cases hb : b = sep
    · rw [split, if_pos hb] at h
      rcases List.mem_cons.mp h with rfl | h
      · exact List.not_mem_nil
      · exact ih h
    · obtain ⟨first, rest, hs⟩ := split_eq_cons sep bs
      rw [split_cons_of_ne hb hs] at h
      rw [hs] at ih
      rcases List.mem_cons.mp h with rfl | h
      · intro hm
        rcases List.mem_cons.mp hm with heq | hm
        · exact hb heq.symm
        · exact ih (List.mem_cons_self ..) hm
      · exact ih (List.mem_cons_of_mem _ h)

@[simp] theorem join_split (sep : UInt8) (bs : Bytes) : join sep (split sep bs) = bs := by
  induction bs with
  | nil => rfl
  | cons b bs ih =>
    obtain ⟨part, parts, h⟩ := split_eq_cons sep bs
    rw [h] at ih
    by_cases hb : b = sep
    · rw [split, if_pos hb, h, join, ih, hb]
      · rfl
      · exact List.cons_ne_nil _ _
    · rw [split_cons_of_ne hb h, ← ih]
      cases parts <;> rfl

theorem join_cons_append {rest : List Bytes} (hrest : rest ≠ []) : ∀ (part : Bytes) (parts : List Bytes),
    join sep (part :: parts ++ rest) = join sep (part :: parts) ++ sep :: join sep rest
  | part, [] => by
    obtain ⟨first, rest, rfl⟩ := List.exists_cons_of_ne_nil hrest
    rfl
  | part, next :: parts => by
    have ih := join_cons_append hrest next parts
    simp only [List.cons_append, join] at ih ⊢
    rw [ih, List.append_assoc]
    rfl

/-- Parts without separators are what their join falls into. -/
theorem split_join : ∀ (part : Bytes) (parts : List Bytes), (∀ p ∈ part :: parts, sep ∉ p) →
    split sep (join sep (part :: parts)) = part :: parts
  | part, [], h => split_of_not_mem (h part (List.mem_cons_self ..))
  | part, next :: parts, h => by
    have ih := split_join next parts fun p hp => h p (List.mem_cons_of_mem _ hp)
    rw [join, split_append_cons, ih, split_of_not_mem (h part (List.mem_cons_self ..))]
    · rfl
    · exact List.cons_ne_nil _ _

end Bytes

/-! ## Texts -/

namespace Utf8

theorem le_of_mem_encodeChar {c : Char} (hc : ¬c.toNat < 0x80) {b : UInt8} (h : b ∈ encodeChar c) : 0x80 ≤ b.toNat := by
  have hvalid := char_valid c
  unfold encodeChar at h
  dsimp only at h
  rw [if_neg hc] at h
  split at h
  · simp only [List.mem_cons, List.not_mem_nil, or_false] at h
    rcases h with rfl | rfl <;> rw [toNat_byte] <;> omega
  split at h
  · simp only [List.mem_cons, List.not_mem_nil, or_false] at h
    rcases h with rfl | rfl | rfl <;> rw [toNat_byte] <;> omega
  · simp only [List.mem_cons, List.not_mem_nil, or_false] at h
    rcases h with rfl | rfl | rfl | rfl <;> rw [toNat_byte] <;> omega

theorem lossy_encode (s : String) : lossy (encode s) = s := by
  rw [lossy, pieces_encode]
  simp [Function.comp_def]

/-- The parts of a text between the occurrences of an ASCII character are texts. -/
theorem text_of_mem_split {sep : UInt8} (hsep : sep.toNat < 0x80) (s : String) {part : Bytes}
    (h : part ∈ Bytes.split sep (encode s)) : ∃ t, part = encode t := by
  rw [encode] at h
  generalize s.toList = cs at h
  induction cs generalizing part with
  | nil => exact ⟨"", List.mem_singleton.mp h⟩
  | cons c cs ih =>
    rw [List.flatMap_cons] at h
    obtain ⟨first, rest, hs⟩ := Bytes.split_eq_cons sep (cs.flatMap encodeChar)
    rw [hs] at ih
    by_cases hc : sep ∈ encodeChar c
    · -- the character is the separator
      have hone : encodeChar c = [sep] := by
        have hlow : c.toNat < 0x80 := by
          by_cases hlow : c.toNat < 0x80
          · exact hlow
          · have := le_of_mem_encodeChar hlow hc
            omega
        unfold encodeChar at hc ⊢
        simp only [if_pos hlow] at hc ⊢
        rw [List.mem_singleton.mp hc]
      rw [hone, List.singleton_append, Bytes.split, if_pos rfl, hs] at h
      rcases List.mem_cons.mp h with rfl | h
      · exact ⟨"", rfl⟩
      · exact ih h
    · rw [Bytes.split_append hc hs] at h
      rcases List.mem_cons.mp h with rfl | h
      · obtain ⟨t, ht⟩ := ih (List.mem_cons_self ..)
        refine ⟨String.ofList (c :: t.toList), ?_⟩
        simp [encode, ht]
      · exact ih (List.mem_cons_of_mem _ h)

end Utf8

namespace SearchPath

/-- A list of directories that was split is joined again. -/
theorem join?_split (value : Bytes) : join? (split value) = some value := by
  have hno : ((split value).any fun p => p.raw.contains colon) = false := by
    rw [List.any_eq_false]
    intro p hp
    obtain ⟨part, hpart, rfl⟩ := List.mem_map.mp hp
    simpa using Bytes.not_mem_of_mem_split hpart
  rw [join?, hno, split, List.map_map]
  simp [Function.comp_def]

/-- Directories can be joined when none of them has the separator in it. -/
theorem join?_eq_some {dirs : List Path} {value : Bytes} :
    join? dirs = some value ↔ (∀ p ∈ dirs, colon ∉ p.raw) ∧ value = Bytes.join colon (dirs.map Path.raw) := by
  unfold join?
  split
  · rename_i hany
    obtain ⟨p, hp, hcolon⟩ := List.any_eq_true.mp hany
    refine ⟨nofun, fun ⟨hno, _⟩ => absurd ?_ (hno p hp)⟩
    simpa using hcolon
  · rename_i hany
    have hno : ∀ p ∈ dirs, colon ∉ p.raw := fun p hp hcolon => hany (List.any_eq_true.mpr ⟨p, hp, by simpa using hcolon⟩)
    exact ⟨fun h => ⟨hno, (Option.some.inj h).symm⟩, fun ⟨_, h⟩ => congrArg some h.symm⟩

/-- Directories that were joined are what the list falls into, when there is one at all. -/
theorem split_of_join? {dirs : List Path} {value : Bytes} (h : join? dirs = some value) (hne : dirs ≠ []) :
    split value = dirs := by
  obtain ⟨hno, rfl⟩ := join?_eq_some.mp h
  obtain ⟨first, rest, rfl⟩ := List.exists_cons_of_ne_nil hne
  have hparts : ∀ part ∈ first.raw :: rest.map Path.raw, colon ∉ part := by
    intro part hpart
    obtain ⟨p, hp, rfl⟩ := List.mem_map.mp (List.map_cons ▸ hpart : part ∈ (first :: rest).map Path.raw)
    exact hno p hp
  rw [split, List.map_cons, Bytes.split_join _ _ hparts, ← List.map_cons, List.map_map]
  exact List.map_id _

/-- Texts are joined to a text. -/
theorem isText_join {dirs : List Path} (h : ∀ p ∈ dirs, p.IsText) :
    ∃ s, Bytes.join colon (dirs.map Path.raw) = Bytes.ofString s := by
  induction dirs with
  | nil => exact ⟨"", rfl⟩
  | cons p dirs ih =>
    obtain ⟨t, rfl⟩ := h p (List.mem_cons_self ..)
    obtain ⟨s, hs⟩ := ih fun q hq => h q (List.mem_cons_of_mem _ hq)
    cases dirs with
    | nil => exact ⟨t, rfl⟩
    | cons q dirs =>
      refine ⟨String.ofList (t.toList ++ ':' :: s.toList), ?_⟩
      rw [List.map_cons, List.map_cons, Bytes.join, ← List.map_cons, hs]
      · simp [Path.ofString, Utf8.encode, Utf8.encodeChar, colon]
      · exact List.cons_ne_nil _ _

theorem isText_of_mem_split (s : String) {p : Path} (h : p ∈ split (Bytes.ofString s)) : p.IsText := by
  obtain ⟨part, hpart, rfl⟩ := List.mem_map.mp h
  obtain ⟨t, rfl⟩ := Utf8.text_of_mem_split (by decide) s hpart
  exact ⟨t, rfl⟩

end SearchPath

namespace Path

theorem display_ofString (s : String) : (ofString s).display = s := Utf8.lossy_encode s

/-- A slash stands between a directory and a name, whether the directory ends with it or not. -/
theorem raw_child {dir : Path} (hdir : dir.raw ≠ []) {name : String} (hname : slash ∉ Bytes.ofString name) :
    ∃ front, (dir.child name).raw = front ++ slash :: Bytes.ofString name ∧
      (dir.raw = front ∨ dir.raw = front ++ [slash]) := by
  have hrelative : (ofString name).isAbsolute = false := by
    unfold isAbsolute ofString
    cases h : Bytes.ofString name with
    | nil => rfl
    | cons b bs =>
      have hb : b ≠ slash := by
        rintro rfl
        exact hname (h ▸ List.mem_cons_self ..)
      simpa using hb
  unfold child join
  rw [hrelative]
  by_cases hlast : dir.raw.getLast? = some slash
  · obtain ⟨front, hfront⟩ := List.getLast?_eq_some_iff.mp hlast
    exact ⟨front, by simp [hfront, ofString], Or.inr hfront⟩
  · exact ⟨dir.raw, by simp [hlast, hdir, ofString], Or.inl rfl⟩

/-- The path of a name in a directory has the segments of the directory, but for an empty one at their end, and the
name. -/
theorem segments_child {dir : Path} (hdir : dir.raw ≠ []) {name : String} (hname : slash ∉ Bytes.ofString name) :
    ∃ before, (dir.child name).segments = before ++ [Bytes.ofString name] ∧
      (dir.segments = before ∨ dir.segments = before ++ [[]]) := by
  obtain ⟨front, hraw, hfront⟩ := raw_child hdir hname
  refine ⟨Bytes.split slash front, ?_, ?_⟩
  · rw [segments, hraw, Bytes.split_append_cons, Bytes.split_of_not_mem hname]
  · rcases hfront with hfront | hfront
    · exact Or.inl (congrArg (Bytes.split slash) hfront)
    · refine Or.inr ?_
      rw [segments, hfront, Bytes.split_append_cons]
      rfl

/-! ## The path above -/

theorem dropIdle_append (ss : List Bytes) : ∃ tail, ss = dropIdle ss ++ tail := by
  refine ⟨(ss.reverse.takeWhile isIdle).reverse, ?_⟩
  rw [dropIdle, ← List.reverse_append, List.takeWhile_append_dropWhile, List.reverse_reverse]

/-- A path with no path above it is empty or the root. -/
theorem idle_of_parent?_none {p : Path} (h : p.parent? = none) : p.raw = [] ∨ ∀ s ∈ p.segments, s = [] ∨ s = dot := by
  have hjoin : Bytes.join slash p.segments = p.raw := Bytes.join_split slash p.raw
  unfold parent? at h
  split at h
  · rename_i hseg
    rw [← hjoin, hseg]
    exact Or.inl rfl
  · rename_i hseg
    rw [← hjoin, hseg]
    exact Or.inl rfl
  rename_i first rest _ hseg
  split at h
  · rename_i hrest
    by_cases hfirst : first = []
    · right
      intro s hs
      rw [hseg, hfirst] at hs
      rcases List.mem_cons.mp hs with rfl | hs
      · exact Or.inl rfl
      · have hall : ∀ s ∈ rest.reverse, isIdle s = true := List.dropWhile_eq_nil_iff.mp (by simpa [dropIdle] using hrest)
        simpa [isIdle] using hall s (List.mem_reverse.mpr hs)
    · rw [if_neg hfirst] at h
      cases h
  · split at h <;> cases h

/-- The path above is empty or the root, or its segments are the first ones of the path. -/
theorem parent?_cases {p q : Path} (h : p.parent? = some q) : q.raw = [] ∨
    (q.raw = [slash] ∧ ∃ s rest, p.segments = [] :: s :: rest) ∨
    (q.raw ≠ [] ∧ ∃ rest, rest ≠ [] ∧ p.segments = q.segments ++ rest) := by
  have hparts : ∀ s ∈ p.segments, slash ∉ s := fun s hs => Bytes.not_mem_of_mem_split hs
  unfold parent? at h
  split at h
  · cases h
  · cases h
  rename_i first rest _ hseg
  obtain ⟨tail, htail⟩ := dropIdle_append rest
  split at h
  · split at h
    · cases h
    · cases h
      exact Or.inl rfl
  rename_i hkept
  -- `last` is the component that goes
  obtain ⟨last, hlast⟩ : ∃ last, dropIdle rest = (dropIdle rest).dropLast ++ [last] :=
    ⟨_, (List.dropLast_concat_getLast hkept).symm⟩
  obtain ⟨idle, hidle⟩ := dropIdle_append (dropIdle rest).dropLast
  have hrest : rest = dropIdle (dropIdle rest).dropLast ++ (idle ++ last :: tail) := by
    calc rest = (dropIdle rest).dropLast ++ [last] ++ tail := by rw [← hlast, ← htail]
      _ = (dropIdle (dropIdle rest).dropLast ++ idle) ++ [last] ++ tail := by rw [← hidle]
      _ = _ := by simp
  split at h
  · rename_i hnone
    rw [hnone, List.nil_append] at hrest
    have hne : rest ≠ [] := by simp [hrest]
    cases h
    split
    · rename_i hfirst
      obtain ⟨s, more, rfl⟩ := List.exists_cons_of_ne_nil hne
      exact Or.inr (Or.inl ⟨rfl, s, more, by rw [hseg, hfirst]⟩)
    · rename_i hfirst
      refine Or.inr (Or.inr ⟨hfirst, rest, hne, ?_⟩)
      rw [hseg, segments, Bytes.split_of_not_mem (hparts first (by simp [hseg]))]
      rfl
  · rename_i hsome
    cases h
    have hsub : ∀ s ∈ first :: dropIdle (dropIdle rest).dropLast, slash ∉ s := by
      intro s hs
      refine hparts s ?_
      rw [hseg, hrest]
      rcases List.mem_cons.mp hs with rfl | hs
      · exact List.mem_cons_self ..
      · exact List.mem_cons_of_mem _ (List.mem_append_left _ hs)
    refine Or.inr (Or.inr ⟨?_, idle ++ last :: tail, by simp, ?_⟩)
    · obtain ⟨s, more, hs⟩ := List.exists_cons_of_ne_nil hsome
      simp [hs, Bytes.join]
    · rw [hseg, segments, Bytes.split_join _ _ hsub, List.cons_append, ← hrest]

/-- A path goes on where the path above ends. -/
theorem raw_of_parent? {p q : Path} (h : p.parent? = some q) (hq : q.raw ≠ []) :
    ∃ more, p.raw = q.raw ++ more ∧ more ≠ [] := by
  have hjoin : Bytes.join slash p.segments = p.raw := Bytes.join_split slash p.raw
  rcases parent?_cases h with hempty | ⟨hroot, s, rest, hs⟩ | ⟨-, rest, hrest, hs⟩
  · exact absurd hempty hq
  · rw [hs] at hjoin
    refine ⟨Bytes.join slash (s :: rest), by rw [← hjoin, hroot]; rfl, fun hnil => ?_⟩
    have hraw : p.raw = [slash] := by
      rw [← hjoin, Bytes.join, hnil]
      · rfl
      · exact List.cons_ne_nil _ _
    obtain rfl : p = ⟨[slash]⟩ := congrArg Path.mk hraw
    cases h
  · obtain ⟨first, parts, hfirst⟩ := Bytes.split_eq_cons slash q.raw
    have hq : q.segments = first :: parts := hfirst
    refine ⟨slash :: Bytes.join slash rest, ?_, List.cons_ne_nil _ _⟩
    rw [← hjoin, hs, hq, Bytes.join_cons_append hrest, ← hfirst, Bytes.join_split]

end Path

end Retrace
