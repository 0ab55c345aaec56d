import Retrace.Path.ModuleName
import Retrace.Proofs.Path.Spelling

/-!
# Module names are faithful

The name of a module tells its source file below a directory, however the file and the directory are spelled. A file
elsewhere has the module name that its own name gives.
-/

namespace Retrace

namespace Text

theorem dropSuffix_append (suffix s : String) : dropSuffix suffix (s ++ suffix) = s := by
  unfold dropSuffix
  rw [if_pos (by simp)]
  simp

theorem dropSuffix_of_not {suffix s : String} (h : ∀ stem, s ≠ stem ++ suffix) : dropSuffix suffix s = s := by
  unfold dropSuffix
  rw [if_neg]
  intro hs
  obtain ⟨front, hfront⟩ := List.isSuffixOf_iff_suffix.mp hs
  refine h (String.ofList front) (String.toList_inj.mp ?_)
  simp [hfront]

end Text

namespace Utf8

theorem encodeChar_ascii {c : Char} (hc : c.toNat < 0x80) : encodeChar c = [UInt8.ofNat c.toNat] := by
  rw [encodeChar, if_pos hc]

theorem encodeChar_ne_nil (c : Char) : encodeChar c ≠ [] := by
  unfold encodeChar
  dsimp only
  split
  · exact List.cons_ne_nil _ _
  split
  · exact List.cons_ne_nil _ _
  split <;> exact List.cons_ne_nil _ _

theorem mem_of_byte_mem {c : Char} (hc : c.toNat < 0x80) {s : String} (h : UInt8.ofNat c.toNat ∈ encode s) :
    c ∈ s.toList := by
  obtain ⟨d, hd, hmem⟩ := List.mem_flatMap.mp h
  have hbyte : (UInt8.ofNat c.toNat).toNat = c.toNat := toNat_byte (by omega)
  have hlow : d.toNat < 0x80 := by
    refine Nat.lt_of_not_le fun hle => ?_
    have := le_of_mem_encodeChar (Nat.not_lt.mpr hle) hmem
    omega
  rw [encodeChar_ascii hlow, List.mem_singleton] at hmem
  have hsame : c.toNat = d.toNat := by
    rw [← hbyte, hmem, toNat_byte (by omega)]
  rwa [Char.toNat_inj.mp hsame]

theorem encode_eq_nil {s : String} : encode s = [] ↔ s = "" := by
  rw [encode, List.flatMap_eq_nil_iff, ← String.toList_inj]
  constructor
  · intro h
    exact List.eq_nil_iff_forall_not_mem.mpr fun c hc => encodeChar_ne_nil c (h c hc)
  · rintro h c hc
    rw [h] at hc
    cases hc

theorem encode_append (s t : String) : encode (s ++ t) = encode s ++ encode t := by
  simp [encode]

end Utf8

namespace Path

/-! ## Names below a directory -/

/-- A name that a part of a module name can have. -/
structure PlainName (name : String) : Prop where
  nonempty : name ≠ ""
  noSlash : '/' ∉ name.toList
  noDot : '.' ∉ name.toList

/-- The source file of a module in nested packages below a directory. -/
def sourceOf (root : Path) (packages : List String) (name : String) : Path :=
  (packages.foldl child root).child (name ++ ".py")

/-- The bytes of a name that stands for itself in a path. -/
structure NameBytes (n : Bytes) : Prop where
  noSlash : slash ∉ n
  named : n ≠ [] ∧ n ≠ dot ∧ n ≠ dotdot

theorem NameBytes.component {n : Bytes} (h : NameBytes n) : bodyComponents [n] = [.name n] := by
  simp [bodyComponents, isIdle, componentOf, h.named]

theorem slash_not_mem {name : String} (h : '/' ∉ name.toList) : slash ∉ Bytes.ofString name :=
  fun hmem => h (Utf8.mem_of_byte_mem (c := '/') (by decide) hmem)

theorem PlainName.bytes {name : String} (h : PlainName name) : NameBytes (Bytes.ofString name) := by
  have hdot : 0x2E ∉ Bytes.ofString name := fun hmem => h.noDot (Utf8.mem_of_byte_mem (c := '.') (by decide) hmem)
  refine ⟨slash_not_mem h.noSlash, fun hnil => h.nonempty (Utf8.encode_eq_nil.mp hnil), ?_, ?_⟩ <;>
    · intro heq
      rw [heq] at hdot
      exact hdot (List.mem_cons_self ..)

theorem PlainName.script {name : String} (h : PlainName name) : NameBytes (Bytes.ofString (name ++ ".py")) := by
  have hlen : 3 < (Bytes.ofString (name ++ ".py")).length := by
    rw [Bytes.ofString, Utf8.encode_append, List.length_append]
    have : 0 < (Utf8.encode name).length := List.length_pos_iff.mpr h.bytes.named.1
    have : (Utf8.encode ".py").length = 3 := by rfl
    omega
  refine ⟨slash_not_mem ?_, ?_, ?_, ?_⟩
  · simp [h.noSlash]
  all_goals
    intro heq
    rw [heq] at hlen
    simp [dot, dotdot] at hlen

theorem components_child (dir : Path) {name : String} (h : NameBytes (Bytes.ofString name)) :
    (dir.child name).components = dir.components ++ [.name (Bytes.ofString name)] := by
  by_cases hdir : dir.raw = []
  · have hchild : dir.child name = ofString name := by
      unfold child join
      split
      · rfl
      · simp [hdir]
    have hne : (ofString name).raw ≠ [] := h.named.1
    rw [hchild, components_nil hdir, components_cons hne (Bytes.split_of_not_mem h.noSlash), if_neg hne]
    simp [bodyComponents, componentOf, ofString, h.named]
  · obtain ⟨before, hchild, hbefore⟩ := segments_child hdir h.noSlash
    have hne : (dir.child name).raw ≠ [] := by
      obtain ⟨front, hraw, -⟩ := raw_child hdir h.noSlash
      simp [hraw]
    -- the directory has a first segment, since it is not empty
    obtain ⟨first, rest, rfl, hcomps⟩ : ∃ first rest, before = first :: rest ∧
        dir.components = (if first = [] then .root else componentOf first) :: bodyComponents rest := by
      rcases hbefore with hdirs | hdirs
      · obtain ⟨first, rest, rfl⟩ := List.exists_cons_of_ne_nil (hdirs ▸ segments_ne_nil dir)
        exact ⟨first, rest, rfl, components_cons hdir hdirs⟩
      · cases before with
        | nil =>
          have hjoin : Bytes.join slash dir.segments = dir.raw := Bytes.join_split slash dir.raw
          rw [hdirs] at hjoin
          exact absurd hjoin.symm hdir
        | cons first rest =>
          refine ⟨first, rest, rfl, ?_⟩
          rw [components_cons hdir (hdirs.trans (List.cons_append ..)), bodyComponents_append]
          simp [bodyComponents, isIdle]
    rw [components_cons hne (hchild.trans (List.cons_append ..)), hcomps, bodyComponents_append, h.component,
      List.cons_append]

theorem components_foldl_child (root : Path) {packages : List String} (h : ∀ n ∈ packages, PlainName n) :
    (packages.foldl child root).components =
      root.components ++ packages.map fun n => .name (Bytes.ofString n) := by
  induction packages generalizing root with
  | nil => simp
  | cons n packages ih =>
    rw [List.foldl_cons, ih _ fun k hk => h k (List.mem_cons_of_mem _ hk),
      components_child root (h n (List.mem_cons_self ..)).bytes]
    simp

theorem components_sourceOf (root : Path) {packages : List String} {name : String}
    (h : ∀ n ∈ packages ++ [name], PlainName n) : (sourceOf root packages name).components =
      root.components ++ (packages ++ [name ++ ".py"]).map fun n => .name (Bytes.ofString n) := by
  rw [sourceOf, components_child _ (h name (by simp)).script,
    components_foldl_child root fun n hn => h n (List.mem_append_left _ hn)]
  simp

theorem nameTexts_names (names : List String) :
    nameTexts (names.map fun n => .name (Bytes.ofString n)) = names := by
  induction names with
  | nil => rfl
  | cons n names ih =>
    rw [nameTexts] at ih ⊢
    rw [List.map_cons, List.filterMap_cons]
    simp only [ih]
    rw [Utf8.lossy_encode]

/-! ## The name of a module -/

theorem intercalate_script (packages : List String) (name : String) :
    ".".intercalate (packages ++ [name ++ ".py"]) = ".".intercalate (packages ++ [name]) ++ ".py" := by
  by_cases hp : packages = []
  · simp [hp]
  · rw [String.intercalate_append_of_ne_nil hp (List.cons_ne_nil _ _),
      String.intercalate_append_of_ne_nil hp (List.cons_ne_nil _ _)]
    simp [String.append_assoc]

section
variable {root root' file : Path} {packages : List String} {name : String}
  (hnames : ∀ n ∈ packages ++ [name], PlainName n)
include hnames

theorem moduleName_sourceOf (hfile : file.Respelled (sourceOf root packages name)) (hroot : root'.Respelled root) :
    file.moduleName root' = ".".intercalate (packages ++ [name]) := by
  have hcomps : file.components =
      root'.components ++ (packages ++ [name ++ ".py"]).map fun n => .name (Bytes.ofString n) := by
    rw [respelled_iff.mp hfile, respelled_iff.mp hroot, components_sourceOf root hnames]
  have hbelow : file.stripPrefix? root' =
      some ((packages ++ [name ++ ".py"]).map fun n => .name (Bytes.ofString n)) := by
    rw [stripPrefix?, hcomps, if_pos (by simp)]
    simp
  rw [moduleName, hbelow]
  dsimp only
  rw [nameTexts_names, intercalate_script, Text.dropSuffix_append]

omit file root root' in
theorem splitOn_intercalate :
    (".".intercalate (packages ++ [name])).toList.splitOn '.' = (packages ++ [name]).map String.toList := by
  rw [String.toList_intercalate]
  refine List.splitOn_intercalate '.' (fun l hl => ?_) (by simp)
  obtain ⟨n, hn, rfl⟩ := List.mem_map.mp hl
  exact (hnames n hn).noDot

end

/-- The last name of a path as text, or nothing when no name is last. -/
def ownName (file : Path) : String := (file.fileName?.map Utf8.lossy).getD ""

theorem moduleName_outside {file root : Path} (h : ¬root.components <+: file.components) :
    file.moduleName root = Text.dropSuffix ".py" file.ownName := by
  have hnone : file.stripPrefix? root = none := by
    rw [stripPrefix?, if_neg (fun hp => h (List.isPrefixOf_iff_prefix.mp hp))]
  rw [moduleName, hnone]
  rfl

/-- The module name of a source file below a directory is made of the names on the way, which can be told from it; so
no two files have one name. Any spelling of the paths will do. A file that is not below the directory has its own name
as its module name, without `.py` at the end. -/
theorem moduleName_faithful (root : Path) :
    (∀ packages name, (∀ n ∈ packages ++ [name], PlainName n) →
      ∀ file root', Respelled file (sourceOf root packages name) → Respelled root' root →
        file.moduleName root' = ".".intercalate (packages ++ [name]) ∧
        (file.moduleName root').toList.splitOn '.' = (packages ++ [name]).map String.toList) ∧
    (∀ packages name packages' name', (∀ n ∈ packages ++ [name], PlainName n) →
      (∀ n ∈ packages' ++ [name'], PlainName n) →
      ∀ file file' root' root'', Respelled file (sourceOf root packages name) →
        Respelled file' (sourceOf root packages' name') → Respelled root' root → Respelled root'' root →
        file.moduleName root' = file'.moduleName root'' → packages = packages' ∧ name = name' ∧ Respelled file file') ∧
    ∀ file : Path, ¬root.components <+: file.components →
      (∀ stem, file.ownName = stem ++ ".py" → file.moduleName root = stem) ∧
      ((∀ stem, file.ownName ≠ stem ++ ".py") → file.moduleName root = file.ownName) := by
  refine ⟨?_, ?_, ?_⟩
  · intro packages name hnames file root' hfile hroot
    have hname := moduleName_sourceOf hnames hfile hroot
    exact ⟨hname, by rw [hname, splitOn_intercalate hnames]⟩
  · intro packages name packages' name' hnames hnames' file file' root' root'' hfile hfile' hroot' hroot'' hsame
    rw [moduleName_sourceOf hnames hfile hroot', moduleName_sourceOf hnames' hfile' hroot''] at hsame
    have hparts : (packages ++ [name]).map String.toList = (packages' ++ [name']).map String.toList := by
      rw [← splitOn_intercalate hnames, hsame, splitOn_intercalate hnames']
    have hall : packages ++ [name] = packages' ++ [name'] :=
      (List.map_inj_right fun _ _ h => String.toList_inj.mp h).mp hparts
    obtain ⟨rfl, hlast⟩ := List.append_inj' hall rfl
    obtain rfl := List.singleton_inj.mp hlast
    exact ⟨rfl, rfl, hfile.trans hfile'.symm⟩
  · intro file hout
    rw [moduleName_outside hout]
    refine ⟨fun stem hstem => ?_, Text.dropSuffix_of_not⟩
    rw [hstem, Text.dropSuffix_append]

/-- Two files below a directory that is spelled with slashes and dots, and one in a directory whose name goes on. -/
theorem moduleName_faithful_when_untidy :
    moduleName (ofString "/proj//pkg/./mod.py/.") (ofString "//proj/./") = "pkg.mod" ∧
    moduleName (ofString "/proj/pkg.py") (ofString "/proj") = "pkg" ∧
    ¬Respelled (ofString "/proj//pkg/./mod.py/.") (ofString "/proj/pkg.py") ∧
    moduleName (ofString "/project/x.py") (ofString "/proj") = "x" := by
  have hplain : ∀ n ∈ ["pkg", "mod"], PlainName n := by
    intro n hn
    simp only [List.mem_cons, List.not_mem_nil, or_false] at hn
    rcases hn with rfl | rfl <;> exact ⟨by decide, by decide, by decide⟩
  have hmod : ∀ n ∈ ["pkg"] ++ ["mod"], PlainName n := hplain
  have hpkg : ∀ n ∈ ([] : List String) ++ ["pkg"], PlainName n := fun n hn => hplain n (by simp_all)
  obtain ⟨hname, hdistinct, hout⟩ := moduleName_faithful (ofString "/proj")
  have hdir : Respelled (ofString "//proj/./") (ofString "/proj") := respelled_iff.mpr (by decide)
  have hfile : Respelled (ofString "/proj//pkg/./mod.py/.") (sourceOf (ofString "/proj") ["pkg"] "mod") :=
    respelled_iff.mpr (by decide)
  have hother : Respelled (ofString "/proj/pkg.py") (sourceOf (ofString "/proj") [] "pkg") :=
    respelled_iff.mpr (by decide)
  have hmodName := (hname _ _ hmod _ _ hfile hdir).1
  have hpkgName := (hname _ _ hpkg _ _ hother (.refl _)).1
  refine ⟨hmodName, hpkgName, fun hsame => ?_, (hout _ (by decide)).1 "x" (by decide)⟩
  exact absurd (respelled_iff.mp hsame) (by decide)

end Path

end Retrace
