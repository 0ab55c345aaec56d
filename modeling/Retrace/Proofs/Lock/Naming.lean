import Retrace.Lock.Naming
import Retrace.Proofs.Machine.Directory

/-!
# Lock files have plain names

The name of a lock file has 21 characters, digits and a suffix, so that it can stand in any directory.
-/

namespace Retrace.Lock

/-- The name of a lock file. -/
def fileName (source : Path) : String := Digest.shortHex (Bytes.ofString source.display) ++ ".lock"

theorem pathFor_eq (dir source : Path) : pathFor dir source = dir.child (fileName source) := rfl

/-- A character of the name of a lock file. -/
def IsPlain (c : Char) : Prop := c.toNat < 0x80 ∧ c ≠ '/' ∧ c.toNat ≠ 0

theorem isPlain_digitChar : ∀ n < 16, IsPlain (Nat.digitChar n) := by
  unfold IsPlain
  decide

theorem hexWord_spec (w : UInt32) : (Digest.hexWord w).length = 8 ∧ ∀ c ∈ Digest.hexWord w, IsPlain c := by
  have hdigits : ∀ b : UInt8, ∀ c ∈ Digest.hexByte b, IsPlain c := by
    intro b c hc
    have hb : b.toNat < 256 := b.toNat_lt
    simp only [Digest.hexByte, List.mem_cons, List.not_mem_nil, or_false] at hc
    rcases hc with rfl | rfl
    · exact isPlain_digitChar _ (by omega)
    · exact isPlain_digitChar _ (by omega)
  refine ⟨by simp [Digest.hexWord, Digest.hexByte], fun c hc => ?_⟩
  obtain ⟨b, -, hc⟩ := List.mem_flatMap.mp hc
  exact hdigits _ c hc

theorem fileName_spec (source : Path) : (fileName source).toList.length = 21 ∧
    ∀ c ∈ (fileName source).toList, IsPlain c := by
  have hsuffix : ∀ c ∈ ".lock".toList, IsPlain c := by
    have hchars : ".lock".toList = ['.', 'l', 'o', 'c', 'k'] := rfl
    rw [hchars]
    simp [IsPlain]
  have hshort : (Digest.shortHex (Bytes.ofString source.display)).toList.length = 16 ∧
      ∀ c ∈ (Digest.shortHex (Bytes.ofString source.display)).toList, IsPlain c := by
    unfold Digest.shortHex
    split
    · rename_i hnone
      unfold Digest.chunks at hnone
      dsimp only at hnone
      split at hnone <;> cases hnone
    · dsimp only
      rw [String.toList_ofList, List.length_append, (hexWord_spec _).1, (hexWord_spec _).1]
      refine ⟨rfl, fun c hc => ?_⟩
      rcases List.mem_append.mp hc with hc | hc
      · exact (hexWord_spec _).2 c hc
      · exact (hexWord_spec _).2 c hc
  rw [fileName, String.toList_append, List.length_append, hshort.1]
  refine ⟨rfl, fun c hc => ?_⟩
  rcases List.mem_append.mp hc with hc | hc
  · exact hshort.2 c hc
  · exact hsuffix c hc

theorem encode_plain {cs : List Char} (h : ∀ c ∈ cs, IsPlain c) :
    cs.flatMap Utf8.encodeChar = cs.map fun c => UInt8.ofNat c.toNat := by
  induction cs with
  | nil => rfl
  | cons c cs ih =>
    have hc := h c (List.mem_cons_self ..)
    rw [List.flatMap_cons, ih fun c hc => h c (List.mem_cons_of_mem _ hc)]
    simp [Utf8.encodeChar, hc.1]

theorem bytes_fileName (source : Path) : (Bytes.ofString (fileName source)).length = 21 ∧
    ∀ b ∈ Bytes.ofString (fileName source), b ≠ Path.slash ∧ b ≠ 0 := by
  obtain ⟨hlen, hplain⟩ := fileName_spec source
  have hbytes : Bytes.ofString (fileName source) = (fileName source).toList.map fun c => UInt8.ofNat c.toNat :=
    encode_plain hplain
  rw [hbytes, List.length_map]
  refine ⟨hlen, fun b hb => ?_⟩
  obtain ⟨c, hc, rfl⟩ := List.mem_map.mp hb
  obtain ⟨hlow, hslash, hzero⟩ := hplain c hc
  have hval : (UInt8.ofNat c.toNat).toNat = c.toNat := Utf8.toNat_byte (by omega)
  constructor
  · intro heq
    rw [heq] at hval
    exact hslash (Char.toNat_inj.mp hval.symm)
  · intro heq
    rw [heq] at hval
    exact hzero hval.symm

/-- A lock file can stand in any directory, if its path is not too long. -/
theorem fits_fileName {dir source : Path} (hroom : (pathFor dir source).raw.length ≤ Machine.longestPath) :
    Machine.Fits dir (fileName source) := by
  obtain ⟨hsize, hbyte⟩ := bytes_fileName source
  refine ⟨fun h => (hbyte _ h).1 rfl, fun h => (hbyte _ h).2 rfl, ⟨?_, ?_, ?_⟩, ?_, hroom⟩
  · exact List.ne_nil_of_length_eq_add_one hsize
  · intro heq
    rw [heq] at hsize
    cases hsize
  · intro heq
    rw [heq] at hsize
    cases hsize
  · rw [hsize]
    decide

theorem length_pathFor {dir : Path} (hdir : dir.raw ≠ []) (source : Path) :
    (pathFor dir source).raw.length ≤ dir.raw.length + 22 := by
  obtain ⟨hsize, hbyte⟩ := bytes_fileName source
  obtain ⟨front, hraw, hfront⟩ := Path.raw_child hdir fun h => (hbyte _ h).1 rfl
  have hlen : front.length ≤ dir.raw.length := by
    rcases hfront with hfront | hfront <;> simp [hfront]
  rw [pathFor_eq, hraw, List.length_append, List.length_cons, hsize]
  omega

/-- Lock files at one path have one name. -/
theorem fileName_of_pathFor {dir source source' : Path} (hdir : dir.raw ≠ [])
    (hroom : (pathFor dir source).raw.length ≤ Machine.longestPath) (h : pathFor dir source = pathFor dir source') :
    fileName source = fileName source' := by
  obtain ⟨before, hseg, -⟩ := Path.segments_child hdir (fits_fileName hroom).slash
  obtain ⟨before', hseg', -⟩ := Path.segments_child hdir (fits_fileName (h ▸ hroom)).slash
  rw [pathFor_eq, pathFor_eq] at h
  rw [h, hseg'] at hseg
  have hbytes : Bytes.ofString (fileName source') = Bytes.ofString (fileName source) := by
    simpa using congrArg List.getLast? hseg
  have hdecoded := congrArg Utf8.decode? hbytes
  rw [Utf8.decode?_encode, Utf8.decode?_encode] at hdecoded
  exact (Option.some.inj hdecoded).symm

end Retrace.Lock
