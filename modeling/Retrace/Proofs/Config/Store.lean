import Retrace.Config.Store
import Retrace.Proofs.Config.Key
import Retrace.Proofs.Machine.Job
import Retrace.Proofs.Machine.Writing

/-!
# Saved settings are loaded again

Settings that break no rule and whose paths are texts are saved at every path where a file can be written, and are
loaded from there as they were. Others are not saved, and no file is touched.
-/

namespace Retrace.Config

variable {c : Config} {file : Path} {m m' : Machine}

theorem validate_eq_ok {u : Unit} : c.validate = .ok u ↔ c.Valid := by
  unfold validate Valid
  cases c.fault? with
  | none => exact ⟨fun _ => rfl, fun _ => rfl⟩
  | some f => exact ⟨nofun, nofun⟩

theorem validate_of_valid (h : c.Valid) : c.validate = .ok () := validate_eq_ok.mpr h

theorem perform_save_of_fault {f : Fault} (h : c.fault? = some f) (file : Path) (m : Machine) :
    (c.save file).perform m = (.error (.rule f.message), m) := by
  simp [save, validate, h, Job.perform_bind]

/-- Saving, once the rules are kept. -/
theorem perform_save (h : c.Valid) (file : Path) (m : Machine) : (c.save file).perform m =
    match (m.prepare file).2 with
    | .error e => (.error (.io "Failed to create config directory" e), (m.prepare file).1)
    | .ok () =>
      match c.toText? with
      | none => (.error ⟨["Failed to serialize config"], .settingsText⟩, (m.prepare file).1)
      | some contents =>
        match (m.prepare file).1.write file (Bytes.ofString contents) with
        | .ok m' => (.ok (), m')
        | .error e => (.error (.io ("Failed to write config file: " ++ file.display) e), (m.prepare file).1) := by
  unfold save Machine.prepare
  rw [validate_of_valid h]
  cases file.parent? with
  | none =>
    cases c.toText? with
    | none => simp [Job.perform_bind]
    | some contents => cases hw : m.write file (Bytes.ofString contents) <;> simp [Job.perform_bind, hw]
  | some dir =>
    rcases hdir : m.makeAllDirs dir with ⟨m₁, e | u⟩
    · simp [Job.perform_bind, hdir]
    cases c.toText? with
    | none => simp [Job.perform_bind, hdir]
    | some contents =>
      cases hw : m₁.write file (Bytes.ofString contents) <;> simp [Job.perform_bind, hdir, hw]

/-- Settings whose paths are no texts are not saved, and only directories have been made. -/
theorem perform_save_of_noText (h : c.Valid) (ht : c.toText? = none) (file : Path) (m : Machine) :
    ∃ f, (c.save file).perform m = (.error f, (m.prepare file).1) := by
  rw [perform_save h, ht]
  cases (m.prepare file).2 with
  | error e => exact ⟨_, rfl⟩
  | ok u => exact ⟨_, rfl⟩

theorem perform_load {contents : String} (hr : m.read file = .ok (.ofString contents)) (hc : read? contents = some c)
    (h : c.Valid) : (load file).perform m = (.ok c, m) := by
  simp [load, Job.perform_bind, Machine.isThere_of_read hr, Machine.readText_of_read hr, hc, validate_of_valid h,
    -bind_pure_comp]

theorem perform_load_of_fault {contents : String} {f : Fault} (hr : m.read file = .ok (.ofString contents))
    (hc : read? contents = some c) (h : c.fault? = some f) : (load file).perform m = (.error (.rule f.message), m) := by
  simp [load, Job.perform_bind, Machine.isThere_of_read hr, Machine.readText_of_read hr, hc, validate, h,
    -bind_pure_comp]

/-- What is loaded breaks no rule, and is read from a text or what holds where nothing is set. -/
theorem load_eq_ok (h : (load file).perform m = (.ok c, m')) :
    m' = m ∧ c.Valid ∧ (c = .default ∨ ∃ contents, read? contents = some c) := by
  unfold load at h
  rw [Job.perform_bind, Job.perform_ask] at h
  dsimp only at h
  split at h
  · cases h
    exact ⟨rfl, by decide, Or.inl rfl⟩
  rw [Job.perform_bind, Job.perform_read] at h
  cases hr : m.readText file with
  | error e =>
    rw [hr] at h
    cases h
  | ok contents =>
    simp only [hr] at h
    cases hc : read? contents with
    | none =>
      rw [hc] at h
      cases h
    | some c' =>
      rw [hc, Job.perform_bind, Job.perform_ofExcept] at h
      cases hv : c'.validate with
      | error f =>
        rw [hv] at h
        cases h
      | ok u =>
        rw [hv] at h
        cases h
        exact ⟨rfl, validate_eq_ok.mp hv, Or.inr ⟨contents, hc⟩⟩

theorem textPaths_of_load (h : (load file).perform m = (.ok c, m')) : c.TextPaths := by
  obtain ⟨-, -, rfl | ⟨contents, hc⟩⟩ := load_eq_ok h
  · exact textPaths_default
  · exact textPaths_of_read? hc

/-- Settings are loaded as they were saved. -/
theorem perform_load_of_save (hm : m.Sane) (hvalid : c.Valid) (hpaths : c.TextPaths) (hw : m.Writable file) :
    ∃ m', (c.save file).perform m = (.ok (), m') ∧ (load file).perform m' = (.ok c, m') := by
  obtain ⟨hprepared, htakes⟩ := hw
  obtain ⟨contents, ht⟩ := exists_toText?.mpr hpaths
  have hk := Machine.keeps_prepare hm file
  obtain ⟨m', hw, hr⟩ := Machine.write_read (hk.sane hm) htakes (.ofString contents) 0o644
  refine ⟨m', ?_, perform_load hr (read?_toText? hvalid ht) hvalid⟩
  rw [perform_save hvalid, hprepared, ht]
  simp only [hw]

/-- Settings are loaded as they were saved; settings that cannot be saved are refused, and every file stays as it is. -/
theorem saved_and_loaded_or_refused (c : Config) (file : Path) (hm : m.Sane) :
    (c.Valid → c.TextPaths → m.Writable file →
      ∃ m', (c.save file).perform m = (.ok (), m') ∧ (load file).perform m' = (.ok c, m')) ∧
    (¬(c.Valid ∧ c.TextPaths) →
      ∃ f m', (c.save file).perform m = (.error f, m') ∧ m.SameFiles m' ∧
        ∀ place, m.find file = .ok place → m'.find file = .ok place) := by
  constructor
  · exact perform_load_of_save hm
  · intro hbad
    cases hf : c.fault? with
    | some f => exact ⟨_, m, perform_save_of_fault hf file m, .refl m, fun _ h => h⟩
    | none =>
      have ht : c.toText? = none := by
        rw [← Option.not_isSome_iff_eq_none, Option.isSome_iff_exists, exists_toText?]
        exact fun hpaths => hbad ⟨hf, hpaths⟩
      obtain ⟨f, hs⟩ := perform_save_of_noText hf ht file m
      exact ⟨f, _, hs, Machine.sameFiles_prepare hm file, fun _ h => (Machine.keeps_prepare hm file).find hm h⟩

/-- Settings whose texts need every form of quotes. -/
def awkward : Config where
  tracer :=
    { interpreter := "py \"thon\"\n\\'''\x01"
      module := "\"\"\"\x7f'\t"
      searchPath := [.ofString "a\"b", .ofString "'\n\"\"\"\"", .ofString "it's\ntwo", .ofString ""] }
  log := { file := some (.ofString "") }

/-- Settings with a path that is no text. -/
def unspellable : Config where
  log := { file := some ⟨[0xFF]⟩ }

/-- A machine with a settings file of this text. -/
def holding (s : String) : Machine where
  tree := ⟨#[.dir [(.ofString "config.toml", 1)], .file (.ofString s) 0o644]⟩

theorem read_holding (s : String) : (holding s).read (.ofString "config.toml") = .ok (.ofString s) := rfl

theorem sane_holding (s : String) : (holding s).Sane := by
  refine ⟨⟨Nat.zero_lt_two, fun {d es name i} hd hl => ?_⟩, nofun⟩
  match d, hd with
  | 0, rfl =>
    obtain rfl := congrArg Prod.snd (List.mem_singleton.mp (mem_of_lookup hl))
    exact Nat.one_lt_two
  | 1, hd => cases hd
  | _ + 2, rfl => cases hl

/-- A machine with a settings file. -/
def stocked : Machine := (({} : Machine).createFile [] (.ofString "config.toml") (.ofString "[log]") 0o644).2

theorem sane_stocked : stocked.Sane := by
  have hfree : ({} : Machine).tree.Ends (.vacant [] (.ofString "config.toml") false) := ⟨nofun, [], rfl, rfl⟩
  exact (Machine.keeps_createFile Machine.sane_empty hfree (.ofString "[log]") 0o644).sane Machine.sane_empty

theorem saved_and_loaded_or_refused_when_awkward :
    (∃ m', (awkward.save (.ofString "lt/config.toml")).perform {} = (.ok (), m') ∧
      (load (.ofString "lt/config.toml")).perform m' = (.ok awkward, m')) ∧
    ∃ f m', (unspellable.save (.ofString "config.toml")).perform stocked = (.error f, m') ∧ stocked.SameFiles m' ∧
      m'.find (.ofString "config.toml") = .ok [(.ofString "config.toml", 1)] := by
  have hpaths : awkward.TextPaths := by
    refine ⟨fun p hp => ?_, fun p hp => ⟨"", (Option.some.inj hp).symm⟩⟩
    simp only [awkward, List.mem_cons, List.not_mem_nil, or_false] at hp
    rcases hp with rfl | rfl | rfl | rfl <;> exact ⟨_, rfl⟩
  have hno : ¬unspellable.TextPaths := by
    intro h
    obtain ⟨s, hs⟩ := h.file _ rfl
    cases decode?_raw.mpr hs
  have hwritable : ({} : Machine).Writable (.ofString "lt/config.toml") := ⟨rfl, trivial⟩
  refine ⟨(saved_and_loaded_or_refused awkward _ Machine.sane_empty).1 (by decide) hpaths hwritable, ?_⟩
  obtain ⟨f, m', hs, hsame, hfind⟩ :=
    (saved_and_loaded_or_refused unspellable (.ofString "config.toml") sane_stocked).2 fun h => hno h.2
  exact ⟨f, m', hs, hsame, hfind _ rfl⟩

end Retrace.Config
