import Retrace.Command.Settings
import Retrace.Proofs.Config.Key
import Retrace.Proofs.Config.Store
import Retrace.Proofs.Machine.Descent

/-!
# Changing one setting

The command that changes a setting either fails, and the settings file has the bytes that it had, or is still missing,
or it leaves a file that the same settings are loaded from but for the one that was to be changed.
-/

namespace Retrace

namespace Action

variable {α β : Type} (con : Console)

@[simp] theorem perform_pure (a : α) : (pure a : Action α).perform con = (.ok a, con) := rfl

@[simp] theorem perform_throw (f : Failure) : (throw f : Action α).perform con = (.error f, con) := rfl

theorem perform_bind (t : Action α) (next : α → Action β) : (t >>= next).perform con =
    match t.perform con with
    | (.ok a, con') => (next a).perform con'
    | (.error f, con') => (.error f, con') := by
  unfold perform
  rw [ExceptT.run_bind]
  simp only [bind, StateT.bind]
  rcases ExceptT.run t con with ⟨f | a, con'⟩ <;> rfl

@[simp] theorem perform_ofJob (j : Job α) : (ofJob j).perform con =
    ((j.perform con.machine).1, { con with machine := (j.perform con.machine).2 }) := by
  unfold ofJob
  rw [perform_bind]
  change (match (Except.ok con, con) with
    | (.ok c, con') => perform _ con'
    | (.error f, con') => (.error f, con')) = _
  dsimp only
  rcases j.perform con.machine with ⟨f | a, m⟩ <;> rfl

@[simp] theorem perform_ofExcept (r : Except Failure α) : (ofExcept r).perform con = (r, con) := by
  cases r <;> rfl

@[simp] theorem perform_printLine (text : String) :
    (printLine text).perform con = (.ok (), { con with out := con.out ++ (text ++ "\n") }) := rfl

end Action

namespace Config

variable {c : Config} {file : Path} {m m' : Machine}

/-- A file that settings could not be saved to is not there. -/
theorem contents?_of_save_failed (hm : m.Sane) (hvalid : c.Valid) (hpaths : c.TextPaths) {f : Failure}
    (h : (c.save file).perform m = (.error f, m')) :
    m.SameFiles m' ∧ m.contents? file = none ∧ m'.contents? file = none := by
  obtain ⟨contents, ht⟩ := exists_toText?.mpr hpaths
  have hk := Machine.keeps_prepare hm file
  have hsame := Machine.sameFiles_prepare hm file
  have hnone : m' = (m.prepare file).1 ∧ (m.prepare file).1.contents? file = none := by
    rw [perform_save hvalid, ht] at h
    cases hp : (m.prepare file).2 with
    | error e =>
      rw [hp] at h
      cases h
      refine ⟨rfl, Option.eq_none_iff_forall_ne_some.mpr fun content hc => ?_⟩
      rw [Machine.prepare_of_contents? hc] at hp
      cases hp
    | ok u =>
      rw [hp] at h
      dsimp only at h
      cases hw : (m.prepare file).1.write file (Bytes.ofString contents) with
      | ok m₁ =>
        rw [hw] at h
        cases h
      | error e =>
        rw [hw] at h
        cases h
        refine ⟨rfl, Option.eq_none_iff_forall_ne_some.mpr fun content hc => ?_⟩
        obtain ⟨m₁, hw', -⟩ :=
          Machine.write_read (hk.sane hm) (Machine.takes_of_contents? hc) (.ofString contents) 0o644
        rw [hw] at hw'
        cases hw'
  obtain ⟨rfl, hnone⟩ := hnone
  refine ⟨hsame, Option.eq_none_iff_forall_ne_some.mpr fun content hc => ?_, hnone⟩
  rw [hsame.contents? hk hm hc] at hnone
  cases hnone

theorem writable_of_saved (hm : m.Sane) (hvalid : c.Valid)
    (hplain : (m.prepare file).1.isThere file = true →
      (m.prepare file).1.isFile file = true ∨ (m.prepare file).1.isDir file = true)
    (h : (c.save file).perform m = (.ok (), m')) : m.Writable file := by
  rw [perform_save hvalid] at h
  split at h
  · cases h
  rename_i hprepared
  split at h
  · cases h
  split at h
  · rename_i hw
    exact ⟨hprepared, Machine.takes_of_write ((Machine.keeps_prepare hm file).sane hm) hplain hw⟩
  · cases h

end Config

namespace Command

variable {s : Surroundings} {key value : String} {c c' : Config} {k : Config.Key} {file : Path} {con con' : Console}
  {r : Except Failure Unit}

theorem textPaths_of_loadSettings {m m' : Machine} (h : (loadSettings s).perform m = (.ok c, m')) : c.TextPaths := by
  unfold loadSettings at h
  split at h
  · exact Config.textPaths_of_load h
  · cases h
    exact Config.textPaths_default

/-- The settings that the command is to save, and where: those of before with one of them set, when they break no
rule. -/
structure Intends (s : Surroundings) (key value : String) (c : Config) (k : Config.Key) (c' : Config) (file : Path) :
    Prop where
  key : Config.Key.ofText? key = some k
  set : c.set k value = .ok c'
  valid : c'.Valid
  file : s.env.configFile = .ok file

/-- What the command comes to before it saves anything. -/
def plan (s : Surroundings) (key value : String) (c : Config) : Except Failure (Config × Path) := do
  let k ← Config.Key.parse key
  let c ← c.set k value
  c.validate.mapError (·.within "Invalid configuration value")
  let file ← s.env.configFile
  return (c, file)

theorem plan_eq_ok : plan s key value c = .ok (c', file) ↔ ∃ k, Intends s key value c k c' file := by
  unfold plan Config.Key.parse
  simp only [bind_eq_ok, mapError_eq_ok, Config.validate_eq_ok, pure, Except.pure]
  constructor
  · rintro ⟨k, hk, c₁, hset, -, hvalid, file₁, hfile, h⟩
    cases h
    split at hk
    · cases hk
      exact ⟨k, ‹_›, hset, hvalid, hfile⟩
    · cases hk
  · rintro ⟨k, hk, hset, hvalid, hfile⟩
    exact ⟨k, by rw [hk], c', hset, (), hvalid, file, hfile, rfl⟩

theorem perform_setSetting (hload : (loadSettings s).perform con.machine = (.ok c, con.machine)) :
    (setSetting s key value).perform con =
      match plan s key value c with
      | .error f => (.error f, con)
      | .ok (c', file) =>
        match (c'.save file).perform con.machine with
        | (.error f, m) => (.error f, { con with machine := m })
        | (.ok (), m) => (.ok (),
          { con with
            machine := m
            out := con.out ++ (Output.Style.green.apply "✓" ++ " " ++ Output.Style.cyan.apply key ++ " = " ++ value ++
              "\n") ++ (Output.Style.yellow.apply "Note: Running sessions pick up changes on restart" ++ "\n") }) := by
  unfold setSetting
  rw [Action.perform_bind, Action.perform_ofJob, hload]
  dsimp only
  rw [Action.perform_bind, Action.perform_ofExcept]
  cases hk : Config.Key.parse key with
  | error f =>
    have hplan : plan s key value c = .error f := by simp [plan, hk, bind, Except.bind]
    rw [hplan]
  | ok k =>
    dsimp only
    rw [Action.perform_bind, Action.perform_ofExcept]
    cases hset : c.set k value with
    | error f =>
      have hplan : plan s key value c = .error f := by simp [plan, hk, hset, bind, Except.bind]
      rw [hplan]
    | ok c₁ =>
      dsimp only
      cases hvalid : c₁.validate with
      | error f =>
        have hplan : plan s key value c = .error (f.within "Invalid configuration value") := by
          simp [plan, hk, hset, hvalid, bind, Except.bind, mapError_error]
        rw [hplan, Action.perform_bind, Action.perform_throw]
      | ok u =>
        dsimp only
        rw [Action.perform_bind, Action.perform_ofExcept]
        cases hfile : s.env.configFile with
        | error f =>
          have hplan : plan s key value c = .error f := by
            simp [plan, hk, hset, hvalid, hfile, bind, Except.bind, mapError_ok]
          rw [hplan]
        | ok file =>
          have hplan : plan s key value c = .ok (c₁, file) := by
            simp [plan, hk, hset, hvalid, hfile, bind, Except.bind, mapError_ok, pure, Except.pure]
          rw [hplan]
          dsimp only
          rw [Action.perform_bind, Action.perform_ofJob]
          rcases (c₁.save file).perform con.machine with ⟨f | u, m⟩
          · rfl
          · dsimp only
            rw [Action.perform_bind, Action.perform_printLine]
            dsimp only
            rw [Action.perform_printLine]

/-- The command either saves the settings that it is to save, or fails at once when there are none. -/
theorem setSetting_cases (hload : (loadSettings s).perform con.machine = (.ok c, con.machine))
    (h : (setSetting s key value).perform con = (r, con')) :
    (∃ k c' file, Intends s key value c k c' file ∧ (c'.save file).perform con.machine = (r, con'.machine)) ∨
      (∃ f, r = .error f) ∧ con'.machine = con.machine ∧ ∀ k c' file, ¬Intends s key value c k c' file := by
  rw [perform_setSetting hload] at h
  cases hplan : plan s key value c with
  | error f =>
    rw [hplan] at h
    cases h
    refine Or.inr ⟨⟨f, rfl⟩, rfl, fun k c' file hi => ?_⟩
    rw [plan_eq_ok.mpr ⟨k, hi⟩] at hplan
    cases hplan
  | ok saved =>
    obtain ⟨c', file⟩ := saved
    obtain ⟨k, hi⟩ := plan_eq_ok.mp hplan
    refine Or.inl ⟨k, c', file, hi, ?_⟩
    rw [hplan] at h
    dsimp only at h
    rcases hs : (c'.save file).perform con.machine with ⟨f | u, m⟩
    · rw [hs] at h
      cases h
      rfl
    · rw [hs] at h
      cases h
      rfl

/-- Changing a setting either fails, and leaves every file as it is and the settings file missing where it was missing,
or succeeds, and then the settings that are loaded are those of before but for the one, break no rule, and show the
new value. It succeeds exactly when the new settings break no rule and can be written. -/
theorem one_setting_changed_or_no_file (hm : con.machine.Sane)
    (hload : (loadSettings s).perform con.machine = (.ok c, con.machine))
    (hplain : ∀ file, s.env.configFile = .ok file → (con.machine.prepare file).1.isThere file = true →
      (con.machine.prepare file).1.isFile file = true ∨ (con.machine.prepare file).1.isDir file = true)
    (h : (setSetting s key value).perform con = (r, con')) :
    ((∃ f, r = .error f) → con.machine.SameFiles con'.machine ∧
      ∀ file, s.env.configFile = .ok file → con'.machine.contents? file = con.machine.contents? file) ∧
    (r = .ok () → ∃ k c', Config.Key.ofText? key = some k ∧
      (loadSettings s).perform con'.machine = (.ok c', con'.machine) ∧ c'.validate = .ok () ∧
      (∀ k', k' ≠ k → c'.value k' = c.value k') ∧ c'.get k = k.normal value) ∧
    (r = .ok () ↔ ∃ k c' file, Intends s key value c k c' file ∧ con.machine.Writable file) := by
  have hpaths := textPaths_of_loadSettings hload
  rcases setSetting_cases hload h with ⟨k, c', file, hi, hsave⟩ | ⟨⟨f, rfl⟩, hmachine, hno⟩
  · have hpaths' := hpaths.set hi.set
    refine ⟨?_, ?_, ?_⟩
    · rintro ⟨f, rfl⟩
      obtain ⟨hsame, hbefore, hafter⟩ := Config.contents?_of_save_failed hm hi.valid hpaths' hsave
      refine ⟨hsame, fun file' hfile' => ?_⟩
      cases hi.file.symm.trans hfile'
      rw [hbefore, hafter]
    · rintro rfl
      have hw := Config.writable_of_saved hm hi.valid (hplain file hi.file) hsave
      obtain ⟨m', hsave', hloaded⟩ := Config.perform_load_of_save hm hi.valid hpaths' hw
      rw [hsave] at hsave'
      cases hsave'
      refine ⟨k, c', hi.key, ?_, Config.validate_eq_ok.mpr hi.valid, fun k' hk' => Config.value_of_set hi.set hk',
        Config.get_of_set hi.set⟩
      unfold loadSettings
      rw [hi.file]
      exact hloaded
    · constructor
      · rintro rfl
        exact ⟨k, c', file, hi, Config.writable_of_saved hm hi.valid (hplain file hi.file) hsave⟩
      · rintro ⟨k₁, c₁, file₁, hi₁, hw⟩
        obtain ⟨rfl, rfl⟩ := Prod.mk.inj (Except.ok.inj ((plan_eq_ok.mpr ⟨k, hi⟩).symm.trans (plan_eq_ok.mpr ⟨k₁, hi₁⟩)))
        obtain ⟨m', hsave', -⟩ := Config.perform_load_of_save hm hi.valid hpaths' hw
        rw [hsave] at hsave'
        exact (Prod.mk.inj hsave').1
  · refine ⟨fun _ => ?_, nofun, nofun, fun ⟨k, c', file, hi, _⟩ => absurd hi (hno k c' file)⟩
    rw [hmachine]
    exact ⟨.refl _, fun _ _ => rfl⟩

/-- A program with its settings file in the working directory. -/
def beside : Surroundings where
  env := [(.ofString "LIVETRACE_CONFIG", .ofString "config.toml")]
  pid := 1
  now := 0
  isLive := fun _ => true

/-- A console on a machine with a settings file. -/
def stocked : Console := { machine := Config.stocked }

theorem one_setting_changed_or_no_file_when_stocked :
    (∃ con' c', (setSetting beside "session.debounce_ms" "+0150").perform stocked = (.ok (), con') ∧
      (loadSettings beside).perform con'.machine = (.ok c', con'.machine) ∧
      (∀ k', k' ≠ .debounceMs → c'.value k' = Config.default.value k') ∧ c'.get .debounceMs = "150") ∧
    ∃ f con', (setSetting beside "session.debounce_ms" "5").perform stocked = (.error f, con') ∧
      con'.machine.contents? (.ofString "config.toml") = some (.ofString "[log]") := by
  have hread : stocked.machine.read (.ofString "config.toml") = .ok (.ofString "[log]") := Machine.read_of_find rfl rfl
  have hcontents : stocked.machine.contents? (.ofString "config.toml") = some (.ofString "[log]") := rfl
  have hprepared : stocked.machine.prepare (.ofString "config.toml") = (stocked.machine, .ok ()) := rfl
  have hsane : stocked.machine.Sane := Config.sane_stocked
  have hload : (loadSettings beside).perform stocked.machine = (.ok .default, stocked.machine) :=
    Config.perform_load hread (by decide +kernel) (by decide)
  have hplain : ∀ file, beside.env.configFile = .ok file →
      (stocked.machine.prepare file).1.isThere file = true → (stocked.machine.prepare file).1.isFile file = true ∨
        (stocked.machine.prepare file).1.isDir file = true := by
    rintro file ⟨⟩ -
    exact Or.inl rfl
  constructor
  · rcases hr : (setSetting beside "session.debounce_ms" "+0150").perform stocked with ⟨r, con'⟩
    obtain ⟨-, hok, hiff⟩ := one_setting_changed_or_no_file hsane hload hplain hr
    have hset : (plan beside "session.debounce_ms" "+0150" .default).toOption =
        some ({ session := { debounceMs := 150 } }, .ofString "config.toml") := by decide +kernel
    obtain ⟨k, hi⟩ := plan_eq_ok.mp (toOption_eq_some.mp hset)
    have hwritable : stocked.machine.Writable (.ofString "config.toml") := by
      refine ⟨by rw [hprepared], ?_⟩
      rw [hprepared]
      exact Machine.takes_of_contents? hcontents
    obtain rfl : r = .ok () := hiff.mpr ⟨k, _, _, hi, hwritable⟩
    obtain ⟨k, c', hk, hloaded, -, hsame, hget⟩ := hok rfl
    obtain rfl : Config.Key.debounceMs = k := Option.some.inj hk
    exact ⟨con', c', rfl, hloaded, hsame, hget⟩
  · rcases hr : (setSetting beside "session.debounce_ms" "5").perform stocked with ⟨r, con'⟩
    obtain ⟨hfail, -, -⟩ := one_setting_changed_or_no_file hsane hload hplain hr
    have hnone : (plan beside "session.debounce_ms" "5" .default).toOption = none := by decide +kernel
    obtain ⟨f, hf⟩ := toOption_eq_none.mp hnone
    rw [perform_setSetting hload, hf] at hr
    obtain rfl : .error f = r := (Prod.mk.inj hr).1
    exact ⟨f, con', rfl, (hfail ⟨f, rfl⟩).2 _ rfl |>.trans hcontents⟩

end Command

end Retrace
