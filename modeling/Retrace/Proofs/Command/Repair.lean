import Retrace.Command.Program
import Retrace.Proofs.Command.Setting

/-!
# Settings that break a rule

A settings file that breaks a rule stays as it is until somebody edits it: every command that needs the settings fails
with the rule that is broken, and so does the one that would put the setting right.
-/

namespace Retrace.Command

open Config (holding sane_holding)

/-- The command cannot do without the settings, and does nothing before it has them. -/
def Request.needsSettings : Request → Bool
  | .listSettings | .getSetting _ | .setSetting .. | .trace .. => true
  | .watch _ _ output .. => output.isSome
  | _ => false

variable {s : Surroundings} {m : Machine} {file : Path} {contents : String} {c c' : Config} {args : List Bytes}
  {key value : String}

theorem launch_of_load_failed {f : Failure} {r : Request} (hload : (loadSettings s).perform m = (.error f, m))
    (hargs : Request.parse? args = some r) (hr : r.needsSettings = true) :
    launch s args m = .ended ⟨1, "", f.report⟩ m := by
  unfold launch begin
  rw [hargs]
  dsimp only
  rw [hload]
  cases r with
  | listSettings => simp [listSettings, Action.perform_bind, hload, Exit.of]
  | getSetting key => simp [getSetting, Action.perform_bind, hload, Exit.of]
  | setSetting key value => simp [setSetting, Action.perform_bind, hload, Exit.of]
  | trace file driver driverArgs => simp [Action.perform_bind, Exit.of]
  | watch file driver output ms driverArgs =>
    cases output with
    | none => cases hr
    | some output => simp [Action.perform_bind, Exit.of]
  | status | showPath | showExample | help | version => cases hr

theorem launch_setSetting (hload : (loadSettings s).perform m = (.ok c, m))
    (hargs : Request.parse? args = some (.setSetting key value)) :
    launch s args m = .ended (.of ((setSetting s key value).perform { machine := m }))
      ((setSetting s key value).perform { machine := m }).2.machine := by
  unfold launch begin
  rw [hargs]
  dsimp only
  rw [hload]

/-- The settings in a file, once it has been read, with the rule that they break if they break one. -/
theorem perform_loadSettings (hfile : s.env.configFile = .ok file)
    (hcontents : m.contents? file = some (.ofString contents)) (hc : Config.read? contents = some c) :
    (loadSettings s).perform m = (match c.fault? with
      | some f => .error (.rule f.message)
      | none => .ok c, m) := by
  have hread := Machine.read_of_contents? hcontents
  unfold loadSettings
  rw [hfile]
  dsimp only
  cases hf : c.fault? with
  | some f => exact Config.perform_load_of_fault hread hc hf
  | none => exact Config.perform_load hread hc hf

/-- The settings file holds settings, whether they break a rule or not. While they break one, every command that needs
the settings fails with that rule and leaves the machine as it is. Otherwise any setting can be changed such that none
is broken afterwards, and the file then holds the settings of before but for the one. -/
theorem setting_changed_unless_broken (hm : m.Sane) (hfile : s.env.configFile = .ok file)
    (hcontents : m.contents? file = some (.ofString contents)) (hc : Config.read? contents = some c) :
    (∀ f, c.fault? = some f → ∀ args r, Request.parse? args = some r → r.needsSettings = true →
      launch s args m = .ended ⟨1, "", (Failure.rule f.message).report⟩ m) ∧
    (c.Valid → ∀ args key value k c', Request.parse? args = some (.setSetting key value) →
      Config.Key.ofText? key = some k → c.set k value = .ok c' → c'.Valid →
      ∃ e m', launch s args m = .ended e m' ∧ e.code = 0 ∧ e.err = "" ∧
        (loadSettings s).perform m' = (.ok c', m') ∧ ∀ k', k' ≠ k → c'.value k' = c.value k') := by
  have hload := perform_loadSettings hfile hcontents hc
  constructor
  · intro f hf args r hargs hr
    rw [hf] at hload
    exact launch_of_load_failed hload hargs hr
  · intro hvalid args key value k c' hargs hk hset hvalid'
    rw [show c.fault? = none from hvalid] at hload
    have hplan := plan_eq_ok.mpr ⟨k, (⟨hk, hset, hvalid', hfile⟩ : Intends s key value c k c' file)⟩
    obtain ⟨m', hsave, hloaded⟩ := Config.perform_load_of_save hm hvalid'
      ((Config.textPaths_of_read? hc).set hset) (Machine.writable_of_contents? hm hcontents)
    have hdone := @perform_setSetting s key value c { machine := m } hload
    rw [hplan] at hdone
    dsimp only at hdone
    rw [hsave] at hdone
    dsimp only at hdone
    refine ⟨_, _, launch_setSetting hload hargs, ?_, ?_, ?_, fun k' hk' => Config.value_of_set hset hk'⟩
    · rw [hdone]
      rfl
    · rw [hdone]
      rfl
    · rw [hdone]
      unfold loadSettings
      rw [hfile]
      exact hloaded

/-- A quiet period that is too short. -/
def tooShort : String := "[session]\ndebounce_ms = 5\n"

/-- Put the quiet period right. -/
def lengthen : List Bytes := ["config", "set", "session.debounce_ms", "300"].map Bytes.ofString

/-- Where no rule is broken the quiet period is changed; where it is too short it cannot even be shown. -/
theorem setting_changed_unless_too_short :
    (∃ e m', launch beside lengthen (holding "[log]") = .ended e m' ∧ e.code = 0 ∧ e.err = "" ∧
      (loadSettings beside).perform m' = (.ok .default, m')) ∧
    launch beside (["config", "get", "log.level"].map Bytes.ofString) (holding tooShort) =
      .ended ⟨1, "", "Error: session.debounce_ms must be between 10 and 10000 (got 5)\n"⟩ (holding tooShort) := by
  constructor
  · obtain ⟨e, m', he, hcode, herr, hload, -⟩ := (@setting_changed_unless_broken beside (holding "[log]")
      (.ofString "config.toml") "[log]" .default (sane_holding _) rfl rfl (by decide +kernel)).2 (by decide)
      lengthen "session.debounce_ms" "300" .debounceMs .default (by decide +kernel) (by decide) (by decide +kernel)
      (by decide)
    exact ⟨e, m', he, hcode, herr, hload⟩
  · exact (@setting_changed_unless_broken beside (holding tooShort) (.ofString "config.toml") tooShort
      { session := { debounceMs := 5 } } (sane_holding _) rfl rfl (by decide +kernel)).1 (.debounce 5) (by decide)
      _ (.getSetting "log.level") (by decide +kernel) rfl

/-- The settings can be read, and with a quiet period of 300 no rule is broken; but the command that sets it fails, and
leaves the file as it is. -/
theorem too_short_is_not_put_right :
    ∃ c c', (holding tooShort).contents? (.ofString "config.toml") = some (.ofString tooShort) ∧
      Config.read? tooShort = some c ∧ c.fault? = some (.debounce 5) ∧
      Config.Key.ofText? "session.debounce_ms" = some .debounceMs ∧ c.set .debounceMs "300" = .ok c' ∧ c'.Valid ∧
      Request.parse? lengthen = some (.setSetting "session.debounce_ms" "300") ∧
      launch beside lengthen (holding tooShort) =
        .ended ⟨1, "", "Error: session.debounce_ms must be between 10 and 10000 (got 5)\n"⟩ (holding tooShort) := by
  have hc : Config.read? tooShort = some { session := { debounceMs := 5 } } := by decide +kernel
  have hargs : Request.parse? lengthen = some (.setSetting "session.debounce_ms" "300") := by decide +kernel
  have hload := @perform_loadSettings beside (holding tooShort) (.ofString "config.toml") tooShort _ rfl rfl hc
  exact ⟨_, .default, rfl, hc, by decide, by decide, by decide +kernel, by decide, hargs,
    launch_of_load_failed hload hargs rfl⟩

end Retrace.Command
