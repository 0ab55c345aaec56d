import Retrace.Config.Key
import Retrace.Proofs.Config.Document
import Retrace.Proofs.Tables
import Retrace.Proofs.Text.Natural

/-!
# One setting at a time

Setting one key leaves what is set for every other key, and the setting is shown as it was given, up to the form of
numbers and the case of letters.
-/

namespace Retrace.Config

/-- What is set for a key. -/
inductive Value where
  | number (n : Nat)
  | text (s : String)
  | paths (ps : List Path)
  | path (p : Option Path)
  deriving DecidableEq, Repr

/-- The setting that a key stands for. -/
def value (c : Config) : Key → Value
  | .debounceMs => .number c.session.debounceMs
  | .killGraceMs => .number c.session.killGraceMs
  | .interpreter => .text c.tracer.interpreter
  | .module => .text c.tracer.module
  | .searchPath => .paths c.tracer.searchPath
  | .level => .text c.log.level
  | .logFile => .path c.log.file

/-- How a text given for a key is shown. -/
def Key.normal : Key → String → String
  | .debounceMs, v | .killGraceMs, v => Text.canonical v
  | .level, v => Text.lowercase v
  | .interpreter, v | .module, v | .searchPath, v | .logFile, v => v

variable {c c' : Config} {k : Key} {v : String}

/-- The keys stand for all that is set. -/
theorem ext_value (h : ∀ k, c.value k = c'.value k) : c = c' := by
  obtain ⟨⟨d, g⟩, ⟨i, m, s⟩, ⟨l, f⟩⟩ := c
  obtain ⟨⟨d', g'⟩, ⟨i', m', s'⟩, ⟨l', f'⟩⟩ := c'
  have hdebounce := h .debounceMs
  have hgrace := h .killGraceMs
  have hinterpreter := h .interpreter
  have hmodule := h .module
  have hsearch := h .searchPath
  have hlevel := h .level
  have hfile := h .logFile
  simp only [value, Value.number.injEq, Value.text.injEq, Value.paths.injEq, Value.path.injEq] at *
  simp only [*]

theorem parseMs_eq_ok {n : Nat} : parseMs v = .ok n ↔ Text.parseWord v = .ok n := by
  unfold parseMs
  cases Text.parseWord v <;> simp

theorem value_of_set (h : c.set k v = .ok c') {k' : Key} (hk : k' ≠ k) : c'.value k' = c.value k' := by
  cases k with
  | debounceMs | killGraceMs =>
    obtain ⟨n, -, rfl⟩ := map_eq_ok.mp h
    cases k' <;> first | rfl | exact absurd rfl hk
  | interpreter | module | searchPath | level | logFile =>
    cases h
    cases k' <;> first | rfl | exact absurd rfl hk

theorem get_of_set (h : c.set k v = .ok c') : c'.get k = k.normal v := by
  cases k with
  | debounceMs | killGraceMs =>
    obtain ⟨n, hn, rfl⟩ := map_eq_ok.mp h
    exact Text.toString_of_parseNatural (parseMs_eq_ok.mp hn)
  | interpreter | module | level =>
    cases h
    rfl
  | searchPath =>
    cases h
    simp only [get, Key.normal]
    split
    · rename_i hv
      subst hv
      rfl
    · rw [SearchPath.join?_split]
      exact Utf8.lossy_encode v
  | logFile =>
    cases h
    simp only [get, Key.normal]
    split
    · rename_i hv
      subst hv
      rfl
    · exact Path.display_ofString v

/-! ## Paths among the settings -/

theorem textPaths_default : default.TextPaths := ⟨nofun, nofun⟩

theorem TextPaths.set (hc : c.TextPaths) (h : c.set k v = .ok c') : c'.TextPaths := by
  cases k with
  | debounceMs | killGraceMs =>
    obtain ⟨n, -, rfl⟩ := map_eq_ok.mp h
    exact ⟨hc.searchPath, hc.file⟩
  | interpreter | module | level =>
    cases h
    exact ⟨hc.searchPath, hc.file⟩
  | searchPath =>
    cases h
    refine ⟨fun p hp => ?_, hc.file⟩
    dsimp only at hp
    split at hp
    · cases hp
    · exact SearchPath.isText_of_mem_split v hp
  | logFile =>
    cases h
    refine ⟨hc.searchPath, fun p hp => ?_⟩
    dsimp only at hp
    split at hp
    · cases hp
    · cases hp
      exact ⟨v, rfl⟩

theorem isText_of_path? {n : Toml.Node} {p : Path} (h : path? n = some p) : p.IsText := by
  obtain ⟨s, -, rfl⟩ := Option.map_eq_some_iff.mp h
  exact ⟨s, rfl⟩

theorem isText_of_paths? {n : Toml.Node} {ps : List Path} (h : paths? n = some ps) : ∀ p ∈ ps, p.IsText := by
  unfold paths? at h
  split at h
  · rename_i ns
    induction ns generalizing ps with
    | nil =>
      cases h
      nofun
    | cons n ns ih =>
      simp only [List.mapM_cons, Option.bind_eq_bind, Option.bind_eq_some_iff, Option.pure_def,
        Option.some.injEq] at h
      obtain ⟨p, hp, qs, hqs, rfl⟩ := h
      intro q hq
      rcases List.mem_cons.mp hq with rfl | hq
      · exact isText_of_path? hp
      · exact ih hqs q hq
  · cases h

/-- What is read for a field is its default or has been read from a value. -/
theorem fieldOr_eq_some {α : Type} {s : Toml.Entries ⊕ List Toml.Node} {name : String} {place : Nat}
    {read : Toml.Node → Option α} {d a : α} (h : fieldOr s name place read d = some a) :
    a = d ∨ ∃ n, read n = some a := by
  unfold fieldOr at h
  split at h
  · exact Or.inl (Option.some.inj h).symm
  · exact Or.inr ⟨_, h⟩

/-- The paths of settings that were read are texts. -/
theorem textPaths_of_read? {s : String} (h : read? s = some c) : c.TextPaths := by
  obtain ⟨es, -, h⟩ := Option.bind_eq_some_iff.mp h
  simp only [ofEntries?, Option.bind_eq_bind, Option.bind_eq_some_iff, Option.pure_def, Option.some.injEq] at h
  obtain ⟨session, -, tracer, htracer, log, hlog, rfl⟩ := h
  constructor
  · rcases fieldOr_eq_some htracer with rfl | ⟨n, hn⟩
    · intro p hp
      cases hp
    · simp only [tracer?, Option.bind_eq_bind, Option.bind_eq_some_iff, Option.pure_def, Option.some.injEq] at hn
      obtain ⟨sec, -, interpreter, -, module, -, searchPath, hsearch, rfl⟩ := hn
      rcases fieldOr_eq_some hsearch with rfl | ⟨n, hn⟩
      · intro p hp
        cases hp
      · exact isText_of_paths? hn
  · rcases fieldOr_eq_some hlog with rfl | ⟨n, hn⟩
    · intro p hp
      cases hp
    · simp only [log?, Option.bind_eq_bind, Option.bind_eq_some_iff, Option.pure_def, Option.some.injEq] at hn
      obtain ⟨sec, -, level, -, file, hfile, rfl⟩ := hn
      rcases fieldOr_eq_some hfile with rfl | ⟨n, hn⟩
      · intro p hp
        cases hp
      · obtain ⟨q, hq, rfl⟩ := Option.map_eq_some_iff.mp hn
        intro p hp
        cases hp
        exact isText_of_path? hq

end Retrace.Config
