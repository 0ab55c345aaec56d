import Retrace.Config.Document
import Retrace.Proofs.Path.Split
import Retrace.Proofs.Toml.Document

/-!
# Written settings are read back

Settings that break no rule, and whose paths are texts, are written as a document that stands for the same settings.
-/

namespace Retrace.Config

open Toml

/-- Every path among the settings is a text. -/
structure TextPaths (c : Config) : Prop where
  searchPath : ∀ p ∈ c.tracer.searchPath, p.IsText
  file : ∀ p, c.log.file = some p → p.IsText

/-- The numbers of settings that break no rule. -/
theorem Valid.bounds {c : Config} (h : c.Valid) :
    (10 ≤ c.session.debounceMs ∧ c.session.debounceMs ≤ 10000) ∧
      10 ≤ c.session.killGraceMs ∧ c.session.killGraceMs ≤ 30000 := by
  unfold Valid fault? at h
  split at h
  · cases h
  split at h
  · cases h
  · simp only [debounceRange, killGraceRange] at *
    omega

section
variable (c : Config) (searchPath : List String) (file : Option String)

/-- The sections of settings whose paths are texts. -/
def sections : List (String × Entries) :=
  [("session", [("debounce_ms", .integer c.session.debounceMs), ("kill_grace_ms", .integer c.session.killGraceMs)]),
    ("tracer", [("interpreter", .text c.tracer.interpreter), ("module", .text c.tracer.module),
      ("search_path", .array (searchPath.map .text))]),
    ("log", ("level", .text c.log.level) :: match file with
      | some f => [("file", .text f)]
      | none => [])]

theorem spells_write (h : c.Valid) :
    Spells (c.write searchPath file) ((c.sections searchPath file).flatMap fun (name, fields) => sectionLines name fields) := by
  obtain ⟨⟨hd, hd'⟩, hk, hk'⟩ := h.bounds
  have hdebounce : StandsFor (Written.natural c.session.debounceMs) (.integer c.session.debounceMs) :=
    standsFor_natural (by omega) (Scalar.inRange_of_lt (by omega))
  have hgrace : StandsFor (Written.natural c.session.killGraceMs) (.integer c.session.killGraceMs) :=
    standsFor_natural (by omega) (Scalar.inRange_of_lt (by omega))
  have htext (name : String) (hname : isBare name = true) (s : String) :
      Spells (Written.assignment name (Written.text s.toList)) [.assign [] name (.text s)] := by
    simpa using spells_assignment name hname (standsFor_text s.toList)
  have hpaths : Spells (Written.assignment "search_path" (Written.texts (searchPath.map String.toList)))
      [.assign [] "search_path" (.array (searchPath.map .text))] := by
    simpa [Function.comp_def] using
      spells_assignment "search_path" (by decide) (standsFor_texts (searchPath.map String.toList))
  have hsession := ((spells_header "session" (by decide)).append
    (spells_assignment "debounce_ms" (by decide) hdebounce)).append
    (spells_assignment "kill_grace_ms" (by decide) hgrace)
  have htracer := (((spells_blank.append (spells_header "tracer" (by decide))).append
    (htext "interpreter" (by decide) c.tracer.interpreter)).append
    (htext "module" (by decide) c.tracer.module)).append hpaths
  have hlog := (spells_blank.append (spells_header "log" (by decide))).append
    (htext "level" (by decide) c.log.level)
  have hall := (hsession.append htracer).append hlog
  cases file with
  | none => simpa [write, sections, sectionLines] using hall
  | some f => simpa [write, sections, sectionLines] using hall.append (htext "file" (by decide) f)

theorem paths?_texts (ss : List String) : paths? (.array (ss.map .text)) = some (ss.map Path.ofString) := by
  rw [paths?]
  induction ss with
  | nil => rfl
  | cons s ss ih => simp [path?, text?, ih]

theorem session?_table (debounceMs killGraceMs : Nat) :
    session? (.table .header [("debounce_ms", .integer debounceMs), ("kill_grace_ms", .integer killGraceMs)]) =
      some ⟨debounceMs, killGraceMs⟩ := by
  simp [session?, section?, fieldOr, field?, Entries.get?, natural?]

theorem tracer?_table (interpreter module : String) :
    tracer? (.table .header [("interpreter", .text interpreter), ("module", .text module),
      ("search_path", .array (searchPath.map .text))]) =
        some ⟨interpreter, module, searchPath.map Path.ofString⟩ := by
  simp [tracer?, section?, fieldOr, field?, Entries.get?, text?, paths?_texts]

theorem log?_table (level : String) :
    log? (.table .header (("level", .text level) :: match file with
      | some f => [("file", .text f)]
      | none => [])) = some ⟨level, file.map Path.ofString⟩ := by
  cases file <;> simp [log?, section?, fieldOr, field?, Entries.get?, text?, path?]

variable {c searchPath file}

/-- Settings that break no rule are read back from their text. -/
theorem read?_write (h : c.Valid) (hs : c.tracer.searchPath = searchPath.map Path.ofString)
    (hf : c.log.file = file.map Path.ofString) : read? (String.ofList (c.write searchPath file)) = some c := by
  have hdoc : Toml.read? (String.ofList (c.write searchPath file)) =
      some ((c.sections searchPath file).map fun (name, fields) => (name, .table .header fields)) := by
    rw [read?_of_spells (spells_write c searchPath file h) (by rfl)]
    refine ofLines?_sections (by simp [sections]) ?_
    cases file <;> simp [sections]
  rw [read?, hdoc, Option.bind_some]
  simp [sections, ofEntries?, fieldOr, field?, Entries.get?, session?_table, tracer?_table, log?_table, ← hs, ← hf]

end

variable {c : Config}

theorem decode?_raw {p : Path} {s : String} : Utf8.decode? p.raw = some s ↔ p = .ofString s := by
  constructor
  · intro h
    rw [Path.ofString, Bytes.ofString, Utf8.encode_of_decode? h]
  · rintro rfl
    exact Utf8.decode?_encode s

theorem mapM_decode? {ps : List Path} {ss : List String} :
    (ps.mapM fun p => Utf8.decode? p.raw) = some ss ↔ ps = ss.map Path.ofString := by
  induction ps generalizing ss with
  | nil => cases ss <;> simp
  | cons p ps ih =>
    rw [List.mapM_cons]
    cases ss with
    | nil => simp [Option.bind_eq_some_iff]
    | cons s ss => simp [Option.bind_eq_some_iff, decode?_raw, ih]

theorem fileText?_eq_some {file : Option Path} {text : Option String} :
    fileText? file = some text ↔ file = text.map Path.ofString := by
  cases file <;> cases text <;> simp [fileText?, decode?_raw]

theorem toText?_eq_some {s : String} : c.toText? = some s ↔ ∃ searchPath file,
    c.tracer.searchPath = searchPath.map Path.ofString ∧ c.log.file = file.map Path.ofString ∧
      s = String.ofList (c.write searchPath file) := by
  simp only [toText?, Option.bind_eq_bind, Option.bind_eq_some_iff, mapM_decode?, fileText?_eq_some, pure]
  constructor
  · rintro ⟨searchPath, hs, file, hf, h⟩
    exact ⟨searchPath, file, hs, hf, (Option.some.inj h).symm⟩
  · rintro ⟨searchPath, file, hs, hf, rfl⟩
    exact ⟨searchPath, hs, file, hf, rfl⟩

/-- The text that settings are saved as stands for them. -/
theorem read?_toText? (h : c.Valid) {s : String} (ht : c.toText? = some s) : read? s = some c := by
  obtain ⟨searchPath, file, hs, hf, rfl⟩ := toText?_eq_some.mp ht
  exact read?_write h hs hf

/-- Settings can be saved as text exactly when their paths are texts. -/
theorem exists_toText? : (∃ s, c.toText? = some s) ↔ c.TextPaths := by
  constructor
  · rintro ⟨s, h⟩
    obtain ⟨searchPath, file, hs, hf, -⟩ := toText?_eq_some.mp h
    refine ⟨fun p hp => ?_, fun p hp => ?_⟩
    · rw [hs, List.mem_map] at hp
      obtain ⟨t, -, rfl⟩ := hp
      exact ⟨t, rfl⟩
    · rw [hf, Option.map_eq_some_iff] at hp
      obtain ⟨t, -, rfl⟩ := hp
      exact ⟨t, rfl⟩
  · rintro ⟨hs, hf⟩
    obtain ⟨searchPath, hs⟩ : ∃ ss : List String, c.tracer.searchPath = ss.map Path.ofString := by
      generalize c.tracer.searchPath = ps at hs
      induction ps with
      | nil => exact ⟨[], rfl⟩
      | cons p ps ih =>
        obtain ⟨s, rfl⟩ := hs p (List.mem_cons_self ..)
        obtain ⟨ss, rfl⟩ := ih fun q hq => hs q (List.mem_cons_of_mem _ hq)
        exact ⟨s :: ss, rfl⟩
    obtain ⟨file, hf⟩ : ∃ f : Option String, c.log.file = f.map Path.ofString := by
      cases hc : c.log.file with
      | none => exact ⟨none, rfl⟩
      | some p =>
        obtain ⟨s, rfl⟩ := hf p hc
        exact ⟨some s, rfl⟩
    exact ⟨_, toText?_eq_some.mpr ⟨searchPath, file, hs, hf, rfl⟩⟩

end Retrace.Config
