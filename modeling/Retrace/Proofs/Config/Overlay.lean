import Retrace.Proofs.Config.Store
import Retrace.Proofs.Toml.Place

/-!
# Settings that a file sets

A settings file may set some settings, in any order and among any other entries. Loading it gives the settings that
hold where nothing is set, with those replaced, when they break no rule, and fails otherwise.
-/

namespace Retrace

namespace Toml

/-- The lines of a text that say something. -/
def linesOf? (s : String) : Option (List Line) := lines ((dropMark s.toList).length + 1) (dropMark s.toList)

theorem read?_eq (s : String) : read? s = (linesOf? s).bind ofLines? := rfl

end Toml

namespace Config

open Toml Toml.Entries

namespace Key

/-- What a setting can be set to. -/
abbrev Value : Key → Type
  | .debounceMs => Nat
  | .killGraceMs => Nat
  | .interpreter => String
  | .module => String
  | .searchPath => List Path
  | .level => String
  | .logFile => Path

/-- The value of a setting that a node of a document stands for. -/
def read? : (k : Key) → Toml.Node → Option k.Value
  | .debounceMs => natural?
  | .killGraceMs => natural?
  | .interpreter => text?
  | .module => text?
  | .searchPath => paths?
  | .level => text?
  | .logFile => path?

/-- Where a setting stands in a document. -/
def place (k : Key) : List String := [k.sectionName, k.fieldName]

theorem place_injective : Function.Injective place := by
  intro j k h
  cases j <;> cases k <;> first | rfl | exact absurd h (by decide)

end Key

/-- Values for some of the settings. -/
abbrev Given := (k : Key) → Option k.Value

/-- The settings that hold where only these are set. -/
def overlay (o : Given) : Config where
  session :=
    { debounceMs := (o .debounceMs).getD default.session.debounceMs
      killGraceMs := (o .killGraceMs).getD default.session.killGraceMs }
  tracer :=
    { interpreter := (o .interpreter).getD default.tracer.interpreter
      module := (o .module).getD default.tracer.module
      searchPath := (o .searchPath).getD default.tracer.searchPath }
  log :=
    { level := (o .level).getD default.log.level
      file := (o .logFile).or default.log.file }

/-- The place is not one of a setting or below one, and a section has no value of its own. -/
structure Unknown (p : List String) (w : Saying) : Prop where
  table : ∀ k : Key, p = [k.sectionName] → w = .table
  beside : ∀ k : Key, ¬k.place <+: p

/-- The lines set the settings of `o`, and all else that they say is unknown. -/
structure Sets (ls : List Line) (o : Given) : Prop where
  set : ∀ k v, o k = some v → ∃ n, k.read? n = some v ∧ (k.place, .value n) ∈ sayings [] ls
  only : ∀ s ∈ sayings [] ls,
    (∃ k n v, s = (k.place, .value n) ∧ k.read? n = some v ∧ o k = some v) ∨ Unknown s.1 s.2

variable {ls : List Line} {o : Given} {es : Entries}

theorem Sets.aside (h : Sets ls o) (k : Key) : ∀ s ∈ sayings [] ls,
    (∃ v, s = ([k.sectionName, k.fieldName], .value v)) ∨ Aside k.sectionName k.fieldName s.1 s.2 := by
  intro s hs
  rcases h.only s hs with ⟨j, n, v, rfl, -, -⟩ | hunknown
  · by_cases hj : j = k
    · subst hj
      exact Or.inl ⟨n, rfl⟩
    · refine Or.inr ⟨by simp [Key.place], fun hp => hj (Key.place_injective ?_)⟩
      exact (hp.eq_of_length rfl).symm
  · exact Or.inr ⟨hunknown.table k, hunknown.beside k⟩

/-- The fields of a document that sets the settings of `o`. -/
structure Shows (es : Entries) (o : Given) : Prop where
  sectional : ∀ k : Key, es.Sectional k.sectionName
  unset : ∀ k : Key, o k = none → (es.under k.sectionName).get? k.fieldName = none
  set : ∀ (k : Key) v, o k = some v → ∃ n, (es.under k.sectionName).get? k.fieldName = some n ∧ k.read? n = some v

theorem Sets.shows (h : Sets ls o) (hes : ofLines? ls = some es) : Shows es o where
  sectional k := (get?_under_ofLines? hes (h.aside k)).1
  unset k hk := by
    refine Option.eq_none_iff_forall_ne_some.mpr fun n hn => ?_
    have hmem := ((get?_under_ofLines? hes (h.aside k)).2 n).mp hn
    rcases h.only _ hmem with ⟨j, n', v, heq, -, hj⟩ | hunknown
    · obtain rfl := Key.place_injective (Prod.mk.inj heq).1
      cases hk.symm.trans hj
    · exact hunknown.beside k (List.prefix_refl _)
  set k v hk := by
    obtain ⟨n, hn, hmem⟩ := h.set k v hk
    exact ⟨n, ((get?_under_ofLines? hes (h.aside k)).2 n).mpr hmem, hn⟩

theorem fieldOr_section {α : Type} {name : String} {place : Nat} (read : Toml.Node → Option α) {d : α}
    (hes : es.Sectional name) (hkind : ∀ kind sub, read (.table kind sub) = read (.table .header sub))
    (hnone : read (.table .header []) = some d) :
    fieldOr (.inl es) name place read d = read (.table .header (es.under name)) := by
  unfold fieldOr field?
  rcases hes with h | ⟨kind, sub, h⟩
  · simp [h, under_of_none h, hnone]
  · simp [h, under_of_table h, hkind kind]

namespace Shows

variable (h : Shows es o)
include h

theorem field (k : Key) (place : Nat) (d : k.Value) :
    fieldOr (.inl (es.under k.sectionName)) k.fieldName place k.read? d = some ((o k).getD d) := by
  unfold fieldOr field?
  cases hk : o k with
  | none => simp [h.unset k hk]
  | some v =>
    obtain ⟨n, hn, hv⟩ := h.set k v hk
    simp [hn, hv]

theorem file (place : Nat) :
    fieldOr (.inl (es.under "log")) "file" place (fun v => (path? v).map some) none = some (o .logFile) := by
  unfold fieldOr field?
  cases hk : o .logFile with
  | none =>
    have hn : (es.under "log").get? "file" = none := h.unset .logFile hk
    simp [hn]
  | some v =>
    obtain ⟨n, hn, hv⟩ : ∃ n, (es.under "log").get? "file" = some n ∧ path? n = some v := h.set .logFile v hk
    simp [hn, hv]

theorem session : fieldOr (.inl es) "session" 0 session? {} = some (overlay o).session := by
  have hsection : es.Sectional "session" := h.sectional .debounceMs
  have hdebounce : fieldOr (.inl (es.under "session")) "debounce_ms" 0 natural? 300 = some ((o .debounceMs).getD 300) :=
    h.field .debounceMs 0 300
  have hgrace : fieldOr (.inl (es.under "session")) "kill_grace_ms" 1 natural? 500 = some ((o .killGraceMs).getD 500) :=
    h.field .killGraceMs 1 500
  rw [fieldOr_section session? hsection (fun _ _ => rfl) rfl]
  simp [session?, section?, hdebounce, hgrace, overlay, default]

theorem tracer : fieldOr (.inl es) "tracer" 1 tracer? {} = some (overlay o).tracer := by
  have hsection : es.Sectional "tracer" := h.sectional .interpreter
  have hinterpreter : fieldOr (.inl (es.under "tracer")) "interpreter" 0 text? "python3" =
      some ((o .interpreter).getD "python3") := h.field .interpreter 0 "python3"
  have hmodule : fieldOr (.inl (es.under "tracer")) "module" 1 text? "code_tracer" =
      some ((o .module).getD "code_tracer") := h.field .module 1 "code_tracer"
  have hpaths : fieldOr (.inl (es.under "tracer")) "search_path" 2 paths? [] = some ((o .searchPath).getD []) :=
    h.field .searchPath 2 []
  rw [fieldOr_section tracer? hsection (fun _ _ => rfl) rfl]
  simp [tracer?, section?, hinterpreter, hmodule, hpaths, overlay, default]

theorem log : fieldOr (.inl es) "log" 2 log? {} = some (overlay o).log := by
  have hsection : es.Sectional "log" := h.sectional .level
  have hlevel : fieldOr (.inl (es.under "log")) "level" 0 text? "info" = some ((o .level).getD "info") :=
    h.field .level 0 "info"
  rw [fieldOr_section log? hsection (fun _ _ => rfl) rfl]
  simp [log?, section?, hlevel, h.file 1, overlay, default]

theorem ofEntries? : Config.ofEntries? es = some (overlay o) := by
  simp [Config.ofEntries?, h.session, h.tracer, h.log]

end Shows

/-- A text that sets the settings of `o` stands for them and for the defaults of the others. -/
theorem read?_of_sets {s : String} (hls : linesOf? s = some ls) (hes : (ofLines? ls).isSome) (h : Sets ls o) :
    read? s = some (overlay o) := by
  obtain ⟨es, hes⟩ := Option.isSome_iff_exists.mp hes
  rw [read?, read?_eq, hls, Option.bind_some, hes, Option.bind_some]
  exact (h.shows hes).ofEntries?

/-- The lines differ in their order or in what is unknown. -/
structure Resembles (ls' ls : List Line) : Prop where
  same : ∀ (k : Key) w, (k.place, w) ∈ sayings [] ls' ↔ (k.place, w) ∈ sayings [] ls
  only : ∀ s ∈ sayings [] ls', (∃ k : Key, s.1 = k.place) ∨ Unknown s.1 s.2

theorem Sets.of_resembles {ls' : List Line} (h : Sets ls o) (h' : Resembles ls' ls) : Sets ls' o where
  set k v hk := by
    obtain ⟨n, hn, hmem⟩ := h.set k v hk
    exact ⟨n, hn, (h'.same k _).mpr hmem⟩
  only s hs := by
    rcases h'.only s hs with ⟨k, hk⟩ | hunknown
    · obtain ⟨p, w⟩ := s
      obtain rfl : p = k.place := hk
      refine (h.only _ ((h'.same k w).mp hs)).imp_right fun hunknown => ?_
      exact absurd (List.prefix_refl _) (hunknown.beside k)
    · exact Or.inr hunknown

section
variable {m : Machine} {file : Path} {s : String}

theorem perform_load_of_sets (hr : m.read file = .ok (.ofString s)) (hls : linesOf? s = some ls)
    (hes : (ofLines? ls).isSome) (h : Sets ls o) : (load file).perform m =
      match (overlay o).fault? with
      | none => (.ok (overlay o), m)
      | some f => (.error (.rule f.message), m) := by
  have hread := read?_of_sets hls hes h
  cases hf : (overlay o).fault? with
  | none => exact perform_load hr hread hf
  | some f =>
    simp [load, Job.perform_bind, Machine.isThere_of_read hr, Machine.readText_of_read hr, hread, validate, hf,
      -bind_pure_comp]

/-- A file that sets some settings is loaded as the defaults with those replaced, when they break no rule, and is
refused otherwise. The order of its lines and what else they say make no difference. -/
theorem loaded_over_defaults (o : Given) (hr : m.read file = .ok (.ofString s)) (hls : linesOf? s = some ls)
    (hes : (ofLines? ls).isSome) (ho : Sets ls o) :
    ((overlay o).Valid → (load file).perform m = (.ok (overlay o), m)) ∧
    (¬(overlay o).Valid → ∃ f, (overlay o).fault? = some f ∧
      (load file).perform m = (.error (.rule f.message), m)) ∧
    ∀ (m' : Machine) (file' : Path) (s' : String) (ls' : List Line), m'.read file' = .ok (.ofString s') →
      linesOf? s' = some ls' → (ofLines? ls').isSome → Resembles ls' ls →
        ((load file').perform m').1 = ((load file).perform m).1 := by
  have hload := perform_load_of_sets hr hls hes ho
  refine ⟨fun hv => ?_, fun hv => ?_, ?_⟩
  · rwa [show (overlay o).fault? = none from hv] at hload
  · obtain ⟨f, hf⟩ := Option.ne_none_iff_exists'.mp hv
    rw [hf] at hload
    exact ⟨f, hf, hload⟩
  · intro m' file' s' ls' hr' hls' hes' hsame
    rw [hload, perform_load_of_sets hr' hls' hes' (ho.of_resembles hsame)]
    cases (overlay o).fault? <;> rfl

/-- Two settings beside a table that means nothing here. -/
def mixedText : String :=
  "[session.more]
debounce_ms = 7
[log]
level = 'warn'
[session]
kill_grace_ms = 900
"

def mixedLines : List Line :=
  [.header ["session"] "more", .assign [] "debounce_ms" (.integer 7), .header [] "log",
    .assign [] "level" (.text "warn"), .header [] "session", .assign [] "kill_grace_ms" (.integer 900)]

/-- The same settings, alone and in another order. -/
def tidyText : String :=
  "[session]
kill_grace_ms = 900
[log]
level = 'warn'
"

def tidyLines : List Line :=
  [.header [] "session", .assign [] "kill_grace_ms" (.integer 900), .header [] "log", .assign [] "level" (.text "warn")]

/-- A level that there is not. -/
def loudText : String :=
  "[log]
level = 'loud'
"

def loudLines : List Line := [.header [] "log", .assign [] "level" (.text "loud")]

/-- A level and perhaps a time to exit. -/
def levelAnd (level : String) (killGraceMs : Option Nat) : Given
  | .level => some level
  | .killGraceMs => killGraceMs
  | _ => none

theorem unknown_table {p : List String} (h : ∀ k ∈ Key.all, ¬k.place <+: p) : Unknown p .table :=
  ⟨fun _ _ => rfl, fun k => h k (by cases k <;> decide)⟩

theorem unknown_value {p : List String} (v : Toml.Node)
    (h : ∀ k ∈ Key.all, p ≠ [k.sectionName] ∧ ¬k.place <+: p) : Unknown p (.value v) :=
  ⟨fun k hp => absurd hp (h k (by cases k <;> decide)).1, fun k => (h k (by cases k <;> decide)).2⟩

theorem sets_mixed : Sets mixedLines (levelAnd "warn" (some 900)) where
  set k v hk := by
    cases k <;> cases hk
    · exact ⟨.integer 900, rfl, by simp [sayings, mixedLines, Line.place, Line.saying, Line.opens, Key.place,
        Key.sectionName, Key.fieldName]⟩
    · exact ⟨.text "warn", rfl, by simp [sayings, mixedLines, Line.place, Line.saying, Line.opens, Key.place,
        Key.sectionName, Key.fieldName]⟩
  only s hs := by
    simp only [sayings, mixedLines, List.mem_cons, List.not_mem_nil, or_false] at hs
    rcases hs with rfl | rfl | rfl | rfl | rfl | rfl
    · exact Or.inr (unknown_table (by decide))
    · exact Or.inr (unknown_value _ (by decide))
    · exact Or.inr (unknown_table (by decide))
    · exact Or.inl ⟨.level, .text "warn", "warn", rfl, rfl, rfl⟩
    · exact Or.inr (unknown_table (by decide))
    · exact Or.inl ⟨.killGraceMs, .integer 900, (900 : Nat), rfl, rfl, rfl⟩

theorem sets_loud : Sets loudLines (levelAnd "loud" none) where
  set k v hk := by
    cases k <;> cases hk
    exact ⟨.text "loud", rfl, by simp [sayings, loudLines, Line.place, Line.saying, Line.opens, Key.place,
      Key.sectionName, Key.fieldName]⟩
  only s hs := by
    simp only [sayings, loudLines, List.mem_cons, List.not_mem_nil, or_false] at hs
    rcases hs with rfl | rfl
    · exact Or.inr (unknown_table (by decide))
    · exact Or.inl ⟨.level, .text "loud", "loud", rfl, rfl, rfl⟩

theorem tidy_resembles_mixed : Resembles tidyLines mixedLines where
  same k w := by
    cases k <;> simp [sayings, mixedLines, tidyLines, Line.place, Line.saying, Line.opens, Key.place, Key.sectionName,
      Key.fieldName]
  only s hs := by
    simp only [sayings, tidyLines, List.mem_cons, List.not_mem_nil, or_false] at hs
    rcases hs with rfl | rfl | rfl | rfl
    · exact Or.inr (unknown_table (by decide))
    · exact Or.inl ⟨.killGraceMs, rfl⟩
    · exact Or.inr (unknown_table (by decide))
    · exact Or.inl ⟨.level, rfl⟩

set_option maxRecDepth 2000 in
theorem loaded_over_defaults_when_mixed :
    (load (.ofString "config.toml")).perform (holding mixedText) =
      (.ok { session := { killGraceMs := 900 }, log := { level := "warn" } }, holding mixedText) ∧
    ((load (.ofString "config.toml")).perform (holding tidyText)).1 =
      ((load (.ofString "config.toml")).perform (holding mixedText)).1 ∧
    (load (.ofString "config.toml")).perform (holding loudText) =
      (.error (.rule (Fault.level "loud").message), holding loudText) := by
  have hmixed : linesOf? mixedText = some mixedLines := rfl
  have htidy : linesOf? tidyText = some tidyLines := rfl
  have hloud : linesOf? loudText = some loudLines := rfl
  obtain ⟨hvalid, -, hsame⟩ :=
    loaded_over_defaults (levelAnd "warn" (some 900)) (read_holding mixedText) hmixed rfl sets_mixed
  obtain ⟨-, hinvalid, -⟩ := loaded_over_defaults (levelAnd "loud" none) (read_holding loudText) hloud rfl sets_loud
  obtain ⟨f, hf, hrefused⟩ := hinvalid (by decide)
  cases hf
  exact ⟨hvalid (by decide), hsame _ _ _ _ (read_holding tidyText) htidy rfl tidy_resembles_mixed, hrefused⟩

end

end Config

end Retrace
