import Retrace.Proofs.Config.Store

/-!
# A setting is set to what it is shown as

The text that a setting is shown as stands for the setting again. The empty text stands for no directories and for no
file, so that a directory or a file without a name is lost when it is all that is set, and so are directories that no
one text can hold apart, which are shown as the empty text.
-/

namespace Retrace

namespace Text

/-- A small letter of the Latin alphabet. -/
def IsSmall (c : Char) : Prop := 0x61 ≤ c.toNat ∧ c.toNat ≤ 0x7A

theorem lowerRanges_apart : ∀ r ∈ lowerRanges.toList, r.2.1 < 0x61 ∨ 0x7A < r.1 := by
  decide +kernel

theorem lowerChar_small {c : Char} (h : IsSmall c) : lowerChar c = [c] := by
  obtain ⟨hmin, hmax⟩ := h
  rw [lowerChar, if_neg (by omega)]
  dsimp only
  split
  · -- no range reaches a small letter
    rename_i r hfind
    have hin := Array.mem_of_find?_eq_some hfind
    have hrange := Array.find?_some hfind
    simp only [Bool.and_eq_true, decide_eq_true_eq] at hrange
    have hapart := lowerRanges_apart _ hin.val
    dsimp only at hapart
    omega
  · rfl

theorem lowerChars_small {cs : List Char} (h : ∀ c ∈ cs, IsSmall c) (before : List Char) :
    lowerChars before cs = cs := by
  induction cs generalizing before with
  | nil => rfl
  | cons c cs ih =>
    have hc := h c List.mem_cons_self
    have hsigma : c.toNat ≠ 0x3A3 := by
      have := hc.2
      omega
    rw [lowerChars, if_neg hsigma, lowerChar_small hc, ih fun c hc => h c (List.mem_cons_of_mem _ hc)]
    rfl

theorem lowercase_logLevel : ∀ l ∈ Config.logLevels, lowercase l = l := by
  intro l hl
  have hall : (Config.logLevels.all fun l => l.toList.all fun c => 0x61 ≤ c.toNat && c.toNat ≤ 0x7A) = true := by
    decide
  have hsmall : ∀ c ∈ l.toList, IsSmall c := by
    intro c hc
    have hin := List.all_eq_true.mp (List.all_eq_true.mp hall l hl) c hc
    simpa [IsSmall] using hin
  rw [lowercase, lowerChars_small hsmall, String.ofList_toList]

end Text

namespace Config

variable {c c' : Config} {file : Path} {m m' : Machine}

theorem Valid.level (h : c.Valid) : c.log.level ∈ logLevels := by
  unfold Valid fault? at h
  split at h
  · cases h
  split at h
  · cases h
  split at h
  · cases h
  split at h
  · cases h
  split at h
  · cases h
  · rename_i hlevel
    simpa using hlevel

theorem parseMs_toString {n : Nat} (hn : n < UInt64.size) : parseMs (toString n) = .ok n :=
  parseMs_eq_ok.mpr (Text.parseNatural_toString hn)

/-- Something without a name is all that is set. -/
def Nameless (c : Config) : Key → Prop
  | .searchPath => c.tracer.searchPath = [⟨[]⟩]
  | .logFile => c.log.file = some ⟨[]⟩
  | _ => False

/-- The directories of the search path can be told apart when they stand in one text. -/
def Separable (c : Config) : Prop := ∀ p ∈ c.tracer.searchPath, SearchPath.colon ∉ p.raw

theorem ofString_eq_nil {s : String} : Path.ofString s = ⟨[]⟩ ↔ s = "" := by
  constructor
  · intro h
    have hshown := congrArg Path.display h
    rwa [Path.display_ofString] at hshown
  · rintro rfl
    rfl

/-- A setting that does not stand for itself when it is shown. -/
def Lost (c : Config) (k : Key) : Prop := c.Nameless k ∨ k = .searchPath ∧ ¬c.Separable

theorem Lost.key {k : Key} (h : c.Lost k) : k = .searchPath ∨ k = .logFile := by
  rcases h with h | ⟨rfl, -⟩
  · cases k with
    | searchPath => exact Or.inl rfl
    | logFile => exact Or.inr rfl
    | debounceMs | killGraceMs | interpreter | module | level => cases h
  · exact Or.inl rfl

/-- The search path that the text of the search path stands for. -/
def shownPath (c : Config) : List Path :=
  if c.get .searchPath = "" then [] else SearchPath.split (Bytes.ofString (c.get .searchPath))

theorem shownPath_of_inseparable (h : ¬c.Separable) : c.shownPath = [] := by
  have hjoin : SearchPath.join? c.tracer.searchPath = none := by
    rw [Option.eq_none_iff_forall_ne_some]
    intro value hvalue
    exact h (SearchPath.join?_eq_some.mp hvalue).1
  rw [shownPath, if_pos (by simp [get, hjoin])]

/-- Directories that can be told apart are read back, unless it is a single one without a name. -/
theorem shownPath_of_separable (hpaths : c.TextPaths) (hsep : c.Separable) :
    c.shownPath = if c.tracer.searchPath = [⟨[]⟩] then [] else c.tracer.searchPath := by
  obtain ⟨s, hs⟩ := SearchPath.isText_join hpaths.searchPath
  have hjoin : SearchPath.join? c.tracer.searchPath = some (Bytes.ofString s) :=
    SearchPath.join?_eq_some.mpr ⟨hsep, hs.symm⟩
  have hget : c.get .searchPath = s := by simp [get, hjoin, Utf8.lossy_encode]
  rw [shownPath, hget]
  by_cases hnil : c.tracer.searchPath = []
  · have hempty : s = "" := ofString_eq_nil.mp (congrArg Path.mk (by rw [hnil] at hs; exact hs.symm))
    simp [hempty, hnil]
  · have hsplit := SearchPath.split_of_join? hjoin hnil
    by_cases hempty : s = ""
    · subst hempty
      rw [← hsplit]
      rfl
    · have hnot : c.tracer.searchPath ≠ [⟨[]⟩] := by
        intro h
        rw [h] at hs
        exact hempty (ofString_eq_nil.mp (congrArg Path.mk hs.symm))
      rw [if_neg hempty, if_neg hnot, hsplit]

/-- The log file that is set to what it is shown as. -/
theorem logFile_shown (hpaths : c.TextPaths) :
    (if c.get .logFile = "" then none else some (Path.ofString (c.get .logFile))) =
      if c.log.file = some ⟨[]⟩ then none else c.log.file := by
  cases hfile : c.log.file with
  | none => simp [get, hfile]
  | some p =>
    obtain ⟨s, rfl⟩ := hpaths.file p hfile
    by_cases hs : s = "" <;> simp [get, hfile, Path.display_ofString, ofString_eq_nil, hs]

/-- What is set for a key after it was set to what it is shown as. -/
theorem set_get (hvalid : c.Valid) (hpaths : c.TextPaths) (k : Key) :
    ∃ c', c.set k (c.get k) = .ok c' ∧ (¬c.Lost k → c'.value k = c.value k) ∧
      (c.Lost k → c'.value k = if k = .searchPath then .paths [] else .path none) := by
  obtain ⟨⟨-, hdebounce⟩, -, hgrace⟩ := hvalid.bounds
  have hsize : UInt64.size = 18446744073709551616 := rfl
  cases k with
  | debounceMs =>
    refine ⟨c, ?_, fun _ => rfl, fun hk => by simpa using hk.key⟩
    rw [set, get, parseMs_toString (by omega)]
    rfl
  | killGraceMs =>
    refine ⟨c, ?_, fun _ => rfl, fun hk => by simpa using hk.key⟩
    rw [set, get, parseMs_toString (by omega)]
    rfl
  | interpreter | module => exact ⟨c, rfl, fun _ => rfl, fun hk => by simpa using hk.key⟩
  | level =>
    refine ⟨c, ?_, fun _ => rfl, fun hk => by simpa using hk.key⟩
    simp [set, get, Text.lowercase_logLevel _ hvalid.level]
  | searchPath =>
    refine ⟨{ c with tracer.searchPath := c.shownPath }, rfl, fun hk => ?_, ?_⟩
    · obtain ⟨hnamed, hsep⟩ : c.tracer.searchPath ≠ [⟨[]⟩] ∧ c.Separable := by simpa [Lost, Nameless] using hk
      rw [shownPath_of_separable hpaths hsep, if_neg hnamed]
    · intro hk
      by_cases hsep : c.Separable
      · have hnameless : c.tracer.searchPath = [⟨[]⟩] := by simpa [Lost, Nameless, hsep] using hk
        simp [value, shownPath_of_separable hpaths hsep, hnameless]
      · simp [value, shownPath_of_inseparable hsep]
  | logFile =>
    refine ⟨{ c with log.file := if c.log.file = some ⟨[]⟩ then none else c.log.file }, ?_, fun hk => ?_, fun hk => ?_⟩
    · rw [set, logFile_shown hpaths]
    · have hnamed : c.log.file ≠ some ⟨[]⟩ := by simpa [Lost, Nameless] using hk
      rw [if_neg hnamed]
    · have hnameless : c.log.file = some ⟨[]⟩ := by simpa [Lost, Nameless] using hk
      simp [value, hnameless]

/-- What is left of a setting that is lost is not lost again. -/
theorem not_lost_of_value {k : Key} (h : c.value k = if k = .searchPath then .paths [] else .path none) : ¬c.Lost k := by
  cases k with
  | searchPath =>
    have hnil : c.tracer.searchPath = [] := by simpa [value] using h
    simp [Lost, Nameless, Separable, hnil]
  | logFile =>
    have hnone : c.log.file = none := by simpa [value] using h
    simp [Lost, Nameless, hnone]
  | debounceMs | killGraceMs | interpreter | module | level => exact fun hk => by simpa using hk.key

/-- Settings that were loaded can be set, one by one, to what they are shown as. This changes no other setting, and it
changes nothing at all unless something without a name is all that is set, or the directories of the search path
cannot be told apart in one text. Then the search path is empty afterwards, or the log file no longer set. -/
theorem setting_is_set_back (hload : (load file).perform m = (.ok c, m')) (k : Key) :
    ∃ c', c.set k (c.get k) = .ok c' ∧ (∀ k', k' ≠ k → c'.value k' = c.value k') ∧
      (c' = c ↔ ¬c.Nameless k ∧ (k = .searchPath → c.Separable)) ∧
      (c' ≠ c → c'.value k = if k = .searchPath then .paths [] else .path none) := by
  obtain ⟨-, hvalid, -⟩ := load_eq_ok hload
  obtain ⟨c', hset, hkept, hlost⟩ := set_get hvalid (textPaths_of_load hload) k
  have hframe : ∀ k', k' ≠ k → c'.value k' = c.value k' := fun k' hne => value_of_set hset hne
  have hiff : c' = c ↔ ¬c.Lost k := by
    constructor
    · rintro rfl hk
      exact not_lost_of_value (hlost hk) hk
    · intro hk
      refine ext_value fun k' => ?_
      by_cases hne : k' = k
      · rw [hne, hkept hk]
      · exact hframe k' hne
  refine ⟨c', hset, hframe, ?_, fun hne => hlost (not_not.mp (mt hiff.mpr hne))⟩
  rw [hiff, Lost, not_or, not_and, not_not]

/-- A machine whose settings file has these contents. -/
def kept (contents : String) : Machine where
  tree := ⟨#[.dir [(.ofString "config.toml", 1)], .file (.ofString contents) 0o644]⟩

theorem load_kept {contents : String} (hc : read? contents = some c) (h : c.Valid) :
    (load (.ofString "config.toml")).perform (kept contents) = (.ok c, kept contents) :=
  perform_load (Machine.read_of_find rfl rfl) hc h

theorem setting_is_set_back_when_crowded :
    (∃ c c' : Config, c.tracer.searchPath = [⟨[]⟩, .ofString "a b"] ∧ c.log.file = some ⟨[]⟩ ∧
      c.set .searchPath (c.get .searchPath) = .ok c ∧ c.set .logFile (c.get .logFile) = .ok c' ∧ c' ≠ c ∧
      c'.value .logFile = .path none ∧ c'.value .searchPath = c.value .searchPath) ∧
    ∃ c c' : Config, c.tracer.searchPath = [.ofString "a:b", .ofString "c"] ∧
      c.set .searchPath (c.get .searchPath) = .ok c' ∧ c' ≠ c ∧ c'.value .searchPath = .paths [] := by
  constructor
  · let c : Config := { tracer := { searchPath := [⟨[]⟩, .ofString "a b"] }, log := { file := some ⟨[]⟩ } }
    have hread : read? "tracer.search_path = ['', 'a b']\nlog.file = ''" = some c := by decide +kernel
    have hload := load_kept hread (by decide)
    have hnamed : ¬c.Nameless .searchPath := by simp [Nameless, c]
    have hsep : c.Separable := by unfold Separable; decide
    obtain ⟨d, hpath, -, hsame, -⟩ := setting_is_set_back hload .searchPath
    obtain ⟨c', hfile, hframe, hdiff, hvalue⟩ := setting_is_set_back hload .logFile
    have hne : c' ≠ c := fun h => (hdiff.mp h).1 rfl
    rw [hsame.mpr ⟨hnamed, fun _ => hsep⟩] at hpath
    exact ⟨c, c', rfl, rfl, hpath, hfile, hne, hvalue hne, hframe .searchPath (by decide)⟩
  · let c : Config := { tracer := { searchPath := [.ofString "a:b", .ofString "c"] } }
    have hread : read? "tracer.search_path = ['a:b', 'c']" = some c := by decide +kernel
    have hsep : ¬c.Separable := by unfold Separable; decide
    obtain ⟨c', hset, -, hdiff, hvalue⟩ := setting_is_set_back (load_kept hread (by decide)) .searchPath
    have hne : c' ≠ c := fun h => hsep ((hdiff.mp h).2 rfl)
    exact ⟨c, c', rfl, hset, hne, hvalue hne⟩

/-- Settings with a log file that has no name. -/
def unnamedLog : Config where
  log := { file := some ⟨[]⟩ }

/-- Settings with a search path of one directory that has no name. -/
def unnamedDirectory : Config where
  tracer := { searchPath := [⟨[]⟩] }

/-- Settings with a directory that has the separator in its name. -/
def parted : Config where
  tracer := { searchPath := [.ofString "/opt/a:b", .ofString "/usr/lib"] }

/-- They are loaded from a file, and setting the log file or the search path to what it is shown as loses it. -/
theorem setting_is_lost_when_nameless_or_parted :
    ((load (.ofString "config.toml")).perform (kept "log.file = ''") = (.ok unnamedLog, kept "log.file = ''") ∧
      unnamedLog.set .logFile (unnamedLog.get .logFile) = .ok .default ∧ default ≠ unnamedLog) ∧
    ((load (.ofString "config.toml")).perform (kept "tracer.search_path = ['']") =
        (.ok unnamedDirectory, kept "tracer.search_path = ['']") ∧
      unnamedDirectory.set .searchPath (unnamedDirectory.get .searchPath) = .ok .default ∧
      default ≠ unnamedDirectory) ∧
    (load (.ofString "config.toml")).perform (kept "tracer.search_path = ['/opt/a:b', '/usr/lib']") =
        (.ok parted, kept "tracer.search_path = ['/opt/a:b', '/usr/lib']") ∧
      parted.set .searchPath (parted.get .searchPath) = .ok .default ∧ default ≠ parted :=
  ⟨⟨load_kept (by decide +kernel) (by decide), rfl, by decide⟩,
    ⟨load_kept (by decide +kernel) (by decide), rfl, by decide⟩,
    load_kept (by decide +kernel) (by decide), rfl, by decide⟩

end Config

end Retrace
