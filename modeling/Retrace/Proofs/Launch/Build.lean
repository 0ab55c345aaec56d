import Retrace.Launch.Build
import Retrace.Proofs.Machine.Descent

/-!
# Which command line is built, and when

A command line is built exactly when five checks pass, and the first one that fails is reported. The search path of the
command line falls into the directories of the settings and the directory of the script.
-/

namespace Retrace.Launch

section
variable (m : Machine) (env : Environment) (c : TracerSettings) (t : TraceTarget)

/-- The program that a name stands for: a path that leads to a file, or the first file of that name along the search
path. -/
inductive Found (name : Bytes) : Path → Prop
  | path : 1 < (Path.mk name).components.length → m.isFile ⟨name⟩ = true → Found name ⟨name⟩
  | listed {dirs : Bytes} {before : List Path} {dir : Path} {after : List Path} :
    (Path.mk name).components.length ≤ 1 → env.get? "PATH" = some dirs →
      SearchPath.split dirs = before ++ dir :: after → (∀ d ∈ before, m.isFile (d.join ⟨name⟩) = false) →
        m.isFile (dir.join ⟨name⟩) = true → Found name (dir.join ⟨name⟩)

/-- The driver is a script other than the source file. -/
def Drives (d : Path) : Prop := t.driver = some d ∧ sameFile m d t.main = false

/-- The script that the interpreter starts from: the driver, or the source file where there is none. -/
def Script (s : Path) : Prop := Drives m t s ∨ s = t.main ∧ ∀ d, ¬Drives m t d

/-- The directory above the script, where one is spelled out, else the working directory. -/
def ModuleDir (dir : Path) : Prop :=
  ∃ script above, Script m t script ∧ script.parent? = some above ∧ dir = if above.raw = [] then t.workingDir else above

/-- What is checked before a command line is built. -/
inductive Check where
  | source
  | workingDir
  | interpreter
  | driver
  | searchPath
  deriving DecidableEq, Repr

/-- The checks in their order. -/
def Check.all : List Check := [.source, .workingDir, .interpreter, .driver, .searchPath]

def Check.Passes : Check → Prop
  | .source => m.isFile t.main = true
  | .workingDir => m.isDir t.workingDir = true
  | .interpreter => ∃ program, Found m env (Bytes.ofString c.interpreter) program
  | .driver => ∀ d, Drives m t d → m.isFile d = true
  | .searchPath => (∀ p ∈ c.searchPath, SearchPath.colon ∉ p.raw) ∧ ∀ dir, ModuleDir m t dir → SearchPath.colon ∉ dir.raw

/-- What is reported when a check fails. -/
def Check.fault : Check → LaunchFault
  | .source => .missingSource t.main
  | .workingDir => .invalidWorkingDir t.workingDir
  | .interpreter => .interpreterNotFound c.interpreter
  | .driver => .invalidDriver (t.driver.getD t.main) "file not found"
  | .searchPath => .invalidSearchPath "path segment contains separator `:`"

/-- The check fails, and those before it pass. -/
def Check.FirstFails (k : Check) : Prop :=
  (∀ j ∈ Check.all.takeWhile (· ≠ k), j.Passes m env c t) ∧ ¬k.Passes m env c t

/-- The command line for a source file. -/
structure Traces (inv : Invocation) : Prop where
  program : Found m env (Bytes.ofString c.interpreter) ⟨inv.program⟩
  alone : (∀ d, ¬Drives m t d) → inv.args = [.ofString "-m", .ofString c.module]
  driven : ∀ d, Drives m t d → inv.args = [.ofString "-m", .ofString c.module, .ofString "--bad_driver",
    .ofString (idleDriverMessage d (t.main.moduleName t.workingDir)), .ofString "-",
    .ofString (t.main.moduleName t.workingDir), d.raw] ++ t.driverArgs
  workingDir : inv.workingDir = some t.workingDir
  searchPath : ∃ dirs dir, inv.env = [(searchVariable, dirs)] ∧ SearchPath.split dirs = c.searchPath ++ [dir] ∧
    ModuleDir m t dir ∧ dir.raw ≠ []

end

variable {m : Machine} {env : Environment} {c : TracerSettings} {t : TraceTarget} {name : Bytes} {program d dir : Path}

theorem findProgram_eq_some : findProgram m env name = some program ↔ Found m env name program := by
  unfold findProgram
  dsimp only
  constructor
  · intro h
    split at h
    · rename_i hlong
      split at h
      · rename_i hfile
        cases h
        exact .path hlong hfile
      · cases h
    · rename_i hshort
      split at h
      · cases h
      · rename_i dirs hdirs
        obtain ⟨hfile, before, after, hsplit, hbefore⟩ := List.find?_eq_some_iff_append.mp h
        obtain ⟨dirsBefore, rest, hd, rfl, hrest⟩ := List.map_eq_append_iff.mp hsplit
        obtain ⟨dir, dirsAfter, rfl, rfl, rfl⟩ := List.map_eq_cons_iff.mp hrest
        refine .listed (Nat.le_of_not_lt hshort) hdirs hd ?_ hfile
        intro d hd
        simpa using hbefore _ (List.mem_map_of_mem hd)
  · intro h
    cases h with
    | path hlong hfile => rw [if_pos hlong, if_pos hfile]
    | listed hshort hdirs hsplit hbefore hfile =>
      rw [if_neg (Nat.not_lt.mpr hshort), hdirs]
      refine List.find?_eq_some_iff_append.mpr ⟨hfile, _, _, by rw [hsplit, List.map_append, List.map_cons], ?_⟩
      intro p hp
      obtain ⟨d, hd, rfl⟩ := List.mem_map.mp hp
      simpa using hbefore d hd

theorem findProgram_eq_none : findProgram m env name = none ↔ ∀ program, ¬Found m env name program := by
  simp only [Option.eq_none_iff_forall_ne_some, ne_eq, findProgram_eq_some]

/-- Two paths are to one file when they lead to the same place. When one of them leads nowhere their parts are
compared. -/
theorem sameFile_iff {p q : Path} :
    sameFile m p q = true ↔
      (∃ a b, m.canonicalize p = .ok a ∧ m.canonicalize q = .ok b ∧ a.components = b.components) ∨
      (¬∃ a b, m.canonicalize p = .ok a ∧ m.canonicalize q = .ok b) ∧ p.components = q.components := by
  unfold sameFile Path.same
  cases m.canonicalize p with
  | error e => simp
  | ok a => cases m.canonicalize q <;> simp

/-- The source file is no driver, however its path is spelled. -/
theorem not_drives_main {a b : Path} (hd : m.canonicalize d = .ok a) (hm : m.canonicalize t.main = .ok b)
    (hsame : a.components = b.components) : ¬Drives m t d := by
  rintro ⟨-, hno⟩
  rw [sameFile_iff.mpr (Or.inl ⟨a, b, hd, hm, hsame⟩)] at hno
  cases hno

theorem effectiveDriver_eq_some : effectiveDriver m t = some d ↔ Drives m t d := by
  simp [effectiveDriver, Drives, Option.filter_eq_some_iff]

theorem effectiveDriver_eq_none : effectiveDriver m t = none ↔ ∀ d, ¬Drives m t d := by
  simp only [Option.eq_none_iff_forall_ne_some, ne_eq, effectiveDriver_eq_some]

theorem scriptDir_eq_some : scriptDir t ((effectiveDriver m t).getD t.main) = some dir ↔ ModuleDir m t dir := by
  have hscript : ∀ s, (effectiveDriver m t).getD t.main = s ↔ Script m t s := by
    intro s
    cases hd : effectiveDriver m t with
    | some d =>
      have hdrives := effectiveDriver_eq_some.mp hd
      have hone : ∀ {s}, Drives m t s → s = d := fun h => Option.some.inj (h.1.symm.trans hdrives.1)
      constructor
      · rintro rfl
        exact Or.inl hdrives
      · rintro (h | ⟨-, h⟩)
        · exact (hone h).symm
        · exact absurd hdrives (h d)
    | none =>
      have hno := effectiveDriver_eq_none.mp hd
      constructor
      · rintro rfl
        exact Or.inr ⟨rfl, hno⟩
      · rintro (h | ⟨rfl, -⟩)
        · exact absurd h (hno s)
        · rfl
  simp only [scriptDir, Option.map_eq_some_iff, ModuleDir, ← hscript]
  constructor
  · rintro ⟨above, habove, rfl⟩
    exact ⟨_, above, rfl, habove, rfl⟩
  · rintro ⟨-, above, rfl, habove, rfl⟩
    exact ⟨above, habove, rfl⟩

theorem searchDirs_eq (hscript : m.isFile ((effectiveDriver m t).getD t.main) = true) :
    ∃ dir, ModuleDir m t dir ∧ searchDirs c t ((effectiveDriver m t).getD t.main) = c.searchPath ++ [dir] := by
  obtain ⟨above, habove⟩ := Machine.exists_parent_of_isFile hscript
  have hdir : scriptDir t ((effectiveDriver m t).getD t.main) =
      some (if above.raw = [] then t.workingDir else above) := by
    rw [scriptDir, habove]
    rfl
  exact ⟨_, scriptDir_eq_some.mp hdir, by rw [searchDirs, hdir]; rfl⟩

theorem ModuleDir.unique {dir' : Path} (h : ModuleDir m t dir) (h' : ModuleDir m t dir') : dir = dir' :=
  Option.some.inj ((scriptDir_eq_some.mpr h).symm.trans (scriptDir_eq_some.mpr h'))

theorem ModuleDir.raw_ne_nil (h : ModuleDir m t dir) (hw : m.isDir t.workingDir = true) : dir.raw ≠ [] := by
  obtain ⟨-, above, -, -, rfl⟩ := h
  by_cases habove : above.raw = []
  · obtain ⟨place, es, hf, -⟩ := Machine.find_of_isDir hw
    rw [if_pos habove]
    exact List.length_pos_iff.mp (Machine.length_pos_of_find hf)
  · rwa [if_neg habove]

theorem isFile_script (hsource : m.isFile t.main = true) (hdriver : ∀ d, Drives m t d → m.isFile d = true) :
    m.isFile ((effectiveDriver m t).getD t.main) = true := by
  cases hd : effectiveDriver m t with
  | none => exact hsource
  | some d => exact hdriver d (effectiveDriver_eq_some.mp hd)

theorem filter_effectiveDriver (h : ∀ d, Drives m t d → m.isFile d = true) :
    (effectiveDriver m t).filter (!m.isFile ·) = none := by
  rw [Option.eq_none_iff_forall_ne_some]
  intro d hd
  obtain ⟨hd, hno⟩ := Option.filter_eq_some_iff.mp hd
  simp [h d (effectiveDriver_eq_some.mp hd)] at hno

/-- A command line is built when all checks pass. -/
theorem build_of_passes (h : ∀ k : Check, k.Passes m env c t) :
    ∃ inv, build m env c t = .ok inv ∧ Traces m env c t inv := by
  have hsource : m.isFile t.main = true := h .source
  have hworking : m.isDir t.workingDir = true := h .workingDir
  obtain ⟨program, hprogram⟩ : ∃ program, Found m env (Bytes.ofString c.interpreter) program := h .interpreter
  have hdriver : ∀ d, Drives m t d → m.isFile d = true := h .driver
  obtain ⟨hpath, hmodule⟩ : (∀ p ∈ c.searchPath, SearchPath.colon ∉ p.raw) ∧
    ∀ dir, ModuleDir m t dir → SearchPath.colon ∉ dir.raw := h .searchPath
  obtain ⟨dir, hdir, hdirs⟩ := searchDirs_eq (c := c) (isFile_script hsource hdriver)
  have hjoin : SearchPath.join? (c.searchPath ++ [dir]) =
      some (Bytes.join SearchPath.colon ((c.searchPath ++ [dir]).map Path.raw)) := by
    refine SearchPath.join?_eq_some.mpr ⟨fun p hp => ?_, rfl⟩
    rcases List.mem_append.mp hp with hp | hp
    · exact hpath p hp
    · rw [List.mem_singleton.mp hp]
      exact hmodule dir hdir
  unfold build
  rw [hsource, hworking, findProgram_eq_some.mpr hprogram]
  dsimp only
  rw [filter_effectiveDriver hdriver, hdirs, hjoin]
  refine ⟨_, rfl, hprogram, ?_, ?_, rfl, _, dir, rfl, ?_, hdir, hdir.raw_ne_nil hworking⟩
  · intro hno
    rw [effectiveDriver_eq_none.mpr hno]
    rfl
  · intro d hd
    rw [effectiveDriver_eq_some.mpr hd]
    rfl
  · exact SearchPath.split_of_join? hjoin (by simp)

/-- The first check that fails is reported. -/
theorem build_of_firstFails {k : Check} (h : k.FirstFails m env c t) : build m env c t = .error (k.fault c t) := by
  obtain ⟨hbefore, hfails⟩ := h
  unfold build
  cases k with
  | source =>
    simp only [Check.Passes, Bool.not_eq_true] at hfails
    rw [hfails]
    rfl
  | workingDir =>
    have hsource : m.isFile t.main = true := hbefore .source (by decide)
    simp only [Check.Passes, Bool.not_eq_true] at hfails
    rw [hsource, hfails]
    rfl
  | interpreter =>
    have hsource : m.isFile t.main = true := hbefore .source (by decide)
    have hworking : m.isDir t.workingDir = true := hbefore .workingDir (by decide)
    rw [hsource, hworking, findProgram_eq_none.mpr (not_exists.mp hfails)]
    rfl
  | driver =>
    have hsource : m.isFile t.main = true := hbefore .source (by decide)
    have hworking : m.isDir t.workingDir = true := hbefore .workingDir (by decide)
    obtain ⟨program, hprogram⟩ : ∃ program, Found m env (Bytes.ofString c.interpreter) program :=
      hbefore .interpreter (by decide)
    simp only [Check.Passes, not_forall, Bool.not_eq_true] at hfails
    obtain ⟨d, hd, hno⟩ := hfails
    rw [hsource, hworking, findProgram_eq_some.mpr hprogram]
    dsimp only
    rw [effectiveDriver_eq_some.mpr hd]
    simp [Option.filter, hno, Check.fault, hd.1]
  | searchPath =>
    have hsource : m.isFile t.main = true := hbefore .source (by decide)
    have hworking : m.isDir t.workingDir = true := hbefore .workingDir (by decide)
    obtain ⟨program, hprogram⟩ : ∃ program, Found m env (Bytes.ofString c.interpreter) program :=
      hbefore .interpreter (by decide)
    have hdriver : ∀ d, Drives m t d → m.isFile d = true := hbefore .driver (by decide)
    obtain ⟨dir, hdir, hdirs⟩ := searchDirs_eq (c := c) (isFile_script hsource hdriver)
    have hjoin : SearchPath.join? (c.searchPath ++ [dir]) = none := by
      rw [Option.eq_none_iff_forall_ne_some]
      intro value hvalue
      have hno := (SearchPath.join?_eq_some.mp hvalue).1
      refine hfails ⟨fun p hp => hno p (List.mem_append_left _ hp), fun dir' hdir' => ?_⟩
      rw [hdir'.unique hdir]
      exact hno dir (by simp)
    rw [hsource, hworking, findProgram_eq_some.mpr hprogram]
    dsimp only
    rw [filter_effectiveDriver hdriver, hdirs, hjoin]
    rfl

theorem passes_or_firstFails : (∀ k : Check, k.Passes m env c t) ∨ ∃ k : Check, k.FirstFails m env c t := by
  by_cases hsource : Check.source.Passes m env c t
  · by_cases hworking : Check.workingDir.Passes m env c t
    · by_cases hprogram : Check.interpreter.Passes m env c t
      · by_cases hdriver : Check.driver.Passes m env c t
        · by_cases hsearch : Check.searchPath.Passes m env c t
          · left
            intro k
            cases k <;> assumption
          · exact Or.inr ⟨.searchPath, by simp [Check.all, hsource, hworking, hprogram, hdriver], hsearch⟩
        · exact Or.inr ⟨.driver, by simp [Check.all, hsource, hworking, hprogram], hdriver⟩
      · exact Or.inr ⟨.interpreter, by simp [Check.all, hsource, hworking], hprogram⟩
    · exact Or.inr ⟨.workingDir, by simp [Check.all, hsource], hworking⟩
  · exact Or.inr ⟨.source, by simp [Check.all], hsource⟩

/-- A command line is built exactly when all checks pass, and it is the one that traces the source file; otherwise the
first check that fails is reported. -/
theorem command_line_is_exact (m : Machine) (env : Environment) (c : TracerSettings) (t : TraceTarget) :
    ((∃ inv, build m env c t = .ok inv) ↔ ∀ k ∈ Check.all, k.Passes m env c t) ∧
    (∀ f, build m env c t = .error f ↔ ∃ k : Check, k.FirstFails m env c t ∧ f = k.fault c t) ∧
    ∀ inv, build m env c t = .ok inv → Traces m env c t inv := by
  have hall : (∀ k ∈ Check.all, k.Passes m env c t) ↔ ∀ k : Check, k.Passes m env c t :=
    ⟨fun h k => h k (by cases k <;> decide), fun h k _ => h k⟩
  rw [hall]
  have hsplit : (∀ k : Check, k.Passes m env c t) ∨ ∃ k : Check, k.FirstFails m env c t := passes_or_firstFails
  rcases hsplit with hpass | ⟨k, hk⟩
  · obtain ⟨inv, hbuild, htraces⟩ := build_of_passes hpass
    rw [hbuild]
    refine ⟨⟨fun _ => hpass, fun _ => ⟨inv, rfl⟩⟩, fun f => ⟨nofun, ?_⟩, ?_⟩
    · rintro ⟨k, hk, -⟩
      exact absurd (hpass k) hk.2
    · rintro inv' ⟨rfl⟩
      exact htraces
  · have hbuild := build_of_firstFails hk
    rw [hbuild]
    refine ⟨⟨nofun, fun hpass => absurd (hpass k) hk.2⟩, fun f => ⟨?_, ?_⟩, nofun⟩
    · rintro ⟨rfl⟩
      exact ⟨k, hk, rfl⟩
    · rintro ⟨k', hk', rfl⟩
      rw [← hbuild, build_of_firstFails hk']

/-- A machine with a source file, a driver and an interpreter. -/
def workshop : Machine where
  tree := ⟨#[.dir [(.ofString "main.py", 1), (.ofString "drive.py", 2), (.ofString "sh", 3)], .file [] 0o644,
    .file [] 0o644, .file [] 0o755]⟩

/-- A driver is run, the source file under another name is not, and a driver that is not there is reported. -/
theorem command_line_is_exact_with_driver :
    let env : Environment := [(.ofString "PATH", .ofString "/gone:/")]
    let c : TracerSettings := { interpreter := "sh", searchPath := [.ofString "lib"] }
    let t : TraceTarget := { main := .ofString "main.py", driver := some (.ofString "drive.py"), workingDir := .ofString "/" }
    (∃ inv dirs, build workshop env c t = .ok inv ∧ inv.program = .ofString "/sh" ∧
      inv.args.map Utf8.lossy = ["-m", "code_tracer", "--bad_driver",
        "drive.py doesn't call the main module. Try a different driver.", "-", "main", "drive.py"] ∧
      inv.env = [(searchVariable, dirs)] ∧ SearchPath.split dirs = [.ofString "lib", .ofString "/"]) ∧
    (∃ inv, build workshop env c { t with driver := some (.ofString "/./main.py") } = .ok inv ∧
      inv.args.map Utf8.lossy = ["-m", "code_tracer"]) ∧
    build workshop env c { t with driver := some (.ofString "gone.py") } =
      .error (.invalidDriver (.ofString "gone.py") "file not found") := by
  intro env c t
  have hprogram : findProgram workshop env (.ofString "sh") = some (.ofString "/sh") := by decide +kernel
  -- The driver is checked alone; all else is the same for each of them.
  have hpasses : ∀ driver, (∀ d, Drives workshop { t with driver } d → workshop.isFile d = true) →
      ModuleDir workshop { t with driver } (.ofString "/") →
        ∀ k ∈ Check.all, k.Passes workshop env c { t with driver } := by
    intro driver hdriver hdir k _
    cases k with
    | source => exact (by decide +kernel : workshop.isFile t.main = true)
    | workingDir => exact (by decide +kernel : workshop.isDir t.workingDir = true)
    | interpreter => exact ⟨_, findProgram_eq_some.mp hprogram⟩
    | driver => exact hdriver
    | searchPath =>
      refine ⟨by decide, fun dir h => ?_⟩
      rw [h.unique hdir]
      decide
  refine ⟨?_, ?_, ?_⟩
  · have hdrives : Drives workshop t (.ofString "drive.py") := ⟨rfl, by decide +kernel⟩
    have hdir : ModuleDir workshop t (.ofString "/") := scriptDir_eq_some.mp (by decide +kernel)
    obtain ⟨hok, -, htraces⟩ := command_line_is_exact workshop env c t
    obtain ⟨inv, hinv⟩ := hok.mpr (hpasses _ (by rintro d ⟨⟨⟩, -⟩; decide +kernel) hdir)
    have h := htraces inv hinv
    obtain ⟨dirs, dir, henv, hsplit, hmodule, -⟩ := h.searchPath
    have hfound := findProgram_eq_some.mpr h.program
    refine ⟨inv, dirs, hinv, ?_, ?_, henv, ?_⟩
    · exact congrArg Path.raw (Option.some.inj (hfound.symm.trans hprogram))
    · rw [h.driven _ hdrives]
      decide +kernel
    · rw [hsplit, hmodule.unique hdir]
      rfl
  · have hno : ∀ d, ¬Drives workshop { t with driver := some (.ofString "/./main.py") } d := by
      rintro d h
      cases h.1
      have hplace : workshop.canonicalize (.ofString "/./main.py") = .ok (.ofString "/main.py") ∧
          workshop.canonicalize t.main = .ok (.ofString "/main.py") := by decide +kernel
      exact absurd h (not_drives_main hplace.1 hplace.2 rfl)
    have hdir : ModuleDir workshop { t with driver := some (.ofString "/./main.py") } (.ofString "/") :=
      scriptDir_eq_some.mp (by decide +kernel)
    obtain ⟨hok, -, htraces⟩ := command_line_is_exact workshop env c { t with driver := some (.ofString "/./main.py") }
    obtain ⟨inv, hinv⟩ := hok.mpr (hpasses _ (fun d h => absurd h (hno d)) hdir)
    refine ⟨inv, hinv, ?_⟩
    rw [(htraces inv hinv).alone hno]
    decide +kernel
  · refine ((command_line_is_exact workshop env c { t with driver := some (.ofString "gone.py") }).2.1 _).mpr
      ⟨.driver, ⟨?_, ?_⟩, rfl⟩
    · intro k hk
      simp only [Check.all, List.takeWhile, ne_eq, reduceCtorEq, not_false_eq_true, decide_true, not_true_eq_false,
        decide_false, List.mem_cons, List.not_mem_nil, or_false] at hk
      rcases hk with rfl | rfl | rfl
      · exact (by decide +kernel : workshop.isFile t.main = true)
      · exact (by decide +kernel : workshop.isDir t.workingDir = true)
      · exact ⟨_, findProgram_eq_some.mp hprogram⟩
    · intro hpass
      have hfile := hpass (.ofString "gone.py") ⟨rfl, by decide +kernel⟩
      exact absurd hfile (by decide +kernel)

end Retrace.Launch
