import Retrace.Proofs.Output.Temporary
import Retrace.Proofs.Steps

/-!
# A file is replaced as a whole or not at all

Whatever calls fail and wherever the machine stops, whoever reads the target finds the newest text that was written
without an error, all of it. A write that fails leaves no file behind.
-/

namespace Retrace.Output

variable {target : Path} {m m' : Machine}

namespace Sink

variable {B : Machine} {w w' : Sink} {a : Action}

/-! ## One write -/

/-- The text of a write that has ended without an error. -/
def done? (w : Sink) : Option Bytes :=
  match w.point with
  | .ended (.ok ()) => some w.data
  | _ => none

/-- How far a write that began with a machine has come. -/
inductive Stage (target : Path) (B : Machine) (w : Sink) : Prop where
  | waiting (hp : w.point = .create) (hm : w.machine = B) (hs : w.synced = true)
  | writing {t : Path} {bytes rest : Bytes} (hp : w.point = .write t rest) (hn : NewFile target B t bytes w.machine)
      (hf : w.file = B.tree.nodes.size) (hd : bytes ++ rest = w.data)
  | syncing {t : Path} (hp : w.point = .sync t) (hn : NewFile target B t w.data w.machine)
      (hf : w.file = B.tree.nodes.size)
  | moving {t : Path} (hp : w.point = .rename t) (hn : NewFile target B t w.data w.machine)
      (hf : w.file = B.tree.nodes.size) (hs : w.synced = true)
  | removing {t : Path} {e : IoError} {bytes : Bytes} (hp : w.point = .remove t e)
      (hn : NewFile target B t bytes w.machine) (hf : w.file = B.tree.nodes.size)
  | failed {e : IoError} (hp : w.point = .ended (.error e)) (hs : w.synced = true) (hl : Follows target B w.machine)
      (hu : Unchanged B w.machine) (hr : w.machine.read target = B.read target)
  | replaced (hp : w.point = .ended (.ok ())) (hs : w.synced = true) (hl : Follows target B w.machine)
      (hr : w.machine.read target = .ok w.data)

/-- An action is not the beginning of a write. -/
def Action.Within (a : Action) : Prop := ∀ data, a ≠ .setText data

theorem step_ended {r : Except IoError Unit} (hp : w.point = .ended r) (ha : a.Within) : step target w a = none := by
  cases a with
  | setText data => exact absurd rfl (ha data)
  | create | write | sync | rename | remove | fail => simp only [step, hp]

theorem done?_eq_some {data : Bytes} (h : w.done? = some data) : w.point = .ended (.ok ()) ∧ data = w.data := by
  unfold done? at h
  split at h
  · rename_i hp
    exact ⟨hp, (Option.some.inj h).symm⟩
  · cases h

theorem Survives.eq (h : w.Survives m') (hs : w.synced = true) : m' = w.machine := by
  rcases h with rfl | ⟨hunsynced, -⟩
  · rfl
  · rw [hs] at hunsynced
    cases hunsynced

theorem answer_point {p : Replace Path} (h : w.point = p) (r : Reply Path) (m : Machine) :
    (w.answer r m).point = p.next w.data r := by
  rw [answer, h]

theorem perform_eq {c : Call Path} {r : Reply Path} {m : Machine} (h : c.perform target w.machine = (r, m)) :
    w.perform target c = w.answer r m := by
  rw [perform, h]

/-- The end of a write: after an error all is as it was, and otherwise the target has the text. -/
theorem Stage.ended (h : Stage target B w) {r : Except IoError Unit} (hp : w.point = .ended r) :
    w.synced = true ∧ Follows target B w.machine ∧
      match r with
      | .error _ => w.machine.read target = B.read target ∧ Unchanged B w.machine
      | .ok () => w.machine.read target = .ok w.data := by
  cases h with
  | waiting hp' | writing hp' | syncing hp' | moving hp' | removing hp' =>
    rw [hp] at hp'
    cases hp'
  | failed hp' hs hl hu hr =>
    rw [hp] at hp'
    cases hp'
    exact ⟨hs, hl, hr, hu⟩
  | replaced hp' hs hl hr =>
    rw [hp] at hp'
    cases hp'
    exact ⟨hs, hl, hr⟩

theorem stage_writing {t : Path} {bytes rest : Bytes} (hp : w.point = .writing t rest)
    (hn : NewFile target B t bytes w.machine) (hf : w.file = B.tree.nodes.size) (hd : bytes ++ rest = w.data) :
    Stage target B w := by
  unfold Replace.writing at hp
  by_cases hr : rest = []
  · rw [if_pos hr] at hp
    obtain rfl : bytes = w.data := by rw [← hd, hr, List.append_nil]
    exact .syncing hp hn hf
  · rw [if_neg hr] at hp
    exact .writing hp hn hf hd

section
variable (hB : B.Proper)
include hB

theorem next_of_waiting (hp : w.point = .create) (hm : w.machine = B) (hs : w.synced = true)
    (h : step target w a = some w') : Stage target B w' := by
  have hfailed : ∀ e, Stage target B (w.answer (.failed e) w.machine) := by
    intro e
    subst hm
    exact .failed (answer_point hp ..) hs (.refl hB) (.refl _) rfl
  cases a with
  | create name =>
    simp only [step, hp] at h
    split at h
    · rename_i hunused
      split at h
      · rename_i t m hcreate
        cases h
        rw [hm] at hunused hcreate
        exact stage_writing (answer_point hp (.created t) m) (createTemp_eq_ok hunused hcreate) (by rw [hm]) rfl
      · cases h
        exact hfailed _
    · cases h
  | fail e =>
    simp only [step, hp] at h
    cases h
    exact hfailed e
  | setText | write | sync | rename | remove =>
    simp only [step, hp] at h
    cases h

section
variable {t : Path} {bytes : Bytes} (hn : NewFile target B t bytes w.machine) (hf : w.file = B.tree.nodes.size)
include hn hf

omit hB in
theorem next_of_failed {e : IoError} (hp : w.point.next w.data (.failed e) = .remove t e) :
    Stage target B (w.answer (.failed e) w.machine) :=
  .removing hp hn hf

theorem next_of_writing {rest : Bytes} (hp : w.point = .write t rest) (hd : bytes ++ rest = w.data)
    (h : step target w a = some w') : Stage target B w' := by
  cases a with
  | write count =>
    simp only [step, hp] at h
    split at h
    · cases h
    cases h
    obtain ⟨m, hwrite, hn'⟩ := hn.write hB (rest.take count)
    rw [perform_eq hwrite]
    refine stage_writing (answer_point hp (.wrote _) m) hn' hf ?_
    show bytes ++ rest.take count ++ rest.drop (rest.take count).length = w.data
    rw [List.append_assoc, List.length_take, List.take_eq_take_min, List.take_append_drop]
    exact hd
  | fail e =>
    simp only [step, hp] at h
    cases h
    exact next_of_failed hn hf (by rw [hp]; rfl)
  | setText | create | sync | rename | remove =>
    simp only [step, hp] at h
    cases h

omit hf in
theorem next_of_removing {e : IoError} (hp : w.point = .remove t e) (h : step target w a = some w') :
    Stage target B w' := by
  cases a with
  | remove =>
    simp only [step, hp] at h
    cases h
    obtain ⟨m, hremove, hl, hu, hread⟩ := hn.remove hB
    rw [perform_eq hremove]
    exact .failed (answer_point hp .done m) rfl hl hu hread
  | setText | create | write | sync | rename | fail =>
    simp only [step, hp] at h
    cases h

end

section
variable {t : Path} (hn : NewFile target B t w.data w.machine) (hf : w.file = B.tree.nodes.size)
include hn hf

omit hB in
theorem next_of_syncing (hp : w.point = .sync t) (h : step target w a = some w') : Stage target B w' := by
  cases a with
  | sync =>
    simp only [step, hp] at h
    cases h
    exact .moving (answer_point hp .done w.machine) hn hf rfl
  | fail e =>
    simp only [step, hp] at h
    cases h
    exact next_of_failed hn hf (by rw [hp]; rfl)
  | setText | create | write | rename | remove =>
    simp only [step, hp] at h
    cases h

theorem next_of_moving (hr : B.Readable target) (hp : w.point = .rename t) (hs : w.synced = true)
    (h : step target w a = some w') : Stage target B w' := by
  have hfailed : ∀ e, Stage target B (w.answer (.failed e) w.machine) :=
    fun e => next_of_failed hn hf (by rw [hp]; rfl)
  cases a with
  | rename =>
    simp only [step, hp] at h
    cases h
    rcases hn.rename hB hr with ⟨m, hrename, hl, hread⟩ | ⟨e, hrename⟩
    · rw [perform_eq hrename]
      exact .replaced (answer_point hp ..) hs hl hread
    · rw [perform_eq hrename]
      exact hfailed e
  | fail e =>
    simp only [step, hp] at h
    cases h
    exact hfailed e
  | setText | create | write | sync | remove =>
    simp only [step, hp] at h
    cases h

end

theorem Stage.next (hr : B.Readable target) (hs : Stage target B w) (ha : a.Within) (h : step target w a = some w') :
    Stage target B w' := by
  cases hs with
  | waiting hp hm hs => exact next_of_waiting hB hp hm hs h
  | writing hp hn hf hd => exact next_of_writing hB hn hf hp hd h
  | syncing hp hn hf => exact next_of_syncing hn hf hp h
  | moving hp hn hf hs => exact next_of_moving hB hn hf hr hp hs h
  | removing hp hn _ => exact next_of_removing hB hn hp h
  | failed hp _ _ _ _ | replaced hp _ _ _ =>
    rw [step_ended hp ha] at h
    cases h

/-- The target is what it was until the new file has been renamed. -/
theorem Stage.read (hs : Stage target B w) : w.machine.read target =
    match w.done? with
    | some data => .ok data
    | none => B.read target := by
  cases hs with
  | waiting hp hm _ => rw [done?, hp, hm]
  | writing hp hn | syncing hp hn | moving hp hn | removing hp hn => rw [done?, hp, hn.read hB]
  | failed hp _ _ _ hr => rw [done?, hp, hr]
  | replaced hp _ _ hr => rw [done?, hp, hr]

/-- What is lost when the machine stops is nothing of the target. -/
theorem Stage.read_of_survives (hs : Stage target B w) (h : w.Survives m') :
    m'.read target = w.machine.read target := by
  cases hs with
  | waiting _ _ hs | failed _ hs _ _ _ | replaced _ hs _ _ => rw [h.eq hs]
  | writing _ hn hf | syncing _ hn hf | moving _ hn hf | removing _ hn hf =>
    rcases h with rfl | ⟨-, bytes, rfl⟩
    · rfl
    · rw [hf, hn.read hB, (hn.setNode hB bytes).read hB]

end

/-! ## One write after the other -/

/-- What the target is to be after some steps: the text of the last write that ended without an error, or what it was
at first. -/
def shown (target : Path) (m : Machine) (past : List (Sink × Action)) : Except IoError Bytes :=
  match (past.filterMap fun e => (step target e.1 e.2).bind done?).getLast? with
  | some data => .ok data
  | none => m.read target

theorem shown_concat (past : List (Sink × Action)) (h : step target w a = some w') :
    shown target m (past ++ [(w, a)]) =
      match w'.done? with
      | some data => .ok data
      | none => shown target m past := by
  unfold shown
  cases hd : w'.done? with
  | none => simp [h, hd]
  | some data => simp [h, hd]

/-- The machine before a write. -/
structure Base (target : Path) (m B : Machine) : Prop where
  readable : B.Readable target
  follows : Follows target m B

/-- A write has begun, or none has since the last one ended. -/
structure Inv (target : Path) (m : Machine) (past : List (Sink × Action)) (w : Sink) : Prop where
  base : ∃ B, Base target m B ∧ (Stage target B w ∨ w.machine = B ∧ w.synced = true ∧ ∃ r, w.point = .ended r)
  read : w.machine.read target = shown target m past

section
variable {past : List (Sink × Action)}

theorem Inv.rest (h : Inv target m past w) {r : Except IoError Unit} (hp : w.point = .ended r) :
    Base target m w.machine ∧ w.synced = true := by
  obtain ⟨B, hB, hstage | ⟨rfl, hs, -⟩⟩ := h.base
  · obtain ⟨hs, hf, hread⟩ := hstage.ended hp
    refine ⟨⟨?_, hB.follows.trans hf⟩, hs⟩
    cases r with
    | error e => exact hB.readable.congr hread.1
    | ok u => exact Machine.readable_of_read hread
  · exact ⟨hB, hs⟩

theorem step_setText {data : Bytes} (h : step target w (.setText data) = some w') :
    (∃ r, w.point = .ended r) ∧ w' = { w with point := .create, data } := by
  cases hp : w.point with
  | ended r =>
    simp only [step, hp] at h
    exact ⟨⟨r, rfl⟩, (Option.some.inj h).symm⟩
  | create | write | sync | rename | remove =>
    simp only [step, hp] at h
    cases h

theorem Inv.begin (h : Inv target m past w) {data : Bytes} (hstep : step target w (.setText data) = some w') :
    Base target m w.machine ∧ Stage target w.machine w' := by
  obtain ⟨⟨r, hp⟩, rfl⟩ := step_setText hstep
  obtain ⟨hB, hs⟩ := h.rest hp
  exact ⟨hB, .waiting rfl rfl hs⟩

theorem Inv.stage (h : Inv target m past w) (hstep : step target w a = some w') :
    ∃ B, Base target m B ∧ Stage target B w' ∧ B.read target = shown target m past := by
  have hkind : a.Within ∨ ∃ data, a = .setText data := by
    cases a <;> simp [Action.Within]
  rcases hkind with ha | ⟨data, rfl⟩
  · obtain ⟨B, hB, hstage | ⟨-, -, r, hp⟩⟩ := h.base
    · refine ⟨B, hB, hstage.next hB.follows.proper hB.readable ha hstep, ?_⟩
      -- the write goes on, so it had not ended
      have hopen : w.done? = none := by
        cases hp : w.point with
        | ended r =>
          rw [step_ended hp ha] at hstep
          cases hstep
        | create | write | sync | rename | remove => rw [done?, hp]
      rw [← h.read, hstage.read hB.follows.proper, hopen]
    · rw [step_ended hp ha] at hstep
      cases hstep
  · obtain ⟨hB, hstage⟩ := h.begin hstep
    exact ⟨_, hB, hstage, h.read⟩

theorem Inv.next (h : Inv target m past w) (hstep : step target w a = some w') :
    Inv target m (past ++ [(w, a)]) w' := by
  obtain ⟨B, hB, hstage, hread⟩ := h.stage hstep
  refine ⟨⟨B, hB, Or.inl hstage⟩, ?_⟩
  rw [shown_concat past hstep, hstage.read hB.follows.proper, hread]

theorem inv_of_run (hm : m.Proper) (hr : m.Readable target) {acts : List Action}
    (h : Steps.run (step target) { machine := m } acts = some w) :
    Inv target m (Steps.history (step target) { machine := m } acts) w := by
  have hbase : Base target m m := ⟨hr, .refl hm⟩
  have hstart : Inv target m [] { machine := m } := ⟨⟨m, hbase, Or.inr ⟨rfl, rfl, _, rfl⟩⟩, rfl⟩
  exact Steps.run_induction (P := Inv target m) (fun h hstep => h.next hstep) hstart h

end

theorem step_data (ha : a.Within) (h : step target w a = some w') : w'.data = w.data := by
  unfold step at h
  split at h
  · exact absurd rfl (ha _)
  · split at h
    · split at h <;> cases h <;> rfl
    · cases h
  · split at h
    · cases h
    · cases h
      rfl
  all_goals cases h
  all_goals rfl

theorem stage_of_run (hB : B.Proper) (hr : B.Readable target) (hs : Stage target B w) {acts : List Action}
    (ha : ∀ a ∈ acts, a.Within) (h : Steps.run (step target) w acts = some w') :
    Stage target B w' ∧ w'.data = w.data := by
  induction acts generalizing w with
  | nil =>
    cases h
    exact ⟨hs, rfl⟩
  | cons a acts ih =>
    obtain ⟨u, hu, hrest⟩ := Steps.run_cons_eq_some.mp h
    have hwithin := ha a (List.mem_cons_self ..)
    obtain ⟨hstage, hdata⟩ := ih (hs.next hB hr hwithin hu) (fun b hb => ha b (List.mem_cons_of_mem _ hb)) hrest
    exact ⟨hstage, hdata.trans (step_data hwithin hu)⟩

/-- Texts are given one after the other, any calls fail on the way, and the names of new files are unused ones. At no
moment does the target show a part of a text; a write that fails leaves nothing, and all writes together leave no entry
but that of the target. -/
theorem target_replaced_as_a_whole (hm : m.Proper) (hr : m.Readable target) {acts : List Action}
    (hrun : Steps.run (step target) { machine := m } acts = some w) :
    (∀ before data after u, acts = before ++ .setText data :: after → (∀ a ∈ after, a.Within) →
      Steps.run (step target) { machine := m } before = some u →
        (∀ m', w.Survives m' → m'.read target = u.machine.read target ∨ m'.read target = .ok data) ∧
        (∀ e, w.point = .ended (.error e) →
          w.machine.read target = u.machine.read target ∧ Unchanged u.machine w.machine) ∧
        (w.point = .ended (.ok ()) → w.machine.read target = .ok data ∧ Spares target u.machine w.machine)) ∧
    (∀ m', w.Survives m' →
      m'.read target = shown target m (Steps.history (step target) { machine := m } acts)) ∧
    (∀ r, w.point = .ended r →
      w.machine.read target = shown target m (Steps.history (step target) { machine := m } acts) ∧
        Spares target m w.machine) := by
  have hinv := inv_of_run hm hr hrun
  refine ⟨?_, ?_, ?_⟩
  · rintro before data after u rfl hafter hu
    rw [Steps.run_append hu] at hrun
    obtain ⟨v, hbegin, hrest⟩ := Steps.run_cons_eq_some.mp hrun
    obtain ⟨hB, hstage⟩ := (inv_of_run hm hr hu).begin hbegin
    obtain ⟨hstage, hdata⟩ := stage_of_run hB.follows.proper hB.readable hstage hafter hrest
    obtain rfl : w.data = data := by rw [hdata, (step_setText hbegin).2]
    refine ⟨fun m' hm' => ?_, fun e he => (hstage.ended he).2.2, fun he => ?_⟩
    · rw [hstage.read_of_survives hB.follows.proper hm', hstage.read hB.follows.proper]
      cases hd : w.done? with
      | none => exact Or.inl rfl
      | some text => exact Or.inr (congrArg Except.ok (done?_eq_some hd).2)
    · obtain ⟨-, hl, hshown⟩ := hstage.ended he
      exact ⟨hshown, hl.spares⟩
  · intro m' hm'
    rw [← hinv.read]
    obtain ⟨B, hB, hstage | ⟨rfl, hs, -⟩⟩ := hinv.base
    · exact hstage.read_of_survives hB.follows.proper hm'
    · rw [hm'.eq hs]
  · intro r hp
    exact ⟨hinv.read, (hinv.rest hp).1.follows.spares⟩

/-- A file alone in the root directory. -/
def lone : Machine := { tree := ⟨#[.dir [(Bytes.ofString "out", 1)], .file (Bytes.ofString "old") 0o644]⟩ }

theorem lone_entry {d i : Ino} {es : List (Bytes × Ino)} {s : Bytes} (hd : lone.tree.node d = .dir es)
    (hl : es.lookup s = some i) : i = 1 := by
  match d with
  | 0 =>
    cases hd
    rw [lookup_cons_if] at hl
    split at hl <;> cases hl
    rfl
  | 1 => cases hd
  | d + 2 =>
    cases hd
    cases hl

theorem proper_lone : lone.Proper := by
  have hroot : ∀ {p : Place} {es}, lone.tree.Stands p → lone.tree.node p.ino = .dir es → p = [] := by
    intro p es hp hd
    cases p with
    | nil => rfl
    | cons e p =>
      obtain ⟨s, i⟩ := e
      obtain ⟨-, ds, hds, hl⟩ := hp
      obtain rfl := lone_entry hds hl
      cases hd
  refine ⟨⟨⟨by decide, fun hd hl => ?_⟩, nofun⟩, fun {p q es} hp hq hd hpq => ?_, trivial, ⟨_, rfl⟩⟩
  · rw [lone_entry hd hl]
    decide
  · rw [hroot hp hd, hroot hq (hpq ▸ hd)]

/-- The disk is full at first, and then it is not. -/
def fullAtFirst : List Action :=
  [.setText (Bytes.ofString "new"), .create ".tmpAb3x9Z", .write 2, .fail (.os .ENOSPC), .remove,
    .setText (Bytes.ofString "next"), .create ".tmpQ7m2Lk", .write 3, .write 1, .sync, .rename]

theorem target_replaced_when_full_at_first : ∃ w,
    Steps.run (step (.ofString "out")) { machine := lone } fullAtFirst = some w ∧
      (∀ m', w.Survives m' → m'.read (.ofString "out") = .ok (Bytes.ofString "next")) ∧
      Spares (.ofString "out") lone w.machine := by
  have hread : lone.read (.ofString "out") = .ok (Bytes.ofString "old") := by decide +kernel
  have hdone : (Steps.run (step (.ofString "out")) { machine := lone } fullAtFirst).bind done? =
      some (Bytes.ofString "next") := by decide +kernel
  obtain ⟨w, hrun, hend⟩ := Option.bind_eq_some_iff.mp hdone
  obtain ⟨-, hsurvives, hspares⟩ := target_replaced_as_a_whole proper_lone (Machine.readable_of_read hread) hrun
  refine ⟨w, hrun, fun m' hm' => ?_, (hspares _ (done?_eq_some hend).1).2⟩
  rw [hsurvives m' hm']
  decide +kernel

end Sink

end Retrace.Output
