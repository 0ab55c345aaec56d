import Mathlib.Data.List.Destutter
import Retrace.Proofs.Machine.Job
import Retrace.Proofs.Steps
import Retrace.Watch.World

/-!
# The text that the watch loop knows

Whenever the watched file has a text that the loop has not read, the loop is about to read the file, or an event that
makes it read the file is on the way. When nothing is left to happen, the last text is therefore that of the file.
-/

namespace Retrace

section
variable {α : Type} [DecidableEq α] {a b t : α} {l : List α}

theorem destutter'_concat (h : (l.destutter' (· ≠ ·) a).getLast? = some b) :
    (l ++ [t]).destutter' (· ≠ ·) a =
      if t = b then l.destutter' (· ≠ ·) a else l.destutter' (· ≠ ·) a ++ [t] := by
  induction l generalizing a with
  | nil =>
    obtain rfl : a = b := by simpa using h
    by_cases ht : t = a
    · simp [ht]
    · simp [ht, Ne.symm ht]
  | cons c l ih =>
    rw [List.cons_append]
    by_cases hc : a = c
    · subst hc
      rw [List.destutter'_cons_neg _ (by simp)] at h ⊢
      rw [List.destutter'_cons_neg _ (by simp)]
      exact ih h
    · rw [List.destutter'_cons_pos _ hc] at h ⊢
      rw [List.destutter'_cons_pos _ hc]
      have hne := List.destutter'_ne_nil (R := (· ≠ ·)) l (a := c)
      rw [List.getLast?_cons_of_ne_nil hne] at h
      rw [ih h]
      split <;> rfl

/-- A further text counts when it differs from the last one that counted. -/
theorem destutter_concat (h : (l.destutter (· ≠ ·)).getLast? = some b) :
    (l ++ [t]).destutter (· ≠ ·) = if t = b then l.destutter (· ≠ ·) else l.destutter (· ≠ ·) ++ [t] := by
  cases l with
  | nil => cases h
  | cons a l => exact destutter'_concat h

end

namespace Watch

/-! ## What each step does -/

namespace Loop

variable {l l' : Loop}

theorem receive_some (h : l.receive = some l') : l'.last = l.last ∧ l'.passed = l.passed ∧
    ∃ k, l.queue = k :: l'.queue ∧
      (l'.phase = .settling ∨ k = .delete ∧ l.phase = .waiting ∧ l'.phase = .waiting) := by
  unfold receive at h
  split at h
  · rename_i k rest hp hq
    cases h
    refine ⟨rfl, rfl, k, hq, ?_⟩
    by_cases hk : k = .delete <;> simp [hk, hp]
  · rename_i k rest hp hq
    cases h
    exact ⟨rfl, rfl, k, hq, Or.inl hp⟩
  · cases h

theorem quieten_some (h : l.quieten = some l') : l.phase = .settling ∧ l' = { l with phase := .reading } := by
  unfold quieten at h
  split at h
  · rename_i hp _
    exact ⟨hp, (Option.some.inj h).symm⟩
  · cases h

theorem look_some {content : Option String} (h : l.look content = some l') :
    l.phase = .reading ∧ l'.phase = .waiting ∧ l'.queue = l.queue ∧
      (content = none ∧ l'.last = l.last ∧ l'.passed = l.passed ∨
        ∃ text, content = some text ∧ l'.last = text ∧
          l'.passed = if text = l.last then l.passed else text :: l.passed) := by
  unfold look at h
  split at h
  · rename_i hp
    split at h
    · rename_i text
      split at h
      · rename_i ht
        cases h
        exact ⟨hp, rfl, rfl, Or.inr ⟨text, rfl, ht.symm, (if_pos ht).symm⟩⟩
      · rename_i ht
        cases h
        exact ⟨hp, rfl, rfl, Or.inr ⟨text, rfl, rfl, (if_neg ht).symm⟩⟩
    · cases h
      exact ⟨hp, rfl, rfl, Or.inl ⟨rfl, rfl, rfl⟩⟩
  · cases h

/-- How much the loop has left to do. What it receives may give it two more steps to make. -/
def load (l : Loop) : Nat := 3 * l.queue.length + (match l.phase with
  | .waiting => 0
  | .reading => 1
  | .settling => 2)

theorem load_deliver (l : Loop) (k : ChangeKind) : (l.deliver k).load = l.load + 3 := by
  simp only [load, deliver, List.length_append, List.length_singleton]
  omega

/-- The loop has a step to make, unless it waits for something to receive. -/
theorem step_or_wait (l : Loop) (content : Option String) : l.phase = .waiting ∧ l.queue = [] ∨
    ∃ l', (l.receive = some l' ∨ l.quieten = some l' ∨ l.look content = some l') ∧ l'.load < l.load := by
  cases hp : l.phase with
  | waiting =>
    cases hq : l.queue with
    | nil => exact Or.inl ⟨rfl, rfl⟩
    | cons k rest =>
      refine Or.inr ⟨_, Or.inl (by rw [receive, hp, hq]), ?_⟩
      by_cases hk : k = .delete
      · simp [load, hp, hq, hk]
      · simp [load, hp, hq, hk]
        omega
  | settling =>
    cases hq : l.queue with
    | nil =>
      refine Or.inr ⟨_, Or.inr (Or.inl (by rw [quieten, hp, hq])), ?_⟩
      simp [load, hp, hq]
    | cons k rest =>
      refine Or.inr ⟨_, Or.inl (by rw [receive, hp, hq]), ?_⟩
      simp [load, hp, hq]
  | reading =>
    obtain ⟨l', hl⟩ : ∃ l', l.look content = some l' := by
      unfold look
      rw [hp]
      cases content with
      | none => exact ⟨_, rfl⟩
      | some text => by_cases ht : text = l.last <;> simp [ht]
    obtain ⟨-, hp', hq, -⟩ := look_some hl
    refine Or.inr ⟨l', Or.inr (Or.inr hl), ?_⟩
    simp [load, hp, hp', hq]

end Loop

namespace World

variable {source : Path} {w w' : World} {file : WatchedFile} {loop : Loop} {past : List (World × Action)}

/-- The changes that are still to be reported. -/
def unreported (w : World) : List Change := w.machine.changes.reverse.drop w.reported

theorem unreported_of_next {c : Change} (h : w.next? = some c) :
    w.reported < w.machine.changes.length ∧
      w.unreported = c :: w.machine.changes.reverse.drop (w.reported + 1) := by
  obtain ⟨hlt, hc⟩ := List.getElem?_eq_some_iff.mp h
  refine ⟨by simpa using hlt, ?_⟩
  rw [unreported, List.drop_eq_getElem_cons hlt, hc]

/-- What another program does comes after what was to be reported before. -/
theorem unreported_disturbed {m : Machine} (hr : w.reported ≤ w.machine.changes.length)
    (h : w.machine.changes <:+ m.changes) : ({ w with machine := m } : World).unreported =
      w.unreported ++ (m.changes.take (m.changes.length - w.machine.changes.length)).reverse := by
  obtain ⟨fresh, hm⟩ := h
  unfold unreported
  rw [← hm, List.length_append, Nat.add_sub_cancel, List.take_left, List.reverse_append,
    List.drop_append_of_le_length (by simpa using hr)]

theorem turn_some {f : Loop → Option Loop} (h : w.turn f = some w') : ∃ file loop loop',
    w.stage = .looping file loop ∧ f loop = some loop' ∧ w' = { w with stage := .looping file loop' } := by
  unfold turn at h
  split at h
  · rename_i file loop hs
    obtain ⟨loop', hf, rfl⟩ := Option.map_eq_some_iff.mp h
    exact ⟨file, loop, loop', hs, hf, rfl⟩
  · cases h

/-! ## News of the file -/

/-- The loop is going to read the file: it is about to, or an event that makes it read is there or on the way. -/
def WillRead (w : World) (file : WatchedFile) (loop : Loop) : Prop :=
  loop.phase ≠ .waiting ∨ (∃ k ∈ loop.queue, k ≠ .delete) ∨
    ∃ c ∈ w.unreported, file.concerns c = true ∧ c.kind ≠ .delete

/-- The text of the file is the last one that the loop has read, or the loop is going to read it. -/
def Fresh (source : Path) (w : World) (file : WatchedFile) (loop : Loop) : Prop :=
  ∀ text, w.machine.readText source = .ok text → loop.last = text ∨ w.WillRead file loop

theorem Fresh.disturb {m : Machine} (h : w.Fresh source file loop) (hs : w.stage = .looping file loop)
    (hr : w.reported ≤ w.machine.changes.length) (hm : w.Told source m) :
    ({ w with machine := m } : World).Fresh source file loop := by
  intro text ht
  unfold WillRead
  rw [unreported_disturbed hr hm.1]
  have htold := hm.2 file (by rw [hs]; rfl) text (by rw [ht]; rfl)
  rcases htold with hsame | ⟨c, hc, hcon, hk⟩
  · have ht' : w.machine.readText source = .ok text := by
      cases hread : w.machine.readText source with
      | error e => rw [hread] at hsame; cases hsame
      | ok s => rw [hread] at hsame; cases hsame; rfl
    rcases h text ht' with hl | hp | hq | ⟨c, hc, hcon⟩
    · exact Or.inl hl
    · exact Or.inr (Or.inl hp)
    · exact Or.inr (Or.inr (Or.inl hq))
    · exact Or.inr (Or.inr (Or.inr ⟨c, List.mem_append_left _ hc, hcon⟩))
  · exact Or.inr (Or.inr (Or.inr ⟨c, List.mem_append_right _ (List.mem_reverse.mpr hc), hcon, hk⟩))

theorem Fresh.report {c : Change} (h : w.Fresh source file loop) (hc : w.next? = some c) (s : Stage) :
    ({ w with stage := s, reported := w.reported + 1 } : World).Fresh source file
      (if file.concerns c then loop.deliver c.kind else loop) := by
  have hun := (unreported_of_next hc).2
  intro text ht
  rcases h text ht with hl | hp | ⟨k, hk, hne⟩ | ⟨d, hd, hcon, hne⟩
  · left
    split <;> exact hl
  · right; left
    split <;> exact hp
  · right; right; left
    split
    · exact ⟨k, List.mem_append_left _ hk, hne⟩
    · exact ⟨k, hk, hne⟩
  · right; right
    rw [hun] at hd
    rcases List.mem_cons.mp hd with rfl | hd
    · left
      rw [if_pos hcon]
      exact ⟨d.kind, by simp [Loop.deliver], hne⟩
    · exact Or.inr ⟨d, hd, hcon, hne⟩

theorem Fresh.receive {l : Loop} (h : w.Fresh source file loop) (hl : loop.receive = some l) (s : Stage) :
    ({ w with stage := s } : World).Fresh source file l := by
  obtain ⟨hlast, -, k, hq, hp⟩ := Loop.receive_some hl
  intro text ht
  rcases hp with hp | ⟨rfl, hp, -⟩
  · exact Or.inr (Or.inl (by rw [hp]; simp))
  rcases h text ht with hl' | hp' | ⟨k, hk, hne⟩ | hun
  · exact Or.inl (hlast.trans hl')
  · exact absurd hp hp'
  · rw [hq] at hk
    rcases List.mem_cons.mp hk with rfl | hk
    · exact absurd rfl hne
    · exact Or.inr (Or.inr (Or.inl ⟨k, hk, hne⟩))
  · exact Or.inr (Or.inr (Or.inr hun))

/-! ## What has been read -/

/-- The text that a step reads from the file. -/
def textRead? (source : Path) : World × Action → Option String
  | (w, .readFirst) | (w, .look) => (w.machine.readText source).toOption
  | _ => none

/-- The texts that the steps of a run read from the file, in order. -/
def textsRead (source : Path) (past : List (World × Action)) : List String := past.filterMap (textRead? source)

theorem textsRead_concat (source : Path) (past : List (World × Action)) (w : World) (a : Action) :
    textsRead source (past ++ [(w, a)]) = textsRead source past ++ (textRead? source (w, a)).toList := by
  simp only [textsRead, List.filterMap_append]
  cases h : textRead? source (w, a) <;> simp [h]

/-- The loop has passed on each text that differs from the one read before it, and keeps the last one. -/
structure PassedOn (texts : List String) (loop : Loop) : Prop where
  passed : ∃ first later, texts = first :: later ∧ texts.destutter (· ≠ ·) = first :: loop.passed.reverse
  last : (texts.destutter (· ≠ ·)).getLast? = some loop.last

theorem PassedOn.same {texts : List String} {l l' : Loop} (h : PassedOn texts l) (hlast : l'.last = l.last)
    (hpassed : l'.passed = l.passed) : PassedOn texts l' :=
  ⟨by rw [hpassed]; exact h.passed, by rw [hlast]; exact h.last⟩

theorem PassedOn.look {texts : List String} {l l' : Loop} {content : Option String} (h : PassedOn texts l)
    (hl : l.look content = some l') : PassedOn (texts ++ content.toList) l' := by
  obtain ⟨-, -, -, ⟨rfl, hlast, hpassed⟩ | ⟨text, rfl, hlast, hpassed⟩⟩ := Loop.look_some hl
  · simpa using h.same hlast hpassed
  obtain ⟨first, later, htexts, hp⟩ := h.passed
  have hd := destutter_concat (t := text) h.last
  by_cases hsame : text = l.last
  · rw [if_pos hsame] at hd hpassed
    refine ⟨⟨first, later ++ [text], by simp [htexts], ?_⟩, ?_⟩
    · rw [Option.toList_some, hd, hp, hpassed]
    · rw [Option.toList_some, hd, h.last, hlast, hsame]
  · rw [if_neg hsame] at hd hpassed
    refine ⟨⟨first, later ++ [text], by simp [htexts], ?_⟩, ?_⟩
    · rw [Option.toList_some, hd, hp, hpassed, List.reverse_cons, List.cons_append]
    · rw [Option.toList_some, hd, hlast, List.getLast?_concat]

/-! ## Runs -/

/-- What holds of a world and the steps that have led to it. -/
structure Known (source : Path) (past : List (World × Action)) (w : World) : Prop where
  reported : w.reported ≤ w.machine.changes.length
  unread : (∀ file loop, w.stage ≠ .looping file loop) → textsRead source past = []
  passedOn : ∀ {file loop}, w.stage = .looping file loop → PassedOn (textsRead source past) loop
  fresh : ∀ {file loop}, w.stage = .looping file loop → w.Fresh source file loop

namespace Known

theorem start (source : Path) (m : Machine) : Known source [] { machine := m } :=
  ⟨Nat.zero_le _, fun _ => rfl, nofun, nofun⟩

/-- The loop goes on without reading. -/
theorem turn (h : Known source past w) {a : Action} {loop' : Loop} (hs : w.stage = .looping file loop)
    (ha : textRead? source (w, a) = none) (hlast : loop'.last = loop.last) (hpassed : loop'.passed = loop.passed)
    (hfresh : ({ w with stage := .looping file loop' } : World).Fresh source file loop') :
    Known source (past ++ [(w, a)]) { w with stage := .looping file loop' } := by
  refine ⟨h.reported, fun hno => absurd rfl (hno file loop'), ?_, ?_⟩
  · rintro _ _ ⟨⟩
    rw [textsRead_concat, ha]
    simpa using (h.passedOn hs).same hlast hpassed
  · rintro _ _ ⟨⟩
    exact hfresh

theorem disturb (h : Known source past w) {m : Machine} (hm : w.Told source m) :
    Known source (past ++ [(w, .disturb m)]) { w with machine := m } := by
  have hread : textsRead source (past ++ [(w, .disturb m)]) = textsRead source past := by
    rw [textsRead_concat]
    simp [textRead?]
  refine ⟨Nat.le_trans h.reported hm.1.length_le, ?_, ?_, fun hs => (h.fresh hs).disturb hs h.reported hm⟩
  · rw [hread]
    exact h.unread
  · rw [hread]
    exact h.passedOn

theorem report (h : Known source past w) {c : Change} (hc : w.next? = some c) :
    Known source (past ++ [(w, .report)]) { w with stage := w.stage.report c, reported := w.reported + 1 } := by
  have hlt := (unreported_of_next hc).1
  have hread : textsRead source (past ++ [(w, .report)]) = textsRead source past := by
    rw [textsRead_concat]
    simp [textRead?]
  cases hs : w.stage with
  | looping file loop =>
    refine ⟨hlt, fun hno => absurd rfl (hno file _), ?_, ?_⟩
    · rintro _ _ ⟨⟩
      rw [hread]
      apply (h.passedOn hs).same <;> split <;> rfl
    · rintro _ _ ⟨⟩
      exact (h.fresh hs).report hc _
  | starting | watched | failed =>
    refine ⟨hlt, fun _ => ?_, nofun, nofun⟩
    rw [hread]
    exact h.unread (by simp [hs])

theorem readFirst (h : Known source past w) {queue : List ChangeKind} (hs : w.stage = .watched file queue)
    {text : String} (ht : w.machine.readText source = .ok text) :
    Known source (past ++ [(w, .readFirst)]) { w with stage := .looping file { queue, last := text } } := by
  have hread : textsRead source (past ++ [(w, .readFirst)]) = [text] := by
    rw [textsRead_concat, h.unread (by simp [hs])]
    simp [textRead?, ht, Except.toOption]
  refine ⟨h.reported, fun hno => absurd rfl (hno file _), ?_, ?_⟩
  · rintro _ _ ⟨⟩
    rw [hread]
    exact ⟨⟨text, [], rfl, rfl⟩, rfl⟩
  · rintro _ _ ⟨⟩ s hr
    exact Or.inl (Except.ok.inj (ht.symm.trans hr))

theorem next (h : Known source past w) {a : Action} (hs : step source w a = some w') :
    Known source (past ++ [(w, a)]) w' := by
  cases a with
  | disturb m =>
    simp only [step] at hs
    split at hs
    · rename_i hm
      cases hs
      exact h.disturb hm
    · cases hs
  | report =>
    obtain ⟨c, hc, rfl⟩ := Option.map_eq_some_iff.mp hs
    exact h.report hc
  | watch =>
    simp only [step] at hs
    split at hs
    · rename_i hstart
      have hread : textsRead source (past ++ [(w, .watch)]) = [] := by
        rw [textsRead_concat, h.unread (by simp [hstart])]
        simp [textRead?]
      split at hs <;> cases hs
      · exact ⟨Nat.le_refl _, fun _ => hread, nofun, nofun⟩
      · exact ⟨h.reported, fun _ => hread, nofun, nofun⟩
    · cases hs
  | readFirst =>
    simp only [step] at hs
    split at hs
    · rename_i file queue hwatched
      rw [Source.readText, Job.perform_read] at hs
      cases hr : w.machine.readText source with
      | ok text =>
        rw [hr] at hs
        cases hs
        exact h.readFirst hwatched hr
      | error e =>
        rw [hr] at hs
        cases hs
        refine ⟨h.reported, fun _ => ?_, nofun, nofun⟩
        rw [textsRead_concat, h.unread (by simp [hwatched])]
        simp [textRead?, hr, Except.toOption]
    · cases hs
  | receive =>
    obtain ⟨file, loop, loop', hl, hf, rfl⟩ := turn_some hs
    obtain ⟨hlast, hpassed, -⟩ := Loop.receive_some hf
    exact h.turn hl rfl hlast hpassed ((h.fresh hl).receive hf _)
  | quieten =>
    obtain ⟨file, loop, loop', hl, hf, rfl⟩ := turn_some hs
    obtain ⟨-, rfl⟩ := Loop.quieten_some hf
    exact h.turn hl rfl rfl rfl fun _ _ => Or.inr (Or.inl nofun)
  | look =>
    obtain ⟨file, loop, loop', hl, hf, rfl⟩ := turn_some hs
    refine ⟨h.reported, fun hno => absurd rfl (hno file loop'), ?_, ?_⟩
    · rintro _ _ ⟨⟩
      rw [textsRead_concat]
      exact (h.passedOn hl).look hf
    · rintro _ _ ⟨⟩ text ht
      obtain ⟨-, -, -, ⟨hnone, -⟩ | ⟨s, hread, hlast, -⟩⟩ := Loop.look_some hf
      · rw [show w.machine.readText source = .ok text from ht] at hnone
        cases hnone
      · rw [show w.machine.readText source = .ok text from ht] at hread
        exact Or.inl (hlast.trans (Option.some.inj hread).symm)

theorem of_run {acts : List Action} {m : Machine} (h : Steps.run (step source) { machine := m } acts = some w) :
    Known source (Steps.history (step source) { machine := m } acts) w :=
  Steps.run_induction (P := Known source) (fun hk hs => hk.next hs) (start source m) h

end Known

/-! ## Coming to rest -/

/-- The loop waits, and nothing is left that it could receive. -/
structure AtRest (w : World) (loop : Loop) : Prop where
  waiting : loop.phase = .waiting
  empty : loop.queue = []
  reported : w.reported = w.machine.changes.length

theorem Fresh.at_rest (h : w.Fresh source file loop) (hrest : w.AtRest loop) {text : String}
    (ht : w.machine.readText source = .ok text) : loop.last = text := by
  rcases h text ht with hl | hp | ⟨k, hk, -⟩ | ⟨c, hc, -⟩
  · exact hl
  · exact absurd hrest.waiting hp
  · rw [hrest.empty] at hk
    cases hk
  · rw [unreported, hrest.reported, List.drop_eq_nil_of_le (by simp)] at hc
    cases hc

/-- How much is left to do before the loop is at rest: a change that is reported may have to be received. -/
def load (w : World) (loop : Loop) : Nat := 4 * w.unreported.length + loop.load

/-- The watch has a step to make until the loop is at rest, and no other program has to do anything for it. -/
theorem step_or_rest (source : Path) (hs : w.stage = .looping file loop)
    (hr : w.reported ≤ w.machine.changes.length) :
    w.AtRest loop ∨ ∃ a w' loop', a.isOwn = true ∧ step source w a = some w' ∧ w'.machine = w.machine ∧
      w'.reported ≤ w.machine.changes.length ∧ w'.stage = .looping file loop' ∧ w'.load loop' < w.load loop := by
  by_cases hlt : w.reported < w.machine.changes.length
  · right
    have hlt' : w.reported < w.machine.changes.reverse.length := by simpa using hlt
    have hc : w.next? = some w.machine.changes.reverse[w.reported] := List.getElem?_eq_getElem hlt'
    generalize w.machine.changes.reverse[w.reported] = c at hc
    refine ⟨.report, { w with stage := w.stage.report c, reported := w.reported + 1 },
      if file.concerns c then loop.deliver c.kind else loop, rfl, ?_, rfl, hlt, ?_, ?_⟩
    · rw [step, hc, Option.map_some]
    · rw [hs]
      rfl
    · have hun := (unreported_of_next hc).2
      unfold load
      rw [hun, List.length_cons]
      have := Loop.load_deliver loop c.kind
      unfold unreported
      split <;> dsimp only <;> omega
  have hall : w.reported = w.machine.changes.length := Nat.le_antisymm hr (Nat.not_lt.mp hlt)
  have hturn (f : Loop → Option Loop) {loop' : Loop} (hf : f loop = some loop') :
      w.turn f = some { w with stage := .looping file loop' } := by
    simp [World.turn, hs, hf]
  have hload {loop' : Loop} (hlt : loop'.load < loop.load) :
      ({ w with stage := .looping file loop' } : World).load loop' < w.load loop :=
    Nat.add_lt_add_left hlt _
  rcases Loop.step_or_wait loop (w.machine.readText source).toOption with ⟨hp, hq⟩ | ⟨loop', hl, hlt⟩
  · exact Or.inl ⟨hp, hq, hall⟩
  right
  rcases hl with hl | hl | hl
  · exact ⟨.receive, _, loop', rfl, hturn _ hl, rfl, hr, rfl, hload hlt⟩
  · exact ⟨.quieten, _, loop', rfl, hturn _ hl, rfl, hr, rfl, hload hlt⟩
  · exact ⟨.look, _, loop', rfl, hturn (·.look _) hl, rfl, hr, rfl, hload hlt⟩

theorem comes_to_rest (n : Nat) : ∀ {w : World} {loop : Loop}, w.load loop ≤ n → w.stage = .looping file loop →
    w.reported ≤ w.machine.changes.length → ∃ acts w' loop', (∀ a ∈ acts, a.isOwn = true) ∧
      Steps.run (step source) w acts = some w' ∧ w'.machine = w.machine ∧ w'.stage = .looping file loop' ∧
      w'.AtRest loop' := by
  induction n with
  | zero =>
    intro w loop hn hs hr
    rcases step_or_rest source hs hr with hrest | ⟨_, _, _, -, -, -, -, -, hlt⟩
    · exact ⟨[], w, loop, nofun, rfl, rfl, hs, hrest⟩
    · omega
  | succ n ih =>
    intro w loop hn hs hr
    rcases step_or_rest source hs hr with hrest | ⟨a, w₁, loop₁, hown, hstep, hm, hr₁, hs₁, hlt⟩
    · exact ⟨[], w, loop, nofun, rfl, rfl, hs, hrest⟩
    obtain ⟨acts, w', loop', hall, hrun, hm', hs', hrest⟩ := ih (by omega) hs₁ (by rw [hm]; exact hr₁)
    refine ⟨a :: acts, w', loop', ?_, Steps.run_cons_eq_some.mpr ⟨w₁, hstep, hrun⟩, hm'.trans hm, hs', hrest⟩
    exact List.forall_mem_cons.mpr ⟨hown, hall⟩

/-- The texts passed on are those read that differ from the one read before, from the first text on. At rest the last
one is the text of the file, and without further changes the loop comes to rest. -/
theorem no_edit_is_lost {m : Machine} {acts : List Action}
    (h : Steps.run (step source) { machine := m } acts = some w) (hs : w.stage = .looping file loop) :
    (∃ first later, textsRead source (Steps.history (step source) { machine := m } acts) = first :: later ∧
      (first :: later).destutter (· ≠ ·) = first :: loop.passed.reverse) ∧
    (w.AtRest loop → ∀ text, w.machine.readText source = .ok text → loop.last = text) ∧
    ∃ acts' w' loop', (∀ a ∈ acts', a.isOwn = true) ∧ Steps.run (step source) w acts' = some w' ∧
      w'.machine = w.machine ∧ w'.stage = .looping file loop' ∧ w'.AtRest loop' ∧
      ∀ text, w.machine.readText source = .ok text → loop'.last = text := by
  have hk := Known.of_run h
  obtain ⟨first, later, htexts, hpassed⟩ := (hk.passedOn hs).passed
  refine ⟨⟨first, later, htexts, by rw [← htexts]; exact hpassed⟩, fun hrest _ ht => (hk.fresh hs).at_rest hrest ht, ?_⟩
  obtain ⟨acts', w', loop', hown, hrun, hm, hs', hrest⟩ := comes_to_rest _ (Nat.le_refl _) hs hk.reported
  have hk' := Steps.run_induction (P := Known source) (fun hk hs => hk.next hs) hk hrun
  refine ⟨acts', w', loop', hown, hrun, hm, hs', hrest, fun text ht => ?_⟩
  exact (hk'.fresh hs').at_rest hrest (by rw [hm]; exact ht)

/-! ## An edited file -/

def mainFile : Path := .ofString "/main.py"

def draftFile : Path := .ofString "/draft.py"

/-- A file is saved anew, deleted, and then replaced by a draft. -/
def edits : List (Machine → Except IoError Machine) :=
  [(·.write mainFile (.ofString "x = 1")), (·.write mainFile []), (·.write mainFile (.ofString "x = 2")),
    (·.removeFile mainFile), (·.write draftFile (.ofString "x = 3")), (·.rename draftFile mainFile)]

/-- The machine after so many edits. -/
def edited (count : Nat) : Machine := (edits.take count).foldl (fun m edit => (edit m).toOption.getD m) {}

/-- The file is read between the edits and after them; the loop does not read it when it hears of the deletion. -/
def watching : List Action :=
  [.watch, .readFirst, .disturb (edited 2), .report, .receive, .disturb (edited 3), .report, .receive, .quieten, .look,
    .disturb (edited 4), .report, .receive, .disturb (edited 5), .report, .report, .disturb (edited 6), .report,
    .report, .receive, .quieten, .look]

theorem no_edit_is_lost_when_replaced : ∃ w file loop,
    Steps.run (step mainFile) { machine := edited 1 } watching = some w ∧ w.stage = .looping file loop ∧
      w.AtRest loop ∧ loop.passed = ["x = 3", "x = 2"] ∧ loop.last = "x = 3" ∧
      ∃ first later, textsRead mainFile (Steps.history (step mainFile) { machine := edited 1 } watching) =
        first :: later ∧ (first :: later).destutter (· ≠ ·) = [first, "x = 2", "x = 3"] := by
  have hstage : (Steps.run (step mainFile) { machine := edited 1 } watching).map World.stage =
      some (.looping ⟨mainFile, 0, .ofString "main.py", none⟩
        { last := "x = 3", passed := ["x = 3", "x = 2"] }) := by
    decide +kernel
  have hread : (Steps.run (step mainFile) { machine := edited 1 } watching).map
      (fun w => (w.machine.readText mainFile, w.reported == w.machine.changes.length)) = some (.ok "x = 3", true) := by
    decide +kernel
  obtain ⟨w, hw, hs⟩ := Option.map_eq_some_iff.mp hstage
  rw [hw] at hread
  have hread := Option.some.inj hread
  have hrest : w.AtRest { last := "x = 3", passed := ["x = 3", "x = 2"] } :=
    ⟨rfl, rfl, eq_of_beq (congrArg Prod.snd hread)⟩
  obtain ⟨⟨first, later, htexts, hpassed⟩, hlast, -⟩ := no_edit_is_lost hw hs
  exact ⟨w, _, _, hw, hs, hrest, rfl, hlast hrest _ (congrArg Prod.fst hread), first, later, htexts, hpassed⟩

end World

end Watch

end Retrace
