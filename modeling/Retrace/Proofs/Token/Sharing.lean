import Mathlib.Logic.Function.Iterate
import Retrace.Proofs.Live.Tokens
import Retrace.Proofs.Steps
import Retrace.Proofs.Tables
import Retrace.Token.Holders

/-!
# What clones share

A handle and its clones are a family: they go back to the same creation. What is done through one handle of a family
is seen through all of them and through no other, whether the family shares a flag, as that of a token does, or a
count, as that of a clock does.
-/

namespace Retrace

namespace Sharing

/-! ## Families of handles -/

/-- What is done with the handles of some shared cells. -/
inductive Act where
  /-- A new cell with its first handle. -/
  | make
  /-- One more handle of the cell of another. -/
  | clone (i : Nat)
  /-- The cell of a handle changes. -/
  | use (i : Nat)
  deriving DecidableEq, Repr

/-- The handles that the handles go back to, after one more act: a clone goes back to where its original does. -/
def extend (o : Array Nat) : Act → Array Nat
  | .make => o.push o.size
  | .clone i => o.push (o.getD i 0)
  | .use _ => o

/-- For each handle the first one of its family. -/
def origins (acts : List Act) : Array Nat := acts.foldl extend #[]

/-- Two handles are of one family. -/
def Kin (acts : List Act) (i j : Nat) : Prop := (origins acts)[i]? = (origins acts)[j]?

instance (acts : List Act) (i j : Nat) : Decidable (Kin acts i j) := inferInstanceAs (Decidable (_ = _))

/-- An act is a use of a handle of the family of `i`. -/
def isUse (acts : List Act) (i : Nat) : Act → Bool
  | .use j => Kin acts j i
  | _ => false

/-- How often the handles of a family were used. -/
def uses (acts : List Act) (i : Nat) : Nat := acts.countP (isUse acts i)

theorem origins_concat (acts : List Act) (a : Act) : origins (acts ++ [a]) = extend (origins acts) a :=
  List.foldl_append

theorem getElem?_extend {o : Array Nat} {i : Nat} (hi : i < o.size) (a : Act) : (extend o a)[i]? = o[i]? := by
  cases a with
  | make | clone => exact (getElem?_push_of_some (Array.getElem?_eq_getElem hi) _).trans (Array.getElem?_eq_getElem hi).symm
  | use => rfl

theorem kin_concat {acts : List Act} {i j : Nat} (hi : i < (origins acts).size) (hj : j < (origins acts).size)
    (a : Act) : Kin (acts ++ [a]) i j ↔ Kin acts i j := by
  rw [Kin, origins_concat, getElem?_extend hi, getElem?_extend hj, Kin]

theorem uses_of_kin {acts : List Act} {i j : Nat} (h : Kin acts i j) : uses acts i = uses acts j := by
  have hsame : isUse acts i = isUse acts j := by
    funext a
    cases a with
    | make | clone => rfl
    | use k => exact decide_eq_decide.mpr ⟨fun hk => hk.trans h, fun hk => hk.trans h.symm⟩
  rw [uses, uses, hsame]

theorem uses_pos_iff {acts : List Act} {i : Nat} : 0 < uses acts i ↔ ∃ j, .use j ∈ acts ∧ Kin acts j i := by
  rw [uses, List.countP_pos_iff]
  constructor
  · rintro ⟨a, ha, hu⟩
    cases a with
    | make | clone => cases hu
    | use j => exact ⟨j, ha, of_decide_eq_true hu⟩
  · rintro ⟨j, hj, hk⟩
    exact ⟨.use j, hj, decide_eq_true hk⟩

/-! ## Cells that families share -/

/-- The handles with these numbers of cells stand for cells that begin as `init` and become `next` with every use. -/
structure Cells {β : Type} (init : β) (next : β → β) (acts : List Act) (ids : Array Nat) (cells : Array β) : Prop where
  size : (origins acts).size = ids.size
  below : ∀ {i n : Nat}, ids[i]? = some n → n < cells.size
  origin : ∀ {i r : Nat}, (origins acts)[i]? = some r → r < ids.size
  same : ∀ {i j m n : Nat}, ids[i]? = some m → ids[j]? = some n → (m = n ↔ Kin acts i j)
  used : ∀ {i : Nat}, .use i ∈ acts → i < ids.size
  value : ∀ {i n : Nat}, ids[i]? = some n → cells[n]? = some (next^[uses acts i] init)

namespace Cells

variable {β : Type} {init : β} {next : β → β} {acts : List Act} {ids : Array Nat} {cells : Array β} {i j n : Nat}

theorem empty : Cells init next [] #[] #[] where
  size := rfl
  below h := by simp at h
  origin h := by simp [origins] at h
  same h := by simp at h
  used h := by simp at h
  value h := by simp at h

section
variable (h : Cells init next acts ids cells)
include h

theorem kin_concat (hi : i < ids.size) (hj : j < ids.size) (a : Act) : Kin (acts ++ [a]) i j ↔ Kin acts i j :=
  Sharing.kin_concat (h.size ▸ hi) (h.size ▸ hj) a

theorem uses_concat (hi : i < ids.size) (a : Act) :
    uses (acts ++ [a]) i = uses acts i + if isUse (acts ++ [a]) i a = true then 1 else 0 := by
  have hold : acts.countP (isUse (acts ++ [a]) i) = uses acts i := by
    refine List.countP_congr fun b hb => ?_
    cases b with
    | make | clone => rfl
    | use j => simp only [isUse, h.kin_concat (h.used hb) hi]
  rw [uses, List.countP_append, hold, List.countP_singleton]

/-- A handle of a new cell is a family of its own. -/
theorem not_kin_make (hi : i < ids.size) : ¬Kin (acts ++ [.make]) i ids.size := by
  intro hk
  rw [Kin, origins_concat, getElem?_extend (h.size ▸ hi), ← h.size, extend, Array.getElem?_push_size] at hk
  have := h.origin hk
  rw [h.size] at this
  exact Nat.lt_irrefl _ this

/-- A clone belongs to the family of its original. -/
theorem kin_clone (hi : i < ids.size) : Kin (acts ++ [.clone i]) ids.size i := by
  have ho : i < (origins acts).size := h.size ▸ hi
  rw [Kin, origins_concat, getElem?_extend ho, ← h.size, extend, Array.getElem?_push_size]
  simp [Array.getD_eq_getD_getElem?, Array.getElem?_eq_getElem ho]

theorem uses_make : uses (acts ++ [.make]) ids.size = 0 := by
  refine Nat.eq_zero_of_not_pos fun hpos => ?_
  obtain ⟨j, hj, hk⟩ := uses_pos_iff.mp hpos
  exact h.not_kin_make (h.used (by simpa using hj)) hk

theorem make : Cells init next (acts ++ [.make]) (ids.push cells.size) (cells.push init) where
  size := by simp [origins_concat, extend, h.size]
  below hi := by
    rw [Array.size_push]
    rcases getElem?_push_cases hi with hi | ⟨-, rfl⟩
    · exact Nat.lt_succ_of_lt (h.below hi)
    · exact Nat.lt_succ_self _
  origin hi := by
    rw [Array.size_push]
    rw [origins_concat] at hi
    rcases getElem?_push_cases hi with hi | ⟨-, rfl⟩
    · exact Nat.lt_succ_of_lt (h.origin hi)
    · exact h.size ▸ Nat.lt_succ_self _
  same hi hj := by
    rcases getElem?_push_cases hi with hi | ⟨rfl, rfl⟩ <;> rcases getElem?_push_cases hj with hj | ⟨rfl, rfl⟩
    · rw [h.kin_concat (getElem?_lt hi) (getElem?_lt hj)]
      exact h.same hi hj
    · exact iff_of_false (Nat.ne_of_lt (h.below hi)) (h.not_kin_make (getElem?_lt hi))
    · exact iff_of_false (Nat.ne_of_gt (h.below hj)) fun hk => h.not_kin_make (getElem?_lt hj) hk.symm
    · exact iff_of_true rfl rfl
  used hi := by
    rw [Array.size_push]
    exact Nat.lt_succ_of_lt (h.used (by simpa using hi))
  value hi := by
    rcases getElem?_push_cases hi with hi | ⟨rfl, rfl⟩
    · rw [h.uses_concat (getElem?_lt hi)]
      exact getElem?_push_of_some (h.value hi) _
    · rw [h.uses_make, Array.getElem?_push_size]
      rfl

theorem clone (hn : ids[i]? = some n) : Cells init next (acts ++ [.clone i]) (ids.push n) cells := by
  have hi := getElem?_lt hn
  have hkin := h.kin_clone hi
  refine ⟨by simp [origins_concat, extend, h.size], fun hj => ?_, fun hj => ?_, fun {j k m l} hj hk => ?_, fun hj => ?_,
    fun hj => ?_⟩
  · rcases getElem?_push_cases hj with hj | ⟨-, rfl⟩
    · exact h.below hj
    · exact h.below hn
  · rw [Array.size_push]
    rw [origins_concat] at hj
    rcases getElem?_push_cases hj with hj | ⟨-, rfl⟩
    · exact Nat.lt_succ_of_lt (h.origin hj)
    · have hr := Array.getElem?_eq_getElem (h.size ▸ hi : i < (origins acts).size)
      rw [Array.getD_eq_getD_getElem?, hr]
      exact Nat.lt_succ_of_lt (h.origin hr)
  · rcases getElem?_push_cases hj with hj' | ⟨rfl, rfl⟩ <;> rcases getElem?_push_cases hk with hk' | ⟨rfl, rfl⟩
    · rw [h.kin_concat (getElem?_lt hj') (getElem?_lt hk')]
      exact h.same hj' hk'
    · rw [h.same hj' hn, ← h.kin_concat (getElem?_lt hj') hi (.clone i)]
      exact ⟨fun hji => hji.trans hkin.symm, fun hjk => hjk.trans hkin⟩
    · rw [h.same hn hk', ← h.kin_concat hi (getElem?_lt hk') (.clone i)]
      exact ⟨fun hik => hkin.trans hik, fun hjk => hkin.symm.trans hjk⟩
    · exact iff_of_true rfl rfl
  · rw [Array.size_push]
    exact Nat.lt_succ_of_lt (h.used (by simpa using hj))
  · rcases getElem?_push_cases hj with hj | ⟨rfl, rfl⟩
    · rw [h.uses_concat (getElem?_lt hj)]
      exact h.value hj
    · rw [uses_of_kin hkin, h.uses_concat hi]
      exact h.value hn

theorem use (hn : ids[i]? = some n) {b : β} (hb : cells[n]? = some b) :
    Cells init next (acts ++ [.use i]) ids (cells.setIfInBounds n (next b)) := by
  have hi := getElem?_lt hn
  have hkin : ∀ {j k : Nat}, Kin (acts ++ [.use i]) j k ↔ Kin acts j k := by
    intro j k
    rw [Kin, origins_concat, Kin]
    rfl
  refine ⟨by rw [origins_concat]; exact h.size, fun hj => by simpa using h.below hj, fun hj => ?_,
    fun hj hk => (h.same hj hk).trans hkin.symm, fun hj => ?_, fun {j m} hj => ?_⟩
  · rw [origins_concat] at hj
    exact h.origin hj
  · rcases List.mem_append.mp hj with hj | hj
    · exact h.used hj
    · cases List.mem_singleton.mp hj
      exact hi
  · rw [h.uses_concat (getElem?_lt hj)]
    simp only [isUse, hkin, ← h.same hn hj, decide_eq_true_eq]
    by_cases hm : n = m
    · subst hm
      rw [Array.getElem?_setIfInBounds_self_of_lt (h.below hn), if_pos rfl, Function.iterate_succ_apply']
      rw [h.value hj] at hb
      rw [Option.some.inj hb]
    · rw [Array.getElem?_setIfInBounds_ne hm, if_neg hm]
      exact h.value hj

end

end Cells

/-- What the uses of a family's handles have led to, each use logged with its handle. -/
def seen {β : Type} (acts : List Act) (log : List (Nat × β)) (i : Nat) : List β :=
  (log.filter fun q => Kin acts q.1 i).map Prod.snd

/-- Cells with a log of their uses: a family sees one state of its cell after the other and nothing else. -/
structure Logged {β : Type} (init : β) (next : β → β) (acts : List Act) (ids : Array Nat) (cells : Array β)
    (log : List (Nat × β)) : Prop where
  cells : Cells init next acts ids cells
  known : ∀ q ∈ log, q.1 < ids.size
  seen : ∀ {i : Nat}, i < ids.size → seen acts log i = (List.range (uses acts i)).map fun k => next^[k + 1] init

namespace Logged

variable {β : Type} {init : β} {next : β → β} {acts : List Act} {ids : Array Nat} {cells : Array β}
  {log : List (Nat × β)} {i n : Nat}

theorem empty : Logged init next [] #[] #[] [] where
  cells := .empty
  known := nofun
  seen hi := by simp at hi

section
variable (h : Logged init next acts ids cells log)
include h

theorem seen_concat (hi : i < ids.size) (a : Act) : Sharing.seen (acts ++ [a]) log i = Sharing.seen acts log i := by
  rw [Sharing.seen, Sharing.seen, List.filter_congr fun q hq => ?_]
  exact decide_eq_decide.mpr (h.cells.kin_concat (h.known q hq) hi a)

theorem make : Logged init next (acts ++ [.make]) (ids.push cells.size) (cells.push init) log where
  cells := h.cells.make
  known q hq := by
    rw [Array.size_push]
    exact Nat.lt_succ_of_lt (h.known q hq)
  seen {i} hi := by
    rw [Array.size_push] at hi
    rcases Nat.lt_succ_iff_lt_or_eq.mp hi with hi | rfl
    · rw [h.seen_concat hi, h.cells.uses_concat hi]
      exact h.seen hi
    · rw [h.cells.uses_make, Sharing.seen, List.filter_eq_nil_iff.mpr fun q hq => ?_]
      · rfl
      · simpa using h.cells.not_kin_make (h.known q hq)

theorem clone (hn : ids[i]? = some n) : Logged init next (acts ++ [.clone i]) (ids.push n) cells log where
  cells := h.cells.clone hn
  known q hq := by
    rw [Array.size_push]
    exact Nat.lt_succ_of_lt (h.known q hq)
  seen {j} hj := by
    have hi := getElem?_lt hn
    have hold : ∀ {k : Nat}, k < ids.size → Sharing.seen (acts ++ [.clone i]) log k =
        (List.range (uses (acts ++ [.clone i]) k)).map fun m => next^[m + 1] init := by
      intro k hk
      rw [h.seen_concat hk, h.cells.uses_concat hk]
      exact h.seen hk
    rw [Array.size_push] at hj
    rcases Nat.lt_succ_iff_lt_or_eq.mp hj with hj | rfl
    · exact hold hj
    · have hkin := h.cells.kin_clone hi
      rw [uses_of_kin hkin, ← hold hi, Sharing.seen, Sharing.seen, List.filter_congr fun q _ => ?_]
      exact decide_eq_decide.mpr ⟨fun hq => hq.trans hkin, fun hq => hq.trans hkin.symm⟩

theorem use (hn : ids[i]? = some n) {b : β} (hb : cells[n]? = some b) :
    Logged init next (acts ++ [.use i]) ids (cells.setIfInBounds n (next b)) (log ++ [(i, next b)]) where
  cells := h.cells.use hn hb
  known q hq := by
    rcases List.mem_append.mp hq with hq | hq
    · exact h.known q hq
    · rw [List.mem_singleton.mp hq]
      exact getElem?_lt hn
  seen {j} hj := by
    have hsplit : Sharing.seen (acts ++ [.use i]) (log ++ [(i, next b)]) j =
        Sharing.seen (acts ++ [.use i]) log j ++ if Kin (acts ++ [.use i]) i j then [next b] else [] := by
      rw [Sharing.seen, List.filter_append, List.map_append, Sharing.seen]
      by_cases hk : Kin (acts ++ [.use i]) i j <;> simp [hk]
    rw [hsplit, h.seen_concat hj, h.seen hj, h.cells.uses_concat hj]
    by_cases hk : Kin (acts ++ [.use i]) i j
    · -- the family that is used sees the next state of its cell
      have hb' : next^[uses acts j] init = b := by
        have := h.cells.value hn
        rw [hb, uses_of_kin ((h.cells.kin_concat (getElem?_lt hn) hj _).mp hk)] at this
        exact (Option.some.inj this).symm
      simp [isUse, hk, List.range_succ, Function.iterate_succ_apply', hb']
    · simp [isUse, hk]

end

end Logged

end Sharing

namespace Holders

open Sharing (Kin Cells Logged)

/-! ## Clocks and tokens -/

/-- What an action does with the handles of tokens. -/
def Action.onTokens : Action → Option Sharing.Act
  | .mint _ | .newToken _ => some .make
  | .cloneToken t => some (.clone t)
  | .cancel t => some (.use t)
  | .newClock | .cloneClock _ | .next _ => none

/-- What an action does with the handles of clocks. -/
def Action.onClocks : Action → Option Sharing.Act
  | .newClock => some .make
  | .cloneClock c => some (.clone c)
  | .next c | .mint c => some (.use c)
  | .newToken _ | .cloneToken _ | .cancel _ => none

/-- What was done with the handles of tokens. -/
def tokenActs (acts : List Action) : List Sharing.Act := acts.filterMap Action.onTokens

/-- What was done with the handles of clocks. -/
def clockActs (acts : List Action) : List Sharing.Act := acts.filterMap Action.onClocks

/-- The generations that a clock has given through a handle and all its clones, in order. -/
def generations (past : List (Holders × Action)) (c : Nat) : List Generation :=
  Sharing.seen (clockActs (past.map Prod.snd)) (past.filterMap given) c

theorem tokenActs_concat (acts : List Action) (a : Action) : tokenActs (acts ++ [a]) =
    match a.onTokens with
    | some b => tokenActs acts ++ [b]
    | none => tokenActs acts := by
  cases h : a.onTokens with
  | none => exact filterMap_concat_none h acts
  | some b => exact filterMap_concat_some h acts

theorem clockActs_concat (acts : List Action) (a : Action) : clockActs (acts ++ [a]) =
    match a.onClocks with
    | some b => clockActs acts ++ [b]
    | none => clockActs acts := by
  cases h : a.onClocks with
  | none => exact filterMap_concat_none h acts
  | some b => exact filterMap_concat_some h acts

/-- What holds of the handles after any actions. -/
structure Kept (past : List (Holders × Action)) (s : Holders) : Prop where
  tokens : Cells false (fun _ => true) (tokenActs (past.map Prod.snd)) (s.tokens.map (·.id)) s.registry.cancelled
  clocks : Logged 0 (· + 1) (clockActs (past.map Prod.snd)) (s.clocks.map (·.id)) s.registry.counts
    (past.filterMap given)

namespace Kept

variable {past : List (Holders × Action)} {s s' : Holders} {a : Action}

theorem start : Kept [] {} where
  tokens := by rw [Array.map_empty]; exact .empty
  clocks := by rw [Array.map_empty]; exact .empty

theorem count (h : Kept past s) {c : Nat} {clock : Clock} (hc : (s.clocks.map (·.id))[c]? = some clock.id) :
    s.registry.counts[clock.id]? = some (s.registry.count clock) := by
  simp [Registry.count, h.clocks.cells.value hc]

theorem next (h : Kept past s) (hs : s.step a = some s') : Kept (past ++ [(s, a)]) s' := by
  have htoken : ∀ {t : Nat} {token : Token}, s.tokens[t]? = some token →
      (s.tokens.map (·.id))[t]? = some token.id := fun ht => by simp [ht]
  have hclock : ∀ {c : Nat} {clock : Clock}, s.clocks[c]? = some clock →
      (s.clocks.map (·.id))[c]? = some clock.id := fun hc => by simp [hc]
  constructor <;> rw [List.map_append, List.map_singleton]
  · rw [tokenActs_concat]
    cases a with
    | newClock => cases hs; exact h.tokens
    | cloneClock c => obtain ⟨clock, -, rfl⟩ := Option.map_eq_some_iff.mp hs; exact h.tokens
    | next c => obtain ⟨clock, -, rfl⟩ := Option.map_eq_some_iff.mp hs; exact h.tokens
    | mint c =>
      obtain ⟨clock, -, rfl⟩ := Option.map_eq_some_iff.mp hs
      rw [Array.map_push]
      exact h.tokens.make
    | newToken g =>
      cases hs
      rw [Array.map_push]
      exact h.tokens.make
    | cloneToken t =>
      obtain ⟨token, ht, rfl⟩ := Option.map_eq_some_iff.mp hs
      rw [Array.map_push]
      exact h.tokens.clone (htoken ht)
    | cancel t =>
      obtain ⟨token, ht, rfl⟩ := Option.map_eq_some_iff.mp hs
      exact h.tokens.use (htoken ht) (h.tokens.value (htoken ht))
  · rw [clockActs_concat]
    have hsilent : given (s, a) = none → (past ++ [(s, a)]).filterMap given = past.filterMap given :=
      fun hg => filterMap_concat_none hg past
    -- to ask a clock for a generation, with or without a token, is to use it
    have hasked : ∀ {c : Nat} {clock : Clock}, s.clocks[c]? = some clock →
        given (s, a) = some (c, s.registry.count clock + 1) →
        Logged 0 (· + 1) (clockActs (past.map Prod.snd) ++ [.use c]) (s.clocks.map (·.id))
          (s.registry.next clock).2.counts ((past ++ [(s, a)]).filterMap given) := by
      intro c clock hc hg
      rw [filterMap_concat_some hg]
      exact h.clocks.use (hclock hc) (h.count (hclock hc))
    cases a with
    | newClock =>
      cases hs
      rw [hsilent rfl, Array.map_push]
      exact h.clocks.make
    | cloneClock c =>
      obtain ⟨clock, hc, rfl⟩ := Option.map_eq_some_iff.mp hs
      rw [hsilent rfl, Array.map_push]
      exact h.clocks.clone (hclock hc)
    | next c =>
      obtain ⟨clock, hc, rfl⟩ := Option.map_eq_some_iff.mp hs
      exact hasked hc (by simp [given, hc, Registry.next])
    | mint c =>
      obtain ⟨clock, hc, rfl⟩ := Option.map_eq_some_iff.mp hs
      exact hasked hc (by simp [given, hc])
    | newToken g => cases hs; rw [hsilent rfl]; exact h.clocks
    | cloneToken t =>
      obtain ⟨token, -, rfl⟩ := Option.map_eq_some_iff.mp hs
      rw [hsilent rfl]
      exact h.clocks
    | cancel t =>
      obtain ⟨token, -, rfl⟩ := Option.map_eq_some_iff.mp hs
      rw [hsilent rfl]
      exact h.clocks

theorem of_run {acts : List Action} (h : Steps.run step {} acts = some s) : Kept (Steps.history step {} acts) s :=
  Steps.run_induction (P := Kept) Kept.next start h

theorem token_id (h : Kept past s) {t : Nat} {token : Token} (ht : s.tokens[t]? = some token) :
    s.registry.cancelled[token.id]? =
      some ((fun _ => true)^[Sharing.uses (tokenActs (past.map Prod.snd)) t] false) :=
  h.tokens.value (by simp [ht])

theorem isCancelled_iff (h : Kept past s) {t : Nat} {token : Token} (ht : s.tokens[t]? = some token) :
    s.registry.isCancelled token = true ↔
      ∃ u, Action.cancel u ∈ past.map Prod.snd ∧ Kin (tokenActs (past.map Prod.snd)) u t := by
  have hflag : ∀ n : Nat, (fun _ => true)^[n] false = true ↔ 0 < n := by
    intro n
    cases n with
    | zero => simp
    | succ n => simp [Function.iterate_succ_apply']
  have hcancel : ∀ (acts : List Action) (u : Nat), .use u ∈ tokenActs acts ↔ Action.cancel u ∈ acts := by
    intro acts u
    rw [tokenActs, List.mem_filterMap]
    constructor
    · rintro ⟨a, ha, hu⟩
      cases a <;> cases hu
      exact ha
    · exact fun hu => ⟨_, hu, rfl⟩
  rw [Registry.isCancelled, Array.getD_eq_getD_getElem?, h.token_id ht, Option.getD_some, hflag, Sharing.uses_pos_iff]
  simp only [hcancel]

/-- The generations of a clock are counted from one. -/
theorem generations_eq (h : Kept past s) {c : Nat} (hc : c < s.clocks.size) :
    generations past c = (List.range' 1 (generations past c).length).map UInt64.ofNat := by
  have hcount : ∀ n : Nat, (fun g : Generation => g + 1)^[n] 0 = UInt64.ofNat n := by
    intro n
    induction n with
    | zero => rfl
    | succ n ih => rw [Function.iterate_succ_apply', ih, UInt64.ofNat_add]; rfl
  have hseen := h.clocks.seen (i := c) (by simpa using hc)
  rw [generations, hseen, List.length_map, List.length_range, List.range'_eq_map_range, List.map_map]
  refine List.map_congr_left fun k _ => ?_
  rw [hcount, Nat.add_comm]
  rfl

end Kept

/-- A handle stays what it is, and a token that is cancelled stays cancelled. -/
theorem cancelled_step {s s' : Holders} {a : Action} (hs : s.step a = some s') {t : Nat} {token : Token}
    (h : s.tokens[t]? = some token ∧ s.registry.isCancelled token = true) :
    s'.tokens[t]? = some token ∧ s'.registry.isCancelled token = true := by
  obtain ⟨ht, hc⟩ := h
  cases a with
  | newClock => cases hs; exact ⟨ht, hc⟩
  | cloneClock c => obtain ⟨clock, -, rfl⟩ := Option.map_eq_some_iff.mp hs; exact ⟨ht, hc⟩
  | next c => obtain ⟨clock, -, rfl⟩ := Option.map_eq_some_iff.mp hs; exact ⟨ht, hc⟩
  | mint c =>
    obtain ⟨clock, -, rfl⟩ := Option.map_eq_some_iff.mp hs
    exact ⟨getElem?_push_of_some ht _, (Registry.isCancelled_mint ..).trans hc⟩
  | newToken g =>
    cases hs
    exact ⟨getElem?_push_of_some ht _, (Registry.isCancelled_newToken s.registry g token).trans hc⟩
  | cloneToken u =>
    obtain ⟨other, -, rfl⟩ := Option.map_eq_some_iff.mp hs
    exact ⟨getElem?_push_of_some ht _, hc⟩
  | cancel u =>
    obtain ⟨other, -, rfl⟩ := Option.map_eq_some_iff.mp hs
    exact ⟨ht, (Registry.isCancelled_cancel ..).mpr (Or.inl hc)⟩

/-- After any actions a token is cancelled if and only if it was cancelled through a handle of its family, which never
ends and which no further cancellation changes. The generations that a clock has given through a handle and all its
clones are 1, 2, 3 and so on, as long as there are fewer than 2^64, whatever other clocks have given. -/
theorem families_share_and_no_others {acts : List Action} {s : Holders} (h : Steps.run step {} acts = some s) :
    (∀ t token, s.tokens[t]? = some token → (s.registry.isCancelled token = true ↔
      ∃ u, Action.cancel u ∈ acts ∧ Kin (tokenActs acts) u t)) ∧
    (∀ t token, s.tokens[t]? = some token → s.registry.isCancelled token = true → s.step (.cancel t) = some s ∧
      ∀ more s', Steps.run step s more = some s' →
        s'.tokens[t]? = some token ∧ s'.registry.isCancelled token = true) ∧
    ∀ c, c < s.clocks.size → (generations (Steps.history step {} acts) c).length < UInt64.size →
      (generations (Steps.history step {} acts) c).map UInt64.toNat =
        List.range' 1 (generations (Steps.history step {} acts) c).length := by
  have hkept := Kept.of_run h
  have hacts := Steps.history_map_snd h
  refine ⟨fun t token ht => ?_, fun t token ht hc => ⟨?_, fun more s' hmore => ?_⟩, fun c hc hfew => ?_⟩
  · rw [hkept.isCancelled_iff ht, hacts]
  · simp [step, ht, Registry.cancel_of_isCancelled hc]
  · exact @Steps.run_induction _ _ step (fun _ u => u.tokens[t]? = some token ∧ u.registry.isCancelled token = true)
      (fun hu hs => cancelled_step hs hu) more [] _ _ ⟨ht, hc⟩ hmore
  · have hall := hkept.generations_eq hc
    generalize generations (Steps.history step {} acts) c = given at hall hfew
    have hsmall : ∀ n ∈ List.range' 1 given.length, (UInt64.toNat ∘ UInt64.ofNat) n = n := by
      intro n hn
      have := List.mem_range'_1.mp hn
      exact UInt64.toNat_ofNat_of_lt' (by omega)
    rw [hall, List.map_map, List.length_map, List.length_range', List.map_congr_left hsmall, List.map_id']

/-- Two clocks give the same generations to two tokens, which go through the hands of several holders. -/
def crossed : List Action :=
  [.newClock, .cloneClock 0, .newClock, .mint 1, .cloneToken 0, .mint 2, .next 0, .cloneToken 1, .cancel 3, .mint 2,
    .cancel 0, .next 1]

/-- One token is cancelled through the clone of a clone, and the other one of the same generation is not. -/
theorem families_share_when_crossed :
    ∃ s, Steps.run step {} crossed = some s ∧ s.tokens[1]? = some ⟨0, 1⟩ ∧ s.tokens[2]? = some ⟨1, 1⟩ ∧
      s.registry.isCancelled ⟨0, 1⟩ = true ∧ s.step (.cancel 1) = some s ∧ s.registry.isCancelled ⟨1, 1⟩ = false ∧
      (generations (Steps.history step {} crossed) 1).map UInt64.toNat = [1, 2, 3] ∧
      (generations (Steps.history step {} crossed) 2).map UInt64.toNat = [1, 2] := by
  have hrun : Steps.run step {} crossed = some ((Steps.run step {} crossed).get rfl) := rfl
  obtain ⟨hiff, hstays, hcount⟩ := families_share_and_no_others hrun
  have hcancelled := (hiff 1 ⟨0, 1⟩ rfl).mpr ⟨3, by decide, by decide⟩
  refine ⟨_, hrun, rfl, rfl, hcancelled, (hstays 1 _ rfl hcancelled).1, ?_, hcount 1 (by decide) (by decide),
    hcount 2 (by decide) (by decide)⟩
  rw [Bool.eq_false_iff, ne_eq, hiff 2 ⟨1, 1⟩ rfl]
  rintro ⟨u, hu, hk⟩
  obtain rfl | rfl : u = 3 ∨ u = 0 := by simpa [crossed] using hu
  · exact absurd hk (by decide)
  · exact absurd hk (by decide)

end Holders

end Retrace
