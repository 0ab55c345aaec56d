import Retrace.Toml.Document
import Retrace.Proofs.Text.Natural
import Retrace.Proofs.Toml.Quoted

/-!
# Written values are read back

Numbers, texts and lists, whatever ends them.
-/

namespace Retrace.Toml

/-! ## Numbers -/

namespace Scalar

theorem number_append (base : Nat) (ds : List Char) (d : Char) :
    number base (ds ++ [d]) = number base ds * base + hexValue d := by
  simp [number]

/-- The decimal digits of a number. -/
theorem digits_spec (n : Nat) :
    (∀ d ∈ Nat.toDigits 10 n, isDigit d = true) ∧ number 10 (Nat.toDigits 10 n) = n := by
  have hdigit : ∀ n < 10, isDigit n.digitChar = true ∧ hexValue n.digitChar = n := by decide
  induction n using Nat.strongRecOn with
  | ind n ih =>
    by_cases hn : n < 10
    · obtain ⟨hd, hv⟩ := hdigit n hn
      rw [Nat.toDigits_of_lt_base hn]
      exact ⟨by simpa using hd, by simp [number, hv]⟩
    · obtain ⟨hall, hval⟩ := ih (n / 10) (by omega)
      obtain ⟨hd, hv⟩ := hdigit (n % 10) (by omega)
      rw [Nat.toDigits_of_base_le (by omega) (by omega)]
      refine ⟨?_, ?_⟩
      · intro d hm
        rcases List.mem_append.mp hm with hm | hm
        · exact hall d hm
        · obtain rfl := List.mem_singleton.mp hm
          exact hd
      · rw [number_append, hval, hv]
        omega

theorem natural_eq_cons (n : Nat) : ∃ d ds, Written.natural n = d :: ds ∧ (∀ e ∈ d :: ds, isDigit e = true) ∧
    number 10 (d :: ds) = n ∧ (0 < n → d ≠ '0') := by
  obtain ⟨hall, hval⟩ := digits_spec n
  have hdigits : Written.natural n = Nat.toDigits 10 n := Nat.toList_repr
  have hhead : 0 < n → (Nat.toDigits 10 n).head? ≠ some '0' := Text.head?_toDigits
  rw [hdigits]
  cases hds : Nat.toDigits 10 n with
  | nil => exact absurd hds Nat.toDigits_ne_nil
  | cons d ds =>
    rw [hds] at hall hval hhead
    exact ⟨d, ds, rfl, hall, hval, by simpa using hhead⟩

variable {ds rest : List Char}

theorem moreDigits_append (h : ∀ d ∈ ds, isDigit d = true) :
    moreDigits isDigit (ds ++ '\n' :: rest) = (ds, '\n' :: rest) := by
  induction ds with
  | nil => simp [moreDigits, isDigit]
  | cons d ds ih =>
    have hd := h d (List.mem_cons_self ..)
    have hu : d ≠ '_' := by rintro rfl; cases hd
    rw [List.cons_append, moreDigits]
    · simp [hd, ih fun e he => h e (List.mem_cons_of_mem d he)]
    · simp [hu]

theorem digits_append {d : Char} (h : ∀ e ∈ d :: ds, isDigit e = true) :
    digits isDigit (d :: (ds ++ '\n' :: rest)) = some (d :: ds, '\n' :: rest) := by
  rw [digits, if_pos (h d (List.mem_cons_self ..)),
    moreDigits_append fun e he => h e (List.mem_cons_of_mem d he)]

/-- A part of a date or a time is not found among digits that end with their line. -/
theorem fixed_char {k n : Nat} {c : Char} {cs : List Char} (h : ∀ d ∈ ds, isDigit d = true) (hc : isDigit c = false)
    (hn : c ≠ '\n') (hf : fixed k (ds ++ '\n' :: rest) = some (n, cs)) : char c cs = none := by
  unfold fixed at hf
  extract_lets front at hf
  split at hf
  · rename_i hfront
    obtain ⟨-, rfl⟩ := Prod.mk.inj (Option.some.inj hf)
    have hk : k ≤ ds.length := by
      refine Nat.le_of_not_lt fun hlt => ?_
      have hm : '\n' ∈ front := by
        refine List.mem_of_getElem? (i := ds.length) ?_
        rw [List.getElem?_take_of_lt hlt, List.getElem?_append_right (Nat.le_refl _), Nat.sub_self]
        rfl
      cases List.all_eq_true.mp hfront.2 _ hm
    rw [List.drop_append_of_le_length hk]
    cases hdrop : ds.drop k with
    | nil => simp [char, hn]
    | cons d more =>
      have hd := h d (List.mem_of_mem_drop (hdrop ▸ List.mem_cons_self ..))
      have hcd : c ≠ d := by rintro rfl; rw [hd] at hc; cases hc
      simp [char, hcd]
  · cases hf

theorem moment_digits (h : ∀ d ∈ ds, isDigit d = true) : moment (ds ++ '\n' :: rest) = none := by
  have hdate : date (ds ++ '\n' :: rest) = none := by
    unfold date
    cases hf : fixed 4 (ds ++ '\n' :: rest) with
    | none => rfl
    | some r => simp [fixed_char (c := '-') h rfl (by decide) hf]
  have htime : time (ds ++ '\n' :: rest) = none := by
    unfold time hourMinute
    cases hf : fixed 2 (ds ++ '\n' :: rest) with
    | none => rfl
    | some r => simp [fixed_char (c := ':') h rfl (by decide) hf]
  simp [moment, hdate, htime]

theorem inRange_of_lt {n : Nat} (h : n < 0x7FFFFFFFFFFFFFFF) : inRange n = true := by
  simp only [inRange, Bool.and_eq_true, decide_eq_true_eq]
  have hmin : Int64.minValue.toInt = -0x8000000000000000 := by decide
  have hmax : Int64.maxValue.toInt = 0x7FFFFFFFFFFFFFFF := by decide
  omega

/-- A positive number is read back. -/
theorem numeric_natural {n : Nat} (hp : 0 < n) (hn : Scalar.inRange n = true) (rest : List Char) :
    numeric (Written.natural n ++ '\n' :: rest) = some (.integer n, '\n' :: rest) := by
  obtain ⟨d, ds, hds, hall, hval, hhead⟩ := natural_eq_cons n
  rw [hds]
  have hd := hall d (List.mem_cons_self ..)
  have h0 := hhead hp
  have hsign : sign (d :: (ds ++ '\n' :: rest)) = (false, d :: (ds ++ '\n' :: rest)) := by
    have hplus : d ≠ '+' := by rintro rfl; cases hd
    have hminus : d ≠ '-' := by rintro rfl; cases hd
    rw [sign]
    all_goals simp_all
  have hwhole : wholeDigits (d :: (ds ++ '\n' :: rest)) = some (d :: ds, '\n' :: rest) := by
    rw [← digits_append hall, wholeDigits]
    simp [h0]
  have hfloat : float (d :: (ds ++ '\n' :: rest)) = none := by
    have hi : d ≠ 'i' := by rintro rfl; cases hd
    have hn : d ≠ 'n' := by rintro rfl; cases hd
    unfold float
    simp only [hsign, hwhole]
    split
    · simp_all
    · simp_all
    · simp [fraction, power]
  have hinteger : integer (d :: (ds ++ '\n' :: rest)) = some (↑n, '\n' :: rest) := by
    rw [integer]
    · simp [hsign, hwhole, hval, hn]
    all_goals simp [h0]
  rw [List.cons_append, numeric, ← List.cons_append, moment_digits hall]
  simp only [List.cons_append, hfloat, hinteger, Option.map_some]

end Scalar

/-! ## Values -/

theorem text_eq_cons (cs : List Char) : ∃ q body, Written.text cs = q :: body ∧ (q = '"' ∨ q = '\'') := by
  rw [Written.text]
  cases Written.form cs with
  | literal | multiLiteral => exact ⟨_, _, rfl, Or.inr rfl⟩
  | _ => exact ⟨_, _, rfl, Or.inl rfl⟩

theorem value_text (depth : Nat) (cs : List Char) {rest : List Char} (hq : Unlike '"' rest) (hm : Unlike '\'' rest) :
    value depth (Written.text cs ++ rest) = some (.text (String.ofList cs), rest) := by
  have h := text_written cs hq hm
  obtain ⟨q, body, he, rfl | rfl⟩ := text_eq_cons cs
  all_goals
    rw [he, List.cons_append] at h ⊢
    rw [value, h, Option.map_some]

theorem value_natural (depth : Nat) {n : Nat} (hp : 0 < n) (hn : Scalar.inRange n = true) (rest : List Char) :
    value depth (Written.natural n ++ '\n' :: rest) = some (.integer n, '\n' :: rest) := by
  rw [← Scalar.numeric_natural hp hn]
  obtain ⟨d, ds, hds, hall, -⟩ := Scalar.natural_eq_cons n
  have hd := hall d (List.mem_cons_self ..)
  have hne : d ≠ '"' ∧ d ≠ '\'' ∧ d ≠ '[' ∧ d ≠ '\x7b' := by
    refine ⟨?_, ?_, ?_, ?_⟩ <;> rintro rfl <;> cases hd
  rw [hds, List.cons_append, value]
  all_goals simp_all

/-! ## Lists -/

theorem unlike_cons {q c : Char} (h : c ≠ q) (rest : List Char) : Unlike q (c :: rest) := by
  rintro x he
  exact h (List.cons.inj he).1

theorem skipSpace_cons {c : Char} (hc : Quoted.isSpace c = false) (rest : List Char) : skipSpace (c :: rest) = c :: rest := by
  simp [skipSpace, hc]

/-- A character that no blank line starts with. -/
def Solid (c : Char) : Prop := Quoted.isSpace c = false ∧ c ≠ '#' ∧ c ≠ '\n' ∧ c ≠ '\r'

instance (c : Char) : Decidable (Solid c) := inferInstanceAs (Decidable (_ ∧ _))

theorem skipBlankLines_solid {c : Char} (hc : Solid c) (fuel : Nat) (rest : List Char) :
    skipBlankLines fuel (c :: rest) = c :: rest := by
  obtain ⟨hs, hh, hn, hr⟩ := hc
  cases fuel with
  | zero => rfl
  | succ fuel =>
    rw [skipBlankLines, skipSpace_cons hs]
    split <;> simp_all

theorem skipBlankLines_newline (fuel : Nat) (rest : List Char) :
    skipBlankLines (fuel + 1) ('\n' :: rest) = skipBlankLines fuel rest := by
  rw [skipBlankLines, skipSpace_cons rfl]
  simp

theorem skipBlankLines_margin {c : Char} (hc : Solid c) (fuel : Nat) (rest : List Char) :
    skipBlankLines (fuel + 1) (' ' :: ' ' :: ' ' :: ' ' :: c :: rest) = c :: rest := by
  have hskip : skipSpace (' ' :: ' ' :: ' ' :: ' ' :: c :: rest) = c :: rest := skipSpace_cons hc.1 rest
  obtain ⟨hs, hh, hn, hr⟩ := hc
  rw [skipBlankLines, hskip]
  split <;> simp_all

theorem solid_of_quote {q : Char} (h : q = '"' ∨ q = '\'') : Solid q ∧ q ≠ ']' := by
  rcases h with rfl | rfl <;> decide

section
variable (depth fuel : Nat) (t : List Char) {cs rest : List Char}

/-- A list that starts with a written text goes on with what follows it. -/
theorem arrayItems_text {c : Char} (hc : Solid c) (hq : c ≠ '"') (hm : c ≠ '\'')
    (hcs : skipBlankLines cs.length cs = Written.text t ++ c :: rest) :
    arrayItems (value depth) (fuel + 1) cs =
      if c = ',' then (arrayItems (value depth) fuel rest).map fun (vs, rest) => (.text (String.ofList t) :: vs, rest)
      else if c = ']' then some ([.text (String.ofList t)], rest)
      else none := by
  have hvalue := value_text depth t (unlike_cons hq rest) (unlike_cons hm rest)
  obtain ⟨q, body, he, hquote⟩ := text_eq_cons t
  rw [he, List.cons_append] at hcs hvalue
  rw [arrayItems, hcs]
  split
  · rename_i h
    exact absurd (List.cons.inj h).1 (solid_of_quote hquote).2
  · rw [hvalue]
    dsimp only
    rw [skipBlankLines_solid hc]
    split <;> simp_all

end

/-- The lines of a list, from the line break after its bracket. -/
theorem arrayItems_lines (depth : Nat) (ts : List (List Char)) (rest : List Char) : ∀ fuel : Nat, ts.length < fuel →
    arrayItems (value depth) fuel
        ('\n' :: ts.flatMap (fun t => [' ', ' ', ' ', ' '] ++ Written.text t ++ [',', '\n']) ++ ']' :: rest) =
      some (ts.map (Node.text ∘ String.ofList), rest) := by
  induction ts with
  | nil =>
    rintro (- | fuel) hfuel
    · cases hfuel
    · simp only [List.flatMap_nil, List.cons_append, List.nil_append, arrayItems, List.length_cons, skipBlankLines_newline]
      rw [skipBlankLines_solid (by decide)]
      simp
  | cons t ts ih =>
    rintro (- | fuel) hfuel
    · cases hfuel
    have hmore := ih fuel (Nat.lt_of_succ_lt_succ hfuel)
    -- the four blanks before the text are skipped together with the line break
    have hskip : ∀ more : List Char, skipBlankLines ('\n' :: ' ' :: ' ' :: ' ' :: ' ' :: (Written.text t ++ more)).length
        ('\n' :: ' ' :: ' ' :: ' ' :: ' ' :: (Written.text t ++ more)) = Written.text t ++ more := by
      intro more
      obtain ⟨q, body, he, hquote⟩ := text_eq_cons t
      rw [List.length_cons, skipBlankLines_newline, List.length_cons, he, List.cons_append,
        skipBlankLines_margin (solid_of_quote hquote).1]
    simp only [List.flatMap_cons, List.cons_append, List.nil_append, List.append_assoc] at hmore ⊢
    rw [arrayItems_text depth fuel t (by decide) (by decide) (by decide) (hskip _), if_pos rfl, hmore]
    rfl

theorem length_le_flatMap {α β : Type} {f : α → List β} (hf : ∀ a, f a ≠ []) (as : List α) :
    as.length ≤ (as.flatMap f).length := by
  induction as with
  | nil => exact Nat.le_refl 0
  | cons a as ih =>
    have := List.length_pos_iff.mpr (hf a)
    simp only [List.flatMap_cons, List.length_cons, List.length_append]
    omega

theorem value_texts (depth : Nat) (ts : List (List Char)) (rest : List Char) :
    value (depth + 1) (Written.texts ts ++ rest) = some (.array (ts.map (Node.text ∘ String.ofList)), rest) := by
  match ts with
  | [] => simp [Written.texts, value, arrayItems, skipBlankLines_solid (show Solid ']' by decide)]
  | [t] =>
    have hskip : skipBlankLines (Written.text t ++ ']' :: rest).length (Written.text t ++ ']' :: rest) =
        Written.text t ++ ']' :: rest := by
      obtain ⟨q, body, he, hquote⟩ := text_eq_cons t
      rw [he, List.cons_append, skipBlankLines_solid (solid_of_quote hquote).1]
    simp only [Written.texts, List.cons_append, List.append_assoc, List.nil_append, value]
    rw [arrayItems_text depth _ t (by decide) (by decide) (by decide) hskip, if_neg (by decide), if_pos rfl]
    rfl
  | t :: u :: ts =>
    have hfuel := length_le_flatMap (f := fun t => [' ', ' ', ' ', ' '] ++ Written.text t ++ [',', '\n'])
      (fun t => by simp) (t :: u :: ts)
    have hlines := arrayItems_lines depth (t :: u :: ts) rest
    simp only [Written.texts, List.cons_append, List.append_assoc, List.nil_append, value] at hfuel hlines ⊢
    rw [hlines]
    · rfl
    · simp only [List.length_cons, List.length_append] at hfuel ⊢
      omega

end Retrace.Toml
