import Mathlib.Tactic.SplitIfs
import Retrace.Json.Quoted
import Retrace.Json.Scan
import Retrace.Proofs.Text.Natural

/-!
# Written strings and numbers are read back

Whatever follows the closing quote of a string, and whatever ends the digits of a number.
-/

namespace Retrace.Json

/-! ## Strings -/

theorem hexValue?_digitChar : ∀ n < 16, hexValue? (Nat.digitChar n) = some n := by decide

theorem hexUnit?_low {n : Nat} (h : n < 0x20) (rest : List Char) :
    hexUnit? ('0' :: '0' :: Nat.digitChar (n / 16) :: Nat.digitChar (n % 16) :: rest) = some (n, rest) := by
  have hzero : hexValue? '0' = some 0 := rfl
  simp only [hexUnit?, hzero, hexValue?_digitChar _ (show n / 16 < 16 by omega),
    hexValue?_digitChar _ (show n % 16 < 16 by omega), bind, Option.bind, pure, Option.some.injEq, Prod.mk.injEq, and_true]
  omega

theorem unitEscape?_low {c : Char} (h : c.toNat < 0x20) (rest : List Char) :
    unitEscape? ('0' :: '0' :: Nat.digitChar (c.toNat / 16) :: Nat.digitChar (c.toNat % 16) :: rest) = some (c, rest) := by
  have hlow : ¬(0xDC00 ≤ c.toNat ∧ c.toNat ≤ 0xDFFF) := by omega
  have hhigh : ¬(0xD800 ≤ c.toNat ∧ c.toNat ≤ 0xDBFF) := by omega
  simp only [unitEscape?, hexUnit?_low h, bind, Option.bind, if_neg hlow, if_neg hhigh, pure, Char.ofNat_toNat]

theorem stringBody?_plain {c : Char} (hq : c ≠ '"') (hb : c ≠ '\\') (hc : ¬c.toNat < 0x20) (fuel : Nat)
    (rest : List Char) :
    stringBody? (fuel + 1) (c :: rest) = (stringBody? fuel rest).map fun (s, rest) => (c :: s, rest) := by
  rw [stringBody?]
  · simp only [if_neg hc]
    cases stringBody? fuel rest <;> rfl
  all_goals simp_all

theorem stringBody?_simple {e c : Char} (he : simpleEscape? e = some c) (hu : e ≠ 'u') (fuel : Nat) (rest : List Char) :
    stringBody? (fuel + 1) ('\\' :: e :: rest) = (stringBody? fuel rest).map fun (s, rest) => (c :: s, rest) := by
  rw [stringBody?]
  · rw [he]
    cases stringBody? fuel rest <;> rfl
  · simpa using hu

/-- A character is read from its escape. -/
theorem stringBody?_escapeChar (c : Char) (fuel : Nat) (rest : List Char) :
    stringBody? (fuel + 1) (escapeChar c ++ rest) = (stringBody? fuel rest).map fun (s, rest) => (c :: s, rest) := by
  unfold escapeChar
  split_ifs with hq hb _ _ _ _ _ hc
  any_goals
    subst c
    exact stringBody?_simple rfl (by decide) fuel rest
  · cases hs : stringBody? fuel rest <;> simp [stringBody?, unitEscape?_low hc, hs]
  · exact stringBody?_plain hq hb hc fuel rest

theorem stringBody?_escaped (s rest : List Char) : ∀ {fuel : Nat}, s.length < fuel →
    stringBody? fuel (s.flatMap escapeChar ++ '"' :: rest) = some (s, rest) := by
  induction s with
  | nil =>
    intro fuel hfuel
    obtain ⟨fuel, rfl⟩ := Nat.exists_eq_succ_of_ne_zero (Nat.ne_of_gt hfuel)
    rfl
  | cons c s ih =>
    intro fuel hfuel
    obtain ⟨fuel, rfl⟩ := Nat.exists_eq_succ_of_ne_zero (Nat.ne_of_gt (Nat.zero_lt_of_lt hfuel))
    rw [List.flatMap_cons, List.append_assoc, stringBody?_escapeChar, ih (Nat.lt_of_succ_lt_succ hfuel)]
    rfl

theorem length_le_escaped (s : List Char) : s.length ≤ (s.flatMap escapeChar).length := by
  induction s with
  | nil => exact Nat.le_refl _
  | cons c s ih =>
    have hone : 1 ≤ (escapeChar c).length := by
      unfold escapeChar
      repeat' split
      all_goals simp
    rw [List.flatMap_cons, List.length_append, List.length_cons]
    omega

theorem string?_quote (s rest : List Char) : string? (quote s ++ rest) = some (s, rest) := by
  have hfuel : s.length < (s.flatMap escapeChar ++ '"' :: rest).length + 1 := by
    have := length_le_escaped s
    simp only [List.length_append, List.length_cons]
    omega
  simpa [quote, string?] using stringBody?_escaped s rest hfuel

/-! ## Numbers -/

/-- What comes after a number: nothing that goes on with it. -/
def Ends (rest : List Char) : Prop :=
  ∀ c, rest.head? = some c → isDigit c = false ∧ c ≠ '.' ∧ c ≠ 'e' ∧ c ≠ 'E'

theorem natural?_toString {bound n : Nat} (hn : n < bound) {rest : List Char} (hrest : Ends rest) :
    natural? bound ((toString n).toList ++ rest) = some (n, rest) := by
  have hdigits : (toString n).toList = Nat.toDigits 10 n := Nat.toList_repr
  have hall : ∀ d ∈ Nat.toDigits 10 n, isDigit d = true := by
    intro d hd
    simpa [isDigit, Char.isDigit, Char.le_def] using Nat.isDigit_of_mem_toDigits (by omega) (by omega) hd
  have hstop : rest.takeWhile isDigit = [] ∧ rest.dropWhile isDigit = rest := by
    cases rest with
    | nil => exact ⟨rfl, rfl⟩
    | cons c rest => simp [(hrest c rfl).1]
  have hvalue : (Nat.toDigits 10 n).foldl (fun n c => n * 10 + (c.toNat - '0'.toNat)) 0 = n := by
    have hof : Nat.ofDigitChars 10 (Nat.toDigits 10 n) 0 = n := Nat.ofDigitChars_toDigits (by omega) (by omega)
    simpa [Nat.ofDigitChars, Nat.mul_comm] using hof
  have hzeros : ¬(Nat.toDigits 10 n = [] ∨
      ((Nat.toDigits 10 n).head? = some '0' ∧ (Nat.toDigits 10 n).length ≠ 1)) := by
    rintro (hnil | ⟨hhead, hlen⟩)
    · exact Nat.toDigits_ne_nil hnil
    · rcases Nat.eq_zero_or_pos n with rfl | hpos
      · exact hlen rfl
      · exact Text.head?_toDigits hpos hhead
  have hgoes : ¬(rest.head? = some '.' ∨ rest.head? = some 'e' ∨ rest.head? = some 'E') := by
    rintro (h | h | h)
    · exact (hrest _ h).2.1 rfl
    · exact (hrest _ h).2.2.1 rfl
    · exact (hrest _ h).2.2.2 rfl
  rw [hdigits, natural?, List.takeWhile_append_of_pos hall, List.dropWhile_append_of_pos hall, hstop.1, hstop.2, List.append_nil,
    if_neg hzeros, if_neg hgoes, hvalue, if_pos hn]

theorem natural?_lt {bound n : Nat} {cs rest : Rest} (h : natural? bound cs = some (n, rest)) : n < bound := by
  unfold natural? at h
  dsimp only at h
  split at h
  · cases h
  split at h
  · cases h
  split at h
  · cases h
    assumption
  · cases h

end Retrace.Json
