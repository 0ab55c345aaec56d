import Retrace.Text.Natural

/-!
# The shortest decimal form

A number may be typed with a sign and with zeros in front. Without them the digits are those that it is shown with.
-/

namespace Retrace.Text

/-- Digits without the zeros in front, of which the last one stays when there is nothing else. -/
def stripZeros (cs : List Char) : List Char :=
  match cs.dropWhile (· == '0') with
  | [] => ['0']
  | ds => ds

/-- The digits of a number without its sign and without zeros in front. -/
def canonical (s : String) : String :=
  String.ofList (stripZeros (match s.toList with
    | '+' :: cs => cs
    | cs => cs))

variable {bound n m : Nat} {c : Char} {cs : List Char}

theorem appendDigit_eq_ok (h : appendDigit bound n c = .ok m) : ∃ d < 10, Nat.digitChar d = c ∧ m = 10 * n + d := by
  unfold appendDigit digitValue? at h
  split at h
  · cases h
  rename_i d hd
  split at hd
  · rename_i hc
    have hlow : '0'.toNat ≤ c.toNat := hc.1
    have hhigh : c.toNat ≤ '9'.toNat := hc.2
    simp only [show '0'.toNat = 48 from rfl, show '9'.toNat = 57 from rfl] at hlow hhigh hd
    cases hd
    split at h
    · cases h
      refine ⟨c.toNat - 48, by omega, ?_, by omega⟩
      apply Char.toNat_inj.mp
      rw [Nat.toNat_digitChar_of_lt_ten (by omega)]
      omega
    · cases h
  · cases hd

theorem digitChar_ne_zero : ∀ d < 10, 0 < d → d.digitChar ≠ '0' := by decide

theorem head?_toDigits (hn : 0 < n) : (Nat.toDigits 10 n).head? ≠ some '0' := by
  induction n using Nat.strongRecOn with
  | ind n ih =>
    by_cases hlt : n < 10
    · rw [Nat.toDigits_of_lt_base hlt]
      simpa using digitChar_ne_zero n hlt hn
    · obtain ⟨d, ds, hds⟩ := List.exists_cons_of_ne_nil (Nat.toDigits_ne_nil : Nat.toDigits 10 (n / 10) ≠ [])
      have hhead := ih (n / 10) (by omega) (by omega)
      rw [hds] at hhead
      rw [Nat.toDigits_of_base_le (by omega) (by omega), hds]
      exact hhead

/-- The digits read after a positive number are added to its own. -/
theorem toDigits_of_foldlM (hn : 0 < n) (h : cs.foldlM (appendDigit bound) n = .ok m) :
    Nat.toDigits 10 m = Nat.toDigits 10 n ++ cs := by
  induction cs generalizing n with
  | nil =>
    cases h
    simp
  | cons c cs ih =>
    rw [List.foldlM_cons] at h
    cases ha : appendDigit bound n c with
    | error e =>
      rw [ha] at h
      cases h
    | ok k =>
      rw [ha] at h
      obtain ⟨d, hd, rfl, rfl⟩ := appendDigit_eq_ok ha
      rw [ih (by omega) h, ← Nat.toDigits_append_toDigits (by omega) hn hd, Nat.toDigits_of_lt_base hd]
      simp

theorem toDigits_of_foldlM_zero (h : cs.foldlM (appendDigit bound) 0 = .ok m) : Nat.toDigits 10 m = stripZeros cs := by
  induction cs with
  | nil =>
    cases h
    rfl
  | cons c cs ih =>
    rw [List.foldlM_cons] at h
    cases ha : appendDigit bound 0 c with
    | error e =>
      rw [ha] at h
      cases h
    | ok k =>
      rw [ha] at h
      obtain ⟨d, hd, rfl, rfl⟩ := appendDigit_eq_ok ha
      rcases Nat.eq_zero_or_pos d with rfl | hpos
      · exact ih h
      · have hne := digitChar_ne_zero d hd hpos
        rw [toDigits_of_foldlM (by omega) h, Nat.mul_zero, Nat.zero_add, Nat.toDigits_of_lt_base hd, stripZeros,
          List.dropWhile_cons_of_neg (by simp [hne])]
        rfl

/-- A number that was read is shown in its shortest form. -/
theorem toString_of_parseNatural {s : String} (h : parseNatural bound s = .ok m) : toString m = canonical s := by
  have hdigits : Nat.toDigits 10 m = stripZeros (match s.toList with
      | '+' :: cs => cs
      | cs => cs) := by
    unfold parseNatural at h
    split at h
    · cases h
    · rename_i c cs hs
      rw [hs]
      exact toDigits_of_foldlM_zero h
    · rename_i hs
      split
      · rename_i cs hplus
        cases cs with
        | nil =>
          rw [hplus] at h
          cases h
        | cons c cs => exact absurd hplus (hs c cs)
      · exact toDigits_of_foldlM_zero h
  rw [canonical, ← hdigits, ← Nat.toList_repr]
  exact (String.ofList_toList).symm

/-! ## Shown numbers are read -/

theorem digitValue?_digitChar : ∀ d < 10, digitValue? d.digitChar = some d := by decide

/-- The digits of a number below the bound are read as that number. -/
theorem foldlM_toDigits (hn : n < bound) : (Nat.toDigits 10 n).foldlM (appendDigit bound) 0 = .ok n := by
  induction n using Nat.strongRecOn with
  | ind n ih =>
    by_cases hlt : n < 10
    · rw [Nat.toDigits_of_lt_base hlt]
      simp [appendDigit, digitValue?_digitChar n hlt, hn]
    · rw [Nat.toDigits_of_base_le (by omega) (by omega), List.foldlM_append, ih (n / 10) (by omega) (by omega)]
      have hsum : n / 10 * 10 + n % 10 = n := by omega
      simp [bind, Except.bind, pure, Except.pure, appendDigit, digitValue?_digitChar (n % 10) (by omega), hsum, hn]

/-- A number below the bound is read from the text that shows it. -/
theorem parseNatural_toString (hn : n < bound) : parseNatural bound (toString n) = .ok n := by
  have hlist : (toString n).toList = Nat.toDigits 10 n := Nat.toList_repr
  obtain ⟨d, ds, hds⟩ := List.exists_cons_of_ne_nil (Nat.toDigits_ne_nil : Nat.toDigits 10 n ≠ [])
  have hplus : d ≠ '+' := by
    rintro rfl
    have hdigit := Nat.isDigit_of_mem_toDigits (b := 10) (n := n) (by omega) (by omega) (hds ▸ List.mem_cons_self ..)
    cases hdigit
  unfold parseNatural
  rw [hlist]
  split
  · rename_i hnil
    rw [hds] at hnil
    cases hnil
  · rename_i hplus'
    rw [hds] at hplus'
    exact absurd (List.cons.inj hplus').1 hplus
  · exact foldlM_toDigits hn

end Retrace.Text
