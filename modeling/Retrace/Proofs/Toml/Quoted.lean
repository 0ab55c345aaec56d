import Retrace.Toml.Written

/-!
# Written texts are read back

A text is written in one of six forms. Each reader, one for every kind of quotes, takes back the text from the forms
that use them.
-/

namespace Retrace.Toml

open Quoted

/-- What comes next does not start with `q`. -/
def Unlike (q : Char) (rest : List Char) : Prop := ∀ x, rest ≠ q :: x

theorem cons?_some (c : Char) (cs rest : List Char) : cons? (some c) (some (cs, rest)) = some (c :: cs, rest) := rfl

theorem isPlain_of_not_needsEscape {c : Char} (h : Written.needsEscape c = false) (hn : c ≠ '\n') : isPlain c = true := by
  simp only [Written.needsEscape, Bool.or_eq_false_iff, Bool.and_eq_false_iff, decide_eq_false_iff_not, bne_eq_false_iff_eq,
    beq_eq_false_iff_ne] at h
  simp only [isPlain, Bool.or_eq_true, Bool.and_eq_true, decide_eq_true_eq, bne_iff_ne]
  obtain ⟨h | h, hdel⟩ := h
  · exact Or.inr ⟨Char.not_lt.mp h, hdel⟩
  · exact absurd h hn

/-! ## One line -/

theorem basicBody_plain {c : Char} (hq : c ≠ '"') (hb : c ≠ '\\') (hp : isPlain c = true) (rest : List Char) :
    basicBody (c :: rest) = cons? (some c) (basicBody rest) := by
  rw [basicBody]
  all_goals simp_all

theorem literalBody_plain {c : Char} (hq : c ≠ '\'') (hp : isPlain c = true) (rest : List Char) :
    literalBody (c :: rest) = cons? (some c) (literalBody rest) := by
  rw [literalBody]
  all_goals simp_all

theorem basicBody_of_plain {cs : List Char} (h : ∀ c ∈ cs, c ≠ '"' ∧ c ≠ '\\' ∧ isPlain c = true) (rest : List Char) :
    basicBody (cs ++ '"' :: rest) = some (cs, rest) := by
  induction cs with
  | nil => simp [basicBody]
  | cons c cs ih =>
    obtain ⟨hq, hb, hp⟩ := h c (List.mem_cons_self ..)
    rw [List.cons_append, basicBody_plain hq hb hp, ih fun d hd => h d (List.mem_cons_of_mem c hd), cons?_some]

theorem literalBody_of_plain {cs : List Char} (h : ∀ c ∈ cs, c ≠ '\'' ∧ isPlain c = true) (rest : List Char) :
    literalBody (cs ++ '\'' :: rest) = some (cs, rest) := by
  induction cs with
  | nil => simp [literalBody]
  | cons c cs ih =>
    obtain ⟨hq, hp⟩ := h c (List.mem_cons_self ..)
    rw [List.cons_append, literalBody_plain hq hp, ih fun d hd => h d (List.mem_cons_of_mem c hd), cons?_some]

/-! ## Escapes -/

/-- A reader that knows the escapes. -/
structure Escaping (read : List Char → Option (List Char × List Char)) : Prop where
  plain : ∀ {c rest}, c ≠ '"' → c ≠ '\\' → isPlain c = true → read (c :: rest) = cons? (some c) (read rest)
  letter : ∀ {e c rest}, escaped? e = some c → read ('\\' :: e :: rest) = cons? (some c) (read rest)
  code : ∀ {a b c d : Char} {rest}, read ('\\' :: 'u' :: a :: b :: c :: d :: rest) = cons? (hexChar? [a, b, c, d]) (read rest)

theorem escaping_basicBody : Escaping basicBody where
  plain hq hb hp := basicBody_plain hq hb hp _
  letter {e c rest} h := by
    have hu : e ≠ 'u' := by rintro rfl; cases h
    have hU : e ≠ 'U' := by rintro rfl; cases h
    rw [basicBody, h]
    all_goals simp_all
  code := by simp [basicBody]

theorem escaping_multiBasicBody : Escaping (multiBasicBody false) where
  plain {c rest} hq hb hp := by
    have hn : c ≠ '\n' := by rintro rfl; cases hp
    have hr : c ≠ '\r' := by rintro rfl; cases hp
    rw [multiBasicBody]
    all_goals simp_all
  letter {e c rest} h := by
    have hu : e ≠ 'u' := by rintro rfl; cases h
    have hU : e ≠ 'U' := by rintro rfl; cases h
    have hline : startsNewline ((e :: rest).dropWhile isSpace) = false := by
      unfold escaped? at h
      split at h <;> first | rfl | cases h
    rw [multiBasicBody, h, hline]
    all_goals simp_all
  code := by simp [multiBasicBody]

/-- A character is read back from its escape. -/
theorem Escaping.escape {read : List Char → Option (List Char × List Char)} (h : Escaping read) {c : Char} (hq : c ≠ '"')
    (hn : c ≠ '\n') (rest : List Char) : read (Written.escape c ++ rest) = cons? (some c) (read rest) := by
  have hcode : ∀ n < 128, hexChar? ['0', '0', Written.hexDigit (n / 16), Written.hexDigit (n % 16)] = some (Char.ofNat n) := by
    decide
  unfold Written.escape
  split
  · subst_vars; exact h.letter rfl
  split
  · subst_vars; exact h.letter rfl
  split
  · subst_vars; exact h.letter rfl
  split
  · subst_vars; exact h.letter rfl
  split
  · subst_vars; exact h.letter rfl
  rename_i hb
  split
  · rename_i hc
    have hlt : c.toNat < 128 := by
      simp only [Written.needsEscape, Bool.or_eq_true, Bool.and_eq_true, decide_eq_true_eq, beq_iff_eq] at hc
      rcases hc with ⟨hc, -⟩ | rfl
      · have : c.toNat < 32 := hc
        omega
      · decide
    simp only [List.cons_append, List.nil_append]
    rw [h.code, hcode c.toNat hlt, Char.ofNat_toNat]
  · rename_i hc
    exact h.plain hq hb (isPlain_of_not_needsEscape (by simpa using hc) hn)

theorem basicBody_escapedBody (cs rest : List Char) : basicBody (Written.escapedBody cs ++ '"' :: rest) = some (cs, rest) := by
  induction cs with
  | nil => simp [Written.escapedBody, basicBody]
  | cons c cs ih =>
    rw [Written.escapedBody, List.append_assoc]
    split
    · subst_vars
      rw [List.cons_append, List.cons_append, List.nil_append, escaping_basicBody.letter (e := '"') (c := '"') rfl, ih,
        cons?_some]
    split
    · subst_vars
      rw [List.cons_append, List.cons_append, List.nil_append, escaping_basicBody.letter (e := 'n') (c := '\n') rfl, ih,
        cons?_some]
    · rename_i hq hn
      rw [escaping_basicBody.escape hq hn, ih, cons?_some]

/-! ## Several lines -/

/-- What a reader makes of quotes: three of them end the text, and up to two before these belong to it. -/
structure Quoting (q : Char) (read : List Char → Option (List Char × List Char)) : Prop where
  five : ∀ {rest}, read (q :: q :: q :: q :: q :: rest) = some ([q, q], rest)
  four : ∀ {rest}, Unlike q rest → read (q :: q :: q :: q :: rest) = some ([q], rest)
  three : ∀ {rest}, Unlike q rest → read (q :: q :: q :: rest) = some ([], rest)
  one : ∀ {rest}, (∀ x, rest ≠ q :: q :: x) → read (q :: rest) = cons? (some q) (read rest)

theorem quoting_multiBasicBody : Quoting '"' (multiBasicBody false) where
  five := by simp [multiBasicBody]
  four {rest} h := by
    rw [multiBasicBody]
    all_goals simp_all [Unlike]
  three {rest} h := by
    rw [multiBasicBody]
    all_goals simp_all [Unlike]
  one {rest} h := by
    have hp : isPlain '"' = true := rfl
    rw [multiBasicBody]
    all_goals simp_all

theorem quoting_multiLiteralBody : Quoting '\'' multiLiteralBody where
  five := by simp [multiLiteralBody]
  four {rest} h := by
    rw [multiLiteralBody]
    all_goals simp_all [Unlike]
  three {rest} h := by
    rw [multiLiteralBody]
    all_goals simp_all [Unlike]
  one {rest} h := by
    have hp : isPlain '\'' = true := rfl
    rw [multiLiteralBody]
    all_goals simp_all

/-- A text with its written body, of which the reader makes one character after another. Before it stand `run` quotes,
and there are never three of them in a row. -/
inductive Body (q : Char) (read : List Char → Option (List Char × List Char)) : Nat → List Char → List Char → Prop where
  | nil {run : Nat} : Body q read run [] []
  | quote {run : Nat} {cs body : List Char} (hr : run < 2) (h : Body q read (run + 1) cs body) :
    Body q read run (q :: cs) (q :: body)
  | other {run : Nat} {c d : Char} {cs body : List Char} (piece : List Char) (hd : d ≠ q)
    (hp : ∀ rest, read (d :: piece ++ rest) = cons? (some c) (read rest)) (h : Body q read 0 cs body) :
    Body q read run (c :: cs) (d :: piece ++ body)

variable {q : Char} {read : List Char → Option (List Char × List Char)}

/-- The quotes at the front of a body are followed by something else, unless the body ends with them. -/
theorem Body.cases_quote {run : Nat} {cs body : List Char} (h : Body q read run cs body) (hr : 0 < run) :
    (cs = [] ∧ body = []) ∨ (run < 2 ∧ cs = [q] ∧ body = [q]) ∨
      ∃ d more, d ≠ q ∧ (body = d :: more ∨ body = q :: d :: more) := by
  cases h with
  | nil => exact Or.inl ⟨rfl, rfl⟩
  | quote hr' h =>
    cases h with
    | nil => exact Or.inr (Or.inl ⟨hr', rfl, rfl⟩)
    | quote hr'' => omega
    | other piece hd => exact Or.inr (Or.inr ⟨_, _, hd, Or.inr rfl⟩)
  | other piece hd => exact Or.inr (Or.inr ⟨_, _, hd, Or.inl rfl⟩)

/-- A body between its quotes is read back. -/
theorem Quoting.read_body (hq : Quoting q read) {rest : List Char} (hrest : Unlike q rest) {run : Nat} {cs body : List Char}
    (h : Body q read run cs body) : read (body ++ q :: q :: q :: rest) = some (cs, rest) := by
  induction h with
  | nil => exact hq.three hrest
  | @quote run cs body hr h ih =>
    rcases h.cases_quote (Nat.succ_pos run) with ⟨rfl, rfl⟩ | ⟨-, rfl, rfl⟩ | ⟨d, more, hd, rfl | rfl⟩
    · exact hq.four hrest
    · exact hq.five
    · rw [List.cons_append, hq.one (by simp [hd]), ih, cons?_some]
    · rw [List.cons_append, hq.one (by simp [hd]), ih, cons?_some]
  | other piece hd hp h ih => rw [List.append_assoc, hp, ih, cons?_some]

theorem le_longestRun (q : Char) (run : Nat) (cs : List Char) : run ≤ Written.longestRun q run cs := by
  induction cs generalizing run with
  | nil => exact Nat.le_refl run
  | cons c cs ih =>
    rw [Written.longestRun]
    split
    · exact Nat.le_trans (Nat.le_succ run) (ih (run + 1))
    · exact Nat.le_max_left _ _

/-- A text is its own body when the reader takes its characters as they are and no three quotes come in a row. -/
theorem Body.of_longestRun {cs : List Char} {run : Nat} (hrun : Written.longestRun q run cs ≤ 2)
    (h : ∀ c ∈ cs, c ≠ q → ∀ rest, read (c :: rest) = cons? (some c) (read rest)) : Body q read run cs cs := by
  induction cs generalizing run with
  | nil => exact .nil
  | cons c cs ih =>
    have ih := fun {run} hr => @ih run hr fun d hd => h d (List.mem_cons_of_mem c hd)
    rw [Written.longestRun] at hrun
    split at hrun
    · subst_vars
      exact .quote (Nat.le_trans (le_longestRun c (run + 1) cs) hrun) (ih hrun)
    · rename_i hc
      exact .other [] hc (h c (List.mem_cons_self ..) hc) (ih (Nat.le_trans (Nat.le_max_right _ _) hrun))

theorem multiBasicBody_newline (rest : List Char) :
    multiBasicBody false ('\n' :: rest) = cons? (some '\n') (multiBasicBody false rest) := by
  simp [multiBasicBody]

theorem multiLiteralBody_newline (rest : List Char) :
    multiLiteralBody ('\n' :: rest) = cons? (some '\n') (multiLiteralBody rest) := by
  simp [multiLiteralBody]

theorem multiLiteralBody_plain {c : Char} (hq : c ≠ '\'') (hp : isPlain c = true) (rest : List Char) :
    multiLiteralBody (c :: rest) = cons? (some c) (multiLiteralBody rest) := by
  have hn : c ≠ '\n' := by rintro rfl; cases hp
  have hr : c ≠ '\r' := by rintro rfl; cases hp
  rw [multiLiteralBody]
  all_goals simp_all

theorem escape_eq_cons {c : Char} (hq : c ≠ '"') : ∃ d piece, Written.escape c = d :: piece ∧ d ≠ '"' := by
  unfold Written.escape
  repeat' split
  all_goals exact ⟨_, _, rfl, by first | decide | exact hq⟩

theorem escapedBody_eq_cons {cs : List Char} (h : cs ≠ []) : ∃ d body, Written.escapedBody cs = d :: body ∧ d ≠ '"' := by
  cases cs with
  | nil => exact absurd rfl h
  | cons c cs =>
    rw [Written.escapedBody]
    split
    · exact ⟨_, _, rfl, by decide⟩
    split
    · exact ⟨_, _, rfl, by decide⟩
    · rename_i hc _
      obtain ⟨d, piece, he, hd⟩ := escape_eq_cons hc
      exact ⟨d, piece ++ Written.escapedBody cs, by rw [he]; rfl, hd⟩

theorem body_multiEscapedBody (cs : List Char) {run : Nat} (hrun : run ≤ 2) :
    Body '"' (multiBasicBody false) run cs (Written.multiEscapedBody run cs) := by
  induction cs generalizing run with
  | nil => exact .nil
  | cons c cs ih =>
    rw [Written.multiEscapedBody]
    split
    · subst_vars
      split
      · exact .other ['"'] (by decide) (fun rest => escaping_multiBasicBody.letter rfl) (ih (Nat.zero_le _))
      · exact .quote (by omega) (ih (by omega))
    split
    · subst_vars
      exact .other [] (by decide) (fun rest => multiBasicBody_newline rest) (ih (Nat.zero_le _))
    · rename_i hq hn
      obtain ⟨d, piece, he, hd⟩ := escape_eq_cons hq
      have hp := escaping_multiBasicBody.escape hq hn
      rw [he] at hp ⊢
      exact .other piece hd hp (ih (Nat.zero_le _))

/-! ## All forms -/

/-- The newline after the opening quotes is left out, and no other is. -/
theorem dropNewline_opening {cs body : List Char} (h : '\n' ∉ cs → Unlike '\n' body ∧ Unlike '\r' body) :
    dropNewline (Written.opening cs ++ body) = body := by
  by_cases hn : '\n' ∈ cs
  · simp [Written.opening, hn, dropNewline]
  · obtain ⟨h1, h2⟩ := h hn
    simp only [Written.opening, List.contains_iff_mem, hn, if_false, List.nil_append]
    cases body with
    | nil => rfl
    | cons c body =>
      have hc1 : c ≠ '\n' := fun hc => h1 body (by rw [hc])
      have hc2 : c ≠ '\r' := fun hc => h2 body (by rw [hc])
      unfold dropNewline
      split <;> simp_all

theorem text_quote {rest : List Char} (h : ∀ x, rest ≠ '"' :: '"' :: x) : text ('"' :: rest) = basicBody rest := by
  rw [text]
  · rfl
  all_goals simp_all

theorem text_mark {rest : List Char} (h : ∀ x, rest ≠ '\'' :: '\'' :: x) : text ('\'' :: rest) = literalBody rest := by
  rw [text]
  · rfl
  all_goals simp_all

/-- What a form asks of a text. -/
def Suits (cs : List Char) : Written.Form → Prop
  | .basic => ∀ c ∈ cs, c ≠ '"' ∧ c ≠ '\\' ∧ isPlain c = true
  | .literal => cs ≠ [] ∧ ∀ c ∈ cs, c ≠ '\'' ∧ isPlain c = true
  | .multiBasic => (∀ c ∈ cs, Written.needsEscape c = false ∧ c ≠ '\\') ∧ Written.longestRun '"' 0 cs ≤ 2
  | .multiLiteral => (∀ c ∈ cs, Written.needsEscape c = false) ∧ Written.longestRun '\'' 0 cs ≤ 2
  | .escaped => cs ≠ []
  | .multiEscaped => '\n' ∈ cs

theorem suits_form (cs : List Char) : Suits cs (Written.form cs) := by
  have hcodes : (cs.any Written.needsEscape) = false → ∀ c ∈ cs, Written.needsEscape c = false := fun h c hc => by
    simpa using List.any_eq_false.mp h c hc
  have hplain : (cs.any Written.needsEscape) = false → '\n' ∉ cs → ∀ c ∈ cs, isPlain c = true := fun h hn c hc =>
    isPlain_of_not_needsEscape (hcodes h c hc) fun he => hn (he ▸ hc)
  rw [Written.form]
  split
  · rename_i h
    simp only [Bool.and_eq_true, Bool.not_eq_true', List.contains_eq_mem, decide_eq_false_iff_not] at h
    obtain ⟨⟨⟨hc, hs⟩, hn⟩, hq⟩ := h
    exact fun c hm => ⟨fun he => hq (he ▸ hm), fun he => hs (he ▸ hm), hplain hc hn c hm⟩
  rename_i hbasic
  have hne : cs ≠ [] := by rintro rfl; exact hbasic rfl
  split
  · rename_i h
    simp only [Bool.and_eq_true, Bool.not_eq_true', List.contains_eq_mem, decide_eq_false_iff_not] at h
    obtain ⟨⟨hc, hn⟩, hm⟩ := h
    exact ⟨hne, fun c hmem => ⟨fun he => hm (he ▸ hmem), hplain hc hn c hmem⟩⟩
  split
  · rename_i h
    simp only [Bool.and_eq_true, Bool.not_eq_true', List.contains_eq_mem, decide_eq_false_iff_not, decide_eq_true_eq] at h
    obtain ⟨⟨hc, hs⟩, hr⟩ := h
    exact ⟨fun c hm => ⟨hcodes hc c hm, fun he => hs (he ▸ hm)⟩, hr⟩
  split
  · rename_i h
    simp only [Bool.and_eq_true, Bool.not_eq_true', decide_eq_true_eq] at h
    exact ⟨hcodes h.1, h.2⟩
  split
  · rename_i h
    simpa [Suits] using h
  · exact hne

/-- A text over several lines without escapes begins with a newline only if it has one. -/
theorem unlike_newline {cs rest : List Char} (h : ∀ c ∈ cs, Written.needsEscape c = false) {q : Char} (hq : q ≠ '\n')
    (hr : q ≠ '\r') (hn : '\n' ∉ cs) : Unlike '\n' (cs ++ q :: rest) ∧ Unlike '\r' (cs ++ q :: rest) := by
  cases cs with
  | nil => simp [Unlike, hq, hr]
  | cons c cs =>
    have hc : c ≠ '\r' := by
      rintro rfl
      cases h '\r' (List.mem_cons_self ..)
    simp only [List.mem_cons, not_or] at hn
    simp [Unlike, Ne.symm hn.1, hc]

/-- A written text is read back, whatever follows it except another quote. -/
theorem text_written (cs : List Char) {rest : List Char} (hq : Unlike '"' rest) (hm : Unlike '\'' rest) :
    text (Written.text cs ++ rest) = some (cs, rest) := by
  have hform := suits_form cs
  rw [Written.text]
  generalize Written.form cs = f at hform
  cases f with
  | basic =>
    simp only [List.cons_append, List.append_assoc, List.nil_append]
    rw [text_quote, basicBody_of_plain hform]
    intro x hx
    cases cs with
    | nil => exact hq x (List.cons.inj hx).2
    | cons c cs => exact (hform c (List.mem_cons_self ..)).1 (List.cons.inj hx).1
  | literal =>
    simp only [List.cons_append, List.append_assoc, List.nil_append]
    rw [text_mark, literalBody_of_plain hform.2]
    intro x hx
    cases cs with
    | nil => exact hform.1 rfl
    | cons c cs => exact (hform.2 c (List.mem_cons_self ..)).1 (List.cons.inj hx).1
  | multiBasic =>
    simp only [Written.threeQuotes, List.cons_append, List.append_assoc, List.nil_append]
    rw [text, dropNewline_opening fun hn => unlike_newline (fun c hc => (hform.1 c hc).1) (by decide) (by decide) hn]
    refine quoting_multiBasicBody.read_body hq (.of_longestRun hform.2 fun c hc hne rest => ?_)
    by_cases hn : c = '\n'
    · subst hn
      exact multiBasicBody_newline rest
    · exact escaping_multiBasicBody.plain hne (hform.1 c hc).2 (isPlain_of_not_needsEscape (hform.1 c hc).1 hn)
  | multiLiteral =>
    simp only [Written.threeMarks, List.cons_append, List.append_assoc, List.nil_append]
    rw [text, dropNewline_opening fun hn => unlike_newline hform.1 (by decide) (by decide) hn]
    refine quoting_multiLiteralBody.read_body hm (.of_longestRun hform.2 fun c hc hne rest => ?_)
    by_cases hn : c = '\n'
    · subst hn
      exact multiLiteralBody_newline rest
    · exact multiLiteralBody_plain hne (isPlain_of_not_needsEscape (hform.1 c hc) hn) rest
  | escaped =>
    simp only [List.cons_append, List.append_assoc, List.nil_append]
    rw [text_quote, basicBody_escapedBody]
    intro x hx
    obtain ⟨d, body, he, hd⟩ := escapedBody_eq_cons hform
    rw [he] at hx
    exact hd (List.cons.inj hx).1
  | multiEscaped =>
    simp only [Written.threeQuotes, List.cons_append, List.append_assoc, List.nil_append]
    rw [text, dropNewline_opening fun hn => absurd hform hn]
    exact quoting_multiBasicBody.read_body hq (body_multiEscapedBody cs (Nat.zero_le _))

end Retrace.Toml
