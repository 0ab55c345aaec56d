import Retrace.Text.Utf8

/-!
# Texts and their bytes

The bytes of a text are read back as the text, and bytes that are read as a text are its bytes.
-/

namespace Retrace.Utf8

theorem toNat_byte {n : Nat} (h : n < 256) : (UInt8.ofNat n).toNat = n := by
  rw [UInt8.toNat_ofNat', Nat.mod_eq_of_lt h]

theorem toNat_ofNat_char {n : Nat} (h : n.isValidChar) : (Char.ofNat n).toNat = n := by
  rw [Char.ofNat, dif_pos h]
  rfl

theorem char_valid (c : Char) : c.toNat < 0xD800 ∨ 0xDFFF < c.toNat ∧ c.toNat < 0x110000 := c.valid

/-! ## Reading the bytes of a text -/

section
variable {done : List Piece} {n : Nat} {d : Decoder}

theorem feed_lead (hn : n < 256) (h : Decoder.lead n = some d) (hd : d.owed ≠ 0) :
    feed (.between, done) (UInt8.ofNat n) = (d, done) := by
  simp [feed, toNat_byte hn, Decoder.between, begin, h, hd]

theorem feed_more (hn : n < 256) (hd : 1 < d.owed) (hr : d.low ≤ n ∧ n ≤ d.high) :
    feed (d, done) (UInt8.ofNat n) = (⟨d.owed - 1, d.value * 64 + (n - 0x80), 0x80, 0xBF⟩, done) := by
  simp [feed, toNat_byte hn, hr, Nat.ne_of_gt hd, Nat.ne_of_gt (Nat.lt_trans Nat.zero_lt_one hd)]

theorem feed_last (hn : n < 256) (hd : d.owed = 1) (hr : d.low ≤ n ∧ n ≤ d.high) :
    feed (d, done) (UInt8.ofNat n) = (.between, some (Char.ofNat (d.value * 64 + (n - 0x80))) :: done) := by
  simp [feed, toNat_byte hn, hr, hd]

end

/-- The first of two, three or four bytes, and which second bytes it allows. -/
theorem lead_two {x : Nat} (h : 2 ≤ x ∧ x ≤ 31) : Decoder.lead (0xC0 + x) = some ⟨1, x, 0x80, 0xBF⟩ := by
  rw [Decoder.lead, if_neg (by omega), if_pos (by omega), Nat.add_sub_cancel_left]

theorem lead_three {x : Nat} (h : x ≤ 15) : Decoder.lead (0xE0 + x) =
    some ⟨2, x, if x = 0 then 0xA0 else 0x80, if x = 13 then 0x9F else 0xBF⟩ := by
  rw [Decoder.lead, if_neg (by omega), if_neg (by omega)]
  by_cases h0 : x = 0
  · simp [h0]
  by_cases h13 : x = 13
  · simp [h13]
  rw [if_neg (by omega), if_neg (by omega), if_pos (by omega), if_neg h0, if_neg h13, Nat.add_sub_cancel_left]

theorem lead_four {x : Nat} (h : x ≤ 4) : Decoder.lead (0xF0 + x) =
    some ⟨3, x, if x = 0 then 0x90 else 0x80, if x = 4 then 0x8F else 0xBF⟩ := by
  rw [Decoder.lead, if_neg (by omega), if_neg (by omega), if_neg (by omega), if_neg (by omega), if_neg (by omega)]
  by_cases h0 : x = 0
  · simp [h0]
  by_cases h4 : x = 4
  · simp [h4]
  rw [if_neg (by omega), if_pos (by omega), if_neg h0, if_neg h4, Nat.add_sub_cancel_left]

/-- The bytes of a character are read as the character. -/
theorem foldl_feed_encodeChar (c : Char) (done : List Piece) :
    (encodeChar c).foldl feed (.between, done) = (.between, some c :: done) := by
  have hv := char_valid c
  have hc : ∀ n, n = c.toNat → Char.ofNat n = c := fun n hn => hn ▸ Char.ofNat_toNat c
  unfold encodeChar
  extract_lets v
  have hv : v < 0xD800 ∨ 0xDFFF < v ∧ v < 0x110000 := hv
  have hc : ∀ n, n = v → Char.ofNat n = c := hc
  clear_value v
  split
  · rename_i h1
    simp [feed, toNat_byte (show v < 256 by omega), begin, Decoder.lead, Decoder.between, h1, hc v rfl]
  split
  · rw [List.foldl_cons, feed_lead (by omega) (lead_two (by omega)) (by simp), List.foldl_cons,
      feed_last (by omega) rfl (by dsimp only; omega), List.foldl_nil, hc]
    dsimp only
    omega
  split
  · rw [List.foldl_cons, feed_lead (by omega) (lead_three (by omega)) (by simp), List.foldl_cons,
      feed_more (by omega) (by simp) (by dsimp only; split <;> split <;> omega), List.foldl_cons,
      feed_last (by omega) rfl (by dsimp only; omega), List.foldl_nil, hc]
    dsimp only
    omega
  · rw [List.foldl_cons, feed_lead (by omega) (lead_four (by omega)) (by simp), List.foldl_cons,
      feed_more (by omega) (by simp) (by dsimp only; split <;> split <;> omega), List.foldl_cons,
      feed_more (by omega) (by simp) (by dsimp only; omega), List.foldl_cons,
      feed_last (by omega) rfl (by dsimp only; omega), List.foldl_nil, hc]
    dsimp only
    omega

theorem foldl_feed_encode (cs : List Char) (done : List Piece) :
    (cs.flatMap encodeChar).foldl feed (.between, done) = (.between, (cs.map some).reverse ++ done) := by
  induction cs generalizing done with
  | nil => rfl
  | cons c cs ih =>
    rw [List.flatMap_cons, List.foldl_append, foldl_feed_encodeChar, ih]
    simp

theorem pieces_encode (s : String) : pieces (encode s) = s.toList.map some := by
  rw [pieces, encode, foldl_feed_encode]
  simp [finish, Decoder.between]

@[simp] theorem decode?_encode (s : String) : decode? (encode s) = some s := by
  simp [decode?, pieces_encode]

/-! ## Bytes that are read as a text -/

/-- The bytes that a character has begun with when the decoder stands inside it. -/
inductive Begun : Decoder → Bytes → Prop where
  | between : Begun .between []
  | two {x : Nat} (hx : 2 ≤ x ∧ x ≤ 31) : Begun ⟨1, x, 0x80, 0xBF⟩ [.ofNat (0xC0 + x)]
  | three {x : Nat} (hx : x ≤ 15) :
    Begun ⟨2, x, if x = 0 then 0xA0 else 0x80, if x = 13 then 0x9F else 0xBF⟩ [.ofNat (0xE0 + x)]
  | threeMore {x : Nat} (hx : 32 ≤ x ∧ x < 1024 ∧ (x < 864 ∨ 895 < x)) :
    Begun ⟨1, x, 0x80, 0xBF⟩ [.ofNat (0xE0 + x / 64), .ofNat (0x80 + x % 64)]
  | four {x : Nat} (hx : x ≤ 4) :
    Begun ⟨3, x, if x = 0 then 0x90 else 0x80, if x = 4 then 0x8F else 0xBF⟩ [.ofNat (0xF0 + x)]
  | fourMore {x : Nat} (hx : 16 ≤ x ∧ x < 272) :
    Begun ⟨2, x, 0x80, 0xBF⟩ [.ofNat (0xF0 + x / 64), .ofNat (0x80 + x % 64)]
  | fourLast {x : Nat} (hx : 1024 ≤ x ∧ x < 17408) :
    Begun ⟨1, x, 0x80, 0xBF⟩ [.ofNat (0xF0 + x / 4096), .ofNat (0x80 + x / 64 % 64), .ofNat (0x80 + x % 64)]

theorem encodeChar_ofNat {n : Nat} (h : n.isValidChar) : encodeChar (Char.ofNat n) =
    if n < 0x80 then [.ofNat n]
    else if n < 0x800 then [.ofNat (0xC0 + n / 64), .ofNat (0x80 + n % 64)]
    else if n < 0x10000 then [.ofNat (0xE0 + n / 4096), .ofNat (0x80 + n / 64 % 64), .ofNat (0x80 + n % 64)]
    else [.ofNat (0xF0 + n / 262144), .ofNat (0x80 + n / 4096 % 64), .ofNat (0x80 + n / 64 % 64), .ofNat (0x80 + n % 64)] := by
  simp only [encodeChar, toNat_ofNat_char h]

theorem lead_cases (n : Nat) : Decoder.lead n = none ∨ n < 0x80 ∨ (∃ x, n = 0xC0 + x ∧ 2 ≤ x ∧ x ≤ 31) ∨
    (∃ x, n = 0xE0 + x ∧ x ≤ 15) ∨ ∃ x, n = 0xF0 + x ∧ x ≤ 4 := by
  by_cases h : n < 0xC2 ∨ 0xF4 < n
  · by_cases h1 : n < 0x80
    · exact Or.inr (Or.inl h1)
    · left
      simp only [Decoder.lead]
      repeat rw [if_neg (by omega)]
  · by_cases h2 : n ≤ 0xDF
    · exact Or.inr (Or.inr (Or.inl ⟨n - 0xC0, by omega, by omega, by omega⟩))
    by_cases h3 : n ≤ 0xEF
    · exact Or.inr (Or.inr (Or.inr (Or.inl ⟨n - 0xE0, by omega, by omega⟩)))
    · exact Or.inr (Or.inr (Or.inr (Or.inr ⟨n - 0xF0, by omega, by omega⟩)))

theorem begin_grows (n : Nat) (done : List Piece) : ∃ d more, begin n done = (d, more ++ done) := by
  unfold begin
  split
  · exact ⟨_, [none], rfl⟩
  · split
    · exact ⟨_, [some _], rfl⟩
    · exact ⟨_, [], rfl⟩

theorem feed_grows (d : Decoder) (done : List Piece) (b : UInt8) : ∃ d' more, feed (d, done) b = (d', more ++ done) := by
  simp only [feed]
  split
  · exact begin_grows _ _
  split
  · split
    · exact ⟨_, [some _], rfl⟩
    · exact ⟨_, [], rfl⟩
  · obtain ⟨d', more, h⟩ := begin_grows b.toNat (none :: done)
    exact ⟨d', more ++ [none], by simp [h]⟩

/-- A byte out of range is malformed together with those before it. -/
theorem feed_malformed {d : Decoder} (hd : d.owed ≠ 0) {n : Nat} (hn : n < 256) (hr : ¬(d.low ≤ n ∧ n ≤ d.high))
    (done : List Piece) : ∃ d' more, feed (d, done) (.ofNat n) = (d', more ++ none :: done) := by
  obtain ⟨d', more, hb⟩ := begin_grows n (none :: done)
  exact ⟨d', more, by simp [feed, toNat_byte hn, hd, hr, hb]⟩

/-- A first byte: a character, the first of more bytes, or malformed. -/
theorem feed_between {n : Nat} (hn : n < 256) (done : List Piece) :
    (∃ d', Begun d' [.ofNat n] ∧ feed (.between, done) (.ofNat n) = (d', done)) ∨
      (∃ c, encodeChar c = [.ofNat n] ∧ feed (.between, done) (.ofNat n) = (.between, some c :: done)) ∨
      feed (.between, done) (.ofNat n) = (.between, none :: done) := by
  rcases lead_cases n with hl | hl | ⟨x, rfl, hx⟩ | ⟨x, rfl, hx⟩ | ⟨x, rfl, hx⟩
  · right; right
    simp [feed, toNat_byte hn, Decoder.between, begin, hl]
  · refine Or.inr (Or.inl ⟨Char.ofNat n, ?_, ?_⟩)
    · rw [encodeChar_ofNat (Or.inl (by omega)), if_pos hl]
    · simp [feed, toNat_byte hn, Decoder.between, begin, Decoder.lead, hl]
  · exact Or.inl ⟨_, .two hx, feed_lead hn (lead_two hx) (by simp)⟩
  · exact Or.inl ⟨_, .three hx, feed_lead hn (lead_three hx) (by simp)⟩
  · exact Or.inl ⟨_, .four hx, feed_lead hn (lead_four hx) (by simp)⟩

/-- One byte more: inside the character still, at its end, or malformed. -/
theorem feed_cases {d : Decoder} {before : Bytes} (h : Begun d before) (done : List Piece) (b : UInt8) :
    (∃ d', Begun d' (before ++ [b]) ∧ feed (d, done) b = (d', done)) ∨
      (∃ c, encodeChar c = before ++ [b] ∧ feed (d, done) b = (.between, some c :: done)) ∨
      ∃ d' more, feed (d, done) b = (d', more ++ none :: done) := by
  obtain ⟨n, hn, rfl⟩ : ∃ n, n < 256 ∧ b = UInt8.ofNat n := ⟨b.toNat, b.toNat_lt, UInt8.ofNat_toNat.symm⟩
  by_cases hr : d.owed ≠ 0 ∧ ¬(d.low ≤ n ∧ n ≤ d.high)
  · exact Or.inr (Or.inr (feed_malformed hr.1 hn hr.2 done))
  have hin : d.owed ≠ 0 → d.low ≤ n ∧ n ≤ d.high := fun hd => Classical.not_not.mp fun h => hr ⟨hd, h⟩
  clear hr
  cases h with
  | between =>
    rcases feed_between hn done with hmore | hdone | hbad
    · exact Or.inl hmore
    · exact Or.inr (Or.inl hdone)
    · exact Or.inr (Or.inr ⟨_, [], hbad⟩)
  | @two x hx =>
    obtain ⟨hlo, hhi⟩ := hin (by simp)
    dsimp only at hlo hhi
    refine Or.inr (Or.inl ⟨_, ?_, feed_last hn rfl ⟨hlo, hhi⟩⟩)
    rw [encodeChar_ofNat (Or.inl (by dsimp only; omega)), if_neg (by dsimp only; omega), if_pos (by dsimp only; omega)]
    rw [show (x * 64 + (n - 0x80)) / 64 = x by omega, show 0x80 + (x * 64 + (n - 0x80)) % 64 = n by omega]
    rfl
  | @three x hx =>
    obtain ⟨hlo, hhi⟩ := hin (by simp)
    have hin := @feed_more done n ⟨2, x, if x = 0 then 0xA0 else 0x80, if x = 13 then 0x9F else 0xBF⟩ hn
      (by simp) ⟨hlo, hhi⟩
    dsimp only at hlo hhi
    refine Or.inl ⟨_, ?_, hin⟩
    have hy : 32 ≤ x * 64 + (n - 0x80) ∧ x * 64 + (n - 0x80) < 1024 ∧
        (x * 64 + (n - 0x80) < 864 ∨ 895 < x * 64 + (n - 0x80)) := by
      split at hlo <;> split at hhi <;> omega
    have hn' : 0x80 ≤ n ∧ n ≤ 0xBF := by split at hlo <;> split at hhi <;> omega
    have hbegun := Begun.threeMore hy
    rw [show (x * 64 + (n - 0x80)) / 64 = x by omega, show 0x80 + (x * 64 + (n - 0x80)) % 64 = n by omega] at hbegun
    exact hbegun
  | @threeMore x hx =>
    obtain ⟨hlo, hhi⟩ := hin (by simp)
    dsimp only at hlo hhi
    refine Or.inr (Or.inl ⟨_, ?_, feed_last hn rfl ⟨hlo, hhi⟩⟩)
    rw [encodeChar_ofNat (by simp only [Nat.isValidChar]; omega), if_neg (by dsimp only; omega),
      if_neg (by dsimp only; omega), if_pos (by dsimp only; omega)]
    rw [show (x * 64 + (n - 0x80)) / 4096 = x / 64 by omega, show (x * 64 + (n - 0x80)) / 64 = x by omega,
      show 0x80 + (x * 64 + (n - 0x80)) % 64 = n by omega]
    rfl
  | @four x hx =>
    obtain ⟨hlo, hhi⟩ := hin (by simp)
    have hin := @feed_more done n ⟨3, x, if x = 0 then 0x90 else 0x80, if x = 4 then 0x8F else 0xBF⟩ hn
      (by simp) ⟨hlo, hhi⟩
    dsimp only at hlo hhi
    refine Or.inl ⟨_, ?_, hin⟩
    have hy : 16 ≤ x * 64 + (n - 0x80) ∧ x * 64 + (n - 0x80) < 272 := by
      split at hlo <;> split at hhi <;> omega
    have hn' : 0x80 ≤ n ∧ n ≤ 0xBF := by split at hlo <;> split at hhi <;> omega
    have hbegun := Begun.fourMore hy
    rw [show (x * 64 + (n - 0x80)) / 64 = x by omega, show 0x80 + (x * 64 + (n - 0x80)) % 64 = n by omega] at hbegun
    exact hbegun
  | @fourMore x hx =>
    obtain ⟨hlo, hhi⟩ := hin (by simp)
    have hin := @feed_more done n ⟨2, x, 0x80, 0xBF⟩ hn (by simp) ⟨hlo, hhi⟩
    dsimp only at hlo hhi
    refine Or.inl ⟨_, ?_, hin⟩
    have hbegun := Begun.fourLast (x := x * 64 + (n - 0x80)) (by omega)
    rw [show (x * 64 + (n - 0x80)) / 4096 = x / 64 by omega, show (x * 64 + (n - 0x80)) / 64 = x by omega,
      show 0x80 + (x * 64 + (n - 0x80)) % 64 = n by omega] at hbegun
    exact hbegun
  | @fourLast x hx =>
    obtain ⟨hlo, hhi⟩ := hin (by simp)
    dsimp only at hlo hhi
    refine Or.inr (Or.inl ⟨_, ?_, feed_last hn rfl ⟨hlo, hhi⟩⟩)
    rw [encodeChar_ofNat (by simp only [Nat.isValidChar]; omega), if_neg (by dsimp only; omega),
      if_neg (by dsimp only; omega), if_neg (by dsimp only; omega)]
    rw [show (x * 64 + (n - 0x80)) / 262144 = x / 4096 by omega, show (x * 64 + (n - 0x80)) / 4096 = x / 64 by omega,
      show (x * 64 + (n - 0x80)) / 64 = x by omega, show 0x80 + (x * 64 + (n - 0x80)) % 64 = n by omega]
    rfl

theorem foldl_feed_grows (bs : Bytes) (d : Decoder) (done : List Piece) :
    ∃ d' more, bs.foldl feed (d, done) = (d', more ++ done) := by
  induction bs generalizing d done with
  | nil => exact ⟨d, [], rfl⟩
  | cons b bs ih =>
    obtain ⟨d', more, h⟩ := feed_grows d done b
    obtain ⟨e, later, he⟩ := ih d' (more ++ done)
    exact ⟨e, later ++ more, by rw [List.foldl_cons, h, he, List.append_assoc]⟩

/-- Bytes of which none is malformed are those of the characters read, and of one that has begun. -/
theorem foldl_feed_cases (bs : Bytes) : ∀ (cs : List Char) {d : Decoder} {before : Bytes}, Begun d before →
    none ∈ (bs.foldl feed (d, (cs.map some).reverse)).2 ∨
      ∃ (d' : Decoder) (cs' : List Char) (before' : Bytes),
        bs.foldl feed (d, (cs.map some).reverse) = (d', (cs'.map some).reverse) ∧ Begun d' before' ∧
          cs'.flatMap encodeChar ++ before' = cs.flatMap encodeChar ++ before ++ bs := by
  induction bs with
  | nil => exact fun cs d before h => Or.inr ⟨d, cs, before, rfl, h, by simp⟩
  | cons b bs ih =>
    intro cs d before h
    rw [List.foldl_cons]
    rcases feed_cases h (cs.map some).reverse b with ⟨d', hd', hf⟩ | ⟨c, hc, hf⟩ | ⟨d', more, hf⟩
    · rw [hf]
      rcases ih cs hd' with hn | ⟨e, cs', before', he, hb, heq⟩
      · exact Or.inl hn
      · exact Or.inr ⟨e, cs', before', he, hb, by simpa using heq⟩
    · have hcs : some c :: (cs.map some).reverse = ((cs ++ [c]).map some).reverse := by simp
      rw [hf, hcs]
      rcases ih (cs ++ [c]) .between with hn | ⟨e, cs', before', he, hb, heq⟩
      · exact Or.inl hn
      · refine Or.inr ⟨e, cs', before', he, hb, ?_⟩
        rw [heq]
        simp [hc]
    · left
      rw [hf]
      obtain ⟨e, later, he⟩ := foldl_feed_grows bs d' (more ++ none :: (cs.map some).reverse)
      rw [he]
      simp

/-- Bytes that are read as a text are its bytes. -/
theorem encode_of_decode? {bs : Bytes} {s : String} (h : decode? bs = some s) : encode s = bs := by
  unfold decode? at h
  extract_lets ps at h
  split at h
  · cases h
  rename_i hsome
  obtain rfl := Option.some.inj h
  have hps : none ∉ ps := fun hm => hsome (List.any_eq_true.mpr ⟨none, hm, rfl⟩)
  have hfinish : ∀ {x : Decoder × List Piece}, bs.foldl feed (.between, []) = x → ps = (finish x).reverse := by
    rintro x rfl
    rfl
  rcases foldl_feed_cases bs [] .between with hn | ⟨d, cs, before, hf, hb, heq⟩
  · refine absurd ?_ hps
    rw [hfinish rfl, List.mem_reverse, finish]
    split
    · exact hn
    · exact List.mem_cons_self ..
  · have hps' := hfinish hf
    simp only [finish] at hps'
    split at hps'
    · rename_i howed
      obtain rfl : before = [] := by cases hb <;> first | rfl | cases howed
      have hchars : ps.filterMap id = cs := by simp [hps']
      rw [encode, String.toList_ofList, hchars]
      simpa using heq
    · exact absurd (by rw [hps']; simp) hps

end Retrace.Utf8
