import Retrace.Lock.Content
import Retrace.Proofs.Json.Written
import Retrace.Proofs.Machine.Directory

/-!
# The holder is read from the lock file

What the holder of a lock writes into the lock file is read as the holder.
-/

namespace Retrace.Lock.Content

open Json

theorem skipBlanks_cons {c : Char} (hc : isBlank c = false) (rest : List Char) : skipBlanks (c :: rest) = c :: rest := by
  simp [skipBlanks, hc]

theorem skipBlanks_quote (s rest : List Char) : skipBlanks (quote s ++ rest) = quote s ++ rest :=
  skipBlanks_cons (by decide) _

theorem skipBlanks_toString (n : Nat) (rest : List Char) :
    skipBlanks ((toString n).toList ++ rest) = (toString n).toList ++ rest := by
  obtain ⟨d, ds, hds⟩ := List.exists_cons_of_ne_nil (Nat.toDigits_ne_nil : Nat.toDigits 10 n ≠ [])
  have hdigits : (toString n).toList = d :: ds := by
    rw [← hds]
    exact Nat.toList_repr
  have hd : d.isDigit = true := Nat.isDigit_of_mem_toDigits (by omega) (by omega) (hds ▸ List.mem_cons_self ..)
  rw [hdigits]
  refine skipBlanks_cons ?_ _
  cases hb : isBlank d with
  | false => rfl
  | true =>
    simp only [isBlank, Bool.or_eq_true, beq_iff_eq] at hb
    rcases hb with ((rfl | rfl) | rfl) | rfl <;> cases hd

variable {p q : Partial} {key : List Char} {cs rest : List Char} {fuel : Nat}

theorem members?_comma (h : member? key p cs = some (q, ',' :: rest)) :
    members? (fuel + 1) p (quote key ++ ':' :: cs) = members? fuel q rest := by
  rw [members?, skipBlanks_quote, string?_quote]
  simp only [bind, Option.bind]
  rw [skipBlanks_cons (by decide)]
  simp only [h]
  rw [skipBlanks_cons (by decide)]
  rfl

theorem members?_brace (h : member? key p cs = some (q, '\x7d' :: rest)) :
    members? (fuel + 1) p (quote key ++ ':' :: cs) = q.content?.map fun c => (c, rest) := by
  rw [members?, skipBlanks_quote, string?_quote]
  simp only [bind, Option.bind]
  rw [skipBlanks_cons (by decide)]
  simp only [h]
  rw [skipBlanks_cons (by decide)]
  rfl

theorem ends_comma (rest : List Char) : Ends (',' :: rest) := by
  rintro c ⟨⟩
  decide

/-- The record without its opening brace, a member at a time. -/
def written (c : Content) (name : String) : List Char :=
  quote "pid".toList ++ ':' :: ((toString c.pid).toList ++ ',' ::
    (quote "started_at".toList ++ ':' :: ((toString c.startedAt).toList ++ ',' ::
      (quote "source".toList ++ ':' :: (quote name.toList ++ ['\x7d'])))))

theorem render_eq (c : Content) (name : String) : c.render name = '\x7b' :: c.written name := by
  unfold render written
  generalize quote name.toList = source
  generalize (toString c.pid).toList = pid
  generalize (toString c.startedAt).toList = startedAt
  simp [quote, escapeChar]

theorem two_le_length_written (c : Content) (name : String) : 2 ≤ (c.written name).length := by
  simp only [written, List.length_append, List.length_cons]
  omega

/-- The record of a holder is read back. -/
theorem parse?_render {c : Content} {name : String} (hsource : c.source = .ofString name) (hpid : c.pid < pidBound)
    (htime : c.startedAt < timeBound) : parse? (String.ofList (c.render name)) = some c := by
  have hpid' : ∀ rest, member? "pid".toList {} ((toString c.pid).toList ++ ',' :: rest) =
      some ({ pid := some c.pid }, ',' :: rest) := by
    intro rest
    rw [member?, if_pos rfl, skipBlanks_toString, natural?_toString hpid (ends_comma rest)]
    rfl
  have htime' : ∀ rest, member? "started_at".toList { pid := some c.pid } ((toString c.startedAt).toList ++ ',' :: rest) =
      some ({ pid := some c.pid, startedAt := some c.startedAt }, ',' :: rest) := by
    intro rest
    rw [member?, if_neg (by decide), if_pos rfl, skipBlanks_toString, natural?_toString htime (ends_comma rest)]
    rfl
  have hsource' : member? "source".toList { pid := some c.pid, startedAt := some c.startedAt }
      (quote name.toList ++ ['\x7d']) =
      some ({ pid := some c.pid, startedAt := some c.startedAt, source := some name.toList }, ['\x7d']) := by
    rw [member?, if_neg (by decide), if_neg (by decide), if_pos rfl, skipBlanks_quote, string?_quote]
    rfl
  have hcontent : Partial.content? { pid := some c.pid, startedAt := some c.startedAt, source := some name.toList } =
      some c := by
    simp [Partial.content?, String.ofList_toList, ← hsource]
  have hmembers : ∀ fuel, members? (fuel + 3) {} (c.written name) = some (c, []) := by
    intro fuel
    rw [written, members?_comma (hpid' _), members?_comma (htime' _), members?_brace hsource', hcontent]
    rfl
  obtain ⟨fuel, hfuel⟩ : ∃ fuel, (c.written name).length + 1 = fuel + 3 :=
    ⟨(c.written name).length - 2, by have := c.two_le_length_written name; omega⟩
  rw [parse?, String.toList_ofList, render_eq, skipBlanks_cons (by decide)]
  simp only [hfuel, hmembers, bind, Option.bind]
  rfl

/-- What the holder of a lock writes is read as the holder. -/
theorem ofBytes?_toText? {c : Content} (hsource : c.source.IsText) (hpid : c.pid < pidBound)
    (htime : c.startedAt < timeBound) : ∃ text, c.toText? = some text ∧ ofBytes? (.ofString text) = some c := by
  obtain ⟨name, hname⟩ := hsource
  have hdecoded : Utf8.decode? c.source.raw = some name := by
    rw [hname]
    exact Utf8.decode?_encode name
  refine ⟨String.ofList (c.render name), ?_, ?_⟩
  · rw [toText?, hdecoded]
    rfl
  · have htext : Utf8.decode? (.ofString (String.ofList (c.render name))) = some (String.ofList (c.render name)) :=
      Utf8.decode?_encode _
    rw [ofBytes?, htext, Option.bind_some]
    exact parse?_render hname hpid htime

/-! ## What is read can be written -/

/-- The holder can be written down: its numbers are not too large, and its source file has a text for a name. -/
structure Recordable (c : Content) : Prop where
  pid : c.pid < pidBound
  startedAt : c.startedAt < timeBound
  source : c.source.IsText

/-- The numbers read so far are not too large. -/
structure Partial.Bounded (p : Partial) : Prop where
  pid : ∀ n, p.pid = some n → n < pidBound
  startedAt : ∀ n, p.startedAt = some n → n < timeBound

theorem Partial.Bounded.empty : Partial.Bounded {} := ⟨nofun, nofun⟩

theorem Partial.Bounded.member (hp : p.Bounded) (h : member? key p cs = some (q, rest)) : q.Bounded := by
  unfold member? at h
  split at h
  · split at h
    · cases h
    · obtain ⟨⟨n, cs⟩, hn, heq⟩ := Option.map_eq_some_iff.mp h
      cases heq
      refine ⟨fun m hm => ?_, hp.startedAt⟩
      cases hm
      exact natural?_lt hn
  split at h
  · split at h
    · cases h
    · obtain ⟨⟨n, cs⟩, hn, heq⟩ := Option.map_eq_some_iff.mp h
      cases heq
      refine ⟨hp.pid, fun m hm => ?_⟩
      cases hm
      exact natural?_lt hn
  split at h
  · split at h
    · cases h
    · obtain ⟨⟨t, cs⟩, -, heq⟩ := Option.map_eq_some_iff.mp h
      cases heq
      exact ⟨hp.pid, hp.startedAt⟩
  · obtain ⟨cs, -, heq⟩ := Option.map_eq_some_iff.mp h
    cases heq
    exact hp

variable {c : Content}

theorem Partial.Bounded.recordable (hp : p.Bounded) (h : p.content? = some c) : c.Recordable := by
  simp only [Partial.content?, Option.bind_eq_bind, Option.bind_eq_some_iff, Option.pure_def,
    Option.some.injEq] at h
  obtain ⟨pid, hpid, startedAt, htime, source, -, rfl⟩ := h
  exact ⟨hp.pid _ hpid, hp.startedAt _ htime, _, rfl⟩

theorem recordable_of_members? : ∀ {fuel : Nat} {p : Partial} {cs : Rest}, p.Bounded →
    members? fuel p cs = some (c, rest) → c.Recordable := by
  intro fuel
  induction fuel with
  | zero =>
    intro p cs _ h
    cases h
  | succ fuel ih =>
    intro p cs hp h
    simp only [members?, Option.bind_eq_bind, Option.bind_eq_some_iff] at h
    obtain ⟨⟨key, cs⟩, -, h⟩ := h
    split at h
    · simp only [Option.bind_eq_some_iff] at h
      obtain ⟨⟨q, cs⟩, hq, h⟩ := h
      have hb := hp.member hq
      split at h
      · exact ih hb h
      · obtain ⟨c', hc, heq⟩ := Option.map_eq_some_iff.mp h
        cases heq
        exact hb.recordable hc
      · cases h
    · cases h

theorem recordable_of_items? (h : items? cs = some (c, rest)) : c.Recordable := by
  simp only [items?, Option.bind_eq_bind, Option.bind_eq_some_iff, Option.pure_def, Option.some.injEq,
    Prod.mk.injEq] at h
  obtain ⟨⟨pid, _⟩, hpid, _, -, ⟨startedAt, _⟩, htime, _, -, ⟨source, _⟩, -, _, -, rfl, -⟩ := h
  exact ⟨natural?_lt hpid, natural?_lt htime, _, rfl⟩

/-- A holder can be written down when some text names it. -/
theorem recordable_of_parse? {s : String} (h : parse? s = some c) : c.Recordable := by
  have hend : ∀ {c' : Content} {rest : Rest}, (if skipBlanks rest = [] then some c' else none) = some c → c' = c := by
    intro c' rest hr
    split at hr
    · exact Option.some.inj hr
    · cases hr
  unfold parse? at h
  split at h
  · obtain ⟨⟨c', rest⟩, hread, h⟩ := Option.bind_eq_some_iff.mp h
    obtain rfl := hend h
    exact recordable_of_members? .empty hread
  · obtain ⟨⟨c', rest⟩, hread, h⟩ := Option.bind_eq_some_iff.mp h
    obtain rfl := hend h
    exact recordable_of_items? hread
  · cases h

/-- A holder that is written into an open file is read from it, whatever the file had and wherever its handles stand;
and a holder that some text names is named by the text that is written for it. -/
theorem content_is_read_back :
    (∀ (m : Machine) (h : Handle) (old : Bytes) (mode : Nat), m.tree.node (m.nodeOf h) = .file old mode →
      ∀ c : Content, c.Recordable → ∀ position, ∃ text m', c.toText? = some text ∧
        m.writeHandle h (.ofString text) position = .ok m' ∧
        ∀ g, m'.nodeOf g = m.nodeOf h → ∀ position',
          m'.readHandle g position' = .ofString text ∧ ofBytes? (m'.readHandle g position') = some c) ∧
    (∀ (s : String) (c : Content), parse? s = some c → ∃ text, c.toText? = some text ∧ parse? text = some c) := by
  constructor
  · intro m h old mode hfile c hc position
    obtain ⟨text, htext, hread⟩ := ofBytes?_toText? hc.source hc.pid hc.startedAt
    obtain ⟨m', hwrite, hbytes⟩ := Machine.readHandle_of_writeHandle hfile (.ofString text) position
    refine ⟨text, m', htext, hwrite, ?_⟩
    intro g hg position'
    rw [hbytes g hg position']
    exact ⟨rfl, hread⟩
  · intro s c hs
    have hc := recordable_of_parse? hs
    obtain ⟨text, htext, hread⟩ := ofBytes?_toText? hc.source hc.pid hc.startedAt
    refine ⟨text, htext, ?_⟩
    rwa [ofBytes?, Utf8.decode?_encode, Option.bind_some] at hread

/-- A machine with two handles of one open file. -/
def shared (old : Bytes) : Machine where
  tree := ⟨#[.dir [(.ofString "lock", 1)], .file old 0o644]⟩
  handles := [(1, 1), (0, 1)]
  nextHandle := 2

theorem content_is_read_back_over_malformed :
    (∃ text m', toText? ⟨4294967295, 18446744073709551615, .ofString "/a\"\\\n\x01é"⟩ = some text ∧
      (shared (List.replicate 200 0xFF)).writeHandle ⟨0⟩ (.ofString text) 150 = .ok m' ∧
      ofBytes? (m'.readHandle ⟨1⟩ 7) = some ⟨4294967295, 18446744073709551615, .ofString "/a\"\\\n\x01é"⟩) ∧
    ∃ text, toText? ⟨7, 0, .ofString "aB\n"⟩ = some text ∧ parse? text = some ⟨7, 0, .ofString "aB\n"⟩ := by
  obtain ⟨hwritten, hparsed⟩ := content_is_read_back
  constructor
  · obtain ⟨text, m', htext, hwrite, hread⟩ := hwritten (shared (List.replicate 200 0xFF)) ⟨0⟩ _ 0o644 rfl
      ⟨4294967295, 18446744073709551615, .ofString "/a\"\\\n\x01é"⟩ ⟨by decide, by decide, _, rfl⟩ 150
    refine ⟨text, m', htext, hwrite, (hread ⟨1⟩ ?_ 7).2⟩
    rw [Machine.writeHandle_of_file rfl] at hwrite
    cases hwrite
    rfl
  · exact hparsed " [7 , 0,\"a\\u0042\\n\"]\n" _ (by decide +kernel)

end Retrace.Lock.Content
