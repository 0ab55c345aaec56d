import Retrace.Proofs.Toml.Value

/-!
# Written lines are read back

Headers and assignments of bare names, line by line, and the tables that they make up.
-/

namespace Retrace.Toml

/-! ## Keys -/

/-- A name that needs no quotes to be a key. -/
def isBare (name : String) : Bool := !name.toList.isEmpty && name.toList.all isKeyChar

theorem isBare_iff {name : String} :
    isBare name = true ↔ name.toList ≠ [] ∧ ∀ c ∈ name.toList, isKeyChar c = true := by
  simp [isBare]

theorem eq_cons_of_isBare {name : String} (h : isBare name = true) :
    ∃ c cs, name.toList = c :: cs ∧ isKeyChar c = true := by
  obtain ⟨hne, hall⟩ := isBare_iff.mp h
  cases hl : name.toList with
  | nil => exact absurd hl hne
  | cons c cs => exact ⟨c, cs, rfl, hall c (by simp [hl])⟩

theorem isSpace_of_isKeyChar {c : Char} (h : isKeyChar c = true) : Quoted.isSpace c = false := by
  refine Bool.eq_false_iff.mpr fun hs => ?_
  obtain rfl | rfl : c = ' ' ∨ c = '\t' := by simpa [Quoted.isSpace] using hs
  all_goals cases h

theorem keySegment_bare {name : String} (hname : isBare name = true) {c : Char} (hc : isKeyChar c = false) (rest : List Char) :
    keySegment (name.toList ++ c :: rest) = some (name, c :: rest) := by
  obtain ⟨hne, hall⟩ := isBare_iff.mp hname
  have htake : (name.toList ++ c :: rest).takeWhile isKeyChar = name.toList := by
    rw [List.takeWhile_append_of_pos hall, List.takeWhile_cons_of_neg (by simp [hc]), List.append_nil]
  have hdrop : (name.toList ++ c :: rest).dropWhile isKeyChar = c :: rest := by
    rw [List.dropWhile_append_of_pos hall, List.dropWhile_cons_of_neg (by simp [hc])]
  obtain ⟨d, ds, hl, hd⟩ := eq_cons_of_isBare hname
  have hq : d ≠ '"' := by rintro rfl; cases hd
  have hm : d ≠ '\'' := by rintro rfl; cases hd
  unfold keySegment
  split
  · simp_all
  · simp_all
  · simp only [htake, hdrop, if_neg hne, String.ofList_toList]

/-- A key of one bare segment, up to what comes after it and its blanks. -/
theorem key_bare {name : String} (hname : isBare name = true) {c d : Char} {rest more : List Char} (hc : isKeyChar c = false)
    (hskip : skipSpace (c :: rest) = d :: more) (hd : d ≠ '.') :
    key (name.toList ++ c :: rest) = some (([], name), d :: more) := by
  have hstart : skipSpace (name.toList ++ c :: rest) = name.toList ++ c :: rest := by
    obtain ⟨e, es, he, hkey⟩ := eq_cons_of_isBare hname
    rw [he, List.cons_append, skipSpace_cons (isSpace_of_isKeyChar hkey)]
  have hseg : keySegments maxDepth (name.toList ++ c :: rest) = some ([name], d :: more) := by
    rw [maxDepth, keySegments, hstart, keySegment_bare hname hc]
    simp only [hskip]
    split <;> simp_all
  rw [key, hseg]
  rfl

/-! ## Lines -/

/-- A written value that is read from the end of a line. -/
structure StandsFor (v : List Char) (n : Node) : Prop where
  starts : ∀ rest, skipSpace (v ++ rest) = v ++ rest
  read : ∀ rest, value maxDepth (v ++ '\n' :: rest) = some (n, '\n' :: rest)

theorem standsFor_text (cs : List Char) : StandsFor (Written.text cs) (.text (String.ofList cs)) where
  starts rest := by
    obtain ⟨q, body, he, hquote⟩ := text_eq_cons cs
    rw [he, List.cons_append, skipSpace_cons (solid_of_quote hquote).1.1]
  read rest := value_text maxDepth cs (unlike_cons (by decide) rest) (unlike_cons (by decide) rest)

theorem standsFor_texts (ts : List (List Char)) :
    StandsFor (Written.texts ts) (.array (ts.map (Node.text ∘ String.ofList))) where
  starts rest := by
    match ts with
    | [] | [t] | t :: u :: ts => exact skipSpace_cons rfl _
  read rest := value_texts 78 ts ('\n' :: rest)

theorem standsFor_natural {n : Nat} (hp : 0 < n) (hn : Scalar.inRange n = true) : StandsFor (Written.natural n) (.integer n) where
  starts rest := by
    obtain ⟨d, ds, hds, hall, -⟩ := Scalar.natural_eq_cons n
    have hd := hall d (List.mem_cons_self ..)
    rw [hds, List.cons_append]
    refine skipSpace_cons (Bool.eq_false_iff.mpr fun hs => ?_) _
    obtain rfl | rfl : d = ' ' ∨ d = '\t' := by simpa [Quoted.isSpace] using hs
    all_goals cases hd
  read rest := value_natural maxDepth hp hn rest

/-- Written lines, whatever comes after them. -/
def Spells (cs : List Char) (ls : List Line) : Prop :=
  ∃ n ≤ cs.length, ∀ fuel rest, lines (n + fuel) (cs ++ rest) = (lines fuel rest).map (ls ++ ·)

theorem Spells.append {cs cs' : List Char} {ls ls' : List Line} (h : Spells cs ls) (h' : Spells cs' ls') :
    Spells (cs ++ cs') (ls ++ ls') := by
  obtain ⟨n, hn, hread⟩ := h
  obtain ⟨n', hn', hread'⟩ := h'
  refine ⟨n + n', by simpa using Nat.add_le_add hn hn', fun fuel rest => ?_⟩
  rw [Nat.add_assoc, List.append_assoc, hread, hread', Option.map_map]
  simp [Function.comp_def]

theorem spells_blank : Spells ['\n'] [] := by
  refine ⟨1, Nat.le_refl 1, fun fuel rest => ?_⟩
  rw [Nat.add_comm, List.cons_append, lines, skipSpace_cons rfl]
  simp

theorem lineEnd_newline (rest : List Char) : lineEnd ('\n' :: rest) = some rest := by
  rw [lineEnd, skipSpace_cons rfl]
  simp [skipComment]

theorem lines_solid {c : Char} (hc : Solid c) {cs rest : List Char} {l : Line} (hl : line (c :: cs) = some (l, rest))
    (fuel : Nat) : lines (fuel + 1) (c :: cs) = (lines fuel rest).map (l :: ·) := by
  obtain ⟨hs, hh, hn, hr⟩ := hc
  rw [lines, skipSpace_cons hs]
  split <;> simp_all

theorem spells_header (name : String) (hname : isBare name = true) : Spells (Written.header name) [.header [] name] := by
  refine ⟨1, by simp [Written.header], fun fuel rest => ?_⟩
  have hkey : key (name.toList ++ ']' :: '\n' :: rest) = some (([], name), ']' :: '\n' :: rest) :=
    key_bare hname rfl rfl (by decide)
  obtain ⟨c, cs, hcs, hc⟩ := eq_cons_of_isBare hname
  have hb : c ≠ '[' := by rintro rfl; cases hc
  have hline : line ('[' :: (name.toList ++ ']' :: '\n' :: rest)) = some (.header [] name, rest) := by
    rw [hcs, List.cons_append] at hkey ⊢
    rw [line]
    · rw [hkey]
      simp [closeHeader, lineEnd_newline]
    · simp [hb]
  simp only [Written.header, List.cons_append, List.append_assoc, List.nil_append]
  rw [Nat.add_comm, lines_solid (by decide) hline]

theorem spells_assignment (name : String) (hname : isBare name = true) {v : List Char} {n : Node} (hv : StandsFor v n) :
    Spells (Written.assignment name v) [.assign [] name n] := by
  refine ⟨1, by simp [Written.assignment]; omega, fun fuel rest => ?_⟩
  have hkey : key (name.toList ++ ' ' :: '=' :: ' ' :: (v ++ '\n' :: rest)) =
      some (([], name), '=' :: ' ' :: (v ++ '\n' :: rest)) :=
    key_bare hname rfl rfl (by decide)
  obtain ⟨c, cs, hcs, hc⟩ := eq_cons_of_isBare hname
  have hb : c ≠ '[' := by rintro rfl; cases hc
  have hsolid : Solid c := by
    refine ⟨isSpace_of_isKeyChar hc, ?_, ?_, ?_⟩ <;> rintro rfl <;> cases hc
  have hblank : skipSpace (' ' :: (v ++ '\n' :: rest)) = v ++ '\n' :: rest := hv.starts _
  have hassign : assignment (value maxDepth) (name.toList ++ ' ' :: '=' :: ' ' :: (v ++ '\n' :: rest)) =
      some (([], name, n), '\n' :: rest) := by
    rw [assignment, hkey]
    simp only [hblank, hv.read rest, Option.map_some]
  have hline : line (name.toList ++ ' ' :: '=' :: ' ' :: (v ++ '\n' :: rest)) = some (.assign [] name n, rest) := by
    rw [hcs, List.cons_append] at hassign ⊢
    rw [line]
    · rw [hassign]
      simp [lineEnd_newline]
    all_goals simp [hb]
  rw [hcs, List.cons_append] at hline
  simp only [Written.assignment, hcs, List.cons_append, List.append_assoc, List.nil_append]
  rw [Nat.add_comm, lines_solid hsolid hline]

theorem read?_of_spells {cs : List Char} {ls : List Line} (h : Spells cs ls) (hmark : dropMark cs = cs) :
    read? (String.ofList cs) = ofLines? ls := by
  obtain ⟨n, hn, hread⟩ := h
  have hend : lines (cs.length - n + 1) [] = some [] := by
    rw [lines]
    rfl
  have hlines : lines (cs.length + 1) cs = some ls := by
    have := hread (cs.length - n + 1) []
    rwa [List.append_nil, hend, Option.map_some, List.append_nil,
      show n + (cs.length - n + 1) = cs.length + 1 by omega] at this
  rw [read?, String.toList_ofList]
  simp only [hmark, hlines, Option.bind_some]

/-! ## Sections -/

namespace Entries

variable {es : Entries} {k : String} (h : k ∉ es.map Prod.fst)
include h

theorem key_ne_new {e : String × Node} (he : e ∈ es) : (e.1 == k) = false := by
  refine beq_false_of_ne fun hk => h ?_
  rw [← hk]
  exact List.mem_map_of_mem he

theorem any_of_new : es.any (·.1 == k) = false := by
  rw [List.any_eq_false]
  exact fun e he => by simp [key_ne_new h he]

theorem find?_of_new : es.find? (·.1 == k) = none := by
  rw [List.find?_eq_none]
  exact fun e he => by simp [key_ne_new h he]

theorem get?_of_new : es.get? k = none := by
  rw [get?, find?_of_new h, Option.map_none]

theorem put_of_new (v : Node) : es.put k v = es ++ [(k, v)] := by
  simp [put, any_of_new h]

theorem add?_of_new (v : Node) : es.add? k v = some (es ++ [(k, v)]) := by
  simp [add?, any_of_new h]

theorem get?_last (v : Node) : get? (es ++ [(k, v)]) k = some v := by
  simp [get?, List.find?_append, find?_of_new h]

theorem put_last (v w : Node) : put (es ++ [(k, v)]) k w = es ++ [(k, w)] := by
  have hold : es.map (fun e => if e.1 == k then (k, w) else e) = es := by
    refine (List.map_congr_left fun e he => ?_).trans (List.map_id es)
    rw [if_neg (by simp [key_ne_new h he])]
    rfl
  rw [put, if_pos (by simp), List.map_append, hold]
  simp

end Entries

/-- A header and the assignments below it. -/
def sectionLines (name : String) (fields : Entries) : List Line :=
  .header [] name :: fields.map fun (k, v) => .assign [] k v

theorem foldlM_fields {root : Entries} {name : String} (hname : name ∉ root.map Prod.fst) (fields : Entries) :
    ∀ {es : Entries}, ((es ++ fields).map Prod.fst).Nodup →
      (fields.map fun (k, v) => Line.assign [] k v).foldlM Draft.line? ⟨root ++ [(name, .table .header es)], [name]⟩ =
        some ⟨root ++ [(name, .table .header (es ++ fields))], [name]⟩ := by
  induction fields with
  | nil => simp
  | cons e fields ih =>
    obtain ⟨k, v⟩ := e
    intro es hnodup
    have hk : k ∉ es.map Prod.fst := by
      rw [List.map_append, List.map_cons, List.nodup_append] at hnodup
      exact fun hmem => hnodup.2.2 k hmem k (List.mem_cons_self ..) rfl
    have hstep : Draft.line? ⟨root ++ [(name, .table .header es)], [name]⟩ (.assign [] k v) =
        some ⟨root ++ [(name, .table .header (es ++ [(k, v)]))], [name]⟩ := by
      simp [Draft.line?, Entries.alterAt, Entries.addDotted?, Entries.get?_last hname, Entries.put_last hname,
        Entries.add?_of_new hk]
    have hmore := @ih (es ++ [(k, v)]) (by simpa using hnodup)
    rw [List.map_cons, List.foldlM_cons, hstep]
    simpa using hmore

/-- A new section is added with all its fields. -/
theorem foldlM_section {root : Entries} {current : List String} {name : String} (hname : name ∉ root.map Prod.fst)
    {fields : Entries} (hfields : (fields.map Prod.fst).Nodup) :
    (sectionLines name fields).foldlM Draft.line? ⟨root, current⟩ =
      some ⟨root ++ [(name, .table .header fields)], [name]⟩ := by
  have hstep : Draft.line? ⟨root, current⟩ (.header [] name) = some ⟨root ++ [(name, .table .header [])], [name]⟩ := by
    simp [Draft.line?, Entries.alterAt, Entries.openTable?, Entries.get?_of_new hname, Entries.put_of_new hname]
  have hmore := @foldlM_fields root name hname fields [] hfields
  rw [sectionLines, List.foldlM_cons, hstep]
  simpa using hmore

/-- Sections with different names make up a document of their tables. -/
theorem ofLines?_sections {sections : List (String × Entries)} (hnames : (sections.map Prod.fst).Nodup)
    (hfields : ∀ s ∈ sections, (s.2.map Prod.fst).Nodup) :
    ofLines? (sections.flatMap fun (name, fields) => sectionLines name fields) =
      some (sections.map fun (name, fields) => (name, .table .header fields)) := by
  have hroot : ∀ {root : Entries} {current : List String}, (root.map Prod.fst ++ sections.map Prod.fst).Nodup →
      ((sections.flatMap fun (name, fields) => sectionLines name fields).foldlM Draft.line? ⟨root, current⟩).map
        Draft.root = some (root ++ sections.map fun (name, fields) => (name, .table .header fields)) := by
    clear hnames
    induction sections with
    | nil => simp
    | cons s sections ih =>
      obtain ⟨name, fields⟩ := s
      intro root current hnodup
      have hname : name ∉ root.map Prod.fst := by
        rw [List.map_cons, List.nodup_append] at hnodup
        exact fun hmem => hnodup.2.2 name hmem name (List.mem_cons_self ..) rfl
      have hmore := @ih (fun s hs => hfields s (List.mem_cons_of_mem _ hs)) (root ++ [(name, .table .header fields)]) [name]
        (by simpa using hnodup)
      rw [List.flatMap_cons, List.foldlM_append, foldlM_section hname (hfields _ (List.mem_cons_self ..))]
      simpa using hmore
  exact @hroot [] [] hnames

end Retrace.Toml
