import Retrace.Shell.Tool.Basic

/-!
# Lines in order

The tools that sort lines and that find equal neighbours among them.
-/

namespace Retrace.Shell.Tool

/-- A decimal number: digits and a power of ten. -/
structure Decimal where
  digits : Int
  power : Int

/-- The decimal number at the start of a text after blanks, perhaps with an exponent, and what follows it. -/
def Decimal.leading (withExponent : Bool) (cs : Raw) : Decimal × Raw :=
  let cs := cs.dropWhile fun c => c == ' ' || c == '\t'
  let negative := cs.head? = some '-'
  let cs := if negative ∨ (withExponent ∧ cs.head? = some '+') then cs.drop 1 else cs
  let whole := cs.takeWhile Char.isDigit
  let rest := cs.drop whole.length
  let places := if rest.head? = some '.' then (rest.drop 1).takeWhile Char.isDigit else []
  let rest := if rest.head? = some '.' then rest.drop (places.length + 1) else rest
  let n : Int := ((Raw.nat? (whole ++ places)).getD 0 : Nat)
  let exponent : Option (Int × Raw) := match withExponent, rest with
    | true, 'e' :: ds | true, 'E' :: ds =>
      let digits := (ds.dropWhile fun c => c == '-' || c == '+').takeWhile Char.isDigit
      let sign := ds.takeWhile fun c => c == '-' || c == '+'
      if digits = [] ∨ sign.length > 1 then none
      else (Raw.int? (sign ++ digits)).map fun e => (e, ds.drop (sign.length + digits.length))
    | _, _ => none
  let (e, rest) := exponent.getD (0, rest)
  (⟨if negative then -n else n, max (-400) (min 400 e) - (places.length : Int)⟩, rest)

/-- The order of decimal numbers. -/
def Decimal.compare (a b : Decimal) : Ordering :=
  let least := min a.power b.power
  let scaled (d : Decimal) : Int := d.digits * ((Nat.pow 10 (d.power - least).toNat : Nat) : Int)
  Ord.compare (scaled a) (scaled b)

/-- The order of texts in which numbers count by their value. -/
def versionOrder : Nat → Raw → Raw → Ordering
  | 0, _, _ => .eq
  | fuel + 1, a, b =>
    if a.isEmpty ∧ b.isEmpty then .eq
    else
      let words (cs : Raw) : Raw × Raw := (cs.takeWhile (!Char.isDigit ·), cs.dropWhile (!Char.isDigit ·))
      let (v, a) := words a
      let (w, b) := words b
      let rank (c : Option Char) : Nat := match c with
        | none => 1
        | some '~' => 0
        | some c => if c.isAlpha then c.toNat + 1 else c.toNat + 257
      let rec ordered : Raw → Raw → Ordering
        | [], [] => .eq
        | c :: cs, d :: ds => if c = d then ordered cs ds else Ord.compare (rank (some c)) (rank (some d))
        | [], d :: _ => Ord.compare (rank none) (rank (some d))
        | c :: _, [] => Ord.compare (rank (some c)) (rank none)
      match ordered v w with
      | .eq =>
        let number (cs : Raw) : Nat := (Raw.nat? (cs.takeWhile Char.isDigit)).getD 0
        match Ord.compare (number a) (number b) with
        | .eq => versionOrder fuel (a.dropWhile Char.isDigit) (b.dropWhile Char.isDigit)
        | o => o
      | o => o

/-- How parts of lines are compared. -/
structure Collation where
  /-- The letters of the options. -/
  letters : Raw := []
  deriving Inhabited

def Collation.has (k : Collation) (c : Char) : Bool := k.letters.contains c

/-- The order of the bytes. -/
def byteOrder (a b : Raw) : Ordering := if a = b then .eq else if Raw.before a b then .lt else .gt

/-- The place of a month in the year. -/
def monthOf (cs : Raw) : Nat :=
  let name := ((cs.dropWhile fun c => c == ' ' || c == '\t').take 3).map Char.toUpper
  ((["JAN", "FEB", "MAR", "APR", "MAY", "JUN", "JUL", "AUG", "SEP", "OCT", "NOV", "DEC"].map String.toList).idxOf? name).elim
    0 (· + 1)

/-- The order of two parts of lines, not reversed. -/
def Collation.order (k : Collation) (a b : Raw) : Ordering :=
  if k.has 'n' then ((Decimal.leading false a).1).compare (Decimal.leading false b).1
  else if k.has 'g' then ((Decimal.leading true a).1).compare (Decimal.leading true b).1
  else if k.has 'h' then
    let value (cs : Raw) : Int × Decimal :=
      let (d, rest) := Decimal.leading false cs
      let rank : Int := match rest.head? with
        | some c => ((("KMGTPEZY".toList.idxOf? (if c = 'k' then 'K' else c)).elim 0 (· + 1) : Nat) : Int)
        | none => 0
      (if d.digits < 0 then -rank else rank, d)
    let (r, d) := value a
    let (q, e) := value b
    if d.digits = 0 ∨ e.digits = 0 ∨ (d.digits < 0) ≠ (e.digits < 0) then d.compare e
    else (Ord.compare r q).then (d.compare e)
  else if k.has 'M' then Ord.compare (monthOf a) (monthOf b)
  else if k.has 'V' then (versionOrder (a.length + b.length + 1) a b).then (byteOrder a b)
  else
    let keeps (c : Char) : Bool :=
      (!k.has 'd' || c.isAlphanum || c == ' ' || c == '\t') && (!k.has 'i' || (' ' ≤ c && c ≤ '~'))
    let seen (cs : Raw) : Raw := (cs.filter keeps).map fun c => if k.has 'f' then c.toUpper else c
    byteOrder (seen a) (seen b)

/-- A part of each line by which lines are sorted: where it starts and where it ends, as fields and characters. -/
structure SortKey where
  field : Nat
  char : Nat
  skipsStart : Bool
  stop : Option (Nat × Nat)
  skipsStop : Bool
  how : Collation

/-- The rest of a line after some fields. -/
def afterFields (sep : Option Char) : Nat → Raw → Raw
  | 0, cs => cs
  | n + 1, cs =>
    match sep with
    | some c => afterFields sep n ((cs.dropWhile (· ≠ c)).drop 1)
    | none =>
      let isBlank (c : Char) : Bool := c == ' ' || c == '\t' || c == '\n'
      afterFields sep n ((cs.dropWhile isBlank).dropWhile fun c => !isBlank c)

/-- The part of a line that a key is about. -/
def SortKey.part (k : SortKey) (sep : Option Char) (line : Raw) : Raw :=
  let isBlank (c : Char) : Bool := c == ' ' || c == '\t' || c == '\n'
  let start := afterFields sep (k.field - 1) line
  let start := (if k.skipsStart then start.dropWhile isBlank else start).drop (k.char - 1)
  match k.stop with
  | none => start
  | some (field, 0) =>
    -- A separator ends the field, but does not belong to it.
    let after := match sep with
      | some c => (afterFields sep (field - 1) line).dropWhile (· ≠ c)
      | none => afterFields none field line
    start.take (start.length - after.length)
  | some (field, char) =>
    let from' := afterFields sep (field - 1) line
    let after := (if k.skipsStop then from'.dropWhile isBlank else from').drop char
    start.take (start.length - after.length)

/-- The letters that say how to compare. -/
def collationLetters : Raw := "bdfghiMnRrV".toList

/-- The key that a text spells. -/
def sortKey (cs : Raw) : Except Raw SortKey := do
  let position (cs : Raw) (what : String) : Except Raw (Nat × Option Nat × Raw × Raw) :=
    let f := cs.takeWhile Char.isDigit
    let rest := cs.drop f.length
    match Raw.nat? f with
    | none => .error ("invalid number at field ".toList ++ what.toList ++ ": invalid count at start of ".toList ++ quoted cs)
    | some field =>
      let char := if rest.head? = some '.' then Raw.nat? ((rest.drop 1).takeWhile Char.isDigit) else none
      let rest := if rest.head? = some '.' then (rest.drop 1).dropWhile Char.isDigit else rest
      let letters := rest.takeWhile (collationLetters.contains ·)
      .ok (field, char, letters, rest.drop letters.length)
  let invalid (why : String) : Raw := why.toList ++ ": invalid field specification ".toList ++ quoted cs
  let (field, char, letters, rest) ← position cs "start"
  if field = 0 then .error (invalid "field number is zero")
  if char = some 0 then .error (invalid "character offset is zero")
  match rest with
  | [] => return ⟨field, char.getD 1, letters.contains 'b', none, false, ⟨letters⟩⟩
  | ',' :: rest =>
    let (stop, stopChar, more, rest) ← position rest "after ','"
    if stop = 0 then .error (invalid "field number is zero")
    if rest ≠ [] then .error (invalid "stray character in field spec")
    return ⟨field, char.getD 1, letters.contains 'b', some (stop, stopChar.getD 0), more.contains 'b', ⟨letters ++ more⟩⟩
  | _ => .error (invalid "stray character in field spec")

def sortOptions : OptionTable :=
  { plain := "bdfghiMnRrVcCmsuz", valued := "kotST"
    long := [("ignore-leading-blanks", 'b'), ("dictionary-order", 'd'), ("ignore-case", 'f'),
      ("general-numeric-sort", 'g'), ("human-numeric-sort", 'h'), ("ignore-nonprinting", 'i'), ("month-sort", 'M'),
      ("numeric-sort", 'n'), ("reverse", 'r'), ("version-sort", 'V'), ("check", 'c'), ("merge", 'm'), ("stable", 's'),
      ("unique", 'u'), ("zero-terminated", 'z'), ("key", 'k'), ("output", 'o'), ("field-separator", 't')] }

/-- The lines of a text that end with a character; the last end may be missing. -/
def linesBy (sep : Char) (cs : Raw) : List Raw :=
  let (last, done) := cs.foldl (fun (line, done) c =>
    if c = sep then ([], line.reverse :: done) else (c :: line, done)) ([], [])
  (if last = [] then done else last.reverse :: done).reverse

/-- Merge lists of lines that are sorted. -/
def mergeLines (le : Raw → Raw → Bool) (ls : List (List Raw)) : List Raw := ls.foldl (fun a b => List.merge a b le) []

def sort (c : Call) : Deed :=
  c.withOptions sortOptions (fun os names =>
    let fault (text : Raw) : Deed := { err := c.complain text, status := 2 }
    let global : Collation := ⟨(os.map (·.1)).filter (collationLetters.contains ·)⟩
    match (os.values 'k').mapM sortKey with
    | .error why => fault why
    | .ok keys =>
      let separator : Except Raw (Option Char) := match os.value? 't' with
        | none => .ok none
        | some [] => .error "empty tab".toList
        | some ['\\', '0'] => .ok (some '\x00')
        | some [x] => .ok (some x)
        | some t => .error ("multi-character tab ".toList ++ quoted t)
      match separator with
      | .error why => fault why
      | .ok sep =>
        let keys := keys.map fun (k : SortKey) =>
          if k.how.letters.isEmpty then { k with how := global, skipsStart := global.has 'b', skipsStop := global.has 'b' }
          else k
        let keys : List SortKey := if keys.isEmpty then [⟨1, 1, global.has 'b', none, false, global⟩] else keys
        let byKeys (a b : Raw) : Ordering := keys.foldl (fun o k =>
          if o ≠ .eq then o
          else
            let o := k.how.order (k.part sep a) (k.part sep b)
            if k.how.has 'r' then o.swap else o) .eq
        let order (a b : Raw) : Ordering :=
          match byKeys a b with
          | .eq =>
            if os.has 'u' ∨ os.has 's' then .eq
            else
              let o := byteOrder a b
              if os.has 'r' then o.swap else o
          | o => o
        let le (a b : Raw) : Bool := order a b != .gt
        let stop := if os.has 'z' then '\x00' else '\n'
        let found := c.texts names
        match found.find? fun (_, t) => !t.isOk with
        | some (n, .error e) =>
          let what := if e = .os .EISDIR then "read failed: " else "cannot read: "
          fault (what.toList ++ quotedIfNeeded n ++ ": ".toList ++ Call.errorText e)
        | _ =>
          let texts := found.map fun (_, t) => linesBy stop (t.toOption.getD [])
          let rest := if Call.readsInput names then some [] else none
          if os.has 'c' ∨ os.has 'C' then
            let lines := texts.flatten
            let bad := ((lines.zip (lines.drop 1)).zipIdx 2).find? fun ((a, b), _) =>
              order a b == .gt || (os.has 'u' && order a b == .eq)
            match bad with
            | none => { rest }
            | some ((_, b), k) =>
              { rest, status := 1
                err := if os.has 'C' then [] else
                  c.complain ((found.head?.map (·.1)).getD ['-'] ++ ':' :: (toString k).toList ++ ": disorder: ".toList ++ b) }
          else
            let sorted := if os.has 'm' then mergeLines le texts else texts.flatten.mergeSort le
            let sorted := if !os.has 'u' then sorted
              else (sorted.foldl (fun acc l => match acc with
                | k :: _ => if byKeys k l == .eq then acc else l :: acc
                | [] => [l]) []).reverse
            let out := sorted.flatMap (· ++ [stop])
            match os.value? 'o' with
            | some file => { rest, changes := [attempt fun m => m.write (c.path file) (Raw.bytes out)] }
            | none => { out, rest }) 2

/-! ## Equal neighbours -/

def uniqOptions : OptionTable :=
  { plain := "cdDuiz0123456789", valued := "fsw"
    long := [("count", 'c'), ("repeated", 'd'), ("unique", 'u'), ("ignore-case", 'i'), ("skip-fields", 'f'),
      ("skip-chars", 's'), ("check-chars", 'w'), ("all-repeated", 'D'), ("zero-terminated", 'z')] }

def uniq (c : Call) : Deed :=
  c.withOptions uniqOptions fun os names =>
    match names with
    | _ :: _ :: extra :: _ => { err := c.misused ("extra operand ".toList ++ quoted extra), status := 1 }
    | _ =>
      let number (o : Char) : Option Nat := (os.value? o).bind Raw.nat?
      let stop := if os.has 'z' then '\x00' else '\n'
      let key (l : Raw) : Raw :=
        let l := (afterFields none ((number 'f').getD 0) l).drop ((number 's').getD 0)
        let l := match number 'w' with
          | some n => l.take n
          | none => l
        if os.has 'i' then l.map Char.toUpper else l
      match c.read (names.headD ['-']) with
      | .error e => { err := c.lament (names.headD ['-']) e, status := 1 }
      | .ok text =>
        let groups : List (List Raw) := (linesBy stop text).foldr (fun l acc => match acc with
          | (m :: ms) :: rest => if key l = key m then (l :: m :: ms) :: rest else [l] :: (m :: ms) :: rest
          | acc => [l] :: acc) []
        let shown := groups.flatMap fun g =>
          let n := g.length
          if os.has 'D' then if n = 1 then [] else g
          else if (os.has 'd' ∧ n = 1) ∨ (os.has 'u' ∧ 1 < n) then []
          else
            let count := (toString n).toList
            (g.take 1).map fun l => if os.has 'c' then List.replicate (7 - count.length) ' ' ++ count ++ ' ' :: l else l
        let out := shown.flatMap (· ++ [stop])
        let rest := if Call.readsInput (names.take 1) then some [] else none
        match names[1]? with
        | some file => if file = ['-'] then { out, rest } else
          { rest, changes := [attempt fun m => m.write (c.path file) (Raw.bytes out)] }
        | none => { out, rest }

end Retrace.Shell.Tool
