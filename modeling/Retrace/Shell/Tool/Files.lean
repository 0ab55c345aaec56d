import Retrace.Shell.Mode
import Retrace.Shell.Tool.Text

/-!
# Tools for files

The tools that look at files and directories and change them.
-/

namespace Retrace.Shell.Tool

open Call (blame errorText)

/-! ## Parts of names -/

/-- A name without the slashes at its end; a name of slashes keeps one. -/
def withoutSlashes (name : Raw) : Raw :=
  match (name.reverse.dropWhile (· == '/')).reverse with
  | [] => name.take 1
  | cs => cs

/-- The last part of a name. -/
def lastPart (name : Raw) : Raw :=
  let cs := withoutSlashes name
  if cs = ['/'] then cs else (cs.reverse.takeWhile (· ≠ '/')).reverse

/-- A name without its last part. -/
def firstParts (name : Raw) : Raw :=
  match ((withoutSlashes name).reverse.dropWhile (· ≠ '/')).reverse with
  | [] => ['.']
  | cs => withoutSlashes cs

/-- The name of an entry of a named directory. -/
def within (dir entry : Raw) : Raw := (if dir.getLast? = some '/' then dir else dir ++ ['/']) ++ entry

def basename (c : Call) : Deed :=
  let table : OptionTable :=
    { plain := "az", valued := "s", long := [("multiple", 'a'), ("suffix", 's'), ("zero", 'z')], leading := true }
  c.withOptions table fun os names =>
    let base (ending name : Raw) : Raw :=
      let cs := lastPart name
      (if cs ≠ ending ∧ ending.isSuffixOf cs then cs.take (cs.length - ending.length) else cs) ++
        [if os.has 'z' then '\x00' else '\n']
    match names with
    | [] => { err := c.misused "missing operand".toList, status := 1 }
    | name :: rest =>
      if os.has 'a' ∨ os.has 's' then { out := names.flatMap (base ((os.value? 's').getD [])) }
      else
        match rest with
        | _ :: extra :: _ => { err := c.misused ("extra operand ".toList ++ quoted extra), status := 1 }
        | rest => { out := base (rest.headD []) name }

def dirname (c : Call) : Deed :=
  c.withOptions { plain := "z", long := [("zero", 'z')] } fun os names =>
    if names.isEmpty then { err := c.misused "missing operand".toList, status := 1 }
    else { out := names.flatMap fun n => firstParts n ++ [if os.has 'z' then '\x00' else '\n'] }

/-! ## Listings -/

/-- What a path leads to, without the step through a link at its end. -/
def nodeHere? (m : Machine) (p : Path) : Option Node :=
  (m.findHere p).toOption.map fun place => m.tree.node place.ino

/-- How large a listing shows something. -/
def sizeOf' : Node → Nat
  | .file content _ => content.length
  | .dir _ => 4096
  | .link target => target.length
  | .device _ => 0

/-- The permissions that a listing shows. -/
def modeOf : Node → Nat
  | .file _ mode => mode
  | .dir _ => 0o755
  | .link _ => 0o777
  | .device _ => 0o666

/-- The kind and the permissions of something, as a listing shows them. -/
def fullMode (n : Node) : Raw :=
  let kind := match n with
    | .file .. => '-'
    | .dir _ => 'd'
    | .link _ => 'l'
    | .device _ => 'c'
  kind :: modeText (modeOf n)

def lsOptions : OptionTable :=
  { plain := "aAdlnghorRSUftucpF1CxmiskLHQbqNGBvX", valued := "IwT"
    long := [("all", 'a'), ("almost-all", 'A'), ("directory", 'd'), ("reverse", 'r'), ("recursive", 'R'),
      ("classify", 'F'), ("color", 'q'), ("dereference", 'L'), ("literal", 'N')] }

/-- The listing of something in a line. -/
def listed (os : Options) (width : Nat) (item : Raw × Node) : Raw :=
  let (name, node) := item
  let mark : Raw := match node with
    | .dir _ => if os.has 'F' ∨ os.has 'p' then ['/'] else []
    | .link _ => if os.has 'F' ∧ !os.has 'l' then ['@'] else []
    | .file _ mode => if os.has 'F' ∧ mode &&& 0o111 ≠ 0 then ['*'] else []
    | .device _ => []
  if !os.has 'l' then name ++ mark ++ ['\n']
  else
    let goal := match node with
      | .link target => " -> ".toList ++ Raw.ofBytes target
      | _ => []
    fullMode node ++ " 1 root root ".toList ++ wide width (toString (sizeOf' node)).toList ++ " Jan  1 00:00 ".toList ++
      name ++ mark ++ goal ++ ['\n']

/-- The listings of some things, in order. -/
def listing (os : Options) (items : List (Raw × Node)) : Raw :=
  let items := if os.has 'U' ∨ os.has 'f' then items
    else if os.has 'S' then items.mergeSort fun a b =>
      sizeOf' b.2 < sizeOf' a.2 || (sizeOf' a.2 == sizeOf' b.2 && Raw.before a.1 b.1)
    else items.mergeSort fun a b => Raw.before a.1 b.1
  let width := (items.map fun (_, n) => (toString (sizeOf' n)).length).foldl max 0
  (if os.has 'r' then items.reverse else items).flatMap (listed os width)

/-- The entries of a directory that are shown. -/
def shownEntries (m : Machine) (os : Options) (p : Path) : List (Raw × Node) :=
  let node (p : Path) : Option Node := if os.has 'L' then (m.node? p).orElse fun _ => nodeHere? m p else nodeHere? m p
  let names := ((m.names p).toOption.getD []).map Raw.ofBytes
  let names := names.filter fun n => os.has 'a' || os.has 'A' || os.has 'f' || n.head? != some '.'
  let names := if os.has 'a' ∨ os.has 'f' then ['.'] :: ['.', '.'] :: names else names
  names.filterMap fun n => (node (p.join ⟨Raw.bytes n⟩)).map fun node => (n, node)

/-- The listings of directories, each with its name, and those of the directories below when they are asked for. -/
def blocks (c : Call) (os : Options) : Nat → Raw → List (Raw × Raw)
  | 0, _ => []
  | fuel + 1, name =>
    let items := shownEntries c.machine os (c.path name)
    let space (n : Node) : Nat := match n with
      | .file content _ => (content.length + 4095) / 4096 * 4
      | .dir _ => 4
      | _ => 0
    let total := (items.map fun (_, n) => space n).foldl (· + ·) 0
    let head : Raw := if os.has 'l' then "total ".toList ++ (toString total).toList ++ ['\n'] else []
    let below := if !os.has 'R' then [] else
      (items.filter fun (n, node) => node.isDir && n ≠ ['.'] && n ≠ ['.', '.']).mergeSort fun a b => Raw.before a.1 b.1
    (name, head ++ listing os items) :: below.flatMap fun (n, _) => blocks c os fuel (within name n)

def ls (c : Call) : Deed :=
  c.withOptions lsOptions (fun os names =>
    let m := c.machine
    let names := if names.isEmpty then [['.']] else names
    let keeps := os.has 'l' || os.has 'd' || os.has 'F'
    let node (n : Raw) : Option Node :=
      if keeps then nodeHere? m (c.path n) else (m.node? (c.path n)).orElse fun _ => nodeHere? m (c.path n)
    let lost := names.filter fun n => (node n).isNone
    let found := names.filterMap fun n => (node n).map fun node => (n, node)
    let (dirs, files) := found.partition fun (_, node) => node.isDir && !os.has 'd'
    let dirs := dirs.mergeSort fun a b => Raw.before a.1 b.1
    let dirs := (if os.has 'r' then dirs.reverse else dirs).flatMap fun (n, _) => blocks c os 64 n
    let titled := names.length > 1 || os.has 'R'
    let texts := dirs.map fun (n, t) => (if titled then n ++ ":\n".toList else []) ++ t
    { out := (((if files.isEmpty then [] else [listing os files]) ++ texts).intersperse ['\n']).flatten
      status := if lost.isEmpty then 0 else 2
      err := lost.flatMap fun n =>
        let why : Raw := match m.findHere (c.path n) with
          | .error e => errorText e
          | .ok _ => []
        c.complain ("cannot access ".toList ++ quoted n ++ ": ".toList ++ why) }) 2

/-- What `stat` shows of something at each sign of its format. -/
def statField (name : Raw) (node : Node) : Char → Raw
  | 'n' => name
  | 's' => (toString (sizeOf' node)).toList
  | 'a' => Nat.toDigits 8 (modeOf node)
  | 'A' => fullMode node
  | 'F' => (match node with
    | .file [] _ => "regular empty file"
    | .file .. => "regular file"
    | .dir _ => "directory"
    | .link _ => "symbolic link"
    | .device _ => "character special file").toList
  | 'U' | 'G' => "root".toList
  | 'u' | 'g' => ['0']
  | 'h' => ['1']
  | 'N' => quoted name ++ (match node with
    | .link target => " -> ".toList ++ quoted (Raw.ofBytes target)
    | _ => [])
  | '%' => ['%']
  | _ => ['?']

def stat (c : Call) : Deed :=
  let table : OptionTable :=
    { plain := "Lt", valued := "cp", long := [("format", 'c'), ("printf", 'p'), ("dereference", 'L')] }
  let rec fill (name : Raw) (node : Node) : Raw → Raw
    | '%' :: k :: cs => statField name node k ++ fill name node cs
    | k :: cs => k :: fill name node cs
    | [] => []
  c.withOptions table fun os names =>
    if names.isEmpty then { err := c.misused "missing operand".toList, status := 1 }
    else c.onEach names fun n m => do
      let p := c.path n
      let place ← blame ("cannot statx ".toList ++ quoted n) (if os.has 'L' then m.find p else m.findHere p)
      return (m, fill n (m.tree.node place.ino) ((os.value? 'c').getD ['%', 'n']) ++ ['\n'])

/-! ## New files and directories -/

/-- Create a file, or renew the times of one that is there. -/
def touchFile (mode : Nat) (p : Path) (m : Machine) : Except IoError Machine :=
  if m.isThere p then .ok (((m.find p).toOption.map fun place => m.noteAt place .modify).getD m)
  else m.append true p [] mode

def touch (c : Call) : Deed :=
  let table : OptionTable :=
    { plain := "acmhf", valued := "drt"
      long := [("no-create", 'c'), ("date", 'd'), ("reference", 'r'), ("no-dereference", 'h')] }
  c.withOptions table fun os names =>
    let model : Except Raw Unit := match os.value? 'r' with
      | some r => (blame ("failed to get attributes of ".toList ++ quoted r) (c.machine.find (c.path r))).map fun _ => ()
      | none => .ok ()
    match model with
    | .error why => { err := c.complain why, status := 1 }
    | .ok () =>
      if names.isEmpty then { err := c.misused "missing file operand".toList, status := 1 }
      else c.onEach names fun n m => do
        let p := c.path n
        if os.has 'c' ∧ !m.isThere p then return (m, [])
        else return (← blame ("cannot touch ".toList ++ quoted n) (touchFile (0o666 &&& (0o7777 - c.mask)) p m), [])

/-- Make the directories on the way to a name, each of which is told of. -/
def makeParents (c : Call) (tells : Raw → Raw) (name : Raw) (m : Machine) : Except Raw (Machine × Raw) :=
  let fault (n : Raw) (e : IoError) : Raw :=
    "cannot create directory ".toList ++ quoted n ++ ": ".toList ++ errorText e
  let ways := (List.range name.length).filterMap fun k =>
    if k + 1 = name.length ∨ (name[k]? ≠ some '/' ∧ name[k + 1]? = some '/') then some (name.take (k + 1)) else none
  if name = [] then .error (fault name (.os .ENOENT))
  else
    ways.foldlM (fun (m, text) way =>
      let p := c.path way
      if m.isDir p then .ok (m, text)
      else
        match m.makeDir p with
        | .ok m => .ok (m, text ++ tells way)
        | .error e => .error (fault way (if e = .os .EEXIST ∧ way.length < name.length then .os .ENOTDIR else e))) (m, [])

def mkdir (c : Call) : Deed :=
  let table : OptionTable :=
    { plain := "pv", valued := "m", long := [("parents", 'p'), ("verbose", 'v'), ("mode", 'm')] }
  c.withOptions table fun os names =>
    let tells (n : Raw) : Raw :=
      if os.has 'v' then c.complain ("created directory ".toList ++ quoted n) else []
    let wrong := (os.value? 'm').filter fun spec => (changedMode true c.mask 0o777 spec).isNone
    match wrong with
    | some spec => { err := c.complain ("invalid mode ".toList ++ quoted spec), status := 1 }
    | none =>
      if names.isEmpty then { err := c.misused "missing operand".toList, status := 1 }
      else c.onEach names fun n m =>
        if os.has 'p' then makeParents c tells n m
        else (blame ("cannot create directory ".toList ++ quoted n) (m.makeDir (c.path n))).map fun m => (m, tells n)

/-! ## Removal -/

/-- Remove whatever a name leads to. -/
def removeTree (tells : Bool) : Nat → Raw → Path → Machine → Except Raw (Machine × Raw)
  | 0, _, _, m => .ok (m, [])
  | fuel + 1, name, p, m => do
    let what := "cannot remove ".toList ++ quoted name
    let told (kind : String) : Raw := if tells then kind.toList ++ quoted name ++ ['\n'] else []
    match m.removeFile p with
    | .ok m => return (m, told "removed ")
    | .error (.os .EISDIR) =>
      let names ← blame what (m.names p)
      let (m, text) ← names.foldlM (fun (m, text) n => do
        let (m, t) ← removeTree tells fuel (within name (Raw.ofBytes n)) (p.join ⟨n⟩) m
        return (m, text ++ t)) (m, [])
      return (← blame what (m.removeDir p), text ++ told "removed directory ")
    | .error e => blame what (.error e)

def rm (c : Call) : Deed :=
  let table : OptionTable :=
    { plain := "dfiIrRv"
      long := [("force", 'f'), ("recursive", 'r'), ("dir", 'd'), ("verbose", 'v'), ("interactive", 'i')] }
  c.withOptions table fun os names =>
    let deep := os.has 'r' || os.has 'R'
    if names.isEmpty then
      if os.has 'f' then {} else { err := c.misused "missing operand".toList, status := 1 }
    else c.onEach names fun n m =>
      let p := c.path n
      let isLost : Bool := match m.findHere p with
        | .error (.os e) => e = .ENOENT || e = .ENOTDIR
        | _ => false
      let last := lastPart n
      if os.has 'f' ∧ isLost then .ok (m, [])
      else if deep ∧ (last = ['.'] ∨ last = ['.', '.']) then
        .error ("refusing to remove '.' or '..' directory: skipping ".toList ++ quoted n)
      else if deep ∧ last = ['/'] then
        .error ("it is dangerous to operate recursively on '/'\n".toList ++ c.name ++
          ": use --no-preserve-root to override this failsafe".toList)
      else if deep then removeTree (os.has 'v') 64 n p m
      else
        let told (kind : String) : Raw := if os.has 'v' then kind.toList ++ quoted n ++ ['\n'] else []
        match m.removeFile p with
        | .ok m => .ok (m, told "removed ")
        | .error e =>
          let again : Except IoError Machine := if e = .os .EISDIR ∧ os.has 'd' then m.removeDir p else .error e
          (blame ("cannot remove ".toList ++ quoted n) again).map fun m => (m, told "removed directory ")

def rmdir (c : Call) : Deed :=
  c.withOptions { plain := "pv", long := [("parents", 'p'), ("verbose", 'v')] } fun os names =>
    if names.isEmpty then { err := c.misused "missing operand".toList, status := 1 }
    else
      let above (n : Raw) : List Raw := (List.range n.length).reverse.filterMap fun k =>
        if 0 < k ∧ n[k]? = some '/' ∧ n[k - 1]? ≠ some '/' then some (n.take k) else none
      let told (n : Raw) : Raw := if os.has 'v' then c.complain ("removing directory, ".toList ++ quoted n) else []
      let act (first n : Raw) (m : Machine) : Except Raw (Machine × Raw) := do
        let what : Raw := (if n = first then "failed to remove " else "failed to remove directory ").toList
        return (← blame (what ++ quoted n) (m.removeDir (c.path n)), told n)
      c.onEach names fun n m =>
        (n :: if os.has 'p' then above (withoutSlashes n) else []).foldlM (fun (m, text) k => do
          let (m, t) ← act n k m
          return (m, text ++ t)) (m, [])

def unlink (c : Call) : Deed :=
  c.withOptions {} fun _ names =>
    match names with
    | [] => { err := c.misused "missing operand".toList, status := 1 }
    | [n] => c.onEach [n] fun n m => do
      return (← blame ("cannot unlink ".toList ++ quoted n) (m.removeFile (c.path n)), [])
    | _ :: extra :: _ => { err := c.misused ("extra operand ".toList ++ quoted extra), status := 1 }

/-! ## Copies, moves and links -/

/-- The names of what is copied, moved or linked, and where each of them goes. -/
def routes (c : Call) (os : Options) (names : List Raw) : Except Deed (List Raw × (Raw → Raw)) :=
  let inside (dir : Raw) (n : Raw) : Raw := within dir (lastPart n)
  let isDir (n : Raw) : Bool := c.machine.isDir (c.path n) && !(os.has 'n' && os.has 's' && !(match
    nodeHere? c.machine (c.path n) with
    | some node => node.isDir
    | none => false))
  let noDir (what : String) (n : Raw) : Deed :=
    let why : Raw := match c.machine.find (c.path n) with
      | .ok _ => errorText (.os .ENOTDIR)
      | .error e => errorText e
    { err := c.complain (what.toList ++ quoted n ++ ": ".toList ++ why), status := 1 }
  match os.value? 't', names with
  | _, [] => .error { err := c.misused "missing file operand".toList, status := 1 }
  | some dir, names => if isDir dir then .ok (names, inside dir) else .error (noDir "target directory " dir)
  | none, [n] =>
    .error { err := c.misused ("missing destination file operand after ".toList ++ quoted n), status := 1 }
  | none, names =>
    let target := names.getLastD []
    let sources := names.dropLast
    if isDir target ∧ !os.has 'T' then .ok (sources, inside target)
    else if 1 < sources.length then .error (noDir "target " target)
    else .ok (sources, fun _ => target)

/-- Do something with each name and where it goes. -/
def onRoutes (c : Call) (os : Options) (names : List Raw)
    (act : Raw → Raw → Machine → Except Raw (Machine × Raw)) : Deed :=
  match routes c os names with
  | .error d => d
  | .ok (sources, goal) => c.onEach sources fun n m => act n (goal n) m

/-- Both names of a copy, a move or a link, with a mark between. -/
def arrow (first mark second : Raw) : Raw := quoted first ++ mark ++ quoted second ++ ['\n']

/-- Copy whatever a name leads to. -/
def copy (c : Call) (os : Options) : Nat → Raw → Raw → Machine → Except Raw (Machine × Raw)
  | 0, _, _, m => .ok (m, [])
  | fuel + 1, n, goal, m => do
    let deep := os.has 'r' || os.has 'R' || os.has 'a'
    let keeps := (deep || os.has 'd' || os.has 'P') && !os.has 'L'
    let (p, dest) := (c.path n, c.path goal)
    let place ← blame ("cannot stat ".toList ++ quoted n) (if keeps then m.findHere p else m.find p)
    if let .error (.os .ENOTDIR) := m.find dest then
      throw ("cannot stat ".toList ++ quoted goal ++ ": ".toList ++ errorText (.os .ENOTDIR))
    let there := (m.find dest).toOption
    let isDir := m.isDir dest
    let told : Raw := if os.has 'v' then arrow n " -> ".toList goal else []
    if os.has 'n' ∧ there.isSome ∧ !isDir then return (m, [])
    if there.map Place.ino = some place.ino ∧ !isDir then
      throw (quoted n ++ " and ".toList ++ quoted goal ++ " are the same file".toList)
    let fill (content : Bytes) (mode : Nat) : Except Raw (Machine × Raw) := do
      if isDir then throw ("cannot overwrite directory ".toList ++ quoted goal ++ " with non-directory".toList)
      let m ← blame ("cannot create regular file ".toList ++ quoted goal) (do
        match m.openSpot dest with
        | .error e => .error (if e = .os .EISDIR then .os .ENOTDIR else e)
        | .ok (.found place) => m.setContent place fun _ => content
        | .ok (.vacant dir name _) => .ok (m.createFile dir name content (mode &&& (0o7777 - c.mask))).2)
      return (m, told)
    match m.tree.node place.ino with
    | .dir es =>
      if !deep then throw ("-r not specified; omitting directory ".toList ++ quoted n)
      let above := (m.spot .make dest).toOption.map fun s => match s with
        | .found place => place
        | .vacant dir .. => dir
      if (above.getD []).any (·.2 == place.ino) then
        throw ("cannot copy a directory, ".toList ++ quoted n ++ ", into itself, ".toList ++ quoted goal)
      if there.isSome ∧ !isDir then
        throw ("cannot overwrite non-directory ".toList ++ quoted goal ++ " with directory ".toList ++ quoted n)
      let m ← if isDir then pure m else blame ("cannot create directory ".toList ++ quoted goal) (m.makeDir dest)
      es.foldlM (fun (m, text) (e, _) => do
        let e := Raw.ofBytes e
        let (m, t) ← copy c os fuel (within n e) (within goal e) m
        return (m, text ++ t)) (m, told)
    | .link target =>
      return (← blame ("cannot create symbolic link ".toList ++ quoted goal)
        (m.makeLink target dest), told)
    | .file content mode => fill content mode
    | .device d =>
      match descriptorOf? n with
      | some _ => fill (Raw.bytes ((c.read n).toOption.getD [])) 0o644
      | none => fill d.bytes 0o644

def cp (c : Call) : Deed :=
  let table : OptionTable :=
    { plain := "abdfHilLnprRsuPTvx", valued := "St"
      long := [("recursive", 'r'), ("force", 'f'), ("archive", 'a'), ("verbose", 'v'), ("no-clobber", 'n'),
        ("no-target-directory", 'T'), ("target-directory", 't'), ("dereference", 'L'), ("no-dereference", 'P')] }
  c.withOptions table fun os names => onRoutes c (os.filter (·.1 ≠ 's')) names (copy c os 64)

def mv (c : Call) : Deed :=
  let table : OptionTable :=
    { plain := "bfinuTv", valued := "St"
      long := [("force", 'f'), ("verbose", 'v'), ("no-clobber", 'n'), ("no-target-directory", 'T'),
        ("target-directory", 't')] }
  c.withOptions table fun os names => onRoutes c os names fun n goal m => do
    let (p, dest) := (c.path n, c.path goal)
    let place ← blame ("cannot stat ".toList ++ quoted n) (m.findHere p)
    let there := (m.findHere dest).toOption
    let overDir := (there.map fun t => (m.tree.node t.ino).isDir).getD false
    let isDir := (m.tree.node place.ino).isDir
    if os.has 'n' ∧ there.isSome then return (m, [])
    if there.map Place.ino = some place.ino then
      throw (quoted n ++ " and ".toList ++ quoted goal ++ " are the same file".toList)
    if overDir ∧ !isDir then
      throw ("cannot overwrite directory ".toList ++ quoted goal ++ " with non-directory".toList)
    if isDir ∧ there.isSome ∧ !overDir then
      throw ("cannot overwrite non-directory ".toList ++ quoted goal ++ " with directory ".toList ++ quoted n)
    match m.rename p dest with
    | .ok m => return (m, if os.has 'v' then "renamed ".toList ++ arrow n " -> ".toList goal else [])
    | .error (.os .EINVAL) =>
      throw ("cannot move ".toList ++ quoted n ++ " to a subdirectory of itself, ".toList ++ quoted goal)
    | .error (.os .ENOTEMPTY) => blame ("cannot overwrite ".toList ++ quoted goal) (.error (.os .ENOTEMPTY))
    | .error e => blame ("cannot move ".toList ++ quoted n ++ " to ".toList ++ quoted goal) (.error e)

def ln (c : Call) : Deed :=
  let table : OptionTable :=
    { plain := "bdfFinLPrsTv", valued := "St"
      long := [("symbolic", 's'), ("force", 'f'), ("no-dereference", 'n'), ("verbose", 'v'),
        ("no-target-directory", 'T'), ("target-directory", 't')] }
  c.withOptions table fun os names =>
    let soft := os.has 's'
    let os' := if os.has 'n' then ('s', []) :: os else os.filter (·.1 ≠ 's')
    let names := match names with
      | [n] => if os.has 't' then [n] else [n, ['.']]
      | names => names
    onRoutes c os' names fun n goal m => do
      let dest := c.path goal
      let there := (m.findHere dest).toOption
      let isDir (place : Place) : Bool := (m.tree.node place.ino).isDir
      let told : Raw := if os.has 'v' then arrow goal (if soft then " -> " else " => ").toList n else []
      let source ← if soft then pure none else
        (blame ("failed to access ".toList ++ quoted n) (m.findHere (c.path n))).map some
      if (source.map isDir).getD false then throw (quotedIfNeeded n ++ ": hard link not allowed for directory".toList)
      if os.has 'f' ∧ !soft ∧ there.map Place.ino = source.map Place.ino then
        throw (quoted n ++ " and ".toList ++ quoted goal ++ " are the same file".toList)
      let m ← match there with
        | some place =>
          if os.has 'f' then
            if isDir place then throw (quotedIfNeeded goal ++ ": cannot overwrite directory".toList)
            else blame ("cannot remove ".toList ++ quoted goal) (m.removeFile dest)
          else pure m
        | none => pure m
      if soft then
        return (← blame ("failed to create symbolic link ".toList ++ quoted goal) (m.makeLink (Raw.bytes n) dest), told)
      else
        match m.makeHardLink (c.path n) dest with
        | .ok m => return (m, told)
        | .error e =>
          let from' : Raw := if e = .os .EEXIST then [] else " => ".toList ++ quoted n
          blame ("failed to create hard link ".toList ++ quoted goal ++ from') (.error e)

def link (c : Call) : Deed :=
  c.withOptions {} fun _ names =>
    match names with
    | [] => { err := c.misused "missing operand".toList, status := 1 }
    | [n] => { err := c.misused ("missing operand after ".toList ++ quoted n), status := 1 }
    | [n, goal] => c.onEach [n] fun n m => do
      return (← blame ("cannot create link ".toList ++ quoted goal ++ " to ".toList ++ quoted n)
        (m.makeHardLink (c.path n) (c.path goal)), [])
    | _ :: _ :: extra :: _ => { err := c.misused ("extra operand ".toList ++ quoted extra), status := 1 }

/-- Where a name leads: all of it has to be there, or all but its last part. -/
def realName (m : Machine) (whole : Bool) (p : Path) : Except IoError Raw :=
  match m.canonicalize p with
  | .ok q => .ok (Raw.ofBytes q.raw)
  | .error e =>
    if whole then .error e
    else
      match m.spot .make p with
      | .ok (.vacant dir name _) => .ok (within (Raw.ofBytes dir.path.raw) (Raw.ofBytes name))
      | _ => .error e

/-- Where a name leads of which any part may be missing. -/
def looseName (m : Machine) (p : Path) : Raw :=
  let start : Raw := ['/']
  p.segments.foldl (fun here s =>
    if s = [] ∨ s = Path.dot then here
    else if s = Path.dotdot then firstParts here
    else
      let next := within here (Raw.ofBytes s)
      match m.canonicalize ⟨Raw.bytes next⟩ with
      | .ok q => Raw.ofBytes q.raw
      | .error _ => next) start

def readlink (c : Call) : Deed :=
  let table : OptionTable :=
    { plain := "femnqsvz"
      long := [("canonicalize", 'f'), ("canonicalize-existing", 'e'), ("canonicalize-missing", 'm'),
        ("no-newline", 'n'), ("verbose", 'v'), ("zero", 'z')] }
  c.withOptions table fun os names =>
    let stop : Raw := if os.has 'n' ∧ names.length = 1 then [] else [if os.has 'z' then '\x00' else '\n']
    let goal (n : Raw) : Except IoError Raw :=
      let p := c.path n
      match os.last? "fem" with
      | some 'm' => .ok (looseName c.machine p)
      | some k => realName c.machine (k = 'e') p
      | none => do
        match c.machine.tree.node (← c.machine.findHere p).ino with
        | .link target => .ok (Raw.ofBytes target)
        | _ => .error (.os .EINVAL)
    let faults := names.flatMap fun n => match goal n with
      | .error e => c.lament n e
      | .ok _ => []
    if names.isEmpty then { err := c.misused "missing operand".toList, status := 1 }
    else
      { out := names.flatMap fun n => ((goal n).toOption.map (· ++ stop)).getD []
        err := if os.has 'v' then faults else []
        status := if faults.isEmpty then 0 else 1 }

def realpath (c : Call) : Deed :=
  let table : OptionTable :=
    { plain := "emqsLPz", long := [("canonicalize-existing", 'e'), ("canonicalize-missing", 'm'), ("quiet", 'q')] }
  c.withOptions table fun os names =>
    if names.isEmpty then { err := c.misused "missing operand".toList, status := 1 }
    else c.onEach names fun n m =>
      if os.has 'm' then .ok (m, looseName m (c.path n) ++ ['\n'])
      else (blame (quotedIfNeeded n) (realName m (os.has 'e') (c.path n))).map fun t => (m, t ++ ['\n'])

/-! ## Modes -/

/-- Give a new mode to a file, and to all below a directory when it is asked for. -/
def changeMode (spec : Raw) (mask : Nat) (deep : Bool) : Nat → Path → Machine → Except IoError Machine
  | 0, _, m => .ok m
  | fuel + 1, p, m => do
    let place ← m.find p
    let node := m.tree.node place.ino
    let m ← m.setMode p ((changedMode node.isDir mask (modeOf node) spec).getD 0)
    match node, deep with
    | .dir es, true =>
      return es.foldl (fun m (n, _) => ((changeMode spec mask deep fuel (p.join ⟨n⟩) m).toOption).getD m) m
    | _, _ => return m

def chmod (c : Call) : Deed :=
  let isMode (a : Raw) : Bool := match a with
    | '-' :: k :: _ => "rwxXstugoa,+=01234567".toList.contains k
    | _ => false
  let spec? := (c.args.takeWhile (· ≠ ['-', '-'])).find? isMode
  let args := (spec?.map fun s => c.args.erase s).getD c.args
  { c with args }.withOptions { plain := "cfRv", long := [("recursive", 'R'), ("silent", 'f')] } fun os names =>
    let names := spec?.toList ++ names
    match names with
    | [] => { err := c.misused "missing operand".toList, status := 1 }
    | [spec] => { err := c.misused ("missing operand after ".toList ++ quoted spec), status := 1 }
    | spec :: names =>
      if (changedMode false c.mask 0 spec).isNone then
        { err := c.misused ("invalid mode: ".toList ++ quoted spec), status := 1 }
      else c.onEach names fun n m => do
        return (← blame ("cannot access ".toList ++ quoted n) (changeMode spec c.mask (os.has 'R') 64 (c.path n) m), [])

/-! ## Copies of the input -/

def tee (c : Call) : Deed :=
  let table : OptionTable :=
    { plain := "aip", long := [("append", 'a'), ("ignore-interrupts", 'i'), ("output-error", 'p')] }
  c.withOptions table fun os names =>
    let text := Raw.bytes c.input
    let mode := 0o666 &&& (0o7777 - c.mask)
    let d := c.onEach names fun n m =>
      match descriptorOf? n with
      | some _ => .ok (m, [])
      | none => do
        return (← blame (quotedIfNeeded n)
          (if os.has 'a' then m.append true (c.path n) text mode else m.write (c.path n) text mode), [])
    let others := names.filterMap fun n => (descriptorOf? n).map fun fd => (fd, c.input)
    { d with writes := (1, c.input) :: others ++ d.writes, rest := some [] }

end Retrace.Shell.Tool
