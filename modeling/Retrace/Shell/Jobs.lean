import Retrace.Shell.Builtin

/-!
# Processes beside each other

What happens between processes: how one comes from another and goes on after it, signals from one to another, and the
waiting for processes that work beside.
-/

namespace Retrace.Shell

open State (Written)

/-- The process that leads. -/
def leaderId : Nat := 1000

/-- Signals that a process ignores stay ignored by the programs that it starts, and its other reactions are given up. -/
def State.withoutTraps (s : State) : State :=
  { s with
    farewell := none
    reactions := s.reactions.filter fun (_, r) => match r with
      | .ignore => true
      | .run _ => false }

/-- A process that comes from another. -/
def State.fork (s : State) : State :=
  { s.withoutTraps with pid := s.nextPid, nextPid := s.nextPid + 1, leads := false }

/-- The variables that a shell has from its start, with their values. -/
def startVars : List (Raw × Raw) :=
  [("IFS", " \t\n"), ("PATH", "/usr/local/sbin:/usr/local/bin:/usr/sbin:/usr/bin:/sbin:/bin"), ("PS1", "# "),
    ("PS2", "> "), ("PS4", "+ "), ("OPTIND", "1")].map fun (n, v) => (n.toList, v.toList)

/-- A process that becomes a shell. What is not its own it gets from the environment. -/
def State.newShell (s : State) (name : Raw) : State :=
  let settings := s.environment.filterMap fun (k, v) =>
    let text := k ++ '=' :: v
    let name := text.takeWhile Reader.isNameChar
    match text.drop name.length with
    | '=' :: value => if Reader.isName name then some (name, value) else none
    | _ => none
  let fresh : State := { s with
    toProcess :=
      { pid := s.pid, shell := s.pid, name, dir := s.dir, fds := s.fds, reactions := s.reactions, leads := s.leads
        mask := s.mask, vars := startVars } }
  let t := settings.foldl (fun (t : State) (n, v) => (t.setVar n v).export n) fresh
  let t := startVars.foldl (fun (t : State) (n, v) =>
    if n = "IFS".toList ∨ n = "OPTIND".toList then t.setVar n v else t) t
  let here := Raw.ofBytes s.dir.raw
  let shown := ((t.var "PWD".toList).filter fun d =>
    d.head? == some '/' && (s.machine.canonicalize ⟨Raw.bytes d⟩).toOption == some s.dir).getD here
  { ((t.setVar "PPID".toList ['1']).setVar "PWD".toList shown).export "PWD".toList with shownDir := shown }

/-- The options at the start of a shell, whether a script is among the arguments, and the other arguments. -/
def State.startOptions (isScript : Bool) : Nat → List Raw → State →
    Except (Raw × State) (Bool × List Raw × State)
  | 0, args, s => .ok (isScript, args, s)
  | fuel + 1, args, s =>
    match args with
    | ['-'] :: rest => .ok (isScript, rest, s)
    | ['-', '-'] :: rest => .ok (isScript, rest, s)
    | (sign :: cs) :: rest =>
      if sign ≠ '-' ∧ sign ≠ '+' then .ok (isScript, args, s)
      else
        let isKnown (c : Char) : Bool := c == 'c' || c == 'l' || c == 'o' || isFlag c
        let s := ((cs.takeWhile isKnown).filter isFlag).foldl (fun s c => s.setOption c (sign == '-')) s
        let isScript := isScript || (cs.takeWhile isKnown).contains 'c'
        match cs.find? (!isKnown ·) with
        | some c => .error ("Illegal option -".toList ++ [c], s)
        | none =>
          if !cs.contains 'o' then State.startOptions isScript fuel rest s
          else
            match rest with
            | [] => .ok (isScript, [], s)
            | name :: rest =>
              match optionNames.find? (·.name.toList == name) with
              | some o => State.startOptions isScript fuel rest (s.setOption o.letter (sign == '-'))
              | none => .error ("Illegal option -o ".toList ++ name, s)
    | _ => .ok (isScript, args, s)

/-- The status that the end of a process shows to the one that has started it. -/
def exitStatus (f : Flow) (s : State) : Nat :=
  match f with
  | .killed n => 128 + n
  | _ => s.status % 256

/-- A shell tells that a signal has ended a process. -/
def State.mourn (s : State) (signal : Nat) : State :=
  match obituaries.lookup signal with
  | some text => s.tell (text.toList ++ ['\n'])
  | none => s

/-- A process goes on after one that it has started. -/
def State.resume (parent : State) (r : Flow × State) : Flow × State :=
  let (f, s) := r
  let s := { s with toProcess := { parent.toProcess with status := exitStatus f s } }
  match f with
  | .never => (.never, s)
  | .killed n => (.next, s.mourn n)
  | _ => (.next, s)

/-- The pipes of the leading process that descriptors lead to. -/
def State.held (s : State) : List Nat :=
  s.fds.filterMap fun (_, c) => match c with
    | .pipe n => if n < 3 then some n else none
    | _ => none

/-- Take a process that has gone its way in as one beside this one. -/
def State.adopt (s : State) (pid : Nat) (holds : List Nat) (r : Flow × State) : State :=
  let (f, t) := r
  let b : Background :=
    { pid, parent := s.pid, ends := if f = .never then none else some t.now, status := exitStatus f t
      pending := t.changes.reverse, holds }
  let s : State := { s with
    pipes := t.pipes, files := t.files, nextPid := t.nextPid, signals := t.signals
    backgrounds := s.backgrounds ++ b :: t.backgrounds, lastBackground := some pid, status := 0 }
  s.goTo s.now

/-- The processes that this one has started beside itself. -/
def State.own (s : State) : List Background := s.backgrounds.filter (·.parent == s.pid)

/-- A process is at work at a moment. -/
def Background.isAlive (b : Background) (moment : Nat) : Bool :=
  match b.ends with
  | some t => moment < t
  | none => true

/-- The process that a word stands for: by its number, or by its place among those that were started. -/
def State.processId (s : State) (word : Raw) : Except Raw Nat :=
  match word with
  | '%' :: n =>
    let k := if n = [] ∨ n = ['%'] ∨ n = ['+'] then s.own.length else (Raw.nat? n).getD 0
    match (if k = 0 then none else s.own[k - 1]?) with
    | some b => .ok b.pid
    | none => .error ("No such job: ".toList ++ word)
  | w =>
    match Raw.nat? w with
    | some n => .ok n
    | none => .error ("Illegal number: ".toList ++ w)

/-- Send a signal to a process. -/
def State.send (s : State) (signal target : Nat) : Bool × State :=
  if target = leaderId then
    if signal = 0 then (true, s)
    else
      let s := { s with signals := s.signals ++ [(s.now, signal)] }
      (true, if isHalting signal then ({ s with halted := true } : State).goTo (s.horizon + 1) else s)
  else
    match s.backgrounds.find? (·.pid == target) with
    | some b => (b.isAlive s.now, if signal = 0 ∨ isQuiet signal then s else s.killBackground target signal)
    | none => (target == s.pid, s)

/-- Wait for processes beside this one, and end with a status. A signal that has a reaction ends the waiting. -/
def State.await (s : State) (status : Nat) (targets : List Background) : Flow × State :=
  let ends : Option Nat := targets.foldl (fun acc b => do return max (← acc) (← b.ends)) (some s.now)
  let last := ends.getD (s.horizon + 1)
  let wakes := (s.signals.filter fun (t, n) =>
    t ≤ last && (match s.reactions.lookup n with
      | some (.run _) => n != sigKill
      | _ => false)).mergeSort fun a b => a.1 ≤ b.1
  match (if s.leads then wakes.head? else none) with
  | some (t, n) => (s.goTo t).ended (128 + n)
  | none => if ends.isNone then (.never, s) else (s.goTo last).ended status

/-- Wait for all processes beside this one, or for the named ones. -/
def State.waitFor (s : State) (args : List Raw) : Flow × State :=
  s.withOptions [] [] args fun _ args =>
    if args.isEmpty then s.await 0 s.own
    else
      match args.mapM s.processId with
      | .error why => s.refuse why
      | .ok ids =>
        match ids.filterMap fun k => s.own.find? (·.pid == k) with
        | [] => s.ended 127
        | targets =>
          let isKnown := (ids.getLast?.map fun k => s.own.any (·.pid == k)).getD true
          let (f, t) := s.await (if isKnown then (targets.getLast?.map (·.status)).getD 0 else 127) targets
          let killed := targets.any fun b => b.status = t.status && (match b.ends with
            | some moment => decide (s.now ≤ moment)
            | none => false)
          (f, if f = .next ∧ 128 < t.status ∧ killed then t.mourn (t.status - 128) else t)

/-- Tell how the processes beside this one are doing. -/
def State.listJobs (s : State) (args : List Raw) : Flow × State :=
  s.withOptions ['l', 'p'] [] args fun _ _ =>
    let count := s.own.length
    let line (b : Background) (k : Nat) : Raw :=
      let sign := if k = count then '+' else if k + 1 = count then '-' else ' '
      let doing := if b.isAlive s.now then "Running".toList
        else if 128 < b.status then ((obituaries.lookup (b.status - 128)).getD "Done").toList
        else if b.status = 0 then "Done".toList
        else "Done(".toList ++ (toString b.status).toList ++ [')']
      let text := '[' :: (toString k).toList ++ [']', ' ', sign, ' '] ++ doing
      text ++ List.replicate (33 - text.length) ' ' ++ ['\n']
    s.output ((s.own.zipIdx 1).flatMap fun (b, k) => line b k) 0

/-- Send signals as the arguments say. The last result is the reaction of the process to a signal to itself that is to
be run now. -/
def State.kill (s : State) (args : List Raw) : (Flow × State) × Option Raw :=
  let usage := "Usage: kill [-s sigspec | -signum | -sigspec] [pid | job]... or\nkill -l [exitstatus]".toList
  let (signal, targets) : Except Raw Nat × List Raw := match args with
    | ['-', 's'] :: n :: ts =>
      (match signal? n with
        | some k => .ok k
        | none => .error ("invalid signal number or name: ".toList ++ n), if ts.head? = some ['-', '-'] then ts.drop 1 else ts)
    | ['-', '-'] :: ts => (.ok sigTerm, ts)
    | ('-' :: n) :: ts =>
      (match signal? n with
        | some k => .ok k
        | none => .error ("Illegal option -".toList ++ n.take 1), if ts.head? = some ['-', '-'] then ts.drop 1 else ts)
    | ts => (.ok sigTerm, ts)
  match args, signal with
  | ['-', 'l'] :: ns, _ => (s.listSignals ns, none)
  | _, .error why => (s.refuse why, none)
  | _, .ok signal =>
    if targets.isEmpty then (s.refuse usage, none)
    else
      match targets.mapM s.processId with
      | .error why => (s.refuse why, none)
      | .ok ids =>
        let (ok, s) := ids.foldl (fun (ok, s) p =>
          let (here, s) := State.send s signal p
          (ok && here, s)) (true, s)
        if !s.leads ∧ ids.contains s.pid ∧ signal ≠ 0 ∧ !isQuiet signal then
          match (if signal = sigKill then none else s.reactions.lookup signal) with
          | none => ((.killed signal, s), none)
          | some .ignore => (s.ended 0, none)
          | some (.run script) => (s.ended 0, some script)
        else if ok then (s.ended 0, none)
        else ((s.complain "No such process\n".toList).ended 1, none)

/-! ## Flow -/

/-- A command that has failed ends a strict shell, unless it stands in a condition. -/
def strictly (r : Flow × State) : Flow × State :=
  match r with
  | (.next, s) => (if s.has 'e' && !s.inCondition && s.status ≠ 0 then .leave else .next, s)
  | r => r

/-- What is left after one turn of a loop, or after its end. -/
inductive Turn where
  | more
  | done (f : Flow)

/-- What the end of its commands means for a loop. -/
def Flow.turn : Flow → Turn
  | .next => .more
  | .again n => if n ≤ 1 then .more else .done (.again (n - 1))
  | .stop n => .done (if n ≤ 1 then .next else .stop (n - 1))
  | f => .done f

/-- The process has reactions that only a shell can show. -/
def State.hasTraps (s : State) : Bool :=
  s.farewell.isSome || s.reactions.any fun (_, r) => match r with
    | .run _ => true
    | .ignore => false

/-- What a failure that cannot be passed over comes to. -/
def State.abort (s : State) : Flow × State := (.abort, { s with status := 2, broken := false })

/-- The number of loops that `break` or `continue` is about. -/
def State.loopCount (s : State) (flow : Nat → Flow) (args : List Raw) : Flow × State :=
  s.withNumber 1 args fun n =>
    if n = 0 then s.refuse ("Illegal number: ".toList ++ args.headD [])
    else if s.loops = 0 then s.ended 0
    else (flow (min n s.loops), { s with status := 0 })

/-! ## Tools -/

/-- How a tool tells that its output cannot be written, and its status then. -/
def outputFault (tool name : Raw) (e : Errno) : Raw × Nat :=
  let say (text : String) : Raw := name ++ ": ".toList ++ text.toList
  match String.ofList tool with
  | "sed" => (say "couldn't flush stdout: " ++ e.text.toList ++ ['\n'], 4)
  | "sort" => (say "fflush failed: 'standard output': " ++ e.text.toList ++ '\n' :: say "write error\n", 2)
  | "grep" | "ls" => (say "write error: " ++ e.text.toList ++ ['\n'], 2)
  | "env" => (say "write error: " ++ e.text.toList ++ ['\n'], 125)
  | _ => (say "write error: " ++ e.text.toList ++ ['\n'], 1)

/-- What a tool has done is done. -/
def State.perform (s : State) (tool name : Raw) (d : Deed) : Flow × State :=
  let source := s.channel 0
  let s := match d.rest with
    | some rest => (s.goTo (s.completeAt source)).leaveRest source rest
    | none => s
  let s := d.changes.foldl State.change (s.pass d.millis)
  let step : State × Written → Nat × Raw → State × Written := fun (s, w) (fd, text) =>
    if fd = 1 ∧ w ≠ .done then (s, w)
    else
      let (v, s) := s.write (s.channel fd) text
      (s, if fd = 1 then v else w)
  let (s, written) := (d.writes ++ [(2, d.err), (1, d.out)]).foldl step (s, .done)
  let fail (e : Errno) : Flow × State :=
    let (text, status) := outputFault tool name e
    (s.tell text).ended (max status d.status)
  match written with
  | .done => s.ended d.status
  | .failed e => fail e
  | .unread => if s.reactions.lookup sigPipe = some .ignore then fail .EPIPE else (.killed sigPipe, s)

/-- A tool does its work. -/
def State.useTool (s : State) (act : Call → Deed) (tool name : Raw) (args : List Raw) : Flow × State :=
  s.perform tool name (act
    { name, args, machine := s.machine, dir := s.dir, env := s.environment, mask := s.mask
      streams := s.fds.map fun (fd, c) => (fd, s.contentOf c)
      rewinds := match s.channel 0 with
        | some (.file _) => true
        | _ => false })

/-- The program `kill` sends signals from a process of its own. -/
def State.killTool (s : State) (name : Raw) (args : List Raw) : Flow × State :=
  let complain (why : Raw) : Raw := name ++ ": ".toList ++ why ++ ['\n']
  let (signal, targets) : Option Nat × List Raw := match args with
    | ['-', 's'] :: n :: ts => (signal? n, ts)
    | ['-', '-'] :: ts => (some sigTerm, ts)
    | ('-' :: n) :: ts => (signal? n, ts)
    | ts => (some sigTerm, ts)
  match args, signal with
  | ['-', 'l'] :: n :: _, _ =>
    let text : Raw := match Raw.nat? n with
      | some k => signalName (k % 128)
      | none => (toString ((signal? n).getD 0)).toList
    s.perform "kill".toList name { out := text ++ ['\n'] }
  | _, none => s.perform "kill".toList name { err := complain "invalid argument".toList, status := 1 }
  | _, some signal =>
    let step (r : State × Raw) (target : Raw) : State × Raw :=
      match Raw.nat? target with
      | none => (r.1, r.2 ++ complain ("failed to parse argument: '".toList ++ target ++ ['\'']))
      | some pid =>
        let (ok, s) := r.1.send signal pid
        (s, if ok then r.2 else r.2 ++ complain ('(' :: target ++ "): No such process".toList))
    let (s, err) := targets.foldl step (s, [])
    s.perform "kill".toList name { err, status := if err.isEmpty ∧ !targets.isEmpty then 0 else 1 }

/-- The longest argument or setting of a program, and the size of all of them. -/
def longestWord : Nat := 131071

def mostWords : Nat := 2097152

/-- A program cannot be given so much. -/
def isTooMuch (argv : List Raw) (env : List (Raw × Raw)) : Bool :=
  let words := argv.map List.length ++ env.map fun (k, v) => k.length + 1 + v.length
  words.any (longestWord < ·) || mostWords < words.foldl (fun n w => n + w + 9) 4096

/-- The tool that is started for a program at a path. -/
def State.loadProgram (s : State) (argv : List Raw) (p : Path) : Except IoError (Raw × List Raw) := do
  let r ← s.machine.loadAny s.dir p argv
  if isTooMuch argv s.environment then .error (.os .E2BIG) else .ok r

/-- What is started for a program that a shell has to become: the first along the search path that can be. Of the
reasons why others cannot, the last counts that is not that they are not there. -/
def State.loadNamed (s : State) (searchPath : Bytes) (argv : List Raw) : Except IoError (Raw × List Raw) :=
  let name := argv.headD []
  if name.contains '/' then s.loadProgram argv ⟨Raw.bytes name⟩
  else
    (Machine.candidates searchPath (Raw.bytes name)).foldl (fun found p =>
      match found with
      | .ok r => .ok r
      | .error why =>
        match s.loadProgram argv p with
        | .ok r => .ok r
        | .error e => .error (if e = .os .ENOENT ∨ e = .os .ENOTDIR then why else e)) (.error (.os .ENOENT))

/-- How a shell tells that a program cannot be started, and the status then. -/
def startFault (name : Raw) (e : IoError) : Raw × Nat :=
  match e with
  | .os e =>
    (name ++ ": ".toList ++ (if e = .ENOENT ∨ e = .ENOTDIR then "not found" else e.text).toList,
      if e = .ENOENT ∨ e = .ENOTDIR ∨ e = .ELOOP ∨ e = .ENAMETOOLONG then 127 else 126)
  | e => (name ++ ": ".toList ++ Raw.ofText e.text, 126)

end Retrace.Shell
