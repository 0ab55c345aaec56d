import Retrace.Shell.Condition
import Retrace.Shell.Format
import Retrace.Shell.Tool.Text

/-!
# Processes of a shell

What a shell at work holds, in a time that only waiting moves on: its variables and descriptors, the pipes and open
files behind them, the processes beside it, and the changes that it has made to the machine, each with its moment.
-/

namespace Retrace.Shell

/-- Where a descriptor leads. -/
inductive Channel where
  | device (d : Device)
  | pipe (n : Nat)
  | file (n : Nat)
  deriving DecidableEq, Repr

/-- A text that was written into a pipe. -/
structure Chunk where
  time : Nat
  writer : Nat
  text : Raw
  deriving Repr

/-- A pipe: the texts in it, the last one first, and when the last writer closed it. -/
structure Pipe where
  chunks : List Chunk := []
  closed : Nat := 0
  deriving Repr

/-- A file that is open for writing at a place, or at its end. -/
structure OpenFile where
  path : Path
  place : Nat
  atEnd : Bool
  deriving Repr

/-- What a process does about a signal in place of what all do. -/
inductive Reaction where
  | ignore
  | run (script : Raw)
  deriving DecidableEq

/-- A change to the machine with its moment. -/
abbrev TimedChange := Nat × (Machine → Machine)

/-- A process that was started beside the others. -/
structure Background where
  pid : Nat
  parent : Nat
  /-- When it ends, if ever. -/
  ends : Option Nat
  status : Nat
  /-- What it has still to change. -/
  pending : List TimedChange
  /-- The pipes of the leading process that it keeps open. -/
  holds : List Nat

/-- What belongs to a single process. -/
structure Process where
  pid : Nat
  vars : List (Raw × Raw) := []
  exported : List Raw := []
  /-- The variables that cannot be changed. -/
  fixed : List Raw := []
  functions : List (Raw × Command) := []
  name : Raw := []
  args : List Raw := []
  /-- The variables of the function at hand, with the values that they had before. -/
  locals : List (Raw × Option Raw) := []
  /-- The working directory, without links, and how the shell calls it. -/
  dir : Path
  shownDir : Raw := []
  fds : List (Nat × Channel) := []
  reactions : List (Nat × Reaction) := []
  farewell : Option Raw := none
  status : Nat := 0
  lastBackground : Option Nat := none
  /-- The signals from outside go to this process. -/
  leads : Bool := false
  /-- An expansion has failed. -/
  broken : Bool := false
  /-- The status of the last command whose output was taken into a word. -/
  substituted : Nat := 0
  /-- The process of the shell that this one comes from, which may be itself. -/
  shell : Nat
  /-- The options that are set, by their letters. -/
  options : List Char := []
  inCondition : Bool := false
  /-- Nothing is left to do after the command at work. -/
  isFinal : Bool := false
  /-- The line of the command at work, and the line that has been read. -/
  line : Nat := 1
  readLine : Nat := 1
  /-- The builtin at work. -/
  builtin : Raw := []
  /-- The argument that `getopts` looks at next, and how far it has come in the one before. -/
  optionIndex : Nat := 1
  optionPlace : Option Nat := none
  /-- The programs that have been looked for. -/
  hashed : List Raw := []
  aliases : List (Raw × Raw) := []
  /-- How many loops are at work. -/
  loops : Nat := 0
  inFunction : Bool := false
  mask : Nat := 0o022
  /-- The status from before the signal or the end that is being attended to. -/
  kept : Option Nat := none

/-- What the processes share. -/
structure Scene where
  machine : Machine
  /-- The changes so far, the last one first. -/
  changes : List TimedChange := []
  now : Nat := 0
  /-- Input, output and error output of the leading process, and then the pipes between the others. -/
  pipes : Array Pipe
  files : Array OpenFile := #[]
  backgrounds : List Background := []
  nextPid : Nat
  /-- Signals to the leading process with their moments. -/
  signals : List (Nat × Nat) := []
  /-- When the other ends of the first three pipes are closed. -/
  cut : Option Nat := none
  /-- How long time goes on. -/
  horizon : Nat
  /-- The leading process is halted until it is killed. -/
  halted : Bool := false

/-- A process at work. -/
structure State extends Process, Scene

/-- How a command ends. -/
inductive Flow where
  | next
  | leave
  | killed (signal : Nat)
  | stop (loops : Nat)
  | again (loops : Nat)
  | back
  /-- It has failed in a way that ends the shell. -/
  | abort
  /-- It does not end. -/
  | never
  deriving DecidableEq, Repr

/-- The names of the signals with their numbers. -/
def signalNumbers : List (String × Nat) :=
  [("EXIT", 0), ("HUP", 1), ("INT", 2), ("QUIT", 3), ("ILL", 4), ("TRAP", 5), ("ABRT", 6), ("BUS", 7), ("FPE", 8),
    ("KILL", 9), ("USR1", 10), ("SEGV", 11), ("USR2", 12), ("PIPE", 13), ("ALRM", 14), ("TERM", 15),
    ("CHLD", 17), ("CONT", 18), ("STOP", 19), ("TSTP", 20), ("TTIN", 21), ("TTOU", 22), ("URG", 23), ("XCPU", 24),
    ("XFSZ", 25), ("VTALRM", 26), ("PROF", 27), ("WINCH", 28), ("IO", 29), ("PWR", 30), ("SYS", 31)]

/-- What a shell calls the end of a process by a signal. -/
def obituaries : List (Nat × String) :=
  [(1, "Hangup"), (3, "Quit"), (4, "Illegal instruction"), (5, "Trace/breakpoint trap"), (6, "Aborted"),
    (7, "Bus error"), (8, "Floating point exception"), (9, "Killed"), (10, "User defined signal 1"),
    (11, "Segmentation fault"), (12, "User defined signal 2"), (14, "Alarm clock"), (15, "Terminated"),
    (16, "Stack fault"), (24, "CPU time limit exceeded"), (25, "File size limit exceeded"),
    (26, "Virtual timer expired"), (27, "Profiling timer expired"), (29, "I/O possible"), (30, "Power failure"),
    (31, "Bad system call")]

/-- The signal that a name or number stands for. -/
def signal? (name : Raw) : Option Nat :=
  match Raw.nat? name with
  | some n => if n ≤ 64 then some n else none
  | none => signalNumbers.lookup (String.ofList (name.map Char.toUpper))

/-- The name of a signal. -/
def signalName (n : Nat) : Raw :=
  match signalNumbers.find? (·.2 == n) with
  | some (name, _) => name.toList
  | none => (toString n).toList

def sigKill : Nat := 9
def sigPipe : Nat := 13
def sigTerm : Nat := 15

/-- Nobody takes notice of these signals unless he asks for them. -/
def isQuiet (signal : Nat) : Bool := signal == 17 || signal == 18 || signal == 23 || signal == 28

/-- These signals halt a process. -/
def isHalting (signal : Nat) : Bool := 19 ≤ signal && signal ≤ 22

namespace State

/-- The value of a variable. -/
def var (s : State) (name : Raw) : Option Raw := s.vars.lookup name

def setVar (s : State) (name value : Raw) : State :=
  { s with vars := if (s.vars.lookup name).isSome then s.vars.map fun (n, v) => if n = name then (n, value) else (n, v)
      else s.vars ++ [(name, value)] }

def unsetVar (s : State) (name : Raw) : State :=
  { s with vars := s.vars.filter (·.1 ≠ name), exported := s.exported.filter (· ≠ name) }

def «export» (s : State) (name : Raw) : State :=
  if s.exported.contains name then s else { s with exported := s.exported ++ [name] }

/-- An option is set. -/
def has (s : State) (letter : Char) : Bool := s.options.contains letter

def setOption (s : State) (letter : Char) (on : Bool) : State :=
  { s with options := if !on then s.options.filter (· ≠ letter)
      else if s.has letter then s.options else letter :: s.options }

/-- The place of a variable in the environment, which variables of one place share in their order. -/
def bucket (name : Raw) : Nat :=
  (name.foldl (fun n c => n + c.toNat) (((name.head?.map Char.toNat).getD 0) <<< 4)) % 39

/-- The variables that other programs get. -/
def environment (s : State) : List (Raw × Raw) :=
  (s.vars.filter fun (n, _) => s.exported.contains n).mergeSort fun a b => bucket a.1 ≤ bucket b.1

/-- The path that a name stands for. -/
def path (s : State) (name : Raw) : Path := if name = [] then ⟨[]⟩ else s.dir.join ⟨Raw.bytes name⟩

/-- Change the machine. -/
def change (s : State) (f : Machine → Machine) : State :=
  { s with machine := f s.machine, changes := (s.now, f) :: s.changes }

/-- Go on to a moment. What others were to change until then has been changed. -/
def goTo (s : State) (moment : Nat) : State :=
  let moment := max s.now moment
  let due := (s.backgrounds.flatMap fun b => b.pending.filter (·.1 ≤ moment)).mergeSort fun a b => a.1 ≤ b.1
  { s with
    now := moment
    machine := due.foldl (fun m c => c.2 m) s.machine
    changes := due.reverse ++ s.changes
    backgrounds := s.backgrounds.map fun b => { b with pending := b.pending.filter (moment < ·.1) } }

/-- Let some time pass. -/
def pass (s : State) (ms : Nat) : State := s.goTo (s.now + ms)

/-- The channel of a descriptor. -/
def channel (s : State) (fd : Nat) : Option Channel := s.fds.lookup fd

def setFd (s : State) (fd : Nat) (c : Option Channel) : State :=
  let others := s.fds.filter (·.1 ≠ fd)
  { s with fds := match c with
    | some c => (fd, c) :: others
    | none => others }

/-- A new pipe. -/
def newPipe (s : State) : Nat × State := (s.pipes.size, { s with pipes := s.pipes.push {} })

/-- The other end of a pipe is closed. -/
def isCut (s : State) (n : Nat) : Bool :=
  n < 3 && (match s.cut with
    | some t => t ≤ s.now
    | none => false)

/-- How much a pipe holds that nobody reads. -/
def pipeCapacity : Nat := 65536

/-- All that is in a pipe, in order. -/
def pipeText (s : State) (n : Nat) : Raw :=
  let p := s.pipes.getD n {}
  let text := match p.chunks with
    | [] => []
    | [c] => c.text
    | cs => (cs.reverse.mergeSort fun a b => a.time ≤ b.time).flatMap (·.text)
  if n = 0 ∧ s.isCut 0 then text.take pipeCapacity else text

/-- What a process can read from a channel in all. -/
def contentOf (s : State) (c : Channel) : Except IoError Raw :=
  match c with
  | .pipe n => .ok (s.pipeText n)
  | .file n =>
    match s.files[n]? with
    | some f => (s.machine.read f.path).map fun bs => Raw.ofBytes (bs.drop f.place)
    | none => .error (.os .EBADF)
  | .device d => .ok (Raw.ofBytes d.bytes)

/-- All the text that a process can read from a channel. -/
def textOf (s : State) (c : Option Channel) : Raw := ((c.map fun c => (s.contentOf c).toOption.getD []).getD [])

/-- When all that can be read from a channel is there. -/
def completeAt (s : State) (c : Option Channel) : Nat :=
  match c with
  | some (.pipe n) => (s.pipes.getD n {}).closed
  | _ => s.now

/-- A process has read from a channel and left the rest. -/
def leaveRest (s : State) (c : Option Channel) (rest : Raw) : State :=
  match c with
  | some (.pipe n) =>
    { s with pipes := s.pipes.modify n fun p => { p with chunks := if rest = [] then [] else [⟨0, 0, rest⟩] } }
  | some (.file n) =>
    let all := s.textOf c
    { s with files := s.files.modify n fun f => { f with place := f.place + (all.length - rest.length) } }
  | _ => s

/-- Put bytes into a file at a place. -/
def splice (p : Path) (place : Option Nat) (text : Bytes) (m : Machine) : Except IoError Machine :=
  match place with
  | none => m.append false p text
  | some k => do
    let old ← m.read p
    m.write p (old.take k ++ List.replicate (k - old.length) 0 ++ text ++ old.drop (k + text.length))

/-- How writing into a channel goes. -/
inductive Written where
  | done
  /-- Nobody is left to read. -/
  | unread
  | failed (e : Errno)
  deriving DecidableEq

/-- Write into a channel. -/
def write (s : State) (c : Option Channel) (text : Raw) : Written × State :=
  if text = [] then (.done, s)
  else
    match c with
    | some (.pipe n) =>
      if s.isCut n then (.unread, s)
      else (.done, { s with pipes := s.pipes.modify n fun p => { p with chunks := ⟨s.now, s.pid, text⟩ :: p.chunks } })
    | some (.file n) =>
      match s.files[n]? with
      | some f =>
        let bs := Raw.bytes text
        let act := attempt (splice f.path (if f.atEnd then none else some f.place) bs)
        let s := s.change act
        (.done, { s with files := s.files.modify n fun f => { f with place := f.place + bs.length } })
      | none => (.done, s)
    | some (.device .full) => (.failed .ENOSPC, s)
    | some (.device _) => (.done, s)
    | none => (.failed .EBADF, s)

/-- The mode of a new file. -/
def newMode (s : State) : Nat := 0o666 &&& (0o7777 - s.mask)

/-- Write to the error output. -/
def tell (s : State) (text : Raw) : State := (s.write (s.channel 2) text).2

/-- Write a complaint of the shell. -/
def complain (s : State) (text : Raw) : State :=
  let part (t : Raw) : Raw := t ++ [':', ' ']
  s.tell (part s.name ++ part (toString s.line).toList ++ (if s.builtin = [] then [] else part s.builtin) ++ text ++
    ['\n'])

/-- Something fails in a way that ends the command at hand, and a script with it. -/
def breakOff (s : State) (why : Raw) : State := { s.complain why with broken := true }

/-- Give a value to a variable, if it can be changed. -/
def store (s : State) (name value : Raw) : State :=
  if s.fixed.contains name then s.breakOff (name ++ ": is read only".toList)
  else
    let s := s.setVar name value
    let s := if s.has 'a' then s.export name else s
    if name = "OPTIND".toList then
      { s with optionIndex := max 1 ((Raw.nat? value).getD 1), optionPlace := none }
    else s

/-- The wording for a file that cannot be opened, or that cannot be made. -/
def openFault (making : Bool) (e : IoError) : Raw :=
  match e with
  | .os e =>
    if e = Errno.ENOENT ∨ e = Errno.ENOTDIR then
      (if making then "Directory nonexistent" else "No such file").toList
    else e.text.toList
  | e => Raw.ofText e.text

/-- Open a file for a redirection, or say why not. -/
def openFor (s : State) (kind : RedirectKind) (name : Raw) : Except Raw (Channel × State) :=
  let p := s.path name
  let refused (making : Bool) (e : IoError) : Except Raw (Channel × State) :=
    .error ((if making then "cannot create " else "cannot open ").toList ++ name ++ ": ".toList ++ openFault making e)
  let opened (s : State) (atEnd : Bool) : Except Raw (Channel × State) :=
    match s.machine.node? p with
    | some (.device .terminal) => refused (kind ≠ .read) (.os .ENXIO)
    | some (.device d) => .ok (.device d, s)
    | _ => .ok (.file s.files.size, { s with files := s.files.push ⟨p, 0, atEnd⟩ })
  let made (s : State) (atEnd : Bool) : Except Raw (Channel × State) :=
    match s.machine.append true p [] with
    | .ok _ => opened (if s.machine.isThere p then s else s.change (attempt (·.append true p [] s.newMode))) atEnd
    | .error e => refused true e
  match descriptorOf? name with
  | some fd =>
    match s.channel fd with
    | some c => .ok (c, s)
    | none => refused (kind ≠ .read) (.os .ENXIO)
  | none =>
    match kind with
    | .read =>
      match s.machine.find p with
      | .ok _ => opened s false
      | .error e => refused false e
    | .append => made s true
    | .readWrite => made s false
    | kind =>
      if kind = .write ∧ s.has 'C' ∧ s.machine.isFile p then refused true (.os .EEXIST)
      else
        match s.machine.write p [] with
        | .ok _ => opened (s.change (attempt (·.write p [] s.newMode))) false
        | .error e => refused true e

/-- A process beside the others is killed. -/
def killBackground (s : State) (pid signal : Nat) : State :=
  { s with
    backgrounds := s.backgrounds.map fun b =>
      if b.pid = pid && (match b.ends with
          | some t => decide (s.now < t)
          | none => true) then
        { b with ends := some s.now, status := 128 + signal, pending := [] }
      else b
    pipes := s.pipes.map fun p => { p with chunks := p.chunks.filter fun c => c.writer ≠ pid ∨ c.time ≤ s.now } }

/-- The next thing that a signal does to the leading process, when it is its turn. -/
inductive Blow where
  | none
  | die (signal moment : Nat)
  | react (script : Raw) (left : List (Nat × Nat))

/-- What the signals that have come do to a process that can attend to them now. A killing one comes through at once,
and one that has a reaction waits for its turn. -/
def blow (s : State) : Blow :=
  let due := (s.signals.filter (·.1 ≤ s.now)).mergeSort fun a b => a.1 ≤ b.1
  let reaction (n : Nat) : Option Reaction := if n = sigKill then none else s.reactions.lookup n
  match due.find? fun (_, n) => (reaction n).isNone && !isQuiet n && (n == sigKill || !s.halted) with
  | some (t, n) => .die n t
  | none =>
    match due.find? fun (_, n) => match reaction n with
      | some (.run _) => !s.halted
      | _ => false with
    | some (t, n) =>
      match reaction n with
      | some (.run c) => .react c (s.signals.erase (t, n))
      | _ => .none
    | none => .none

end State

end Retrace.Shell
