import Retrace.Shell.Tool.Basic

/-!
# Programs

The files that can be started, and where they are looked for.
-/

namespace Retrace

/-- What a file holds that can be started. -/
inductive Image where
  /-- A tool of the system. -/
  | tool (name : Shell.Raw)
  /-- A text for the program that its first line names, perhaps with an argument. -/
  | script (interpreter : Bytes) (arg : Option Bytes)
  /-- Anything else. -/
  | other
  deriving DecidableEq, Repr

namespace Image

/-- The first bytes of a tool; its name follows. -/
def mark : Bytes := Bytes.ofString "\x7fELF"

/-- How much of a file is looked at. -/
def window : Nat := 256

def isGap (b : UInt8) : Bool := b == 0x20 || b == 0x09

/-- A line without the gaps at its end. -/
def withoutGaps (bs : Bytes) : Bytes := (bs.reverse.dropWhile isGap).reverse

/-- The image in the first line of a script after its mark. -/
def ofLine (line : Bytes) : Image :=
  let named := (withoutGaps line).dropWhile isGap
  let program := named.takeWhile fun b => !isGap b && b != 0
  let rest := named.drop program.length
  let arg := if (rest.head?.map isGap).getD false then (rest.dropWhile isGap).takeWhile (· ≠ 0) else []
  if named = [] then .other else .script program (if arg = [] then none else some arg)

/-- The image in the bytes of a file. Of a line that does not end within the window the last byte there is left out; a
name that may have been cut off is no name, but an argument may be cut. -/
def ofBytes (bs : Bytes) : Image :=
  if mark.isPrefixOf bs then .tool (Shell.Raw.ofBytes (bs.drop mark.length))
  else
    match bs with
    | 0x23 :: 0x21 :: rest =>
      let seen := rest.take (window - 2)
      let line := seen.takeWhile fun b => b ≠ 0x0A && b ≠ 0
      if (seen.drop line.length).head? = some 0x0A then ofLine line
      else
        let full := seen ++ List.replicate (window - 2 - seen.length) 0
        let name := full.dropWhile isGap
        if name.any fun b => isGap b || b == 0 then ofLine full.dropLast else .other
    | _ => .other

end Image

namespace Machine

/-- The image at a path. -/
def image (m : Machine) (p : Path) : Except IoError Image := do
  match m.tree.node (← m.find p).ino with
  | .file content mode => if mode &&& 0o111 = 0 then .error (.os .EACCES) else .ok (Image.ofBytes content)
  | _ => .error (.os .EACCES)

/-- How many scripts may stand for each other. -/
def mostScripts : Nat := 5

/-- The tool that is started for a program at a path, as seen from a directory, and its arguments; `depth` bounds the
scripts for scripts. -/
def load (m : Machine) (dir : Path) : Nat → Path → List Shell.Raw → Except IoError (Shell.Raw × List Shell.Raw)
  | depth, p, argv => do
    match ← m.image (if p.raw = [] then p else dir.join p) with
    | .tool name => .ok (name, argv)
    | .other => .error (.os .ENOEXEC)
    | .script interpreter arg =>
      let argv := Shell.Raw.ofBytes interpreter :: (arg.map Shell.Raw.ofBytes).toList ++ Shell.Raw.ofBytes p.raw ::
        argv.drop 1
      match depth with
      | 0 => .error (.os .ELOOP)
      | depth + 1 => m.load dir depth ⟨interpreter⟩ argv

/-- A program that the system cannot start itself is a script for the shell. -/
def loadAny (m : Machine) (dir p : Path) (argv : List Shell.Raw) : Except IoError (Shell.Raw × List Shell.Raw) :=
  match m.load dir mostScripts p argv with
  | .error (.os e) =>
    if e = .ENOEXEC then .ok ("sh".toList, "/bin/sh".toList :: Shell.Raw.ofBytes p.raw :: argv.drop 1) else .error (.os e)
  | r => r

/-- The programs that a name without slashes may stand for along a search path. -/
def candidates (searchPath name : Bytes) : List Path :=
  (Bytes.split SearchPath.colon searchPath).map fun d => if d = [] then ⟨name⟩ else (⟨d⟩ : Path).join ⟨name⟩

/-- What is started by `start` for the first of the paths for which that can be done. Paths that lead nowhere are passed
over, and so are those that may not be used, which is the reason given in the end. -/
def loadFirst {α : Type} (start : Path → Except IoError α) (denied : Bool) (last : IoError) :
    List Path → Except IoError α
  | [] => .error (if denied then .os .EACCES else last)
  | p :: ps =>
    match start p with
    | .ok r => .ok r
    | .error (.os e) =>
      if e = .EACCES then loadFirst start true (.os e) ps
      else if e = .ENOENT ∨ e = .ENOTDIR then loadFirst start denied (.os e) ps
      else .error (.os e)
    | .error e => .error e

/-- The names of the tools that a system has. -/
def toolNames : List String :=
  ["sh", "env", "kill", "cat", "tac", "rev", "tr", "head", "tail", "wc", "od", "nl", "paste", "fold", "expand", "cut",
    "seq", "yes", "grep", "sort", "uniq", "sed", "expr", "ls", "stat", "touch", "rm", "mkdir", "rmdir", "mv", "cp", "ln",
    "link", "unlink", "readlink", "realpath", "chmod", "tee", "basename", "dirname", "echo", "printf", "test", "[",
    "sleep", "pwd", "printenv", "id", "whoami", "uname", "tty", "which", "python3", "true", "false"]

/-- The directories that a system has. -/
def systemDirs : List String :=
  ["/usr/bin", "/usr/sbin", "/usr/lib", "/usr/local/bin", "/usr/local/sbin", "/dev", "/etc", "/home", "/mnt", "/opt",
    "/proc", "/root", "/run", "/srv", "/sys", "/tmp", "/var/tmp"]

/-- The devices that a system has. -/
def systemDevices : List (String × Device) :=
  [("/dev/null", .null), ("/dev/zero", .zero), ("/dev/full", .full), ("/dev/tty", .terminal)]

/-- A machine with the tools of a system and one more directory, which it works in. -/
def withTools (dir : Path) : Machine :=
  let keep (m : Machine) (r : Except IoError Machine) : Machine := r.toOption.getD m
  let m : Machine := systemDirs.foldl (fun m d => (m.makeAllDirs (.ofString d)).1) {}
  let m := ["bin", "sbin", "lib"].foldl (fun m n =>
    keep m (m.makeLink (Bytes.ofString ("usr/" ++ n)) (.ofString ("/" ++ n)))) m
  let m := systemDevices.foldl (fun m (name, d) =>
    match m.entry (.ofString name) with
    | .ok (.named dir name _ none) => m.addEntry dir name (.device d)
    | _ => m) m
  let m := toolNames.foldl (fun m name =>
    let p := Path.ofString ("/usr/bin/" ++ name)
    let m := keep m (m.write p (Image.mark ++ Bytes.ofString name))
    keep m (m.setMode p 0o755)) m
  let m := (m.makeAllDirs dir).1
  keep m (m.changeDir dir)

end Machine

end Retrace
