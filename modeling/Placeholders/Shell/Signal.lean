import Placeholders.Text.Basic

/-! Signals by number and name. -/

namespace Placeholders.Shell.Signal

def names : List Text :=
  ["HUP", "INT", "QUIT", "ILL", "TRAP", "ABRT", "BUS", "FPE", "KILL", "USR1", "SEGV", "USR2",
   "PIPE", "ALRM", "TERM", "STKFLT", "CHLD", "CONT", "STOP", "TSTP", "TTIN", "TTOU", "URG", "XCPU", "XFSZ",
   "VTALRM", "PROF", "WINCH", "IO", "PWR", "SYS"].map String.toList

def nameOf? (signal : Nat) : Option Text := if signal = 0 then none else names[signal - 1]?

def ofText? (text : Text) : Option Nat :=
  if !text.isEmpty && text.all Char.isDigit then
    let n := text.foldl (fun n c => n * 10 + (c.toNat - 0x30)) 0
    if n ≤ 64 then some n else none
  else (names.findIdx? (· == text)).map (· + 1)

def message (signal : Nat) : Text :=
  let name := match nameOf? signal with
    | some name => " (SIG".toList ++ name ++ [')']
    | none => []
  "signal: ".toList ++ Text.ofNat signal ++ name

def description (signal : Nat) : Text :=
  let known : List (Nat × String) :=
    [(1, "Hangup"), (3, "Quit"), (4, "Illegal instruction"), (5, "Trace/breakpoint trap"),
     (6, "Aborted"), (7, "Bus error"), (8, "Floating point exception"), (9, "Killed"),
     (10, "User defined signal 1"), (11, "Segmentation fault"), (12, "User defined signal 2"),
     (14, "Alarm clock"), (15, "Terminated")]
  ((known.lookup signal).getD "").toList

def harmless : List Nat := [0, 17, 18, 19, 20, 21, 22, 23, 28]

def ends (signal : Nat) : Bool := !harmless.contains signal

end Placeholders.Shell.Signal
