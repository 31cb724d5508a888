/-!
# Exit statuses

A program ends by itself and gives a code, or a signal ends it.  Only the code zero
is a success.
-/

namespace MixedInteger

/-- How a program ended; a signal may have left an image of its memory behind. -/
inductive ExitStatus where
  | code (n : Nat)
  | signal (number : Nat) (dumped : Bool)
deriving DecidableEq, Repr

namespace ExitStatus

def isSuccess : ExitStatus → Bool
  | code n => n == 0
  | signal _ _ => false

/-- The names of the signals, from number one on. -/
def signalNames : List String :=
  ["SIGHUP", "SIGINT", "SIGQUIT", "SIGILL", "SIGTRAP", "SIGABRT", "SIGBUS", "SIGFPE",
    "SIGKILL", "SIGUSR1", "SIGSEGV", "SIGUSR2", "SIGPIPE", "SIGALRM", "SIGTERM",
    "SIGSTKFLT", "SIGCHLD", "SIGCONT", "SIGSTOP", "SIGTSTP", "SIGTTIN", "SIGTTOU",
    "SIGURG", "SIGXCPU", "SIGXFSZ", "SIGVTALRM", "SIGPROF", "SIGWINCH", "SIGIO",
    "SIGPWR", "SIGSYS"]

/-- The name of a signal in brackets, nothing if it has none. -/
def signalText (number : Nat) : String :=
  match number with
  | 0 => ""
  | place + 1 =>
    match signalNames[place]? with
    | some name => " (" ++ name ++ ")"
    | none => ""

def text : ExitStatus → String
  | code n => "exit status: " ++ toString n
  | signal number dumped =>
    "signal: " ++ toString number ++ signalText number ++ if dumped then " (core dumped)" else ""

end ExitStatus

end MixedInteger
