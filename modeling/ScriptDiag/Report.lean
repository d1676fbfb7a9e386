import ScriptDiag.Trace

/-!
# Failure reports

A report says what happened, in which module, and shows the stack where one could be taken. It goes
to a sink: one that keeps reports, or one that writes their lines to the log.
-/

namespace ScriptDiag

/-! ## The log -/

/-- How serious a log line is. -/
inductive LogLevel where
  | debug
  | warn
  | error
deriving DecidableEq, Repr, Inhabited

def LogLevel.text : LogLevel → String
  | debug => "debug"
  | warn => "warn"
  | error => "error"

/-- A line of the log. `note` is additional information in the form `name=value`. -/
structure LogLine where
  level : LogLevel
  message : String
  note : Option String := none
deriving DecidableEq, Repr, Inhabited

def LogLine.text (l : LogLine) : String :=
  l.level.text ++ ": " ++ l.message ++
    match l.note with
    | some note => " [" ++ note ++ "]"
    | none => ""

/-! ## Reports -/

/-- What a report is about. -/
inductive FailureKind where
  /-- The host process faulted. -/
  | hostCrash
  /-- The machine returned an error. -/
  | runtimeError
  /-- A native is missing, or failed. -/
  | nativeCallFailure
  /-- The host asked for a trace of whatever runs. -/
  | interrupt
deriving DecidableEq, Repr, Inhabited

def FailureKind.text : FailureKind → String
  | hostCrash => "host crash"
  | runtimeError => "runtime error"
  | nativeCallFailure => "native call failure"
  | interrupt => "interrupt"

/-- A failure, the name and the path of the module that was running, where known, and the stack,
where one could be taken. -/
structure Report where
  kind : FailureKind
  module : Option String
  path : Option String
  headline : String
  trace : Option StackTrace
deriving DecidableEq, Repr, Inhabited

namespace Report

def lines (r : Report) : List String :=
  match r.trace with
  | none => [r.headline]
  | some trace =>
    let title := match r.module with
      | some module => "Backtrace of " ++ module ++ ":"
      | none => "Backtrace:"
    r.headline :: title :: trace.lines

/-- A report as text, without an end to its last line. -/
def text (r : Report) : String :=
  "\n".intercalate r.lines

def logLines (r : Report) : List LogLine :=
  let note := "kind=" ++ r.kind.text
  r.lines.map fun line => { level := .error, message := line, note := some note }

end Report

/-! ## Sinks -/

/-- Where reports go. -/
inductive Sink where
  /-- Reports are kept, in the order in which they came. -/
  | memory (reports : List Report)
  /-- Reports are written to the log. -/
  | log
deriving DecidableEq, Repr, Inhabited

namespace Sink

/-- The sink after a report, and what is written to the log. -/
def emit (s : Sink) (r : Report) : Sink × List LogLine :=
  match s with
  | memory reports => (memory (reports ++ [r]), [])
  | log => (log, r.logLines)

def reports : Sink → List Report
  | memory reports => reports
  | log => []

def lines (s : Sink) : List String :=
  s.reports.flatMap Report.lines

/-- The reports that the sink keeps, and the sink without them. -/
def take (s : Sink) : List Report × Sink :=
  match s with
  | memory reports => (reports, memory [])
  | log => ([], log)

end Sink

end ScriptDiag
