import NeuronFleet.Report
import NeuronFleet.Error

/-
  Runs under the report protocol.

  A worker process writes a `started` report (its process id, hotkey
  and port) and then exactly one closing report: `completed` when its
  run succeeded, or a `fault`.  A failed run's fault carries the
  error's message and its trace: the message, the chain of the error's
  sources, and the backtrace when one was taken.  A run that panicked is reported like
  a failure: the error is the panic's message (text payloads as they
  are, any other payload as `non-string panic payload`), and the trace
  is the message, then on a line of its own where the panic happened
  and the backtrace taken there, as the panic hook recorded them; when
  it recorded nothing, that line is empty.  The process exits with 0 after `completed` and 1 after a
  fault.

  Main definitions:
    * `Payload`, `Failure`, `Failure.trace`
    * `panicDetails`, `Ending`, `Ending.report`, `Ending.exitCode`
    * `Report.written`, `runReported`
-/

namespace NeuronFleet

/- What a panic carried. -/
inductive Payload where
  | text (s : String)
  | other

/- The message of a panic. -/
def Payload.message : Payload → String
  | .text s => s
  | .other => "non-string panic payload"

/- A run's error as its report shows it: the error's text, the texts of
its chain of sources (outermost first), and the backtrace taken with it
when backtraces are on. -/
structure Failure where
  message : String
  sources : List String
  backtrace : Option String

/- The trace of an error: its text, then a `Caused by:` section with one
numbered line per source, then the backtrace. -/
def Failure.trace (f : Failure) : String :=
  let chain := match f.sources with
    | [] => ""
    | cs => "\n\nCaused by:" ++ String.join ((List.range cs.length).zip cs |>.map fun (i, c) =>
        "\n    " ++ toString i ++ ": " ++ c)
  let tail := match f.backtrace with
    | some b => "\n\nBacktrace:\n" ++ b
    | none => ""
  f.message ++ chain ++ tail

/- An error of the fleet as a failure: its message and causes, no
backtrace. -/
def Error.failure (e : Error) : Failure := ⟨e.message, e.causes, none⟩

/- What the panic hook recorded of a panic: where it happened and the
backtrace taken there.  Nothing recorded reads as no details. -/
def panicDetails : Option (String × String) → String
  | some (location, backtrace) => "panicked at " ++ location ++ "\n\nBacktrace:\n" ++ backtrace
  | none => ""

/- How a worker's run ended. -/
inductive Ending where
  | completed
  | failed (f : Failure)
  /- A panic, and where it happened and the backtrace taken there, when
  the panic hook recorded them. -/
  | panicked (payload : Payload) (recorded : Option (String × String))

namespace Ending

/- The closing report of a run. -/
def report : Ending → Report
  | .completed => .completed
  | .failed f => .fault f.message f.trace
  | .panicked p recorded => .fault p.message (p.message ++ "\n" ++ panicDetails recorded)

/- The exit code after a run: 0 when it completed, 1 after a fault. -/
def exitCode : Ending → Nat
  | .completed => 0
  | _ => 1

end Ending

/- The bytes a worker writes for its reports: their lines, one after
another. -/
def Report.written (reports : List Report) : List UInt8 :=
  reports.flatMap fun r => r.toLine.toUTF8.toList

/- The reports a worker writes for a run, in order, and its exit code. -/
def runReported
    (pid : Nat)
    (hotkey : String)
    (port : Nat)
    (ending : Ending) :
    List Report × Nat :=
  ([.started pid hotkey port, ending.report], ending.exitCode)

end NeuronFleet
