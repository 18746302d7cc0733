/-
  SmaliSieve.Cli.Wording

  The words for what a run says beside its output: remarks, the reason why it did not get
  to its end, and the time that it took.
-/

import SmaliSieve.Cli.Help
import SmaliSieve.Cli.Run
import SmaliSieve.Report.Style

namespace SmaliSieve.Cli

/-- The line for a remark. -/
def Remark.text : Remark → String
  | .event told => told.text
  | .written path => s!"Report written to {path.text}"

/-- The lines for a fault: its code, what happened, and a hint if there is one. -/
def faultText (fault : Fault) : String :=
  let hint := match fault.help? with
    | some help => ["  help: " ++ help]
    | none => []
  "\n".intercalate
    (["Error: " ++ fault.code, "", "  × " ++ fault.message.replace "\n" "\n  │ "] ++ hint)

/-- The lines for a mistake in the arguments. -/
def misuseText (misuse : Misuse) : String :=
  "\n\n".intercalate
    ["error: " ++ misuse.message, usage, "For more information, try '--help'."]

/-- What there is to say about the way a run ended. -/
def Ending.text? : Ending → Option String
  | done => none
  | failed (.fault fault) => some (faultText fault)
  | failed .extensionUnfit => some "the source extension fits no file name"
  | misused misuse => some (misuseText misuse)

/-- A number of milliseconds as seconds with two places. -/
def secondsText (milliseconds : Nat) : String :=
  let hundredths := (milliseconds + 5) / 10
  let places := hundredths % 100
  s!"{hundredths / 100}." ++ (if places < 10 then "0" else "") ++ toString places

/-- A printed piece as text, in a run that took so many milliseconds. -/
def Piece.shown (color : Bool) (milliseconds : Nat) : Piece → String
  | .text words => words
  | .elapsed => Report.Style.aside.paint color s!"Done in {secondsText milliseconds}s" ++ "\n"

end SmaliSieve.Cli
