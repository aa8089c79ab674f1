import DeviceSession.Demo
import DeviceSession.Error

/-
  Prints the course of a session.

  The first argument names a document of settings; without
  it the defaults are used.

  Key definitions include:
    * `main`
-/

------------------------------------------------------------
-- Command Line
------------------------------------------------------------

open DeviceSession

/- The text of the document that is named, if one is. -/
def readDocument : List String → IO (Option String)
  | path :: _ => some <$> IO.FS.readFile path
  | [] => return none

/- Print the lines of a session, or why there is none. -/
def main (args : List String) : IO UInt32 := do
  match Demo.settings (← readDocument args) with
  | .ok s =>
      for line in Demo.lines s do
        IO.println line
      return 0
  | .error (.refused e) =>
      IO.eprintln (SessionError.config e).message
      return 1
  | .error .overflow =>
      IO.eprintln "config: frame retries are out of bounds"
      return 1
