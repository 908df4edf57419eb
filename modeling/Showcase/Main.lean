import Showcase.Disk
import Showcase.Mail.Relay
import Showcase.Screen.Draw
import Showcase.Shell.Operation
import Showcase.Tree.Builtin

/-!
# The program

Runs a shell on standard input and output: each line that is read is entered at the prompt, and
the screen is drawn anew. The configuration is the file named by the first argument or else by
the environment variable `SHOWCASE_CONFIG`; without either, the defaults hold.
-/

namespace Showcase

/-- The size that is drawn. -/
def screenWidth : UInt16 := 80

def screenHeight : UInt16 := 24

/-- Stops the program with a message. -/
def stop {α : Type} (message : Text) : IO α := throw (IO.userError (String.ofList message))

/-- The text of a file. -/
def readText (path : Text) : IO Text := do
  match String.fromUTF8? (← IO.FS.readBinFile (String.ofList path)) with
  | some s => pure s.toList
  | none => stop DiskError.notText.message

def loadConfig (path : Text) : IO Config := do
  match Config.ofToml (← readText path) with
  | .ok c => pure (c.locatedAt path)
  | .error .malformed => stop "the configuration is not TOML"
  | .error (.shape e) => stop e.message
  | .error (.fault f) => stop f.message

def loadTree (path : Text) : IO Directory := do
  match Directory.ofToml (← readText path) with
  | .ok d => pure d
  | .error .malformed => stop "the tree is not TOML"
  | .error (.shape e) => stop e.message
  | .error (.entry e) => stop e.message

/-- The configuration and tree to show. -/
def setUp (args : List String) : IO (Config × Directory) := do
  let path ← match args with
    | path :: _ => pure (some path)
    | [] => IO.getEnv "SHOWCASE_CONFIG"
  let config ← match path with
    | some path => loadConfig path.toList
    | none => pure {}
  let tree ← match config.treePath with
    | some path => loadTree path
    | none => pure Directory.builtin
  pure (config, tree)

/-- Draws the shell on the whole screen. -/
def redraw (output : IO.FS.Stream) (s : Shell) : IO Unit := do
  output.putStr (String.ofList (Screen.encode (Screen.draw screenWidth screenHeight s)))
  output.flush

/-- Enters line after line until the input ends. -/
partial def serve (input output : IO.FS.Stream) (s : Shell) : IO Unit := do
  redraw output s
  let line ← input.getLine
  unless line.isEmpty do
    let typed := line.toList.filter fun c => c ≠ '\n' ∧ c ≠ '\r'
    serve input output (s.run [.setInput typed, .submit, .ready, .poll])

end Showcase

open Showcase

def main (args : List String) : IO Unit := do
  let (config, tree) ← setUp args
  let notifier := Notifier.ofConfig Network.none config.notifier
  serve (← IO.getStdin) (← IO.getStdout) (Shell.start tree config notifier)
