import Widgetry.App.Program

/-!
# Command line

Reads the settings and the configuration file, runs the program and prints what it logged and why
it ended.
-/

open Widgetry

/-- What is at a path, if anything is. -/
def lookAtFile (path : String) : IO (Option (Except Disk.Fault String)) := do
  match ← (IO.FS.readBinFile path).toBaseIO with
  | .ok contents =>
    match String.fromUTF8? contents with
    | some text => return some (.ok text)
    | none => return some (.error .notText)
  | .error (.noFileOrDirectory ..) => return none
  | .error (.inappropriateType ..) => return some (.error .isDirectory)
  | .error _ => return some (.error .forbidden)

def main : IO UInt32 := do
  let env : Environment := {
    configPath := ← IO.getEnv "RECTKIT_CONFIG"
    configHome := ← IO.getEnv "XDG_CONFIG_HOME"
    home := ← IO.getEnv "HOME"
    logFilter := ← IO.getEnv "RUST_LOG" }
  let found ← match env.configFile with
    | some path => lookAtFile path
    | none => pure none
  let seed ← IO.rand 0 (Nat.pow 2 31)
  let name (i : Nat) : RectId := (RectId.fresh (mkStdGen (seed + i))).1
  let (lines, failure) := Program.execute env (fun _ => found) name
  for line in lines do
    IO.eprintln line.render
  IO.eprintln ("Error: " ++ failure.report)
  return 1
