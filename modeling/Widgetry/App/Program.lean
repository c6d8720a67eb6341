import Widgetry.App.Basic
import Widgetry.Config.File

/-!
# The program

Finds its configuration, builds the scene and opens the event loop. Without a display to open it
on, it ends there.
-/

namespace Widgetry.Program

/-- Why the program ends. -/
inductive Failure where
  | config (e : Error)
  | noEventLoop

namespace Failure

def message : Failure → String
  | .config e => e.message
  | .noEventLoop => "no display to open the event loop on"

/-- The report of a failure, with its cause if it has one. -/
def report (f : Failure) : String :=
  match f with
  | .config e =>
    match e.cause? with
    | some cause => e.message ++ "\n\nCaused by:\n    " ++ cause
    | none => e.message
  | .noEventLoop => f.message

end Failure

def version : String := "0.1.0"

/-- Runs a configuration up to the event loop. Rectangles are named by their place. -/
def run (c : Config) (name : Nat → RectId) : List Log.Entry × Failure :=
  let starting : Log.Entry := ⟨.info, "rectkit v" ++ version ++ " starting..."⟩
  match c.buildScene name with
  | .error e => ([starting], .config e)
  | .ok scene =>
    ([starting, ⟨.info, "Scene ready with " ++ toString scene.rects.length ++ " rectangles"⟩],
      .noEventLoop)

/-- The whole program; `look` says what is at a path, if anything is. Answers the lines that are
shown. -/
def execute (env : Environment) (look : String → Option (Except Disk.Fault String))
    (name : Nat → RectId) : List Log.Line × Failure :=
  let (loading, config) := Config.loadOrStandard env look
  let (running, failure) :=
    match config with
    | .ok c => run c name
    | .error e => ([], .config e)
  let lines := loading.map (Log.Line.mk .config) ++ running.map (Log.Line.mk .app)
  (lines.filter (Log.Filter.ofSetting env.logFilter).shows, failure)

end Widgetry.Program
