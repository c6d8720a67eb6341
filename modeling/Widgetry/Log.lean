import Widgetry.Text.Blank

/-!
# Log lines and which of them are shown

An entry has a level and a text. A line is an entry with its target, the part of the program that
it comes from. A filter is a list of directives; the one with the longest target that a line's
target starts with decides up to which level of detail the line is shown.
-/

namespace Widgetry

namespace Log

/-- Levels, the most severe first. -/
inductive Level where
  | error
  | warn
  | info
  | debug
  | trace
  deriving DecidableEq, Repr

namespace Level

/-- How much detail a level stands for. -/
def rank : Level → Nat
  | .error => 1
  | .warn => 2
  | .info => 3
  | .debug => 4
  | .trace => 5

def label : Level → String
  | .error => "ERROR"
  | .warn => "WARN"
  | .info => "INFO"
  | .debug => "DEBUG"
  | .trace => "TRACE"

end Level

/-- The parts of the program that log before the event loop opens. -/
inductive Target where
  | config
  | app
  deriving DecidableEq, Repr

def Target.path : Target → String
  | .config => "rectkit_core::config"
  | .app => "rectkit_bridge::shell::app"

structure Entry where
  level : Level
  text : String
  deriving DecidableEq, Repr

/-- An entry as text. -/
def Entry.render (e : Entry) : String := e.level.label ++ " " ++ e.text

structure Line where
  target : Target
  entry : Entry
  deriving DecidableEq, Repr

/-- A line as text. -/
def Line.render (l : Line) : String :=
  l.entry.level.label ++ " " ++ l.target.path ++ ": " ++ l.entry.text

/-- Shows lines whose target starts with `target` up to a rank of detail. -/
structure Directive where
  target : List Char
  rank : Nat
  deriving DecidableEq, Repr

/-- Directives; with none that fits, a line is not shown. -/
structure Filter where
  directives : List Directive
  deriving DecidableEq, Repr

/-- The names of the ranks of detail. -/
def rankNames : List (String × Nat) :=
  [("off", 0), ("error", 1), ("warn", 2), ("info", 3), ("debug", 4), ("trace", 5)]

/-- The rank with a given name, in any case, or a given number. -/
def rank? (word : List Char) : Option Nat :=
  let lower := String.ofList (word.map Char.toLower)
  match rankNames.find? fun (name, rank) => name == lower || toString rank == lower with
  | some (_, rank) => some rank
  | none => none

namespace Filter

/-- Everything up to a rank. -/
def upTo (rank : Nat) : Filter := ⟨[⟨[], rank⟩]⟩

/-- Reads one directive: a level, a target with a level, or a target, which stands for all its
lines. -/
def directive? (word : List Char) : Option Directive :=
  let target := word.takeWhile (· ≠ '=')
  match word.dropWhile (· ≠ '=') with
  | [] =>
    match rank? word with
    | some rank => some ⟨[], rank⟩
    | none => some ⟨word, Level.trace.rank⟩
  | _ :: level =>
    if level.isEmpty then some ⟨target, Level.trace.rank⟩
    else (rank? level).map fun rank => ⟨target, rank⟩

/-- Reads directives between commas. Without any, only errors are shown. -/
def parse? (s : String) : Option Filter := do
  let words := (s.toList.splitOn ',').filter (· ≠ [])
  let directives ← words.mapM fun word => directive? (Text.trim word)
  return if directives.isEmpty then upTo Level.error.rank else ⟨directives⟩

/-- The filter for a setting, which may be missing or malformed. -/
def ofSetting (setting : Option String) : Filter :=
  (setting.bind parse?).getD (upTo Level.info.rank)

/-- The directive with the longest target that a line's target starts with; of equal ones the
last. -/
def decisive? (f : Filter) (target : List Char) : Option Directive :=
  (f.directives.filter fun d => d.target.isPrefixOf target).foldl
    (fun best d =>
      match best with
      | some b => if b.target.length ≤ d.target.length then some d else some b
      | none => some d)
    none

/-- Whether a line is shown. -/
def shows (f : Filter) (l : Line) : Bool :=
  match f.decisive? l.target.path.toList with
  | some d => l.entry.level.rank ≤ d.rank
  | none => false

end Filter

end Log

end Widgetry
