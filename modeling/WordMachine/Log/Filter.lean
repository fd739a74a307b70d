import WordMachine.Log.Event

namespace WordMachine.Log

-- The part of the program that works the machine, as directives name it.
def machineTarget : String := "mini86_core"

-- The part of the program that an event comes from.
def Event.target : Event → String
  | .configured _ => "sim"
  | _ => machineTarget

-- How much is let through of the events whose target begins with a given text, and of all events
-- where no text is given. A verbosity of zero lets nothing through.
structure Directive where
  target : Option String
  verbosity : Nat
  deriving DecidableEq, Repr

namespace Directive

-- A level is named in letters of either case, or counted.
private def verbosity? (name : List Char) : Option Nat :=
  match Decimal.readUnsigned 6 name with
  | .ok verbosity => some verbosity
  | .error _ =>
    [("off", 0), ("error", 1), ("warn", 2), ("info", 3), ("debug", 4), ("trace", 5)].lookup
      (String.ofList (name.map Char.toLower))

private def startsName (c : Char) : Bool :=
  c.isAlphanum || c = '_' || c = '-' || c = ':'

-- A level, `target=level`, or a target alone, which lets everything through. Blanks in front are
-- part of a target, one that nothing has, and no level can be given to it.
def ofText? (text : List Char) : Option Directive :=
  let name := text.takeWhile (· ≠ '=')
  if ! ((text.dropWhile Char.isWhitespace).head?.any startsName) then none
  else if text.head?.any Char.isWhitespace && text.contains '=' then none
  else
    match text.dropWhile (· ≠ '=') with
    | [] =>
      match verbosity? name with
      | some verbosity => some ⟨none, verbosity⟩
      | none => some ⟨some (String.ofList name), 5⟩
    | ['='] => some ⟨some (String.ofList name), 5⟩
    | _ :: level =>
      match verbosity? level with
      | some verbosity => some ⟨some (String.ofList name), verbosity⟩
      | none => none

def applies (directive : Directive) (event : Event) : Bool :=
  match directive.target with
  | none => true
  | some target => target.toList.isPrefixOf event.target.toList

-- The length of the target that is asked for.
def weight (directive : Directive) : Nat :=
  match directive.target with
  | none => 0
  | some target => target.length + 1

end Directive

-- Which events are let through.
structure Filter where
  directives : List Directive
  deriving DecidableEq, Repr

namespace Filter

def upTo (level : Level) : Filter := ⟨[⟨none, level.verbosity⟩]⟩

-- Without a wish of the user, warnings are shown, or all events of the machine if it is traced.
def usual (traced : Bool) : Filter :=
  if traced then ⟨[⟨some machineTarget, 5⟩]⟩ else upTo .warn

-- Directives between commas. Errors are let through where there is no directive at all.
def ofText? (text : String) : Option Filter := do
  let pieces := ((text.toList.splitBy fun c d => c ≠ ',' && d ≠ ',').filter (· ≠ [',']))
  let directives ← pieces.mapM Directive.ofText?
  return if directives.isEmpty then upTo .error else ⟨directives⟩

-- The directive with the longest target decides, of several the last one.
def allows (filter : Filter) (event : Event) : Bool :=
  let heavier (best : Option Directive) (directive : Directive) : Option Directive :=
    match best with
    | none => some directive
    | some other => if other.weight ≤ directive.weight then some directive else best
  match (filter.directives.filter (·.applies event)).foldl heavier none with
  | none => false
  | some directive => event.level.verbosity ≤ directive.verbosity

def lines (filter : Filter) (events : List Event) : List String :=
  (events.filter filter.allows).map Event.line

end Filter

end WordMachine.Log
