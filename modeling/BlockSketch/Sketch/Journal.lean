/-
What is worth noting while a program runs, each note with its level and its text.
-/
import BlockSketch.Sketch.Fragment
import BlockSketch.Text.Quoted

namespace BlockSketch

/-- how important a note is, the least important first -/
inductive Level where
  | trace
  | debug
  | info
  | warn
  | error
  deriving DecidableEq, Repr

namespace Level

/-- place in the order of importance -/
def rank : Level → Nat
  | .trace => 0
  | .debug => 1
  | .info => 2
  | .warn => 3
  | .error => 4

def label : Level → String
  | .trace => "TRACE"
  | .debug => "DEBUG"
  | .info => "INFO"
  | .warn => "WARN"
  | .error => "ERROR"

end Level

/-- a note -/
inductive Event where
  | boardSelected (board : String)
  | passStarted (board : String)
  | statement (block kind : String)
  /-- a contribution that was stored, as it was handed in -/
  | fragmentStored (s : Section) (key text : String) (runFirst : Bool)
  /-- a contribution that was ignored because its key was taken, as it was handed in -/
  | fragmentPresent (s : Section) (key text : String) (runFirst : Bool)
  | traversalComplete (pins : Nat)
  | assembling (includes declarations setup body : Nat)
  | testRan (path : String) (passed : Bool)
  deriving DecidableEq, Repr

namespace Event

def level : Event → Level
  | .fragmentPresent .. => .trace
  | .assembling .. => .info
  | _ => .debug

/-- a note in words, then its particulars -/
def text : Event → String
  | .boardSelected board => "selected board board=" ++ Text.quoted board
  | .passStarted board => "starting generation pass board=" ++ Text.quoted board
  | .statement block kind => "generating statement block=" ++ Text.quoted block ++ " kind=" ++ Text.quoted kind
  | .fragmentStored s key _ runFirst =>
    "fragment contributed section=" ++ s.name ++ " key=" ++ Text.quoted key ++ " run_first=" ++ toString runFirst
  | .fragmentPresent s key _ _ => "fragment already present section=" ++ s.name ++ " key=" ++ Text.quoted key
  | .traversalComplete pins => "traversal complete pins=" ++ toString pins
  | .assembling includes declarations setup body =>
    "assembling program includes=" ++ toString includes ++ " declarations=" ++ toString declarations ++ " setup=" ++
      toString setup ++ " body=" ++ toString body
  | .testRan path passed => "ran test file path=" ++ path ++ " passed=" ++ toString passed

def line (e : Event) : String := e.level.label ++ " " ++ e.text

end Event

end BlockSketch
