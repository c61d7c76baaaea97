/-
The layout of a sketch: includes, declarations, the routine `setup` with the setup section in it, and the routine `loop`
with the body section and the main code. Includes and declarations are followed by an empty line, and left out with it
when there are none.
-/
import BlockSketch.Sketch.Fragment
import BlockSketch.Text.Lines

namespace BlockSketch.Registry

/-- a section before the routines, with the empty line after it -/
def preamble (r : Registry) (s : Section) : String := if r.isEmpty s then "" else r.render s ++ "\n\n"

/-- the sketch made of all fragments and the main code -/
def assemble (r : Registry) (indent : Nat) (main : String) : String :=
  r.preamble .includes ++ r.preamble .declarations ++ "void setup() \x7b\n" ++
    Text.indentLines indent (r.render .setup) ++ "\x7d\n\nvoid loop() \x7b\n" ++
    Text.indentLines indent (r.render .body) ++ Text.indentLines indent main ++ "\x7d\n"

end BlockSketch.Registry
