/-
Fragments: pieces of boilerplate that blocks contribute to the sections of a sketch.

A section keeps one fragment per key, the first one contributed; a later contribution under the same key is ignored. The
blanks at the end of a fragment are dropped. Fragments that run first are rendered before the others, both groups in the
order in which they came.
-/
import BlockSketch.Text.Blank

namespace BlockSketch

/-- the parts of a sketch that take fragments, in the order in which they are written -/
inductive Section where
  | includes
  | declarations
  | setup
  | body
  deriving DecidableEq, Repr, Inhabited

namespace Section

def all : List Section := [.includes, .declarations, .setup, .body]

def name : Section → String
  | .includes => "includes"
  | .declarations => "declarations"
  | .setup => "setup"
  | .body => "body"

def ofName? (name : String) : Option Section := all.find? fun s => s.name == name

end Section

/-- a piece of text under a key -/
structure Fragment where
  key : String
  text : String
  runFirst : Bool
  deriving DecidableEq, Repr

/-- the fragments of every section in the order in which they came -/
structure Registry where
  includes : List Fragment := []
  declarations : List Fragment := []
  setup : List Fragment := []
  body : List Fragment := []
  deriving DecidableEq, Repr

namespace Registry

/-- the fragments of a section in the order in which they came -/
def stored (r : Registry) : Section → List Fragment
  | .includes => r.includes
  | .declarations => r.declarations
  | .setup => r.setup
  | .body => r.body

/-- the registry with one more fragment at the end of a section -/
def push (r : Registry) (s : Section) (f : Fragment) : Registry :=
  match s with
  | .includes => { r with includes := r.includes ++ [f] }
  | .declarations => { r with declarations := r.declarations ++ [f] }
  | .setup => { r with setup := r.setup ++ [f] }
  | .body => { r with body := r.body ++ [f] }

def get? (r : Registry) (s : Section) (key : String) : Option Fragment := (r.stored s).find? fun f => f.key == key

/-- store a text under a key unless the section has that key; whether it was stored, and the registry after it -/
def contribute (r : Registry) (s : Section) (key text : String) (runFirst : Bool) : Bool × Registry :=
  if (r.get? s key).isSome then (false, r) else (true, r.push s ⟨key, Text.trimEnd text, runFirst⟩)

/-- the fragments of a section as they are rendered: those that run first, then the others -/
def fragments (r : Registry) (s : Section) : List Fragment :=
  (r.stored s).filter (·.runFirst) ++ (r.stored s).filter (!·.runFirst)

def render (r : Registry) (s : Section) : String := "\n".intercalate ((r.fragments s).map (·.text))

def size (r : Registry) (s : Section) : Nat := (r.stored s).length

def isEmpty (r : Registry) (s : Section) : Bool := (r.stored s).isEmpty

theorem stored_push (r : Registry) (s t : Section) (f : Fragment) :
    (r.push s f).stored t = if s = t then r.stored t ++ [f] else r.stored t := by
  cases s <;> cases t <;> rfl

theorem stored_contribute (r : Registry) (s t : Section) (key text : String) (runFirst : Bool) :
    (r.contribute s key text runFirst).2.stored t =
      if s = t ∧ (r.get? s key).isNone then r.stored t ++ [⟨key, Text.trimEnd text, runFirst⟩] else r.stored t := by
  unfold contribute
  split
  · rename_i h
    simp [Option.isSome_iff_ne_none.mp h]
  · rename_i h
    simp at h
    simp [stored_push, h]

end Registry

end BlockSketch
