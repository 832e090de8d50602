import Declang.Parse.Error
namespace Declang

/-- Where a parse stands: the node that takes the next statement, and the locations entered above
the program level, the innermost first. -/
structure Position where
  cursor : NodeId
  entered : List Location
  deriving DecidableEq, Repr

namespace Position

/-- At program level, with the root as cursor. -/
def start : Position := ⟨Arena.root, []⟩

def location (position : Position) : Location :=
  position.entered.head?.getD .program

/-- All open locations from the outermost to the innermost; the program level is always there. -/
def locations (position : Position) : List Location :=
  .program :: position.entered.reverse

def depth (position : Position) : Nat :=
  position.locations.length

def enter (position : Position) (location : Location) (cursor : NodeId) : Position :=
  ⟨cursor, location :: position.entered⟩

/-- Leaves the innermost location for the node `cursor`; the program level cannot be left. -/
def leave (position : Position) (cursor : NodeId) : Except ParseError Position :=
  match position.entered with
  | [] => .error (.internal .leftProgram)
  | _ :: entered => .ok ⟨cursor, entered⟩

/-- Succeeds when every entered location has been left. -/
def finish (position : Position) : Except ParseError Unit :=
  match position.entered with
  | [] => .ok ()
  | location :: outer => .error (.unterminated location (outer.length + 1))

end Position

end Declang
