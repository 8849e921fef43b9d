import Inventory.Error
import Inventory.Path.Segment

/-! # Absolute paths

A canonical path begins with `/` and names a tenant, a feed and the things in it by its segments. It is
read by `parse`, made longer by `join` and `child`, and written by `render`.
-/

namespace Inventory

structure CanonicalPath where
  segments : List Path.Segment
deriving DecidableEq, Repr

namespace CanonicalPath

/-- The segments of a path; `whole` is the text that an error names. -/
def readSegments (whole : String) (path : List Char) : Except Error (List Path.Segment) :=
  (Path.splitPath path).mapM fun part =>
    match Path.Segment.ofPart? part with
    | some segment => .ok segment
    | none => .error (.invalidPath (.badSegment (String.ofList part) whole))

def parse (text : String) : Except Error CanonicalPath :=
  match text.toList with
  | '/' :: rest => (readSegments text rest).map CanonicalPath.mk
  | _ => .error (.invalidPath (.notAbsolute text))

def join (path : CanonicalPath) (relative : String) : Except Error CanonicalPath :=
  if relative = "" then .ok path
  else (readSegments relative relative.toList).map fun more => ⟨path.segments ++ more⟩

def child (path : CanonicalPath) (segment : Path.Segment) : CanonicalPath :=
  ⟨path.segments ++ [segment]⟩

def render (path : CanonicalPath) : String :=
  String.join (path.segments.map fun segment => "/" ++ segment.render)

def first? (path : CanonicalPath) (code : String) : Option String :=
  (path.segments.find? (·.code == code)).map (·.id)

def tenantId? (path : CanonicalPath) : Option String := path.first? "t"

def feedId? (path : CanonicalPath) : Option String := path.first? "f"

/-- The id of the last resource named. -/
def resourceId? (path : CanonicalPath) : Option String :=
  (path.segments.reverse.find? (·.code == "r")).map (·.id)

end CanonicalPath

end Inventory
