/-!
# Paths

A path is kept as written. Its components say what it names: repeated slashes, a slash at the end
and `.` anywhere but at the front do not matter. -/

namespace RemoteAgent

structure Path where
  text : String
  deriving DecidableEq, Repr

namespace Path

inductive Component where
  | root
  /-- A `.` at the front. -/
  | here
  /-- A `..`. -/
  | up
  | name (text : List Char)
  deriving DecidableEq, Repr

/-- The pieces between slashes, empty ones left out. The piece that has begun is held last
character first. -/
def piecesFrom (piece : List Char) : List Char → List (List Char)
  | [] => if piece.isEmpty then [] else [piece.reverse]
  | c :: r =>
    if c = '/' then
      if piece.isEmpty then piecesFrom [] r else piece.reverse :: piecesFrom [] r
    else piecesFrom (c :: piece) r

def pieces (cs : List Char) : List (List Char) :=
  piecesFrom [] cs

/-- The components that pieces stand for once the front is passed. -/
def ofPieces (ps : List (List Char)) : List Component :=
  ps.filterMap fun p =>
    if p = ['.'] then none else if p = ['.', '.'] then some .up else some (.name p)

/-- What a path names. -/
def components (p : Path) : List Component :=
  match p.text.toList with
  | '/' :: r => .root :: ofPieces (pieces r)
  | cs =>
    match pieces cs with
    | ['.'] :: ps => .here :: ofPieces ps
    | ps => ofPieces ps

def isAbsolute (p : Path) : Bool :=
  p.text.toList.head? = some '/'

namespace Component

def toText : Component → String
  | root => "/"
  | here => "."
  | up => ".."
  | name cs => String.ofList cs

end Component

/-- The plainest path with given components. -/
def ofComponents : List Component → Path
  | .root :: r => ⟨"/" ++ "/".intercalate (r.map Component.toText)⟩
  | cs => ⟨"/".intercalate (cs.map Component.toText)⟩

/-- Takes what does not matter off the end of a text that is held last character first: slashes,
except that of the root, and every `.` after one. -/
def trimEnd : List Char → List Char
  | '/' :: c :: r => trimEnd (c :: r)
  | '.' :: '/' :: r => trimEnd ('/' :: r)
  | r => r

/-- The path without its last component, as far as it is written before it; the root and the empty
path have none. -/
def parent? (p : Path) : Option Path :=
  match p.components.getLast? with
  | none | some .root => none
  | some _ =>
    let before := (trimEnd p.text.toList.reverse).dropWhile (· ≠ '/')
    some ⟨String.ofList (trimEnd before).reverse⟩

/-- The last component if it is an ordinary name. -/
def fileName? (p : Path) : Option String :=
  match p.components.getLast? with
  | some (.name cs) => some (String.ofList cs)
  | _ => none

/-- A path below another one. An absolute path stays as it is. -/
def join (p : Path) (below : String) : Path :=
  if below.toList.head? = some '/' || p.text.isEmpty then ⟨below⟩
  else if p.text.toList.getLast? = some '/' then ⟨p.text ++ below⟩
  else ⟨p.text ++ "/" ++ below⟩

/-- Whether the last piece of the text is a `.`. -/
def endsInDot (p : Path) : Bool :=
  (pieces p.text.toList).getLast? = some ['.']

def endsInSlash (p : Path) : Bool :=
  p.text.toList.getLast? = some '/'

/-- The path and those above it, each without its last component, up to the root or to a single
component. -/
def withAbove (p : Path) : List Path :=
  (List.range p.components.length).reverse.map fun n => ofComponents (p.components.take (n + 1))

end Path

end RemoteAgent
