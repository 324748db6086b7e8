import RemoteAgent.Path
import RemoteAgent.Duration

/-!
# File trees

A file tree says what stands at each location. It may be put together from several filesystems, and
it knows the time, which is the access time of everything new. -/

namespace RemoteAgent

/-- The names that lead to a place in a file tree, from the root down. -/
abbrev Location := List String

inductive Node where
  /-- A file, with its permission bits and the time of its last access. -/
  | file (content : List UInt8) (mode : Nat) (accessed : Timestamp)
  | directory (accessed : Timestamp)
  | link (target : Path)
  deriving DecidableEq, Repr

namespace Node

def isDirectory : Node → Bool
  | directory _ => true
  | _ => false

/-- The time of the last access; links have none of their own. -/
def accessed? : Node → Option Timestamp
  | file _ _ accessed | directory accessed => some accessed
  | link _ => none

end Node

structure FileTree where
  nodes : List (Location × Node)
  /-- The directories at which other filesystems begin. -/
  mounts : List Location
  now : Timestamp
  deriving DecidableEq, Repr

namespace FileTree

/-- A tree with nothing but the root in it. -/
def empty (now : Timestamp) : FileTree :=
  ⟨[], [], now⟩

/-- What stands at a location. The root is always a directory. -/
def find? (t : FileTree) (l : Location) : Option Node :=
  if l = [] then some (.directory t.now)
  else (t.nodes.find? (·.1 = l)).map (·.2)

def children (t : FileTree) (l : Location) : List (String × Node) :=
  t.nodes.filterMap fun (k, node) =>
    match k.getLast? with
    | some name => if k.dropLast = l then some (name, node) else none
    | none => none

/-- Puts something at a location, in place of what stood there. -/
def put (t : FileTree) (l : Location) (node : Node) : FileTree :=
  { t with nodes := t.nodes.filter (·.1 ≠ l) ++ [(l, node)] }

def clear (t : FileTree) (l : Location) : FileTree :=
  { t with nodes := t.nodes.filter fun (k, _) => !l.isPrefixOf k }

@[simp] theorem find?_put (t : FileTree) (l k : Location) (node : Node) (h : l ≠ []) :
    (t.put l node).find? k = if k = l then some node else t.find? k := by
  unfold find?
  by_cases hk : k = l
  · subst hk
    have hnone : (t.nodes.filter (·.1 ≠ k)).find? (·.1 = k) = none := by
      simp only [List.find?_eq_none, List.mem_filter]
      rintro x ⟨-, hx⟩
      simpa using hx
    rw [if_neg h, if_pos rfl, put, List.find?_append, hnone]
    simp
  · have hkeep : (t.nodes.filter (·.1 ≠ l)).find? (·.1 = k) = t.nodes.find? (·.1 = k) := by
      rw [List.find?_filter]
      congr 1
      funext x
      by_cases hx : x.1 = k <;> simp [hx, hk]
    rw [if_neg hk, put, List.find?_append, hkeep]
    simp [Ne.symm hk]

@[simp] theorem find?_clear (t : FileTree) (l k : Location) (h : l ≠ []) :
    (t.clear l).find? k = if l.isPrefixOf k then none else t.find? k := by
  unfold find? clear
  rw [List.find?_filter]
  by_cases hroot : k = []
  · subst hroot
    cases l with
    | nil => exact absurd rfl h
    | cons a r => simp [List.isPrefixOf]
  · rw [if_neg hroot, if_neg hroot]
    by_cases hk : l.isPrefixOf k
    · have hnone : t.nodes.find? (fun x => !l.isPrefixOf x.1 && decide (x.1 = k)) = none := by
        simp only [List.find?_eq_none]
        rintro x - hx
        simp only [Bool.and_eq_true, Bool.not_eq_true', decide_eq_true_eq] at hx
        rw [hx.2, hk] at hx
        exact absurd hx.1 (by simp)
      rw [if_pos hk]
      simpa using hnone
    · rw [if_neg hk]
      congr 2
      funext x
      by_cases hx : x.1 = k <;> simp [hx, hk]

/-- Moves a location and all below it to another place, which is cleared for it. -/
def move (t : FileTree) (l target : Location) : FileTree :=
  { t with nodes := (t.clear target).nodes.map fun (k, node) =>
      if l.isPrefixOf k then (target ++ k.drop l.length, node) else (k, node) }

/-- Where the filesystem begins that a location belongs to. -/
def filesystem (t : FileTree) (l : Location) : Location :=
  (t.mounts.filter (·.isPrefixOf l)).foldl
    (fun deepest m => if deepest.length < m.length then m else deepest) []

end FileTree

end RemoteAgent
