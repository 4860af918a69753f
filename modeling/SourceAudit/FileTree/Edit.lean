import SourceAudit.FileTree.Resolve

/-!
# Changing a tree

Writing and removing entries. A path is followed as far as the tree goes; what is missing on the
way is made as folders. Entries can be closed to those who ask for them.
-/

namespace SourceAudit

/-! ## Algorithm -/

/-- The entries of a folder with this name, and none if there is no such folder. -/
def Entries.below (name : Name) (entries : Entries) : Entries :=
  match entries.lookup name with
  | some (.folder inner) => inner
  | _ => []

/-- Set or clear what is at a place. -/
def Entries.graft (new : Option Node) : List Name → Entries → Entries
  | [], entries => entries
  | [name], entries =>
    match new with
    | some node => (name, node) :: entries.filter (·.1 ≠ name)
    | none => entries.filter (·.1 ≠ name)
  | name :: next :: rest, entries =>
    (name, .folder (graft new (next :: rest) (Entries.below name entries))) ::
      entries.filter (·.1 ≠ name)

namespace FileTree

/-- Follow steps whether or not the tree has what they name. -/
def settleFrom (root : Node) (follow : List Name → List Step → Option (List Name)) :
    List Name → List Step → Option (List Name)
  | here, [] => some here
  | here, .stay :: rest => settleFrom root follow here rest
  | here, .up :: rest => settleFrom root follow here.dropLast rest
  | here, .into name :: rest =>
    match root.at? (here ++ [name]) with
    | some (.link goal) =>
      (Path.steps? goal).bind fun steps => follow (start here goal) (steps ++ rest)
    | _ => settleFrom root follow (here ++ [name]) rest

def settle (root : Node) : Nat → List Name → List Step → Option (List Name)
  | 0 => settleFrom root fun _ _ => none
  | links + 1 => settleFrom root (settle root links)

/-- The place where something written to a path comes to be. A link at its end is followed. -/
def target? (t : FileTree) (p : Path) : Option (List Name) :=
  (Path.steps? p).bind (settle t.root linkLimit (start t.home p))

/-- The place of an entry itself, be it a link or not. -/
def entry? (t : FileTree) (p : Path) : Option (List Name) :=
  (Path.steps? p).bind fun steps =>
    match steps.getLast? with
    | some (.into name) =>
      (settle t.root linkLimit (start t.home p) steps.dropLast).map (· ++ [name])
    | _ => none

def graft (t : FileTree) (new : Option Node) (place : Option (List Name)) : FileTree :=
  match place with
  | some place => { t with top := Entries.graft new place t.top }
  | none => t

def writeFile (t : FileTree) (p : Path) (content : List UInt8) : FileTree :=
  t.graft (some (.file content)) (t.target? p)

def makeFolder (t : FileTree) (p : Path) : FileTree :=
  match (t.find p).toOption.bind fun place => t.root.at? place with
  | some (.folder _) => t
  | _ => t.graft (some (.folder [])) (t.target? p)

def makeLink (t : FileTree) (p goal : Path) : FileTree :=
  t.graft (some (.link goal)) (t.entry? p)

def remove (t : FileTree) (p : Path) : FileTree := t.graft none (t.entry? p)

/-- Close the place that a path leads to. -/
def close (t : FileTree) (p : Path) (access : Access) (cause : AccessError) : FileTree :=
  match t.find p with
  | .error _ => t
  | .ok place =>
    { t with refused := fun asked q =>
        match t.refused asked q, t.find q with
        | none, .ok other => if asked = access ∧ other = place then some cause else none
        | refusal, _ => refusal }

end FileTree

end SourceAudit
