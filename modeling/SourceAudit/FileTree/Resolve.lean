import SourceAudit.FileTree.Basic

/-!
# What a path leads to

A path is followed step by step from the top folder or from home. Every step needs a folder to
start from; `..` at the top stays there. A symbolic link is replaced by its goal, at most forty
times on one way, so a way ends in any tree. What a path leads to can be had as far as the system
does not refuse it.
-/

namespace SourceAudit

/-! ## Algorithm -/

inductive Step
  | stay
  | up
  | into (name : Name)

def Step.ofPiece? (piece : List UInt8) : Option Step :=
  if piece = [] ∨ piece = [Path.dot] then some .stay
  else if piece = [Path.dot, Path.dot] then some .up
  else (Name.ofBytes? piece).map .into

/-- The steps of a path; none when it holds a byte that no name can have. -/
def Path.steps? (p : Path) : Option (List Step) := (Text.splitOn Path.slash p).mapM Step.ofPiece?

namespace FileTree

/-- Where a path begins when it is read in the folder at `here`. -/
def start (here : List Name) (p : Path) : List Name := if Path.isAbsolute p then [] else here

/-- Follow steps through real folders. At a link, `follow` goes on from where its goal begins. -/
def advance (root : Node) (follow : List Name → List Step → Except AccessError (List Name)) :
    List Name → List Step → Except AccessError (List Name)
  | here, [] => .ok here
  | here, step :: rest =>
    match root.at? here with
    | some (.folder entries) =>
      match step with
      | .stay => advance root follow here rest
      | .up => advance root follow here.dropLast rest
      | .into name =>
        match entries.lookup name with
        | none => .error .notFound
        | some (.link goal) =>
          match Path.steps? goal with
          | none => .error .notFound
          | some steps =>
            if goal = [] then .error .notFound else follow (start here goal) (steps ++ rest)
        | some _ => advance root follow (here ++ [name]) rest
    | some (.file _) => .error .notDirectory
    | _ => .error .notFound

/-- Follow steps through folders and up to `links` links. -/
def locate (root : Node) : Nat → List Name → List Step → Except AccessError (List Name)
  | 0 => advance root fun _ _ => .error .tooManyLinks
  | links + 1 => advance root (locate root links)

/-- A way may pass this many links. -/
def linkLimit : Nat := 40

/-- The place that a path leads to. -/
def find (t : FileTree) (p : Path) : Except AccessError (List Name) :=
  match Path.steps? p with
  | none => .error .nulInPath
  | some steps =>
    if p = [] then .error .notFound else locate t.root linkLimit (start t.home p) steps

/-- The node that a path leads to, if the system tells. -/
def node? (t : FileTree) (p : Path) : Option Node :=
  match t.refused .status p, t.find p with
  | none, .ok place => t.root.at? place
  | _, _ => none

def isFolder (t : FileTree) (p : Path) : Bool :=
  match t.node? p with
  | some (.folder _) => true
  | _ => false

def isFile (t : FileTree) (p : Path) : Bool :=
  match t.node? p with
  | some (.file _) => true
  | _ => false

/-- The text of the file that a path leads to. -/
def readText (t : FileTree) (p : Path) : Except AccessError Text :=
  match t.refused .content p, t.find p with
  | some e, _ => .error e
  | none, .error e => .error e
  | none, .ok place =>
    match t.root.at? place with
    | some (.file content) =>
      match Utf8.decode? content with
      | some text => .ok text
      | none => .error .notUtf8
    | some (.folder _) => .error .isDirectory
    | _ => .error .notFound

end FileTree

end SourceAudit
