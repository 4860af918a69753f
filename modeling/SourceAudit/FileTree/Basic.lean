import SourceAudit.Path

/-!
# File trees

Files, folders and symbolic links below one top folder, one folder being the place where relative
paths begin. Every entry of a folder has a valid name. A folder is read by name: of two entries of
one name the first counts, and the order in which they were put in does not show.

The system stands between a tree and those who ask for what is in it. It may refuse any of them: a
folder that must not be listed, a file that must not be read, a path that is too long.

    node.at? (place ++ more) = (node.at? place).bind (·.at? more)                   (at?_append)
    (byName entries).Pairwise (·.1.precedes ·.1)                                (pairwise_byName)
    (name, x) ∈ byName entries ↔ entries.lookup name = some x                         (mem_byName)
-/

namespace SourceAudit

/-! ## Algorithm -/

/-- Bytes that an entry of a folder can have for a name. -/
def IsName (bytes : List UInt8) : Prop :=
  bytes ≠ [] ∧ bytes ≠ [Path.dot] ∧ bytes ≠ [Path.dot, Path.dot] ∧ Path.slash ∉ bytes ∧ 0 ∉ bytes

instance (bytes : List UInt8) : Decidable (IsName bytes) := inferInstanceAs (Decidable (_ ∧ _))

structure Name where
  bytes : List UInt8
  valid : IsName bytes
deriving DecidableEq

def Name.ofBytes? (bytes : List UInt8) : Option Name :=
  if h : IsName bytes then some ⟨bytes, h⟩ else none

inductive Node
  | file (content : List UInt8)
  | link (goal : Path)
  | folder (entries : List (Name × Node))

abbrev Entries := List (Name × Node)

/-- Why a path leads to nothing that can be read. -/
inductive AccessError
  | notFound
  | notDirectory
  | isDirectory
  | tooManyLinks
  | nulInPath
  | notUtf8
  | denied
  | nameTooLong
  | other (code : Nat) (description : Text)
deriving DecidableEq

def AccessError.message : AccessError → Text
  | .notFound => "No such file or directory (os error 2)"
  | .notDirectory => "Not a directory (os error 20)"
  | .isDirectory => "Is a directory (os error 21)"
  | .tooManyLinks => "Too many levels of symbolic links (os error 40)"
  | .nulInPath => "file name contained an unexpected NUL byte"
  | .notUtf8 => "stream did not contain valid UTF-8"
  | .denied => "Permission denied (os error 13)"
  | .nameTooLong => "File name too long (os error 36)"
  | .other code description => description ++ " (os error " ++ Text.ofNat code ++ ")"

/-- What the system is asked about a path: what is there, which names a folder has, or what a file
holds. -/
inductive Access
  | status
  | listing
  | content
deriving DecidableEq

structure FileTree where
  top : Entries
  home : List Name
  /-- What the system refuses to tell, whatever there is, and why. -/
  refused : Access → Path → Option AccessError := fun _ _ => none

/-- The system knows no path with more bytes. -/
def pathLimit : Nat := 4095

/-- A system that refuses nothing but paths that are too long. -/
def refusedTooLong (_ : Access) (p : Path) : Option AccessError :=
  if pathLimit < p.length then some .nameTooLong else none

/-- The order of names by their bytes. -/
def Name.precedes (m n : Name) : Bool := m.bytes < n.bytes

/-- Put an entry into entries that are ordered by name, in place of one with the same name. -/
def insertByName {α : Type} (name : Name) (x : α) : List (Name × α) → List (Name × α)
  | [] => [(name, x)]
  | (m, y) :: rest =>
    if name = m then (name, x) :: rest
    else if name.precedes m then (name, x) :: (m, y) :: rest
    else (m, y) :: insertByName name x rest

/-- The entries in the order of their names, one for each name. -/
def byName {α : Type} (entries : List (Name × α)) : List (Name × α) :=
  entries.foldr (fun e sorted => insertByName e.1 e.2 sorted) []

/-- The node at a place below another. -/
def Node.at? : List Name → Node → Option Node
  | [], node => some node
  | name :: rest, .folder entries => (entries.lookup name).bind (Node.at? rest)
  | _ :: _, _ => none

namespace Node

def isFile : Node → Bool
  | .file _ => true
  | _ => false

def isLink : Node → Bool
  | .link _ => true
  | _ => false

def isFolder : Node → Bool
  | .folder _ => true
  | _ => false

end Node

def FileTree.root (t : FileTree) : Node := .folder t.top

/-! ## Lemmas -/

@[simp] theorem Node.at?_nil (node : Node) : node.at? [] = some node := by
  cases node <;> rfl

theorem Node.at?_append (place more : List Name) (node : Node) :
    node.at? (place ++ more) = (node.at? place).bind (Node.at? more) := by
  induction place generalizing node with
  | nil => simp
  | cons name rest ih =>
    cases node with
    | file content => rfl
    | link goal => rfl
    | folder entries =>
      simp only [List.cons_append, Node.at?]
      cases entries.lookup name with
      | none => rfl
      | some inner => exact ih inner

theorem Node.isFolder_eq_false_iff {node : Node} :
    node.isFolder = false ↔ node.isFile = true ∨ node.isLink = true := by
  cases node <;> simp [isFile, isLink, isFolder]

theorem Name.bytes_injective {m n : Name} (h : m.bytes = n.bytes) : m = n := by
  cases m
  cases n
  simp_all

theorem Name.precedes_iff {m n : Name} : m.precedes n = true ↔ m.bytes < n.bytes :=
  decide_eq_true_iff

theorem Name.not_precedes_self (name : Name) : ¬ name.precedes name = true := fun h =>
  List.lt_irrefl _ (precedes_iff.1 h)

theorem Name.precedes_trans {l m n : Name} (hlm : l.precedes m = true)
    (hmn : m.precedes n = true) : l.precedes n = true :=
  precedes_iff.2 (List.lt_trans (precedes_iff.1 hlm) (precedes_iff.1 hmn))

theorem Name.precedes_of_not_precedes {m n : Name} (h : ¬ n.precedes m = true) (hne : n ≠ m) :
    m.precedes n = true := by
  rw [precedes_iff] at h ⊢
  by_cases hlt : m.bytes < n.bytes
  · exact hlt
  · exact absurd (bytes_injective (List.le_antisymm (List.not_lt.1 hlt) (List.not_lt.1 h))) hne

theorem mem_insertByName {α : Type} {name m : Name} {x y : α} {entries : List (Name × α)}
    (h : (m, y) ∈ insertByName name x entries) : (m = name ∧ y = x) ∨ (m, y) ∈ entries := by
  induction entries with
  | nil => simpa [insertByName] using h
  | cons e rest ih =>
    obtain ⟨n, z⟩ := e
    rw [insertByName] at h
    split at h
    · simp only [List.mem_cons, Prod.mk.injEq] at h ⊢
      rcases h with h | h
      · exact Or.inl h
      · exact Or.inr (Or.inr h)
    · split at h
      · simpa using h
      · simp only [List.mem_cons] at h ⊢
        rcases h with h | h
        · exact Or.inr (Or.inl h)
        · rcases ih h with h | h
          · exact Or.inl h
          · exact Or.inr (Or.inr h)

theorem pairwise_insertByName {α : Type} {name : Name} {x : α} {entries : List (Name × α)}
    (h : entries.Pairwise (fun a b => a.1.precedes b.1)) :
    (insertByName name x entries).Pairwise (fun a b => a.1.precedes b.1) := by
  induction entries with
  | nil => simp [insertByName]
  | cons e rest ih =>
    obtain ⟨n, z⟩ := e
    rw [List.pairwise_cons] at h
    rw [insertByName]
    split
    · next hn =>
      subst hn
      exact List.pairwise_cons.2 h
    · next hn =>
      split
      · next hlt =>
        refine List.pairwise_cons.2 ⟨?_, List.pairwise_cons.2 h⟩
        intro b hb
        rcases List.mem_cons.1 hb with rfl | hb
        · exact hlt
        · exact Name.precedes_trans hlt (h.1 b hb)
      · next hlt =>
        refine List.pairwise_cons.2 ⟨?_, ih h.2⟩
        rintro ⟨m, y⟩ hb
        rcases mem_insertByName hb with ⟨rfl, -⟩ | hb
        · exact Name.precedes_of_not_precedes hlt hn
        · exact h.1 _ hb

theorem pairwise_byName {α : Type} (entries : List (Name × α)) :
    (byName entries).Pairwise (fun a b => a.1.precedes b.1) := by
  induction entries with
  | nil => exact List.Pairwise.nil
  | cons e rest ih => exact pairwise_insertByName ih

theorem lookup_cons_entry {α : Type} (m n : Name) (z : α) (rest : List (Name × α)) :
    List.lookup m ((n, z) :: rest) = if m = n then some z else rest.lookup m := by
  by_cases h : m = n
  · simp [h]
  · rw [List.lookup_cons, beq_false_of_ne h, if_neg h]

theorem lookup_insertByName {α : Type} {name m : Name} {x : α} {entries : List (Name × α)} :
    (insertByName name x entries).lookup m = if m = name then some x else entries.lookup m := by
  induction entries with
  | nil => rw [insertByName, lookup_cons_entry]
  | cons e rest ih =>
    obtain ⟨n, z⟩ := e
    rw [insertByName]
    split
    · next hn =>
      subst hn
      rw [lookup_cons_entry, lookup_cons_entry]
      split <;> rfl
    · next hn =>
      split
      · rw [lookup_cons_entry]
      · rw [lookup_cons_entry, lookup_cons_entry, ih]
        by_cases h : m = n
        · subst h
          simp [Ne.symm hn]
        · simp [h]

theorem lookup_byName {α : Type} (entries : List (Name × α)) (name : Name) :
    (byName entries).lookup name = entries.lookup name := by
  induction entries with
  | nil => rfl
  | cons e rest ih =>
    obtain ⟨n, z⟩ := e
    show (insertByName n z (byName rest)).lookup name = _
    rw [lookup_insertByName, ih, lookup_cons_entry]

theorem lookup_eq_some_of_mem {α : Type} {entries : List (Name × α)} {name : Name} {x : α}
    (hs : entries.Pairwise (fun a b => a.1.precedes b.1)) (h : (name, x) ∈ entries) :
    entries.lookup name = some x := by
  induction entries with
  | nil => cases h
  | cons e rest ih =>
    obtain ⟨n, z⟩ := e
    rw [List.pairwise_cons] at hs
    rw [lookup_cons_entry]
    rcases List.mem_cons.1 h with he | hr
    · cases he
      simp
    · have hne : name ≠ n := by
        intro e
        have hlt := hs.1 _ hr
        rw [e] at hlt
        exact absurd hlt (Name.not_precedes_self n)
      rw [if_neg hne, ih hs.2 hr]

theorem mem_of_lookup_eq_some {α : Type} {entries : List (Name × α)} {name : Name} {x : α}
    (h : entries.lookup name = some x) : (name, x) ∈ entries := by
  induction entries with
  | nil => cases h
  | cons e rest ih =>
    obtain ⟨n, z⟩ := e
    rw [lookup_cons_entry] at h
    split at h
    · next hn =>
      cases h
      rw [hn]
      exact List.mem_cons_self
    · exact List.mem_cons_of_mem _ (ih h)

theorem mem_byName {α : Type} {entries : List (Name × α)} {name : Name} {x : α} :
    (name, x) ∈ byName entries ↔ entries.lookup name = some x := by
  rw [← lookup_byName]
  exact ⟨lookup_eq_some_of_mem (pairwise_byName entries), mem_of_lookup_eq_some⟩

end SourceAudit
