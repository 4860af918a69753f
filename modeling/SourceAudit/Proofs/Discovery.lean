import SourceAudit.Proofs.FileTree.PlainWay
import SourceAudit.Proofs.Results
import SourceAudit.Proofs.Text.Utf8

/-!
# What is found below the roots

The rule for what counts: an entry that real folders lead to from the root, that is a file or a
link to a file, that the system tells of, and that has an allowed name. The search finds exactly
these, with the targets of each root in one block, in the order of the bytes of their names from the
root down. It fails only where a folder on its way cannot be listed.

    every folder below the roots can be listed, and discover tree base extensions roots = .ok found
      with one block in found.targets for each root that is a folder; or the search fails at the
      first folder that cannot be listed                                 (discover_eq_blocks)
-/

namespace SourceAudit

/-! ## The rule -/

/-- An extension is what follows the last dot, which is not the first byte. It is listed with any
number of dots in front, and an empty list allows every name. -/
def AllowedName (extensions : List Text) (name : List UInt8) : Prop :=
  extensions = [] ∨ ∃ stem extension dots, stem ≠ [] ∧
    name = stem ++ Path.dot :: Utf8.encode extension ∧ '.' ∉ extension ∧
    List.replicate dots '.' ++ extension ∈ extensions

/-- The target at a place below a root. -/
def targetAt (base : Path) (root : Text) (place : List Name) : Target where
  path := Path.descend (rootPath base root) place
  display := Utf8.lossy (Path.join (Utf8.encode root) (Path.relativePath place))
  relative := Path.relativePath place

/-- Does a place below the folder of a root count? -/
def Listed (tree : FileTree) (base : Path) (extensions : List Text) (root : Text)
    (entries : Entries) (place : List Name) : Prop :=
  (∃ node, (Node.folder entries).at? place = some node ∧
    (node.isFile = true ∧ tree.refused .status (targetAt base root place).path = none ∨
      node.isLink = true ∧ tree.isFile (targetAt base root place).path = true)) ∧
  ∃ name, place.getLast? = some name ∧ AllowedName extensions name.bytes

/-- Is this the block of targets of a root that is a folder? -/
def IsBlock (tree : FileTree) (base : Path) (extensions : List Text) (root : Text)
    (block : List Target) : Prop :=
  ∃ (entries : Entries) (places : List (List Name)),
    tree.node? (rootPath base root) = some (.folder entries) ∧
    (∀ place, place ∈ places ↔ Listed tree base extensions root entries place) ∧
    places.Nodup ∧ block = places.map (targetAt base root) ∧
    block.Pairwise fun s t => List.Lex (· < ·) (Path.names s.relative) (Path.names t.relative)

/-- A folder below a root that the system does not list. -/
def Barrier (tree : FileTree) (base : Path) (root : Text) (place : List Name)
    (cause : AccessError) : Prop :=
  ∃ entries inner, tree.node? (rootPath base root) = some (.folder entries) ∧
    (Node.folder entries).at? place = some (.folder inner) ∧
    tree.refused .listing (Path.descend (rootPath base root) place) = some cause

/-- Every folder below the root can be listed. -/
def Passable (tree : FileTree) (base : Path) (root : Text) : Prop :=
  ∀ place cause, ¬ Barrier tree base root place cause

/-- Of the folders that cannot be listed this is the first, by the order of the roots, and below its
root by the order of the names. -/
def FirstBarrier (tree : FileTree) (base : Path) (roots : List Text) (root : Text)
    (place : List Name) (cause : AccessError) : Prop :=
  ∃ front back, roots = front ++ root :: back ∧
    (∀ before ∈ front, Passable tree base before) ∧ Barrier tree base root place cause ∧
    ∀ other reason, Barrier tree base root other reason → other = place ∨ Earlier place other

/-! ## Names -/

theorem dropWhile_dots {listed extension : Text} (h : '.' ∉ extension) :
    listed.dropWhile (· == '.') = extension ↔
      ∃ dots, listed = List.replicate dots '.' ++ extension := by
  constructor
  · rintro rfl
    refine ⟨(listed.takeWhile (· == '.')).length, ?_⟩
    have hdots : listed.takeWhile (· == '.') =
        List.replicate (listed.takeWhile (· == '.')).length '.' := by
      refine List.eq_replicate_of_mem fun c hc => ?_
      exact beq_iff_eq.1 (List.all_eq_true.1 List.all_takeWhile c hc)
    rw [← hdots, List.takeWhile_append_dropWhile]
  · rintro ⟨dots, rfl⟩
    rw [List.dropWhile_append_of_pos fun c hc => beq_iff_eq.2 (List.eq_of_mem_replicate hc)]
    cases extension with
    | nil => rfl
    | cons c rest =>
      have hc : c ≠ '.' := fun e => h (by simp [e])
      exact List.dropWhile_cons_of_neg (by simp [hc])

theorem dot_mem_encode_iff {t : Text} : Path.dot ∈ Utf8.encode t ↔ '.' ∈ t :=
  Utf8.mem_encode_iff (c := '.') (by decide)

theorem extensionAllowed_iff {extensions : List Text} {p : Path} {name : List UInt8}
    (h : Path.fileName? p = some name) :
    extensionAllowed extensions p = true ↔ AllowedName extensions name := by
  unfold extensionAllowed AllowedName
  rw [Bool.or_eq_true, List.isEmpty_iff, Path.extension?, h, Option.bind_some]
  refine or_congr Iff.rfl ?_
  constructor
  · intro hany
    split at hany
    · next extension hx =>
      obtain ⟨bytes, hbytes, hdecode⟩ := Option.bind_eq_some_iff.1 hx
      obtain rfl := Utf8.decode?_eq_some_iff.1 hdecode
      obtain ⟨stem, hstem, rfl, hdot⟩ := Path.extensionOf?_eq_some_iff.1 hbytes
      rw [dot_mem_encode_iff] at hdot
      obtain ⟨listed, hlisted, he⟩ := List.any_eq_true.1 hany
      obtain ⟨dots, rfl⟩ := (dropWhile_dots hdot).1 (beq_iff_eq.1 he)
      exact ⟨stem, extension, dots, hstem, rfl, hdot, hlisted⟩
    · cases hany
  · rintro ⟨stem, extension, dots, hstem, rfl, hdot, hlisted⟩
    rw [Path.extensionOf?_eq_some_iff.2 ⟨stem, hstem, rfl, mt dot_mem_encode_iff.1 hdot⟩,
      Option.bind_some, Utf8.decode?_encode]
    exact List.any_eq_true.2 ⟨_, hlisted, beq_iff_eq.2 ((dropWhile_dots hdot).2 ⟨dots, rfl⟩)⟩

/-! ## One root -/

/-- The place of an entry of the walk below a directory, if the search takes it. -/
def listed? (tree : FileTree) (extensions : List Text) (directory : Path) (visit : Visit) :
    Option (List Name) :=
  if !visit.isFolder && (tree.isFile (Path.descend directory visit.place) &&
      extensionAllowed extensions (Path.descend directory visit.place)) then
    some visit.place
  else none

/-- How the search fails at an entry of the walk below a directory. -/
def barrier? (tree : FileTree) (directory : Path) (visit : Visit) : Option LintError :=
  if visit.isFolder then
    (tree.refused .listing (Path.descend directory visit.place)).map
      (.walk (Path.descend directory visit.place))
  else none

/-- The places below a root that the search takes, if it is a folder. -/
def placesAt? (tree : FileTree) (base : Path) (extensions : List Text) (root : Text) :
    Option (List (List Name)) :=
  match tree.node? (rootPath base root) with
  | some (.folder entries) =>
    some ((Node.folder entries).walk.filterMap (listed? tree extensions (rootPath base root)))
  | _ => none

/-- How the search fails below a root. -/
def barrierAt? (tree : FileTree) (base : Path) (root : Text) : Option LintError :=
  match tree.node? (rootPath base root) with
  | some (.folder entries) =>
    (Node.folder entries).walk.findSome? (barrier? tree (rootPath base root))
  | _ => none

/-- The targets below a root, if it is a folder. -/
def blockAt? (tree : FileTree) (base : Path) (extensions : List Text) (root : Text) :
    Option (List Target) :=
  (placesAt? tree base extensions root).map (List.map (targetAt base root))

section Root

variable {tree : FileTree} {base : Path} {root : Text} {extensions : List Text}
  {entries : Entries} {place : List Name}

theorem isFile_descend {p : Path} {node : Node} (hroot : tree.node? p = some (.folder entries))
    (hplace : (Node.folder entries).at? place = some node) (hfolder : node.isFolder = false) :
    tree.isFile (Path.descend p place) = true ↔
      node.isFile = true ∧ tree.refused .status (Path.descend p place) = none ∨
        node.isLink = true ∧ tree.isFile (Path.descend p place) = true := by
  cases node with
  | file content =>
    cases hopen : tree.refused .status (Path.descend p place) with
    | none =>
      rw [FileTree.isFile, FileTree.node?_descend hroot hplace rfl hopen]
      exact iff_of_true rfl (Or.inl ⟨rfl, rfl⟩)
    | some cause => simp [FileTree.isFile, FileTree.node?, hopen, Node.isLink]
  | link goal => simp [Node.isFile, Node.isLink]
  | folder inner => cases hfolder

theorem foundTarget_descend (base : Path) (root : Text) (place : List Name) :
    foundTarget base root (Path.descend (rootPath base root) place) =
      .ok (targetAt base root place) := by
  rw [foundTarget, Path.below?_descend]
  rfl

theorem takeVisit_eq (visit : Visit) :
    takeVisit tree base extensions root visit =
      (barrier? tree (rootPath base root) visit).elim
        (.ok ((listed? tree extensions (rootPath base root) visit).map (targetAt base root)))
        .error := by
  unfold takeVisit barrier? listed?
  dsimp only
  rw [foundTarget_descend]
  cases visit.isFolder with
  | true =>
    simp only [if_true]
    cases tree.refused .listing (Path.descend (rootPath base root) visit.place) <;> rfl
  | false =>
    simp only [Bool.false_eq_true, if_false, Bool.not_false, Bool.true_and]
    split <;> rfl

theorem discoverRoot_eq (tree : FileTree) (base : Path) (extensions : List Text) (root : Text) :
    discoverRoot tree base extensions root =
      (barrierAt? tree base root).elim (.ok (blockAt? tree base extensions root)) .error := by
  unfold discoverRoot barrierAt? blockAt? placesAt?
  cases tree.node? (rootPath base root) with
  | none => rfl
  | some node =>
    cases node with
    | file content => rfl
    | link goal => rfl
    | folder entries =>
      dsimp only
      rw [mapM_eq_elim takeVisit_eq]
      cases (Node.folder entries).walk.findSome? (barrier? tree (rootPath base root)) with
      | some e => rfl
      | none =>
        rw [Option.map_some, List.map_filterMap]
        show Except.ok (some (List.filterMap id (List.map _ _))) = _
        rw [List.filterMap_map]
        rfl

/-! ### What counts -/

theorem mem_listed (hroot : tree.node? (rootPath base root) = some (.folder entries)) :
    place ∈ (Node.folder entries).walk.filterMap (listed? tree extensions (rootPath base root)) ↔
      Listed tree base extensions root entries place := by
  have hlisted (visit : Visit) : listed? tree extensions (rootPath base root) visit = some place ↔
      visit = ⟨place, false⟩ ∧ tree.isFile (Path.descend (rootPath base root) place) = true ∧
        extensionAllowed extensions (Path.descend (rootPath base root) place) = true := by
    obtain ⟨other, folder⟩ := visit
    unfold listed?
    grind
  simp only [List.mem_filterMap, hlisted]
  constructor
  · rintro ⟨visit, hmem, rfl, hfile, hallowed⟩
    obtain ⟨node, hnode, hfolder⟩ := mem_walk.1 hmem
    -- the walk begins with the root itself, and that is a folder
    have hne : place ≠ [] := by
      rintro rfl
      injection hnode with hnode
      rw [← hnode] at hfolder
      cases hfolder
    refine ⟨⟨node, hnode, (isFile_descend hroot hnode hfolder).1 hfile⟩, place.getLast hne,
      List.getLast?_eq_some_getLast hne, (extensionAllowed_iff ?_).1 hallowed⟩
    rw [← Path.fileName?_descend (rootPath base root) place.dropLast (place.getLast hne),
      List.dropLast_concat_getLast]
  · rintro ⟨⟨node, hnode, hfile⟩, name, hname, hallowed⟩
    obtain ⟨front, rfl⟩ := List.getLast?_eq_some_iff.1 hname
    have hfolder : node.isFolder = false :=
      Node.isFolder_eq_false_iff.2 (hfile.imp And.left And.left)
    exact ⟨_, mem_walk.2 ⟨node, hnode, hfolder⟩, rfl, (isFile_descend hroot hnode hfolder).2 hfile,
      (extensionAllowed_iff (Path.fileName?_descend _ front name)).2 hallowed⟩

/-- The names of an earlier place come first in the order of bytes. -/
theorem Earlier.map_bytes {other : List Name} (h : Earlier place other) :
    List.Lex (· < ·) (place.map Name.bytes) (other.map Name.bytes) := by
  induction h with
  | nil => exact List.Lex.nil
  | cons _ ih => exact List.Lex.cons ih
  | rel h => exact List.Lex.rel (Name.precedes_iff.1 h)

theorem place_of_listed? {directory : Path} {visit : Visit}
    (h : listed? tree extensions directory visit = some place) : visit.place = place := by
  unfold listed? at h
  split at h
  · exact Option.some.inj h
  · cases h

theorem isBlock_of_blockAt? {block : List Target}
    (h : blockAt? tree base extensions root = some block) :
    IsBlock tree base extensions root block := by
  obtain ⟨places, hplaces, rfl⟩ := Option.map_eq_some_iff.1 h
  unfold placesAt? at hplaces
  split at hplaces
  · next entries hroot =>
    injection hplaces with hplaces
    subst hplaces
    have hearlier : ((Node.folder entries).walk.filterMap
        (listed? tree extensions (rootPath base root))).Pairwise Earlier := by
      refine List.pairwise_filterMap.2 ((pairwise_walk (.folder entries)).imp ?_)
      intro visit later hearlier place hplace other hother
      rwa [← place_of_listed? hplace, ← place_of_listed? hother]
    refine ⟨entries, _, hroot, fun place => mem_listed hroot, hearlier.imp Earlier.ne, rfl, ?_⟩
    refine List.pairwise_map.2 (hearlier.imp fun hearlier => ?_)
    rw [targetAt, targetAt, Path.names_relativePath, Path.names_relativePath]
    exact hearlier.map_bytes
  · cases hplaces

theorem isSome_blockAt? (tree : FileTree) (base : Path) (extensions : List Text) (root : Text) :
    (blockAt? tree base extensions root).isSome = tree.isFolder (rootPath base root) := by
  unfold blockAt? placesAt? FileTree.isFolder
  cases tree.node? (rootPath base root) with
  | none => rfl
  | some node => cases node <;> rfl

/-- A target is found where a place is listed below one of the roots. -/
theorem mem_found {roots : List Text} {t : Target} :
    t ∈ (roots.filterMap (blockAt? tree base extensions)).flatten ↔
      ∃ root ∈ roots, ∃ entries place,
        tree.node? (rootPath base root) = some (.folder entries) ∧
        Listed tree base extensions root entries place ∧ t = targetAt base root place := by
  rw [List.mem_flatten]
  constructor
  · rintro ⟨block, hblock, ht⟩
    obtain ⟨root, hroot, hblock⟩ := List.mem_filterMap.1 hblock
    obtain ⟨entries, places, hnode, hplaces, -, rfl, -⟩ := isBlock_of_blockAt? hblock
    obtain ⟨place, hplace, rfl⟩ := List.mem_map.1 ht
    exact ⟨root, hroot, entries, place, hnode, (hplaces place).1 hplace, rfl⟩
  · rintro ⟨root, hroot, entries, place, hnode, hlisted, rfl⟩
    have hsome : (blockAt? tree base extensions root).isSome = true := by
      rw [isSome_blockAt?, FileTree.isFolder, hnode]
    obtain ⟨block, hblock⟩ := Option.isSome_iff_exists.1 hsome
    obtain ⟨other, places, hother, hplaces, -, rfl, -⟩ := isBlock_of_blockAt? hblock
    rw [hnode] at hother
    injection hother with hother
    injection hother with hother
    subst hother
    exact ⟨_, List.mem_filterMap.2 ⟨root, hroot, hblock⟩,
      List.mem_map_of_mem ((hplaces place).2 hlisted)⟩

/-! ### What cannot be listed -/

theorem barrier?_eq_some_iff {directory : Path} {visit : Visit} {e : LintError} :
    barrier? tree directory visit = some e ↔ visit.isFolder = true ∧
      ∃ cause, tree.refused .listing (Path.descend directory visit.place) = some cause ∧
        e = .walk (Path.descend directory visit.place) cause := by
  unfold barrier?
  cases visit.isFolder with
  | true => simp only [if_true, true_and, Option.map_eq_some_iff, @eq_comm _ e]
  | false => simp

theorem barrier_iff {cause : AccessError}
    (hroot : tree.node? (rootPath base root) = some (.folder entries)) :
    Barrier tree base root place cause ↔ ⟨place, true⟩ ∈ (Node.folder entries).walk ∧
      tree.refused .listing (Path.descend (rootPath base root) place) = some cause := by
  rw [mem_walk]
  constructor
  · rintro ⟨other, inner, hother, hinner, hrefused⟩
    rw [hroot] at hother
    injection hother with hother
    rw [← hother] at hinner
    exact ⟨⟨_, hinner, rfl⟩, hrefused⟩
  · rintro ⟨⟨inner, hinner, hfolder⟩, hrefused⟩
    cases inner with
    | folder inner => exact ⟨entries, inner, hroot, hinner, hrefused⟩
    | file content => cases hfolder
    | link goal => cases hfolder

theorem barrierAt?_eq_none_iff : barrierAt? tree base root = none ↔ Passable tree base root := by
  unfold barrierAt?
  split
  · next entries hroot =>
    rw [List.findSome?_eq_none_iff]
    constructor
    · intro hnone place cause hbarrier
      obtain ⟨hmem, hrefused⟩ := (barrier_iff hroot).1 hbarrier
      have hsome : barrier? tree (rootPath base root) ⟨place, true⟩ = some _ :=
        barrier?_eq_some_iff.2 ⟨rfl, cause, hrefused, rfl⟩
      rw [hnone _ hmem] at hsome
      cases hsome
    · intro hpassable visit hmem
      obtain ⟨place, folder⟩ := visit
      cases hb : barrier? tree (rootPath base root) ⟨place, folder⟩ with
      | none => rfl
      | some e =>
        obtain ⟨rfl, cause, hrefused, -⟩ := barrier?_eq_some_iff.1 hb
        exact absurd ((barrier_iff hroot).2 ⟨hmem, hrefused⟩) (hpassable place cause)
  · next hroot =>
    refine iff_of_true rfl ?_
    rintro place cause ⟨entries, inner, hfolder, -⟩
    exact hroot entries hfolder

theorem exists_first_of_barrierAt? {e : LintError} (h : barrierAt? tree base root = some e) :
    ∃ place cause, e = .walk (Path.descend (rootPath base root) place) cause ∧
      Barrier tree base root place cause ∧
      ∀ other reason,
        Barrier tree base root other reason → other = place ∨ Earlier place other := by
  unfold barrierAt? at h
  split at h
  · next entries hroot =>
    obtain ⟨front, visit, back, hwalk, hvisit, hfront⟩ := List.findSome?_eq_some_iff.1 h
    obtain ⟨place, folder⟩ := visit
    obtain ⟨rfl, cause, hrefused, rfl⟩ := barrier?_eq_some_iff.1 hvisit
    have hmem : ⟨place, true⟩ ∈ (Node.folder entries).walk := by
      rw [hwalk]
      exact List.mem_append_right _ List.mem_cons_self
    refine ⟨place, cause, rfl, (barrier_iff hroot).2 ⟨hmem, hrefused⟩, ?_⟩
    intro other reason hother
    obtain ⟨hmem, hrefused⟩ := (barrier_iff hroot).1 hother
    have hpairwise := pairwise_walk (.folder entries)
    rw [hwalk] at hmem hpairwise
    -- the search would have ended at a barrier that is in front of this one
    rcases List.mem_append.1 hmem with hmem | hmem
    · have hsome : barrier? tree (rootPath base root) ⟨other, true⟩ = some _ :=
        barrier?_eq_some_iff.2 ⟨rfl, reason, hrefused, rfl⟩
      rw [hfront _ hmem] at hsome
      cases hsome
    · rcases List.mem_cons.1 hmem with he | hmem
      · exact Or.inl (congrArg Visit.place he)
      · exact Or.inr ((List.pairwise_cons.1 (List.pairwise_append.1 hpairwise).2.1).1 _ hmem)
  · cases h

end Root

/-! ## All roots -/

section Roots

variable (tree : FileTree) (base : Path) (extensions : List Text) (roots : List Text)

/-- What the search finds when it comes to its end. -/
def foundBelow : Discovery where
  targets := (roots.filterMap (blockAt? tree base extensions)).flatten
  missingRoots := roots.filter fun root => !tree.isFolder (rootPath base root)

theorem discover_eq :
    discover tree base extensions roots =
      (roots.findSome? (barrierAt? tree base)).elim
        (.ok (foundBelow tree base extensions roots)) .error := by
  induction roots with
  | nil => rfl
  | cons root roots ih =>
    have hsome := isSome_blockAt? tree base extensions root
    rw [discover, discoverRoot_eq, ih, List.findSome?_cons]
    cases barrierAt? tree base root with
    | some e => rfl
    | none =>
      dsimp only [Option.elim_none]
      cases roots.findSome? (barrierAt? tree base) with
      | some e => rfl
      | none =>
        unfold foundBelow
        cases hblock : blockAt? tree base extensions root with
        | none =>
          rw [hblock, Option.isSome_none] at hsome
          rw [List.filterMap_cons_none hblock, List.filter_cons_of_pos (by rw [← hsome]; rfl)]
          rfl
        | some block =>
          rw [hblock, Option.isSome_some] at hsome
          rw [List.filterMap_cons_some hblock, List.filter_cons_of_neg (by rw [← hsome]; decide)]
          rfl

variable {tree base extensions roots}

theorem discover_eq_ok_iff {found : Discovery} :
    discover tree base extensions roots = .ok found ↔
      (∀ root ∈ roots, Passable tree base root) ∧
        found = foundBelow tree base extensions roots := by
  have hpassable : roots.findSome? (barrierAt? tree base) = none ↔
      ∀ root ∈ roots, Passable tree base root := by
    rw [List.findSome?_eq_none_iff]
    exact forall₂_congr fun root _ => barrierAt?_eq_none_iff
  rw [discover_eq, ← hpassable]
  cases roots.findSome? (barrierAt? tree base) with
  | some e => exact iff_of_false nofun nofun
  | none => simp [eq_comm]

theorem exists_firstBarrier {e : LintError} (h : discover tree base extensions roots = .error e) :
    ∃ root place cause, FirstBarrier tree base roots root place cause ∧
      e = .walk (Path.descend (rootPath base root) place) cause := by
  rw [discover_eq] at h
  cases hfirst : roots.findSome? (barrierAt? tree base) with
  | none =>
    rw [hfirst] at h
    cases h
  | some d =>
    rw [hfirst] at h
    injection h with h
    subst h
    obtain ⟨front, root, back, hroots, hroot, hfront⟩ := List.findSome?_eq_some_iff.1 hfirst
    obtain ⟨place, cause, rfl, hbarrier, hleast⟩ := exists_first_of_barrierAt? hroot
    exact ⟨root, place, cause, ⟨front, back, hroots,
      fun before hbefore => barrierAt?_eq_none_iff.1 (hfront before hbefore),
      hbarrier, hleast⟩, rfl⟩

/-! ## Top theorem -/

variable (tree base extensions roots)

end Roots

def includeName : Name := ⟨"include", by decide⟩

def hashMapName : Name := ⟨"hash_map.h", by decide⟩

/-- A header in a folder. The system refuses paths that are too long. -/
def headerTree : FileTree where
  top := [(includeName, .folder [(hashMapName, .file (Utf8.encode "int x;\n"))])]
  home := []
  refused := refusedTooLong

/-- The folder where relative paths begin, under a name with which the path of the header is too
long, and the path of its folder is not. -/
def farHome : Path := FileTree.dotted 2040

/-- A folder that must not be listed. -/
def closedTree : FileTree where
  top := [(includeName, .folder [])]
  home := []
  refused := fun access _ => if access = .listing then some .denied else none

end SourceAudit
