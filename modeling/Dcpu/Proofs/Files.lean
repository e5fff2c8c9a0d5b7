import Dcpu.Files.Tree
import Dcpu.Proofs.Lines

/-!
# Reading and writing files

Writing a file changes the tree at one path (`Tree.node?_put_of_ne`), and the name that was written
leads to this path afterwards (`Tree.Opens.find`), so that a file which has been created or emptied
can be filled (`Tree.write_write`). The reason is that a walk to a file passes only directories, and
a file is put where there was no directory (`Tree.walk_put`).

A file that can be read is also found under the plain form of its name (`Tree.contains_of_read`),
which is no longer than the name and leaves out only components that do not move a walk.
-/

namespace Dcpu.Files
open Results

/-! ### Putting a node -/

namespace Tree

/-- Tells whether a path stands for a directory that no entry of a tree has to name. -/
def IsGiven (path : Path) : Prop :=
  path = [root] ∨ path.all (· == "..") = true

/-- What is always there is a directory. -/
lemma node?_of_isGiven {path : Path} (given : IsGiven path) (tree : Tree) :
    tree.node? path = some .directory :=
  if_pos given

/-- All else is there if the tree has it. -/
lemma node?_eq_lookup {path : Path} (own : ¬IsGiven path) (tree : Tree) :
    tree.node? path = tree.nodes.lookup path :=
  if_neg own

/-- A node is looked up where another one has been replaced. -/
lemma lookup_replaced (nodes : List (Path × Node)) (path other : Path) (node : Node) :
    (nodes.map fun entry => if entry.1 == path then (path, node) else entry).lookup other =
      if other = path then (nodes.lookup other).map fun _ => node else nodes.lookup other := by
  induction nodes with
  | nil => simp
  | cons entry nodes ih =>
    rw [List.map_cons, List.lookup_cons, List.lookup_cons, ih]
    by_cases first : entry.1 = path
    · rw [if_pos (beq_iff_eq.2 first), first]
      by_cases here : other = path
      · simp [here]
      · simp [here, beq_false_of_ne here]
    · rw [if_neg (by simpa using first)]
      by_cases here : other = path
      · simp [here, beq_false_of_ne (Ne.symm first)]
      · simp [here]

/-- A node is looked up where one has been put. -/
lemma lookup_put (tree : Tree) (path other : Path) (node : Node) :
    (tree.put path node).nodes.lookup other =
      if other = path then some node else tree.nodes.lookup other := by
  unfold put
  split
  · next there =>
    rw [lookup_replaced]
    split
    · next here =>
      obtain ⟨entry, mem, e⟩ := List.any_eq_true.1 there
      have found : (tree.nodes.lookup other).isSome := by
        rw [List.lookup_isSome_iff]
        exact ⟨entry, mem, by rw [here, beq_iff_eq.1 e]; exact beq_self_eq_true path⟩
      obtain ⟨old, e⟩ := Option.isSome_iff_exists.1 found
      rw [e]
      rfl
    · rfl
  · next missing =>
    rw [List.lookup_append, List.lookup_cons, List.lookup_nil]
    by_cases here : other = path
    · have none : tree.nodes.lookup path = none := by
        rw [List.lookup_eq_none_iff]
        intro entry mem
        apply bne_iff_ne.2
        intro e
        exact missing (List.any_eq_true.2 ⟨entry, mem, beq_iff_eq.2 e.symm⟩)
      simp [here, none]
    · simp [here, beq_false_of_ne here]

/-- What has been put is there, unless a directory stands in its way. -/
lemma node?_put_self {tree : Tree} {path : Path} (free : tree.node? path ≠ some .directory)
    (node : Node) : (tree.put path node).node? path = some node := by
  have own : ¬IsGiven path := fun given => free (node?_of_isGiven given tree)
  rw [node?_eq_lookup own, lookup_put, if_pos rfl]

/-- Every other path keeps its node. -/
lemma node?_put_of_ne {path other : Path} (ne : other ≠ path) (tree : Tree) (node : Node) :
    (tree.put path node).node? other = tree.node? other := by
  by_cases given : IsGiven other
  · rw [node?_of_isGiven given, node?_of_isGiven given]
  · rw [node?_eq_lookup given, node?_eq_lookup given, lookup_put, if_neg ne]

/-- Of two nodes that are put at a path the second one stays. -/
lemma put_put (tree : Tree) (path : Path) (first second : Node) :
    (tree.put path first).put path second = tree.put path second := by
  unfold put
  by_cases there : tree.nodes.any (·.1 == path) = true
  · have again : (tree.nodes.map fun entry =>
        if entry.1 == path then (path, first) else entry).any (·.1 == path) = true := by
      obtain ⟨entry, mem, e⟩ := List.any_eq_true.1 there
      refine List.any_eq_true.2 ⟨_, List.mem_map_of_mem mem, ?_⟩
      simp [e]
    rw [if_pos there, if_pos again, if_pos there, List.map_map]
    congr 2
    funext entry
    by_cases here : entry.1 = path <;> simp [here]
  · have others : (tree.nodes.map fun entry =>
        if entry.1 == path then (path, second) else entry) = tree.nodes.map id := by
      apply List.map_congr_left
      intro entry mem
      apply if_neg
      intro here
      exact there (List.any_eq_true.2 ⟨entry, mem, here⟩)
    rw [if_neg there, if_neg there, if_pos (by simp), List.map_append, others, List.map_id]
    simp

/-! ### Walks -/

/-- Tells whether a component is a name that a directory can hold. -/
structure IsEntryName (component : String) : Prop where
  moves : ¬(component = "" ∨ component = ".")
  down : component ≠ ".."
  short : ¬componentLimit < component.utf8ByteSize

/-- The walks that end at a place. -/
inductive Leads (tree : Tree) : Path → List String → Place → Prop
  | stop {directory : Path} : Leads tree directory [] (.occupied directory .directory)
  | stay {directory : Path} {component : String} {rest : List String} {place : Place}
      (still : component = "" ∨ component = ".") (next : Leads tree directory rest place) :
      Leads tree directory (component :: rest) place
  | up {directory : Path} {rest : List String} {place : Place}
      (next : Leads tree (parent directory) rest place) :
      Leads tree directory (".." :: rest) place
  | down {directory : Path} {component : String} {rest : List String} {place : Place}
      (entry : IsEntryName component)
      (found : tree.node? (directory ++ [component]) = some .directory)
      (next : Leads tree (directory ++ [component]) rest place) :
      Leads tree directory (component :: rest) place
  | file {directory : Path} {component : String} {content : List UInt8}
      (entry : IsEntryName component)
      (found : tree.node? (directory ++ [component]) = some (.file content)) :
      Leads tree directory [component] (.occupied (directory ++ [component]) (.file content))
  | vacant {directory : Path} {component : String} (entry : IsEntryName component)
      (missing : tree.node? (directory ++ [component]) = none) :
      Leads tree directory [component] (.vacant (directory ++ [component]))

variable {tree : Tree} {directory path : Path} {parts : List String} {place : Place}

/-- A walk that ends follows the rules of `Leads`. -/
lemma leads_of_walk (walked : tree.walk directory parts = .ok place) :
    tree.Leads directory parts place := by
  fun_induction tree.walk directory parts with
  | case1 directory =>
    cases walked
    exact .stop
  | case2 directory component rest still ih => exact .stay still (ih walked)
  | case3 directory rest _ ih => exact .up (ih walked)
  | case4 => cases walked
  | case5 directory component rest moves down short path found ih =>
    exact .down ⟨moves, down, short⟩ found (ih walked)
  | case6 directory component rest moves down short path content found last =>
    cases walked
    rw [List.isEmpty_iff.1 last]
    exact .file ⟨moves, down, short⟩ found
  | case7 => cases walked
  | case8 directory component rest moves down short path missing last =>
    cases walked
    rw [List.isEmpty_iff.1 last]
    exact .vacant ⟨moves, down, short⟩ missing
  | case9 => cases walked

/-- The rules of `Leads` describe a walk that ends. -/
lemma walk_of_leads (leads : tree.Leads directory parts place) :
    tree.walk directory parts = .ok place := by
  induction leads with
  | stop => rfl
  | stay still _ ih => rw [walk, if_pos still, ih]
  | up _ ih => rw [walk, if_neg (by simp), if_pos rfl, ih]
  | down entry found _ ih =>
    rw [walk, if_neg entry.moves, if_neg entry.down, if_neg entry.short]
    simp only [found, ih]
  | file entry found =>
    rw [walk, if_neg entry.moves, if_neg entry.down, if_neg entry.short]
    simp [found]
  | vacant entry missing =>
    rw [walk, if_neg entry.moves, if_neg entry.down, if_neg entry.short]
    simp [missing]

/-- A walk is described by `Leads`. -/
lemma walk_eq_ok : tree.walk directory parts = .ok place ↔ tree.Leads directory parts place :=
  ⟨leads_of_walk, walk_of_leads⟩

end Tree

/-- Tells whether a place is a path at which a file stands or can be created. -/
def Place.Takes (path : Path) (place : Place) : Prop :=
  place = .vacant path ∨ ∃ content, place = .occupied path (.file content)

namespace Tree.Leads

variable {tree : Tree} {directory path : Path} {parts : List String} {place : Place}

/-- A place that takes a file is not a directory. -/
lemma free (leads : tree.Leads directory parts place) (takes : place.Takes path) :
    tree.node? path ≠ some .directory := by
  induction leads with
  | stop => rcases takes with h | ⟨_, h⟩ <;> cases h
  | stay _ _ ih => exact ih takes
  | up _ ih => exact ih takes
  | down _ _ _ ih => exact ih takes
  | file _ found =>
    rcases takes with h | ⟨_, h⟩ <;> cases h
    rw [found]
    exact nofun
  | vacant _ missing =>
    rcases takes with h | ⟨_, h⟩ <;> cases h
    rw [missing]
    exact nofun

/-- A file is found where it was put: the directories on the way to it are still there. -/
lemma put (leads : tree.Leads directory parts place) (takes : place.Takes path)
    (content : List UInt8) :
    (tree.put path (.file content)).Leads directory parts (.occupied path (.file content)) := by
  have free := leads.free takes
  have here := node?_put_self free (.file content)
  induction leads with
  | stop => rcases takes with h | ⟨_, h⟩ <;> cases h
  | stay still _ ih => exact .stay still (ih takes)
  | up _ ih => exact .up (ih takes)
  | down entry found _ ih =>
    -- The file was put where no directory is, so not on the way.
    refine .down entry ?_ (ih takes)
    rw [node?_put_of_ne, found]
    intro e
    exact free (e ▸ found)
  | file entry _ =>
    rcases takes with h | ⟨_, h⟩ <;> cases h
    exact .file entry here
  | vacant entry _ =>
    rcases takes with h | ⟨_, h⟩ <;> cases h
    exact .file entry here

/-- A walk does not need the components that lead nowhere. -/
lemma filter (leads : tree.Leads directory parts place) :
    tree.Leads directory
      (parts.filter fun component => !(component == "" || component == ".")) place := by
  induction leads with
  | stop => exact .stop
  | stay still _ ih =>
    rw [List.filter_cons_of_neg (by simpa [or_iff_not_imp_left] using still)]
    exact ih
  | up _ ih => exact .up ih
  | down entry found _ ih =>
    rw [List.filter_cons_of_pos (by simpa using entry.moves)]
    exact .down entry found ih
  | file entry found =>
    rw [List.filter_cons_of_pos (by simpa using entry.moves)]
    exact .file entry found
  | vacant entry missing =>
    rw [List.filter_cons_of_pos (by simpa using entry.moves)]
    exact .vacant entry missing

end Tree.Leads

/-! ### Names -/

/-- Tells whether a name is neither empty nor too long. -/
structure IsName (name : String) : Prop where
  nonempty : ¬name.isEmpty = true
  short : ¬nameLimit < name.utf8ByteSize

namespace Tree

variable {tree after : Tree} {name : String} {path : Path} {place : Place}

/-- A place is found by a walk along the components of a name. -/
lemma find_eq_ok : tree.find name = .ok place ↔
    IsName name ∧ tree.Leads (start name) (components name) place := by
  unfold find walkName
  split
  · next empty => exact ⟨nofun, fun h => absurd empty h.1.nonempty⟩
  · next nonempty =>
    split
    · next long => exact ⟨nofun, fun h => absurd long h.1.short⟩
    · next short =>
      rw [walk_eq_ok]
      exact ⟨fun leads => ⟨⟨nonempty, short⟩, leads⟩, And.right⟩

/-- A name for an output file does not end with a slash. -/
lemma findOutput_eq_ok : tree.findOutput name = .ok place ↔
    (components name).getLast? ≠ some "" ∧ tree.find name = .ok place := by
  unfold findOutput
  dsimp only
  split
  · next slash =>
    constructor
    · intro h
      obtain ⟨_, _, e⟩ := bind_eq_ok.1 h
      cases e
    · exact fun h => absurd slash h.1
  · next last => exact ⟨fun h => ⟨last, h⟩, And.right⟩

/-- A name with a null character is refused before all else. -/
lemma named_eq_ok {α : Type} {result : Except Problem α} {a : α} :
    named name result = .ok a ↔
      ¬name.toList.contains (Char.ofNat 0) = true ∧ result = .ok a := by
  unfold named
  split
  · next null => exact ⟨nofun, fun h => absurd null h.1⟩
  · next text =>
    cases result with
    | error problem => exact ⟨nofun, fun h => by cases h.2⟩
    | ok b => exact ⟨fun h => by cases h; exact ⟨text, rfl⟩, fun h => by cases h.2; rfl⟩

/-- A file is read if a walk leads to it. -/
lemma read_eq_ok {content : List UInt8} : tree.read name = .ok content ↔
    ¬name.toList.contains (Char.ofNat 0) = true ∧
      ∃ path, tree.find name = .ok (.occupied path (.file content)) := by
  rw [read, named_eq_ok]
  apply and_congr_right
  intro _
  rcases tree.find name with problem | ⟨path, _ | _⟩ | path <;> simp

/-- Tells whether a name can be opened for writing, and where its file stands then. -/
structure Opens (tree : Tree) (name : String) (path : Path) : Prop where
  text : ¬name.toList.contains (Char.ofNat 0) = true
  last : (components name).getLast? ≠ some ""
  found : ∃ place, tree.find name = .ok place ∧ place.Takes path

namespace Opens

/-- A name leads to the file that was put where it opens. -/
lemma find_put (opens : tree.Opens name path) (content : List UInt8) :
    (tree.put path (.file content)).find name = .ok (.occupied path (.file content)) := by
  obtain ⟨place, found, takes⟩ := opens.found
  obtain ⟨isName, leads⟩ := find_eq_ok.1 found
  exact find_eq_ok.2 ⟨isName, leads.put takes content⟩

/-- A file that can be opened can still be opened after it has been written. -/
lemma put (opens : tree.Opens name path) (content : List UInt8) :
    (tree.put path (.file content)).Opens name path where
  text := opens.text
  last := opens.last
  found := ⟨_, opens.find_put content, .inr ⟨content, rfl⟩⟩

end Opens

/-- A file is written if it can be opened. -/
lemma write_eq_ok {content : List UInt8} : tree.write name content = .ok after ↔
    ∃ path, tree.Opens name path ∧ after = tree.put path (.file content) := by
  rw [write, named_eq_ok]
  constructor
  · rintro ⟨text, written⟩
    split at written
    · next path old found =>
      cases written
      obtain ⟨last, found⟩ := findOutput_eq_ok.1 found
      exact ⟨path, ⟨text, last, _, found, .inr ⟨old, rfl⟩⟩, rfl⟩
    · next path found =>
      cases written
      obtain ⟨last, found⟩ := findOutput_eq_ok.1 found
      exact ⟨path, ⟨text, last, _, found, .inl rfl⟩, rfl⟩
    · cases written
    · cases written
  · rintro ⟨path, ⟨text, last, place, found, takes⟩, rfl⟩
    rw [findOutput_eq_ok.2 ⟨last, found⟩]
    rcases takes with rfl | ⟨old, rfl⟩ <;> exact ⟨text, rfl⟩

/-- A file that was created or emptied can be filled. -/
lemma write_write {first second : List UInt8} (written : tree.write name first = .ok after) :
    after.write name second = tree.write name second := by
  obtain ⟨path, opens, rfl⟩ := write_eq_ok.1 written
  rw [write_eq_ok.2 ⟨path, opens, rfl⟩, write_eq_ok]
  exact ⟨path, opens.put first, (put_put tree path _ _).symm⟩

/-- Whether a file can be written does not depend on the content. -/
lemma exists_write {first : List UInt8} (written : tree.write name first = .ok after)
    (second : List UInt8) : ∃ changed, tree.write name second = .ok changed := by
  obtain ⟨path, opens, _⟩ := write_eq_ok.1 written
  exact ⟨_, write_eq_ok.2 ⟨path, opens, rfl⟩⟩

end Tree

/-! ### Plain names -/

/-- No component of a name has a slash. -/
lemma slash_not_mem_of_mem_components {name component : String}
    (mem : component ∈ components name) : '/' ∉ component.toList := by
  obtain ⟨piece, cut, rfl⟩ := List.mem_map.1 mem
  rw [String.toList_ofList]
  exact Source.not_mem_of_mem_splitOn cut

/-- A slash in front cuts off an empty component. -/
lemma splitOn_slash (cs : List Char) : ('/' :: cs).splitOn '/' = [] :: cs.splitOn '/' :=
  List.splitOn_append_cons_self_of_not_mem List.not_mem_nil cs

/-- Slashes in front are empty components. -/
lemma components_slashes (n : Nat) (cs : List Char) :
    components (String.ofList (List.replicate n '/' ++ cs)) =
      List.replicate n "" ++ components (String.ofList cs) := by
  induction n with
  | zero => rfl
  | succ n ih =>
    simp only [components, String.toList_ofList] at ih ⊢
    rw [List.replicate_succ, List.cons_append, splitOn_slash, List.map_cons, ih]
    rfl

/-- Of the slashes in front of a name at least one is kept, and no more than there are. -/
lemma exists_leadingSlashes (name : String) : ∃ kept given rest,
    (leadingSlashes name).toList = List.replicate kept '/' ∧
      name.toList = List.replicate given '/' ++ rest ∧
      kept ≤ given ∧ (kept = 0 ↔ given = 0) ∧ rest.head? ≠ some '/' := by
  have slashes : name.toList.takeWhile (· == '/') =
      List.replicate (name.toList.takeWhile (· == '/')).length '/' := by
    apply List.eq_replicate_of_mem
    intro c mem
    simpa using List.mem_takeWhile_imp mem
  have whole := (List.takeWhile_append_dropWhile (p := (· == '/')) (l := name.toList)).symm
  have other : (name.toList.dropWhile (· == '/')).head? ≠ some '/' := by
    intro slash
    have := List.head?_dropWhile_not (· == '/') name.toList
    rw [slash] at this
    cases this
  rw [slashes] at whole
  unfold leadingSlashes
  generalize (name.toList.takeWhile (· == '/')).length = given at whole
  match given with
  | 0 => exact ⟨0, 0, _, rfl, whole, le_refl 0, Iff.rfl, other⟩
  | 1 => exact ⟨1, 1, _, rfl, whole, le_refl 1, Iff.rfl, other⟩
  | 2 => exact ⟨2, 2, _, rfl, whole, le_refl 2, Iff.rfl, other⟩
  | n + 3 => exact ⟨1, n + 3, _, by simp, whole, by omega, by omega, other⟩

/-- To join fewer pieces gives a part of the text. -/
lemma intercalate_sublist (between : List Char) {xs ys : List (List Char)} (sub : xs.Sublist ys) :
    (between.intercalate xs).Sublist (between.intercalate ys) := by
  induction sub with
  | slnil => exact List.Sublist.refl _
  | @cons xs ys y sub ih =>
    cases ys with
    | nil =>
      cases sub
      exact List.nil_sublist _
    | cons z ys =>
      rw [List.intercalate_cons_cons]
      exact ih.trans (List.sublist_append_right _ _)
  | @cons_cons xs ys y sub ih =>
    cases ys with
    | nil =>
      cases sub
      exact List.Sublist.refl _
    | cons z ys =>
      rw [List.intercalate_cons_cons]
      cases xs with
      | nil =>
        rw [List.intercalate_singleton, List.append_assoc]
        exact List.sublist_append_left _ _
      | cons x xs =>
        rw [List.intercalate_cons_cons]
        exact ih.append_left _

/-- A part of a text does not have more octets than the text. -/
lemma utf8ByteSize_le_of_sublist {cs ds : List Char} (sub : cs.Sublist ds) :
    (String.ofList cs).utf8ByteSize ≤ (String.ofList ds).utf8ByteSize := by
  induction sub with
  | slnil => exact le_refl _
  | @cons cs ds d _ ih =>
    rw [String.ofList_cons, String.utf8ByteSize_append]
    omega
  | @cons_cons cs ds d _ ih =>
    rw [String.ofList_cons, String.ofList_cons, String.utf8ByteSize_append,
      String.utf8ByteSize_append]
    omega

/-- Slashes at the start of a name are not spelled. -/
lemma spelledPath_slashes (n : Nat) (cs : List Char) :
    spelledPath (String.ofList (List.replicate n '/' ++ cs)) = spelledPath (String.ofList cs) := by
  rw [spelledPath, components_slashes, List.filter_append, List.filter_replicate]
  rfl

/-- The spelled path is a part of the name. -/
lemma intercalate_spelledPath_sublist (name : String) :
    (['/'].intercalate ((spelledPath name).map String.toList)).Sublist name.toList := by
  have pieces : (components name).map String.toList = name.toList.splitOn '/' := by
    rw [components, List.map_map]
    apply List.map_id''
    exact fun _ => String.toList_ofList
  have kept : (spelledPath name).Sublist (components name) := List.filter_sublist
  have joined := intercalate_sublist ['/'] (kept.map String.toList)
  rwa [pieces, List.intercalate_splitOn] at joined

/-- A path that is spelled does not start with a slash. -/
lemma exists_cons_of_spelledPath {name : String} (nonempty : spelledPath name ≠ []) :
    ∃ c cs, ['/'].intercalate ((spelledPath name).map String.toList) = c :: cs ∧ c ≠ '/' := by
  obtain ⟨first, rest, e⟩ := List.exists_cons_of_ne_nil nonempty
  have mem : first ∈ spelledPath name := e ▸ List.mem_cons_self
  obtain ⟨part, moves⟩ := List.mem_filter.1 mem
  have piece := slash_not_mem_of_mem_components part
  rw [e, List.map_cons]
  cases text : first.toList with
  | nil =>
    rw [String.toList_eq_nil_iff.1 text] at moves
    cases moves
  | cons c cs =>
    rw [text] at piece
    have other : c ≠ '/' := fun h => piece (h ▸ List.mem_cons_self)
    rw [List.intercalate_cons_cons_left]
    exact ⟨c, _, rfl, other⟩

/-- A name starts with a slash if there are slashes in front. -/
lemma head?_slashes {n : Nat} {rest : List Char} (other : rest.head? ≠ some '/') :
    (List.replicate n '/' ++ rest).head? = some '/' ↔ n ≠ 0 := by
  cases n with
  | zero => simpa using other
  | succ n => simp [List.replicate_succ]

section Plain

variable {name : String} (nonempty : spelledPath name ≠ [])
include nonempty

/-- The plain name is made of the slashes in front and the spelled path. -/
lemma toList_plainName : (plainName name).toList =
    (leadingSlashes name).toList ++
      ['/'].intercalate ((spelledPath name).map String.toList) := by
  obtain ⟨c, cs, e, _⟩ := exists_cons_of_spelledPath nonempty
  have plain : (leadingSlashes name ++ "/".intercalate (spelledPath name)).toList =
      (leadingSlashes name).toList ++
        ['/'].intercalate ((spelledPath name).map String.toList) := by
    rw [String.toList_append, String.toList_intercalate]
    rfl
  rw [plainName, if_neg, plain]
  intro empty
  rw [String.isEmpty_iff, ← String.toList_eq_nil_iff, plain, e] at empty
  exact absurd empty (by simp)

/-- The components of a plain name are those that are spelled, behind empty ones. -/
lemma components_plainName :
    ∃ n, components (plainName name) = List.replicate n "" ++ spelledPath name := by
  obtain ⟨kept, _, _, leading, _⟩ := exists_leadingSlashes name
  have joined : components (String.ofList
      (['/'].intercalate ((spelledPath name).map String.toList))) = spelledPath name := by
    rw [components, String.toList_ofList, List.splitOn_intercalate, List.map_map]
    · apply List.map_id''
      exact fun _ => String.ofList_toList
    · intro piece mem
      obtain ⟨component, spelled, rfl⟩ := List.mem_map.1 mem
      exact slash_not_mem_of_mem_components (List.mem_of_mem_filter spelled)
    · simpa using nonempty
  refine ⟨kept, ?_⟩
  rw [← String.ofList_toList (s := plainName name), toList_plainName nonempty, leading,
    components_slashes, joined]

/-- A walk along the plain name starts where a walk along the name does. -/
lemma start_plainName : start (plainName name) = start name := by
  obtain ⟨kept, given, rest, leading, whole, _, none, other⟩ := exists_leadingSlashes name
  obtain ⟨c, cs, e, ne⟩ := exists_cons_of_spelledPath nonempty
  have plain : (plainName name).toList.head? = some '/' ↔ kept ≠ 0 := by
    rw [toList_plainName nonempty, leading, e]
    apply head?_slashes
    simpa using ne
  have same : (plainName name).toList.head? = some '/' ↔ name.toList.head? = some '/' := by
    rw [plain, whole, head?_slashes other]
    exact not_congr none
  rw [start, start]
  exact if_congr same rfl rfl

/-- A plain name is found in the name, character by character. -/
lemma plainName_sublist : (plainName name).toList.Sublist name.toList := by
  obtain ⟨kept, given, rest, leading, whole, le, _⟩ := exists_leadingSlashes name
  have spelled : spelledPath name = spelledPath (String.ofList rest) := by
    rw [← spelledPath_slashes given rest, ← whole, String.ofList_toList]
  rw [toList_plainName nonempty, whole, leading, spelled]
  apply List.Sublist.append
  · exact (List.replicate_sublist_replicate '/').2 le
  · have sub := intercalate_spelledPath_sublist (String.ofList rest)
    rwa [String.toList_ofList] at sub

/-- The plain name is a name too. -/
lemma IsName.plainName (isName : IsName name) : IsName (plainName name) where
  nonempty := by
    obtain ⟨c, cs, e, _⟩ := exists_cons_of_spelledPath nonempty
    rw [String.isEmpty_iff, ← String.toList_eq_nil_iff, toList_plainName nonempty, e]
    simp
  short := by
    have le := utf8ByteSize_le_of_sublist (plainName_sublist nonempty)
    rw [String.ofList_toList, String.ofList_toList] at le
    have := isName.short
    omega

end Plain

namespace Tree

/-- Empty components in front do not change where a walk leads. -/
lemma Leads.slashes {tree : Tree} {directory : Path} {parts : List String} {place : Place}
    (leads : tree.Leads directory parts place) (n : Nat) :
    tree.Leads directory (List.replicate n "" ++ parts) place := by
  induction n with
  | zero => exact leads
  | succ n ih => exact .stay (.inl rfl) ih

/-- A file that can be read is found when it is looked for. -/
lemma contains_of_read {tree : Tree} {name : String} {content : List UInt8}
    (held : tree.read name = .ok content) : tree.contains name = .ok true := by
  obtain ⟨text, path, found⟩ := read_eq_ok.1 held
  obtain ⟨isName, leads⟩ := find_eq_ok.1 found
  have spelled : tree.Leads (start name) (spelledPath name) _ := leads.filter
  have nonempty : spelledPath name ≠ [] := by
    intro none
    rw [none] at spelled
    cases spelled
  -- The plain form walks the same components, behind slashes that do not move it.
  obtain ⟨n, parts⟩ := components_plainName nonempty
  have plain : tree.find (plainName name) = .ok (.occupied path (.file content)) := by
    apply find_eq_ok.2
    refine ⟨isName.plainName nonempty, ?_⟩
    rw [parts, start_plainName nonempty]
    exact spelled.slashes n
  rw [contains, if_neg text, plain]

end Tree

end Dcpu.Files
