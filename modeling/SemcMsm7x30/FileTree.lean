import Mathlib.Data.List.Dedup
import Mathlib.Data.List.DropRight
import Mathlib.Data.List.Infix

namespace FileTree

-- Names and the texts of paths are characters; a position in the tree is the
-- list of the names that lead to it from the root.
abbrev Name := List Char
abbrev Text := List Char
abbrev Position := List Name

inductive Kind where
  | dir
  | file
  | link (target : Text)
  deriving DecidableEq, Repr

structure Proper (name : Name) : Prop where
  nonempty : name ≠ []
  dot : name ≠ ['.']
  dots : name ≠ ['.','.']
  slash : '/' ∉ name

def kindIn (entries : List (Position × Kind)) (p : Position) : Option Kind :=
  if p = [] then some .dir else (entries.find? (fun entry => entry.1 == p)).map (·.2)

structure FileSystem where
  entries : List (Position × Kind)
  parents : ∀ p name,kindIn entries (p ++ [name]) ≠ none → kindIn entries p = some .dir ∧ Proper name

instance (name : Name) : Decidable (Proper name) :=
  decidable_of_iff (name ≠ [] ∧ name ≠ ['.'] ∧ name ≠ ['.','.'] ∧ '/' ∉ name)
    ⟨fun proper => ⟨proper.1,proper.2.1,proper.2.2.1,proper.2.2.2⟩,
      fun proper => ⟨proper.nonempty,proper.dot,proper.dots,proper.slash⟩⟩

theorem kindIn_listed {entries : List (Position × Kind)} {p : Position} (below : p ≠ [])
    (there : kindIn entries p ≠ none) : ∃ entry ∈ entries,entry.1 = p := by
  rw [kindIn,if_neg below] at there
  cases found : entries.find? (fun entry => entry.1 == p) with
  | none =>
    rw [found] at there
    exact absurd rfl there
  | some entry =>
    exact ⟨entry,List.mem_of_find?_eq_some found,by simpa using List.find?_some found⟩

def FileSystem.ofEntries (entries : List (Position × Kind))
    (closed : ∀ entry ∈ entries,kindIn entries entry.1.dropLast = some .dir ∧
      ∀ name ∈ entry.1.getLast?,Proper name) : FileSystem where
  entries := entries
  parents := by
    intro p name there
    obtain ⟨entry,member,at_child⟩ := kindIn_listed (by simp) there
    obtain ⟨parent,proper⟩ := closed entry member
    rw [at_child,List.dropLast_concat] at parent
    rw [at_child,List.getLast?_concat] at proper
    exact ⟨parent,proper name rfl⟩

def kind (fs : FileSystem) (p : Position) : Option Kind := kindIn fs.entries p

@[simp] theorem kind_root (fs : FileSystem) : kind fs [] = some .dir := rfl

theorem parent_dir {fs : FileSystem} {p : Position} {name : Name}
    (there : kind fs (p ++ [name]) ≠ none) : kind fs p = some .dir :=
  (fs.parents p name there).1

theorem name_proper {fs : FileSystem} {p : Position} {name : Name}
    (there : kind fs (p ++ [name]) ≠ none) : Proper name :=
  (fs.parents p name there).2

theorem above_dir {fs : FileSystem} {p r : Position} (below : r ≠ [])
    (there : kind fs (p ++ r) ≠ none) : kind fs p = some .dir := by
  induction r using List.reverseRecOn with
  | nil => exact absurd rfl below
  | append_singleton r name ih =>
    rw [←List.append_assoc] at there
    have parent := parent_dir there
    by_cases more : r = []
    · rw [more,List.append_nil] at parent
      exact parent
    · exact ih more (by rw [parent]; exact Option.some_ne_none _)

theorem names_proper {fs : FileSystem} {p r : Position} (there : kind fs (p ++ r) ≠ none) :
    ∀ name ∈ r,Proper name := by
  intro name member
  obtain ⟨front,back,rfl⟩ := List.append_of_mem member
  have up_to : kind fs (p ++ front ++ [name]) ≠ none := by
    by_cases last : back = []
    · rw [last,←List.append_assoc] at there
      exact there
    · rw [List.append_cons front,←List.append_assoc,←List.append_assoc] at there
      rw [above_dir last there]
      exact Option.some_ne_none _
  exact name_proper up_to

theorem no_entry {fs : FileSystem} {p : Position} (not_dir : kind fs p ≠ some .dir)
    (name : Name) : kind fs (p ++ [name]) = none := by
  by_contra there
  exact not_dir (parent_dir there)

def nameIn (p : Position) (entry : Position × Kind) : Option Name :=
  if entry.1.dropLast = p then entry.1.getLast? else none

def names (fs : FileSystem) (p : Position) : List Name :=
  (fs.entries.filterMap (nameIn p)).dedup

theorem mem_names {fs : FileSystem} {p : Position} {name : Name} :
    name ∈ names fs p ↔ kind fs (p ++ [name]) ≠ none := by
  have listed : ∀ entry : Position × Kind,nameIn p entry = some name ↔ entry.1 = p ++ [name] := by
    intro entry
    unfold nameIn
    constructor
    · intro found
      split at found
      · rename_i parent
        have nonempty : entry.1 ≠ [] := by
          intro empty
          rw [empty] at found
          cases found
        rw [List.getLast?_eq_some_getLast nonempty] at found
        rw [←List.dropLast_append_getLast nonempty,parent,Option.some.inj found]
      · cases found
    · intro at_child
      rw [at_child]
      simp
  rw [names,List.mem_dedup,List.mem_filterMap,kind,kindIn,if_neg (by simp)]
  simp only [listed,ne_eq,Option.map_eq_none_iff,List.find?_eq_none,beq_iff_eq]
  push Not
  exact ⟨fun found => found,fun found => found⟩

theorem names_nodup (fs : FileSystem) (p : Position) : (names fs p).Nodup := List.nodup_dedup _

theorem kindIn_filter (entries : List (Position × Kind)) (p q : Position) (below : p ≠ []) :
    kindIn (entries.filter fun entry => entry.1 != p) q = if q = p then none else kindIn entries q := by
  unfold kindIn
  by_cases root : q = []
  · rw [if_pos root,if_pos root,if_neg (by rw [root]; exact below.symm)]
  · rw [if_neg root,if_neg root,List.find?_filter]
    split
    · rename_i same
      subst same
      rw [Option.map_eq_none_iff,List.find?_eq_none]
      simp
    · rename_i other
      congr 2
      funext entry
      by_cases at_q : entry.1 = q
      · simp [at_q,other]
      · simp [at_q]

def remove (fs : FileSystem) (p : Position) (below : p ≠ []) (leaf : names fs p = []) : FileSystem where
  entries := fs.entries.filter fun entry => entry.1 != p
  parents := by
    intro q name there
    rw [kindIn_filter _ _ _ below] at there ⊢
    split at there
    · exact absurd rfl there
    · obtain ⟨parent,proper⟩ := fs.parents q name there
      refine ⟨?_,proper⟩
      rw [if_neg,parent]
      intro removed
      rw [removed] at there
      have listed := mem_names.mpr there
      rw [leaf] at listed
      cases listed

theorem kind_remove (fs : FileSystem) (p : Position) (below : p ≠ []) (leaf : names fs p = [])
    (q : Position) : kind (remove fs p below leaf) q = if q = p then none else kind fs q :=
  kindIn_filter fs.entries p q below

theorem below_listed {fs : FileSystem} {p r : Position} (below : p ≠ [])
    (there : kind fs (p ++ r) ≠ none) : r ∈ fs.entries.map fun entry => entry.1.drop p.length := by
  obtain ⟨entry,member,here⟩ := kindIn_listed (by simp [below]) there
  exact List.mem_map.mpr ⟨entry,member,by rw [here,List.drop_left]⟩

-- What is left of a tree after removals.
def Within (after before : FileSystem) : Prop :=
  ∀ p,kind after p = kind before p ∨ kind after p = none

theorem Within.refl (fs : FileSystem) : Within fs fs := fun _ => .inl rfl

theorem Within.trans {after middle before : FileSystem} (later : Within after middle)
    (earlier : Within middle before) : Within after before := by
  intro p
  rcases later p with same | gone
  · rw [same]
    exact earlier p
  · exact .inr gone

theorem Within.there {after before : FileSystem} (within : Within after before) {p : Position}
    {k : Kind} (found : kind after p = some k) : kind before p = some k := by
  rcases within p with same | gone
  · rw [←same]
    exact found
  · rw [gone] at found
    cases found

theorem Within.gone {after before : FileSystem} (within : Within after before) {p : Position}
    (gone : kind before p = none) : kind after p = none := by
  rcases within p with same | missing
  · rw [same,gone]
  · exact missing

-- The pieces between the slashes; an empty piece stands for what is before it,
-- which has to be a directory, as a dot does.
def pieces : Text → List Name
  | [] => [[]]
  | c::rest =>
    if c = '/' then []::pieces rest
    else
      match pieces rest with
      | [] => [[c]]
      | piece::more => (c::piece)::more

theorem pieces_nonempty (text : Text) : pieces text ≠ [] := by
  cases text with
  | nil => exact List.cons_ne_nil _ _
  | cons c rest =>
    rw [pieces]
    split
    · exact List.cons_ne_nil _ _
    · split <;> exact List.cons_ne_nil _ _

theorem pieces_slash (front back : Text) :
    pieces (front ++ '/'::back) = pieces front ++ pieces back := by
  induction front with
  | nil => exact if_pos rfl
  | cons c front ih =>
    rw [List.cons_append,pieces,pieces,ih]
    split
    · rfl
    · obtain ⟨piece,more,split⟩ := List.exists_cons_of_ne_nil (pieces_nonempty front)
      rw [split]
      rfl

theorem pieces_name {name : Name} (slash : '/' ∉ name) : pieces name = [name] := by
  induction name with
  | nil => rfl
  | cons c name ih =>
    obtain ⟨other,rest⟩ := not_or.mp (List.mem_cons.not.mp slash)
    rw [pieces,if_neg (Ne.symm other),ih rest]

def isDot (piece : Name) : Bool := piece = [] || piece = ['.']

def walk (fs : FileSystem) (follow : Position → List Name → Option Position) :
    Position → List Name → Option Position
  | cur,[] => some cur
  | cur,piece::rest =>
    if kind fs cur ≠ some .dir then none
    else if isDot piece then walk fs follow cur rest
    else if piece = ['.','.'] then walk fs follow cur.dropLast rest
    else
      match kind fs (cur ++ [piece]) with
      | none => none
      | some (.link target) =>
        follow (if target.head? = some '/' then [] else cur) (pieces target ++ rest)
      | some _ => walk fs follow (cur ++ [piece]) rest

def resolveFrom (fs : FileSystem) : Nat → Position → List Name → Option Position
  | 0 => walk fs fun _ _ => none
  | links+1 => walk fs (resolveFrom fs links)

def maxLinks : Nat := 40

def resolvePieces (fs : FileSystem) (ps : List Name) : Option Position :=
  resolveFrom fs maxLinks [] ps

def resolve (fs : FileSystem) (path : Text) : Option Position :=
  if path = [] then none else resolvePieces fs (pieces path)

def stat (fs : FileSystem) (path : Text) : Option Kind := (resolve fs path).bind (kind fs)

def opendir (fs : FileSystem) (path : Text) : Option (List Name) :=
  match resolve fs path with
  | none => none
  | some p => if kind fs p = some .dir then some (['.']::['.','.']::names fs p) else none

def entryAt (fs : FileSystem) (ps : List Name) : Option Position :=
  match ps.getLast? with
  | none => none
  | some name =>
    if isDot name ∨ name = ['.','.'] then none
    else
      match resolvePieces fs ps.dropLast with
      | none => none
      | some p => if kind fs p = some .dir then some (p ++ [name]) else none

def unlinkAt (fs : FileSystem) (p : Position) : FileSystem :=
  if removable : p ≠ [] ∧ kind fs p ≠ some .dir ∧ names fs p = [] then
    remove fs p removable.1 removable.2.2
  else fs

def rmdirAt (fs : FileSystem) (p : Position) : FileSystem :=
  if removable : p ≠ [] ∧ kind fs p = some .dir ∧ names fs p = [] then
    remove fs p removable.1 removable.2.2
  else fs

def unlink (fs : FileSystem) (path : Text) : FileSystem :=
  match entryAt fs (pieces path) with
  | none => fs
  | some p => unlinkAt fs p

def rmdir (fs : FileSystem) (path : Text) : FileSystem :=
  match entryAt fs ((pieces path).rdropWhile (· = [])) with
  | none => fs
  | some p => rmdirAt fs p

theorem unlinkAt_kind (fs : FileSystem) (p q : Position) :
    kind (unlinkAt fs p) q =
      if q = p ∧ p ≠ [] ∧ kind fs p ≠ some .dir ∧ names fs p = [] then none else kind fs q := by
  unfold unlinkAt
  split
  · rename_i removable
    rw [kind_remove]
    simp [removable]
  · rename_i kept
    rw [if_neg fun both => kept both.2]

theorem rmdirAt_kind (fs : FileSystem) (p q : Position) :
    kind (rmdirAt fs p) q =
      if q = p ∧ p ≠ [] ∧ kind fs p = some .dir ∧ names fs p = [] then none else kind fs q := by
  unfold rmdirAt
  split
  · rename_i removable
    rw [kind_remove]
    simp [removable]
  · rename_i kept
    rw [if_neg fun both => kept both.2]

theorem file_leaf {fs : FileSystem} {p : Position} (not_dir : kind fs p ≠ some .dir) :
    names fs p = [] := by
  rw [List.eq_nil_iff_forall_not_mem]
  intro name member
  exact mem_names.mp member (no_entry not_dir name)

theorem walk_within {after before : FileSystem} (within : Within after before)
    {follow follow' : Position → List Name → Option Position}
    (same : ∀ cur ps p,follow cur ps = some p → follow' cur ps = some p)
    (ps : List Name) {cur p : Position} (found : walk after follow cur ps = some p) :
    walk before follow' cur ps = some p := by
  induction ps generalizing cur with
  | nil => exact found
  | cons piece rest ih =>
    rw [walk] at found ⊢
    split at found
    · cases found
    · rename_i directory
      rw [if_neg (not_not.mpr (within.there (not_not.mp directory)))]
      split at found
      · rename_i dot
        rw [if_pos dot]
        exact ih found
      · rename_i not_dot
        rw [if_neg not_dot]
        split at found
        · rename_i dots
          rw [if_pos dots]
          exact ih found
        · rename_i not_dots
          rw [if_neg not_dots]
          split at found
          · cases found
          · rename_i target there
            rw [within.there there]
            exact same _ _ _ found
          · rename_i k not_link there
            rw [within.there there]
            cases k with
            | dir => exact ih found
            | file => exact ih found
            | link target => exact absurd rfl (not_link target)

theorem resolve_within {after before : FileSystem} (within : Within after before) (links : Nat)
    (cur : Position) (ps : List Name) {p : Position}
    (found : resolveFrom after links cur ps = some p) : resolveFrom before links cur ps = some p := by
  induction links generalizing cur ps p with
  | zero => exact walk_within within (fun _ _ _ none_there => none_there) ps found
  | succ links ih => exact walk_within within (fun cur ps p => ih cur ps) ps found

theorem walk_there {fs : FileSystem} {follow : Position → List Name → Option Position}
    (leads : ∀ cur ps p,kind fs cur ≠ none → follow cur ps = some p → kind fs p ≠ none)
    (ps : List Name) {cur p : Position} (there : kind fs cur ≠ none)
    (found : walk fs follow cur ps = some p) : kind fs p ≠ none := by
  induction ps generalizing cur with
  | nil =>
    cases Option.some.inj found
    exact there
  | cons piece rest ih =>
    rw [walk] at found
    split at found
    · cases found
    split at found
    · exact ih there found
    split at found
    · refine ih ?_ found
      by_cases root : cur = []
      · rw [root]
        exact Option.some_ne_none _
      · rw [←List.dropLast_append_getLast root] at there
        rw [parent_dir there]
        exact Option.some_ne_none _
    split at found
    · cases found
    · refine leads _ _ _ ?_ found
      split
      · exact Option.some_ne_none _
      · exact there
    · rename_i k _ child
      exact ih (by rw [child]; exact Option.some_ne_none k) found

theorem resolve_there {fs : FileSystem} (links : Nat) {cur : Position} (ps : List Name)
    {p : Position} (there : kind fs cur ≠ none) (found : resolveFrom fs links cur ps = some p) :
    kind fs p ≠ none := by
  induction links generalizing cur ps p with
  | zero =>
    refine walk_there ?_ ps there found
    intro _ _ _ _ nowhere
    cases nowhere
  | succ links ih => exact walk_there (fun cur ps p there found => ih ps there found) ps there found

def followed (fs : FileSystem) : Nat → Position → List Name → Option Position
  | 0 => fun _ _ => none
  | links+1 => resolveFrom fs links

theorem resolveFrom_walk (fs : FileSystem) (links : Nat) :
    resolveFrom fs links = walk fs (followed fs links) := by
  cases links <;> rfl

def Splits (fs : FileSystem) (links : Nat) (cur : Position) (front back : List Name) : Prop :=
  (∃ p left, resolveFrom fs links cur front = some p ∧
    resolveFrom fs links cur (front ++ back) = resolveFrom fs left p back) ∨
  (resolveFrom fs links cur front = none ∧ resolveFrom fs links cur (front ++ back) = none)

theorem walk_splits (fs : FileSystem) (links : Nat) (back : List Name)
    (follows : ∀ cur front, (∃ p left, followed fs links cur front = some p ∧
        followed fs links cur (front ++ back) = resolveFrom fs left p back) ∨
      (followed fs links cur front = none ∧ followed fs links cur (front ++ back) = none))
    (front : List Name) (cur : Position) : Splits fs links cur front back := by
  unfold Splits
  induction front generalizing cur with
  | nil =>
    refine .inl ⟨cur,links,?_,rfl⟩
    rw [resolveFrom_walk]
    rfl
  | cons piece rest ih =>
    have both : ∀ ps,resolveFrom fs links cur (piece::ps) =
        walk fs (followed fs links) cur (piece::ps) := fun ps => by rw [resolveFrom_walk]
    rw [List.cons_append,both,both,walk,walk]
    split
    · exact .inr ⟨rfl,rfl⟩
    split
    · rw [←resolveFrom_walk]
      exact ih cur
    split
    · rw [←resolveFrom_walk]
      exact ih cur.dropLast
    split
    · exact .inr ⟨rfl,rfl⟩
    · rw [←List.append_assoc]
      exact follows _ _
    · rw [←resolveFrom_walk]
      exact ih (cur ++ [piece])

theorem resolve_splits (fs : FileSystem) (links : Nat) (cur : Position) (front back : List Name) :
    Splits fs links cur front back := by
  induction links generalizing cur front with
  | zero => exact walk_splits fs 0 back (fun _ _ => .inr ⟨rfl,rfl⟩) front cur
  | succ links ih => exact walk_splits fs (links+1) back (fun cur front => ih cur front) front cur

theorem Proper.not_dot {name : Name} (proper : Proper name) : isDot name = false := by
  simp [isDot,proper.nonempty,proper.dot]

theorem resolve_name {fs : FileSystem} {p : Position} {name : Name} {k : Kind}
    (there : kind fs (p ++ [name]) = some k) (not_link : ∀ target,k ≠ .link target) (links : Nat)
    (rest : List Name) :
    resolveFrom fs links p (name::rest) = resolveFrom fs links (p ++ [name]) rest := by
  have found : kind fs (p ++ [name]) ≠ none := by rw [there]; exact Option.some_ne_none k
  have proper := name_proper found
  rw [resolveFrom_walk,walk,if_neg (not_not.mpr (parent_dir found)),if_neg (by
    rw [proper.not_dot]
    decide),if_neg proper.dots,there]
  cases k with
  | dir => rfl
  | file => rfl
  | link target => exact absurd rfl (not_link target)

theorem pieces_below {fs : FileSystem} {ps : List Name} {name : Name} {p : Position}
    (found : resolvePieces fs ps = some p) {k : Kind} (there : kind fs (p ++ [name]) = some k)
    (not_link : ∀ target,k ≠ .link target) : resolvePieces fs (ps ++ [name]) = some (p ++ [name]) := by
  rcases resolve_splits fs maxLinks [] ps [name] with first | nowhere
  · obtain ⟨q,left,leads,goes⟩ := first
    rw [resolvePieces,leads] at found
    cases Option.some.inj found
    rw [resolvePieces,goes,resolve_name there not_link,resolveFrom_walk]
    rfl
  · rw [resolvePieces,nowhere.1] at found
    cases found

theorem resolve_below {fs : FileSystem} {path : Text} (given : path ≠ []) {name : Name}
    (proper : Proper name) {p : Position} (found : resolve fs path = some p) {k : Kind}
    (there : kind fs (p ++ [name]) = some k) (not_link : ∀ target,k ≠ .link target) :
    resolve fs (path ++ '/'::name) = some (p ++ [name]) := by
  rw [resolve,if_neg given] at found
  rw [resolve,if_neg (by simp),pieces_slash,pieces_name proper.slash]
  exact pieces_below found there not_link

theorem resolve_front {fs : FileSystem} {path : Text} (given : path ≠ []) {name : Name}
    (proper : Proper name) {p : Position} (found : resolve fs (path ++ '/'::name) = some p) :
    ∃ q, resolve fs path = some q := by
  rw [resolve,if_neg (by simp),pieces_slash,pieces_name proper.slash] at found
  rw [resolve,if_neg given]
  rcases resolve_splits fs maxLinks [] (pieces path) [name] with first | nowhere
  · obtain ⟨q,left,leads,-⟩ := first
    exact ⟨q,leads⟩
  · rw [resolvePieces,nowhere.2] at found
    cases found

theorem resolve_text_within {after before : FileSystem} (within : Within after before) {path : Text}
    {p : Position} (found : resolve after path = some p) : resolve before path = some p := by
  unfold resolve at found ⊢
  split at found
  · cases found
  · rename_i given
    rw [if_neg given]
    exact resolve_within within _ _ _ found

theorem resolve_pieces {fs : FileSystem} {path : Text} (given : path ≠ []) :
    resolvePieces fs (pieces path) = resolve fs path := by
  rw [resolve,if_neg given]

def childAt (fs : FileSystem) (path : Text) (name : Name) : Option Position :=
  match resolvePieces fs (pieces path) with
  | none => none
  | some p => if kind fs p = some .dir then some (p ++ [name]) else none

theorem entry_below (fs : FileSystem) (path : Text) {name : Name}
    (proper : Proper name) : entryAt fs (pieces path ++ [name]) = childAt fs path name := by
  have not_dot : ¬(isDot name = true ∨ name = ['.','.']) := by
    rw [proper.not_dot]
    simp [proper.dots]
  rw [entryAt,List.getLast?_append_of_ne_nil _ (List.cons_ne_nil _ _)]
  simp only [List.getLast?_singleton,if_neg not_dot,List.dropLast_concat]
  rw [childAt]

theorem unlink_below (fs : FileSystem) (path : Text) {name : Name}
    (proper : Proper name) :
    unlink fs (path ++ '/'::name) =
      match childAt fs path name with
      | none => fs
      | some p => unlinkAt fs p := by
  rw [unlink,pieces_slash,pieces_name proper.slash,entry_below fs path proper]

theorem rmdir_below (fs : FileSystem) (path : Text) {name : Name}
    (proper : Proper name) :
    rmdir fs (path ++ '/'::name) =
      match childAt fs path name with
      | none => fs
      | some p => rmdirAt fs p := by
  rw [rmdir,pieces_slash,pieces_name proper.slash,
    List.rdropWhile_concat_neg _ _ _ (by simp [proper.nonempty]),entry_below fs path proper]

theorem child_position {fs : FileSystem} {path : Text} (given : path ≠ []) {name : Name}
    {p : Position} (child : childAt fs path name = some p) :
    ∃ q, resolve fs path = some q ∧ kind fs q = some .dir ∧ p = q ++ [name] := by
  rw [childAt,resolve_pieces given] at child
  cases found : resolve fs path with
  | none =>
    rw [found] at child
    cases child
  | some q =>
    simp only [found] at child
    split at child
    · rename_i directory
      exact ⟨q,rfl,directory,(Option.some.inj child).symm⟩
    · cases child

theorem resolve_empties {fs : FileSystem} {p : Position} (directory : kind fs p = some .dir)
    (links : Nat) (ps : List Name) (empties : ∀ piece ∈ ps,piece = []) :
    resolveFrom fs links p ps = some p := by
  induction ps with
  | nil =>
    rw [resolveFrom_walk]
    rfl
  | cons piece rest ih =>
    rw [empties piece List.mem_cons_self,resolveFrom_walk,walk,if_neg (not_not.mpr directory),
      if_pos (show isDot [] = true from rfl),←resolveFrom_walk]
    exact ih fun piece member => empties piece (List.mem_cons_of_mem _ member)

theorem rmdir_position (fs : FileSystem) (path : Text) :
    rmdir fs path = fs ∨
      ∃ p, rmdir fs path = rmdirAt fs p ∧ (kind fs p = some .dir → resolve fs path = some p) := by
  rw [rmdir]
  generalize trimmed : (pieces path).rdropWhile (· = []) = ps
  cases entry : entryAt fs ps with
  | none => exact .inl rfl
  | some p =>
    refine .inr ⟨p,rfl,?_⟩
    intro directory
    rw [entryAt] at entry
    split at entry
    · cases entry
    · rename_i name last
      split at entry
      · cases entry
      split at entry
      · cases entry
      rename_i q found
      split at entry
      · cases Option.some.inj entry
        have given : path ≠ [] := by
          intro empty
          rw [empty] at trimmed
          rw [←trimmed] at last
          cases last
        have whole : pieces path =
            ps.dropLast ++ (name::(pieces path).rtakeWhile (· = [])) := by
          have joined := @List.rdropWhile_append_rtakeWhile _ (fun piece : Name => decide (piece = []))
            (pieces path)
          rw [trimmed,←List.dropLast_append_getLast? name last,List.append_assoc] at joined
          exact joined.symm
        have empties : ∀ piece ∈ (pieces path).rtakeWhile (· = []),piece = [] := by
          intro piece member
          simpa using List.mem_rtakeWhile_imp member
        rw [resolve,if_neg given,whole]
        rcases resolve_splits fs maxLinks [] ps.dropLast
          (name::(pieces path).rtakeWhile (· = [])) with first | nowhere
        · obtain ⟨q',left,leads,goes⟩ := first
          rw [resolvePieces,leads] at found
          cases Option.some.inj found
          rw [resolvePieces,goes,resolve_name directory (fun _ => Kind.noConfusion),
            resolve_empties directory left _ empties]
        · rw [resolvePieces,nowhere.1] at found
          cases found
      · cases entry

def textOf (p : Position) : Text := p.flatMap fun name => '/'::name

theorem textOf_append (p r : Position) : textOf (p ++ r) = textOf p ++ textOf r := by
  rw [textOf,List.flatMap_append]
  rfl

theorem textOf_name (name : Name) : textOf [name] = '/'::name := by simp [textOf]

theorem textOf_child (p : Position) (name : Name) :
    textOf (p ++ [name]) = textOf p ++ '/'::name := by
  rw [textOf_append,textOf_name]

theorem textOf_given {p : Position} (below : p ≠ []) : textOf p ≠ [] := by
  obtain ⟨name,rest,rfl⟩ := List.exists_cons_of_ne_nil below
  simp [textOf]

theorem pieces_textOf {fs : FileSystem} {p : Position} {k : Kind} (there : kind fs p = some k)
    (not_link : ∀ target,k ≠ .link target) : resolvePieces fs (pieces (textOf p)) = some p := by
  induction p using List.reverseRecOn generalizing k with
  | nil => exact resolve_empties (kind_root fs) maxLinks [[]] (by simp)
  | append_singleton p name ih =>
    have found : kind fs (p ++ [name]) ≠ none := by rw [there]; exact Option.some_ne_none k
    have parent := ih (parent_dir found) fun _ => Kind.noConfusion
    rw [textOf_child,pieces_slash,pieces_name (name_proper found).slash]
    exact pieces_below parent there not_link

theorem resolve_textOf {fs : FileSystem} {p : Position} (below : p ≠ []) {k : Kind}
    (there : kind fs p = some k) (not_link : ∀ target,k ≠ .link target) :
    resolve fs (textOf p) = some p := by
  rw [←resolve_pieces (textOf_given below)]
  exact pieces_textOf there not_link

theorem resolve_text_there {fs : FileSystem} {path : Text} {p : Position}
    (found : resolve fs path = some p) : kind fs p ≠ none := by
  unfold resolve at found
  split at found
  · cases found
  · refine resolve_there maxLinks _ ?_ found
    rw [kind_root]
    exact Option.some_ne_none _

theorem stat_within {after before : FileSystem} (within : Within after before) {path : Text}
    {k : Kind} (found : stat after path = some k) : stat before path = some k := by
  obtain ⟨p,leads,there⟩ := Option.bind_eq_some_iff.mp found
  rw [stat,resolve_text_within within leads]
  exact within.there there

theorem opendir_position {fs : FileSystem} {path : Text} {listed : List Name}
    (opened : opendir fs path = some listed) :
    ∃ p, resolve fs path = some p ∧ kind fs p = some .dir ∧
      listed = ['.']::['.','.']::names fs p := by
  unfold opendir at opened
  split at opened
  · cases opened
  · rename_i p leads
    split at opened
    · rename_i directory
      exact ⟨p,leads,directory,(Option.some.inj opened).symm⟩
    · cases opened

theorem names_within {after before : FileSystem} (within : Within after before) {p : Position}
    {name : Name} (member : name ∈ names after p) : name ∈ names before p := by
  obtain ⟨k,there⟩ := Option.ne_none_iff_exists'.mp (mem_names.mp member)
  exact mem_names.mpr (by rw [within.there there]; exact Option.some_ne_none k)

theorem opendir_within {after before : FileSystem} (within : Within after before) {path : Text}
    {listed : List Name} (opened : opendir after path = some listed) :
    ∃ more, opendir before path = some more ∧ ∀ name ∈ listed,name ∈ more := by
  obtain ⟨p,leads,directory,rfl⟩ := opendir_position opened
  refine ⟨['.']::['.','.']::names before p,?_,?_⟩
  · rw [opendir,resolve_text_within within leads]
    exact if_pos (within.there directory)
  · intro name member
    simp only [List.mem_cons] at member ⊢
    rcases member with dot | dots | entry
    · exact .inl dot
    · exact .inr (.inl dots)
    · exact .inr (.inr (names_within within entry))

theorem unlink_within (fs : FileSystem) (path : Text) : Within (unlink fs path) fs := by
  unfold unlink
  split
  · exact .refl fs
  · intro q
    rw [unlinkAt_kind]
    split
    · exact .inr rfl
    · exact .inl rfl

theorem rmdir_within (fs : FileSystem) (path : Text) : Within (rmdir fs path) fs := by
  unfold rmdir
  split
  · exact .refl fs
  · intro q
    rw [rmdirAt_kind]
    split
    · exact .inr rfl
    · exact .inl rfl

end FileTree
