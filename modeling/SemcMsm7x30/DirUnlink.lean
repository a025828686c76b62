import SemcMsm7x30.FileTree

namespace SemcMsm7x30.DirUnlink
open FileTree

-- readdir gives the entries of a directory in some order, that may be another
-- one for every call.
structure Readdir where
  order : Text → List Name → List Name
  each : ∀ path listed,(order path listed).Perm listed

def bufferSize : Nat := 512

-- snprintf(cur_file, sizeof(cur_file), "%s/%s", path_dir, d_name)
def joined (path_dir : Text) (d_name : Name) : Text :=
  (path_dir ++ '/'::d_name).take (bufferSize-1)

-- One entry in the loop over the directory; stat follows links.
def visit (recurse : FileSystem → Text → Option FileSystem) (path_dir : Text) (fs : FileSystem)
    (d_name : Name) : Option FileSystem :=
  if d_name.head? = some '.' then some fs
  else
    let cur_file := joined path_dir d_name
    match stat fs cur_file with
    | none | some .dir => recurse fs cur_file
    | some _ => some (unlink fs cur_file)

-- The loop. The directory is read as it is when it is opened.
def visitAll (readdir : Readdir) (recurse : FileSystem → Text → Option FileSystem)
    (path_dir : Text) (fs : FileSystem) : Option FileSystem :=
  match opendir fs path_dir with
  | none => some fs
  | some listed => (readdir.order path_dir listed).foldlM (visit recurse path_dir) fs

def dir_unlink_r (readdir : Readdir) (rm_top : Bool) :
    Nat → FileSystem → Text → Bool → Option FileSystem
  | 0,_,_,_ => none
  | fuel+1,fs,path_dir,child => do
    let recurse := fun fs cur_file => dir_unlink_r readdir rm_top fuel fs cur_file true
    let fs ← visitAll readdir recurse path_dir fs
    some (if child || rm_top then rmdir fs path_dir else fs)

theorem joined_short {path_dir : Text} {d_name : Name}
    (short : (path_dir ++ '/'::d_name).length < bufferSize) :
    joined path_dir d_name = path_dir ++ '/'::d_name :=
  List.take_of_length_le (by simp only [bufferSize] at *; omega)

theorem visit_unlinks (recurse : FileSystem → Text → Option FileSystem) {path_dir : Text}
    {fs : FileSystem} {d_name : Name} {k : Kind} (visible : d_name.head? ≠ some '.')
    (short : (path_dir ++ '/'::d_name).length < bufferSize)
    (status : stat fs (path_dir ++ '/'::d_name) = some k) (other : k ≠ .dir) :
    visit recurse path_dir fs d_name = some (unlink fs (path_dir ++ '/'::d_name)) := by
  rw [visit,if_neg visible,joined_short short]
  simp only [status]

theorem visit_recurses (recurse : FileSystem → Text → Option FileSystem) {path_dir : Text}
    {fs : FileSystem} {d_name : Name} (visible : d_name.head? ≠ some '.')
    (short : (path_dir ++ '/'::d_name).length < bufferSize)
    (status : ∀ k,stat fs (path_dir ++ '/'::d_name) = some k → k = .dir) :
    visit recurse path_dir fs d_name = recurse fs (path_dir ++ '/'::d_name) := by
  rw [visit,if_neg visible,joined_short short]
  cases found : stat fs (path_dir ++ '/'::d_name) with
  | none => simp only [found]
  | some k =>
    cases status k found
    simp only [found]

structure Leads (path : Text) (p : Position) : Prop where
  given : path ≠ []
  resolves : ∀ fs,kind fs p = some .dir → resolve fs path = some p
  removes : ∀ fs,p ≠ [] → kind fs p = some .dir → rmdir fs path = rmdirAt fs p

theorem Leads.child_at {path : Text} {p : Position} (leads : Leads path p) {fs : FileSystem}
    (directory : kind fs p = some .dir) (name : Name) : childAt fs path name = some (p ++ [name]) := by
  rw [childAt,resolve_pieces leads.given,leads.resolves fs directory]
  exact if_pos directory

theorem Leads.child {path : Text} {p : Position} (leads : Leads path p) {name : Name}
    (proper : Proper name) : Leads (path ++ '/'::name) (p ++ [name]) := by
  refine ⟨by simp,?_,?_⟩
  · intro fs directory
    have parent : kind fs p = some .dir :=
      parent_dir (by rw [directory]; exact Option.some_ne_none _)
    exact resolve_below leads.given proper (leads.resolves fs parent) directory
      fun _ => Kind.noConfusion
  · intro fs _ directory
    have parent : kind fs p = some .dir :=
      parent_dir (by rw [directory]; exact Option.some_ne_none _)
    rw [rmdir_below fs path proper,leads.child_at parent]

def pathOf (d : Position) : Text := if d = [] then ['/'] else textOf d

theorem leads_root : Leads ['/'] [] := by
  refine ⟨List.cons_ne_nil _ _,?_,fun _ below => absurd rfl below⟩
  intro fs _
  exact resolve_empties (kind_root fs) maxLinks [[],[]] (by simp)

theorem leads_path (d : Position) : Leads (pathOf d) d := by
  unfold pathOf
  split
  · rename_i root
    rw [root]
    exact leads_root
  · rename_i below
    refine ⟨textOf_given below,?_,?_⟩
    · intro fs directory
      exact resolve_textOf below directory fun _ => Kind.noConfusion
    · intro fs _ directory
      rw [←List.dropLast_append_getLast below] at directory ⊢
      have found : kind fs (d.dropLast ++ [d.getLast below]) ≠ none := by
        rw [directory]
        exact Option.some_ne_none _
      have parent := parent_dir found
      rw [textOf_child,rmdir_below fs _ (name_proper found),childAt,
        pieces_textOf parent fun _ => Kind.noConfusion]
      simp only [if_pos parent]

structure Plain (fs : FileSystem) (path : Text) (p : Position) : Prop where
  directory : kind fs p = some .dir
  no_links : ∀ r target,kind fs (p ++ r) ≠ some (.link target)
  visible : ∀ r name,kind fs (p ++ r ++ [name]) ≠ none → name.head? ≠ some '.'
  short : ∀ r,kind fs (p ++ r) ≠ none → (path ++ textOf r).length < bufferSize

theorem Plain.child {fs after : FileSystem} {path : Text} {p : Position} {name : Name}
    (plain : Plain fs path p) (directory : kind after (p ++ [name]) = some .dir)
    (same : Within after fs) : Plain after (path ++ '/'::name) (p ++ [name]) := by
  have still : ∀ q,kind after q ≠ none → kind fs q ≠ none := by
    intro q there gone
    rcases same q with equal | missing
    · rw [equal] at there
      exact there gone
    · exact there missing
  refine ⟨directory,?_,?_,?_⟩
  · intro r target link
    rw [List.append_assoc] at link
    exact plain.no_links _ target (same.there link)
  · intro r other there
    rw [List.append_assoc p] at there
    exact plain.visible _ other (still _ there)
  · intro r there
    rw [List.append_assoc] at there
    have short := plain.short ([name] ++ r) (still _ there)
    rw [textOf_append,textOf_name] at short
    rw [List.append_assoc]
    exact short

def Emptied (before after : FileSystem) (p : Position) (gone : Bool) : Prop :=
  ∀ q,kind after q = if p <+: q ∧ (q ≠ p ∨ gone = true) then none else kind before q

def Cleared (before after : FileSystem) (p : Position) (done : List Name) : Prop :=
  ∀ q,kind after q = if ∃ name ∈ done,p ++ [name] <+: q then none else kind before q

theorem Cleared.within {before after : FileSystem} {p : Position} {done : List Name}
    (cleared : Cleared before after p done) : Within after before := by
  intro q
  rw [cleared q]
  split
  · exact .inr rfl
  · exact .inl rfl

theorem Cleared.next {before middle after : FileSystem} {p : Position} {done : List Name}
    {name : Name} (cleared : Cleared before middle p done)
    (step : ∀ q,kind after q = if p ++ [name] <+: q then none else kind middle q) :
    Cleared before after p (done ++ [name]) := by
  intro q
  rw [step q,cleared q]
  by_cases here : p ++ [name] <+: q
  · rw [if_pos here,if_pos ⟨name,List.mem_append_right _ (List.mem_singleton_self _),here⟩]
  · rw [if_neg here]
    congr 1
    refine propext ⟨?_,?_⟩
    · intro earlier
      obtain ⟨other,member,below⟩ := earlier
      exact ⟨other,List.mem_append_left _ member,below⟩
    · intro some_entry
      obtain ⟨other,member,below⟩ := some_entry
      rcases List.mem_append.mp member with old | new
      · exact ⟨other,old,below⟩
      · rw [List.mem_singleton.mp new] at below
        exact absurd below here

theorem below_child {p q : Position} (below : p <+: q) (other : q ≠ p) :
    ∃ name, p ++ [name] <+: q := by
  obtain ⟨r,rfl⟩ := below
  cases r with
  | nil => exact absurd (List.append_nil p) other
  | cons name rest => exact ⟨name,rest,by rw [List.append_assoc]; rfl⟩

def Empties (recurse : FileSystem → Text → Option FileSystem) (path : Text) (p : Position) : Prop :=
  ∀ fs name,Plain fs (path ++ '/'::name) (p ++ [name]) →
    Leads (path ++ '/'::name) (p ++ [name]) →
    ∃ after, recurse fs (path ++ '/'::name) = some after ∧ Emptied fs after (p ++ [name]) true

section Loop
variable {recurse : FileSystem → Text → Option FileSystem} {path : Text} {fs : FileSystem}
  {p : Position}

theorem visit_clears (empties : Empties recurse path p) (plain : Plain fs path p)
    (leads : Leads path p) {middle : FileSystem} {done : List Name}
    (cleared : Cleared fs middle p done) {name : Name} (fresh : name ∉ done)
    (listed : name = ['.'] ∨ name = ['.','.'] ∨ name ∈ names fs p) :
    ∃ after, visit recurse path middle name = some after ∧ Cleared fs after p (done ++ [name]) := by
  by_cases proper : Proper name
  · have there : kind fs (p ++ [name]) ≠ none := by
      rcases listed with dot | dots | entry
      · exact absurd dot proper.dot
      · exact absurd dots proper.dots
      · exact mem_names.mp entry
    have visible := plain.visible [] name (by rw [List.append_nil]; exact there)
    have short := plain.short [name] there
    rw [textOf_name] at short
    have kept : ∀ q,p ++ [name] <+: q → kind middle q = kind fs q := by
      intro q below
      rw [cleared q,if_neg]
      intro earlier
      obtain ⟨other,member,also⟩ := earlier
      have same : other = name := by
        obtain ⟨r,rfl⟩ := below
        obtain ⟨r',split⟩ := also
        rw [List.append_assoc,List.append_assoc] at split
        exact (List.cons.inj (List.append_cancel_left split)).1
      exact fresh (same ▸ member)
    have here := kept _ (List.prefix_refl _)
    have parent : kind middle p = some .dir := parent_dir (by rw [here]; exact there)
    cases found : kind fs (p ++ [name]) with
    | none => exact absurd found there
    | some k =>
      rw [found] at here
      cases k with
      | link target => exact absurd found (plain.no_links [name] target)
      | file =>
        have status : stat middle (path ++ '/'::name) = some .file := by
          rw [stat,resolve_below leads.given proper (leads.resolves middle parent) here
            fun _ => Kind.noConfusion]
          exact here
        have file : kind middle (p ++ [name]) ≠ some .dir := by
          rw [here]
          decide
        rw [visit_unlinks recurse visible short status (by decide)]
        refine ⟨_,rfl,cleared.next ?_⟩
        intro q
        rw [unlink_below middle path proper,leads.child_at parent]
        show kind (unlinkAt middle (p ++ [name])) q = _
        rw [unlinkAt_kind]
        by_cases below : p ++ [name] <+: q
        · rw [if_pos below]
          split
          · rfl
          · rename_i other
            obtain ⟨r,rfl⟩ := below
            by_contra still
            refine file (above_dir ?_ still)
            intro none_below
            rw [none_below,List.append_nil] at other
            exact other ⟨rfl,by simp,file,file_leaf file⟩
        · rw [if_neg below,if_neg]
          intro same
          exact below (same.1 ▸ List.prefix_refl _)
      | dir =>
        have status : stat middle (path ++ '/'::name) = some .dir := by
          rw [stat,resolve_below leads.given proper (leads.resolves middle parent) here
            fun _ => Kind.noConfusion]
          exact here
        obtain ⟨after,ran,emptied⟩ := empties middle name
          (plain.child here cleared.within) (leads.child proper)
        rw [visit_recurses recurse visible short fun k found =>
          Option.some.inj (found.symm.trans status)]
        refine ⟨after,ran,cleared.next ?_⟩
        intro q
        rw [emptied q]
        simp
  · have skipped : name.head? = some '.' := by
      rcases listed with dot | dots | entry
      · rw [dot]
        rfl
      · rw [dots]
        rfl
      · exact absurd (name_proper (mem_names.mp entry)) proper
    refine ⟨middle,if_pos skipped,cleared.next ?_⟩
    intro q
    split
    · rename_i below
      obtain ⟨r,rfl⟩ := below
      by_contra there
      rw [List.append_assoc] at there
      exact proper (names_proper there name List.mem_cons_self)
    · rfl

theorem visits_clear (empties : Empties recurse path p) (plain : Plain fs path p)
    (leads : Leads path p) (todo : List Name) {middle : FileSystem} {done : List Name}
    (cleared : Cleared fs middle p done) (distinct : (done ++ todo).Nodup)
    (listed : ∀ name ∈ todo,name = ['.'] ∨ name = ['.','.'] ∨ name ∈ names fs p) :
    ∃ after, todo.foldlM (visit recurse path) middle = some after ∧
      Cleared fs after p (done ++ todo) := by
  induction todo generalizing middle done with
  | nil =>
    rw [List.append_nil]
    exact ⟨middle,rfl,cleared⟩
  | cons name todo ih =>
    have fresh : name ∉ done := by
      intro member
      exact (List.disjoint_of_nodup_append distinct) member List.mem_cons_self
    obtain ⟨next,visited,one_more⟩ := visit_clears empties plain leads cleared fresh
      (listed name List.mem_cons_self)
    rw [List.append_cons] at distinct ⊢
    obtain ⟨after,ran,all⟩ := ih one_more distinct
      fun other member => listed other (List.mem_cons_of_mem _ member)
    refine ⟨after,?_,all⟩
    rw [List.foldlM_cons,visited]
    exact ran

end Loop

theorem gone_below {fs : FileSystem} {p q : Position} (gone : kind fs p = none) (below : p <+: q) :
    kind fs q = none := by
  obtain ⟨r,rfl⟩ := below
  by_contra there
  by_cases same : r = []
  · rw [same,List.append_nil] at there
    exact there gone
  · rw [above_dir same there] at gone
    cases gone

theorem Cleared.all {before after : FileSystem} {p : Position} {done : List Name}
    (cleared : Cleared before after p done) (every : ∀ name ∈ names before p,name ∈ done)
    (q : Position) : kind after q = if p <+: q ∧ q ≠ p then none else kind before q := by
  rw [cleared q]
  by_cases below : p <+: q ∧ q ≠ p
  · obtain ⟨name,under⟩ := below_child below.1 below.2
    rw [if_pos below]
    split
    · rfl
    · rename_i untouched
      refine gone_below ?_ under
      by_contra there
      exact untouched ⟨name,every name (mem_names.mpr there),under⟩
  · rw [if_neg below,if_neg]
    intro touched
    obtain ⟨name,-,under⟩ := touched
    obtain ⟨r,rfl⟩ := under
    exact below ⟨⟨name::r,by simp⟩,by simp⟩

theorem listed_nodup (fs : FileSystem) (p : Position) :
    (['.']::['.','.']::names fs p).Nodup := by
  have proper : ∀ name ∈ names fs p,Proper name := fun name member =>
    name_proper (mem_names.mp member)
  refine List.nodup_cons.mpr ⟨?_,List.nodup_cons.mpr ⟨?_,names_nodup fs p⟩⟩
  · intro member
    rcases List.mem_cons.mp member with dots | entry
    · cases dots
    · exact (proper _ entry).dot rfl
  · intro entry
    exact (proper _ entry).dots rfl

theorem empties_plain (readdir : Readdir) (rm_top : Bool) (fuel : Nat) (fs : FileSystem)
    (path : Text) (p : Position) (child : Bool) (plain : Plain fs path p) (leads : Leads path p)
    (enough : bufferSize ≤ fuel+path.length) (removable : (child || rm_top) = true → p ≠ []) :
    ∃ after, dir_unlink_r readdir rm_top fuel fs path child = some after ∧
      Emptied fs after p (child || rm_top) := by
  induction fuel generalizing fs path p child with
  | zero =>
    have short := plain.short [] (by rw [List.append_nil,plain.directory]; exact Option.some_ne_none _)
    rw [show textOf [] = [] from rfl,List.append_nil] at short
    omega
  | succ fuel ih =>
    have empties : Empties (fun fs cur_file => dir_unlink_r readdir rm_top fuel fs cur_file true)
        path p := by
      intro fs name plain leads
      refine ih fs (path ++ '/'::name) (p ++ [name]) true plain leads ?_ fun _ => by simp
      rw [List.length_append,List.length_cons]
      omega
    have opened : opendir fs path = some (['.']::['.','.']::names fs p) := by
      rw [opendir,leads.resolves fs plain.directory]
      exact if_pos plain.directory
    have same := readdir.each path (['.']::['.','.']::names fs p)
    have start : Cleared fs fs p [] := by
      intro q
      simp
    obtain ⟨visited,ran,cleared⟩ := visits_clear empties plain leads
      (readdir.order path (['.']::['.','.']::names fs p)) start
      (same.nodup_iff.mpr (listed_nodup fs p))
      (by
        intro name member
        simpa using same.mem_iff.mp member)
    have all := cleared.all (by
      intro name member
      exact same.mem_iff.mpr (List.mem_cons_of_mem _ (List.mem_cons_of_mem _ member)))
    have loop : visitAll readdir (fun fs cur_file => dir_unlink_r readdir rm_top fuel fs cur_file true)
        path fs = some visited := by
      rw [visitAll,opened]
      exact ran
    rw [dir_unlink_r]
    simp only [loop,Option.bind_eq_bind,Option.bind_some]
    refine ⟨_,rfl,?_⟩
    intro q
    cases gone : child || rm_top with
    | false => simpa using all q
    | true =>
      have directory : kind visited p = some .dir := by
        rw [all p,if_neg fun below => below.2 rfl]
        exact plain.directory
      have empty : names visited p = [] := by
        rw [List.eq_nil_iff_forall_not_mem]
        intro name member
        refine mem_names.mp member ?_
        rw [all,if_pos ⟨List.prefix_append _ _,by simp⟩]
      have below := removable gone
      rw [if_pos rfl,leads.removes visited below directory,rmdirAt_kind,all q]
      by_cases at_p : q = p
      · rw [if_pos ⟨at_p,below,directory,empty⟩,if_pos ⟨at_p ▸ List.prefix_refl _,.inr rfl⟩]
      · rw [if_neg fun both => at_p both.1]
        simp [at_p]

theorem dir_unlink_r_empties (readdir : Readdir) {rm_top : Bool} {fs : FileSystem} {d : Position}
    (plain : Plain fs (pathOf d) d) (removable : rm_top = true → d ≠ []) (fuel : Nat)
    (enough : bufferSize ≤ fuel) :
    ∃ after, dir_unlink_r readdir rm_top fuel fs (pathOf d) false = some after ∧
      (∀ r,r ≠ [] → kind after (d ++ r) = none) ∧
      (kind after d = none ↔ rm_top = true) ∧
      ∀ q,¬d <+: q → kind after q = kind fs q := by
  obtain ⟨after,ran,emptied⟩ := empties_plain readdir rm_top fuel fs (pathOf d) d false plain
    (leads_path d) (by omega) removable
  refine ⟨after,ran,?_,?_,?_⟩
  · intro r below
    rw [emptied,if_pos ⟨List.prefix_append _ _,.inl (by simpa using below)⟩]
  · rw [emptied,plain.directory]
    simp
  · intro q outside
    rw [emptied,if_neg fun inside => outside inside.1]

def dev : Position := ["dev".toList]

def deviceNodes : FileSystem :=
  .ofEntries [(dev,.dir),(dev ++ ["input".toList],.dir),
    (dev ++ ["input".toList,"event0".toList],.file),(dev ++ ["null".toList],.file),
    (["init".toList],.file)] (by decide +kernel)

theorem nodes_plain : Plain deviceNodes (pathOf dev) dev := by
  have below : dev ≠ [] := List.cons_ne_nil _ _
  have each : ∀ r ∈ deviceNodes.entries.map fun entry => entry.1.drop dev.length,
      (kind deviceNodes (dev ++ r) = some .dir ∨ kind deviceNodes (dev ++ r) = some .file) ∧
        (∀ name ∈ r.getLast?,name.head? ≠ some '.') ∧
        (pathOf dev ++ textOf r).length < bufferSize := by
    decide +kernel
  refine ⟨by decide +kernel,?_,?_,?_⟩
  · intro r target link
    have listed := below_listed below (by rw [link]; exact Option.some_ne_none _)
    rcases (each r listed).1 with directory | file
    · rw [directory] at link
      cases link
    · rw [file] at link
      cases link
  · intro r name there
    rw [List.append_assoc] at there
    exact (each _ (below_listed below there)).2.1 name List.getLast?_concat
  · intro r there
    exact (each r (below_listed below there)).2.2

def backwards : Readdir := ⟨fun _ listed => listed.reverse,fun _ listed => listed.reverse_perm⟩

theorem dir_unlink_r_empties_dev :
    ∃ after, dir_unlink_r backwards true 512 deviceNodes (pathOf dev) false = some after ∧
      (∀ r,r ≠ [] → kind after (dev ++ r) = none) ∧
      (kind after dev = none ↔ true = true) ∧
      ∀ q,¬dev <+: q → kind after q = kind deviceNodes q :=
  dir_unlink_r_empties backwards nodes_plain (fun _ => List.cons_ne_nil _ _) 512 (le_refl _)

end SemcMsm7x30.DirUnlink
