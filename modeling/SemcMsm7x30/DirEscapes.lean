import SemcMsm7x30.DirUnlink

namespace SemcMsm7x30.DirUnlink
open FileTree

-- The names the recursion is led along from the first path, in the tree as it is
-- before the call.
inductive Walked (fs : FileSystem) (top : Text) : List Name → Prop where
  | start : Walked fs top []
  | entry {r listed : List Name} {d_name : Name} (before : Walked fs top r)
      (opened : opendir fs (top ++ textOf r) = some listed) (found : d_name ∈ listed)
      (visible : d_name.head? ≠ some '.') : Walked fs top (r ++ [d_name])

-- An entry outside of the directory that the recursion comes to: one whose stat,
-- through links, is not a directory, or a directory that is empty.
structure Escape (fs : FileSystem) (top : Text) (d : Position) (r : List Name) (at_dir : Position)
    (d_name : Name) : Prop where
  walked : Walked fs top r
  leads : resolve fs (top ++ textOf r) = some at_dir
  listed : d_name ∈ names fs at_dir
  visible : d_name.head? ≠ some '.'
  outside : ¬d <+: at_dir ++ [d_name]
  removable : (∃ k, stat fs (top ++ textOf (r ++ [d_name])) = some k ∧ k ≠ .dir) ∨
    (kind fs (at_dir ++ [d_name]) = some .dir ∧ names fs (at_dir ++ [d_name]) = [])

def Escapes (fs : FileSystem) (top : Text) (d : Position) : Prop :=
  ∃ r at_dir d_name, Escape fs top d r at_dir d_name

-- In whatever order the directories are read, the call returns and everything
-- that is not at or below the directory is as before.
def OutsideKept (fs : FileSystem) (top : Text) (d : Position) (rm_top : Bool) : Prop :=
  ∀ (readdir : Readdir) (fuel : Nat), bufferSize ≤ fuel →
    ∃ after, dir_unlink_r readdir rm_top fuel fs top false = some after ∧
      ∀ q,¬d <+: q → kind after q = kind fs q

section Walks
variable {fs : FileSystem} {top : Text}

theorem text_child (top : Text) (r : List Name) (name : Name) :
    top ++ textOf (r ++ [name]) = top ++ textOf r ++ '/'::name := by
  rw [textOf_child,List.append_assoc]

theorem walked_parts {r : List Name} {name : Name} (walked : Walked fs top (r ++ [name])) :
    Walked fs top r ∧ name.head? ≠ some '.' ∧
      ∃ listed, opendir fs (top ++ textOf r) = some listed ∧ name ∈ listed := by
  generalize whole : r ++ [name] = route at walked
  cases walked with
  | start => simp at whole
  | entry before opened found visible =>
    obtain ⟨front,last⟩ := List.append_inj' whole rfl
    cases front
    cases List.singleton_inj.mp last
    exact ⟨before,visible,_,opened,found⟩

theorem walked_front {r more : List Name} (walked : Walked fs top (r ++ more)) : Walked fs top r := by
  induction more using List.reverseRecOn with
  | nil =>
    rw [List.append_nil] at walked
    exact walked
  | append_singleton more name ih =>
    rw [←List.append_assoc] at walked
    exact ih (walked_parts walked).1

theorem listed_entry {p : Position} {name : Name} (visible : name.head? ≠ some '.')
    (found : name ∈ ['.']::['.','.']::names fs p) : name ∈ names fs p := by
  simp only [List.mem_cons] at found
  rcases found with dot | dots | entry
  · rw [dot] at visible
    exact absurd rfl visible
  · rw [dots] at visible
    exact absurd rfl visible
  · exact entry

theorem walked_entry {r : List Name} {name : Name} (walked : Walked fs top (r ++ [name])) :
    ∃ p, resolve fs (top ++ textOf r) = some p ∧ name ∈ names fs p ∧ Proper name := by
  obtain ⟨-,visible,listed,opened,found⟩ := walked_parts walked
  obtain ⟨p,leads,-,rfl⟩ := opendir_position opened
  have entry := listed_entry visible found
  exact ⟨p,leads,entry,name_proper (mem_names.mp entry)⟩

theorem walked_top {now : FileSystem} {r : List Name} (walked : Walked fs top r) (given : top ≠ [])
    {p : Position} (leads : resolve now (top ++ textOf r) = some p) :
    ∃ q, resolve now top = some q := by
  induction r using List.reverseRecOn generalizing p with
  | nil =>
    rw [show textOf [] = [] from rfl,List.append_nil] at leads
    exact ⟨p,leads⟩
  | append_singleton r name ih =>
    obtain ⟨-,-,-,proper⟩ := walked_entry walked
    rw [text_child] at leads
    obtain ⟨q,earlier⟩ := resolve_front (by simp [given]) proper leads
    exact ih (walked_parts walked).1 earlier

end Walks

structure Kept (fs : FileSystem) (top : Text) (holds : FileSystem → Prop) : Prop where
  unlinks : ∀ now r name k,Walked fs top (r ++ [name]) → Within now fs → holds now →
    stat now (top ++ textOf (r ++ [name])) = some k → k ≠ .dir →
    holds (unlink now (top ++ textOf (r ++ [name])))
  rmdirs : ∀ now r,Walked fs top r → Within now fs → holds now →
    holds (rmdir now (top ++ textOf r))

section Runs
variable {fs : FileSystem} {top : Text} {holds : FileSystem → Prop}

theorem visits_keep (kept : Kept fs top holds)
    (short : ∀ r,Walked fs top r → (top ++ textOf r).length < bufferSize)
    {recurse : FileSystem → Text → Option FileSystem} {r : List Name}
    (recurses : ∀ now name,Walked fs top (r ++ [name]) → Within now fs → holds now →
      ∃ after, recurse now (top ++ textOf (r ++ [name])) = some after ∧ Within after fs ∧
        holds after)
    (todo : List Name)
    (entries : ∀ name ∈ todo,name.head? ≠ some '.' → Walked fs top (r ++ [name]))
    {now : FileSystem} (within : Within now fs) (held : holds now) :
    ∃ after, todo.foldlM (visit recurse (top ++ textOf r)) now = some after ∧ Within after fs ∧
      holds after := by
  induction todo generalizing now with
  | nil => exact ⟨now,rfl,within,held⟩
  | cons name todo ih =>
    have rest := fun other member => entries other (List.mem_cons_of_mem name member)
    rw [List.foldlM_cons]
    by_cases skipped : name.head? = some '.'
    · obtain ⟨after,ran,facts⟩ := ih rest within held
      refine ⟨after,?_,facts⟩
      rw [visit,if_pos skipped]
      exact ran
    · have walked := entries name List.mem_cons_self skipped
      have fits := short _ walked
      rw [text_child] at fits
      have one : ∃ next, visit recurse (top ++ textOf r) now name = some next ∧ Within next fs ∧
          holds next := by
        by_cases recursive : ∀ k,stat now (top ++ textOf r ++ '/'::name) = some k → k = .dir
        · rw [visit_recurses recurse skipped fits recursive,←text_child]
          exact recurses now name walked within held
        · push Not at recursive
          obtain ⟨k,status,other⟩ := recursive
          rw [visit_unlinks recurse skipped fits status other,←text_child]
          rw [←text_child] at status
          exact ⟨_,rfl,(unlink_within _ _).trans within,
            kept.unlinks now r name k walked within held status other⟩
      obtain ⟨next,visited,within_next,held_next⟩ := one
      obtain ⟨after,ran,facts⟩ := ih rest within_next held_next
      refine ⟨after,?_,facts⟩
      rw [visited]
      exact ran

theorem run_keeps (kept : Kept fs top holds)
    (short : ∀ r,Walked fs top r → (top ++ textOf r).length < bufferSize) (readdir : Readdir)
    (rm_top : Bool) (fuel : Nat) (r : List Name) (walked : Walked fs top r) (now : FileSystem)
    (child : Bool) (enough : bufferSize ≤ fuel+(top ++ textOf r).length)
    (within : Within now fs) (held : holds now) :
    ∃ after, dir_unlink_r readdir rm_top fuel now (top ++ textOf r) child = some after ∧
      Within after fs ∧ holds after := by
  induction fuel generalizing r now child with
  | zero =>
    have fits := short r walked
    omega
  | succ fuel ih =>
    have loop : ∃ visited, visitAll readdir
        (fun now cur_file => dir_unlink_r readdir rm_top fuel now cur_file true) (top ++ textOf r)
        now = some visited ∧ Within visited fs ∧ holds visited := by
      rw [visitAll]
      cases opened : opendir now (top ++ textOf r) with
      | none => exact ⟨now,rfl,within,held⟩
      | some listed =>
        obtain ⟨more,first_opened,all⟩ := opendir_within within opened
        refine visits_keep kept short ?_ _ ?_ within held
        · intro now name walked_child within held
          refine ih (r ++ [name]) walked_child now true ?_ within held
          rw [text_child,List.length_append,List.length_cons]
          omega
        · intro name member visible
          have listed_name := (readdir.each _ listed).mem_iff.mp member
          exact walked.entry first_opened (all name listed_name) visible
    obtain ⟨visited,ran,within_visited,held_visited⟩ := loop
    rw [dir_unlink_r]
    simp only [ran,Option.bind_eq_bind,Option.bind_some]
    split
    · exact ⟨_,rfl,(rmdir_within _ _).trans within_visited,
        kept.rmdirs visited r walked within_visited held_visited⟩
    · exact ⟨visited,rfl,within_visited,held_visited⟩

end Runs

section Outside
variable {fs : FileSystem} {top : Text} {d : Position}

def SameOutside (fs : FileSystem) (d : Position) (now : FileSystem) : Prop :=
  ∀ q,¬d <+: q → kind now q = kind fs q

theorem unlink_same (given : top ≠ []) (confined : ¬Escapes fs top d) {now : FileSystem}
    {r : List Name} {name : Name} {k : Kind} (walked : Walked fs top (r ++ [name]))
    (within : Within now fs) (same : SameOutside fs d now)
    (status : stat now (top ++ textOf (r ++ [name])) = some k) (other : k ≠ .dir) :
    SameOutside fs d (unlink now (top ++ textOf (r ++ [name]))) := by
  obtain ⟨before,visible,-⟩ := walked_parts walked
  obtain ⟨-,-,-,proper⟩ := walked_entry walked
  have seen := stat_within within status
  intro q outside
  rw [text_child,unlink_below now _ proper]
  cases child : childAt now (top ++ textOf r) name with
  | none => exact same q outside
  | some p =>
    obtain ⟨at_dir,leads,-,rfl⟩ := child_position (by simp [given]) child
    show kind (unlinkAt now (at_dir ++ [name])) q = kind fs q
    rw [unlinkAt_kind]
    split
    · rename_i removed
      obtain ⟨rfl,-⟩ := removed
      by_contra there
      have listed := mem_names.mpr (Ne.symm there)
      exact confined ⟨r,at_dir,name,before,resolve_text_within within leads,listed,visible,outside,
        .inl ⟨k,seen,other⟩⟩
    · exact same q outside

-- What rmdir takes out is the directory itself, or an entry the walk escapes to,
-- which has been empty all the time: where its only entry led to the directory,
-- the path would not resolve any more.
theorem rmdir_same (given : top ≠ []) (leads_top : resolve fs top = some d)
    (confined : ¬Escapes fs top d) {now : FileSystem} {r : List Name} (walked : Walked fs top r)
    (within : Within now fs) (same : SameOutside fs d now) :
    SameOutside fs d (rmdir now (top ++ textOf r)) := by
  intro q outside
  induction r using List.reverseRecOn with
  | nil =>
    rw [show textOf [] = [] from rfl,List.append_nil]
    rcases rmdir_position now top with nothing | removes
    · rw [nothing]
      exact same q outside
    · obtain ⟨p,removed,leads⟩ := removes
      rw [removed,rmdirAt_kind]
      split
      · rename_i gone
        have at_d := (resolve_text_within within (leads gone.2.2.1)).symm.trans leads_top
        rw [gone.1,Option.some.inj at_d] at outside
        exact absurd (List.prefix_refl d) outside
      · exact same q outside
  | append_singleton r name _ =>
    obtain ⟨before,visible,-⟩ := walked_parts walked
    obtain ⟨-,-,-,proper⟩ := walked_entry walked
    rw [text_child,rmdir_below now _ proper]
    cases child : childAt now (top ++ textOf r) name with
    | none => exact same q outside
    | some p =>
      obtain ⟨at_dir,leads,-,rfl⟩ := child_position (by simp [given]) child
      show kind (rmdirAt now (at_dir ++ [name])) q = kind fs q
      rw [rmdirAt_kind]
      split
      · rename_i removed
        obtain ⟨rfl,-,directory,empty⟩ := removed
        have was_directory := within.there directory
        obtain ⟨first,leads_first⟩ := walked_top before given leads
        have at_d := (resolve_text_within within leads_first).symm.trans leads_top
        have still : kind now d ≠ none := Option.some.inj at_d ▸ resolve_text_there leads_first
        have was_empty : names fs (at_dir ++ [name]) = [] := by
          rw [List.eq_nil_iff_forall_not_mem] at empty ⊢
          intro other member
          refine empty other (mem_names.mpr ?_)
          by_cases leaves : d <+: at_dir ++ [name] ++ [other]
          · rcases List.prefix_concat_iff.mp leaves with whole | inside
            · exact whole ▸ still
            · exact absurd inside outside
          · rw [same _ leaves]
            exact mem_names.mp member
        refine absurd ⟨r,at_dir,name,before,resolve_text_within within leads,?_,visible,outside,
          .inr ⟨was_directory,was_empty⟩⟩ confined
        exact mem_names.mpr (by rw [was_directory]; exact Option.some_ne_none _)
      · exact same q outside

theorem confined_kept (given : top ≠ []) (leads_top : resolve fs top = some d)
    (short : ∀ r,Walked fs top r → (top ++ textOf r).length < bufferSize) (rm_top : Bool)
    (confined : ¬Escapes fs top d) : OutsideKept fs top d rm_top := by
  intro readdir fuel enough
  have kept : Kept fs top (SameOutside fs d) :=
    ⟨fun _ _ _ _ walked within same status other =>
        unlink_same given confined walked within same status other,
      fun _ _ walked within same => rmdir_same given leads_top confined walked within same⟩
  obtain ⟨after,ran,-,same⟩ := run_keeps kept short readdir rm_top fuel [] .start fs false
    (by omega) (.refl fs) fun _ _ => rfl
  rw [show textOf [] = [] from rfl,List.append_nil] at ran
  exact ⟨after,ran,same⟩

end Outside

def nextName (top : Text) (path : Text) : List Name → Option Name
  | [] => none
  | name::rest => if path = top then some name else nextName (top ++ '/'::name) path rest

theorem nextName_at (top : Text) (front : List Name) (name : Name) (rest : List Name) :
    nextName top (top ++ textOf front) (front ++ name::rest) = some name := by
  induction front generalizing top with
  | nil =>
    rw [show textOf [] = [] from rfl,List.append_nil]
    exact if_pos rfl
  | cons first front ih =>
    have further : top ++ textOf (first::front) = top ++ '/'::first ++ textOf front := by
      rw [List.append_assoc,←textOf_name,←textOf_append]
      rfl
    have longer : top ++ textOf (first::front) ≠ top := by simp [textOf]
    rw [List.cons_append,nextName,if_neg longer,further]
    exact ih _

def along (top : Text) (route : List Name) : Readdir where
  order path listed :=
    match nextName top path route with
    | none => listed
    | some name => if name ∈ listed then name::listed.erase name else listed
  each path listed := by
    split
    · exact .refl _
    · split
      · rename_i member
        exact (List.perm_cons_erase member).symm
      · exact .refl _

section Routes
variable {fs : FileSystem} {top : Text}

theorem visits_within {recurse : FileSystem → Text → Option FileSystem} {path : Text}
    (shrinks : ∀ now cur after,recurse now cur = some after → Within after now)
    (todo : List Name) {now after : FileSystem}
    (ran : todo.foldlM (visit recurse path) now = some after) : Within after now := by
  induction todo generalizing now with
  | nil =>
    cases Option.some.inj ran
    exact .refl _
  | cons name todo ih =>
    rw [List.foldlM_cons] at ran
    obtain ⟨next,visited,rest⟩ := Option.bind_eq_some_iff.mp ran
    refine (ih rest).trans ?_
    rw [visit] at visited
    split at visited
    · cases Option.some.inj visited
      exact .refl now
    · simp only at visited
      split at visited
      · exact shrinks _ _ _ visited
      · exact shrinks _ _ _ visited
      · cases Option.some.inj visited
        exact unlink_within _ _

theorem run_within {readdir : Readdir} {rm_top : Bool} (fuel : Nat) {now after : FileSystem}
    {path : Text} {child : Bool}
    (ran : dir_unlink_r readdir rm_top fuel now path child = some after) : Within after now := by
  induction fuel generalizing now after path child with
  | zero => cases ran
  | succ fuel ih =>
    rw [dir_unlink_r] at ran
    obtain ⟨visited,loop,last⟩ := Option.bind_eq_some_iff.mp ran
    have shrunk : Within visited now := by
      rw [visitAll] at loop
      split at loop
      · cases Option.some.inj loop
        exact .refl now
      · exact visits_within (fun _ _ _ below => ih below) _ loop
    split at last
    · cases Option.some.inj last
      exact (rmdir_within _ _).trans shrunk
    · cases Option.some.inj last
      exact shrunk

theorem run_empty {readdir : Readdir} {rm_top : Bool} {fuel : Nat} {after : FileSystem}
    {path : Text} {p : Position} (leads : resolve fs path = some p)
    (directory : kind fs p = some .dir) (empty : names fs p = [])
    (ran : dir_unlink_r readdir rm_top fuel fs path true = some after) : after = rmdir fs path := by
  cases fuel with
  | zero => cases ran
  | succ fuel =>
    have opened : opendir fs path = some [['.'],['.','.']] := by
      rw [opendir,leads]
      simp only [if_pos directory,empty]
    have skipped : ∀ (recurse : FileSystem → Text → Option FileSystem) (todo : List Name),
        (∀ name ∈ todo,name.head? = some '.') → todo.foldlM (visit recurse path) fs = some fs := by
      intro recurse todo
      induction todo with
      | nil => exact fun _ => rfl
      | cons name todo ih =>
        intro dots
        rw [List.foldlM_cons,visit,if_pos (dots name List.mem_cons_self)]
        exact ih fun other member => dots other (List.mem_cons_of_mem _ member)
    have loop : ∀ recurse,visitAll readdir recurse path fs = some fs := by
      intro recurse
      rw [visitAll,opened]
      refine skipped recurse _ ?_
      intro name member
      have listed := (readdir.each path _).mem_iff.mp member
      simp only [List.mem_cons,List.not_mem_nil,or_false] at listed
      rcases listed with rfl | rfl <;> rfl
    rw [dir_unlink_r] at ran
    simp only [loop,Option.bind_eq_bind,Option.bind_some,Bool.true_or,if_true] at ran
    exact (Option.some.inj ran).symm

theorem Escape.route {d at_dir : Position} {r : List Name} {name : Name}
    (escape : Escape fs top d r at_dir name) : Walked fs top (r ++ [name]) := by
  have directory := parent_dir (mem_names.mp escape.listed)
  have opened : opendir fs (top ++ textOf r) = some (['.']::['.','.']::names fs at_dir) := by
    rw [opendir,escape.leads]
    exact if_pos directory
  exact escape.walked.entry opened
    (List.mem_cons_of_mem _ (List.mem_cons_of_mem _ escape.listed)) escape.visible

theorem Escape.child {d at_dir : Position} {r : List Name} {name : Name} (given : top ≠ [])
    (escape : Escape fs top d r at_dir name) :
    childAt fs (top ++ textOf r) name = some (at_dir ++ [name]) := by
  rw [childAt,resolve_pieces (by simp [given]),escape.leads]
  exact if_pos (parent_dir (mem_names.mp escape.listed))

theorem escape_visit {d at_dir : Position} {r : List Name} {name : Name} (given : top ≠ [])
    (escape : Escape fs top d r at_dir name)
    (short : (top ++ textOf r ++ '/'::name).length < bufferSize) {readdir : Readdir} {rm_top : Bool}
    {fuel : Nat} {after : FileSystem}
    (visited : visit (fun now cur_file => dir_unlink_r readdir rm_top fuel now cur_file true)
      (top ++ textOf r) fs name = some after) : kind after (at_dir ++ [name]) = none := by
  have there := mem_names.mp escape.listed
  have proper := name_proper there
  have child := escape.child given
  have status_below : ∀ k,kind fs (at_dir ++ [name]) = some k → (∀ target,k ≠ .link target) →
      stat fs (top ++ textOf r ++ '/'::name) = some k := by
    intro k found not_link
    rw [stat,resolve_below (by simp [given]) proper escape.leads found not_link]
    exact found
  rcases escape.removable with unlinked | empty
  · obtain ⟨k,status,other⟩ := unlinked
    rw [text_child] at status
    have not_directory : kind fs (at_dir ++ [name]) ≠ some .dir := by
      intro directory
      rw [status_below _ directory fun _ => Kind.noConfusion] at status
      exact other (Option.some.inj status).symm
    rw [visit_unlinks _ escape.visible short status other] at visited
    cases Option.some.inj visited
    rw [unlink_below fs _ proper,child]
    show kind (unlinkAt fs (at_dir ++ [name])) (at_dir ++ [name]) = none
    rw [unlinkAt_kind,if_pos ⟨rfl,by simp,not_directory,file_leaf not_directory⟩]
  · obtain ⟨directory,nothing⟩ := empty
    have status := status_below _ directory fun _ => Kind.noConfusion
    rw [visit_recurses _ escape.visible short fun k found =>
      Option.some.inj (found.symm.trans status)] at visited
    have leads := resolve_below (by simp [given]) proper escape.leads directory
      fun _ => Kind.noConfusion
    rw [run_empty leads directory nothing visited,rmdir_below fs _ proper,child]
    show kind (rmdirAt fs (at_dir ++ [name])) (at_dir ++ [name]) = none
    rw [rmdirAt_kind,if_pos ⟨rfl,by simp,directory,nothing⟩]

theorem route_first {front rest : List Name} {next : Name} {readdir : Readdir} {rm_top : Bool}
    (reads : readdir = along top (front ++ next::rest)) (walked : Walked fs top (front ++ [next]))
    {fuel : Nat} {child : Bool} {after : FileSystem}
    (ran : dir_unlink_r readdir rm_top fuel fs (top ++ textOf front) child = some after) :
    ∃ fuel first, visit (fun now cur_file => dir_unlink_r readdir rm_top fuel now cur_file true)
      (top ++ textOf front) fs next = some first ∧ Within after first := by
  cases fuel with
  | zero => cases ran
  | succ fuel =>
    obtain ⟨-,-,listed,opened,found⟩ := walked_parts walked
    have order : readdir.order (top ++ textOf front) listed = next::listed.erase next := by
      rw [reads,along]
      simp only [nextName_at,if_pos found]
    rw [dir_unlink_r] at ran
    obtain ⟨visited,loop,last⟩ := Option.bind_eq_some_iff.mp ran
    rw [visitAll,opened] at loop
    simp only [order] at loop
    rw [List.foldlM_cons] at loop
    obtain ⟨first,one,others⟩ := Option.bind_eq_some_iff.mp loop
    have within := visits_within (fun _ _ _ below => run_within fuel below) _ others
    refine ⟨fuel,first,one,?_⟩
    cases Option.some.inj last
    split
    · exact (rmdir_within _ _).trans within
    · exact within

theorem route_removes {d at_dir : Position} {r : List Name} {name : Name} (given : top ≠ [])
    (escape : Escape fs top d r at_dir name)
    (short : ∀ r,Walked fs top r → (top ++ textOf r).length < bufferSize) {readdir : Readdir}
    {rm_top : Bool} (reads : readdir = along top (r ++ [name])) (rest front : List Name)
    (next : Name) (whole : r ++ [name] = front ++ next::rest) {fuel : Nat} {child : Bool}
    {after : FileSystem}
    (ran : dir_unlink_r readdir rm_top fuel fs (top ++ textOf front) child = some after) :
    kind after (at_dir ++ [name]) = none := by
  induction rest generalizing front next fuel child after with
  | nil =>
    obtain ⟨same_front,same_name⟩ := List.append_inj' whole rfl
    cases same_front
    cases List.singleton_inj.mp same_name
    have fits := short _ escape.route
    rw [text_child] at fits
    obtain ⟨fuel,first,visited,within⟩ := route_first reads escape.route ran
    exact within.gone (escape_visit given escape fits visited)
  | cons second rest ih =>
    have route := escape.route
    rw [whole,List.append_cons,List.append_cons] at route
    have walked_second := walked_front route
    obtain ⟨walked,-⟩ := walked_parts walked_second
    have fits := short _ walked
    rw [text_child] at fits
    obtain ⟨-,visible,-⟩ := walked_parts walked
    obtain ⟨fuel,first,visited,within⟩ := route_first (whole ▸ reads) walked ran
    obtain ⟨p,leads,entry,-⟩ := walked_entry walked_second
    have status : stat fs (top ++ textOf front ++ '/'::next) = some .dir := by
      rw [←text_child,stat,leads]
      exact parent_dir (mem_names.mp entry)
    rw [visit_recurses _ visible fits fun k found => Option.some.inj (found.symm.trans status),
      ←text_child] at visited
    refine within.gone (ih (front ++ [next]) second ?_ visited)
    rw [whole,List.append_cons]

end Routes

theorem outside_kept_iff {fs : FileSystem} {top : Text} {d : Position}
    (leads : resolve fs top = some d)
    (short : ∀ r,Walked fs top r → (top ++ textOf r).length < bufferSize) (rm_top : Bool) :
    OutsideKept fs top d rm_top ↔ ¬Escapes fs top d := by
  have given : top ≠ [] := by
    intro empty
    rw [empty] at leads
    cases leads
  constructor
  · intro kept escapes
    obtain ⟨r,at_dir,name,escape⟩ := escapes
    obtain ⟨after,ran,same⟩ := kept (along top (r ++ [name])) bufferSize (le_refl _)
    obtain ⟨next,rest,whole⟩ := List.exists_cons_of_ne_nil
      (show r ++ [name] ≠ [] from by simp)
    have from_top : dir_unlink_r (along top (r ++ [name])) rm_top bufferSize fs (top ++ textOf [])
        false = some after := by
      rw [show textOf [] = [] from rfl,List.append_nil]
      exact ran
    have gone := route_removes given escape short rfl rest [] next whole from_top
    rw [same _ escape.outside] at gone
    exact mem_names.mp escape.listed gone
  · exact confined_kept given leads short rm_top

def deviceLinks : FileSystem :=
  .ofEntries [(dev,.dir),(dev ++ ["input".toList],.dir),
    (dev ++ ["input".toList,"event0".toList],.file),
    (dev ++ ["event".toList],.link "input/event0".toList),
    (dev ++ ["gone".toList],.link "/nowhere".toList),(["init".toList],.file)] (by decide +kernel)

def linkWalks : List (List Name) :=
  [[],["input".toList],["input".toList,"event0".toList],["event".toList],["gone".toList]]

theorem links_walked {r : List Name} (walked : Walked deviceLinks (pathOf dev) r) : r ∈ linkWalks := by
  have closed : ∀ r ∈ linkWalks,∀ listed ∈ opendir deviceLinks (pathOf dev ++ textOf r),
      ∀ name ∈ listed,name.head? ≠ some '.' → r ++ [name] ∈ linkWalks := by
    decide +kernel
  induction walked with
  | start => exact List.mem_cons_self
  | entry before opened found visible ih => exact closed _ ih _ opened _ found visible

theorem links_confined : ¬Escapes deviceLinks (pathOf dev) dev := by
  have inside : ∀ r ∈ linkWalks,∀ p ∈ resolve deviceLinks (pathOf dev ++ textOf r),
      dev <+: p := by
    decide +kernel
  intro escapes
  obtain ⟨r,at_dir,name,escape⟩ := escapes
  have below := inside r (links_walked escape.walked) at_dir escape.leads
  exact escape.outside (below.trans (List.prefix_append _ _))

theorem outside_kept_links : OutsideKept deviceLinks (pathOf dev) dev false := by
  have short : ∀ r ∈ linkWalks,(pathOf dev ++ textOf r).length < bufferSize := by
    decide +kernel
  have leads : resolve deviceLinks (pathOf dev) = some dev := by
    decide +kernel
  exact (outside_kept_iff leads (fun r walked => short r (links_walked walked)) false).mpr
    links_confined

def data : Position := ["data".toList]

def linkOut : FileSystem :=
  .ofEntries [(dev,.dir),(dev ++ ["link".toList],.link "/data".toList),(data,.dir),
    (data ++ ["file".toList],.file)] (by decide +kernel)

theorem link_out_emptied : ¬OutsideKept linkOut (pathOf dev) dev false := by
  intro kept
  obtain ⟨after,ran,same⟩ := kept backwards bufferSize (le_refl _)
  have removed : (dir_unlink_r backwards false bufferSize linkOut (pathOf dev) false).map
      (kind · (data ++ ["file".toList])) = some none := by
    decide +kernel
  rw [ran,Option.map_some,same _ (by decide +kernel)] at removed
  have there : kind linkOut (data ++ ["file".toList]) = some .file := by
    decide +kernel
  rw [there] at removed
  cases removed

end SemcMsm7x30.DirUnlink
