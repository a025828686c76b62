import SemcMsm7x30.SortedVector

namespace SemcMsm7x30.Vectors.SortedVectorImpl
open RawMemory PartialMachine Comparison

attribute [local irreducible] ssize_t _indexOrderOf

section Endings
variable {α : Type} {t : ItemType α} {cmp : α → α → Int} {others : Nat → Nat} {h : Heap α}
  {v source : VectorImpl}

theorem search_finishes (h : Heap α) (a : Option Nat) (x : α) {rounds : Nat} {l hi : Int} :
    Finishes (search t cmp h a x rounds l hi) := by
  induction rounds generalizing l hi with
  | zero => exact finishes_fault
  | succ rounds ih =>
    apply finishes_ite
    · intro _
      apply (readItem_finishes h a _).bind
      intro curr _
      apply finishes_ite
      · exact fun _ => finishes_ok
      · intro _
        apply finishes_ite
        · exact fun _ => ih
        · exact fun _ => ih
    · exact fun _ => finishes_ok

theorem indexOrderOf_finishes (h : Heap α) (v : VectorImpl) (x : α) :
    Finishes (_indexOrderOf t cmp h v x) := by
  unfold _indexOrderOf
  exact search_finishes h v.mStorage x

theorem add_finishes (granted : Granted h) (x : α) (room : Room t (v.mCount+1)) :
    Finishes (add t cmp h v x) := by
  apply (indexOrderOf_finishes h v x).bind
  rintro ⟨index,place⟩ _
  cases index with
  | none =>
    exact insertWith_finishes granted v place 1
      (fun next sb => splatOrConstruct_finishes next sb place (some x) 1) room
  | some i => exact replaceAt_finishes granted v (some x) i

theorem add_granted (granted : Granted h) (x : α) :
    Yields (add t cmp h v x) fun result => Granted result.1 := by
  apply yields_self.bind
  rintro ⟨index,place⟩ _
  cases index with
  | none => exact insertAt_granted granted (some x) place 1
  | some i => exact replaceAt_granted granted (some x) i

theorem remove_finishes (order : TotalPreorder cmp) (fit : Fit t others h v) (granted : Granted h)
    (least : Allocatable (kMinVectorCapacity*t.mItemSize)) (x : α) : Finishes (remove t cmp h v x) := by
  have looked : Finishes (indexOf t cmp h v x) := by
    apply (indexOrderOf_finishes h v x).bind
    rintro ⟨index,place⟩ _
    exact finishes_ok
  apply looked.bind
  intro i ran
  cases i with
  | none => exact finishes_ok
  | some i =>
    obtain ⟨index,place,found,searched⟩ := indexOrderOf_eq order fit x
    simp only [indexOf,found,ok_bind] at ran
    obtain rfl : index = some i := Except.ok.inj ran
    have below := searched.inside i rfl
    apply (removeItemsAt_finishes fit granted i (fun _ => least) (by omega : 1 ≤ v.mCount)).bind
    rintro ⟨next,w,status⟩ _
    exact finishes_ok

theorem remove_granted (granted : Granted h) (x : α) :
    Yields (remove t cmp h v x) fun result => Granted result.1 := by
  apply yields_self.bind
  intro i _
  cases i with
  | none => exact yields_ok granted
  | some i =>
    apply (removeItemsAt_granted granted i 1).bind
    rintro ⟨next,w,status⟩ removed
    exact yields_ok removed

theorem mergeFrom_granted (granted : Granted h) (buffer : Option Nat) {left i : Nat} :
    Yields (mergeFrom t cmp buffer left i h v) fun result => Granted result.1 := by
  induction left generalizing i h v with
  | zero => exact yields_ok granted
  | succ left ih =>
    apply yields_self.bind
    intro item _
    apply (add_granted granted item).bind
    rintro ⟨next,w,err⟩ added
    apply yields_ite
    · exact fun _ => yields_ok added
    · exact fun _ => ih added

theorem merge_granted (granted : Granted h) (source : VectorImpl) :
    Yields (merge t cmp h v source) fun result => Granted result.1 := by
  apply yields_ite
  · exact fun _ => yields_ok granted
  · exact fun _ => mergeFrom_granted granted source.mStorage

end Endings

-- The program: vector 0 is the sorted one, the others are any vectors.
inductive Action (α : Type) where
  | other (op : Op α)
  | add (item : α)
  | remove (item : α)
  | merge (rhs : Nat)

section Programs
variable {α : Type} (t : ItemType α) (cmp : α → α → Int)

def onSorted (w : World α) (f : Heap α → VectorImpl → Run (Heap α × VectorImpl)) : Run (World α) :=
  match w.vectors[0]? with
  | none => .error .fault
  | some v => do
    let (heap,changed) ← f w.heap v
    pure ⟨heap,w.vectors.set 0 changed⟩

def withoutIndex (result : Run (Heap α × VectorImpl × Option Nat)) : Run (Heap α × VectorImpl) := do
  let (h,this,_) ← result
  pure (h,this)

def step (w : World α) : Action α → Run (World α)
  | .other op => Vectors.step t w op
  | .add item => onSorted w fun h this => withoutStatus (add t cmp h this item)
  | .remove item => onSorted w fun h this => withoutIndex (remove t cmp h this item)
  | .merge rhs =>
    match w.vectors[rhs]? with
    | none => .error .fault
    | some vector => onSorted w fun h this => withoutStatus (merge t cmp h this vector)

def machine (w : World α) (action : Action α) : Option (World α) := (step t cmp w action).toOption

def begun : World α := ⟨Heap.empty,[⟨none,0⟩]⟩

def Spares : Op α → Prop
  | .assign this _ => this ≠ 0
  | .edit this _ => this ≠ 0
  | _ => True

def Named (w : World α) : Action α → Prop
  | .other op => Allowed w op ∧ Spares op
  | .merge rhs => rhs < w.vectors.length
  | _ => True

def Permitted (w : World α) (action : Action α) : Prop :=
  Named w action ∧ ∀ next, step t cmp w action = .ok next → Addressable next.heap

end Programs

section Steps
variable {α : Type} {t : ItemType α} {cmp : α → α → Int} {w next : World α}

structure Standing (t : ItemType α) (cmp : α → α → Int) (w : World α) : Prop where
  sound : Sound t w
  granted : Granted w.heap
  limited : Addressable w.heap
  strict : ∃ v, w.vectors[0]? = some v ∧ Strict cmp (items w.heap v)

theorem begun_standing : Standing t cmp (begun : World α) := by
  have nothing : ∀ sb b, (begun : World α).heap.buffers sb = some b → False := by
    intro sb b present
    cases present
  refine ⟨(construct_refines initial_sound).1,fun sb b present => (nothing sb b present).elim,
    fun sb b present => (nothing sb b present).elim,⟨none,0⟩,rfl,List.Pairwise.nil⟩

theorem onSorted_safe {f : Heap α → VectorImpl → Run (Heap α × VectorImpl)} {v : VectorImpl}
    (holds : Heap α → VectorImpl → Prop) (sound : Sound t w) (found : w.vectors[0]? = some v)
    (safe : ∀ others, Fit t others w.heap v →
      (∀ rhs other, rhs ≠ 0 → w.vectors[rhs]? = some other →
        ∀ sb, other.mStorage = some sb → 0 < others sb) →
      Safe (f w.heap v) fun result => Fit t others result.1 result.2 ∧ Kept others w.heap result.1 ∧
        holds result.1 result.2) :
    Safe (onSorted w f) fun next => Sound t next ∧
      ∃ changed, next.vectors[0]? = some changed ∧ holds next.heap changed := by
  obtain ⟨heap,vectors⟩ := w
  simp only at found safe
  simp only [onSorted,found]
  obtain ⟨before,after,rfl,none⟩ := focus found
  obtain rfl := List.eq_nil_of_length_eq_zero none
  apply Safe.bind (safe _ sound.fit ?_)
  · rintro ⟨later,changed⟩ ⟨fit,kept,held⟩
    exact ⟨(focus_sound sound fit kept).1,changed,rfl,held⟩
  · intro rhs other different there sb storage
    exact owners_positive (mem_others there different.symm) storage

theorem other_spares (sound : Sound t w) {op : Op α} (allowed : Allowed w op) (spares : Spares op)
    (some' : 0 < (contents w).length) :
    Safe (Vectors.step t w op) fun next => Sound t next ∧ (contents next)[0]? = (contents w)[0]? := by
  cases op with
  | construct =>
    apply (step_refines sound allowed).mono
    rintro next ⟨sound',listed⟩
    have added : contents next = contents w ++ [[]] := listed trivial
    exact ⟨sound',by rw [added,List.getElem?_append_left some']⟩
  | copy rhs =>
    apply (step_refines sound allowed).mono
    rintro next ⟨sound',listed⟩
    obtain ⟨l,_,copied⟩ := listed trivial
    exact ⟨sound',by rw [copied,List.getElem?_append_left some']⟩
  | assign this rhs =>
    apply (step_refines sound allowed).mono
    rintro next ⟨sound',listed⟩
    obtain ⟨l,_,assigned⟩ := listed trivial
    exact ⟨sound',by rw [assigned,List.getElem?_set_ne spares]⟩
  | edit this e =>
    obtain ⟨v,found,within⟩ := allowed
    apply (edit_refines sound found within).mono
    rintro next ⟨sound',l,same,_⟩
    exact ⟨sound',by rw [same,List.getElem?_set_ne spares]⟩

def SortedOnce (cmp : α → α → Int) (h : Heap α) (v : VectorImpl) : Prop :=
  v.mCount < 2^31 → Strict cmp (items h v)

theorem step_sorted (order : TotalPreorder cmp) (standing : Standing t cmp w) {action : Action α}
    (named : Named w action) :
    Safe (step t cmp w action) fun next => Sound t next ∧
      ∃ v, next.vectors[0]? = some v ∧ SortedOnce cmp next.heap v := by
  obtain ⟨v,found,strict⟩ := standing.strict
  cases action with
  | other op =>
    obtain ⟨allowed,spares⟩ := named
    have got := contents_get found
    apply (other_spares standing.sound allowed spares (List.getElem?_eq_some_iff.mp got).1).mono
    rintro next ⟨sound,same⟩
    rw [got] at same
    simp only [contents,List.getElem?_map,Option.map_eq_some_iff] at same
    obtain ⟨u,there,same⟩ := same
    exact ⟨sound,u,there,fun _ => same ▸ strict⟩
  | add item =>
    simp only [step]
    apply onSorted_safe (SortedOnce cmp) standing.sound found
    intro others fit _
    have small := fit.addressable standing.limited
    apply Safe.bind (add_safe order fit item)
    rintro ⟨next,w,status⟩ added
    refine ⟨added.fit,added.kept,fun _ => ?_⟩
    have adds := added.adds strict small
    simp only at adds
    rw [adds]
    exact addTo_strict order strict item
  | remove item =>
    simp only [step]
    apply onSorted_safe (SortedOnce cmp) standing.sound found
    intro others fit _
    apply Safe.bind (remove_safe order fit strict (fit.addressable standing.limited) item)
    rintro ⟨next,w,index⟩ ⟨fit',kept,removed,_⟩
    refine ⟨fit',kept,fun _ => ?_⟩
    simp only at removed
    rw [removed]
    exact removeFrom_strict strict item
  | merge rhs =>
    have source : w.vectors[rhs]? = some _ := List.getElem?_eq_getElem named
    simp only [step,source]
    apply onSorted_safe (SortedOnce cmp) standing.sound found
    intro others fit owned
    have merges : Safe (merge t cmp w.heap v (w.vectors.get ⟨rhs,named⟩)) fun result =>
        ∃ l, Merged t cmp others w.heap v l result.1 result.2.1 result.2.2 := by
      by_cases own : rhs = 0
      · subst own
        obtain rfl : w.vectors.get ⟨0,named⟩ = v := Option.some.inj (source.symm.trans found)
        apply (merge_self order fit strict (fit.addressable standing.limited)).mono
        exact fun result merged' => ⟨_,merged'⟩
      · have member := List.mem_of_getElem? source
        have bounded := (standing.sound.bounded _ member).1
        obtain ⟨before,after,whole,_⟩ := focus source
        obtain ⟨heap,vectors⟩ := w
        simp only at whole
        have length := (whole ▸ standing.sound : Sound t ⟨heap,_⟩).fit.length
        apply (merge_safe order fit (owned rhs _ own source) bounded length.symm).mono
        exact fun result merged' => ⟨_,merged'⟩
    apply Safe.bind merges
    rintro ⟨next,w,status⟩ ⟨l,merged'⟩
    refine ⟨merged'.fit,merged'.kept,fun small => ?_⟩
    have held := (merged'.merges strict small).2
    simp only at held
    rw [held]
    exact merged_strict order strict l

theorem onSorted_granted {f : Heap α → VectorImpl → Run (Heap α × VectorImpl)}
    (yields : ∀ v, Yields (f w.heap v) fun result => Granted result.1) :
    Yields (onSorted w f) fun next => Granted next.heap := by
  unfold onSorted
  split
  · exact yields_error
  · rename_i v _
    apply (yields v).bind
    rintro ⟨heap,changed⟩ granted
    exact yields_ok granted

theorem step_granted (granted : Granted w.heap) (action : Action α) :
    Yields (step t cmp w action) fun next => Granted next.heap := by
  cases action with
  | other op => exact Vectors.step_granted granted op
  | add item =>
    simp only [step]
    exact onSorted_granted fun v => withoutStatus_granted (add_granted granted item)
  | remove item =>
    simp only [step]
    apply onSorted_granted
    intro v
    apply (remove_granted granted item).bind
    rintro ⟨next,changed,index⟩ removed
    exact yields_ok removed
  | merge rhs =>
    simp only [step]
    split
    · exact yields_error
    · rename_i vector _
      exact onSorted_granted fun v => withoutStatus_granted (merge_granted granted vector)

theorem machine_step {action : Action α} (moved : machine t cmp w action = some next) :
    step t cmp w action = .ok next := by
  unfold machine at moved
  cases result : step t cmp w action with
  | ok value =>
    rw [result] at moved
    cases moved
    rfl
  | error stop =>
    rw [result] at moved
    cases moved

theorem step_standing (order : TotalPreorder cmp) (standing : Standing t cmp w) {action : Action α}
    (permitted : Permitted t cmp w action) (moved : machine t cmp w action = some next) :
    Standing t cmp next := by
  have ran := machine_step moved
  have limited := permitted.2 next ran
  obtain ⟨sound,v,found,sorted⟩ := (step_sorted order standing permitted.1).result ran
  refine ⟨sound,(step_granted standing.granted action).result ran,limited,v,found,sorted ?_⟩
  obtain ⟨heap,vectors⟩ := next
  obtain ⟨before,after,rfl,_⟩ := focus found
  exact sound.fit.addressable limited

theorem run_standing (order : TotalPreorder cmp) {actions : List (Action α)}
    (permitted : Obeys (machine t cmp) (Permitted t cmp) begun actions)
    (ran : run (machine t cmp) begun actions = some w) : Standing t cmp w :=
  obeys_invariant (Standing t cmp) (fun _ _ _ standing meets moved => step_standing order standing meets moved)
    begun_standing permitted ran

end Steps

structure OrderedSet {α : Type} (t : ItemType α) (cmp : α → α → Int) (h : Heap α) (v : VectorImpl) :
    Prop where
  strict : Strict cmp (items h v)
  indexOf : ∀ x, ∃ index, indexOf t cmp h v x = .ok index ∧
    (index.isSome ↔ ∃ y ∈ items h v, cmp y x = 0) ∧
    ∀ i, index = some i → ∃ y, (items h v)[i]? = some y ∧ cmp y x = 0
  orderOf : ∀ x, orderOf t cmp h v x = .ok ((items h v).countP (cmp · x < 0))
  add : ∀ x, (Room t (v.mCount+1) → ∃ result, add t cmp h v x = .ok result) ∧
    Safe (add t cmp h v x) fun result => Strict cmp (items result.1 result.2.1) ∧
      ∀ y, (items result.1 result.2.1).filter (cmp · y = 0) =
        if cmp x y = 0 then [x] else (items h v).filter (cmp · y = 0)
  remove : ∀ x,
    (Allocatable (kMinVectorCapacity*t.mItemSize) → ∃ result, remove t cmp h v x = .ok result) ∧
    Safe (remove t cmp h v x) fun result => Strict cmp (items result.1 result.2.1) ∧
      (∀ y, (items result.1 result.2.1).filter (cmp · y = 0) =
        if cmp x y = 0 then [] else (items h v).filter (cmp · y = 0)) ∧
      SortedVectorImpl.indexOf t cmp h v x = .ok result.2.2

section Reachable
variable {α : Type} {t : ItemType α} {cmp : α → α → Int} {others : Nat → Nat} {h : Heap α} {v : VectorImpl}

theorem ordered_set (order : TotalPreorder cmp) (fit : Fit t others h v) (granted : Granted h)
    (strict : Strict cmp (items h v)) (small : v.mCount < 2^31) : OrderedSet t cmp h v := by
  have safe_add := add_safe order fit
  have safe_remove := remove_safe order fit strict small
  constructor
  · exact strict
  · intro x
    obtain ⟨index,place,found,searched⟩ := indexOrderOf_eq order fit x
    refine ⟨index,?_,(searched.located strict small).index⟩
    simp only [indexOf,found,ok_bind]
    rfl
  · intro x
    obtain ⟨index,place,found,searched⟩ := indexOrderOf_eq order fit x
    have within := searched.within
    rw [← (searched.located strict small).place (by rwa [fit.length])]
    simp only [orderOf,found,ok_bind]
    rfl
  · intro x
    constructor
    · intro room
      obtain ⟨result,ran,_⟩ := (safe_add x).done (add_finishes granted x room)
      exact ⟨result,ran⟩
    · apply (safe_add x).mono
      intro result added
      rw [added.adds strict small]
      exact ⟨addTo_strict order strict x,addTo_class order (items h v) x⟩
  · intro x
    constructor
    · intro least
      obtain ⟨result,ran,_⟩ := (safe_remove x).done (remove_finishes order fit granted least x)
      exact ⟨result,ran⟩
    · apply (safe_remove x).mono
      rintro result ⟨_,_,removed,index⟩
      rw [removed]
      exact ⟨removeFrom_strict strict x,removeFrom_class order (items h v) x,index⟩

theorem sorted_vector_ordered_set (t : ItemType α) (order : TotalPreorder cmp)
    {actions : List (Action α)} {w : World α}
    (permitted : Obeys (machine t cmp) (Permitted t cmp) begun actions)
    (ran : run (machine t cmp) begun actions = some w) :
    ∃ v, w.vectors[0]? = some v ∧ OrderedSet t cmp w.heap v ∧
      ∀ action, Named w action → step t cmp w action ≠ .error .fault := by
  have standing := run_standing order permitted ran
  obtain ⟨v,found,strict⟩ := standing.strict
  refine ⟨v,found,?_,fun action named => (step_sorted order standing named).no_fault⟩
  obtain ⟨heap,vectors⟩ := w
  obtain ⟨before,after,rfl,_⟩ := focus found
  have fit := standing.sound.fit
  exact ordered_set order fit standing.granted strict (fit.addressable standing.limited)

end Reachable

section Checks
variable {α : Type} {t : ItemType α} {cmp : α → α → Int}

instance (v : VectorImpl) : (e : Edit α) → Decidable (e.Within v)
  | .removeItemsAt _ _ => inferInstanceAs (Decidable (_ ≤ _))
  | .insertArrayAt _ _ => .isTrue trivial
  | .appendArray _ => .isTrue trivial
  | .insertAt _ _ _ => .isTrue trivial
  | .replaceAt _ _ => .isTrue trivial
  | .setCapacity _ => .isTrue trivial
  | .resize _ => .isTrue trivial
  | .clear => .isTrue trivial
  | .finish_vector => .isTrue trivial

instance (w : World α) : (op : Op α) → Decidable (Allowed w op)
  | .construct => .isTrue trivial
  | .copy _ => inferInstanceAs (Decidable (_ < _))
  | .assign _ _ => inferInstanceAs (Decidable (_ ∧ _))
  | .edit this e =>
    match found : w.vectors[this]? with
    | none => .isFalse fun ⟨_,there,_⟩ => nomatch found.symm.trans there
    | some v => decidable_of_iff (e.Within v)
      ⟨fun within => ⟨v,found,within⟩,fun ⟨_,there,within⟩ =>
        Option.some.inj (found.symm.trans there) ▸ within⟩

instance : (op : Op α) → Decidable (Spares op)
  | .construct => .isTrue trivial
  | .copy _ => .isTrue trivial
  | .assign _ _ => inferInstanceAs (Decidable (_ ≠ _))
  | .edit _ _ => inferInstanceAs (Decidable (_ ≠ _))

instance (w : World α) : (action : Action α) → Decidable (Named w action)
  | .other _ => inferInstanceAs (Decidable (_ ∧ _))
  | .add _ => .isTrue trivial
  | .remove _ => .isTrue trivial
  | .merge _ => inferInstanceAs (Decidable (_ < _))

def addressable (h : Heap α) : Bool :=
  (List.range h.next).all fun sb => (h.buffers sb).all fun b => b.mSize ≤ PTRDIFF_MAX

theorem addressable_of {refs : Nat → Nat} {h : Heap α} (counted : Counted h refs)
    (checked : addressable h = true) : Addressable h := by
  intro sb b present
  have one := List.all_eq_true.mp checked sb (List.mem_range.mpr (counted.old sb b present))
  rw [present] at one
  exact of_decide_eq_true one

def permittedRun (t : ItemType α) (cmp : α → α → Int) : World α → List (Action α) → Bool
  | _,[] => true
  | w,action :: rest => decide (Named w action) &&
    match machine t cmp w action with
    | none => true
    | some next => addressable next.heap && permittedRun t cmp next rest

theorem permittedRun_obeys (order : TotalPreorder cmp) {actions : List (Action α)} {w : World α}
    (standing : Standing t cmp w) (checked : permittedRun t cmp w actions = true) :
    Obeys (machine t cmp) (Permitted t cmp) w actions := by
  induction actions generalizing w with
  | nil => trivial
  | cons action rest ih =>
    obtain ⟨named,later⟩ := (Bool.and_eq_true _ _).mp checked
    have named := of_decide_eq_true named
    have permitted : Permitted t cmp w action := by
      refine ⟨named,fun next ran => ?_⟩
      have sound := ((step_sorted order standing named).result ran).1
      have moved : machine t cmp w action = some next := by rw [machine,ran]; rfl
      rw [moved] at later
      exact addressable_of sound.counted ((Bool.and_eq_true _ _).mp later).1
    refine ⟨permitted,fun next moved => ?_⟩
    rw [moved] at later
    exact ih (step_standing order standing permitted moved) ((Bool.and_eq_true _ _).mp later).2

end Checks

def byTensProgram : List (Action Nat) :=
  [.other .construct,.other (.edit 1 (.appendArray [31,12,25])),.add 21,.add 14,.add 25,.merge 1,
    .remove 10]

theorem byTensProgram_eq : permittedRun words byTens begun byTensProgram = true ∧
    (run (machine words byTens) begun byTensProgram).map contents = some [[25,31],[31,12,25]] := by
  decide +kernel

theorem sorted_vector_ordered_set_merged :
    ∃ w v, run (machine words byTens) begun byTensProgram = some w ∧ w.vectors[0]? = some v ∧
      contents w = [[25,31],[31,12,25]] ∧ OrderedSet words byTens w.heap v := by
  obtain ⟨checked,computed⟩ := byTensProgram_eq
  obtain ⟨w,ran,left⟩ := Option.map_eq_some_iff.mp computed
  have permitted := permittedRun_obeys byTens_order begun_standing checked
  obtain ⟨v,found,set,_⟩ := sorted_vector_ordered_set words byTens_order permitted ran
  exact ⟨w,v,ran,found,left,set⟩

end SemcMsm7x30.Vectors.SortedVectorImpl
