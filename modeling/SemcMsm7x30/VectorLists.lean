import SemcMsm7x30.ItemMoves
import SemcMsm7x30.PartialMachine
import SemcMsm7x30.VectorSpecs

namespace SemcMsm7x30.Vectors
open RawMemory PartialMachine

inductive Edit (α : Type) where
  | insertArrayAt (array : List α) (index : Nat)
  | appendArray (array : List α)
  | insertAt (item : Option α) (index numItems : Nat)
  | replaceAt (prototype : Option α) (index : Nat)
  | removeItemsAt (index count : Nat)
  | setCapacity (new_capacity : Nat)
  | resize (size : Nat)
  | clear
  | finish_vector

section Editing
variable {α : Type} (t : ItemType α)

def withoutStatus (result : Run (Heap α × VectorImpl × Status)) : Run (Heap α × VectorImpl) := do
  let (h,this,_) ← result
  pure (h,this)

def edit (h : Heap α) (this : VectorImpl) : Edit α → Run (Heap α × VectorImpl)
  | .insertArrayAt array index => withoutStatus (insertArrayAt t h this array index)
  | .appendArray array => withoutStatus (appendArray t h this array)
  | .insertAt item index numItems => withoutStatus (insertAt t h this item index numItems)
  | .replaceAt prototype index => withoutStatus (replaceAt t h this prototype index)
  | .removeItemsAt index count => withoutStatus (removeItemsAt t h this index count)
  | .setCapacity new_capacity => withoutStatus (setCapacity t h this new_capacity)
  | .resize size => withoutStatus (resize t h this size)
  | .clear => clear t h this
  | .finish_vector => finish_vector t h this

-- `num` items made from a given one, or by the constructor: a trivial one leaves
-- them unspecified.
def Made (item : Option α) (num : Nat) (values : List α) : Prop :=
  match item with
  | some item => values = List.replicate num item
  | none => values.length = num ∧
    (t.HAS_TRIVIAL_CTOR = false → values = List.replicate num t.constructed)

def ListEdit : Edit α → List α → List α → Prop
  | .insertArrayAt array index,l,l' =>
    l' = if index ≤ l.length then l.take index ++ array ++ l.drop index else l
  | .appendArray array,l,l' => l' = l ++ array
  | .insertAt item index numItems,l,l' =>
    if index ≤ l.length then
      ∃ values, Made t item numItems values ∧ l' = l.take index ++ values ++ l.drop index
    else l' = l
  | .replaceAt prototype index,l,l' =>
    if index < l.length then ∃ value, Made t prototype 1 [value] ∧ l' = l.set index value
    else l' = l
  | .removeItemsAt index count,l,l' => l' = l.take index ++ l.drop (index+count)
  | .setCapacity _,l,l' => l' = l
  | .resize size,l,l' =>
    if size ≤ l.length then l' = l.take size
    else ∃ values, Made t none (size-l.length) values ∧ l' = l ++ values
  | .clear,_,l' => l' = []
  | .finish_vector,_,l' => l' = []

end Editing

section Edits
variable {α : Type} {t : ItemType α} {others : Nat → Nat} {h : Heap α} {v : VectorImpl}

def Leaves (t : ItemType α) (others : Nat → Nat) (h : Heap α) (accepts : List α → Prop)
    (run : Run (Heap α × VectorImpl)) : Prop :=
  Safe run fun result => Fit t others result.1 result.2 ∧ Kept others h result.1 ∧
    accepts (items result.1 result.2)

theorem withoutStatus_leaves {run : Run (Heap α × VectorImpl × Status)} {accepts : List α → Prop}
    (safe : Safe run fun result => Fit t others result.1 result.2.1 ∧ Kept others h result.1 ∧
      accepts (items result.1 result.2.1)) :
    Leaves t others h accepts (withoutStatus run) := by
  apply Safe.bind safe
  rintro ⟨next,w,status⟩ holds
  exact holds

theorem Leaves.always {run : Run (Heap α × VectorImpl)} {accepts : List α → Prop} {asked : Prop}
    (leaves : Leaves t others h accepts run) : Leaves t others h (fun l => asked → accepts l) run :=
  leaves.mono fun _ ⟨fit,kept,accepted⟩ => ⟨fit,kept,fun _ => accepted⟩

theorem write_became (fit : Fit t others h v) (alone : Alone others v) {sb : Nat}
    (storage : v.mStorage = some sb) {start : Nat} {values : List α}
    (within : start+values.length ≤ v.mCount) :
    Safe (writeItems t h sb start values) fun next =>
      Became t others h ((items h v).take start ++ values ++ (items h v).drop (start+values.length))
        next v := by
  obtain ⟨b,found,bounded⟩ := fit.found storage
  rw [writeItems_eq found ((Nat.mul_le_mul_right _ within).trans bounded)]
  have kept := put_became fit alone storage found (blit b.data start values) bounded
  rw [slice_blit_inside _ within,← items_some storage found] at kept
  exact kept

theorem splatOrConstruct_safe (fit : Fit t others h v) (alone : Alone others v) {sb : Nat}
    (storage : v.mStorage = some sb) {start num : Nat} (item : Option α)
    (within : start+num ≤ v.mCount) :
    Safe (splatOrConstruct t h sb start item num) fun next => ∃ values, Made t item num values ∧
      Became t others h ((items h v).take start ++ values ++ (items h v).drop (start+num))
        next v := by
  have replicated (value : α) : Safe (writeItems t h sb start (List.replicate num value)) fun next =>
      Became t others h ((items h v).take start ++ List.replicate num value ++
        (items h v).drop (start+num)) next v := by
    have inside : start+(List.replicate num value).length ≤ v.mCount := by
      rwa [List.length_replicate]
    have written := write_became fit alone storage inside
    rwa [List.length_replicate] at written
  cases item with
  | some value =>
    apply (replicated value).mono
    intro next became
    exact ⟨_,rfl,became⟩
  | none =>
    change Safe (_do_construct t h sb start num) _
    unfold _do_construct
    apply safe_ite
    · intro trivially
      have length := fit.length
      refine ⟨((items h v).drop start).take num,⟨?_,by simp [trivially]⟩,fit,kept_refl others h,
        alone,?_⟩
      · rw [List.length_take,List.length_drop]
        omega
      · rw [List.append_assoc,← List.drop_drop,List.take_append_drop,List.take_append_drop]
    · intro _
      apply (replicated t.constructed).mono
      intro next became
      exact ⟨_,⟨List.length_replicate,fun _ => rfl⟩,became⟩

theorem splice_opened (l middle values back : List α) {place : Nat} (within : place ≤ l.length) :
    (l.take place ++ middle ++ back).take place ++ values ++
        (l.take place ++ middle ++ back).drop (place+middle.length) =
      l.take place ++ values ++ back := by
  have front : (l.take place).length = place := by
    rw [List.length_take]
    omega
  have both : (l.take place ++ middle).length = place+middle.length := by
    rw [List.length_append,front]
  rw [List.append_assoc (l.take place) middle,List.take_left' front,← List.append_assoc,
    List.drop_left' both]

theorem insertWith_safe (fit : Fit t others h v) {index amount : Nat}
    {fill : Heap α → Nat → Run (Heap α)} {accepts : List α → Prop} (none : amount = 0 → accepts [])
    (fills : ∀ next w sb, Kept others h next → Fit t others next w → Alone others w →
      w.mStorage = some sb → index+amount ≤ w.mCount → Safe (fill next sb) fun last => ∃ values, accepts values ∧
        Became t others next ((items next w).take index ++ values ++
          (items next w).drop (index+amount)) last w) :
    Safe (insertWith t h v index amount fill) fun result =>
      Fit t others result.1 result.2.1 ∧ Kept others h result.1 ∧
        if index ≤ (items h v).length then ∃ values, accepts values ∧
          items result.1 result.2.1 =
            (items h v).take index ++ values ++ lifted t amount ((items h v).drop index)
        else items result.1 result.2.1 = items h v := by
  have length := fit.length
  unfold insertWith
  apply safe_ite
  · intro outside
    refine ⟨fit,kept_refl others h,?_⟩
    rw [if_neg (by omega)]
  · intro inside
    apply Safe.bind (grow_safe fit amount (by omega))
    rintro ⟨next,w,location⟩ ⟨⟨middle,size,became⟩,count,found⟩
    simp only at became count found ⊢
    obtain ⟨rfl,zero⟩ | ⟨sb,rfl,storage⟩ := found
    · have empty : middle = [] := List.eq_nil_of_length_eq_zero (size.trans zero)
      refine ⟨became.fit,became.kept,?_⟩
      rw [if_pos (by omega)]
      exact ⟨[],none zero,by rw [became.items,empty]⟩
    · apply Safe.bind (fills next w sb became.kept became.fit became.alone storage (by omega))
      rintro last ⟨values,accepted,written⟩
      refine ⟨written.fit,became.kept.trans written.kept,?_⟩
      rw [if_pos (by omega)]
      refine ⟨values,accepted,?_⟩
      rw [written.items,became.items,← size,splice_opened _ _ _ _ (by omega)]

-- An operation for no items moves those behind its place onto themselves, unless it
-- copies them to a smaller storage: what is left of them is up to their type.
def Edit.Moves (t : ItemType α) (h : Heap α) (v : VectorImpl) : Edit α → Prop
  | .insertArrayAt array index =>
    array = [] → t.do_move_forward 0 ((items h v).drop index) = (items h v).drop index
  | .insertAt _ index numItems =>
    numItems = 0 → t.do_move_forward 0 ((items h v).drop index) = (items h v).drop index
  | .removeItemsAt index count =>
    count = 0 → ¬Roomy t h v v.mCount →
      t.do_move_backward 0 ((items h v).drop index) = (items h v).drop index
  | _ => True

theorem lifted_same {amount : Nat} {rest : List α} (moves : amount = 0 → t.do_move_forward 0 rest = rest) :
    lifted t amount rest = rest := by
  unfold lifted
  split
  · rename_i none
    exact moves none
  · rfl

theorem insertArrayAt_safe (fit : Fit t others h v) (array : List α) (index : Nat) :
    Safe (insertArrayAt t h v array index) fun result =>
      Fit t others result.1 result.2.1 ∧ Kept others h result.1 ∧
        (Edit.Moves t h v (.insertArrayAt array index) →
          ListEdit t (.insertArrayAt array index) (items h v) (items result.1 result.2.1)) := by
  have inserted : Safe (insertArrayAt t h v array index) fun result =>
      Fit t others result.1 result.2.1 ∧ Kept others h result.1 ∧
        if index ≤ (items h v).length then ∃ values, values = array ∧
          items result.1 result.2.1 =
            (items h v).take index ++ values ++ lifted t array.length ((items h v).drop index)
        else items result.1 result.2.1 = items h v := by
    apply insertWith_safe fit
    · intro none
      exact (List.eq_nil_of_length_eq_zero none).symm
    · intro next w sb _ fit' alone storage within
      apply (write_became fit' alone storage within).mono
      intro last became
      exact ⟨array,rfl,became⟩
  apply inserted.mono
  rintro result ⟨fit',kept,edited⟩
  refine ⟨fit',kept,fun moves => ?_⟩
  by_cases inside : index ≤ (items h v).length
  · rw [if_pos inside,lifted_same fun none => moves (List.eq_nil_of_length_eq_zero none)] at edited
    obtain ⟨values,rfl,same⟩ := edited
    rw [ListEdit,if_pos inside]
    exact same
  · rw [if_neg inside] at edited
    rw [ListEdit,if_neg inside]
    exact edited

theorem insertAt_safe (fit : Fit t others h v) (item : Option α) (index numItems : Nat) :
    Safe (insertAt t h v item index numItems) fun result =>
      Fit t others result.1 result.2.1 ∧ Kept others h result.1 ∧
        (Edit.Moves t h v (.insertAt item index numItems) →
          ListEdit t (.insertAt item index numItems) (items h v) (items result.1 result.2.1)) := by
  have inserted : Safe (insertAt t h v item index numItems) fun result =>
      Fit t others result.1 result.2.1 ∧ Kept others h result.1 ∧
        if index ≤ (items h v).length then ∃ values, Made t item numItems values ∧
          items result.1 result.2.1 =
            (items h v).take index ++ values ++ lifted t numItems ((items h v).drop index)
        else items result.1 result.2.1 = items h v := by
    apply insertWith_safe fit
    · rintro rfl
      cases item <;> simp [Made]
    · intro next w sb _ fit' alone storage within
      exact splatOrConstruct_safe fit' alone storage item within
  apply inserted.mono
  rintro result ⟨fit',kept,edited⟩
  refine ⟨fit',kept,fun moves => ?_⟩
  unfold ListEdit
  rwa [lifted_same moves] at edited

theorem destroy_became (fit : Fit t others h v) (alone : Alone others v) {sb : Nat}
    (storage : v.mStorage = some sb) {start num : Nat} (within : start+num ≤ v.mCount) :
    Safe (_do_destroy t h sb start num) fun next => ∃ left, left.length = num ∧
      Became t others h ((items h v).take start ++ left ++ (items h v).drop (start+num)) next v := by
  unfold _do_destroy
  apply safe_ite
  · intro _
    have length := fit.length
    refine ⟨((items h v).drop start).take num,?_,fit,kept_refl others h,alone,?_⟩
    · rw [List.length_take,List.length_drop]
      omega
    · rw [List.append_assoc,← List.drop_drop,List.take_append_drop,List.take_append_drop]
  · intro _
    have inside : start+(slice (t.garbage sb) start num).length ≤ v.mCount := by
      rwa [slice_length]
    have written := write_became fit alone storage inside
    rw [slice_length] at written
    apply written.mono
    intro next became
    exact ⟨_,slice_length _ _ _,became⟩

theorem editItemLocation_safe (fit : Fit t others h v) {index : Nat} (within : index < v.mCount) :
    Safe (editItemLocation t h v index) fun result =>
      Became t others h (items h v) result.1 result.2.1 ∧ result.2.1.mCount = v.mCount ∧
        ∃ sb, result.2.2 = some sb ∧ result.2.1.mStorage = some sb := by
  have room : index < bytes h v/t.mItemSize :=
    lt_of_lt_of_le within ((Nat.le_div_iff_mul_le t.positive).mpr fit.bounded)
  simp only [editItemLocation,capacity_eq fit,ok_bind,if_pos room]
  apply Safe.bind (editArrayImpl_safe fit)
  rintro ⟨next,w⟩ ⟨became,count,_⟩
  simp only at became count
  refine ⟨became,count,?_⟩
  cases storage : w.mStorage with
  | some sb => exact ⟨sb,rfl,rfl⟩
  | none =>
    have empty := became.fit.empty storage
    omega

theorem splice_one (l : List α) (left value : α) {index : Nat} (within : index < l.length) :
    (l.take index ++ [left] ++ l.drop (index+1)).take index ++ [value] ++
        (l.take index ++ [left] ++ l.drop (index+1)).drop (index+1) = l.set index value := by
  have front : (l.take index).length = index := by
    rw [List.length_take]
    omega
  have both : (l.take index ++ [left]).length = index+1 := by
    rw [List.length_append,front,List.length_singleton]
  rw [List.append_assoc (l.take index) [left],List.take_left' front,← List.append_assoc,
    List.drop_left' both,List.set_eq_take_append_cons_drop,if_pos within,List.append_assoc,
    List.singleton_append]

theorem replaceAt_safe (fit : Fit t others h v) (prototype : Option α) (index : Nat) :
    Safe (replaceAt t h v prototype index) fun result =>
      Fit t others result.1 result.2.1 ∧ Kept others h result.1 ∧
        ListEdit t (.replaceAt prototype index) (items h v) (items result.1 result.2.1) := by
  have length := fit.length
  unfold replaceAt
  apply safe_ite
  · intro outside
    refine ⟨fit,kept_refl others h,?_⟩
    rw [ListEdit,if_neg (by omega)]
  · intro inside
    apply Safe.bind (editItemLocation_safe fit (by omega : index < v.mCount))
    rintro ⟨next,w,location⟩ ⟨became,count,sb,rfl,storage⟩
    simp only at became count storage ⊢
    have slot : index+1 ≤ w.mCount := by omega
    apply Safe.bind (destroy_became became.fit became.alone storage slot)
    rintro cleared ⟨left,one,destroyed⟩
    apply Safe.bind (splatOrConstruct_safe destroyed.fit destroyed.alone storage prototype slot)
    rintro last ⟨values,made,written⟩
    refine ⟨written.fit,became.kept.trans (destroyed.kept.trans written.kept),?_⟩
    rw [ListEdit,if_pos (by omega)]
    have single : values.length = 1 := by
      cases prototype with
      | some item =>
        rw [show values = List.replicate 1 item from made]
        rfl
      | none => exact made.1
    obtain ⟨value,rfl⟩ := List.length_eq_one_iff.mp single
    obtain ⟨junk,rfl⟩ := List.length_eq_one_iff.mp one
    refine ⟨value,made,?_⟩
    rw [written.items,destroyed.items,became.items,splice_one _ _ _ (by omega)]

theorem remaining_same {index count : Nat} (moves : Edit.Moves t h v (.removeItemsAt index count)) :
    remaining t h v count ((items h v).drop (index+count)) = (items h v).drop (index+count) := by
  unfold remaining lowered
  split
  · rfl
  · rename_i tight
    split
    · rename_i none
      subst none
      exact moves rfl tight
    · rfl

theorem removeItemsAt_safe (fit : Fit t others h v) {index count : Nat}
    (within : index+count ≤ v.mCount) :
    Safe (removeItemsAt t h v index count) fun result =>
      Fit t others result.1 result.2.1 ∧ Kept others h result.1 ∧
        (Edit.Moves t h v (.removeItemsAt index count) →
          items result.1 result.2.1 = (items h v).take index ++ (items h v).drop (index+count)) := by
  unfold removeItemsAt
  have sum : (index+count)%2^32 ≤ v.mCount := (Nat.mod_le _ _).trans within
  rw [if_neg (by omega)]
  apply Safe.bind (shrink_safe fit within)
  rintro ⟨next,w⟩ ⟨fit',kept,shrunk⟩
  refine ⟨fit',kept,fun moves => ?_⟩
  rw [shrunk,remaining_same moves]

theorem resize_safe (fit : Fit t others h v) (size : Nat) :
    Safe (resize t h v size) fun result =>
      Fit t others result.1 result.2.1 ∧ Kept others h result.1 ∧
        ListEdit t (.resize size) (items h v) (items result.1 result.2.1) := by
  have length := fit.length
  unfold resize
  apply safe_ite
  · intro larger
    apply Safe.bind (insertAt_safe fit none v.mCount (size-v.mCount))
    rintro ⟨next,w,status⟩ ⟨fit',kept,inserted⟩
    have inserted := inserted fun none => by omega
    simp only [ListEdit] at inserted
    rw [if_pos (by omega),← length,List.take_length,List.drop_length] at inserted
    obtain ⟨values,made,same⟩ := inserted
    have grown : ListEdit t (.resize size) (items h v) (items next w) := by
      rw [ListEdit,if_neg (by omega)]
      exact ⟨values,made,by rw [same,List.append_nil]⟩
    cases status <;> exact ⟨fit',kept,grown⟩
  · intro _
    apply safe_ite
    · intro smaller
      apply Safe.bind (removeItemsAt_safe fit (by omega : size+(v.mCount-size) ≤ v.mCount))
      rintro ⟨next,w,status⟩ ⟨fit',kept,removed⟩
      have removed := removed fun none => by omega
      have cut : ListEdit t (.resize size) (items h v) (items next w) := by
        rw [ListEdit,if_pos (by omega)]
        simp only at removed
        rw [removed,List.drop_eq_nil_of_le (by omega),List.append_nil]
      cases status <;> exact ⟨fit',kept,cut⟩
    · intro same
      refine ⟨fit,kept_refl others h,?_⟩
      have whole : (items h v).take size = items h v := List.take_of_length_le (by omega)
      rw [ListEdit,if_pos (by omega)]
      exact whole.symm

theorem finish_vector_safe (fit : Fit t others h v) :
    Leaves t others h (ListEdit t .finish_vector (items h v)) (finish_vector t h v) := by
  apply Safe.bind (release_storage_safe fit.counted fit.bounded)
  rintro next ⟨counted,kept⟩
  have empty : bytes next ⟨none,0⟩ = 0 := rfl
  exact ⟨⟨by rwa [plus_none],by simp,by simp [empty]⟩,kept,rfl⟩

def Edit.Within (v : VectorImpl) : Edit α → Prop
  | .removeItemsAt index count => index+count ≤ v.mCount
  | _ => True

theorem edit_safe (fit : Fit t others h v) {e : Edit α} (within : e.Within v) :
    Leaves t others h (fun l => e.Moves t h v → ListEdit t e (items h v) l) (edit t h v e) := by
  cases e with
  | insertArrayAt array index => exact withoutStatus_leaves (insertArrayAt_safe fit array index)
  | appendArray array =>
    apply withoutStatus_leaves
    apply (insertArrayAt_safe fit array v.mCount).mono
    rintro result ⟨fit',kept,inserted⟩
    refine ⟨fit',kept,fun _ => ?_⟩
    have last : (items h v).drop v.mCount = [] := List.drop_eq_nil_of_le fit.length.le
    have inserted := inserted fun _ => by
      rw [last]
      exact List.eq_nil_of_length_eq_zero (t.forward_length 0 [])
    simp only [ListEdit] at inserted ⊢
    rw [if_pos fit.length.ge,← fit.length,List.take_length,List.drop_length,List.append_nil]
      at inserted
    exact inserted
  | insertAt item index numItems => exact withoutStatus_leaves (insertAt_safe fit item index numItems)
  | replaceAt prototype index =>
    exact (withoutStatus_leaves (replaceAt_safe fit prototype index)).always
  | removeItemsAt index count => exact withoutStatus_leaves (removeItemsAt_safe fit within)
  | setCapacity new_capacity =>
    exact (withoutStatus_leaves (setCapacity_safe fit new_capacity)).always
  | resize size => exact (withoutStatus_leaves (resize_safe fit size)).always
  | clear =>
    apply (shrink_safe fit (Nat.zero_add v.mCount).le).mono
    rintro result ⟨fit',kept,shrunk⟩
    refine ⟨fit',kept,fun _ => ?_⟩
    rw [shrunk,Nat.zero_add,← fit.length,List.drop_length,remaining_nil]
    rfl
  | finish_vector => exact (finish_vector_safe fit).always

end Edits

structure World (α : Type) where
  heap : Heap α
  vectors : List VectorImpl

def World.initial {α : Type} : World α := ⟨Heap.empty,[]⟩

inductive Op (α : Type) where
  | construct
  | copy (rhs : Nat)
  | assign (this rhs : Nat)
  | edit (this : Nat) (e : Edit α)

section Programs
variable {α : Type} (t : ItemType α)

def step (w : World α) : Op α → Run (World α)
  | .construct => .ok {w with vectors := w.vectors ++ [⟨none,0⟩]}
  | .copy rhs =>
    match w.vectors[rhs]? with
    | none => .error .fault
    | some v => do
      let (heap,copy) ← copied w.heap v
      pure ⟨heap,w.vectors ++ [copy]⟩
  | .assign this rhs =>
    match w.vectors[this]?,w.vectors[rhs]? with
    | some v,some other =>
      if this = rhs then pure w
      else do
        let (heap,changed) ← assigned t w.heap v other
        pure ⟨heap,w.vectors.set this changed⟩
    | _,_ => .error .fault
  | .edit this e =>
    match w.vectors[this]? with
    | none => .error .fault
    | some v => do
      let (heap,changed) ← edit t w.heap v e
      pure ⟨heap,w.vectors.set this changed⟩

def machine (w : World α) (op : Op α) : Option (World α) := (step t w op).toOption

def Allowed (w : World α) : Op α → Prop
  | .construct => True
  | .copy rhs => rhs < w.vectors.length
  | .assign this rhs => this < w.vectors.length ∧ rhs < w.vectors.length
  | .edit this e => ∃ v, w.vectors[this]? = some v ∧ e.Within v

-- What an operation asks of the moves of the item type.
def Moves (w : World α) : Op α → Prop
  | .edit this e => ∀ v, w.vectors[this]? = some v → e.Moves t w.heap v
  | _ => True

def contents (w : World α) : List (List α) := w.vectors.map (items w.heap)

def ListStep : Op α → List (List α) → List (List α) → Prop
  | .construct,ls,ls' => ls' = ls ++ [[]]
  | .copy rhs,ls,ls' => ∃ l, ls[rhs]? = some l ∧ ls' = ls ++ [l]
  | .assign this rhs,ls,ls' => ∃ l, ls[rhs]? = some l ∧ ls' = ls.set this l
  | .edit this e,ls,ls' => ∃ l l', ls[this]? = some l ∧ ListEdit t e l l' ∧ ls' = ls.set this l'

def ListRun : List (Op α) → List (List α) → List (List α) → Prop
  | [],ls,ls' => ls' = ls
  | op :: rest,ls,ls' => ∃ middle, ListStep t op ls middle ∧ ListRun rest middle ls'

def owners (vectors : List VectorImpl) (sb : Nat) : Nat := vectors.countP (·.mStorage = some sb)

end Programs

section Refinement
variable {α : Type} {t : ItemType α} {w next : World α}

structure Sound (t : ItemType α) (w : World α) : Prop where
  counted : Counted w.heap (owners w.vectors)
  bounded : ∀ v ∈ w.vectors, v.mCount*t.mItemSize ≤ bytes w.heap v ∧ bytes w.heap v < 2^32

theorem owners_focus (before after : List VectorImpl) (v : VectorImpl) :
    owners (before ++ v :: after) = plus (owners (before ++ after)) v.mStorage := by
  funext sb
  simp only [owners,plus,List.countP_append,List.countP_cons,decide_eq_true_eq]
  omega

theorem owners_positive {vectors : List VectorImpl} {v : VectorImpl} (member : v ∈ vectors) {sb : Nat}
    (storage : v.mStorage = some sb) : 0 < owners vectors sb :=
  List.countP_pos_iff.mpr ⟨v,member,by simpa using storage⟩

theorem focus {vectors : List VectorImpl} {this : Nat} {v : VectorImpl}
    (found : vectors[this]? = some v) :
    ∃ before after, vectors = before ++ v :: after ∧ before.length = this := by
  obtain ⟨within,same⟩ := List.getElem?_eq_some_iff.mp found
  refine ⟨vectors.take this,vectors.drop (this+1),?_,?_⟩
  · rw [← same,List.getElem_cons_drop within,List.take_append_drop]
  · rw [List.length_take]
    omega

theorem set_focus (before after : List VectorImpl) (v changed : VectorImpl) :
    (before ++ v :: after).set before.length changed = before ++ changed :: after := by
  rw [List.set_append_right _ _ le_rfl,Nat.sub_self,List.set_cons_zero]

theorem Sound.fit {before after : List VectorImpl} {v : VectorImpl} {heap : Heap α}
    (sound : Sound t ⟨heap,before ++ v :: after⟩) :
    Fit t (owners (before ++ after)) heap v := by
  have counted := sound.counted
  simp only [owners_focus] at counted
  obtain ⟨bounded,small⟩ := sound.bounded v (by simp)
  exact ⟨counted,bounded,small⟩

theorem focus_sound {before after : List VectorImpl} {v changed : VectorImpl} {heap later : Heap α}
    (sound : Sound t ⟨heap,before ++ v :: after⟩)
    (fit : Fit t (owners (before ++ after)) later changed)
    (kept : Kept (owners (before ++ after)) heap later) :
    Sound t ⟨later,before ++ changed :: after⟩ ∧
      contents ⟨later,before ++ changed :: after⟩ =
        (contents ⟨heap,before ++ v :: after⟩).set before.length (items later changed) := by
  have counted := sound.counted
  simp only [owners_focus] at counted
  have view (u : VectorImpl) (member : u ∈ before ++ after) :
      items later u = items heap u ∧ bytes later u = bytes heap u :=
    kept.view counted fun sb storage => owners_positive member storage
  constructor
  · constructor
    · simp only [owners_focus]
      exact fit.counted
    · intro u member
      by_cases other : u ∈ before ++ after
      · have old := sound.bounded u (by
          simp only [List.mem_append,List.mem_cons] at other ⊢
          tauto)
        rw [(view u other).2]
        exact old
      · have this : u = changed := by
          simp only [List.mem_append,List.mem_cons] at member other
          tauto
        rw [this]
        exact ⟨fit.bounded,fit.small⟩
  · have front : before.map (items later) = before.map (items heap) :=
      List.map_congr_left fun u member => (view u (List.mem_append_left _ member)).1
    have back : after.map (items later) = after.map (items heap) :=
      List.map_congr_left fun u member => (view u (List.mem_append_right _ member)).1
    simp only [contents,List.map_append,List.map_cons,front,back]
    rw [← List.length_map (items heap),List.set_append_right _ _ le_rfl,Nat.sub_self,
      List.set_cons_zero]

theorem contents_get {this : Nat} {v : VectorImpl} (found : w.vectors[this]? = some v) :
    (contents w)[this]? = some (items w.heap v) := by
  simp [contents,found]

theorem edit_refines (sound : Sound t w) {this : Nat} {e : Edit α} {v : VectorImpl}
    (found : w.vectors[this]? = some v) (within : e.Within v) :
    Safe (step t w (.edit this e)) fun next => Sound t next ∧
      ∃ l, contents next = (contents w).set this l ∧
        (e.Moves t w.heap v → ListEdit t e (items w.heap v) l) := by
  obtain ⟨heap,vectors⟩ := w
  obtain ⟨before,after,rfl,rfl⟩ := focus found
  simp only at found
  simp only [step,found]
  apply Safe.bind (edit_safe sound.fit within)
  rintro ⟨later,changed⟩ ⟨fit,kept,edited⟩
  obtain ⟨sound',same⟩ := focus_sound sound fit kept
  simp only [set_focus]
  exact ⟨sound',_,same,edited⟩

theorem construct_refines (sound : Sound t w) :
    Sound t ⟨w.heap,w.vectors ++ [⟨none,0⟩]⟩ ∧
      contents ⟨w.heap,w.vectors ++ [⟨none,0⟩]⟩ = contents w ++ [[]] := by
  constructor
  · constructor
    · simp only [owners_focus,List.append_nil,plus_none]
      exact sound.counted
    · intro v member
      obtain old | rfl := by simpa using member
      · exact sound.bounded v old
      · simp [bytes]
  · simp [contents,items]

theorem share_fit {others : Nat → Nat} {heap later : Heap α} {pointer : Option Nat} {v : VectorImpl}
    (counted : Counted heap (plus others pointer)) (kept : Kept others heap later)
    (owned : ∀ sb, v.mStorage = some sb → 0 < others sb)
    (bounded : v.mCount*t.mItemSize ≤ bytes heap v ∧ bytes heap v < 2^32)
    (recounted : Counted later (plus others v.mStorage)) :
    Fit t others later v ∧ items later v = items heap v := by
  obtain ⟨same,size⟩ := kept.view counted owned
  exact ⟨⟨recounted,by rw [size]; exact bounded.1,by rw [size]; exact bounded.2⟩,same⟩

theorem copy_refines (sound : Sound t w) {rhs : Nat} {v : VectorImpl}
    (found : w.vectors[rhs]? = some v) :
    Safe (step t w (.copy rhs)) fun next =>
      Sound t next ∧ ListStep t (.copy rhs) (contents w) (contents next) := by
  obtain ⟨heap,vectors⟩ := w
  have got := contents_get found
  have member : v ∈ vectors := List.mem_of_getElem? found
  obtain ⟨added,listed⟩ := construct_refines sound
  have copied' : Safe (copied heap v) fun result => result.2 = v ∧
      Counted result.1 (plus (owners vectors) v.mStorage) ∧ Kept (owners vectors) heap result.1 := by
    unfold copied
    cases storage : v.mStorage with
    | none =>
      rw [plus_none]
      exact ⟨rfl,sound.counted,kept_refl _ heap⟩
    | some sb =>
      apply Safe.bind (acquire_safe sound.counted (owners_positive member storage))
      intro later acquired
      exact ⟨rfl,acquired⟩
  simp only at found
  simp only [step,found]
  apply Safe.bind copied'
  rintro ⟨later,copy⟩ ⟨same,recounted,kept⟩
  simp only at same recounted kept
  subst same
  have counted : Counted heap (plus (owners vectors) none) := by
    rw [plus_none]
    exact sound.counted
  obtain ⟨fit,items'⟩ := share_fit counted kept (fun sb storage => owners_positive member storage)
    (sound.bounded copy member) recounted
  have nil : vectors ++ [] = vectors := List.append_nil vectors
  obtain ⟨sound',changed⟩ := focus_sound added (nil.symm ▸ fit) (nil.symm ▸ kept)
  refine ⟨sound',_,got,?_⟩
  have length : vectors.length = (contents ⟨heap,vectors⟩).length := by simp [contents]
  simp only at changed listed ⊢
  rw [changed,listed,items',length,List.set_append_right _ _ le_rfl,Nat.sub_self,List.set_cons_zero]

theorem items_empty {h : Heap α} {v : VectorImpl} (none : v.mCount = 0) : items h v = [] := by
  unfold items
  rw [none]
  cases v.mStorage.bind h.buffers <;> rfl

theorem assigned_safe {others : Nat → Nat} {h : Heap α} {v other : VectorImpl}
    (fit : Fit t others h v) (owned : ∀ sb, other.mStorage = some sb → 0 < others sb)
    (bounded : other.mCount*t.mItemSize ≤ bytes h other ∧ bytes h other < 2^32) :
    Safe (assigned t h v other) fun result =>
      Fit t others result.1 result.2 ∧ Kept others h result.1 ∧
        items result.1 result.2 = items h other := by
  unfold assigned
  apply Safe.bind (release_storage_safe fit.counted fit.bounded)
  rintro released ⟨counted,kept⟩
  apply safe_ite
  · intro some
    cases storage : other.mStorage with
    | none =>
      have empty : bytes h other = 0 := by simp [bytes,storage]
      have positive := Nat.mul_pos (Nat.pos_of_ne_zero some) t.positive
      omega
    | some sb =>
      apply Safe.bind (acquire_safe counted (owned sb storage))
      rintro later ⟨recounted,kept'⟩
      have both := kept.trans kept'
      rw [← storage] at recounted ⊢
      obtain ⟨fit',same⟩ := share_fit fit.counted both owned bounded recounted
      exact ⟨fit',both,same⟩
  · intro empty
    have none : other.mCount = 0 := by omega
    rw [← plus_none others] at counted
    have nothing : bytes released ⟨Option.none,0⟩ = 0 := rfl
    exact ⟨⟨counted,by simp,by simp [nothing]⟩,kept,(items_empty none).symm⟩

theorem mem_others {before after : List VectorImpl} {v other : VectorImpl} {rhs : Nat}
    (found : (before ++ v :: after)[rhs]? = some other) (different : before.length ≠ rhs) :
    other ∈ before ++ after := by
  by_cases front : rhs < before.length
  · rw [List.getElem?_append_left front] at found
    exact List.mem_append_left _ (List.mem_of_getElem? found)
  · obtain ⟨offset,rfl⟩ := Nat.exists_eq_add_of_lt (by omega : before.length < rhs)
    rw [List.getElem?_append_right (by omega)] at found
    have behind : before.length+offset+1-before.length = offset+1 := by omega
    rw [behind,List.getElem?_cons_succ] at found
    exact List.mem_append_right _ (List.mem_of_getElem? found)

theorem assign_refines (sound : Sound t w) {this rhs : Nat} {v other : VectorImpl}
    (found : w.vectors[this]? = some v) (source : w.vectors[rhs]? = some other) :
    Safe (step t w (.assign this rhs)) fun next =>
      Sound t next ∧ ListStep t (.assign this rhs) (contents w) (contents next) := by
  have got := contents_get source
  simp only [step,found,source]
  apply safe_ite
  · intro same
    subst same
    refine ⟨sound,_,got,?_⟩
    obtain ⟨within,exactly⟩ := List.getElem?_eq_some_iff.mp got
    rw [← exactly,List.set_getElem_self]
  · intro different
    obtain ⟨heap,vectors⟩ := w
    obtain ⟨before,after,rfl,rfl⟩ := focus found
    have member := mem_others source different
    have listed := List.mem_of_getElem? source
    apply Safe.bind (assigned_safe sound.fit (fun sb storage => owners_positive member storage)
      (sound.bounded other listed))
    rintro ⟨later,changed⟩ ⟨fit,kept,copied⟩
    obtain ⟨sound',same⟩ := focus_sound sound fit kept
    simp only at copied
    simp only [set_focus]
    refine ⟨sound',_,got,?_⟩
    rw [same,copied]

theorem step_refines (sound : Sound t w) {op : Op α} (allowed : Allowed w op) :
    Safe (step t w op) fun next =>
      Sound t next ∧ (Moves t w op → ListStep t op (contents w) (contents next)) := by
  cases op with
  | construct =>
    obtain ⟨sound',listed⟩ := construct_refines sound
    exact ⟨sound',fun _ => listed⟩
  | copy rhs =>
    apply (copy_refines sound (List.getElem?_eq_getElem allowed)).mono
    rintro next ⟨sound',listed⟩
    exact ⟨sound',fun _ => listed⟩
  | assign this rhs =>
    apply (assign_refines sound (List.getElem?_eq_getElem allowed.1)
      (List.getElem?_eq_getElem allowed.2)).mono
    rintro next ⟨sound',listed⟩
    exact ⟨sound',fun _ => listed⟩
  | edit this e =>
    obtain ⟨v,found,within⟩ := allowed
    apply (edit_refines sound found within).mono
    rintro next ⟨sound',l,same,edited⟩
    exact ⟨sound',fun moves => ⟨_,l,contents_get found,edited (moves v found),same⟩⟩

theorem initial_sound : Sound t (World.initial : World α) := by
  constructor
  · constructor <;> simp [World.initial,Heap.empty,owners]
  · simp [World.initial]

theorem machine_step {op : Op α} (moved : machine t w op = some next) :
    step t w op = .ok next := by
  unfold machine at moved
  cases result : step t w op with
  | ok value =>
    rw [result] at moved
    cases moved
    rfl
  | error stop =>
    rw [result] at moved
    cases moved

theorem run_refines {ops : List (Op α)} (sound : Sound t w) (allowed : Obeys (machine t) Allowed w ops)
    (ran : run (machine t) w ops = some next) :
    Sound t next ∧
      (Obeys (machine t) (Moves t) w ops → ListRun t ops (contents w) (contents next)) := by
  induction ops generalizing w with
  | nil =>
    cases ran
    exact ⟨sound,fun _ => rfl⟩
  | cons op rest ih =>
    obtain ⟨middle,moved,tail⟩ := run_cons ran
    obtain ⟨sound',listed⟩ := (step_refines sound allowed.1).result (machine_step moved)
    obtain ⟨final,rest'⟩ := ih sound' (allowed.2 middle moved) tail
    exact ⟨final,fun moves => ⟨contents middle,listed moves.1,rest' (moves.2 middle moved)⟩⟩

theorem vectors_are_lists (t : ItemType α) {ops : List (Op α)} {w : World α}
    (allowed : Obeys (machine t) Allowed World.initial ops)
    (ran : run (machine t) World.initial ops = some w) :
    (Obeys (machine t) (Moves t) World.initial ops → ListRun t ops [] (contents w)) ∧
    (∀ v ∈ w.vectors, ∃ cap, capacity t w.heap v = .ok cap ∧ v.mCount ≤ cap) ∧
    (∀ sb b, w.heap.buffers sb = some b → b.mRefs = owners w.vectors sb) ∧
    (∀ sb, w.heap.buffers sb = none ↔ owners w.vectors sb = 0) ∧
    w.heap.freed.Nodup ∧
    (∀ sb, sb ∈ w.heap.freed ↔ sb < w.heap.next ∧ owners w.vectors sb = 0) ∧
    ∀ op, Allowed w op → step t w op ≠ .error .fault := by
  obtain ⟨sound,listed⟩ := run_refines initial_sound allowed ran
  have absent (sb : Nat) : w.heap.buffers sb = none ↔ owners w.vectors sb = 0 := by
    constructor
    · exact sound.counted.dead sb
    · intro unowned
      cases found : w.heap.buffers sb with
      | none => rfl
      | some b =>
        have owned := (sound.counted.live sb b found).2
        omega
  refine ⟨listed,?_,fun sb b found => (sound.counted.live sb b found).1,absent,sound.counted.once,?_,
    fun op permitted => (step_refines sound permitted).no_fault⟩
  · intro v member
    obtain ⟨this,found⟩ := List.mem_iff_getElem?.mp member
    obtain ⟨heap,vectors⟩ := w
    obtain ⟨before,after,rfl,_⟩ := focus found
    exact ⟨_,capacity_eq sound.fit,
      (Nat.le_div_iff_mul_le t.positive).mpr (sound.bounded v member).1⟩
  · intro sb
    rw [sound.counted.gone,absent]

end Refinement

def words : ItemType Nat where
  mItemSize := 4
  positive := by decide
  HAS_TRIVIAL_CTOR := false
  HAS_TRIVIAL_DTOR := false
  HAS_TRIVIAL_COPY := false
  constructed := 0
  garbage _ _ := 0xdead
  do_move_forward := move_forward_type 0xdead
  do_move_backward := move_backward_type 0xdead
  forward_length := move_forward_length 0xdead
  backward_length := move_backward_length 0xdead
  moves_forward := move_forward_shifts 0xdead
  moves_backward := move_backward_shifts 0xdead

def twoVectors : List (Op Nat) :=
  [.construct,.edit 0 (.appendArray [1,2,3]),.copy 0,.edit 1 (.replaceAt (some 9) 0),
    .edit 0 (.removeItemsAt 0 2)]

theorem twoVectors_allowed : Obeys (machine words) Allowed World.initial twoVectors :=
  obeys_step rfl trivial (obeys_step rfl ⟨_,rfl,trivial⟩ (obeys_step rfl (Nat.lt_succ_self 0)
    (obeys_step rfl ⟨_,rfl,trivial⟩ (obeys_step rfl ⟨_,rfl,(by decide : 0+2 ≤ 3)⟩ trivial))))

theorem twoVectors_moves : Obeys (machine words) (Moves words) World.initial twoVectors := by
  refine obeys_step rfl trivial (obeys_step rfl ?_ (obeys_step rfl trivial (obeys_step rfl ?_
    (obeys_step rfl ?_ trivial))))
  · exact fun _ _ => trivial
  · exact fun _ _ => trivial
  · intro v _ none
    cases none

theorem vectors_are_lists_detached :
    ∃ w, run (machine words) World.initial twoVectors = some w ∧ contents w = [[3],[9,2,3]] ∧
      ListRun words twoVectors [] (contents w) ∧ ∀ v ∈ w.vectors, ∃ cap,
        capacity words w.heap v = .ok cap ∧ v.mCount ≤ cap := by
  refine ⟨_,rfl,rfl,?_⟩
  have holds := vectors_are_lists words twoVectors_allowed rfl
  exact ⟨holds.1 twoVectors_moves,holds.2.1⟩

-- No item inserted in front of three: they are copied onto themselves and destroyed.
def insertedNone : List (Op Nat) :=
  [.construct,.edit 0 (.appendArray [1,2,3]),.edit 0 (.insertArrayAt [] 0)]

theorem insertedNone_lists {ls : List (List Nat)} (ran : ListRun words insertedNone [] ls) :
    ls = [[1,2,3]] := by
  obtain ⟨_,rfl,_,⟨l,appended,found,edited,rfl⟩,_,⟨l',inserted,found',edited',rfl⟩,rfl⟩ := ran
  obtain rfl : [] = l := Option.some.inj found
  obtain rfl : appended = [1,2,3] := edited
  obtain rfl : [1,2,3] = l' := Option.some.inj found'
  obtain rfl : inserted = [1,2,3] := edited'
  rfl

theorem no_items_inserted :
    ∃ w, Obeys (machine words) Allowed World.initial insertedNone ∧
      run (machine words) World.initial insertedNone = some w ∧
      contents w = [[0xdead,0xdead,0xdead]] ∧ ¬ListRun words insertedNone [] (contents w) := by
  refine ⟨_,obeys_step rfl trivial (obeys_step rfl ⟨_,rfl,trivial⟩
    (obeys_step rfl ⟨_,rfl,trivial⟩ trivial)),rfl,rfl,?_⟩
  intro listed
  exact absurd (insertedNone_lists listed) (by decide)

end SemcMsm7x30.Vectors
