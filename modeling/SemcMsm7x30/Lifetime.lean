import SemcMsm7x30.RawMemory
import SemcMsm7x30.RefBase

namespace SemcMsm7x30.Lifetime
open RawMemory PartialMachine
open SemcMsm7x30.RefBase (INITIAL_STRONG_VALUE int32 int32_of_range)

def OBJECT_LIFETIME_STRONG : BitVec 32 := 0
def OBJECT_LIFETIME_WEAK : BitVec 32 := 1
def OBJECT_LIFETIME_MASK : BitVec 32 := 1

-- A RefBase and its weakref_impl; `destroyed` and `freed` say which of them were
-- deleted.
structure Object where
  mStrong : Int
  mWeak : Int
  mFlags : BitVec 32
  destroyed : Bool
  freed : Bool
  deriving DecidableEq, Repr

section Code

def useImpl (o : Object) : Run Unit := if o.freed then .error .fault else .ok ()
def useBase (o : Object) : Run Unit := if o.destroyed then .error .fault else .ok ()

def deleteImpl (o : Object) : Run Object := do
  useImpl o
  pure {o with freed := true}

def deleteBase (o : Object) : Run Object := do
  useBase o
  useImpl o
  let o := {o with destroyed := true}
  if o.mStrong = INITIAL_STRONG_VALUE then deleteImpl o
  else if o.mFlags &&& OBJECT_LIFETIME_MASK ≠ OBJECT_LIFETIME_STRONG then
    if o.mWeak = 0 then deleteImpl o else pure o
  else pure o

def extendObjectLifetime (o : Object) (mode : BitVec 32) : Object := {o with mFlags := o.mFlags ||| mode}

def incWeak (o : Object) : Run Object := do
  useImpl o
  pure {o with mWeak := int32 (o.mWeak+1)}

def decWeak (o : Object) : Run Object := do
  useImpl o
  let c := o.mWeak
  let o := {o with mWeak := int32 (c-1)}
  if c ≠ 1 then pure o
  else if o.mFlags &&& OBJECT_LIFETIME_WEAK = OBJECT_LIFETIME_STRONG then
    if o.mStrong = INITIAL_STRONG_VALUE then deleteBase o else deleteImpl o
  else do
    -- onLastWeakRef
    useBase o
    if o.mFlags &&& OBJECT_LIFETIME_MASK = OBJECT_LIFETIME_WEAK then deleteBase o else pure o

def createWeak (o : Object) : Run Object := do
  useBase o
  incWeak o

def incStrong (o : Object) : Run Object := do
  useBase o
  let o ← incWeak o
  let c := o.mStrong
  let o := {o with mStrong := int32 (c+1)}
  if c ≠ INITIAL_STRONG_VALUE then pure o
  else do
    -- onFirstRef
    useBase o
    pure {o with mStrong := int32 (o.mStrong-INITIAL_STRONG_VALUE)}

-- decStrong before its decWeak.
def dropStrong (o : Object) : Run Object := do
  useBase o
  useImpl o
  let c := o.mStrong
  let o := {o with mStrong := int32 (c-1)}
  if c = 1 then do
    -- onLastStrongRef
    useBase o
    if o.mFlags &&& OBJECT_LIFETIME_MASK = OBJECT_LIFETIME_STRONG then deleteBase o else pure o
  else pure o

def decStrong (o : Object) : Run Object := do
  let o ← dropStrong o
  decWeak o

def fixUp (o : Object) : Run (Object × Bool) :=
  let curCount := o.mStrong
  if INITIAL_STRONG_VALUE ≤ curCount then
    pure ({o with mStrong := int32 (curCount-INITIAL_STRONG_VALUE)},true)
  else pure (o,true)

def revived (o : Object) (curCount : Int) : Run (Object × Bool) := do
  -- onLastStrongRef
  if 0 < curCount ∧ curCount < INITIAL_STRONG_VALUE then useBase o else pure ()
  fixUp o

def refused (o : Object) : Run (Object × Bool) := do
  let o ← decWeak o
  pure (o,false)

-- No strong reference there at the moment; `answer` is what onIncStrongAttempted
-- says if it is asked.
def harderCase (o : Object) (curCount : Int) (answer : Bool) : Run (Object × Bool) :=
  let more := {o with mStrong := int32 (curCount+1)}
  if o.mFlags &&& OBJECT_LIFETIME_WEAK = OBJECT_LIFETIME_STRONG then
    if curCount ≤ 0 then refused o else revived more curCount
  else do
    useBase o
    if answer = false then refused o else revived more curCount

def attemptIncStrong (o : Object) (answer : Bool) : Run (Object × Bool) := do
  let o ← incWeak o
  let curCount := o.mStrong
  if 0 < curCount ∧ curCount ≠ INITIAL_STRONG_VALUE then
    fixUp {o with mStrong := int32 (curCount+1)}
  else harderCase o curCount answer

end Code

structure Clients where
  strong : Nat
  weak : Nat
  acquired : Bool
  taken : Bool
  deriving DecidableEq, Repr

def Clients.total (c : Clients) : Nat := c.strong+c.weak

structure System where
  object : Object
  clients : Clients
  deriving DecidableEq, Repr

def constructed (mode : BitVec 32) : System :=
  ⟨extendObjectLifetime ⟨INITIAL_STRONG_VALUE,0,0,false,false⟩ mode,⟨0,0,false,false⟩⟩

inductive Action where
  | createWeak
  | incWeak
  | decWeak
  | incStrong
  | decStrong
  | attemptIncStrong (answer : Bool)
  deriving DecidableEq, Repr

def call (o : Object) : Action → Run (Object × Bool)
  | .createWeak => do
    let o ← createWeak o
    pure (o,true)
  | .incWeak => do
    let o ← incWeak o
    pure (o,true)
  | .decWeak => do
    let o ← decWeak o
    pure (o,true)
  | .incStrong => do
    let o ← incStrong o
    pure (o,true)
  | .decStrong => do
    let o ← decStrong o
    pure (o,true)
  | .attemptIncStrong answer => attemptIncStrong o answer

def Clients.after (c : Clients) (done : Bool) : Action → Clients
  | .createWeak | .incWeak => {c with weak := c.weak+1,taken := true}
  | .decWeak => {c with weak := c.weak-1}
  | .incStrong => ⟨c.strong+1,c.weak,true,true⟩
  | .decStrong => {c with strong := c.strong-1}
  | .attemptIncStrong _ => if done then ⟨c.strong+1,c.weak,true,true⟩ else {c with taken := true}

def machine (s : System) (action : Action) : Option System :=
  match call s.object action with
  | .error _ => none
  | .ok (next,done) => some ⟨next,s.clients.after done action⟩

def Fair (s : System) : Action → Prop
  | .createWeak | .incStrong => s.object.destroyed = false
  | .incWeak | .attemptIncStrong _ => s.object.freed = false
  | .decWeak => 0 < s.clients.weak
  | .decStrong => 0 < s.clients.strong

def Room (s : System) : Action → Prop
  | .createWeak | .incWeak => s.clients.total < 2^32
  | .incStrong => s.clients.strong < INITIAL_STRONG_VALUE ∧ s.clients.total < 2^32
  | .attemptIncStrong _ => s.clients.strong+1 < INITIAL_STRONG_VALUE ∧ s.clients.total < 2^32
  | .decWeak | .decStrong => True

instance (s : System) (action : Action) : Decidable (Fair s action) :=
  match action with
  | .createWeak | .incStrong => inferInstanceAs (Decidable (s.object.destroyed = false))
  | .incWeak | .attemptIncStrong _ => inferInstanceAs (Decidable (s.object.freed = false))
  | .decWeak => inferInstanceAs (Decidable (0 < s.clients.weak))
  | .decStrong => inferInstanceAs (Decidable (0 < s.clients.strong))

instance (s : System) (action : Action) : Decidable (Room s action) :=
  match action with
  | .createWeak | .incWeak => inferInstanceAs (Decidable (s.clients.total < 2^32))
  | .incStrong =>
    inferInstanceAs (Decidable (s.clients.strong < INITIAL_STRONG_VALUE ∧ s.clients.total < 2^32))
  | .attemptIncStrong _ =>
    inferInstanceAs (Decidable (s.clients.strong+1 < INITIAL_STRONG_VALUE ∧ s.clients.total < 2^32))
  | .decWeak | .decStrong => inferInstanceAs (Decidable True)

def extended (flags : BitVec 32) : Prop := flags &&& OBJECT_LIFETIME_MASK ≠ OBJECT_LIFETIME_STRONG

instance (flags : BitVec 32) : Decidable (extended flags) := inferInstanceAs (Decidable (_ ≠ _))

def Clients.Unreferenced (c : Clients) : Prop := c.taken = true ∧ c.total = 0

instance (c : Clients) : Decidable c.Unreferenced := inferInstanceAs (Decidable (_ ∧ _))

def Clients.Over (flags : BitVec 32) (c : Clients) : Prop :=
  if extended flags then c.Unreferenced
  else if c.acquired then c.strong = 0
  else c.Unreferenced

instance (flags : BitVec 32) (c : Clients) : Decidable (c.Over flags) :=
  inferInstanceAs (Decidable (if extended flags then c.Unreferenced
    else if c.acquired then c.strong = 0
    else c.Unreferenced))

structure Right (s : System) : Prop where
  strong : s.object.mStrong = if s.clients.acquired then (s.clients.strong : Int) else INITIAL_STRONG_VALUE
  weak : s.object.mWeak = int32 s.clients.total
  few : (s.clients.strong : Int) ≤ INITIAL_STRONG_VALUE
  total : s.clients.total ≤ 2^32
  fresh : s.clients.acquired = false → s.clients.strong = 0
  taken : s.clients.taken = false → s.clients.acquired = false ∧ s.clients.total = 0
  destroyed : s.object.destroyed = true ↔ s.clients.Over s.object.mFlags
  freed : s.object.freed = true ↔ s.clients.Unreferenced

section Calls
variable {o : Object}

theorem useImpl_ok (there : o.freed = false) : useImpl o = .ok () := by
  simp [useImpl,there]

theorem useBase_ok (alive : o.destroyed = false) : useBase o = .ok () := by
  simp [useBase,alive]

theorem incWeak_eq (there : o.freed = false) : incWeak o = .ok {o with mWeak := int32 (o.mWeak+1)} := by
  simp only [incWeak,useImpl_ok there]
  rfl

theorem extended_weak {flags : BitVec 32} (long : extended flags) :
    flags &&& OBJECT_LIFETIME_MASK = OBJECT_LIFETIME_WEAK := by
  have bit : (flags &&& OBJECT_LIFETIME_MASK).toNat = flags.toNat%2 := by
    rw [BitVec.toNat_and]
    exact Nat.and_one_is_mod flags.toNat
  rcases Nat.mod_two_eq_zero_or_one flags.toNat with zero | one
  · have short : flags &&& OBJECT_LIFETIME_MASK = OBJECT_LIFETIME_STRONG :=
      BitVec.eq_of_toNat_eq (bit.trans zero)
    exact absurd short long
  · exact BitVec.eq_of_toNat_eq (bit.trans one)

theorem int32_succ (n : Int) : int32 (int32 n+1) = int32 (n+1) := by
  unfold int32
  omega

theorem int32_pred (n : Int) : int32 (int32 n-1) = int32 (n-1) := by
  unfold int32
  omega

theorem int32_one {n : Nat} (positive : 0 < n) (most : n ≤ 2^32) : int32 n = 1 ↔ n = 1 := by
  unfold int32
  omega

theorem deleteImpl_eq (there : o.freed = false) : deleteImpl o = .ok {o with freed := true} := by
  simp only [deleteImpl,useImpl_ok there]
  rfl

theorem deleteBase_eq (alive : o.destroyed = false) (there : o.freed = false) (none : o.mWeak = 0)
    (own : o.mStrong = INITIAL_STRONG_VALUE ∨ extended o.mFlags) :
    deleteBase o = .ok {o with destroyed := true,freed := true} := by
  have freed : deleteImpl {o with destroyed := true} = .ok {o with destroyed := true,freed := true} :=
    deleteImpl_eq there
  simp only [deleteBase,useBase_ok alive,useImpl_ok there,ok_bind,freed]
  split
  · rfl
  · rename_i counted
    rcases own with initial | long
    · exact absurd initial counted
    · have asked : o.mFlags &&& OBJECT_LIFETIME_MASK ≠ OBJECT_LIFETIME_STRONG := long
      rw [if_pos asked,none]

theorem deleteBase_strong (alive : o.destroyed = false) (there : o.freed = false)
    (counted : o.mStrong ≠ INITIAL_STRONG_VALUE) (short : ¬extended o.mFlags) :
    deleteBase o = .ok {o with destroyed := true} := by
  simp only [deleteBase,useBase_ok alive,useImpl_ok there,ok_bind,if_neg counted]
  exact if_neg short

theorem decWeak_eq {total : Nat} (there : o.freed = false) (weak : o.mWeak = int32 total)
    (positive : 0 < total) (most : total ≤ 2^32)
    (last : total = 1 → if extended o.mFlags ∨ o.mStrong = INITIAL_STRONG_VALUE
      then o.destroyed = false else o.destroyed = true) :
    decWeak o = .ok {o with
      mWeak := int32 (total-1 : Int)
      destroyed := o.destroyed || decide (total = 1)
      freed := decide (total = 1)} := by
  have count := int32_one positive most
  simp only [decWeak,useImpl_ok there,ok_bind]
  rw [weak,int32_pred]
  by_cases one : total = 1
  · subst one
    have zero : int32 ((1 : Nat)-1 : Int) = 0 := by
      unfold int32
      omega
    have reached := last rfl
    rw [if_neg (not_not.mpr (count.mpr rfl)),zero]
    simp only [decide_true,Bool.or_true]
    by_cases long : extended o.mFlags
    · rw [if_pos (.inl long)] at reached
      have asked : ¬o.mFlags &&& OBJECT_LIFETIME_WEAK = OBJECT_LIFETIME_STRONG := long
      have alive : useBase {o with mWeak := 0} = .ok () := useBase_ok reached
      rw [if_neg asked,alive,ok_bind,if_pos (extended_weak long)]
      exact deleteBase_eq reached there rfl (.inr long)
    · have asked : o.mFlags &&& OBJECT_LIFETIME_WEAK = OBJECT_LIFETIME_STRONG := not_not.mp long
      rw [if_pos asked]
      by_cases never : o.mStrong = INITIAL_STRONG_VALUE
      · rw [if_pos (.inr never)] at reached
        rw [if_pos never]
        exact deleteBase_eq reached there rfl (.inl never)
      · rw [if_neg (not_or.mpr ⟨long,never⟩)] at reached
        rw [if_neg never,reached]
        exact deleteImpl_eq there
  · have more : int32 total ≠ 1 := fun c => one (count.mp c)
    rw [if_pos more]
    simp only [one,decide_false,Bool.or_false,there]
    rfl

end Calls

section Steps
variable {s : System}

def Goes (s : System) (action : Action) : Prop :=
  ∃ next done, call s.object action = .ok (next,done) ∧ next.mFlags = s.object.mFlags ∧
    Right ⟨next,s.clients.after done action⟩

theorem unreferenced_over {c : Clients} {flags : BitVec 32} (none : c.Unreferenced) : c.Over flags := by
  obtain ⟨taken,zero⟩ := none
  unfold Clients.Over
  split
  · exact ⟨taken,zero⟩
  · split
    · unfold Clients.total at zero
      omega
    · exact ⟨taken,zero⟩

theorem Right.there (right : Right s) (alive : s.object.destroyed = false) : s.object.freed = false := by
  rw [Bool.eq_false_iff] at alive ⊢
  intro freed
  exact alive (right.destroyed.mpr (unreferenced_over (right.freed.mp freed)))

theorem Right.referenced (right : Right s) (there : s.object.freed = false) :
    s.clients.taken = true → 0 < s.clients.total := by
  intro taken
  by_contra none
  have gone := right.freed.mpr ⟨taken,by omega⟩
  rw [there] at gone
  cases gone

theorem weaker_right (right : Right s) (there : s.object.freed = false) (room : s.clients.total < 2^32) :
    Right ⟨{s.object with mWeak := int32 (s.object.mWeak+1)},
      {s.clients with weak := s.clients.weak+1,taken := true}⟩ := by
  have referenced := right.referenced there
  have total : (⟨s.clients.strong,s.clients.weak+1,s.clients.acquired,true⟩ : Clients).total =
      s.clients.total+1 := rfl
  refine ⟨right.strong,?_,right.few,?_,right.fresh,by simp,?_,?_⟩
  · simp only [right.weak,int32_succ,total]
    push_cast
    rfl
  · simp only [total]
    omega
  · simp only [right.destroyed,Clients.Over,Clients.Unreferenced,total]
    have fresh := right.taken
    grind
  · simp only [there,Clients.Unreferenced,total]
    simp

theorem stronger_right (right : Right s) (alive : s.object.destroyed = false)
    (few : (s.clients.strong : Int) < INITIAL_STRONG_VALUE) (room : s.clients.total < 2^32) :
    Right ⟨{s.object with mStrong := s.clients.strong+1,mWeak := int32 (s.object.mWeak+1)},
      ⟨s.clients.strong+1,s.clients.weak,true,true⟩⟩ := by
  have there := right.there alive
  have total : (⟨s.clients.strong+1,s.clients.weak,true,true⟩ : Clients).total =
      s.clients.total+1 := by
    simp only [Clients.total]
    omega
  refine ⟨?_,?_,?_,?_,by simp,by simp,?_,?_⟩
  · simp
  · simp only [right.weak,int32_succ,total]
    push_cast
    rfl
  · push_cast
    omega
  · simp only [total]
    omega
  · simp [alive,Clients.Over,Clients.Unreferenced,total]
  · simp [there,Clients.Unreferenced,total]

theorem strong_acquired (right : Right s) (some : 0 < s.clients.strong) : s.clients.acquired = true := by
  by_contra never
  have none := right.fresh (Bool.eq_false_iff.mpr never)
  omega

theorem incStrong_initial {o : Object} (alive : o.destroyed = false) (there : o.freed = false)
    (full : o.mStrong = INITIAL_STRONG_VALUE) :
    incStrong o = .ok {o with mStrong := 1,mWeak := int32 (o.mWeak+1)} := by
  have value : INITIAL_STRONG_VALUE = 2^28 := rfl
  have first : int32 (int32 (INITIAL_STRONG_VALUE+1)-INITIAL_STRONG_VALUE) = 1 := by
    rw [value]
    unfold int32
    omega
  have still : useBase {o with
      mStrong := int32 (INITIAL_STRONG_VALUE+1)
      mWeak := int32 (o.mWeak+1)} = .ok () := useBase_ok alive
  simp only [incStrong,useBase_ok alive,incWeak_eq there,ok_bind]
  rw [full,if_neg (not_not.mpr rfl),still,ok_bind,first]
  rfl

theorem incStrong_eq (right : Right s) (alive : s.object.destroyed = false)
    (few : (s.clients.strong : Int) < INITIAL_STRONG_VALUE) :
    incStrong s.object = .ok {s.object with
      mStrong := s.clients.strong+1
      mWeak := int32 (s.object.mWeak+1)} := by
  have value : INITIAL_STRONG_VALUE = 2^28 := rfl
  have there := right.there alive
  have strong := right.strong
  cases acquired : s.clients.acquired with
  | true =>
    rw [acquired,if_pos rfl] at strong
    have plain : int32 (s.clients.strong+1 : Int) = s.clients.strong+1 :=
      int32_of_range (by omega) (by omega)
    simp only [incStrong,useBase_ok alive,incWeak_eq there,ok_bind]
    rw [strong,if_pos few.ne,plain]
    rfl
  | false =>
    rw [acquired] at strong
    rw [incStrong_initial alive there strong,right.fresh acquired]
    rfl

theorem decWeak_right (right : Right s) (held : 0 < s.clients.weak) :
    ∃ next, decWeak s.object = .ok next ∧ next.mFlags = s.object.mFlags ∧
      Right ⟨next,{s.clients with weak := s.clients.weak-1}⟩ := by
  have value : INITIAL_STRONG_VALUE = 2^28 := rfl
  have positive : 0 < s.clients.total := Nat.add_pos_right _ held
  have there : s.object.freed = false := by
    rw [Bool.eq_false_iff]
    intro freed
    have none := (right.freed.mp freed).2
    omega
  have strong := right.strong
  have destroyed := right.destroyed
  have taken : s.clients.taken = true := by
    by_contra never
    have none := (right.taken (Bool.eq_false_iff.mpr never)).2
    omega
  have total : (⟨s.clients.strong,s.clients.weak-1,s.clients.acquired,s.clients.taken⟩ : Clients).total =
      s.clients.total-1 := by
    simp only [Clients.total]
    omega
  have lone : s.clients.total = 1 → s.clients.strong = 0 := by
    unfold Clients.total
    omega
  refine ⟨_,decWeak_eq there right.weak positive right.total ?_,rfl,?_⟩
  · intro one
    have none := lone one
    simp only [Clients.Over,Clients.Unreferenced] at destroyed
    grind
  · refine ⟨strong,?_,right.few,?_,right.fresh,?_,?_,?_⟩
    · simp only [total]
      rw [Nat.cast_sub positive]
      rfl
    · simp only [total]
      have most := right.total
      omega
    · simp [taken]
    · simp only [Clients.Over,Clients.Unreferenced,total] at destroyed ⊢
      grind
    · simp only [Clients.Unreferenced,total,decide_eq_true_eq]
      exact ⟨fun one => ⟨taken,by omega⟩,fun none => by omega⟩

theorem dropStrong_last {o : Object} (alive : o.destroyed = false) (there : o.freed = false)
    (one : o.mStrong = 1) (short : ¬extended o.mFlags) :
    dropStrong o = .ok {o with mStrong := 0,destroyed := true} := by
  have zero : int32 ((1 : Int)-1) = 0 := int32_of_range (by omega) (by omega)
  have still : useBase {o with mStrong := 0} = .ok () := useBase_ok alive
  simp only [dropStrong,useBase_ok alive,useImpl_ok there,ok_bind]
  rw [one,if_pos rfl,zero,still,ok_bind,if_pos (not_not.mp short)]
  have counted : (0 : Int) ≠ INITIAL_STRONG_VALUE := by decide
  exact deleteBase_strong alive there counted short

theorem dropStrong_eq (right : Right s) (held : 0 < s.clients.strong)
    (alive : s.object.destroyed = false) :
    dropStrong s.object = .ok {s.object with
      mStrong := s.clients.strong-1
      destroyed := decide (s.clients.strong = 1 ∧ ¬extended s.object.mFlags)} := by
  have value : INITIAL_STRONG_VALUE = 2^28 := rfl
  have few := right.few
  have there := right.there alive
  have strong := right.strong
  rw [strong_acquired right held,if_pos rfl] at strong
  by_cases last : s.clients.strong = 1 ∧ ¬extended s.object.mFlags
  · obtain ⟨one,short⟩ := last
    rw [dropStrong_last alive there (by omega) short]
    simp [one,short]
  · have less : int32 (s.clients.strong-1 : Int) = s.clients.strong-1 :=
      int32_of_range (by omega) (by omega)
    simp only [dropStrong,useBase_ok alive,useImpl_ok there,ok_bind]
    rw [strong,less]
    simp only [last,decide_false,← alive]
    by_cases one : s.clients.strong = 1
    · have long : extended s.object.mFlags := by
        by_contra short
        exact last ⟨one,short⟩
      have asked : ¬s.object.mFlags &&& OBJECT_LIFETIME_MASK = OBJECT_LIFETIME_STRONG := long
      have still : useBase {s.object with mStrong := (s.clients.strong-1 : Int)} = .ok () :=
        useBase_ok alive
      rw [if_pos (by omega),still,ok_bind,if_neg asked]
      rfl
    · rw [if_neg (by omega)]
      rfl

theorem decStrong_right (right : Right s) (held : 0 < s.clients.strong) :
    ∃ next, decStrong s.object = .ok next ∧ next.mFlags = s.object.mFlags ∧
      Right ⟨next,{s.clients with strong := s.clients.strong-1}⟩ := by
  have value : INITIAL_STRONG_VALUE = 2^28 := rfl
  have positive : 0 < s.clients.total := Nat.add_pos_left held _
  have acquired := strong_acquired right held
  have taken : s.clients.taken = true := by
    by_contra never
    have none := (right.taken (Bool.eq_false_iff.mpr never)).1
    rw [acquired] at none
    cases none
  have alive : s.object.destroyed = false := by
    rw [Bool.eq_false_iff,ne_eq,right.destroyed]
    simp only [Clients.Over,Clients.Unreferenced]
    grind
  have there := right.there alive
  have total : (⟨s.clients.strong-1,s.clients.weak,s.clients.acquired,s.clients.taken⟩ : Clients).total =
      s.clients.total-1 := by
    simp only [Clients.total]
    omega
  have lone : s.clients.total = 1 → s.clients.strong = 1 := by
    unfold Clients.total
    omega
  have few := right.few
  simp only [decStrong,dropStrong_eq right held alive,ok_bind]
  refine ⟨_,decWeak_eq there right.weak positive right.total ?_,rfl,?_⟩
  · intro one
    have single := lone one
    simp only [single,true_and]
    by_cases long : extended s.object.mFlags
    · simp [long]
    · simp [long]
      omega
  · refine ⟨?_,?_,?_,?_,?_,?_,?_,?_⟩
    · simp only [acquired,if_true]
      omega
    · simp only [total]
      rw [Nat.cast_sub positive]
      rfl
    · simp only
      omega
    · simp only [total]
      have most := right.total
      omega
    · simp [acquired]
    · simp [taken]
    · simp only [Clients.Over,Clients.Unreferenced,total]
      grind
    · simp only [Clients.Unreferenced,total,decide_eq_true_eq]
      exact ⟨fun one => ⟨taken,by omega⟩,fun none => by omega⟩

theorem promotable_alive (right : Right s) (there : s.object.freed = false)
    (promotable : 0 < s.clients.strong ∨ s.clients.acquired = false ∨ extended s.object.mFlags) :
    s.object.destroyed = false := by
  have kept : ¬s.clients.Unreferenced := by
    rw [← right.freed,there]
    simp
  rw [Bool.eq_false_iff,ne_eq,right.destroyed]
  unfold Clients.Over
  split
  · exact kept
  · split
    · rename_i short acquired
      rcases promotable with some | never | long
      · omega
      · rw [acquired] at never
        cases never
      · exact absurd long short
    · exact kept

theorem refused_eq (right : Right s) (there : s.object.freed = false) (room : s.clients.total < 2^32) :
    refused {s.object with mWeak := int32 (s.object.mWeak+1)} = .ok ({s.object with
      destroyed := s.object.destroyed || decide (s.clients.total = 0)
      freed := decide (s.clients.total = 0)},false) := by
  have weak : int32 (s.object.mWeak+1) = int32 (s.clients.total+1 : Nat) := by
    rw [right.weak,int32_succ]
    push_cast
    rfl
  have back : int32 ((s.clients.total+1 : Nat)-1 : Int) = s.object.mWeak := by
    rw [right.weak]
    congr 1
    push_cast
    omega
  have one : s.clients.total+1 = 1 ↔ s.clients.total = 0 := by omega
  have last : s.clients.total+1 = 1 → if extended s.object.mFlags ∨
      s.object.mStrong = INITIAL_STRONG_VALUE then s.object.destroyed = false
      else s.object.destroyed = true := by
    intro none
    have never : s.clients.acquired = false := by
      cases taken : s.clients.taken with
      | true =>
        have some := right.referenced there taken
        omega
      | false => exact (right.taken taken).1
    have full := right.strong
    rw [never] at full
    have initial : s.object.mStrong = INITIAL_STRONG_VALUE := full
    rw [if_pos (.inr initial)]
    exact promotable_alive right there (.inr (.inl never))
  have released := decWeak_eq (o := {s.object with mWeak := int32 (s.object.mWeak+1)}) there weak
    (Nat.succ_pos _) room last
  simp only [refused,released,ok_bind,back,one]
  rfl

theorem fixUp_low {o : Object} (low : o.mStrong < INITIAL_STRONG_VALUE) : fixUp o = .ok (o,true) :=
  if_neg (Int.not_le.mpr low)

theorem fixUp_high {o : Object} (high : INITIAL_STRONG_VALUE ≤ o.mStrong) :
    fixUp o = .ok ({o with mStrong := int32 (o.mStrong-INITIAL_STRONG_VALUE)},true) :=
  if_pos high

theorem revived_eq {o : Object} {curCount : Int}
    (first : ¬(0 < curCount ∧ curCount < INITIAL_STRONG_VALUE)) : revived o curCount = fixUp o := by
  simp only [revived,if_neg first]

theorem harder_cases (right : Right s) (there : s.object.freed = false) (room : s.clients.total < 2^32)
    (none : ¬(0 < s.object.mStrong ∧ s.object.mStrong < INITIAL_STRONG_VALUE))
    (dead : s.object.mStrong ≤ 0 ∨ s.clients.acquired = false) (answer : Bool)
    (first : fixUp {s.object with mStrong := int32 (s.object.mStrong+1),mWeak := int32 (s.object.mWeak+1)} =
      .ok ({s.object with mStrong := s.clients.strong+1,mWeak := int32 (s.object.mWeak+1)},true)) :
    (s.object.destroyed = false ∧
      harderCase {s.object with mWeak := int32 (s.object.mWeak+1)} s.object.mStrong answer =
        .ok ({s.object with mStrong := s.clients.strong+1,mWeak := int32 (s.object.mWeak+1)},true)) ∨
    harderCase {s.object with mWeak := int32 (s.object.mWeak+1)} s.object.mStrong answer =
      .ok ({s.object with
        destroyed := s.object.destroyed || decide (s.clients.total = 0)
        freed := decide (s.clients.total = 0)},false) := by
  have refuse := refused_eq right there room
  unfold harderCase
  simp only [revived_eq none,first,refuse]
  by_cases long : extended s.object.mFlags
  · have asked : ¬s.object.mFlags &&& OBJECT_LIFETIME_WEAK = OBJECT_LIFETIME_STRONG := long
    have alive := promotable_alive right there (.inr (.inr long))
    have still : useBase {s.object with mWeak := int32 (s.object.mWeak+1)} = .ok () := useBase_ok alive
    rw [if_neg asked,still,ok_bind]
    cases answer with
    | false => exact .inr rfl
    | true => exact .inl ⟨alive,rfl⟩
  · have asked : s.object.mFlags &&& OBJECT_LIFETIME_WEAK = OBJECT_LIFETIME_STRONG := not_not.mp long
    rw [if_pos asked]
    by_cases gone : s.object.mStrong ≤ 0
    · rw [if_pos gone]
      exact .inr rfl
    · rw [if_neg gone]
      have never := dead.resolve_left gone
      exact .inl ⟨promotable_alive right there (.inr (.inl never)),rfl⟩

theorem attempt_cases (right : Right s) (there : s.object.freed = false)
    (few : (s.clients.strong : Int)+1 < INITIAL_STRONG_VALUE) (room : s.clients.total < 2^32)
    (answer : Bool) :
    (s.object.destroyed = false ∧ attemptIncStrong s.object answer =
      .ok ({s.object with mStrong := s.clients.strong+1,mWeak := int32 (s.object.mWeak+1)},true)) ∨
    attemptIncStrong s.object answer = .ok ({s.object with
      destroyed := s.object.destroyed || decide (s.clients.total = 0)
      freed := decide (s.clients.total = 0)},false) := by
  have value : INITIAL_STRONG_VALUE = 2^28 := rfl
  have strong := right.strong
  simp only [attemptIncStrong,incWeak_eq there,ok_bind]
  cases acquired : s.clients.acquired with
  | true =>
    rw [acquired,if_pos rfl] at strong
    have plain : int32 (s.object.mStrong+1) = s.clients.strong+1 := by
      rw [strong]
      exact int32_of_range (by omega) (by omega)
    have grant : fixUp {s.object with mStrong := int32 (s.object.mStrong+1),mWeak := int32 (s.object.mWeak+1)} =
        .ok ({s.object with mStrong := s.clients.strong+1,mWeak := int32 (s.object.mWeak+1)},true) := by
      rw [plain]
      exact fixUp_low few
    by_cases some : 0 < s.clients.strong
    · rw [if_pos (by omega)]
      exact .inl ⟨promotable_alive right there (.inl some),grant⟩
    · rw [if_neg (by omega)]
      exact harder_cases right there room (by omega) (.inl (by omega)) answer grant
  | false =>
    have none := right.fresh acquired
    rw [acquired,if_neg (by simp)] at strong
    have biased : int32 (s.object.mStrong+1) = INITIAL_STRONG_VALUE+1 := by
      rw [strong]
      exact int32_of_range (by omega) (by omega)
    have back : int32 (INITIAL_STRONG_VALUE+1-INITIAL_STRONG_VALUE) = (s.clients.strong+1 : Int) := by
      rw [none,value]
      exact int32_of_range (by omega) (by omega)
    rw [if_neg (by omega)]
    apply harder_cases right there room (by omega) (.inr acquired) answer
    rw [biased,← back]
    exact fixUp_high (show INITIAL_STRONG_VALUE ≤ INITIAL_STRONG_VALUE+1 by omega)

theorem refusal_right (right : Right s) (there : s.object.freed = false) :
    Right ⟨{s.object with
      destroyed := s.object.destroyed || decide (s.clients.total = 0)
      freed := decide (s.clients.total = 0)},{s.clients with taken := true}⟩ := by
  have total : ({s.clients with taken := true} : Clients).total = s.clients.total := rfl
  have referenced := right.referenced there
  have fresh := right.taken
  have destroyed := right.destroyed
  refine ⟨right.strong,right.weak,right.few,right.total,right.fresh,by simp,?_,?_⟩
  · simp only [Clients.Over,Clients.Unreferenced,total] at destroyed ⊢
    grind
  · simp [Clients.Unreferenced,total]

theorem step_goes (right : Right s) {action : Action} (fair : Fair s action) (room : Room s action) :
    Goes s action := by
  cases action with
  | createWeak =>
    have there := right.there fair
    refine ⟨_,true,?_,?_,weaker_right right there room⟩
    · simp only [call,createWeak,useBase_ok fair,incWeak_eq there,ok_bind]
      rfl
    · rfl
  | incWeak =>
    refine ⟨_,true,?_,?_,weaker_right right fair room⟩
    · simp only [call,incWeak_eq fair,ok_bind]
      rfl
    · rfl
  | decWeak =>
    obtain ⟨next,released,kept⟩ := decWeak_right right fair
    refine ⟨next,true,?_,kept⟩
    simp only [call,released,ok_bind]
    rfl
  | incStrong =>
    refine ⟨_,true,?_,?_,stronger_right right fair room.1 room.2⟩
    · simp only [call,incStrong_eq right fair room.1,ok_bind]
      rfl
    · rfl
  | decStrong =>
    obtain ⟨next,released,kept⟩ := decStrong_right right fair
    refine ⟨next,true,?_,kept⟩
    simp only [call,released,ok_bind]
    rfl
  | attemptIncStrong answer =>
    obtain ⟨alive,granted⟩ | refusal := attempt_cases right fair room.1 room.2 answer
    · have few : (s.clients.strong : Int) < INITIAL_STRONG_VALUE := by
        have := room.1
        omega
      exact ⟨_,true,granted,rfl,stronger_right right alive few room.2⟩
    · exact ⟨_,false,refusal,rfl,refusal_right right fair⟩

theorem constructed_right (mode : BitVec 32) : Right (constructed mode) := by
  have zero : int32 ((0 : Nat) : Int) = 0 := by
    unfold int32
    omega
  refine ⟨rfl,zero.symm,?_,?_,fun _ => rfl,fun _ => ⟨rfl,rfl⟩,?_,?_⟩
  · exact Int.le_of_lt (by decide : (0 : Int) < INITIAL_STRONG_VALUE)
  · exact Nat.zero_le _
  · simp [constructed,extendObjectLifetime,Clients.Over,Clients.Unreferenced]
  · simp [constructed,extendObjectLifetime,Clients.Unreferenced]

theorem run_right (mode : BitVec 32) {actions : List Action}
    (proper : Obeys machine (fun s action => Fair s action ∧ Room s action) (constructed mode) actions) :
    ∃ s, run machine (constructed mode) actions = some s ∧ Right s ∧ s.object.mFlags = mode := by
  have start : Right (constructed mode) ∧ (constructed mode).object.mFlags = mode :=
    ⟨constructed_right mode,BitVec.zero_or⟩
  apply @obeys_completes _ _ _ _ (fun _ s => Right s ∧ s.object.mFlags = mode) ?_ [] _ _ start proper
  rintro _ s action ⟨right,flags⟩ ⟨fair,room⟩
  obtain ⟨next,done,ran,same,right'⟩ := step_goes right fair room
  exact ⟨⟨next,s.clients.after done action⟩,by simp only [machine,ran],right',same.trans flags⟩

end Steps

theorem destroyed_at_the_right_moment (mode : BitVec 32) {actions : List Action}
    (proper : Obeys machine (fun s action => Fair s action ∧ Room s action) (constructed mode) actions) :
    ∃ s, run machine (constructed mode) actions = some s ∧
      (s.object.destroyed = true ↔ s.clients.Over mode) ∧
      (s.object.freed = true ↔ s.clients.Unreferenced) ∧
      s.object.mStrong = (if s.clients.acquired then (s.clients.strong : Int) else INITIAL_STRONG_VALUE) ∧
      s.object.mWeak = int32 s.clients.total ∧
      ∀ answer, Fair s (.attemptIncStrong answer) → Room s (.attemptIncStrong answer) →
        ∃ next done, attemptIncStrong s.object answer = .ok (next,done) ∧
          (done = true → s.object.destroyed = false ∧ next.destroyed = false ∧
            next.mStrong = s.clients.strong+1 ∧ next.mWeak = int32 (s.object.mWeak+1)) ∧
          (done = false → 0 < s.clients.total →
            next.mStrong = s.object.mStrong ∧ next.mWeak = s.object.mWeak ∧ next.freed = false) := by
  obtain ⟨s,ran,right,flags⟩ := run_right mode proper
  have destroyed := right.destroyed
  rw [flags] at destroyed
  refine ⟨s,ran,destroyed,right.freed,right.strong,right.weak,?_⟩
  intro answer fair room
  obtain ⟨alive,granted⟩ | refusal := attempt_cases right fair room.1 room.2 answer
  · exact ⟨_,true,granted,fun _ => ⟨alive,alive,rfl,rfl⟩,by simp⟩
  · refine ⟨_,false,refusal,by simp,fun _ held => ⟨rfl,rfl,?_⟩⟩
    simp only [decide_eq_false_iff_not]
    omega

def revivedOnce : List Action :=
  [.incStrong,.createWeak,.decStrong,.attemptIncStrong true,.decWeak,.decStrong]

theorem destroyed_at_the_right_moment_revived :
    ∃ s, run machine (constructed OBJECT_LIFETIME_WEAK) revivedOnce = some s ∧
      s.object.destroyed = true ∧ s.object.freed = true := by
  have proper : Obeys machine (fun s action => Fair s action ∧ Room s action)
      (constructed OBJECT_LIFETIME_WEAK) revivedOnce := by
    refine obeys_step rfl ?_ (obeys_step rfl ?_ (obeys_step rfl ?_ (obeys_step rfl ?_
      (obeys_step rfl ?_ (obeys_step rfl ?_ trivial)))))
    all_goals decide
  obtain ⟨s,ran,destroyed,freed,_⟩ := destroyed_at_the_right_moment OBJECT_LIFETIME_WEAK proper
  have same := ran
  cases same
  exact ⟨_,ran,destroyed.mpr (by decide),freed.mpr (by decide)⟩

section Limits
variable {mode : BitVec 32} {n : Nat} {s : System}

def strongOnes (n : Nat) : Clients := ⟨n,0,decide (0 < n),decide (0 < n)⟩
def weakOnes (n : Nat) : Clients := ⟨0,n,false,decide (0 < n)⟩

def Standing (mode : BitVec 32) (c : Clients) (s : System) : Prop :=
  Right s ∧ s.object.mFlags = mode ∧ s.object.destroyed = false ∧ s.clients = c

theorem constructed_standing (mode : BitVec 32) : Standing mode ⟨0,0,false,false⟩ (constructed mode) :=
  ⟨constructed_right mode,BitVec.zero_or,rfl,rfl⟩

theorem strong_run (mode : BitVec 32) (few : n ≤ 2^28) :
    Obeys machine Fair (constructed mode) (List.replicate n .incStrong) ∧
      ∃ s, run machine (constructed mode) (List.replicate n .incStrong) = some s ∧
        Standing mode (strongOnes n) s := by
  have value : INITIAL_STRONG_VALUE = 2^28 := rfl
  have each (k : Nat) (s : System) (more : k < 2^28) (standing : Standing mode (strongOnes k) s) :
      Fair s .incStrong ∧
        ∃ next, machine s .incStrong = some next ∧ Standing mode (strongOnes (k+1)) next := by
    obtain ⟨right,flags,alive,clients⟩ := standing
    have few : (s.clients.strong : Int) < INITIAL_STRONG_VALUE := by
      rw [clients]
      simp only [strongOnes]
      omega
    have room : s.clients.total < 2^32 := by
      rw [clients]
      simp only [Clients.total,strongOnes]
      omega
    refine ⟨alive,_,?_,stronger_right right alive few room,flags,alive,?_⟩
    · simp only [machine,call,incStrong_eq right alive few,ok_bind]
      rfl
    · rw [clients]
      simp [strongOnes]
  have reached := obeys_replicate (fun k s => Standing mode (strongOnes k) s) each
    (constructed_standing mode) (by omega : 0+n ≤ 2^28)
  rw [Nat.zero_add] at reached
  exact reached

theorem weak_run (mode : BitVec 32) (few : n ≤ 2^32) :
    Obeys machine Fair (constructed mode) (List.replicate n .createWeak) ∧
      ∃ s, run machine (constructed mode) (List.replicate n .createWeak) = some s ∧
        Standing mode (weakOnes n) s := by
  have each (k : Nat) (s : System) (more : k < 2^32) (standing : Standing mode (weakOnes k) s) :
      Fair s .createWeak ∧
        ∃ next, machine s .createWeak = some next ∧ Standing mode (weakOnes (k+1)) next := by
    obtain ⟨right,flags,alive,clients⟩ := standing
    have there := right.there alive
    have room : s.clients.total < 2^32 := by
      rw [clients]
      simp only [Clients.total,weakOnes]
      omega
    refine ⟨alive,_,?_,weaker_right right there room,flags,alive,?_⟩
    · simp only [machine,call,createWeak,useBase_ok alive,incWeak_eq there,ok_bind]
      rfl
    · rw [clients]
      simp [weakOnes]
  have reached := obeys_replicate (fun k s => Standing mode (weakOnes k) s) each
    (constructed_standing mode) (by omega : 0+n ≤ 2^32)
  rw [Nat.zero_add] at reached
  exact reached

theorem short_mode : ¬extended OBJECT_LIFETIME_STRONG := by decide

theorem Standing.eq {c : Clients} (standing : Standing mode c s) :
    s = ⟨⟨if c.acquired then (c.strong : Int) else INITIAL_STRONG_VALUE,int32 c.total,mode,false,false⟩,c⟩ := by
  obtain ⟨right,flags,alive,rfl⟩ := standing
  have there := right.there alive
  obtain ⟨⟨mStrong,mWeak,mFlags,destroyed,freed⟩,clients⟩ := s
  simp only at flags alive there
  have strong := right.strong
  have weak := right.weak
  simp only at strong weak
  rw [strong,weak,flags,alive,there]

-- With 2^28 strong references the count is the initial one again: the next
-- incStrong makes it 1, and the first release destroys the object.
theorem strong_overflows (standing : Standing OBJECT_LIFETIME_STRONG (strongOnes (2^28)) s) :
    ∃ next, Obeys machine Fair s [.incStrong,.decStrong] ∧
      run machine s [.incStrong,.decStrong] = some next ∧ next.clients.strong = 2^28 ∧
      next.object.destroyed = true := by
  have weak : int32 (int32 (2^28 : Nat)+1) = int32 (2^28+1 : Nat) := by
    rw [int32_succ]
    push_cast
    rfl
  have first : machine s .incStrong =
      some ⟨⟨1,int32 (2^28+1 : Nat),OBJECT_LIFETIME_STRONG,false,false⟩,⟨2^28+1,0,true,true⟩⟩ := by
    have grown : incStrong s.object = .ok ⟨1,int32 (2^28+1 : Nat),OBJECT_LIFETIME_STRONG,false,false⟩ := by
      rw [standing.eq,← weak]
      exact incStrong_initial rfl rfl rfl
    simp only [machine,call,grown,ok_bind]
    rw [standing.eq]
    rfl
  have second : machine ⟨⟨1,int32 (2^28+1 : Nat),OBJECT_LIFETIME_STRONG,false,false⟩,⟨2^28+1,0,true,true⟩⟩
      .decStrong = some ⟨⟨0,int32 ((2^28+1 : Nat)-1 : Int),OBJECT_LIFETIME_STRONG,true,false⟩,
        ⟨2^28,0,true,true⟩⟩ := by
    have dropped : dropStrong ⟨1,int32 (2^28+1 : Nat),OBJECT_LIFETIME_STRONG,false,false⟩ =
        .ok ⟨0,int32 (2^28+1 : Nat),OBJECT_LIFETIME_STRONG,true,false⟩ :=
      dropStrong_last rfl rfl rfl short_mode
    have released : decWeak ⟨0,int32 (2^28+1 : Nat),OBJECT_LIFETIME_STRONG,true,false⟩ =
        .ok ⟨0,int32 ((2^28+1 : Nat)-1 : Int),OBJECT_LIFETIME_STRONG,true,false⟩ :=
      decWeak_eq rfl rfl (by omega) (by omega) (by omega)
    simp only [machine,call,decStrong,dropped,released,ok_bind]
    rfl
  have both : run machine s [.incStrong,.decStrong] = some
      ⟨⟨0,int32 ((2^28+1 : Nat)-1 : Int),OBJECT_LIFETIME_STRONG,true,false⟩,⟨2^28,0,true,true⟩⟩ := by
    simp only [run,first,second,Option.bind_some]
  exact ⟨_,obeys_step first standing.2.2.1 ⟨Nat.succ_pos _,fun _ _ => trivial⟩,both,rfl,rfl⟩

-- With one less, attemptIncStrong takes the whole count for the bias.
theorem promotion_overflows (standing : Standing mode (strongOnes (2^28-1)) s) :
    ∃ next, attemptIncStrong s.object true = .ok (next,true) ∧ next.mStrong = 0 := by
  have value : INITIAL_STRONG_VALUE = 2^28 := rfl
  obtain ⟨right,_,alive,clients⟩ := standing
  have there := right.there alive
  have count : s.object.mStrong = 2^28-1 := by
    have strong := right.strong
    rw [clients] at strong
    exact strong
  have plain : int32 (s.object.mStrong+1) = INITIAL_STRONG_VALUE := by
    rw [count]
    exact int32_of_range (by omega) (by omega)
  have zero : int32 (INITIAL_STRONG_VALUE-INITIAL_STRONG_VALUE) = 0 :=
    int32_of_range (by omega) (by omega)
  simp only [attemptIncStrong,incWeak_eq there,ok_bind]
  rw [if_pos (by omega),plain,fixUp_high le_rfl,zero]
  exact ⟨_,rfl,rfl⟩

-- With 2^32 weak references the other count is 0 again.
theorem weak_overflows (standing : Standing OBJECT_LIFETIME_STRONG (weakOnes (2^32)) s) :
    ∃ next, Obeys machine Fair s [.createWeak,.decWeak] ∧
      run machine s [.createWeak,.decWeak] = some next ∧ next.clients.weak = 2^32 ∧
      next.object.destroyed = true := by
  have weak : int32 (int32 (2^32 : Nat)+1) = int32 (1 : Nat) := by
    unfold int32
    omega
  have first : machine s .createWeak =
      some ⟨⟨INITIAL_STRONG_VALUE,int32 (1 : Nat),OBJECT_LIFETIME_STRONG,false,false⟩,
        ⟨0,2^32+1,false,true⟩⟩ := by
    have grown : createWeak s.object =
        .ok ⟨INITIAL_STRONG_VALUE,int32 (1 : Nat),OBJECT_LIFETIME_STRONG,false,false⟩ := by
      rw [standing.eq,← weak]
      rfl
    simp only [machine,call,grown,ok_bind]
    rw [standing.eq]
    rfl
  have second : machine ⟨⟨INITIAL_STRONG_VALUE,int32 (1 : Nat),OBJECT_LIFETIME_STRONG,false,false⟩,
      ⟨0,2^32+1,false,true⟩⟩ .decWeak = some ⟨⟨INITIAL_STRONG_VALUE,int32 ((1 : Nat)-1 : Int),
        OBJECT_LIFETIME_STRONG,true,true⟩,⟨0,2^32,false,true⟩⟩ := by
    have released : decWeak ⟨INITIAL_STRONG_VALUE,int32 (1 : Nat),OBJECT_LIFETIME_STRONG,false,false⟩ =
        .ok ⟨INITIAL_STRONG_VALUE,int32 ((1 : Nat)-1 : Int),OBJECT_LIFETIME_STRONG,true,true⟩ :=
      decWeak_eq rfl rfl (by omega) (by omega) (fun _ => by rw [if_pos (.inr rfl)])
    simp only [machine,call,released,ok_bind]
    rfl
  have both : run machine s [.createWeak,.decWeak] = some ⟨⟨INITIAL_STRONG_VALUE,int32 ((1 : Nat)-1 : Int),
      OBJECT_LIFETIME_STRONG,true,true⟩,⟨0,2^32,false,true⟩⟩ := by
    simp only [run,first,second,Option.bind_some]
  exact ⟨_,obeys_step first standing.2.2.1 ⟨Nat.succ_pos _,fun _ _ => trivial⟩,both,rfl,rfl⟩

end Limits

def oneTooMany (n : Nat) (acquire release : Action) : List Action :=
  List.replicate n acquire ++ [acquire,release]

-- The counts have their limits, and an attempt that is refused lets its own weak
-- reference go, which may be the last.
theorem counts_run_over :
    (∃ s, run machine (constructed OBJECT_LIFETIME_STRONG)
        (oneTooMany (2^28) .incStrong .decStrong) = some s ∧
      Obeys machine Fair (constructed OBJECT_LIFETIME_STRONG)
        (oneTooMany (2^28) .incStrong .decStrong) ∧
      s.clients.strong = 2^28 ∧ s.object.destroyed = true) ∧
    (∃ s next, run machine (constructed OBJECT_LIFETIME_STRONG)
        (List.replicate (2^28-1) .incStrong) = some s ∧
      Obeys machine Fair (constructed OBJECT_LIFETIME_STRONG) (List.replicate (2^28-1) .incStrong) ∧
      attemptIncStrong s.object true = .ok (next,true) ∧ s.object.mStrong = 2^28-1 ∧
      next.mStrong = 0) ∧
    (∃ s, run machine (constructed OBJECT_LIFETIME_STRONG)
        (oneTooMany (2^32) .createWeak .decWeak) = some s ∧
      Obeys machine Fair (constructed OBJECT_LIFETIME_STRONG)
        (oneTooMany (2^32) .createWeak .decWeak) ∧
      s.clients.weak = 2^32 ∧ s.object.destroyed = true) ∧
    ∃ next, attemptIncStrong (constructed OBJECT_LIFETIME_WEAK).object false = .ok (next,false) ∧
      next.destroyed = true ∧ next.freed = true := by
  refine ⟨?_,?_,?_,?_⟩
  · obtain ⟨fair,s,ran,standing⟩ := strong_run OBJECT_LIFETIME_STRONG (n := 2^28) le_rfl
    obtain ⟨next,fair',ran',held,destroyed⟩ := strong_overflows standing
    refine ⟨next,?_,obeys_append fair ran fair',held,destroyed⟩
    rw [oneTooMany,run_append,ran]
    exact ran'
  · obtain ⟨fair,s,ran,standing⟩ := strong_run OBJECT_LIFETIME_STRONG (n := 2^28-1) (by omega)
    obtain ⟨next,promoted,zero⟩ := promotion_overflows standing
    refine ⟨s,next,ran,fair,promoted,?_,zero⟩
    rw [standing.eq]
    rfl
  · obtain ⟨fair,s,ran,standing⟩ := weak_run OBJECT_LIFETIME_STRONG (n := 2^32) le_rfl
    obtain ⟨next,fair',ran',held,destroyed⟩ := weak_overflows standing
    refine ⟨next,?_,obeys_append fair ran fair',held,destroyed⟩
    rw [oneTooMany,run_append,ran]
    exact ran'
  · exact ⟨_,rfl,rfl,rfl⟩

end SemcMsm7x30.Lifetime
