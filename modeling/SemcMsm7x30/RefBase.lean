import SemcMsm7x30.PartialMachine

namespace SemcMsm7x30.RefBase
open PartialMachine

def INITIAL_STRONG_VALUE : Int := 2^28

def int32 (n : Int) : Int := (n+2^31)%2^32-2^31

-- The next atomic operation, or plain read of mStrong, of a thread. `curCount`
-- is the local of attemptIncStrong.
inductive Pc where
  | idle
  -- incStrong
  | incWeak
  | inc
  | unbias
  -- decStrong; decWeak also ends an attemptIncStrong that fails
  | dec
  | lastStrongRef
  | decWeak
  -- attemptIncStrong
  | attempt
  | read
  | promote (curCount : Int)
  | first (curCount : Int)
  | readFirst
  | readFix
  | fix (curCount : Int)
  deriving DecidableEq, Repr

-- One weakref_impl. `held` are the strong references of each thread, from the
-- step that counts them on, and `acquired` is whether there ever was one.
structure State (W : Type) where
  mStrong : Int
  mWeak : Int
  destroyed : Bool
  pc : W → Pc
  held : W → Nat
  acquired : Bool

-- Every thread has a weak reference of its own throughout.
def initial (W : Type) [Fintype W] : State W :=
  ⟨INITIAL_STRONG_VALUE,Fintype.card W,false,fun _ => .idle,fun _ => 0,false⟩

inductive Action (W : Type) where
  | incStrong (thread : W)
  | decStrong (thread : W)
  | attemptIncStrong (thread : W)
  | step (thread : W)

section Machine
variable {W : Type} [DecidableEq W]

def goto (s : State W) (w : W) (pc : Pc) : State W := {s with pc := Function.update s.pc w pc}

def grab (s : State W) (w : W) (pc : Pc) : State W :=
  {goto s w pc with
    mStrong := int32 (s.mStrong+1)
    held := Function.update s.held w (s.held w+1)
    acquired := true}

def dropBias (s : State W) (w : W) : State W :=
  {goto s w .idle with mStrong := int32 (s.mStrong-INITIAL_STRONG_VALUE)}

-- Where attemptIncStrong goes with a count it has just read: round its first
-- loop, into its second, or out.
def afterRead (curCount : Int) : Pc :=
  if 0 < curCount ∧ curCount ≠ INITIAL_STRONG_VALUE then .promote curCount
  else if curCount ≤ 0 then .decWeak
  else .first curCount

def atomicStep (s : State W) (w : W) : Option (State W) :=
  match s.pc w with
  | .idle => none
  | .incWeak => some {goto s w .inc with mWeak := int32 (s.mWeak+1)}
  | .inc => some (grab s w (if s.mStrong ≠ INITIAL_STRONG_VALUE then .idle else .unbias))
  | .unbias => some (dropBias s w)
  | .dec => some {goto s w (if s.mStrong = 1 then .lastStrongRef else .decWeak) with
      mStrong := int32 (s.mStrong-1)
      held := Function.update s.held w (s.held w-1)}
  | .lastStrongRef => some {goto s w .decWeak with destroyed := true}
  -- without a weak reference left there is no object either
  | .decWeak => some {goto s w .idle with
      mWeak := int32 (s.mWeak-1)
      destroyed := s.destroyed || decide (s.mWeak = 1)}
  | .attempt => some {goto s w .read with mWeak := int32 (s.mWeak+1)}
  | .read => some (goto s w (afterRead s.mStrong))
  | .promote curCount =>
    some (if s.mStrong = curCount then grab s w .readFix else goto s w .read)
  | .first curCount =>
    some (if s.mStrong = curCount then grab s w .readFix else goto s w .readFirst)
  | .readFirst => some (goto s w (if 0 < s.mStrong then .first s.mStrong else .decWeak))
  | .readFix =>
    some (goto s w (if INITIAL_STRONG_VALUE ≤ s.mStrong then .fix s.mStrong else .idle))
  | .fix curCount =>
    some (if s.mStrong = curCount then dropBias s w else goto s w .readFix)

def step (s : State W) : Action W → Option (State W)
  | .incStrong w => if s.pc w = .idle then some (goto s w .incWeak) else none
  | .decStrong w => if s.pc w = .idle ∧ 0 < s.held w then some (goto s w .dec) else none
  | .attemptIncStrong w => if s.pc w = .idle then some (goto s w .attempt) else none
  | .step w => atomicStep s w

end Machine

section Counting
variable {W : Type} [Fintype W]

def strongRefs (s : State W) : Nat := ∑ w, s.held w

def Exact (s : State W) : Prop :=
  s.mStrong = if s.acquired then (strongRefs s : Int) else INITIAL_STRONG_VALUE

def Quiet (s : State W) : Prop := ∀ w, s.pc w = .idle

-- No attemptIncStrong takes the bias off while an incStrong is between its
-- increment and its subtraction, and the references stay below the bias.
def Clean (s : State W) : Action W → Prop
  | .step w =>
    match s.pc w with
    | .inc | .promote _ | .first _ => strongRefs s+1 < INITIAL_STRONG_VALUE
    | .fix curCount => s.mStrong = curCount → ∀ v, s.pc v ≠ .unbias
    | _ => True
  | _ => True

end Counting

def Pc.fixes : Pc → Bool
  | .unbias | .readFix | .fix _ => true
  | _ => false

section Invariant
variable {W : Type} [Fintype W]

-- The bias is on or off; while it is on and there is a reference, some thread
-- that holds one will take it off.
structure Counted (s : State W) : Prop where
  few : (strongRefs s : Int) < INITIAL_STRONG_VALUE
  count : s.mStrong = strongRefs s ∨ s.mStrong = strongRefs s+INITIAL_STRONG_VALUE
  unbias : ∀ w, s.pc w = .unbias → INITIAL_STRONG_VALUE ≤ s.mStrong
  single : ∀ w v, s.pc w = .unbias → s.pc v = .unbias → w = v
  fix : ∀ w curCount, s.pc w = .fix curCount → INITIAL_STRONG_VALUE ≤ curCount
  holds : ∀ w, (s.pc w).fixes = true ∨ s.pc w = .dec → 0 < s.held w
  fixed : s.acquired = true → INITIAL_STRONG_VALUE ≤ s.mStrong → ∃ w, (s.pc w).fixes = true
  fresh : s.acquired = false → s.mStrong = INITIAL_STRONG_VALUE ∧ strongRefs s = 0

variable {s : State W} {w : W}

theorem int32_of_range {n : Int} (low : -2^31 ≤ n) (high : n < 2^31) : int32 n = n := by
  unfold int32
  omega

theorem held_le (s : State W) (w : W) : s.held w ≤ strongRefs s :=
  Finset.single_le_sum (fun _ _ => Nat.zero_le _) (Finset.mem_univ w)

theorem counted_range (counted : Counted s) : 0 ≤ s.mStrong ∧ s.mStrong < 2^29 := by
  have few := counted.few
  have value : INITIAL_STRONG_VALUE = 2^28 := rfl
  rcases counted.count with plain | biased <;> omega

theorem initial_means_none (counted : Counted s) (full : s.mStrong = INITIAL_STRONG_VALUE) :
    strongRefs s = 0 ∧ ∀ w, (s.pc w).fixes = false := by
  have none : strongRefs s = 0 := by
    have few := counted.few
    rcases counted.count with plain | biased <;> omega
  refine ⟨none,fun w => ?_⟩
  cases fixing : (s.pc w).fixes with
  | false => rfl
  | true =>
    have held := counted.holds w (.inl fixing)
    have bound := held_le s w
    omega

variable [DecidableEq W]

theorem total_update (held : W → Nat) (w : W) (n : Nat) :
    ∑ v, Function.update held w n v + held w = ∑ v, held v + n := by
  have whole := Finset.sum_update_of_mem (Finset.mem_univ w) held n
  have split := Finset.add_sum_erase Finset.univ held (Finset.mem_univ w)
  rw [Finset.sdiff_singleton_eq_erase] at whole
  omega

theorem goto_counted {pc : Pc} (counted : Counted s) (same : pc.fixes = (s.pc w).fixes)
    (notUnbias : pc ≠ .unbias) (biased : ∀ c, pc = .fix c → INITIAL_STRONG_VALUE ≤ c)
    (owns : pc = .dec → 0 < s.held w) : Counted (goto s w pc) := by
  have at' : ∀ v, (goto s w pc).pc v = if v = w then pc else s.pc v := by
    intro v
    simp only [goto,Function.update_apply]
  have fixes : ∀ v, ((goto s w pc).pc v).fixes = (s.pc v).fixes := by
    intro v
    rw [at']
    split
    · rename_i here
      rw [here,same]
    · rfl
  have unbias : ∀ v, (goto s w pc).pc v = .unbias → s.pc v = .unbias := by
    intro v now
    rw [at'] at now
    split at now
    · exact absurd now notUnbias
    · exact now
  refine ⟨counted.few,counted.count,?_,?_,?_,?_,?_,counted.fresh⟩
  · exact fun v now => counted.unbias v (unbias v now)
  · exact fun v u one two => counted.single v u (unbias v one) (unbias u two)
  · intro v c now
    rw [at'] at now
    split at now
    · exact biased c now
    · exact counted.fix v c now
  · intro v role
    rw [fixes,at'] at role
    rcases role with fixing | decrementing
    · exact counted.holds v (.inl fixing)
    · split at decrementing
      · rename_i here
        rw [here]
        exact owns decrementing
      · exact counted.holds v (.inr decrementing)
  · intro acquired high
    obtain ⟨v,fixing⟩ := counted.fixed acquired high
    exact ⟨v,(fixes v).trans fixing⟩

omit [DecidableEq W] in
theorem weak_counted (counted : Counted s) (mWeak : Int) (destroyed : Bool) :
    Counted {s with mWeak := mWeak,destroyed := destroyed} :=
  ⟨counted.few,counted.count,counted.unbias,counted.single,counted.fix,counted.holds,counted.fixed,
    counted.fresh⟩

omit [Fintype W] in
theorem goto_other {pc : Pc} {v : W} (differs : v ≠ w) : (goto s w pc).pc v = s.pc v :=
  Function.update_of_ne differs ..

omit [Fintype W] in
theorem goto_self {pc : Pc} : (goto s w pc).pc w = pc := Function.update_self ..

omit [Fintype W] in
theorem idle_other {v : W} (busy : (goto s w .idle).pc v ≠ .idle) :
    v ≠ w ∧ (goto s w .idle).pc v = s.pc v := by
  have differs : v ≠ w := by
    intro here
    subst here
    exact busy goto_self
  exact ⟨differs,goto_other differs⟩

theorem fixes_busy {pc : Pc} (fixing : pc.fixes = true) : pc ≠ .idle := by
  intro idle
  subst idle
  cases fixing

theorem grab_refs {pc : Pc} : strongRefs (grab s w pc) = strongRefs s+1 := by
  have moved := total_update s.held w (s.held w+1)
  simp only [strongRefs,grab]
  omega

theorem grab_counted {pc : Pc} (counted : Counted s) (idle : (s.pc w).fixes = false)
    (room : (strongRefs s : Int)+1 < INITIAL_STRONG_VALUE)
    (next : pc = .readFix ∨ pc = if s.mStrong ≠ INITIAL_STRONG_VALUE then .idle else .unbias) :
    Counted (grab s w pc) := by
  have value : INITIAL_STRONG_VALUE = 2^28 := rfl
  have range := counted_range counted
  have strong : (grab s w pc).mStrong = s.mStrong+1 := int32_of_range (by omega) (by omega)
  have refs : strongRefs (grab s w pc) = strongRefs s+1 := grab_refs
  have own : (grab s w pc).held w = s.held w+1 := Function.update_self ..
  have other : ∀ v, v ≠ w → (grab s w pc).held v = s.held v := fun v differs =>
    Function.update_of_ne differs ..
  have place : ∀ v, (grab s w pc).pc v = (goto s w pc).pc v := fun v => rfl
  have unbiasing : pc = .unbias → s.mStrong = INITIAL_STRONG_VALUE := by
    intro here
    rcases next with rfl | chosen
    · cases here
    · by_contra differs
      rw [if_pos differs] at chosen
      rw [chosen] at here
      cases here
  refine ⟨?_,?_,?_,?_,?_,?_,?_,?_⟩
  · rw [refs]
    omega
  · rw [strong,refs]
    rcases counted.count with plain | biased <;> omega
  · intro v now
    rw [strong]
    by_cases here : v = w
    · subst here
      rw [place,goto_self] at now
      rw [unbiasing now]
      omega
    · rw [place,goto_other here] at now
      have high := counted.unbias v now
      omega
  · intro v u one two
    by_cases hereV : v = w
    · by_cases hereU : u = w
      · rw [hereV,hereU]
      · -- a second thread subtracts only if the count was still the initial one
        rw [place,goto_other hereU] at two
        rw [hereV,place,goto_self] at one
        have none := (initial_means_none counted (unbiasing one)).2 u
        rw [two] at none
        cases none
    · rw [place,goto_other hereV] at one
      by_cases hereU : u = w
      · rw [hereU,place,goto_self] at two
        have none := (initial_means_none counted (unbiasing two)).2 v
        rw [one] at none
        cases none
      · rw [place,goto_other hereU] at two
        exact counted.single v u one two
  · intro v c now
    by_cases here : v = w
    · rw [here,place,goto_self] at now
      rcases next with rfl | chosen
      · cases now
      · split at chosen
        · rw [chosen] at now
          cases now
        · rw [chosen] at now
          cases now
    · rw [place,goto_other here] at now
      exact counted.fix v c now
  · intro v role
    by_cases here : v = w
    · rw [here,own]
      exact Nat.succ_pos _
    · rw [place,goto_other here] at role
      rw [other v here]
      exact counted.holds v role
  · intro _ high
    by_cases fixing : pc.fixes = true
    · exact ⟨w,by rw [place,goto_self]; exact fixing⟩
    · have biggerThan : s.mStrong ≠ INITIAL_STRONG_VALUE := by
        intro full
        rcases next with rfl | chosen
        · exact fixing rfl
        · rw [if_neg (not_not.mpr full)] at chosen
          rw [chosen] at fixing
          exact fixing rfl
      rw [strong] at high
      have before : INITIAL_STRONG_VALUE ≤ s.mStrong := by
        rcases counted.count with plain | biased <;> omega
      have acquired : s.acquired = true := by
        cases known : s.acquired with
        | true => rfl
        | false => exact absurd (counted.fresh known).1 biggerThan
      obtain ⟨v,already⟩ := counted.fixed acquired before
      have differs : v ≠ w := by
        intro here
        rw [here,idle] at already
        cases already
      exact ⟨v,by rw [place,goto_other differs]; exact already⟩
  · intro never
    cases never

theorem dropBias_counted (counted : Counted s) (fixing : (s.pc w).fixes = true) (high : INITIAL_STRONG_VALUE ≤ s.mStrong)
    (alone : ∀ v, s.pc v = .unbias → v = w) : Counted (dropBias s w) := by
  have value : INITIAL_STRONG_VALUE = 2^28 := rfl
  have range := counted_range counted
  have few := counted.few
  have strong : (dropBias s w).mStrong = s.mStrong-INITIAL_STRONG_VALUE :=
    int32_of_range (by omega) (by omega)
  have refs : strongRefs (dropBias s w) = strongRefs s := rfl
  have plain : (dropBias s w).mStrong = strongRefs s := by
    rw [strong]
    rcases counted.count with plain | biased <;> omega
  have busy : ∀ v, (dropBias s w).pc v ≠ .idle → v ≠ w ∧ (dropBias s w).pc v = s.pc v :=
    fun v => idle_other
  have gone : ∀ v, (dropBias s w).pc v ≠ .unbias := by
    intro v now
    obtain ⟨differs,same⟩ := busy v (by rw [now]; simp)
    exact differs (alone v (same ▸ now))
  refine ⟨by rw [refs]; exact few,.inl plain,fun v now => absurd now (gone v),
    fun v u now => absurd now (gone v),?_,?_,?_,?_⟩
  · intro v c now
    obtain ⟨_,same⟩ := busy v (by rw [now]; simp)
    exact counted.fix v c (same ▸ now)
  · intro v role
    have notIdle : (dropBias s w).pc v ≠ .idle := by
      rcases role with fixing | decrementing
      · exact fixes_busy fixing
      · rw [decrementing]
        simp
    obtain ⟨_,same⟩ := busy v notIdle
    rw [same] at role
    exact counted.holds v role
  · intro _ still
    rw [plain] at still
    omega
  · intro never
    have held := counted.holds w (.inl fixing)
    have bound := held_le s w
    have none := (counted.fresh never).2
    omega

theorem dec_counted {pc : Pc} (counted : Counted s) (decrementing : s.pc w = .dec)
    (next : pc = .lastStrongRef ∨ pc = .decWeak) :
    Counted {goto s w pc with
      mStrong := int32 (s.mStrong-1)
      held := Function.update s.held w (s.held w-1)} := by
  have value : INITIAL_STRONG_VALUE = 2^28 := rfl
  have range := counted_range counted
  have owned := counted.holds w (.inr decrementing)
  have bound := held_le s w
  have few := counted.few
  have strong : int32 (s.mStrong-1) = s.mStrong-1 := int32_of_range (by omega) (by omega)
  have refs : ∑ v, Function.update s.held w (s.held w-1) v+1 = strongRefs s := by
    have moved := total_update s.held w (s.held w-1)
    simp only [strongRefs]
    omega
  have notIdle : ∀ v, (goto s w pc).pc v ≠ pc → v ≠ w ∧ (goto s w pc).pc v = s.pc v := by
    intro v differs
    have other : v ≠ w := by
      intro here
      rw [here] at differs
      exact differs goto_self
    exact ⟨other,goto_other other⟩
  have quiet : pc ≠ .unbias ∧ pc ≠ .dec ∧ pc.fixes = false ∧ ∀ c, pc ≠ .fix c := by
    rcases next with rfl | rfl <;> simp [Pc.fixes]
  have unbias : ∀ v, (goto s w pc).pc v = .unbias → s.pc v = .unbias := by
    intro v now
    obtain ⟨_,same⟩ := notIdle v (by rw [now]; exact quiet.1.symm)
    exact same ▸ now
  have others : ∀ v, (s.pc v).fixes = true → v ≠ w := by
    intro v fixing here
    rw [here,decrementing] at fixing
    cases fixing
  refine ⟨?_,?_,?_,?_,?_,?_,?_,?_⟩
  · simp only [strongRefs]
    omega
  · simp only [strongRefs,strong]
    rcases counted.count with plain | biased <;> omega
  · intro v now
    have high := counted.unbias v (unbias v now)
    simp only [strong]
    rcases counted.count with plain | biased <;> omega
  · exact fun v u one two => counted.single v u (unbias v one) (unbias u two)
  · intro v c now
    obtain ⟨_,same⟩ := notIdle v (by rw [now]; exact (quiet.2.2.2 c).symm)
    exact counted.fix v c (same ▸ now)
  · intro v role
    obtain ⟨differs,same⟩ := notIdle v (by
      intro equal
      rw [equal] at role
      simp [quiet] at role)
    rw [same] at role
    have held := counted.holds v role
    simpa only [Function.update_of_ne differs] using held
  · intro acquired high
    simp only [strong] at high
    obtain ⟨v,fixing⟩ := counted.fixed acquired (by omega)
    exact ⟨v,by simp only [goto_other (others v fixing),fixing]⟩
  · intro never
    have none := (counted.fresh never).2
    omega

theorem leave_counted (counted : Counted s) (low : s.mStrong < INITIAL_STRONG_VALUE) :
    Counted (goto s w .idle) := by
  have busy : ∀ v, (goto s w .idle).pc v ≠ .idle → v ≠ w ∧ (goto s w .idle).pc v = s.pc v :=
    fun v => idle_other
  have gone : ∀ v, (goto s w .idle).pc v ≠ .unbias := by
    intro v now
    obtain ⟨_,same⟩ := busy v (by rw [now]; simp)
    have high := counted.unbias v (same ▸ now)
    omega
  refine ⟨counted.few,counted.count,fun v now => absurd now (gone v),
    fun v u now => absurd now (gone v),?_,?_,?_,counted.fresh⟩
  · intro v c now
    obtain ⟨_,same⟩ := busy v (by rw [now]; simp)
    exact counted.fix v c (same ▸ now)
  · intro v role
    have notIdle : (goto s w .idle).pc v ≠ .idle := by
      rcases role with fixing | decrementing
      · exact fixes_busy fixing
      · rw [decrementing]
        simp
    obtain ⟨_,same⟩ := busy v notIdle
    rw [same] at role
    exact counted.holds v role
  · intro _ high
    exact absurd high (Int.not_le.mpr low)

theorem afterRead_quiet (curCount : Int) : (afterRead curCount).fixes = false ∧
    afterRead curCount ≠ .unbias ∧ (∀ c, afterRead curCount ≠ .fix c) ∧ afterRead curCount ≠ .dec := by
  unfold afterRead
  split
  · simp [Pc.fixes]
  · split <;> simp [Pc.fixes]

theorem atomicStep_counted {next : State W} (counted : Counted s) (clean : Clean s (.step w))
    (moved : atomicStep s w = some next) : Counted next := by
  unfold atomicStep at moved
  simp only [Clean] at clean
  cases place : s.pc w with
  | idle =>
    rw [place] at moved
    cases moved
  | incWeak =>
    rw [place] at moved
    cases moved
    have moved : Counted (goto s w .inc) := goto_counted counted (by rw [place]; rfl) (by simp) (by simp)
      (by simp)
    exact weak_counted moved _ _
  | inc =>
    rw [place] at moved clean
    cases moved
    exact grab_counted counted (by rw [place]; rfl) clean (.inr rfl)
  | unbias =>
    rw [place] at moved
    cases moved
    exact dropBias_counted counted (by rw [place]; rfl) (counted.unbias w place)
      (fun v now => counted.single v w now place)
  | dec =>
    rw [place] at moved
    cases moved
    apply dec_counted counted place
    split
    · exact .inl rfl
    · exact .inr rfl
  | lastStrongRef =>
    rw [place] at moved
    cases moved
    have moved : Counted (goto s w .decWeak) := goto_counted counted (by rw [place]; rfl) (by simp)
      (by simp) (by simp)
    exact weak_counted moved _ _
  | decWeak =>
    rw [place] at moved
    cases moved
    have moved : Counted (goto s w .idle) := goto_counted counted (by rw [place]; rfl) (by simp)
      (by simp) (by simp)
    exact weak_counted moved _ _
  | attempt =>
    rw [place] at moved
    cases moved
    have moved : Counted (goto s w .read) := goto_counted counted (by rw [place]; rfl) (by simp)
      (by simp) (by simp)
    exact weak_counted moved _ _
  | read =>
    rw [place] at moved
    cases moved
    obtain ⟨idle,notUnbias,notFix,notDec⟩ := afterRead_quiet s.mStrong
    exact goto_counted counted (by rw [place,idle]; rfl) notUnbias
      (fun c now => absurd now (notFix c)) (fun now => absurd now notDec)
  | promote curCount =>
    rw [place] at moved clean
    cases moved
    split
    · exact grab_counted counted (by rw [place]; rfl) clean (.inl rfl)
    · exact goto_counted counted (by rw [place]; rfl) (by simp) (by simp) (by simp)
  | first curCount =>
    rw [place] at moved clean
    cases moved
    split
    · exact grab_counted counted (by rw [place]; rfl) clean (.inl rfl)
    · exact goto_counted counted (by rw [place]; rfl) (by simp) (by simp) (by simp)
  | readFirst =>
    rw [place] at moved
    cases moved
    split <;> exact goto_counted counted (by rw [place]; rfl) (by simp) (by simp) (by simp)
  | readFix =>
    rw [place] at moved
    cases moved
    split
    · rename_i high
      exact goto_counted counted (by rw [place]; rfl) (by simp)
        (fun c now => by cases now; exact high) (by simp)
    · rename_i low
      exact leave_counted counted (Int.not_le.mp low)
  | fix curCount =>
    rw [place] at moved clean
    cases moved
    split
    · rename_i same
      have high := counted.fix w curCount place
      exact dropBias_counted counted (by rw [place]; rfl) (same ▸ high)
        (fun v now => absurd now (clean same v))
    · exact goto_counted counted (by rw [place]; rfl) (by simp) (by simp) (by simp)

theorem step_counted (s : State W) (action : Action W) (next : State W) (counted : Counted s)
    (clean : Clean s action) (moved : step s action = some next) : Counted next := by
  cases action with
  | incStrong w =>
    simp only [step] at moved
    split at moved
    · rename_i idle
      cases moved
      exact goto_counted counted (by rw [idle]; rfl) (by simp) (by simp) (by simp)
    · cases moved
  | decStrong w =>
    simp only [step] at moved
    split at moved
    · rename_i owner
      cases moved
      exact goto_counted counted (by rw [owner.1]; rfl) (by simp) (by simp) (fun _ => owner.2)
    · cases moved
  | attemptIncStrong w =>
    simp only [step] at moved
    split at moved
    · rename_i idle
      cases moved
      exact goto_counted counted (by rw [idle]; rfl) (by simp) (by simp) (by simp)
    · cases moved
  | step w => exact atomicStep_counted counted clean moved

omit [DecidableEq W] in
theorem initial_counted : Counted (initial W) := by
  have none : strongRefs (initial W) = 0 := Finset.sum_eq_zero fun _ _ => rfl
  refine ⟨?_,?_,?_,?_,?_,?_,?_,fun _ => ⟨rfl,none⟩⟩
  · rw [none]
    decide
  · rw [none]
    exact .inr rfl
  · intro w now
    cases now
  · intro w v now
    cases now
  · intro w c now
    cases now
  · intro w role
    rcases role with fixing | decrementing
    · cases fixing
    · cases decrementing
  · intro acquired
    cases acquired

omit [DecidableEq W] in
theorem counted_exact (counted : Counted s) (quiet : Quiet s) : Exact s := by
  unfold Exact
  cases acquired : s.acquired with
  | false => exact (counted.fresh acquired).1
  | true =>
    have low : ¬ INITIAL_STRONG_VALUE ≤ s.mStrong := by
      intro high
      obtain ⟨w,fixing⟩ := counted.fixed acquired high
      exact fixes_busy fixing (quiet w)
    rcases counted.count with plain | biased
    · exact plain
    · omega

end Invariant

theorem strong_count_exact {W : Type} [Fintype W] [DecidableEq W] {actions : List (Action W)}
    {s : State W} (clean : Obeys step Clean (initial W) actions)
    (ran : run step (initial W) actions = some s) (quiet : Quiet s) : Exact s :=
  counted_exact (obeys_invariant Counted step_counted initial_counted clean ran) quiet

def inTurn : List (Action Bool) :=
  [.incStrong true,.step true,.step true,.step true,.attemptIncStrong false,.step false,.step false,
    .step false,.step false]

theorem strong_count_exact_in_turn :
    ∃ s, run step (initial Bool) inTurn = some s ∧ Obeys step Clean (initial Bool) inTurn ∧
      Quiet s ∧ s.destroyed = false ∧ Exact s ∧ strongRefs s = 2 := by
  have clean : Obeys step Clean (initial Bool) inTurn := by
    refine obeys_step rfl trivial (obeys_step rfl trivial (obeys_step rfl ?_ (obeys_step rfl trivial
      (obeys_step rfl trivial (obeys_step rfl trivial (obeys_step rfl trivial (obeys_step rfl ?_
        (obeys_step rfl trivial trivial))))))))
    · change (0 : Int)+1 < INITIAL_STRONG_VALUE
      decide
    · change (1 : Int)+1 < INITIAL_STRONG_VALUE
      decide
  have quiet : ∀ s, run step (initial Bool) inTurn = some s → Quiet s := by
    intro s ran w
    cases ran
    cases w <;> rfl
  exact ⟨_,rfl,clean,quiet _ rfl,rfl,strong_count_exact clean rfl (quiet _ rfl),rfl⟩

-- The first thread has incremented when the other is promoted and takes the bias
-- off; then the first takes it off once more.
def bothUnbias : List (Action Bool) :=
  [.incStrong true,.step true,.step true,.attemptIncStrong false,.step false,.step false,.step false,
    .step false,.step false,.step true]

theorem bias_removed_twice :
    ∃ s, run step (initial Bool) bothUnbias = some s ∧ Quiet s ∧ s.destroyed = false ∧
      strongRefs s = 2 ∧ s.mStrong = 2-INITIAL_STRONG_VALUE ∧ ¬ Exact s := by
  refine ⟨_,rfl,?_,rfl,rfl,rfl,?_⟩
  · intro w
    cases w <;> rfl
  · intro right
    have wrong : (2-INITIAL_STRONG_VALUE : Int) = 2 := right
    exact absurd wrong (by decide)

end SemcMsm7x30.RefBase
