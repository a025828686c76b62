import SemcMsm7x30.RefBase

namespace SemcMsm7x30.RefBase
open PartialMachine

-- incStrong only copies a reference the thread holds, and the references stay
-- below the bias. A thread with a weak one only goes through attemptIncStrong.
def Holders {W : Type} [Fintype W] (s : State W) : Action W → Prop
  | .incStrong w => 0 < s.held w
  | .step w =>
    match s.pc w with
    | .inc | .promote _ | .first _ => strongRefs s+1 < INITIAL_STRONG_VALUE
    | _ => True
  | _ => True

def adopted {W : Type} [Fintype W] [DecidableEq W] (creator : W) : State W :=
  ⟨1,Fintype.card W+1,false,fun _ => .idle,Function.update (fun _ => 0) creator 1,true⟩

def deletes {W : Type} (s : State W) : Action W → Nat
  | .step w => if s.pc w = .lastStrongRef then 1 else 0
  | _ => 0

def countedStep {W : Type} [DecidableEq W] (s : State W × Nat) (action : Action W) :
    Option (State W × Nat) :=
  (step s.1 action).map fun next => (next,s.2+deletes s.1 action)

def Pc.weakRef : Pc → Nat
  | .inc | .lastStrongRef | .decWeak | .read | .promote _ | .first _ | .readFirst => 1
  | _ => 0

section Invariant
variable {W : Type} [Fintype W]

def pending (s : State W) : Nat := ∑ w, (s.pc w).weakRef

structure Alive (s : State W) (deleted : Nat) : Prop where
  counted : Counted s
  calm : ∀ w, s.pc w ≠ .unbias
  calling : ∀ w, s.pc w = .incWeak ∨ s.pc w = .inc → 0 < s.held w
  tried : ∀ w c, s.pc w = .promote c ∨ s.pc w = .first c → 0 < c
  last : ∀ w, s.pc w = .lastStrongRef → s.mStrong = 0 ∧ s.destroyed = false
  single : ∀ w v, s.pc w = .lastStrongRef → s.pc v = .lastStrongRef → w = v
  gone : s.destroyed = true → s.mStrong = 0
  spent : s.mStrong = 0 → s.destroyed = true ∨ ∃ w, s.pc w = .lastStrongRef
  once : deleted = if s.destroyed then 1 else 0
  weak : s.mWeak = Fintype.card W+strongRefs s+pending s

variable {s : State W} {w : W} {deleted : Nat}

theorem zero_refs (counted : Counted s) (zero : s.mStrong = 0) : strongRefs s = 0 := by
  have value : INITIAL_STRONG_VALUE = 2^28 := rfl
  rcases counted.count with plain | biased <;> omega

theorem held_positive (counted : Counted s) (owner : 0 < s.held w) :
    0 < s.mStrong ∧ s.mStrong ≠ INITIAL_STRONG_VALUE := by
  have value : INITIAL_STRONG_VALUE = 2^28 := rfl
  have bound := held_le s w
  have few := counted.few
  rcases counted.count with plain | biased <;> omega

theorem Alive.nobody_last (alive : Alive s deleted) (positive : s.mStrong ≠ 0) (v : W) :
    s.pc v ≠ .lastStrongRef := fun now => positive (alive.last v now).1

theorem Alive.not_destroyed (alive : Alive s deleted) (positive : s.mStrong ≠ 0) :
    s.destroyed = false := by
  cases destroyed : s.destroyed with
  | false => rfl
  | true => exact absurd (alive.gone destroyed) positive

theorem pending_le (s : State W) : pending s ≤ Fintype.card W := by
  have each : ∀ w ∈ Finset.univ,(s.pc w).weakRef ≤ 1 := by
    intro w _
    cases s.pc w <;> simp [Pc.weakRef]
  have bound := Finset.sum_le_card_nsmul Finset.univ (fun w => (s.pc w).weakRef) 1 each
  rw [Finset.card_univ,smul_eq_mul,Nat.mul_one] at bound
  exact bound

theorem pending_here (s : State W) (w : W) : (s.pc w).weakRef ≤ pending s :=
  Finset.single_le_sum (f := fun w => (s.pc w).weakRef) (fun _ _ => Nat.zero_le _) (Finset.mem_univ w)

variable [DecidableEq W]

theorem pending_goto (s : State W) (w : W) (pc : Pc) :
    pending (goto s w pc)+(s.pc w).weakRef = pending s+pc.weakRef := by
  have moved := total_update (fun v => (s.pc v).weakRef) w pc.weakRef
  have same : (fun v => ((goto s w pc).pc v).weakRef) =
      Function.update (fun v => (s.pc v).weakRef) w pc.weakRef := by
    funext v
    by_cases here : v = w
    · rw [here,goto_self,Function.update_self]
    · rw [goto_other here,Function.update_of_ne here]
  unfold pending
  rw [same]
  exact moved

-- No thread ever subtracts the bias of a first incStrong, so nobody can be in the
-- way of an attemptIncStrong that does.
omit [DecidableEq W] in
theorem holders_clean {action : Action W} (alive : Alive s deleted) (holders : Holders s action) :
    Clean s action := by
  cases action with
  | step w =>
    simp only [Holders,Clean] at holders ⊢
    cases place : s.pc w with
    | fix c => exact fun _ v => alive.calm v
    | inc | promote c | first c =>
      rw [place] at holders
      exact holders
    | _ => trivial
  | _ => trivial

omit [Fintype W] in
theorem goto_cases {P : Pc → Prop} {pc : Pc} {v : W} (now : P ((goto s w pc).pc v)) :
    v = w ∧ P pc ∨ v ≠ w ∧ P (s.pc v) := by
  by_cases here : v = w
  · rw [here,goto_self] at now
    exact .inl ⟨here,now⟩
  · rw [goto_other here] at now
    exact .inr ⟨here,now⟩

theorem Alive.goes {pc : Pc} {mWeak : Int} (alive : Alive s deleted) (counted : Counted (goto s w pc))
    (leaves : s.pc w ≠ .lastStrongRef) (arrives : pc ≠ .lastStrongRef ∧ pc ≠ .unbias)
    (calling : pc = .incWeak ∨ pc = .inc → 0 < s.held w)
    (tried : ∀ c, pc = .promote c ∨ pc = .first c → 0 < c)
    (weak : mWeak+(s.pc w).weakRef = s.mWeak+pc.weakRef) :
    Alive {goto s w pc with mWeak := mWeak} deleted := by
  have last : ∀ v, (goto s w pc).pc v = .lastStrongRef → s.pc v = .lastStrongRef := by
    intro v now
    rcases goto_cases (P := (· = .lastStrongRef)) now with ⟨_,here⟩ | ⟨_,before⟩
    · exact absurd here arrives.1
    · exact before
  refine ⟨weak_counted counted _ _,?_,?_,?_,fun v now => alive.last v (last v now),
    fun v u one two => alive.single v u (last v one) (last u two),alive.gone,?_,alive.once,?_⟩
  · intro v now
    rcases goto_cases (P := (· = .unbias)) now with ⟨_,here⟩ | ⟨_,before⟩
    · exact arrives.2 here
    · exact alive.calm v before
  · intro v now
    rcases goto_cases (P := fun pc => pc = .incWeak ∨ pc = .inc) now with ⟨rfl,here⟩ | ⟨_,before⟩
    · exact calling here
    · exact alive.calling v before
  · intro v c now
    rcases goto_cases (P := fun pc => pc = .promote c ∨ pc = .first c) now with
      ⟨_,here⟩ | ⟨_,before⟩
    · exact tried c here
    · exact alive.tried v c before
  · intro zero
    refine (alive.spent zero).imp id ?_
    rintro ⟨v,before⟩
    have differs : v ≠ w := by
      intro here
      rw [here] at before
      exact leaves before
    exact ⟨v,(goto_other differs).trans before⟩
  · have moved := pending_goto s w pc
    have total := alive.weak
    show mWeak = Fintype.card W+strongRefs s+pending (goto s w pc)
    omega

theorem Alive.strong {next : State W} {pc : Pc} (alive : Alive s deleted) (counted : Counted next)
    (place : next.pc = (goto s w pc).pc) (held : ∀ v, v ≠ w → next.held v = s.held v)
    (destroyed : next.destroyed = s.destroyed) (quiet : pc = .idle ∨ pc = .readFix ∨ pc = .decWeak)
    (before : s.mStrong ≠ 0) (after : next.mStrong ≠ 0) (mWeak : next.mWeak = s.mWeak)
    (weak : strongRefs next+pc.weakRef = strongRefs s+(s.pc w).weakRef) : Alive next deleted := by
  have others {P : Pc → Prop} {v : W} (never : ¬P pc) (now : P (next.pc v)) : v ≠ w ∧ P (s.pc v) := by
    rw [place] at now
    exact (goto_cases now).resolve_left fun here => never here.2
  have nobody : ∀ v, next.pc v ≠ .lastStrongRef := by
    intro v now
    have old := others (P := (· = .lastStrongRef)) (by rcases quiet with rfl | rfl | rfl <;> simp) now
    exact alive.nobody_last before v old.2
  have alive_still : next.destroyed = false := destroyed.trans (alive.not_destroyed before)
  refine ⟨counted,?_,?_,?_,fun v now => absurd now (nobody v),fun v u now => absurd now (nobody v),?_,
    fun zero => absurd zero after,?_,?_⟩
  · intro v now
    have old := others (P := (· = .unbias)) (by rcases quiet with rfl | rfl | rfl <;> simp) now
    exact alive.calm v old.2
  · intro v now
    have old := others (P := fun pc => pc = .incWeak ∨ pc = .inc)
      (by rcases quiet with rfl | rfl | rfl <;> simp) now
    rw [held v old.1]
    exact alive.calling v old.2
  · intro v c now
    have old := others (P := fun pc => pc = .promote c ∨ pc = .first c)
      (by rcases quiet with rfl | rfl | rfl <;> simp) now
    exact alive.tried v c old.2
  · intro now
    rw [alive_still] at now
    cases now
  · rw [destroyed]
    exact alive.once
  · have moved := pending_goto s w pc
    have total := alive.weak
    have same : pending next = pending (goto s w pc) := by
      unfold pending
      rw [place]
    rw [mWeak,same]
    omega

theorem grab_alive {pc : Pc} (alive : Alive s deleted) (counted : Counted (grab s w pc))
    (quiet : pc = .idle ∨ pc = .readFix) (positive : 0 < s.mStrong) (one : (s.pc w).weakRef = 1) :
    Alive (grab s w pc) deleted := by
  have range := counted_range alive.counted
  have strong : (grab s w pc).mStrong = s.mStrong+1 := int32_of_range (by omega) (by omega)
  have refs : strongRefs (grab s w pc) = strongRefs s+1 := grab_refs
  have none_left : pc.weakRef = 0 := by rcases quiet with rfl | rfl <;> rfl
  refine alive.strong counted rfl ?_ rfl ?_ (by omega) (by omega) rfl (by omega)
  · intro v differs
    exact Function.update_of_ne differs ..
  · rcases quiet with rfl | rfl
    · exact .inl rfl
    · exact .inr (.inl rfl)

theorem dropBias_alive (alive : Alive s deleted) (counted : Counted (dropBias s w))
    (fixing : (s.pc w).fixes = true) : Alive (dropBias s w) deleted := by
  have owner := alive.counted.holds w (.inl fixing)
  have before := held_positive alive.counted owner
  have after := held_positive (s := dropBias s w) (w := w) counted owner
  have nothing : (s.pc w).weakRef = 0 := by
    cases place : s.pc w <;> rw [place] at fixing <;> simp_all [Pc.fixes,Pc.weakRef]
  refine alive.strong counted rfl (fun _ _ => rfl) rfl (.inl rfl) (by omega) (by omega) rfl ?_
  rw [nothing]
  rfl

theorem dec_alive {pc : Pc} (alive : Alive s deleted) (decrementing : s.pc w = .dec)
    (chosen : pc = if s.mStrong = 1 then .lastStrongRef else .decWeak)
    (counted : Counted {goto s w pc with
      mStrong := int32 (s.mStrong-1)
      held := Function.update s.held w (s.held w-1)}) :
    Alive {goto s w pc with
      mStrong := int32 (s.mStrong-1)
      held := Function.update s.held w (s.held w-1)} deleted := by
  have owner := alive.counted.holds w (.inr decrementing)
  have positive := held_positive alive.counted owner
  have range := counted_range alive.counted
  have strong : int32 (s.mStrong-1) = s.mStrong-1 := int32_of_range (by omega) (by omega)
  have refs : ∑ v, Function.update s.held w (s.held w-1) v+1 = strongRefs s := by
    have moved := total_update s.held w (s.held w-1)
    simp only [strongRefs]
    omega
  have nothing : (s.pc w).weakRef = 0 := by rw [decrementing]; rfl
  have others : ∀ v, v ≠ w → Function.update s.held w (s.held w-1) v = s.held v := fun v differs =>
    Function.update_of_ne differs ..
  by_cases one : s.mStrong = 1
  · rw [if_pos one] at chosen
    subst chosen
    have zero : int32 (s.mStrong-1) = 0 := by omega
    have alone : ∀ v, (goto s w .lastStrongRef).pc v = .lastStrongRef → v = w := by
      intro v now
      rcases goto_cases (P := (· = .lastStrongRef)) now with ⟨here,_⟩ | ⟨_,before⟩
      · exact here
      · exact absurd before (alive.nobody_last (by omega) v)
    refine ⟨counted,?_,?_,?_,fun v _ => ⟨zero,alive.not_destroyed (by omega)⟩,
      fun v u one two => (alone v one).trans (alone u two).symm,fun _ => zero,
      fun _ => .inr ⟨w,goto_self⟩,alive.once,?_⟩
    · intro v now
      rcases goto_cases (P := (· = .unbias)) now with ⟨_,here⟩ | ⟨_,before⟩
      · cases here
      · exact alive.calm v before
    · intro v now
      rcases goto_cases (P := fun pc => pc = .incWeak ∨ pc = .inc) now with ⟨_,here⟩ | ⟨differs,before⟩
      · simp at here
      · have old := alive.calling v before
        simpa only [others v differs] using old
    · intro v c now
      rcases goto_cases (P := fun pc => pc = .promote c ∨ pc = .first c) now with ⟨_,here⟩ | ⟨_,before⟩
      · simp at here
      · exact alive.tried v c before
    · have moved := pending_goto s w .lastStrongRef
      have total := alive.weak
      have here : Pc.weakRef .lastStrongRef = 1 := rfl
      show s.mWeak = Fintype.card W+(∑ v, Function.update s.held w (s.held w-1) v : Nat)+
        pending (goto s w .lastStrongRef)
      omega
  · rw [if_neg one] at chosen
    subst chosen
    have here : Pc.weakRef .decWeak = 1 := rfl
    have after : int32 (s.mStrong-1) ≠ 0 := by omega
    refine alive.strong counted rfl others rfl (.inr (.inr rfl)) (by omega) after rfl ?_
    simp only [strongRefs] at refs ⊢
    omega

theorem last_alive (alive : Alive s deleted) (last : s.pc w = .lastStrongRef)
    (counted : Counted (goto s w .decWeak)) :
    Alive {goto s w .decWeak with destroyed := true} (deleted+1) := by
  obtain ⟨zero,unharmed⟩ := alive.last w last
  have none_last : ∀ v, (goto s w .decWeak).pc v ≠ .lastStrongRef := by
    intro v now
    rcases goto_cases (P := (· = .lastStrongRef)) now with ⟨_,here⟩ | ⟨differs,before⟩
    · cases here
    · exact differs (alive.single v w before last)
  refine ⟨weak_counted counted _ _,?_,?_,?_,fun v now => absurd now (none_last v),
    fun v u now => absurd now (none_last v),fun _ => zero,fun _ => .inl rfl,?_,?_⟩
  · intro v now
    rcases goto_cases (P := (· = .unbias)) now with ⟨_,here⟩ | ⟨_,before⟩
    · cases here
    · exact alive.calm v before
  · intro v now
    rcases goto_cases (P := fun pc => pc = .incWeak ∨ pc = .inc) now with ⟨_,here⟩ | ⟨_,before⟩
    · simp at here
    · exact alive.calling v before
  · intro v c now
    rcases goto_cases (P := fun pc => pc = .promote c ∨ pc = .first c) now with ⟨_,here⟩ | ⟨_,before⟩
    · simp at here
    · exact alive.tried v c before
  · have never := alive.once
    rw [unharmed] at never
    rw [never]
    rfl
  · have moved := pending_goto s w .decWeak
    rw [last] at moved
    have total := alive.weak
    have same : Pc.weakRef .lastStrongRef = Pc.weakRef .decWeak := rfl
    show s.mWeak = Fintype.card W+strongRefs s+pending (goto s w .decWeak)
    omega

omit [DecidableEq W] in
theorem weak_range (alive : Alive s deleted) (threads : Fintype.card W < 2^29) (w : W) :
    Fintype.card W+(s.pc w).weakRef ≤ s.mWeak ∧ s.mWeak < 2^31-1 ∧ 0 < Fintype.card W := by
  have total := alive.weak
  have few := alive.counted.few
  have value : INITIAL_STRONG_VALUE = 2^28 := rfl
  have some_pending := pending_le s
  have here := pending_here s w
  have anyone : 0 < Fintype.card W := Fintype.card_pos_iff.mpr ⟨w⟩
  omega

theorem Alive.moves {pc : Pc} (alive : Alive s deleted) (counted : Counted (goto s w pc))
    (leaves : s.pc w ≠ .lastStrongRef) (arrives : pc ≠ .lastStrongRef ∧ pc ≠ .unbias)
    (calling : pc = .incWeak ∨ pc = .inc → 0 < s.held w)
    (tried : ∀ c, pc = .promote c ∨ pc = .first c → 0 < c) (same : pc.weakRef = (s.pc w).weakRef) :
    Alive (goto s w pc) deleted :=
  alive.goes counted leaves arrives calling tried (by rw [same])

theorem after_read_tried {curCount c : Int}
    (next : afterRead curCount = .promote c ∨ afterRead curCount = .first c) : 0 < c := by
  unfold afterRead at next
  split at next
  · rename_i positive
    rcases next with same | same
    · cases same
      exact positive.1
    · cases same
  · split at next
    · rcases next with same | same <;> cases same
    · rename_i positive
      rcases next with same | same
      · cases same
      · cases same
        omega

theorem incWeak_alive {pc : Pc} (alive : Alive s deleted) (threads : Fintype.card W < 2^29)
    (counted : Counted {goto s w pc with mWeak := int32 (s.mWeak+1)}) (before : (s.pc w).weakRef = 0)
    (leaves : s.pc w ≠ .lastStrongRef) (arrives : pc = .read ∨ pc = .inc ∧ 0 < s.held w) :
    Alive {goto s w pc with mWeak := int32 (s.mWeak+1)} deleted := by
  have range := weak_range alive threads w
  have more : int32 (s.mWeak+1) = s.mWeak+1 := int32_of_range (by omega) (by omega)
  have going : Counted (goto s w pc) := weak_counted counted s.mWeak s.destroyed
  have after : pc.weakRef = 1 := by rcases arrives with rfl | ⟨rfl,_⟩ <;> rfl
  refine alive.goes going leaves ?_ ?_ ?_ ?_
  · rcases arrives with rfl | ⟨rfl,_⟩ <;> simp
  · rcases arrives with rfl | ⟨rfl,owner⟩
    · simp
    · exact fun _ => owner
  · rcases arrives with rfl | ⟨rfl,_⟩ <;> simp
  · rw [more,before,after]
    simp

theorem decWeak_alive (alive : Alive s deleted) (threads : Fintype.card W < 2^29)
    (place : s.pc w = .decWeak)
    (counted : Counted {goto s w .idle with
      mWeak := int32 (s.mWeak-1)
      destroyed := s.destroyed || decide (s.mWeak = 1)}) :
    Alive {goto s w .idle with
      mWeak := int32 (s.mWeak-1)
      destroyed := s.destroyed || decide (s.mWeak = 1)} deleted := by
  have range := weak_range alive threads w
  have one : (s.pc w).weakRef = 1 := by rw [place]; rfl
  have less : int32 (s.mWeak-1) = s.mWeak-1 := int32_of_range (by omega) (by omega)
  have others : decide (s.mWeak = 1) = false := by
    rw [decide_eq_false_iff_not]
    omega
  have going : Counted (goto s w .idle) := weak_counted counted s.mWeak s.destroyed
  simp only [others,Bool.or_false]
  refine alive.goes going (by rw [place]; simp) (by simp) (by simp) (by simp) ?_
  rw [less,one]
  simp [Pc.weakRef]

theorem read_alive (alive : Alive s deleted) (place : s.pc w = .read)
    (counted : Counted (goto s w (afterRead s.mStrong))) :
    Alive (goto s w (afterRead s.mStrong)) deleted := by
  have weak : (afterRead s.mStrong).weakRef = 1 := by
    unfold afterRead
    split
    · rfl
    · split <;> rfl
  have calm : afterRead s.mStrong ≠ .lastStrongRef ∧
      ¬(afterRead s.mStrong = .incWeak ∨ afterRead s.mStrong = .inc) := by
    unfold afterRead
    split
    · simp
    · split <;> simp
  exact alive.moves counted (by rw [place]; simp) ⟨calm.1,(afterRead_quiet s.mStrong).2.1⟩
    (fun now => absurd now calm.2) (fun _ => after_read_tried) (by rw [weak,place]; rfl)

theorem exchange_alive {pc : Pc} {curCount : Int} (alive : Alive s deleted)
    (counted : Counted (if s.mStrong = curCount then grab s w .readFix else goto s w pc))
    (tried : 0 < curCount) (one : (s.pc w).weakRef = 1) (leaves : s.pc w ≠ .lastStrongRef)
    (again : pc = .read ∨ pc = .readFirst) :
    Alive (if s.mStrong = curCount then grab s w .readFix else goto s w pc) deleted := by
  by_cases same : s.mStrong = curCount
  · rw [if_pos same] at counted ⊢
    exact grab_alive alive counted (.inr rfl) (by omega) one
  · rw [if_neg same] at counted ⊢
    rcases again with rfl | rfl <;>
      exact alive.moves counted leaves (by simp) (by simp) (by simp) (by rw [one]; rfl)

theorem atomicStep_alive {next : State W} (alive : Alive s deleted) (threads : Fintype.card W < 2^29)
    (counted : Counted next) (moved : atomicStep s w = some next) :
    Alive next (deleted+deletes s (.step w)) := by
  unfold atomicStep at moved
  cases place : s.pc w with
  | idle =>
    rw [place] at moved
    cases moved
  | incWeak =>
    rw [place] at moved
    cases moved
    simp only [deletes,place]
    exact incWeak_alive alive threads counted (by rw [place]; rfl) (by rw [place]; simp)
      (.inr ⟨rfl,alive.calling w (.inl place)⟩)
  | inc =>
    rw [place] at moved
    have owner := alive.calling w (.inr place)
    have positive := held_positive alive.counted owner
    rw [if_pos positive.2] at moved
    cases moved
    simp only [deletes,place]
    exact grab_alive alive counted (.inl rfl) positive.1 (by rw [place]; rfl)
  | unbias => exact absurd place (alive.calm w)
  | dec =>
    rw [place] at moved
    cases moved
    simp only [deletes,place]
    exact dec_alive alive place rfl counted
  | lastStrongRef =>
    rw [place] at moved
    cases moved
    simp only [deletes,place]
    exact last_alive alive place (weak_counted counted s.mWeak s.destroyed)
  | decWeak =>
    rw [place] at moved
    cases moved
    simp only [deletes,place]
    exact decWeak_alive alive threads place counted
  | attempt =>
    rw [place] at moved
    cases moved
    simp only [deletes,place]
    exact incWeak_alive alive threads counted (by rw [place]; rfl) (by rw [place]; simp) (.inl rfl)
  | read =>
    rw [place] at moved
    cases moved
    simp only [deletes,place]
    exact read_alive alive place counted
  | promote curCount =>
    rw [place] at moved
    cases moved
    simp only [deletes,place]
    exact exchange_alive alive counted (alive.tried w curCount (.inl place)) (by rw [place]; rfl)
      (by rw [place]; simp) (.inl rfl)
  | first curCount =>
    rw [place] at moved
    cases moved
    simp only [deletes,place]
    exact exchange_alive alive counted (alive.tried w curCount (.inr place)) (by rw [place]; rfl)
      (by rw [place]; simp) (.inr rfl)
  | readFirst =>
    rw [place] at moved
    simp only [deletes,place]
    by_cases same : 0 < s.mStrong
    · simp only [if_pos same] at moved
      cases moved
      refine alive.moves counted (by rw [place]; simp) (by simp) (by simp) ?_ (by rw [place]; rfl)
      intro c now
      rcases now with here | here
      · cases here
      · cases here
        exact same
    · simp only [if_neg same] at moved
      cases moved
      exact alive.moves counted (by rw [place]; simp) (by simp) (by simp) (by simp)
        (by rw [place]; rfl)
  | readFix =>
    rw [place] at moved
    simp only [deletes,place]
    by_cases same : INITIAL_STRONG_VALUE ≤ s.mStrong
    · simp only [if_pos same] at moved
      cases moved
      exact alive.moves counted (by rw [place]; simp) (by simp) (by simp) (by simp)
        (by rw [place]; rfl)
    · simp only [if_neg same] at moved
      cases moved
      exact alive.moves counted (by rw [place]; simp) (by simp) (by simp) (by simp)
        (by rw [place]; rfl)
  | fix curCount =>
    rw [place] at moved
    simp only [deletes,place]
    by_cases same : s.mStrong = curCount
    · simp only [if_pos same] at moved
      cases moved
      exact dropBias_alive alive counted (by rw [place]; rfl)
    · simp only [if_neg same] at moved
      cases moved
      exact alive.moves counted (by rw [place]; simp) (by simp) (by simp) (by simp)
        (by rw [place]; rfl)

theorem step_alive {next : State W} {action : Action W} (alive : Alive s deleted)
    (threads : Fintype.card W < 2^29) (holders : Holders s action)
    (moved : step s action = some next) : Alive next (deleted+deletes s action) := by
  have counted := step_counted s action next alive.counted (holders_clean alive holders) moved
  cases action with
  | incStrong w =>
    simp only [step] at moved
    split at moved
    · rename_i idle
      cases moved
      exact alive.moves counted (by rw [idle]; simp) (by simp) (fun _ => holders) (by simp)
        (by rw [idle]; rfl)
    · cases moved
  | decStrong w =>
    simp only [step] at moved
    split at moved
    · rename_i owner
      cases moved
      exact alive.moves counted (by rw [owner.1]; simp) (by simp) (by simp) (by simp)
        (by rw [owner.1]; rfl)
    · cases moved
  | attemptIncStrong w =>
    simp only [step] at moved
    split at moved
    · rename_i idle
      cases moved
      exact alive.moves counted (by rw [idle]; simp) (by simp) (by simp) (by simp)
        (by rw [idle]; rfl)
    · cases moved
  | step w => exact atomicStep_alive alive threads counted moved

omit [DecidableEq W] in
theorem initial_alive : Alive (initial W) 0 := by
  have none_pending : pending (initial W) = 0 := Finset.sum_eq_zero fun _ _ => rfl
  have none_held : strongRefs (initial W) = 0 := Finset.sum_eq_zero fun _ _ => rfl
  refine ⟨initial_counted,?_,?_,?_,?_,?_,?_,?_,rfl,?_⟩
  · intro w now
    cases now
  · intro w now
    simp [initial] at now
  · intro w c now
    simp [initial] at now
  · intro w now
    cases now
  · intro w v now
    cases now
  · intro gone
    cases gone
  · intro zero
    cases zero
  · rw [none_pending,none_held]
    simp [initial]

theorem adopted_alive (creator : W) : Alive (adopted creator) 0 := by
  have none_pending : pending (adopted creator) = 0 := Finset.sum_eq_zero fun _ _ => rfl
  have one_held : strongRefs (adopted creator) = 1 := by
    have moved := total_update (fun _ : W => 0) creator 1
    simp only [Finset.sum_const_zero] at moved
    simp only [strongRefs,adopted]
    omega
  have value : INITIAL_STRONG_VALUE = 2^28 := rfl
  have idle (w : W) (pc : Pc) (busy : pc ≠ .idle) : (adopted creator).pc w ≠ pc := busy.symm
  refine ⟨⟨?_,?_,?_,?_,?_,?_,?_,?_⟩,?_,?_,?_,?_,?_,?_,?_,rfl,?_⟩
  · rw [one_held]
    decide
  · rw [one_held]
    exact .inl rfl
  · intro w now
    exact absurd now (idle w _ (by simp))
  · intro w v now
    exact absurd now (idle w _ (by simp))
  · intro w curCount now
    exact absurd now (idle w _ (by simp))
  · intro w role
    simp [adopted,Pc.fixes] at role
  · intro _ high
    have one : (adopted creator).mStrong = 1 := rfl
    rw [one] at high
    exact absurd high (by decide)
  · intro fresh
    cases fresh
  · intro w now
    exact absurd now (idle w _ (by simp))
  · intro w now
    simp [adopted] at now
  · intro w c now
    simp [adopted] at now
  · intro w now
    exact absurd now (idle w _ (by simp))
  · intro w v now
    exact absurd now (idle w _ (by simp))
  · intro gone
    cases gone
  · intro zero
    have one : (adopted creator).mStrong = 1 := rfl
    rw [one] at zero
    exact absurd zero (by decide)
  · rw [none_pending,one_held]
    rfl

end Invariant

section Runs
variable {W : Type} [Fintype W] [DecidableEq W]

theorem adopted_reached (creator : W) (threads : Fintype.card W < 2^29) : run step (initial W)
    [.incStrong creator,.step creator,.step creator,.step creator] = some (adopted creator) := by
  have weak : int32 ((Fintype.card W : Int)+1) = (Fintype.card W : Int)+1 :=
    int32_of_range (by omega) (by omega)
  have strong : int32 (int32 (INITIAL_STRONG_VALUE+1)-INITIAL_STRONG_VALUE) = 1 := by decide
  simp [run,step,atomicStep,initial,goto,grab,dropBias,weak,strong,adopted]

def New (s : State W) : Prop := s = initial W ∨ ∃ creator, s = adopted creator

theorem run_alive {first s : State W} {deleted : Nat} {actions : List (Action W)}
    (threads : Fintype.card W < 2^29) (new : New first)
    (holders : Obeys countedStep (fun s => Holders s.1) (first,0) actions)
    (ran : run countedStep (first,0) actions = some (s,deleted)) : Alive s deleted := by
  have start : Alive first 0 := by
    rcases new with rfl | ⟨creator,rfl⟩
    · exact initial_alive
    · exact adopted_alive creator
  refine obeys_invariant (fun s : State W × Nat => Alive s.1 s.2) ?_ start holders ran
  intro s action next alive holds moved
  obtain ⟨after,stepped,rfl⟩ := Option.map_eq_some_iff.mp moved
  exact step_alive alive threads holds stepped

-- Any number of threads copy the references they hold, let them go and try to be
-- promoted, in any order of their atomic operations: nobody holds a reference to
-- an object that is gone, it goes once and no sooner than its last reference.
theorem promotion_safe {first s : State W} {deleted : Nat} {actions : List (Action W)}
    (threads : Fintype.card W < 2^29) (new : New first)
    (holders : Obeys countedStep (fun s => Holders s.1) (first,0) actions)
    (ran : run countedStep (first,0) actions = some (s,deleted)) :
    deleted ≤ 1 ∧ (s.destroyed ↔ deleted = 1) ∧ (∀ w, 0 < s.held w → s.destroyed = false) ∧
      (Quiet s → Exact s ∧ (s.destroyed ↔ s.acquired ∧ strongRefs s = 0)) := by
  have alive := run_alive threads new holders ran
  have once := alive.once
  refine ⟨?_,?_,?_,?_⟩
  · rw [once]
    split <;> omega
  · cases destroyed : s.destroyed <;> simp [destroyed] at once ⊢ <;> omega
  · intro w owner
    have positive := held_positive alive.counted owner
    exact alive.not_destroyed (by omega)
  · intro quiet
    have exactly := counted_exact alive.counted quiet
    refine ⟨exactly,?_,?_⟩
    · intro destroyed
      have zero := alive.gone destroyed
      refine ⟨?_,zero_refs alive.counted zero⟩
      cases acquired : s.acquired with
      | true => rfl
      | false =>
        have full := (alive.counted.fresh acquired).1
        rw [zero] at full
        exact absurd full (by decide)
    · rintro ⟨acquired,none⟩
      rw [Exact,if_pos acquired,none] at exactly
      rcases alive.spent exactly with destroyed | ⟨w,last⟩
      · exact destroyed
      · rw [quiet w] at last
        cases last

end Runs

def promotedBoth : List (Action Bool) :=
  [.attemptIncStrong true,.step true,.attemptIncStrong false,.step false,.step true,.step false,
    .step true,.step false,.step false,.step false,.step true,.step true,.step false,
    .decStrong true,.step true,.step true,.decStrong false,.step false,.step false,.step false]

theorem promotion_safe_both : ∃ s,run countedStep (initial Bool,0) promotedBoth = some (s,1) ∧
    (s.destroyed ↔ 1 = 1) ∧ strongRefs s = 0 := by
  have holders : Obeys countedStep (fun s => Holders s.1) (initial Bool,0) promotedBoth := by
    refine obeys_step rfl trivial (obeys_step rfl trivial (obeys_step rfl trivial (obeys_step rfl
      trivial (obeys_step rfl trivial (obeys_step rfl trivial (obeys_step rfl ?_ (obeys_step rfl
      ?_ (obeys_step rfl trivial (obeys_step rfl ?_ (obeys_step rfl trivial (obeys_step rfl
      trivial (obeys_step rfl trivial (obeys_step rfl trivial (obeys_step rfl trivial (obeys_step
      rfl trivial (obeys_step rfl trivial (obeys_step rfl trivial (obeys_step rfl trivial
      (obeys_step rfl trivial (trivial))))))))))))))))))))
    · change (0 : Int)+1 < INITIAL_STRONG_VALUE
      decide
    · change (1 : Int)+1 < INITIAL_STRONG_VALUE
      decide
    · change (1 : Int)+1 < INITIAL_STRONG_VALUE
      decide
  have ran : run countedStep (initial Bool,0) promotedBoth = some (_,1) := rfl
  exact ⟨_,ran,(promotion_safe (by decide) (.inl rfl) holders ran).2.1,rfl⟩

end SemcMsm7x30.RefBase
