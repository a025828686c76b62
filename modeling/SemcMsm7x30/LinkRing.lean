import Mathlib

namespace LinkRing
variable {N : Type*}

structure Links (N : Type*) where
  next : N → Option N
  prev : N → Option N

def Chain (links : Links N) : N → List N → N → Prop
  | first,[],last => links.next first = some last ∧ links.prev last = some first
  | first,node :: rest,last =>
    links.next first = some node ∧ links.prev node = some first ∧ Chain links node rest last

-- A circular list that starts at its head node, every node reached once.
structure Ring (links : Links N) (head : N) (nodes : List N) : Prop where
  chain : Chain links head nodes head
  nodup : (head :: nodes).Nodup

section Chains
variable {links other : Links N} {first middle last : N} {front back : List N}

theorem chain_append :
    Chain links first (front ++ middle :: back) last ↔
      Chain links first front middle ∧ Chain links middle back last := by
  induction front generalizing first with
  | nil => simp [Chain,and_assoc]
  | cons node rest ih => simp [Chain,ih,and_assoc]

theorem chain_next (chain : Chain links first front last) :
    links.next first = some (front.headD last) := by
  cases front with
  | nil => exact chain.1
  | cons node rest => exact chain.1

theorem chain_prev (chain : Chain links first front last) :
    links.prev last = some (front.getLastD first) := by
  induction front generalizing first with
  | nil => exact chain.2
  | cons node rest ih =>
    rw [List.getLastD_cons]
    exact ih chain.2.2

theorem chain_redirect {target : N} (chain : Chain links first front last)
    (nodup : (first :: front).Nodup)
    (next : ∀ n ∈ first :: front, n ≠ front.getLastD first → other.next n = links.next n)
    (prev : ∀ n ∈ front, other.prev n = links.prev n)
    (out : other.next (front.getLastD first) = some target)
    (into : other.prev target = some (front.getLastD first)) :
    Chain other first front target := by
  induction front generalizing first with
  | nil => exact ⟨out,into⟩
  | cons node rest ih =>
    rw [List.getLastD_cons] at out into next
    obtain ⟨fresh,restNodup⟩ := List.nodup_cons.mp nodup
    have differs : first ≠ rest.getLastD node := by
      intro same
      exact fresh (same ▸ List.getLastD_mem_cons)
    refine ⟨?_,?_,?_⟩
    · rw [next first List.mem_cons_self differs]
      exact chain.1
    · rw [prev node List.mem_cons_self]
      exact chain.2.1
    · apply ih chain.2.2 restNodup
      · exact fun n present => next n (List.mem_cons_of_mem _ present)
      · exact fun n present => prev n (List.mem_cons_of_mem _ present)
      · exact out
      · exact into

theorem chain_unique (one : Chain links first front last) (two : Chain links first back last)
    (apartOne : last ∉ front) (apartTwo : last ∉ back) : front = back := by
  induction front generalizing first back with
  | nil =>
    cases back with
    | nil => rfl
    | cons node rest =>
      have same : last = node := Option.some.inj (one.1.symm.trans two.1)
      exact absurd (same ▸ List.mem_cons_self) apartTwo
  | cons node rest ih =>
    cases back with
    | nil =>
      have same : node = last := Option.some.inj (one.1.symm.trans two.1)
      exact absurd (same ▸ List.mem_cons_self) apartOne
    | cons other tail =>
      have same : node = other := Option.some.inj (one.1.symm.trans two.1)
      subst same
      rw [ih one.2.2 two.2.2 (fun present => apartOne (List.mem_cons_of_mem _ present))
        fun present => apartTwo (List.mem_cons_of_mem _ present)]

theorem chain_split :
    Chain links first (front ++ back) last ↔
      Chain links first front (back.headD last) ∧ Chain links (front.getLastD first) back last := by
  induction front generalizing first with
  | nil =>
    cases back with
    | nil => simp [Chain]
    | cons node rest =>
      simp only [Chain,List.nil_append,List.headD_cons,List.getLastD_nil]
      tauto
  | cons node rest ih =>
    rw [List.getLastD_cons,List.cons_append]
    simp only [Chain,ih,and_assoc]

theorem chain_frame (chain : Chain links first front last)
    (next : ∀ n ∈ first :: front, other.next n = links.next n)
    (prev : ∀ n ∈ front ++ [last], other.prev n = links.prev n) : Chain other first front last := by
  induction front generalizing first with
  | nil => exact ⟨(next first (by simp)).trans chain.1,(prev last (by simp)).trans chain.2⟩
  | cons node rest ih =>
    refine ⟨(next first (by simp)).trans chain.1,(prev node (by simp)).trans chain.2.1,?_⟩
    apply ih chain.2.2
    · exact fun n present => next n (List.mem_cons_of_mem _ present)
    · exact fun n present => prev n (List.mem_cons_of_mem _ present)

end Chains

def Outside (links other : Links N) (nodes : List N) : Prop :=
  ∀ n ∉ nodes, other.next n = links.next n ∧ other.prev n = links.prev n

section Rings
variable {links other : Links N} {head : N} {nodes : List N}

theorem ring_frame (ring : Ring links head nodes) (touched : List N)
    (outside : Outside links other touched) (apart : ∀ n ∈ head :: nodes, n ∉ touched) :
    Ring other head nodes := by
  refine ⟨chain_frame ring.chain (fun n present => (outside n (apart n present)).1) ?_,ring.nodup⟩
  intro n present
  refine (outside n (apart n ?_)).2
  simp only [List.mem_append,List.mem_singleton] at present
  rcases present with inside | rfl
  · exact List.mem_cons_of_mem _ inside
  · exact List.mem_cons_self

theorem ring_unique {others : List N} (one : Ring links head nodes) (two : Ring links head others) :
    nodes = others :=
  chain_unique one.chain two.chain (List.nodup_cons.mp one.nodup).1 (List.nodup_cons.mp two.nodup).1

theorem ring_empty (next : links.next head = some head) (prev : links.prev head = some head) :
    Ring links head [] :=
  ⟨⟨next,prev⟩,by simp⟩

variable {front back : List N}

theorem nodup_middle {node : N} (front back : List N) :
    (front ++ node :: back).Nodup ↔ node ∉ front ++ back ∧ (front ++ back).Nodup := by
  rw [List.perm_middle.nodup_iff,List.nodup_cons]

theorem headD_mem_cons (head : N) (back : List N) : back.headD head ∈ head :: back := by
  cases back <;> simp

theorem place_not_front (nodup : (head :: (front ++ back)).Nodup) : back.headD head ∉ front := by
  simp only [List.nodup_cons,List.mem_append,not_or,List.nodup_append] at nodup
  intro inside
  rcases List.mem_cons.mp (headD_mem_cons head back) with same | later
  · exact nodup.1.1 (same ▸ inside)
  · exact nodup.2.2.2 _ inside _ later rfl

theorem final_not_back (nodup : (head :: (front ++ back)).Nodup) : front.getLastD head ∉ back := by
  simp only [List.nodup_cons,List.mem_append,not_or,List.nodup_append] at nodup
  intro inside
  have present : front.getLastD head ∈ head :: front := List.getLastD_mem_cons
  rcases List.mem_cons.mp present with same | earlier
  · exact nodup.1.2 (same ▸ inside)
  · exact nodup.2.2.2 _ earlier _ inside rfl

theorem chain_back {node entry : N} (old : Chain links entry back head)
    (nodup : (head :: back).Nodup)
    (out : other.next node = some (back.headD head)) (into : other.prev (back.headD head) = some node)
    (next : ∀ n ∈ back, other.next n = links.next n)
    (prev : ∀ n ∈ head :: back, n ≠ back.headD head → other.prev n = links.prev n) :
    Chain other node back head := by
  cases back with
  | nil => exact ⟨out,into⟩
  | cons first rest =>
    refine ⟨out,into,?_⟩
    simp only [List.nodup_cons,List.mem_cons,not_or] at nodup
    apply chain_frame old.2.2 next
    intro n present
    simp only [List.mem_append,List.mem_singleton] at present
    rcases present with inside | rfl
    · exact prev n (by simp [inside]) fun same => nodup.2.1 ((show n = first from same) ▸ inside)
    · exact prev n (by simp) nodup.1.1

end Rings

section Operations
variable [DecidableEq N]

def Links.setNext (links : Links N) (node : N) (value : Option N) : Links N :=
  {links with next := Function.update links.next node value}

def Links.setPrev (links : Links N) (node : N) (value : Option N) : Links N :=
  {links with prev := Function.update links.prev node value}

-- Both operations stop where a null pointer is followed.
def insertBefore (links : Links N) (node place : N) : Option (Links N) :=
  let links := links.setNext node (some place)
  let links := links.setPrev node (links.prev place)
  match links.prev node with
  | none => none
  | some before => some ((links.setNext before (some node)).setPrev place (some node))

def unlink (links : Links N) (node : N) : Option (Links N) :=
  match links.next node with
  | none => none
  | some after =>
    let links := links.setPrev after (links.prev node)
    match links.prev node with
    | none => none
    | some before =>
      let links := links.setNext before (links.next node)
      some ((links.setNext node none).setPrev node none)

variable {links : Links N} {head node place before after : N} {front back : List N}

theorem insertBefore_eq (found : links.prev place = some before) :
    insertBefore links node place = some
      {next := Function.update (Function.update links.next node (some place)) before (some node)
       prev := Function.update (Function.update links.prev node (some before)) place (some node)} := by
  simp [insertBefore,Links.setNext,Links.setPrev,found]

theorem unlink_eq (next : links.next node = some after) (prev : links.prev node = some before)
    (differs : node ≠ after) :
    unlink links node = some
      {next := Function.update (Function.update links.next before (some after)) node none
       prev := Function.update (Function.update links.prev after (some before)) node none} := by
  simp [unlink,Links.setNext,Links.setPrev,next,prev,differs]

theorem insertBefore_ring (ring : Ring links head (front ++ back))
    (fresh : node ∉ head :: (front ++ back)) :
    ∃ other, insertBefore links node (back.headD head) = some other ∧
      Ring other head (front ++ node :: back) ∧
      Outside links other (node :: head :: (front ++ back)) := by
  obtain ⟨into,out⟩ := chain_split.mp ring.chain
  have placeIn := headD_mem_cons head back
  have finalIn : front.getLastD head ∈ head :: front := List.getLastD_mem_cons
  have notFront := place_not_front ring.nodup
  have notBack := final_not_back ring.nodup
  have parts : (head :: front ++ back).Nodup := ring.nodup
  have early : ∀ n ∈ head :: front, n ≠ node := by
    intro n present same
    exact fresh (same ▸ List.mem_append_left back present)
  have late : ∀ n ∈ head :: back, n ≠ node := by
    intro n present same
    subst same
    simp only [List.mem_cons,List.mem_append,not_or] at present fresh
    exact present.elim fresh.1 fresh.2.2
  refine ⟨_,insertBefore_eq (chain_prev into),⟨chain_append.mpr ⟨?_,?_⟩,?_⟩,?_⟩
  · apply chain_redirect into parts.of_append_left
    · intro n present notFinal
      simp only [Function.update_of_ne notFinal,Function.update_of_ne (early n present)]
    · intro n present
      have notPlace : n ≠ back.headD head := fun same => notFront (same ▸ present)
      simp only [Function.update_of_ne notPlace,
        Function.update_of_ne (early n (List.mem_cons_of_mem _ present))]
    · simp only [Function.update_self]
    · simp only [Function.update_of_ne (late _ placeIn).symm,Function.update_self]
  · apply chain_back out (parts.sublist (by simp))
    · simp only [Function.update_of_ne (early _ finalIn).symm,Function.update_self]
    · simp only [Function.update_self]
    · intro n present
      have notFinal : n ≠ front.getLastD head := fun same => notBack (same ▸ present)
      simp only [Function.update_of_ne notFinal,
        Function.update_of_ne (late n (List.mem_cons_of_mem _ present))]
    · intro n present notPlace
      simp only [Function.update_of_ne notPlace,Function.update_of_ne (late n present)]
  · exact (nodup_middle (head :: front) back).mpr ⟨fresh,parts⟩
  · intro n absent
    simp only [List.mem_cons,List.mem_append,not_or] at absent finalIn placeIn
    have notFinal : n ≠ front.getLastD head := by
      intro same
      subst same
      exact finalIn.elim absent.2.1 absent.2.2.1
    have notPlace : n ≠ back.headD head := by
      intro same
      subst same
      exact placeIn.elim absent.2.1 absent.2.2.2
    simp only [Function.update_of_ne notFinal,Function.update_of_ne notPlace,
      Function.update_of_ne absent.1,and_self]

theorem unlink_ring (ring : Ring links head (front ++ node :: back)) :
    ∃ other, unlink links node = some other ∧ Ring other head (front ++ back) ∧
      Outside links other (head :: (front ++ node :: back)) := by
  obtain ⟨into,out⟩ := chain_append.mp ring.chain
  obtain ⟨fresh,parts⟩ := (nodup_middle (head :: front) back).mp ring.nodup
  have placeIn := headD_mem_cons head back
  have finalIn : front.getLastD head ∈ head :: front := List.getLastD_mem_cons
  have notFront := place_not_front parts
  have notBack := final_not_back parts
  have early : ∀ n ∈ head :: front, n ≠ node := by
    intro n present same
    exact fresh (same ▸ List.mem_append_left back present)
  have late : ∀ n ∈ head :: back, n ≠ node := by
    intro n present same
    subst same
    simp only [List.cons_append,List.mem_cons,List.mem_append,not_or] at present fresh
    exact present.elim fresh.1 fresh.2.2
  refine ⟨_,unlink_eq (chain_next out) (chain_prev into) (late _ placeIn).symm,
    ⟨chain_split.mpr ⟨?_,?_⟩,parts⟩,?_⟩
  · apply chain_redirect into parts.of_append_left
    · intro n present notFinal
      simp only [Function.update_of_ne notFinal,Function.update_of_ne (early n present)]
    · intro n present
      have notPlace : n ≠ back.headD head := fun same => notFront (same ▸ present)
      simp only [Function.update_of_ne notPlace,
        Function.update_of_ne (early n (List.mem_cons_of_mem _ present))]
    · simp only [Function.update_of_ne (early _ finalIn),Function.update_self]
    · simp only [Function.update_of_ne (late _ placeIn),Function.update_self]
  · apply chain_back out (parts.sublist (by simp))
    · simp only [Function.update_of_ne (early _ finalIn),Function.update_self]
    · simp only [Function.update_of_ne (late _ placeIn),Function.update_self]
    · intro n present
      have notFinal : n ≠ front.getLastD head := fun same => notBack (same ▸ present)
      simp only [Function.update_of_ne notFinal,
        Function.update_of_ne (late n (List.mem_cons_of_mem _ present))]
    · intro n present notPlace
      simp only [Function.update_of_ne notPlace,Function.update_of_ne (late n present)]
  · intro n absent
    simp only [List.mem_cons,List.mem_append,not_or] at absent finalIn placeIn
    have notFinal : n ≠ front.getLastD head := by
      intro same
      subst same
      exact finalIn.elim absent.1 absent.2.1
    have notPlace : n ≠ back.headD head := by
      intro same
      subst same
      exact placeIn.elim absent.1 absent.2.2.2
    simp only [Function.update_of_ne notFinal,Function.update_of_ne notPlace,
      Function.update_of_ne absent.2.2.1,and_self]

end Operations

end LinkRing
