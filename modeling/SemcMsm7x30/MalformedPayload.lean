import SemcMsm7x30.Dispatch

namespace SemcMsm7x30

def afterInt (p : Parcel) : Parcel := p.readInt32Value.2

def afterString (p : Parcel) : Parcel := p.readString16Inplace.2

def StringMissing (p : Parcel) : Prop := p.readString16Inplace.1 = none

def cdmaSmsWords (p : Parcel) : Nat :=
  let digits := min (p.byteAt (4*7)) RIL_CDMA_SMS_ADDRESS_MAX
  let subDigits := min (p.byteAt (4*(8+digits+2))) RIL_CDMA_SMS_SUBADDRESS_MAX
  let bearer := (min (p.int32At (4*(8+digits+3+subDigits))) RIL_CDMA_SMS_BEARER_DATA_MAX).toNat
  8+digits+3+subDigits+1+bearer

-- The payloads a dispatch function turns down, in bytes behind the header.
def Malformed (p : Parcel) : DispatchFunction → Prop
  | .dispatchStrings | .dispatchDataCall | .dispatchRaw => p.avail < 4
  | .dispatchInts => p.avail < 4 ∨ p.int32At 0 = 0 ∨ p.avail < 4+4*p.int32At 0
  | .dispatchSmsWrite => p.avail < 4 ∨ StringMissing (afterInt p)
  | .dispatchDial => StringMissing p ∨ (afterString p).avail < 8 ∨
      ((afterString p).int32At 4 ≠ 0 ∧ (afterString p).avail < 20)
  | .dispatchSimIo => (afterString (afterInt (afterInt p))).avail < 12
  | .dispatchCallForward =>
      (afterString (afterInt (afterInt (afterInt (afterInt p))))).avail < 4
  | .dispatchCdmaSms => p.avail < 4*cdmaSmsWords p
  | .dispatchCdmaSmsAck => p.avail < 8
  | .dispatchGsmBrSmsCnf => p.avail < 4 ∨ p.avail < 4+20*p.int32At 0
  | .dispatchCdmaBrSmsCnf => p.avail < 4 ∨ p.avail < 4+12*p.int32At 0
  | .dispatchRilCdmaSmsWriteArgs => p.avail < 4*340
  | .dispatchImsSms => p.avail < 12 ∨ (p.int32At 0 ≠ RADIO_TECH_3GPP ∧ p.int32At 0 ≠ RADIO_TECH_3GPP2) ∨
      (p.int32At 0 = RADIO_TECH_3GPP ∧ p.avail < 16) ∨
      (p.int32At 0 = RADIO_TECH_3GPP2 ∧ p.avail < 12+4*cdmaSmsWords (p.skip 12))
  | _ => False

def Settled (calls : List Call) : Prop :=
  (∃ data, calls = [.onRequest data]) ∨
  ((∃ e response, .onRequestComplete e response ∈ calls) ∧ ∀ data, .onRequest data ∉ calls)

def Dropped (calls : List Call) : Prop := ∀ call ∈ calls, call = .invalidCommandBlock

def Follows (calls : List Call) (malformed : Prop) : Prop :=
  .fault ∉ calls → (malformed → Dropped calls) ∧ (¬ malformed → Settled calls)

theorem settled_onRequest (data : VendorData) : Settled [.onRequest data] := .inl ⟨data,rfl⟩

theorem settled_complete (e : Int) (response : Response) :
    Settled [.onRequestComplete e response] :=
  .inr ⟨⟨e,response,by simp⟩,by simp⟩

theorem dropped_invalid : Dropped [.invalidCommandBlock] := by simp [Dropped]

theorem follows_onRequest (data : VendorData) : Follows [.onRequest data] False :=
  fun _ => ⟨False.elim,fun _ => settled_onRequest data⟩

theorem follows_invalid {malformed : Prop} (bad : malformed) :
    Follows [.invalidCommandBlock] malformed :=
  fun _ => ⟨fun _ => dropped_invalid,fun good => absurd bad good⟩

theorem follows_settled {calls : List Call} {malformed : Prop} (good : ¬ malformed)
    (settled : Settled calls) : Follows calls malformed :=
  fun _ => ⟨fun bad => absurd bad good,fun _ => settled⟩

theorem follows_fault {calls : List Call} {malformed : Prop} (dies : .fault ∈ calls) :
    Follows calls malformed :=
  fun sound => absurd dies sound

section Reading

theorem bind_run {α β : Type} (x : StateM Locals α) (f : α → StateM Locals β) (l : Locals) :
    (x >>= f) l = f (x l).1 (x l).2 := rfl

theorem pure_run {α : Type} (a : α) (l : Locals) : (pure a : StateM Locals α) l = (a,l) := rfl

@[simp] theorem readInt32_p (l : Locals) : (readInt32 l).2.p = afterInt l.p := by
  simp only [readInt32,afterInt,Parcel.readInt32Value,Parcel.readInt32]
  by_cases enough : 4 ≤ l.p.avail <;> simp [enough]

theorem readInt32_status (l : Locals) : (readInt32 l).2.status = false ↔ l.p.avail < 4 := by
  simp only [readInt32,Parcel.readInt32]
  by_cases enough : 4 ≤ l.p.avail
  · simp [enough]
  · simpa [enough] using Nat.not_le.mp enough

theorem readInt32_value {l : Locals} (enough : 4 ≤ l.p.avail) :
    (readInt32 l).1 = l.p.int32At 0 := by
  simp [readInt32,Parcel.readInt32,enough]

theorem readByte_enough {l : Locals} (enough : 4 ≤ l.p.avail) :
    readByte l = (l.p.byteAt 0,{l with p := l.p.skip 4,status := true,ut := l.p.byteAt 0}) := by
  simp [readByte,Parcel.readByte,enough]

@[simp] theorem strdupReadString_p (m : Platform) (l : Locals) :
    (strdupReadString m l).2.p = afterString l.p := rfl

@[simp] theorem strdupReadString_status (m : Platform) (l : Locals) :
    (strdupReadString m l).2.status = l.status := rfl

theorem strdupReadString_none (m : Platform) (l : Locals) :
    (strdupReadString m l).1 = none ↔ StringMissing l.p := by
  simp [strdupReadString,StringMissing]

@[simp] theorem start_p (p : Parcel) : (Locals.start p).p = p := rfl

theorem avail_afterInt (p : Parcel) :
    (afterInt p).avail = if 4 ≤ p.avail then p.avail-4 else p.avail := by
  simp only [afterInt,Parcel.readInt32Value,Parcel.readInt32]
  by_cases enough : 4 ≤ p.avail <;> simp [enough]

theorem afterInt_eq_skip {p : Parcel} (enough : 4 ≤ p.avail) : afterInt p = p.skip 4 := by
  simp [afterInt,Parcel.readInt32Value,Parcel.readInt32,enough]

end Reading

section Words

structure After (p : Parcel) (n : Nat) (l : Locals) : Prop where
  enough : 4*n ≤ p.avail → l.p = p.skip (4*n)
  short : p.avail < 4*n → l.p.avail < 4
  status : 0 < n → (l.status = false ↔ p.avail < 4*n)

def Reads {α : Type} (n : Nat) (x : StateM Locals α) : Prop :=
  ∀ p before l, After p before l → After p (before+n) (x l).2

variable {p : Parcel} {n : Nat} {l : Locals}

theorem after_self (l : Locals) : After l.p 0 l :=
  ⟨fun _ => rfl,fun short => absurd short (Nat.not_lt_zero _),fun positive => absurd positive (lt_irrefl _)⟩

theorem after_start (p : Parcel) : After p 0 (.start p) := after_self (.start p)

theorem After.avail (after : After p n l) (fits : 4*n ≤ p.avail) : l.p.avail = p.avail-4*n := by
  rw [after.enough fits,Parcel.avail_skip]

theorem After.next_fits (after : After p n l) : 4 ≤ l.p.avail ↔ 4*(n+1) ≤ p.avail := by
  by_cases fits : 4*n ≤ p.avail
  · rw [after.avail fits]
    omega
  · have stuck := after.short (by omega)
    omega

theorem After.advance {next : Locals} (after : After p n l) (position : next.p = afterInt l.p)
    (status : next.status = false ↔ l.p.avail < 4) : After p (n+1) next := by
  by_cases fits : 4 ≤ l.p.avail
  · have whole := after.next_fits.mp fits
    have before := after.enough (by omega)
    refine ⟨fun _ => ?_,fun short => absurd whole (by omega),fun _ => ?_⟩
    · rw [position,afterInt_eq_skip fits,before,Parcel.skip_skip]
      rfl
    · rw [status]
      omega
  · have stuck : ¬ 4*(n+1) ≤ p.avail := fun whole => fits (after.next_fits.mpr whole)
    refine ⟨fun whole => absurd whole stuck,fun _ => ?_,fun _ => ?_⟩
    · rw [position,avail_afterInt,if_neg fits]
      omega
    · rw [status]
      omega

theorem readInt32_reads : Reads 1 readInt32 := fun _ _ l after =>
  after.advance (readInt32_p l) (readInt32_status l)

theorem readInt32_third_status (l : Locals) :
    (readInt32 (readInt32 (readInt32 l).2).2).2.status = false ↔ l.p.avail < 12 :=
  (readInt32_reads _ _ _ (readInt32_reads _ _ _ (readInt32_reads _ _ _ (after_self l)))).status
    (by decide)

theorem readByte_reads : Reads 1 readByte := by
  intro p before l after
  apply after.advance
  · simp only [readByte,afterInt,Parcel.readByte,Parcel.readInt32Value,Parcel.readInt32]
    by_cases fits : 4 ≤ l.p.avail <;> simp [fits]
  · simp only [readByte,Parcel.readByte]
    by_cases fits : 4 ≤ l.p.avail
    · simp [fits]
    · simpa [fits] using Nat.not_le.mp fits

theorem pure_reads {α : Type} (a : α) : Reads 0 (pure a : StateM Locals α) :=
  fun _ _ _ after => after

theorem Reads.bind {α β : Type} {k : Nat} {x : StateM Locals α} {f : α → StateM Locals β}
    (first : Reads n x) (rest : ∀ a, Reads k (f a)) : Reads (n+k) (x >>= f) := by
  intro p before l after
  rw [bind_run,← Nat.add_assoc]
  exact rest _ p (before+n) _ (first p before l after)

theorem Reads.status {α : Type} {x : StateM Locals α} (reads : Reads (n+1) x) (l : Locals) :
    (x l).2.status = false ↔ l.p.avail < 4*(n+1) := by
  have after := reads l.p 0 l (after_self l)
  rw [Nat.zero_add] at after
  exact after.status (Nat.succ_pos n)

theorem Reads.of_eq {α : Type} {k : Nat} {x : StateM Locals α} (reads : Reads n x) (same : n = k) :
    Reads k x := same ▸ reads

theorem readBytes_reads (count : Nat) : Reads count (readBytes count) := by
  induction count with
  | zero => exact pure_reads _
  | succ count ih =>
    exact (readByte_reads.bind fun _ => ih.bind fun _ => pure_reads _).of_eq (Nat.add_comm _ _)

theorem readEntries_reads {α : Type} {entry : StateM Locals α} (each : Reads n entry) (num : Nat) :
    Reads (n*num) (readEntries entry num) := by
  induction num with
  | zero => exact pure_reads _
  | succ num ih =>
    exact (each.bind fun _ => ih.bind fun _ => pure_reads _).of_eq (Nat.add_comm _ _)

theorem readInt32_after (after : After p n l) (fits : 4*(n+1) ≤ p.avail) :
    (readInt32 l).1 = p.int32At (4*n) := by
  rw [readInt32_value (after.next_fits.mpr fits),after.enough (by omega),Parcel.int32At_skip]
  rfl

theorem readByte_after (after : After p n l) (fits : 4*(n+1) ≤ p.avail) :
    (readByte l).1 = p.byteAt (4*n) := by
  rw [readByte_enough (after.next_fits.mpr fits),after.enough (by omega),Parcel.byteAt_skip]
  rfl

end Words

section Cdma
variable {p : Parcel} {n : Nat} {l : Locals}

theorem readCdmaSmsHeader_reads : Reads 8 readCdmaSmsHeader :=
  readInt32_reads.bind fun _ => readByte_reads.bind fun _ => readInt32_reads.bind fun _ =>
    readInt32_reads.bind fun _ => readInt32_reads.bind fun _ => readInt32_reads.bind fun _ =>
      readInt32_reads.bind fun _ => readByte_reads.bind fun _ => pure_reads _

theorem readCdmaSmsSubAddress_reads : Reads 3 readCdmaSmsSubAddress :=
  readInt32_reads.bind fun _ => readByte_reads.bind fun _ => readByte_reads.bind fun _ =>
    pure_reads _

theorem header_number_of_digits (after : After p n l) (fits : 4*(n+8) ≤ p.avail) :
    (readCdmaSmsHeader l).1.number_of_digits = p.byteAt (4*(n+7)) := by
  have seven := readInt32_reads _ _ _ (readInt32_reads _ _ _ (readInt32_reads _ _ _
    (readInt32_reads _ _ _ (readInt32_reads _ _ _ (readByte_reads _ _ _
      (readInt32_reads p n l after))))))
  simp only [readCdmaSmsHeader,bind_run,pure_run]
  rw [readByte_after seven (by omega)]

theorem subAddress_number_of_digits (after : After p n l) (fits : 4*(n+3) ≤ p.avail) :
    (readCdmaSmsSubAddress l).1.number_of_digits = p.byteAt (4*(n+2)) := by
  have two := readByte_reads _ _ _ (readInt32_reads p n l after)
  exact readByte_after two fits

-- The counts are the parcel's own bytes as long as the reads before them
-- fitted; where one did not, neither total fits.
theorem counts_agree {a digits digits' sub sub' bearer bearer' : Nat}
    (first : 4*8 ≤ a → digits = digits')
    (second : digits = digits' → 4*(8+digits+3) ≤ a → sub = sub')
    (third : digits = digits' → sub = sub' → 4*(8+digits+3+sub+1) ≤ a → bearer = bearer') :
    4*(8+digits+3+sub+1+bearer) ≤ a ↔ 4*(8+digits'+3+sub'+1+bearer') ≤ a := by
  by_cases fits1 : 4*8 ≤ a
  · have same1 := first fits1
    by_cases fits2 : 4*(8+digits+3) ≤ a
    · have same2 := second same1 fits2
      by_cases fits3 : 4*(8+digits+3+sub+1) ≤ a
      · have same3 := third same1 same2 fits3
        omega
      · omega
    · omega
  · omega

theorem constructCdmaSms_status (p : Parcel) :
    (constructCdmaSms (.start p)).2.status = false ↔ p.avail < 4*cdmaSmsWords p := by
  simp only [constructCdmaSms,readCdmaSms,bind_run,pure_run]
  have header := readCdmaSmsHeader_reads p 0 _ (after_start p)
  have digitsRead := header_number_of_digits (after_start p)
  generalize (readCdmaSmsHeader (.start p)) = first at header digitsRead ⊢
  have digits := readBytes_reads (min first.1.number_of_digits RIL_CDMA_SMS_ADDRESS_MAX) p _ _ header
  generalize (readBytes (min first.1.number_of_digits RIL_CDMA_SMS_ADDRESS_MAX) first.2) = second
    at digits ⊢
  have sub := readCdmaSmsSubAddress_reads p _ _ digits
  have subRead := subAddress_number_of_digits digits
  generalize (readCdmaSmsSubAddress second.2) = third at sub subRead ⊢
  have subDigits := readBytes_reads (min third.1.number_of_digits RIL_CDMA_SMS_SUBADDRESS_MAX)
    p _ _ sub
  generalize (readBytes (min third.1.number_of_digits RIL_CDMA_SMS_SUBADDRESS_MAX) third.2) = fourth
    at subDigits ⊢
  have bearer := readInt32_reads p _ _ subDigits
  have bearerRead := readInt32_after subDigits
  generalize (readInt32 fourth.2) = fifth at bearer bearerRead ⊢
  have last := readBytes_reads (min fifth.1 RIL_CDMA_SMS_BEARER_DATA_MAX).toNat p _ _ bearer
  rw [last.status (by omega)]
  simp only [cdmaSmsWords]
  rw [Nat.zero_add,← Nat.not_le,← Nat.not_le]
  apply not_congr
  apply counts_agree
  · intro fits
    rw [digitsRead fits]
  · intro same fits
    rw [subRead (by omega),← same,Nat.zero_add]
  · intro same1 same2 fits
    rw [bearerRead (by omega),← same2,← same1,Nat.zero_add]

theorem readCdmaSms_reads (a s b : Nat) :
    Reads (8+(a+(3+(s+(1+b))))) (readCdmaSms (fun _ => a) (fun _ => s) (fun _ => b)) :=
  readCdmaSmsHeader_reads.bind fun _ => (readBytes_reads a).bind fun _ =>
    readCdmaSmsSubAddress_reads.bind fun _ => (readBytes_reads s).bind fun _ =>
      readInt32_reads.bind fun _ => (readBytes_reads b).bind fun _ => pure_reads _

theorem readCdmaSmsWriteArgs_status (p : Parcel) :
    (readCdmaSmsWriteArgs (.start p)).2.status = false ↔ p.avail < 4*340 := by
  have reads : Reads 340 readCdmaSmsWriteArgs :=
    (readInt32_reads.bind fun _ => (readCdmaSms_reads _ _ _).bind fun _ => pure_reads _).of_eq rfl
  exact reads.status (.start p)

end Cdma

section Follow
variable (m : Platform) (p : Parcel)

theorem readInt32_some {p : Parcel} (enough : 4 ≤ p.avail) :
    p.readInt32 = some (p.int32At 0,p.skip 4) := by
  simp [Parcel.readInt32,enough]

theorem readInt32_none {p : Parcel} (short : p.avail < 4) : p.readInt32 = none := by
  simp [Parcel.readInt32,Nat.not_le.mpr short]

theorem negativeCount_follows (bytes : Nat) (data : VendorData) :
    Follows (negativeCount m bytes data) False := by
  unfold negativeCount
  split
  · exact follows_onRequest data
  · exact follows_fault (by simp)

theorem stringArray_follows (count : Int) (request : Option (List CString) → Nat → VendorData) :
    Follows (stringArray m p count request) False := by
  unfold stringArray
  split
  · exact follows_onRequest _
  · split
    · exact follows_onRequest _
    · split
      · exact negativeCount_follows m _ _
      · split
        · exact follows_onRequest _
        · exact follows_fault (by simp)

theorem follows_of_not {calls : List Call} {malformed : Prop} (good : ¬ malformed)
    (follows : Follows calls False) : Follows calls malformed :=
  fun sound => ⟨fun bad => absurd bad good,fun _ => (follows sound).2 id⟩

theorem dispatchStrings_follows : Follows (dispatchStrings m p) (p.avail < 4) := by
  unfold dispatchStrings
  by_cases enough : 4 ≤ p.avail
  · rw [readInt32_some enough]
    exact follows_of_not (by omega) (stringArray_follows m _ _ _)
  · rw [readInt32_none (by omega)]
    exact follows_invalid (by omega)

theorem readInts_follows (room count : Nat) (p : Parcel) (malformed : Prop)
    (short : malformed ↔ p.avail < 4*count) (request : List Int → VendorData) :
    Follows (match readInts room count p with
      | .error call => [call]
      | .ok pInts => [.onRequest (request pInts)]) malformed := by
  induction count generalizing room p request with
  | zero =>
    rw [readInts]
    exact follows_settled (fun bad => Nat.not_lt_zero _ (short.mp bad)) (settled_onRequest _)
  | succ count ih =>
    cases room with
    | zero => exact follows_fault (List.mem_singleton.mpr rfl)
    | succ room =>
      by_cases enough : 4 ≤ p.avail
      · simp only [readInts,readInt32_some enough]
        have later := ih room (p.skip 4) (by rw [short,Parcel.avail_skip]; omega)
          fun rest => request (p.int32At 0 :: rest)
        cases ran : readInts room count (p.skip 4) with
        | error call =>
          rw [ran] at later
          exact later
        | ok rest =>
          rw [ran] at later
          exact later
      · simp only [readInts,readInt32_none (Nat.not_le.mp enough)]
        exact follows_invalid (short.mpr (by omega))

theorem dispatchInts_follows :
    Follows (dispatchInts m p) (Malformed p .dispatchInts) := by
  unfold dispatchInts
  by_cases enough : 4 ≤ p.avail
  · simp only [readInt32_some enough]
    by_cases zero : p.int32At 0 = 0
    · rw [if_pos zero]
      exact follows_invalid (.inr (.inl zero))
    · rw [if_neg zero]
      by_cases negative : p.int32At 0 < 0
      · rw [if_pos negative]
        apply follows_of_not _ (negativeCount_follows m _ _)
        rintro (short | none | short)
        · omega
        · exact zero none
        · omega
      rw [if_neg negative]
      split
      · apply readInts_follows
        rw [Parcel.avail_skip]
        constructor
        · rintro (short | none | short)
          · omega
          · exact absurd none zero
          · omega
        · intro short
          exact .inr (.inr (by omega))
      · exact follows_fault (by simp)
  · rw [readInt32_none (by omega)]
    exact follows_invalid (.inl (by omega))

theorem dispatchRaw_follows : Follows (dispatchRaw p) (p.avail < 4) := by
  unfold dispatchRaw
  by_cases enough : 4 ≤ p.avail
  · rw [readInt32_some enough]
    exact follows_of_not (by omega) (follows_onRequest _)
  · rw [readInt32_none (by omega)]
    exact follows_invalid (by omega)

theorem follows_bind {α : Type} {x : StateM Locals α} {f : α → StateM Locals (List Call)}
    {l : Locals} {malformed : Prop} (rest : Follows (f (x l).1 (x l).2).1 malformed) :
    Follows ((x >>= f) l).1 malformed := rest

theorem follows_pure {calls : List Call} {l : Locals} {malformed : Prop}
    (follows : Follows calls malformed) :
    Follows ((pure calls : StateM Locals (List Call)) l).1 malformed := follows

theorem follows_lastStatus {f : Bool → StateM Locals (List Call)} {l : Locals} {malformed : Prop}
    (rest : Follows (f l.status l).1 malformed) : Follows ((lastStatus >>= f) l).1 malformed := rest

theorem follows_check {c malformed : Prop} [Decidable c] {y : StateM Locals (List Call)}
    {l : Locals} (caught : c ↔ malformed) (follows : Follows (y l).1 False) :
    Follows ((if c then pure [.invalidCommandBlock] else y) l).1 malformed := by
  by_cases bad : c
  · rw [if_pos bad]
    exact follows_invalid (caught.mp bad)
  · rw [if_neg bad]
    exact follows_of_not (mt caught.mpr bad) follows

theorem follows_check_of {c malformed : Prop} [Decidable c] {y : StateM Locals (List Call)}
    {l : Locals} (caught : c → malformed) (follows : ¬ c → Follows (y l).1 malformed) :
    Follows ((if c then pure [.invalidCommandBlock] else y) l).1 malformed := by
  by_cases bad : c
  · rw [if_pos bad]
    exact follows_invalid (caught bad)
  · rw [if_neg bad]
    exact follows bad

theorem follows_ite {c malformed : Prop} [Decidable c] {x y : StateM Locals (List Call)} {l : Locals}
    (yes : c → Follows (x l).1 malformed) (no : ¬ c → Follows (y l).1 malformed) :
    Follows ((if c then x else y) l).1 malformed := by
  by_cases holds : c
  · rw [if_pos holds]
    exact yes holds
  · rw [if_neg holds]
    exact no holds

theorem dispatchSmsWrite_follows :
    Follows (dispatchSmsWrite m p) (Malformed p .dispatchSmsWrite) := by
  unfold dispatchSmsWrite dispatched
  apply follows_bind
  apply follows_lastStatus
  apply follows_bind
  apply follows_check
  · rw [readInt32_status,strdupReadString_none,readInt32_p]
    rfl
  · exact follows_bind (follows_onRequest _)

theorem dialWithUus_follows (address : CString) (clir : Int) (l : Locals) :
    Follows (dialWithUus address clir l).1
      (l.p.avail < 4 ∨ (l.p.int32At 0 ≠ 0 ∧ l.p.avail < 16)) := by
  unfold dialWithUus
  apply follows_bind
  apply follows_lastStatus
  apply follows_check_of
  · intro short
    exact .inl ((readInt32_status l).mp short)
  · intro present
    rw [readInt32_status] at present
    rw [readInt32_value (Nat.not_lt.mp present)]
    have second : (readInt32 l).2.p = l.p.skip 4 := by
      rw [readInt32_p,afterInt_eq_skip (by omega)]
    apply follows_ite
    · intro none
      apply follows_settled _ (settled_onRequest _)
      rintro (few | ⟨some,_⟩)
      · exact present few
      · exact some none
    · intro some
      apply follows_bind
      apply follows_bind
      apply follows_bind
      apply follows_lastStatus
      apply follows_check
      · rw [readInt32_third_status,second,Parcel.avail_skip]
        constructor
        · intro few
          exact .inr ⟨some,by omega⟩
        · rintro (few | ⟨_,few⟩)
          · omega
          · omega
      · exact follows_bind (follows_onRequest _)

theorem dispatchDial_follows : Follows (dispatchDial m p) (Malformed p .dispatchDial) := by
  have version : ¬ RIL_VERSION_V3 < 3 := by decide
  unfold dispatchDial dispatched
  apply follows_bind
  apply follows_bind
  apply follows_lastStatus
  apply follows_check_of
  · intro turnedDown
    rw [readInt32_status,strdupReadString_none,strdupReadString_p] at turnedDown
    rcases turnedDown with short | lost
    · exact .inr (.inl (Nat.lt_trans short (by decide)))
    · exact .inl lost
  · intro enough
    rw [readInt32_status,strdupReadString_none,strdupReadString_p,start_p] at enough
    obtain ⟨clir,found⟩ := not_or.mp enough
    rw [if_neg version]
    have position : (readInt32 (strdupReadString m (.start p)).2).2.p = (afterString p).skip 4 := by
      rw [readInt32_p,strdupReadString_p,start_p,afterInt_eq_skip (Nat.not_lt.mp clir)]
    have rest := dialWithUus_follows (strdupReadString m (.start p)).1
      (readInt32 (strdupReadString m (.start p)).2).1 (readInt32 (strdupReadString m (.start p)).2).2
    rw [position,Parcel.avail_skip,Parcel.int32At_skip] at rest
    have same : ((afterString p).avail-4 < 4 ∨
        ((afterString p).int32At (4+0) ≠ 0 ∧ (afterString p).avail-4 < 16)) ↔
        Malformed p .dispatchDial := by
      simp only [Malformed,found,false_or,Nat.add_zero]
      omega
    rw [same] at rest
    exact rest

theorem dispatchSimIo_follows : Follows (dispatchSimIo m p) (Malformed p .dispatchSimIo) := by
  unfold dispatchSimIo dispatched
  apply follows_bind
  apply follows_bind
  apply follows_bind
  apply follows_bind
  apply follows_bind
  apply follows_bind
  apply follows_lastStatus
  apply follows_bind
  apply follows_bind
  apply follows_bind
  apply follows_check
  · rw [readInt32_third_status,strdupReadString_p,readInt32_p,readInt32_p]
    rfl
  · apply follows_ite
    · exact fun _ => follows_fault (List.mem_singleton.mpr rfl)
    · intro _
      apply follows_ite
      · exact fun _ => follows_settled id (settled_complete _ _)
      · intro _
        apply follows_ite
        · exact fun _ => follows_settled id (settled_complete _ _)
        · exact fun _ => follows_onRequest _

theorem dispatchCallForward_follows :
    Follows (dispatchCallForward m p) (Malformed p .dispatchCallForward) := by
  unfold dispatchCallForward dispatched
  apply follows_bind
  apply follows_bind
  apply follows_bind
  apply follows_bind
  apply follows_bind
  apply follows_bind
  apply follows_lastStatus
  apply follows_check
  · rw [readInt32_status,strdupReadString_p,readInt32_p,readInt32_p,readInt32_p,readInt32_p]
    rfl
  · exact follows_onRequest _

theorem dispatchCdmaSms_follows : Follows (dispatchCdmaSms p) (Malformed p .dispatchCdmaSms) := by
  unfold dispatchCdmaSms dispatched
  apply follows_bind
  apply follows_lastStatus
  exact follows_check (constructCdmaSms_status p) (follows_onRequest _)

theorem dispatchImsCdmaSms_follows (retry : Nat) (messageRef : Int) :
    Follows (dispatchImsCdmaSms p retry messageRef) (p.avail < 4*cdmaSmsWords p) := by
  unfold dispatchImsCdmaSms dispatched
  apply follows_bind
  apply follows_lastStatus
  exact follows_check (constructCdmaSms_status p) (follows_onRequest _)

theorem dispatchImsGsmSms_follows (retry : Nat) (messageRef : Int) :
    Follows (dispatchImsGsmSms m p retry messageRef) (p.avail < 4) := by
  unfold dispatchImsGsmSms
  by_cases enough : 4 ≤ p.avail
  · rw [readInt32_some enough]
    exact follows_of_not (by omega) (stringArray_follows m _ _ _)
  · rw [readInt32_none (by omega)]
    exact follows_invalid (by omega)

theorem dispatchCdmaSmsAck_follows :
    Follows (dispatchCdmaSmsAck p) (Malformed p .dispatchCdmaSmsAck) := by
  unfold dispatchCdmaSmsAck dispatched
  apply follows_bind
  apply follows_bind
  apply follows_lastStatus
  apply follows_check _ (follows_onRequest _)
  exact (readInt32_reads _ _ _ (readInt32_reads _ _ _ (after_start p))).status (by decide)

theorem dispatchRilCdmaSmsWriteArgs_follows :
    Follows (dispatchRilCdmaSmsWriteArgs p) (Malformed p .dispatchRilCdmaSmsWriteArgs) := by
  unfold dispatchRilCdmaSmsWriteArgs rilCdmaSmsWriteArgsCalls dispatched
  apply follows_bind
  apply follows_lastStatus
  exact follows_check (readCdmaSmsWriteArgs_status p) (follows_onRequest _)

-- The entries take `words` words each; without entries the status is still
-- that of the count.
theorem dispatchBroadcast_follows {α : Type} {entry : StateM Locals α} {words : Nat}
    (each : Reads words entry) (size : Nat) (request : List α → Nat → VendorData) :
    Follows (dispatchBroadcast m size entry request p)
      (p.avail < 4 ∨ p.avail < 4+4*words*p.int32At 0) := by
  unfold dispatchBroadcast broadcastCalls dispatched
  apply follows_bind
  apply follows_lastStatus
  apply follows_check_of
  · intro short
    exact .inl ((readInt32_status _).mp short)
  · intro present
    rw [readInt32_status,start_p] at present
    have first := readInt32_reads p 0 _ (after_start p)
    rw [readInt32_value (Nat.not_lt.mp present),start_p]
    apply follows_ite
    · intro negative
      have scaled : (4*words : Int)*p.int32At 0 ≤ 0 :=
        mul_nonpos_of_nonneg_of_nonpos (by omega) negative.le
      exact follows_of_not (by omega) (negativeCount_follows m _ _)
    intro natural
    rw [not_lt] at natural
    apply follows_ite
    · intro _
      have all := readEntries_reads each (p.int32At 0).toNat p _ _ first
      apply follows_bind
      apply follows_lastStatus
      apply follows_check _ (follows_onRequest _)
      rw [all.status (by omega)]
      have cast : ((words*(p.int32At 0).toNat : Nat) : Int) = words*p.int32At 0 := by
        rw [Nat.cast_mul,Int.toNat_of_nonneg natural]
      rw [mul_assoc]
      omega
    · exact fun _ => follows_fault (List.mem_singleton.mpr rfl)

theorem readGsmBroadcast_reads : Reads 5 readGsmBroadcast :=
  readInt32_reads.bind fun _ => readInt32_reads.bind fun _ => readInt32_reads.bind fun _ =>
    readInt32_reads.bind fun _ => readInt32_reads.bind fun _ => pure_reads _

theorem readCdmaBroadcast_reads : Reads 3 readCdmaBroadcast :=
  readInt32_reads.bind fun _ => readInt32_reads.bind fun _ => readInt32_reads.bind fun _ =>
    pure_reads _

theorem follows_congr {calls : List Call} {malformed malformed' : Prop}
    (same : malformed ↔ malformed') (follows : Follows calls malformed) :
    Follows calls malformed' := propext same ▸ follows

theorem dispatchImsSms_follows : Follows (dispatchImsSms m p) (Malformed p .dispatchImsSms) := by
  unfold dispatchImsSms
  simp only [Malformed]
  by_cases first : 4 ≤ p.avail
  · rw [readInt32_some first]
    by_cases second : 8 ≤ p.avail
    · have byte : (p.skip 4).readByte = some ((p.skip 4).byteAt 0,p.skip 8) := by
        simp [Parcel.readByte,show 4 ≤ p.avail-4 by omega]
      simp only [byte]
      by_cases third : 12 ≤ p.avail
      · have word : (p.skip 8).readInt32 = some ((p.skip 8).int32At 0,p.skip 12) := by
          rw [readInt32_some (by rw [Parcel.avail_skip]; omega),Parcel.skip_skip]
        simp only [word]
        by_cases gsm : RADIO_TECH_3GPP = p.int32At 0
        · rw [if_pos gsm]
          apply follows_congr _ (dispatchImsGsmSms_follows m _ _ _)
          rw [Parcel.avail_skip,← gsm]
          simp [RADIO_TECH_3GPP,RADIO_TECH_3GPP2]
          omega
        · rw [if_neg gsm]
          by_cases cdma : RADIO_TECH_3GPP2 = p.int32At 0
          · rw [if_pos cdma]
            apply follows_congr _ (dispatchImsCdmaSms_follows _ _ _)
            rw [Parcel.avail_skip,← cdma]
            simp [RADIO_TECH_3GPP,RADIO_TECH_3GPP2]
            omega
          · rw [if_neg cdma]
            intro _
            refine ⟨fun _ => by simp [Dropped],fun good => ?_⟩
            exact absurd (.inr (.inl ⟨Ne.symm gsm,Ne.symm cdma⟩)) good
      · rw [readInt32_none (by rw [Parcel.avail_skip]; omega)]
        exact follows_invalid (.inl (by omega))
    · have byte : (p.skip 4).readByte = none := by
        simp [Parcel.readByte,show ¬ 4 ≤ p.avail-4 by omega]
      simp only [byte]
      exact follows_invalid (.inl (by omega))
  · rw [readInt32_none (by omega)]
    exact follows_invalid (.inl (by omega))

theorem writeStringToParcel_length_le (p : Parcel) (s : CString) :
    p.data.length ≤ (writeStringToParcel m p s).data.length := by
  unfold writeStringToParcel
  cases s with
  | none => exact Parcel.write_length_le p _
  | some bytes =>
    exact (Parcel.write_length_le p _).trans (Parcel.write_length_le _ _)

theorem writeStrings_length_le (strings : List CString) (p : Parcel) :
    p.data.length ≤ (strings.foldl (writeStringToParcel m) p).data.length := by
  induction strings generalizing p with
  | nil => exact le_refl _
  | cons s rest ih => exact (writeStringToParcel_length_le m p s).trans (ih _)

-- The rewritten parcel holds a count where dispatchStrings looks for one.
theorem dispatchRewritten_follows (appId : CString) (count : Int) (strings : List CString)
    (inside : p.pos ≤ p.data.length) :
    Follows (dispatchRewritten m p appId count strings) False := by
  cases appId with
  | none => exact follows_fault (List.mem_singleton.mpr rfl)
  | some id =>
    unfold dispatchRewritten
    apply follows_congr _ (dispatchStrings_follows m _)
    rw [iff_false,Nat.not_lt]
    have header : ((Parcel.empty.appendFrom p p.pos).writeInt32 count).data.length = p.pos+4 := by
      simp [Parcel.appendFrom,Parcel.writeInt32,Parcel.write,Parcel.empty,inside]
    have kept := writeStrings_length_le m
      (some (if id = [] then [] else [0x30]) :: some id :: strings)
      ((Parcel.empty.appendFrom p p.pos).writeInt32 count)
    simp only [Parcel.avail,Parcel.setDataPosition]
    omega

theorem dispatchQueryFacility_follows (inside : p.pos ≤ p.data.length) :
    Follows (dispatchQueryFacility m p) False := by
  unfold dispatchQueryFacility dispatched
  apply follows_bind
  apply follows_bind
  apply follows_bind
  apply follows_bind
  apply follows_bind
  apply follows_pure
  exact dispatchRewritten_follows m p _ _ _ inside

theorem dispatchSetFacility_follows (inside : p.pos ≤ p.data.length) :
    Follows (dispatchSetFacility m p) False := by
  unfold dispatchSetFacility dispatched
  apply follows_bind
  apply follows_bind
  apply follows_bind
  apply follows_bind
  apply follows_bind
  apply follows_bind
  apply follows_pure
  exact dispatchRewritten_follows m p _ _ _ inside

theorem dispatchDataCall_eq : dispatchDataCall m p = dispatchStrings m p := by
  have version : ¬ (RIL_VERSION_V3 < 4 ∧ p.readInt32Value.1 > numParamsRilV3) :=
    fun both => absurd both.1 (by decide)
  have back : p.readInt32Value.2.setDataPosition p.pos = p := by
    simp only [Parcel.readInt32Value,Parcel.readInt32]
    by_cases enough : 4 ≤ p.avail <;> simp [enough,Parcel.setDataPosition,Parcel.skip]
  simp only [dispatchDataCall,if_neg version,back]

theorem dispatchDecoded_follows (state : RadioState) (store : Int → Call) (decode : RadioState → Int)
    (other : ∀ value data, store value ≠ .onRequest data) :
    Follows (dispatchDecoded state store decode) False := by
  apply follows_settled id
  by_cases powered : state = .on
  · subst powered
    exact settled_onRequest _
  · refine .inr ⟨?_,?_⟩
    · by_cases negative : decode state < 0
      · exact ⟨RIL_E_GENERIC_FAILURE,.null,by simp [dispatchDecoded,powered,negative]⟩
      · exact ⟨RIL_E_SUCCESS,.int (decode state),by simp [dispatchDecoded,powered,negative]⟩
    · intro data called
      simp only [dispatchDecoded,powered,if_false,List.mem_append,List.mem_cons] at called
      rcases called with early | stored | last | none
      · split at early <;> simp at early
      · exact other _ _ stored.symm
      · split at last <;> cases last
      · cases none

theorem dispatch_follows (state : RadioState) (inside : p.pos ≤ p.data.length)
    (f : DispatchFunction) : Follows (dispatch m state p f) (Malformed p f) := by
  cases f with
  | dispatchVoid => exact follows_onRequest _
  | dispatchSimPin => exact follows_onRequest _
  | dispatchSimPuk => exact follows_onRequest _
  | dispatchSimPinSet => exact follows_onRequest _
  | dispatchStrings => exact dispatchStrings_follows m p
  | dispatchDial => exact dispatchDial_follows m p
  | dispatchRequestImsi => exact follows_onRequest _
  | dispatchInts => exact dispatchInts_follows m p
  | dispatchString => exact follows_onRequest _
  | dispatchDataCall =>
    unfold dispatch
    rw [dispatchDataCall_eq]
    exact dispatchStrings_follows m p
  | dispatchSimIo => exact dispatchSimIo_follows m p
  | dispatchCallForward => exact dispatchCallForward_follows m p
  | dispatchQueryFacility => exact dispatchQueryFacility_follows m p inside
  | dispatchSetFacility => exact dispatchSetFacility_follows m p inside
  | dispatchNetworkManual => exact follows_onRequest _
  | dispatchRaw => exact dispatchRaw_follows p
  | dispatchSmsWrite => exact dispatchSmsWrite_follows m p
  | dispatchCdmaSms => exact dispatchCdmaSms_follows p
  | dispatchCdmaSmsAck => exact dispatchCdmaSmsAck_follows p
  | dispatchGsmBrSmsCnf =>
    apply follows_congr _ (dispatchBroadcast_follows m p readGsmBroadcast_reads 24 .gsmBroadcast)
    norm_num [Malformed]
  | dispatchCdmaBrSmsCnf =>
    apply follows_congr _ (dispatchBroadcast_follows m p readCdmaBroadcast_reads 16 .cdmaBroadcast)
    norm_num [Malformed]
  | dispatchRilCdmaSmsWriteArgs => exact dispatchRilCdmaSmsWriteArgs_follows p
  | dispatchCdmaSubscriptionSource => exact dispatchDecoded_follows _ _ _ (by simp)
  | dispatchVoiceRadioTech => exact dispatchDecoded_follows _ _ _ (by simp)
  | dispatchImsSms => exact dispatchImsSms_follows m p

end Follow

end SemcMsm7x30
