import SemcMsm7x30.MalformedPayload
import SemcMsm7x30.WireFormat

namespace SemcMsm7x30

-- The dispatch functions' side of Parcel.Decodes: the read finds the value in the
-- bytes, stops right behind them and leaves the status good.
def Takes {α : Type} (x : StateM Locals α) (bytes : List UInt8) (value : α) : Prop :=
  ∀ before after l, l.p = ⟨before ++ bytes ++ after,before.length⟩ → l.status = true →
    (x l).1 = value ∧ (x l).2.p = ⟨before ++ bytes ++ after,(before ++ bytes).length⟩ ∧
      (x l).2.status = true

section Rules
variable {α β γ : Type}

theorem takes_pure (value : α) : Takes (pure value) [] value := by
  intro before after l place fine
  rw [pure_run,place]
  simp [fine]

theorem takes_bind {x : StateM Locals α} {f : α → StateM Locals β} {bytes tail : List UInt8}
    {value : α} {result : β} (first : Takes x bytes value) (rest : Takes (f value) tail result) :
    Takes (x >>= f) (bytes ++ tail) result := by
  intro before after l place fine
  rw [bind_run]
  obtain ⟨found,stops,good⟩ := first before (tail ++ after) l
    (by simpa only [List.append_assoc] using place) fine
  rw [found]
  have last := rest (before ++ bytes) after (x l).2
    (by simpa only [List.append_assoc] using stops) good
  simpa only [List.append_assoc] using last

theorem takes_map {x : StateM Locals α} {make : α → β} {bytes : List UInt8} {value : α}
    (first : Takes x bytes value) : Takes (x >>= fun v => pure (make v)) bytes (make value) := by
  have both : Takes (x >>= fun v => pure (make v)) (bytes ++ []) (make value) :=
    takes_bind first (takes_pure (make value))
  rwa [List.append_nil] at both

theorem takes_checked {f : Bool → StateM Locals β} {bytes : List UInt8} {result : β}
    (rest : Takes (f true) bytes result) : Takes (lastStatus >>= f) bytes result := by
  intro before after l place fine
  have good : (lastStatus >>= f) l = f true l := by
    rw [bind_run,← fine]
    rfl
  rw [good]
  exact rest before after l place fine

theorem Takes.whole {x : StateM Locals α} {bytes : List UInt8} {value : α}
    (takes : Takes x bytes value) (header : List UInt8) :
    (x (.start ⟨header ++ bytes,header.length⟩)).1 = value ∧
      (x (.start ⟨header ++ bytes,header.length⟩)).2.p =
        ⟨header ++ bytes,(header ++ bytes).length⟩ ∧
      (x (.start ⟨header ++ bytes,header.length⟩)).2.status = true := by
  have alone := takes header [] (.start ⟨header ++ bytes,header.length⟩)
    (by rw [List.append_nil]) rfl
  rwa [List.append_nil] at alone

theorem Takes.alone {x : StateM Locals α} {bytes : List UInt8} {value : α}
    (takes : Takes x bytes value) :
    ∃ next, x (.start (.setData bytes)) = (value,next) ∧ next.p = ⟨bytes,bytes.length⟩ ∧
      next.status = true := by
  obtain ⟨found,stops,good⟩ := takes.whole []
  exact ⟨_,Prod.ext found rfl,stops,good⟩

theorem takes_int32 {value : Int} (low : -2^31 ≤ value) (high : value < 2^31) :
    Takes readInt32 (Parcel.le32 value) value := by
  intro before after l place fine
  have read : l.p.readInt32 = _ := place ▸ Parcel.word_roundtrip low high before after
  rw [readInt32,read]
  exact ⟨rfl,rfl,rfl⟩

theorem takes_int (value : Int32) : Takes readInt32 (Parcel.le32 value.toInt) value.toInt :=
  takes_int32 (Int32.le_toInt value) (Int32.toInt_lt value)

theorem takes_byte (value : UInt8) : Takes readByte [value,0,0,0] value.toNat := by
  intro before after l place fine
  have room : 4 ≤ l.p.avail := by
    simp only [place,Parcel.avail,List.length_append,List.length_cons]
    omega
  rw [readByte_enough room,place]
  refine ⟨?_,?_,rfl⟩
  · simp [Parcel.byteAt]
  · simp [Parcel.skip]

theorem takes_bytes (values : List UInt8) :
    Takes (readBytes values.length) (values.flatMap fun value => [value,0,0,0])
      (values.map UInt8.toNat) := by
  induction values with
  | nil => exact takes_pure []
  | cons value values ih => exact takes_bind (takes_byte value) (takes_map ih)

theorem takes_entries {entry : StateM Locals α} {write : γ → List UInt8} {view : γ → α}
    (each : ∀ record, Takes entry (write record) (view record)) (records : List γ) :
    Takes (readEntries entry records.length) (records.flatMap write) (records.map view) := by
  induction records with
  | nil => exact takes_pure []
  | cons record records ih => exact takes_bind (each record) (takes_map ih)

end Rules

end SemcMsm7x30
